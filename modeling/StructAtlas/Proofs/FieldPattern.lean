import StructAtlas.Proofs.FieldGrammar
import StructAtlas.Proofs.Patterns

set_option autoImplicit false

/-!
# Fields as a pattern

The grammar of fields can be written as a pattern that is matched with backtracking
(`Field.pattern`). The pattern tries the keyword `struct` and the qualifiers first and gives them
back where the statement does not go on. It takes the texts of the grammar (`describes_pattern`),
and whichever way through a text comes first, the parts that are kept on it are those of the field
that the reader returns.
-/

namespace StructAtlas.Field

open Text Pattern

/-! ## The pattern -/

/-- Any blanks. -/
def blanks : Pattern :=
  .many (.char isBlank)

/-- One or more blanks. -/
def blankGap : Pattern :=
  .oneOrMore isBlank

/-- One of the qualifiers. -/
def qualifier : Pattern :=
  .alt (.text "const".toList)
    (.alt (.text "volatile".toList) (.alt (.text "unsigned".toList) (.text "signed".toList)))

/-- The keyword `struct`, if it is there. -/
def keywordPattern : Pattern :=
  .maybe (.seq (.named "struct" (.text "struct".toList)) blankGap)

/-- Qualifiers and a word. -/
def typePattern : Pattern :=
  .named "type" (.seq (.many (.seq qualifier blankGap)) (.oneOrMore isWord))

/-- A star or blanks. -/
def separatorPattern : Pattern :=
  .alt (.seq blanks (.seq (.named "pointer" (.text ['*'])) blanks)) blankGap

/-- The text in square brackets, if they are there. -/
def bracketPattern : Pattern :=
  .maybe (.seq (.text ['[']) (.seq blanks (.seq (.named "repetition" (.few (.char isInner)))
    (.seq blanks (.text [']'])))))

/-- The pattern of statements. -/
def pattern : Pattern :=
  .seq blanks (.seq keywordPattern (.seq typePattern (.seq separatorPattern
    (.seq (.named "name" (.oneOrMore isWord)) (.seq blanks (.seq bracketPattern blanks))))))

/-- The field that a match stands for. -/
def ofMatch (y : Place) : Option Field := do
  let name ← y.get? "name"
  let type ← y.get? "type"
  return ⟨String.ofList name, String.ofList ([' '].intercalate (words type)),
    (y.get? "pointer").isSome, (y.get? "repetition").map fun inside => String.ofList (trim inside),
    (y.get? "struct").isSome⟩

/-! ## What the parts of the pattern take -/

theorem describes_blanks : Describes blanks (.Plain (Run isBlank)) :=
  describes_plain fun _ _ => mem_ends_run

theorem describes_blankGap : Describes blankGap (.Plain IsGap) :=
  describes_plain fun _ _ => mem_ends_oneOrMore

theorem describes_text (cs : List Char) : Describes (.text cs) (.Plain (· = cs)) := by
  apply describes_plain
  intro x y
  rw [mem_ends_text, exists_eq_left]

theorem describes_word : Describes (.oneOrMore isWord) (.Plain IsName) :=
  describes_plain fun _ _ => mem_ends_oneOrMore

/-- The keyword `struct` with a gap behind it, or nothing. -/
inductive Keyword : Language where
  | absent : Keyword [] []
  | present {gap : List Char} : IsGap gap →
    Keyword ("struct".toList ++ gap) [("struct", "struct".toList)]

theorem describes_keyword : Describes keywordPattern Keyword := by
  have hkeyword := (describes_text "struct".toList).named "struct"
  refine (hkeyword.seq describes_blankGap).maybe.congr fun run kept => ⟨?_, ?_⟩
  · rintro (⟨⟨⟨⟨rfl⟩⟩, ⟨hgap⟩⟩⟩ | ⟨⟨rfl⟩⟩)
    · exact .present hgap
    · exact .absent
  · rintro (_ | hgap)
    · exact .right (.intro rfl)
    · exact .left (.of_eq (.intro (.intro rfl)) (.intro hgap) rfl rfl)

theorem mem_ends_qualifier {x y : Place} :
    y ∈ qualifier.ends x ↔ ∃ w ∈ qualifiers, Passes x w y := by
  simp only [qualifier, mem_ends_alt, mem_ends_text, qualifiers, List.mem_cons, List.not_mem_nil,
    or_false, exists_eq_or_imp, exists_eq_left]

/-- Type words, of which all but the last are qualifiers. -/
def IsType (type : List Char) : Prop :=
  ∃ ws, Joined ws type ∧ ∀ w ∈ ws.dropLast, w ∈ qualifiers

/-- A type goes on behind a qualifier. -/
theorem isType_append {w gap type : List Char} (hw : w ∈ qualifiers) (hgap : IsGap gap)
    (h : IsType type) : IsType (w ++ (gap ++ type)) := by
  obtain ⟨ws, hws, hall⟩ := h
  have hname : ∀ q ∈ qualifiers, IsName q := by decide
  refine ⟨w :: ws, .more (hname w hw) hgap hws, fun v hv => ?_⟩
  rw [List.dropLast_cons_of_ne_nil hws.ne_nil, List.mem_cons] at hv
  rcases hv with rfl | hv
  · exact hw
  · exact hall v hv

/-- Qualifiers and the word behind them are a type. -/
theorem exists_isType_of_reaches {x y z : Place} {name : List Char}
    (hz : Relation.ReflTransGen (Advances (seq qualifier blankGap).ends) x z) (hname : IsName name)
    (hpass : Passes z name y) : ∃ type, IsType type ∧ Passes x type y := by
  -- The qualifiers are put in front of the word one by one.
  induction hz using Relation.ReflTransGen.head_induction_on with
  | refl => exact ⟨name, ⟨[name], .one hname, by simp⟩, hpass⟩
  | head hstep _ ih =>
    obtain ⟨type, htype, hrest⟩ := ih
    obtain ⟨u, hu, hgap⟩ := mem_ends_seq.1 hstep.1
    obtain ⟨w, hw, hxu⟩ := mem_ends_qualifier.1 hu
    obtain ⟨gap, hgap, huv⟩ := mem_ends_oneOrMore.1 hgap
    exact ⟨_, isType_append hw hgap htype, hxu.trans (huv.trans hrest)⟩

/-- The qualifiers of a type are passed before its last word. -/
theorem exists_reaches_of_joined {x y : Place} {ws : List (List Char)} {type : List Char}
    (hws : Joined ws type) (hall : ∀ w ∈ ws.dropLast, w ∈ qualifiers) (hpass : Passes x type y) :
    ∃ z name, Relation.ReflTransGen (Advances (seq qualifier blankGap).ends) x z ∧ IsName name ∧
      Passes z name y := by
  induction hws generalizing x with
  | one hname => exact ⟨x, _, .refl, hname, hpass⟩
  | @more w gap type ws hw hgap hws ih =>
    rw [List.dropLast_cons_of_ne_nil hws.ne_nil] at hall
    rw [← List.append_assoc] at hpass
    obtain ⟨v, hxv, hpass⟩ := passes_append.1 hpass
    obtain ⟨z, name, hz, hname, hy⟩ := ih (fun q hq => hall q (List.mem_cons_of_mem _ hq)) hpass
    obtain ⟨u, hxu, huv⟩ := passes_append.1 hxv
    have hstep : v ∈ (seq qualifier blankGap).ends x :=
      mem_ends_seq.2 ⟨u, mem_ends_qualifier.2 ⟨w, hall w List.mem_cons_self, hxu⟩,
        mem_ends_oneOrMore.2 ⟨gap, hgap, huv⟩⟩
    exact ⟨z, name, .head (hxv.advances (by simp [hw.1]) hstep) hz, hname, hy⟩

theorem mem_ends_type {x y : Place} :
    y ∈ (seq (.many (.seq qualifier blankGap)) (.oneOrMore isWord)).ends x ↔
      ∃ type, IsType type ∧ Passes x type y := by
  rw [mem_ends_seq]
  constructor
  · rintro ⟨z, hz, hy⟩
    obtain ⟨name, hname, hpass⟩ := mem_ends_oneOrMore.1 hy
    exact exists_isType_of_reaches (mem_ends_many.1 hz) hname hpass
  · rintro ⟨type, ⟨ws, hws, hall⟩, hpass⟩
    obtain ⟨z, name, hz, hname, hy⟩ := exists_reaches_of_joined hws hall hpass
    exact ⟨z, mem_ends_many.2 hz, mem_ends_oneOrMore.2 ⟨name, hname, hy⟩⟩

theorem describes_type : Describes typePattern (.Named "type" (.Plain IsType)) :=
  (describes_plain fun _ _ => mem_ends_type).named "type"

/-- A star or a gap; the star is kept. -/
inductive Separator : Language where
  | gap {gap : List Char} : IsGap gap → Separator gap []
  | star {b₁ b₂ : List Char} : Run isBlank b₁ → Run isBlank b₂ →
    Separator (b₁ ++ '*' :: b₂) [("pointer", ['*'])]

theorem describes_separator : Describes separatorPattern Separator := by
  have hstar := (describes_text ['*']).named "pointer"
  have hparts := describes_blanks.seq (hstar.seq describes_blanks)
  refine (hparts.alt describes_blankGap).congr fun run kept => ⟨?_, ?_⟩
  · rintro (⟨⟨⟨hb₁⟩, ⟨⟨⟨rfl⟩⟩, ⟨hb₂⟩⟩⟩⟩ | ⟨⟨hgap⟩⟩)
    · exact .star hb₁ hb₂
    · exact .gap hgap
  · rintro (hgap | ⟨hb₁, hb₂⟩)
    · exact .right (.intro hgap)
    · exact .left (.of_eq (.intro hb₁) (.of_eq (.intro (.intro rfl)) (.intro hb₂) rfl rfl) rfl rfl)

/-- The text in square brackets; some blanks at its ends are not kept. -/
inductive Inside : Language where
  | absent : Inside [] []
  | present {b₁ r b₂ : List Char} : Run isBlank b₁ → Run isInner r → Run isBlank b₂ →
    Inside ('[' :: (b₁ ++ (r ++ (b₂ ++ [']'])))) [("repetition", r)]

theorem describes_bracket : Describes bracketPattern Inside := by
  have hinner : Describes (.few (.char isInner)) (.Plain (Run isInner)) :=
    describes_plain fun _ _ => mem_ends_few.trans mem_ends_run
  have hclose := describes_blanks.seq (describes_text [']'])
  have hparts := describes_blanks.seq ((hinner.named "repetition").seq hclose)
  refine ((describes_text ['[']).seq hparts).maybe.congr fun run kept => ⟨?_, ?_⟩
  · rintro (⟨⟨⟨rfl⟩, ⟨⟨hb₁⟩, ⟨⟨⟨hr⟩⟩, ⟨⟨hb₂⟩, ⟨rfl⟩⟩⟩⟩⟩⟩ | ⟨⟨rfl⟩⟩)
    · exact .present hb₁ hr hb₂
    · exact .absent
  · rintro (_ | ⟨hb₁, hr, hb₂⟩)
    · exact .right (.intro rfl)
    · exact .left (.of_eq (.intro rfl) (.of_eq (.intro hb₁) (.of_eq (.intro (.intro hr))
        (.of_eq (.intro hb₂) (.intro rfl) rfl rfl) rfl rfl) rfl rfl) rfl rfl)

/-- A statement in the parts that the pattern keeps of it. -/
inductive Matched : Language where
  | parts {lead keyword type sep name b brackets tail : List Char}
    {structKept pointerKept insideKept : List (String × List Char)} :
    Run isBlank lead → Keyword keyword structKept → IsType type → Separator sep pointerKept →
    IsName name → Run isBlank b → Inside brackets insideKept → Run isBlank tail →
    Matched (lead ++ (keyword ++ (type ++ (sep ++ (name ++ (b ++ (brackets ++ tail)))))))
      (insideKept ++ (("name", name) :: (pointerKept ++ (("type", type) :: structKept))))

/-- The pattern takes the statements. -/
theorem describes_pattern : Describes pattern Matched := by
  have hend := describes_blanks.seq (describes_bracket.seq describes_blanks)
  have hname := (describes_word.named "name").seq hend
  have htype := describes_type.seq (describes_separator.seq hname)
  refine (describes_blanks.seq (describes_keyword.seq htype)).congr fun run kept => ⟨?_, ?_⟩
  · rintro ⟨⟨hlead⟩, ⟨hkeyword, ⟨⟨⟨htype⟩⟩, ⟨hsep, ⟨⟨⟨hname⟩⟩, ⟨⟨hb⟩, ⟨hinside, ⟨htail⟩⟩⟩⟩⟩⟩⟩⟩
    have hmatched := Matched.parts hlead hkeyword htype hsep hname hb hinside htail
    simpa using hmatched
  · rintro ⟨hlead, hkeyword, htype, hsep, hname, hb, hinside, htail⟩
    exact .of_eq (.intro hlead) (.of_eq hkeyword (.of_eq (.intro (.intro htype)) (.of_eq hsep
      (.of_eq (.intro (.intro hname)) (.of_eq (.intro hb) (.of_eq hinside (.intro htail)
        rfl rfl) rfl rfl) rfl rfl) rfl rfl) rfl rfl) rfl rfl) rfl (by simp)

/-! ## Matches are statements -/

section Matches

variable {cs keyword type sep brackets name : List Char}
  {structKept pointerKept insideKept : List (String × List Char)}

/-- What is found under the names when all parts are kept. -/
theorem lookup_kept (hkeyword : Keyword keyword structKept) (hsep : Separator sep pointerKept)
    (hinside : Inside brackets insideKept) :
    let kept := insideKept ++ (("name", name) :: (pointerKept ++ (("type", type) :: structKept)))
    kept.lookup "name" = some name ∧ kept.lookup "type" = some type ∧
      kept.lookup "pointer" = pointerKept.lookup "pointer" ∧
      kept.lookup "repetition" = insideKept.lookup "repetition" ∧
      kept.lookup "struct" = structKept.lookup "struct" := by
  cases hkeyword <;> cases hsep <;> cases hinside <;> simp [List.lookup_cons]

theorem Separator.separates (h : Separator sep pointerKept) :
    Separates (pointerKept.lookup "pointer").isSome sep := by
  cases h with
  | gap hgap => exact .gap hgap
  | star hb₁ hb₂ => exact .star hb₁ hb₂

theorem Separates.exists_kept {isPointer : Bool} (h : Separates isPointer sep) :
    ∃ pointerKept, Separator sep pointerKept := by
  cases h with
  | gap hgap => exact ⟨_, .gap hgap⟩
  | star hb₁ hb₂ => exact ⟨_, .star hb₁ hb₂⟩

theorem isInner_of_isBlank (c : Char) (h : isBlank c = true) : isInner c = true := by
  have hne : c ≠ '[' ∧ c ≠ ']' := by
    constructor <;> rintro rfl <;> cases h
  simp [isInner, hne]

theorem trim_append {b₁ r b₂ : List Char} (hb₁ : Run isBlank b₁) (hb₂ : Run isBlank b₂) :
    trim (b₁ ++ (r ++ b₂)) = trim r := by
  rw [trim, trim, skipBlanks, skipBlanks, List.dropWhile_append_of_pos hb₁, List.dropWhile_append]
  split
  · -- Nothing but blanks stands there.
    rename_i hempty
    have hnone := dropWhile_run hb₂ (stops_nil isBlank)
    rw [List.append_nil] at hnone
    rw [hnone, List.isEmpty_iff.1 hempty]
  · rw [List.reverse_append, List.dropWhile_append_of_pos fun c hc => hb₂ c (List.mem_reverse.1 hc)]

theorem Inside.exists_bracketed (h : Inside brackets insideKept) :
    ∃ inside, Bracketed inside brackets ∧
      (insideKept.lookup "repetition").map trim = inside.map trim := by
  cases h with
  | absent => exact ⟨none, .absent, rfl⟩
  | @present b₁ r b₂ hb₁ hr hb₂ =>
    have hblank : ∀ {b}, Run isBlank b → Run isInner b := fun hb c hc =>
      isInner_of_isBlank c (hb c hc)
    have hrun : Run isInner (b₁ ++ (r ++ b₂)) :=
      run_append.2 ⟨hblank hb₁, run_append.2 ⟨hr, hblank hb₂⟩⟩
    obtain ⟨hopen, hclose⟩ := run_isInner_iff.1 hrun
    have hbrackets := Bracketed.present hopen hclose
    refine ⟨some (b₁ ++ (r ++ b₂)), by simpa using hbrackets, ?_⟩
    rw [Option.map_some, trim_append hb₁ hb₂]
    simp

theorem Bracketed.exists_kept {inside : Option (List Char)} (h : Bracketed inside brackets) :
    ∃ insideKept, Inside brackets insideKept := by
  cases h with
  | absent => exact ⟨_, .absent⟩
  | @present r hopen hclose =>
    have hr := run_isInner_iff.2 ⟨hopen, hclose⟩
    exact ⟨_, @Inside.present [] r [] (run_nil _) hr (run_nil _)⟩

theorem Parts.exists_of_isStruct {p : Parts} (h : p.isStruct = true) :
    p.words = "struct".toList :: p.types ∧ p.types ≠ [] := by
  have hparts := h
  rw [isStruct, Bool.and_eq_true, beq_iff_eq, decide_eq_true_eq] at hparts
  obtain ⟨rest, hwords⟩ := List.head?_eq_some_iff.1 hparts.1
  have htypes : p.types = rest := by rw [types, h, if_pos rfl, hwords, List.tail_cons]
  rw [htypes]
  refine ⟨hwords, ?_⟩
  rintro rfl
  rw [hwords] at hparts
  exact absurd hparts.2 (by decide)

theorem Parts.isStruct_of_words {p : Parts} {ws : List (List Char)} (hne : ws ≠ [])
    (h : p.words = "struct".toList :: ws) : p.isStruct = true ∧ p.types = ws := by
  have hstruct : p.isStruct = true := by
    have hpos := List.length_pos_iff.2 hne
    rw [isStruct, h, List.head?_cons, beq_self_eq_true, Bool.true_and, decide_eq_true_eq,
      List.length_cons]
    omega
  exact ⟨hstruct, by rw [types, hstruct, if_pos rfl, h, List.tail_cons]⟩

/-- The keyword is no qualifier, so it does not stand before type words of which all but the last
are. -/
theorem Parts.isStruct_of_qualifiers {p : Parts} (h : ∀ w ∈ p.words.dropLast, w ∈ qualifiers) :
    p.isStruct = false ∧ p.types = p.words := by
  have hstruct : p.isStruct = false := by
    rw [Bool.eq_false_iff]
    intro hstruct
    obtain ⟨hwords, hne⟩ := exists_of_isStruct hstruct
    rw [hwords, List.dropLast_cons_of_ne_nil hne] at h
    exact absurd (h _ List.mem_cons_self) (by decide)
  exact ⟨hstruct, by rw [types, hstruct, if_neg Bool.false_ne_true]⟩

/-- The words of a type that was matched, with the keyword if it was kept. -/
theorem exists_words_of_type (hkeyword : Keyword keyword structKept) (htype : IsType type) :
    ∃ ws, Joined ws (keyword ++ type) ∧ ∀ isPointer name inside,
      let p : Parts := ⟨ws, isPointer, name, inside⟩
      p.isStruct = (structKept.lookup "struct").isSome ∧ p.types = words type ∧
        ∀ w ∈ p.types.dropLast, w ∈ qualifiers := by
  obtain ⟨ws, hws, hall⟩ := htype
  have hwords : words type = ws := by
    have hwords := hws.words_eq (run_nil isBlank) (run_nil isBlank)
    rwa [List.append_nil] at hwords
  rw [hwords]
  cases hkeyword with
  | absent =>
    refine ⟨ws, hws, ?_⟩
    intro isPointer name inside p
    obtain ⟨hstruct, htypes⟩ : p.isStruct = false ∧ p.types = ws :=
      Parts.isStruct_of_qualifiers hall
    rw [hstruct, htypes]
    exact ⟨rfl, rfl, hall⟩
  | @present gap hgap =>
    refine ⟨"struct".toList :: ws, ?_, ?_⟩
    · rw [List.append_assoc]
      exact .more (by decide) hgap hws
    · intro isPointer name inside p
      obtain ⟨hstruct, htypes⟩ : p.isStruct = true ∧ p.types = ws :=
        Parts.isStruct_of_words hws.ne_nil rfl
      rw [hstruct, htypes]
      exact ⟨rfl, rfl, hall⟩

/-- Joined words are the keyword, if it stands apart from the type, and the words of the type. -/
theorem exists_matched_words {p : Parts} {joined : List Char} (h : Joined p.words joined)
    (hall : ∀ w ∈ p.types.dropLast, w ∈ qualifiers) :
    ∃ keyword structKept type, joined = keyword ++ type ∧ Keyword keyword structKept ∧
      IsType type := by
  cases hstruct : p.isStruct with
  | true =>
    obtain ⟨hwords, hne⟩ := Parts.exists_of_isStruct hstruct
    rw [hwords] at h
    generalize p.types = types at h hne hall
    cases h with
    | one => exact absurd rfl hne
    | @more _ gap text _ _ hgap htext =>
      exact ⟨_, _, text, (List.append_assoc ..).symm, .present hgap, types, htext, hall⟩
  | false =>
    have htypes : p.types = p.words := by rw [Parts.types, hstruct, if_neg Bool.false_ne_true]
    exact ⟨[], [], joined, rfl, .absent, p.types, htypes ▸ h, hall⟩

/-- A match is a statement, and what is kept of it is its field. -/
theorem Matched.exists_written {y : Place} (h : Matched cs y.kept) :
    ∃ p, Written p cs ∧ ofMatch y = some p.field := by
  generalize hkept : y.kept = kept at h
  cases h with
  | @parts lead keyword type sep name b brackets tail _ _ _ hlead hkeyword htype hsep hname hb
      hinside htail =>
    obtain ⟨hgetName, hgetType, hgetPointer, hgetInside, hgetStruct⟩ :=
      @lookup_kept _ type _ _ name _ _ _ hkeyword hsep hinside
    rw [← hkept, ← Place.get?] at hgetName hgetType hgetPointer hgetInside hgetStruct
    obtain ⟨ws, hjoined, hwords⟩ := exists_words_of_type hkeyword htype
    obtain ⟨inside, hbrackets, htrim⟩ := hinside.exists_bracketed
    obtain ⟨hstruct, htypes, hall⟩ := hwords (y.get? "pointer").isSome name inside
    rw [← hgetStruct] at hstruct
    rw [← hgetInside] at htrim
    refine ⟨⟨ws, (y.get? "pointer").isSome, name, inside⟩, ?_, ?_⟩
    · have hseparates := hsep.separates
      rw [← hgetPointer] at hseparates
      have hwritten := @Written.parts ⟨ws, (y.get? "pointer").isSome, name, inside⟩ lead
        (keyword ++ type) sep b brackets tail hlead hjoined hseparates hname hb hbrackets htail hall
      rwa [List.append_assoc keyword] at hwritten
    · have hrepetition : ((y.get? "repetition").map fun inside => String.ofList (trim inside)) =
          inside.map fun inside => String.ofList (trim inside) := by
        have hmap := congrArg (Option.map String.ofList) htrim
        rwa [Option.map_map, Option.map_map] at hmap
      rw [ofMatch, hgetName, hgetType, Parts.field, hstruct, htypes, hrepetition]
      rfl

/-- Every statement is matched. -/
theorem Written.exists_matched {p : Parts} (h : Written p cs) : ∃ kept, Matched cs kept := by
  cases h with
  | parts hlead hjoined hsep hname hb hbrackets htail hall =>
    obtain ⟨keyword, structKept, type, rfl, hkeyword, htype⟩ := exists_matched_words hjoined hall
    obtain ⟨pointerKept, hpointer⟩ := hsep.exists_kept
    obtain ⟨insideKept, hinside⟩ := hbrackets.exists_kept
    have hmatched := Matched.parts hlead hkeyword htype hpointer hname hb hinside htail
    exact ⟨_, by simpa using hmatched⟩

end Matches

/-- **Fields of statements.** A statement is read as a field exactly if its text has the parts of
one, and then the field is that of the parts, so no text has parts of two different fields. The same
is found by matching the pattern with the whole text, whichever of its ways through the text comes
first. -/
theorem read_statement_by_grammar (statement : List Char) :
    (∀ f, read statement = some f ↔ ∃ p, Written p statement ∧ p.field = f) ∧
      read statement = (pattern.whole? statement).bind ofMatch := by
  refine ⟨fun f => read_eq_some_iff, ?_⟩
  cases hmatch : pattern.whole? statement with
  | some y =>
    obtain ⟨p, hp, hfield⟩ := (describes_pattern.of_whole? hmatch).exists_written
    rw [hp.read_eq]
    exact hfield.symm
  | none =>
    rw [Option.bind_none, Option.eq_none_iff_forall_ne_some]
    intro f hf
    obtain ⟨p, hp, -⟩ := exists_written_of_read hf
    obtain ⟨kept, hkept⟩ := hp.exists_matched
    obtain ⟨y, hy⟩ := describes_pattern.exists_whole? hkept
    cases hmatch.symm.trans hy

/-- A lone `struct` is a type word, although the pattern tries the keyword first. -/
example : (pattern.whole? "struct const".toList).bind ofMatch =
    some ⟨"const", "struct", false, none, false⟩ := by
  decide +kernel

end StructAtlas.Field
