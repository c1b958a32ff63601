import StructAtlas.Proofs.Candidates
import StructAtlas.Proofs.FieldPattern

set_option autoImplicit false

/-!
# Declarations as patterns

Every shape of a declaration can be written as a pattern that is matched with backtracking
(`Shape.pattern`). It takes the declarations of the shape and keeps their names
(`describes_pattern`), so the rule of a shape finds the same names by matching a whole text
(`readWhole_by_pattern`).

The four patterns as alternatives find the candidates: the search takes what the first match takes,
and goes on behind it (`candidates_by_pattern`). It does not matter which alternative comes first,
since a text begins with one declaration at most.
-/

namespace StructAtlas

open Text Pattern
open StructAtlas.Field (blanks blankGap describes_blanks describes_blankGap describes_text
  describes_word)

namespace Shape

/-! ## The patterns -/

/-- An opening brace, a text without closing braces, and a closing brace. -/
def bodyPattern : Pattern :=
  .seq (.text ['\x7b']) (.seq (.many (.char (· != '\x7d'))) (.text ['\x7d']))

/-- The form `#pragma pack(n)`. -/
def packDirectivePattern : Pattern :=
  .seq (.text "#pragma".toList) (.seq blankGap (.seq (.text "pack".toList) (.seq blanks
    (.seq (.text ['(']) (.seq blanks (.seq (.many (.char isDecimal)) (.seq blanks
      (.text [')']))))))))

/-- The form `__attribute__((packed))`. -/
def packAttributePattern : Pattern :=
  .seq (.text "__attribute__".toList) (.seq blanks (.seq (.text ['(', '(']) (.seq blanks
    (.seq (.text "packed".toList) (.seq blanks (.text [')', ')']))))))

/-- Either way to ask for packing. -/
def packingPattern : Pattern :=
  .alt packDirectivePattern packAttributePattern

/-- The keyword `struct` and a tag. -/
def headPattern : Pattern :=
  .seq (.text "struct".toList) (.seq blankGap (.seq (.named "tag" (.oneOrMore isWord)) blanks))

/-- The pattern of tagged declarations. -/
def taggedPattern : Pattern :=
  .seq headPattern bodyPattern

/-- A tag, if it is there. -/
def optionalTagPattern : Pattern :=
  .maybe (.seq (.named "tag" (.oneOrMore isWord)) blanks)

/-- A body and an alias. -/
def aliasPattern : Pattern :=
  .seq bodyPattern (.seq blanks (.seq (.named "alias" (.oneOrMore isWord))
    (.seq blanks (.text [';']))))

/-- The pattern of typedefs. -/
def typedefPattern : Pattern :=
  .seq (.text "typedef".toList) (.seq blankGap (.seq (.text "struct".toList) (.seq blanks
    (.seq optionalTagPattern aliasPattern))))

/-- The pattern of a shape. -/
def pattern : Shape → Pattern
  | .typedef => typedefPattern
  | .tagged => taggedPattern
  | .packed => .seq packingPattern (.seq blanks taggedPattern)
  | .forward => .seq headPattern (.text [';'])

/-- What is kept of a declaration with these names. A typedef may have no tag. -/
def keptNames : Shape → List Char → List Char → List (String × List Char)
  | .typedef, tag, typeName => ("alias", typeName) :: if tag = [] then [] else [("tag", tag)]
  | _, tag, _ => [("tag", tag)]

/-- The declarations of a shape and what is kept of them. -/
inductive Kept (s : Shape) : Language where
  | intro {tag typeName text : List Char} : Written s tag typeName text →
    Kept s text (s.keptNames tag typeName)

/-! ## What the patterns take -/

/-- A body ends with its first closing brace. -/
inductive IsBody : List Char → Prop where
  | intro {inner : List Char} : '\x7d' ∉ inner → IsBody ('\x7b' :: (inner ++ ['\x7d']))

theorem describes_body : Describes bodyPattern (.Plain IsBody) := by
  have hclass : ∀ {inner : List Char}, Run (· != '\x7d') inner ↔ '\x7d' ∉ inner := by
    intro inner
    simp only [Run, bne_iff_ne, ne_eq]
    constructor
    · intro h hm
      exact h _ hm rfl
    · rintro h c hc rfl
      exact h hc
  have hinner : Describes (.many (.char (· != '\x7d'))) (.Plain (Run (· != '\x7d'))) :=
    describes_plain fun _ _ => mem_ends_run
  have hparts := (describes_text ['\x7b']).cat (hinner.cat (describes_text ['\x7d']))
  refine hparts.of_iff fun run => ⟨?_, ?_⟩
  · rintro ⟨_, _, rfl, rfl, inner, _, rfl, hinner, rfl⟩
    exact .intro (hclass.1 hinner)
  · rintro @⟨inner, hinner⟩
    exact ⟨_, _, rfl, rfl, inner, _, rfl, hclass.2 hinner, rfl⟩

theorem describes_packing : Describes packingPattern (.Plain PackingText) := by
  have hdigits : Describes (.many (.char isDecimal)) (.Plain (Run isDecimal)) :=
    describes_plain fun _ _ => mem_ends_run
  have hinside := describes_blanks.cat (hdigits.cat (describes_blanks.cat (describes_text [')'])))
  have hpack := (describes_text "pack".toList).cat
    (describes_blanks.cat ((describes_text ['(']).cat hinside))
  have hdirective := (describes_text "#pragma".toList).cat (describes_blankGap.cat hpack)
  have hword := (describes_text "packed".toList).cat
    (describes_blanks.cat (describes_text [')', ')']))
  have hattribute := (describes_text "__attribute__".toList).cat
    (describes_blanks.cat ((describes_text ['(', '(']).cat (describes_blanks.cat hword)))
  refine (hdirective.either hattribute).of_iff fun run => ⟨?_, ?_⟩
  · rintro (⟨_, _, rfl, rfl, gap, _, rfl, hgap, _, _, rfl, rfl, b₁, _, rfl, hb₁, _, _, rfl, rfl,
      b₂, _, rfl, hb₂, digits, _, rfl, hdigits, b₃, _, rfl, hb₃, rfl⟩ |
      ⟨_, _, rfl, rfl, b₁, _, rfl, hb₁, _, _, rfl, rfl, b₂, _, rfl, hb₂, _, _, rfl, rfl,
      b₃, _, rfl, hb₃, rfl⟩)
    · exact .pragma hgap hb₁ hb₂ hdigits hb₃
    · exact .packedAttribute hb₁ hb₂ hb₃
  · rintro (⟨hgap, hb₁, hb₂, hdigits, hb₃⟩ | ⟨hb₁, hb₂, hb₃⟩)
    · exact .inl ⟨_, _, rfl, rfl, _, _, rfl, hgap, _, _, rfl, rfl, _, _, rfl, hb₁, _, _, rfl, rfl,
        _, _, rfl, hb₂, _, _, rfl, hdigits, _, _, rfl, hb₃, rfl⟩
    · exact .inr ⟨_, _, rfl, rfl, _, _, rfl, hb₁, _, _, rfl, rfl, _, _, rfl, hb₂, _, _, rfl, rfl,
        _, _, rfl, hb₃, rfl⟩

/-- The keyword `struct` and a tag, which is kept. -/
inductive Head : Language where
  | intro {gap tag b : List Char} : IsGap gap → IsName tag → Run isBlank b →
    Head ("struct".toList ++ (gap ++ (tag ++ b))) [("tag", tag)]

theorem describes_head : Describes headPattern Head := by
  have htag := (describes_word.named "tag").seq describes_blanks
  have hparts := (describes_text "struct".toList).seq (describes_blankGap.seq htag)
  refine hparts.congr fun run kept => ⟨?_, ?_⟩
  · rintro ⟨⟨rfl⟩, ⟨⟨hgap⟩, ⟨⟨⟨htag⟩⟩, ⟨hb⟩⟩⟩⟩
    exact .intro hgap htag hb
  · rintro ⟨hgap, htag, hb⟩
    exact .of_eq (.intro rfl) (.of_eq (.intro hgap) (.of_eq (.intro (.intro htag)) (.intro hb)
      rfl rfl) rfl rfl) rfl rfl

theorem describes_tagged : Describes taggedPattern (Kept .tagged) := by
  refine (describes_head.seq describes_body).congr fun run kept => ⟨?_, ?_⟩
  · rintro ⟨⟨hgap, htag, hb⟩, ⟨⟨hinner⟩⟩⟩
    have hkept := Kept.intro (.tagged hgap htag hb hinner)
    simpa [keptNames] using hkept
  · rintro @⟨tag, typeName, _, hwritten⟩
    cases hwritten with
    | tagged hgap htag hb hinner =>
      exact .of_eq (.intro hgap htag hb) (.intro (.intro hinner)) (by simp) rfl

theorem describes_forward : Describes (Shape.pattern .forward) (Kept .forward) := by
  refine (describes_head.seq (describes_text [';'])).congr fun run kept => ⟨?_, ?_⟩
  · rintro ⟨⟨hgap, htag, hb⟩, ⟨rfl⟩⟩
    have hkept := Kept.intro (.forward hgap htag hb)
    simpa [keptNames] using hkept
  · rintro @⟨tag, typeName, _, hwritten⟩
    cases hwritten with
    | forward hgap htag hb =>
      exact .of_eq (.intro hgap htag hb) (.intro rfl) (by simp) rfl

theorem describes_packed : Describes (Shape.pattern .packed) (Kept .packed) := by
  have hparts := describes_packing.seq (describes_blanks.seq describes_tagged)
  refine hparts.congr fun run kept => ⟨?_, ?_⟩
  · rintro ⟨⟨hpacking⟩, ⟨⟨hb⟩, @⟨tag, typeName, text, hwritten⟩⟩⟩
    cases hwritten with
    | tagged hgap htag hb' hinner =>
      have hkept := Kept.intro (.packed hpacking hb (.tagged hgap htag hb' hinner))
      simpa [keptNames] using hkept
  · rintro @⟨tag, typeName, _, hwritten⟩
    cases hwritten with
    | packed hpacking hb hwritten =>
      exact .of_eq (.intro hpacking) (.of_eq (.intro hb) (.intro hwritten) rfl rfl) rfl rfl

/-- A tag with blanks behind it, or nothing. -/
inductive OptionalTag : Language where
  | absent : OptionalTag [] []
  | present {tag b : List Char} : IsName tag → Run isBlank b →
    OptionalTag (tag ++ b) [("tag", tag)]

theorem describes_optionalTag : Describes optionalTagPattern OptionalTag := by
  refine ((describes_word.named "tag").seq describes_blanks).maybe.congr fun run kept => ⟨?_, ?_⟩
  · rintro (⟨⟨⟨⟨htag⟩⟩, ⟨hb⟩⟩⟩ | ⟨⟨rfl⟩⟩)
    · exact .present htag hb
    · exact .absent
  · rintro (_ | ⟨htag, hb⟩)
    · exact .right (.intro rfl)
    · exact .left (.of_eq (.intro (.intro htag)) (.intro hb) rfl rfl)

/-- A body and an alias, which is kept. -/
inductive Alias : Language where
  | intro {inner b₃ typeName b₄ : List Char} : '\x7d' ∉ inner → Run isBlank b₃ →
    IsName typeName → Run isBlank b₄ →
    Alias ('\x7b' :: (inner ++ '\x7d' :: (b₃ ++ (typeName ++ (b₄ ++ [';'])))))
      [("alias", typeName)]

theorem describes_alias : Describes aliasPattern Alias := by
  have hname := (describes_word.named "alias").seq (describes_blanks.seq (describes_text [';']))
  refine (describes_body.seq (describes_blanks.seq hname)).congr fun run kept => ⟨?_, ?_⟩
  · rintro ⟨⟨⟨hinner⟩⟩, ⟨⟨hb₃⟩, ⟨⟨⟨hname⟩⟩, ⟨⟨hb₄⟩, ⟨rfl⟩⟩⟩⟩⟩
    have halias := Alias.intro hinner hb₃ hname hb₄
    simpa using halias
  · rintro ⟨hinner, hb₃, hname, hb₄⟩
    exact .of_eq (.intro (.intro hinner)) (.of_eq (.intro hb₃) (.of_eq (.intro (.intro hname))
      (.of_eq (.intro hb₄) (.intro rfl) rfl rfl) rfl rfl) rfl rfl) (by simp) rfl

theorem describes_typedef : Describes typedefPattern (Kept .typedef) := by
  have hnames := describes_optionalTag.seq describes_alias
  have hstruct := (describes_text "struct".toList).seq (describes_blanks.seq hnames)
  have hparts := (describes_text "typedef".toList).seq (describes_blankGap.seq hstruct)
  refine hparts.congr fun run kept => ⟨?_, ?_⟩
  · rintro ⟨⟨rfl⟩, ⟨⟨hgap⟩, ⟨⟨rfl⟩, ⟨⟨hb₁⟩, ⟨htag, ⟨hinner, hb₃, hname, hb₄⟩⟩⟩⟩⟩⟩
    cases htag with
    | absent =>
      have hkept := Kept.intro
        (.typedef hgap hb₁ (run_nil isWord) (run_nil isBlank) hinner hb₃ hname hb₄)
      simpa [keptNames] using hkept
    | present htag hb₂ =>
      have hkept := Kept.intro (.typedef hgap hb₁ htag.2 hb₂ hinner hb₃ hname hb₄)
      simpa [keptNames, htag.1] using hkept
  · rintro @⟨tag, typeName, _, hwritten⟩
    cases hwritten with
    | @typedef gap b₁ tag b₂ inner b₃ typeName b₄ hgap hb₁ htag hb₂ hinner hb₃ hname hb₄ =>
      have halias := Alias.intro hinner hb₃ hname hb₄
      by_cases hnil : tag = []
      · -- Without a tag the blanks around it are one run.
        subst hnil
        exact .of_eq (.intro rfl) (.of_eq (.intro hgap) (.of_eq (.intro rfl)
          (.of_eq (.intro (run_append.2 ⟨hb₁, hb₂⟩)) (.of_eq .absent halias rfl rfl)
          rfl rfl) rfl rfl) rfl rfl) (by simp) rfl
      · have hkept : keptNames .typedef tag typeName = [("alias", typeName), ("tag", tag)] := by
          simp [keptNames, hnil]
        rw [hkept]
        exact .of_eq (.intro rfl) (.of_eq (.intro hgap) (.of_eq (.intro rfl)
          (.of_eq (.intro hb₁) (.of_eq (.present ⟨hnil, htag⟩ hb₂) halias rfl rfl)
          rfl rfl) rfl rfl) rfl rfl) (by simp) rfl

/-- A pattern takes the declarations of its shape and keeps their names. -/
theorem describes_pattern (s : Shape) : Describes s.pattern (Kept s) := by
  cases s with
  | typedef => exact describes_typedef
  | tagged => exact describes_tagged
  | packed => exact describes_packed
  | forward => exact describes_forward

/-! ## Whole declarations -/

/-- The names that a match keeps. -/
def ofMatch (y : Place) : NamedParts :=
  ⟨(y.get? "tag").getD [], (y.get? "alias").getD [], []⟩

variable {s : Shape} {tag typeName text : List Char}

/-- A name that a shape does not have is empty, and so is a tag that is left out. -/
theorem ofMatch_of_kept {y : Place} (h : Written s tag typeName text)
    (hkept : y.kept = s.keptNames tag typeName) : ofMatch y = ⟨tag, typeName, []⟩ := by
  cases h with
  | typedef =>
    by_cases hnil : tag = []
    · simp [ofMatch, Place.get?, hkept, keptNames, hnil, List.lookup_cons]
    · simp [ofMatch, Place.get?, hkept, keptNames, hnil, List.lookup_cons]
  | tagged => simp [ofMatch, Place.get?, hkept, keptNames, List.lookup_cons]
  | packed => simp [ofMatch, Place.get?, hkept, keptNames, List.lookup_cons]
  | forward => simp [ofMatch, Place.get?, hkept, keptNames, List.lookup_cons]

/-- **Whole declarations are matched.** What is read from a whole text are the names that the
pattern of the shape keeps, whichever of its ways through the text comes first. -/
theorem readWhole_by_pattern (s : Shape) (cs : List Char) :
    s.readWhole cs = (s.pattern.whole? cs).map ofMatch := by
  cases hmatch : s.pattern.whole? cs with
  | some y =>
    have hkept := (describes_pattern s).of_whole? hmatch
    generalize hnames : y.kept = kept at hkept
    obtain @⟨tag, typeName, _, hwritten⟩ := hkept
    rw [Option.map_some, ofMatch_of_kept hwritten hnames]
    exact readWhole_iff.2 ⟨rfl, hwritten⟩
  | none =>
    rw [Option.map_none, Option.eq_none_iff_forall_ne_some]
    intro parts hparts
    obtain ⟨y, hy⟩ := (describes_pattern s).exists_whole? (.intro (readWhole_iff.1 hparts).2)
    cases hmatch.symm.trans hy

end Shape

/-! ## Candidates -/

namespace Candidate

open Shape

/-- The pattern of candidates: the shapes as alternatives. -/
def pattern : Pattern :=
  .alt (Shape.pattern .typedef) (.alt (Shape.pattern .tagged)
    (.alt (Shape.pattern .packed) (Shape.pattern .forward)))

/-- Every match is a declaration of some shape. -/
theorem mem_ends_pattern {x y : Place} :
    y ∈ pattern.ends x ↔ ∃ (s : Shape) (run : List Char) (kept : List (String × List Char)),
      Kept s run kept ∧ Takes x run kept y := by
  simp only [pattern, mem_ends_alt, describes_pattern _ x y]
  constructor
  · rintro (h | h | h | h)
    · exact ⟨_, h⟩
    · exact ⟨_, h⟩
    · exact ⟨_, h⟩
    · exact ⟨_, h⟩
  · rintro ⟨s, h⟩
    cases s with
    | typedef => exact .inl h
    | tagged => exact .inr (.inl h)
    | packed => exact .inr (.inr (.inl h))
    | forward => exact .inr (.inr (.inr h))

end Candidate

/-- **Candidates are the matches of the alternatives**, from left to right, one behind the other. -/
theorem candidates_by_pattern (cs : List Char) :
    candidates cs = (Candidate.pattern.allFrom [] cs).map fun m =>
      ⟨m.2.before.reverse.drop m.1, m.1⟩ := by
  rw [List.map_eq_flatMap]
  refine eq_flatMap_allFrom (fun pos => by rw [Candidate.collect]) ?_ ?_ [] cs
  · intro before c cs hfirst
    have hnone : Candidate.length? (c :: cs) = none := by
      rw [Option.eq_none_iff_forall_ne_some]
      intro n hn
      obtain ⟨s, tag, typeName, text, rest, htext, -, hwritten⟩ := Candidate.length?_iff.1 hn
      have hend : (⟨text.reverse ++ before, rest, _⟩ : Place) ∈
          Candidate.pattern.ends ⟨before, c :: cs, []⟩ :=
        Candidate.mem_ends_pattern.2 ⟨s, text, _, .intro hwritten, htext, rfl, rfl⟩
      rw [List.head?_eq_none_iff.1 hfirst] at hend
      cases hend
    rw [Candidate.collect, hnone]
  · intro before cs y hfirst
    obtain ⟨s, run, _, ⟨hwritten⟩, htakes⟩ :=
      Candidate.mem_ends_pattern.1 (List.mem_of_mem_head? hfirst)
    have htext : cs = run ++ y.rest := htakes.rest
    have hbefore : y.before = run.reverse ++ before := htakes.before
    have hcontent : y.before.reverse.drop before.length = run := by
      rw [hbefore, List.reverse_append, List.reverse_reverse]
      exact List.drop_left' List.length_reverse
    refine ⟨run, hwritten.ne_nil, htext, hbefore, ?_⟩
    rw [htext, hcontent]
    exact Candidate.collect_of_written hwritten before.length y.rest

end StructAtlas
