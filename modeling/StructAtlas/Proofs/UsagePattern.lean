import Mathlib.Data.List.Basic
import StructAtlas.Proofs.FieldPattern
import StructAtlas.Proofs.UsageSearch

set_option autoImplicit false

/-!
# Uses as a pattern

The forms of a use can be written as a pattern that is matched with backtracking (`Usage.pattern`).
Its parts match in many ways: the blanks behind the keyword and the words of an initialised form can
be divided anywhere. What is found is the first way through, and it is what the reader takes, which
never steps back (`finds_pattern`). So the search finds the matches of the pattern, one behind the
other (`find_by_pattern`), and it is known which names these keep (`uses_are_whole_or_cut`).
-/

namespace StructAtlas.Usage

open Text Pattern
open StructAtlas.Field (blanks blankGap describes_blanks describes_blankGap describes_text
  describes_word)

/-! ## The pattern -/

/-- Blanks and a star, or blanks. -/
def separatorPattern : Pattern :=
  .seq blanks (.alt (.text ['*']) blankGap)

/-- A length, if it is there. -/
def lengthPattern : Pattern :=
  .maybe (.seq (.text ['[']) (.seq (.many (.char isDecimal)) (.text [']'])))

/-- A semicolon or a comma, perhaps with a length in front. -/
def plainEndPattern : Pattern :=
  .seq blanks (.seq lengthPattern (.seq blanks (.char fun c => c == ';' || c == ',')))

/-- The beginning of an initialiser. -/
def initEndPattern : Pattern :=
  .seq blanks (.seq (.text ['=']) (.seq blanks (.text ['\x7b'])))

/-- A type name and a variable without an initialiser. -/
def plainPattern : Pattern :=
  .seq (.named "name" (.oneOrMore isWord))
    (.seq separatorPattern (.seq (.oneOrMore isWord) plainEndPattern))

/-- A variable with an initialiser, behind any blanks. -/
def variablePattern : Pattern :=
  .seq blanks (.seq (.oneOrMore isWord) initEndPattern)

/-- A type name and a variable with an initialiser. -/
def initPattern : Pattern :=
  .seq (.named "name" (.oneOrMore isWord)) variablePattern

/-- The keyword `struct` and blanks. -/
def keywordPattern : Pattern :=
  .seq (.text "struct".toList) blankGap

/-- The pattern of uses. -/
def pattern : Pattern :=
  .alt (.seq (.maybe keywordPattern) plainPattern) (.seq (.maybe keywordPattern) initPattern)

/-- The type name of a match, and the text behind the match. -/
def found (y : Place) : Option (List Char × List Char) :=
  (y.get? "name").map (·, y.rest)

/-! ## What the parts of the pattern take -/

theorem describes_separator : Describes separatorPattern (.Plain Separates) := by
  have hparts := describes_blanks.cat ((describes_text ['*']).either describes_blankGap)
  refine hparts.of_iff fun run => ⟨?_, ?_⟩
  · rintro ⟨b, _, rfl, hb, rfl | hgap⟩
    · exact .star hb
    · exact .blanks ⟨by simp [hgap.1], run_append.2 ⟨hb, hgap.2⟩⟩
  · rintro (hgap | hb)
    · exact ⟨[], _, rfl, run_nil isBlank, .inr hgap⟩
    · exact ⟨_, _, rfl, hb, .inl rfl⟩

theorem describes_plainEnd : Describes plainEndPattern (.Plain PlainEnd) := by
  have hdigits : Describes (.many (.char isDecimal)) (.Plain (Run isDecimal)) :=
    describes_plain fun _ _ => mem_ends_run
  have hmark : Describes (.char fun c => c == ';' || c == ',')
      (.Plain fun run => ∃ c, (c = ';' ∨ c = ',') ∧ run = [c]) := by
    apply describes_plain
    intro x y
    simp only [mem_ends_char, Bool.or_eq_true, beq_iff_eq]
    constructor
    · rintro ⟨c, hc, hpass⟩
      exact ⟨[c], ⟨c, hc, rfl⟩, hpass⟩
    · rintro ⟨_, ⟨c, hc, rfl⟩, hpass⟩
      exact ⟨c, hc, hpass⟩
  have hlength := ((describes_text ['[']).cat (hdigits.cat (describes_text [']']))).either
    describes_empty
  have hparts := describes_blanks.cat (hlength.cat (describes_blanks.cat hmark))
  refine hparts.of_iff fun run => ⟨?_, ?_⟩
  · rintro ⟨b₁, _, rfl, hb₁, _, _, rfl, hlength, b₂, _, rfl, hb₂, c, hc, rfl⟩
    rcases hlength with ⟨_, _, rfl, rfl, digits, _, rfl, hdigits, rfl⟩ | rfl
    · have hend := PlainEnd.sized hb₁ hdigits hb₂ hc
      simpa using hend
    · have hend := PlainEnd.unsized (run_append.2 ⟨hb₁, hb₂⟩) hc
      simpa using hend
  · rintro (@⟨b, c, hb, hc⟩ | @⟨b₁, digits, b₂, c, hb₁, hdigits, hb₂, hc⟩)
    · exact ⟨b, _, rfl, hb, [], _, rfl, .inr rfl, [], _, rfl, run_nil isBlank, c, hc, rfl⟩
    · exact ⟨b₁, _, rfl, hb₁, '[' :: (digits ++ [']']), b₂ ++ [c], by simp,
        .inl ⟨_, _, rfl, rfl, digits, _, rfl, hdigits, rfl⟩, b₂, _, rfl, hb₂, c, hc, rfl⟩

theorem describes_initEnd : Describes initEndPattern (.Plain InitEnd) := by
  have hparts := describes_blanks.cat
    ((describes_text ['=']).cat (describes_blanks.cat (describes_text ['\x7b'])))
  refine hparts.of_iff fun run => ⟨?_, ?_⟩
  · rintro ⟨b₁, _, rfl, hb₁, _, _, rfl, rfl, b₂, _, rfl, hb₂, rfl⟩
    exact .marks hb₁ hb₂
  · rintro @⟨b₁, b₂, hb₁, hb₂⟩
    exact ⟨b₁, _, rfl, hb₁, _, _, rfl, rfl, b₂, _, rfl, hb₂, rfl⟩

/-- A type name and a variable without an initialiser; the name is kept. -/
inductive PlainUse : Language where
  | parts {name sep var tail : List Char} : IsName name → Separates sep → IsName var →
    PlainEnd tail → PlainUse (name ++ (sep ++ (var ++ tail))) [("name", name)]

theorem describes_plainPattern : Describes plainPattern PlainUse := by
  have hbehind := describes_separator.seq (describes_word.seq describes_plainEnd)
  refine ((describes_word.named "name").seq hbehind).congr fun run kept => ⟨?_, ?_⟩
  · rintro ⟨⟨⟨hname⟩⟩, ⟨⟨hsep⟩, ⟨⟨hvar⟩, ⟨hend⟩⟩⟩⟩
    exact .parts hname hsep hvar hend
  · rintro ⟨hname, hsep, hvar, hend⟩
    exact .of_eq (.intro (.intro hname)) (.of_eq (.intro hsep) (.of_eq (.intro hvar) (.intro hend)
      rfl rfl) rfl rfl) rfl rfl

/-- A variable with an initialiser, behind blanks. -/
inductive Initialised : List Char → Prop where
  | parts {b var tail : List Char} : Run isBlank b → IsName var → InitEnd tail →
    Initialised (b ++ (var ++ tail))

theorem describes_variablePattern : Describes variablePattern (.Plain Initialised) := by
  have hparts := describes_blanks.cat (describes_word.cat describes_initEnd)
  refine hparts.of_iff fun run => ⟨?_, ?_⟩
  · rintro ⟨b, _, rfl, hb, var, _, rfl, hvar, hend⟩
    exact .parts hb hvar hend
  · rintro @⟨b, var, tail, hb, hvar, hend⟩
    exact ⟨b, _, rfl, hb, var, _, rfl, hvar, hend⟩

theorem describes_initPattern :
    Describes initPattern (.Seq (.Named "name" (.Plain IsName)) (.Plain Initialised)) :=
  (describes_word.named "name").seq describes_variablePattern

theorem describes_keywordPattern :
    Describes keywordPattern (.Plain (Cat (· = "struct".toList) IsGap)) :=
  (describes_text "struct".toList).cat describes_blankGap

/-! ## The match that is found -/

/-- The first match of a pattern is what a reader takes, and every match keeps a type name. -/
structure Finds (a : Pattern) (form : List Char → Option (List Char × List Char)) : Prop where
  first : ∀ x, (a.ends x).head?.bind found = form x.rest
  taken : ∀ x, ∀ y ∈ a.ends x, ∃ run name, Takes x run [("name", name)] y

variable {a a' : Pattern} {form form' : List Char → Option (List Char × List Char)}
  {x y z : Place} {run run' name rest tail : List Char} {c : Char}

theorem found_of_takes (h : Takes x run [("name", name)] y) : found y = some (name, y.rest) := by
  simp [found, Place.get?, h.kept]

/-- One place lies behind a text with what is kept on the way. -/
theorem eq_of_takes {kept : List (String × List Char)} (h : Takes x run kept y)
    (h' : Takes x run' kept z) (hrest : y.rest = z.rest) : y = z := by
  have hrun : run = run' := by
    have htext := h.rest.symm.trans h'.rest
    rw [hrest] at htext
    exact List.append_cancel_right htext
  subst hrun
  exact Place.ext (h.before.trans h'.before.symm) hrest (h.kept.trans h'.kept.symm)

/-- Where all matches are the same for the reader, the first one is. -/
theorem Finds.of_mem (htaken : ∀ x, ∀ y ∈ a.ends x, ∃ run name, Takes x run [("name", name)] y)
    (hread : ∀ x, ∀ y ∈ a.ends x, form x.rest = found y)
    (hsome : ∀ x p, form x.rest = some p → a.ends x ≠ []) : Finds a form := by
  refine ⟨fun x => ?_, htaken⟩
  cases hends : a.ends x with
  | nil =>
    cases hform : form x.rest with
    | none => rfl
    | some p => exact absurd hends (hsome x p hform)
  | cons y ys => exact (hread x y (by simp [hends])).symm

theorem finds_plainPattern : Finds plainPattern plainForm := by
  apply Finds.of_mem
  · intro x y hy
    obtain ⟨_, _, ⟨hname, hsep, hvar, hend⟩, htakes⟩ := (describes_plainPattern x y).1 hy
    exact ⟨_, _, htakes⟩
  · intro x y hy
    obtain ⟨_, _, ⟨hname, hsep, hvar, hend⟩, htakes⟩ := (describes_plainPattern x y).1 hy
    rw [found_of_takes htakes]
    exact plainForm_iff.2 ⟨_, _, _, by simpa using htakes.rest, hname, hsep, hvar, hend⟩
  · rintro x ⟨name, rest⟩ hform
    obtain ⟨sep, var, tail, htext, hname, hsep, hvar, hend⟩ := plainForm_iff.1 hform
    have hrest : x.rest = name ++ (sep ++ (var ++ tail)) ++ rest := by simpa using htext
    exact List.ne_nil_of_mem ((describes_plainPattern x ⟨_, rest, _⟩).2
      ⟨_, _, .parts hname hsep hvar hend, hrest, rfl, rfl⟩)

/-- A reader that tries one form and then another one finds the first match of both patterns. -/
theorem Finds.alt (h : Finds a form) (h' : Finds a' form') :
    Finds (.alt a a') fun cs => form cs <|> form' cs := by
  constructor
  · intro x
    rw [ends, List.head?_append, ← h.first, ← h'.first]
    cases hfirst : (a.ends x).head? with
    | none => simp
    | some y =>
      obtain ⟨run, name, htakes⟩ := h.taken x y (List.mem_of_mem_head? hfirst)
      simp [found_of_takes htakes]
  · intro x y hy
    rcases mem_ends_alt.1 hy with hy | hy
    · exact h.taken x y hy
    · exact h'.taken x y hy

theorem Finds.keyword (h : Finds a form) (hstop : ∀ x, ∀ y ∈ a.ends x, Stops isBlank x.rest) :
    Finds (.seq keywordPattern a) (afterKeyword form) := by
  have hkeyword : ∀ {x z}, z ∈ keywordPattern.ends x ↔
      ∃ gap, IsGap gap ∧ Passes x ("struct".toList ++ gap) z := by
    intro x z
    constructor
    · intro hz
      obtain ⟨_, _, ⟨_, gap, rfl, rfl, hgap⟩, htakes⟩ := (describes_keywordPattern x z).1 hz
      exact ⟨gap, hgap, takes_nil.1 htakes⟩
    · rintro ⟨gap, hgap, hpass⟩
      exact (describes_keywordPattern x z).2
        ⟨_, _, .intro ⟨_, gap, rfl, rfl, hgap⟩, takes_nil.2 hpass⟩
  constructor
  · intro x
    by_cases hx : ∃ gap more, x.rest = "struct".toList ++ gap ++ more ∧ IsGap gap
        ∧ Stops isBlank more
    · -- The gap is taken whole, or the pattern does not match behind it.
      obtain ⟨gap, more, htext, hgap, hmore⟩ := hx
      obtain ⟨y, hy, rfl⟩ := exists_passes htext
      have honly : ∀ z ∈ keywordPattern.ends x, z ≠ y → a.ends z = [] := by
        intro z hz hne
        rw [List.eq_nil_iff_forall_not_mem]
        intro w hw
        obtain ⟨gap', hgap', hpass⟩ := hkeyword.1 hz
        have hboth := hy.rest.symm.trans hpass.rest
        rw [List.append_assoc, List.append_assoc] at hboth
        obtain ⟨rfl, -⟩ := run_append_inj hgap.2 hgap'.2 hmore (hstop z w hw)
          (List.append_cancel_left hboth)
        exact hne (hpass.unique hy)
      rw [head?_ends_seq_of_only (hkeyword.2 ⟨gap, hgap, hy⟩) honly, h.first, htext,
        List.append_assoc, afterKeyword_append form hgap hmore]
    · -- Behind any blanks the pattern does not match, and the reader finds no keyword.
      have hends : (seq keywordPattern a).ends x = [] := by
        rw [List.eq_nil_iff_forall_not_mem]
        intro y hy
        obtain ⟨z, hz, hy⟩ := mem_ends_seq.1 hy
        obtain ⟨gap, hgap, hpass⟩ := hkeyword.1 hz
        exact hx ⟨gap, z.rest, hpass.rest, hgap, hstop z y hy⟩
      rw [hends, List.head?_nil, Option.bind_none, eq_comm, Option.eq_none_iff_forall_ne_some]
      rintro ⟨name, rest⟩ hform
      obtain ⟨gap, more, htext, hgap, hmore, -⟩ := afterKeyword_iff.1 hform
      exact hx ⟨gap, more, by rw [htext, List.append_assoc], hgap, hmore⟩
  · intro x y hy
    obtain ⟨z, hz, hy⟩ := mem_ends_seq.1 hy
    obtain ⟨gap, hgap, hpass⟩ := hkeyword.1 hz
    obtain ⟨run, name, htakes⟩ := h.taken z y hy
    have hwhole : Takes x ("struct".toList ++ gap ++ run) ([("name", name)] ++ []) y :=
      takes_append.2 ⟨z, takes_nil.2 hpass, htakes⟩
    exact ⟨_, name, hwhole⟩

theorem ends_maybe_seq (k b : Pattern) (x : Place) :
    (seq (maybe k) b).ends x = (alt (seq k b) b).ends x := by
  simp [ends, maybe, List.flatMap_append]

/-- The ways through an initialised form. -/
theorem exists_parts_of_init (hy : y ∈ initPattern.ends x) :
    ∃ name b var tail, x.rest = name ++ (b ++ (var ++ (tail ++ y.rest))) ∧ IsName name
      ∧ Run isBlank b ∧ IsName var ∧ InitEnd tail
      ∧ Takes x (name ++ (b ++ (var ++ tail))) [("name", name)] y := by
  obtain ⟨_, _, @⟨name, _, _, _, ⟨⟨hname⟩⟩, ⟨@⟨b, var, tail, hb, hvar, htail⟩⟩⟩, htakes⟩ :=
    (describes_initPattern x y).1 hy
  exact ⟨name, b, var, tail, by simpa using htakes.rest, hname, hb, hvar, htail, htakes⟩

/-- Whichever way is taken, the reader takes something. -/
theorem exists_read_of_init (hy : y ∈ initPattern.ends x) :
    ∃ name, initForm x.rest = some (name, y.rest) := by
  obtain ⟨name, b, var, tail, htext, hname, hb, hvar, htail, -⟩ := exists_parts_of_init hy
  by_cases hnil : b = []
  · -- The two words are one, and the reader cuts it in front of its last character.
    obtain ⟨front, c, rfl⟩ := List.eq_nil_or_concat var |>.resolve_left hvar.1
    rw [List.concat_eq_append] at hvar htext
    obtain ⟨hfront, hc⟩ := run_append.1 hvar.2
    have hwhole : x.rest = (name ++ front) ++ c :: (tail ++ y.rest) := by simp [htext, hnil]
    exact ⟨_, initForm_iff.2 (.inr ⟨c, tail, hwhole,
      ⟨by simp [hname.1], run_append.2 ⟨hname.2, hfront⟩⟩, (run_cons.1 hc).1, htail⟩)⟩
  · exact ⟨name, initForm_iff.2 (.inl ⟨b, var, tail, htext, hname, ⟨hnil, hb⟩, hvar, htail⟩)⟩

theorem InitEnd.rest_eq {tail' rest' : List Char} (h : InitEnd tail) (h' : InitEnd tail')
    (htext : tail ++ rest = tail' ++ rest') : rest = rest' := by
  have hread : initMark (tail ++ rest) = some rest := initEnd_iff.2 ⟨tail, h, rfl⟩
  rw [htext, initEnd_iff.2 ⟨tail', h', rfl⟩, Option.some.injEq] at hread
  exact hread.symm

/-- Where two words stand before an initialiser, every way keeps the first one. -/
theorem found_of_spaced {gap var : List Char} (hname : IsName name) (hgap : IsGap gap)
    (hvar : IsName var) (htail : InitEnd tail)
    (htext : x.rest = name ++ (gap ++ (var ++ (tail ++ rest)))) (hy : y ∈ initPattern.ends x) :
    found y = some (name, rest) := by
  obtain ⟨n, b, v, t, hparts, hn, hb, hv, ht, htakes⟩ := exists_parts_of_init hy
  rw [found_of_takes htakes]
  rw [htext] at hparts
  by_cases hnil : b = []
  · -- The first word would stand before the initialiser.
    subst hnil
    obtain ⟨d, hd, hnext⟩ := (Separates.blanks hgap).exists_next hvar
    have hword : name ++ (gap ++ (var ++ (tail ++ rest))) = (n ++ v) ++ (t ++ y.rest) := by
      simpa using hparts
    obtain ⟨-, hbehind⟩ := run_append_inj hname.2 (run_append.2 ⟨hn.2, hv.2⟩)
      ((Separates.blanks hgap).stops _) (ht.stops _) hword
    exact absurd hbehind (ne_end_of_next (hnext _) hd (.inr ht))
  · have hsep : Separates b := .blanks ⟨hnil, hb⟩
    obtain ⟨rfl, hbehind⟩ := run_append_inj hname.2 hn.2 ((Separates.blanks hgap).stops _)
      (hsep.stops _) hparts
    have hend := hsep.eq_of_gap hgap hvar (htail.stops rest) hv (ht.stops _) hbehind
    rw [htail.rest_eq ht hend]

/-- At an initialiser there is no variable. -/
theorem ends_variable_eq_nil (htail : InitEnd tail) (hx : x.rest = tail ++ rest) :
    variablePattern.ends x = [] := by
  rw [List.eq_nil_iff_forall_not_mem]
  intro y hy
  obtain ⟨_, _, ⟨@⟨b, var, t, hb, hvar, -⟩⟩, htakes⟩ := (describes_variablePattern x y).1 hy
  obtain ⟨e, he, hnext⟩ := IsName.exists_next hvar
  have hparts : b ++ (var ++ (t ++ y.rest)) = tail ++ rest := by
    rw [← hx]
    simpa using htakes.rest.symm
  have hequals := congrArg next hparts
  rw [next_append hb, hnext, htail.next_eq, Option.some.injEq] at hequals
  rw [hequals] at he
  exact absurd he (by decide)

/-- One character before an initialiser is a variable, and there is one way to take it. -/
theorem head?_ends_variable (hc : isWord c = true) (htail : InitEnd tail)
    (hx : x.rest = (c :: tail) ++ rest) :
    ∃ y, (variablePattern.ends x).head? = some y ∧ Passes x (c :: tail) y ∧ y.rest = rest := by
  obtain ⟨y, hpass, hrest⟩ := exists_passes hx
  have hvar : IsName [c] := ⟨by simp, run_cons.2 ⟨hc, run_nil _⟩⟩
  refine ⟨y, head?_ends_of_unique ?_ fun z hz => ?_, hpass, hrest⟩
  · exact (describes_variablePattern x y).2
      ⟨_, _, .intro (.parts (run_nil _) hvar htail), takes_nil.2 hpass⟩
  · obtain ⟨_, _, ⟨@⟨b, v, t, hb, hv, ht⟩⟩, htakes⟩ := (describes_variablePattern x z).1 hz
    have hparts : [c] ++ (tail ++ rest) = b ++ (v ++ (t ++ z.rest)) := by
      have htext := hx.symm.trans htakes.rest
      simpa using htext
    cases b with
    | nil =>
      obtain ⟨-, hend⟩ := run_append_inj hvar.2 hv.2 (htail.stops rest) (ht.stops _) hparts
      exact eq_of_takes htakes (takes_nil.2 hpass) ((ht.rest_eq htail hend.symm).trans hrest.symm)
    | cons e b =>
      obtain rfl := (List.cons.inj hparts).1
      rw [isWord_of_isBlank c (run_cons.1 hb).1] at hc
      cases hc

/-- Where one word stands before an initialiser, the first way keeps all of it but the last
character. -/
theorem head?_ends_of_fused (hname : IsName name) (hc : isWord c = true) (htail : InitEnd tail)
    (htext : x.rest = name ++ c :: (tail ++ rest)) :
    ∃ y, (initPattern.ends x).head? = some y ∧ found y = some (name, rest) := by
  obtain ⟨d, front, rfl⟩ := List.exists_cons_of_ne_nil hname.1
  obtain ⟨hd, hfront⟩ := run_cons.1 hname.2
  have hrest : x.rest = [d] ++ (front ++ ([c] ++ (tail ++ rest))) := by simpa using htext
  -- The places behind the first character, in front of the last one and behind it.
  obtain ⟨x₁, hx₁, hrest₁⟩ := exists_passes hrest
  obtain ⟨x₂, hx₂, hrest₂⟩ := exists_passes hrest₁
  obtain ⟨x₃, hx₃, hrest₃⟩ := exists_passes hrest₂
  obtain ⟨others, hothers⟩ := ends_run_concat hfront hc hx₂ hx₃ (hrest₃ ▸ htail.stops rest)
  have hwords : (oneOrMore isWord).ends x = x₃ :: x₂ :: others := by
    rw [oneOrMore, ends, ends_char_of_passes hd hx₁, List.flatMap_cons, List.flatMap_nil,
      List.append_nil, hothers]
  have hkept : x.textTo x₂ = d :: front := (hx₁.trans hx₂).textTo
  -- Nothing matches behind the whole word, so it gives back its last character.
  have hnone : variablePattern.ends (x₃.keep "name" (x.textTo x₃)) = [] :=
    ends_variable_eq_nil htail hrest₃
  have hkeep : (x₂.keep "name" (d :: front)).rest = (c :: tail) ++ rest := hrest₂
  obtain ⟨y, hfirst, hpass, hend⟩ := head?_ends_variable hc htail hkeep
  refine ⟨y, ?_, ?_⟩
  · rw [initPattern, ends, ends, hwords, List.map_cons, List.map_cons, hkept, List.flatMap_cons,
      hnone, List.nil_append, List.flatMap_cons, List.head?_append, hfirst]
    rfl
  · simp [found, Place.get?, hpass.kept, Place.keep, hend]

theorem finds_initPattern : Finds initPattern initForm := by
  constructor
  · intro x
    cases hform : initForm x.rest with
    | none =>
      have hnone : initPattern.ends x = [] := by
        rw [List.eq_nil_iff_forall_not_mem]
        intro y hy
        obtain ⟨name, hread⟩ := exists_read_of_init hy
        rw [hform] at hread
        cases hread
      rw [hnone]
      rfl
    | some p =>
      obtain ⟨name, rest⟩ := p
      rcases initForm_iff.1 hform with
        ⟨gap, var, tail, htext, hname, hgap, hvar, htail⟩ | ⟨c, tail, htext, hname, hc, htail⟩
      · have hrest : x.rest = (name ++ (gap ++ (var ++ tail))) ++ rest := by simpa using htext
        have hy : (⟨_, rest, _⟩ : Place) ∈ initPattern.ends x :=
          (describes_initPattern x _).2 ⟨_, _, .of_eq (.intro (.intro hname))
            (.intro (.parts hgap.2 hvar htail)) rfl rfl, hrest, rfl, rfl⟩
        obtain ⟨z, hfirst⟩ := Option.isSome_iff_exists.1
          (List.isSome_head?.2 (List.ne_nil_of_mem hy))
        have hz := List.mem_of_mem_head? hfirst
        rw [hfirst, Option.bind_some, found_of_spaced hname hgap hvar htail htext hz]
      · obtain ⟨y, hfirst, hfound⟩ := head?_ends_of_fused hname hc htail htext
        rw [hfirst, Option.bind_some, hfound]
  · intro x y hy
    obtain ⟨name, b, var, tail, -, -, -, -, -, htakes⟩ := exists_parts_of_init hy
    exact ⟨_, name, htakes⟩

/-- **The reader finds the first match.** -/
theorem finds_pattern : Finds pattern read := by
  have hplain : ∀ x, ∀ y ∈ plainPattern.ends x, Stops isBlank x.rest := by
    intro x y hy
    obtain ⟨_, _, ⟨hname, hsep, hvar, hend⟩, htakes⟩ := (describes_plainPattern x y).1 hy
    rw [htakes.rest, List.append_assoc]
    exact hname.stops_blank _
  have hinit : ∀ x, ∀ y ∈ initPattern.ends x, Stops isBlank x.rest := by
    intro x y hy
    obtain ⟨name, b, var, tail, htext, hname, -⟩ := exists_parts_of_init hy
    rw [htext]
    exact hname.stops_blank _
  have hall := ((finds_plainPattern.keyword hplain).alt finds_plainPattern).alt
    ((finds_initPattern.keyword hinit).alt finds_initPattern)
  have hends : ∀ x, pattern.ends x = (alt (alt (seq keywordPattern plainPattern) plainPattern)
      (alt (seq keywordPattern initPattern) initPattern)).ends x := by
    intro x
    rw [pattern, ends, ends_maybe_seq, ends_maybe_seq]
    rfl
  constructor
  · intro x
    rw [hends, hall.first]
    simp [read, Option.or_assoc]
  · intro x y hy
    rw [hends] at hy
    exact hall.taken x y hy

/-- **The search finds the matches of the pattern**, from left to right, one behind the other. -/
theorem find_by_pattern (cs : List Char) :
    find cs = (pattern.allFrom [] cs).filterMap fun m =>
      (found m.2).map fun p => (String.ofList p.1, m.1) := by
  rw [List.filterMap_eq_flatMap_toList]
  refine eq_flatMap_allFrom (fun pos => by rw [collect]) ?_ ?_ [] cs
  · intro before c cs hfirst
    have hread := finds_pattern.first ⟨before, c :: cs, []⟩
    rw [hfirst, Option.bind_none] at hread
    exact collect_skip hread.symm before.length
  · intro before cs y hfirst
    obtain ⟨run, name, htakes⟩ := finds_pattern.taken _ y (List.mem_of_mem_head? hfirst)
    have hread := finds_pattern.first ⟨before, cs, []⟩
    rw [hfirst, Option.bind_some, found_of_takes htakes] at hread
    have htext : cs = run ++ y.rest := htakes.rest
    obtain ⟨use, hne, huse⟩ := exists_use_of_read hread.symm
    obtain rfl : use = run := List.append_cancel_right (huse.symm.trans htext)
    refine ⟨use, hne, htext, htakes.before, ?_⟩
    rw [found_of_takes htakes]
    rw [htext] at hread ⊢
    exact collect_take hread.symm before.length

/-- **Reported names are whole words, or the fronts of cut words.** The names that are reported are
those that the matches of the pattern keep. A name is reported for a whole word with a variable of
its own, or for a word directly before an initialiser, without the last character. The second
happens for every such word that has two characters at least and is not the variable of a use
itself. -/
theorem uses_are_whole_or_cut (cs : List Char) :
    (find cs = (pattern.allFrom [] cs).filterMap fun m =>
        (found m.2).map fun p => (String.ofList p.1, m.1)) ∧
      (∀ p ∈ find cs, IsWhole cs p ∨ IsCut cs p) ∧ ∀ p, IsCut cs p → p ∈ find cs := by
  refine ⟨find_by_pattern cs, ?_, ?_⟩
  · intro p hp
    exact isWhole_or_isCut hp
  · intro p hp
    exact hp.mem_find

/-- No type name stands in this text, and a name is reported. -/
theorem cut_word_is_reported :
    ("item", 1) ∈ find ".items = \x7b".toList ∧ ¬ IsWhole ".items = \x7b".toList ("item", 1) := by
  constructor
  · decide +kernel
  · rintro ⟨before, lead, name, behind, rest, hin, hlead, -, hp⟩
    obtain ⟨hname, hlength⟩ := Prod.mk.inj hp
    obtain ⟨d, rfl⟩ := List.length_eq_one_iff.1 hlength.symm
    have htext := hin.text_eq
    cases hlead with
    | none =>
      obtain rfl : "item".toList = name := by rw [hname, String.toList_ofList]
      have hsplit : ['.'] ++ ("item".toList ++ "s = \x7b".toList) =
          [d] ++ ("item".toList ++ (behind ++ rest)) := htext
      have hafter := List.append_cancel_left (List.append_inj hsplit rfl).2
      -- The name ends in front of the last character of the word.
      have hends := hin.ends
      rw [← hafter] at hends
      exact absurd (stops_cons.1 hends) (by decide)
    | keyword => cases htext

end StructAtlas.Usage
