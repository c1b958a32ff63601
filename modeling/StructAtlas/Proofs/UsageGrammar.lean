import StructAtlas.Proofs.Runs
import StructAtlas.Usage

set_option autoImplicit false

/-!
# The grammar of uses

A use is a type name with a variable behind it (`Usage.NamesVariable`), and the keyword `struct` may
stand in front of it (`Usage.Lead`). There is one more text that the reader takes: a word before an
initialiser, which it cuts in two in front of its last character (`Usage.Splits`). It takes nothing
else (`exists_parts_of_read`).

Where several forms fit, the order in which they are tried decides. `read_named`,
`read_struct_named`, `read_cut` and `read_struct_cut` say which name is found. The forms are told
apart by the first character behind a word and blanks (`next`).
-/

namespace StructAtlas.Usage

open Text Reading

/-! ## Uses -/

/-- What ends a use without an initialiser: perhaps a length, and a semicolon or a comma. -/
inductive PlainEnd : List Char → Prop where
  | unsized {b : List Char} {c : Char} : Run isBlank b → c = ';' ∨ c = ',' → PlainEnd (b ++ [c])
  | sized {b₁ digits b₂ : List Char} {c : Char} : Run isBlank b₁ → Run isDecimal digits →
    Run isBlank b₂ → c = ';' ∨ c = ',' →
    PlainEnd (b₁ ++ '[' :: (digits ++ ']' :: (b₂ ++ [c])))

/-- What begins an initialiser: an equals sign and an opening brace. -/
inductive InitEnd : List Char → Prop where
  | marks {b₁ b₂ : List Char} : Run isBlank b₁ → Run isBlank b₂ →
    InitEnd (b₁ ++ '=' :: (b₂ ++ ['\x7b']))

/-- What ends a use. -/
def EndsUse (tail : List Char) : Prop :=
  PlainEnd tail ∨ InitEnd tail

/-- What keeps a type name and a variable apart: blanks or a star. -/
inductive Separates : List Char → Prop where
  | blanks {gap : List Char} : IsGap gap → Separates gap
  | star {b : List Char} : Run isBlank b → Separates (b ++ ['*'])

/-- What stands behind a type name: a variable, apart from the name. -/
inductive NamesVariable : List Char → Prop where
  | plain {sep var tail : List Char} : Separates sep → IsName var → PlainEnd tail →
    NamesVariable (sep ++ (var ++ tail))
  | initialised {gap var tail : List Char} : IsGap gap → IsName var → InitEnd tail →
    NamesVariable (gap ++ (var ++ tail))

/-- What stands behind a name that is only the beginning of a word: the last character of the word
and an initialiser. -/
inductive Splits : List Char → Prop where
  | word {c : Char} {tail : List Char} : isWord c = true → InitEnd tail → Splits (c :: tail)

/-- What the reader takes behind a name. -/
def Completes (behind : List Char) : Prop :=
  NamesVariable behind ∨ Splits behind

/-- What stands before the type name: nothing, or the keyword `struct`. -/
inductive Lead : List Char → Prop where
  | none : Lead []
  | keyword {gap : List Char} : IsGap gap → Lead ("struct".toList ++ gap)

/-! ## The first character that is no blank -/

/-- The first character of a text that is no blank. -/
def next (cs : List Char) : Option Char :=
  (skipBlanks cs).head?

variable {cs rest name var tail b : List Char} {c : Char}

theorem next_append (hb : Run isBlank b) : next (b ++ cs) = next cs := by
  rw [next, skipBlanks, List.dropWhile_append_of_pos hb]
  rfl

theorem next_cons (hc : isBlank c = false) : next (c :: cs) = some c := by
  rw [next, skipBlanks_of_stops (stops_cons.2 hc), List.head?_cons]

theorem next_marks {marks : List Char} (hb : Run isBlank b) (hc : isBlank c = false)
    (h : tail = b ++ c :: marks) : next (tail ++ rest) = some c := by
  rw [h, List.append_assoc, next_append hb, List.cons_append, next_cons hc]

theorem IsName.exists_next (h : IsName name) :
    ∃ d, isWord d = true ∧ ∀ cs, next (name ++ cs) = some d := by
  obtain ⟨d, name, rfl⟩ := List.exists_cons_of_ne_nil h.1
  have hd := (run_cons.1 h.2).1
  exact ⟨d, hd, fun cs => next_cons (isBlank_of_isWord d hd)⟩

theorem PlainEnd.exists_next (h : PlainEnd tail) :
    ∃ d ∈ ['[', ';', ','], ∀ cs, next (tail ++ cs) = some d := by
  cases h with
  | @unsized b c hb hc =>
    rcases hc with rfl | rfl
    · exact ⟨';', by decide, fun cs => next_marks hb (by decide) rfl⟩
    · exact ⟨',', by decide, fun cs => next_marks hb (by decide) rfl⟩
  | sized hb => exact ⟨'[', by decide, fun cs => next_marks hb (by decide) rfl⟩

theorem InitEnd.next_eq (h : InitEnd tail) (cs : List Char) : next (tail ++ cs) = some '=' := by
  cases h with
  | marks hb => exact next_marks hb (by decide) rfl

/-- A text that goes on with one of these characters behind blanks does not go on with a word. -/
theorem stops_of_next (h : next cs = some c) (hc : isWord c = false) : Stops isWord cs := by
  cases cs with
  | nil => exact stops_nil isWord
  | cons d cs =>
    rw [stops_cons]
    cases hd : isWord d with
    | false => rfl
    | true =>
      rw [next_cons (isBlank_of_isWord d hd), Option.some.injEq] at h
      rw [← h, hd] at hc
      cases hc

theorem PlainEnd.stops (h : PlainEnd tail) (cs : List Char) : Stops isWord (tail ++ cs) := by
  obtain ⟨d, hd, hnext⟩ := h.exists_next
  have hclass : ∀ d ∈ ['[', ';', ','], isWord d = false := by
    simp only [List.mem_cons, List.not_mem_nil, or_false, forall_eq_or_imp, forall_eq]
    decide
  exact stops_of_next (hnext cs) (hclass d hd)

theorem InitEnd.stops (h : InitEnd tail) (cs : List Char) : Stops isWord (tail ++ cs) :=
  stops_of_next (h.next_eq cs) (by decide)

theorem Separates.stops (h : Separates b) (cs : List Char) : Stops isWord (b ++ cs) := by
  cases h with
  | blanks hgap => exact hgap.2.stops_append_of_ne_nil isWord_of_isBlank hgap.1 cs
  | star hb =>
    rw [List.append_assoc]
    exact hb.stops_append isWord_of_isBlank (stops_cons.2 (by decide))

theorem Separates.exists_next (h : Separates b) (hname : IsName name) :
    ∃ d, (isWord d = true ∨ d = '*') ∧ ∀ cs, next (b ++ (name ++ cs)) = some d := by
  cases h with
  | blanks hgap =>
    obtain ⟨d, hd, hnext⟩ := IsName.exists_next hname
    exact ⟨d, .inl hd, fun cs => by rw [next_append hgap.2, hnext]⟩
  | star hb => exact ⟨'*', .inr rfl, fun cs => next_marks hb (by decide) rfl⟩

/-- The parts of the two forms. -/
theorem NamesVariable.exists_parts (h : NamesVariable b) :
    ∃ sep var tail, b = sep ++ (var ++ tail) ∧ Separates sep ∧ IsName var
      ∧ (PlainEnd tail ∨ IsGap sep ∧ InitEnd tail) := by
  cases h with
  | plain hsep hvar htail => exact ⟨_, _, _, rfl, hsep, hvar, .inl htail⟩
  | initialised hgap hvar htail => exact ⟨_, _, _, rfl, .blanks hgap, hvar, .inr ⟨hgap, htail⟩⟩

/-- No word character follows a type name. -/
theorem NamesVariable.stops (h : NamesVariable b) (cs : List Char) : Stops isWord (b ++ cs) := by
  obtain ⟨sep, var, tail, rfl, hsep, -⟩ := h.exists_parts
  rw [List.append_assoc]
  exact hsep.stops _

/-- What follows a type name goes on with a word or a star. -/
theorem NamesVariable.exists_next (h : NamesVariable b) :
    ∃ d, (isWord d = true ∨ d = '*') ∧ ∀ cs, next (b ++ cs) = some d := by
  obtain ⟨sep, var, tail, rfl, hsep, hvar, -⟩ := h.exists_parts
  obtain ⟨d, hd, hnext⟩ := hsep.exists_next hvar
  exact ⟨d, hd, fun cs => by rw [List.append_assoc, List.append_assoc, hnext]⟩

theorem EndsUse.stops (h : EndsUse tail) (cs : List Char) : Stops isWord (tail ++ cs) := by
  rcases h with hplain | hinit
  · exact hplain.stops cs
  · exact hinit.stops cs

/-- A text that goes on with a word or a star is not the end of a use. -/
theorem ne_end_of_next (h : next cs = some c) (hc : isWord c = true ∨ c = '*')
    (htail : EndsUse tail) : cs ≠ tail ++ rest := by
  rintro rfl
  have hmarks : ∀ d ∈ ['[', ';', ',', '='], ¬ (isWord d = true ∨ d = '*') := by
    simp only [List.mem_cons, List.not_mem_nil, or_false, forall_eq_or_imp, forall_eq]
    decide
  rcases htail with hplain | hinit
  · obtain ⟨d, hd, hnext⟩ := hplain.exists_next
    rw [hnext, Option.some.injEq] at h
    rw [h] at hd
    exact hmarks c (List.mem_append_left ['='] hd) hc
  · rw [hinit.next_eq, Option.some.injEq] at h
    rw [← h] at hc
    exact hmarks '=' (by decide) hc

/-! ## What the readers of the parts take -/

theorem endMark_iff : endMark cs = some rest ↔ ∃ c, (c = ';' ∨ c = ',') ∧ cs = c :: rest := by
  cases cs with
  | nil => simp [endMark]
  | cons d cs =>
    simp only [endMark, Option.ite_none_right_eq_some, Bool.or_eq_true, beq_iff_eq,
      Option.some.injEq, List.cons.injEq]
    constructor
    · rintro ⟨hd, rfl⟩
      exact ⟨d, hd, rfl, rfl⟩
    · rintro ⟨c, hc, rfl, rfl⟩
      exact ⟨hc, rfl⟩

/-- The reader of lengths takes one, or it takes nothing. -/
theorem skipLength_cases (cs : List Char) :
    (∃ digits, cs = '[' :: (digits ++ ']' :: skipLength cs) ∧ Run isDecimal digits) ∨
      skipLength cs = cs := by
  rw [skipLength]
  split
  · rename_i inner hopen
    split
    · rename_i rest hclose
      obtain ⟨digits, hinner, hdigits, -⟩ := exists_run isDecimal inner
      rw [mark_eq_some.1 hclose] at hinner
      exact .inl ⟨digits, by rw [mark_eq_some.1 hopen, ← hinner], hdigits⟩
    · exact .inr rfl
  · exact .inr rfl

theorem skipLength_of_digits {digits : List Char} (h : Run isDecimal digits) :
    skipLength ('[' :: (digits ++ ']' :: rest)) = rest := by
  have hstop : Stops isDecimal (']' :: rest) := stops_cons.2 (by decide)
  simp [skipLength, mark, dropWhile_run h hstop]

theorem skipLength_of_ne (hc : c ≠ '[') : skipLength (c :: cs) = c :: cs := by
  have hmark : mark '[' (c :: cs) = none := by simp [mark, hc]
  rw [skipLength, hmark]

/-- What the reader takes behind a variable without an initialiser. -/
theorem plainEnd_iff :
    endMark (skipBlanks (skipLength (skipBlanks cs))) = some rest ↔
      ∃ tail, PlainEnd tail ∧ cs = tail ++ rest := by
  constructor
  · intro h
    obtain ⟨c, hc, hend⟩ := endMark_iff.1 h
    obtain ⟨b₁, hcs, hb₁, -⟩ := exists_skipBlanks cs
    obtain ⟨b₂, hbehind, hb₂, -⟩ := exists_skipBlanks (skipLength (skipBlanks cs))
    rw [hend] at hbehind
    rcases skipLength_cases (skipBlanks cs) with ⟨digits, hlength, hdigits⟩ | hnone
    · rw [hbehind] at hlength
      exact ⟨_, .sized hb₁ hdigits hb₂ hc, by rw [hcs, hlength]; simp⟩
    · rw [hnone] at hbehind
      refine ⟨_, .unsized (run_append.2 ⟨hb₁, hb₂⟩) hc, ?_⟩
      rw [hcs, hbehind]
      simp
  · rintro ⟨tail, htail, rfl⟩
    have hclass : ∀ c, c = ';' ∨ c = ',' → isBlank c = false ∧ c ≠ '[' := by
      rintro c (rfl | rfl) <;> decide
    apply endMark_iff.2
    cases htail with
    | @unsized b c hb hc =>
      obtain ⟨hblank, hne⟩ := hclass c hc
      refine ⟨c, hc, ?_⟩
      rw [List.append_assoc, List.singleton_append, skipBlanks_append hb (stops_cons.2 hblank),
        skipLength_of_ne hne, skipBlanks_of_stops (stops_cons.2 hblank)]
    | @sized b₁ digits b₂ c hb₁ hdigits hb₂ hc =>
      obtain ⟨hblank, -⟩ := hclass c hc
      refine ⟨c, hc, ?_⟩
      have htext : b₁ ++ '[' :: (digits ++ ']' :: (b₂ ++ [c])) ++ rest =
          b₁ ++ '[' :: (digits ++ ']' :: (b₂ ++ c :: rest)) := by
        simp
      rw [htext, skipBlanks_append hb₁ (stops_cons.2 (by decide)), skipLength_of_digits hdigits,
        skipBlanks_append hb₂ (stops_cons.2 hblank)]

theorem initEnd_iff : initMark cs = some rest ↔ ∃ tail, InitEnd tail ∧ cs = tail ++ rest := by
  simp only [initMark, Option.bind_eq_bind, Option.bind_eq_some_iff, mark_eq_some]
  constructor
  · rintro ⟨behind, hequals, hbrace⟩
    obtain ⟨b₁, hcs, hb₁, -⟩ := exists_skipBlanks cs
    obtain ⟨b₂, hbehind, hb₂, -⟩ := exists_skipBlanks behind
    refine ⟨_, .marks hb₁ hb₂, ?_⟩
    rw [hcs, hequals, hbehind, hbrace]
    simp
  · rintro ⟨tail, @⟨b₁, b₂, hb₁, hb₂⟩, rfl⟩
    refine ⟨b₂ ++ '\x7b' :: rest, ?_, skipBlanks_append hb₂ (stops_cons.2 (by decide))⟩
    have htext : b₁ ++ '=' :: (b₂ ++ ['\x7b']) ++ rest = b₁ ++ '=' :: (b₂ ++ '\x7b' :: rest) := by
      simp
    rw [htext, skipBlanks_append hb₁ (stops_cons.2 (by decide))]

/-- The reader of separators takes blanks or a star. -/
theorem exists_separates (h : separator cs = some rest) :
    ∃ sep, Separates sep ∧ cs = sep ++ rest := by
  rw [separator, Option.orElse_eq_orElse, Option.orElse_eq_or, Option.or_eq_some_iff] at h
  rcases h with hstar | ⟨-, hgap⟩
  · obtain ⟨b, hcs, hb, -⟩ := exists_skipBlanks cs
    rw [mark_eq_some.1 hstar] at hcs
    exact ⟨_, .star hb, by rw [hcs]; simp⟩
  · obtain ⟨gap, hcs, hblanks, -⟩ := gap_iff.1 hgap
    exact ⟨gap, .blanks hblanks, hcs⟩

theorem separator_append (h : Separates b) (hvar : IsName var) (cs : List Char) :
    separator (b ++ (var ++ cs)) = some (var ++ cs) := by
  cases h with
  | blanks hgap =>
    have hstop := hvar.stops_blank cs
    -- The variable does not begin with a star, so the blanks are what is taken.
    have hstar : mark '*' (var ++ cs) = none := by
      obtain ⟨d, var, rfl⟩ := List.exists_cons_of_ne_nil hvar.1
      have hd : d ≠ '*' := by
        rintro rfl
        exact absurd (run_cons.1 hvar.2).1 (by decide)
      simp [mark, hd]
    rw [separator, skipBlanks_append hgap.2 hstop, hstar]
    exact gap_iff.2 ⟨b, rfl, hgap, hstop⟩
  | @star b hb =>
    rw [separator, List.append_assoc, List.singleton_append,
      skipBlanks_append hb (stops_cons.2 (by decide))]
    simp [mark]

/-! ## What the readers of the forms take -/

theorem plainForm_iff :
    plainForm cs = some (name, rest) ↔
      ∃ sep var tail, cs = name ++ (sep ++ (var ++ (tail ++ rest))) ∧ IsName name ∧ Separates sep
        ∧ IsName var ∧ PlainEnd tail := by
  simp only [plainForm, Option.bind_eq_bind, Option.bind_eq_some_iff, Prod.exists, word_iff,
    plainEnd_iff, Option.pure_def, Option.some.injEq, Prod.mk.injEq]
  constructor
  · rintro ⟨_, _, ⟨rfl, hname, -⟩, _, hread, var, _, ⟨rfl, hvar, -⟩, _, ⟨tail, htail, rfl⟩, rfl,
      rfl⟩
    obtain ⟨sep, hsep, rfl⟩ := exists_separates hread
    exact ⟨sep, var, tail, rfl, hname, hsep, hvar, htail⟩
  · rintro ⟨sep, var, tail, rfl, hname, hsep, hvar, htail⟩
    exact ⟨name, _, ⟨rfl, hname, hsep.stops _⟩, _, separator_append hsep hvar _, var, _,
      ⟨rfl, hvar, htail.stops rest⟩, rest, ⟨tail, htail, rfl⟩, rfl, rfl⟩

theorem spacedInit_iff {w : List Char} :
    spacedInit w cs = some (name, rest) ↔
      w = name ∧ ∃ gap var tail, cs = gap ++ (var ++ (tail ++ rest)) ∧ IsGap gap ∧ IsName var
        ∧ InitEnd tail := by
  simp only [spacedInit, Option.bind_eq_bind, Option.bind_eq_some_iff, Prod.exists, gap_iff,
    word_iff, initEnd_iff, Option.pure_def, Option.some.injEq, Prod.mk.injEq]
  constructor
  · rintro ⟨_, ⟨gap, rfl, hgap, -⟩, var, _, ⟨rfl, hvar, -⟩, _, ⟨tail, htail, rfl⟩, rfl, rfl⟩
    exact ⟨rfl, gap, var, tail, rfl, hgap, hvar, htail⟩
  · rintro ⟨rfl, gap, var, tail, rfl, hgap, hvar, htail⟩
    exact ⟨_, ⟨gap, rfl, hgap, hvar.stops_blank _⟩, var, _, ⟨rfl, hvar, htail.stops rest⟩, rest,
      ⟨tail, htail, rfl⟩, rfl, rfl⟩

theorem fusedInit_iff {w : List Char} (hw : IsName w) :
    fusedInit w cs = some (name, rest) ↔
      ∃ c tail, w = name ++ [c] ∧ IsName name ∧ isWord c = true ∧ InitEnd tail
        ∧ cs = tail ++ rest := by
  simp only [fusedInit, Option.bind_eq_bind, Option.bind_eq_some_iff, initEnd_iff, Option.pure_def,
    Option.ite_none_left_eq_some, Option.some.injEq, Prod.mk.injEq]
  constructor
  · rintro ⟨_, ⟨tail, htail, rfl⟩, hlength, rfl, rfl⟩
    have hsplit := List.dropLast_concat_getLast hw.1
    have hrun := hw.2
    rw [← hsplit, run_append, run_cons] at hrun
    refine ⟨_, tail, hsplit.symm, ⟨?_, hrun.1⟩, hrun.2.1, htail, rfl⟩
    rw [← List.length_pos_iff, List.length_dropLast]
    omega
  · rintro ⟨c, tail, rfl, hname, hc, htail, rfl⟩
    refine ⟨rest, ⟨tail, htail, rfl⟩, ?_, List.dropLast_concat, rfl⟩
    have hpos := List.length_pos_iff.2 hname.1
    rw [List.length_append, List.length_singleton]
    omega

theorem initForm_iff :
    initForm cs = some (name, rest) ↔
      (∃ gap var tail, cs = name ++ (gap ++ (var ++ (tail ++ rest))) ∧ IsName name ∧ IsGap gap
          ∧ IsName var ∧ InitEnd tail) ∨
        ∃ c tail, cs = name ++ c :: (tail ++ rest) ∧ IsName name ∧ isWord c = true
          ∧ InitEnd tail := by
  simp only [initForm, Option.bind_eq_bind, Option.bind_eq_some_iff, Prod.exists, word_iff,
    Option.orElse_eq_orElse, Option.orElse_eq_or, Option.or_eq_some_iff, spacedInit_iff]
  constructor
  · rintro ⟨w, _, ⟨rfl, hw, -⟩, ⟨rfl, gap, var, tail, rfl, hgap, hvar, htail⟩ | ⟨-, hfused⟩⟩
    · exact .inl ⟨gap, var, tail, rfl, hw, hgap, hvar, htail⟩
    · obtain ⟨c, tail, rfl, hname, hc, htail, rfl⟩ := (fusedInit_iff hw).1 hfused
      exact .inr ⟨c, tail, by simp, hname, hc, htail⟩
  · rintro (⟨gap, var, tail, rfl, hname, hgap, hvar, htail⟩ | ⟨c, tail, rfl, hname, hc, htail⟩)
    · exact ⟨name, _, ⟨rfl, hname, (Separates.blanks hgap).stops _⟩,
        .inl ⟨rfl, gap, var, tail, rfl, hgap, hvar, htail⟩⟩
    · have hw := hname.concat hc
      refine ⟨name ++ [c], tail ++ rest, ⟨by simp, hw, htail.stops rest⟩, .inr ⟨?_, ?_⟩⟩
      · -- Behind the word stands an equals sign, where the spaced form has a variable.
        rw [Option.eq_none_iff_forall_ne_some]
        rintro ⟨n, r⟩ hspaced
        obtain ⟨-, gap, var, tail', htext, hgap, hvar, -⟩ := spacedInit_iff.1 hspaced
        obtain ⟨d, hd, hnext⟩ := (Separates.blanks hgap).exists_next hvar
        exact ne_end_of_next (hnext _) hd (.inr htail) htext.symm
      · exact (fusedInit_iff hw).2 ⟨c, tail, rfl, hname, hc, htail, rfl⟩

theorem afterKeyword_iff {form : List Char → Option (List Char × List Char)} :
    afterKeyword form cs = some (name, rest) ↔
      ∃ gap more, cs = "struct".toList ++ (gap ++ more) ∧ IsGap gap ∧ Stops isBlank more
        ∧ form more = some (name, rest) := by
  simp only [afterKeyword, Option.bind_eq_bind, Option.bind_eq_some_iff, keyword_eq_some, gap_iff]
  constructor
  · rintro ⟨_, rfl, more, ⟨gap, rfl, hgap, hstop⟩, hform⟩
    exact ⟨gap, more, rfl, hgap, hstop, hform⟩
  · rintro ⟨gap, more, rfl, hgap, hstop, hform⟩
    exact ⟨_, rfl, more, ⟨gap, rfl, hgap, hstop⟩, hform⟩

/-- Behind the keyword and blanks a form is read. -/
theorem afterKeyword_append (form : List Char → Option (List Char × List Char)) {gap : List Char}
    (hgap : IsGap gap) (hrest : Stops isBlank rest) :
    afterKeyword form ("struct".toList ++ (gap ++ rest)) = form rest := by
  have hkeyword : keyword "struct" ("struct".toList ++ (gap ++ rest)) = some (gap ++ rest) :=
    keyword_eq_some.2 rfl
  have hblanks : Reading.gap (gap ++ rest) = some rest := gap_iff.2 ⟨gap, rfl, hgap, hrest⟩
  simp only [afterKeyword, hkeyword, Option.bind_eq_bind, Option.bind_some, hblanks]

/-- A variable behind blanks is the word behind them. -/
theorem Separates.eq_of_gap {gap sep var behind : List Char} (hgap : IsGap gap)
    (hname : IsName name) (hrest : Stops isWord rest) (hsep : Separates sep) (hvar : IsName var)
    (hbehind : Stops isWord behind) (h : gap ++ (name ++ rest) = sep ++ (var ++ behind)) :
    rest = behind := by
  cases hsep with
  | blanks hsep =>
    obtain ⟨-, hword⟩ := run_append_inj hgap.2 hsep.2 (hname.stops_blank _) (hvar.stops_blank _) h
    exact (run_append_inj hname.2 hvar.2 hrest hbehind hword).2
  | star hb =>
    -- The next character would be a star, and it begins a word.
    obtain ⟨d, hd, hnext⟩ := IsName.exists_next hname
    have hstar := congrArg next h
    rw [next_append hgap.2, hnext, next_marks hb (by decide) rfl, Option.some.injEq] at hstar
    rw [hstar] at hd
    exact absurd hd (by decide)

/-- The first form does not take a word before an initialiser. -/
theorem plainForm_of_initEnd (hname : IsName name) (htail : InitEnd tail) (rest : List Char) :
    plainForm (name ++ (tail ++ rest)) = none := by
  rw [Option.eq_none_iff_forall_ne_some]
  rintro ⟨n, r⟩ hplain
  obtain ⟨sep, var, tail', htext, hn, hsep, hvar, -⟩ := plainForm_iff.1 hplain
  obtain ⟨-, hbehind⟩ := run_append_inj hname.2 hn.2 (htail.stops rest) (hsep.stops _) htext
  obtain ⟨d, hd, hnext⟩ := hsep.exists_next hvar
  exact ne_end_of_next (hnext _) hd (.inr htail) hbehind.symm

/-- It does not take two words before an initialiser either. -/
theorem plainForm_of_gap_initEnd {w gap : List Char} (hw : IsName w) (hgap : IsGap gap)
    (hname : IsName name) (htail : InitEnd tail) (rest : List Char) :
    plainForm (w ++ (gap ++ (name ++ (tail ++ rest)))) = none := by
  rw [Option.eq_none_iff_forall_ne_some]
  rintro ⟨n, r⟩ hplain
  obtain ⟨sep, var, tail', htext, hn, hsep, hvar, htail'⟩ := plainForm_iff.1 hplain
  obtain ⟨-, hbehind⟩ := run_append_inj hw.2 hn.2 ((Separates.blanks hgap).stops _) (hsep.stops _)
    htext
  have hend := hsep.eq_of_gap hgap hname (htail.stops rest) hvar (htail'.stops r) hbehind
  obtain ⟨d, hd, hnext⟩ := htail'.exists_next
  have hequals := htail.next_eq rest
  rw [hend, hnext, Option.some.injEq] at hequals
  rw [hequals] at hd
  exact absurd hd (by decide)

/-! ## What the reader of uses takes -/

/-- What the forms take is a name and what completes it. -/
theorem exists_completes_of_form (h : plainForm cs = some (name, rest) ∨
    initForm cs = some (name, rest)) :
    ∃ behind, cs = name ++ (behind ++ rest) ∧ IsName name ∧ Completes behind := by
  rcases h with hplain | hinit
  · obtain ⟨sep, var, tail, rfl, hname, hsep, hvar, htail⟩ := plainForm_iff.1 hplain
    exact ⟨_, by simp, hname, .inl (.plain hsep hvar htail)⟩
  · rcases initForm_iff.1 hinit with
      ⟨gap, var, tail, rfl, hname, hgap, hvar, htail⟩ | ⟨c, tail, rfl, hname, hc, htail⟩
    · exact ⟨_, by simp, hname, .inl (.initialised hgap hvar htail)⟩
    · exact ⟨_, by simp, hname, .inr (.word hc htail)⟩

/-- A name with what completes it is taken by one of the forms. -/
theorem form_of_completes (hname : IsName name) (h : Completes b) (rest : List Char) :
    plainForm (name ++ (b ++ rest)) = some (name, rest) ∨
      initForm (name ++ (b ++ rest)) = some (name, rest) := by
  rcases h with hnames | hsplits
  · cases hnames with
    | plain hsep hvar htail =>
      exact .inl (plainForm_iff.2 ⟨_, _, _, by simp, hname, hsep, hvar, htail⟩)
    | initialised hgap hvar htail =>
      exact .inr (initForm_iff.2 (.inl ⟨_, _, _, by simp, hname, hgap, hvar, htail⟩))
  · cases hsplits with
    | word hc htail => exact .inr (initForm_iff.2 (.inr ⟨_, _, by simp, hname, hc, htail⟩))

/-- What the reader takes is a type name with what completes it, and perhaps the keyword. -/
theorem exists_parts_of_read (h : read cs = some (name, rest)) :
    ∃ lead behind, cs = lead ++ (name ++ (behind ++ rest)) ∧ Lead lead ∧ IsName name
      ∧ Completes behind := by
  have hforms : (∃ gap more, cs = "struct".toList ++ (gap ++ more) ∧ IsGap gap ∧
      (plainForm more = some (name, rest) ∨ initForm more = some (name, rest))) ∨
        (plainForm cs = some (name, rest) ∨ initForm cs = some (name, rest)) := by
    simp only [read, Option.orElse_eq_orElse, Option.orElse_eq_or, Option.or_eq_some_iff,
      afterKeyword_iff] at h
    rcases h with ⟨gap, more, hcs, hgap, -, hform⟩ | ⟨-, hform | ⟨-, h⟩⟩
    · exact .inl ⟨gap, more, hcs, hgap, .inl hform⟩
    · exact .inr (.inl hform)
    · rcases h with ⟨gap, more, hcs, hgap, -, hform⟩ | ⟨-, hform⟩
      · exact .inl ⟨gap, more, hcs, hgap, .inr hform⟩
      · exact .inr (.inr hform)
  rcases hforms with ⟨gap, more, rfl, hgap, hform⟩ | hform
  · obtain ⟨behind, rfl, hname, hbehind⟩ := exists_completes_of_form hform
    exact ⟨_, behind, by simp, .keyword hgap, hname, hbehind⟩
  · obtain ⟨behind, rfl, hname, hbehind⟩ := exists_completes_of_form hform
    exact ⟨[], behind, rfl, .none, hname, hbehind⟩

/-- A type name with what completes it, and perhaps the keyword, is taken by some form. -/
theorem isSome_read {lead : List Char} (hlead : Lead lead) (hname : IsName name)
    (hb : Completes b) (rest : List Char) :
    (read (lead ++ (name ++ (b ++ rest)))).isSome = true := by
  have hform := form_of_completes hname hb rest
  simp only [read, Option.orElse_eq_orElse, Option.orElse_eq_or, Option.isSome_or, Bool.or_eq_true]
  cases hlead with
  | none =>
    rcases hform with hplain | hinit
    · exact .inr (.inl (Option.isSome_of_eq_some hplain))
    · exact .inr (.inr (.inr (Option.isSome_of_eq_some hinit)))
  | keyword hgap =>
    have hstop := hname.stops_blank (b ++ rest)
    rw [List.append_assoc, afterKeyword_append _ hgap hstop, afterKeyword_append _ hgap hstop]
    rcases hform with hplain | hinit
    · exact .inl (Option.isSome_of_eq_some hplain)
    · exact .inr (.inr (.inl (Option.isSome_of_eq_some hinit)))

/-- A name that is completed behind the beginning of a word is the word, or all of it but the last
character. -/
theorem Completes.of_word {w after : List Char} (hw : IsName w) (hafter : Stops isWord after)
    (hname : IsName name) (hb : Completes b) (h : w ++ after = name ++ (b ++ rest)) :
    (name = w ∧ NamesVariable b ∧ after = b ++ rest) ∨
      ∃ c tail, w = name ++ [c] ∧ InitEnd tail ∧ after = tail ++ rest := by
  rcases hb with hnames | hsplits
  · obtain ⟨rfl, hbehind⟩ := run_append_inj hw.2 hname.2 hafter (hnames.stops rest) h
    exact .inl ⟨rfl, hnames, hbehind⟩
  · obtain @⟨c, tail, hc, htail⟩ := hsplits
    have hsplit : w ++ after = (name ++ [c]) ++ (tail ++ rest) := by simpa using h
    obtain ⟨rfl, hbehind⟩ := run_append_inj hw.2 (hname.concat hc).2 hafter (htail.stops rest)
      hsplit
    exact .inr ⟨c, tail, rfl, htail, hbehind⟩

/-- What the reader takes at a word: the word as a name, the word in two parts, or a name behind the
word, which is the keyword then. -/
theorem read_word {w after : List Char} (hw : IsName w) (hafter : Stops isWord after)
    (h : read (w ++ after) = some (name, rest)) :
    (name = w ∧ ∃ behind, NamesVariable behind ∧ after = behind ++ rest) ∨
      (∃ c tail, w = name ++ [c] ∧ InitEnd tail ∧ after = tail ++ rest) ∨
        w = "struct".toList ∧ ∃ gap behind, IsGap gap ∧ IsName name ∧ Completes behind
          ∧ after = gap ++ (name ++ (behind ++ rest)) := by
  obtain ⟨lead, behind, htext, hlead, hname, hbehind⟩ := exists_parts_of_read h
  cases hlead with
  | none =>
    rcases hbehind.of_word hw hafter hname htext with ⟨rfl, hnames, hafter⟩ | hcut
    · exact .inl ⟨rfl, behind, hnames, hafter⟩
    · exact .inr (.inl hcut)
  | @keyword gap hgap =>
    rw [List.append_assoc] at htext
    obtain ⟨rfl, hafter⟩ := run_append_inj hw.2 (by decide) hafter
      ((Separates.blanks hgap).stops _) htext
    exact .inr (.inr ⟨rfl, gap, behind, hgap, hname, hbehind, hafter⟩)

/-- A type name before a variable is what the reader takes. -/
theorem read_named (hname : IsName name) (hkeyword : name ≠ "struct".toList)
    (hb : NamesVariable b) (rest : List Char) :
    ∃ behind, read (name ++ (b ++ rest)) = some (name, behind) := by
  obtain ⟨⟨n, behind⟩, hread⟩ := Option.isSome_iff_exists.1
    (isSome_read .none hname (.inl hb) rest)
  rw [List.nil_append] at hread
  obtain ⟨d, hd, hnext⟩ := hb.exists_next
  rcases read_word hname (hb.stops rest) hread with
    ⟨rfl, -⟩ | ⟨c, tail, -, htail, hafter⟩ | ⟨rfl, -⟩
  · exact ⟨behind, hread⟩
  · exact absurd hafter (ne_end_of_next (hnext rest) hd (.inr htail))
  · exact absurd rfl hkeyword

/-- Behind the keyword it is so for every name. -/
theorem read_struct_named {gap : List Char} (hgap : IsGap gap) (hname : IsName name)
    (hb : NamesVariable b) (rest : List Char) :
    ∃ behind, read ("struct".toList ++ (gap ++ (name ++ (b ++ rest)))) = some (name, behind) := by
  obtain ⟨⟨n, behind⟩, hread⟩ := Option.isSome_iff_exists.1
    (isSome_read (.keyword hgap) hname (.inl hb) rest)
  rw [List.append_assoc] at hread
  obtain ⟨d, hd, hnext⟩ := hb.exists_next
  rcases read_word (by decide) ((Separates.blanks hgap).stops _) hread with
    ⟨rfl, form, hform, hafter⟩ | ⟨c, tail, -, htail, hafter⟩ | ⟨-, gap', form, hgap', hn, hform, h⟩
  · -- The name would be the variable, and then an end would stand behind it.
    obtain ⟨sep, var, tail, rfl, hsep, hvar, htail⟩ := hform.exists_parts
    rw [List.append_assoc, List.append_assoc] at hafter
    have hend : EndsUse tail := htail.imp_right And.right
    have hb' := hsep.eq_of_gap hgap hname (hb.stops rest) hvar (hend.stops _) hafter
    exact absurd hb' (ne_end_of_next (hnext rest) hd hend)
  · obtain ⟨d, hd, hnext⟩ := (Separates.blanks hgap).exists_next hname
    exact absurd hafter (ne_end_of_next (hnext _) hd (.inr htail))
  · obtain ⟨-, htext⟩ := run_append_inj hgap.2 hgap'.2 (hname.stops_blank _) (hn.stops_blank _) h
    rcases hform.of_word hname (hb.stops rest) hn htext with ⟨rfl, -⟩ | ⟨c, tail, -, htail, hafter⟩
    · exact ⟨behind, hread⟩
    · exact absurd hafter (ne_end_of_next (hnext rest) hd (.inr htail))

/-- A word before an initialiser is taken in two parts. -/
theorem read_cut (hname : IsName name) (hc : isWord c = true) (htail : InitEnd tail)
    (rest : List Char) : ∃ behind, read (name ++ c :: (tail ++ rest)) = some (name, behind) := by
  have hw := hname.concat hc
  have htext : name ++ c :: (tail ++ rest) = (name ++ [c]) ++ (tail ++ rest) := by simp
  obtain ⟨⟨n, behind⟩, hread⟩ := Option.isSome_iff_exists.1
    (isSome_read .none hname (.inr (.word hc htail)) rest)
  rw [List.nil_append, List.cons_append] at hread
  rw [htext] at hread ⊢
  rcases read_word hw (htail.stops rest) hread with
    ⟨-, form, hform, hafter⟩ | ⟨d, tail', hword, -⟩ | ⟨-, gap, form, hgap, hn, -, hafter⟩
  · obtain ⟨d, hd, hnext⟩ := hform.exists_next
    exact absurd hafter.symm (ne_end_of_next (hnext _) hd (.inr htail))
  · obtain ⟨rfl, -⟩ := List.append_inj' hword rfl
    exact ⟨behind, hread⟩
  · obtain ⟨d, hd, hnext⟩ := (Separates.blanks hgap).exists_next hn
    exact absurd hafter.symm (ne_end_of_next (hnext _) hd (.inr htail))

/-- Behind the keyword it is so too, although the keyword and the word have the form of a use. -/
theorem read_struct_cut {gap : List Char} (hgap : IsGap gap) (hname : IsName name)
    (hc : isWord c = true) (htail : InitEnd tail) (rest : List Char) :
    read ("struct".toList ++ (gap ++ (name ++ c :: (tail ++ rest)))) = some (name, rest) := by
  have hw := hname.concat hc
  have htext : name ++ c :: (tail ++ rest) = (name ++ [c]) ++ (tail ++ rest) := by simp
  have hinit : initForm (name ++ c :: (tail ++ rest)) = some (name, rest) :=
    initForm_iff.2 (.inr ⟨c, tail, rfl, hname, hc, htail⟩)
  have hstop := hw.stops_blank (tail ++ rest)
  rw [read, htext, afterKeyword_append _ hgap hstop, afterKeyword_append _ hgap hstop,
    plainForm_of_initEnd hw htail, plainForm_of_gap_initEnd (by decide) hgap hw htail, ← htext,
    hinit]
  rfl

end StructAtlas.Usage
