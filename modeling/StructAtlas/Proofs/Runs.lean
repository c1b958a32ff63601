import StructAtlas.Declaration.Shape

set_option autoImplicit false

/-!
# Maximal runs of a character class

Every reader of this library takes the longest run of a class and looks at the character behind it.
A text is therefore described by its runs: `Run p` says that all characters are of the class `p`,
`Stops p` that the text does not go on with one. `takeWhile_run` and `dropWhile_run` say that a run
in front of such a text is found as it is, `exists_run` that every text has this form, and
`run_append_inj` that it has it in one way.

Blanks are no word characters (`isWord_of_isBlank`) and decimal digits are (`isWord_of_isDecimal`),
which is why no reader has to give back a character that it took.
-/

namespace StructAtlas.Text

/-- All characters of a text are of one class. -/
def Run (p : Char → Bool) (cs : List Char) : Prop :=
  ∀ c ∈ cs, p c = true

/-- A text does not begin with a character of a class. -/
def Stops (p : Char → Bool) (cs : List Char) : Prop :=
  ∀ c ∈ cs.head?, p c = false

/-- One or more blanks. -/
def IsGap (cs : List Char) : Prop :=
  cs ≠ [] ∧ Run isBlank cs

/-- One or more word characters. -/
def IsName (cs : List Char) : Prop :=
  cs ≠ [] ∧ Run isWord cs

instance (p : Char → Bool) (cs : List Char) : Decidable (Run p cs) :=
  decidable_of_iff (cs.all p = true) List.all_eq_true

instance (cs : List Char) : Decidable (IsGap cs) :=
  inferInstanceAs (Decidable (cs ≠ [] ∧ Run isBlank cs))

instance (cs : List Char) : Decidable (IsName cs) :=
  inferInstanceAs (Decidable (cs ≠ [] ∧ Run isWord cs))

@[simp]
theorem run_nil (p : Char → Bool) : Run p [] := by
  simp [Run]

@[simp]
theorem run_cons {p : Char → Bool} {c : Char} {cs : List Char} :
    Run p (c :: cs) ↔ p c = true ∧ Run p cs := by
  simp [Run]

@[simp]
theorem run_append {p : Char → Bool} {as bs : List Char} :
    Run p (as ++ bs) ↔ Run p as ∧ Run p bs := by
  simp [Run, or_imp, forall_and]

@[simp]
theorem stops_nil (p : Char → Bool) : Stops p [] := by
  simp [Stops]

@[simp]
theorem stops_cons {p : Char → Bool} {c : Char} {cs : List Char} :
    Stops p (c :: cs) ↔ p c = false := by
  simp [Stops]

theorem stops_of_append {p : Char → Bool} {as bs : List Char} (h : Stops p (as ++ bs)) :
    Stops p as := by
  cases as with
  | nil => exact stops_nil p
  | cons a as => exact stops_cons.2 (stops_cons.1 h)

/-- A run of another class stops a class, and so does what stops it behind an empty run. -/
theorem Run.stops_append {p q : Char → Bool} (apart : ∀ c, q c = true → p c = false)
    {run rest : List Char} (hrun : Run q run) (hrest : Stops p rest) : Stops p (run ++ rest) := by
  cases run with
  | nil => exact hrest
  | cons c cs => exact stops_cons.2 (apart c (run_cons.1 hrun).1)

/-- A run that is not empty stops every other class, whatever follows. -/
theorem Run.stops_append_of_ne_nil {p q : Char → Bool} (apart : ∀ c, q c = true → p c = false)
    {run : List Char} (hrun : Run q run) (hne : run ≠ []) (rest : List Char) :
    Stops p (run ++ rest) := by
  cases run with
  | nil => exact absurd rfl hne
  | cons c cs => exact stops_cons.2 (apart c (run_cons.1 hrun).1)

theorem dropWhile_of_stops {p : Char → Bool} {cs : List Char} (h : Stops p cs) :
    cs.dropWhile p = cs := by
  cases cs with
  | nil => rfl
  | cons c cs => exact List.dropWhile_cons_of_neg (by simp [stops_cons.1 h])

theorem takeWhile_of_stops {p : Char → Bool} {cs : List Char} (h : Stops p cs) :
    cs.takeWhile p = [] := by
  cases cs with
  | nil => rfl
  | cons c cs => exact List.takeWhile_cons_of_neg (by simp [stops_cons.1 h])

theorem dropWhile_run {p : Char → Bool} {run rest : List Char} (hrun : Run p run)
    (hrest : Stops p rest) : (run ++ rest).dropWhile p = rest := by
  rw [List.dropWhile_append_of_pos hrun, dropWhile_of_stops hrest]

theorem takeWhile_run {p : Char → Bool} {run rest : List Char} (hrun : Run p run)
    (hrest : Stops p rest) : (run ++ rest).takeWhile p = run := by
  rw [List.takeWhile_append_of_pos hrun, takeWhile_of_stops hrest, List.append_nil]

theorem run_takeWhile (p : Char → Bool) (cs : List Char) : Run p (cs.takeWhile p) := fun _ h =>
  List.all_eq_true.1 List.all_takeWhile _ h

theorem stops_dropWhile (p : Char → Bool) (cs : List Char) : Stops p (cs.dropWhile p) := by
  intro c hc
  have h := List.head?_dropWhile_not p cs
  rw [Option.mem_def.1 hc] at h
  simpa using h

/-- Every text is a run of a class, possibly empty, and a text that does not go on with it. -/
theorem exists_run (p : Char → Bool) (cs : List Char) :
    ∃ run, cs = run ++ cs.dropWhile p ∧ Run p run ∧ Stops p (cs.dropWhile p) :=
  ⟨cs.takeWhile p, List.takeWhile_append_dropWhile.symm, run_takeWhile p cs, stops_dropWhile p cs⟩

/-- A text is divided in one way into a run of a class and a text that does not go on with it. -/
theorem run_append_inj {p : Char → Bool} {run run' rest rest' : List Char} (hrun : Run p run)
    (hrun' : Run p run') (hrest : Stops p rest) (hrest' : Stops p rest')
    (h : run ++ rest = run' ++ rest') : run = run' ∧ rest = rest' := by
  have hfirst : run = run' := by
    rw [← takeWhile_run hrun hrest, h, takeWhile_run hrun' hrest']
  subst hfirst
  exact ⟨rfl, List.append_cancel_left h⟩

/-! ## Classes that have no character in common, and classes in other ones -/

/-- No range of the first table meets a range of the second one. -/
def rangesApart (first second : List (Nat × Nat)) : Bool :=
  first.all fun r => second.all fun q => decide (r.2 < q.1) || decide (q.2 < r.1)

theorem inRanges_of_rangesApart {first second : List (Nat × Nat)}
    (apart : rangesApart first second = true) {c : Char} (h : inRanges first c = true) :
    inRanges second c = false := by
  obtain ⟨r, hr, low, high⟩ := inRanges_iff.1 h
  cases hs : inRanges second c with
  | false => rfl
  | true =>
    obtain ⟨q, hq, low', high'⟩ := inRanges_iff.1 hs
    have hrow := List.all_eq_true.1 apart r hr
    have hcell := List.all_eq_true.1 hrow q hq
    simp only [Bool.or_eq_true, decide_eq_true_eq] at hcell
    omega

/-- Every range of the first table lies in a range of the second one. -/
def rangesWithin (first second : List (Nat × Nat)) : Bool :=
  first.all fun r => second.any fun q => decide (q.1 ≤ r.1) && decide (r.2 ≤ q.2)

theorem inRanges_of_rangesWithin {first second : List (Nat × Nat)}
    (within : rangesWithin first second = true) {c : Char} (h : inRanges first c = true) :
    inRanges second c = true := by
  obtain ⟨r, hr, low, high⟩ := inRanges_iff.1 h
  obtain ⟨q, hq, hcell⟩ := List.any_eq_true.1 (List.all_eq_true.1 within r hr)
  simp only [Bool.and_eq_true, decide_eq_true_eq] at hcell
  exact inRanges_iff.2 ⟨q, hq, by omega, by omega⟩

theorem toNat_eq_of_isAsciiBlank {c : Char} (h : isBlank c = true) (hc : c.toNat < 128) :
    (9 ≤ c.toNat ∧ c.toNat ≤ 13) ∨ (28 ≤ c.toNat ∧ c.toNat ≤ 32) := by
  simp only [isBlank, inRanges_iff, blankRanges, List.mem_cons, List.not_mem_nil, or_false,
    exists_eq_or_imp, exists_eq_left] at h
  omega

/-- A blank is no word character. -/
theorem isWord_of_isBlank (c : Char) (h : isBlank c = true) : isWord c = false := by
  -- Below 128 the classes are given by bounds, above it by tables.
  rw [isWord]
  split
  · rename_i hc
    have hn := toNat_eq_of_isAsciiBlank h hc
    simp only [isAsciiWord, Char.le_def, Bool.or_eq_false_iff, Bool.and_eq_false_iff,
      decide_eq_false_iff_not, UInt32.le_iff_toNat_le, beq_eq_false_iff_ne, ne_eq]
    have hu : c ≠ '_' := by
      rintro rfl
      exact absurd hn (by decide)
    refine ⟨⟨⟨?_, ?_⟩, ?_⟩, hu⟩ <;> simp <;> omega
  · exact inRanges_of_rangesApart (by decide +kernel) h

/-- A word character is no blank. -/
theorem isBlank_of_isWord (c : Char) (h : isWord c = true) : isBlank c = false := by
  cases hb : isBlank c with
  | false => rfl
  | true => exact absurd h (by simp [isWord_of_isBlank c hb])

/-- A decimal digit is a word character. -/
theorem isWord_of_isDecimal (c : Char) (h : isDecimal c = true) : isWord c = true := by
  rw [isDecimal, digitValue?] at h
  rw [isWord]
  split at h
  · rename_i hc
    have hdigit : ('0' ≤ c && c ≤ '9') = true := by
      split at h
      · assumption
      · cases h
    rw [if_pos hc, isAsciiWord, hdigit]
    simp
  · rename_i hc
    rw [Option.isSome_map, List.find?_isSome] at h
    have hdigits : inRanges digitRanges c = true := List.any_eq_true.2 h
    have hwithin : rangesWithin digitRanges wordRanges = true := by decide +kernel
    rw [if_neg hc]
    exact inRanges_of_rangesWithin hwithin hdigits

/-- A decimal digit is no blank. -/
theorem isBlank_of_isDecimal (c : Char) (h : isDecimal c = true) : isBlank c = false :=
  isBlank_of_isWord c (isWord_of_isDecimal c h)

/-! ## Blanks, gaps and names in front of a text -/

theorem skipBlanks_append {blanks rest : List Char} (hblanks : Run isBlank blanks)
    (hrest : Stops isBlank rest) : skipBlanks (blanks ++ rest) = rest :=
  dropWhile_run hblanks hrest

theorem skipBlanks_of_stops {cs : List Char} (h : Stops isBlank cs) : skipBlanks cs = cs :=
  dropWhile_of_stops h

theorem exists_skipBlanks (cs : List Char) :
    ∃ blanks, cs = blanks ++ skipBlanks cs ∧ Run isBlank blanks ∧ Stops isBlank (skipBlanks cs) :=
  exists_run isBlank cs

theorem IsName.stops_blank {name : List Char} (h : IsName name) (rest : List Char) :
    Stops isBlank (name ++ rest) :=
  h.2.stops_append_of_ne_nil isBlank_of_isWord h.1 rest

theorem IsName.concat {name : List Char} {c : Char} (h : IsName name) (hc : isWord c = true) :
    IsName (name ++ [c]) :=
  ⟨by simp, run_append.2 ⟨h.2, run_cons.2 ⟨hc, run_nil isWord⟩⟩⟩

end StructAtlas.Text

namespace StructAtlas.Reading

open Text

theorem gap_iff {cs rest : List Char} :
    gap cs = some rest ↔ ∃ blanks, cs = blanks ++ rest ∧ IsGap blanks ∧ Stops isBlank rest := by
  constructor
  · intro h
    cases cs with
    | nil => simp [gap] at h
    | cons c cs =>
      simp only [gap, Option.ite_none_right_eq_some, Option.some.injEq] at h
      obtain ⟨hc, rfl⟩ := h
      -- The first blank is read apart from the others.
      obtain ⟨blanks, hcs, hrun, hstop⟩ := exists_skipBlanks cs
      refine ⟨c :: blanks, ?_, ⟨by simp, run_cons.2 ⟨hc, hrun⟩⟩, hstop⟩
      rw [List.cons_append, ← hcs]
  · rintro ⟨blanks, rfl, ⟨hne, hrun⟩, hstop⟩
    cases blanks with
    | nil => exact absurd rfl hne
    | cons c blanks =>
      obtain ⟨hc, hrun⟩ := run_cons.1 hrun
      simp [gap, hc, skipBlanks_append hrun hstop]

theorem word_iff {cs w rest : List Char} :
    word cs = some (w, rest) ↔ cs = w ++ rest ∧ IsName w ∧ Stops isWord rest := by
  constructor
  · intro h
    obtain ⟨hcs, hne, hrun, hstop⟩ := word_eq_some h
    exact ⟨hcs, ⟨hne, hrun⟩, hstop⟩
  · rintro ⟨rfl, ⟨hne, hrun⟩, hstop⟩
    cases w with
    | nil => exact absurd rfl hne
    | cons c w =>
      rw [word, takeWhile_run hrun hstop, dropWhile_run hrun hstop]

theorem body_iff {cs rest : List Char} :
    body cs = some rest ↔
      ∃ inner, cs = '\x7b' :: (inner ++ '\x7d' :: rest) ∧ '\x7d' ∉ inner := by
  simp only [body, Option.bind_eq_bind, Option.bind_eq_some_iff, mark_eq_some, pastBrace_eq_some]
  constructor
  · rintro ⟨_, rfl, inner, rfl, hinner⟩
    exact ⟨inner, rfl, hinner⟩
  · rintro ⟨inner, rfl, hinner⟩
    exact ⟨_, rfl, inner, rfl, hinner⟩

end StructAtlas.Reading
