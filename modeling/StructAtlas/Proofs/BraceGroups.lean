import StructAtlas.Proofs.NestedGroups

set_option autoImplicit false

/-!
# Groups of braces

In a balanced text (`Body.IsBalanced`) no beginning closes a brace that it did not open, and nothing
is left open at the end. Only the braces of a text matter for that (`Body.isBalanced_of_braces`).

`Body.Grouped` cuts a text at its outermost braces: each group is the text between two matching
braces, with the text in front of it. Such a text is balanced (`Body.Grouped.isBalanced`), and it is
cut in one way only (`Body.Grouped.unique`).
-/

namespace StructAtlas.Body

open Text

/-! ## Balanced texts -/

section Balanced

variable {cs as bs : List Char}

/-- Braces are matched. -/
structure IsBalanced (cs : List Char) : Prop where
  nonneg : ∀ before, before <+: cs → 0 ≤ surplus before
  settled : surplus cs = 0

/-- The braces of a text, without what stands between them. -/
def braces (cs : List Char) : List Char :=
  cs.filter fun c => decide (Field.IsBrace c)

theorem braces_append (as bs : List Char) : braces (as ++ bs) = braces as ++ braces bs :=
  List.filter_append as bs

theorem braces_eq_nil_iff : braces cs = [] ↔ ∀ c ∈ cs, ¬ Field.IsBrace c := by
  rw [braces, List.filter_eq_nil_iff]
  exact forall₂_congr fun c _ => not_congr decide_eq_true_iff

theorem surplus_braces (cs : List Char) : surplus (braces cs) = surplus cs := by
  rw [surplus, surplus, braces, List.count_filter (by decide), List.count_filter (by decide)]

/-- A text is balanced if its braces are. -/
theorem isBalanced_of_braces (h : IsBalanced (braces cs)) : IsBalanced cs := by
  refine ⟨?_, by rw [← surplus_braces, h.settled]⟩
  intro before hbefore
  rw [← surplus_braces]
  exact h.nonneg _ (hbefore.filter _)

theorem isBalanced_nil : IsBalanced [] :=
  ⟨fun _ h => by rw [List.prefix_nil.1 h]; decide, rfl⟩

theorem isBalanced_of_flat (h : ∀ c ∈ cs, ¬ Field.IsBrace c) : IsBalanced cs := by
  apply isBalanced_of_braces
  rw [braces_eq_nil_iff.2 h]
  exact isBalanced_nil

theorem IsBalanced.append (has : IsBalanced as) (hbs : IsBalanced bs) : IsBalanced (as ++ bs) := by
  refine ⟨?_, by rw [surplus_append, has.settled, hbs.settled]; rfl⟩
  intro before hbefore
  -- A beginning ends in the first text, or it is the first text and a beginning of the second.
  rcases List.prefix_or_prefix_of_prefix hbefore (List.prefix_append as bs) with h | ⟨rest, rfl⟩
  · exact has.nonneg before h
  · rw [surplus_append, has.settled]
    have := hbs.nonneg rest ((List.prefix_append_right_inj as).1 hbefore)
    omega

/-- Braces around a balanced text. -/
theorem IsBalanced.group (h : IsBalanced cs) : IsBalanced ('\x7b' :: (cs ++ ['\x7d'])) := by
  have hsettled : surplus ('\x7b' :: (cs ++ ['\x7d'])) = 0 := by
    rw [surplus_open, surplus_append, h.settled, surplus_close]
    decide
  refine ⟨?_, hsettled⟩
  intro before hbefore
  rcases List.prefix_cons_iff.1 hbefore with rfl | ⟨rest, rfl, hrest⟩
  · decide
  · rcases List.prefix_concat_iff.1 hrest with rfl | hinner
    · omega
    · rw [surplus_open]
      have := h.nonneg rest hinner
      omega

/-- A balanced text is followed by at most one way to close the brace in front of it. -/
theorem IsBalanced.append_close_inj {rest rest' : List Char} (has : IsBalanced as)
    (hbs : IsBalanced bs) (h : as ++ '\x7d' :: rest = bs ++ '\x7d' :: rest') :
    as = bs ∧ rest = rest' := by
  -- A longer text would begin with the shorter one and a closing brace, which is one too many.
  have hlonger : ∀ {longer more : List Char}, IsBalanced longer → ∀ {shorter : List Char},
      IsBalanced shorter → longer = shorter ++ '\x7d' :: more → False := by
    intro longer more hl shorter hs e
    have hbefore : shorter ++ ['\x7d'] <+: longer := ⟨more, by rw [e]; simp⟩
    have hnonneg := hl.nonneg _ hbefore
    rw [surplus_append, hs.settled, surplus_close, surplus_nil] at hnonneg
    omega
  rcases List.append_eq_append_iff.1 h with ⟨mid, rfl, e⟩ | ⟨mid, rfl, e⟩
  · cases mid with
    | nil => exact ⟨(List.append_nil as).symm, by simpa using e⟩
    | cons c mid =>
      obtain ⟨rfl, -⟩ := List.cons.inj e
      exact (hlonger hbs has rfl).elim
  · cases mid with
    | nil => exact ⟨List.append_nil bs, by simpa using e.symm⟩
    | cons c mid =>
      obtain ⟨rfl, -⟩ := List.cons.inj e
      exact (hlonger has hbs rfl).elim

end Balanced

/-! ## Outermost groups -/

/-- An outermost pair of braces. -/
structure Group where
  lead : List Char
  inner : List Char
deriving DecidableEq

/-- A text falls into groups. -/
inductive Grouped : List Char → List Group → Prop where
  | flat {cs : List Char} (h : ∀ c ∈ cs, ¬ Field.IsBrace c) : Grouped cs []
  | group {lead inner rest : List Char} {groups : List Group}
      (hlead : ∀ c ∈ lead, ¬ Field.IsBrace c) (hinner : IsBalanced inner)
      (hrest : Grouped rest groups) :
      Grouped (lead ++ '\x7b' :: (inner ++ '\x7d' :: rest)) (⟨lead, inner⟩ :: groups)

theorem Grouped.isBalanced {cs : List Char} {groups : List Group} (h : Grouped cs groups) :
    IsBalanced cs := by
  induction h with
  | flat h => exact isBalanced_of_flat h
  | @group lead inner rest groups hlead hinner hrest ih =>
    have hparts : lead ++ '\x7b' :: (inner ++ '\x7d' :: rest)
        = lead ++ (('\x7b' :: (inner ++ ['\x7d'])) ++ rest) := by
      simp
    rw [hparts]
    exact (isBalanced_of_flat hlead).append (hinner.group.append ih)

/-- The groups of a text are determined. -/
theorem Grouped.unique {cs : List Char} {groups groups' : List Group} (h : Grouped cs groups)
    (h' : Grouped cs groups') : groups' = groups := by
  have hbrace : Field.IsBrace '\x7b' := Or.inl rfl
  induction h generalizing groups' with
  | flat hflat =>
    cases h' with
    | flat => rfl
    | group => exact (hflat '\x7b' (by simp) hbrace).elim
  | @group lead inner rest groups hlead hinner hrest ih =>
    generalize htext : lead ++ '\x7b' :: (inner ++ '\x7d' :: rest) = text at h'
    cases h' with
    | flat hflat => exact (hflat '\x7b' (by simp [← htext]) hbrace).elim
    | @group lead' inner' rest' groups' hlead' hinner' hrest' =>
      -- The leads end at the first brace, and the inner texts at the brace that matches it.
      have hrun : ∀ {l : List Char}, (∀ c ∈ l, ¬ Field.IsBrace c) →
          Run (fun c => !decide (Field.IsBrace c)) l := fun hl c hc => by simp [hl c hc]
      have hstop : ∀ more, Stops (fun c => !decide (Field.IsBrace c)) ('\x7b' :: more) :=
        fun more => stops_cons.2 (by decide)
      obtain ⟨rfl, hbehind⟩ :=
        run_append_inj (hrun hlead) (hrun hlead') (hstop _) (hstop _) htext
      obtain ⟨rfl, rfl⟩ := hinner.append_close_inj hinner' (List.cons.inj hbehind).2
      rw [ih hrest']

end StructAtlas.Body
