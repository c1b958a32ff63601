import StructAtlas.Registry.Ranking

set_option autoImplicit false

/-!
# Rankings without clashes

A ranking compares entries only with each other, so it comes to an end if any two of them can be
compared (`clash?_of_comparable`), whichever ones the search for their places happens to take. Names
that are texts always have an order, so a registry whose names are texts is ranked
(`rank_of_isText`).
-/

namespace StructAtlas.Registry

/-- Any two entries of a class can be compared. -/
def Comparable (S : Entry → Prop) : Prop :=
  ∀ a b, S a → S b → ∃ before, comesBefore a b = .ok before

/-- Entries whose names are texts can be compared. -/
theorem comparable_isText : Comparable fun e => e.name.isText = true := by
  intro a b ha hb
  rw [comesBefore]
  split
  · exact ⟨_, rfl⟩
  · split
    · exact ⟨_, rfl⟩
    · have hcomparable : a.name.areComparable b.name = true := by
        rw [Name.areComparable, ha, hb]
        rfl
      rw [if_pos hcomparable]
      exact ⟨_, rfl⟩

section Comparable

variable {S : Entry → Prop} (hS : Comparable S) {es : List Entry}
include hS

theorem exists_takeRun (falling : Bool) {last : Entry} (hlast : S last) (hes : ∀ e ∈ es, S e) :
    ∃ run rest, takeRun falling last es = .ok (run, rest) ∧ es = run ++ rest := by
  induction es generalizing last with
  | nil => exact ⟨[], [], rfl, rfl⟩
  | cons e es ih =>
    have he := hes e List.mem_cons_self
    obtain ⟨before, hbefore⟩ := hS e last he hlast
    obtain ⟨run, rest, hrun, hsplit⟩ := ih he fun e' he' => hes e' (List.mem_cons_of_mem _ he')
    -- The run goes on as long as the entries come in the same direction.
    rw [takeRun, hbefore]
    simp only [bind, Except.bind, hrun]
    split
    · exact ⟨e :: run, rest, rfl, by rw [hsplit, List.cons_append]⟩
    · exact ⟨[], e :: es, rfl, rfl⟩

theorem exists_placeOf {e : Entry} (he : S e) {ranked : Array Entry} (hranked : ∀ e ∈ ranked, S e)
    (fuel low high : Nat) : ∃ place, placeOf e ranked fuel low high = .ok place := by
  induction fuel generalizing low high with
  | zero => exact ⟨low, rfl⟩
  | succ fuel ih =>
    rw [placeOf]
    split
    · cases hother : ranked[low + (high - low) / 2]? with
      | none => exact ⟨low, by simp only [hother]; rfl⟩
      | some other =>
        obtain ⟨before, hbefore⟩ := hS e other he (hranked other (Array.mem_of_getElem? hother))
        simp only [hother, hbefore, bind, Except.bind]
        split
        · exact ih low _
        · exact ih _ high
    · exact ⟨low, rfl⟩

omit hS in
theorem mem_insertIdxIfInBounds {ranked : Array Entry} {place : Nat} {e e' : Entry}
    (h : e' ∈ ranked.insertIdxIfInBounds place e) : e' = e ∨ e' ∈ ranked := by
  rw [Array.insertIdxIfInBounds] at h
  split at h
  · exact Array.mem_insertIdx.1 h
  · exact Or.inr h

theorem exists_insertAll (hes : ∀ e ∈ es, S e) {ranked : Array Entry}
    (hranked : ∀ e ∈ ranked, S e) : ∃ all, insertAll es ranked = .ok all := by
  induction es generalizing ranked with
  | nil => exact ⟨ranked, rfl⟩
  | cons e es ih =>
    have he := hes e List.mem_cons_self
    obtain ⟨place, hplace⟩ := exists_placeOf hS he hranked ranked.size 0 ranked.size
    rw [insertAll, hplace]
    apply ih fun e' he' => hes e' (List.mem_cons_of_mem _ he')
    intro e' he'
    rcases mem_insertIdxIfInBounds he' with rfl | hmem
    · exact he
    · exact hranked e' hmem

theorem exists_compareAll (hes : ∀ e ∈ es, S e) : ∃ all, compareAll es = .ok all := by
  match es with
  | [] => exact ⟨#[], rfl⟩
  | [e] => exact ⟨#[e], rfl⟩
  | e :: e' :: es =>
    have he := hes e (by simp)
    have he' := hes e' (by simp)
    have hrest : ∀ x ∈ es, S x := fun x hx => hes x (by simp [hx])
    obtain ⟨falling, hfalling⟩ := hS e' e he' he
    obtain ⟨run, rest, hrun, rfl⟩ := exists_takeRun hS falling he' hrest
    rw [compareAll, hfalling]
    simp only [bind, Except.bind, hrun]
    apply exists_insertAll hS fun x hx => hrest x (List.mem_append_right _ hx)
    -- The run stands in the array in one order or the other.
    intro x hx
    have hmem : x ∈ e :: e' :: run := by
      cases falling with
      | true => exact List.mem_reverse.1 (List.mem_toArray.1 hx)
      | false => exact List.mem_toArray.1 hx
    apply hes
    rcases List.mem_cons.1 hmem with rfl | hmem
    · exact List.mem_cons_self
    · exact List.mem_cons_of_mem _ (List.mem_append_left rest hmem)

theorem clash?_of_comparable {r : Registry} (h : ∀ e ∈ r.entries, S e) : r.clash? = none := by
  obtain ⟨all, hall⟩ := exists_compareAll hS h
  rw [clash?, hall]

end Comparable

theorem clash?_of_isText {r : Registry} (h : ∀ e ∈ r.entries, e.name.isText = true) :
    r.clash? = none :=
  clash?_of_comparable comparable_isText h

/-- Entries whose names are texts can be ranked. -/
theorem rank_of_isText {r : Registry} (h : ∀ e ∈ r.entries, e.name.isText = true) (n : Int) :
    r.rank n = .ok (r.top n) := by
  rw [rank, clash?_of_isText h]

/-- Entries that stand in the order of the ranking stay where they are. -/
theorem top_of_pairwise {r : Registry}
    (h : r.entries.Pairwise fun a b => Entry.rankedBefore a b = true) (n : Int) :
    r.top n = r.entries.take (admitted r.entries.length n) := by
  rw [top, ranked, List.mergeSort_of_pairwise h]

theorem mem_of_mem_top {r : Registry} {n : Int} {e : Entry} (h : e ∈ r.top n) : e ∈ r.entries :=
  List.mem_mergeSort.1 (List.mem_of_mem_take h)

/-- At least one of some entries is selected. -/
theorem top_ne_nil {r : Registry} {n : Int} (hr : r.entries ≠ []) (hn : 1 ≤ n) : r.top n ≠ [] := by
  have hlength : 0 < (r.top n).length := by
    have hpos : 0 < r.entries.length := List.length_pos_iff.2 hr
    rw [top, ranked, List.length_take, List.length_mergeSort, admitted, if_pos (by omega)]
    omega
  exact List.ne_nil_of_length_pos hlength

end StructAtlas.Registry
