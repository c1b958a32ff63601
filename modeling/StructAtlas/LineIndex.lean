set_option autoImplicit false

/-!
# From offsets to line numbers

A line index holds, for every line of a text, the offset just behind the line and its line feed.
Looking up an offset counts the lines that end at or before it, by bisection of the list of ends,
which increases (`pairwise_endsFrom`).
-/

namespace StructAtlas

/-- The offsets behind the line feeds of a text, in increasing order. -/
structure LineIndex where
  ends : Array Nat
deriving Repr

namespace LineIndex

/-- The ends of lines that begin at offset `start`. -/
def endsFrom (start : Nat) : List (List Char) → List Nat
  | [] => []
  | l :: ls => (start + l.length + 1) :: endsFrom (start + l.length + 1) ls

/-- The index of a list of lines. -/
def ofLines (ls : List (List Char)) : LineIndex :=
  ⟨(endsFrom 0 ls).toArray⟩

/-- Bisects the ends between `lo` and `hi` for the first end behind the offset. -/
def bisect (ends : Array Nat) (offset : Int) (lo hi : Nat) : Nat :=
  if lo < hi then
    let mid := (lo + hi) / 2
    if offset < (ends.getD mid 0 : Nat) then bisect ends offset lo mid
    else bisect ends offset (mid + 1) hi
  else lo
termination_by hi - lo

/-- The number of the line that holds an offset. An offset behind the text belongs to the line after
the last one. -/
def lineAt (index : LineIndex) (offset : Int) : Nat :=
  bisect index.ends offset 0 index.ends.size + 1

/-- Every line ends behind the offset at which the first one begins. -/
theorem lt_of_mem_endsFrom {start e : Nat} {ls : List (List Char)} (h : e ∈ endsFrom start ls) :
    start < e := by
  induction ls generalizing start with
  | nil => simp [endsFrom] at h
  | cons l ls ih =>
    rcases List.mem_cons.1 h with rfl | h
    · omega
    · have := ih h
      omega

/-- The ends of the lines increase. -/
theorem pairwise_endsFrom (start : Nat) (ls : List (List Char)) :
    (endsFrom start ls).Pairwise (· < ·) := by
  induction ls generalizing start with
  | nil => exact List.Pairwise.nil
  | cons l ls ih => exact List.Pairwise.cons (fun _ => lt_of_mem_endsFrom) (ih _)

end LineIndex

end StructAtlas
