set_option autoImplicit false

/-!
# Character classes as code point ranges

A class of characters outside ASCII is a sorted list of closed code point ranges. `inRanges` is the
membership test that every table of this folder uses.
-/

namespace StructAtlas.Text

/-- Membership of a character in a list of closed code point ranges. -/
def inRanges (table : List (Nat × Nat)) (c : Char) : Bool :=
  table.any fun r => r.1 ≤ c.toNat && c.toNat ≤ r.2

theorem inRanges_iff {table : List (Nat × Nat)} {c : Char} :
    inRanges table c = true ↔ ∃ r ∈ table, r.1 ≤ c.toNat ∧ c.toNat ≤ r.2 := by
  simp [inRanges]

end StructAtlas.Text
