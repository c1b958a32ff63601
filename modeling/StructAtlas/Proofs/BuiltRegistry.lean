import StructAtlas.Proofs.Lookups
import StructAtlas.Proofs.Numerals

set_option autoImplicit false

/-!
# Registries that were built

A registry is built from the empty one by additions, each of which adds a place to the definitions
or to the uses of a name. What one addition preserves (`IsSound.apply`) holds of every registry that
was built (`isSound_build`): its names are different texts, every list of places holds a place once,
the places are those that were added, and no entry has more places than there were additions.
-/

namespace StructAtlas

/-- One addition to a registry. -/
inductive Addition where
  | definition (name : String) (place : Location)
  | usage (name : String) (place : Location)
deriving Repr, DecidableEq

/-- Whether the path of a place is made of characters. -/
def Location.isPlain (l : Location) : Bool :=
  match l.path with
  | .plain _ => true
  | .broken .. => false

namespace Addition

/-- The name of an addition. -/
def name : Addition → String
  | .definition name _ => name
  | .usage name _ => name

/-- The place of an addition. -/
def place : Addition → Location
  | .definition _ place => place
  | .usage _ place => place

/-- Additions of a name that is not empty at a place that can be read back, with a path that is made
of characters. -/
structure IsWritable (a : Addition) : Prop where
  name : a.name ≠ ""
  place : a.place.IsWritable
  plain : a.place.isPlain = true

instance (a : Addition) : Decidable a.IsWritable :=
  decidable_of_iff (a.name ≠ "" ∧ a.place.IsWritable ∧ a.place.isPlain = true)
    ⟨fun h => ⟨h.1, h.2.1, h.2.2⟩, fun h => ⟨h.name, h.place, h.plain⟩⟩

end Addition

namespace Registry

/-- The registry after an addition. -/
def apply (r : Registry) : Addition → Registry
  | .definition name place => (r.addDefinition name place).1
  | .usage name place => (r.addUsage name place).1

/-- The registry after additions to the empty one. -/
def build (additions : List Addition) : Registry :=
  additions.foldl apply empty

end Registry

/-! ## Entries -/

/-- Places that can be read back, each once. -/
structure ArePlaces (places : List Location) : Prop where
  nodup : places.Nodup
  writable : ∀ l ∈ places, l.IsWritable

theorem arePlaces_nil : ArePlaces [] :=
  ⟨List.nodup_nil, fun _ h => absurd h List.not_mem_nil⟩

theorem ArePlaces.addPlace {places : List Location} (h : ArePlaces places) {l : Location}
    (hl : l.IsWritable) : ArePlaces (addPlace places l).1 := by
  refine ⟨nodup_addPlace h.nodup l, fun m hm => ?_⟩
  rcases mem_addPlace.1 hm with hm | rfl
  · exact h.writable m hm
  · exact hl

theorem length_addPlace_le (places : List Location) (l : Location) :
    (addPlace places l).1.length ≤ places.length + 1 := by
  rw [addPlace]
  split <;> simp

namespace Entry

/-- An entry of a name that is not empty, with at most so many places. -/
structure IsSound (bound : Nat) (e : Entry) : Prop where
  name : ∃ s, s ≠ "" ∧ e.name = .text s
  definitions : ArePlaces e.definitions
  usages : ArePlaces e.usages
  plain : ∀ l, l ∈ e.definitions ∨ l ∈ e.usages → l.isPlain = true
  total : e.total ≤ bound

variable {bound : Nat} {e : Entry} {l : Location}

theorem IsSound.of_le (h : e.IsSound bound) {larger : Nat} (hle : bound ≤ larger) :
    e.IsSound larger :=
  ⟨h.name, h.definitions, h.usages, h.plain, Nat.le_trans h.total hle⟩

theorem IsSound.addDefinition (h : e.IsSound bound) (hl : l.IsWritable)
    (hplain : l.isPlain = true) : (e.addDefinition l).1.IsSound (bound + 1) := by
  refine ⟨h.name, h.definitions.addPlace hl, h.usages, fun m hm => ?_, ?_⟩
  · rcases hm with hm | hm
    · rcases mem_addPlace.1 hm with hm | rfl
      · exact h.plain m (Or.inl hm)
      · exact hplain
    · exact h.plain m (Or.inr hm)
  have hlength := length_addPlace_le e.definitions l
  have htotal := h.total
  simp only [Entry.total, Entry.addDefinition] at htotal ⊢
  omega

theorem IsSound.addUsage (h : e.IsSound bound) (hl : l.IsWritable) (hplain : l.isPlain = true) :
    (e.addUsage l).1.IsSound (bound + 1) := by
  refine ⟨h.name, h.definitions, h.usages.addPlace hl, fun m hm => ?_, ?_⟩
  · rcases hm with hm | hm
    · exact h.plain m (Or.inl hm)
    · rcases mem_addPlace.1 hm with hm | rfl
      · exact h.plain m (Or.inr hm)
      · exact hplain
  have hlength := length_addPlace_le e.usages l
  have htotal := h.total
  simp only [Entry.total, Entry.addUsage] at htotal ⊢
  omega

end Entry

/-! ## Registries -/

namespace Registry

/-- Different entries, each with at most so many places. -/
structure IsSound (bound : Nat) (r : Registry) : Prop where
  names : r.names.Nodup
  entries : ∀ e ∈ r.entries, e.IsSound bound

variable {bound : Nat} {r : Registry}

/-- An update leaves every entry as it is or changes it. -/
theorem mem_updateEntries {name : Name} {change : Entry → Entry × Bool} {es : List Entry}
    {e : Entry} (h : e ∈ (updateEntries name change es).1) :
    e ∈ es ∨ ∃ old ∈ es, e = (change old).1 := by
  induction es with
  | nil => exact absurd h List.not_mem_nil
  | cons first es ih =>
    rw [updateEntries] at h
    split at h
    · rcases List.mem_cons.1 h with rfl | h
      · exact Or.inr ⟨first, List.mem_cons_self, rfl⟩
      · exact Or.inl (List.mem_cons_of_mem _ h)
    · rcases List.mem_cons.1 h with rfl | h
      · exact Or.inl List.mem_cons_self
      · rcases ih h with h | ⟨old, hold, rfl⟩
        · exact Or.inl (List.mem_cons_of_mem _ h)
        · exact Or.inr ⟨old, List.mem_cons_of_mem _ hold, rfl⟩

theorem isSound_empty : empty.IsSound 0 :=
  ⟨List.nodup_nil, fun _ h => absurd h List.not_mem_nil⟩

theorem IsSound.ensure (h : r.IsSound bound) {name : String} (hname : name ≠ "") :
    (r.ensure name).IsSound bound := by
  rw [Registry.ensure]
  split
  · exact h
  · rename_i hnew
    have hnot : Name.text name ∉ r.names := fun hmem => hnew (contains_text_iff.2 hmem)
    constructor
    · rw [Registry.names, List.map_append]
      refine List.nodup_append.2 ⟨h.names, by simp, ?_⟩
      rintro n hn m hm rfl
      obtain rfl : n = .text name := List.mem_singleton.1 hm
      exact hnot hn
    · intro e he
      rcases List.mem_append.1 he with he | he
      · exact h.entries e he
      · obtain rfl := List.mem_singleton.1 he
        exact ⟨⟨name, hname, rfl⟩, arePlaces_nil, arePlaces_nil,
          fun l hl => (hl.elim List.not_mem_nil List.not_mem_nil).elim, Nat.zero_le bound⟩

/-- What one addition preserves. -/
theorem IsSound.apply (h : r.IsSound bound) {a : Addition} (ha : a.IsWritable) :
    (r.apply a).IsSound (bound + 1) := by
  cases a with
  | definition name place =>
    have hensure := h.ensure ha.name
    constructor
    · exact (names_addDefinition r name place).symm ▸ hensure.names
    · intro e he
      rcases mem_updateEntries he with he | ⟨old, hold, rfl⟩
      · exact (hensure.entries e he).of_le (Nat.le_succ bound)
      · exact (hensure.entries old hold).addDefinition ha.place ha.plain
  | usage name place =>
    constructor
    · exact (names_addUsage r name place).symm ▸ h.names
    · intro e he
      rcases mem_updateEntries he with he | ⟨old, hold, rfl⟩
      · exact (h.entries e he).of_le (Nat.le_succ bound)
      · exact (h.entries old hold).addUsage ha.place ha.plain

theorem IsSound.foldl_apply (h : r.IsSound bound) {additions : List Addition}
    (hadditions : ∀ a ∈ additions, a.IsWritable) :
    (additions.foldl Registry.apply r).IsSound (bound + additions.length) := by
  induction additions generalizing r bound with
  | nil => exact h
  | cons a additions ih =>
    have hstep := h.apply (hadditions a List.mem_cons_self)
    have hrest := ih hstep fun b hb => hadditions b (List.mem_cons_of_mem _ hb)
    rwa [List.foldl_cons, List.length_cons, Nat.add_comm additions.length 1, ← Nat.add_assoc]

/-- What every registry has that was built. -/
theorem isSound_build {additions : List Addition} (h : ∀ a ∈ additions, a.IsWritable) :
    (build additions).IsSound additions.length := by
  have hrun := isSound_empty.foldl_apply h
  rwa [Nat.zero_add] at hrun

end Registry

end StructAtlas
