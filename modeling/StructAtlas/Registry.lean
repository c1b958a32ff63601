import StructAtlas.Location
import StructAtlas.Name

set_option autoImplicit false

/-!
# The registry of structs

For every struct name the registry keeps the places where it is defined and the places where it is
used. Names stand in the order in which they were first defined and places in the order in which
they were found; a place is kept once in each list. A use never creates an entry.

The names after each operation are given by `names_addDefinition` and `names_addUsage`, and
`nodup_addPlace` says that a list of places never holds one twice.

`Registry.top` ranks the entries by their number of places, most first, and by name where the
numbers are equal. The ranking means something only if entries with equally many places have names
that can be compared, see `StructAtlas.Registry.Ranking`.
-/

namespace StructAtlas

/-- The places of one struct. -/
structure Entry where
  name : Name
  definitions : List Location
  usages : List Location
deriving Repr, DecidableEq, Inhabited

/-- Adds a place that is not in the list yet; the flag says whether it was added. -/
def addPlace (places : List Location) (l : Location) : List Location × Bool :=
  if places.contains l then (places, false) else (places ++ [l], true)

theorem mem_addPlace {places : List Location} {l m : Location} :
    m ∈ (addPlace places l).1 ↔ m ∈ places ∨ m = l := by
  by_cases h : l ∈ places
  · simp only [addPlace, List.contains_iff_mem, h, ↓reduceIte]
    exact ⟨Or.inl, fun hm => hm.elim id fun e => e ▸ h⟩
  · simp [addPlace, h]

/-- Places are kept once. -/
theorem nodup_addPlace {places : List Location} (h : places.Nodup) (l : Location) :
    (addPlace places l).1.Nodup := by
  by_cases hl : l ∈ places
  · simpa [addPlace, hl] using h
  · simp only [addPlace, List.contains_iff_mem, hl, ↓reduceIte]
    refine List.nodup_append.2 ⟨h, by simp, ?_⟩
    rintro a ha b hb rfl
    exact hl (List.mem_singleton.1 hb ▸ ha)

namespace Entry

/-- The number of places of an entry. -/
def total (e : Entry) : Nat :=
  e.definitions.length + e.usages.length

/-- Adds a definition. -/
def addDefinition (e : Entry) (l : Location) : Entry × Bool :=
  let r := addPlace e.definitions l
  ({ e with definitions := r.1 }, r.2)

/-- Adds a use. -/
def addUsage (e : Entry) (l : Location) : Entry × Bool :=
  let r := addPlace e.usages l
  ({ e with usages := r.1 }, r.2)

/-- The order of the ranking: more places first, then the smaller name. -/
def rankedBefore (a b : Entry) : Bool :=
  b.total < a.total || (a.total == b.total && !b.name.less a.name)

end Entry

/-- The entries of all structs, in the order of their first definition. -/
structure Registry where
  entries : List Entry
deriving Repr, DecidableEq, Inhabited

namespace Registry

/-- The registry without entries. -/
def empty : Registry := ⟨[]⟩

/-- The registered names. -/
def names (r : Registry) : List Name :=
  r.entries.map (·.name)

/-- The registered names that are texts. -/
def textNames (r : Registry) : List String :=
  r.names.filterMap Name.text?

/-- The entry of a name. -/
def get? (r : Registry) (name : Name) : Option Entry :=
  r.entries.find? (·.name.same name)

/-- Whether a name is registered. -/
def contains (r : Registry) (name : Name) : Bool :=
  r.entries.any (·.name.same name)

/-- Changes the first entry with a name; without such an entry nothing changes. The flag is what the
change returned. -/
def updateEntries (name : Name) (change : Entry → Entry × Bool) :
    List Entry → List Entry × Bool
  | [] => ([], false)
  | e :: es =>
    if e.name.same name then
      let r := change e
      (r.1 :: es, r.2)
    else
      let r := updateEntries name change es
      (e :: r.1, r.2)

/-- The registry with an entry for a name, which is added at the end if it is missing. -/
def ensure (r : Registry) (name : Name) : Registry :=
  if r.contains name then r else ⟨r.entries ++ [⟨name, [], []⟩]⟩

/-- Adds a definition, together with the entry if it is missing. The flag says whether the place is
new. -/
def addDefinition (r : Registry) (name : Name) (l : Location) : Registry × Bool :=
  let s := updateEntries name (·.addDefinition l) (r.ensure name).entries
  (⟨s.1⟩, s.2)

/-- Adds a use of a registered name. The flag says whether the place is new. -/
def addUsage (r : Registry) (name : Name) (l : Location) : Registry × Bool :=
  let s := updateEntries name (·.addUsage l) r.entries
  (⟨s.1⟩, s.2)

/-- All entries in the order of the ranking. -/
def ranked (r : Registry) : List Entry :=
  r.entries.mergeSort Entry.rankedBefore

/-- How many of `length` items a bound admits; a negative bound counts from the end. -/
def admitted (length : Nat) (n : Int) : Nat :=
  if 0 ≤ n then n.toNat else (length + n).toNat

/-- The first `n` entries of the ranking. -/
def top (r : Registry) (n : Int) : List Entry :=
  r.ranked.take (admitted r.entries.length n)

theorem contains_iff {r : Registry} {name : Name} :
    r.contains name = true ↔ ∃ n ∈ r.names, n.same name = true := by
  simp only [contains, names, List.any_eq_true, List.mem_map]
  constructor
  · rintro ⟨e, he, h⟩
    exact ⟨e.name, ⟨e, he, rfl⟩, h⟩
  · rintro ⟨_, ⟨e, he, rfl⟩, h⟩
    exact ⟨e, he, h⟩

theorem names_updateEntries (name : Name) (change : Entry → Entry × Bool)
    (keeps : ∀ e, (change e).1.name = e.name) (es : List Entry) :
    (updateEntries name change es).1.map (·.name) = es.map (·.name) := by
  induction es with
  | nil => rfl
  | cons e es ih => rw [updateEntries]; split <;> simp [keeps, ih]

/-- A new name goes to the end. -/
theorem names_ensure (r : Registry) (name : Name) :
    (r.ensure name).names = if r.contains name then r.names else r.names ++ [name] := by
  simp only [ensure]
  split <;> simp [names]

theorem names_addDefinition (r : Registry) (name : Name) (l : Location) :
    (r.addDefinition name l).1.names = (r.ensure name).names :=
  names_updateEntries name _ (fun _ => rfl) _

/-- A use adds no name. -/
theorem names_addUsage (r : Registry) (name : Name) (l : Location) :
    (r.addUsage name l).1.names = r.names :=
  names_updateEntries name _ (fun _ => rfl) _

end Registry

end StructAtlas
