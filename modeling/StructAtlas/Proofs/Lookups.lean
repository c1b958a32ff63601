import StructAtlas.Registry

set_option autoImplicit false

/-!
# Places of names

A registry is seen through its names and through the places of every name, `definitionsOf` and
`usagesOf`. Each operation is described by what it does to these three views. A run of additions
extends a list of places by those that are new, each once and in the order of their first
occurrence (`extend`, `extend_cons`).

The names that come from source texts are texts, and a text is the same name as itself only
(`same_iff_of_isText`), so the views need no assumption about the other names of a registry.
-/

namespace StructAtlas

/-! ## Extending a list without repetition -/

/-- A list followed by the new items of another one, each once and in the order in which they first
occur. -/
def extend {α : Type} [BEq α] (old new : List α) : List α :=
  old ++ (new.filter fun a => !old.contains a).eraseDups

section Extend

variable {α : Type} [BEq α] [LawfulBEq α]

@[simp]
theorem extend_nil (old : List α) : extend old [] = old := by
  simp [extend]

theorem extend_cons_of_mem {old : List α} {a : α} (h : a ∈ old) (new : List α) :
    extend old (a :: new) = extend old new := by
  rw [extend, List.filter_cons_of_neg (by simp [h]), extend]

theorem extend_cons_of_not_mem {old : List α} {a : α} (h : a ∉ old) (new : List α) :
    extend old (a :: new) = extend (old ++ [a]) new := by
  rw [extend, List.filter_cons_of_pos (by simp [h]), List.eraseDups_cons, List.filter_filter,
    extend, List.append_assoc, List.singleton_append]
  congr 4
  funext b
  -- The new item is dropped from the rest now, as a duplicate or as an item of the list.
  by_cases hb : b = a <;> simp [hb]

/-- Extending twice is extending by both lists. -/
theorem extend_append (old first second : List α) :
    extend old (first ++ second) = extend (extend old first) second := by
  induction first generalizing old with
  | nil => simp
  | cons a first ih =>
    by_cases h : a ∈ old
    · rw [List.cons_append, extend_cons_of_mem h, extend_cons_of_mem h, ih]
    · rw [List.cons_append, extend_cons_of_not_mem h, extend_cons_of_not_mem h, ih]

theorem mem_extend {old new : List α} {a : α} : a ∈ extend old new ↔ a ∈ old ∨ a ∈ new := by
  rw [extend, List.mem_append, List.mem_eraseDups, List.mem_filter]
  constructor
  · rintro (h | ⟨h, -⟩)
    · exact Or.inl h
    · exact Or.inr h
  · intro h
    by_cases ha : a ∈ old
    · exact Or.inl ha
    · exact Or.inr ⟨h.resolve_left ha, by simpa using ha⟩

/-- Different items stay different. -/
theorem nodup_extend {old : List α} (h : old.Nodup) (new : List α) : (extend old new).Nodup := by
  induction new generalizing old with
  | nil => simpa using h
  | cons a new ih =>
    by_cases ha : a ∈ old
    · rw [extend_cons_of_mem ha]
      exact ih h
    · rw [extend_cons_of_not_mem ha]
      apply ih
      refine List.nodup_append.2 ⟨h, by simp, ?_⟩
      rintro b hb c hc rfl
      exact ha (List.mem_singleton.1 hc ▸ hb)

/-- A list of new and different items is appended as it is. -/
theorem extend_of_nodup {old new : List α} (h : ∀ a ∈ new, a ∉ old) (hnodup : new.Nodup) :
    extend old new = old ++ new := by
  induction new generalizing old with
  | nil => simp
  | cons a new ih =>
    obtain ⟨hnot, hnodup⟩ := List.nodup_cons.1 hnodup
    have hrest : ∀ b ∈ new, b ∉ old ++ [a] := by
      intro b hb hm
      rcases List.mem_append.1 hm with hm | hm
      · exact h b (List.mem_cons_of_mem _ hb) hm
      · exact hnot (List.mem_singleton.1 hm ▸ hb)
    rw [extend_cons_of_not_mem (h a List.mem_cons_self), ih hrest hnodup, List.append_assoc,
      List.singleton_append]

end Extend

/-- Adding a place is the first step of extending by a list that begins with it. -/
theorem extend_cons (old : List Location) (l : Location) (new : List Location) :
    extend old (l :: new) = extend (addPlace old l).1 new := by
  by_cases h : l ∈ old
  · rw [extend_cons_of_mem h, addPlace, if_pos (by simpa using h)]
  · rw [extend_cons_of_not_mem h, addPlace, if_neg (by simpa using h)]

/-! ## Names that are texts -/

namespace Name

variable {a b : Name}

/-- A text is the same name as itself only. -/
theorem same_iff_of_isText (h : b.isText = true) : a.same b = true ↔ a = b := by
  cases b with
  | text s =>
    cases a <;> simp [same, toValue, Value.sameKey, Value.same, Value.sameAtom, Value.whole?]
  | brokenText codes =>
    cases a <;> simp [same, toValue, Value.sameKey, Value.same, Value.sameAtom, Value.whole?]
  | _ => cases h

theorem same_iff_of_isText_left (h : a.isText = true) : a.same b = true ↔ a = b := by
  cases a with
  | text s =>
    cases b <;> simp [same, toValue, Value.sameKey, Value.same, Value.sameAtom, Value.whole?]
  | brokenText codes =>
    cases b <;> simp [same, toValue, Value.sameKey, Value.same, Value.sameAtom, Value.whole?]
  | _ => cases h

end Name

namespace Registry

theorem contains_iff_mem {r : Registry} {k : Name} (hk : k.isText = true) :
    r.contains k = true ↔ k ∈ r.names := by
  simp only [contains_iff, Name.same_iff_of_isText hk, exists_eq_right]

theorem contains_text_iff {r : Registry} {s : String} :
    r.contains (.text s) = true ↔ Name.text s ∈ r.names :=
  contains_iff_mem rfl

/-! ## The places of a name -/

/-- Where a name is defined. -/
def definitionsOf (r : Registry) (n : Name) : List Location :=
  ((r.get? n).map (·.definitions)).getD []

/-- Where a name is used. -/
def usagesOf (r : Registry) (n : Name) : List Location :=
  ((r.get? n).map (·.usages)).getD []

theorem contains_eq_isSome (r : Registry) (n : Name) : r.contains n = (r.get? n).isSome := by
  rw [contains, get?, Bool.eq_iff_iff, List.any_eq_true, List.find?_isSome]

/-- An entry without places adds no place to any name. -/
theorem get?_places_ensure (places : Entry → List Location) (k n : Name) (r : Registry)
    (hnew : places ⟨k, [], []⟩ = []) :
    (((r.ensure k).get? n).map places).getD [] = ((r.get? n).map places).getD [] := by
  rw [ensure]
  split
  · rfl
  · rw [get?, List.find?_append, ← get?]
    cases r.get? n with
    | some e => rfl
    | none => by_cases hsame : k.same n = true <;> simp [hsame, hnew]

theorem definitionsOf_ensure (r : Registry) (k n : Name) :
    (r.ensure k).definitionsOf n = r.definitionsOf n :=
  get?_places_ensure _ k n r rfl

theorem usagesOf_ensure (r : Registry) (k n : Name) :
    (r.ensure k).usagesOf n = r.usagesOf n :=
  get?_places_ensure _ k n r rfl

section Update

variable {k : Name} (hk : k.isText = true)
include hk

/-- An update of one name shows at that name only. -/
theorem find?_updateEntries {change : Entry → Entry × Bool}
    (keeps : ∀ e, (change e).1.name = e.name) (n : Name) (es : List Entry) :
    (updateEntries k change es).1.find? (·.name.same n)
      = if n = k then (es.find? (·.name.same n)).map fun e => (change e).1
        else es.find? (·.name.same n) := by
  induction es with
  | nil => simp [updateEntries]
  | cons e es ih =>
    rw [updateEntries]
    by_cases he : e.name = k
    · have hsame : e.name.same k = true := (Name.same_iff_of_isText hk).2 he
      rw [if_pos hsame]
      by_cases hn : n = k
      · subst hn
        simp [keeps, hsame]
      · have hnot : e.name.same n = false := by
          rw [Bool.eq_false_iff, he]
          exact fun h => hn ((Name.same_iff_of_isText_left hk).1 h).symm
        simp [keeps, hnot, hn]
    · have hnot : ¬ e.name.same k = true := fun h => he ((Name.same_iff_of_isText hk).1 h)
      rw [if_neg hnot]
      by_cases hen : e.name.same n = true
      · have hn : n ≠ k := by
          rintro rfl
          exact hnot hen
        simp [hen, hn]
      · have hen : e.name.same n = false := by simpa using hen
        simp only [List.find?_cons, hen]
        exact ih

theorem get?_ensure (r : Registry) (n : Name) :
    (r.ensure k).get? n = if n = k then some ((r.get? n).getD ⟨k, [], []⟩) else r.get? n := by
  by_cases hs : r.contains k = true
  · rw [ensure, if_pos hs]
    by_cases hn : n = k
    · subst hn
      rw [contains_eq_isSome, Option.isSome_iff_exists] at hs
      obtain ⟨e, he⟩ := hs
      rw [if_pos rfl, he]
      rfl
    · rw [if_neg hn]
  · rw [ensure, if_neg hs]
    by_cases hn : n = k
    · subst hn
      have hnone : r.get? n = none := by
        rw [contains_eq_isSome] at hs
        simpa using hs
      have hsame : n.same n = true := (Name.same_iff_of_isText hk).2 rfl
      rw [if_pos rfl, hnone, get?, List.find?_append]
      rw [get?] at hnone
      simp [hnone, hsame]
    · have hnot : k.same n = false := by
        rw [Bool.eq_false_iff]
        exact fun h => hn ((Name.same_iff_of_isText_left hk).1 h).symm
      rw [if_neg hn, get?, List.find?_append]
      simp [get?, hnot]

/-- A definition shows at its name, which has an entry from then on. -/
theorem get?_addDefinition (r : Registry) (l : Location) (n : Name) :
    (r.addDefinition k l).1.get? n
      = if n = k then some (((r.get? n).getD ⟨k, [], []⟩).addDefinition l).1 else r.get? n := by
  have keeps : ∀ e : Entry, (e.addDefinition l).1.name = e.name := fun _ => rfl
  have hfind := find?_updateEntries hk keeps n (r.ensure k).entries
  have hensure := get?_ensure hk r n
  rw [get?] at hensure
  rw [hensure] at hfind
  refine hfind.trans ?_
  split <;> rfl

/-- A use shows at its name if that has an entry. -/
theorem get?_addUsage (r : Registry) (l : Location) (n : Name) :
    (r.addUsage k l).1.get? n
      = if n = k then (r.get? n).map fun e => (e.addUsage l).1 else r.get? n :=
  find?_updateEntries hk (fun _ => rfl) n r.entries

theorem definitionsOf_addDefinition (r : Registry) (l : Location) (n : Name) :
    (r.addDefinition k l).1.definitionsOf n
      = if n = k then (addPlace (r.definitionsOf n) l).1 else r.definitionsOf n := by
  rw [definitionsOf, get?_addDefinition hk]
  split
  · cases h : r.get? n <;> simp [definitionsOf, h, Entry.addDefinition]
  · rfl

theorem usagesOf_addDefinition (r : Registry) (l : Location) (n : Name) :
    (r.addDefinition k l).1.usagesOf n = r.usagesOf n := by
  rw [usagesOf, get?_addDefinition hk]
  split
  · cases h : r.get? n <;> simp [usagesOf, h, Entry.addDefinition]
  · rfl

theorem contains_addDefinition (r : Registry) (l : Location) (n : Name) :
    (r.addDefinition k l).1.contains n = (r.contains n || decide (n = k)) := by
  rw [contains_eq_isSome, get?_addDefinition hk, contains_eq_isSome]
  split <;> simp_all

theorem definitionsOf_addUsage (r : Registry) (l : Location) (n : Name) :
    (r.addUsage k l).1.definitionsOf n = r.definitionsOf n := by
  rw [definitionsOf, get?_addUsage hk]
  split
  · cases h : r.get? n <;> simp [definitionsOf, h, Entry.addUsage]
  · rfl

theorem usagesOf_addUsage (r : Registry) (l : Location) (n : Name) :
    (r.addUsage k l).1.usagesOf n
      = if n = k ∧ r.contains n = true then (addPlace (r.usagesOf n) l).1 else r.usagesOf n := by
  rw [usagesOf, get?_addUsage hk, contains_eq_isSome]
  by_cases hn : n = k
  · subst hn
    cases h : r.get? n <;> simp [usagesOf, h, Entry.addUsage]
  · simp [hn, usagesOf]

theorem contains_addUsage (r : Registry) (l : Location) (n : Name) :
    (r.addUsage k l).1.contains n = r.contains n := by
  rw [contains_eq_isSome, get?_addUsage hk, contains_eq_isSome]
  split <;> simp

end Update

/-! ## Places that are known -/

/-- An update that leaves the entry of its name as it is leaves all entries as they are. -/
theorem updateEntries_of_find? {k : Name} {change : Entry → Entry × Bool} {es : List Entry}
    (h : ∀ e, es.find? (·.name.same k) = some e → change e = (e, false)) :
    updateEntries k change es = (es, false) := by
  induction es with
  | nil => rfl
  | cons e es ih =>
    rw [updateEntries]
    by_cases he : e.name.same k = true
    · rw [if_pos he, h e (by simp [he])]
    · rw [if_neg he, ih fun e' he' => h e' (by simpa [he] using he')]

/-- A definition that is known changes nothing. -/
theorem addDefinition_of_mem {r : Registry} {k : Name} {l : Location} (h : l ∈ r.definitionsOf k) :
    r.addDefinition k l = (r, false) := by
  rw [definitionsOf] at h
  cases hget : r.get? k with
  | none => simp [hget] at h
  | some e =>
    have hcontains : r.contains k = true := by
      rw [contains_eq_isSome, hget]
      rfl
    have hupdate : updateEntries k (·.addDefinition l) r.entries = (r.entries, false) := by
      apply updateEntries_of_find?
      intro e' he'
      obtain rfl : e = e' := Option.some.inj (hget.symm.trans he')
      have hmem : l ∈ e.definitions := by simpa [hget] using h
      simp [Entry.addDefinition, addPlace, hmem]
    rw [addDefinition, ensure, if_pos hcontains, hupdate]

/-- A use that is known, or whose name is not, changes nothing. -/
theorem addUsage_of_mem {r : Registry} {k : Name} {l : Location}
    (h : r.contains k = true → l ∈ r.usagesOf k) : r.addUsage k l = (r, false) := by
  have hupdate : updateEntries k (·.addUsage l) r.entries = (r.entries, false) := by
    apply updateEntries_of_find?
    intro e he
    have hget : r.get? k = some e := he
    have hmem : l ∈ e.usages := by
      have := h (by rw [contains_eq_isSome, hget]; rfl)
      simpa [usagesOf, hget] using this
    simp [Entry.addUsage, addPlace, hmem]
  rw [addUsage, hupdate]

/-! ## Registries of texts -/

/-- Registries whose names are different texts. -/
structure IsTextual (r : Registry) : Prop where
  nodup : r.names.Nodup
  isText : ∀ n ∈ r.names, n.isText = true

theorem isTextual_empty : empty.IsTextual :=
  ⟨List.nodup_nil, fun _ h => absurd h List.not_mem_nil⟩

namespace IsTextual

variable {r : Registry} (h : r.IsTextual)
include h

/-- Every entry is the one that its name leads to. -/
theorem get?_of_mem {e : Entry} (he : e ∈ r.entries) : r.get? e.name = some e := by
  have hname : e.name.isText = true := h.isText e.name (List.mem_map.2 ⟨e, he, rfl⟩)
  have hnodup := h.nodup
  clear h
  rw [names] at hnodup
  rw [get?]
  generalize r.entries = es at hnodup he
  induction es with
  | nil => cases he
  | cons first es ih =>
    obtain ⟨hnot, hnodup⟩ := List.nodup_cons.1 hnodup
    rcases List.mem_cons.1 he with rfl | he
    · have hsame : e.name.same e.name = true := (Name.same_iff_of_isText hname).2 rfl
      simp [hsame]
    -- An earlier entry of the same name would be a duplicate.
    · have hdiff : first.name.same e.name = false := by
        rw [Bool.eq_false_iff]
        intro hsame
        exact hnot (List.mem_map.2 ⟨e, he, ((Name.same_iff_of_isText hname).1 hsame).symm⟩)
      simp only [List.find?_cons, hdiff]
      exact ih hnodup he

/-- The registry is given by its names and their places. -/
theorem entries_eq :
    r.entries = r.names.map fun n => ⟨n, r.definitionsOf n, r.usagesOf n⟩ := by
  have hentry : ∀ e ∈ r.entries,
      (⟨e.name, r.definitionsOf e.name, r.usagesOf e.name⟩ : Entry) = e := by
    intro e he
    rw [definitionsOf, usagesOf, h.get?_of_mem he]
    rfl
  rw [names, List.map_map]
  exact (List.map_id _).symm.trans (List.map_congr_left fun e he => (hentry e he).symm)

end IsTextual

end Registry

end StructAtlas
