import Mathlib.Data.List.Basic
import StructAtlas.Proofs.BuiltRegistry
import StructAtlas.Proofs.Operations
import StructAtlas.Proofs.PlaceTexts
import StructAtlas.Registry.Import

set_option autoImplicit false

/-!
# What an import reads

An item of a report says something about one struct: a name and two lists of places, as they are
written (`readEntry`). An import reads what the items say and enters it into the registry, one item
after the other (`ofValue_eq`). Items of one name are merged, and of equal places the first one is
kept, so the names and the places of the registry are those of the items without repetitions
(`names_foldl_enter`, `definitionsOf_foldl_enter`, `usagesOf_foldl_enter`).

Whatever was read has a name that counts as one, and places that can be written and read back
(`readEntries_eq_ok`).
-/

namespace StructAtlas

theorem extend_nil_left {α : Type} [BEq α] [LawfulBEq α] (new : List α) :
    extend [] new = new.eraseDups := by
  rw [extend, List.nil_append, List.filter_eq_self.2 (by simp)]

theorem Name.toValue_of_ofValue? {v : Value} {n : Name} (h : ofValue? v = some n) :
    n.toValue = v := by
  cases v <;> cases h <;> rfl

namespace Registry

theorem isWritable_of_readPlace {v : Value} {l : Location} (h : readPlace v = .ok l) :
    l.IsWritable := by
  rw [readPlace] at h
  split at h
  · rename_i text _
    cases hparse : Location.parse text with
    | ok m =>
      rw [hparse] at h
      obtain rfl : m = l := Except.ok.inj h
      exact Location.isWritable_of_parse hparse
    | error fault =>
      rw [hparse] at h
      cases h
  · cases h

/-! ## What an item says -/

/-- The places of a place list. -/
def readPlaces (field : Option Value) : Except ImportFault (List Location) := do
  let items ← placeItems field
  items.mapM readPlace

/-- What an item says: its name and its places, as they are written. -/
def readEntry (index : Nat) (item : Value) : Except ImportFault Entry := do
  let name ← itemName index item
  let definitions ← readPlaces (item.field? "definitionFiles")
  let usages ← readPlaces (item.field? "usageFiles")
  return ⟨name, definitions, usages⟩

/-- What items say, one after the other. -/
def readEntries : Nat → List Value → Except ImportFault (List Entry)
  | _, [] => .ok []
  | index, item :: items => do
    let e ← readEntry index item
    let es ← readEntries (index + 1) items
    return e :: es

/-- What the items of a structured form say. -/
def entriesOf (v : Value) : Except ImportFault (List Entry) := do
  let items ← itemsOf v
  readEntries 0 items

/-- Enters what an item says. The name gets an entry even if there are no places. -/
def enter (r : Registry) (e : Entry) : Registry :=
  let defined := e.definitions.foldl (fun r l => (r.addDefinition e.name l).1) (r.ensure e.name)
  e.usages.foldl (fun r l => (r.addUsage e.name l).1) defined

/-- Places are read first and added then. -/
theorem addPlaces_eq (add : Registry → Location → Registry) (vs : List Value) (r : Registry) :
    addPlaces add vs r = (vs.mapM readPlace).map fun ls => ls.foldl add r := by
  induction vs generalizing r with
  | nil => rfl
  | cons v vs ih =>
    rw [addPlaces, List.mapM_cons]
    cases hv : readPlace v with
    | error fault => rfl
    | ok l =>
      refine (ih (add r l)).trans ?_
      cases hvs : vs.mapM readPlace <;> rfl

theorem addItem_eq (index : Nat) (item : Value) (r : Registry) :
    addItem index item r = (readEntry index item).map fun e => (e.name, r.enter e) := by
  rw [addItem, readEntry]
  cases hname : itemName index item with
  | error fault => rfl
  | ok name =>
    simp only [readPlaces, addPlaces_eq]
    cases hdefinitions : placeItems (item.field? "definitionFiles") with
    | error fault => rfl
    | ok definitions =>
      cases hread : definitions.mapM readPlace with
      | error fault => simp [bind, Except.bind, Except.map, hread]
      | ok places =>
        cases husages : placeItems (item.field? "usageFiles") with
        | error fault => simp [bind, Except.bind, Except.map, hread]
        | ok usages =>
          cases hused : usages.mapM readPlace <;>
            simp [bind, Except.bind, Except.map, hread, hused, pure, Except.pure, enter]

theorem addItems_snd (index : Nat) (items : List Value) (r : Registry) :
    (addItems index items r).2 = (readEntries index items).map fun es => es.foldl enter r := by
  induction items generalizing index r with
  | nil => rfl
  | cons item items ih =>
    rw [addItems, readEntries, addItem_eq]
    cases hitem : readEntry index item with
    | error fault => rfl
    | ok e =>
      refine (ih (index + 1) (r.enter e)).trans ?_
      cases hitems : readEntries (index + 1) items <;> rfl

/-- An import reads what the items say, and then enters it into the empty registry. -/
theorem ofValue_eq (v : Value) :
    ofValue v = (entriesOf v).map fun es => es.foldl enter empty := by
  rw [ofValue, readValue, entriesOf]
  cases hitems : itemsOf v with
  | error fault => rfl
  | ok items => exact addItems_snd 0 items empty

/-! ## What is entered -/

/-- The places that entries of a name list, one after the other. -/
def listed (places : Entry → List Location) (n : Name) (es : List Entry) : List Location :=
  (es.filter fun e => decide (e.name = n)).flatMap places

theorem listed_cons (places : Entry → List Location) (n : Name) (e : Entry) (es : List Entry) :
    listed places n (e :: es) = (if n = e.name then places e else []) ++ listed places n es := by
  by_cases hn : e.name = n
  · rw [listed, List.filter_cons_of_pos (by simpa using hn), if_pos hn.symm]
    rfl
  · rw [listed, List.filter_cons_of_neg (by simpa using hn), if_neg (Ne.symm hn)]
    rfl

theorem mem_listed {places : Entry → List Location} {n : Name} {es : List Entry} {l : Location}
    (h : l ∈ listed places n es) : ∃ e ∈ es, l ∈ places e := by
  obtain ⟨e, he, hl⟩ := List.mem_flatMap.1 h
  exact ⟨e, (List.mem_filter.1 he).1, hl⟩

section Places

variable {k : Name} (hk : k.isText = true)
include hk

theorem contains_ensure (r : Registry) : (r.ensure k).contains k = true := by
  rw [contains_eq_isSome, get?_ensure hk, if_pos rfl]
  rfl

theorem names_foldl_addDefinition (ls : List Location) {r : Registry}
    (hcontains : r.contains k = true) :
    (ls.foldl (fun r l => (r.addDefinition k l).1) r).names = r.names := by
  induction ls generalizing r with
  | nil => rfl
  | cons l ls ih =>
    have hstep : (r.addDefinition k l).1.contains k = true := by
      rw [contains_addDefinition hk, hcontains, Bool.true_or]
    rw [List.foldl_cons, ih hstep, names_addDefinition, ensure, if_pos hcontains]

theorem contains_foldl_addDefinition (ls : List Location) {r : Registry}
    (hcontains : r.contains k = true) :
    (ls.foldl (fun r l => (r.addDefinition k l).1) r).contains k = true := by
  rw [contains_iff_mem hk, names_foldl_addDefinition hk ls hcontains, ← contains_iff_mem hk]
  exact hcontains

theorem definitionsOf_foldl_addDefinition (ls : List Location) (r : Registry) (n : Name) :
    (ls.foldl (fun r l => (r.addDefinition k l).1) r).definitionsOf n
      = extend (r.definitionsOf n) (if n = k then ls else []) := by
  induction ls generalizing r with
  | nil => simp
  | cons l ls ih =>
    rw [List.foldl_cons, ih, definitionsOf_addDefinition hk]
    by_cases hn : n = k
    · simp only [hn, ↓reduceIte, extend_cons]
    · simp only [hn, ↓reduceIte]

theorem usagesOf_foldl_addDefinition (ls : List Location) (r : Registry) (n : Name) :
    (ls.foldl (fun r l => (r.addDefinition k l).1) r).usagesOf n = r.usagesOf n := by
  induction ls generalizing r with
  | nil => rfl
  | cons l ls ih => rw [List.foldl_cons, ih, usagesOf_addDefinition hk]

omit hk in
theorem names_foldl_addUsage (ls : List Location) (r : Registry) :
    (ls.foldl (fun r l => (r.addUsage k l).1) r).names = r.names := by
  induction ls generalizing r with
  | nil => rfl
  | cons l ls ih => rw [List.foldl_cons, ih, names_addUsage]

theorem definitionsOf_foldl_addUsage (ls : List Location) (r : Registry) (n : Name) :
    (ls.foldl (fun r l => (r.addUsage k l).1) r).definitionsOf n = r.definitionsOf n := by
  induction ls generalizing r with
  | nil => rfl
  | cons l ls ih => rw [List.foldl_cons, ih, definitionsOf_addUsage hk]

theorem usagesOf_foldl_addUsage (ls : List Location) {r : Registry}
    (hcontains : r.contains k = true) (n : Name) :
    (ls.foldl (fun r l => (r.addUsage k l).1) r).usagesOf n
      = extend (r.usagesOf n) (if n = k then ls else []) := by
  induction ls generalizing r with
  | nil => simp
  | cons l ls ih =>
    have hstep : (r.addUsage k l).1.contains k = true := by
      rw [contains_addUsage hk, hcontains]
    rw [List.foldl_cons, ih hstep, usagesOf_addUsage hk]
    by_cases hn : n = k
    · simp only [hn, hcontains, and_self, ↓reduceIte, extend_cons]
    · simp only [hn, false_and, ↓reduceIte]

end Places

section Enter

variable {e : Entry} (he : e.name.isText = true)
include he

theorem names_enter (r : Registry) : (r.enter e).names = extend r.names [e.name] := by
  rw [enter, names_foldl_addUsage, names_foldl_addDefinition he _ (contains_ensure he r),
    names_ensure]
  by_cases hmem : e.name ∈ r.names
  · rw [if_pos ((contains_iff_mem he).2 hmem), extend_cons_of_mem hmem, extend_nil]
  · rw [if_neg fun hc => hmem ((contains_iff_mem he).1 hc), extend_cons_of_not_mem hmem,
      extend_nil]

theorem definitionsOf_enter (r : Registry) (n : Name) :
    (r.enter e).definitionsOf n
      = extend (r.definitionsOf n) (if n = e.name then e.definitions else []) := by
  rw [enter, definitionsOf_foldl_addUsage he, definitionsOf_foldl_addDefinition he,
    definitionsOf_ensure]

theorem usagesOf_enter (r : Registry) (n : Name) :
    (r.enter e).usagesOf n = extend (r.usagesOf n) (if n = e.name then e.usages else []) := by
  have hcontains := contains_foldl_addDefinition he e.definitions (contains_ensure he r)
  rw [enter, usagesOf_foldl_addUsage he _ hcontains, usagesOf_foldl_addDefinition he,
    usagesOf_ensure]

end Enter

section EnterAll

variable {es : List Entry} (hes : ∀ e ∈ es, e.name.isText = true)
include hes

/-- Names are entered where they first occur. -/
theorem names_foldl_enter (r : Registry) :
    (es.foldl enter r).names = extend r.names (es.map (·.name)) := by
  induction es generalizing r with
  | nil => simp
  | cons e es ih =>
    have hrest := fun e' he' => hes e' (List.mem_cons_of_mem _ he')
    rw [List.foldl_cons, ih hrest, names_enter (hes e List.mem_cons_self), ← extend_append]
    rfl

/-- The definitions of a name are those of all its entries. -/
theorem definitionsOf_foldl_enter (r : Registry) (n : Name) :
    (es.foldl enter r).definitionsOf n
      = extend (r.definitionsOf n) (listed (·.definitions) n es) := by
  induction es generalizing r with
  | nil => simp [listed]
  | cons e es ih =>
    have hrest := fun e' he' => hes e' (List.mem_cons_of_mem _ he')
    rw [List.foldl_cons, ih hrest, definitionsOf_enter (hes e List.mem_cons_self),
      ← extend_append, ← listed_cons]

/-- The uses of a name are those of all its entries. -/
theorem usagesOf_foldl_enter (r : Registry) (n : Name) :
    (es.foldl enter r).usagesOf n = extend (r.usagesOf n) (listed (·.usages) n es) := by
  induction es generalizing r with
  | nil => simp [listed]
  | cons e es ih =>
    have hrest := fun e' he' => hes e' (List.mem_cons_of_mem _ he')
    rw [List.foldl_cons, ih hrest, usagesOf_enter (hes e List.mem_cons_self),
      ← extend_append, ← listed_cons]

end EnterAll

/-! ## What was read -/

theorem itemName_eq_ok {index : Nat} {item : Value} {n : Name}
    (h : itemName index item = .ok n) :
    item.field? "name" = some n.toValue ∧ n.toValue.truthy = true := by
  rw [itemName] at h
  split at h
  · rename_i v hfield
    split at h
    · cases h
    · rename_i htruthy
      split at h
      · rename_i name hname
        obtain rfl := Except.ok.inj h
        rw [Name.toValue_of_ofValue? hname]
        exact ⟨hfield, by simpa using htruthy⟩
      · cases h
  · cases h

theorem isWritable_of_readPlaces {field : Option Value} {places : List Location}
    (h : readPlaces field = .ok places) : ∀ l ∈ places, l.IsWritable := by
  obtain ⟨items, -, hitems⟩ := exists_of_bind_ok h
  clear h
  induction items generalizing places with
  | nil =>
    obtain rfl := Except.ok.inj hitems
    intro l hl
    cases hl
  | cons v items ih =>
    rw [List.mapM_cons] at hitems
    obtain ⟨first, hfirst, hitems⟩ := exists_of_bind_ok hitems
    obtain ⟨rest, hrest, hitems⟩ := exists_of_bind_ok hitems
    obtain rfl : first :: rest = places := Except.ok.inj hitems
    intro l hl
    rcases List.mem_cons.1 hl with rfl | hl
    · exact isWritable_of_readPlace hfirst
    · exact ih hrest l hl

/-- What items say that could be read: a name that one of them has, and places that can be read
back. -/
theorem readEntries_eq_ok {index : Nat} {items : List Value} {es : List Entry}
    (h : readEntries index items = .ok es) :
    ∀ e ∈ es, (∃ item ∈ items, item.field? "name" = some e.name.toValue)
      ∧ e.name.toValue.truthy = true
      ∧ (∀ l ∈ e.definitions, l.IsWritable) ∧ ∀ l ∈ e.usages, l.IsWritable := by
  induction items generalizing index es with
  | nil =>
    obtain rfl := Except.ok.inj h
    intro e he
    cases he
  | cons item items ih =>
    obtain ⟨first, hfirst, h⟩ := exists_of_bind_ok h
    obtain ⟨rest, hrest, h⟩ := exists_of_bind_ok h
    obtain rfl : first :: rest = es := Except.ok.inj h
    intro e he
    rcases List.mem_cons.1 he with rfl | he
    · obtain ⟨name, hname, hfirst⟩ := exists_of_bind_ok hfirst
      obtain ⟨definitions, hdefinitions, hfirst⟩ := exists_of_bind_ok hfirst
      obtain ⟨usages, husages, hfirst⟩ := exists_of_bind_ok hfirst
      obtain rfl := Except.ok.inj hfirst
      obtain ⟨hfield, htruthy⟩ := itemName_eq_ok hname
      exact ⟨⟨item, List.mem_cons_self, hfield⟩, htruthy, isWritable_of_readPlaces hdefinitions,
        isWritable_of_readPlaces husages⟩
    · obtain ⟨⟨item', hitem', hfield⟩, hlegible⟩ := ih hrest e he
      exact ⟨⟨item', List.mem_cons_of_mem _ hitem', hfield⟩, hlegible⟩

end Registry

end StructAtlas
