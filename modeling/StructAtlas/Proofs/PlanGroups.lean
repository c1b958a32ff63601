import Mathlib.Data.List.Nodup
import StructAtlas.Generation

set_option autoImplicit false

/-!
# Structs in groups

The pure part of a plan. The files in which some structs are first defined are listed once
(`nodup_firstFiles`), and every file brings in the structs that are first defined in it, in the
order of the registry (`filter_flatMap_definedIn`). Each struct has a place, the first one with a
body or else the first one (`IsOwner`). Grouping structs by the files of their places keeps every
struct once and keeps their order within each group (`Grouped`): one step adds a struct
(`Grouped.add`), and a run of steps makes the groups (`grouped_groups`).
-/

namespace StructAtlas

/-! ## Groups -/

namespace Generation

/-- Groups of structs that share a file, each group once. -/
structure Grouped (ps : List Planned) (gs : List (WideText × List Planned)) : Prop where
  keys : (gs.map (·.1)).Nodup
  ne_nil : ∀ g ∈ gs, g.2 ≠ []
  path : ∀ g ∈ gs, ∀ p ∈ g.2, p.2.path = g.1
  order : ∀ g ∈ gs, g.2.Sublist ps
  perm : (gs.flatMap (·.2)).Perm ps

variable {ps : List Planned} {p : Planned} {gs : List (WideText × List Planned)}

/-- A struct goes to the end of a group, which may be a new one. -/
theorem mem_addToGroup {g : WideText × List Planned} (h : g ∈ addToGroup p gs) :
    g ∈ gs ∨ g.1 = p.2.path ∧ ∃ old, g.2 = old ++ [p] ∧ (old = [] ∨ (g.1, old) ∈ gs) := by
  induction gs with
  | nil =>
    obtain rfl := List.mem_singleton.1 h
    exact Or.inr ⟨rfl, [], rfl, Or.inl rfl⟩
  | cons first gs ih =>
    rw [addToGroup] at h
    split at h
    · rename_i hpath
      rcases List.mem_cons.1 h with rfl | h
      · exact Or.inr ⟨by simpa using hpath, first.2, rfl, Or.inr List.mem_cons_self⟩
      · exact Or.inl (List.mem_cons_of_mem _ h)
    · rcases List.mem_cons.1 h with rfl | h
      · exact Or.inl List.mem_cons_self
      · rcases ih h with h | ⟨hpath, old, hold, hmem⟩
        · exact Or.inl (List.mem_cons_of_mem _ h)
        · exact Or.inr ⟨hpath, old, hold, hmem.imp_right (List.mem_cons_of_mem _)⟩

theorem keys_addToGroup (p : Planned) (gs : List (WideText × List Planned)) :
    (addToGroup p gs).map (·.1)
      = if p.2.path ∈ gs.map (·.1) then gs.map (·.1) else gs.map (·.1) ++ [p.2.path] := by
  induction gs with
  | nil => rfl
  | cons g gs ih =>
    rw [addToGroup]
    by_cases hpath : g.1 = p.2.path
    · simp [hpath]
    · have hne : ¬ p.2.path = g.1 := fun e => hpath e.symm
      simp only [beq_iff_eq, hpath, ↓reduceIte, List.map_cons, ih, List.mem_cons, hne, false_or]
      split <;> rfl

theorem perm_addToGroup (p : Planned) (gs : List (WideText × List Planned)) :
    ((addToGroup p gs).flatMap (·.2)).Perm (gs.flatMap (·.2) ++ [p]) := by
  induction gs with
  | nil => exact List.Perm.refl _
  | cons g gs ih =>
    rw [addToGroup]
    split
    · simp only [List.flatMap_cons, List.append_assoc]
      exact List.perm_append_comm.append_left g.2
    · simp only [List.flatMap_cons, List.append_assoc]
      exact ih.append_left g.2

/-- What one more struct preserves. -/
theorem Grouped.add (h : Grouped ps gs) (p : Planned) :
    Grouped (ps ++ [p]) (addToGroup p gs) where
  keys := by
    rw [keys_addToGroup]
    split
    · exact h.keys
    · rename_i hnew
      exact h.keys.append (List.nodup_singleton _) (List.disjoint_singleton.2 hnew)
  ne_nil g hg := by
    rcases mem_addToGroup hg with hg | ⟨-, old, hold, -⟩
    · exact h.ne_nil g hg
    · rw [hold]
      exact List.append_ne_nil_of_right_ne_nil _ (List.cons_ne_nil _ _)
  path g hg q hq := by
    rcases mem_addToGroup hg with hg | ⟨hpath, old, hold, hmem⟩
    · exact h.path g hg q hq
    · rw [hold] at hq
      rcases List.mem_append.1 hq with hq | hq
      · rcases hmem with rfl | hmem
        · exact absurd hq List.not_mem_nil
        · exact h.path (g.1, old) hmem q hq
      · rw [List.mem_singleton.1 hq, hpath]
  order g hg := by
    rcases mem_addToGroup hg with hg | ⟨-, old, hold, hmem⟩
    · exact (h.order g hg).trans (List.sublist_append_left ps [p])
    · rw [hold]
      refine List.Sublist.append ?_ (List.Sublist.refl [p])
      rcases hmem with rfl | hmem
      · exact List.nil_sublist ps
      · exact h.order (g.1, old) hmem
  perm := (perm_addToGroup p gs).trans (h.perm.append_right [p])

theorem Grouped.foldl (h : Grouped ps gs) (more : List Planned) :
    Grouped (ps ++ more) (more.foldl (fun gs p => addToGroup p gs) gs) := by
  induction more generalizing ps gs with
  | nil => rwa [List.append_nil]
  | cons p more ih =>
    have hstep := ih (h.add p)
    rwa [List.append_assoc] at hstep

/-- The groups of structs. -/
theorem grouped_groups (ps : List Planned) : Grouped ps (groups ps) := by
  have hempty : Grouped [] [] :=
    ⟨List.nodup_nil, by simp, by simp, by simp, List.Perm.refl _⟩
  exact hempty.foldl ps

/-! ## Files and their structs -/

theorem mem_insertNew {files : List WideText} {file f : WideText} :
    f ∈ insertNew files file ↔ f ∈ files ∨ f = file := by
  rw [insertNew]
  split
  · rename_i hmem
    have hmem : file ∈ files := by simpa using hmem
    exact ⟨Or.inl, fun h => h.elim id fun e => e ▸ hmem⟩
  · simp

theorem nodup_insertNew {files : List WideText} (h : files.Nodup) (file : WideText) :
    (insertNew files file).Nodup := by
  rw [insertNew]
  split
  · exact h
  · rename_i hnew
    have hnew : file ∉ files := by simpa using hnew
    exact h.append (List.nodup_singleton _) (List.disjoint_singleton.2 hnew)

theorem mem_foldl_insertNew {files more : List WideText} {f : WideText} :
    f ∈ more.foldl insertNew files ↔ f ∈ files ∨ f ∈ more := by
  induction more generalizing files with
  | nil => simp
  | cons file more ih => rw [List.foldl_cons, ih, mem_insertNew, List.mem_cons, or_assoc]

theorem nodup_foldl_insertNew {files : List WideText} (h : files.Nodup) (more : List WideText) :
    (more.foldl insertNew files).Nodup := by
  induction more generalizing files with
  | nil => exact h
  | cons file more ih => exact ih (nodup_insertNew h file)

theorem mem_firstFiles {es : List Entry} {f : WideText} :
    f ∈ firstFiles es ↔ ∃ e ∈ es, firstFile? e = some f := by
  rw [firstFiles, mem_foldl_insertNew, List.mem_filterMap]
  simp

theorem nodup_firstFiles (es : List Entry) : (firstFiles es).Nodup :=
  nodup_foldl_insertNew List.nodup_nil _

theorem mem_definedIn {r : Registry} {f : WideText} {e : Entry} :
    e ∈ definedIn r f ↔ e ∈ r.entries ∧ firstFile? e = some f := by
  rw [definedIn, List.mem_filter, beq_iff_eq]

theorem mem_flatMap_definedIn {r : Registry} {files : List WideText} {e : Entry} :
    e ∈ files.flatMap (definedIn r) ↔ e ∈ r.entries ∧ ∃ f ∈ files, firstFile? e = some f := by
  simp only [List.mem_flatMap, mem_definedIn]
  exact ⟨fun ⟨f, hf, he, hfirst⟩ => ⟨he, f, hf, hfirst⟩,
    fun ⟨he, f, hf, hfirst⟩ => ⟨f, hf, he, hfirst⟩⟩

/-- Different files have different structs. -/
theorem nodup_flatMap_definedIn {r : Registry} (h : r.names.Nodup) {files : List WideText}
    (hfiles : files.Nodup) : ((files.flatMap (definedIn r)).map (·.name)).Nodup := by
  rw [List.map_flatMap, List.nodup_flatMap]
  constructor
  · intro f _
    exact h.sublist (List.filter_sublist.map _)
  · refine hfiles.imp fun {f f'} hne => ?_
    intro n hn hn'
    obtain ⟨e, he, rfl⟩ := List.mem_map.1 hn
    obtain ⟨e', he', hname⟩ := List.mem_map.1 hn'
    obtain ⟨hmem, hfirst⟩ := mem_definedIn.1 he
    obtain ⟨hmem', hfirst'⟩ := mem_definedIn.1 he'
    -- Two structs of one name are one struct, which has one first file.
    obtain rfl := List.inj_on_of_nodup_map h hmem' hmem hname
    exact hne (Option.some.inj (hfirst.symm.trans hfirst'))

/-- The structs of one file stand in the order of the registry. -/
theorem filter_flatMap_definedIn (r : Registry) {files : List WideText} (hfiles : files.Nodup)
    (f : WideText) :
    ((files.flatMap (definedIn r)).filter fun e => firstFile? e == some f).Sublist r.entries := by
  induction files with
  | nil => exact List.nil_sublist _
  | cons file files ih =>
    obtain ⟨hnot, hrest⟩ := List.nodup_cons.1 hfiles
    rw [List.flatMap_cons, List.filter_append]
    by_cases hfile : file = f
    · subst hfile
      -- No other file brings in a struct of this one.
      have hnone : (files.flatMap (definedIn r)).filter (fun e => firstFile? e == some file)
          = [] := by
        refine List.filter_eq_nil_iff.2 fun e he hfirst => ?_
        obtain ⟨-, f, hf, hfirst'⟩ := mem_flatMap_definedIn.1 he
        rw [beq_iff_eq] at hfirst
        exact hnot (Option.some.inj (hfirst.symm.trans hfirst') ▸ hf)
      rw [hnone, List.append_nil]
      exact List.filter_sublist.trans List.filter_sublist
    · have hnone : (definedIn r file).filter (fun e => firstFile? e == some f) = [] := by
        refine List.filter_eq_nil_iff.2 fun e he hfirst => ?_
        rw [beq_iff_eq] at hfirst
        exact hfile (Option.some.inj ((mem_definedIn.1 he).2.symm.trans hfirst))
      rw [hnone, List.nil_append]
      exact ih hrest

/-! ## The place of a struct -/

/-- A place is the first one that has the property, or the first one if none has it. -/
def IsOwner (hasBody : Location → Prop) (places : List Location) (l : Location) : Prop :=
  (∃ before after, places = before ++ l :: after ∧ hasBody l ∧ ∀ m ∈ before, ¬ hasBody m)
    ∨ (∀ m ∈ places, ¬ hasBody m) ∧ places.head? = some l

theorem IsOwner.congr {P Q : Location → Prop} {places : List Location} {l : Location}
    (h : IsOwner P places l) (hiff : ∀ m ∈ places, P m ↔ Q m) : IsOwner Q places l := by
  rcases h with ⟨before, after, rfl, hl, hbefore⟩ | ⟨hnone, hhead⟩
  · refine Or.inl ⟨before, after, rfl, (hiff l (by simp)).1 hl, fun m hm hQ => ?_⟩
    exact hbefore m hm ((hiff m (List.mem_append_left _ hm)).2 hQ)
  · exact Or.inr ⟨fun m hm hQ => hnone m hm ((hiff m hm).2 hQ), hhead⟩

/-- The first place with a body, or else the first place. -/
def owner? (hasBody : Location → Bool) (places : List Location) : Option Location :=
  (places.find? hasBody).or places.head?

theorem isOwner_of_owner? {hasBody : Location → Bool} {places : List Location} {l : Location}
    (h : owner? hasBody places = some l) : IsOwner (hasBody · = true) places l := by
  rw [owner?, Option.or_eq_some_iff] at h
  rcases h with hfound | ⟨hnone, hhead⟩
  · obtain ⟨hl, before, after, hsplit, hbefore⟩ := List.find?_eq_some_iff_append.1 hfound
    exact Or.inl ⟨before, after, hsplit, hl, fun m hm => by simpa using hbefore m hm⟩
  · exact Or.inr ⟨fun m hm => List.find?_eq_none.1 hnone m hm, hhead⟩

theorem exists_owner? (hasBody : Location → Bool) {places : List Location} (h : places ≠ []) :
    ∃ l, owner? hasBody places = some l := by
  obtain ⟨first, rest, rfl⟩ := List.exists_cons_of_ne_nil h
  rw [owner?]
  cases (first :: rest).find? hasBody with
  | none => exact ⟨first, rfl⟩
  | some l => exact ⟨l, rfl⟩

/-- Structs with their places. -/
def located (hasBody : Location → Bool) (es : List Entry) : List Planned :=
  es.filterMap fun e => (owner? hasBody e.definitions).map (e, ·)

theorem owner?_of_mem_located {hasBody : Location → Bool} {es : List Entry} {p : Planned}
    (h : p ∈ located hasBody es) : owner? hasBody p.1.definitions = some p.2 := by
  obtain ⟨e, -, he⟩ := List.mem_filterMap.1 h
  obtain ⟨l, hl, rfl⟩ := Option.map_eq_some_iff.1 he
  exact hl

/-- Every struct with a definition has a place. -/
theorem map_located (hasBody : Location → Bool) {es : List Entry}
    (h : ∀ e ∈ es, e.definitions ≠ []) : (located hasBody es).map (·.1) = es := by
  induction es with
  | nil => rfl
  | cons e es ih =>
    obtain ⟨l, hl⟩ := exists_owner? hasBody (h e List.mem_cons_self)
    rw [located, List.filterMap_cons_some (by rw [hl]; rfl), List.map_cons, ← located,
      ih fun e' he' => h e' (List.mem_cons_of_mem _ he')]

end Generation

end StructAtlas
