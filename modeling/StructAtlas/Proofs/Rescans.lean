import Mathlib.Data.List.Perm.Basic
import StructAtlas.Proofs.ScanRun

set_option autoImplicit false

/-!
# Scanning again

A registry knows a source if it has all declarations of the source and its uses of registered names.
A source that is known is scanned without effect (`Knows.unit_eq`), and a source is known once it
was scanned (`knows_unit`). One pass over many sources brings in all their names, so from then on no
name is new, and after a second pass all the sources are known (`knows_twice`).

What the registry holds after two passes can therefore be said without going through the run
(`mem_usagesOf_twice`), and the order of the sources does not occur in it. After one pass the uses
do depend on the order, since a use in front of the first declaration of its name is dropped.
-/

namespace StructAtlas

namespace Registry

/-! ## Names with places -/

/-- The names of a registry, each with one of its places. -/
def pairs (places : Entry → List Location) (r : Registry) : List (Name × Location) :=
  r.entries.flatMap fun e => (places e).map fun l => (e.name, l)

/-- The names with their definitions. -/
def definitionPairs : Registry → List (Name × Location) :=
  pairs (·.definitions)

/-- The names with their uses. -/
def usagePairs : Registry → List (Name × Location) :=
  pairs (·.usages)

theorem IsTextual.mem_pairs {r : Registry} (h : r.IsTextual) (places : Entry → List Location)
    {n : Name} {l : Location} :
    (n, l) ∈ r.pairs places ↔ l ∈ ((r.get? n).map places).getD [] := by
  simp only [pairs, List.mem_flatMap, List.mem_map, Prod.mk.injEq]
  constructor
  · rintro ⟨e, he, l, hl, rfl, rfl⟩
    rw [h.get?_of_mem he]
    exact hl
  · intro hl
    cases hget : r.get? n with
    | none => simp [hget] at hl
    | some e =>
      -- The entry that a name leads to has this very name, since all names are texts.
      have he : e ∈ r.entries := List.mem_of_find?_eq_some hget
      have hsame : e.name.same n = true :=
        List.find?_some (p := fun e : Entry => e.name.same n) hget
      have htext : e.name.isText = true := h.isText e.name (List.mem_map.2 ⟨e, he, rfl⟩)
      refine ⟨e, he, l, by simpa [hget] using hl, ?_, rfl⟩
      exact (Name.same_iff_of_isText_left htext).1 hsame

theorem IsTextual.mem_definitionPairs {r : Registry} (h : r.IsTextual) {n : Name} {l : Location} :
    (n, l) ∈ r.definitionPairs ↔ l ∈ r.definitionsOf n :=
  h.mem_pairs _

theorem IsTextual.mem_usagePairs {r : Registry} (h : r.IsTextual) {n : Name} {l : Location} :
    (n, l) ∈ r.usagePairs ↔ l ∈ r.usagesOf n :=
  h.mem_pairs _

/-! ## Additions without effect -/

theorem addDefinitions_of_mem {r : Registry} {ps : List (String × Location)}
    (h : ∀ p ∈ ps, p.2 ∈ r.definitionsOf (.text p.1)) : r.addDefinitions ps = r := by
  induction ps with
  | nil => rfl
  | cons p ps ih =>
    have hstep : (r.addDefinition (.text p.1) p.2).1 = r := by
      rw [addDefinition_of_mem (h p List.mem_cons_self)]
    rw [addDefinitions, List.foldl_cons, hstep]
    exact ih fun q hq => h q (List.mem_cons_of_mem _ hq)

theorem addUsages_of_mem {r : Registry} {ps : List (String × Location)}
    (h : ∀ p ∈ ps, r.contains (.text p.1) = true → p.2 ∈ r.usagesOf (.text p.1)) :
    r.addUsages ps = r := by
  induction ps with
  | nil => rfl
  | cons p ps ih =>
    have hstep : (r.addUsage (.text p.1) p.2).1 = r := by
      rw [addUsage_of_mem (h p List.mem_cons_self)]
    rw [addUsages, List.foldl_cons, hstep]
    exact ih fun q hq => h q (List.mem_cons_of_mem _ hq)

end Registry

namespace Scan

variable {keepLines : Bool}

/-! ## What a registry knows -/

/-- The registry has the declarations of a source, and its uses of registered names. -/
structure Knows (keepLines : Bool) (u : SourceUnit) (r : Registry) : Prop where
  definitions : ∀ p ∈ declaredIn keepLines u, p.2 ∈ r.definitionsOf (.text p.1)
  usages : ∀ p ∈ usedIn keepLines u,
    r.contains (.text p.1) = true → p.2 ∈ r.usagesOf (.text p.1)

/-- A source that is known is scanned without effect. -/
theorem Knows.unit_eq {u : SourceUnit} {r : Registry} (h : Knows keepLines u r) :
    (unit Rule.defaults keepLines u r).registry = r := by
  rw [(unit_defaults keepLines u r).1, Registry.addDefinitions_of_mem h.definitions,
    Registry.addUsages_of_mem h.usages]

/-- A source is known after its scan. -/
theorem knows_unit (keepLines : Bool) (u : SourceUnit) (r : Registry) :
    Knows keepLines u (unit Rule.defaults keepLines u r).registry := by
  constructor
  · intro p hp
    rw [definitionsOf_unit]
    exact mem_extend.2 (Or.inr (mem_placesOf.2 ⟨p, hp, rfl, rfl⟩))
  · intro p hp hcontains
    rw [contains_unit] at hcontains
    rw [usagesOf_unit, if_pos hcontains]
    exact mem_extend.2 (Or.inr (mem_placesOf.2 ⟨p, hp, rfl, rfl⟩))

/-- Sources that are known are scanned without effect, in whatever order. -/
theorem run_eq_self {units : List SourceUnit} {r : Registry}
    (h : ∀ u ∈ units, Knows keepLines u r) : run keepLines units r = r := by
  induction units with
  | nil => rfl
  | cons u units ih =>
    rw [run, List.foldl_cons, (h u List.mem_cons_self).unit_eq]
    exact ih fun v hv => h v (List.mem_cons_of_mem _ hv)

/-! ## What a registry holds after passes -/

section Passes

variable {units : List SourceUnit} {r : Registry} {n : Name} {l : Location}

theorem contains_run (keepLines : Bool) (units : List SourceUnit) (r : Registry) (n : Name) :
    (run keepLines units r).contains n = (r.contains n || units.any (declares keepLines n)) := by
  induction units generalizing r with
  | nil => simp [run]
  | cons u units ih =>
    rw [run, List.foldl_cons, List.any_cons, ← Bool.or_assoc, ← contains_unit]
    exact ih _

theorem mem_definitionsOf_run :
    l ∈ (run keepLines units r).definitionsOf n
      ↔ l ∈ r.definitionsOf n ∨ ∃ u ∈ units, l ∈ placesOf n (declaredIn keepLines u) := by
  rw [definitionsOf_run, mem_extend]
  apply or_congr Iff.rfl
  simp only [mem_placesOf, List.mem_flatMap]
  constructor
  · rintro ⟨p, ⟨u, hu, hp⟩, hn⟩
    exact ⟨u, hu, p, hp, hn⟩
  · rintro ⟨u, hu, p, hp, hn⟩
    exact ⟨p, ⟨u, hu, hp⟩, hn⟩

/-- The uses that count are uses in the sources, of a name that is registered in the end. -/
theorem mem_of_mem_countedUses (h : l ∈ countedUses keepLines r n units) :
    (r.contains n || units.any (declares keepLines n)) = true
      ∧ ∃ u ∈ units, l ∈ placesOf n (usedIn keepLines u) := by
  obtain ⟨⟨u, i⟩, hx, hl⟩ := List.mem_flatMap.1 h
  split at hl
  · rename_i hknown
    refine ⟨?_, u, (List.mem_zipIdx' hx).2 ▸ List.getElem_mem _, hl⟩
    rw [Bool.or_eq_true] at hknown ⊢
    rcases hknown with hold | hnew
    · exact Or.inl hold
    · obtain ⟨v, hv, hdeclares⟩ := List.any_eq_true.1 hnew
      exact Or.inr (List.any_eq_true.2 ⟨v, List.mem_of_mem_take hv, hdeclares⟩)
  · cases hl

/-- All uses of a name count that was registered before the run. -/
theorem countedUses_of_contains (h : r.contains n = true) :
    countedUses keepLines r n units = units.flatMap fun u => placesOf n (usedIn keepLines u) := by
  have hfst : units.zipIdx.map Prod.fst = units := List.zipIdx_map_fst 0 units
  simp only [countedUses, h, Bool.true_or, ↓reduceIte]
  nth_rewrite 2 [← hfst]
  rw [List.flatMap_map]

/-- The uses of a name after two passes: those at the start and, if the name is registered at the
start or declared in some source, those in all sources. -/
theorem mem_usagesOf_twice :
    l ∈ (run keepLines units (run keepLines units r)).usagesOf n
      ↔ l ∈ r.usagesOf n
        ∨ (r.contains n || units.any (declares keepLines n)) = true
          ∧ ∃ u ∈ units, l ∈ placesOf n (usedIn keepLines u) := by
  rw [usagesOf_run, mem_extend, usagesOf_run, mem_extend]
  constructor
  · rintro ((hold | hfirst) | hsecond)
    · exact Or.inl hold
    · exact Or.inr (mem_of_mem_countedUses hfirst)
    -- The second pass declares nothing that the first one did not.
    · obtain ⟨hknown, huses⟩ := mem_of_mem_countedUses hsecond
      rw [contains_run, Bool.or_assoc, Bool.or_self] at hknown
      exact Or.inr ⟨hknown, huses⟩
  · rintro (hold | ⟨hknown, huses⟩)
    · exact Or.inl (Or.inl hold)
    · rw [← contains_run] at hknown
      rw [countedUses_of_contains hknown]
      exact Or.inr (List.mem_flatMap.2 huses)

/-- After two passes all sources are known. -/
theorem knows_twice {u : SourceUnit} (hu : u ∈ units) :
    Knows keepLines u (run keepLines units (run keepLines units r)) := by
  constructor
  · intro p hp
    exact mem_definitionsOf_run.2 (Or.inr ⟨u, hu, mem_placesOf.2 ⟨p, hp, rfl, rfl⟩⟩)
  · intro p hp hcontains
    rw [contains_run, contains_run, Bool.or_assoc, Bool.or_self] at hcontains
    exact mem_usagesOf_twice.2
      (Or.inr ⟨hcontains, u, hu, mem_placesOf.2 ⟨p, hp, rfl, rfl⟩⟩)

/-- A run leaves a registry of texts as one. -/
theorem isTextual_run (h : r.IsTextual) (keepLines : Bool) (units : List SourceUnit) :
    (run keepLines units r).IsTextual := by
  constructor
  · rw [names_run]
    exact nodup_extend h.nodup _
  · intro n hn
    rw [names_run] at hn
    rcases mem_extend.1 hn with hold | hnew
    · exact h.isText n hold
    · obtain ⟨p, -, rfl⟩ := List.mem_map.1 hnew
      rfl

end Passes

/-! ## The order of the sources -/

section Order

variable {units units' : List SourceUnit} (h : units.Perm units')
include h

/-- The names after one pass are the same up to their order. -/
theorem names_run_perm (keepLines : Bool) :
    (run keepLines units .empty).names.Perm (run keepLines units' .empty).names := by
  refine (List.perm_ext_iff_of_nodup ?_ ?_).2 fun n => ?_
  · exact (isTextual_run Registry.isTextual_empty keepLines units).nodup
  · exact (isTextual_run Registry.isTextual_empty keepLines units').nodup
  · simp only [names_run, mem_extend, List.mem_map, List.mem_flatMap, h.mem_iff]

/-- A pass finds the same definitions in every order. -/
theorem mem_definitionPairs_run_perm {r r' : Registry} (hr : r.IsTextual) (hr' : r'.IsTextual)
    (hsame : ∀ n l, l ∈ r.definitionsOf n ↔ l ∈ r'.definitionsOf n) (p : Name × Location) :
    p ∈ (run keepLines units r).definitionPairs
      ↔ p ∈ (run keepLines units' r').definitionPairs := by
  rw [(isTextual_run hr keepLines units).mem_definitionPairs,
    (isTextual_run hr' keepLines units').mem_definitionPairs]
  simp only [mem_definitionsOf_run, h.mem_iff, hsame]

/-- Two passes find the same uses in every order. -/
theorem mem_usagePairs_twice_perm (p : Name × Location) :
    p ∈ (run keepLines units (run keepLines units .empty)).usagePairs
      ↔ p ∈ (run keepLines units' (run keepLines units' .empty)).usagePairs := by
  have htextual := isTextual_run Registry.isTextual_empty keepLines
  rw [(isTextual_run (htextual units) keepLines units).mem_usagePairs,
    (isTextual_run (htextual units') keepLines units').mem_usagePairs]
  simp only [mem_usagesOf_twice, Bool.or_eq_true, List.any_eq_true, h.mem_iff]

end Order

/-! ## One pass -/

/-- A source that declares a struct. -/
def declaringUnit : SourceUnit :=
  ⟨"a.h", "struct A \x7b int x; \x7d;".toList⟩

/-- A source that uses the struct. -/
def usingUnit : SourceUnit :=
  ⟨"b.c", "struct A a;".toList⟩

/-- The place of the use. -/
def usedPlace (keepLines : Bool) : Location :=
  place usingUnit.path (lineIndex keepLines usingUnit) 0

theorem declares_declaringUnit (keepLines : Bool) :
    declares keepLines (.text "A") declaringUnit = true := by
  cases keepLines <;> decide +kernel

theorem declares_usingUnit (keepLines : Bool) :
    declares keepLines (.text "A") usingUnit = false := by
  cases keepLines <;> decide +kernel

theorem placesOf_usingUnit (keepLines : Bool) :
    placesOf (.text "A") (usedIn keepLines usingUnit) = [usedPlace keepLines] := by
  have hfind : Usage.find (cleanText keepLines usingUnit) = [("A", 0)] := by
    cases keepLines <;> decide +kernel
  rw [usedIn, hfind]
  rfl

theorem placesOf_declaringUnit (keepLines : Bool) :
    placesOf (.text "A") (usedIn keepLines declaringUnit) = [] := by
  have hfind : Usage.find (cleanText keepLines declaringUnit) = [("int", 11)] := by
    cases keepLines <;> decide +kernel
  rw [usedIn, hfind]
  rfl

/-- The uses of the struct after one pass over the two sources in either order. -/
theorem usagesOf_one_pass (keepLines : Bool) :
    (run keepLines [declaringUnit, usingUnit] .empty).usagesOf (.text "A") = [usedPlace keepLines]
      ∧ (run keepLines [usingUnit, declaringUnit] .empty).usagesOf (.text "A") = [] := by
  have hempty : Registry.empty.contains (.text "A") = false := rfl
  have hnone : ∀ r, countedUses keepLines r (.text "A") [] = [] := fun _ => rfl
  constructor
  · rw [usagesOf_run, countedUses_cons, countedUses_cons]
    simp only [contains_unit, hempty, declares_declaringUnit, placesOf_declaringUnit,
      placesOf_usingUnit, hnone]
    rfl
  · rw [usagesOf_run, countedUses_cons, countedUses_cons]
    simp only [contains_unit, hempty, declares_usingUnit, declares_declaringUnit,
      placesOf_declaringUnit, hnone]
    rfl

/-- **Scanning again converges.** A source that is scanned twice in a row leaves the registry as it
was after the first time, and a third pass over sources changes nothing. The definitions and the
uses after two passes from the empty registry do not depend on the order of the sources. The names
and the definitions do not depend on it after one pass either, but the uses do. -/
theorem rescans_converge (keepLines : Bool) :
    (∀ u r, (unit Rule.defaults keepLines u (unit Rule.defaults keepLines u r).registry).registry
        = (unit Rule.defaults keepLines u r).registry)
      ∧ (∀ units r, run keepLines units (run keepLines units (run keepLines units r))
        = run keepLines units (run keepLines units r))
      ∧ (∀ units units' : List SourceUnit, units.Perm units' → ∀ p,
          (p ∈ (run keepLines units (run keepLines units .empty)).definitionPairs
            ↔ p ∈ (run keepLines units' (run keepLines units' .empty)).definitionPairs)
          ∧ (p ∈ (run keepLines units (run keepLines units .empty)).usagePairs
            ↔ p ∈ (run keepLines units' (run keepLines units' .empty)).usagePairs))
      ∧ (∀ units units' : List SourceUnit, units.Perm units' →
          (run keepLines units .empty).names.Perm (run keepLines units' .empty).names
          ∧ ∀ p, p ∈ (run keepLines units .empty).definitionPairs
            ↔ p ∈ (run keepLines units' .empty).definitionPairs)
      ∧ ∃ units units' : List SourceUnit, units.Perm units'
          ∧ ∃ p, p ∈ (run keepLines units .empty).usagePairs
            ∧ p ∉ (run keepLines units' .empty).usagePairs := by
  have hempty := Registry.isTextual_empty
  have hsame : ∀ n l, l ∈ Registry.empty.definitionsOf n ↔ l ∈ Registry.empty.definitionsOf n :=
    fun _ _ => Iff.rfl
  refine ⟨fun u r => (knows_unit keepLines u r).unit_eq,
    fun units r => run_eq_self fun u hu => knows_twice hu, ?_, ?_, ?_⟩
  · intro units units' h p
    refine ⟨?_, mem_usagePairs_twice_perm h p⟩
    apply mem_definitionPairs_run_perm h (isTextual_run hempty keepLines units)
      (isTextual_run hempty keepLines units')
    intro n l
    simp only [mem_definitionsOf_run, h.mem_iff]
  · intro units units' h
    exact ⟨names_run_perm h keepLines, mem_definitionPairs_run_perm h hempty hempty hsame⟩
  · refine ⟨[declaringUnit, usingUnit], [usingUnit, declaringUnit], List.Perm.swap _ _ _,
      (.text "A", usedPlace keepLines), ?_, ?_⟩
    · rw [(isTextual_run hempty _ _).mem_usagePairs, (usagesOf_one_pass keepLines).1]
      exact List.mem_singleton_self _
    · rw [(isTextual_run hempty _ _).mem_usagePairs, (usagesOf_one_pass keepLines).2]
      exact List.not_mem_nil

/-- The use in front of the declaration is found by the second pass. -/
theorem rescan_finds_early_use :
    [usingUnit, declaringUnit].Perm [declaringUnit, usingUnit]
      ∧ (.text "A", usedPlace true)
        ∈ (run true [usingUnit, declaringUnit]
          (run true [usingUnit, declaringUnit] .empty)).usagePairs := by
  have hperm : [usingUnit, declaringUnit].Perm [declaringUnit, usingUnit] := List.Perm.swap _ _ _
  have htextual := isTextual_run Registry.isTextual_empty true [declaringUnit, usingUnit]
  refine ⟨hperm, ((rescans_converge true).2.2.1 _ _ hperm _).2.2 ?_⟩
  -- In the other order the first pass finds the use already.
  rw [(isTextual_run htextual _ _).mem_usagePairs, usagesOf_run, mem_extend,
    (usagesOf_one_pass true).1]
  exact Or.inl (List.mem_singleton_self _)

end Scan

end StructAtlas
