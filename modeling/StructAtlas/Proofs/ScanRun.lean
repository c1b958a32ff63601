import StructAtlas.Proofs.Candidates
import StructAtlas.Proofs.Lookups
import StructAtlas.Proofs.Operations
import StructAtlas.Scan

set_option autoImplicit false

/-!
# What a run of scans enters into the registry

A source says where it declares names (`declaredIn`) and where it uses names (`usedIn`). The scan of
one source extends the places of every name by these, and a run of scans does so one source after
the other. The main statement says what the registry is afterwards without going through the run: a
name is entered where it is first declared, and the uses in a source count if the name was
registered at the start or is declared in this source or in an earlier one.
-/

namespace StructAtlas

/-- The places of a name in a list of names with places. -/
def placesOf (n : Name) (ps : List (String × Location)) : List Location :=
  (ps.filter fun p => decide (n = .text p.1)).map (·.2)

theorem placesOf_append (n : Name) (ps qs : List (String × Location)) :
    placesOf n (ps ++ qs) = placesOf n ps ++ placesOf n qs := by
  simp [placesOf]

theorem mem_placesOf {n : Name} {ps : List (String × Location)} {l : Location} :
    l ∈ placesOf n ps ↔ ∃ p ∈ ps, n = .text p.1 ∧ p.2 = l := by
  simp only [placesOf, List.mem_map, List.mem_filter, decide_eq_true_eq, and_assoc]

/-- A name that occurs once has one place. -/
theorem placesOf_of_nodup {ps : List (String × Location)} (hnodup : (ps.map (·.1)).Nodup)
    {p : String × Location} (hp : p ∈ ps) : placesOf (.text p.1) ps = [p.2] := by
  induction ps with
  | nil => cases hp
  | cons q ps ih =>
    obtain ⟨hnot, hnodup⟩ := List.nodup_cons.1 hnodup
    rcases List.mem_cons.1 hp with rfl | hp
    · have hnone : ps.filter (fun q => decide (Name.text p.1 = .text q.1)) = [] := by
        rw [List.filter_eq_nil_iff]
        intro q hq e
        have e : p.1 = q.1 := by simpa using e
        exact hnot (List.mem_map.2 ⟨q, hq, e.symm⟩)
      rw [placesOf, List.filter_cons_of_pos (by simp), hnone]
      rfl
    · have hne : p.1 ≠ q.1 := fun e => hnot (List.mem_map.2 ⟨p, hp, e⟩)
      have hrest := ih hnodup hp
      rw [placesOf] at hrest ⊢
      rw [List.filter_cons_of_neg (by simpa using hne)]
      exact hrest

namespace Registry

/-! ## Many additions -/

/-- The registry after definitions were added. -/
def addDefinitions (r : Registry) (ps : List (String × Location)) : Registry :=
  ps.foldl (fun r p => (r.addDefinition (.text p.1) p.2).1) r

/-- The registry after uses were added. -/
def addUsages (r : Registry) (ps : List (String × Location)) : Registry :=
  ps.foldl (fun r p => (r.addUsage (.text p.1) p.2).1) r

theorem extend_placesOf_cons (old : List Location) (n : Name) (p : String × Location)
    (ps : List (String × Location)) :
    extend old (placesOf n (p :: ps))
      = extend (if n = .text p.1 then (addPlace old p.2).1 else old) (placesOf n ps) := by
  by_cases hn : n = .text p.1
  · have hcons : placesOf n (p :: ps) = p.2 :: placesOf n ps := by
      simp [placesOf, hn]
    rw [hcons, if_pos hn, extend_cons]
  · rw [if_neg hn, placesOf, List.filter_cons_of_neg (by simpa using hn), placesOf]

theorem definitionsOf_addDefinitions (r : Registry) (ps : List (String × Location)) (n : Name) :
    (r.addDefinitions ps).definitionsOf n = extend (r.definitionsOf n) (placesOf n ps) := by
  induction ps generalizing r with
  | nil => simp [addDefinitions, placesOf]
  | cons p ps ih =>
    rw [extend_placesOf_cons, ← definitionsOf_addDefinition rfl]
    exact ih _

theorem usagesOf_addDefinitions (r : Registry) (ps : List (String × Location)) (n : Name) :
    (r.addDefinitions ps).usagesOf n = r.usagesOf n := by
  induction ps generalizing r with
  | nil => rfl
  | cons p ps ih => exact (ih _).trans (usagesOf_addDefinition rfl r p.2 n)

theorem contains_addDefinitions (r : Registry) (ps : List (String × Location)) (n : Name) :
    (r.addDefinitions ps).contains n
      = (r.contains n || ps.any fun p => decide (n = .text p.1)) := by
  induction ps generalizing r with
  | nil => simp [addDefinitions]
  | cons p ps ih =>
    refine (ih _).trans ?_
    rw [contains_addDefinition rfl, List.any_cons, Bool.or_assoc]

theorem names_addDefinitions (r : Registry) (ps : List (String × Location)) :
    (r.addDefinitions ps).names = extend r.names (ps.map fun p => .text p.1) := by
  induction ps generalizing r with
  | nil => simp [addDefinitions]
  | cons p ps ih =>
    refine (ih _).trans ?_
    rw [names_addDefinition, names_ensure, List.map_cons]
    by_cases h : Name.text p.1 ∈ r.names
    · rw [if_pos (contains_text_iff.2 h), extend_cons_of_mem h]
    · rw [if_neg fun hc => h (contains_text_iff.1 hc), extend_cons_of_not_mem h]

theorem definitionsOf_addUsages (r : Registry) (ps : List (String × Location)) (n : Name) :
    (r.addUsages ps).definitionsOf n = r.definitionsOf n := by
  induction ps generalizing r with
  | nil => rfl
  | cons p ps ih => exact (ih _).trans (definitionsOf_addUsage rfl r p.2 n)

theorem names_addUsages (r : Registry) (ps : List (String × Location)) :
    (r.addUsages ps).names = r.names := by
  induction ps generalizing r with
  | nil => rfl
  | cons p ps ih => exact (ih _).trans (names_addUsage r (.text p.1) p.2)

theorem contains_addUsages (r : Registry) (ps : List (String × Location)) (n : Name) :
    (r.addUsages ps).contains n = r.contains n := by
  induction ps generalizing r with
  | nil => rfl
  | cons p ps ih => exact (ih _).trans (contains_addUsage rfl r p.2 n)

/-- Uses of a name without entry are dropped. -/
theorem usagesOf_addUsages (r : Registry) (ps : List (String × Location)) (n : Name) :
    (r.addUsages ps).usagesOf n
      = extend (r.usagesOf n) (if r.contains n = true then placesOf n ps else []) := by
  induction ps generalizing r with
  | nil => simp [addUsages, placesOf]
  | cons p ps ih =>
    refine (ih _).trans ?_
    rw [contains_addUsage rfl, usagesOf_addUsage rfl]
    by_cases h : r.contains n = true
    -- A use adds no entry, so whether uses count stays the same along the list.
    · simp only [h, and_true, ↓reduceIte]
      exact (extend_placesOf_cons _ n p ps).symm
    · simp [h]

end Registry

namespace Scan

/-! ## One source -/

/-- The name and the place that the default rules give a candidate. -/
def declaredAt (locate : Nat → Location) (c : Candidate) : Option (String × Location) :=
  match disambiguate Rule.defaults c.content with
  | .ok (some d) => some (d.name, locate c.start)
  | _ => none

/-- The names that a source declares, with their places, in the order of the text. -/
def declaredIn (keepLines : Bool) (u : SourceUnit) : List (String × Location) :=
  (candidates (cleanText keepLines u)).filterMap
    (declaredAt (place u.path (lineIndex keepLines u)))

/-- The names that a source uses, with their places, in the order of the text. -/
def usedIn (keepLines : Bool) (u : SourceUnit) : List (String × Location) :=
  (Usage.find (cleanText keepLines u)).map fun p =>
    (p.1, place u.path (lineIndex keepLines u) p.2)

/-- Whether a source declares a name. -/
def declares (keepLines : Bool) (n : Name) (u : SourceUnit) : Bool :=
  (declaredIn keepLines u).any fun p => decide (n = .text p.1)

/-- Every candidate is entered, at its own place. -/
theorem declare_defaults (locate : Nat → Location) {cs : List Candidate}
    (h : ∀ c ∈ cs, ∃ d, disambiguate Rule.defaults c.content = .ok (some d)) (r : Registry) :
    (declare Rule.defaults locate cs r).registry
        = r.addDefinitions (cs.filterMap (declaredAt locate))
      ∧ (declare Rule.defaults locate cs r).fault = none
      ∧ (cs.filterMap (declaredAt locate)).map (·.2) = cs.map (locate ·.start) := by
  induction cs generalizing r with
  | nil => exact ⟨rfl, rfl, rfl⟩
  | cons c cs ih =>
    obtain ⟨d, hd⟩ := h c List.mem_cons_self
    obtain ⟨hregistry, hfault, hplaces⟩ :=
      ih (fun c hc => h c (List.mem_cons_of_mem _ hc)) (r.addDefinition d.name (locate c.start)).1
    have hat : declaredAt locate c = some (d.name, locate c.start) := by
      simp [declaredAt, hd]
    rw [declare, hd, List.filterMap_cons_some hat]
    exact ⟨hregistry, hfault, by rw [List.map_cons, List.map_cons, hplaces]⟩

theorem use_eq (locate : Nat → Location) (us : List (String × Nat)) (r : Registry) :
    (use locate us r).registry = r.addUsages (us.map fun p => (p.1, locate p.2))
      ∧ (use locate us r).fault = none := by
  induction us generalizing r with
  | nil => exact ⟨rfl, rfl⟩
  | cons u us ih =>
    rw [use]
    split <;> exact ih _

/-- A scan enters all declarations of a source and then its uses, and meets no fault. -/
theorem unit_defaults (keepLines : Bool) (u : SourceUnit) (r : Registry) :
    (unit Rule.defaults keepLines u r).registry
        = (r.addDefinitions (declaredIn keepLines u)).addUsages (usedIn keepLines u)
      ∧ (unit Rule.defaults keepLines u r).fault = none := by
  have hall : ∀ c ∈ candidates (cleanText keepLines u),
      ∃ d, disambiguate Rule.defaults c.content = .ok (some d) :=
    fun c hc => exists_declaration hc
  obtain ⟨hregistry, hfault, -⟩ :=
    declare_defaults (place u.path (lineIndex keepLines u)) hall r
  rw [unit]
  simp only [hfault, hregistry]
  exact use_eq _ _ _

theorem findings_declare (locate : Nat → Location) {cs : List Candidate}
    (h : ∀ c ∈ cs, ∃ d, disambiguate Rule.defaults c.content = .ok (some d)) (r : Registry) :
    ∀ f ∈ (declare Rule.defaults locate cs r).findings, isDeclared f = true := by
  induction cs generalizing r with
  | nil =>
    intro f hf
    cases hf
  | cons c cs ih =>
    obtain ⟨d, hd⟩ := h c List.mem_cons_self
    have hrest := ih (fun c hc => h c (List.mem_cons_of_mem _ hc))
      (r.addDefinition d.name (locate c.start)).1
    rw [declare, hd]
    intro f hf
    rcases List.mem_cons.1 hf with rfl | hf
    · rfl
    · exact hrest f hf

theorem findings_use (locate : Nat → Location) (us : List (String × Nat)) (r : Registry) :
    ∀ f ∈ (use locate us r).findings, isUsed f = true := by
  induction us generalizing r with
  | nil =>
    intro f hf
    cases hf
  | cons u us ih =>
    rw [use]
    split
    · intro f hf
      rcases List.mem_cons.1 hf with rfl | hf
      · rfl
      · exact ih _ f hf
    · exact ih _

/-- A scan comes across declarations and uses only. -/
theorem findings_unit (keepLines : Bool) (u : SourceUnit) (r : Registry) :
    ∀ f ∈ (unit Rule.defaults keepLines u r).findings, isDeclared f = true ∨ isUsed f = true := by
  have hall : ∀ c ∈ candidates (cleanText keepLines u),
      ∃ d, disambiguate Rule.defaults c.content = .ok (some d) :=
    fun c hc => exists_declaration hc
  obtain ⟨-, hfault, -⟩ := declare_defaults (place u.path (lineIndex keepLines u)) hall r
  rw [unit]
  simp only [hfault]
  intro f hf
  rcases List.mem_append.1 hf with hf | hf
  · exact Or.inl (findings_declare _ hall r f hf)
  · exact Or.inr (findings_use _ _ _ f hf)

/-- The log of a scan notes declarations and uses, and no problems. -/
theorem returns_logScanned {P : Session → Prop} (hP : Act.Lasting P) (keepLines : Bool)
    (u : SourceUnit) (r : Registry) :
    Act.Returns P (logScanned u (unit Rule.defaults keepLines u r)) () P := by
  have hfindings : ∀ f ∈ (unit Rule.defaults keepLines u r).findings,
      Act.Returns P (logFinding u f) () P := by
    intro f hf
    -- A malformed declaration would be reported as a problem, but there is none.
    rcases findings_unit keepLines u r f hf with hdeclared | hused
    · cases f with
      | declared d l => exact hP.log _ _ _
      | malformed content => cases hdeclared
      | used name l => cases hdeclared
    · cases f with
      | declared d l => cases hused
      | malformed content => cases hused
      | used name l => exact hP.log _ _ _
  rw [logScanned, (unit_defaults keepLines u r).2]
  exact (Act.returns_forM hfindings).bind (hP.log _ _ _)

section Step

variable (keepLines : Bool) (u : SourceUnit) (r : Registry)

theorem names_unit :
    (unit Rule.defaults keepLines u r).registry.names
      = extend r.names ((declaredIn keepLines u).map fun p => .text p.1) := by
  rw [(unit_defaults keepLines u r).1, Registry.names_addUsages, Registry.names_addDefinitions]

theorem contains_unit (n : Name) :
    (unit Rule.defaults keepLines u r).registry.contains n
      = (r.contains n || declares keepLines n u) := by
  rw [(unit_defaults keepLines u r).1, Registry.contains_addUsages,
    Registry.contains_addDefinitions]
  rfl

theorem definitionsOf_unit (n : Name) :
    (unit Rule.defaults keepLines u r).registry.definitionsOf n
      = extend (r.definitionsOf n) (placesOf n (declaredIn keepLines u)) := by
  rw [(unit_defaults keepLines u r).1, Registry.definitionsOf_addUsages,
    Registry.definitionsOf_addDefinitions]

theorem usagesOf_unit (n : Name) :
    (unit Rule.defaults keepLines u r).registry.usagesOf n
      = extend (r.usagesOf n)
        (if (r.contains n || declares keepLines n u) = true then placesOf n (usedIn keepLines u)
          else []) := by
  rw [(unit_defaults keepLines u r).1, Registry.usagesOf_addUsages,
    Registry.usagesOf_addDefinitions, Registry.contains_addDefinitions]
  rfl

end Step

/-! ## Many sources -/

/-- The registry after sources were scanned one after the other. -/
def run (keepLines : Bool) (units : List SourceUnit) (r : Registry) : Registry :=
  units.foldl (fun r u => (unit Rule.defaults keepLines u r).registry) r

/-- The uses of a name that count in a run: those in the sources from the one on that first declares
it, or all if it was registered before the run. -/
def countedUses (keepLines : Bool) (r : Registry) (n : Name) (units : List SourceUnit) :
    List Location :=
  units.zipIdx.flatMap fun x =>
    if (r.contains n || (units.take (x.2 + 1)).any (declares keepLines n)) = true then
      placesOf n (usedIn keepLines x.1)
    else []

theorem countedUses_cons (keepLines : Bool) (r : Registry) (n : Name) (u : SourceUnit)
    (units : List SourceUnit) :
    countedUses keepLines r n (u :: units)
      = (if (r.contains n || declares keepLines n u) = true then placesOf n (usedIn keepLines u)
          else [])
        ++ countedUses keepLines (unit Rule.defaults keepLines u r).registry n units := by
  rw [countedUses, List.zipIdx_cons, List.flatMap_cons, Nat.zero_add, List.zipIdx_succ,
    List.flatMap_map, countedUses]
  simp only [contains_unit, List.take_succ_cons, List.take_zero, List.any_cons, List.any_nil,
    Bool.or_false, Bool.or_assoc]
  rfl

theorem names_run (keepLines : Bool) (units : List SourceUnit) (r : Registry) :
    (run keepLines units r).names
      = extend r.names ((units.flatMap (declaredIn keepLines)).map fun p => .text p.1) := by
  induction units generalizing r with
  | nil => simp [run]
  | cons u units ih =>
    rw [List.flatMap_cons, List.map_append, extend_append, ← names_unit]
    exact ih _

theorem definitionsOf_run (keepLines : Bool) (units : List SourceUnit) (r : Registry) (n : Name) :
    (run keepLines units r).definitionsOf n
      = extend (r.definitionsOf n) (placesOf n (units.flatMap (declaredIn keepLines))) := by
  induction units generalizing r with
  | nil => simp [run, placesOf]
  | cons u units ih =>
    rw [List.flatMap_cons, placesOf_append, extend_append, ← definitionsOf_unit]
    exact ih _

theorem usagesOf_run (keepLines : Bool) (units : List SourceUnit) (r : Registry) (n : Name) :
    (run keepLines units r).usagesOf n
      = extend (r.usagesOf n) (countedUses keepLines r n units) := by
  induction units generalizing r with
  | nil => simp [run, countedUses]
  | cons u units ih =>
    rw [countedUses_cons, extend_append, ← usagesOf_unit]
    exact ih _

/-- **What a run of scans means.** Let sources be scanned one after the other into a registry. Then
the names are those of the registry at the start and behind them the declared ones, in the order of
their first declaration. The definitions of a name are those at the start and behind them the places
of its declarations. Its uses are those at the start and behind them the places of its uses in the
sources from which on it is registered or declared, the declaring source included. No place is added
twice. Every candidate of a source declares a name at its own place, and no scan fails. -/
theorem run_meaning (keepLines : Bool) (units : List SourceUnit) (r : Registry) :
    (run keepLines units r).names
        = extend r.names ((units.flatMap (declaredIn keepLines)).map fun p => .text p.1)
      ∧ (∀ n, (run keepLines units r).definitionsOf n
        = extend (r.definitionsOf n) (placesOf n (units.flatMap (declaredIn keepLines))))
      ∧ (∀ n, (run keepLines units r).usagesOf n
        = extend (r.usagesOf n) (countedUses keepLines r n units))
      ∧ (∀ u, (declaredIn keepLines u).map (·.2)
        = (candidates (cleanText keepLines u)).map
          (place u.path (lineIndex keepLines u) ·.start))
      ∧ ∀ u r', (unit Rule.defaults keepLines u r').fault = none := by
  refine ⟨names_run keepLines units r, definitionsOf_run keepLines units r,
    usagesOf_run keepLines units r, ?_, fun u r' => (unit_defaults keepLines u r').2⟩
  intro u
  have hall : ∀ c ∈ candidates (cleanText keepLines u),
      ∃ d, disambiguate Rule.defaults c.content = .ok (some d) :=
    fun c hc => exists_declaration hc
  exact (declare_defaults _ hall Registry.empty).2.2

end Scan

end StructAtlas
