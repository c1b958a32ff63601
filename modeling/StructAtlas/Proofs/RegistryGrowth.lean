import StructAtlas.Proofs.ImportReading
import StructAtlas.Proofs.ScanRun

set_option autoImplicit false

/-!
# How a registry grows

Whatever is done to a registry, its entries take three kinds of steps only: an entry without places
is put behind the others, or one entry gets one more definition or one more use, behind those that
it has (`Step`). Additions, imports and scans are made of such steps (`steps_addDefinition`,
`steps_addUsage`, `steps_enter`, `steps_change`).

A step keeps a registry consistent (`IsConsistent.step`) and only appends (`Step.grows`), so both
hold along every run. Names may be of any kind here, and are told apart as the registry tells them
apart, so that the numbers of a report that was written by hand are covered as well.
-/

namespace StructAtlas

open Float.Model in
/-- Every float equals itself, except the one that equals nothing. -/
theorem Name.beq_self_or_isNaN (x : Float) : (x == x || x.isNaN) = true := by
  have hunpacked (u : UnpackedFloat) : (u.beq u || u.isNaN) = true := by
    cases u with
    | infinity sign => cases sign <;> rfl
    | notANumber => rfl
    | zero sign => rfl
    | finite sign mantissa exponent hpos =>
      have hexponent : compare exponent exponent = .eq := Std.ReflCmp.compare_self
      have hmantissa : compare mantissa mantissa = .eq := Std.ReflCmp.compare_self
      have hsame : (compare exponent exponent).then (compare mantissa mantissa) = .eq := by
        rw [hexponent, hmantissa]
        rfl
      cases sign with
      | positive => exact congrArg (fun o => some o == some .eq || false) hsame
      | negative => exact congrArg (fun o => some o.swap == some .eq || false) hsame
  exact hunpacked x.toModel.unpack

/-- Every name is the same name as itself, also the number that equals nothing. -/
theorem Name.same_self (n : Name) : n.same n = true := by
  cases n with
  | float x =>
    rw [same, toValue, Value.sameKey, Bool.and_self]
    exact beq_self_or_isNaN x
  | _ => simp [same, toValue, Value.sameKey, Value.same, Value.sameAtom, Value.whole?]

/-! ## Places and their roles -/

/-- What a place is to a struct. -/
inductive Role where
  | definition
  | usage
deriving Repr, DecidableEq

namespace Entry

/-- The places of a role. -/
def places (e : Entry) : Role → List Location
  | .definition => e.definitions
  | .usage => e.usages

/-- The entry with one more place, behind the others. -/
def append (e : Entry) (role : Role) (l : Location) : Entry :=
  match role with
  | .definition => { e with definitions := e.definitions ++ [l] }
  | .usage => { e with usages := e.usages ++ [l] }

@[simp]
theorem name_append (e : Entry) (role : Role) (l : Location) : (e.append role l).name = e.name := by
  cases role <;> rfl

theorem places_append (e : Entry) (role other : Role) (l : Location) :
    (e.append role l).places other
      = if other = role then e.places other ++ [l] else e.places other := by
  cases role <;> cases other <;> rfl

theorem addDefinition_eq (e : Entry) (l : Location) :
    e.addDefinition l
      = if l ∈ e.places .definition then (e, false) else (e.append .definition l, true) := by
  by_cases h : l ∈ e.definitions <;> simp [addDefinition, addPlace, places, append, h]

theorem addUsage_eq (e : Entry) (l : Location) :
    e.addUsage l = if l ∈ e.places .usage then (e, false) else (e.append .usage l, true) := by
  by_cases h : l ∈ e.usages <;> simp [addUsage, addPlace, places, append, h]

end Entry

namespace Registry

/-- The lists of places, entry by entry. -/
def placeLists (r : Registry) : List (List Location × List Location) :=
  r.entries.map fun e => (e.definitions, e.usages)

/-- The number of places of a role. -/
def placeCount (r : Registry) (role : Role) : Nat :=
  (r.entries.map fun e => (e.places role).length).sum

/-- One entry of a name gets one more place, behind those that it has. The other entries stay as
they are. -/
def Gains (role : Role) (name : Name) (l : Location) (r r' : Registry) : Prop :=
  ∃ before e after, e.name.same name = true ∧ l ∉ e.places role
    ∧ r.entries = before ++ e :: after ∧ r'.entries = before ++ e.append role l :: after

variable {r r' : Registry} {role : Role} {name : Name} {l : Location}

theorem Gains.names (h : Gains role name l r r') : r'.names = r.names := by
  obtain ⟨before, e, after, -, -, hr, hr'⟩ := h
  simp [Registry.names, hr, hr']

theorem Gains.placeCount (h : Gains role name l r r') (other : Role) :
    r'.placeCount other = r.placeCount other + if other = role then 1 else 0 := by
  obtain ⟨before, e, after, -, -, hr, hr'⟩ := h
  have hlength : ((e.append role l).places other).length
      = (e.places other).length + if other = role then 1 else 0 := by
    rw [Entry.places_append]
    split <;> simp
  simp only [Registry.placeCount, hr, hr', List.map_append, List.map_cons, List.sum_append,
    List.sum_cons, hlength]
  omega

theorem placeCount_eq_of_placeLists (h : r'.placeLists = r.placeLists) (role : Role) :
    r'.placeCount role = r.placeCount role := by
  have hcount : ∀ s : Registry, s.placeCount role
      = (s.placeLists.map fun p => match role with
          | .definition => p.1.length
          | .usage => p.2.length).sum := by
    intro s
    cases role <;> simp [Registry.placeCount, placeLists, Entry.places, Function.comp_def]
  rw [hcount, hcount, h]

/-! ## What an addition can do -/

/-- What an update can do: nothing, if the entry of its name has the place or if there is none, and
otherwise this entry gets the place. -/
theorem updateEntries_cases {change : Entry → Entry × Bool}
    (hchange : ∀ e, change e = if l ∈ e.places role then (e, false) else (e.append role l, true))
    (name : Name) (es : List Entry) :
    (updateEntries name change es = (es, false)
        ∧ ∀ e, es.find? (·.name.same name) = some e → l ∈ e.places role)
      ∨ (updateEntries name change es).2 = true
        ∧ Gains role name l ⟨es⟩ ⟨(updateEntries name change es).1⟩ := by
  induction es with
  | nil => exact Or.inl ⟨rfl, fun e he => by cases he⟩
  | cons first es ih =>
    rw [updateEntries]
    by_cases hsame : first.name.same name = true
    · rw [if_pos hsame, hchange]
      by_cases hl : l ∈ first.places role
      · refine Or.inl ⟨by rw [if_pos hl], fun e he => ?_⟩
        simp only [List.find?_cons, hsame] at he
        exact Option.some.inj he ▸ hl
      · rw [if_neg hl]
        exact Or.inr ⟨rfl, [], first, es, hsame, hl, rfl, rfl⟩
    · rw [if_neg hsame]
      -- The first entry has another name and stays in front of whatever happens.
      rcases ih with ⟨hupdate, hfind⟩ | ⟨hflag, before, e, after, he, hl, hes, hes'⟩
      · refine Or.inl ⟨by rw [hupdate], fun e he => hfind e ?_⟩
        simpa only [List.find?_cons, hsame] using he
      · exact Or.inr ⟨hflag, first :: before, e, after, he, hl, congrArg (first :: ·) hes,
          congrArg (first :: ·) hes'⟩

theorem addUsage_cases (r : Registry) (name : Name) (l : Location) :
    r.addUsage name l = (r, false)
      ∨ (r.addUsage name l).2 = true ∧ Gains .usage name l r (r.addUsage name l).1 := by
  rcases updateEntries_cases (fun e => e.addUsage_eq l) name r.entries with ⟨hupdate, -⟩ | h
  · left
    rw [addUsage, hupdate]
  · exact Or.inr h

/-- A definition of a name without an entry is always new. -/
theorem addDefinition_cases (r : Registry) (name : Name) (l : Location) :
    r.addDefinition name l = (r, false)
      ∨ (r.addDefinition name l).2 = true
        ∧ Gains .definition name l (r.ensure name) (r.addDefinition name l).1 := by
  rcases updateEntries_cases (fun e => e.addDefinition_eq l) name (r.ensure name).entries with
    ⟨hupdate, hfind⟩ | h
  · left
    by_cases hcontains : r.contains name = true
    · rw [ensure, if_pos hcontains] at hupdate
      rw [addDefinition, ensure, if_pos hcontains, hupdate]
    · -- The entry that was put behind the others has no places.
      have hnone : r.entries.find? (·.name.same name) = none := by
        rw [contains_eq_isSome] at hcontains
        simpa [get?] using hcontains
      have hmem := hfind ⟨name, [], []⟩ (by
        rw [ensure, if_neg hcontains, List.find?_append, hnone]
        simp [Name.same_self])
      cases hmem
  · exact Or.inr h

theorem placeCount_ensure (r : Registry) (name : Name) (role : Role) :
    (r.ensure name).placeCount role = r.placeCount role := by
  rw [ensure]
  split
  · rfl
  · cases role <;> simp [placeCount, Entry.places]

/-- The flag of an addition says which of two things it did. The registry `s` is the one that the
place is added to. -/
theorem flag_iff {added : Registry × Bool} {s : Registry}
    (hcases : added = (r, false) ∨ added.2 = true ∧ Gains role name l s added.1)
    (hs : s.placeCount role = r.placeCount role) :
    (added.2 = true ↔ Gains role name l s added.1)
      ∧ (added.2 = false ↔ added.1.placeLists = r.placeLists) := by
  rcases hcases with rfl | ⟨hflag, hgains⟩
  · refine ⟨⟨fun h => absurd h Bool.false_ne_true, fun hgains => ?_⟩, fun _ => rfl, fun _ => rfl⟩
    have hcount : r.placeCount role = _ := hgains.placeCount role
    rw [hs, if_pos rfl] at hcount
    omega
  · refine ⟨⟨fun _ => hgains, fun _ => hflag⟩, fun h => ?_, fun hlists => ?_⟩
    · rw [hflag] at h
      cases h
    · have hcount := hgains.placeCount role
      rw [placeCount_eq_of_placeLists hlists, hs, if_pos rfl] at hcount
      omega

/-! ## Steps -/

/-- The steps that the entries of a registry take. -/
inductive Step : Registry → Registry → Prop where
  | entry {r : Registry} {name : Name} (h : r.contains name = false) :
      Step r ⟨r.entries ++ [⟨name, [], []⟩]⟩
  | place {r r' : Registry} {role : Role} {name : Name} {l : Location}
      (h : Gains role name l r r') : Step r r'

/-- Some steps, one after the other. -/
abbrev Steps : Registry → Registry → Prop :=
  Relation.ReflTransGen Step

theorem steps_ensure (r : Registry) (name : Name) : Steps r (r.ensure name) := by
  rw [ensure]
  split
  · exact .refl
  · rename_i h
    exact .single (.entry (by simpa using h))

theorem steps_addDefinition (r : Registry) (name : Name) (l : Location) :
    Steps r (r.addDefinition name l).1 := by
  rcases addDefinition_cases r name l with h | ⟨-, h⟩
  · rw [h]
  · exact (steps_ensure r name).tail (.place h)

theorem steps_addUsage (r : Registry) (name : Name) (l : Location) :
    Steps r (r.addUsage name l).1 := by
  rcases addUsage_cases r name l with h | ⟨-, h⟩
  · rw [h]
  · exact .single (.place h)

theorem steps_foldl {α : Type} {f : Registry → α → Registry} (hf : ∀ r a, Steps r (f r a))
    (as : List α) (r : Registry) : Steps r (as.foldl f r) := by
  induction as generalizing r with
  | nil => exact .refl
  | cons a as ih => exact (hf r a).trans (ih (f r a))

theorem steps_enter (r : Registry) (e : Entry) : Steps r (r.enter e) := by
  have hdefined := steps_foldl (fun r l => steps_addDefinition r e.name l) e.definitions
    (r.ensure e.name)
  exact ((steps_ensure r e.name).trans hdefined).trans
    (steps_foldl (fun r l => steps_addUsage r e.name l) e.usages _)

end Registry

namespace Scan

open Registry

theorem steps_declare (rules : List Rule) (locate : Nat → Location) (cs : List Candidate)
    (r : Registry) : Steps r (declare rules locate cs r).registry := by
  induction cs generalizing r with
  | nil => exact .refl
  | cons c cs ih =>
    rw [declare]
    split
    · exact .refl
    · exact ih r
    · exact (steps_addDefinition r _ _).trans (ih _)

theorem steps_use (locate : Nat → Location) (us : List (String × Nat)) (r : Registry) :
    Steps r (use locate us r).registry := by
  rw [(use_eq locate us r).1]
  exact steps_foldl (fun r p => steps_addUsage r _ _) _ r

/-- The declarations of a text, entered at the lines of an index. -/
def extract (rules : List Rule) (path : String) (index : LineIndex) (text : List Char)
    (r : Registry) : Scanned :=
  declare rules (place path index) (candidates text) r

/-- The uses of a text, entered at the lines of an index. -/
def detect (path : String) (index : LineIndex) (text : List Char) (r : Registry) : Scanned :=
  use (place path index) (Usage.find text) r

/-- Uses touch neither names nor definitions, and every finding is one more use. -/
theorem use_grows (locate : Nat → Location) (us : List (String × Nat)) (r : Registry) :
    (use locate us r).registry.names = r.names
      ∧ (use locate us r).registry.entries.map (·.definitions) = r.entries.map (·.definitions)
      ∧ (use locate us r).registry.placeCount .usage
        = r.placeCount .usage + (use locate us r).findings.countP isUsed := by
  induction us generalizing r with
  | nil => exact ⟨rfl, rfl, rfl⟩
  | cons u us ih =>
    rw [use]
    rcases addUsage_cases r (.text u.1) (locate u.2) with h | ⟨hflag, hgains⟩
    · simp only [h]
      exact ih r
    · obtain ⟨hnames, hdefinitions, hcount⟩ := ih (r.addUsage (.text u.1) (locate u.2)).1
      have hkept := hgains.names
      have hone := hgains.placeCount .usage
      obtain ⟨before, e, after, -, -, hr, hr'⟩ := hgains
      simp only [hflag, if_true]
      refine ⟨hnames.trans hkept, ?_, ?_⟩
      · rw [hdefinitions, hr, hr']
        simp [Entry.append]
      · rw [hcount, hone, List.countP_cons_of_pos rfl, if_pos rfl]
        omega

end Scan

/-! ## What every step preserves -/

namespace Registry

/-- Registries that tell their entries apart and hold every place once. -/
structure IsConsistent (r : Registry) : Prop where
  names : r.names.Pairwise fun a b => a.same b = false
  places : ∀ e ∈ r.entries, ∀ role, (e.places role).Nodup

/-- Registries that agree up to what was put behind the names and the places. -/
structure Grows (r r' : Registry) : Prop where
  names : r.names <+: r'.names
  definitions : ∀ n, r.definitionsOf n <+: r'.definitionsOf n
  usages : ∀ n, r.usagesOf n <+: r'.usagesOf n

variable {r r' : Registry}

theorem isConsistent_empty : empty.IsConsistent :=
  ⟨List.Pairwise.nil, fun _ he => absurd he List.not_mem_nil⟩

theorem IsConsistent.step (h : r.IsConsistent) (hstep : Step r r') : r'.IsConsistent := by
  cases hstep with
  | @entry name hname =>
    constructor
    · rw [Registry.names, List.map_append]
      refine List.pairwise_append.2 ⟨h.names, List.pairwise_singleton _ _, ?_⟩
      intro a ha b hb
      obtain rfl : b = name := List.mem_singleton.1 hb
      rw [Bool.eq_false_iff] at hname ⊢
      exact fun hsame => hname (contains_iff.2 ⟨a, ha, hsame⟩)
    · intro e he role
      rcases List.mem_append.1 he with he | he
      · exact h.places e he role
      · obtain rfl := List.mem_singleton.1 he
        cases role <;> exact List.nodup_nil
  | place hgains =>
    refine ⟨hgains.names ▸ h.names, ?_⟩
    obtain ⟨before, e, after, -, hl, hr, hr'⟩ := hgains
    intro e' he' other
    have hnodup := h.places e (by simp [hr]) other
    rw [hr', List.mem_append, List.mem_cons] at he'
    rcases he' with he' | rfl | he'
    · exact h.places e' (by simp [hr, he']) other
    · rw [Entry.places_append]
      split
      · rename_i hrole
        subst hrole
        exact (List.perm_append_singleton _ _).nodup_iff.2 (List.nodup_cons.2 ⟨hl, hnodup⟩)
      · exact hnodup
    · exact h.places e' (by simp [hr, he']) other

theorem IsConsistent.steps (h : r.IsConsistent) (hsteps : Steps r r') : r'.IsConsistent := by
  induction hsteps with
  | refl => exact h
  | tail _ hstep ih => exact ih.step hstep

/-- Every entry of a consistent registry is the one that its name leads to. -/
theorem IsConsistent.get?_of_mem (h : r.IsConsistent) {e : Entry} (he : e ∈ r.entries) :
    r.get? e.name = some e := by
  obtain ⟨before, after, hr⟩ := List.append_of_mem he
  have hnames := h.names
  rw [Registry.names, hr, List.map_append] at hnames
  have hbefore : before.find? (·.name.same e.name) = none := by
    rw [List.find?_eq_none]
    intro e' he'
    have hdiff := (List.pairwise_append.1 hnames).2.2 e'.name (List.mem_map.2 ⟨e', he', rfl⟩)
      e.name (by simp)
    simp [hdiff]
  rw [get?, hr, List.find?_append, hbefore, Option.none_or]
  simp only [List.find?_cons, Name.same_self]

theorem IsConsistent.names_nodup (h : r.IsConsistent) : r.names.Nodup := by
  refine h.names.imp ?_
  rintro a b hdiff rfl
  rw [Name.same_self] at hdiff
  cases hdiff

theorem Grows.refl (r : Registry) : r.Grows r :=
  ⟨List.prefix_refl _, fun _ => List.prefix_refl _, fun _ => List.prefix_refl _⟩

theorem Grows.trans {r'' : Registry} (h : r.Grows r') (h' : r'.Grows r'') : r.Grows r'' :=
  ⟨h.names.trans h'.names, fun n => (h.definitions n).trans (h'.definitions n),
    fun n => (h.usages n).trans (h'.usages n)⟩

/-- The places that a name leads to stay in front. -/
theorem Gains.get?_places {role : Role} {name : Name} {l : Location}
    (h : Gains role name l r r') (n : Name) (other : Role) :
    (((r.get? n).map (·.places other)).getD [])
      <+: (((r'.get? n).map (·.places other)).getD []) := by
  obtain ⟨before, e, after, -, -, hr, hr'⟩ := h
  rw [get?, get?, hr, hr', List.find?_append, List.find?_append]
  cases before.find? (·.name.same n) with
  | some e' => exact List.prefix_refl _
  | none =>
    rw [Option.none_or, Option.none_or]
    -- The changed entry has its old name, so it is found where it was found before.
    by_cases hsame : e.name.same n = true
    · simp only [List.find?_cons, Entry.name_append, hsame, Option.map_some, Option.getD_some,
        Entry.places_append]
      split
      · exact List.prefix_append _ _
      · exact List.prefix_refl _
    · simp only [List.find?_cons, Entry.name_append, hsame]
      exact List.prefix_refl _

theorem Step.grows (h : Step r r') : r.Grows r' := by
  cases h with
  | @entry name hname =>
    have hensure : (⟨r.entries ++ [⟨name, [], []⟩]⟩ : Registry) = r.ensure name := by
      rw [ensure, hname]
      rfl
    rw [hensure]
    refine ⟨?_, fun n => ?_, fun n => ?_⟩
    · rw [names_ensure, hname]
      exact List.prefix_append _ _
    · rw [definitionsOf_ensure]
    · rw [usagesOf_ensure]
  | place hgains =>
    exact ⟨hgains.names ▸ List.prefix_refl _, fun n => hgains.get?_places n .definition,
      fun n => hgains.get?_places n .usage⟩

theorem Steps.grows (h : Steps r r') : r.Grows r' := by
  induction h with
  | refl => exact Grows.refl r
  | tail _ hstep ih => exact ih.trans hstep.grows

/-! ## Runs -/

/-- What can be done to a registry. -/
inductive Change where
  | definition (name : Name) (place : Location)
  | usage (name : Name) (place : Location)
  | extract (rules : List Rule) (path : String) (index : LineIndex) (text : List Char)
  | detect (path : String) (index : LineIndex) (text : List Char)

/-- The registry after a change. -/
def change (r : Registry) : Change → Registry
  | .definition name l => (r.addDefinition name l).1
  | .usage name l => (r.addUsage name l).1
  | .extract rules path index text => (Scan.extract rules path index text r).registry
  | .detect path index text => (Scan.detect path index text r).registry

/-- The registry after changes, one after the other. -/
def changed (r : Registry) (changes : List Change) : Registry :=
  changes.foldl change r

theorem steps_change (r : Registry) (c : Change) : Steps r (r.change c) := by
  cases c with
  | definition name l => exact steps_addDefinition r name l
  | usage name l => exact steps_addUsage r name l
  | extract rules path index text => exact Scan.steps_declare rules _ _ r
  | detect path index text => exact Scan.steps_use _ _ r

/-- The registries that a run begins with. -/
def IsOrigin (r : Registry) : Prop :=
  r = empty ∨ ∃ v, ofValue v = .ok r

/-- An origin is made by steps from the empty registry. -/
theorem IsOrigin.steps (h : r.IsOrigin) : Steps empty r := by
  rcases h with rfl | ⟨v, hv⟩
  · exact .refl
  · rw [ofValue_eq] at hv
    cases hes : entriesOf v with
    | error fault =>
      rw [hes] at hv
      cases hv
    | ok es =>
      rw [hes] at hv
      obtain rfl := Except.ok.inj hv
      exact steps_foldl steps_enter es empty

/-- What holds along every run that begins with the empty registry or with an imported one. The
registry is consistent: the names of its entries are pairwise different, every name leads to the
entry that has it, no list of places repeats one, and the total of an entry counts its places. Every
change only appends. An addition says whether it appended its place or changed no list. Detecting
uses touches no name and no definition, and the lists of uses get longer by as many as were found.
-/
theorem runs_are_append_only {start : Registry} (hstart : start.IsOrigin) (changes : List Change) :
    let r := start.changed changes
    r.IsConsistent
      ∧ r.names.Nodup
      ∧ (∀ n ∈ r.names, ∃ e ∈ r.entries, e.name = n ∧ r.get? n = some e)
      ∧ (∀ e ∈ r.entries, e.total = e.definitions.length + e.usages.length)
      ∧ start.Grows r
      ∧ (∀ c, r.Grows (r.change c))
      ∧ (∀ name l,
          ((r.addDefinition name l).2 = true
            ↔ (r.ensure name).Gains .definition name l (r.addDefinition name l).1)
          ∧ ((r.addDefinition name l).2 = false
            ↔ (r.addDefinition name l).1.placeLists = r.placeLists))
      ∧ (∀ name l,
          ((r.addUsage name l).2 = true ↔ r.Gains .usage name l (r.addUsage name l).1)
          ∧ ((r.addUsage name l).2 = false ↔ (r.addUsage name l).1.placeLists = r.placeLists))
      ∧ ∀ path index text,
          let scanned := Scan.detect path index text r
          scanned.registry.names = r.names
            ∧ scanned.registry.entries.map (·.definitions) = r.entries.map (·.definitions)
            ∧ scanned.registry.placeCount .usage
              = r.placeCount .usage + scanned.findings.countP Scan.isUsed := by
  intro r
  have hsteps : Steps start r := steps_foldl steps_change changes start
  have hconsistent : r.IsConsistent := isConsistent_empty.steps (hstart.steps.trans hsteps)
  refine ⟨hconsistent, hconsistent.names_nodup, ?_, fun _ _ => rfl, hsteps.grows,
    fun c => (steps_change r c).grows, ?_, ?_, ?_⟩
  · intro n hn
    obtain ⟨e, he, rfl⟩ := List.mem_map.1 hn
    exact ⟨e, he, rfl, hconsistent.get?_of_mem he⟩
  · intro name l
    exact flag_iff (addDefinition_cases r name l) (placeCount_ensure r name .definition)
  · intro name l
    exact flag_iff (addUsage_cases r name l) rfl
  · intro path index text
    exact Scan.use_grows _ _ r

/-- A report that names a struct by a number first and by a truth value then. -/
def numbered : Value :=
  .record [("definitions", .list [
    .record [("name", .int 1), ("definitionFiles", .texts ["a.h:1", "a.h:01"])],
    .record [("name", .str "P"), ("usageFiles", .texts ["b.c:2"])],
    .record [("name", .bool true), ("definitionFiles", .texts ["a.h:3"])]])]

/-- A use by hand, and the uses and the declarations of a text. -/
def handAndText : List Change :=
  let index := LineIndex.ofLines ["P x;".toList, "struct Q \x7b int a; \x7d;".toList]
  let text := "P x;\nstruct Q \x7b int a; \x7d;".toList
  [.usage (.bool true) ⟨"c.c", 7⟩, .detect "c.c" index text,
    .extract Rule.defaults "c.c" index text]

theorem numbered_report_grows :
    ∃ start, ofValue numbered = .ok start
      ∧ start.changed handAndText
        = ⟨[⟨.int 1, [⟨"a.h", 1⟩, ⟨"a.h", 3⟩], [⟨"c.c", 7⟩]⟩,
            ⟨.text "P", [], [⟨"b.c", 2⟩, ⟨"c.c", 1⟩]⟩, ⟨.text "Q", [⟨"c.c", 2⟩], []⟩]⟩
      ∧ (start.changed handAndText).IsConsistent
      ∧ start.Grows (start.changed handAndText) := by
  have himport : ofValue numbered
      = .ok ⟨[⟨.int 1, [⟨"a.h", 1⟩, ⟨"a.h", 3⟩], []⟩, ⟨.text "P", [], [⟨"b.c", 2⟩]⟩]⟩ := by
    rfl
  obtain ⟨hconsistent, -, -, -, hgrows, -⟩ :=
    runs_are_append_only (Or.inr ⟨numbered, himport⟩) handAndText
  exact ⟨_, himport, by decide +kernel, hconsistent, hgrows⟩

end Registry

end StructAtlas
