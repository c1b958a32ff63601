import Mathlib.Data.List.Flatten
import Mathlib.Data.List.Nodup
import Mathlib.Data.List.Pairwise
import Mathlib.Logic.ExistsUnique
import StructAtlas.Proofs.GenerationLedger
import StructAtlas.Proofs.Planning

set_option autoImplicit false

/-!
# What becomes of every planned struct

A planned struct is emitted as a class, left out with a problem that says why, or it has a class
whose Java file could not be written. The names of a plan are different, so the results of a
generation tell these fates apart: the names of the classes and those of the structs left out are
parts of the names of the plan (`Ledger.mem_skipped`, `Ledger.mem_classNames`), and the problems
noted about a struct are those of its visit (`Ledger.filter_notes`).
-/

namespace StructAtlas

open Act Generation

/-! ## Plans name every struct once -/

namespace Generator

variable {g : Generator} {s t : Session}

theorem locateAll_sublist {es : List Entry} {ps : List Planned}
    (h : g.locateAll es s = .ok ps t) : (ps.map (·.1)).Sublist es := by
  induction es generalizing s ps with
  | nil =>
    cases h
    exact List.Sublist.refl []
  | cons e es ih =>
    obtain ⟨_, u, -, hnext⟩ := bind_eq_ok.1 h
    obtain ⟨place, v, -, hnext⟩ := bind_eq_ok.1 hnext
    cases place with
    | none => exact (ih hnext).cons e
    | some l =>
      obtain ⟨rest, w, hrest, hpure⟩ := bind_eq_ok.1 hnext
      cases hpure
      exact (ih hrest).cons_cons e

/-- Whatever the sources are, no name is planned twice. -/
theorem nodup_of_plan (hnames : g.registry.names.Nodup) {gs : List (WideText × List Planned)}
    (h : g.plan s = .ok gs t) : ((gs.flatMap (·.2)).map (·.1.name)).Nodup := by
  obtain ⟨es, u, -, hnext⟩ := bind_eq_ok.1 h
  obtain ⟨files, v, hfiles, hnext⟩ := bind_eq_ok.1 hnext
  obtain ⟨ps, w, hps, hpure⟩ := bind_eq_ok.1 hnext
  cases hpure
  obtain ⟨_, x, -, hpure⟩ := bind_eq_ok.1 hfiles
  cases hpure
  have hplanned := (locateAll_sublist hps).map Entry.name
  rw [List.map_map] at hplanned
  have hnodup := nodup_flatMap_definedIn hnames (nodup_firstFiles es)
  exact ((grouped_groups ps).perm.map _).nodup_iff.2 (hnodup.sublist hplanned)

end Generator

/-! ## Classes depend on the set of known names -/

namespace JavaType

variable {known known' : List String}

theorem ofName_congr (h : ∀ n, n ∈ known ↔ n ∈ known') (type : String) :
    ofName known type = ofName known' type := by
  have hcontains : known.contains (normalizeType type) = known'.contains (normalizeType type) := by
    rw [Bool.eq_iff_iff, List.contains_iff_mem, List.contains_iff_mem]
    exact h _
  rw [ofName, ofName, hcontains]

theorem ofField_congr (h : ∀ n, n ∈ known ↔ n ∈ known') (f : Field) :
    ofField known f = ofField known' f := by
  have hbase : base known f.type = base known' f.type := by
    rw [base, base, ofName_congr h]
  rw [ofField, ofField, ofName_congr h, hbase]

end JavaType

theorem JavaClass.ofFields_congr {known known' : List String} (h : ∀ n, n ∈ known ↔ n ∈ known')
    (name : Name) (fields : List Field) :
    ofFields name fields known = ofFields name fields known' := by
  simp only [ofFields, JavaType.ofField_congr h]

/-! ## Visits of different structs -/

namespace Visit

variable {g : Generator} {v : Visit}

theorem class?_eq_some {c : JavaClass} (h : v.class? g = some c) :
    ∃ body, v.found g = .ok body
      ∧ c = .ofFields v.name (Field.ofBody body.text) g.registry.textNames := by
  rw [class?] at h
  cases hfound : v.found g with
  | ok body =>
    simp only [hfound] at h
    exact ⟨body, rfl, (Option.some.inj h).symm⟩
  | error failure =>
    simp only [hfound] at h
    cases h

theorem class?_eq_none (h : v.class? g = none) : ∃ failure, v.found g = .error failure := by
  rw [class?] at h
  cases hfound : v.found g with
  | ok body =>
    simp only [hfound] at h
    cases h
  | error failure => exact ⟨failure, rfl⟩

theorem name_of_class? {c : JavaClass} (h : v.class? g = some c) : c.name = v.name := by
  obtain ⟨body, -, rfl⟩ := class?_eq_some h
  rfl

end Visit

/-- Two items that give the same value are one item, if no value is given twice. -/
theorem eq_of_nodup_filterMap {α β : Type} {f : α → Option β} {l : List α}
    (h : (l.filterMap f).Nodup) {x y : α} (hx : x ∈ l) (hy : y ∈ l) {b : β}
    (hfx : f x = some b) (hfy : f y = some b) : x = y := by
  induction l with
  | nil => cases hx
  | cons a l ih =>
    cases ha : f a with
    | none =>
      rw [List.filterMap_cons_none ha] at h
      have hne {z : α} (hz : f z = some b) : z ≠ a := by
        rintro rfl
        cases ha.symm.trans hz
      exact ih h ((List.mem_cons.1 hx).resolve_left (hne hfx))
        ((List.mem_cons.1 hy).resolve_left (hne hfy))
    | some c =>
      rw [List.filterMap_cons_some ha, List.nodup_cons] at h
      -- The value of the first item is not given again.
      have hlater {z : α} (hz : z ∈ l) (hfz : f z = some b) : c ≠ b := by
        rintro rfl
        exact h.1 (List.mem_filterMap.2 ⟨z, hz, hfz⟩)
      have hfirst {z : α} (hfz : f z = some b) (hz : z = a) : c = b := by
        subst hz
        exact Option.some.inj (ha.symm.trans hfz)
      rcases List.mem_cons.1 hx with hxa | hx
      · rcases List.mem_cons.1 hy with hya | hy
        · exact hxa.trans hya.symm
        · exact absurd (hfirst hfx hxa) (hlater hy hfy)
      · rcases List.mem_cons.1 hy with hya | hy
        · exact absurd (hfirst hfy hya) (hlater hx hfx)
        · exact ih h.2 hx hy

namespace GroupRun

variable {g : Generator} {run : GroupRun}

theorem map_name_classes (run : GroupRun) :
    (run.classes g).map (·.name)
      = (run.visits.filter fun v => (v.class? g).isSome).map (·.name) := by
  rw [classes]
  induction run.visits with
  | nil => rfl
  | cons v visits ih =>
    cases hv : v.class? g with
    | none => rw [List.filterMap_cons_none hv, ih, List.filter_cons_of_neg (by simp [hv])]
    | some c =>
      rw [List.filterMap_cons_some hv, List.map_cons, ih, List.filter_cons_of_pos (by simp [hv]),
        List.map_cons, Visit.name_of_class? hv]

theorem listed?_eq_some {entry : String × List Name} (h : run.listed? g = some entry) :
    (∃ text, run.output = .written entry.1 text) ∧ entry.2 = (run.classes g).map (·.name) := by
  rw [listed?] at h
  split at h
  · rename_i name text hwritten
    cases h
    exact ⟨⟨text, hwritten⟩, rfl⟩
  · cases h

theorem file?_of_listed? {entry : String × List Name} (h : run.listed? g = some entry) :
    run.file? = some entry.1 := by
  obtain ⟨⟨text, hwritten⟩, -⟩ := listed?_eq_some h
  rw [file?, hwritten]
  rfl

/-- In a group with different names, the class of a visit is the only one of its name. -/
theorem filter_classes (hnodup : (run.visits.map (·.name)).Nodup) {v : Visit}
    (hv : v ∈ run.visits) {c : JavaClass} (hc : v.class? g = some c) :
    (run.classes g).filter (fun d => d.name = v.name) = [c] := by
  rw [classes]
  generalize run.visits = visits at hnodup hv
  induction visits with
  | nil => cases hv
  | cons w visits ih =>
    rw [List.map_cons, List.nodup_cons] at hnodup
    rcases List.mem_cons.1 hv with rfl | hv
    · have hrest : (visits.filterMap (·.class? g)).filter (fun d => d.name = v.name) = [] := by
        rw [List.filter_eq_nil_iff]
        intro d hd hname
        obtain ⟨w, hw, hwd⟩ := List.mem_filterMap.1 hd
        refine hnodup.1 (List.mem_map.2 ⟨w, hw, ?_⟩)
        exact (Visit.name_of_class? hwd).symm.trans (by simpa using hname)
      rw [List.filterMap_cons_some hc, List.filter_cons_of_pos
        (by simpa using Visit.name_of_class? hc), hrest]
    · have hrest := ih hnodup.2 hv
      have hne : w.name ≠ v.name := fun e => hnodup.1 (List.mem_map.2 ⟨v, hv, e.symm⟩)
      cases hw : w.class? g with
      | none => rwa [List.filterMap_cons_none hw]
      | some d =>
        rw [List.filterMap_cons_some hw, List.filter_cons_of_neg]
        · exact hrest
        · rw [Visit.name_of_class? hw]
          simpa using hne

end GroupRun

namespace Ledger

variable {g : Generator} {ledger : Ledger} {run run' : GroupRun} {v v' : Visit}

/-- The names of all planned structs. -/
def names (ledger : Ledger) : List Name :=
  ledger.visits.map (·.name)

theorem mem_visits (hrun : run ∈ ledger.runs) (hv : v ∈ run.visits) : v ∈ ledger.visits :=
  List.mem_flatMap.2 ⟨run, hrun, hv⟩

theorem nodup_names (hnodup : ledger.names.Nodup) (hrun : run ∈ ledger.runs) :
    (run.visits.map (·.name)).Nodup := by
  rw [names, visits, List.map_flatMap, List.nodup_flatMap] at hnodup
  exact hnodup.1 run hrun

/-- Visits with the same name are one visit, in one group. -/
theorem eq_of_name (hnodup : ledger.names.Nodup) (hrun : run ∈ ledger.runs)
    (hrun' : run' ∈ ledger.runs) (hv : v ∈ run.visits) (hv' : v' ∈ run'.visits)
    (hname : v.name = v'.name) : run = run' ∧ v = v' := by
  constructor
  · by_contra hne
    rw [names, visits, List.map_flatMap, List.nodup_flatMap] at hnodup
    have hsymm : Std.Symm (Function.onFun List.Disjoint fun r : GroupRun =>
        r.visits.map (·.name)) := ⟨fun _ _ h _ hx hy => h hy hx⟩
    have hdisjoint := hnodup.2.forall hrun hrun' hne
    exact hdisjoint (List.mem_map_of_mem hv) (hname ▸ List.mem_map_of_mem hv')
  · exact List.inj_on_of_nodup_map hnodup (mem_visits hrun hv) (mem_visits hrun' hv') hname

/-! ## Structs that were left out -/

theorem skipped_sublist (g : Generator) (ledger : Ledger) :
    (ledger.result g).skipped.Sublist ledger.names := by
  rw [names, visits, List.map_flatMap]
  exact List.Sublist.flatMap_right _ fun run _ => List.filter_sublist.map _

theorem mem_skipped (hnodup : ledger.names.Nodup) (hrun : run ∈ ledger.runs)
    (hv : v ∈ run.visits) : v.name ∈ (ledger.result g).skipped ↔ v.class? g = none := by
  constructor
  · intro hmem
    obtain ⟨run', hrun', hmem⟩ := List.mem_flatMap.1 hmem
    obtain ⟨v', hv', hname⟩ := List.mem_map.1 hmem
    obtain ⟨hv', hnone⟩ := List.mem_filter.1 hv'
    obtain ⟨-, rfl⟩ := eq_of_name hnodup hrun' hrun hv' hv hname
    exact Option.isNone_iff_eq_none.1 hnone
  · intro hnone
    refine List.mem_flatMap.2 ⟨run, hrun, List.mem_map.2 ⟨v, List.mem_filter.2 ⟨hv, ?_⟩, rfl⟩⟩
    exact Option.isNone_iff_eq_none.2 hnone

/-! ## Structs with a class -/

/-- The names of all classes that were written. -/
def classNames (result : Generated) : List Name :=
  result.classes.flatMap (·.2)

theorem classNames_sublist (g : Generator) (ledger : Ledger) :
    (classNames (ledger.result g)).Sublist ledger.names := by
  rw [names, visits, List.map_flatMap, classNames, result]
  induction ledger.runs with
  | nil => exact List.Sublist.refl []
  | cons run runs ih =>
    rw [List.flatMap_cons]
    cases hentry : run.listed? g with
    | none =>
      rw [List.filterMap_cons_none hentry]
      exact ih.trans (List.sublist_append_right _ _)
    | some entry =>
      rw [List.filterMap_cons_some hentry, List.flatMap_cons, (GroupRun.listed?_eq_some hentry).2,
        GroupRun.map_name_classes]
      exact (List.filter_sublist.map _).append ih

/-- A struct stands in the files of classes of its own group only. -/
theorem listed?_of_mem (hnodup : ledger.names.Nodup) (hrun : run ∈ ledger.runs)
    (hv : v ∈ run.visits) {entry : String × List Name} (hentry : entry ∈ (ledger.result g).classes)
    (hname : v.name ∈ entry.2) : run.listed? g = some entry ∧ (v.class? g).isSome := by
  obtain ⟨run', hrun', hentry⟩ := List.mem_filterMap.1 hentry
  rw [(GroupRun.listed?_eq_some hentry).2, GroupRun.map_name_classes] at hname
  obtain ⟨v', hv', hname⟩ := List.mem_map.1 hname
  obtain ⟨hv', hsome⟩ := List.mem_filter.1 hv'
  obtain ⟨rfl, rfl⟩ := eq_of_name hnodup hrun' hrun hv' hv hname
  exact ⟨hentry, hsome⟩

theorem mem_classNames (hnodup : ledger.names.Nodup) (hrun : run ∈ ledger.runs)
    (hv : v ∈ run.visits) :
    v.name ∈ classNames (ledger.result g) ↔ (run.listed? g).isSome ∧ (v.class? g).isSome := by
  constructor
  · intro hmem
    obtain ⟨entry, hentry, hname⟩ := List.mem_flatMap.1 hmem
    obtain ⟨hrunEntry, hclass⟩ := listed?_of_mem hnodup hrun hv hentry hname
    rw [hrunEntry]
    exact ⟨rfl, hclass⟩
  · rintro ⟨hentry, hclass⟩
    obtain ⟨entry, hentry⟩ := Option.isSome_iff_exists.1 hentry
    refine List.mem_flatMap.2 ⟨entry, List.mem_filterMap.2 ⟨run, hrun, hentry⟩, ?_⟩
    rw [(GroupRun.listed?_eq_some hentry).2, GroupRun.map_name_classes]
    exact List.mem_map.2 ⟨v, List.mem_filter.2 ⟨hv, hclass⟩, rfl⟩

theorem nodup_files (hfiles : (ledger.runs.filterMap GroupRun.file?).Nodup) :
    ((ledger.result g).classes.map (·.1)).Nodup := by
  refine hfiles.sublist ?_
  rw [result]
  induction ledger.runs with
  | nil => exact List.Sublist.refl []
  | cons run runs ih =>
    cases hentry : run.listed? g with
    | some entry =>
      rw [List.filterMap_cons_some hentry, List.map_cons,
        List.filterMap_cons_some (GroupRun.file?_of_listed? hentry)]
      exact ih.cons_cons _
    | none =>
      rw [List.filterMap_cons_none hentry]
      refine ih.trans ?_
      exact (List.sublist_cons_self run runs).filterMap _

/-! ## Problems of a struct -/

/-- The problems of visits, with the structs that they are about. -/
def visitNotes (g : Generator) (visits : List Visit) : List (Subject × Problem) :=
  visits.flatMap fun v => (v.problems g).map (Subject.struct v.name, ·)

theorem filter_visitNotes {visits : List Visit} (hnodup : (visits.map (·.name)).Nodup)
    (hv : v ∈ visits) :
    (visitNotes g visits).filter (fun n => n.1 = .struct v.name)
      = (v.problems g).map (Subject.struct v.name, ·) := by
  have hown (w : Visit) : ((w.problems g).map (Subject.struct w.name, ·)).filter
      (fun n => n.1 = .struct v.name)
        = if w.name = v.name then (w.problems g).map (Subject.struct w.name, ·) else [] := by
    split
    · rename_i hname
      rw [List.filter_eq_self]
      intro n hn
      obtain ⟨problem, -, rfl⟩ := List.mem_map.1 hn
      simpa using hname
    · rename_i hname
      rw [List.filter_eq_nil_iff]
      intro n hn
      obtain ⟨problem, -, rfl⟩ := List.mem_map.1 hn
      simpa using hname
  rw [visitNotes, List.filter_flatMap]
  simp only [hown]
  induction visits with
  | nil => cases hv
  | cons w visits ih =>
    rw [List.map_cons, List.nodup_cons] at hnodup
    rw [List.flatMap_cons]
    rcases List.mem_cons.1 hv with rfl | hv
    · -- No other visit has this name.
      have hrest : (visits.flatMap fun w => if w.name = v.name then
          (w.problems g).map (Subject.struct w.name, ·) else []) = [] := by
        rw [List.flatMap_eq_nil_iff]
        intro w hw
        rw [if_neg fun e => hnodup.1 (List.mem_map.2 ⟨w, hw, e⟩)]
      rw [if_pos rfl, hrest, List.append_nil]
    · rw [if_neg fun e => hnodup.1 (List.mem_map.2 ⟨v, hv, e.symm⟩), List.nil_append]
      exact ih hnodup.2 hv

theorem filter_output (o : Output) (n : Name) :
    o.notes.filter (fun note => note.1 = .struct n) = [] := by
  cases o <;> simp [Output.notes]

/-- Of all problems, those about a struct are the ones of its visit. -/
theorem filter_notes (hnodup : ledger.names.Nodup) (hrun : run ∈ ledger.runs)
    (hv : v ∈ run.visits) :
    (ledger.notes g).filter (fun n => n.1 = .struct v.name)
      = (v.problems g).map (Subject.struct v.name, ·) := by
  have hrun' (r : GroupRun) : (r.notes g).filter (fun n => n.1 = .struct v.name)
      = (visitNotes g r.visits).filter (fun n => n.1 = .struct v.name) := by
    rw [GroupRun.notes, List.filter_append, filter_output, List.append_nil]
    rfl
  rw [← filter_visitNotes hnodup (mem_visits hrun hv), notes, List.filter_append, filter_output,
    List.append_nil, List.filter_flatMap]
  simp only [hrun']
  rw [← List.filter_flatMap, visits, visitNotes, List.flatMap_assoc]
  rfl

end Ledger

/-! ## Fates -/

/-- As which kind of problem a failed search for a body is noted. -/
inductive Failure.NotedAs : Failure → ProblemKind → Prop where
  | unmatched (l : Location) (depth : Int) (line : Option Nat) :
    NotedAs (.body l (.unmatched depth line)) .unmatchedBraces
  | bodyless (l : Location) {fault : Body.Fault} (h : ∀ depth line, fault ≠ .unmatched depth line) :
    NotedAs (.body l fault) .missingBody
  | undecoded (primary fallback : String) (fault : Charset.DecodeFault) :
    NotedAs (.sourceDecode primary fallback fault) .decode
  | unread (fault : FileFault) : NotedAs (.sourceRead fault) .io

theorem notedAs_of_skipNote? {e : Entry} {l : Location} {failure : Failure}
    {note : String × ProblemKind} (h : skipNote? e l failure = some note) :
    failure.NotedAs note.2 := by
  unfold skipNote? at h
  split at h
  · cases h
    exact .unmatched ..
  · rename_i l' fault hfault
    cases h
    refine .bodyless l' ?_
    rintro depth line rfl
    exact hfault depth line rfl
  · cases h
    exact .undecoded ..
  · cases h
    exact .unread _
  · cases h

/-- What can become of a planned struct. -/
inductive Fate where
  | emitted
  | skipped
  | unwritten
deriving DecidableEq

namespace Fate

open Ledger

variable (g : Generator) (ledger : Ledger) (result : Generated) (run : GroupRun) (v : Visit)

/-- The class of the struct was written. -/
structure Emitted : Prop where
  once : (classNames result).count v.name = 1
  kept : v.name ∉ result.skipped
  file : ∃ file,
    run.output = .written file (g.packages.renderUnit (run.classes g) (Path.parse file).stem)
      ∧ (file, (run.classes g).map (·.name)) ∈ result.classes
      ∧ ∀ entry ∈ result.classes, v.name ∈ entry.2 → entry.1 = file
  body : ∃ body, v.found g = .ok body
    ∧ ∀ known : List String, (∀ n, n ∈ known ↔ n ∈ g.registry.textNames) →
      (run.classes g).filter (fun c => c.name = v.name)
        = [JavaClass.ofFields v.name (Field.ofBody body.text) known]

/-- The struct was left out. -/
structure Skipped : Prop where
  once : result.skipped.count v.name = 1
  missing : v.name ∉ classNames result
  noted : ∃ failure kind words, v.found g = .error failure ∧ failure.NotedAs kind
    ∧ (ledger.notes g).filter (fun n => n.1 = .struct v.name)
      = [(.struct v.name, ⟨kind, words⟩)]

/-- The Java file with the class of the struct was refused. -/
structure Unwritten : Prop where
  body : ∃ body, v.found g = .ok body
  kept : v.name ∉ result.skipped
  missing : v.name ∉ classNames result
  file : ∃ file fault, run.output = .refused file fault ∧ file ∉ result.classes.map (·.1)
    ∧ (Subject.file file, ⟨.io, "Error writing " ++ file ++ ": " ++ fault.message⟩)
      ∈ ledger.notes g

/-- The struct has this fate. -/
def Holds : Fate → Prop
  | .emitted => Emitted g result run v
  | .skipped => Skipped g ledger result v
  | .unwritten => Unwritten g ledger result run v

variable {g ledger result run v}

/-- A struct has at most one fate. -/
theorem Holds.unique {fate fate' : Fate} (h : fate.Holds g ledger result run v)
    (h' : fate'.Holds g ledger result run v) : fate = fate' := by
  have hemitted (h : Emitted g result run v) : v.name ∈ classNames result :=
    List.count_pos_iff.1 (h.once ▸ Nat.one_pos)
  have hskipped (h : Skipped g ledger result v) : v.name ∈ result.skipped :=
    List.count_pos_iff.1 (h.once ▸ Nat.one_pos)
  cases fate with
  | emitted =>
    cases fate' with
    | emitted => rfl
    | skipped => exact absurd (hemitted h) h'.missing
    | unwritten => exact absurd (hemitted h) h'.missing
  | skipped =>
    cases fate' with
    | emitted => exact absurd (hskipped h) h'.kept
    | skipped => rfl
    | unwritten => exact absurd (hskipped h) h'.kept
  | unwritten =>
    cases fate' with
    | emitted => exact absurd (hemitted h') h.missing
    | skipped => exact absurd (hskipped h') h.kept
    | unwritten => rfl

end Fate

namespace Generator

open Ledger

variable {g : Generator} {s t : Session} {ledger : Ledger} {run : GroupRun} {v : Visit}

theorem Accounts.nodup_names (h : g.Accounts s ledger t) (hnames : g.registry.names.Nodup) :
    ledger.names.Nodup := by
  obtain ⟨u, hplan, -⟩ := h.plan
  have hnodup := nodup_of_plan hnames hplan
  rw [List.flatMap_map] at hnodup
  rw [List.map_flatMap] at hnodup
  rw [Ledger.names, Ledger.visits, List.map_flatMap]
  have hsame (r : GroupRun) : (r.members.2).map (fun p => p.1.name) = r.visits.map (·.name) :=
    List.map_map
  simpa only [hsame] using hnodup

theorem skipped_holds (h : g.Accounts s ledger t) (hnodup : ledger.names.Nodup)
    (hrun : run ∈ ledger.runs) (hv : v ∈ run.visits) (hclass : v.class? g = none) :
    Fate.Skipped g ledger (ledger.result g) v := by
  obtain ⟨failure, hfailure⟩ := Visit.class?_eq_none hclass
  obtain ⟨used, hsound⟩ := h.sound run hrun
  obtain ⟨note, hnote⟩ := Option.isSome_iff_exists.1 (hsound.settled v hv failure hfailure)
  refine ⟨?_, ?_, failure, note.2, note.1, hfailure, notedAs_of_skipNote? hnote, ?_⟩
  · exact List.count_eq_one_of_mem (hnodup.sublist (skipped_sublist g ledger))
      ((mem_skipped hnodup hrun hv).2 hclass)
  · intro hmem
    have hsome := ((mem_classNames hnodup hrun hv).1 hmem).2
    rw [hclass] at hsome
    cases hsome
  · rw [filter_notes hnodup hrun hv, Visit.problems, hfailure]
    simp only [hnote]
    rfl

theorem emitted_holds (h : g.Accounts s ledger t) (hnodup : ledger.names.Nodup)
    (hrun : run ∈ ledger.runs) (hv : v ∈ run.visits) {c : JavaClass} (hclass : v.class? g = some c)
    {file text : String} (hwritten : run.output = .written file text) :
    Fate.Emitted g (ledger.result g) run v := by
  obtain ⟨used, hsound⟩ := h.sound run hrun
  have hentry : run.listed? g = some (file, (run.classes g).map (·.name)) := by
    rw [GroupRun.listed?, hwritten]
  have hmem : v.name ∈ classNames (ledger.result g) := by
    rw [mem_classNames hnodup hrun hv, hentry, hclass]
    exact ⟨rfl, rfl⟩
  refine ⟨?_, ?_, ⟨file, ?_, ?_, ?_⟩, ?_⟩
  · exact List.count_eq_one_of_mem (hnodup.sublist (classNames_sublist g ledger)) hmem
  · rw [mem_skipped hnodup hrun hv, hclass]
    exact Option.some_ne_none c
  · rw [hwritten, hsound.text_eq hwritten]
  · exact List.mem_filterMap.2 ⟨run, hrun, hentry⟩
  · intro entry hmem hname
    cases hentry.symm.trans (listed?_of_mem hnodup hrun hv hmem hname).1
    rfl
  · obtain ⟨body, hfound, rfl⟩ := Visit.class?_eq_some hclass
    refine ⟨body, hfound, ?_⟩
    intro known hknown
    rw [JavaClass.ofFields_congr hknown]
    exact GroupRun.filter_classes (Ledger.nodup_names hnodup hrun) hv hclass

theorem unwritten_holds (h : g.Accounts s ledger t) (hnodup : ledger.names.Nodup)
    (hrun : run ∈ ledger.runs) (hv : v ∈ run.visits) {c : JavaClass} (hclass : v.class? g = some c)
    {file : String} {fault : FileFault} (hrefused : run.output = .refused file fault) :
    Fate.Unwritten g ledger (ledger.result g) run v := by
  have hentry : run.listed? g = none := by
    rw [GroupRun.listed?, hrefused]
  obtain ⟨body, hfound, -⟩ := Visit.class?_eq_some hclass
  refine ⟨⟨body, hfound⟩, ?_, ?_, file, fault, hrefused, ?_, ?_⟩
  · rw [mem_skipped hnodup hrun hv, hclass]
    exact Option.some_ne_none c
  · rw [mem_classNames hnodup hrun hv, hentry]
    rintro ⟨⟨⟩, -⟩
  · -- The name is that of this group's file, and no other group has it.
    intro hmem
    obtain ⟨entry, hlisted, rfl⟩ := List.mem_map.1 hmem
    obtain ⟨run', hrun', hentry'⟩ := List.mem_filterMap.1 hlisted
    have hfile : run.file? = some entry.1 := by
      rw [GroupRun.file?, hrefused]
      rfl
    obtain rfl := eq_of_nodup_filterMap h.names hrun hrun' hfile (GroupRun.file?_of_listed? hentry')
    cases hentry.symm.trans hentry'
  · refine List.mem_append_left _ (List.mem_flatMap.2 ⟨run, hrun, List.mem_append_right _ ?_⟩)
    rw [hrefused]
    exact List.mem_singleton.2 rfl

theorem exists_fate (h : g.Accounts s ledger t) (hnodup : ledger.names.Nodup)
    (hrun : run ∈ ledger.runs) (hv : v ∈ run.visits) :
    ∃ fate : Fate, fate.Holds g ledger (ledger.result g) run v := by
  cases hclass : v.class? g with
  | none => exact ⟨.skipped, skipped_holds h hnodup hrun hv hclass⟩
  | some c =>
    cases houtput : run.output with
    | written file text => exact ⟨.emitted, emitted_holds h hnodup hrun hv hclass houtput⟩
    | refused file fault => exact ⟨.unwritten, unwritten_holds h hnodup hrun hv hclass houtput⟩
    | absent =>
      -- A group with a class has a file.
      obtain ⟨used, hsound⟩ := h.sound run hrun
      have hmem : c ∈ run.classes g := List.mem_filterMap.2 ⟨v, hv, hclass⟩
      rcases hsound.output_eq with ⟨-, hnil⟩ | ⟨-, hname⟩
      · rw [hnil] at hmem
        cases hmem
      · rw [GroupRun.file?, houtput] at hname
        cases hname

/-- **Every planned struct is accounted for.** Let the names of the registry be different and let a
generation return. Then there is a ledger of it whose groups are those of the plan, and every struct
in it has exactly one fate: it is emitted, left out or unwritten, with what `Fate.Holds` says about
the results and the problems. A body is looked for in the lines that were known when the plan was
made, if there are any. No Java file is listed twice, nothing outside the plan is listed, and the
problems are those of the ledger. -/
theorem every_struct_has_one_fate (hnames : g.registry.names.Nodup) {result : Generated}
    (hrun : g.generate s = .ok result t) :
    ∃ ledger : Ledger, g.Accounts s ledger t ∧ result = ledger.result g
      ∧ (∀ run ∈ ledger.runs, ∀ v ∈ run.visits, ∃! fate : Fate, fate.Holds g ledger result run v)
      ∧ (∀ units u, g.plan (s.log g.startRecord) = .ok units u → ∀ v ∈ ledger.visits, ∀ known,
        u.lines.find? (·.1 == v.planned.2.path) = some known →
          v.found g = (Body.find known.2 v.planned.2.line).mapError (.body v.planned.2))
      ∧ (result.classes.map (·.1)).Nodup
      ∧ (∀ n, n ∈ result.skipped ∨ n ∈ classNames result → n ∈ ledger.names)
      ∧ t.problems.entries = s.problems.entries ++ (ledger.notes g).map (·.2) := by
  obtain ⟨ledger, haccounts, rfl⟩ := exists_ledger hrun
  have hnodup := haccounts.nodup_names hnames
  refine ⟨ledger, haccounts, rfl, ?_, ?_, nodup_files haccounts.names, ?_,
    haccounts.reaches.entries⟩
  · intro run hmem v hv
    obtain ⟨fate, hfate⟩ := exists_fate haccounts hnodup hmem hv
    exact ⟨fate, hfate, fun fate' hfate' => hfate'.unique hfate⟩
  · intro units u hplan v hv known hknown
    obtain ⟨run, hmem, hv⟩ := List.mem_flatMap.1 hv
    obtain ⟨u', hplan', hvisits⟩ := haccounts.plan
    cases hplan.symm.trans hplan'
    -- Lines that are known stay known up to the visit.
    obtain ⟨cs, htrace⟩ := hvisits run hmem v hv
    exact SourceReader.outcome_bodyAt_of_known (htrace.find?_lines hknown)
  · rintro n (hskipped | hclass)
    · exact (skipped_sublist g ledger).subset hskipped
    · exact (classNames_sublist g ledger).subset hclass

/-! ## An example -/

/-- Structs that are listed in the order of the ranking are selected from the front. -/
theorem selected_of_ranked (htexts : ∀ e ∈ g.registry.entries, e.name.isText = true)
    (hordered : g.registry.entries.Pairwise fun a b => Entry.rankedBefore a b = true) :
    g.selected = pure
      (g.registry.entries.take (Registry.admitted g.registry.entries.length g.topCount)) := by
  rw [selected, Registry.rank_of_isText htexts, Registry.top_of_pairwise hordered]
  rfl

/-- The generator of `scatteredGenerator`, with all structs selected. -/
def mixedGenerator : Generator :=
  { scatteredGenerator with topCount := 4 }

/-- A session in which a directory has the place of one of the Java files. -/
def mixedSession : Session :=
  { scatteredSession with
    files.nodes := scatteredSession.files.nodes
      ++ [(["out"], .directory), (["out", "b.java"], .directory)] }

/-- One struct is unwritten, one is emitted and one is left out. -/
theorem fates_of_mixed_structs :
    mixedGenerator.registry.names.Nodup
      ∧ ∃ result t, mixedGenerator.generate mixedSession = .ok result t
        ∧ result = ⟨[Path.parse "out/a.java"], [("a.java", ["B"])], ["C"]⟩
        ∧ ∃ ledger : Ledger, mixedGenerator.Accounts mixedSession ledger t
          ∧ ∀ run ∈ ledger.runs, ∀ v ∈ run.visits,
            ∃! fate : Fate, fate.Holds mixedGenerator ledger result run v := by
  have hnames : mixedGenerator.registry.names.Nodup := by decide +kernel
  have hselected := selected_of_ranked (g := mixedGenerator) (by decide +kernel) (by decide +kernel)
  have hresult : (mixedGenerator.generate.outcome mixedSession).toOption
      = some ⟨[Path.parse "out/a.java"], [("a.java", ["B"])], ["C"]⟩ := by
    rw [generate, generateWith, plan, hselected, pure_bind]
    decide +kernel
  obtain ⟨t, ht⟩ := outcome_eq_ok.1 (eq_ok_of_toOption hresult)
  obtain ⟨ledger, haccounts, -, hfates, -⟩ := every_struct_has_one_fate hnames ht
  exact ⟨hnames, _, t, ht, rfl, ledger, haccounts, hfates⟩

end Generator

end StructAtlas
