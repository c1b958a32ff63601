import StructAtlas.Proofs.JavaFileNames
import StructAtlas.Proofs.PlanGroups
import StructAtlas.Proofs.QuietReading
import StructAtlas.Proofs.SingleFile

set_option autoImplicit false

/-!
# Ledgers of generations

A generation that returned went through its plan group by group. For each group the ledger has the
visits to its structs, each with the session in which the body was looked for, and what became of
the Java file (`GroupRun`). The results are read off the ledger: classes, structs left out, problems
and written files are those of its visits and files (`Generator.Accounts`).

`Generator.RunsGroup` is one step of a generation and `Generator.RunsGroups` a run of steps. Every
fact about the results is shown for a step and follows for a run by induction, and
`exists_ledger` puts the plan in front and the support class behind.
-/

namespace StructAtlas

open Act Generation

/-! ## Visits -/

/-- What a problem of a generation is about. -/
inductive Subject where
  | struct (name : Name)
  | file (name : String)
deriving DecidableEq

/-- A planned struct with the session in which its body is looked for. -/
structure Visit where
  planned : Planned
  session : Session

namespace Visit

variable (g : Generator) (v : Visit)

/-- The name of the struct. -/
def name : Name :=
  v.planned.1.name

/-- The body at the place of the struct, or why there is none. -/
def found : Except Failure Body.Found :=
  (g.reader.bodyAt v.planned.2).outcome v.session

/-- The class of the struct, if there is a body. -/
def class? : Option JavaClass :=
  match v.found g with
  | .ok body => some (.ofFields v.name (Field.ofBody body.text) g.registry.textNames)
  | .error _ => none

/-- The problems that are noted about the struct. -/
def problems : List Problem :=
  match v.found g with
  | .ok body =>
    if (Field.ofBody body.text).isEmpty then
      [⟨.noFields, "No fields parsed for " ++ v.name.shown ++ " at " ++ v.planned.2.shown⟩]
    else []
  | .error failure =>
    ((skipNote? v.planned.1 v.planned.2 failure).map fun n => ⟨n.2, n.1⟩).toList

/-- If there is no body, that concerns this struct only. -/
def IsSettled : Prop :=
  ∀ failure, v.found g = .error failure → (skipNote? v.planned.1 v.planned.2 failure).isSome

end Visit

/-! ## Java files -/

/-- What became of a Java file. -/
inductive Output where
  | absent
  | written (name text : String)
  | refused (name : String) (fault : FileFault)

namespace Output

/-- The name of the file. -/
def name? : Output → Option String
  | .absent => none
  | .written name _ => some name
  | .refused name _ => some name

/-- The file as it was written into a directory. -/
def writings (out : Path) : Output → List (Path × String)
  | .written name text => [(out.joinText name, text)]
  | _ => []

/-- The path of the file, if it was written into a directory. -/
def path? (out : Path) : Output → Option Path
  | .written name _ => some (out.joinText name)
  | _ => none

/-- What is noted about the file. -/
def notes : Output → List (Subject × Problem)
  | .refused name fault => [(.file name, ⟨.io, "Error writing " ++ name ++ ": " ++ fault.message⟩)]
  | _ => []

/-- It was tried to write a text under a name. -/
def Tried (name text : String) (o : Output) : Prop :=
  o = .written name text ∨ ∃ fault, o = .refused name fault

theorem Tried.name?_eq {name text : String} {o : Output} (h : o.Tried name text) :
    o.name? = some name := by
  rcases h with rfl | ⟨fault, rfl⟩
  · rfl
  · rfl

end Output

/-- The work on one group of structs. -/
structure GroupRun where
  source : WideText
  visits : List Visit
  output : Output

namespace GroupRun

variable (g : Generator) (run : GroupRun)

/-- The group as it was planned. -/
def members : WideText × List Planned :=
  (run.source, run.visits.map (·.planned))

/-- The name of the Java file. -/
def file? : Option String :=
  run.output.name?

/-- The classes that were built. -/
def classes : List JavaClass :=
  run.visits.filterMap (·.class? g)

/-- The structs that were left out. -/
def skipped : List Name :=
  (run.visits.filter fun v => (v.class? g).isNone).map (·.name)

/-- The problems that were noted. -/
def notes : List (Subject × Problem) :=
  (run.visits.flatMap fun v => (v.problems g).map (Subject.struct v.name, ·)) ++ run.output.notes

/-- The file that was written, with the names of its classes. -/
def listed? : Option (String × List Name) :=
  match run.output with
  | .written name _ => some (name, (run.classes g).map (·.name))
  | _ => none

/-- Whether classes were written that need the support class. -/
def needsSupport : Bool :=
  (run.listed? g).isSome && (run.classes g).any (·.needsUnsigned)

/-- What has to hold of the work on a group, given the names in use. -/
structure IsSound (used : List String) : Prop where
  settled : ∀ v ∈ run.visits, v.IsSettled g
  absent : run.classes g = [] → run.output = .absent
  tried : run.classes g ≠ [] →
    run.output.Tried (Naming.outputFile run.source.shown used Naming.sourceExtension)
      (g.packages.renderUnit (run.classes g)
        (Path.parse (Naming.outputFile run.source.shown used Naming.sourceExtension)).stem)

variable {g run}

/-- Every group with classes has a Java file, under a new name. -/
theorem IsSound.output_eq {used : List String} (h : run.IsSound g used) :
    (run.output = .absent ∧ run.classes g = [])
      ∨ run.classes g ≠ [] ∧ run.file? =
        some (Naming.outputFile run.source.shown used Naming.sourceExtension) := by
  by_cases hclasses : run.classes g = []
  · exact Or.inl ⟨h.absent hclasses, hclasses⟩
  · exact Or.inr ⟨hclasses, (h.tried hclasses).name?_eq⟩

/-- A file that was written holds the classes of its group. -/
theorem IsSound.text_eq {used : List String} (h : run.IsSound g used) {name text : String}
    (hwritten : run.output = .written name text) :
    text = g.packages.renderUnit (run.classes g) (Path.parse name).stem := by
  by_cases hclasses : run.classes g = []
  · cases (h.absent hclasses).symm.trans hwritten
  · rcases h.tried hclasses with htried | ⟨fault, htried⟩
    · cases htried.symm.trans hwritten
      rfl
    · cases htried.symm.trans hwritten

end GroupRun

/-! ## Sessions that follow each other -/

namespace Session

variable {s t u : Session} {problems : List Problem} {writings : List (Path × String)}

/-- Some changes lead from one session to another. -/
def Precedes (s t : Session) : Prop :=
  ∃ cs, Trace s cs t

theorem Reaches.precedes (h : s.Reaches problems writings t) : s.Precedes t :=
  h.imp fun _ h => h.1

theorem Precedes.refl (s : Session) : s.Precedes s := ⟨[], .nil s⟩

theorem Precedes.trans (h : s.Precedes t) (h' : t.Precedes u) : s.Precedes u := by
  obtain ⟨cs, hcs⟩ := h
  obtain ⟨cs', hcs'⟩ := h'
  exact ⟨cs ++ cs', hcs.append hcs'⟩

/-- A step without problems and files may come first. -/
theorem Reaches.of_silent (h : s.Reaches [] [] t) (h' : t.Reaches problems writings u) :
    s.Reaches problems writings u :=
  h.trans h'

end Session

namespace Generator

variable {g : Generator} {s t u : Session}

/-! ## One struct -/

theorem readFields_eq_ok {body : List Char} {fields : List Field}
    (h : readFields body s = .ok fields t) :
    fields = Field.ofBody body ∧ s.Reaches [] [] t := by
  have hreaches := (makes_readFields body).reaches_of_ok h
  obtain ⟨_, u, -, hpure⟩ := bind_eq_ok.1 h
  cases hpure
  exact ⟨rfl, hreaches⟩

theorem reaches_of_log {severity : Severity} {phase message : String}
    (h : Act.log severity phase message s = .ok () t) : s.Reaches [] [] t := by
  cases h
  exact Session.reaches_log s _

/-- The class of a struct, its problems and its failures depend on the body that is found. -/
theorem buildClass_eq_ok {e : Entry} {l : Location} {built : Option JavaClass}
    (h : g.buildClass e l s = .ok built t) :
    built = Visit.class? g ⟨(e, l), s⟩ ∧ Visit.IsSettled g ⟨(e, l), s⟩
      ∧ s.Reaches (Visit.problems g ⟨(e, l), s⟩) [] t := by
  obtain ⟨answer, u, hattempt, hnext⟩ := bind_eq_ok.1 h
  have hfound : Visit.found g ⟨(e, l), s⟩ = answer := outcome_of_attempt hattempt
  have hread : s.Reaches [] [] u :=
    (SourceReader.makes_bodyAt g.reader l).attempt.reaches_of_ok hattempt
  rw [Visit.class?, Visit.IsSettled, Visit.problems, hfound]
  cases answer with
  | ok body =>
    obtain ⟨fields, v, hok, hnext⟩ := bind_eq_ok.1 hnext
    obtain ⟨rfl, hfields⟩ := readFields_eq_ok hok
    have hbuild := hread.of_silent hfields
    simp only at hnext
    split at hnext
    · rename_i hempty
      -- A body without fields is noted, and the class is built all the same.
      obtain ⟨_, w, hlog, hnext⟩ := bind_eq_ok.1 hnext
      obtain ⟨_, x, hreport, hpure⟩ := bind_eq_ok.1 hnext
      cases hpure
      refine ⟨rfl, fun failure hfailure => (by cases hfailure), ?_⟩
      simp only [hempty, ↓reduceIte]
      exact hbuild.of_silent ((reaches_of_log hlog).of_silent (reaches_of_report hreport))
    · rename_i hempty
      cases hnext
      refine ⟨rfl, fun failure hfailure => (by cases hfailure), ?_⟩
      simp only [hempty]
      exact hbuild
  | error failure =>
    simp only at hnext
    cases hnote : skipNote? e l failure with
    | none =>
      simp only [hnote] at hnext
      cases hnext
    | some note =>
      simp only [hnote] at hnext
      obtain ⟨_, v, hlog, hnext⟩ := bind_eq_ok.1 hnext
      obtain ⟨_, w, hreport, hpure⟩ := bind_eq_ok.1 hnext
      cases hpure
      refine ⟨rfl, ?_, ?_⟩
      · intro failure' hfailure
        cases hfailure
        rw [hnote]
        rfl
      · simp only [hnote]
        exact hread.of_silent ((reaches_of_log hlog).of_silent (reaches_of_report hreport))

/-! ## One group -/

/-- The visits to the structs of a group, one after the other. -/
theorem buildAll_eq_ok {ps : List Planned} {classes : List JavaClass} {skipped : List Name}
    (h : g.buildAll ps s = .ok (classes, skipped) t) :
    ∃ visits : List Visit, visits.map (·.planned) = ps
      ∧ classes = visits.filterMap (·.class? g)
      ∧ skipped = (visits.filter fun v => (v.class? g).isNone).map (·.name)
      ∧ s.Reaches (visits.flatMap (·.problems g)) [] t
      ∧ ∀ v ∈ visits, v.IsSettled g ∧ s.Precedes v.session := by
  induction ps generalizing s t classes skipped with
  | nil =>
    cases h
    refine ⟨[], rfl, rfl, rfl, Session.Reaches.refl s, ?_⟩
    intro v hv
    cases hv
  | cons p ps ih =>
    obtain ⟨built, u, hbuilt, hnext⟩ := bind_eq_ok.1 h
    obtain ⟨⟨classes', skipped'⟩, v, hrest, hpure⟩ := bind_eq_ok.1 hnext
    obtain ⟨hclass, hsettled, hfirst⟩ := buildClass_eq_ok hbuilt
    obtain ⟨visits, rfl, rfl, rfl, hreaches, hvisits⟩ := ih hrest
    have hall : ∀ w ∈ (⟨p, s⟩ : Visit) :: visits, w.IsSettled g ∧ s.Precedes w.session := by
      intro w hw
      rcases List.mem_cons.1 hw with rfl | hw
      · exact ⟨hsettled, .refl s⟩
      · exact ⟨(hvisits w hw).1, hfirst.precedes.trans (hvisits w hw).2⟩
    -- The first struct has a class or is left out; the others are as in the rest of the group.
    rw [hclass] at hpure
    cases hbuilt : Visit.class? g ⟨p, s⟩ with
    | some c =>
      have hsome : Visit.class? g ⟨(p.1, p.2), s⟩ = some c := hbuilt
      simp only [hsome] at hpure
      cases hpure
      refine ⟨⟨p, s⟩ :: visits, rfl, ?_, ?_, hfirst.trans hreaches, hall⟩
      · rw [List.filterMap_cons_some hbuilt]
      · rw [List.filter_cons_of_neg (by simp [hbuilt])]
    | none =>
      have hnone : Visit.class? g ⟨(p.1, p.2), s⟩ = none := hbuilt
      simp only [hnone] at hpure
      cases hpure
      refine ⟨⟨p, s⟩ :: visits, rfl, ?_, ?_, hfirst.trans hreaches, hall⟩
      · rw [List.filterMap_cons_none hbuilt]
      · rw [List.filter_cons_of_pos (by simp [hbuilt])]
        rfl

theorem reaches_of_writeMentioning {path : Path} {mentioned : List Value} {text : String}
    (h : writeMentioning path mentioned text s = .ok () t) : s.Reaches [] [(path, text)] t := by
  rw [writeMentioning] at h
  split at h
  · obtain ⟨files, hwrite, rfl⟩ := changeFiles_eq_ok h
    exact ⟨_, (Session.Step.wrote hwrite).trace, rfl, rfl⟩
  · obtain ⟨_, u, -, hthrow⟩ := bind_eq_ok.1 h
    cases hthrow

/-- Where the operating system refuses a file, nothing has changed. -/
theorem eq_of_writeMentioning {path : Path} {mentioned : List Value} {text : String}
    {fault : FileFault} (h : writeMentioning path mentioned text s = .error (.file fault) t) :
    t = s := by
  rw [writeMentioning] at h
  split at h
  · exact changeFiles_eq_error h
  · rcases bind_eq_error h with hwrite | ⟨_, u, -, hthrow⟩
    · exact changeFiles_eq_error hwrite
    · cases hthrow

/-- A file was written, or it was refused and nothing changed but the notes. -/
theorem writeFile_eq_ok {name text : String} {mentioned : List Value} {path? : Option Path}
    (h : g.writeFile name mentioned text s = .ok path? t) :
    ∃ o : Output, o.Tried name text ∧ path? = o.path? g.output
      ∧ s.Reaches (o.notes.map (·.2)) (o.writings g.output) t := by
  rw [writeFile] at h
  split at h
  · cases h
  · rcases onRefusal_eq_ok h with hact | ⟨fault, u, hact, hhandle⟩
    · obtain ⟨_, v, hwrite, hnext⟩ := bind_eq_ok.1 hact
      obtain ⟨_, w, hlog, hpure⟩ := bind_eq_ok.1 hnext
      cases hpure
      refine ⟨.written name text, Or.inl rfl, rfl, ?_⟩
      exact (reaches_of_writeMentioning hwrite).trans (reaches_of_log hlog)
    · -- The refusal came before anything was written, since the record behind it does not fail.
      have hsame : u = s := by
        rcases bind_eq_error hact with hwrite | ⟨_, v, -, hnext⟩
        · exact eq_of_writeMentioning hwrite
        · cases hnext
      subst hsame
      obtain ⟨_, v, hlog, hnext⟩ := bind_eq_ok.1 hhandle
      obtain ⟨_, w, hreport, hpure⟩ := bind_eq_ok.1 hnext
      cases hpure
      refine ⟨.refused name fault, Or.inr ⟨fault, rfl⟩, rfl, ?_⟩
      exact (reaches_of_log hlog).of_silent (reaches_of_report hreport)

/-- The progress after the work on some groups. -/
def Progress.after (g : Generator) (p : Progress) (runs : List GroupRun) : Progress where
  result :=
    ⟨p.result.written ++ (runs.flatMap (·.output.writings g.output)).map (·.1),
      p.result.classes ++ runs.filterMap (·.listed? g),
      p.result.skipped ++ runs.flatMap (·.skipped g)⟩
  used := (runs.filterMap GroupRun.file?).reverse ++ p.used
  needsSupport := p.needsSupport || runs.any (·.needsSupport g)

theorem Progress.after_nil (g : Generator) (p : Progress) : p.after g [] = p := by
  simp [Progress.after]

theorem Progress.after_append (g : Generator) (p : Progress) (runs runs' : List GroupRun) :
    (p.after g runs).after g runs' = p.after g (runs ++ runs') := by
  simp [Progress.after, List.append_assoc, Bool.or_assoc]

/-- The work on one group, from a progress and a session to others. -/
structure RunsGroup (g : Generator) (p : Progress) (s : Session) (run : GroupRun) (p' : Progress)
    (t : Session) : Prop where
  sound : run.IsSound g p.used
  visits : ∀ v ∈ run.visits, s.Precedes v.session
  progress : p' = p.after g [run]
  reaches : s.Reaches ((run.notes g).map (·.2)) (run.output.writings g.output) t

theorem map_notes (run : GroupRun) :
    (run.notes g).map (·.2)
      = run.visits.flatMap (·.problems g) ++ run.output.notes.map (·.2) := by
  rw [GroupRun.notes, List.map_append, List.map_flatMap]
  congr 1
  refine List.flatMap_congr fun v _ => ?_
  rw [List.map_map]
  exact List.map_id _

theorem exists_runsGroup {p p' : Progress} {group : WideText × List Planned}
    (h : g.generateGroup p group s = .ok p' t) :
    ∃ run : GroupRun, run.members = group ∧ g.RunsGroup p s run p' t := by
  obtain ⟨⟨classes, skipped⟩, u, hbuild, hnext⟩ := bind_eq_ok.1 h
  obtain ⟨visits, hplanned, hclasses, hskipped, hreaches, hvisits⟩ := buildAll_eq_ok hbuild
  have hsettled : ∀ v ∈ visits, v.IsSettled g := fun v hv => (hvisits v hv).1
  have hprecedes : ∀ v ∈ visits, s.Precedes v.session := fun v hv => (hvisits v hv).2
  simp only at hnext
  split at hnext
  · rename_i hempty
    -- No struct of the group has a class, so there is no file.
    obtain ⟨_, v, hlog, hpure⟩ := bind_eq_ok.1 hnext
    cases hpure
    have hnone : visits.filterMap (·.class? g) = [] := by
      rw [← hclasses]
      exact List.isEmpty_iff.1 hempty
    refine ⟨⟨group.1, visits, .absent⟩, by rw [GroupRun.members, hplanned],
      ⟨hsettled, fun _ => rfl, fun hne => absurd hnone hne⟩, hprecedes, ?_, ?_⟩
    · simp [Progress.after, Progress.addSkipped, GroupRun.listed?, GroupRun.skipped,
        GroupRun.needsSupport, Output.writings, GroupRun.file?,
          Output.name?, hskipped]
    · rw [map_notes]
      exact hreaches.trans (reaches_of_log hlog)
  · rename_i hempty
    obtain ⟨path?, v, hwrite, hpure⟩ := bind_eq_ok.1 hnext
    obtain ⟨o, htried, hpath, hwrote⟩ := writeFile_eq_ok hwrite
    have hsome : visits.filterMap (·.class? g) ≠ [] := by
      rw [← hclasses]
      intro hnil
      exact hempty (List.isEmpty_iff.2 hnil)
    subst hclasses hskipped hpath
    have hsound : GroupRun.IsSound g ⟨group.1, visits, o⟩ p.used :=
      ⟨hsettled, fun hnil => absurd hnil hsome, fun _ => htried⟩
    -- Whether the file was written or not, the progress has its name and the structs left out.
    have hdone : p' = p.after g [⟨group.1, visits, o⟩] ∧ v = t := by
      rcases htried with rfl | ⟨fault, rfl⟩
      · cases hpure
        simp [Progress.after, Progress.addSkipped, Progress.addFile, GroupRun.listed?,
          GroupRun.skipped, GroupRun.needsSupport, GroupRun.classes, Output.writings,
          GroupRun.file?, Output.name?]
      · cases hpure
        simp [Progress.after, Progress.addSkipped, GroupRun.listed?, GroupRun.skipped,
          GroupRun.needsSupport, Output.writings, GroupRun.file?,
          Output.name?]
    refine ⟨⟨group.1, visits, o⟩, by rw [GroupRun.members, hplanned], hsound, hprecedes,
      hdone.1, ?_⟩
    rw [map_notes, ← hdone.2]
    exact hreaches.trans hwrote

/-! ## All groups -/

/-- The work on groups one after the other. -/
inductive RunsGroups (g : Generator) :
    Progress → Session → List GroupRun → Progress → Session → Prop where
  | nil (p : Progress) (s : Session) : RunsGroups g p s [] p s
  | cons {p p' p'' : Progress} {s t u : Session} {run : GroupRun} {runs : List GroupRun}
    (hrun : g.RunsGroup p s run p' t) (hruns : RunsGroups g p' t runs p'' u) :
    RunsGroups g p s (run :: runs) p'' u

theorem exists_runsGroups {groups : List (WideText × List Planned)} {p p' : Progress}
    (h : g.generateGroups groups p s = .ok p' t) :
    ∃ runs : List GroupRun, runs.map (·.members) = groups ∧ g.RunsGroups p s runs p' t := by
  induction groups generalizing p s with
  | nil =>
    cases h
    exact ⟨[], rfl, .nil _ _⟩
  | cons group groups ih =>
    obtain ⟨next, u, hgroup, hgroups⟩ := bind_eq_ok.1 h
    obtain ⟨run, rfl, hrun⟩ := exists_runsGroup hgroup
    obtain ⟨runs, rfl, hruns⟩ := ih hgroups
    exact ⟨run :: runs, rfl, .cons hrun hruns⟩

section Runs

variable {p p' : Progress} {runs : List GroupRun}

theorem RunsGroups.progress (h : g.RunsGroups p s runs p' t) : p' = p.after g runs := by
  induction h with
  | nil p s => exact (p.after_nil g).symm
  | @cons p _ _ _ _ _ run runs hrun _ ih =>
    rw [ih, hrun.progress, p.after_append]
    rfl

theorem RunsGroups.reaches (h : g.RunsGroups p s runs p' t) :
    s.Reaches ((runs.flatMap (·.notes g)).map (·.2))
      (runs.flatMap (·.output.writings g.output)) t := by
  induction h with
  | nil p s => exact Session.Reaches.refl s
  | cons hrun _ ih =>
    rw [List.flatMap_cons, List.map_append, List.flatMap_cons]
    exact hrun.reaches.trans ih

theorem RunsGroups.sound (h : g.RunsGroups p s runs p' t) :
    ∀ run ∈ runs, ∃ used, run.IsSound g used := by
  induction h with
  | nil p s =>
    intro run hrun
    cases hrun
  | cons hrun _ ih =>
    intro run hmem
    rcases List.mem_cons.1 hmem with rfl | hmem
    · exact ⟨_, hrun.sound⟩
    · exact ih run hmem

theorem RunsGroups.visits (h : g.RunsGroups p s runs p' t) :
    ∀ run ∈ runs, ∀ v ∈ run.visits, s.Precedes v.session := by
  induction h with
  | nil p s =>
    intro run hrun
    cases hrun
  | cons hrun _ ih =>
    intro run hmem v hv
    rcases List.mem_cons.1 hmem with rfl | hmem
    · exact hrun.visits v hv
    · exact hrun.reaches.precedes.trans (ih run hmem v hv)

/-- The Java files are named one after the other, for the source files of the groups that have
classes. -/
theorem RunsGroups.files_eq (h : g.RunsGroups p s runs p' t) :
    runs.filterMap GroupRun.file?
      = Naming.nameAll p.used
          ((runs.filter fun run => run.classes g ≠ []).map (·.source.shown)) := by
  induction h with
  | nil p s => rfl
  | @cons p p' _ _ _ _ run runs hrun _ ih =>
    rw [hrun.progress] at ih
    rcases hrun.sound.output_eq with ⟨habsent, hclasses⟩ | ⟨hclasses, hname⟩
    · have hnone : run.file? = none := by
        rw [GroupRun.file?, habsent]
        rfl
      rw [List.filterMap_cons_none hnone, List.filter_cons_of_neg (by simp [hclasses]), ih]
      simp [Progress.after, hnone]
    · -- The name is in use from then on.
      rw [List.filterMap_cons_some hname, List.filter_cons_of_pos (by simp [hclasses]), ih]
      simp [Progress.after, hname, Naming.nameAll]

/-- Every file has a name of its own, which was not in use before. -/
theorem RunsGroups.names (h : g.RunsGroups p s runs p' t) :
    (runs.filterMap GroupRun.file?).Nodup
      ∧ ∀ name ∈ runs.filterMap GroupRun.file?, IsComponent name ∧ name ∉ p.used := by
  rw [h.files_eq]
  refine ⟨Naming.nodup_nameAll _ _, fun name hname => ?_⟩
  exact ⟨Naming.isComponent_of_mem_nameAll hname, Naming.not_mem_of_mem_nameAll hname⟩

end Runs

end Generator

/-! ## Ledgers -/

/-- What happened in a generation. -/
structure Ledger where
  runs : List GroupRun
  support : Output

namespace Ledger

variable (g : Generator) (ledger : Ledger)

/-- The visits to all structs. -/
def visits : List Visit :=
  ledger.runs.flatMap (·.visits)

/-- All problems that were noted, with what they are about. -/
def notes : List (Subject × Problem) :=
  ledger.runs.flatMap (·.notes g) ++ ledger.support.notes

/-- All files that were written, in order. -/
def writings : List (Path × String) :=
  ledger.runs.flatMap (·.output.writings g.output) ++ ledger.support.writings g.output

/-- The results of a generation. -/
def result : Generated :=
  ⟨(ledger.writings g).map (·.1), ledger.runs.filterMap (·.listed? g),
    ledger.runs.flatMap (·.skipped g)⟩

end Ledger

namespace Generator

variable {g : Generator} {s t : Session} {result : Generated}

/-- The record at the start of a generation. -/
def startRecord (g : Generator) : Record :=
  ⟨.info, generatePhase, "[시작] " ++ "POJO 생성"
    ++ Act.contextText [("top_n", toString g.topCount), ("output", g.output.toText)]⟩

/-- A ledger accounts for a generation from one session to another. -/
structure Accounts (g : Generator) (s : Session) (ledger : Ledger) (t : Session) : Prop where
  plan : ∃ u, g.plan (s.log g.startRecord) = .ok (ledger.runs.map (·.members)) u
    ∧ ∀ run ∈ ledger.runs, ∀ v ∈ run.visits, u.Precedes v.session
  sound : ∀ run ∈ ledger.runs, ∃ used, run.IsSound g used
  names : (ledger.runs.filterMap GroupRun.file?).Nodup
  components : ∀ name ∈ ledger.runs.filterMap GroupRun.file?, IsComponent name
  support : if ledger.runs.any (·.needsSupport g) then
      ledger.support.Tried supportName g.packages.renderSupport
    else ledger.support = .absent
  reaches : s.Reaches ((ledger.notes g).map (·.2)) (ledger.writings g) t

theorem generateSupport_eq_ok {p : Progress}
    (h : generateSupport g.writeSupport p s = .ok result t) :
    ∃ o : Output,
      (if p.needsSupport then o.Tried supportName g.packages.renderSupport else o = .absent)
      ∧ result = { p.result with
          written := p.result.written ++ (o.writings g.output).map (·.1) }
      ∧ s.Reaches (o.notes.map (·.2)) (o.writings g.output) t := by
  rw [generateSupport] at h
  split at h
  · rename_i hneeded
    obtain ⟨path?, u, hwrite, hpure⟩ := bind_eq_ok.1 h
    obtain ⟨o, htried, rfl, hwrote⟩ := writeFile_eq_ok hwrite
    refine ⟨o, by rwa [if_pos hneeded], ?_⟩
    rcases htried with rfl | ⟨fault, rfl⟩
    · cases hpure
      exact ⟨rfl, hwrote⟩
    · cases hpure
      exact ⟨by simp [Output.writings], hwrote⟩
  · rename_i hneeded
    cases h
    refine ⟨.absent, by rw [if_neg hneeded], by simp [Output.writings], ?_⟩
    exact Session.Reaches.refl _

/-- The steps of a generation that returned. -/
theorem exists_steps (h : g.generate s = .ok result t) :
    ∃ units p u v w x, g.plan (s.log g.startRecord) = .ok units u
      ∧ Act.makeDirectories g.output u = .ok () v
      ∧ g.generateGroups units ⟨⟨[], [], []⟩, [], false⟩ v = .ok p w
      ∧ generateSupport g.writeSupport p w = .ok result x ∧ x.Reaches [] [] t := by
  rw [generate, generateWith] at h
  split at h
  · cases h
  · obtain ⟨u, r, hwork, rfl⟩ := stage_eq_ok h
    obtain ⟨units, v, hplan, hwork⟩ := bind_eq_ok.1 hwork
    obtain ⟨_, w, hmake, hwork⟩ := bind_eq_ok.1 hwork
    obtain ⟨p, x, hgroups, hwork⟩ := bind_eq_ok.1 hwork
    obtain ⟨result', y, hsupport, hwork⟩ := bind_eq_ok.1 hwork
    obtain ⟨_, z, hlog, hpure⟩ := bind_eq_ok.1 hwork
    cases hpure
    exact ⟨units, p, v, w, x, y, hplan, hmake, hgroups, hsupport, (reaches_of_log hlog).log r⟩

/-- **A generation that returned has a ledger**, and its results are read off the ledger. -/
theorem exists_ledger (h : g.generate s = .ok result t) :
    ∃ ledger : Ledger, g.Accounts s ledger t ∧ result = ledger.result g := by
  obtain ⟨units, p, u, v, w, x, hplan, hmake, hgroups, hsupport, hend⟩ := exists_steps h
  obtain ⟨files, hfiles, rfl⟩ := changeFiles_eq_ok hmake
  have hmade : u.Reaches [] [] { u with files := files } :=
    ⟨_, (Session.Step.made hfiles).trace, rfl, rfl⟩
  obtain ⟨runs, rfl, hruns⟩ := exists_runsGroups hgroups
  obtain ⟨o, ho, rfl, hwrote⟩ := generateSupport_eq_ok hsupport
  obtain ⟨hnodup, hnames⟩ := hruns.names
  rw [hruns.progress] at ho
  refine ⟨⟨runs, o⟩, ⟨⟨u, hplan, ?_⟩, hruns.sound, hnodup,
    fun name hname => (hnames name hname).1, by simpa [Progress.after] using ho, ?_⟩, ?_⟩
  · intro run hrun w hw
    exact hmade.precedes.trans (hruns.visits run hrun w hw)
  · have hbegin := (Session.reaches_log s g.startRecord).of_silent
      ((makes_plan g).reaches_of_ok hplan)
    have hall := (hbegin.of_silent hmade).of_silent (hruns.reaches.trans hwrote)
    rw [Ledger.notes, List.map_append, Ledger.writings]
    simpa using hall.trans hend
  · rw [hruns.progress]
    simp [Progress.after, Ledger.result, Ledger.writings]

end Generator

end StructAtlas
