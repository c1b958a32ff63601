import StructAtlas.Proofs.FileShapes
import StructAtlas.Proofs.Operations

set_option autoImplicit false

/-!
# Traces of sessions

Operations change a session in few ways: they write log records, keep the lines of a source file,
note problems, make a directory and write files. `Session.Step` says what each of these changes does
and `Session.Trace` is a run of them. What holds along a run is shown for one step here, and for all
runs by induction: the problems are listed in the same file (`Trace.problemsPath`) and added at the
end (`Trace.entries`), lines that are known stay known (`Trace.find?_lines`), and a file stays as it
is unless it is written again, is a log file or lists the problems (`Trace.read`).

`Session.Reaches` keeps the two parts of a run that its results depend on: the problems that were
noted and the files that were written. The rules at the end take an operation apart that returned
(`Act.bind_eq_ok`, `Act.onRefusal_eq_ok`, `Act.stage_eq_ok`).
-/

namespace StructAtlas

/-! ## Files that are left alone -/

namespace FileTree

variable {t t' : FileTree} {p q : Path} {key : List String} {bytes content : List UInt8}

/-- Two paths that lead to the same place in no tree. -/
def Apart (p q : Path) : Prop :=
  ∀ (t : FileTree) key, t.place p = .ok key → t.place q ≠ .ok key

theorem Extends.read (h : Extends t t') (hread : t.read q = .ok bytes) :
    t'.read q = .ok bytes := by
  obtain ⟨key, hplace, hlookup, hfree⟩ := read_eq_ok.1 hread
  exact read_eq_ok.2 ⟨key, h.keeps.place hplace, h.lookup key _ hlookup, h.access key ▸ hfree⟩

/-- A file that is put elsewhere leaves the others as they are. -/
theorem read_put_of_apart (hapart : Apart p q) (htarget : t.target p = .ok key)
    (hread : t.read q = .ok bytes) : (t.put key (.file content)).read q = .ok bytes := by
  obtain ⟨other, hplace, hlookup, hfree⟩ := read_eq_ok.1 hread
  have hkind := ne_directory_of_target htarget
  have hne : other ≠ key := by
    rintro rfl
    exact hapart t other (target_eq_ok.1 htarget).1 hplace
  refine read_eq_ok.2 ⟨other, (keeps_put_file hkind content).place hplace, ?_, hfree⟩
  rw [lookup_put t (ne_nil_of_kind rfl hkind), if_neg hne]
  exact hlookup

theorem write_eq_ok (h : t.write p content = .ok t') :
    ∃ key, t.target p = .ok key ∧ t' = t.put key (.file content) := by
  rw [write] at h
  cases htarget : t.target p with
  | error e => simp [htarget, bind, Except.bind, blame] at h
  | ok key =>
    rw [htarget] at h
    exact ⟨key, rfl, (Except.ok.inj h).symm⟩

theorem read_of_append (hapart : Apart p q) (h : t.append p content = .ok t')
    (hread : t.read q = .ok bytes) : t'.read q = .ok bytes := by
  obtain ⟨key, written, htarget, rfl⟩ := append_eq_ok h
  exact read_put_of_apart hapart htarget hread

end FileTree

theorem Journal.read_deliver {j : Journal} {r : Record} {q : Path} {bytes : List UInt8}
    (hapart : ∀ o ∈ j.outlets, ∀ p, o.sink = .file p → FileTree.Apart p q) {files : FileTree}
    (hread : files.read q = .ok bytes) : (j.deliver r files).read q = .ok bytes :=
  deliver_induction r (fun _ _ _ o p hfiles ho hp htarget =>
    FileTree.read_put_of_apart (hapart o ho p hp) htarget hfiles) hread

/-! ## Steps -/

/-- A change of a session. -/
inductive Change where
  | logged (r : Record)
  | remembered (path : WideText) (ls : List (List Char))
  | noted (p : Problem)
  | prepared
  | listed (p : Problem)
  | made (path : Path)
  | wrote (path : Path) (text : String)

namespace Change

/-- The changes that log records make. -/
def IsLogged : Change → Prop
  | .logged _ => True
  | _ => False

/-- The changes that reading sources for their bodies makes. -/
def IsQuiet : Change → Prop
  | .logged _ => True
  | .remembered .. => True
  | _ => False

/-- The changes that log records and problems make. -/
def IsNote : Change → Prop
  | .logged _ => True
  | .noted _ => True
  | .prepared => True
  | .listed _ => True
  | _ => False

/-- The problem that a change adds to the list. -/
def problem? : Change → Option Problem
  | .noted p => some p
  | _ => none

/-- The file that a change writes, with its text. -/
def writing? : Change → Option (Path × String)
  | .wrote path text => some (path, text)
  | _ => none

theorem IsQuiet.problem? {c : Change} (h : c.IsQuiet) : c.problem? = none := by
  cases c with
  | logged r => rfl
  | remembered path ls => rfl
  | _ => cases h

theorem IsQuiet.writing? {c : Change} (h : c.IsQuiet) : c.writing? = none := by
  cases c with
  | logged r => rfl
  | remembered path ls => rfl
  | _ => cases h

theorem IsNote.writing? {c : Change} (h : c.IsNote) : c.writing? = none := by
  cases c with
  | wrote path text => cases h
  | _ => rfl

end Change

namespace Session

/-- What a change does to a session. -/
inductive Step : Session → Change → Session → Prop where
  | logged (s : Session) (r : Record) : Step s (.logged r) (s.log r)
  | remembered (s : Session) (path : WideText) (ls : List (List Char)) :
    Step s (.remembered path ls) { s with lines := s.lines ++ [(path, ls)] }
  | noted (s : Session) (p : Problem) :
    Step s (.noted p) { s with problems := s.problems.add p }
  | prepared {s : Session} {path : Path} {files : FileTree} (hpath : s.problems.path = some path)
    (h : s.files.makeDirectories path.parent = .ok files) :
    Step s .prepared { s with files := files }
  | listed {s : Session} {p : Problem} {path : Path} {files : FileTree}
    (hpath : s.problems.path = some path)
    (h : s.files.append path (Charset.Utf8.bytesOf (p.toText ++ "\n")) = .ok files) :
    Step s (.listed p) { s with files := files }
  | made {s : Session} {path : Path} {files : FileTree}
    (h : s.files.makeDirectories path = .ok files) : Step s (.made path) { s with files := files }
  | wrote {s : Session} {path : Path} {text : String} {files : FileTree}
    (h : s.files.write path (Charset.Utf8.bytesOf text) = .ok files) :
    Step s (.wrote path text) { s with files := files }

/-- A run of changes. -/
inductive Trace : Session → List Change → Session → Prop where
  | nil (s : Session) : Trace s [] s
  | cons {s t u : Session} {c : Change} {cs : List Change} (hstep : Step s c t)
    (hrest : Trace t cs u) : Trace s (c :: cs) u

/-- The paths of the log files and of the file that lists the problems. -/
def NotesIn (s : Session) (p : Path) : Prop :=
  s.problems.path = some p ∨ ∃ o ∈ s.journal.outlets, o.sink = .file p

/-- No log record and no problem is written to the file of a path. -/
def Avoids (s : Session) (q : Path) : Prop :=
  ∀ p, s.NotesIn p → FileTree.Apart p q

variable {s t u : Session} {c : Change} {cs cs' : List Change} {q : Path} {bytes : List UInt8}

theorem Step.outlets (h : Step s c t) : t.journal.outlets = s.journal.outlets := by
  cases h <;> rfl

theorem Step.problemsPath (h : Step s c t) : t.problems.path = s.problems.path := by
  cases h <;> rfl

theorem Step.entries (h : Step s c t) :
    t.problems.entries = s.problems.entries ++ c.problem?.toList := by
  cases h with
  | noted p => rfl
  | _ => exact (List.append_nil _).symm

theorem Step.find?_lines (h : Step s c t) {path : WideText}
    {known : WideText × List (List Char)}
    (hknown : s.lines.find? (·.1 == path) = some known) :
    t.lines.find? (·.1 == path) = some known := by
  cases h with
  | remembered other ls =>
    show (s.lines ++ [(other, ls)]).find? _ = _
    rw [List.find?_append, hknown]
    rfl
  | _ => exact hknown

theorem Step.avoids (h : Step s c t) (hq : s.Avoids q) : t.Avoids q := by
  intro p hp
  rw [NotesIn, h.outlets, h.problemsPath] at hp
  exact hq p hp

/-- A step leaves a file as it is that it does not write. -/
theorem Step.read (h : Step s c t) (hq : s.Avoids q)
    (hwriting : ∀ w, c.writing? = some w → FileTree.Apart w.1 q)
    (hread : s.files.read q = .ok bytes) : t.files.read q = .ok bytes := by
  cases h with
  | logged r =>
    exact Journal.read_deliver (fun o ho p hp => hq p (Or.inr ⟨o, ho, hp⟩)) hread
  | remembered path ls => exact hread
  | noted p => exact hread
  | prepared hpath hmake => exact (FileTree.extends_makeDirectories hmake).read hread
  | listed hpath happend => exact FileTree.read_of_append (hq _ (Or.inl hpath)) happend hread
  | made hmake => exact (FileTree.extends_makeDirectories hmake).read hread
  | wrote hwrite =>
    obtain ⟨key, htarget, rfl⟩ := FileTree.write_eq_ok hwrite
    exact FileTree.read_put_of_apart (hwriting _ rfl) htarget hread

/-! ## Runs -/

theorem Step.trace (h : Step s c t) : Trace s [c] t := .cons h (.nil t)

theorem Trace.append (h : Trace s cs t) (h' : Trace t cs' u) : Trace s (cs ++ cs') u := by
  induction h with
  | nil => exact h'
  | cons hstep _ ih => exact .cons hstep (ih h')

theorem Trace.problemsPath (h : Trace s cs t) : t.problems.path = s.problems.path := by
  induction h with
  | nil => rfl
  | cons hstep _ ih => exact ih.trans hstep.problemsPath

theorem Trace.entries (h : Trace s cs t) :
    t.problems.entries = s.problems.entries ++ cs.filterMap Change.problem? := by
  induction h with
  | nil => exact (List.append_nil _).symm
  | @cons s t u c cs hstep _ ih =>
    rw [ih, hstep.entries, List.append_assoc]
    cases hc : c.problem? with
    | none => rw [List.filterMap_cons_none hc]; rfl
    | some p => rw [List.filterMap_cons_some hc]; rfl

theorem Trace.find?_lines (h : Trace s cs t) {path : WideText}
    {known : WideText × List (List Char)}
    (hknown : s.lines.find? (·.1 == path) = some known) :
    t.lines.find? (·.1 == path) = some known := by
  induction h with
  | nil => exact hknown
  | cons hstep _ ih => exact ih (hstep.find?_lines hknown)

/-- A run leaves a file as it is that it does not write. -/
theorem Trace.read (h : Trace s cs t) (hq : s.Avoids q)
    (hwritings : ∀ w ∈ cs.filterMap Change.writing?, FileTree.Apart w.1 q)
    (hread : s.files.read q = .ok bytes) : t.files.read q = .ok bytes := by
  induction h with
  | nil => exact hread
  | @cons s t u c cs hstep _ ih =>
    refine ih (hstep.avoids hq) (fun w hw => hwritings w ?_) (hstep.read hq (fun w hw => ?_) hread)
    · exact List.mem_filterMap.2
        ((List.mem_filterMap.1 hw).imp fun _ h => ⟨List.mem_cons_of_mem _ h.1, h.2⟩)
    · exact hwritings w (List.mem_filterMap.2 ⟨c, List.mem_cons_self, hw⟩)

/-- A run leads from one session to another that notes these problems and writes these files. -/
def Reaches (s : Session) (problems : List Problem) (writings : List (Path × String))
    (t : Session) : Prop :=
  ∃ cs, Trace s cs t ∧ cs.filterMap Change.problem? = problems
    ∧ cs.filterMap Change.writing? = writings

section Reaches

variable {problems problems' : List Problem} {writings writings' : List (Path × String)}

theorem Reaches.refl (s : Session) : s.Reaches [] [] s := ⟨[], .nil s, rfl, rfl⟩

theorem Reaches.trans (h : s.Reaches problems writings t)
    (h' : t.Reaches problems' writings' u) :
    s.Reaches (problems ++ problems') (writings ++ writings') u := by
  obtain ⟨cs, htrace, rfl, rfl⟩ := h
  obtain ⟨cs', htrace', rfl, rfl⟩ := h'
  exact ⟨cs ++ cs', htrace.append htrace', List.filterMap_append, List.filterMap_append⟩

theorem reaches_log (s : Session) (r : Record) : s.Reaches [] [] (s.log r) :=
  ⟨_, (Step.logged s r).trace, rfl, rfl⟩

/-- A record at the end of a run changes nothing of what the run noted and wrote. -/
theorem Reaches.log (h : s.Reaches problems writings t) (r : Record) :
    s.Reaches problems writings (t.log r) := by
  have hlog := h.trans (reaches_log t r)
  rwa [List.append_nil, List.append_nil] at hlog

theorem Reaches.entries (h : s.Reaches problems writings t) :
    t.problems.entries = s.problems.entries ++ problems := by
  obtain ⟨cs, htrace, rfl, -⟩ := h
  exact htrace.entries

end Reaches

end Session

/-! ## Operations that returned -/

namespace Act

variable {α β : Type} {act : Act α} {a : α} {b : β} {s t : Session}

theorem bind_eq_ok {next : α → Act β} :
    (act >>= next) s = .ok b t ↔ ∃ a u, act s = .ok a u ∧ next a u = .ok b t := by
  constructor
  · intro h
    cases hact : act s with
    | ok a u => exact ⟨a, u, rfl, (bind_ok hact next).symm.trans h⟩
    | error e u => cases (bind_error hact next).symm.trans h
  · rintro ⟨a, u, hact, hnext⟩
    exact (bind_ok hact next).trans hnext

theorem bind_eq_error {next : α → Act β} {e : Failure} (h : (act >>= next) s = .error e t) :
    act s = .error e t ∨ ∃ a u, act s = .ok a u ∧ next a u = .error e t := by
  cases hact : act s with
  | ok a u => exact Or.inr ⟨a, u, rfl, (bind_ok hact next).symm.trans h⟩
  | error e' u =>
    rw [bind_error hact] at h
    cases h
    exact Or.inl rfl

theorem attempt_eq_ok {r : Except Failure α} :
    act.attempt s = .ok r t ↔
      (∃ a, r = .ok a ∧ act s = .ok a t) ∨ ∃ e, r = .error e ∧ act s = .error e t := by
  rw [attempt]
  cases act s with
  | ok a u =>
    constructor
    · rintro ⟨⟩
      exact Or.inl ⟨a, rfl, rfl⟩
    · rintro (⟨_, rfl, ⟨⟩⟩ | ⟨_, _, ⟨⟩⟩)
      rfl
  | error e u =>
    constructor
    · rintro ⟨⟩
      exact Or.inr ⟨e, rfl, rfl⟩
    · rintro (⟨_, _, ⟨⟩⟩ | ⟨_, rfl, ⟨⟩⟩)
      rfl

/-- An operation that was tried returned, or it was refused and its handler returned. -/
theorem onRefusal_eq_ok {handle : FileFault → Act α} (h : act.onRefusal handle s = .ok a t) :
    act s = .ok a t
      ∨ ∃ fault u, act s = .error (.file fault) u ∧ handle fault u = .ok a t := by
  obtain ⟨r, u, hattempt, hnext⟩ := bind_eq_ok.1 h
  rcases attempt_eq_ok.1 hattempt with ⟨b, rfl, hact⟩ | ⟨e, rfl, hact⟩
  · cases hnext
    exact Or.inl hact
  · cases e with
    | file fault =>
      simp only at hnext
      split at hnext
      · cases hnext
      · exact Or.inr ⟨fault, u, hact, hnext⟩
    | _ => cases hnext

theorem changeFiles_eq_ok {change : FileTree → Except FileFault FileTree}
    (h : changeFiles change s = .ok () t) :
    ∃ files, change s.files = .ok files ∧ t = { s with files := files } := by
  rw [changeFiles] at h
  split at h
  · rename_i files hfiles
    cases h
    exact ⟨files, hfiles, rfl⟩
  · cases h

theorem changeFiles_eq_error {change : FileTree → Except FileFault FileTree} {e : Failure}
    (h : changeFiles change s = .error e t) : t = s := by
  rw [changeFiles] at h
  split at h
  · cases h
  · cases h
    rfl

/-- The work of a stage that returned has returned the same, between two log records. -/
theorem stage_eq_ok {name phase : String} {context : List (String × String)}
    (h : stage name phase context act s = .ok a t) :
    ∃ u r, act (s.log ⟨.info, phase, "[시작] " ++ name ++ contextText context⟩) = .ok a u
      ∧ t = u.log r := by
  rw [stage, bind_ok (log_ok _ _ _ s)] at h
  obtain ⟨r, u, hattempt, hnext⟩ := bind_eq_ok.1 h
  rcases attempt_eq_ok.1 hattempt with ⟨b, rfl, hact⟩ | ⟨e, rfl, hact⟩
  · rw [bind_ok (get_ok u)] at hnext
    obtain ⟨_, v, hlog, hpure⟩ := bind_eq_ok.1 hnext
    cases hlog
    cases hpure
    exact ⟨u, _, hact, rfl⟩
  · rw [bind_ok (get_ok u)] at hnext
    obtain ⟨_, v, hlog, hthrow⟩ := bind_eq_ok.1 hnext
    cases hthrow

/-! ## Operations that make changes of one kind -/

/-- The session after an operation, whether it returned or failed. -/
def after (act : Act α) (s : Session) : Session :=
  match act s with
  | .ok _ t => t
  | .error _ t => t

theorem after_of_ok (h : act s = .ok a t) : act.after s = t := by
  rw [after, h]

theorem after_of_error {e : Failure} (h : act s = .error e t) : act.after s = t := by
  rw [after, h]

/-- However the operation ends, it makes changes of one kind only. -/
def Makes (allowed : Change → Prop) (act : Act α) : Prop :=
  ∀ s : Session, ∃ cs, s.Trace cs (act.after s) ∧ ∀ c ∈ cs, allowed c

section Makes

variable {allowed : Change → Prop}

/-- An operation that leaves the session as it is. -/
theorem makes_of_after_eq (h : ∀ s, act.after s = s) : Makes allowed act := by
  intro s
  rw [h s]
  exact ⟨[], .nil s, fun c hc => absurd hc List.not_mem_nil⟩

theorem makes_pure (a : α) : Makes allowed (pure a : Act α) := makes_of_after_eq fun _ => rfl

theorem makes_throw (e : Failure) : Makes allowed (throw e : Act α) :=
  makes_of_after_eq fun _ => rfl

theorem makes_get : Makes allowed (get : Act Session) := makes_of_after_eq fun _ => rfl

theorem makes_ofExcept {ε : Type} (wrap : ε → Failure) (r : Except ε α) :
    Makes allowed (ofExcept wrap r) :=
  makes_of_after_eq fun s => by cases r <;> rfl

theorem makes_askFiles (ask : FileTree → Except FileFault α) : Makes allowed (askFiles ask) :=
  makes_of_after_eq fun s => by
    cases h : ask s.files with
    | ok a => exact after_of_ok (askFiles_ok h)
    | error e => exact after_of_error (askFiles_error h)

theorem makes_log (hlog : ∀ r, allowed (.logged r)) (severity : Severity)
    (phase message : String) : Makes allowed (Act.log severity phase message) := by
  intro s
  refine ⟨_, (Session.Step.logged s ⟨severity, phase, message⟩).trace, fun c hc => ?_⟩
  rw [List.mem_singleton.1 hc]
  exact hlog _

theorem Makes.bind {next : α → Act β} (h : Makes allowed act)
    (hnext : ∀ a, Makes allowed (next a)) : Makes allowed (act >>= next) := by
  intro s
  obtain ⟨cs, htrace, hcs⟩ := h s
  cases hact : act s with
  | error e t =>
    rw [after_of_error hact] at htrace
    rw [after_of_error (bind_error hact next)]
    exact ⟨cs, htrace, hcs⟩
  | ok a t =>
    rw [after_of_ok hact] at htrace
    obtain ⟨cs', htrace', hcs'⟩ := hnext a t
    have hafter : (act >>= next).after s = (next a).after t := by
      rw [after, bind_ok hact, after]
    rw [hafter]
    exact ⟨cs ++ cs', htrace.append htrace', fun c hc =>
      (List.mem_append.1 hc).elim (hcs c) (hcs' c)⟩

theorem Makes.attempt (h : Makes allowed act) : Makes allowed act.attempt := by
  intro s
  have hafter : act.attempt.after s = act.after s := by
    cases hact : act s with
    | ok a t => rw [after_of_ok hact, after_of_ok (attempt_ok hact)]
    | error e t => rw [after_of_error hact, after_of_ok (attempt_error hact)]
  rw [hafter]
  exact h s

theorem Makes.onRefusal {handle : FileFault → Act α} (h : Makes allowed act)
    (hhandle : ∀ fault, Makes allowed (handle fault)) : Makes allowed (act.onRefusal handle) := by
  refine h.attempt.bind fun r => ?_
  split
  · exact makes_pure _
  · split
    · exact makes_throw _
    · exact hhandle _
  · exact makes_throw _

theorem makes_forM {items : List α} {act : α → Act Unit} (h : ∀ x, Makes allowed (act x)) :
    Makes allowed (items.forM act) := by
  induction items with
  | nil => exact makes_pure ()
  | cons x items ih => exact (h x).bind fun _ => ih

/-- Reading notes no problems and writes no files. -/
theorem Makes.reaches (h : Makes Change.IsQuiet act) (s : Session) :
    s.Reaches [] [] (act.after s) := by
  obtain ⟨cs, htrace, hcs⟩ := h s
  exact ⟨cs, htrace, List.filterMap_eq_nil_iff.2 fun c hc => (hcs c hc).problem?,
    List.filterMap_eq_nil_iff.2 fun c hc => (hcs c hc).writing?⟩

theorem Makes.reaches_of_ok (h : Makes Change.IsQuiet act) (hok : act s = .ok a t) :
    s.Reaches [] [] t := by
  have hreaches := h.reaches s
  rwa [after_of_ok hok] at hreaches

end Makes

/-! ## Problems -/

/-- A problem goes to the list, and then its line goes to the file, or a record says that it could
not be written there. -/
theorem trace_of_report {kind : ProblemKind} {message : String}
    (h : report kind message s = .ok () t) :
    ∃ cs, s.Trace cs t ∧ cs.filterMap Change.problem? = [⟨kind, message⟩]
      ∧ ∀ c ∈ cs, c.IsNote := by
  have hnoted := Session.Step.noted s ⟨kind, message⟩
  rw [report, bind_ok (modify_ok _ s), bind_ok (get_ok _)] at h
  generalize { s with problems := s.problems.add ⟨kind, message⟩ } = u at h hnoted
  cases hpath : u.problems.path with
  | none =>
    simp only [hpath] at h
    cases h
    exact ⟨_, hnoted.trace, rfl, by simp [Change.IsNote]⟩
  | some path =>
    simp only [hpath] at h
    -- What is done behind the list: the directory, the line, and a record if one was refused.
    obtain ⟨cs, htrace, hcs⟩ : ∃ cs, u.Trace cs t ∧ ∀ c ∈ cs, c.IsNote ∧ c.problem? = none := by
      rcases onRefusal_eq_ok h with hact | ⟨fault, v, hact, hlog⟩
      · obtain ⟨_, v, hfirst, hsecond⟩ := bind_eq_ok.1 hact
        obtain ⟨files, hmake, rfl⟩ := changeFiles_eq_ok hfirst
        obtain ⟨files', happend, rfl⟩ := changeFiles_eq_ok hsecond
        have hlisted := Session.Step.listed (p := ⟨kind, message⟩)
          (s := { u with files := files }) hpath happend
        refine ⟨_, .cons (.prepared hpath hmake) hlisted.trace, ?_⟩
        simp [Change.IsNote, Change.problem?]
      · rw [log_ok] at hlog
        cases hlog
        cases hmake : makeDirectories path.parent u with
        | error e w =>
          rw [bind_error hmake] at hact
          cases hact
          cases changeFiles_eq_error hmake
          refine ⟨_, (Session.Step.logged _ _).trace, ?_⟩
          simp [Change.IsNote, Change.problem?]
        | ok a w =>
          rw [bind_ok hmake] at hact
          obtain ⟨files, hfiles, rfl⟩ := changeFiles_eq_ok hmake
          cases changeFiles_eq_error hact
          refine ⟨_, .cons (.prepared hpath hfiles) (Session.Step.logged _ _).trace, ?_⟩
          simp [Change.IsNote, Change.problem?]
    refine ⟨_, .cons hnoted htrace, ?_, ?_⟩
    · have hnone : cs.filterMap Change.problem? = [] :=
        List.filterMap_eq_nil_iff.2 fun c hc => (hcs c hc).2
      show ⟨kind, message⟩ :: cs.filterMap Change.problem? = _
      rw [hnone]
    · intro c hc
      rcases List.mem_cons.1 hc with rfl | hc
      · trivial
      · exact (hcs c hc).1

theorem reaches_of_report {kind : ProblemKind} {message : String}
    (h : report kind message s = .ok () t) : s.Reaches [⟨kind, message⟩] [] t := by
  obtain ⟨cs, htrace, hproblems, hcs⟩ := trace_of_report h
  exact ⟨cs, htrace, hproblems, List.filterMap_eq_nil_iff.2 fun c hc => (hcs c hc).writing?⟩

end Act

end StructAtlas
