import StructAtlas.Logging
import StructAtlas.Proofs.SessionTrace

set_option autoImplicit false

/-!
# Outlets that are kept track of

The journal remembers the numbers of its outlets for log files and the number of its console outlet.
`Journal.IsOrderly` says that the remembered files are the outlets for files that are there, oldest
first, and that no outlet but the remembered one goes to the console. Every operation of the log
keeps a journal orderly, whether it returns or fails (`Logging.isOrderly_afterAll`).

Setting up the log files removes the remembered outlets, and in an orderly journal they are all
there. So it never fails for an outlet that is gone, and if it returns there are three outlets for
files (`Logging.file_outlets_are_tracked`).
-/

namespace StructAtlas

/-! ## Operations that return or fail -/

namespace Act

variable {α β : Type} {P : Session → Prop} {act : Act α} {Q : α → Session → Prop}
  {E : Failure → Session → Prop}

/-- From every session of a kind the operation returns with a session of a second kind, or it fails
with one of a third kind. -/
def Ends (P : Session → Prop) (act : Act α) (Q : α → Session → Prop)
    (E : Failure → Session → Prop) : Prop :=
  ∀ s, P s → (∃ a t, act s = .ok a t ∧ Q a t) ∨ ∃ e t, act s = .error e t ∧ E e t

theorem ends_pure {a : α} (h : ∀ s, P s → Q a s) : Ends P (pure a) Q E := fun s hs =>
  Or.inl ⟨a, s, rfl, h s hs⟩

theorem ends_modify {f : Session → Session} {Q : Unit → Session → Prop}
    (h : ∀ s, P s → Q () (f s)) : Ends P (modify f) Q E := fun s hs =>
  Or.inl ⟨(), f s, modify_ok f s, h s hs⟩

/-- A result is handed on, and the session stays as it is. -/
theorem ends_ofExcept {ε : Type} {wrap : ε → Failure} {r : Except ε α}
    (hok : ∀ a s, r = .ok a → P s → Q a s) (herror : ∀ e s, r = .error e → P s → E (wrap e) s) :
    Ends P (ofExcept wrap r) Q E := by
  intro s hs
  cases hr : r with
  | ok a => exact Or.inl ⟨a, s, rfl, hok a s hr hs⟩
  | error e => exact Or.inr ⟨wrap e, s, rfl, herror e s hr hs⟩

theorem Ends.bind {next : α → Act β} {R : β → Session → Prop} (h : Ends P act Q E)
    (hnext : ∀ a, Ends (Q a) (next a) R E) : Ends P (act >>= next) R E := by
  intro s hs
  rcases h s hs with ⟨a, t, hact, ht⟩ | ⟨e, t, hact, ht⟩
  · rw [bind_ok hact]
    exact hnext a t ht
  · exact Or.inr ⟨e, t, bind_error hact next, ht⟩

/-- Whether an operation returns. -/
def succeeds (act : Act α) (s : Session) : Bool :=
  match act s with
  | .ok _ _ => true
  | .error _ _ => false

theorem ne_error_of_succeeds {s t : Session} (h : succeeds act s = true) (e : Failure) :
    act s ≠ .error e t := by
  intro herror
  rw [succeeds, herror] at h
  cases h

/-- What holds of the session in both cases holds after the operation. -/
theorem Ends.after {I : Session → Prop} (h : Ends P act Q E) {s : Session} (hs : P s)
    (hQ : ∀ a t, Q a t → I t) (hE : ∀ e t, E e t → I t) : I (act.after s) := by
  rcases h s hs with ⟨a, t, hact, ht⟩ | ⟨e, t, hact, ht⟩
  · rw [after_of_ok hact]
    exact hQ a t ht
  · rw [after_of_error hact]
    exact hE e t ht

/-- It makes no difference to the session that the value of an operation is not used. -/
theorem after_ignore (act : Act α) (s : Session) :
    (do let _ ← act : Act Unit).after s = act.after s := by
  cases hact : act s with
  | ok a t => rw [after, after, bind_ok hact, hact]; rfl
  | error e t => rw [after, after, bind_error hact, hact]

/-- Operations on files change nothing of the journal, whether they are refused or not. -/
theorem ends_changeFiles {P : Journal → Prop} {E : Failure → Session → Prop}
    {change : FileTree → Except FileFault FileTree}
    (herror : ∀ fault s, P s.journal → E (.file fault) s) :
    Ends (fun s => P s.journal) (changeFiles change) (fun _ s => P s.journal) E := by
  intro s hs
  cases hchange : change s.files with
  | ok files => exact Or.inl ⟨(), _, changeFiles_ok hchange, hs⟩
  | error fault =>
    refine Or.inr ⟨.file fault, s, ?_, herror fault s hs⟩
    rw [changeFiles, hchange]

end Act

/-! ## Numbers of outlets -/

namespace Outlet

/-- Whether an outlet goes to a file. -/
def isFile (o : Outlet) : Bool :=
  match o.sink with
  | .file _ => true
  | _ => false

/-- Whether an outlet goes to the console. -/
def isConsole (o : Outlet) : Bool :=
  o.sink == .console

theorem isFile_of_isConsole {o : Outlet} (h : o.isConsole = true) : o.isFile = false := by
  rw [isFile, eq_of_beq h]

end Outlet

namespace Journal

variable {j : Journal} {id : Nat}

/-- The numbers of the outlets of a kind, oldest first. -/
def numbers (j : Journal) (kind : Outlet → Bool) : List Nat :=
  (j.outlets.filter kind).map (·.id)

/-- The numbers of the outlets for log files. -/
def liveFiles (j : Journal) : List Nat :=
  j.numbers Outlet.isFile

/-- The numbers of the outlets for the console. -/
def liveConsoles (j : Journal) : List Nat :=
  j.numbers Outlet.isConsole

theorem mem_numbers {kind : Outlet → Bool} :
    id ∈ j.numbers kind ↔ ∃ o ∈ j.outlets, kind o = true ∧ o.id = id := by
  simp [numbers, and_assoc]

theorem isLive_iff : j.isLive id = true ↔ ∃ o ∈ j.outlets, o.id = id := by
  simp [isLive]

theorem isLive_of_mem_numbers {kind : Outlet → Bool} (h : id ∈ j.numbers kind) :
    j.isLive id = true := by
  obtain ⟨o, ho, -, hid⟩ := mem_numbers.1 h
  exact isLive_iff.2 ⟨o, ho, hid⟩

theorem numbers_remove (kind : Outlet → Bool) (j : Journal) (id : Nat) :
    (j.remove id).numbers kind = (j.numbers kind).filter (· != id) := by
  rw [numbers, numbers, remove, List.filter_map, List.filter_filter, List.filter_filter]
  congr 1
  exact List.filter_congr fun o _ => Bool.and_comm _ _

theorem numbers_remove_of_not_mem {kind : Outlet → Bool} (h : id ∉ j.numbers kind) :
    (j.remove id).numbers kind = j.numbers kind := by
  rw [numbers_remove, List.filter_eq_self]
  intro n hn
  refine bne_iff_ne.2 ?_
  rintro rfl
  exact h hn

theorem numbers_add (kind : Outlet → Bool) (j : Journal) (id threshold : Nat)
    (phase : Option String) (sink : Sink) :
    (j.add id threshold phase sink).numbers kind
      = j.numbers kind ++ if kind ⟨id, threshold, phase, sink⟩ then [id] else [] := by
  rw [numbers, add, List.filter_append, List.map_append, List.filter_cons]
  congr 1
  split <;> rfl

theorem liveFiles_openFile (j : Journal) (id : Nat) (severity : Severity) (phase : Option String)
    (path : Path) : (j.openFile id severity phase path).liveFiles = j.liveFiles ++ [id] :=
  numbers_add Outlet.isFile j id severity.rank phase (.file path)

theorem liveConsoles_openFile (j : Journal) (id : Nat) (severity : Severity)
    (phase : Option String) (path : Path) :
    (j.openFile id severity phase path).liveConsoles = j.liveConsoles :=
  (numbers_add Outlet.isConsole j id severity.rank phase (.file path)).trans (List.append_nil _)

theorem liveFiles_openConsole (j : Journal) (id : Nat) (severity : Severity) :
    (j.openConsole id severity).liveFiles = j.liveFiles :=
  (numbers_add Outlet.isFile j id severity.rank none .console).trans (List.append_nil _)

theorem liveConsoles_openConsole (j : Journal) (id : Nat) (severity : Severity) :
    (j.openConsole id severity).liveConsoles = j.liveConsoles ++ [id] :=
  numbers_add Outlet.isConsole j id severity.rank none .console

/-! ## Orderly journals -/

/-- The numbers of outlets grow, and the console outlet is the remembered one. -/
structure IsNumbered (j : Journal) : Prop where
  ascending : (j.outlets.map (·.id)).Pairwise (· < ·)
  fresh : ∀ o ∈ j.outlets, o.id < j.nextId
  console : ∀ o ∈ j.outlets, o.isConsole = true → j.consoleId = some o.id
  reserved : ∀ id, j.consoleId = some id →
    id < j.nextId ∧ ∀ o ∈ j.outlets, o.id = id → o.isConsole = true

/-- The journal remembers exactly the outlets for files that are there. -/
structure IsOrderly (j : Journal) : Prop extends IsNumbered j where
  files : j.fileIds = j.liveFiles

/-- A number is taken, and no outlet that is or was there has a number as large. -/
structure Reserves (j : Journal) (id : Nat) : Prop where
  taken : id < j.nextId
  outlets : ∀ o ∈ j.outlets, o.id < id
  console : ∀ old, j.consoleId = some old → old < id

theorem isOrderly_empty (stamps : Stamps) : (empty stamps).IsOrderly :=
  ⟨⟨.nil, by simp [empty], by simp [empty], by simp [empty]⟩, rfl⟩

theorem IsNumbered.pairwise_numbers (h : j.IsNumbered) (kind : Outlet → Bool) :
    (j.numbers kind).Pairwise (· < ·) :=
  h.ascending.sublist (List.filter_sublist.map _)

theorem IsNumbered.remove (h : j.IsNumbered) (id : Nat) : (j.remove id).IsNumbered := by
  have hsub : (j.remove id).outlets.Sublist j.outlets := List.filter_sublist
  exact ⟨h.ascending.sublist (hsub.map _), fun o ho => h.fresh o (hsub.subset ho),
    fun o ho => h.console o (hsub.subset ho),
    fun id hid => ⟨(h.reserved id hid).1, fun o ho => (h.reserved id hid).2 o (hsub.subset ho)⟩⟩

theorem IsNumbered.takeNumber (h : j.IsNumbered) : j.takeNumber.IsNumbered :=
  ⟨h.ascending, fun o ho => Nat.lt_succ_of_lt (h.fresh o ho), h.console,
    fun id hid => ⟨Nat.lt_succ_of_lt (h.reserved id hid).1, (h.reserved id hid).2⟩⟩

theorem IsNumbered.reserves (h : j.IsNumbered) : j.takeNumber.Reserves j.nextId :=
  ⟨Nat.lt_succ_self _, h.fresh, fun old hold => (h.reserved old hold).1⟩

/-- The numbers stay in order when an outlet is added. -/
theorem pairwise_add (h : j.IsNumbered) (hid : j.Reserves id) (threshold : Nat)
    (phase : Option String) (sink : Sink) :
    ((j.add id threshold phase sink).outlets.map (·.id)).Pairwise (· < ·)
      ∧ ∀ o ∈ (j.add id threshold phase sink).outlets, o.id < j.nextId := by
  rw [add, List.map_append, List.pairwise_append]
  refine ⟨⟨h.ascending, List.pairwise_singleton _ _, ?_⟩, ?_⟩
  · intro a ha b hb
    obtain ⟨o, ho, rfl⟩ := List.mem_map.1 ha
    obtain rfl := List.mem_singleton.1 hb
    exact hid.outlets o ho
  · intro o ho
    rcases List.mem_append.1 ho with ho | ho
    · exact h.fresh o ho
    · obtain rfl := List.mem_singleton.1 ho
      exact hid.taken

theorem IsNumbered.openFile (h : j.IsNumbered) (hid : j.Reserves id) (severity : Severity)
    (phase : Option String) (path : Path) : (j.openFile id severity phase path).IsNumbered := by
  obtain ⟨hascending, hfresh⟩ := pairwise_add h hid severity.rank phase (.file path)
  refine ⟨hascending, hfresh, ?_, ?_⟩
  · intro o ho hconsole
    rcases List.mem_append.1 ho with ho | ho
    · exact h.console o ho hconsole
    · obtain rfl := List.mem_singleton.1 ho
      cases hconsole
  · intro old hold
    obtain ⟨hlt, honly⟩ := h.reserved old hold
    refine ⟨hlt, ?_⟩
    intro o ho hsame
    rcases List.mem_append.1 ho with ho | ho
    · exact honly o ho hsame
    · -- The new outlet has a number that no outlet had before.
      obtain rfl := List.mem_singleton.1 ho
      exact absurd (hid.console old hold) (hsame ▸ Nat.lt_irrefl _)

theorem IsNumbered.openConsole (h : j.IsNumbered) (hnone : j.liveConsoles = [])
    (hid : j.Reserves id) (severity : Severity) : (j.openConsole id severity).IsNumbered := by
  obtain ⟨hascending, hfresh⟩ := pairwise_add h hid severity.rank none .console
  refine ⟨hascending, hfresh, ?_, ?_⟩
  · intro o ho hconsole
    rcases List.mem_append.1 ho with ho | ho
    · have hmem : o.id ∈ j.liveConsoles := mem_numbers.2 ⟨o, ho, hconsole, rfl⟩
      rw [hnone] at hmem
      cases hmem
    · obtain rfl := List.mem_singleton.1 ho
      rfl
  · intro new hnew
    obtain rfl := Option.some.inj hnew
    refine ⟨hid.taken, ?_⟩
    intro o ho hsame
    rcases List.mem_append.1 ho with ho | ho
    · exact absurd (hid.outlets o ho) (hsame ▸ Nat.lt_irrefl _)
    · obtain rfl := List.mem_singleton.1 ho
      rfl

theorem IsOrderly.takeNumber (h : j.IsOrderly) : j.takeNumber.IsOrderly :=
  ⟨h.toIsNumbered.takeNumber, h.files⟩

theorem IsOrderly.openFile (h : j.IsOrderly) (hid : j.Reserves id) (severity : Severity)
    (phase : Option String) (path : Path) : (j.openFile id severity phase path).IsOrderly := by
  refine ⟨h.toIsNumbered.openFile hid severity phase path, ?_⟩
  rw [liveFiles_openFile, ← h.files]
  rfl

/-- A record changes nothing of the outlets. -/
theorem IsOrderly.push (h : j.IsOrderly) (r : Record) : (j.push r).IsOrderly :=
  ⟨⟨h.ascending, h.fresh, h.console, h.reserved⟩, h.files⟩

/-- The remembered console outlet is the only one, if it is there. -/
theorem IsNumbered.liveConsoles_eq (h : j.IsNumbered) (hid : j.consoleId = some id) :
    j.liveConsoles = if j.isLive id then [id] else [] := by
  have hall : ∀ n ∈ j.liveConsoles, n = id := by
    intro n hn
    obtain ⟨o, ho, hconsole, rfl⟩ := mem_numbers.1 hn
    exact Option.some.inj ((h.console o ho hconsole).symm.trans hid)
  have hascending : j.liveConsoles.Pairwise (· < ·) := h.pairwise_numbers Outlet.isConsole
  split
  · rename_i hlive
    obtain ⟨o, ho, hsame⟩ := isLive_iff.1 hlive
    have hmem : id ∈ j.liveConsoles :=
      mem_numbers.2 ⟨o, ho, (h.reserved id hid).2 o ho hsame, hsame⟩
    -- All numbers are the remembered one, and no number is there twice.
    rcases hlist : j.liveConsoles with _ | ⟨n, _ | ⟨m, rest⟩⟩
    · rw [hlist] at hmem
      cases hmem
    · rw [hlist] at hall
      rw [hall n List.mem_cons_self]
    · rw [hlist] at hall hascending
      have hn := hall n List.mem_cons_self
      have hm := hall m (List.mem_cons_of_mem _ List.mem_cons_self)
      have hlt := List.rel_of_pairwise_cons hascending (List.mem_cons_self (a := m))
      omega
  · rename_i hgone
    refine List.eq_nil_iff_forall_not_mem.2 fun n hn => hgone ?_
    rw [← hall n hn]
    exact isLive_of_mem_numbers hn

/-- Without a remembered number there is no outlet for the console. -/
theorem IsNumbered.liveConsoles_of_none (h : j.IsNumbered) (hnone : j.consoleId = none) :
    j.liveConsoles = [] := by
  refine List.eq_nil_iff_forall_not_mem.2 fun n hn => ?_
  obtain ⟨o, ho, hconsole, -⟩ := mem_numbers.1 hn
  cases hnone.symm.trans (h.console o ho hconsole)

theorem IsNumbered.not_mem_liveFiles (h : j.IsNumbered) (hid : j.consoleId = some id) :
    id ∉ j.liveFiles := by
  intro hmem
  obtain ⟨o, ho, hfile, rfl⟩ := mem_numbers.1 hmem
  have hconsole := (h.reserved _ hid).2 o ho rfl
  cases hfile.symm.trans (Outlet.isFile_of_isConsole hconsole)

theorem IsNumbered.not_mem_liveConsoles (h : j.IsNumbered) (hfile : id ∈ j.liveFiles) :
    id ∉ j.liveConsoles := by
  intro hmem
  obtain ⟨o, ho, hconsole, rfl⟩ := mem_numbers.1 hmem
  exact h.not_mem_liveFiles (h.console o ho hconsole) hfile

/-- Removing the remembered console outlet touches no log file. -/
theorem IsOrderly.removeConsole (h : j.IsOrderly) (hid : j.consoleId = some id) :
    (j.remove id).IsOrderly ∧ (j.remove id).liveConsoles = [] := by
  refine ⟨⟨h.toIsNumbered.remove id, ?_⟩, ?_⟩
  · rw [liveFiles, numbers_remove_of_not_mem (h.not_mem_liveFiles hid)]
    exact h.files
  · rw [liveConsoles, numbers_remove]
    refine List.filter_eq_nil_iff.2 fun n hn => ?_
    obtain ⟨o, ho, hconsole, rfl⟩ := mem_numbers.1 hn
    have hsame := Option.some.inj ((h.console o ho hconsole).symm.trans hid)
    simp [hsame]

/-- Removing the last log file leaves those before it and the console. -/
theorem IsNumbered.removeLast (h : j.IsNumbered) {ids : List Nat}
    (hlive : j.liveFiles = ids ++ [id]) :
    (j.remove id).liveFiles = ids ∧ (j.remove id).liveConsoles = j.liveConsoles := by
  have hmem : id ∈ j.liveFiles := by simp [hlive]
  have hascending : j.liveFiles.Pairwise (· < ·) := h.pairwise_numbers Outlet.isFile
  refine ⟨?_, numbers_remove_of_not_mem (h.not_mem_liveConsoles hmem)⟩
  -- Its number is the largest one, so no number before it is removed.
  rw [hlive, List.pairwise_append] at hascending
  have hkept : ids.filter (· != id) = ids := by
    refine List.filter_eq_self.2 fun n hn => ?_
    exact bne_iff_ne.2 (Nat.ne_of_lt (hascending.2.2 n hn id List.mem_cons_self))
  rw [liveFiles, numbers_remove, ← liveFiles, hlive, List.filter_append, hkept]
  simp

/-- An orderly journal that remembers a number for the console and has these console outlets. -/
structure HasConsoles (j : Journal) (remembered : Option Nat) (ids : List Nat) : Prop
    extends IsOrderly j where
  remembers : j.consoleId = remembered
  consoles : j.liveConsoles = ids

theorem IsOrderly.hasConsoles (h : j.IsOrderly) : j.HasConsoles j.consoleId j.liveConsoles :=
  ⟨h, rfl, rfl⟩

theorem HasConsoles.takeNumber {remembered : Option Nat} {ids : List Nat}
    (h : j.HasConsoles remembered ids) : j.takeNumber.HasConsoles remembered ids :=
  ⟨h.toIsOrderly.takeNumber, h.remembers, h.consoles⟩

theorem HasConsoles.openFile {remembered : Option Nat} {ids : List Nat}
    (h : j.HasConsoles remembered ids) (hid : j.Reserves id) (severity : Severity)
    (phase : Option String) (path : Path) :
    (j.openFile id severity phase path).HasConsoles remembered ids :=
  ⟨h.toIsOrderly.openFile hid severity phase path, h.remembers,
    (j.liveConsoles_openFile id severity phase path).trans h.consoles⟩

theorem IsOrderly.openConsole (h : j.IsOrderly) (hnone : j.liveConsoles = [])
    (hid : j.Reserves id) (severity : Severity) :
    (j.openConsole id severity).HasConsoles (some id) [id] := by
  refine ⟨⟨h.toIsNumbered.openConsole hnone hid severity, ?_⟩, rfl, ?_⟩
  · exact h.files.trans (j.liveFiles_openConsole id severity).symm
  · rw [liveConsoles_openConsole, hnone]
    rfl

/-- A program starts with one console outlet. -/
theorem hasConsoles_fresh (stamps : Stamps) : (fresh stamps).HasConsoles (some 1) [1] := by
  have hreplaced : (empty stamps).takeNumber.IsOrderly := (isOrderly_empty stamps).takeNumber
  exact hreplaced.takeNumber.openConsole rfl hreplaced.toIsNumbered.reserves .info

theorem HasConsoles.push {remembered : Option Nat} {ids : List Nat}
    (h : j.HasConsoles remembered ids) (r : Record) : (j.push r).HasConsoles remembered ids :=
  ⟨h.toIsOrderly.push r, h.remembers, h.consoles⟩

end Journal

/-! ## Operations of the log -/

namespace Logging

open Act

variable {s : Session} {id : Nat} {level : Value} {remembered : Option Nat} {consoles : List Nat}

/-- The names of the log files. -/
def fileNames : List String :=
  ["app.log", "analysis.log", "generate.log"]

/-- The failures that opening the log files in a directory can have: the operating system refuses a
file, a path cannot be filled in, or the level is none. -/
inductive OpenFault (dir : Path) (level : Value) : Failure → Prop where
  | file (fault : FileFault) : OpenFault dir level (.file fault)
  | template {name time : String} {fault : Template.Fault} (hname : name ∈ fileNames)
    (h : Template.fill time (dir.child name).toText = .error fault) :
    OpenFault dir level (.template fault)
  | nameless {e : Failure} (h : levelName level = .error e) : OpenFault dir level e
  | bytes (h : levelName level = .ok none) : OpenFault dir level .byteLevel
  | unknown {name : String} (h : levelName level = .ok (some name))
    (hname : Severity.ofName? name = none) : OpenFault dir level (.unknownLevel name)

/-- Opening a log file does not fail for an outlet that is gone. -/
theorem OpenFault.ne_goneOutlet {dir : Path} {e : Failure} (h : OpenFault dir level e) (id : Nat) :
    e ≠ .goneOutlet id := by
  rintro rfl
  cases h with
  | nameless h => cases level <;> cases h

/-- A severity is refused for bytes or for the name of none. -/
theorem OpenFault.of_severityOf {dir : Path} {name : Option String} {e : Failure}
    (hname : levelName level = .ok name) (h : severityOf name = .error e) :
    OpenFault dir level e := by
  cases name with
  | none =>
    cases h
    exact .bytes hname
  | some name =>
    rw [severityOf] at h
    split at h
    · cases h
    · rename_i hunknown
      cases h
      exact .unknown hname hunknown

theorem takeNumber_ok (s : Session) :
    takeNumber s = .ok s.journal.nextId { s with journal := s.journal.takeNumber } := rfl

theorem removeOutlet_of_live (h : s.journal.isLive id = true) :
    removeOutlet id s = .ok () { s with journal := s.journal.remove id } := by
  rw [removeOutlet, bind_ok (get_ok s), if_pos h]
  exact modify_ok _ s

theorem removeOutlet_of_gone (h : s.journal.isLive id = false) :
    removeOutlet id s = .error (.goneOutlet id) s := by
  rw [removeOutlet, bind_ok (get_ok s), h]
  rfl

/-- The remembered outlets for files are there, so all of them are removed. -/
theorem exists_removeFiles {ids : List Nat} (hfiles : s.journal.fileIds = ids.reverse)
    (hs : s.journal.HasConsoles remembered consoles) :
    ∃ t, removeFiles ids s = .ok () t ∧ t.journal.HasConsoles remembered consoles
      ∧ t.journal.fileIds = [] := by
  induction ids generalizing s with
  | nil => exact ⟨s, rfl, hs, hfiles⟩
  | cons id ids ih =>
    have hlive : s.journal.liveFiles = ids.reverse ++ [id] := by
      rw [← hs.files, hfiles, List.reverse_cons]
    obtain ⟨hrest, hconsoles⟩ := hs.toIsNumbered.removeLast hlive
    have hmem : id ∈ s.journal.liveFiles := by simp [hlive]
    -- The number is forgotten first, which does not matter for the outlets.
    let forgotten : Session := { s with journal := { s.journal with fileIds := ids.reverse } }
    let removed : Session := { forgotten with journal := forgotten.journal.remove id }
    have hremoved : removed.journal.HasConsoles remembered consoles := by
      have hnumbered := hs.toIsNumbered.remove id
      exact ⟨⟨⟨hnumbered.ascending, hnumbered.fresh, hnumbered.console, hnumbered.reserved⟩,
        hrest.symm⟩, hs.remembers, hconsoles.trans hs.consoles⟩
    obtain ⟨t, hremove, ht⟩ := ih (s := removed) rfl hremoved
    have hoperation : removeOutlet id forgotten = .ok () removed :=
      removeOutlet_of_live (Journal.isLive_of_mem_numbers hmem)
    refine ⟨t, ?_, ht⟩
    rw [removeFiles, bind_ok (modify_ok _ s)]
    exact (bind_ok hoperation _).trans hremove

/-- How an operation on log files may fail: the journal is orderly, the console is as it was, and no
outlet is missing. -/
def FailsToOpen (remembered : Option Nat) (consoles : List Nat) (dir : Path) (level : Value)
    (e : Failure) (s : Session) : Prop :=
  s.journal.HasConsoles remembered consoles ∧ OpenFault dir level e

/-- An orderly journal with a number of outlets for files. -/
def Counts (remembered : Option Nat) (consoles : List Nat) (count : Nat) (j : Journal) : Prop :=
  j.HasConsoles remembered consoles ∧ j.fileIds.length = count

/-- A number is taken, whatever is done with it. -/
theorem ends_takeNumber {P : Journal → Prop} {E : Failure → Session → Prop}
    (hnumbered : ∀ j, P j → j.IsNumbered) (hkept : ∀ j, P j → P j.takeNumber) :
    Ends (fun s => P s.journal) takeNumber
      (fun id s => P s.journal ∧ s.journal.Reserves id) E := fun s hs =>
  Or.inl ⟨_, _, takeNumber_ok s, hkept _ hs, (hnumbered _ hs).reserves⟩

theorem ends_filePath {P : Session → Prop} {E : Failure → Session → Prop} {template : Path}
    (h : ∀ fault s, P s → Template.fill s.journal.stamps.time template.toText = .error fault →
      E (.template fault) s) :
    Ends P (filePath template) (fun _ s => P s) E := by
  intro s hs
  cases hfill : Template.fill s.journal.stamps.time template.toText with
  | ok text =>
    refine Or.inl ⟨(Path.parse text).collapse, s, ?_, hs⟩
    rw [filePath, bind_ok (get_ok s), hfill]
    rfl
  | error fault =>
    refine Or.inr ⟨.template fault, s, ?_, h fault s hs hfill⟩
    rw [filePath, bind_ok (get_ok s), hfill]
    rfl

/-- So many outlets for files are there, and the level has a name, which may be that of none. -/
def Named (remembered : Option Nat) (consoles : List Nat) (count : Nat) (level : Value)
    (name : Option String) (j : Journal) : Prop :=
  Counts remembered consoles count j ∧ levelName level = .ok name

/-- Besides, a number is taken for one more outlet. -/
def Ready (remembered : Option Nat) (consoles : List Nat) (count : Nat) (level : Value)
    (name : Option String) (id : Nat) (j : Journal) : Prop :=
  Named remembered consoles count level name j ∧ j.Reserves id

theorem Named.takeNumber {count : Nat} {name : Option String} {j : Journal}
    (h : Named remembered consoles count level name j) :
    Named remembered consoles count level name j.takeNumber :=
  ⟨⟨h.1.1.takeNumber, h.1.2⟩, h.2⟩

theorem Ready.failsToOpen {dir : Path} {count : Nat} {name : Option String} {e : Failure}
    (h : Ready remembered consoles count level name id s.journal) (he : OpenFault dir level e) :
    FailsToOpen remembered consoles dir level e s :=
  ⟨h.1.1.1, he⟩

/-- An outlet with the number that was taken is one more outlet for a file. -/
theorem Ready.openFile {count : Nat} {name : Option String} {j : Journal}
    (h : Ready remembered consoles count level name id j) (severity : Severity)
    (phase : Option String) (path : Path) :
    Counts remembered consoles (count + 1) (j.openFile id severity phase path) := by
  refine ⟨h.1.1.1.openFile h.2 severity phase path, ?_⟩
  show (j.fileIds ++ [id]).length = count + 1
  rw [List.length_append, h.1.1.2]
  rfl

/-- A log file is opened and counted, or nothing of the journal has changed but its next number. -/
theorem ends_addFile {dir : Path} {file : String} (hfile : file ∈ fileNames)
    (phase : Option String) (count : Nat) :
    Ends (fun s => Counts remembered consoles count s.journal)
      (addFile (dir.child file) level phase)
      (fun _ s => Counts remembered consoles (count + 1) s.journal)
      (FailsToOpen remembered consoles dir level) := by
  refine Ends.bind (Q := fun name s => Named remembered consoles count level name s.journal) ?_
    fun name => ?_
  · apply ends_ofExcept
    · intro name s hname hs
      exact ⟨hs, hname⟩
    · intro e s he hs
      exact ⟨hs.1, .nameless he⟩
  refine Ends.bind (Q := fun id s => Ready remembered consoles count level name id s.journal)
    (ends_takeNumber (P := Named remembered consoles count level name)
      (fun _ hj => hj.1.1.toIsNumbered) fun _ => Named.takeNumber) fun id => ?_
  -- From here on the number is taken, and the outlet is the last thing that is added.
  have hrefused (fault : FileFault) (s : Session)
      (hs : Ready remembered consoles count level name id s.journal) :
      FailsToOpen remembered consoles dir level (.file fault) s :=
    hs.failsToOpen (.file fault)
  refine Ends.bind (ends_filePath fun fault s hs hfill =>
    hs.failsToOpen (.template hfile hfill)) fun path => ?_
  refine Ends.bind (ends_changeFiles hrefused) fun _ => ?_
  refine Ends.bind (ends_changeFiles hrefused) fun _ => ?_
  refine Ends.bind (ends_ofExcept (fun _ _ _ hs => hs) fun e s he hs =>
    hs.failsToOpen (.of_severityOf hs.1.2 he)) fun severity => ?_
  apply ends_modify
  intro s hs
  exact hs.openFile severity phase path

/-- **Log files are set up completely or not at all for a stated reason**: three outlets are there,
or opening them failed, and in both cases the journal remembers those that are there. -/
theorem ends_setupFiles (dir : Path) (level : Value) :
    Ends (fun s => s.journal.HasConsoles remembered consoles) (setupFiles dir level)
      (fun ids s => s.journal.HasConsoles remembered consoles ∧ ids = s.journal.fileIds
        ∧ ids.length = 3)
      (FailsToOpen remembered consoles dir level) := by
  intro s hs
  obtain ⟨t, hremove, ht, hnone⟩ := exists_removeFiles (List.reverse_reverse _).symm hs
  rw [setupFiles, bind_ok (get_ok s), bind_ok hremove]
  -- From here on there are no outlets for files, and each of them is counted.
  have hcount : Counts remembered consoles 0 t.journal := ⟨ht, by rw [hnone]; rfl⟩
  refine Ends.bind (P := fun s => Counts remembered consoles 0 s.journal)
    (ends_changeFiles fun fault s hs => ⟨hs.1, .file fault⟩) (fun _ => ?_) t hcount
  refine (ends_addFile (by decide) none 0).bind fun _ => ?_
  refine (ends_addFile (by decide) (some analysisPhase) 1).bind fun _ => ?_
  refine (ends_addFile (by decide) (some generatePhase) 2).bind fun _ => ?_
  refine Ends.bind (Q := fun _ s => Counts remembered consoles 3 s.journal) ?_ fun _ => ?_
  · apply ends_modify
    intro u hu
    exact ⟨hu.1.push _, hu.2⟩
  · intro u hu
    exact Or.inl ⟨u.journal.fileIds, u, rfl, hu.1, rfl, hu.2⟩

/-- The console has one outlet, the one that is returned, or opening it failed. -/
theorem ends_setConsole (level : Value) :
    Ends (fun s => s.journal.IsOrderly) (setConsole level)
      (fun id s => s.journal.HasConsoles (some id) [id]) (fun _ s => s.journal.IsOrderly) := by
  refine Ends.bind (Q := fun _ s => s.journal.IsOrderly ∧ s.journal.liveConsoles = []) ?_
    fun _ => ?_
  · intro s hs
    rw [removeConsole, bind_ok (get_ok s)]
    cases hid : s.journal.consoleId with
    | none => exact Or.inl ⟨(), s, rfl, hs, hs.liveConsoles_of_none hid⟩
    | some id =>
      cases hlive : s.journal.isLive id with
      | true => exact Or.inl ⟨(), _, removeOutlet_of_live hlive, hs.removeConsole hid⟩
      | false => exact Or.inr ⟨_, s, removeOutlet_of_gone hlive, hs⟩
  · refine Ends.bind (ends_ofExcept (fun _ _ _ hs => hs) fun _ _ _ hs => hs.1) fun name => ?_
    refine Ends.bind (ends_takeNumber (P := fun j => j.IsOrderly ∧ j.liveConsoles = [])
      (fun _ hj => hj.1.toIsNumbered) fun _ hj => ⟨hj.1.takeNumber, hj.2⟩) fun id => ?_
    refine Ends.bind (ends_ofExcept (fun _ _ _ hs => hs) fun _ _ _ hs => hs.1.1) fun severity => ?_
    intro s hs
    exact Or.inl ⟨id, { s with journal := s.journal.openConsole id severity }, rfl,
      hs.1.1.openConsole hs.1.2 hs.2 severity⟩

/-! ## Runs of operations -/

/-- What may be asked of the log. -/
inductive Request where
  | console (level : Value)
  | files (dir : Path) (level : Value)
  | record (level phase message : String)

/-- The operation that carries a request out. -/
def Request.act : Request → Act Unit
  | .console level => do let _ ← setConsole level
  | .files dir level => do let _ ← setupFiles dir level
  | .record level phase message => logAt level phase message

/-- The session after requests, each of which returns or fails. -/
def afterAll (requests : List Request) (s : Session) : Session :=
  requests.foldl (fun s r => r.act.after s) s

theorem ends_logAt (level phase message : String) :
    Ends (fun s => s.journal.HasConsoles remembered consoles) (logAt level phase message)
      (fun _ s => s.journal.HasConsoles remembered consoles)
      (fun _ s => s.journal.HasConsoles remembered consoles) := by
  intro s hs
  rw [logAt, bind_ok (get_ok s)]
  split
  · exact Or.inl ⟨(), s, rfl, hs⟩
  · refine Ends.bind (P := fun s => s.journal.HasConsoles remembered consoles)
      (ends_ofExcept (fun _ _ _ hs => hs) fun _ _ _ hs => hs) (fun severity => ?_) s hs
    apply ends_modify
    intro t ht
    exact ht.push _

/-- Requests for log files and records leave the console as it is. -/
theorem hasConsoles_after {r : Request} (hr : ∀ level, r ≠ .console level)
    (hs : s.journal.HasConsoles remembered consoles) :
    (r.act.after s).journal.HasConsoles remembered consoles := by
  cases r with
  | console level => exact absurd rfl (hr level)
  | files dir level =>
    rw [Request.act, after_ignore]
    exact (ends_setupFiles dir level).after hs (fun _ _ h => h.1) fun _ _ h => h.1
  | record level phase message =>
    exact (ends_logAt level phase message).after hs (fun _ _ h => h) fun _ _ h => h

/-- One request keeps the journal orderly. -/
theorem isOrderly_after (r : Request) (hs : s.journal.IsOrderly) :
    (r.act.after s).journal.IsOrderly := by
  cases r with
  | console level =>
    rw [Request.act, after_ignore]
    exact (ends_setConsole level).after hs (fun _ _ h => h.toIsOrderly) fun _ _ h => h
  | files dir level =>
    exact (hasConsoles_after (fun _ => Request.noConfusion) hs.hasConsoles).toIsOrderly
  | record level phase message =>
    exact (hasConsoles_after (fun _ => Request.noConfusion) hs.hasConsoles).toIsOrderly

/-- So does every run of requests. -/
theorem isOrderly_afterAll (requests : List Request) (hs : s.journal.IsOrderly) :
    (afterAll requests s).journal.IsOrderly := by
  induction requests generalizing s with
  | nil => exact hs
  | cons r requests ih => exact ih (isOrderly_after r hs)

/-- **Outlets for log files are kept track of.** Start from an orderly journal and carry out any
requests, each of which may fail. Then the journal remembers the outlets for files that are there,
in the order in which they were opened and without repetition. The next time the log files are set
up, either there are three outlets for files and their numbers are returned, or the level, the
directory or a file is refused, never for an outlet that is gone; and the outlets that are there are
remembered again. -/
theorem file_outlets_are_tracked (hs : s.journal.IsOrderly) (requests : List Request) :
    let t := afterAll requests s
    t.journal.fileIds = t.journal.liveFiles ∧ t.journal.fileIds.Pairwise (· < ·)
      ∧ ∀ dir level,
        (∃ ids u, setupFiles dir level t = .ok ids u ∧ ids.length = 3
          ∧ ids = u.journal.fileIds ∧ u.journal.fileIds = u.journal.liveFiles)
        ∨ ∃ e u, setupFiles dir level t = .error e u ∧ OpenFault dir level e
          ∧ (∀ id, e ≠ .goneOutlet id) ∧ u.journal.fileIds = u.journal.liveFiles := by
  intro t
  have ht : t.journal.IsOrderly := isOrderly_afterAll requests hs
  refine ⟨ht.files, ?_, ?_⟩
  · rw [ht.files]
    exact ht.pairwise_numbers Outlet.isFile
  · intro dir level
    rcases ends_setupFiles dir level t ht.hasConsoles with
      ⟨ids, u, hsetup, hu, hids, hthree⟩ | ⟨e, u, hsetup, hu, hfault⟩
    · exact Or.inl ⟨ids, u, hsetup, hthree, hids, hu.files⟩
    · exact Or.inr ⟨e, u, hsetup, hfault, hfault.ne_goneOutlet, hu.files⟩

/-- A program that has just been started, in an empty directory. -/
def freshSession : Session :=
  .start .empty (.fresh ⟨"", "", ""⟩)

/-- Requests of which some fail: for a name of no level, for no name at all, and for the console. -/
def stumblingRequests : List Request :=
  [.files (Path.parse "logs") (.str "BOGUS"), .files (Path.parse "logs") (.str "debug"),
   .record "INFO" "app" "ready", .files (Path.parse "logs") .null, .console (.str "BOGUS"),
   .files (Path.parse "logs") (.str "info")]

theorem file_outlets_of_stumbling_requests :
    freshSession.journal.IsOrderly
      ∧ (afterAll stumblingRequests freshSession).journal.fileIds = [7, 8, 9]
      ∧ (afterAll stumblingRequests freshSession).journal.liveFiles = [7, 8, 9]
      ∧ ∃ ids u, setupFiles (Path.parse "logs") (.str "error")
          (afterAll stumblingRequests freshSession) = .ok ids u
        ∧ ids.length = 3 ∧ ids = u.journal.liveFiles := by
  have hfresh : freshSession.journal.IsOrderly := (Journal.hasConsoles_fresh _).toIsOrderly
  obtain ⟨hfiles, -, hsetup⟩ := file_outlets_are_tracked hfresh stumblingRequests
  have hids : (afterAll stumblingRequests freshSession).journal.fileIds = [7, 8, 9] := by
    decide +kernel
  refine ⟨hfresh, hids, hfiles.symm.trans hids, ?_⟩
  rcases hsetup (Path.parse "logs") (.str "error") with
    ⟨ids, u, hok, hthree, hown, hlive⟩ | ⟨e, u, herror, -⟩
  · exact ⟨ids, u, hok, hthree, hown.trans hlive⟩
  · have hsucceeds : succeeds (setupFiles (Path.parse "logs") (.str "error"))
        (afterAll stumblingRequests freshSession) = true := by
      decide +kernel
    exact absurd herror (ne_error_of_succeeds hsucceeds e)

end Logging

end StructAtlas
