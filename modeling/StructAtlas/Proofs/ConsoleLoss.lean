import StructAtlas.Proofs.LogOutlets

set_option autoImplicit false

/-!
# How the console is lost

Changing the level of the console removes its outlet before the level is looked at. If the value is
no level, no outlet is opened, and the number of the removed one stays behind. From then on every
change fails for the outlet that is gone, whatever level it asks for (`Logging.setConsole_of_lost`).
So the console lasts exactly as long as every change gives a level
(`Logging.console_lasts_while_levels`), and `Logging.level_after_no_level_fails` shows the loss.
-/

namespace StructAtlas

namespace Journal

variable {j : Journal} {id : Nat}

/-- The remembered console outlet is there, and it is the only one. -/
def HasConsole (j : Journal) : Prop :=
  ∃ id, j.consoleId = some id ∧ j.liveConsoles = [id]

/-- A number is remembered for the console, but there is no outlet for it. -/
def HasLostConsole (j : Journal) (id : Nat) : Prop :=
  j.consoleId = some id ∧ j.liveConsoles = []

theorem HasLostConsole.not_hasConsole (h : j.HasLostConsole id) : ¬ j.HasConsole := by
  rintro ⟨other, -, hlive⟩
  cases h.2.symm.trans hlive

theorem isLive_of_liveConsoles (h : j.liveConsoles = [id]) : j.isLive id = true := by
  have hmem : id ∈ j.liveConsoles := by simp [h]
  exact isLive_of_mem_numbers hmem

theorem HasLostConsole.isLive_eq_false (h : j.HasLostConsole id) (hj : j.IsNumbered) :
    j.isLive id = false := by
  have hlive := hj.liveConsoles_eq h.1
  rw [h.2] at hlive
  cases hgone : j.isLive id with
  | false => rfl
  | true =>
    rw [hgone] at hlive
    cases hlive

end Journal

namespace Logging

open Act

variable {s t : Session} {id : Nat} {level : Value}

/-! ## Levels -/

/-- A text that is the name of a severity, in letters of any case. -/
def IsLevel (level : Value) : Prop :=
  ∃ severity : Severity, levelName level = .ok (some severity.name)

theorem severityOf_name (severity : Severity) :
    severityOf (some severity.name) = .ok severity := by
  cases severity <;> rfl

theorem eq_name_of_severityOf {name : Option String} {severity : Severity}
    (h : severityOf name = .ok severity) : name = some severity.name := by
  cases name with
  | none => cases h
  | some name =>
    rw [severityOf] at h
    split at h
    · rename_i found hfound
      cases h
      rw [Severity.ofName?] at hfound
      have hsame := List.find?_some hfound
      rw [eq_of_beq hsame]
    · cases h

/-! ## One change -/

/-- With a level the outlet is opened behind the removal. -/
theorem setConsole_of_level (hremove : removeConsole s = .ok () t) {severity : Severity}
    (hlevel : levelName level = .ok (some severity.name)) :
    setConsole level s = .ok t.journal.nextId
      { t with journal := t.journal.takeNumber.openConsole t.journal.nextId severity } := by
  rw [setConsole, bind_ok hremove, hlevel]
  refine (bind_ok rfl _).trans ?_
  rw [bind_ok (takeNumber_ok t), severityOf_name]
  rfl

/-- Without a level the change fails behind the removal. A number may be used up. -/
theorem exists_setConsole_of_not_isLevel (hremove : removeConsole s = .ok () t)
    (hlevel : ¬ IsLevel level) :
    ∃ e u, setConsole level s = .error e u
      ∧ (u = t ∨ u = { t with journal := t.journal.takeNumber }) := by
  rw [setConsole, bind_ok hremove]
  cases hname : levelName level with
  | error e => exact ⟨e, t, rfl, Or.inl rfl⟩
  | ok name =>
    cases hseverity : severityOf name with
    | ok severity =>
      rw [eq_name_of_severityOf hseverity] at hname
      exact absurd ⟨severity, hname⟩ hlevel
    | error e =>
      refine ⟨e, _, (bind_ok rfl _).trans ?_, Or.inr rfl⟩
      rw [bind_ok (takeNumber_ok t), hseverity]
      rfl

theorem removeConsole_of_live (hid : s.journal.consoleId = some id)
    (hlive : s.journal.isLive id = true) :
    removeConsole s = .ok () { s with journal := s.journal.remove id } := by
  rw [removeConsole, bind_ok (get_ok s), hid]
  exact removeOutlet_of_live hlive

/-- A console that is there is replaced. -/
theorem exists_setConsole_of_isLevel (hs : s.journal.IsOrderly) (hconsole : s.journal.HasConsole)
    (hlevel : IsLevel level) :
    ∃ id t, setConsole level s = .ok id t ∧ t.journal.HasConsole := by
  obtain ⟨old, hold, hlive⟩ := hconsole
  obtain ⟨severity, hseverity⟩ := hlevel
  have hremove := removeConsole_of_live hold (Journal.isLive_of_liveConsoles hlive)
  obtain ⟨hrest, hnone⟩ := hs.removeConsole hold
  have hopen := hrest.takeNumber.openConsole hnone hrest.toIsNumbered.reserves severity
  exact ⟨_, _, setConsole_of_level hremove hseverity, _, hopen.remembers, hopen.consoles⟩

/-- A console that is there is lost for want of a level. -/
theorem exists_lost_of_not_isLevel (hs : s.journal.IsOrderly) (hconsole : s.journal.HasConsole)
    (hlevel : ¬ IsLevel level) :
    ∃ e t id, setConsole level s = .error e t ∧ t.journal.HasLostConsole id := by
  obtain ⟨old, hold, hlive⟩ := hconsole
  have hremove := removeConsole_of_live hold (Journal.isLive_of_liveConsoles hlive)
  obtain ⟨e, t, he, rfl | rfl⟩ := exists_setConsole_of_not_isLevel hremove hlevel
  · exact ⟨e, _, old, he, hold, (hs.removeConsole hold).2⟩
  · exact ⟨e, _, old, he, hold, (hs.removeConsole hold).2⟩

/-- A lost console stays lost: the change fails before the level is looked at, and nothing else
happens. -/
theorem setConsole_of_lost (hs : s.journal.IsOrderly) (hlost : s.journal.HasLostConsole id)
    (level : Value) : setConsole level s = .error (.goneOutlet id) s := by
  have hremove : removeConsole s = .error (.goneOutlet id) s := by
    rw [removeConsole, bind_ok (get_ok s), hlost.1]
    exact removeOutlet_of_gone (hlost.isLive_eq_false hs.toIsNumbered)
  exact bind_error hremove _

/-! ## Runs of requests -/

theorem after_console_of_ok (h : setConsole level s = .ok id t) :
    (Request.console level).act.after s = t :=
  (after_ignore _ s).trans (after_of_ok h)

theorem after_console_of_error {e : Failure} (h : setConsole level s = .error e t) :
    (Request.console level).act.after s = t :=
  (after_ignore _ s).trans (after_of_error h)

/-- A request is a change of the console or is none. -/
theorem console_or_other (r : Request) :
    (∃ level, r = .console level) ∨ ∀ level, r ≠ .console level := by
  cases r with
  | console level => exact Or.inl ⟨level, rfl⟩
  | files dir level => exact Or.inr fun _ => Request.noConfusion
  | record level phase message => exact Or.inr fun _ => Request.noConfusion

/-- Other requests leave the console as it is. -/
theorem console_after {r : Request} (hr : ∀ level, r ≠ .console level)
    (hs : s.journal.IsOrderly) :
    (r.act.after s).journal.consoleId = s.journal.consoleId
      ∧ (r.act.after s).journal.liveConsoles = s.journal.liveConsoles := by
  have h := hasConsoles_after hr hs.hasConsoles
  exact ⟨h.remembers, h.consoles⟩

theorem hasLostConsole_after (hs : s.journal.IsOrderly) (hlost : s.journal.HasLostConsole id)
    (r : Request) : (r.act.after s).journal.HasLostConsole id := by
  rcases console_or_other r with ⟨level, rfl⟩ | hr
  · rwa [after_console_of_error (setConsole_of_lost hs hlost level)]
  · obtain ⟨hid, hlive⟩ := console_after hr hs
    exact ⟨hid.trans hlost.1, hlive.trans hlost.2⟩

/-- A lost console is not found again by any requests. -/
theorem hasLostConsole_afterAll (requests : List Request) (hs : s.journal.IsOrderly)
    (hlost : s.journal.HasLostConsole id) : (afterAll requests s).journal.HasLostConsole id := by
  induction requests generalizing s with
  | nil => exact hlost
  | cons r requests ih => exact ih (isOrderly_after r hs) (hasLostConsole_after hs hlost r)

/-- The changes of the console among requests all give a level. -/
def GiveLevels (requests : List Request) : Prop :=
  ∀ level, .console level ∈ requests → IsLevel level

theorem giveLevels_cons_of_ne {r : Request} (hr : ∀ level, r ≠ .console level)
    (requests : List Request) : GiveLevels (r :: requests) ↔ GiveLevels requests := by
  constructor
  · intro h level hmem
    exact h level (List.mem_cons_of_mem _ hmem)
  · intro h level hmem
    rcases List.mem_cons.1 hmem with heq | hmem
    · exact absurd heq.symm (hr level)
    · exact h level hmem

theorem giveLevels_cons_console (requests : List Request) :
    GiveLevels (.console level :: requests) ↔ IsLevel level ∧ GiveLevels requests := by
  constructor
  · intro h
    exact ⟨h level List.mem_cons_self, fun l hmem => h l (List.mem_cons_of_mem _ hmem)⟩
  · rintro ⟨hlevel, h⟩ l hmem
    rcases List.mem_cons.1 hmem with heq | hmem
    · cases heq
      exact hlevel
    · exact h l hmem

/-- After requests the console is there if all changes gave a level, and lost otherwise. -/
theorem console_afterAll (requests : List Request) (hs : s.journal.IsOrderly)
    (hconsole : s.journal.HasConsole) :
    (GiveLevels requests → (afterAll requests s).journal.HasConsole)
      ∧ (¬ GiveLevels requests → ∃ id, (afterAll requests s).journal.HasLostConsole id) := by
  induction requests generalizing s with
  | nil => exact ⟨fun _ => hconsole, fun h => absurd (fun _ hmem => (by cases hmem)) h⟩
  | cons r requests ih =>
    have hnext := isOrderly_after r hs
    rcases console_or_other r with ⟨level, rfl⟩ | hr
    · rw [giveLevels_cons_console]
      by_cases hlevel : IsLevel level
      · -- The console is replaced, and the rest of the requests decides.
        obtain ⟨id, t, hset, ht⟩ := exists_setConsole_of_isLevel hs hconsole hlevel
        rw [← after_console_of_ok hset] at ht
        have hrest := ih hnext ht
        exact ⟨fun h => hrest.1 h.2, fun h => hrest.2 fun hgive => h ⟨hlevel, hgive⟩⟩
      · -- The console is lost here, and the rest of the requests does not matter.
        obtain ⟨e, t, id, hset, ht⟩ := exists_lost_of_not_isLevel hs hconsole hlevel
        rw [← after_console_of_error hset] at ht
        exact ⟨fun h => absurd h.1 hlevel, fun _ => ⟨id, hasLostConsole_afterAll requests hnext ht⟩⟩
    · rw [giveLevels_cons_of_ne hr]
      refine ih hnext ?_
      obtain ⟨hid, hlive⟩ := console_after hr hs
      obtain ⟨id, hold, honly⟩ := hconsole
      exact ⟨id, hid.trans hold, hlive.trans honly⟩

/-- **The console lasts while every change gives a level.** Start with a console and carry out any
requests, each of which may fail. Then the remembered number is that of the only console outlet
exactly if every change of the console gave a level, and exactly then a change to a level succeeds.
Otherwise the outlet is gone, and every change fails for it and changes nothing. -/
theorem console_lasts_while_levels (hs : s.journal.IsOrderly) (hconsole : s.journal.HasConsole)
    (requests : List Request) :
    let t := afterAll requests s
    (t.journal.HasConsole ↔ GiveLevels requests)
      ∧ (∀ level, IsLevel level →
        ((∃ id u, setConsole level t = .ok id u) ↔ GiveLevels requests))
      ∧ (¬ GiveLevels requests → ∃ id, t.journal.consoleId = some id
        ∧ t.journal.isLive id = false ∧ t.journal.liveConsoles = []
        ∧ ∀ level, setConsole level t = .error (.goneOutlet id) t) := by
  intro t
  have ht : t.journal.IsOrderly := isOrderly_afterAll requests hs
  obtain ⟨hkept, hlost⟩ := console_afterAll requests hs hconsole
  refine ⟨⟨fun h => ?_, hkept⟩, fun level hlevel => ⟨?_, fun h => ?_⟩, fun h => ?_⟩
  · refine Classical.byContradiction fun hnot => ?_
    obtain ⟨id, hid⟩ := hlost hnot
    exact hid.not_hasConsole h
  · rintro ⟨id, u, hset⟩
    refine Classical.byContradiction fun hnot => ?_
    obtain ⟨lost, hid⟩ := hlost hnot
    cases (setConsole_of_lost ht hid level).symm.trans hset
  · obtain ⟨id, u, hset, -⟩ := exists_setConsole_of_isLevel ht (hkept h) hlevel
    exact ⟨id, u, hset⟩
  · obtain ⟨id, hid⟩ := hlost h
    exact ⟨id, hid.1, hid.isLive_eq_false ht.toIsNumbered, hid.2, setConsole_of_lost ht hid⟩

theorem hasConsole_freshSession : freshSession.journal.HasConsole := by
  have h := Journal.hasConsoles_fresh ⟨"", "", ""⟩
  exact ⟨1, h.remembers, h.consoles⟩

/-- Levels are given in letters of any case. -/
theorem isLevel_debug : IsLevel (.str "Debug") := by
  have hname : String.ofList (Text.upper "Debug".toList) = Severity.debug.name := by
    decide +kernel
  exact ⟨.debug, congrArg (fun name => Except.ok (some name)) hname⟩

theorem console_lasts_through_setup :
    freshSession.journal.IsOrderly ∧ freshSession.journal.HasConsole ∧ IsLevel (.str "Debug")
      ∧ (afterAll [.console (.str "Debug"), .files (Path.parse "logs") (.str "BOGUS")]
          freshSession).journal.HasConsole
      ∧ ∃ id u, setConsole (.str "Debug")
          (afterAll [.console (.str "Debug"), .files (Path.parse "logs") (.str "BOGUS")]
            freshSession) = .ok id u := by
  have horderly : freshSession.journal.IsOrderly := (Journal.hasConsoles_fresh _).toIsOrderly
  have hgive : GiveLevels [.console (.str "Debug"), .files (Path.parse "logs") (.str "BOGUS")] := by
    rw [giveLevels_cons_console]
    refine ⟨isLevel_debug, ?_⟩
    intro level hmem
    cases List.mem_singleton.1 hmem
  obtain ⟨hlasts, hchange, -⟩ := console_lasts_while_levels horderly hasConsole_freshSession
    [.console (.str "Debug"), .files (Path.parse "logs") (.str "BOGUS")]
  exact ⟨horderly, hasConsole_freshSession, isLevel_debug, hlasts.2 hgive,
    (hchange _ isLevel_debug).2 hgive⟩

/-- **A change to a level fails behind one that gave none.** The console of a new program is lost by
a name of no level: the remembered number is that of no outlet, and the next change to a level fails
for it. -/
theorem level_after_no_level_fails :
    freshSession.journal.HasConsole ∧ IsLevel (.str "Debug")
      ∧ ∃ t, setConsole (.str "BOGUS") freshSession = .error (.unknownLevel "BOGUS") t
        ∧ t.journal.consoleId = some 1 ∧ t.journal.isLive 1 = false
        ∧ t.journal.liveConsoles = []
        ∧ setConsole (.str "Debug") t = .error (.goneOutlet 1) t := by
  refine ⟨hasConsole_freshSession, isLevel_debug,
    { freshSession with journal := (freshSession.journal.remove 1).takeNumber }, ?_, rfl, rfl, rfl,
    ?_⟩
  · rfl
  · rfl

end Logging

end StructAtlas
