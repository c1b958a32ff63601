import StructAtlas.Session

set_option autoImplicit false

/-!
# Operations that return

`Act.Returns P act a Q` says that from every session with the property `P` the operation returns the
value `a` and leaves a session with the property `Q`. There is one rule for each way in which
operations are put together. Operations write log records all the time, so the properties of use
here are those that a log record does not take away (`Act.Lasting`).
-/

namespace StructAtlas

/-- A result that is made of two parts is one only if both parts are. -/
theorem exists_of_bind_ok {ε α β : Type} {r : Except ε α} {next : α → Except ε β} {b : β}
    (h : (r >>= next) = .ok b) : ∃ a, r = .ok a ∧ next a = .ok b := by
  cases r with
  | error e => cases h
  | ok a => exact ⟨a, rfl, h⟩

namespace Act

variable {α β : Type} {P Q R : Session → Prop}

/-- From every session of the first kind the operation returns the value and leaves a session of the
second kind. -/
def Returns (P : Session → Prop) (act : Act α) (a : α) (Q : Session → Prop) : Prop :=
  ∀ s, P s → ∃ t, act s = .ok a t ∧ Q t

/-- A log record does not take the property away. -/
def Lasting (P : Session → Prop) : Prop :=
  ∀ s r, P s → P (s.log r)

theorem bind_ok {act : Act α} {a : α} {s t : Session} (h : act s = .ok a t) (next : α → Act β) :
    (act >>= next) s = next a t := by
  show EStateM.bind act next s = next a t
  rw [EStateM.bind, h]

theorem bind_error {act : Act α} {e : Failure} {s t : Session} (h : act s = .error e t)
    (next : α → Act β) : (act >>= next) s = .error e t := by
  show EStateM.bind act next s = .error e t
  rw [EStateM.bind, h]

theorem get_ok (s : Session) : (get : Act Session) s = .ok s s := rfl

theorem modify_ok (f : Session → Session) (s : Session) : (modify f : Act Unit) s = .ok () (f s) :=
  rfl

theorem askFiles_ok {ask : FileTree → Except FileFault α} {a : α} {s : Session}
    (h : ask s.files = .ok a) : askFiles ask s = .ok a s := by
  rw [askFiles, h]

theorem askFiles_error {ask : FileTree → Except FileFault α} {fault : FileFault} {s : Session}
    (h : ask s.files = .error fault) : askFiles ask s = .error (.file fault) s := by
  rw [askFiles, h]

theorem changeFiles_ok {change : FileTree → Except FileFault FileTree} {files : FileTree}
    {s : Session} (h : change s.files = .ok files) :
    changeFiles change s = .ok () { s with files := files } := by
  rw [changeFiles, h]

theorem returns_pure (P : Session → Prop) (a : α) : Returns P (pure a) a P := fun s hs =>
  ⟨s, rfl, hs⟩

theorem Returns.bind {act : Act α} {a : α} {next : α → Act β} {b : β} (h : Returns P act a Q)
    (hnext : Returns Q (next a) b R) : Returns P (act >>= next) b R := by
  intro s hs
  -- The second operation starts in the session that the first one leaves.
  obtain ⟨t, ht, hQ⟩ := h s hs
  obtain ⟨u, hu, hR⟩ := hnext t hQ
  exact ⟨u, (bind_ok ht next).trans hu, hR⟩

theorem Returns.of_imp {P' : Session → Prop} {act : Act α} {a : α} (h : Returns P act a Q)
    (himp : ∀ s, P' s → P s) : Returns P' act a Q := fun s hs =>
  h s (himp s hs)

theorem Returns.attempt {act : Act α} {a : α} (h : Returns P act a Q) :
    Returns P act.attempt (.ok a) Q := by
  intro s hs
  obtain ⟨t, ht, hQ⟩ := h s hs
  exact ⟨t, attempt_ok ht, hQ⟩

theorem Returns.onRefusal {act : Act α} {a : α} (h : Returns P act a Q)
    (handle : FileFault → Act α) : Returns P (act.onRefusal handle) a Q :=
  h.attempt.bind (returns_pure Q a)

/-! ## Log records -/

theorem log_ok (severity : Severity) (phase message : String) (s : Session) :
    Act.log severity phase message s = .ok () (s.log ⟨severity, phase, message⟩) :=
  modify_ok _ s

theorem Lasting.log (h : Lasting P) (severity : Severity) (phase message : String) :
    Returns P (Act.log severity phase message) () P := fun s hs =>
  ⟨_, log_ok severity phase message s, h s _ hs⟩

theorem returns_forM {items : List α} {act : α → Act Unit}
    (h : ∀ x ∈ items, Returns P (act x) () P) :
    Returns P (items.forM act) () P := by
  induction items with
  | nil => exact returns_pure P ()
  | cons x items ih =>
    have hrest := ih fun y hy => h y (List.mem_cons_of_mem _ hy)
    exact (h x List.mem_cons_self).bind hrest

section Stage

variable {act : Act α} {s t : Session} {name phase : String} {context : List (String × String)}

/-- A stage whose work returns ends with a record, which has the time that the session gives then.
-/
theorem stage_ok {a : α}
    (h : act (s.log ⟨.info, phase, "[시작] " ++ name ++ contextText context⟩) = .ok a t) :
    ∃ r, Act.stage name phase context act s = .ok a (t.log r) := by
  refine ⟨⟨.success, phase, "[완료] " ++ name ++ (" (" ++ t.journal.stamps.elapsed ++ ")")⟩, ?_⟩
  rw [Act.stage, bind_ok (log_ok _ _ _ s), bind_ok (attempt_ok h), bind_ok (get_ok t)]
  exact bind_ok (log_ok _ _ _ t) _

theorem stage_error {e : Failure}
    (h : act (s.log ⟨.info, phase, "[시작] " ++ name ++ contextText context⟩) = .error e t) :
    ∃ r, Act.stage name phase context act s = .error e (t.log r) := by
  refine ⟨⟨.error, phase,
    "[실패] " ++ name ++ ": " ++ e.message ++ (" (" ++ t.journal.stamps.elapsed ++ ")")⟩, ?_⟩
  rw [Act.stage, bind_ok (log_ok _ _ _ s), bind_ok (attempt_error h), bind_ok (get_ok t)]
  exact bind_ok (log_ok _ _ _ t) _

end Stage

/-- A stage returns what the work in it returns. -/
theorem Returns.stage {act : Act α} {a : α} (h : Returns P act a Q) (hP : Lasting P)
    (hQ : Lasting Q) (name phase : String) (context : List (String × String)) :
    Returns P (Act.stage name phase context act) a Q := by
  intro s hs
  obtain ⟨t, ht, hQt⟩ := h _ (hP s _ hs)
  obtain ⟨r, hstage⟩ := stage_ok ht
  exact ⟨t.log r, hstage, hQ t r hQt⟩

end Act

end StructAtlas
