import StructAtlas.Journal

set_option autoImplicit false

/-!
# What file operations need of a tree

Whether a path leads somewhere and whether a file can be written there depends on the working
directory, on the guards and on where the files and directories stand, not on what the files hold.
Two trees that differ in the contents of files only are `Alike`: paths lead to the same places in
both, and the same directories can be made. A tree that has all files and directories of another one
`Keeps` it: what a path leads to there, it still leads to. If the files have the same contents too,
it `Extends` the other one, as a tree does in which directories were made
(`extends_makeDirectories`).

Log records change the contents of the log files. If every log file is there already, a record
leaves the tree alike, and it leaves a file as it is that is no log file
(`Journal.Settled.deliver`). Otherwise log files may come into being, but a file that is no log file
afterwards stays as it is too (`Journal.Spares.lookup_deliver`).
-/

namespace StructAtlas

/-- Whether a node is a directory. -/
def Node.isDirectory : Node → Bool
  | .directory => true
  | .file _ => false

namespace FileTree

/-- What kind of thing stands under a component list: a directory, or not. -/
def kind (t : FileTree) (key : List String) : Option Bool :=
  (t.lookup key).map Node.isDirectory

/-- Two trees with the same working directory and the same guards. -/
structure SameSystem (t t' : FileTree) : Prop where
  home : t.home = t'.home
  guards : t.guards = t'.guards

/-- Two trees that differ in the contents of files only. -/
structure Alike (t t' : FileTree) : Prop extends SameSystem t t' where
  kind : ∀ key, t.kind key = t'.kind key

/-- What stands in the first tree stands in the second one too. -/
structure Keeps (t t' : FileTree) : Prop extends SameSystem t t' where
  kind : ∀ key b, t.kind key = some b → t'.kind key = some b

/-- What stands in the first tree stands in the second one too, with the same content. -/
structure Extends (t t' : FileTree) : Prop extends SameSystem t t' where
  lookup : ∀ key n, t.lookup key = some n → t'.lookup key = some n

variable {t t' t'' : FileTree} {p : Path} {key : List String}

theorem SameSystem.refl (t : FileTree) : SameSystem t t := ⟨rfl, rfl⟩

theorem SameSystem.symm (h : SameSystem t t') : SameSystem t' t :=
  ⟨h.home.symm, h.guards.symm⟩

theorem SameSystem.trans (h : SameSystem t t') (h' : SameSystem t' t'') : SameSystem t t'' :=
  ⟨h.home.trans h'.home, h.guards.trans h'.guards⟩

theorem SameSystem.access (h : SameSystem t t') (key : List String) :
    t.access key = t'.access key := by
  rw [FileTree.access, FileTree.access, h.guards]

theorem SameSystem.origin (h : SameSystem t t') (p : Path) : t.origin p = t'.origin p := by
  rw [FileTree.origin, FileTree.origin, h.home]

theorem sameSystem_put (t : FileTree) (key : List String) (n : Node) :
    SameSystem t (t.put key n) := ⟨rfl, rfl⟩

theorem Alike.refl (t : FileTree) : Alike t t := ⟨.refl t, fun _ => rfl⟩

theorem Alike.symm (h : Alike t t') : Alike t' t :=
  ⟨h.toSameSystem.symm, fun key => (h.kind key).symm⟩

theorem Alike.trans (h : Alike t t') (h' : Alike t' t'') : Alike t t'' :=
  ⟨h.toSameSystem.trans h'.toSameSystem, fun key => (h.kind key).trans (h'.kind key)⟩

theorem Alike.keeps (h : Alike t t') : Keeps t t' :=
  ⟨h.toSameSystem, fun key _ hb => (h.kind key).symm.trans hb⟩

theorem Keeps.refl (t : FileTree) : Keeps t t := ⟨.refl t, fun _ _ h => h⟩

theorem Keeps.trans (h : Keeps t t') (h' : Keeps t' t'') : Keeps t t'' :=
  ⟨h.toSameSystem.trans h'.toSameSystem, fun key b hb => h'.kind key b (h.kind key b hb)⟩

theorem Extends.refl (t : FileTree) : Extends t t := ⟨.refl t, fun _ _ h => h⟩

theorem Extends.trans (h : Extends t t') (h' : Extends t' t'') : Extends t t'' :=
  ⟨h.toSameSystem.trans h'.toSameSystem, fun key n hn => h'.lookup key n (h.lookup key n hn)⟩

theorem Extends.keeps (h : Extends t t') : Keeps t t' := by
  refine ⟨h.toSameSystem, ?_⟩
  intro key b hb
  obtain ⟨n, hn, rfl⟩ := Option.map_eq_some_iff.1 hb
  rw [FileTree.kind, h.lookup key n hn]
  rfl

/-! ## Kinds -/

theorem kind_nil (t : FileTree) : t.kind [] = some true := rfl

theorem kind_eq_false : t.kind key = some false ↔ ∃ bytes, t.lookup key = some (.file bytes) := by
  cases h : t.lookup key with
  | none => simp [kind, h]
  | some n => cases n <;> simp [kind, h, Node.isDirectory]

theorem kind_put (t : FileTree) (h : key ≠ []) (n : Node) (other : List String) :
    (t.put key n).kind other = if other = key then some n.isDirectory else t.kind other := by
  rw [kind, lookup_put t h]
  split <;> rfl

theorem ne_nil_of_kind {b : Option Bool} (h : t.kind key = b) (hb : b ≠ some true) : key ≠ [] := by
  rintro rfl
  exact hb (h.symm.trans (kind_nil t))

/-- Something of the old kind may be put anywhere. -/
theorem Alike.put (h : Alike t t') (hkey : key ≠ []) {n n' : Node}
    (hn : n.isDirectory = n'.isDirectory) : Alike (t.put key n) (t'.put key n') := by
  refine ⟨⟨h.home, h.guards⟩, ?_⟩
  intro other
  rw [kind_put t hkey, kind_put t' hkey, hn, h.kind other]

theorem alike_put_file (h : t.kind key = some false) (bytes : List UInt8) :
    Alike t (t.put key (.file bytes)) := by
  refine ⟨sameSystem_put t key _, ?_⟩
  intro other
  rw [kind_put t (ne_nil_of_kind h (by decide))]
  split
  · rename_i e
    rw [e, h]
    rfl
  · rfl

/-- A file may be put where no directory stands. -/
theorem keeps_put_file (h : t.kind key ≠ some true) (bytes : List UInt8) :
    Keeps t (t.put key (.file bytes)) := by
  refine ⟨sameSystem_put t key _, ?_⟩
  intro other b hb
  rw [kind_put t (ne_nil_of_kind rfl h)]
  split
  · rename_i e
    subst e
    cases b with
    | true => exact absurd hb h
    | false => rfl
  · exact hb

theorem extends_put_new (h : t.kind key = none) (n : Node) : Extends t (t.put key n) := by
  refine ⟨sameSystem_put t key n, ?_⟩
  intro other m hm
  rw [lookup_put t (ne_nil_of_kind h (by decide))]
  split
  · rename_i e
    rw [e] at hm
    rw [kind, hm] at h
    cases h
  · exact hm

/-! ## Where paths lead -/

theorem walk_cons (t : FileTree) (key : List String) (p : String) (ps : List String) :
    t.walk key (p :: ps)
      = match t.kind key with
        | none => .error .notFound
        | some false => .error .notADirectory
        | some true =>
          match (t.access key).search with
          | some why => .error (.refused why)
          | none =>
            if p == ".." then t.walk key.dropLast ps
            else if componentLimit < p.utf8ByteSize then .error .nameTooLong
            else t.walk (key ++ [p]) ps := by
  rw [walk, kind]
  cases h : t.lookup key with
  | none => rfl
  | some n => cases n <;> rfl

/-- What a walk that arrives has met at its first step. -/
theorem walk_cons_eq_ok {p : String} {ps arrived : List String} :
    t.walk key (p :: ps) = .ok arrived ↔
      t.kind key = some true ∧ (t.access key).search = none
        ∧ (p = ".." ∧ t.walk key.dropLast ps = .ok arrived
          ∨ p ≠ ".." ∧ p.utf8ByteSize ≤ componentLimit
            ∧ t.walk (key ++ [p]) ps = .ok arrived) := by
  rw [walk_cons]
  rcases t.kind key with _ | _ | _
  · simp
  · simp
  · cases (t.access key).search with
    | some why => simp
    | none =>
      by_cases hup : p = ".."
      · simp [hup]
      · by_cases hlong : componentLimit < p.utf8ByteSize
        · simp [hup, hlong, Nat.not_le.2 hlong]
        · simp [hup, hlong, Nat.le_of_not_lt hlong]

/-- A walk that never goes up arrives behind its components. -/
theorem arrived_of_walk {ps arrived : List String} (hup : ".." ∉ ps)
    (h : t.walk key ps = .ok arrived) : arrived = key ++ ps := by
  induction ps generalizing key with
  | nil =>
    cases h
    exact (List.append_nil _).symm
  | cons p ps ih =>
    rw [List.mem_cons, not_or] at hup
    obtain ⟨-, -, ⟨rfl, -⟩ | ⟨-, -, hrest⟩⟩ := walk_cons_eq_ok.1 h
    · exact absurd rfl hup.1
    · rw [ih hup.2 hrest, List.append_assoc]
      rfl

theorem walk_append {ps arrived : List String} (h : t.walk key ps = .ok arrived)
    (qs : List String) : t.walk key (ps ++ qs) = t.walk arrived qs := by
  induction ps generalizing key with
  | nil =>
    cases h
    rfl
  | cons p ps ih =>
    obtain ⟨hkind, hsearch, ⟨rfl, hrest⟩ | ⟨hup, hlong, hrest⟩⟩ := walk_cons_eq_ok.1 h
    · simp only [List.cons_append, walk_cons, hkind, hsearch, beq_self_eq_true, ↓reduceIte]
      exact ih hrest
    · simp only [List.cons_append, walk_cons, hkind, hsearch, beq_eq_false_iff_ne.2 hup,
        Bool.false_eq_true, ↓reduceIte, Nat.not_lt.2 hlong]
      exact ih hrest

/-- What a path that leads to a place is like, and the walk along it. -/
theorem place_eq_ok :
    t.place p = .ok key ↔
      '\x00' ∉ p.toText.toList ∧ p.toText.utf8ByteSize ≤ pathLimit
        ∧ t.walk (t.origin p) p.parts = .ok key := by
  rw [place]
  by_cases hnull : '\x00' ∈ p.toText.toList
  · simp [hnull]
  · by_cases hlong : pathLimit < p.toText.utf8ByteSize
    · simp [hnull, hlong, Nat.not_le.2 hlong]
    · simp [hnull, hlong, Nat.le_of_not_lt hlong]

theorem Alike.walk (h : Alike t t') (key ps : List String) : t.walk key ps = t'.walk key ps := by
  induction ps generalizing key with
  | nil => rfl
  | cons p ps ih => rw [walk_cons, walk_cons, h.kind key, h.access key, ih, ih]

/-- A walk passes directories only, until it arrives, is refused or meets too long a name. -/
theorem walk_of_directories (hsame : SameSystem t t')
    (h : ∀ key, t.kind key = some true → t'.kind key = some true) {key ps : List String}
    {r : Except FileFault.Kind (List String)} (hw : t.walk key ps = r)
    (hfound : r ≠ .error .notFound) (hdirectory : r ≠ .error .notADirectory) :
    t'.walk key ps = r := by
  induction ps generalizing key with
  | nil => exact hw
  | cons p ps ih =>
    rw [walk_cons] at hw
    rw [walk_cons]
    cases hk : t.kind key with
    | none =>
      rw [hk] at hw
      exact absurd hw.symm hfound
    | some b =>
      cases b with
      | false =>
        rw [hk] at hw
        exact absurd hw.symm hdirectory
      | true =>
        simp only [hk] at hw
        simp only [h key hk, ← hsame.access key]
        cases hsearch : (t.access key).search with
        | some why =>
          rw [hsearch] at hw
          exact hw
        | none =>
          simp only [hsearch] at hw ⊢
          split at hw
          · rename_i hup
            rw [if_pos hup]
            exact ih hw
          · rename_i hup
            split at hw
            · rename_i hlength
              rw [if_neg hup, if_pos hlength]
              exact hw
            · rename_i hlength
              rw [if_neg hup, if_neg hlength]
              exact ih hw

theorem Alike.place (h : Alike t t') (p : Path) : t.place p = t'.place p := by
  rw [FileTree.place, FileTree.place, h.walk, h.origin]

theorem place_of_directories (hsame : SameSystem t t')
    (h : ∀ key, t.kind key = some true → t'.kind key = some true)
    {r : Except FileFault.Kind (List String)} (hp : t.place p = r)
    (hfound : r ≠ .error .notFound) (hdirectory : r ≠ .error .notADirectory) : t'.place p = r := by
  rw [FileTree.place] at hp ⊢
  split at hp
  · rename_i hnull
    rw [if_pos hnull]
    exact hp
  · rename_i hnull
    split at hp
    · rename_i hlong
      rw [if_neg hnull, if_pos hlong]
      exact hp
    · rename_i hlong
      rw [if_neg hnull, if_neg hlong, ← hsame.origin p]
      exact walk_of_directories hsame h hp hfound hdirectory

theorem Keeps.place (h : Keeps t t') (hp : t.place p = .ok key) : t'.place p = .ok key :=
  place_of_directories h.toSameSystem (fun key => h.kind key true) hp (fun e => by cases e)
    (fun e => by cases e)

/-! ## Where files can be written -/

theorem permit_eq_ok {why : Option Refusal} {u : Unit} : permit why = .ok u ↔ why = none := by
  cases why <;> simp [permit]

theorem permitEntry_eq (t : FileTree) (key : List String) :
    t.permitEntry key
      = match t.kind key.dropLast with
        | none => .error .notFound
        | some false => .error .notADirectory
        | some true => permit (t.access key.dropLast).write := by
  rw [permitEntry, kind]
  cases t.lookup key.dropLast with
  | none => rfl
  | some n => cases n <;> rfl

theorem permitEntry_eq_ok {u : Unit} :
    t.permitEntry key = .ok u ↔
      t.kind key.dropLast = some true ∧ (t.access key.dropLast).write = none := by
  rw [permitEntry_eq]
  rcases t.kind key.dropLast with _ | _ | _ <;> simp [permit_eq_ok]

theorem Alike.permitEntry (h : Alike t t') (key : List String) :
    t.permitEntry key = t'.permitEntry key := by
  rw [permitEntry_eq, permitEntry_eq, h.kind, h.access]

/-- The answer for a place, given what stands there, whether an entry can be made, and what is
refused at the place itself. -/
def answer (key : List String) (here : Option Bool) (entry : Except FileFault.Kind Unit)
    (own : Option Refusal) : Except FileFault.Kind (List String) :=
  match here with
  | some true => .error .isADirectory
  | some false => (permit own).map fun _ => key
  | none => entry.bind fun _ => (permit own).map fun _ => key

theorem target_eq (t : FileTree) (p : Path) :
    t.target p
      = (t.place p).bind fun key =>
        answer key (t.kind key) (t.permitEntry key)
          ((t.access key).read.or (t.access key).write) := by
  rw [target]
  cases hplace : t.place p with
  | error e => rfl
  | ok key =>
    simp only [kind, bind, Except.bind]
    cases t.lookup key with
    | some n => cases n <;> rfl
    | none => rfl

theorem Alike.target (h : Alike t t') (p : Path) : t.target p = t'.target p := by
  rw [target_eq, target_eq, h.place p]
  congr 1
  funext key
  rw [h.kind key, h.permitEntry key, h.access key]

/-- A file may be read and written at a place. -/
def IsFree (t : FileTree) (key : List String) : Prop :=
  (t.access key).read = none ∧ (t.access key).write = none

theorem SameSystem.isFree (h : SameSystem t t') (hfree : t.IsFree key) : t'.IsFree key := by
  rwa [IsFree, ← h.access key]

theorem answer_eq_ok {here : Option Bool} {entry : Except FileFault.Kind Unit}
    {own : Option Refusal} {key' : List String} :
    answer key here entry own = .ok key' ↔
      key = key' ∧ (here = some false ∨ here = none ∧ entry = .ok ()) ∧ own = none := by
  rcases here with _ | _ | _ <;> cases entry <;> cases own <;>
    simp [answer, permit, Except.map, Except.bind]

/-- A place where a file can be written: a file stands there, or nothing and a directory above in
which an entry can be made, and nothing is refused at the place. -/
theorem target_eq_ok :
    t.target p = .ok key ↔
      t.place p = .ok key
        ∧ (t.kind key = some false ∨ t.kind key = none ∧ t.permitEntry key = .ok ())
        ∧ t.IsFree key := by
  rw [target_eq, IsFree]
  cases hplace : t.place p with
  | error e => simp [Except.bind]
  | ok key' =>
    simp only [Except.bind, answer_eq_ok, Except.ok.injEq, Option.or_eq_none_iff]
    constructor
    · rintro ⟨rfl, h⟩
      exact ⟨rfl, h⟩
    · rintro ⟨rfl, h⟩
      exact ⟨rfl, h⟩

theorem ne_directory_of_target (h : t.target p = .ok key) : t.kind key ≠ some true := by
  rcases (target_eq_ok.1 h).2.1 with hk | ⟨hk, -⟩ <;> rw [hk] <;> decide

theorem write_of_target (h : t.target p = .ok key) (bytes : List UInt8) :
    t.write p bytes = .ok (t.put key (.file bytes)) := by
  rw [write, h]
  rfl

/-- Bytes can be appended where a file can be written. -/
theorem append_of_target (h : t.target p = .ok key) (bytes : List UInt8) :
    ∃ content, t.append p bytes = .ok (t.put key (.file content)) := by
  rw [append, h]
  simp only [bind, Except.bind]
  split
  · exact ⟨_, rfl⟩
  · exact ⟨_, rfl⟩

/-- What is appended goes to a place for files. -/
theorem append_eq_ok {bytes : List UInt8} (h : t.append p bytes = .ok t') :
    ∃ key content, t.target p = .ok key ∧ t' = t.put key (.file content) := by
  rw [append] at h
  cases htarget : t.target p with
  | error e => simp [htarget, bind, Except.bind, blame] at h
  | ok key =>
    simp only [htarget, bind, Except.bind] at h
    split at h
    · rename_i old _
      exact ⟨key, old ++ bytes, rfl, (Except.ok.inj h).symm⟩
    · exact ⟨key, bytes, rfl, (Except.ok.inj h).symm⟩

/-- A file that was written leaves the other places for files as they are. -/
theorem target_put {q : Path} {other : List String} (h : t.target p = .ok key)
    (h' : t.target q = .ok other) (bytes : List UInt8) :
    (t.put key (.file bytes)).target q = .ok other := by
  have hkeeps : Keeps t (t.put key (.file bytes)) :=
    keeps_put_file (ne_directory_of_target h) bytes
  obtain ⟨hplace, hkind, hfree⟩ := target_eq_ok.1 h'
  refine target_eq_ok.2 ⟨hkeeps.place hplace, ?_, hkeeps.isFree hfree⟩
  -- The other place held a file, or nothing; the new file may be the one that now stands there.
  rcases hkind with hfile | ⟨hnone, habove⟩
  · exact Or.inl (hkeeps.kind other false hfile)
  · rw [kind_put t (ne_nil_of_kind rfl (ne_directory_of_target h))]
    split
    · exact Or.inl rfl
    · obtain ⟨hdirectory, hwrite⟩ := permitEntry_eq_ok.1 habove
      exact Or.inr ⟨hnone, permitEntry_eq_ok.2 ⟨hkeeps.kind _ _ hdirectory, hwrite⟩⟩

theorem read_eq_ok {bytes : List UInt8} :
    t.read p = .ok bytes ↔
      ∃ key, t.place p = .ok key ∧ t.lookup key = some (.file bytes)
        ∧ (t.access key).read = none := by
  rw [read]
  cases t.place p with
  | error e => simp [bind, Except.bind, blame]
  | ok key =>
    cases hlookup : t.lookup key with
    | none => simp [bind, Except.bind, blame, hlookup, throw, throwThe, MonadExceptOf.throw]
    | some n =>
      cases hread : (t.access key).read <;> cases n <;>
        simp [bind, Except.bind, blame, hlookup, hread, permit, throw, throwThe,
          MonadExceptOf.throw, pure, Except.pure]

/-- A file that can be read is there. -/
theorem contains_of_read {bytes : List UInt8} (h : t.read p = .ok bytes) :
    t.contains p = .ok true := by
  obtain ⟨key, hplace, hlookup, -⟩ := read_eq_ok.1 h
  simp only [contains, find?, hplace, hlookup]
  rfl

/-! ## Making directories -/

/-- Two outcomes of one operation in trees that are alike. -/
inductive SameOutcome : Except FileFault FileTree → Except FileFault FileTree → Prop
  | ok {m m' : FileTree} : Alike m m' → SameOutcome (.ok m) (.ok m')
  | error {fault : FileFault} : SameOutcome (.error fault) (.error fault)

theorem SameOutcome.exists_ok {r : Except FileFault FileTree} {m : FileTree}
    (h : SameOutcome (.ok m) r) : ∃ m', r = .ok m' ∧ Alike m m' := by
  cases h with
  | ok halike => exact ⟨_, rfl, halike⟩

theorem isDirectory_eq (t : FileTree) (p : Path) :
    t.isDirectory p
      = match t.place p with
        | .ok key => .ok (t.kind key == some true)
        | .error kind => if isNowhere kind then .ok false else .error ⟨kind, p.toText⟩ := by
  rw [isDirectory, find?]
  cases hplace : t.place p with
  | error e => cases e <;> rfl
  | ok key =>
    simp only [Except.map, kind]
    cases t.lookup key with
    | none => rfl
    | some n => cases n <;> rfl

theorem isDirectory_of_place {p : Path} {key : List String} (hplace : t.place p = .ok key)
    (hkind : t.kind key = some true) : t.isDirectory p = .ok true := by
  rw [isDirectory_eq, hplace]
  simp only [hkind]
  rfl

theorem exists_place_of_isDirectory {p : Path} (h : t.isDirectory p = .ok true) :
    ∃ key, t.place p = .ok key ∧ t.kind key = some true := by
  rw [isDirectory_eq] at h
  split at h
  · rename_i key hplace
    exact ⟨key, hplace, by simpa using h⟩
  · split at h
    · cases h
    · cases h

theorem Alike.isDirectory (h : Alike t t') (p : Path) : t.isDirectory p = t'.isDirectory p := by
  rw [isDirectory_eq, isDirectory_eq, h.place p]
  simp only [h.kind _]

theorem makeDirectory_eq (t : FileTree) (p : Path) :
    t.makeDirectory p
      = blame p ((t.place p).bind fun key =>
          match t.kind key with
          | some _ => .error .alreadyExists
          | none => (t.permitEntry key).map fun _ => t.put key .directory) := by
  rw [makeDirectory]
  congr 1
  cases hplace : t.place p with
  | error e => rfl
  | ok key =>
    simp only [kind, bind, Except.bind]
    cases t.lookup key with
    | some n => rfl
    | none => rfl

theorem Alike.makeDirectory (h : Alike t t') (p : Path) :
    SameOutcome (t.makeDirectory p) (t'.makeDirectory p) := by
  rw [makeDirectory_eq, makeDirectory_eq, h.place p]
  cases t'.place p with
  | error e => exact .error
  | ok key =>
    simp only [Except.bind, h.kind key, h.permitEntry key]
    cases hk : t'.kind key with
    | some b => exact .error
    | none =>
      cases t'.permitEntry key with
      | error e => exact .error
      | ok u => exact .ok (h.put (ne_nil_of_kind hk (by decide)) rfl)

theorem Alike.ensureDirectory (h : Alike t t') (p : Path) :
    SameOutcome (t.ensureDirectory p) (t'.ensureDirectory p) := by
  have hmade := h.makeDirectory p
  rw [FileTree.ensureDirectory, FileTree.ensureDirectory, ← h.isDirectory p]
  generalize t.makeDirectory p = made at hmade ⊢
  generalize t'.makeDirectory p = made' at hmade ⊢
  cases hmade with
  | ok halike => exact .ok halike
  | @error fault =>
    simp only
    split
    · exact .error
    · exact .error
    · exact .ok h
    · exact .error
    · exact .error

theorem Alike.ensureDirectories (fuel : Nat) (h : Alike t t') (p : Path) :
    SameOutcome (ensureDirectories fuel t p) (ensureDirectories fuel t' p) := by
  induction fuel generalizing p with
  | zero => exact h.ensureDirectory p
  | succ fuel ih =>
    have hdirect := h.ensureDirectory p
    rw [FileTree.ensureDirectories, FileTree.ensureDirectories]
    generalize t.ensureDirectory p = made at hdirect ⊢
    generalize t'.ensureDirectory p = made' at hdirect ⊢
    cases hdirect with
    | ok halike => exact .ok halike
    | @error fault =>
      simp only
      split
      · -- The directories above are made first, alike in both trees.
        have habove := ih p.parent
        generalize FileTree.ensureDirectories fuel t p.parent = above at habove ⊢
        generalize FileTree.ensureDirectories fuel t' p.parent = above' at habove ⊢
        cases habove with
        | ok halike => exact halike.ensureDirectory p
        | error => exact .error
      · exact .error

theorem Alike.makeDirectories (h : Alike t t') (p : Path) :
    SameOutcome (t.makeDirectories p) (t'.makeDirectories p) :=
  h.ensureDirectories p.parts.length p

theorem extends_makeDirectory {m : FileTree} (h : t.makeDirectory p = .ok m) : Extends t m := by
  rw [makeDirectory_eq] at h
  cases hplace : t.place p with
  | error e => simp [hplace, Except.bind, blame] at h
  | ok key =>
    simp only [hplace, Except.bind] at h
    cases hk : t.kind key with
    | some b => simp [hk, blame] at h
    | none =>
      cases hentry : t.permitEntry key with
      | error e => simp [hk, hentry, Except.map, blame] at h
      | ok u =>
        simp only [hk, hentry, Except.map, blame, Except.ok.injEq] at h
        subst h
        exact extends_put_new hk _

theorem extends_ensureDirectory {m : FileTree} (h : t.ensureDirectory p = .ok m) :
    Extends t m := by
  rw [ensureDirectory] at h
  cases hmake : t.makeDirectory p with
  | ok made =>
    simp only [hmake, Except.ok.injEq] at h
    subst h
    exact extends_makeDirectory hmake
  | error fault =>
    obtain ⟨kind, path⟩ := fault
    rw [hmake] at h
    -- The fault is passed over only if the directory is there, and then nothing changes.
    cases hdir : t.isDirectory p with
    | error other => cases kind <;> simp [hdir] at h
    | ok b =>
      cases b with
      | false => cases kind <;> simp [hdir] at h
      | true =>
        have hm : t = m := by cases kind <;> simp_all
        subst hm
        exact Extends.refl t

theorem extends_ensureDirectories {fuel : Nat} {m : FileTree}
    (h : ensureDirectories fuel t p = .ok m) : Extends t m := by
  induction fuel generalizing p m with
  | zero => exact extends_ensureDirectory h
  | succ fuel ih =>
    rw [ensureDirectories] at h
    cases hdirect : t.ensureDirectory p with
    | ok made =>
      simp only [hdirect, Except.ok.injEq] at h
      subst h
      exact extends_ensureDirectory hdirect
    | error fault =>
      simp only [hdirect] at h
      split at h
      · cases habove : ensureDirectories fuel t p.parent with
        | error e => simp [habove, bind, Except.bind] at h
        | ok above =>
          simp only [habove, bind, Except.bind] at h
          exact (ih habove).trans (extends_ensureDirectory h)
      · cases h

/-- Making directories takes nothing away and changes no file. -/
theorem extends_makeDirectories {m : FileTree} (h : t.makeDirectories p = .ok m) : Extends t m :=
  extends_ensureDirectories h

end FileTree

/-! ## Log files -/

namespace Journal

open FileTree

/-- Every log file is there already, and it is another file than the given one. -/
def Settled (j : Journal) (files : FileTree) (apart : List String) : Prop :=
  ∀ o ∈ j.outlets, ∀ p, o.sink = .file p →
    ∃ key, files.place p = .ok key ∧ files.kind key = some false ∧ key ≠ apart

variable {j : Journal} {files files' : FileTree} {apart : List String}

theorem Settled.of_keeps (h : j.Settled files apart) (hkeeps : Keeps files files') :
    j.Settled files' apart := by
  intro o ho p hp
  obtain ⟨key, hplace, hkind, hne⟩ := h o ho p hp
  exact ⟨key, hkeeps.place hplace, hkeeps.kind key false hkind, hne⟩

theorem Settled.push (h : j.Settled files apart) (r : Record) : (j.push r).Settled files apart :=
  h

theorem deliverTo_alike (j : Journal) (r : Record) {o : Outlet}
    (h : ∀ p, o.sink = .file p →
      ∃ key, files.place p = .ok key ∧ files.kind key = some false ∧ key ≠ apart) :
    Alike files (j.deliverTo r files o)
      ∧ (j.deliverTo r files o).lookup apart = files.lookup apart := by
  rw [deliverTo]
  cases hsink : o.sink with
  | console => exact ⟨Alike.refl files, rfl⟩
  | memory => exact ⟨Alike.refl files, rfl⟩
  | file p =>
    obtain ⟨key, hplace, hkind, hne⟩ := h p hsink
    simp only
    split
    · cases happend : files.append p (Charset.Utf8.bytesOf (j.line r)) with
      | error fault => exact ⟨Alike.refl files, rfl⟩
      | ok made =>
        -- The record is appended to a file that stands where it stood.
        obtain ⟨key', content, htarget, rfl⟩ := append_eq_ok happend
        obtain rfl : key = key' := by
          simpa [hplace] using (target_eq_ok.1 htarget).1
        refine ⟨alike_put_file hkind _, ?_⟩
        rw [lookup_put files (ne_nil_of_kind hkind (by decide)), if_neg fun e => hne e.symm]
    · exact ⟨Alike.refl files, rfl⟩

/-- A record changes the contents of log files only. -/
theorem Settled.deliver (h : j.Settled files apart) (r : Record) :
    Alike files (j.deliver r files) ∧ (j.deliver r files).lookup apart = files.lookup apart := by
  rw [Journal.deliver]
  rw [Settled] at h
  generalize j.outlets = outlets at h
  induction outlets generalizing files with
  | nil => exact ⟨Alike.refl files, rfl⟩
  | cons o outlets ih =>
    obtain ⟨halike, hlookup⟩ := deliverTo_alike j r (h o List.mem_cons_self)
    have hrest : ∀ o' ∈ outlets, ∀ p, o'.sink = .file p →
        ∃ key, (j.deliverTo r files o).place p = .ok key
          ∧ (j.deliverTo r files o).kind key = some false ∧ key ≠ apart := by
      intro o' ho' p hp
      obtain ⟨key, hplace, hkind, hne⟩ := h o' (List.mem_cons_of_mem _ ho') p hp
      exact ⟨key, halike.keeps.place hplace, halike.keeps.kind key false hkind, hne⟩
    obtain ⟨halike', hlookup'⟩ := ih hrest
    exact ⟨halike.trans halike', hlookup'.trans hlookup⟩

/-- An outlet leaves the tree as it is, or it puts a new content into its log file. -/
theorem deliverTo_cases (j : Journal) (r : Record) (files : FileTree) (o : Outlet) :
    j.deliverTo r files o = files
      ∨ ∃ p key content, o.sink = .file p ∧ files.target p = .ok key
        ∧ j.deliverTo r files o = files.put key (.file content) := by
  rw [deliverTo]
  split
  · rename_i p hsink
    split
    · split
      · rename_i made happend
        obtain ⟨key, content, htarget, rfl⟩ := append_eq_ok happend
        exact Or.inr ⟨p, key, content, hsink, htarget, rfl⟩
      · exact Or.inl rfl
    · exact Or.inl rfl
  · exact Or.inl rfl

/-- What files put at the places of log files do not take away, a record does not take away. -/
theorem deliver_induction {P : FileTree → Prop} (r : Record)
    (hput : ∀ t key content o p, P t → o ∈ j.outlets → o.sink = .file p → t.target p = .ok key →
      P (t.put key (.file content))) (h : P files) : P (j.deliver r files) := by
  rw [Journal.deliver]
  generalize j.outlets = outlets at hput
  induction outlets generalizing files with
  | nil => exact h
  | cons o outlets ih =>
    refine ih ?_ fun t key content o' p ht ho' =>
      hput t key content o' p ht (List.mem_cons_of_mem _ ho')
    rcases deliverTo_cases j r files o with hsame | ⟨p, key, content, hsink, htarget, hnew⟩
    · rwa [hsame]
    · rw [hnew]
      exact hput files key content o p h List.mem_cons_self hsink htarget

theorem keeps_deliverTo (j : Journal) (r : Record) (files : FileTree) (o : Outlet) :
    Keeps files (j.deliverTo r files o) := by
  rcases deliverTo_cases j r files o with hsame | ⟨p, key, content, -, htarget, hnew⟩
  · rw [hsame]
    exact Keeps.refl files
  · rw [hnew]
    exact keeps_put_file (ne_directory_of_target htarget) content

theorem keeps_foldl_deliverTo (j : Journal) (r : Record) (outlets : List Outlet)
    (files : FileTree) : Keeps files (outlets.foldl (j.deliverTo r) files) := by
  induction outlets generalizing files with
  | nil => exact Keeps.refl files
  | cons o outlets ih => exact (keeps_deliverTo j r files o).trans (ih _)

/-- A record takes nothing away. -/
theorem keeps_deliver (j : Journal) (r : Record) (files : FileTree) :
    Keeps files (j.deliver r files) :=
  keeps_foldl_deliverTo j r j.outlets files

theorem lookup_deliverTo (j : Journal) (r : Record) {o : Outlet}
    (h : ∀ p, o.sink = .file p → files.place p ≠ .ok apart) :
    (j.deliverTo r files o).lookup apart = files.lookup apart := by
  rcases deliverTo_cases j r files o with hsame | ⟨p, key, content, hsink, htarget, hnew⟩
  · rw [hsame]
  · have hne : apart ≠ key := by
      rintro rfl
      exact h p hsink (target_eq_ok.1 htarget).1
    rw [hnew, lookup_put files (ne_nil_of_kind rfl (ne_directory_of_target htarget)), if_neg hne]

/-- No log file is the file of a path. -/
def Spares (j : Journal) (files : FileTree) (path : Path) : Prop :=
  ∀ o ∈ j.outlets, ∀ p, o.sink = .file p → files.place p ≠ files.place path

/-- A record leaves a file as it is that is no log file afterwards. Log files may be created on the
way. -/
theorem Spares.lookup_deliver {path : Path} {r : Record}
    (h : j.Spares (j.deliver r files) path) (hplace : files.place path = .ok apart) :
    (j.deliver r files).lookup apart = files.lookup apart := by
  rw [Spares, (keeps_deliver j r files).place hplace] at h
  rw [Journal.deliver] at h ⊢
  generalize j.outlets = outlets at h
  induction outlets generalizing files with
  | nil => rfl
  | cons o outlets ih =>
    have hkeeps := keeps_deliverTo j r files o
    -- A log file that was found on the way would be found at the end as well.
    have hfirst : ∀ p, o.sink = .file p → files.place p ≠ .ok apart := by
      intro p hp hfound
      have hlast := keeps_foldl_deliverTo j r (o :: outlets) files
      exact h o List.mem_cons_self p hp (hlast.place hfound)
    have hrest := ih (hkeeps.place hplace) fun o' ho' => h o' (List.mem_cons_of_mem _ ho')
    exact hrest.trans (lookup_deliverTo j r hfirst)

/-- A record that goes to no file changes no file. -/
theorem deliver_eq_self (h : ∀ o ∈ j.outlets, ∀ p, o.sink ≠ .file p) (r : Record)
    (files : FileTree) : j.deliver r files = files := by
  rw [Journal.deliver]
  generalize j.outlets = outlets at h
  induction outlets with
  | nil => rfl
  | cons o outlets ih =>
    have ho : j.deliverTo r files o = files := by
      rcases deliverTo_cases j r files o with hsame | ⟨p, -, -, hsink, -⟩
      · exact hsame
      · exact absurd hsink (h o List.mem_cons_self p)
    rw [List.foldl_cons, ho]
    exact ih fun o' ho' => h o' (List.mem_cons_of_mem _ ho')

end Journal

end StructAtlas
