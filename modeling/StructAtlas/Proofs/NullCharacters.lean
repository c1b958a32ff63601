import StructAtlas.Proofs.SessionTrace

set_option autoImplicit false

/-!
# Paths without null characters

A null character in a path is the one fault of a file operation that a run does not go on after. A
path has one exactly if its root or a component has one (`Path.isNullFree_iff`). Every operation on
a path without null characters is refused, if it is, for another reason (`FileTree.read_kind`,
`FileTree.makeDirectories_kind`), so a problem is noted whatever becomes of the file that lists the
problems (`Act.exists_report`). Log records bring no null characters into a tree
(`FileTree.IsNullFree.deliver`).
-/

namespace StructAtlas

/-- A character that is no part of the separator stands in one of the joined texts. -/
theorem mem_toList_intercalate {sep : String} {c : Char} (hsep : c ∉ sep.toList)
    (texts : List String) :
    c ∈ (sep.intercalate texts).toList ↔ ∃ text ∈ texts, c ∈ text.toList := by
  induction texts with
  | nil => simp
  | cons text texts ih =>
    cases texts with
    | nil => simp
    | cons next texts =>
      rw [String.intercalate_cons_cons, String.toList_append, String.toList_append,
        List.mem_append, List.mem_append, ih]
      simp [hsep]

namespace Path

/-- No null character stands in a path. -/
structure IsNullFree (p : Path) : Prop where
  root : '\x00' ∉ p.root.toList
  parts : ∀ part ∈ p.parts, '\x00' ∉ part.toList

variable {p : Path}

theorem isNullFree_iff : p.IsNullFree ↔ '\x00' ∉ p.toText.toList := by
  have hslash : '\x00' ∉ "/".toList := by decide
  rw [toText]
  split
  · rename_i hempty
    obtain ⟨hroot, hparts⟩ := Bool.and_eq_true_iff.1 hempty
    rw [List.isEmpty_iff] at hparts
    refine iff_of_true ⟨?_, ?_⟩ (by decide)
    · rw [String.isEmpty_iff.1 hroot]
      exact List.not_mem_nil
    · rw [hparts]
      intro part hpart
      cases hpart
  · rw [String.toList_append, List.mem_append, mem_toList_intercalate hslash, not_or]
    constructor
    · intro h
      refine ⟨h.root, ?_⟩
      rintro ⟨part, hpart, hnull⟩
      exact h.parts part hpart hnull
    · rintro ⟨hroot, hparts⟩
      exact ⟨hroot, fun part hpart hnull => hparts ⟨part, hpart, hnull⟩⟩

theorem IsNullFree.parent (h : p.IsNullFree) : p.parent.IsNullFree :=
  ⟨h.root, fun part hpart => h.parts part ((List.dropLast_sublist _).subset hpart)⟩

theorem IsNullFree.join (h : p.IsNullFree) {parts : List String}
    (hparts : ∀ part ∈ parts, '\x00' ∉ part.toList) : (p.join ⟨"", parts⟩).IsNullFree := by
  have hjoin : p.join ⟨"", parts⟩ = ⟨p.root, p.parts ++ parts⟩ := rfl
  rw [hjoin]
  refine ⟨h.root, ?_⟩
  intro part hpart
  rcases List.mem_append.1 hpart with hpart | hpart
  · exact h.parts part hpart
  · exact hparts part hpart

end Path

/-! ## Refusals -/

namespace FileTree

variable {t : FileTree} {p : Path} {kind : FileFault.Kind} {fault : FileFault}

theorem walk_kind {key ps : List String} (h : t.walk key ps = .error kind) :
    kind ≠ .nullCharacter := by
  induction ps generalizing key with
  | nil => cases h
  | cons q ps ih =>
    rw [walk_cons] at h
    split at h
    · cases h
      decide
    · cases h
      decide
    · split at h
      · cases h
        exact FileFault.Kind.noConfusion
      · split at h
        · exact ih h
        · split at h
          · cases h
            decide
          · exact ih h

theorem place_kind (hp : p.IsNullFree) (h : t.place p = .error kind) : kind ≠ .nullCharacter := by
  rw [place] at h
  split at h
  · rename_i hnull
    exact absurd (List.contains_iff_mem.1 hnull) (Path.isNullFree_iff.1 hp)
  · split at h
    · cases h
      decide
    · exact walk_kind h

theorem isNullFree_of_place {key : List String} (h : t.place p = .ok key) : p.IsNullFree :=
  Path.isNullFree_iff.2 (place_eq_ok.1 h).1

theorem permit_kind {why : Option Refusal} (h : permit why = .error kind) :
    kind ≠ .nullCharacter := by
  cases why with
  | none => cases h
  | some why =>
    cases h
    exact FileFault.Kind.noConfusion

theorem permitEntry_kind {key : List String} (h : t.permitEntry key = .error kind) :
    kind ≠ .nullCharacter := by
  rw [permitEntry_eq] at h
  split at h
  · cases h
    decide
  · cases h
    decide
  · exact permit_kind h

/-- A refusal that comes from a place or from what stands there. -/
theorem blame_kind {α : Type} {r : Except FileFault.Kind α}
    (hr : ∀ kind, r = .error kind → kind ≠ .nullCharacter) (h : blame p r = .error fault) :
    fault.kind ≠ .nullCharacter := by
  cases r with
  | ok a => cases h
  | error kind =>
    cases h
    exact hr kind rfl

theorem read_kind (hp : p.IsNullFree) (h : t.read p = .error fault) :
    fault.kind ≠ .nullCharacter := by
  refine blame_kind (fun kind hkind => ?_) h
  cases hplace : t.place p with
  | error e =>
    rw [hplace] at hkind
    cases hkind
    exact place_kind hp hplace
  | ok key =>
    simp only [hplace, bind, Except.bind] at hkind
    split at hkind
    · cases hkind
      decide
    · split at hkind
      · rename_i hpermit
        cases hkind
        exact permit_kind hpermit
      · split at hkind
        · cases hkind
        · cases hkind
          decide

theorem answer_kind {key : List String} {here : Option Bool} {entry : Except FileFault.Kind Unit}
    {own : Option Refusal} (hentry : ∀ e, entry = .error e → e ≠ .nullCharacter)
    (h : answer key here entry own = .error kind) : kind ≠ .nullCharacter := by
  have hown (h : (permit own).map (fun _ => key) = .error kind) : kind ≠ .nullCharacter := by
    cases hpermit : permit own with
    | ok u => simp [hpermit, Except.map] at h
    | error e =>
      rw [hpermit] at h
      cases h
      exact permit_kind hpermit
  rw [answer.eq_def] at h
  split at h
  · cases h
    decide
  · exact hown h
  · cases entry with
    | ok u => exact hown h
    | error e =>
      cases h
      exact hentry _ rfl

theorem target_kind (hp : p.IsNullFree) (h : t.target p = .error kind) :
    kind ≠ .nullCharacter := by
  rw [target_eq] at h
  cases hplace : t.place p with
  | error e =>
    rw [hplace] at h
    cases h
    exact place_kind hp hplace
  | ok key =>
    rw [hplace] at h
    exact answer_kind (fun _ => permitEntry_kind) h

theorem append_kind (hp : p.IsNullFree) {bytes : List UInt8} (h : t.append p bytes = .error fault) :
    fault.kind ≠ .nullCharacter := by
  refine blame_kind (fun kind hkind => ?_) h
  cases htarget : t.target p with
  | error e =>
    rw [htarget] at hkind
    cases hkind
    exact target_kind hp htarget
  | ok key =>
    simp only [htarget, bind, Except.bind] at hkind
    split at hkind <;> cases hkind

theorem makeDirectory_kind (hp : p.IsNullFree) (h : t.makeDirectory p = .error fault) :
    fault.kind ≠ .nullCharacter := by
  refine blame_kind (fun kind hkind => ?_) h
  cases hplace : t.place p with
  | error e =>
    rw [hplace] at hkind
    cases hkind
    exact place_kind hp hplace
  | ok key =>
    simp only [hplace, bind, Except.bind] at hkind
    split at hkind
    · cases hkind
      decide
    · split at hkind
      · rename_i hentry
        cases hkind
        exact permitEntry_kind hentry
      · cases hkind

theorem isDirectory_kind (h : t.isDirectory p = .error fault) : fault.kind ≠ .nullCharacter := by
  rw [isDirectory_eq] at h
  split at h
  · cases h
  · split at h
    · cases h
    · rename_i hnowhere
      cases h
      rintro rfl
      exact hnowhere rfl

theorem ensureDirectory_kind (hp : p.IsNullFree) (h : t.ensureDirectory p = .error fault) :
    fault.kind ≠ .nullCharacter := by
  rw [ensureDirectory] at h
  split at h
  · cases h
  · rename_i other hmake
    have hother := makeDirectory_kind hp hmake
    -- The refusal is that of the directory, or that of the question what stands there.
    split at h
    · cases h
      exact hother
    · cases h
      exact hother
    · cases h
    · cases h
      exact hother
    · rename_i hdirectory _ _
      cases h
      exact isDirectory_kind hdirectory

theorem ensureDirectories_kind {fuel : Nat} (hp : p.IsNullFree)
    (h : ensureDirectories fuel t p = .error fault) : fault.kind ≠ .nullCharacter := by
  induction fuel generalizing t p with
  | zero => exact ensureDirectory_kind hp h
  | succ fuel ih =>
    rw [ensureDirectories] at h
    split at h
    · cases h
    · rename_i other hother
      split at h
      · cases hparent : ensureDirectories fuel t p.parent with
        | error e =>
          rw [hparent] at h
          cases h
          exact ih hp.parent hparent
        | ok made =>
          rw [hparent] at h
          exact ensureDirectory_kind hp h
      · cases h
        exact ensureDirectory_kind hp hother

theorem makeDirectories_kind (hp : p.IsNullFree) (h : t.makeDirectories p = .error fault) :
    fault.kind ≠ .nullCharacter :=
  ensureDirectories_kind hp h

end FileTree

/-! ## Problems are noted -/

namespace Act

variable {α : Type} {act : Act α} {s : Session}

/-- An operation that is refused for no null character is handled. -/
theorem exists_onRefusal {handle : FileFault → Act α}
    (h : ∀ e t, act s = .error e t → ∃ fault, e = .file fault ∧ fault.kind ≠ .nullCharacter)
    (hhandle : ∀ fault t, ∃ a u, handle fault t = .ok a u) :
    ∃ a t, act.onRefusal handle s = .ok a t := by
  cases hact : act s with
  | ok a t => exact ⟨a, t, bind_ok (attempt_ok hact) _⟩
  | error e t =>
    obtain ⟨fault, rfl, hkind⟩ := h e t hact
    obtain ⟨a, u, hhandle⟩ := hhandle fault t
    refine ⟨a, u, (bind_ok (attempt_error hact) _).trans ?_⟩
    simp only
    rw [if_neg (by simpa using hkind)]
    exact hhandle

theorem changeFiles_kind {change : FileTree → Except FileFault FileTree} {e : Failure} {t : Session}
    (hchange : ∀ files fault, change files = .error fault → fault.kind ≠ .nullCharacter)
    (h : changeFiles change s = .error e t) :
    ∃ fault, e = .file fault ∧ fault.kind ≠ .nullCharacter := by
  rw [changeFiles] at h
  split at h
  · cases h
  · rename_i fault hfault
    cases h
    exact ⟨fault, rfl, hchange _ fault hfault⟩

/-- A problem is noted, unless the file that lists the problems has a null character in its path. -/
theorem exists_report (hpath : ∀ p, s.problems.path = some p → p.IsNullFree) (kind : ProblemKind)
    (message : String) : ∃ t, report kind message s = .ok () t := by
  rw [report, bind_ok (modify_ok _ s), bind_ok (get_ok _)]
  cases hlist : (s.problems.add ⟨kind, message⟩).path with
  | none => exact ⟨_, rfl⟩
  | some path =>
    have hfree := hpath path hlist
    -- The directory and the line can be refused, and then a record says so.
    have hact (u : Session) (e : Failure) (t : Session)
        (he : (do makeDirectories path.parent
                  changeFiles (·.append path
                    (Charset.Utf8.bytesOf ((Problem.mk kind message).toText ++ "\n"))) : Act Unit) u
          = .error e t) : ∃ fault, e = .file fault ∧ fault.kind ≠ .nullCharacter := by
      rcases bind_eq_error he with hmake | ⟨_, u, -, happend⟩
      · exact changeFiles_kind (fun _ _ => FileTree.makeDirectories_kind hfree.parent) hmake
      · exact changeFiles_kind (fun _ _ => FileTree.append_kind hfree) happend
    have hhandle (fault : FileFault) (t : Session) : ∃ a u, log .error appPhase
        ("오류 파일 기록 실패: " ++ path.toText ++ ": " ++ fault.message) t = .ok a u :=
      ⟨(), _, log_ok _ _ _ t⟩
    obtain ⟨⟨⟩, t, ht⟩ := exists_onRefusal (hact _) hhandle
    exact ⟨t, ht⟩

end Act

/-! ## Trees -/

namespace FileTree

variable {t : FileTree}

/-- No name in a tree has a null character. -/
structure IsNullFree (t : FileTree) : Prop where
  home : ∀ part ∈ t.home, '\x00' ∉ part.toList
  nodes : ∀ n ∈ t.nodes, ∀ part ∈ n.1, '\x00' ∉ part.toList

theorem mem_putNode {key : List String} {node : Node} {ns : List (List String × Node)}
    {n : List String × Node} (h : n ∈ putNode key node ns) : n = (key, node) ∨ n ∈ ns := by
  induction ns with
  | nil => exact Or.inl (List.mem_singleton.1 h)
  | cons m ns ih =>
    rw [putNode] at h
    split at h
    · rcases List.mem_cons.1 h with h | h
      · exact Or.inl h
      · exact Or.inr (List.mem_cons_of_mem _ h)
    · rcases List.mem_cons.1 h with rfl | h
      · exact Or.inr List.mem_cons_self
      · exact (ih h).imp_right (List.mem_cons_of_mem _)

/-- A walk collects components of the way only. -/
theorem mem_of_walk {key ps arrived : List String} (h : t.walk key ps = .ok arrived) {part : String}
    (hpart : part ∈ arrived) : part ∈ key ∨ part ∈ ps := by
  induction ps generalizing key with
  | nil =>
    cases h
    exact Or.inl hpart
  | cons p ps ih =>
    obtain ⟨-, -, ⟨-, hrest⟩ | ⟨-, -, hrest⟩⟩ := walk_cons_eq_ok.1 h
    · rcases ih hrest with hkey | hps
      · exact Or.inl ((List.dropLast_sublist _).subset hkey)
      · exact Or.inr (List.mem_cons_of_mem _ hps)
    · rcases ih hrest with hkey | hps
      · rcases List.mem_append.1 hkey with hkey | hkey
        · exact Or.inl hkey
        · exact Or.inr (List.mem_cons.2 (Or.inl (List.mem_singleton.1 hkey)))
      · exact Or.inr (List.mem_cons_of_mem _ hps)

theorem mem_of_place {p : Path} {key : List String} (h : t.place p = .ok key) {part : String}
    (hpart : part ∈ key) : part ∈ t.home ∨ part ∈ p.parts := by
  rcases mem_of_walk (place_eq_ok.1 h).2.2 hpart with horigin | hparts
  · rw [origin] at horigin
    split at horigin
    · exact Or.inl horigin
    · cases horigin
  · exact Or.inr hparts

theorem IsNullFree.put {p : Path} {key : List String} (h : t.IsNullFree)
    (htarget : t.target p = .ok key) (content : List UInt8) :
    (t.put key (.file content)).IsNullFree := by
  have hplace := (target_eq_ok.1 htarget).1
  refine ⟨h.home, fun n hn part hpart => ?_⟩
  rcases mem_putNode hn with rfl | hn
  · rcases mem_of_place hplace hpart with hhome | hparts
    · exact h.home part hhome
    · exact (isNullFree_of_place hplace).parts part hparts
  · exact h.nodes n hn part hpart

theorem IsNullFree.deliver (h : t.IsNullFree) (j : Journal) (r : Record) :
    (j.deliver r t).IsNullFree :=
  Journal.deliver_induction r (fun _ _ content _ _ ht _ _ htarget => ht.put htarget content) h

end FileTree

end StructAtlas
