import StructAtlas.Proofs.ProperTrees
import StructAtlas.Source

set_option autoImplicit false

/-!
# The search for files below a directory

A search lists one directory after the other. It comes to whatever stands behind directories that
may be listed (`FileTree.Reaches`), and it ends with a fault if the operating system denies an
answer about one of these places (`FileTree.Denies`). Otherwise the files among them are found, each
once. This holds of the search from every directory by induction on how many directories may lie in
each other (`Source.isSearch_filesFrom`), and as many as the tree is deep are enough.
-/

namespace StructAtlas

namespace FileTree

variable {t t' : FileTree} {base parts : List String}

/-- A directory may be listed as far as permission goes. -/
def MayList (t : FileTree) (key : List String) : Prop :=
  (t.access key).read ≠ some .permission

/-- All directories on the way from a directory to what stands behind it may be listed. -/
def IsOpen (t : FileTree) (base parts : List String) : Prop :=
  ∀ front rest, rest ≠ [] → parts = front ++ rest → t.MayList (base ++ front)

theorem isOpen_iff :
    t.IsOpen base parts ↔ ∀ n < parts.length, t.MayList (base ++ parts.take n) := by
  constructor
  · intro h n hn
    refine h (parts.take n) (parts.drop n) (fun hnil => ?_) (List.take_append_drop n parts).symm
    exact absurd (List.drop_eq_nil_iff.1 hnil) (Nat.not_le.2 hn)
  · rintro h front rest hne rfl
    have hlength : front.length < (front ++ rest).length := by
      rw [List.length_append]
      have hpos := List.length_pos_iff.2 hne
      omega
    have hlist := h front.length hlength
    rwa [List.take_left' rfl] at hlist

instance (t : FileTree) (key : List String) : Decidable (t.MayList key) :=
  inferInstanceAs (Decidable (_ ≠ _))

instance (t : FileTree) (base parts : List String) : Decidable (t.IsOpen base parts) :=
  decidable_of_iff _ isOpen_iff.symm

/-- Something stands behind a directory, and all directories on the way to it may be listed. -/
structure Reaches (t : FileTree) (base parts : List String) : Prop where
  stands : t.kind (base ++ parts) ≠ none
  listed : t.IsOpen base parts

/-- The operating system does not say what a path leads to, or it does not list the directory there,
although it may be listed. -/
def Denies (t : FileTree) (p : Path) : Prop :=
  (∃ fault, t.find? p = .error fault)
    ∨ t.isDirectory p = .ok true
      ∧ ∃ fault, t.list p = .error fault ∧ fault.kind ≠ .refused .permission

theorem SameSystem.isOpen (h : SameSystem t t') (hopen : t.IsOpen base parts) :
    t'.IsOpen base parts := by
  intro front rest hne he
  rw [MayList, ← h.access]
  exact hopen front rest hne he

theorem Reaches.front {rest : List String} (h : t.Reaches base (parts ++ rest))
    (hproper : t.IsProper) : t.Reaches base parts := by
  refine ⟨?_, fun front behind hne he => ?_⟩
  · by_cases hrest : rest = []
    · simpa [hrest] using h.stands
    · have hkind : t.kind (base ++ parts) = some true :=
        hproper.kind_above hrest (by rw [List.append_assoc]; exact h.stands)
      rw [hkind]
      exact Option.some_ne_none _
  · refine h.listed front (behind ++ rest) (by simp [hne]) ?_
    rw [he, List.append_assoc]

theorem Reaches.child {name : String} (h : t.Reaches base parts) (hlist : t.MayList (base ++ parts))
    (hname : t.kind (base ++ (parts ++ [name])) ≠ none) : t.Reaches base (parts ++ [name]) := by
  refine ⟨hname, fun front rest hne he => ?_⟩
  rcases List.append_eq_append_iff.1 he with ⟨more, hfront, hrest⟩ | ⟨more, hparts, -⟩
  · -- The last name is the whole rest, or the front is the whole list.
    cases more with
    | nil =>
      rw [hfront, List.append_nil]
      exact hlist
    | cons m more =>
      have hlength := congrArg List.length hrest
      have hpos := List.length_pos_iff.2 hne
      simp only [List.length_append, List.length_cons, List.length_nil] at hlength
      omega
  · by_cases hmore : more = []
    · subst hmore
      rw [List.append_nil] at hparts
      exact hparts ▸ hlist
    · exact h.listed front more hmore hparts

theorem list_eq (t : FileTree) (p : Path) :
    t.list p = blame p ((t.place p).bind fun key =>
      match t.kind key with
      | none => .error .notFound
      | some false => .error .notADirectory
      | some true => (permit (t.access key).read).map fun _ => t.namesIn key) := by
  rw [list]
  congr 1
  cases t.place p with
  | error e => rfl
  | ok key =>
    simp only [kind, bind, Except.bind]
    rcases t.lookup key with _ | _ | _ <;> rfl

/-- The names that a directory lists, or why it does not. -/
theorem list_of_place {p : Path} {key : List String} (hplace : t.place p = .ok key)
    (hkind : t.kind key = some true) :
    t.list p = match (t.access key).read with
      | none => .ok (t.namesIn key)
      | some why => .error ⟨.refused why, p.toText⟩ := by
  rw [list_eq, hplace]
  simp only [Except.bind, hkind]
  cases (t.access key).read <;> rfl

/-- What the operating system denies, it still denies in a tree that has the same things. -/
theorem Keeps.denies (h : Keeps t t') {p : Path} (hdenied : t.Denies p) : t'.Denies p := by
  have hdirectories := fun key => h.kind key true
  rcases hdenied with ⟨fault, hfault⟩ | ⟨hdirectory, fault, hfault, hkind⟩
  · rw [find?] at hfault
    cases hplace : t.place p with
    | ok key =>
      rw [hplace] at hfault
      cases hfault
    | error kind =>
      rw [hplace] at hfault
      cases hnowhere : isNowhere kind with
      | true => simp [hnowhere] at hfault
      | false =>
        have hplace' := place_of_directories h.toSameSystem hdirectories hplace
          (fun e => by cases e; cases hnowhere) (fun e => by cases e; cases hnowhere)
        rw [Denies, find?, hplace']
        exact Or.inl ⟨⟨kind, p.toText⟩, by simp [hnowhere]⟩
  · obtain ⟨key, hplace, hkey⟩ := exists_place_of_isDirectory hdirectory
    have hplace' := h.place hplace
    have hkey' := hdirectories key hkey
    refine Or.inr ⟨isDirectory_of_place hplace' hkey', fault, ?_, hkind⟩
    rw [list_of_place hplace hkey] at hfault
    rw [list_of_place hplace' hkey', ← h.access key]
    cases hread : (t.access key).read with
    | none =>
      rw [hread] at hfault
      cases hfault
    | some why =>
      rw [hread] at hfault
      exact hfault

theorem exists_of_list_eq_ok {p : Path} {names : List String} (h : t.list p = .ok names) :
    ∃ key, names = t.namesIn key := by
  rw [list_eq] at h
  cases hplace : t.place p with
  | error e => simp [hplace, Except.bind, blame] at h
  | ok key =>
    simp only [hplace, Except.bind] at h
    rcases hkind : t.kind key with _ | _ | _
    · simp [hkind, blame] at h
    · simp [hkind, blame] at h
    · cases hread : (t.access key).read with
      | some why => simp [hkind, hread, permit, Except.map, blame] at h
      | none =>
        simp only [hkind, hread, permit, Except.map, blame, Except.ok.injEq] at h
        exact ⟨key, h.symm⟩

end FileTree

namespace Source

/-! ## Lists of results -/

section Gather

variable {α β : Type} {f : α → Except FileFault (List β)} {as : List α}

theorem exists_of_gather_eq_ok {bs : List β} (h : gather f as = .ok bs) :
    ∃ g : α → List β, (∀ a ∈ as, f a = .ok (g a)) ∧ bs = as.flatMap g := by
  let result (a : α) : List β := (f a).toOption.getD []
  have hresult {a : α} {r : List β} (ha : f a = .ok r) : result a = r := by
    simp only [result, ha, Except.toOption, Option.getD_some]
  refine ⟨result, ?_⟩
  induction as generalizing bs with
  | nil =>
    cases h
    exact ⟨fun a ha => absurd ha List.not_mem_nil, rfl⟩
  | cons a as ih =>
    obtain ⟨first, hfirst, h⟩ := exists_of_bind_ok h
    obtain ⟨rest, hrest, h⟩ := exists_of_bind_ok h
    cases h
    obtain ⟨hall, rfl⟩ := ih hrest
    refine ⟨fun b hb => ?_, ?_⟩
    · rcases List.mem_cons.1 hb with rfl | hb
      · rw [hresult hfirst]
        exact hfirst
      · exact hall b hb
    · rw [List.flatMap_cons, hresult hfirst]

theorem exists_of_gather_eq_error {fault : FileFault} (h : gather f as = .error fault) :
    ∃ a ∈ as, f a = .error fault := by
  induction as with
  | nil => cases h
  | cons a as ih =>
    rw [gather] at h
    cases hfirst : f a with
    | error e =>
      rw [hfirst] at h
      cases h
      exact ⟨a, List.mem_cons_self, hfirst⟩
    | ok first =>
      rw [hfirst] at h
      cases hrest : gather f as with
      | error e =>
        rw [hrest] at h
        cases h
        obtain ⟨b, hb, hfault⟩ := ih hrest
        exact ⟨b, List.mem_cons_of_mem _ hb, hfault⟩
      | ok rest =>
        rw [hrest] at h
        cases h

end Gather

/-! ## One directory -/

variable {files : FileTree} {root : Path} {base parts : List String}

theorem look_eq_ok {found : List (List String × Option Node)}
    (h : look files root parts = .ok found) :
    ∃ node, files.find? (root.join ⟨"", parts⟩) = .ok node ∧ found = [(parts, node)] := by
  rw [look] at h
  cases hfind : files.find? (root.join ⟨"", parts⟩) with
  | error fault => rw [hfind] at h; cases h
  | ok node =>
    rw [hfind] at h
    cases h
    exact ⟨node, rfl, rfl⟩

theorem look_eq_error {fault : FileFault} (h : look files root parts = .error fault) :
    files.find? (root.join ⟨"", parts⟩) = .error fault := by
  rw [look] at h
  cases hfind : files.find? (root.join ⟨"", parts⟩) with
  | error e =>
    rw [hfind] at h
    cases h
    rfl
  | ok node => rw [hfind] at h; cases h

/-- What a search from a directory returns: the files behind it that the search comes to, or a fault
at a place that it comes to. -/
def IsSearch (files : FileTree) (root : Path) (base parts : List String) :
    Except FileFault (List (List String)) → Prop
  | .ok found => found.Nodup
    ∧ (∀ p, p ∈ found ↔ (∃ rest, rest ≠ [] ∧ p = parts ++ rest)
      ∧ files.kind (base ++ p) = some false ∧ files.Reaches base p)
    ∧ ∀ rest, files.Reaches base (parts ++ rest) → ¬ files.Denies (root.join ⟨"", parts ++ rest⟩)
  | .error _ => ∃ rest, files.Reaches base (parts ++ rest)
    ∧ files.Denies (root.join ⟨"", parts ++ rest⟩)

/-- What a search finds in one directory. -/
structure Listing (files : FileTree) (root : Path) (base parts : List String)
    (names : List String) : Prop where
  nodup : names.Nodup
  mem : ∀ name, name ∈ names ↔ files.Reaches base (parts ++ [name])
  answered : ¬ files.Denies (root.join ⟨"", parts⟩)

theorem listing_of_namesIn {names : List String} (hproper : files.IsProper)
    (hplace : files.place (root.join ⟨"", parts⟩) = .ok (base ++ parts))
    (hkind : files.kind (base ++ parts) = some true) (hreach : files.Reaches base parts)
    (h : namesIn files root parts = .ok names) : Listing files root base parts names := by
  have hlist := FileTree.list_of_place hplace hkind
  have hfind : ¬ ∃ fault, files.find? (root.join ⟨"", parts⟩) = .error fault := by
    rintro ⟨fault, hfault⟩
    rw [FileTree.find?, hplace] at hfault
    cases hfault
  rw [namesIn, hlist] at h
  cases hread : (files.access (base ++ parts)).read with
  | none =>
    rw [hread] at h hlist
    cases h
    have hmay : files.MayList (base ++ parts) := by
      rw [FileTree.MayList, hread]
      exact fun e => by cases e
    refine ⟨hproper.single.nodup_namesIn _, fun name => ?_, ?_⟩
    · rw [FileTree.mem_namesIn, List.append_assoc]
      exact ⟨hreach.child hmay, FileTree.Reaches.stands⟩
    · rintro (hdenied | ⟨-, fault, hfault, -⟩)
      · exact hfind hdenied
      · cases hlist.symm.trans hfault
  | some why =>
    rw [hread] at h hlist
    -- Only missing permission leaves the directory without names.
    cases why with
    | device => cases h
    | permission =>
      cases h
      refine ⟨List.nodup_nil, fun name => ⟨fun hmem => absurd hmem List.not_mem_nil, ?_⟩, ?_⟩
      · intro hchild
        exact absurd hread (hchild.listed parts [name] (List.cons_ne_nil _ _) rfl)
      · rintro (hdenied | ⟨-, fault, hfault, hkind'⟩)
        · exact hfind hdenied
        · cases hlist.symm.trans hfault
          exact hkind' rfl

theorem denies_of_namesIn {fault : FileFault}
    (hkind : files.isDirectory (root.join ⟨"", parts⟩) = .ok true)
    (h : namesIn files root parts = .error fault) : files.Denies (root.join ⟨"", parts⟩) := by
  rw [namesIn] at h
  cases hlist : files.list (root.join ⟨"", parts⟩) with
  | ok names => rw [hlist] at h; cases h
  | error e =>
    rw [hlist] at h
    simp only at h
    split at h
    · cases h
    · rename_i hpermission
      cases h
      exact Or.inr ⟨hkind, _, hlist, by simpa using hpermission⟩

/-- What stands under the names of a directory if the operating system answers about all of them. -/
theorem entries_of_gather (hproper : files.IsProper) (hroot : files.place root = .ok base)
    {names : List String} (hnames : ∀ name ∈ names, files.Reaches base (parts ++ [name]))
    {entries : List (List String × Option Node)}
    (h : gather (look files root) (names.map fun name => parts ++ [name]) = .ok entries) :
    entries = names.map (fun name => (parts ++ [name], files.lookup (base ++ (parts ++ [name]))))
      ∧ ∀ name ∈ names, files.place (root.join ⟨"", parts ++ [name]⟩)
        = .ok (base ++ (parts ++ [name])) := by
  obtain ⟨g, hg, rfl⟩ := exists_of_gather_eq_ok h
  have hlook : ∀ name ∈ names,
      g (parts ++ [name]) = [(parts ++ [name], files.lookup (base ++ (parts ++ [name])))]
        ∧ files.place (root.join ⟨"", parts ++ [name]⟩) = .ok (base ++ (parts ++ [name])) := by
    intro name hname
    obtain ⟨node, hfind, hnode⟩ := look_eq_ok (hg _ (List.mem_map_of_mem hname))
    obtain ⟨hplace, rfl⟩ := hproper.find?_join hroot (hnames name hname).stands hfind
    exact ⟨hnode, hplace⟩
  refine ⟨?_, fun name hname => (hlook name hname).2⟩
  rw [List.flatMap_map, List.flatMap_congr fun name hname => (hlook name hname).1]
  exact List.map_eq_flatMap.symm

section Entries

variable {names : List String}

/-- The entries of a directory, by their names. -/
def entriesOf (files : FileTree) (base parts names : List String) :
    List (List String × Option Node) :=
  names.map fun name => (parts ++ [name], files.lookup (base ++ (parts ++ [name])))

/-- The files, or the directories, among the names in a directory. -/
def children (files : FileTree) (base parts names : List String) (isDirectory : Bool) :
    List (List String) :=
  (names.filter fun name => files.kind (base ++ (parts ++ [name])) == some isDirectory).map
    fun name => parts ++ [name]

theorem mem_children {isDirectory : Bool} {p : List String} :
    p ∈ children files base parts names isDirectory
      ↔ ∃ name ∈ names, files.kind (base ++ (parts ++ [name])) = some isDirectory
        ∧ p = parts ++ [name] := by
  simp [children, and_assoc, eq_comm (a := p)]

theorem nodup_children (h : names.Nodup) (isDirectory : Bool) :
    (children files base parts names isDirectory).Nodup := by
  have hinjective : Function.Injective fun name => parts ++ [name] := fun name other h =>
    (List.cons.inj (List.append_cancel_left h)).1
  exact (h.filter _).map hinjective

theorem filesAmong_entriesOf :
    filesAmong (entriesOf files base parts names) = children files base parts names false := by
  induction names with
  | nil => rfl
  | cons name names ih =>
    rw [entriesOf, filesAmong, children, List.map_cons, List.filterMap_cons, List.filter_cons]
    rw [entriesOf, filesAmong, children] at ih
    rw [ih, FileTree.kind]
    rcases files.lookup (base ++ (parts ++ [name])) with _ | _ | _ <;> rfl

theorem directoriesAmong_entriesOf :
    directoriesAmong (entriesOf files base parts names)
      = children files base parts names true := by
  rw [entriesOf, directoriesAmong, children, List.filter_map, List.map_map]
  refine congrArg _ (List.filter_congr fun name _ => ?_)
  rw [FileTree.kind, Function.comp_apply]
  rcases files.lookup (base ++ (parts ++ [name])) with _ | _ | _ <;> rfl

end Entries

/-! ## The whole search -/

section Below

variable {names : List String} {g : List String → List (List String)}

/-- A search that comes to something behind a directory comes to one of its names, and there is more
behind a name only if it is that of a directory. -/
theorem Listing.of_reaches (h : Listing files root base parts names) (hproper : files.IsProper)
    {name : String} {rest : List String} (hreach : files.Reaches base (parts ++ name :: rest)) :
    name ∈ names ∧ (rest ≠ [] → files.kind (base ++ (parts ++ [name])) = some true) := by
  rw [List.append_cons] at hreach
  refine ⟨(h.mem name).2 (hreach.front hproper), fun hne => hproper.kind_above hne ?_⟩
  rw [List.append_assoc]
  exact hreach.stands

theorem nodup_below (hnames : names.Nodup)
    (hg : ∀ d ∈ children files base parts names true, IsSearch files root base d (.ok (g d))) :
    (children files base parts names false
      ++ (children files base parts names true).flatMap g).Nodup := by
  refine List.nodup_append.2 ⟨nodup_children hnames false,
    List.nodup_flatMap.2 ⟨fun d hd => (hg d hd).1, ?_⟩, ?_⟩
  · -- What lies behind two directories of one directory begins differently.
    refine (nodup_children hnames true).imp_of_mem fun hd hd' hne p hp hp' => ?_
    obtain ⟨⟨rest, -, rfl⟩, -⟩ := ((hg _ hd).2.1 p).1 hp
    obtain ⟨⟨rest', -, hrest⟩, -⟩ := ((hg _ hd').2.1 _).1 hp'
    obtain ⟨name, -, -, rfl⟩ := mem_children.1 hd
    obtain ⟨name', -, -, rfl⟩ := mem_children.1 hd'
    exact hne (List.append_inj_left hrest (by simp))
  · intro p hp q hq e
    obtain ⟨d, hd, hq⟩ := List.mem_flatMap.1 hq
    obtain ⟨⟨rest, hne, rfl⟩, -⟩ := ((hg d hd).2.1 q).1 hq
    obtain ⟨name, -, -, rfl⟩ := mem_children.1 hp
    obtain ⟨name', -, -, rfl⟩ := mem_children.1 hd
    have hlength := congrArg List.length e
    have hpos := List.length_pos_iff.2 hne
    simp only [List.length_append, List.length_cons, List.length_nil] at hlength
    omega

theorem mem_below_iff (hproper : files.IsProper) (hlisting : Listing files root base parts names)
    (hg : ∀ d ∈ children files base parts names true, IsSearch files root base d (.ok (g d)))
    {p : List String} :
    p ∈ children files base parts names false ++ (children files base parts names true).flatMap g
      ↔ (∃ rest, rest ≠ [] ∧ p = parts ++ rest) ∧ files.kind (base ++ p) = some false
        ∧ files.Reaches base p := by
  rw [List.mem_append]
  constructor
  · rintro (hp | hp)
    · obtain ⟨name, hname, hkind, rfl⟩ := mem_children.1 hp
      exact ⟨⟨[name], List.cons_ne_nil _ _, rfl⟩, hkind, (hlisting.mem name).1 hname⟩
    · obtain ⟨d, hd, hp⟩ := List.mem_flatMap.1 hp
      obtain ⟨⟨rest, -, rfl⟩, hkind, hreach⟩ := ((hg d hd).2.1 p).1 hp
      obtain ⟨name, -, -, rfl⟩ := mem_children.1 hd
      exact ⟨⟨name :: rest, List.cons_ne_nil _ _, by simp⟩, hkind, hreach⟩
  · rintro ⟨⟨rest, hne, rfl⟩, hkind, hreach⟩
    obtain ⟨name, rest, rfl⟩ := List.exists_cons_of_ne_nil hne
    obtain ⟨hname, habove⟩ := hlisting.of_reaches hproper hreach
    by_cases hrest : rest = []
    · subst hrest
      exact Or.inl (mem_children.2 ⟨name, hname, hkind, rfl⟩)
    · have hd := mem_children.2 ⟨name, hname, habove hrest, rfl⟩
      rw [List.append_cons] at hkind hreach ⊢
      exact Or.inr (List.mem_flatMap.2 ⟨_, hd, ((hg _ hd).2.1 _).2 ⟨⟨rest, hrest, rfl⟩, hkind,
        hreach⟩⟩)

/-- What has been looked at and is no directory is not listed. -/
theorem not_denies_of_not_directory
    (hplace : files.place (root.join ⟨"", parts⟩) = .ok (base ++ parts))
    (hkind : files.kind (base ++ parts) ≠ some true) :
    ¬ files.Denies (root.join ⟨"", parts⟩) := by
  rintro (⟨fault, hfault⟩ | ⟨hdirectory, -⟩)
  · rw [FileTree.find?, hplace] at hfault
    cases hfault
  · rw [FileTree.isDirectory_eq, hplace] at hdirectory
    exact hkind (by simpa using hdirectory)

theorem not_denies_below (hproper : files.IsProper)
    (hlisting : Listing files root base parts names)
    (hplaces : ∀ name ∈ names, files.place (root.join ⟨"", parts ++ [name]⟩)
      = .ok (base ++ (parts ++ [name])))
    (hg : ∀ d ∈ children files base parts names true, IsSearch files root base d (.ok (g d)))
    {rest : List String} (hreach : files.Reaches base (parts ++ rest)) :
    ¬ files.Denies (root.join ⟨"", parts ++ rest⟩) := by
  cases rest with
  | nil =>
    rw [List.append_nil]
    exact hlisting.answered
  | cons name rest =>
    obtain ⟨hname, habove⟩ := hlisting.of_reaches hproper hreach
    by_cases hdir : files.kind (base ++ (parts ++ [name])) = some true
    · rw [List.append_cons] at hreach ⊢
      exact (hg _ (mem_children.2 ⟨name, hname, hdir, rfl⟩)).2.2 rest hreach
    · obtain rfl : rest = [] := by
        by_contra hne
        exact hdir (habove hne)
      exact not_denies_of_not_directory (hplaces name hname) hdir

/-- What searches from the directories of a directory find, put behind its own files. -/
theorem isSearch_append (hproper : files.IsProper) (hlisting : Listing files root base parts names)
    (hplaces : ∀ name ∈ names, files.place (root.join ⟨"", parts ++ [name]⟩)
      = .ok (base ++ (parts ++ [name])))
    (hg : ∀ d ∈ children files base parts names true, IsSearch files root base d (.ok (g d))) :
    IsSearch files root base parts (.ok (children files base parts names false
      ++ (children files base parts names true).flatMap g)) :=
  ⟨nodup_below hlisting.nodup hg, fun _ => mem_below_iff hproper hlisting hg,
    fun _ => not_denies_below hproper hlisting hplaces hg⟩

/-- A fault in one of the directories of a directory is one that the search comes to. -/
theorem isSearch_of_fault {fault : FileFault} {d : List String}
    (hd : d ∈ children files base parts names true)
    (h : IsSearch files root base d (.error fault)) :
    IsSearch files root base parts (.error fault) := by
  obtain ⟨rest, hreach, hdenied⟩ := h
  obtain ⟨name, -, -, rfl⟩ := mem_children.1 hd
  rw [List.append_assoc] at hreach hdenied
  exact ⟨name :: rest, hreach, hdenied⟩

end Below

/-- A directory does not lie deeper than the tree is deep. -/
theorem length_le_depth_of_reaches (hreach : files.Reaches base parts) :
    parts.length ≤ files.depth := by
  by_cases hnil : base ++ parts = []
  · rw [(List.append_eq_nil_iff.1 hnil).2]
    exact Nat.zero_le _
  · obtain ⟨node, hnode⟩ := FileTree.exists_node hnil hreach.stands
    have hlength := FileTree.length_le_depth hnode
    rw [List.length_append] at hlength
    omega

theorem isSearch_filesFrom (hproper : files.IsProper) (hroot : files.place root = .ok base)
    (fuel : Nat) {parts : List String}
    (hplace : files.place (root.join ⟨"", parts⟩) = .ok (base ++ parts))
    (hkind : files.kind (base ++ parts) = some true) (hreach : files.Reaches base parts)
    (hfuel : files.depth < parts.length + fuel) :
    IsSearch files root base parts (filesFrom files root fuel parts) := by
  induction fuel generalizing parts with
  | zero =>
    have hlength := length_le_depth_of_reaches hreach
    omega
  | succ fuel ih =>
    simp only [filesFrom, bind, Except.bind]
    cases hnames : namesIn files root parts with
    | error fault =>
      have hdenied := denies_of_namesIn (FileTree.isDirectory_of_place hplace hkind) hnames
      exact ⟨[], by rwa [List.append_nil], by rwa [List.append_nil]⟩
    | ok names =>
      have hlisting := listing_of_namesIn hproper hplace hkind hreach hnames
      have hreaches : ∀ name ∈ names, files.Reaches base (parts ++ [name]) := fun name hname =>
        (hlisting.mem name).1 hname
      simp only
      cases hentries : gather (look files root) (names.map fun name => parts ++ [name]) with
      | error fault =>
        obtain ⟨a, ha, hfault⟩ := exists_of_gather_eq_error hentries
        obtain ⟨name, hname, rfl⟩ := List.mem_map.1 ha
        exact ⟨[name], hreaches name hname, Or.inl ⟨fault, look_eq_error hfault⟩⟩
      | ok entries =>
        obtain ⟨hsame, hplaces⟩ := entries_of_gather hproper hroot hreaches hentries
        obtain rfl : entries = entriesOf files base parts names := hsame
        have hbelow : ∀ d ∈ children files base parts names true,
            IsSearch files root base d (filesFrom files root fuel d) := by
          intro d hd
          obtain ⟨name, hname, hdir, rfl⟩ := mem_children.1 hd
          refine ih (hplaces name hname) hdir (hreaches name hname) ?_
          rw [List.length_append, List.length_singleton]
          omega
        simp only [filesAmong_entriesOf, directoriesAmong_entriesOf]
        cases hgather : gather (filesFrom files root fuel)
            (children files base parts names true) with
        | error fault =>
          obtain ⟨d, hd, hfault⟩ := exists_of_gather_eq_error hgather
          exact isSearch_of_fault hd (hfault ▸ hbelow d hd)
        | ok below =>
          obtain ⟨g, hg, rfl⟩ := exists_of_gather_eq_ok hgather
          exact isSearch_append hproper hlisting hplaces fun d hd => hg d hd ▸ hbelow d hd

/-- A directory is searched as deep as the tree is. -/
theorem isSearch_of_place (hproper : files.IsProper) (hroot : files.place root = .ok base)
    (hkind : files.kind base = some true) :
    IsSearch files root base [] (filesFrom files root (files.depth + 1) []) := by
  have hsame : root.join ⟨"", []⟩ = root := congrArg (Path.mk root.root) (List.append_nil _)
  refine isSearch_filesFrom hproper hroot _ ?_ ?_ ⟨?_, ?_⟩ ?_
  · rw [hsame, List.append_nil]
    exact hroot
  · rw [List.append_nil]
    exact hkind
  · rw [List.append_nil, hkind]
    exact Option.some_ne_none _
  · intro front rest hne he
    exact absurd (List.append_eq_nil_iff.1 he.symm).2 hne
  · rw [List.length_nil]
    omega

/-- A search that finds the files in order need not sort them. -/
theorem filesBelow_of_pairwise {found : List (List String)}
    (h : filesFrom files root (files.depth + 1) [] = .ok found)
    (hsorted : found.Pairwise fun p q => Path.partsLe p q = true) :
    filesBelow files root = .ok found := by
  rw [filesBelow, h]
  exact congrArg Except.ok (List.mergeSort_of_pairwise hsorted)

/-! ## Names -/

theorem exists_node_of_mem_namesIn {names : List String} {name : String}
    (h : namesIn files root parts = .ok names) (hname : name ∈ names) :
    ∃ n ∈ files.nodes, name ∈ n.1 := by
  rw [namesIn] at h
  split at h
  · rename_i hlist
    cases h
    obtain ⟨key, rfl⟩ := FileTree.exists_of_list_eq_ok hlist
    obtain ⟨node, hnode⟩ := FileTree.exists_node (by simp) (FileTree.mem_namesIn.1 hname)
    exact ⟨_, hnode, by simp⟩
  · split at h
    · cases h
      cases hname
    · cases h

/-- What a search finds is made of names in the tree, in every tree. -/
theorem exists_node_of_mem_filesFrom {fuel : Nat} {found : List (List String)}
    (h : filesFrom files root fuel parts = .ok found) {p : List String} (hp : p ∈ found)
    {part : String} (hpart : part ∈ p) : part ∈ parts ∨ ∃ n ∈ files.nodes, part ∈ n.1 := by
  induction fuel generalizing parts found with
  | zero =>
    cases h
    cases hp
  | succ fuel ih =>
    rw [filesFrom] at h
    obtain ⟨names, hnames, h⟩ := exists_of_bind_ok h
    obtain ⟨entries, hentries, h⟩ := exists_of_bind_ok h
    obtain ⟨below, hbelow, h⟩ := exists_of_bind_ok h
    cases h
    have hentry {q : List String} {node : Option Node} (hq : (q, node) ∈ entries) :
        ∃ name ∈ names, q = parts ++ [name] := by
      obtain ⟨g, hg, rfl⟩ := exists_of_gather_eq_ok hentries
      obtain ⟨a, ha, hq⟩ := List.mem_flatMap.1 hq
      obtain ⟨node', -, hnode'⟩ := look_eq_ok (hg a ha)
      obtain ⟨name, hname, rfl⟩ := List.mem_map.1 ha
      rw [hnode', List.mem_singleton] at hq
      exact ⟨name, hname, (Prod.mk.inj hq).1⟩
    have hnew {name : String} (hname : name ∈ names) (hpart : part ∈ parts ++ [name]) :
        part ∈ parts ∨ ∃ n ∈ files.nodes, part ∈ n.1 := by
      rcases List.mem_append.1 hpart with hpart | hpart
      · exact Or.inl hpart
      · rw [List.mem_singleton.1 hpart]
        exact Or.inr (exists_node_of_mem_namesIn hnames hname)
    rcases List.mem_append.1 hp with hp | hp
    · obtain ⟨⟨q, node⟩, hq, hfile⟩ := List.mem_filterMap.1 hp
      split at hfile
      · cases hfile
        obtain ⟨name, hname, rfl⟩ := hentry hq
        exact hnew hname hpart
      · cases hfile
    · obtain ⟨g, hg, rfl⟩ := exists_of_gather_eq_ok hbelow
      obtain ⟨d, hd, hp⟩ := List.mem_flatMap.1 hp
      obtain ⟨⟨q, node⟩, hq, rfl⟩ := List.mem_map.1 hd
      obtain ⟨name, hname, rfl⟩ := hentry (List.mem_filter.1 hq).1
      rcases ih (hg _ hd) hp with hfront | hnode
      · exact hnew hname hfront
      · exact Or.inr hnode

end Source

end StructAtlas
