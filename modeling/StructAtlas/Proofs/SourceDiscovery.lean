import StructAtlas.Proofs.GlobMatching
import StructAtlas.Proofs.SourceTrees

set_option autoImplicit false

/-!
# Discovery of source files

A search for source files goes through exactly if the operating system answers about every place
that it comes to, and it ends with a failure of the source root otherwise. What it finds are the
regular files whose relative path matches an include pattern and no exclude pattern, as far as the
directories on the way may be listed. They come in the strict lexicographic order of their component
lists, which is not the order of the joined texts: `a/z.c` stands before `a-b/x.c`. So what is found
is determined by the tree and by the sets of patterns alone, not by the order in which the tree
lists its files or by the order and the repetition of patterns (`Source.discovery_is_canonical`).

Not every file that the patterns select is found: one behind a directory that may not be listed is
passed over, and one about which the operating system gives no answer ends the search
(`Source.discovery_skips_and_stops`).
-/

namespace StructAtlas

/-- Component lists are in the lexicographic order of their components. -/
theorem Path.lt_of_partsLe {ps qs : List String} (h : partsLe ps qs = true) (hne : ps ≠ qs) :
    ps < qs := by
  induction ps generalizing qs with
  | nil =>
    cases qs with
    | nil => exact absurd rfl hne
    | cons q qs => exact List.nil_lt_cons q qs
  | cons p ps ih =>
    cases qs with
    | nil => cases h
    | cons q qs =>
      rw [partsLe] at h
      rw [List.cons_lt_cons_iff]
      split at h
      · rename_i heq
        obtain rfl := beq_iff_eq.1 heq
        exact Or.inr ⟨rfl, ih h fun e => hne (by rw [e])⟩
      · exact Or.inl (of_decide_eq_true h)

example : ["a", "z.c"] < ["a-b", "x.c"] ∧ "a-b/x.c" < "a/z.c" := by decide

/-! ## Two lists of one tree -/

namespace FileTree

variable {t t' : FileTree}

/-- The same files and directories, listed in some order, in the same system. -/
structure Reorders (t t' : FileTree) : Prop extends SameSystem t t' where
  nodes : t'.nodes.Perm t.nodes

theorem Reorders.refl (t : FileTree) : Reorders t t := ⟨.refl t, .refl _⟩

theorem IsSingle.of_perm (h : t.IsSingle) (hperm : t'.nodes.Perm t.nodes) : t'.IsSingle :=
  (hperm.map _).nodup_iff.2 h

/-- The order in which a tree lists what stands in it does not matter. -/
theorem IsSingle.lookup_of_perm (h : t.IsSingle) (hperm : t'.nodes.Perm t.nodes)
    (key : List String) : t'.lookup key = t.lookup key := by
  by_cases hkey : key = []
  · rw [hkey]
    rfl
  · apply Option.ext
    intro node
    constructor
    · intro hlookup
      exact h.lookup hkey (hperm.mem_iff.1 (mem_of_lookup hkey hlookup))
    · intro hlookup
      exact (h.of_perm hperm).lookup hkey (hperm.mem_iff.2 (mem_of_lookup hkey hlookup))

theorem Reorders.alike (h : Reorders t t') (hsingle : t.IsSingle) : Alike t t' :=
  ⟨h.toSameSystem, fun key => by rw [kind, kind, hsingle.lookup_of_perm h.nodes]⟩

theorem Reorders.isProper (h : Reorders t t') (hproper : t.IsProper) : t'.IsProper := by
  have halike := h.alike hproper.single
  refine ⟨hproper.single.of_perm h.nodes, ?_, fun n hn => ?_, fun n hn => ?_, ?_, fun n hn => ?_⟩
  · rw [← h.home, ← halike.kind]
    exact hproper.home
  · rw [← halike.kind]
    exact hproper.placed n (h.nodes.mem_iff.1 hn)
  · exact hproper.named n (h.nodes.mem_iff.1 hn)
  · rw [← h.home]
    exact hproper.nullFree.home
  · exact hproper.nullFree.nodes n (h.nodes.mem_iff.1 hn)

end FileTree

namespace Source

variable {s s' : Session} {root : Path} {base parts : List String}
  {includes includes' excludes excludes' : List WideText}

/-- The operating system answers about the same places. -/
theorem IsAnswered.of_alike {files files' : FileTree} (halike : FileTree.Alike files files')
    (h : IsAnswered files' root base) : IsAnswered files root base := by
  intro parts hreach hdenied
  refine h parts ⟨?_, halike.isOpen hreach.listed⟩ (halike.keeps.denies hdenied)
  rw [← halike.kind]
  exact hreach.stands

/-! ## What is found -/

/-- Discovery returns these files below the root. -/
def Finds (s : Session) (root : Path) (includes excludes : List WideText)
    (found : List (List String)) : Prop :=
  ∃ t, discover root includes excludes s = .ok (found.map fun p => root.join ⟨"", p⟩) t

/-- Discovery fails at the root, because the operating system gave no answer. -/
def Stops (s : Session) (root : Path) (includes excludes : List WideText) : Prop :=
  ∃ fault t, discover root includes excludes s = .error (.sourceListing root fault) t

/-- A relative path matches an include pattern and no exclude pattern. -/
def IsSelected (includes excludes : List WideText) (parts : List String) : Prop :=
  (∃ i ∈ includes, Glob.Matches i (relativeText parts))
    ∧ ∀ e ∈ excludes, ¬ Glob.Matches e (relativeText parts)

theorem isMatched_iff {patterns : List WideText} :
    isMatched patterns parts = true ↔ ∃ p ∈ patterns, Glob.Matches p (relativeText parts) :=
  Glob.matchesAny_iff

/-- The scanner that looks for these files. -/
def finder (root : Path) (includes excludes : List WideText) : Scanner :=
  { reader := { root }, includes, excludes, keepLines := true }

theorem selects_finder :
    (finder root includes excludes).selects parts = true ↔ IsSelected includes excludes parts := by
  rw [Scanner.selects, finder, Bool.and_eq_true, isMatched_iff, Bool.not_eq_true',
    ← Bool.not_eq_true, isMatched_iff, IsSelected]
  simp only [not_exists, not_and]

/-- The directory of a root in a proper tree. -/
structure IsRoot (files : FileTree) (root : Path) (base : List String) : Prop where
  proper : files.IsProper
  place : files.place root = .ok base
  kind : files.kind base = some true

theorem IsRoot.of_reorders {files files' : FileTree} (h : IsRoot files root base)
    (hreorders : FileTree.Reorders files files') : IsRoot files' root base := by
  have halike := hreorders.alike h.proper.single
  exact ⟨hreorders.isProper h.proper, (halike.place root).symm.trans h.place,
    (halike.kind base).symm.trans h.kind⟩

theorem IsRoot.finds (h : IsRoot s.files root base) (hanswered : IsAnswered s.files root base)
    (includes excludes : List WideText) :
    (finder root includes excludes).Finds s.files base := by
  refine ⟨h.proper, h.place, h.kind, ?_⟩
  cases hbelow : filesBelow s.files root with
  | ok below => exact ⟨below, hbelow⟩
  | error fault => exact absurd hanswered (filesBelow_eq_error h.proper h.place h.kind hbelow)

theorem finds_of_answered (h : IsRoot s.files root base)
    (hanswered : IsAnswered s.files root base) (includes excludes : List WideText) :
    Finds s root includes excludes ((finder root includes excludes).sources s.files) := by
  have hdirectory : s.files.isDirectory (finder root includes excludes).reader.root = .ok true :=
    FileTree.isDirectory_of_place h.place h.kind
  have hfound := Scanner.discover_of_found hdirectory (h.finds hanswered includes excludes).search
  exact ⟨_, hfound⟩

theorem stops_of_not_answered (h : IsRoot s.files root base)
    (hanswered : ¬ IsAnswered s.files root base) (includes excludes : List WideText) :
    Stops s root includes excludes := by
  have hdirectory : s.files.isDirectory (finder root includes excludes).reader.root = .ok true :=
    FileTree.isDirectory_of_place h.place h.kind
  cases hbelow : filesBelow s.files root with
  | ok below =>
    exact absurd (filesBelow_eq_ok h.proper h.place h.kind hbelow).2.2.2 hanswered
  | error fault =>
    have hfault := Scanner.discover_of_fault hdirectory hbelow
    exact ⟨fault, _, hfault⟩

theorem isSource_finder_iff : (finder root includes excludes).IsSource s.files base parts ↔
    s.files.kind (base ++ parts) = some false ∧ s.files.IsOpen base parts
      ∧ IsSelected includes excludes parts := by
  rw [← selects_finder]
  exact ⟨fun h => ⟨h.file, h.listed, h.selected⟩, fun ⟨h, h', h''⟩ => ⟨h, h', h''⟩⟩

/-- If more files are selected, those that were selected before stay, in their order. -/
theorem sources_sublist (h : ∀ p, IsSelected includes excludes p → IsSelected includes' excludes' p)
    (files : FileTree) :
    ((finder root includes excludes).sources files).Sublist
      ((finder root includes' excludes').sources files) := by
  cases hbelow : filesBelow files root with
  | error fault =>
    rw [Scanner.sources, finder]
    simp only [hbelow]
    exact List.nil_sublist _
  | ok below =>
    have hsources (includes excludes : List WideText) :
        (finder root includes excludes).sources files
          = below.filter (finder root includes excludes).selects :=
      Scanner.sources_of_found hbelow
    rw [hsources, hsources]
    exact List.monotone_filter_right _ fun p hp => selects_finder.2 (h p (selects_finder.1 hp))

/-- **Discovery is canonical.** Let the root lead to a directory of a proper tree. If there is a
place that the search comes to and about which the operating system gives no answer, discovery fails
at the root, in whatever order the tree lists its files. Otherwise the regular files are found to
which all directories on the way may be listed and whose relative path matches an include pattern
and no exclude pattern, and nothing else, each of them once, in the strictly increasing
lexicographic order of their components. A tree that lists the same files in another order and
patterns in another order or repeated give the same result. More include patterns remove no file,
and more exclude patterns add none. -/
theorem discovery_is_canonical (h : IsRoot s.files root base)
    (includes excludes : List WideText) :
    (¬ IsAnswered s.files root base →
        ∀ s', FileTree.Reorders s.files s'.files → Stops s' root includes excludes)
      ∧ (IsAnswered s.files root base →
        ∃ found, Finds s root includes excludes found
          ∧ (∀ p, p ∈ found ↔ s.files.kind (base ++ p) = some false ∧ s.files.IsOpen base p
            ∧ (∃ i ∈ includes, Glob.Matches i (relativeText p))
            ∧ ∀ e ∈ excludes, ¬ Glob.Matches e (relativeText p))
          ∧ found.Pairwise (· < ·)
          ∧ (∀ (s' : Session) includes' excludes', FileTree.Reorders s.files s'.files →
            (∀ i, i ∈ includes' ↔ i ∈ includes) → (∀ e, e ∈ excludes' ↔ e ∈ excludes) →
            Finds s' root includes' excludes' found)
          ∧ (∀ includes', includes ⊆ includes' →
            ∃ more, Finds s root includes' excludes more ∧ found.Sublist more)
          ∧ ∀ excludes', excludes ⊆ excludes' →
            ∃ fewer, Finds s root includes excludes' fewer ∧ fewer.Sublist found) := by
  refine ⟨fun hnot s' hreorders => ?_, fun hanswered => ?_⟩
  · refine stops_of_not_answered (h.of_reorders hreorders) (fun hanswered => hnot ?_) _ _
    exact hanswered.of_alike (hreorders.alike h.proper.single)
  have hfinds := h.finds hanswered includes excludes
  generalize hfound : (finder root includes excludes).sources s.files = found
  -- These three facts determine the list, so any tree and patterns that agree on them find it too.
  have hmem (p : List String) : p ∈ found ↔ s.files.kind (base ++ p) = some false
      ∧ s.files.IsOpen base p ∧ IsSelected includes excludes p := by
    rw [← hfound, hfinds.mem_sources, isSource_finder_iff]
  have hsorted : found.Pairwise fun p q => Path.partsLe p q = true :=
    hfound ▸ hfinds.pairwise_sources
  have hnodup : found.Nodup := hfound ▸ hfinds.nodup_sources
  refine ⟨found, hfound ▸ finds_of_answered h hanswered _ _, hmem, ?_, ?_, ?_, ?_⟩
  · exact hsorted.imp₂ (fun _ _ hle hne => Path.lt_of_partsLe hle hne) hnodup
  · intro s' includes' excludes' hreorders hincludes hexcludes
    have halike := hreorders.alike h.proper.single
    have h' := h.of_reorders hreorders
    have hanswered' := hanswered.of_alike halike.symm
    have hsources : (finder root includes' excludes').sources s'.files = found := by
      refine (h'.finds hanswered' _ _).eq_sources hnodup hsorted fun p => ?_
      rw [hmem, isSource_finder_iff, halike.kind, IsSelected, IsSelected]
      simp only [hincludes, hexcludes]
      exact and_congr_right fun _ => and_congr_left fun _ => ⟨halike.isOpen, halike.symm.isOpen⟩
    rw [← hsources]
    exact finds_of_answered h' hanswered' _ _
  · intro includes' hsub
    refine ⟨_, finds_of_answered h hanswered _ _, hfound ▸ sources_sublist (fun p hp => ?_) s.files⟩
    obtain ⟨⟨i, hi, hmatch⟩, hexclude⟩ := hp
    exact ⟨⟨i, hsub hi, hmatch⟩, hexclude⟩
  · intro excludes' hsub
    refine ⟨_, finds_of_answered h hanswered _ _, hfound ▸ sources_sublist (fun p hp => ?_) s.files⟩
    exact ⟨hp.1, fun e he => hp.2 e (hsub he)⟩

/-! ## Three trees -/

/-- A session with these files. -/
def sessionWith (files : FileTree) : Session :=
  .start files (Journal.empty ⟨"", "", ""⟩)

/-- A tree in which two directories begin alike and a third one may not be listed. -/
def mixedFiles : FileTree where
  nodes :=
    [(["src"], .directory), (["src", "b.h"], .file []), (["src", "a-b"], .directory),
      (["src", "a-b", "x.c"], .file []), (["src", "a"], .directory),
      (["src", "a", "z.c"], .file []), (["src", "a", "old.c"], .file []),
      (["src", "closed"], .directory), (["src", "closed", "k.c"], .file [])]
  guards := [(["src", "closed"], { read := some .permission })]

theorem isRoot_mixedFiles : IsRoot mixedFiles (Path.parse "src") ["src"] where
  proper :=
    { single := by rw [FileTree.IsSingle]; decide
      home := rfl
      placed := by decide
      named := by decide
      nullFree := ⟨by decide, by decide⟩ }
  place := rfl
  kind := rfl

theorem isAnswered_mixedFiles : IsAnswered mixedFiles (Path.parse "src") ["src"] := by
  have hroot := isRoot_mixedFiles
  have hfound : ∃ below, filesBelow mixedFiles (Path.parse "src") = .ok below := ⟨_, rfl⟩
  obtain ⟨below, hbelow⟩ := hfound
  exact (filesBelow_eq_ok hroot.proper hroot.place hroot.kind hbelow).2.2.2

/-- A file is found below the directory that comes first, another one is excluded, and a third one
may not be seen; the tree may be listed backwards, and patterns may be repeated and added. -/
theorem discovery_of_mixed_files :
    IsRoot (sessionWith mixedFiles).files (Path.parse "src") ["src"]
      ∧ IsAnswered (sessionWith mixedFiles).files (Path.parse "src") ["src"]
      ∧ ∃ found, Finds (sessionWith mixedFiles) (Path.parse "src") ["*.c"] ["a/o*"] found
        ∧ ["a", "z.c"] ∈ found ∧ ["a", "old.c"] ∉ found ∧ ["b.h"] ∉ found
        ∧ ["closed", "k.c"] ∉ found
        ∧ found.Pairwise (· < ·)
        ∧ Finds (sessionWith { mixedFiles with nodes := mixedFiles.nodes.reverse })
          (Path.parse "src") ["*.c", "*.c"] ["a/o*"] found
        ∧ (∃ more, Finds (sessionWith mixedFiles) (Path.parse "src") ["*.h", "*.c"] ["a/o*"] more
          ∧ found.Sublist more)
        ∧ ∃ fewer, Finds (sessionWith mixedFiles) (Path.parse "src") ["*.c"] ["x", "a/o*"] fewer
          ∧ fewer.Sublist found := by
  have hroot : IsRoot (sessionWith mixedFiles).files (Path.parse "src") ["src"] := isRoot_mixedFiles
  obtain ⟨-, hfinds⟩ := discovery_is_canonical hroot ["*.c"] ["a/o*"]
  obtain ⟨found, hfinds, hmem, hsorted, hsame, hmore, hfewer⟩ := hfinds isAnswered_mixedFiles
  refine ⟨hroot, isAnswered_mixedFiles, found, hfinds, (hmem _).2 ⟨by decide, by decide, by decide⟩,
    ?_, ?_, ?_, hsorted, hsame _ _ _ ⟨⟨rfl, rfl⟩, List.reverse_perm _⟩ (by simp) (by simp),
    hmore _ (by simp), hfewer _ (by simp)⟩
  · intro h
    exact absurd ((hmem _).1 h).2.2 (by decide)
  · intro h
    exact absurd ((hmem _).1 h).2.2 (by decide)
  · intro h
    exact absurd ((hmem _).1 h).2.1 (by decide)

/-- The same tree, with a directory that may be listed, but not passed. -/
def guardedFiles : FileTree :=
  { mixedFiles with guards := [(["src", "closed"], { search := some .permission })] }

/-- **Files that are passed over and files that end the search.** A file behind a directory that may
not be listed is not found, although the patterns select it. If the directory may be listed but not
passed, the search ends there, and no file is found. -/
theorem discovery_skips_and_stops :
    IsSelected ["*.c"] [] ["closed", "k.c"]
      ∧ (mixedFiles.kind (["src"] ++ ["closed", "k.c"]) = some false
        ∧ ∃ found, Finds (sessionWith mixedFiles) (Path.parse "src") ["*.c"] [] found
          ∧ ["closed", "k.c"] ∉ found)
      ∧ guardedFiles.kind (["src"] ++ ["closed", "k.c"]) = some false
      ∧ Stops (sessionWith guardedFiles) (Path.parse "src") ["*.c"] [] := by
  refine ⟨⟨by decide, by decide⟩, ⟨rfl, _,
    finds_of_answered isRoot_mixedFiles isAnswered_mixedFiles _ _, ?_⟩, rfl, ?_⟩
  · intro hmem
    have hfinds := isRoot_mixedFiles.finds (s := sessionWith mixedFiles) isAnswered_mixedFiles
      ["*.c"] []
    exact absurd (hfinds.mem_sources.1 hmem).listed (by decide)
  · have hdirectory : (sessionWith guardedFiles).files.isDirectory
        (finder (Path.parse "src") ["*.c"] []).reader.root = .ok true := rfl
    have hfault := Scanner.discover_of_fault hdirectory rfl
    exact ⟨_, _, hfault⟩

end Source

end StructAtlas
