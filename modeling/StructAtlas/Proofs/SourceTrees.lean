import Mathlib.Data.List.Sort
import Mathlib.Data.String.Basic
import StructAtlas.Proofs.FileScans

set_option autoImplicit false

/-!
# Trees of source files

If the operating system ends no search for source files in a proper tree, the sources are the files
behind directories that may be listed which the patterns select, in the one order that component
lists have (`Scanner.eq_sources`), and the path of each one leads to it (`Scanner.place_pathOf`).
Where a search goes through, it also goes through with fewer files
(`Scanner.Finds.within`).

A scan writes log records and problems. If these go to no file that the patterns select
(`Scanner.IsApartFrom`), the sources are the same after a record (`Scanner.sources_log`), and each
one is read as before, however far the scan has come (`Scanner.read_of_notes`). Taking files away
leaves the others as they are (`Scanner.read_without`).
-/

namespace StructAtlas

/-! ## The order of component lists -/

namespace Path

theorem partsLe_total (ps qs : List String) : (partsLe ps qs || partsLe qs ps) = true := by
  induction ps generalizing qs with
  | nil => simp [partsLe]
  | cons p ps ih =>
    cases qs with
    | nil => simp [partsLe]
    | cons q qs =>
      rcases lt_trichotomy p q with hlt | rfl | hlt
      · simp [partsLe, hlt.ne, hlt]
      · simpa [partsLe] using ih qs
      · simp [partsLe, hlt.ne, hlt]

theorem partsLe_trans {ps qs rs : List String} (h : partsLe ps qs = true)
    (h' : partsLe qs rs = true) : partsLe ps rs = true := by
  induction ps generalizing qs rs with
  | nil => simp [partsLe]
  | cons p ps ih =>
    cases qs with
    | nil => simp [partsLe] at h
    | cons q qs =>
      cases rs with
      | nil => simp [partsLe] at h'
      | cons r rs =>
        rw [partsLe] at h h' ⊢
        by_cases hpq : p = q
        · subst hpq
          by_cases hpr : p = r
          · simp only [hpr, beq_self_eq_true, ↓reduceIte] at h h' ⊢
            exact ih h h'
          · simpa [hpr] using h'
        · have hlt : p < q := by simpa [hpq] using h
          by_cases hqr : q = r
          · subst hqr
            simpa [hpq] using hlt
          · have hlt' : q < r := by simpa [hqr] using h'
            simp [(hlt.trans hlt').ne, hlt.trans hlt']

theorem partsLe_antisymm {ps qs : List String} (h : partsLe ps qs = true)
    (h' : partsLe qs ps = true) : ps = qs := by
  induction ps generalizing qs with
  | nil =>
    cases qs with
    | nil => rfl
    | cons q qs => simp [partsLe] at h'
  | cons p ps ih =>
    cases qs with
    | nil => simp [partsLe] at h
    | cons q qs =>
      rw [partsLe] at h h'
      by_cases hpq : p = q
      · subst hpq
        simp only [beq_self_eq_true, ↓reduceIte] at h h'
        rw [ih h h']
      · have hlt : p < q := by simpa [hpq] using h
        have hlt' : q < p := by simpa [Ne.symm hpq] using h'
        exact absurd hlt' hlt.asymm

end Path

/-! ## Searches that go through -/

namespace Source

variable {files : FileTree} {root : Path} {base : List String}

/-- The operating system answers about every place that a search comes to. -/
def IsAnswered (files : FileTree) (root : Path) (base : List String) : Prop :=
  ∀ parts, files.Reaches base parts → ¬ files.Denies (root.join ⟨"", parts⟩)

/-- A search goes through exactly if there is an answer about every place, and then it finds the
files behind directories that may be listed, each once. -/
theorem filesBelow_eq_ok (hproper : files.IsProper) (hroot : files.place root = .ok base)
    (hkind : files.kind base = some true) {below : List (List String)}
    (h : filesBelow files root = .ok below) :
    below.Nodup
      ∧ (∀ p, p ∈ below ↔ p ≠ [] ∧ files.kind (base ++ p) = some false ∧ files.IsOpen base p)
      ∧ (below.Pairwise fun p q => Path.partsLe p q = true)
      ∧ IsAnswered files root base := by
  have hsearch := isSearch_of_place hproper hroot hkind
  rw [filesBelow] at h
  cases hfound : filesFrom files root (files.depth + 1) [] with
  | error fault =>
    rw [hfound] at h
    cases h
  | ok found =>
    rw [hfound] at h hsearch
    cases h
    obtain ⟨hnodup, hmem, hanswered⟩ := hsearch
    refine ⟨(List.mergeSort_perm _ _).nodup_iff.2 hnodup, fun p => ?_, ?_, hanswered⟩
    · rw [List.mem_mergeSort, hmem]
      constructor
      · rintro ⟨⟨rest, hne, rfl⟩, hfile, hreach⟩
        exact ⟨hne, hfile, hreach.listed⟩
      · rintro ⟨hne, hfile, hopen⟩
        refine ⟨⟨p, hne, rfl⟩, hfile, ?_, hopen⟩
        rw [hfile]
        exact Option.some_ne_none _
    · refine List.pairwise_mergeSort ?_ ?_ _
      · intro p q r
        exact Path.partsLe_trans
      · exact Path.partsLe_total

theorem filesBelow_eq_error (hproper : files.IsProper) (hroot : files.place root = .ok base)
    (hkind : files.kind base = some true) {fault : FileFault}
    (h : filesBelow files root = .error fault) : ¬ IsAnswered files root base := by
  have hsearch := isSearch_of_place hproper hroot hkind
  rw [filesBelow] at h
  cases hfound : filesFrom files root (files.depth + 1) [] with
  | error e =>
    rw [hfound] at hsearch
    obtain ⟨rest, hreach, hdenied⟩ := hsearch
    exact fun hanswered => hanswered rest hreach hdenied
  | ok found =>
    rw [hfound] at h
    cases h

end Source

namespace Scanner

variable {scanner : Scanner} {files files' : FileTree} {base parts : List String}

/-- A scanner, the directory that its root leads to in a proper tree, and a search of this directory
that goes through. -/
structure Finds (scanner : Scanner) (files : FileTree) (base : List String) : Prop where
  proper : files.IsProper
  place : files.place scanner.reader.root = .ok base
  kind : files.kind base = some true
  search : scanner.CanSearch files

/-- Where a search goes through, it goes through in a tree with fewer files. -/
theorem Finds.within (h : scanner.Finds files base) (hwithin : FileTree.Within files' files)
    (hproper : files'.IsProper) (hplace : files'.place scanner.reader.root = .ok base) :
    scanner.Finds files' base := by
  have hkind := (hwithin.directories base).2 h.kind
  refine ⟨hproper, hplace, hkind, ?_⟩
  obtain ⟨below, hbelow⟩ := h.search
  have hanswered := (Source.filesBelow_eq_ok h.proper h.place h.kind hbelow).2.2.2
  cases hbelow' : Source.filesBelow files' scanner.reader.root with
  | ok below' => exact ⟨below', hbelow'⟩
  | error fault =>
    refine absurd ?_ (Source.filesBelow_eq_error hproper hplace hkind hbelow')
    intro parts hreach hdenied
    exact hanswered parts ⟨hwithin.kind_ne_none hreach.stands,
      hwithin.isOpen hreach.listed⟩ (hwithin.keeps.denies hdenied)

/-! ## The sources of a tree -/

/-- The patterns select a file. -/
def selects (scanner : Scanner) (parts : List String) : Bool :=
  Source.isMatched scanner.includes parts && !Source.isMatched scanner.excludes parts

/-- A file stands behind a directory, all directories on the way may be listed, and the patterns
select the file. -/
structure IsSource (scanner : Scanner) (files : FileTree) (base parts : List String) : Prop where
  file : files.kind (base ++ parts) = some false
  listed : files.IsOpen base parts
  selected : scanner.selects parts = true

namespace Finds

variable (h : scanner.Finds files base)

include h

theorem exists_below : ∃ below, Source.filesBelow files scanner.reader.root = .ok below
    ∧ scanner.sources files = below.filter scanner.selects := by
  obtain ⟨below, hbelow⟩ := h.search
  exact ⟨below, hbelow, sources_of_found hbelow⟩

theorem ne_nil (hsource : scanner.IsSource files base parts) : parts ≠ [] := by
  rintro rfl
  have hfile := hsource.file
  rw [List.append_nil, h.kind] at hfile
  cases hfile

theorem mem_sources : parts ∈ scanner.sources files ↔ scanner.IsSource files base parts := by
  obtain ⟨below, hbelow, hsources⟩ := h.exists_below
  obtain ⟨-, hmem, -, -⟩ := Source.filesBelow_eq_ok h.proper h.place h.kind hbelow
  rw [hsources, List.mem_filter, hmem]
  constructor
  · rintro ⟨⟨-, hfile, hopen⟩, hselects⟩
    exact ⟨hfile, hopen, hselects⟩
  · intro hsource
    exact ⟨⟨h.ne_nil hsource, hsource.file, hsource.listed⟩, hsource.selected⟩

theorem pairwise_sources :
    (scanner.sources files).Pairwise fun p q => Path.partsLe p q = true := by
  obtain ⟨below, hbelow, hsources⟩ := h.exists_below
  rw [hsources]
  exact (Source.filesBelow_eq_ok h.proper h.place h.kind hbelow).2.2.1.filter _

theorem nodup_sources : (scanner.sources files).Nodup := by
  obtain ⟨below, hbelow, hsources⟩ := h.exists_below
  rw [hsources]
  exact (Source.filesBelow_eq_ok h.proper h.place h.kind hbelow).1.filter _

/-- The selected files have one order, so the sources are any list of them that has it. -/
theorem eq_sources {ps : List (List String)} (hnodup : ps.Nodup)
    (hsorted : ps.Pairwise fun p q => Path.partsLe p q = true)
    (hmem : ∀ parts, parts ∈ ps ↔ scanner.IsSource files base parts) :
    scanner.sources files = ps := by
  have hperm : (scanner.sources files).Perm ps := by
    refine (List.perm_ext_iff_of_nodup h.nodup_sources hnodup).2 fun parts => ?_
    rw [h.mem_sources, hmem]
  exact hperm.eq_of_pairwise (fun _ _ _ _ => Path.partsLe_antisymm) h.pairwise_sources hsorted

/-! ## The files of the sources -/

/-- The path of a source file leads to it. -/
theorem place_pathOf (hsource : scanner.IsSource files base parts) :
    files.place (scanner.pathOf parts) = .ok (base ++ parts) := by
  obtain ⟨below, hbelow, -⟩ := h.exists_below
  have hanswered := (Source.filesBelow_eq_ok h.proper h.place h.kind hbelow).2.2.2
  have hstands : files.kind (base ++ parts) ≠ none := by
    rw [hsource.file]
    exact Option.some_ne_none _
  cases hfind : files.find? (scanner.pathOf parts) with
  | ok found => exact (h.proper.find?_join h.place hstands hfind).1
  | error fault =>
    exact absurd (Or.inl ⟨fault, hfind⟩) (hanswered parts ⟨hstands, hsource.listed⟩)

/-- A source file is read alike in every tree that has the directories and this file. -/
theorem read_pathOf_congr (hsource : scanner.IsSource files base parts)
    (hkeeps : FileTree.Keeps files files')
    (hlookup : files'.lookup (base ++ parts) = files.lookup (base ++ parts)) :
    files'.read (scanner.pathOf parts) = files.read (scanner.pathOf parts) := by
  have hplace := h.place_pathOf hsource
  rw [FileTree.read, FileTree.read, hplace, hkeeps.place hplace]
  simp only [bind, Except.bind, hlookup, hkeeps.access (base ++ parts)]

end Finds

/-! ## Records and problems leave the sources alone -/

variable {s t : Session}

/-- Log records and problems go to no file that the patterns select, whatever files and directories
there are. -/
def IsApartFrom (scanner : Scanner) (s : Session) : Prop :=
  ∀ p, s.NotesIn p → ∀ (files : FileTree) base parts, FileTree.SameSystem s.files files →
    parts ≠ [] → files.place scanner.reader.root = .ok base →
    files.place p = .ok (base ++ parts) → scanner.selects parts = false

/-- Without `..` in the paths, their components decide this. -/
theorem isApartFrom_of_parts (hroot : ".." ∉ scanner.reader.root.parts)
    (h : ∀ p, s.NotesIn p → ".." ∉ p.parts ∧ ∀ parts, parts ≠ [] →
      s.files.origin p ++ p.parts
        = s.files.origin scanner.reader.root ++ scanner.reader.root.parts ++ parts →
      scanner.selects parts = false) :
    scanner.IsApartFrom s := by
  intro p hp files base parts hsame hne hbase hplace
  have hparts := FileTree.parts_of_place (h p hp).1 hplace
  rw [FileTree.parts_of_place hroot hbase, ← hsame.origin, ← hsame.origin] at hparts
  exact (h p hp).2 parts hne hparts.symm

/-- What stands in the tree behind a scan's records and problems, as far as the patterns select
it. -/
structure Spares (scanner : Scanner) (base : List String) (files files' : FileTree) : Prop
    extends FileTree.Keeps files files' where
  lookup : ∀ parts node, parts ≠ [] → scanner.selects parts = true →
    files.lookup (base ++ parts) = some node → files'.lookup (base ++ parts) = some node

theorem Spares.refl (files : FileTree) : Spares scanner base files files :=
  ⟨.refl files, fun _ _ _ _ hnode => hnode⟩

theorem Spares.trans {files'' : FileTree} (h : Spares scanner base files files')
    (h' : Spares scanner base files' files'') : Spares scanner base files files'' :=
  ⟨h.toKeeps.trans h'.toKeeps, fun parts node hne hselects hnode =>
    h'.lookup parts node hne hselects (h.lookup parts node hne hselects hnode)⟩

namespace IsApartFrom

variable (h : scanner.IsApartFrom s)

include h

/-- A file that is written elsewhere leaves the sources as they are. -/
theorem lookup_put (hsame : FileTree.SameSystem s.files files) {p : Path} (hp : s.NotesIn p)
    (hplace : files.place scanner.reader.root = .ok base) (hne : parts ≠ [])
    (hselects : scanner.selects parts = true) {key : List String}
    (htarget : files.target p = .ok key) (content : List UInt8) :
    (files.put key (.file content)).lookup (base ++ parts) = files.lookup (base ++ parts) := by
  have hother : base ++ parts ≠ key := by
    rintro rfl
    have hnot := h p hp files base parts hsame hne hplace (FileTree.target_eq_ok.1 htarget).1
    cases hnot.symm.trans hselects
  have hkey := FileTree.ne_nil_of_kind rfl (FileTree.ne_directory_of_target htarget)
  rw [FileTree.lookup_put files hkey, if_neg hother]

theorem spares_put (hsame : FileTree.SameSystem s.files files) {p : Path} (hp : s.NotesIn p)
    (hplace : files.place scanner.reader.root = .ok base) {key : List String}
    (htarget : files.target p = .ok key) (content : List UInt8) :
    Spares scanner base files (files.put key (.file content)) := by
  refine ⟨FileTree.keeps_put_file (FileTree.ne_directory_of_target htarget) content, ?_⟩
  intro parts node hne hselects hnode
  exact (h.lookup_put hsame hp hplace hne hselects htarget content).trans hnode

/-- After a log record the selected files are the same. -/
theorem deliver (hplace : s.files.place scanner.reader.root = .ok base) (r : Record) :
    Spares scanner base s.files (s.log r).files
      ∧ ∀ parts, parts ≠ [] → scanner.selects parts = true →
        (s.log r).files.lookup (base ++ parts) = s.files.lookup (base ++ parts) := by
  refine Journal.deliver_induction (P := fun files => Spares scanner base s.files files
    ∧ ∀ parts, parts ≠ [] → scanner.selects parts = true →
      files.lookup (base ++ parts) = s.files.lookup (base ++ parts)) r ?_
    ⟨.refl _, fun _ _ _ => rfl⟩
  rintro files key content o p ⟨hspares, hsame⟩ ho hp htarget
  have hnotes : s.NotesIn p := Or.inr ⟨o, ho, hp⟩
  have hplace' := hspares.place hplace
  refine ⟨hspares.trans (h.spares_put hspares.toSameSystem hnotes hplace' htarget content), ?_⟩
  intro parts hne hselects
  rw [h.lookup_put hspares.toSameSystem hnotes hplace' hne hselects htarget]
  exact hsame parts hne hselects

/-- One record or problem leaves the selected files. -/
theorem step {c : Change} (hstep : s.Step c t) (hnote : c.IsNote)
    (hplace : s.files.place scanner.reader.root = .ok base) :
    Spares scanner base s.files t.files := by
  cases hstep with
  | logged r => exact (h.deliver hplace r).1
  | noted p => exact .refl _
  | prepared hpath hmake =>
    have hextends := FileTree.extends_makeDirectories hmake
    exact ⟨hextends.keeps, fun parts node _ _ hnode => hextends.lookup _ node hnode⟩
  | listed hpath happend =>
    obtain ⟨key, content, htarget, rfl⟩ := FileTree.append_eq_ok happend
    exact h.spares_put (.refl _) (Or.inl hpath) hplace htarget content
  | remembered path ls => cases hnote
  | made hmake => cases hnote
  | wrote hwrite => cases hnote

/-- Where records and problems go does not change with them. -/
theorem after_step {c : Change} (hstep : s.Step c t)
    (hsame : FileTree.SameSystem s.files t.files) : scanner.IsApartFrom t := by
  intro p hp files base parts hsame'
  rw [Session.NotesIn, hstep.outlets, hstep.problemsPath] at hp
  exact h p hp files base parts (hsame.trans hsame')

theorem trace {cs : List Change} (htrace : s.Trace cs t) (hnotes : ∀ c ∈ cs, c.IsNote)
    (hplace : s.files.place scanner.reader.root = .ok base) :
    Spares scanner base s.files t.files := by
  induction htrace with
  | nil => exact .refl _
  | @cons s u t c cs hstep _ ih =>
    have hspares := h.step hstep (hnotes c List.mem_cons_self) hplace
    exact hspares.trans (ih (h.after_step hstep hspares.toSameSystem)
      (fun c hc => hnotes c (List.mem_cons_of_mem _ hc)) (hspares.place hplace))

end IsApartFrom

/-- A log record does not change what the sources are. -/
theorem sources_log (hapart : scanner.IsApartFrom s) (h : scanner.Finds s.files base) {r : Record}
    (h' : scanner.Finds (s.log r).files base) :
    scanner.sources (s.log r).files = scanner.sources s.files := by
  obtain ⟨hspares, hsame⟩ := hapart.deliver h.place r
  refine h'.eq_sources h.nodup_sources h.pairwise_sources fun parts => ?_
  rw [h.mem_sources]
  -- Nothing else can have come to a place that the patterns select.
  have hkind (hne : parts ≠ []) (hselects : scanner.selects parts = true) :
      (s.log r).files.kind (base ++ parts) = s.files.kind (base ++ parts) := by
    rw [FileTree.kind, FileTree.kind, hsame parts hne hselects]
  constructor
  · intro hsource
    exact ⟨(hkind (h.ne_nil hsource) hsource.selected).trans hsource.file,
      hspares.isOpen hsource.listed, hsource.selected⟩
  · intro hsource
    exact ⟨(hkind (h'.ne_nil hsource) hsource.selected).symm.trans hsource.file,
      hspares.toSameSystem.symm.isOpen hsource.listed, hsource.selected⟩

/-- Every source file is read as before, however far the scan has come. -/
theorem read_of_notes {problems : List Problem} (hapart : scanner.IsApartFrom s)
    (h : scanner.Finds s.files base) (hsource : scanner.IsSource s.files base parts)
    (hnotes : s.Notes problems t) :
    t.files.read (scanner.pathOf parts) = s.files.read (scanner.pathOf parts) := by
  obtain ⟨cs, htrace, hcs, -⟩ := hnotes
  have hspares := hapart.trace htrace hcs h.place
  obtain ⟨bytes, hlookup⟩ := FileTree.kind_eq_false.1 hsource.file
  refine h.read_pathOf_congr hsource hspares.toKeeps ?_
  rw [hlookup, hspares.lookup parts _ (h.ne_nil hsource) hsource.selected hlookup]

/-! ## Fewer sources -/

namespace Finds

variable {gone : List (List String)} (h : scanner.Finds files base)
  (hgone : gone ⊆ scanner.sources files)

include h hgone

theorem kind_of_gone : ∀ key ∈ gone.map (base ++ ·), files.kind key = some false := by
  intro key hkey
  obtain ⟨parts, hparts, rfl⟩ := List.mem_map.1 hkey
  exact (h.mem_sources.1 (hgone hparts)).file

/-- Without some of the sources, the search for the others goes through. -/
theorem without : scanner.Finds (files.without (gone.map (base ++ ·))) base := by
  have hkind := h.kind_of_gone hgone
  refine h.within (FileTree.within_without hkind) (h.proper.without hkind) ?_
  have hsame : FileTree.SameSystem files (files.without (gone.map (base ++ ·))) := ⟨rfl, rfl⟩
  exact FileTree.place_of_directories hsame (fun _ => FileTree.kind_without hkind) h.place
    (fun e => by cases e) (fun e => by cases e)

/-- If some of the sources are taken away, the others are left, in the same order. -/
theorem sources_without :
    scanner.sources (files.without (gone.map (base ++ ·)))
      = (scanner.sources files).filter fun parts => !gone.contains parts := by
  have hleft := h.without hgone
  refine hleft.eq_sources (h.nodup_sources.filter _) (h.pairwise_sources.filter _) fun parts => ?_
  rw [List.mem_filter, h.mem_sources]
  have hsame : FileTree.SameSystem (files.without (gone.map (base ++ ·))) files := ⟨rfl, rfl⟩
  have hkind (hne : parts ≠ []) : (files.without (gone.map (base ++ ·))).kind (base ++ parts)
      = if parts ∈ gone then none else files.kind (base ++ parts) := by
    have hmem : base ++ parts ∈ gone.map (base ++ ·) ↔ parts ∈ gone := by simp
    rw [FileTree.kind, FileTree.lookup_without (by simp [hne])]
    simp only [hmem]
    split <;> rfl
  constructor
  · rintro ⟨hsource, hnot⟩
    refine ⟨?_, hsame.symm.isOpen hsource.listed, hsource.selected⟩
    rw [hkind (h.ne_nil hsource), if_neg (by simpa using hnot)]
    exact hsource.file
  · intro hsource
    have hfile := hsource.file
    rw [hkind (hleft.ne_nil hsource)] at hfile
    split at hfile
    · cases hfile
    · rename_i hnot
      exact ⟨⟨hfile, hsame.isOpen hsource.listed, hsource.selected⟩, by simpa using hnot⟩

/-- What is left is read as before. -/
theorem read_without (hmem : parts ∈ scanner.sources (files.without (gone.map (base ++ ·)))) :
    (files.without (gone.map (base ++ ·))).read (scanner.pathOf parts)
      = files.read (scanner.pathOf parts) := by
  have hextends := FileTree.extends_without files (gone.map (base ++ ·))
  have hleft := h.without hgone
  have hsource := hleft.mem_sources.1 hmem
  obtain ⟨bytes, hlookup⟩ := FileTree.kind_eq_false.1 hsource.file
  refine (hleft.read_pathOf_congr hsource hextends.keeps ?_).symm
  rw [hlookup, hextends.lookup _ _ hlookup]

end Finds

end Scanner

end StructAtlas
