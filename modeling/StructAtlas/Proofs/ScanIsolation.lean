import StructAtlas.Proofs.SourceTrees
import StructAtlas.Proofs.Utf8

set_option autoImplicit false

/-!
# Files that cannot be scanned

A source file fails if it cannot be read or if its bytes are allowed in neither character set
(`Scanner.failing`). As long as a scan does not write into the sources itself, what it reads of them
is what stands there at its beginning (`Scanner.exists_covers_of_apart`). So a failing file has no
influence on the others: the registry is that of a scan of the tree without the failing files, they
are counted, and one problem is noted for each of them, in order
(`Scanner.failing_files_are_isolated`). A file that lists the problems and is a source itself breaks
this (`Scanner.problem_list_disturbs_scan`).
-/

namespace StructAtlas

/-- Readings that failed have no influence on the registry. -/
theorem Tally.registry_filter {keepLines : Bool} {start start' : Tally}
    (h : start'.registry = start.registry) (readings : List Reading) :
    ((readings.filter (·.text.isOk)).foldl (Tally.add keepLines) start').registry
      = (readings.foldl (Tally.add keepLines) start).registry := by
  induction readings generalizing start start' with
  | nil => exact h
  | cons r readings ih =>
    rw [List.foldl_cons]
    cases htext : r.text with
    | ok text =>
      rw [List.filter_cons_of_pos (by rw [htext]; rfl), List.foldl_cons]
      apply ih
      rw [Tally.add, Tally.add, htext, h]
    | error e =>
      rw [List.filter_cons_of_neg (by rw [htext]; exact Bool.false_ne_true)]
      apply ih
      rw [Tally.add, htext]
      exact h

namespace Scanner

variable {scanner : Scanner} {s : Session} {base : List String}

/-! ## One scan -/

/-- The search for sources goes through behind the first record of a scan, and so it does before. -/
theorem finds_of_canSearch (hproper : s.files.IsProper)
    (hroot : s.files.isDirectory scanner.reader.root = .ok true)
    (hsearch : scanner.CanSearch (s.log scanner.startRecord).files) :
    ∃ base, scanner.Finds s.files base ∧ scanner.Finds (s.log scanner.startRecord).files base := by
  obtain ⟨base, hplace, hkind⟩ := FileTree.exists_place_of_isDirectory hroot
  have hwithin : FileTree.Within s.files (s.log scanner.startRecord).files :=
    FileTree.within_deliver s.files s.journal scanner.startRecord
  have hfinds : scanner.Finds (s.log scanner.startRecord).files base :=
    ⟨hproper.deliver _ _, hwithin.keeps.place hplace, (hwithin.directories base).1 hkind, hsearch⟩
  exact ⟨base, hfinds.within hwithin hproper hplace, hfinds⟩

/-- What a scan reads is what stands in the tree at its beginning. -/
theorem exists_covers_of_apart (htext : scanner.reader.IsText) (hlist : s.CanList)
    (hapart : scanner.IsApartFrom s) (h : scanner.Finds s.files base)
    (h' : scanner.Finds (s.log scanner.startRecord).files base) (registry : Registry) :
    ∃ tally t, scanner.Covers registry s
      ((scanner.sources s.files).map (scanner.readingIn s)) tally t := by
  obtain ⟨readings, tally, t, hcovers⟩ := exists_covers htext hlist h.proper.nullFree
    (FileTree.isDirectory_of_place h'.place h'.kind) h'.search registry
  have hsources : readings.map Reading.parts = scanner.sources s.files :=
    hcovers.sources.trans (sources_log hapart h h')
  -- Each reading is that of its file at the beginning.
  have hsame : ∀ r ∈ readings, scanner.readingIn s r.parts = r := by
    intro r hr
    obtain ⟨problems, u, hnotes, hreading⟩ := hcovers.read r hr
    have hmem : r.parts ∈ scanner.sources s.files := hsources ▸ List.mem_map_of_mem hr
    rw [readingIn, ← read_of_notes hapart h (h.mem_sources.1 hmem) hnotes]
    exact hreading.symm
  have hreadings : readings = (scanner.sources s.files).map (scanner.readingIn s) := by
    rw [← hsources, List.map_map]
    exact (List.map_id' readings).symm.trans (List.map_congr_left fun r hr => (hsame r hr).symm)
  exact ⟨tally, t, hreadings ▸ hcovers⟩

/-! ## Failing files -/

/-- A file cannot be read, or its bytes are allowed in neither character set. -/
def fails (scanner : Scanner) (files : FileTree) (parts : List String) : Bool :=
  !(scanner.reader.textOf (files.read (scanner.pathOf parts))).isOk

/-- The source files that fail, in the order of the scan. -/
def failing (scanner : Scanner) (files : FileTree) : List (List String) :=
  (scanner.sources files).filter (scanner.fails files)

/-- The tree without the source files that fail. -/
def withoutFailing (scanner : Scanner) (files : FileTree) : FileTree :=
  match files.place scanner.reader.root with
  | .ok base => files.without ((scanner.failing files).map (base ++ ·))
  | .error _ => files

/-- A problem says why a file fails. -/
inductive Explains (scanner : Scanner) (files : FileTree) (parts : List String)
    (problem : Problem) : Prop
  | decode {bytes : List UInt8} {fault fault' : Charset.DecodeFault}
    (hread : files.read (scanner.pathOf parts) = .ok bytes)
    (hprimary : scanner.reader.primary.decode bytes = .error (.bytes fault))
    (hfallback : scanner.reader.fallback.decode bytes = .error (.bytes fault'))
    (hproblem : problem = scanner.problemOf parts
      (.sourceDecode scanner.reader.primary.name scanner.reader.fallback.name fault'))
    (hkind : problem.kind = .decode)
  | io {fault : FileFault} (hread : files.read (scanner.pathOf parts) = .error fault)
    (hproblem : problem = scanner.problemOf parts (.sourceRead fault))
    (hkind : problem.kind = .io)

/-- There is one problem for each file that fails, and it says why. -/
theorem forall₂_explains (htext : scanner.reader.IsText) (s : Session)
    (sources : List (List String)) :
    List.Forall₂ (scanner.Explains s.files) (sources.filter (scanner.fails s.files))
      ((sources.map (scanner.readingIn s)).filterMap scanner.problem?) := by
  induction sources with
  | nil => exact .nil
  | cons parts sources ih =>
    rw [List.map_cons]
    cases hfound : scanner.reader.textOf (s.files.read (scanner.pathOf parts)) with
    | ok text =>
      have hnone : scanner.problem? (scanner.readingIn s parts) = none := by
        rw [problem?, readingIn, hfound]
      rw [List.filter_cons_of_neg (by rw [fails, hfound]; exact Bool.false_ne_true),
        List.filterMap_cons_none hnone]
      exact ih
    | error e =>
      have hsome : scanner.problem? (scanner.readingIn s parts)
          = some (scanner.problemOf parts e) := by
        rw [problem?, readingIn, hfound]
      rw [List.filter_cons_of_pos (by rw [fails, hfound]; rfl), List.filterMap_cons_some hsome]
      refine .cons ?_ ih
      rcases htext.textOf_cases (s.files.read (scanner.pathOf parts)) with
        ⟨text, hok⟩ | ⟨bytes, fault, fault', hread, hprimary, hfallback, herror⟩
          | ⟨fault, hread, herror⟩
      · cases hfound.symm.trans hok
      · cases hfound.symm.trans herror
        exact .decode hread hprimary hfallback rfl rfl
      · cases hfound.symm.trans herror
        exact .io hread rfl rfl

theorem failing_subset (scanner : Scanner) (files : FileTree) :
    scanner.failing files ⊆ scanner.sources files :=
  List.filter_subset_self _

theorem withoutFailing_of_place (hplace : s.files.place scanner.reader.root = .ok base) :
    scanner.withoutFailing s.files
      = s.files.without ((scanner.failing s.files).map (base ++ ·)) := by
  rw [withoutFailing, hplace]

/-- The sources that are left without the failing ones. -/
theorem sources_withoutFailing (h : scanner.Finds s.files base) :
    (scanner.sources (scanner.withoutFailing s.files)).map
        (scanner.readingIn { s with files := scanner.withoutFailing s.files })
      = ((scanner.sources s.files).map (scanner.readingIn s)).filter (·.text.isOk) := by
  have hfailing := failing_subset scanner s.files
  rw [withoutFailing_of_place h.place]
  have hsame : ∀ parts ∈ scanner.sources
      (s.files.without ((scanner.failing s.files).map (base ++ ·))),
      scanner.readingIn
          { s with files := s.files.without ((scanner.failing s.files).map (base ++ ·)) } parts
        = scanner.readingIn s parts := by
    intro parts hparts
    rw [readingIn, readingIn, h.read_without hfailing hparts]
  rw [List.map_congr_left hsame, h.sources_without hfailing, List.filter_map]
  congr 1
  refine List.filter_congr fun parts hparts => ?_
  have hcontains : (scanner.failing s.files).contains parts = scanner.fails s.files parts := by
    rw [Bool.eq_iff_iff, List.contains_iff_mem, failing, List.mem_filter]
    exact and_iff_right hparts
  rw [hcontains, fails, Bool.not_not]
  rfl

/-- Without the failing files the search goes through as well, before and behind the first
record. -/
theorem finds_withoutFailing (h : scanner.Finds s.files base)
    (h' : scanner.Finds (s.log scanner.startRecord).files base) :
    scanner.Finds (scanner.withoutFailing s.files) base
      ∧ scanner.Finds
        (({ s with files := scanner.withoutFailing s.files } : Session).log
          scanner.startRecord).files base := by
  have hfailing := failing_subset scanner s.files
  have hleft := h.without hfailing
  have hwithin := FileTree.within_without (h.kind_of_gone hfailing)
  rw [withoutFailing_of_place h.place]
  refine ⟨hleft, h'.within (hwithin.deliver s.journal scanner.startRecord)
    (hleft.proper.deliver _ _) ?_⟩
  exact (FileTree.within_deliver _ s.journal scanner.startRecord).keeps.place hleft.place

/-- **Failing files are isolated.** Let both codecs refuse nothing but bytes. Let the source root be
a directory of a proper tree, and let the operating system end no search for source files there.
Let log records and problems go to no file that the patterns select, and let the file that lists
the problems, if there is one, have no null character in its path. Then a scan returns. Its registry
is that of a scan of the tree without the failing source files, which returns as well, without a
failure. The number of failures is that of the failing files, and every source file is scanned or
counted as failed. Exactly one problem is noted for each failing file, in the order of the scan:
that both decodings failed, or that the file could not be read. -/
theorem failing_files_are_isolated (htext : scanner.reader.IsText) (hlist : s.CanList)
    (hproper : s.files.IsProper) (hroot : s.files.isDirectory scanner.reader.root = .ok true)
    (hsearch : scanner.CanSearch (s.log scanner.startRecord).files)
    (hapart : scanner.IsApartFrom s) (registry : Registry) :
    ∃ tally t tally' t' problems,
      scanner.scan registry s = .ok tally t
      ∧ scanner.scan registry { s with files := scanner.withoutFailing s.files } = .ok tally' t'
      ∧ tally.registry = tally'.registry
      ∧ tally'.failed = 0
      ∧ tally.failed = (scanner.failing s.files).length
      ∧ tally.scanned + tally.failed = (scanner.sources s.files).length
      ∧ t.problems.entries = s.problems.entries ++ problems
      ∧ List.Forall₂ (scanner.Explains s.files) (scanner.failing s.files) problems := by
  obtain ⟨base, h, h'⟩ := finds_of_canSearch hproper hroot hsearch
  obtain ⟨hleft, hleft'⟩ := finds_withoutFailing h h'
  have hapart' : scanner.IsApartFrom { s with files := scanner.withoutFailing s.files } := by
    have hsame : FileTree.SameSystem s.files (scanner.withoutFailing s.files) := by
      rw [withoutFailing_of_place h.place]
      exact ⟨rfl, rfl⟩
    exact fun p hp files base parts hsame' => hapart p hp files base parts (hsame.trans hsame')
  obtain ⟨tally, t, hcovers⟩ := exists_covers_of_apart htext hlist hapart h h' registry
  obtain ⟨tally', t', hcovers'⟩ :=
    exists_covers_of_apart (s := { s with files := scanner.withoutFailing s.files }) htext hlist
      hapart' hleft hleft' registry
  have hexplains := forall₂_explains htext s (scanner.sources s.files)
  have hreadings := sources_withoutFailing h
  refine ⟨tally, t, tally', t', _, hcovers.returned, hcovers'.returned, ?_, ?_, ?_, ?_,
    hcovers.notes.entries, hexplains⟩
  · rw [hcovers.tally, hcovers'.tally]
    simp only [hreadings]
    exact (Tally.registry_filter rfl _).symm
  · rw [hcovers'.failed_eq]
    simp only [hreadings]
    refine List.length_eq_zero_iff.2 (List.filterMap_eq_nil_iff.2 fun r hr => ?_)
    have hok := (List.mem_filter.1 hr).2
    rw [problem?]
    cases htext : r.text with
    | ok text => rfl
    | error e =>
      rw [htext] at hok
      cases hok
  · rw [hcovers.failed_eq]
    exact hexplains.length_eq.symm
  · rw [hcovers.scanned_add_failed, sources_log hapart h h']

/-! ## Two sessions -/

/-- A scanner for C sources in UTF-8 or ASCII. -/
def asciiScanner : Scanner :=
  ⟨⟨Path.parse "src", .utf8, .named Charset.noLibrary "ascii"⟩, ["*.c", "*.h"], [], true⟩

theorem isText_asciiScanner : asciiScanner.reader.IsText where
  primary := Charset.Codec.isText_of_decode Charset.Codec.isUtf8_utf8
  fallback := by
    have hascii : Charset.find? "ascii" = some .ascii := by decide +kernel
    exact Charset.Codec.isText_of_decode
      (Charset.Codec.decode_named Charset.noLibrary (by decide) hascii rfl)

/-- A session with a log file and a list of problems. Of three source files, one is no text and one
may not be read. -/
def mixedSession : Session where
  files :=
    { nodes := [(["src"], .directory), (["src", "a.c"], .file [0xff]),
        (["src", "b.c"], .file (Charset.Utf8.bytesOf "struct B { int x; };")),
        (["src", "c.h"], .file []), (["run.log"], .file [])]
      guards := [(["src", "c.h"], { read := some .permission })] }
  journal := (Journal.empty ⟨"", "", ""⟩).add 0 0 none (.file (Path.parse "run.log"))
  problems := ⟨some (Path.parse "src/errors.txt"), []⟩
  lines := []

theorem isProper_mixedSession : mixedSession.files.IsProper where
  single := by rw [FileTree.IsSingle]; decide
  home := rfl
  placed := by decide
  named := by decide
  nullFree := ⟨by decide, by decide⟩

theorem found_mixedSession : Source.filesBelow mixedSession.files asciiScanner.reader.root
    = .ok [["a.c"], ["b.c"], ["c.h"]] :=
  Source.filesBelow_of_pairwise (by rfl) (by decide)

theorem found_log_mixedSession :
    Source.filesBelow (mixedSession.log asciiScanner.startRecord).files asciiScanner.reader.root
      = .ok [["a.c"], ["b.c"], ["c.h"]] :=
  Source.filesBelow_of_pairwise (by rfl) (by decide)

theorem failing_mixedSession :
    asciiScanner.failing mixedSession.files = [["a.c"], ["c.h"]] := by
  rw [failing, sources_of_found found_mixedSession]
  decide +kernel

theorem isApartFrom_mixedSession : asciiScanner.IsApartFrom mixedSession := by
  refine isApartFrom_of_parts (by decide) fun p hp => ?_
  rcases hp with hp | ⟨o, ho, hp⟩
  · cases hp
    refine ⟨by decide, fun parts _ hparts => ?_⟩
    have hparts : ["src"] ++ ["errors.txt"] = ["src"] ++ parts := hparts
    cases List.append_cancel_left hparts
    decide +kernel
  · cases List.mem_singleton.1 ho
    cases hp
    refine ⟨by decide, fun parts _ hparts => ?_⟩
    cases hparts

/-- One file is scanned, and the two others fail. -/
theorem mixed_files_are_isolated :
    asciiScanner.failing mixedSession.files = [["a.c"], ["c.h"]]
      ∧ ∃ tally t tally' t' problems,
        asciiScanner.scan Registry.empty mixedSession = .ok tally t
        ∧ asciiScanner.scan Registry.empty
            { mixedSession with files := asciiScanner.withoutFailing mixedSession.files }
          = .ok tally' t'
        ∧ tally.registry = tally'.registry
        ∧ tally'.failed = 0
        ∧ tally.failed = (asciiScanner.failing mixedSession.files).length
        ∧ tally.scanned + tally.failed = (asciiScanner.sources mixedSession.files).length
        ∧ t.problems.entries = mixedSession.problems.entries ++ problems
        ∧ List.Forall₂ (asciiScanner.Explains mixedSession.files)
          (asciiScanner.failing mixedSession.files) problems := by
  have hlist : mixedSession.CanList := by
    intro p hp
    cases hp
    exact Path.isNullFree_iff.2 (by decide)
  exact ⟨failing_mixedSession, failing_files_are_isolated isText_asciiScanner hlist
    isProper_mixedSession rfl ⟨_, found_log_mixedSession⟩ isApartFrom_mixedSession Registry.empty⟩

/-- A session whose list of problems is a source file. Another source file is no text, and its name
has a declaration in it. -/
def listedSession : Session where
  files :=
    { nodes := [(["src"], .directory), (["src", "a struct X { int a; };.c"], .file [0xff]),
        (["src", "z.c"], .file [])] }
  journal := Journal.empty ⟨"", "", ""⟩
  problems := ⟨some (Path.parse "src/z.c"), []⟩
  lines := []

/-- A session whose list of problems has a null character in its path. -/
def unlistedSession : Session :=
  { listedSession with problems := ⟨some ⟨"", ["\x00"]⟩, []⟩ }

/-- Why the file that is no text fails. -/
def listedFailure : Failure :=
  .sourceDecode "utf-8" "ascii" ⟨"ascii", 0, 1, 0xff, "ordinal not in range(128)"⟩

/-- The line that is written about it. -/
def listedLine : String :=
  (asciiScanner.problemOf ["a struct X { int a; };.c"] listedFailure).toText ++ "\n"

theorem found_listedSession : Source.filesBelow listedSession.files asciiScanner.reader.root
    = .ok [["a struct X { int a; };.c"], ["z.c"]] :=
  Source.filesBelow_of_pairwise (by rfl) (by decide)

theorem sources_listedSession : asciiScanner.sources listedSession.files
    = [["a struct X { int a; };.c"], ["z.c"]] := by
  rw [sources_of_found found_listedSession]
  decide +kernel

theorem withoutFailing_listedSession : asciiScanner.withoutFailing listedSession.files
    = { nodes := [(["src"], .directory), (["src", "z.c"], .file [])] } := by
  have hplace : listedSession.files.place asciiScanner.reader.root = .ok ["src"] := rfl
  have hfailing : asciiScanner.failing listedSession.files = [["a struct X { int a; };.c"]] := by
    rw [failing, sources_listedSession]
    decide +kernel
  rw [withoutFailing, hplace, hfailing]
  rfl

theorem text_listedSession :
    (asciiScanner.readingIn listedSession ["a struct X { int a; };.c"]).text
      = .error listedFailure := by
  rfl

theorem declared_listedLine :
    (Scan.declaredIn true ⟨"z.c", listedLine.toList⟩).map (fun p => Name.text p.1)
      = [.text "X"] := by
  decide +kernel

theorem report_listedSession (kind : ProblemKind) (message : String) :
    Act.report kind message listedSession
      = .ok () { listedSession with
        problems := listedSession.problems.add ⟨kind, message⟩
        files := listedSession.files.put ["src", "z.c"]
          (.file (Charset.Utf8.bytesOf ((Problem.mk kind message).toText ++ "\n"))) } := by
  rfl

theorem report_unlistedSession (kind : ProblemKind) (message : String) :
    Act.report kind message unlistedSession
      = .error (.file ⟨.nullCharacter, "\x00"⟩) { unlistedSession with
        problems := unlistedSession.problems.add ⟨kind, message⟩ } := by
  rfl

/-- A source file whose text is scanned into a registry without names. -/
theorem names_add {t : Session} {text : List Char} {tally : Tally} {parts : List String}
    (htext : (asciiScanner.readingIn t parts).text = .ok text)
    (htally : tally.registry.names = []) :
    (tally.add true (asciiScanner.readingIn t parts)).registry.names
      = extend [] ((Scan.declaredIn true ⟨Source.relativeText parts, text⟩).map
        fun p => .text p.1) := by
  rw [Tally.add, htext]
  simp only
  rw [Scan.names_unit, htally]
  rfl

theorem isNullFree_listedSession {parts : List String}
    (h : parts ∈ asciiScanner.sources listedSession.files) :
    (asciiScanner.pathOf parts).IsNullFree :=
  isNullFree_pathOf ⟨by decide, by decide⟩ ⟨by decide, by decide⟩ h

/-- The line about the failing file is scanned as part of the last source file. -/
theorem scan_listedSession :
    ∃ tally t, asciiScanner.scan Registry.empty listedSession = .ok tally t
      ∧ tally.registry.names = [.text "X"] := by
  have hsilent : listedSession.journal.outlets = [] := rfl
  have hmem : ["a struct X { int a; };.c"] ∈ asciiScanner.sources listedSession.files
      ∧ ["z.c"] ∈ asciiScanner.sources listedSession.files := by
    rw [sources_listedSession]
    decide
  -- The first file fails, and its line goes to the second one.
  obtain ⟨records, hfirst⟩ := exists_scanFile_of_error (isNullFree_listedSession hmem.1)
    text_listedSession rfl ⟨Registry.empty, 0, 0⟩
  rw [Session.logAll_of_silent hsilent, Session.log_of_silent hsilent,
    Act.bind_ok (report_listedSession _ _)] at hfirst
  generalize hs : Session.mk _ _ _ _ = s at hfirst
  have htext : (asciiScanner.readingIn s ["z.c"]).text = .ok listedLine.toList := by
    have hread : s.files.read (asciiScanner.pathOf ["z.c"])
        = .ok (Charset.Utf8.bytesOf listedLine) := by
      rw [← hs]
      rfl
    have hdecode : Source.decode .utf8 asciiScanner.reader.fallback
        (Charset.Utf8.bytesOf listedLine) = ⟨false, .ok listedLine.toList⟩ :=
      Source.decode_encoded _ Charset.Codec.isUtf8_utf8 (by decide +kernel)
    show asciiScanner.reader.textOf (s.files.read (asciiScanner.pathOf ["z.c"])) = _
    rw [hread]
    exact congrArg Source.Decoded.result hdecode
  have hlist : s.CanList := by
    intro p hp
    rw [← hs] at hp
    cases hp
    exact Path.isNullFree_iff.2 (by decide)
  obtain ⟨t, hsecond, -⟩ := exists_scanFile isText_asciiScanner hlist
    (isNullFree_listedSession hmem.2) ⟨Registry.empty, 0, 1⟩
  have hfiles : asciiScanner.scanFiles
      ((asciiScanner.sources listedSession.files).map asciiScanner.pathOf)
      ⟨Registry.empty, 0, 0⟩ listedSession
      = .ok (Tally.add true ⟨Registry.empty, 0, 1⟩ (asciiScanner.readingIn s ["z.c"])) t := by
    rw [sources_listedSession]
    exact (Act.bind_ok hfirst _).trans (Act.bind_ok hsecond _)
  obtain ⟨u, hscan⟩ := exists_scan_ok_of_silent hsilent rfl ⟨_, found_listedSession⟩ hfiles
  refine ⟨_, _, hscan, ?_⟩
  have hdeclared : (Scan.declaredIn true ⟨Source.relativeText ["z.c"], listedLine.toList⟩).map
      (fun p => Name.text p.1) = [.text "X"] := declared_listedLine
  rw [names_add htext rfl, hdeclared]
  rfl

/-- Without the failing file, the last source file is empty. -/
theorem scan_rest_of_listedSession :
    ∃ tally t, asciiScanner.scan Registry.empty
          { listedSession with files := asciiScanner.withoutFailing listedSession.files }
        = .ok tally t
      ∧ tally.registry.names = [] := by
  rw [withoutFailing_listedSession]
  generalize hs : Session.mk _ _ _ _ = s
  have hsilent : s.journal.outlets = [] := by
    rw [← hs]
    rfl
  have hlist : s.CanList := by
    intro p hp
    rw [← hs] at hp
    cases hp
    exact Path.isNullFree_iff.2 (by decide)
  have hfound : Source.filesBelow s.files asciiScanner.reader.root = .ok [["z.c"]] :=
    Source.filesBelow_of_pairwise (by rw [← hs]; rfl) (by decide)
  have hsources : asciiScanner.sources s.files = [["z.c"]] := by
    rw [sources_of_found hfound]
    decide +kernel
  have hpath : (asciiScanner.pathOf ["z.c"]).IsNullFree := Path.isNullFree_iff.2 (by decide)
  obtain ⟨t, hfile, -⟩ := exists_scanFile isText_asciiScanner hlist hpath ⟨Registry.empty, 0, 0⟩
  have hfiles : asciiScanner.scanFiles ((asciiScanner.sources s.files).map asciiScanner.pathOf)
      ⟨Registry.empty, 0, 0⟩ s
      = .ok (Tally.add true ⟨Registry.empty, 0, 0⟩ (asciiScanner.readingIn s ["z.c"])) t := by
    rw [hsources]
    exact Act.bind_ok hfile _
  obtain ⟨u, hscan⟩ := exists_scan_ok_of_silent hsilent (by rw [← hs]; rfl) ⟨_, hfound⟩ hfiles
  have htext : (asciiScanner.readingIn s ["z.c"]).text = .ok [] := by
    rw [← hs]
    rfl
  refine ⟨_, _, hscan, ?_⟩
  rw [names_add htext rfl]
  decide +kernel

/-- A problem that cannot be listed because of a null character ends the scan. -/
theorem scan_unlistedSession :
    ∃ t, asciiScanner.scan Registry.empty unlistedSession
      = .error (.file ⟨.nullCharacter, "\x00"⟩) t := by
  have hsilent : unlistedSession.journal.outlets = [] := rfl
  have hsources : asciiScanner.sources unlistedSession.files
      = [["a struct X { int a; };.c"], ["z.c"]] := sources_listedSession
  have htext : (asciiScanner.readingIn unlistedSession ["a struct X { int a; };.c"]).text
      = .error listedFailure := text_listedSession
  obtain ⟨records, hfirst⟩ := exists_scanFile_of_error
    (isNullFree_listedSession (sources_listedSession ▸ List.mem_cons_self)) htext rfl
    ⟨Registry.empty, 0, 0⟩
  rw [Session.logAll_of_silent hsilent, Session.log_of_silent hsilent,
    Act.bind_error (report_unlistedSession _ _)] at hfirst
  generalize Session.mk _ _ _ _ = s at hfirst
  have hfiles : asciiScanner.scanFiles
      ((asciiScanner.sources unlistedSession.files).map asciiScanner.pathOf)
      ⟨Registry.empty, 0, 0⟩ unlistedSession = .error (.file ⟨.nullCharacter, "\x00"⟩) s := by
    rw [hsources]
    exact Act.bind_error hfirst _
  exact exists_scan_error_of_silent hsilent rfl ⟨_, found_listedSession⟩ hfiles

/-- **A list of problems among the sources.** If the file that lists the problems is a source file,
then the line about a failing file is scanned, and the registry is not that of the tree without the
failing file. If its path has a null character, the scan does not return. -/
theorem problem_list_disturbs_scan :
    (∃ tally t tally' t', asciiScanner.scan Registry.empty listedSession = .ok tally t
        ∧ asciiScanner.scan Registry.empty
            { listedSession with files := asciiScanner.withoutFailing listedSession.files }
          = .ok tally' t'
        ∧ tally.registry ≠ tally'.registry)
      ∧ ∃ t, asciiScanner.scan Registry.empty unlistedSession
        = .error (.file ⟨.nullCharacter, "\x00"⟩) t := by
  obtain ⟨tally, t, hscan, hnames⟩ := scan_listedSession
  obtain ⟨tally', t', hscan', hnames'⟩ := scan_rest_of_listedSession
  refine ⟨⟨tally, t, tally', t', hscan, hscan', fun hsame => ?_⟩, scan_unlistedSession⟩
  rw [hsame, hnames'] at hnames
  cases hnames

end Scanner

end StructAtlas
