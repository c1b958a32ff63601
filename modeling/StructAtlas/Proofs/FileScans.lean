import StructAtlas.Proofs.Planning
import StructAtlas.Proofs.ScanRun
import StructAtlas.Proofs.SourceSearch
import StructAtlas.Proofs.Utf8

set_option autoImplicit false

/-!
# Scans of files

A scan reads one source file after the other. What it makes of a file is a `Reading`: the text of
the file, or why there is none. A text is scanned into the registry and a failure is counted
(`Tally.add`) and noted (`Scanner.problem?`). Under codecs that refuse nothing but bytes
(`Charset.Codec.IsText`), every failure is one of the file alone, so the scan of a file returns
(`Scanner.exists_scanFile`), and so does the scan of all of them: the tally is the sum of the
readings, and the problems that were noted are theirs (`Scanner.exists_covers`).

During a scan only log records and problems are written. `Session.Notes` says that nothing else
leads from one session to another.
-/

namespace StructAtlas

/-! ## Codecs of texts -/

namespace Charset.Codec

/-- A codec that refuses nothing but bytes. -/
def IsText (codec : Codec) : Prop :=
  ∀ bytes fault, codec.decode bytes = .error fault → ∃ f, fault = .bytes f

theorem isText_of_decode {codec : Codec}
    {decoder : List UInt8 → Except DecodeFault (List Char)}
    (h : ∀ bytes, codec.decode bytes = (decoder bytes).mapError .bytes) : codec.IsText := by
  intro bytes fault hfault
  rw [h] at hfault
  cases hdecoded : decoder bytes with
  | ok text =>
    rw [hdecoded] at hfault
    cases hfault
  | error f =>
    rw [hdecoded] at hfault
    cases hfault
    exact ⟨f, rfl⟩

end Charset.Codec

/-! ## Records and problems -/

namespace Session

variable {s t u : Session} {problems problems' : List Problem}

/-- Log records and these problems, and nothing else, lead from one session to another. -/
def Notes (s : Session) (problems : List Problem) (t : Session) : Prop :=
  ∃ cs, s.Trace cs t ∧ (∀ c ∈ cs, c.IsNote) ∧ cs.filterMap Change.problem? = problems

theorem Notes.refl (s : Session) : s.Notes [] s :=
  ⟨[], .nil s, fun _ hc => absurd hc List.not_mem_nil, rfl⟩

theorem Notes.trans (h : s.Notes problems t) (h' : t.Notes problems' u) :
    s.Notes (problems ++ problems') u := by
  obtain ⟨cs, htrace, hcs, rfl⟩ := h
  obtain ⟨cs', htrace', hcs', rfl⟩ := h'
  exact ⟨cs ++ cs', htrace.append htrace', fun c hc => (List.mem_append.1 hc).elim (hcs c) (hcs' c),
    List.filterMap_append⟩

theorem notes_log (s : Session) (r : Record) : s.Notes [] (s.log r) := by
  refine ⟨_, (Step.logged s r).trace, fun c hc => ?_, rfl⟩
  rw [List.mem_singleton.1 hc]
  trivial

/-- A record at the end notes no problem. -/
theorem Notes.log (h : s.Notes problems t) (r : Record) : s.Notes problems (t.log r) := by
  have hlog := h.trans (notes_log t r)
  rwa [List.append_nil] at hlog

theorem notes_logAll (s : Session) (records : List Record) : s.Notes [] (s.logAll records) := by
  induction records generalizing s with
  | nil => exact Notes.refl s
  | cons r records ih => exact (notes_log s r).trans (ih (s.log r))

/-- Without outlets, records leave a session as it is. -/
theorem logAll_of_silent (h : s.journal.outlets = []) (records : List Record) :
    s.logAll records = s := by
  induction records with
  | nil => rfl
  | cons r records ih =>
    have hlog : s.log r = s := by
      obtain ⟨files, ⟨outlets, _, _, _, _, _, _⟩, problems, lines⟩ := s
      cases h
      rfl
    rw [logAll, List.foldl_cons, hlog]
    exact ih

theorem log_of_silent (h : s.journal.outlets = []) (r : Record) : s.log r = s :=
  logAll_of_silent h [r]

theorem Notes.lasting (s : Session) (problems : List Problem) : Act.Lasting (s.Notes problems) :=
  fun _ r h => h.log r

theorem Notes.entries (h : s.Notes problems t) :
    t.problems.entries = s.problems.entries ++ problems := by
  obtain ⟨cs, htrace, -, rfl⟩ := h
  exact htrace.entries

theorem Notes.problemsPath (h : s.Notes problems t) : t.problems.path = s.problems.path := by
  obtain ⟨cs, htrace, -, -⟩ := h
  exact htrace.problemsPath

/-- The file that lists the problems, if there is one, has no null character in its path. -/
def CanList (s : Session) : Prop :=
  ∀ p, s.problems.path = some p → p.IsNullFree

theorem Notes.canList (h : s.Notes problems t) (hs : s.CanList) : t.CanList := by
  intro p hp
  exact hs p (h.problemsPath.symm.trans hp)

end Session

theorem Act.forM_log {α : Type} (severity : Severity) (phase : String) (message : α → String)
    (items : List α) (s : Session) :
    items.forM (fun x => Act.log severity phase (message x)) s
      = .ok () (s.logAll (items.map fun x => ⟨severity, phase, message x⟩)) := by
  induction items generalizing s with
  | nil => rfl
  | cons x items ih => exact (Act.bind_ok (Act.log_ok _ _ _ s) _).trans (ih _)

theorem Act.exists_notes_report {s : Session} (hs : s.CanList) (kind : ProblemKind)
    (message : String) :
    ∃ t, Act.report kind message s = .ok () t ∧ s.Notes [⟨kind, message⟩] t := by
  obtain ⟨t, ht⟩ := Act.exists_report hs kind message
  obtain ⟨cs, htrace, hproblems, hcs⟩ := Act.trace_of_report ht
  exact ⟨t, ht, cs, htrace, hcs, hproblems⟩

/-! ## Readings -/

/-- What a scan makes of a source file. -/
structure Reading where
  parts : List String
  text : Except Failure (List Char)

namespace SourceReader

variable {reader : SourceReader} {parts : List String}

/-- The text of a source file, or why there is none, by what its path leads to. -/
def textOf (reader : SourceReader) : Except FileFault (List UInt8) → Except Failure (List Char)
  | .ok bytes => (Source.decode reader.primary reader.fallback bytes).result
  | .error fault => .error (.sourceRead fault)

/-- Both codecs refuse nothing but bytes. -/
structure IsText (reader : SourceReader) : Prop where
  primary : reader.primary.IsText
  fallback : reader.fallback.IsText

/-- A file is read, its bytes are refused by both codecs, or it cannot be read. -/
theorem IsText.textOf_cases (h : reader.IsText) (found : Except FileFault (List UInt8)) :
    (∃ text, reader.textOf found = .ok text)
      ∨ (∃ bytes fault fault', found = .ok bytes
        ∧ reader.primary.decode bytes = .error (.bytes fault)
        ∧ reader.fallback.decode bytes = .error (.bytes fault')
        ∧ reader.textOf found
          = .error (.sourceDecode reader.primary.name reader.fallback.name fault'))
      ∨ ∃ fault, found = .error fault ∧ reader.textOf found = .error (.sourceRead fault) := by
  cases found with
  | error fault => exact Or.inr (Or.inr ⟨fault, rfl, rfl⟩)
  | ok bytes =>
    rw [textOf, Source.decode]
    cases hprimary : reader.primary.decode bytes with
    | ok text => exact Or.inl ⟨_, rfl⟩
    | error fault =>
      obtain ⟨fault, rfl⟩ := h.primary bytes fault hprimary
      cases hfallback : reader.fallback.decode bytes with
      | ok text => exact Or.inl ⟨_, rfl⟩
      | error fault' =>
        obtain ⟨fault', rfl⟩ := h.fallback bytes fault' hfallback
        exact Or.inr (Or.inl ⟨bytes, fault, fault', rfl, hprimary, hfallback, rfl⟩)

theorem IsText.isLocal (h : reader.IsText) {found : Except FileFault (List UInt8)} {e : Failure}
    (he : reader.textOf found = .error e) : e.isLocal = true := by
  rcases h.textOf_cases found with ⟨text, htext⟩ | ⟨_, _, _, -, -, -, htext⟩ | ⟨_, -, htext⟩
  · cases htext.symm.trans he
  · cases htext.symm.trans he
    rfl
  · cases htext.symm.trans he
    rfl

/-- Reading a source file gives its text or fails, and writes log records only. -/
theorem exists_read (reader : SourceReader) (s : Session)
    (hpath : (reader.root.join ⟨"", parts⟩).IsNullFree) :
    ∃ records, (reader.read (reader.root.join ⟨"", parts⟩)).attempt s
      = .ok ((reader.textOf (s.files.read (reader.root.join ⟨"", parts⟩))).map
        (SourceUnit.mk (Source.relativeText parts))) (s.logAll records) := by
  have hrelative := Path.relativeTo?_join reader.root parts
  generalize reader.root.join ⟨"", parts⟩ = path at hpath hrelative
  cases hfound : s.files.read path with
  | error fault =>
    have hkind := FileTree.read_kind hpath hfound
    have hbytes := Source.readBytes_of_error hfound
    rw [if_neg (by simpa using hkind)] at hbytes
    exact ⟨[], Act.attempt_error (Act.bind_error (Act.bind_error hbytes _) _)⟩
  | ok bytes =>
    obtain ⟨records, hrecords⟩ := exists_decodeFile reader.primary reader.fallback path bytes
    have hdecoded := hrecords s hfound
    refine ⟨records, ?_⟩
    rw [textOf]
    cases hresult : (Source.decode reader.primary reader.fallback bytes).result with
    | error e =>
      rw [hresult] at hdecoded
      exact Act.attempt_error (Act.bind_error hdecoded _)
    | ok text =>
      rw [hresult] at hdecoded
      refine Act.attempt_ok ((Act.bind_ok hdecoded _).trans ?_)
      simp only [hrelative]
      rfl

end SourceReader

/-- The state of a scan after one more file. -/
def Tally.add (keepLines : Bool) (t : Tally) (r : Reading) : Tally :=
  match r.text with
  | .ok text =>
    let unit := SourceUnit.mk (Source.relativeText r.parts) text
    { t with
      registry := (Scan.unit Rule.defaults keepLines unit t.registry).registry
      scanned := t.scanned + 1 }
  | .error _ => { t with failed := t.failed + 1 }

namespace Scanner

variable {scanner : Scanner} {s : Session} {parts : List String}

/-- The path of a source file. -/
def pathOf (scanner : Scanner) (parts : List String) : Path :=
  scanner.reader.root.join ⟨"", parts⟩

/-- The problem that a file cannot be scanned. -/
def problemOf (scanner : Scanner) (parts : List String) (e : Failure) : Problem where
  kind := (skipWords e).2.2
  message :=
    (skipWords e).2.1 ++ " processing " ++ (scanner.pathOf parts).toText ++ ": " ++ e.message

/-- The problem of a reading, if there is one. -/
def problem? (scanner : Scanner) (r : Reading) : Option Problem :=
  match r.text with
  | .ok _ => none
  | .error e => some (scanner.problemOf r.parts e)

/-- The reading of a file in a session. -/
def readingIn (scanner : Scanner) (s : Session) (parts : List String) : Reading where
  parts := parts
  text := scanner.reader.textOf (s.files.read (scanner.pathOf parts))

/-- Reading a source file gives its reading. -/
theorem exists_attempt_read (hpath : (scanner.pathOf parts).IsNullFree) :
    ∃ records, (scanner.reader.read (scanner.pathOf parts)).attempt s
      = .ok ((scanner.readingIn s parts).text.map (SourceUnit.mk (Source.relativeText parts)))
        (s.logAll records) := by
  rw [pathOf] at hpath
  rw [readingIn, pathOf]
  exact scanner.reader.exists_read s hpath

/-! ## One file and all files -/

/-- The record about a file that is passed over. -/
def skipRecord (scanner : Scanner) (parts : List String) (e : Failure) : Record :=
  ⟨.warning, analysisPhase,
    "File: " ++ (scanner.pathOf parts).toText ++ "\n" ++ (skipWords e).1 ++ ": " ++ e.message
      ++ "\n---"⟩

/-- A file that fails is logged, noted and counted. -/
theorem exists_scanFile_of_error (hpath : (scanner.pathOf parts).IsNullFree) {e : Failure}
    (he : (scanner.readingIn s parts).text = .error e) (hlocal : e.isLocal = true) (tally : Tally) :
    ∃ records, scanner.scanFile (scanner.pathOf parts) tally s
      = (do
          Act.report (scanner.problemOf parts e).kind (scanner.problemOf parts e).message
          return { tally with failed := tally.failed + 1 } : Act Tally)
        ((s.logAll records).log (scanner.skipRecord parts e)) := by
  obtain ⟨records, hread⟩ := exists_attempt_read (s := s) hpath
  rw [he] at hread
  refine ⟨records, (Act.bind_ok hread _).trans ?_⟩
  simp only [hlocal, Except.map, ↓reduceIte]
  exact Act.bind_ok (Act.log_ok _ _ _ _) _

/-- The scan of one file returns. It scans the text of the file, or it notes one problem. -/
theorem exists_scanFile (htext : scanner.reader.IsText) (hs : s.CanList)
    (hpath : (scanner.pathOf parts).IsNullFree) (tally : Tally) :
    ∃ t, scanner.scanFile (scanner.pathOf parts) tally s
        = .ok (tally.add scanner.keepLines (scanner.readingIn s parts)) t
      ∧ s.Notes (scanner.problem? (scanner.readingIn s parts)).toList t := by
  rw [problem?, Tally.add]
  cases hfound : (scanner.readingIn s parts).text with
  | ok text =>
    obtain ⟨records, hread⟩ := exists_attempt_read (s := s) hpath
    rw [hfound] at hread
    -- The log of the scan notes no problems.
    obtain ⟨u, hlog, hnotes⟩ :=
      Scan.returns_logScanned (Session.Notes.lasting s []) scanner.keepLines
        ⟨Source.relativeText parts, text⟩ tally.registry _ (Session.notes_logAll s records)
    exact ⟨u, (Act.bind_ok hread _).trans (Act.bind_ok hlog _), hnotes⟩
  | error e =>
    obtain ⟨records, hscan⟩ := exists_scanFile_of_error hpath hfound (htext.isLocal hfound) tally
    have hlogged := (Session.notes_logAll s records).log (scanner.skipRecord parts e)
    obtain ⟨u, hreport, hnotes⟩ := Act.exists_notes_report (hlogged.canList hs)
      (scanner.problemOf parts e).kind (scanner.problemOf parts e).message
    exact ⟨u, hscan.trans (Act.bind_ok hreport _), hlogged.trans hnotes⟩

/-- The scan of files returns, whatever the files hold. Each one is read in a session to which
records and problems alone lead. -/
theorem exists_scanFiles (htext : scanner.reader.IsText) (hs : s.CanList)
    {sources : List (List String)} (hpaths : ∀ parts ∈ sources, (scanner.pathOf parts).IsNullFree)
    (tally : Tally) :
    ∃ (readings : List Reading) (t : Session),
      scanner.scanFiles (sources.map scanner.pathOf) tally s
        = .ok (readings.foldl (Tally.add scanner.keepLines) tally) t
      ∧ readings.map Reading.parts = sources
      ∧ s.Notes (readings.filterMap scanner.problem?) t
      ∧ ∀ r ∈ readings, ∃ problems u, s.Notes problems u ∧ r = scanner.readingIn u r.parts := by
  induction sources generalizing s tally with
  | nil => exact ⟨[], s, rfl, rfl, .refl s, fun r hr => absurd hr List.not_mem_nil⟩
  | cons parts sources ih =>
    obtain ⟨t, hscan, hnotes⟩ := exists_scanFile htext hs (hpaths parts List.mem_cons_self) tally
    obtain ⟨readings, u, hrest, hparts, hnotes', hall⟩ :=
      ih (hnotes.canList hs) (fun parts hmem => hpaths parts (List.mem_cons_of_mem _ hmem)) _
    refine ⟨scanner.readingIn s parts :: readings, u, (Act.bind_ok hscan _).trans hrest, ?_, ?_, ?_⟩
    · rw [List.map_cons, hparts]
      rfl
    · have hboth := hnotes.trans hnotes'
      cases hproblem : scanner.problem? (scanner.readingIn s parts) with
      | none => rwa [List.filterMap_cons_none hproblem, ← List.nil_append (readings.filterMap _),
          ← Option.toList_none, ← hproblem]
      | some p => rwa [List.filterMap_cons_some hproblem, ← List.singleton_append,
          ← Option.toList_some, ← hproblem]
    · intro r hr
      rcases List.mem_cons.1 hr with rfl | hr
      · exact ⟨[], s, .refl s, rfl⟩
      -- A later file is read behind the problems of the first one.
      · obtain ⟨problems, v, hv, hreading⟩ := hall r hr
        exact ⟨_, v, hnotes.trans hv, hreading⟩

/-! ## A whole scan -/

/-- The source files below the root, as component lists behind it, in the order of the scan. -/
def sources (scanner : Scanner) (files : FileTree) : List (List String) :=
  match Source.filesBelow files scanner.reader.root with
  | .ok below => Source.select scanner.includes scanner.excludes below
  | .error _ => []

/-- The operating system ends no search for source files. -/
def CanSearch (scanner : Scanner) (files : FileTree) : Prop :=
  ∃ below, Source.filesBelow files scanner.reader.root = .ok below

/-- The record at the start of a scan. -/
def startRecord (scanner : Scanner) : Record :=
  ⟨.info, analysisPhase,
    "[시작] " ++ "구조체 분석" ++ Act.contextText [("root", scanner.reader.root.toText)]⟩

theorem sources_of_found {files : FileTree} {below : List (List String)}
    (h : Source.filesBelow files scanner.reader.root = .ok below) :
    scanner.sources files = Source.select scanner.includes scanner.excludes below := by
  rw [sources, h]

/-- In a tree without null characters, sources have paths without them. -/
theorem isNullFree_pathOf {files : FileTree} (hfree : files.IsNullFree)
    (hroot : scanner.reader.root.IsNullFree) (h : parts ∈ scanner.sources files) :
    (scanner.pathOf parts).IsNullFree := by
  refine hroot.join fun part hpart => ?_
  rw [sources] at h
  split at h
  · rename_i below hbelow
    rw [Source.filesBelow] at hbelow
    cases hfound : Source.filesFrom files scanner.reader.root (files.depth + 1) [] with
    | error fault =>
      rw [hfound] at hbelow
      cases hbelow
    | ok found =>
      rw [hfound] at hbelow
      cases hbelow
      have hmem := List.mem_mergeSort.1 (List.mem_filter.1 h).1
      rcases Source.exists_node_of_mem_filesFrom hfound hmem hpart with hnil | ⟨n, hn, hpart⟩
      · cases hnil
      · exact hfree.nodes n hn part hpart
  · cases h

/-- The records about the files that an exclude pattern leaves out. -/
def excludedRecords (scanner : Scanner) (files : FileTree) : List Record :=
  match Source.filesBelow files scanner.reader.root with
  | .ok below =>
    (Source.excluded scanner.includes scanner.excludes below).map fun p =>
      ⟨.debug, appPhase, "제외됨: " ++ Source.relativeText p⟩
  | .error _ => []

/-- Below a directory the sources are found, and files that were left out are logged. -/
theorem discover_of_found (h : s.files.isDirectory scanner.reader.root = .ok true)
    (hsearch : scanner.CanSearch s.files) :
    Source.discover scanner.reader.root scanner.includes scanner.excludes s
      = .ok ((scanner.sources s.files).map scanner.pathOf)
        (s.logAll (scanner.excludedRecords s.files)) := by
  obtain ⟨below, hbelow⟩ := hsearch
  rw [Source.discover, Act.bind_ok (Act.askFiles_ok h)]
  simp only [Bool.not_true, Bool.false_eq_true, ↓reduceIte]
  rw [Act.bind_ok (Act.get_ok s), sources, excludedRecords]
  simp only [hbelow]
  exact Act.bind_ok (Act.forM_log _ _ _ _ s) _

/-- A search that the operating system ends is a failure of the source root. -/
theorem discover_of_fault (h : s.files.isDirectory scanner.reader.root = .ok true)
    {fault : FileFault} (hfault : Source.filesBelow s.files scanner.reader.root = .error fault) :
    Source.discover scanner.reader.root scanner.includes scanner.excludes s
      = .error (.sourceListing scanner.reader.root fault) s := by
  rw [Source.discover, Act.bind_ok (Act.askFiles_ok h)]
  simp only [Bool.not_true, Bool.false_eq_true, ↓reduceIte]
  rw [Act.bind_ok (Act.get_ok s), hfault]
  rfl

theorem discover_of_not_directory (h : s.files.isDirectory scanner.reader.root = .ok false) :
    Source.discover scanner.reader.root scanner.includes scanner.excludes s
      = .error (.sourceRoot scanner.reader.root) s := by
  rw [Source.discover, Act.bind_ok (Act.askFiles_ok h)]
  rfl

/-- A failure of the search for source files is one of the scan. -/
theorem exists_scan_of_discover {e : Failure} {t : Session}
    (h : Source.discover scanner.reader.root scanner.includes scanner.excludes
      (s.log scanner.startRecord) = .error e t) (registry : Registry) :
    ∃ t, scanner.scan registry s = .error e t := by
  obtain ⟨r, hr⟩ := Act.stage_error (Act.bind_error h _)
  exact ⟨_, hr⟩

/-- The record that counts the source files. -/
def countRecord (scanner : Scanner) (files : FileTree) : Record :=
  ⟨.info, analysisPhase,
    "분석 대상 파일 " ++ toString ((scanner.sources files).map scanner.pathOf).length ++ "개"⟩

/-- The session in which a scan comes to the files: it began, files were left out, and the others
were counted. -/
def atFiles (scanner : Scanner) (s : Session) : Session :=
  let start := s.log scanner.startRecord
  (start.logAll (scanner.excludedRecords start.files)).log (scanner.countRecord start.files)

theorem exists_atFiles (scanner : Scanner) (s : Session) :
    ∃ records, scanner.atFiles s = s.logAll records :=
  ⟨scanner.startRecord :: (scanner.excludedRecords (s.log scanner.startRecord).files
    ++ [scanner.countRecord (s.log scanner.startRecord).files]), by simp [atFiles, Session.logAll]⟩

theorem notes_atFiles (scanner : Scanner) (s : Session) : s.Notes [] (scanner.atFiles s) := by
  obtain ⟨records, hrecords⟩ := scanner.exists_atFiles s
  rw [hrecords]
  exact Session.notes_logAll s records

section Stage

variable {registry : Registry} {t : Session}
  (hroot : (s.log scanner.startRecord).files.isDirectory scanner.reader.root = .ok true)
  (hsearch : scanner.CanSearch (s.log scanner.startRecord).files)

include hroot hsearch

/-- A scan returns what the scan of its files returns. -/
theorem exists_scan_of_ok {tally : Tally}
    (h : scanner.scanFiles
      ((scanner.sources (s.log scanner.startRecord).files).map scanner.pathOf) ⟨registry, 0, 0⟩
      (scanner.atFiles s) = .ok tally t) :
    ∃ r' r, scanner.scan registry s = .ok tally ((t.log r').log r) := by
  apply Exists.intro
  apply Act.stage_ok
  refine (Act.bind_ok (discover_of_found hroot hsearch) _).trans ?_
  refine (Act.bind_ok (Act.log_ok _ _ _ _) _).trans ?_
  refine (Act.bind_ok h _).trans ?_
  exact Act.bind_ok (Act.log_ok _ _ _ t) _

theorem exists_scan_of_error {e : Failure}
    (h : scanner.scanFiles
      ((scanner.sources (s.log scanner.startRecord).files).map scanner.pathOf) ⟨registry, 0, 0⟩
      (scanner.atFiles s) = .error e t) :
    ∃ r, scanner.scan registry s = .error e (t.log r) := by
  apply Act.stage_error
  refine (Act.bind_ok (discover_of_found hroot hsearch) _).trans ?_
  refine (Act.bind_ok (Act.log_ok _ _ _ _) _).trans ?_
  exact Act.bind_error h _

end Stage

section Silent

variable {registry : Registry} {t : Session} (hsilent : s.journal.outlets = [])
  (hroot : s.files.isDirectory scanner.reader.root = .ok true)
  (hsearch : scanner.CanSearch s.files)

include hsilent

theorem atFiles_of_silent : scanner.atFiles s = s := by
  obtain ⟨records, hrecords⟩ := scanner.exists_atFiles s
  rw [hrecords, Session.logAll_of_silent hsilent]

include hroot hsearch

/-- Without log records, a scan comes to its files in the session in which it begins. -/
theorem exists_scan_ok_of_silent {tally : Tally}
    (h : scanner.scanFiles ((scanner.sources s.files).map scanner.pathOf) ⟨registry, 0, 0⟩ s
      = .ok tally t) :
    ∃ u, scanner.scan registry s = .ok tally u := by
  have hstart := Session.log_of_silent hsilent scanner.startRecord
  rw [← hstart] at hroot hsearch
  obtain ⟨r', r, hscan⟩ := exists_scan_of_ok hroot hsearch
    (by rwa [hstart, atFiles_of_silent hsilent])
  exact ⟨_, hscan⟩

theorem exists_scan_error_of_silent {e : Failure}
    (h : scanner.scanFiles ((scanner.sources s.files).map scanner.pathOf) ⟨registry, 0, 0⟩ s
      = .error e t) :
    ∃ u, scanner.scan registry s = .error e u := by
  have hstart := Session.log_of_silent hsilent scanner.startRecord
  rw [← hstart] at hroot hsearch
  obtain ⟨r, hscan⟩ := exists_scan_of_error hroot hsearch
    (by rwa [hstart, atFiles_of_silent hsilent])
  exact ⟨_, hscan⟩

end Silent

/-- A scan returned and has dealt with every source file. -/
structure Covers (scanner : Scanner) (registry : Registry) (s : Session) (readings : List Reading)
    (tally : Tally) (t : Session) : Prop where
  returned : scanner.scan registry s = .ok tally t
  sources : readings.map Reading.parts = scanner.sources (s.log scanner.startRecord).files
  read : ∀ r ∈ readings, ∃ problems u, s.Notes problems u ∧ r = scanner.readingIn u r.parts
  tally : tally = readings.foldl (Tally.add scanner.keepLines) ⟨registry, 0, 0⟩
  notes : s.Notes (readings.filterMap scanner.problem?) t

/-- Where the source files are found, the scan returns, whatever they hold. -/
theorem exists_covers (htext : scanner.reader.IsText) (hs : s.CanList) (hfree : s.files.IsNullFree)
    (hroot : (s.log scanner.startRecord).files.isDirectory scanner.reader.root = .ok true)
    (hsearch : scanner.CanSearch (s.log scanner.startRecord).files) (registry : Registry) :
    ∃ readings tally t, scanner.Covers registry s readings tally t := by
  have hnotes := scanner.notes_atFiles s
  obtain ⟨base, hplace, -⟩ := FileTree.exists_place_of_isDirectory hroot
  have hpaths : ∀ parts ∈ scanner.sources (s.log scanner.startRecord).files,
      (scanner.pathOf parts).IsNullFree := fun parts hparts =>
    isNullFree_pathOf (hfree.deliver _ _) (FileTree.isNullFree_of_place hplace) hparts
  obtain ⟨readings, u, hfiles, hparts, hnotes', hall⟩ :=
    exists_scanFiles htext (hnotes.canList hs) hpaths ⟨registry, 0, 0⟩
  obtain ⟨r', r, hscan⟩ := exists_scan_of_ok hroot hsearch hfiles
  refine ⟨readings, _, _, hscan, hparts, ?_, rfl, ((hnotes.trans hnotes').log r').log r⟩
  intro reading hreading
  obtain ⟨problems, v, hv, hsame⟩ := hall reading hreading
  exact ⟨_, v, hnotes.trans hv, hsame⟩

end Scanner

/-! ## Sums of readings -/

section Sums

variable {keepLines : Bool} {start : Tally}

/-- Every file is scanned or counted as failed. -/
theorem Tally.scanned_add_failed (readings : List Reading) :
    (readings.foldl (Tally.add keepLines) start).scanned
        + (readings.foldl (Tally.add keepLines) start).failed
      = start.scanned + start.failed + readings.length := by
  induction readings generalizing start with
  | nil => rfl
  | cons r readings ih =>
    rw [List.foldl_cons, ih, List.length_cons, Tally.add]
    split
    · show start.scanned + 1 + start.failed + _ = _
      omega
    · show start.scanned + (start.failed + 1) + _ = _
      omega

/-- The files that are counted as failed are those that a problem is noted for. -/
theorem Tally.failed_eq (scanner : Scanner) (readings : List Reading) :
    (readings.foldl (Tally.add keepLines) start).failed
      = start.failed + (readings.filterMap scanner.problem?).length := by
  induction readings generalizing start with
  | nil => rfl
  | cons r readings ih =>
    rw [List.foldl_cons, ih, Tally.add]
    cases htext : r.text with
    | ok text =>
      have hnone : scanner.problem? r = none := by rw [Scanner.problem?, htext]
      rw [List.filterMap_cons_none hnone]
    | error e =>
      have hsome : scanner.problem? r = some (scanner.problemOf r.parts e) := by
        rw [Scanner.problem?, htext]
      rw [List.filterMap_cons_some hsome, List.length_cons]
      show start.failed + 1 + _ = _
      omega

end Sums

namespace Scanner.Covers

variable {scanner : Scanner} {registry : Registry} {s t : Session} {readings : List Reading}
  {tally : Tally}

theorem scanned_add_failed (h : scanner.Covers registry s readings tally t) :
    tally.scanned + tally.failed
      = (scanner.sources (s.log scanner.startRecord).files).length := by
  rw [h.tally, Tally.scanned_add_failed, ← h.sources, List.length_map]
  exact Nat.zero_add _

theorem failed_eq (h : scanner.Covers registry s readings tally t) :
    tally.failed = (readings.filterMap scanner.problem?).length := by
  rw [h.tally, Tally.failed_eq scanner]
  exact Nat.zero_add _

end Scanner.Covers

end StructAtlas
