import StructAtlas.Proofs.ProperTrees
import StructAtlas.Proofs.FileScans
import StructAtlas.Settings

set_option autoImplicit false

/-!
# Scans with validated settings

Settings are checked when they are made, and a character set has to be known then
(`Settings.ofFields_charsets`). This leaves out the names of no set, but not those of a set whose
decoder refuses more than bytes. With codecs that refuse nothing but bytes, and if the operating
system says whether the source root is a directory, a scan either fails at the source root or deals
with every source file (`Settings.scan_of_validated`). With another codec, the content of one file
ends the scan (`Settings.scan_stops_without_decoder`).
-/

namespace StructAtlas

/-! ## Faults of a name -/

namespace Scanner

variable {scanner : Scanner} {s : Session} {parts : List String} {bytes : List UInt8}
  {fault : Charset.Fault}

/-- A fault of the name of a character set is no failure of one file. -/
theorem scanFile_of_charset (hread : s.files.read (scanner.pathOf parts) = .ok bytes)
    (hdecode : scanner.reader.primary.decode bytes = .error fault)
    (hfault : ∀ f, fault ≠ .bytes f) (tally : Tally) :
    scanner.scanFile (scanner.pathOf parts) tally s = .error (.charset fault) s := by
  have hdecoded : Source.decode scanner.reader.primary scanner.reader.fallback bytes
      = ⟨false, .error (.charset fault)⟩ := by
    rw [Source.decode, hdecode]
    cases fault with
    | bytes f => exact absurd rfl (hfault f)
    | _ => rfl
  have hfile : Source.decodeFile scanner.reader.primary scanner.reader.fallback
      (scanner.pathOf parts) s = .error (.charset fault) s := by
    rw [Source.decodeFile, Act.bind_ok (Source.readBytes_ok hread), hdecoded]
    rfl
  exact Act.bind_ok (Act.attempt_error (Act.bind_error hfile _)) _

/-- It ends the scan, if the first source file has such bytes and no log record changes the file. -/
theorem exists_scan_of_charset {rest : List (List String)}
    (hroot : (s.log scanner.startRecord).files.isDirectory scanner.reader.root = .ok true)
    (hsearch : scanner.CanSearch (s.log scanner.startRecord).files)
    (hsources : scanner.sources (s.log scanner.startRecord).files = parts :: rest)
    (hread : ∀ records, (s.logAll records).files.read (scanner.pathOf parts) = .ok bytes)
    (hdecode : scanner.reader.primary.decode bytes = .error fault)
    (hfault : ∀ f, fault ≠ .bytes f) (registry : Registry) :
    ∃ t, scanner.scan registry s = .error (.charset fault) t := by
  have hfile : (scanner.atFiles s).files.read (scanner.pathOf parts) = .ok bytes := by
    obtain ⟨records, hrecords⟩ := scanner.exists_atFiles s
    rw [hrecords]
    exact hread records
  have hfiles : scanner.scanFiles
      ((scanner.sources (s.log scanner.startRecord).files).map scanner.pathOf) ⟨registry, 0, 0⟩
      (scanner.atFiles s) = .error (.charset fault) (scanner.atFiles s) := by
    rw [hsources]
    exact Act.bind_error (scanFile_of_charset hfile hdecode hfault _) _
  obtain ⟨r, hscan⟩ := exists_scan_of_error hroot hsearch hfiles
  exact ⟨_, hscan⟩

end Scanner

/-! ## Checked settings -/

namespace Charset

/-- The set of this name, if there is one, decodes to texts, and its decoder refuses nothing but
bytes. -/
def IsTextual (library : Library) (name : String) : Prop :=
  ∀ charset, find? name = some charset →
    charset ≠ .undefined ∧ charset ≠ .binary
      ∧ (charset.decoder? = none → ∀ bytes fault,
        library (normalize name.toList) bytes = .error fault → ∃ f, fault = .bytes f)

theorem isTextual_of_decoder {library : Library} {name : String} {charset : Charset}
    (hfind : find? name = some charset) (hdecoder : charset.decoder?.isSome = true) :
    IsTextual library name := by
  intro charset' hcharset'
  cases hfind.symm.trans hcharset'
  refine ⟨?_, ?_, fun hnone => ?_⟩
  · rintro rfl
    cases hdecoder
  · rintro rfl
    cases hdecoder
  · rw [hnone] at hdecoder
    cases hdecoder

end Charset

namespace Settings

variable {fields : List (Value × Value)} {settings : Settings} {library : Charset.Library}

/-- A checked name has no null character and is that of a set. -/
theorem checkCharset_eq_ok {field name : String} {v : Value}
    (h : checkCharset field v = .ok name) :
    '\x00' ∉ name.toList ∧ (Charset.find? name).isSome = true := by
  have hrefuse (fault : Value → ConfigFault) (w : Value) :
      (refuse fault w : Except Failure String) ≠ .ok name := by
    rw [refuse]
    split <;> exact fun e => by cases e
  rw [checkCharset.eq_def] at h
  split at h
  · split at h
    · cases h
    · rename_i hnull
      split at h
      · rename_i hfind
        cases h
        exact ⟨fun hmem => hnull (List.contains_iff_mem.2 hmem), hfind⟩
      · exact absurd h (hrefuse _ _)
  · cases h
  · exact absurd h (hrefuse _ _)

/-- The character sets of checked settings are known. -/
theorem ofFields_charsets (h : ofFields fields = .ok settings) :
    (∃ field v, checkCharset field v = .ok settings.primary)
      ∧ ∃ field v, checkCharset field v = .ok settings.fallback := by
  rw [ofFields] at h
  obtain ⟨topCount, -, h⟩ := exists_of_bind_ok h
  obtain ⟨includes, -, h⟩ := exists_of_bind_ok h
  obtain ⟨excludes, -, h⟩ := exists_of_bind_ok h
  obtain ⟨keepLines, -, h⟩ := exists_of_bind_ok h
  obtain ⟨primary, hprimary, h⟩ := exists_of_bind_ok h
  obtain ⟨fallback, hfallback, h⟩ := exists_of_bind_ok h
  obtain ⟨report, -, h⟩ := exists_of_bind_ok h
  cases h
  exact ⟨⟨_, _, hprimary⟩, ⟨_, _, hfallback⟩⟩

/-- Checked names refuse nothing but bytes if the decoders of their sets do. -/
theorem isText_of_checked {field name : String} {v : Value} (h : checkCharset field v = .ok name)
    (htextual : Charset.IsTextual library name) : (Charset.Codec.named library name).IsText := by
  obtain ⟨hnull, hfind⟩ := checkCharset_eq_ok h
  obtain ⟨charset, hcharset⟩ := Option.isSome_iff_exists.1 hfind
  obtain ⟨hundefined, hbinary, hlibrary⟩ := htextual charset hcharset
  cases hdecoder : charset.decoder? with
  | some decoder =>
    exact Charset.Codec.isText_of_decode
      (Charset.Codec.decode_named library hnull hcharset hdecoder)
  | none =>
    intro bytes fault hfault
    rw [Charset.Codec.decode] at hfault
    split at hfault
    · cases hfault
    · refine hlibrary hdecoder bytes fault ?_
      have hnamed : Charset.decoderOf library name bytes = .error fault := hfault
      rw [Charset.decoderOf, if_neg (by simpa using hnull), hcharset] at hnamed
      simpa only [hdecoder] using hnamed

/-- The scanner of settings whose source root is a text. -/
theorem scanner_of_root {root : String} (hroot : settings.sourceRoot = .str root)
    (library : Charset.Library) :
    settings.scanner library = .ok
      ⟨⟨Path.parse root, .named library settings.primary, .named library settings.fallback⟩,
        settings.includes, settings.excludes, settings.keepLines⟩ := by
  rw [scanner, reader, hroot]
  rfl

/-- **Validated settings and the content of files.** Let settings be accepted whose source root is a
text, and let the decoders of their character sets, in this library or in another one, refuse
nothing but bytes. Let the operating system say whether the source root is a directory, let problems
be kept in memory, and let no name in the tree have a null character, as no name of a file does.
Then a scan with these settings either fails because the source root is no directory or because the
operating system ends the search there, or it returns: every source file was read while the scan
went on, its text was scanned into the registry or its failure was counted and noted as one problem,
and no other problem was noted. -/
theorem scan_of_validated {root : String} (hfields : ofFields fields = .ok settings)
    (hroot : settings.sourceRoot = .str root)
    (hprimary : Charset.IsTextual library settings.primary)
    (hfallback : Charset.IsTextual library settings.fallback) {s : Session} {b : Bool}
    (hanswer : s.files.isDirectory (Path.parse root) = .ok b) (hmemory : s.problems.path = none)
    (hfree : s.files.IsNullFree) (registry : Registry) :
    ∃ scanner, settings.scanner library = .ok scanner ∧
      ((∃ t, scanner.scan registry s = .error (.sourceRoot (Path.parse root)) t)
        ∨ (∃ fault t, scanner.scan registry s = .error (.sourceListing (Path.parse root) fault) t)
        ∨ ∃ readings tally t, scanner.Covers registry s readings tally t
          ∧ tally.scanned + tally.failed
            = (scanner.sources (s.log scanner.startRecord).files).length
          ∧ tally.failed = (readings.filterMap scanner.problem?).length
          ∧ t.problems.entries
            = s.problems.entries ++ readings.filterMap scanner.problem?) := by
  obtain ⟨⟨_, _, hcheckedPrimary⟩, ⟨_, _, hcheckedFallback⟩⟩ := ofFields_charsets hfields
  refine ⟨_, scanner_of_root hroot library, ?_⟩
  generalize hscanner : Scanner.mk ⟨Path.parse root, .named library settings.primary,
    .named library settings.fallback⟩ settings.includes settings.excludes settings.keepLines
      = scanner
  have hreader : scanner.reader = ⟨Path.parse root, .named library settings.primary,
      .named library settings.fallback⟩ := by
    rw [← hscanner]
  have htext : scanner.reader.IsText := by
    rw [hreader]
    exact ⟨isText_of_checked hcheckedPrimary hprimary, isText_of_checked hcheckedFallback hfallback⟩
  have hlist : s.CanList := by
    intro p hp
    cases hmemory.symm.trans hp
  -- The question whether the root is a directory is asked behind the first record.
  have hpath : scanner.reader.root = Path.parse root := by rw [hreader]
  have hdirectory := (FileTree.within_deliver s.files s.journal scanner.startRecord).isDirectory
    hanswer
  rw [← hpath] at hdirectory ⊢
  cases b with
  | false =>
    have hdiscover := Scanner.discover_of_not_directory (s := s.log scanner.startRecord) hdirectory
    exact Or.inl (Scanner.exists_scan_of_discover hdiscover registry)
  | true =>
    cases hbelow : Source.filesBelow (s.log scanner.startRecord).files scanner.reader.root with
    | error fault =>
      have hdiscover := Scanner.discover_of_fault (s := s.log scanner.startRecord) hdirectory hbelow
      exact Or.inr (Or.inl ⟨fault, Scanner.exists_scan_of_discover hdiscover registry⟩)
    | ok below =>
      obtain ⟨readings, tally, t, hcovers⟩ :=
        Scanner.exists_covers htext hlist hfree hdirectory ⟨below, hbelow⟩ registry
      exact Or.inr (Or.inr ⟨readings, tally, t, hcovers, hcovers.scanned_add_failed,
        hcovers.failed_eq, hcovers.notes.entries⟩)

/-! ## Two trees -/

/-- The value of a field among fields whose names are texts. -/
theorem findField?_cons {α : Type} (key name : String) (v : α) (rest : List (Value × α)) :
    Value.findField? ((.str key, v) :: rest) name
      = if key = name then some v else Value.findField? rest name := by
  have hsame : (Value.str key).same (.str name) = (key == name) := by
    simp [Value.same, Value.sameAtom]
  rw [Value.findField?, List.find?_cons, hsame]
  by_cases h : key = name
  · rw [if_pos h, beq_iff_eq.2 h]
    rfl
  · rw [if_neg h, beq_false_of_ne h]
    rfl

/-- The fields of settings with a source root and one character set. -/
def fieldsWith (root field name : String) : List (Value × Value) :=
  [(.str "source_root", .str root), (.str field, .str name)]

/-- A session with a source file and a file that is no text. -/
def mixedSession : Session :=
  .start
    { nodes := [(["src"], .directory),
        (["src", "a.c"], .file (Charset.Utf8.bytesOf "struct A { int x; };")),
        (["src", "b.c"], .file [0xff])] }
    ((Journal.empty ⟨"", "", ""⟩).add 0 0 none .memory)

/-- Both files are dealt with under UTF-8 and ASCII. -/
theorem scan_of_mixed_files :
    ∃ settings scanner, ofFields (fieldsWith "src" "fallback_encoding" "ascii") = .ok settings
      ∧ settings.scanner Charset.noLibrary = .ok scanner ∧
      ((∃ t, scanner.scan Registry.empty mixedSession = .error (.sourceRoot (Path.parse "src")) t)
        ∨ (∃ fault t, scanner.scan Registry.empty mixedSession
          = .error (.sourceListing (Path.parse "src") fault) t)
        ∨ ∃ readings tally t, scanner.Covers Registry.empty mixedSession readings tally t
          ∧ tally.scanned + tally.failed
            = (scanner.sources (mixedSession.log scanner.startRecord).files).length
          ∧ tally.failed = (readings.filterMap scanner.problem?).length
          ∧ t.problems.entries
            = mixedSession.problems.entries ++ readings.filterMap scanner.problem?) := by
  obtain ⟨settings, hfields, hroot, hprimary, hfallback⟩ : ∃ settings,
      ofFields (fieldsWith "src" "fallback_encoding" "ascii") = .ok settings
        ∧ settings.sourceRoot = .str "src" ∧ settings.primary = "utf-8"
        ∧ settings.fallback = "ascii" := by
    rw [ofFields]
    simp only [fieldOf, fieldsWith, findField?_cons, String.reduceEq, ↓reduceIte]
    exact ⟨_, rfl, rfl, rfl, rfl⟩
  have hutf8 : Charset.find? "utf-8" = some .utf8 := by decide +kernel
  have hascii : Charset.find? "ascii" = some .ascii := by decide +kernel
  have hanswer : mixedSession.files.isDirectory (Path.parse "src") = .ok true := by decide
  obtain ⟨scanner, hscanner, hscan⟩ := scan_of_validated hfields hroot
    (hprimary ▸ Charset.isTextual_of_decoder hutf8 rfl)
    (hfallback ▸ Charset.isTextual_of_decoder hascii rfl) hanswer rfl ⟨by decide, by decide⟩
    Registry.empty
  exact ⟨settings, scanner, hfields, hscanner, hscan⟩

/-- The scanner of settings with a transformation between bytes in place of a character set. -/
def hexScanner : Scanner :=
  ⟨⟨Path.parse "src", .named Charset.noLibrary "hex", .named Charset.noLibrary "latin-1"⟩,
    ["*.c", "*.h"], [], true⟩

theorem files_mixedSession (records : List Record) :
    (mixedSession.logAll records).files = mixedSession.files := by
  refine Session.files_logAll (fun o ho p hp => ?_) records
  cases List.mem_singleton.1 ho
  cases hp

theorem found_mixedSession : Source.filesBelow mixedSession.files hexScanner.reader.root
    = .ok [["a.c"], ["b.c"]] :=
  Source.filesBelow_of_pairwise (by rfl) (by decide)

/-- **A set without a decoder.** A transformation between bytes is a known set, so the settings are
accepted. The first file that is not empty ends the scan. -/
theorem scan_stops_without_decoder :
    ∃ settings t, ofFields (fieldsWith "src" "primary_encoding" "hex") = .ok settings
      ∧ settings.sourceRoot = .str "src" ∧ settings.scanner Charset.noLibrary = .ok hexScanner
      ∧ hexScanner.scan Registry.empty mixedSession = .error (.charset (.notText "hex")) t := by
  obtain ⟨settings, hfields, hroot, hscanner⟩ : ∃ settings,
      ofFields (fieldsWith "src" "primary_encoding" "hex") = .ok settings
        ∧ settings.sourceRoot = .str "src"
        ∧ settings.scanner Charset.noLibrary = .ok hexScanner := by
    rw [ofFields]
    simp only [fieldOf, fieldsWith, findField?_cons, String.reduceEq, ↓reduceIte]
    exact ⟨_, rfl, rfl, rfl⟩
  have hstart : (mixedSession.log hexScanner.startRecord).files = mixedSession.files :=
    files_mixedSession [hexScanner.startRecord]
  have hsources : hexScanner.sources mixedSession.files = [["a.c"], ["b.c"]] := by
    rw [Scanner.sources_of_found found_mixedSession]
    decide +kernel
  have hread (records : List Record) :
      (mixedSession.logAll records).files.read (hexScanner.pathOf ["a.c"])
        = .ok (Charset.Utf8.bytesOf "struct A { int x; };") := by
    rw [files_mixedSession]
    rfl
  have hdecode : hexScanner.reader.primary.decode
      (Charset.Utf8.bytesOf "struct A { int x; };") = .error (.notText "hex") := by
    have hfind : Charset.find? "hex" = some .binary := by decide +kernel
    have hnull : "hex".toList.contains '\x00' = false := by decide
    show Charset.decoderOf Charset.noLibrary "hex" (Charset.Utf8.bytesOf "struct A { int x; };") = _
    rw [Charset.decoderOf, hnull, hfind]
    rfl
  obtain ⟨t, ht⟩ := Scanner.exists_scan_of_charset (by rw [hstart]; rfl)
    (by rw [hstart]; exact ⟨_, found_mixedSession⟩) (by rw [hstart]; exact hsources) hread hdecode
    (fun _ => Charset.Fault.noConfusion) Registry.empty
  exact ⟨settings, t, hfields, hroot, hscanner, ht⟩

end Settings

end StructAtlas
