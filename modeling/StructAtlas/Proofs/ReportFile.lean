import StructAtlas.Proofs.BuiltRegistry
import StructAtlas.Proofs.FileShapes
import StructAtlas.Proofs.JsonText
import StructAtlas.Proofs.NormalForms
import StructAtlas.Proofs.Utf8
import StructAtlas.Report

set_option autoImplicit false

/-!
# Reports that are read back

A report goes through three forms. The places of an entry are written as texts, the entries as a
value, and the value as the text of a file. Each form is read back: the value from its text
(`Report.parse_indented`), and the registry from the value, since what was built from valid
additions is a normal form (`IsSound.isCanonical`).

The main statement puts the forms together for the file of a report.
-/

namespace StructAtlas

open Json (Plain)

/-! ## The structured form -/

section Form

variable {bound : Nat} {e : Entry} {r : Registry}

/-- Places whose paths are made of characters are plain. -/
theorem plain_places (depth : Nat) {ls : List Location} (h : ∀ l ∈ ls, l.isPlain = true) :
    Plain (depth + 1) (.texts (ls.map Location.toText)) := by
  refine .list fun v hv => ?_
  obtain ⟨text, htext, rfl⟩ := List.mem_map.1 hv
  obtain ⟨⟨path, line⟩, hl, rfl⟩ := List.mem_map.1 htext
  cases path with
  | plain path => exact .text depth _
  | broken codes hbroken => cases h _ hl

theorem Entry.IsSound.plain_toValue (h : e.IsSound bound) (hbound : Decimal.IsReadable bound)
    (depth : Nat) : Plain (depth + 2) e.toValue := by
  obtain ⟨s, -, hs⟩ := h.name
  refine .record (by simp) fun f hf => ?_
  simp only [List.mem_cons, List.not_mem_nil, or_false] at hf
  rcases hf with rfl | rfl | rfl | rfl
  · rw [hs]
    exact .text _ s
  · exact .number _ (hbound.of_le h.total)
  · exact plain_places _ fun l hl => h.plain l (Or.inl hl)
  · exact plain_places _ fun l hl => h.plain l (Or.inr hl)

theorem Registry.IsSound.plain_toValue (h : r.IsSound bound) (hbound : Decimal.IsReadable bound)
    (depth : Nat) : Plain (depth + 4) r.toValue := by
  refine .record (by simp) fun f hf => ?_
  obtain rfl := List.mem_singleton.1 hf
  refine .list fun v hv => ?_
  obtain ⟨e, he, rfl⟩ := List.mem_map.1 hv
  exact (h.entries e he).plain_toValue hbound depth

/-- A plain value is read back from the bytes of its text. -/
theorem Report.parse_indented {v : Value} (h : Plain Json.nestingLimit v) :
    Report.parse (Charset.Utf8.bytesOf (String.ofList (Json.indented v))) = .ok v := by
  have htext : Report.decodeText (Charset.Utf8.bytesOf (String.ofList (Json.indented v)))
      = .ok (Json.indented v) := by
    rw [Report.decodeText, Charset.Utf8.bytesOf, Charset.Utf8.decode_encode, String.toList_ofList]
    show Except.ok (Source.unifyLineEnds (Json.indented v)) = _
    rw [Json.indented, Source.unifyLineEnds_of_not_mem (h.return_not_mem 0)]
  rw [Report.parse, htext]
  show (Json.parse (Json.indented v)).mapError ReportFault.json = _
  rw [Json.parse_indented h]
  rfl

theorem Registry.IsSound.parse_jsonReport (h : r.IsSound bound)
    (hbound : Decimal.IsReadable bound) :
    Report.parse (Charset.Utf8.bytesOf r.jsonReport) = .ok r.toValue :=
  Report.parse_indented (h.plain_toValue hbound 984)

end Form

/-- What was built from valid additions is a normal form. -/
theorem Registry.IsSound.isCanonical {bound : Nat} {r : Registry} (h : r.IsSound bound) :
    r.IsCanonical := by
  refine ⟨⟨h.names, ?_⟩, ?_⟩
  · intro n hn
    obtain ⟨e, he, rfl⟩ := List.mem_map.1 hn
    obtain ⟨s, -, hs⟩ := (h.entries e he).name
    rw [hs]
    rfl
  · intro e he
    have hsound := h.entries e he
    obtain ⟨s, hne, hs⟩ := hsound.name
    refine ⟨?_, hsound.definitions, hsound.usages⟩
    rw [hs]
    simpa [Name.toValue, Value.truthy] using hne

/-! ## The file -/

/-- A file can be written under a path once the directories above it are made. -/
def FileTree.CanHold (t : FileTree) (path : Path) : Prop :=
  ∃ made key, t.makeDirectories path.parent = .ok made ∧ made.target path = .ok key

namespace Report

variable {bound : Nat} {r : Registry} {path : Path} {s : Session}

/-- The session after a report was written and before that is logged. -/
theorem write_ok {made : FileTree} {key : List String} (text : String)
    (hmade : s.files.makeDirectories path.parent = .ok made) (hkey : made.target path = .ok key) :
    write path text s
      = .ok () { s with files := made.put key (.file (Charset.Utf8.bytesOf text)) } := by
  have hdirectories : Act.makeDirectories path.parent s = .ok () { s with files := made } :=
    Act.changeFiles_ok hmade
  rw [write, Act.bind_ok hdirectories]
  exact Act.changeFiles_ok (FileTree.write_of_target hkey _)

/-- A report that can be read is loaded. -/
theorem load_ok {t : Session} (hcontains : s.files.contains path = .ok true)
    (hfile : readFile path s = .ok r t) : ∃ u, load path s = .ok r u := by
  rw [load, Act.bind_ok (Act.askFiles_ok hcontains)]
  simp only [Bool.not_true, Bool.false_eq_true, ↓reduceIte]
  rw [Act.bind_ok (Act.attempt_ok hfile)]
  -- One of two records is written, and neither changes the answer.
  simp only
  split
  · exact ⟨_, Act.bind_ok (Act.log_ok _ _ _ t) _⟩
  · exact ⟨_, Act.bind_ok (Act.log_ok _ _ _ t) _⟩

/-- A report whose file holds the registry is read back. -/
theorem load_of_read (h : r.IsSound bound) (hbound : Decimal.IsReadable bound)
    (hread : s.files.read path = .ok (Charset.Utf8.bytesOf r.jsonReport)) :
    ∃ t, load path s = .ok r t := by
  have hfile : readFile path s = .ok r s := by
    rw [readFile, Act.bind_ok (Act.askFiles_ok hread), h.parse_jsonReport hbound]
    simp only [readValue, h.isCanonical.readValue_toValue]
    rfl
  exact load_ok (FileTree.contains_of_read hread) hfile

/-- Writing a report leaves its text in the file, unless the file is a log file too. -/
theorem writeJson_ok (r : Registry) (h : s.files.CanHold path) :
    ∃ t, writeJson r path s = .ok () t
      ∧ (s.journal.Spares t.files path →
          t.files.read path = .ok (Charset.Utf8.bytesOf r.jsonReport)) := by
  obtain ⟨made, key, hmade, hkey⟩ := h
  refine ⟨_, by rw [writeJson, Act.bind_ok (write_ok _ hmade hkey)]; exact Act.log_ok _ _ _ _, ?_⟩
  intro hspares
  have hkeeps := FileTree.keeps_put_file (FileTree.ne_directory_of_target hkey)
    (Charset.Utf8.bytesOf r.jsonReport)
  obtain ⟨hplace, -, hfree⟩ := FileTree.target_eq_ok.1 hkey
  have hplace := hkeeps.place hplace
  have hput := made.lookup_put (FileTree.ne_nil_of_kind rfl (FileTree.ne_directory_of_target hkey))
    (.file (Charset.Utf8.bytesOf r.jsonReport)) key
  rw [if_pos rfl] at hput
  have hlookup := Journal.Spares.lookup_deliver hspares hplace
  have hlogged := Journal.keeps_deliver s.journal
    ⟨.info, analysisPhase, "JSON 보고서 저장: " ++ path.toText⟩
    (made.put key (.file (Charset.Utf8.bytesOf r.jsonReport)))
  exact FileTree.read_eq_ok.2
    ⟨key, hlogged.place hplace, hlookup.trans hput, (hlogged.isFree (hkeeps.isFree hfree)).1⟩

/-- The report of a registry that was built from valid additions can be read back. Writing returns
if the file can be written at all; as long as the file holds what was written, reading returns the
registry, with the same entries and the same places in the same order. A stored count is a number
as well, so there are no more additions than a number of readable length counts. -/
theorem load_written_report {additions : List Addition} (h : ∀ a ∈ additions, a.IsWritable)
    (hcount : Decimal.IsReadable additions.length) (hpath : s.files.CanHold path) :
    ∃ t, writeJson (Registry.build additions) path s = .ok () t
      ∧ (s.journal.Spares t.files path → ∀ u : Session, u.files.read path = t.files.read path →
          ∃ v, load path u = .ok (Registry.build additions) v) := by
  obtain ⟨t, hwrite, hread⟩ := writeJson_ok (Registry.build additions) hpath
  refine ⟨t, hwrite, fun hspares u hsame => ?_⟩
  exact load_of_read (Registry.isSound_build h) hcount (hsame.trans (hread hspares))

/-- Additions with quotes, line feeds, control characters and colons. One place is added twice, and
one name is used only. -/
def awkwardAdditions : List Addition :=
  [.definition "A\"\n" ⟨"C:7:\\x\x01\r", 0⟩, .usage "A\"\n" ⟨"b:12", 42⟩,
   .definition "B\\u0041" ⟨":", 7⟩, .usage "C" ⟨"c", 1⟩, .definition "A\"\n" ⟨"C:7:\\x\x01\r", 0⟩]

/-- A session without files whose log records are kept in memory. -/
def memorySession : Session :=
  .start .empty ((Journal.empty ⟨"", "", ""⟩).add 0 0 none .memory)

theorem load_awkward_report :
    (∀ a ∈ awkwardAdditions, a.IsWritable)
      ∧ Decimal.IsReadable awkwardAdditions.length
      ∧ memorySession.files.CanHold ⟨"", ["out", "report.json"]⟩
      ∧ ∃ t, writeJson (Registry.build awkwardAdditions) ⟨"", ["out", "report.json"]⟩ memorySession
          = .ok () t
        ∧ ∃ v, load ⟨"", ["out", "report.json"]⟩ t
          = .ok (Registry.build awkwardAdditions) v := by
  have hadditions : ∀ a ∈ awkwardAdditions, a.IsWritable := by decide
  have hcount : Decimal.IsReadable awkwardAdditions.length := by decide
  have hpath : memorySession.files.CanHold ⟨"", ["out", "report.json"]⟩ :=
    ⟨FileTree.empty.put ["out"] .directory, ["out", "report.json"], rfl, rfl⟩
  obtain ⟨t, hwrite, hload⟩ := load_written_report hadditions hcount hpath
  refine ⟨hadditions, hcount, hpath, t, hwrite, hload ?_ t rfl⟩
  intro o ho p hp
  cases List.mem_singleton.1 ho
  cases hp

end Report

end StructAtlas
