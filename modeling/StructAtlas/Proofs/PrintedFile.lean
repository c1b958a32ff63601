import StructAtlas.Proofs.SingleFile

set_option autoImplicit false

/-!
# From printed structs to Java classes

Structs are printed into a source file, the file is scanned, and Java classes are generated from the
result of the scan. The outcome is the printed structs again: one Java file with a class for each
struct, in their order, whose fields are the printed fields. The number of selected structs does not
matter, as long as it can be shown in the log.
-/

namespace StructAtlas

open Text StructSpec Act

namespace Generator

variable {g : Generator} {path : String} {indent : List Char} {structs : List StructSpec}
  {s : Session}

/-- What a generation from one source file needs: the file can be read and has not been read yet,
and what is generated can be written. -/
structure Ready (g : Generator) (path : String) (text : List Char) (s : Session) : Prop where
  holds : g.reader.Holds s path text
  unread : s.lines = []
  accepts : s.files.Accepts g.output (javaNames path)
  mentions : CanMention g.packages

theorem Ready.searching {text : List Char} (h : g.Ready path text s) :
    Searching g path text s.problems s := by
  refine ⟨h.holds, ?_, h.accepts, rfl⟩
  intro known hknown
  rw [h.unread] at hknown
  cases hknown

/-! ## Printed structs in the registry -/

/-- The result of scanning printed structs. -/
def printedScan (path : String) (indent : List Char) (structs : List StructSpec) : Scanned :=
  Scan.unit Rule.defaults true ⟨path, printAll indent structs⟩ Registry.empty

section Printed

variable (hindent : FieldSpec.IsIndent indent) (hnodup : (structs.map (·.name)).Nodup)

include hindent hnodup

theorem exists_entry {x : StructSpec × Location} (hx : x ∈ located indent path 1 structs) :
    ∃ e ∈ (printedScan path indent structs).registry.entries,
      e.name = .text x.1.nameText ∧ e.definitions = [x.2] := by
  have hview : (Name.text x.1.nameText, [x.2])
      ∈ (printedScan path indent structs).registry.entries.map
          fun e => (e.name, e.definitions) := by
    rw [printedScan, views_printAll hindent path hnodup]
    exact List.mem_map.2 ⟨x, hx, rfl⟩
  obtain ⟨e, he, hsame⟩ := List.mem_map.1 hview
  exact ⟨e, he, (Prod.mk.inj hsame).1, (Prod.mk.inj hsame).2⟩

theorem exists_located {e : Entry}
    (he : e ∈ (printedScan path indent structs).registry.entries) :
    ∃ x ∈ located indent path 1 structs, e.name = .text x.1.nameText ∧ e.definitions = [x.2] := by
  have hview : (e.name, e.definitions)
      ∈ (located indent path 1 structs).map fun x => (Name.text x.1.nameText, [x.2]) := by
    rw [← views_printAll hindent path hnodup]
    exact List.mem_map.2 ⟨e, he, rfl⟩
  obtain ⟨x, hx, hsame⟩ := List.mem_map.1 hview
  exact ⟨x, hx, (Prod.mk.inj hsame).1.symm, (Prod.mk.inj hsame).2.symm⟩

theorem names_printedScan :
    (printedScan path indent structs).registry.names
      = structs.map fun x => Name.text x.nameText := by
  calc (printedScan path indent structs).registry.names
      = ((printedScan path indent structs).registry.entries.map
          fun e => (e.name, e.definitions)).map (·.1) := by
        rw [List.map_map]
        rfl
    _ = ((located indent path 1 structs).map (·.1)).map fun x => Name.text x.nameText := by
        rw [printedScan, views_printAll hindent path hnodup, List.map_map, List.map_map]
        rfl
    _ = structs.map fun x => Name.text x.nameText := by
        rw [map_fst_located]

theorem textNames_printedScan :
    (printedScan path indent structs).registry.textNames = structs.map nameText := by
  rw [Registry.textNames, names_printedScan hindent hnodup, List.filterMap_map]
  exact congrFun (List.filterMap_eq_map' (f := nameText)) structs

omit hnodup in
/-- Every printed struct is defined once, by its printed body. -/
theorem sited_of_located {e : Entry} {x : StructSpec × Location}
    (hx : x ∈ located indent path 1 structs) (hname : e.name = .text x.1.nameText)
    (hdefinitions : e.definitions = [x.2]) : Sited path (printAll indent structs) (e, x.2) := by
  obtain ⟨endLine, hfind⟩ := find_printAll hindent path structs x hx
  refine ⟨⟨_, hname⟩, hdefinitions, path_located indent path structs x hx,
    begins_printAll indent path structs x hx, _, hfind, ?_⟩
  rw [FieldSpec.ofBody_inner hindent]
  exact fun e => x.1.fields_ne (List.map_eq_nil_iff.1 e)

/-- All entries can be planned. -/
theorem exists_planned (hne : structs ≠ []) :
    ∃ planned : List Planned, planned ≠ []
      ∧ (∀ p ∈ planned, Sited path (printAll indent structs) p)
      ∧ (printedScan path indent structs).registry.entries = planned.map (·.1) := by
  generalize hentries : (printedScan path indent structs).registry.entries = entries
  refine ⟨entries.map fun e => (e, e.definitions.headD default), ?_, ?_, ?_⟩
  · intro hnil
    have hnames : (printedScan path indent structs).registry.names
        = structs.map fun x => Name.text x.nameText := names_printedScan hindent hnodup
    rw [Registry.names, hentries, List.map_eq_nil_iff.1 hnil] at hnames
    exact hne (List.map_eq_nil_iff.1 hnames.symm)
  · intro p hp
    obtain ⟨e, he, rfl⟩ := List.mem_map.1 hp
    obtain ⟨x, hx, hname, hdefinitions⟩ := exists_located hindent hnodup (hentries ▸ he)
    rw [hdefinitions]
    exact sited_of_located hindent hx hname hdefinitions
  · rw [List.map_map]
    exact (List.map_id _).symm

omit hnodup in
theorem cleanText_printAll :
    Scan.cleanText true ⟨path, printAll indent structs⟩ = printAll indent structs :=
  Comment.strip_of_not_mem fun hm => not_mem_printAll hindent structs _ hm (by decide)

/-- The class of a printed struct has the printed fields. -/
theorem outcome_buildClass (hregistry : g.registry = (printedScan path indent structs).registry)
    {x : StructSpec × Location} (hx : x ∈ located indent path 1 structs) {e : Entry}
    (hname : e.name = .text x.1.nameText)
    (hsees : g.reader.Sees s path ⟨path, printAll indent structs⟩) :
    (g.buildClass e x.2).outcome s
      = .ok (some ⟨.text x.1.nameText, x.1.fields.map fun f =>
          ⟨f.field, JavaType.ofField (structs.map nameText) f.field⟩⟩) := by
  obtain ⟨endLine, hfind⟩ := find_printAll hindent path structs x hx
  have hfields := FieldSpec.ofBody_inner hindent x.1.fields
  have hfields_ne : Field.ofBody (FieldSpec.inner indent x.1.fields) ≠ [] := by
    rw [hfields]
    exact fun h => x.1.fields_ne (List.map_eq_nil_iff.1 h)
  have hbody : Returns (· = s) (g.reader.bodyAt x.2)
      ⟨FieldSpec.inner indent x.1.fields, endLine⟩ fun _ => True := by
    rintro _ rfl
    have houtcome := hsees.bodyAt x.2.line
    rw [cleanText_printAll hindent, hfind, ← path_located indent path structs x hx] at houtcome
    obtain ⟨t, ht⟩ := outcome_eq_ok.1 houtcome
    exact ⟨t, ht, trivial⟩
  obtain ⟨t, ht, -⟩ := returns_buildClass_of_body hbody (fun _ _ _ => trivial) hfields_ne e s rfl
  refine outcome_eq_ok.2 ⟨t, ht.trans ?_⟩
  rw [hfields, JavaClass.ofFields, hname, hregistry, textNames_printedScan hindent hnodup,
    List.map_map]
  rfl

end Printed

/-- **Printed structs come back as classes.** Let structs with different names be printed into a
source file, let the file be scanned into an empty registry, and let at least one struct be
selected, by a number that can be shown. Then the generation returns and notes no problem; it writes
one Java file with the classes of all structs in their order and leaves none out. The class built
for a struct, while the lines of the file are seen, has the fields that were printed. -/
theorem generate_of_printed (hindent : FieldSpec.IsIndent indent) (hne : structs ≠ [])
    (hnodup : (structs.map (·.name)).Nodup)
    (hregistry : g.registry = (printedScan path indent structs).registry)
    (hcount : 1 ≤ g.topCount) (hshown : (Value.int g.topCount).isShowable = true)
    (hready : g.Ready path (printAll indent structs) s) :
    let u : SourceUnit := ⟨path, printAll indent structs⟩
    (∃ result t,
      (do Scan.logScanned u (printedScan path indent structs); g.generate : Act Generated) s
          = .ok result t
        ∧ result.classes
          = [((Path.parse path).stem ++ ".java", structs.map fun x => .text x.nameText)]
        ∧ result.skipped = []
        ∧ t.problems = s.problems
        ∧ g.reader.Sees t path u)
    ∧ ∀ x ∈ structs, ∃ e ∈ g.registry.entries, ∃ l,
        e.name = .text x.nameText ∧ e.definitions = [l]
          ∧ ∀ t, g.reader.Sees t path u → (g.buildClass e l).outcome t
            = .ok (some ⟨.text x.nameText, x.fields.map fun f =>
                ⟨f.field, JavaType.ofField (structs.map nameText) f.field⟩⟩) := by
  intro u
  constructor
  · obtain ⟨planned, hplanned, hsited, hentries⟩ := exists_planned hindent hnodup hne
    rw [← hregistry] at hentries
    obtain ⟨result, hgenerate, hclasses, hskipped⟩ :=
      returns_generate s.problems (not_mem_printAll hindent structs) hplanned hsited hentries hcount
        hshown hready.mentions
    -- The log of the scan leaves the source file and the output directory as they are.
    have hrun : Returns (Searching g path (printAll indent structs) s.problems)
        (do Scan.logScanned u (printedScan path indent structs); g.generate : Act Generated) result
        (Writing g path (printAll indent structs) s.problems) :=
      (Scan.returns_logScanned Searching.lasting true u Registry.empty).bind hgenerate
    obtain ⟨t, ht, hwriting⟩ := hrun s hready.searching
    refine ⟨result, t, ht, ?_, hskipped, hwriting.problems, ?_⟩
    · rw [hclasses, hregistry, names_printedScan hindent hnodup]
      rfl
    · -- The lines were read while the places were looked for.
      obtain ⟨known, hknown, hlines⟩ := hwriting.knows
      rw [SourceReader.Sees, hknown]
      exact hlines.trans (congrArg lines (cleanText_printAll hindent).symm)
  · intro x hx
    rw [← map_fst_located indent path 1 structs] at hx
    obtain ⟨y, hy, rfl⟩ := List.mem_map.1 hx
    obtain ⟨e, he, hname, hdefinitions⟩ := exists_entry hindent hnodup hy
    refine ⟨e, hregistry ▸ he, y.2, hname, hdefinitions, ?_⟩
    intro t hsees
    exact outcome_buildClass hindent hnodup hregistry hy hname hsees

/-! ## An example of two structs -/

/-- A list node with a count and a pointer to the next node. -/
def nodeSpec : StructSpec where
  name := "Node".toList
  fields :=
    [{ isStruct := false, qualifiers := ["unsigned".toList], base := "int".toList,
       isPointer := false, name := "count".toList, repetition := none,
       mem_qualifiers := by decide, isName_base := by decide, base_ne := by decide,
       isName_name := by decide, trim_repetition := by decide, repetition_inner := by decide },
     { isStruct := true, qualifiers := [], base := "Node".toList,
       isPointer := true, name := "next".toList, repetition := none,
       mem_qualifiers := by decide, isName_base := by decide, base_ne := by decide,
       isName_name := by decide, trim_repetition := by decide, repetition_inner := by decide }]
  isName_name := by decide
  fields_ne := by decide

/-- A table of nodes. -/
def tableSpec : StructSpec where
  name := "Table".toList
  fields :=
    [{ isStruct := true, qualifiers := [], base := "Node".toList,
       isPointer := false, name := "nodes".toList, repetition := some "2 * N".toList,
       mem_qualifiers := by decide, isName_base := by decide, base_ne := by decide,
       isName_name := by decide, trim_repetition := by decide, repetition_inner := by simp }]
  isName_name := by decide
  fields_ne := by decide

/-- The example of a source file. -/
def exampleText : List Char :=
  printAll "  ".toList [nodeSpec, tableSpec]

/-- A session with the source file and a log file. -/
def exampleSession : Session :=
  .start
    { nodes := [(["src"], .directory), (["src", "a.h"], .file (Charset.Utf8.encode exampleText)),
        (["run.log"], .file [])] }
    ((Journal.empty ⟨"", "", ""⟩).add 0 0 none (.file (Path.parse "run.log")))

/-- A generator for the source file. -/
def exampleGenerator (topCount : Int) : Generator where
  registry := (printedScan "a.h" "  ".toList [nodeSpec, tableSpec]).registry
  reader := .ofSrc
  output := Path.parse "out"
  topCount := topCount
  packages := ⟨.null, .str "pojos"⟩

theorem ready_exampleGenerator (topCount : Int) :
    (exampleGenerator topCount).Ready "a.h" exampleText exampleSession := by
  have hplace : exampleSession.files.place (SourceReader.ofSrc.root.joinText "a.h")
      = .ok ["src", "a.h"] :=
    eq_ok_of_toOption (by decide +kernel)
  have hholds : SourceReader.ofSrc.Holds exampleSession "a.h" exampleText := by
    refine ⟨Charset.Codec.isUtf8_utf8, ⟨_, rfl⟩, eq_ok_of_toOption (by decide +kernel), ?_⟩
    intro key hkey
    cases hplace.symm.trans hkey
    intro o ho p hp
    cases List.mem_singleton.1 ho
    cases hp
    exact ⟨["run.log"], eq_ok_of_toOption (by decide +kernel), by decide +kernel, by decide⟩
  have haccepts : exampleSession.files.Accepts (Path.parse "out") (javaNames "a.h") := by
    refine ⟨exampleSession.files.put ["out"] .directory,
      eq_ok_of_toOption (by decide +kernel), ?_⟩
    intro name hname
    rcases List.mem_cons.1 hname with rfl | hname
    · exact ⟨["out", "a.java"], eq_ok_of_toOption (by decide +kernel)⟩
    · cases List.mem_singleton.1 hname
      exact ⟨["out", "UnsignedInt.java"], eq_ok_of_toOption (by decide +kernel)⟩
  have hmentions : CanMention (exampleGenerator topCount).packages := by
    intro v hv
    rcases List.mem_cons.1 hv with rfl | hv
    · exact ⟨by simp [exampleGenerator, Value.isShowable], rfl⟩
    · cases List.mem_singleton.1 hv
      exact ⟨by simp [exampleGenerator, Value.isShowable], rfl⟩
  exact ⟨hholds, rfl, haccepts, hmentions⟩

/-- The example goes through although one struct is selected only. -/
theorem generate_of_node_and_table :
    (exampleGenerator 1).Ready "a.h" exampleText exampleSession
      ∧ ∃ result t,
        (do Scan.logScanned ⟨"a.h", exampleText⟩
              (printedScan "a.h" "  ".toList [nodeSpec, tableSpec])
            (exampleGenerator 1).generate : Act Generated) exampleSession = .ok result t
        ∧ result.classes = [("a.java", [.text "Node", .text "Table"])]
        ∧ result.skipped = []
        ∧ t.problems.entries = [] := by
  have hready := ready_exampleGenerator 1
  have hindent : FieldSpec.IsIndent "  ".toList := by
    rw [FieldSpec.IsIndent]
    decide
  have hregistry : (exampleGenerator 1).registry
      = (printedScan "a.h" "  ".toList [nodeSpec, tableSpec]).registry := by
    rw [exampleGenerator]
  have hcount : 1 ≤ (exampleGenerator 1).topCount := by decide
  have hshown : (Value.int 1).isShowable = true := by decide +kernel
  obtain ⟨⟨result, t, hrun, hclasses, hskipped, hproblems, -⟩, -⟩ :=
    generate_of_printed hindent (by decide) (by decide) hregistry hcount hshown hready
  refine ⟨hready, result, t, hrun, hclasses.trans ?_, hskipped, congrArg (·.entries) hproblems⟩
  decide +kernel

theorem generate_of_not_isShowable (h : (Value.int g.topCount).isShowable = false) :
    g.generate s = .error .unshowable s := by
  rw [generate, generateWith, h, if_pos (by decide)]
  rfl

/-- A number of selected structs with too many digits to be shown stops a generation before
anything is done. -/
theorem generate_of_long_count :
    1 ≤ (exampleGenerator (Value.showLimit : Int)).topCount
      ∧ (exampleGenerator (Value.showLimit : Int)).Ready "a.h" exampleText exampleSession
      ∧ (do Scan.logScanned ⟨"a.h", exampleText⟩
              (printedScan "a.h" "  ".toList [nodeSpec, tableSpec])
            (exampleGenerator (Value.showLimit : Int)).generate : Act Generated).outcome
          exampleSession = .error .unshowable := by
  have hcount : 1 ≤ (exampleGenerator (Value.showLimit : Int)).topCount := by
    decide +kernel
  have hshown : (Value.int (exampleGenerator (Value.showLimit : Int)).topCount).isShowable
      = false := by
    rw [Value.isShowable, exampleGenerator, Int.natAbs_natCast]
    exact decide_eq_false (Nat.lt_irrefl _)
  have hlogged : Returns (fun _ => True) (Scan.logScanned ⟨"a.h", exampleText⟩
      (printedScan "a.h" "  ".toList [nodeSpec, tableSpec])) () fun _ => True :=
    Scan.returns_logScanned (fun _ _ _ => trivial) true _ _
  obtain ⟨t, ht, -⟩ := hlogged exampleSession trivial
  refine ⟨hcount, ready_exampleGenerator _, ?_⟩
  rw [outcome, bind_ok ht, generate_of_not_isShowable hshown]

end Generator

end StructAtlas
