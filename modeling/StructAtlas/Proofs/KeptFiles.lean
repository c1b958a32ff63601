import StructAtlas.Proofs.StructFates

set_option autoImplicit false

/-!
# Java files that stay as they were written

The Java files of groups have different names, so none of them is written over another one. The
support class is written behind them, under a fixed name that is not held against those in use: a
source file of that stem gives its Java file the same name, and then the support class takes its
place (`Ledger.Overwrites`). This is the only way in which a file is written twice, and every other
file ends with the classes of its group.
-/

namespace StructAtlas

open Act Generation

/-! ## Files of one directory -/

theorem IsComponent.joinText_inj {name other : String} (h : IsComponent name)
    (hother : IsComponent other) {out : Path} (hsame : out.joinText name = out.joinText other) :
    name = other := by
  rw [h.joinText, hother.joinText] at hsame
  have hparts := congrArg Path.parts hsame
  exact List.singleton_inj.1 (List.append_cancel_left hparts)

theorem isComponent_supportName : IsComponent Generator.supportName :=
  Naming.isComponent_append_sourceExtension (by decide)

namespace Output

/-- The name of a file that was written. -/
def written? : Output → Option String
  | .written name _ => some name
  | _ => none

theorem name?_of_written? {o : Output} {name : String} (h : o.written? = some name) :
    o.name? = some name := by
  cases o with
  | written other text => exact h
  | absent => cases h
  | refused other fault => cases h

theorem map_writings (o : Output) (out : Path) :
    (o.writings out).map (·.1) = o.written?.toList.map out.joinText := by
  cases o <;> rfl

end Output

namespace Ledger

variable {g : Generator} {ledger : Ledger} {run : GroupRun}

/-- What became of all Java files, in order. -/
def outputs (ledger : Ledger) : List Output :=
  ledger.runs.map (·.output) ++ [ledger.support]

theorem writings_eq (g : Generator) (ledger : Ledger) :
    ledger.writings g = ledger.outputs.flatMap (·.writings g.output) := by
  rw [writings, outputs, List.flatMap_append, List.flatMap_map, List.flatMap_singleton]

theorem written_eq (g : Generator) (ledger : Ledger) :
    (ledger.result g).written
      = (ledger.outputs.filterMap Output.written?).map g.output.joinText := by
  have hwritten : (ledger.result g).written = (ledger.writings g).map (·.1) := rfl
  rw [hwritten, writings_eq]
  induction ledger.outputs with
  | nil => rfl
  | cons o os ih =>
    rw [List.flatMap_cons, List.map_append, ih, Output.map_writings]
    cases ho : o.written? with
    | none =>
      rw [List.filterMap_cons_none ho]
      rfl
    | some name =>
      rw [List.filterMap_cons_some ho]
      rfl

/-- The files of groups that were written are among those that were tried. -/
theorem written_sublist (ledger : Ledger) :
    ((ledger.runs.map (·.output)).filterMap Output.written?).Sublist
      (ledger.runs.filterMap GroupRun.file?) := by
  induction ledger.runs with
  | nil => exact List.Sublist.refl []
  | cons run runs ih =>
    rw [List.map_cons]
    cases hrun : run.output.written? with
    | none =>
      rw [List.filterMap_cons_none hrun]
      exact ih.trans ((List.sublist_cons_self run runs).filterMap _)
    | some name =>
      have hfile : run.file? = some name := Output.name?_of_written? hrun
      rw [List.filterMap_cons_some hrun, List.filterMap_cons_some hfile]
      exact ih.cons_cons name

end Ledger

namespace Generator

open Ledger

variable {g : Generator} {s t : Session} {ledger : Ledger}

theorem Accounts.eq_supportName (h : g.Accounts s ledger t) {name : String}
    (hname : ledger.support.written? = some name) :
    ledger.support = .written supportName g.packages.renderSupport ∧ name = supportName := by
  have hsupport := h.support
  split at hsupport
  · rcases hsupport with hwritten | ⟨fault, hrefused⟩
    · rw [hwritten] at hname
      exact ⟨hwritten, (Option.some.inj hname).symm⟩
    · rw [hrefused] at hname
      cases hname
  · rw [hsupport] at hname
    cases hname

theorem Accounts.isComponent (h : g.Accounts s ledger t) {o : Output} (ho : o ∈ ledger.outputs)
    {name : String} (hname : o.written? = some name) : IsComponent name := by
  rcases List.mem_append.1 ho with ho | ho
  · refine h.components name ((written_sublist ledger).subset ?_)
    exact List.mem_filterMap.2 ⟨o, ho, hname⟩
  · obtain rfl := List.mem_singleton.1 ho
    rw [(h.eq_supportName hname).2]
    exact isComponent_supportName

/-! ## Different files -/

/-- The source of a struct with an unsigned field. -/
def unsignedText : List Char :=
  "struct N \x7b unsigned n; \x7d;".toList

theorem not_mem_unsignedText : ∀ c ∈ unsignedText, c ∉ ['/', '\r'] := by
  have hall : unsignedText.all (fun c => !(['/', '\r'].contains c)) = true := by decide +kernel
  intro c hc hmem
  have hnot := List.all_eq_true.1 hall c hc
  rw [List.contains_iff_mem.2 hmem] at hnot
  cases hnot

/-- A generator for this struct in a source file of a given name. -/
def unsignedGenerator (file : String) : Generator where
  registry := ⟨[⟨"N", [⟨file, 1⟩], []⟩]⟩
  reader := .ofSrc
  output := Path.parse "out"
  topCount := 1
  packages := ⟨.null, .str "pojos"⟩

/-- A session with this source file. -/
def unsignedSession (file : String) : Session :=
  .start
    { nodes := [(["src"], .directory), (["src", file], .file (Charset.Utf8.encode unsignedText))] }
    ((Journal.empty ⟨"", "", ""⟩).add 0 0 none .memory)

/-- If the source file is there and the Java files can be written, both are written. -/
theorem generate_unsigned {file : String}
    (hbelow : ∃ relative, (SourceReader.ofSrc.root.joinText file).relativeTo?
      SourceReader.ofSrc.root = some relative)
    (hread : ((unsignedSession file).files.read (SourceReader.ofSrc.root.joinText file)).toOption
      = some (Charset.Utf8.encode unsignedText))
    (haccepts : (unsignedSession file).files.Accepts (Path.parse "out") (javaNames file)) :
    ∃ t, (unsignedGenerator file).generate (unsignedSession file)
      = .ok ⟨[(Path.parse "out").joinText (javaName file), (Path.parse "out").joinText supportName],
          [(javaName file, ["N"])], []⟩ t := by
  have hholds : SourceReader.ofSrc.Holds (unsignedSession file) file unsignedText := by
    refine ⟨Charset.Codec.isUtf8_utf8, hbelow, eq_ok_of_toOption hread, ?_⟩
    intro key hkey o ho p hp
    cases List.mem_singleton.1 ho
    cases hp
  have hsearching : (unsignedGenerator file).Searching file unsignedText ⟨none, []⟩
      (unsignedSession file) := by
    refine ⟨hholds, ?_, haccepts, rfl⟩
    intro known hknown
    cases hknown
  have hbegins : Body.begins (Text.lines unsignedText) 1 = true := by decide +kernel
  have hfind : Body.find (Text.lines unsignedText) 1 = .ok ⟨" unsigned n; ".toList, 1⟩ :=
    eq_ok_of_toOption (by decide +kernel)
  have hsited : ∀ p ∈ [((⟨"N", [⟨file, 1⟩], []⟩, ⟨file, 1⟩) : Planned)],
      Sited file unsignedText p := by
    intro p hp
    obtain rfl := List.mem_singleton.1 hp
    exact ⟨⟨"N", rfl⟩, rfl, rfl, hbegins, _, hfind, by decide +kernel⟩
  have hmentions : CanMention (unsignedGenerator file).packages := by
    intro v hv
    rcases List.mem_cons.1 hv with rfl | hv
    · exact ⟨by simp [unsignedGenerator, Value.isShowable], rfl⟩
    · cases List.mem_singleton.1 hv
      exact ⟨by simp [unsignedGenerator, Value.isShowable], rfl⟩
  have hshown : (Value.int 1).isShowable = true := by decide +kernel
  have hcount : 1 ≤ (unsignedGenerator file).topCount := Int.le_refl 1
  obtain ⟨t, ht, -⟩ := returns_withSupport not_mem_unsignedText (List.cons_ne_nil _ _) hsited rfl
    hcount hshown hmentions (unsignedSession file) hsearching
  refine ⟨t, ht.trans ?_⟩
  -- The class needs the support class for its one field.
  have hneeds : (JavaClass.ofFields "N" (Field.ofBody " unsigned n; ".toList) ["N"]).needsUnsigned
      = true := by
    decide +kernel
  have hclass : (unsignedGenerator file).classAt unsignedText
      (⟨"N", [⟨file, 1⟩], []⟩, ⟨file, 1⟩)
        = .ofFields "N" (Field.ofBody " unsigned n; ".toList) ["N"] := by
    rw [classAt, fieldsAt, hfind]
    rfl
  simp only [withSupport, oneFile, List.map_cons, List.map_nil, hclass, List.any_cons, hneeds,
    Bool.true_or, ↓reduceIte]
  rfl

theorem accepts_unsigned :
    (unsignedSession "n.h").files.Accepts (Path.parse "out") (javaNames "n.h") := by
  refine ⟨(unsignedSession "n.h").files.put ["out"] .directory,
    eq_ok_of_toOption (by decide +kernel), ?_⟩
  intro name hname
  rcases List.mem_cons.1 hname with rfl | hname
  · exact ⟨["out", "n.java"], eq_ok_of_toOption (by decide +kernel)⟩
  · cases List.mem_singleton.1 hname
    exact ⟨["out", "UnsignedInt.java"], eq_ok_of_toOption (by decide +kernel)⟩

end Generator

end StructAtlas
