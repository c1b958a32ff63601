import StructAtlas.Proofs.NullCharacters
import StructAtlas.Proofs.SettingChecks

set_option autoImplicit false

/-!
# Types of settings

Settings whose fields are all of their declared kinds can be used: their paths can be formed, the
console can be set to their level, and the log files can be set up, without a failure for the kind
of a value (`Settings.IsWellTyped.isUsable`). The only way in which such a failure is left is a
directory of log files with an opening brace, since the paths of log files are templates.

Whether loaded settings are well typed depends on the fields that are not checked
(`Settings.loaded_settings_are_partly_checked`). A configuration that gives such a field a value of
another kind is accepted, and the failure comes when the field is used
(`Settings.number_for_directory_is_accepted`).
-/

namespace StructAtlas

open Act

/-! ## Templates without fields -/

namespace Path

/-- A character that is neither a dot nor a slash stands in a path if it stands in one of its
parts. -/
theorem mem_toText {c : Char} (hdot : c ≠ '.') (hslash : c ≠ '/') (p : Path) :
    c ∈ p.toText.toList ↔ c ∈ p.root.toList ∨ ∃ part ∈ p.parts, c ∈ part.toList := by
  rw [toText]
  split
  · rename_i hempty
    obtain ⟨hroot, hparts⟩ := Bool.and_eq_true_iff.1 hempty
    rw [String.isEmpty_iff.1 hroot, List.isEmpty_iff.1 hparts]
    simp [hdot]
  · rw [String.toList_append, List.mem_append, mem_toList_intercalate (by simp [hslash])]

/-- A path one component deeper has no other characters than those of the path and the component. -/
theorem mem_toText_child {c : Char} (hdot : c ≠ '.') (hslash : c ≠ '/') {p : Path} {part : String}
    (h : c ∈ (p.child part).toText.toList) : c ∈ p.toText.toList ∨ c ∈ part.toList := by
  rw [mem_toText hdot hslash, child] at h
  rw [mem_toText hdot hslash]
  rcases h with hroot | ⟨other, hother, hc⟩
  · exact Or.inl (Or.inl hroot)
  · rcases List.mem_append.1 hother with hother | hother
    · exact Or.inl (Or.inr ⟨other, hother, hc⟩)
    · obtain rfl := List.mem_singleton.1 hother
      exact Or.inr hc

end Path

namespace Template

/-- A text without opening braces has no fields. -/
theorem pieces_of_not_mem (fuel : Nat) {cs : List Char} (h : '{' ∉ cs) :
    pieces fuel cs = .error .loneClose
      ∨ ∃ chars : List Char, pieces fuel cs = .ok (chars.map .char) := by
  induction fuel generalizing cs with
  | zero => exact Or.inr ⟨[], rfl⟩
  | succ fuel ih =>
    have hcons (c : Char) (r : Except Fault (List Piece))
        (hr : r = .error .loneClose ∨ ∃ chars : List Char, r = .ok (chars.map .char)) :
        r.map (Piece.char c :: ·) = .error .loneClose
          ∨ ∃ chars : List Char, r.map (Piece.char c :: ·) = .ok (chars.map .char) := by
      rcases hr with rfl | ⟨chars, rfl⟩
      · exact Or.inl rfl
      · exact Or.inr ⟨c :: chars, rfl⟩
    cases cs with
    | nil => exact Or.inr ⟨[], rfl⟩
    | cons c cs =>
      rw [List.mem_cons, not_or] at h
      rw [pieces.eq_def]
      simp only [beq_false_of_ne (Ne.symm h.1), Bool.false_eq_true, ↓reduceIte]
      split
      · split
        · exact hcons c _ (ih fun hmem => h.2 (List.mem_cons_of_mem _ hmem))
        · exact Or.inl rfl
      · exact hcons c _ (ih h.2)

theorem fillWith_chars (time : List Char) (depth : Nat) (chars : List Char) :
    fillWith time (depth + 1) (chars.map .char) = .ok chars := by
  have hall (f : Piece → Except Fault (List Char)) (hf : ∀ c, f (.char c) = .ok [c]) :
      (chars.map Piece.char).mapM f = .ok (chars.map fun c => [c]) := by
    induction chars with
    | nil => rfl
    | cons c chars ih =>
      rw [List.map_cons, List.mapM_cons, hf, ih]
      rfl
  have hflat : (chars.map fun c => [c]).flatten = chars := by
    rw [← List.flatMap_def, List.flatMap_singleton']
  rw [fillWith, hall _ fun _ => rfl]
  exact congrArg Except.ok hflat

/-- Without opening braces there is one reason for which a template is not filled in. -/
theorem eq_loneClose_of_fill {time template : String} {fault : Fault}
    (hfree : '{' ∉ template.toList) (h : fill time template = .error fault) :
    fault = .loneClose := by
  rw [fill, parse] at h
  rcases pieces_of_not_mem template.toList.length hfree with hfault | ⟨chars, hchars⟩
  · rw [hfault] at h
    cases h
    rfl
  · rw [hchars] at h
    have hfilled : fillWith time.toList 2 (chars.map .char) = .ok chars := fillWith_chars _ 1 chars
    simp only [bind, Except.bind, hfilled] at h
    cases h

end Template

/-! ## Failures for the kind of a value -/

namespace Failure

/-- A value was used that is not of the kind that was needed. -/
def IsMistyped (e : Failure) : Prop :=
  e.kindName = "TypeError" ∨ e.kindName = "AttributeError"

instance (e : Failure) : Decidable e.IsMistyped :=
  inferInstanceAs (Decidable (_ ∨ _))

theorem not_isMistyped_file (fault : FileFault) : ¬ (Failure.file fault).IsMistyped := by
  have hkind : (Failure.file fault).kindName = fault.className := rfl
  rw [IsMistyped, hkind, FileFault.className]
  cases fault.kind with
  | refused why => cases why <;> decide
  | _ => decide

theorem not_isMistyped_of_valueError {e : Failure} (h : e.kindName = "ValueError") :
    ¬ e.IsMistyped := by
  rw [IsMistyped, h]
  decide

end Failure

namespace Logging

variable {s t : Session} {e : Failure} {level : Value}

/-- A text has a name of a level, though perhaps one that does not exist. -/
theorem exists_levelName (h : level.isText = true) :
    ∃ name, levelName level = .ok (some name) := by
  rcases Value.isText_iff.1 h with ⟨text, rfl⟩ | ⟨codes, rfl⟩
  · exact ⟨_, rfl⟩
  · exact ⟨_, rfl⟩

theorem not_isMistyped_of_severityOf {name : String} (h : severityOf (some name) = .error e) :
    ¬ e.IsMistyped := by
  rw [severityOf] at h
  split at h
  · cases h
  · cases h
    exact Failure.not_isMistyped_of_valueError rfl

theorem eq_goneOutlet_of_removeConsole (h : removeConsole s = .error e t) :
    ∃ id, e = .goneOutlet id := by
  rw [removeConsole, bind_ok (get_ok s)] at h
  cases hid : s.journal.consoleId with
  | none =>
    rw [hid] at h
    cases h
  | some id =>
    rw [hid] at h
    cases hlive : s.journal.isLive id with
    | true => cases (removeOutlet_of_live hlive).symm.trans h
    | false =>
      cases (removeOutlet_of_gone hlive).symm.trans h
      exact ⟨id, rfl⟩

/-- Setting the console to a text does not fail for the kind of a value. -/
theorem not_isMistyped_of_setConsole (h : level.isText = true)
    (hrun : setConsole level s = .error e t) : ¬ e.IsMistyped := by
  obtain ⟨name, hname⟩ := exists_levelName h
  rcases bind_eq_error hrun with hremove | ⟨_, u, -, hnext⟩
  · obtain ⟨id, rfl⟩ := eq_goneOutlet_of_removeConsole hremove
    exact Failure.not_isMistyped_of_valueError rfl
  · rw [hname] at hnext
    rcases bind_eq_error hnext with hnone | ⟨_, v, hok, hnumber⟩
    · cases hnone
    · cases hok
      rw [bind_ok (takeNumber_ok u)] at hnumber
      rcases bind_eq_error hnumber with hnone | ⟨severity, w, -, hopen⟩
      · cases hseverity : severityOf (some name) with
        | ok severity =>
          rw [hseverity] at hnone
          cases hnone
        | error e' =>
          rw [hseverity] at hnone
          cases hnone
          exact not_isMistyped_of_severityOf hseverity
      · cases hopen

theorem not_mem_fileNames : ∀ name ∈ fileNames, '{' ∉ name.toList := by
  decide

/-- Setting up log files at a level that is a text fails for the kind of a value only if the
directory has an opening brace. -/
theorem OpenFault.mem_of_isMistyped {dir : Path} (h : OpenFault dir level e)
    (hlevel : level.isText = true) (hmistyped : e.IsMistyped) : '{' ∈ dir.toText.toList := by
  obtain ⟨levelled, hlevelled⟩ := exists_levelName hlevel
  cases h with
  | file fault => exact absurd hmistyped (Failure.not_isMistyped_file fault)
  | nameless hnone => cases hlevelled.symm.trans hnone
  | bytes hbytes => cases hlevelled.symm.trans hbytes
  | unknown _ _ => exact absurd hmistyped (Failure.not_isMistyped_of_valueError rfl)
  | @template name time fault hname hfill =>
    by_cases hbrace : '{' ∈ (dir.child name).toText.toList
    · rcases Path.mem_toText_child (by decide) (by decide) hbrace with hdir | hfile
      · exact hdir
      · exact absurd hfile (not_mem_fileNames name hname)
    · -- Without an opening brace, what is wrong with the template is a closing one.
      cases Template.eq_loneClose_of_fill hbrace hfill
      exact absurd hmistyped (by decide)

end Logging

namespace Settings

variable {settings : Settings} {v : Value} {e : Failure}

/-! ## Paths -/

theorem eq_unencodable_of_pathOf (hv : v.isText = true) (h : pathOf v = .error e) :
    e = .unencodable := by
  rcases Value.isText_iff.1 hv with ⟨text, rfl⟩ | ⟨codes, rfl⟩
  · cases h
  · cases h
    rfl

theorem pathOf_of_not_isText (h : v.isText = false) : pathOf v = .error (.notPath v) := by
  cases v with
  | str text => cases h
  | brokenText codes => cases h
  | _ => rfl

theorem eq_unencodable_of_pathIn {dir : Path} (hv : v.isText = true)
    (h : pathIn dir v = .error e) : e = .unencodable := by
  rcases Value.isText_iff.1 hv with ⟨text, rfl⟩ | ⟨codes, rfl⟩
  · cases h
  · cases h
    rfl

/-- Both the directory and the value are texts. -/
theorem eq_unencodable_of_below (hdir : settings.outputDir.isText = true) (hv : v.isText = true)
    (h : settings.below v = .error e) : e = .unencodable := by
  rw [below] at h
  cases hout : settings.outputPath with
  | error e' =>
    rw [hout] at h
    cases h
    exact eq_unencodable_of_pathOf hdir hout
  | ok dir =>
    rw [hout] at h
    exact eq_unencodable_of_pathIn hv h

theorem eq_unencodable_of_below? (hdir : settings.outputDir.isText = true)
    (hv : Kind.optionalText.admits v = true) (h : settings.below? v = .error e) :
    e = .unencodable := by
  rw [below?] at h
  by_cases htruthy : v.truthy = true
  · rw [if_pos htruthy] at h
    have htext : v.isText = true := by
      cases v with
      | null => cases htruthy
      | _ => exact hv
    cases hbelow : settings.below v with
    | error e' =>
      rw [hbelow] at h
      cases h
      exact eq_unencodable_of_below hdir htext hbelow
    | ok p =>
      rw [hbelow] at h
      cases h
  · rw [if_neg htruthy] at h
    cases h

/-- All paths that are formed of settings. -/
def paths (s : Settings) : List (Except Failure (Option Path)) :=
  [s.outputPath.map some, s.reportJsonPath.map some, s.reportTextPath?, s.errorFilePath?,
   s.generatedPath.map some, s.logPath.map some]

/-- Nothing that is done with settings fails for the kind of a value. -/
structure IsUsable (s : Settings) : Prop where
  paths : ∀ r ∈ s.paths, ∀ e, r = .error e → e = .unencodable
  console : ∀ session e t,
    Logging.setConsole s.logLevel session = .error e t → ¬ e.IsMistyped
  files : ∀ dir, s.logPath = .ok dir → ∀ session e t, session.journal.IsOrderly →
    Logging.setupFiles dir s.logLevel session = .error e t →
      e.IsMistyped → '{' ∈ dir.toText.toList

theorem eq_error_of_map_some {r : Except Failure Path} (h : r.map some = .error e) :
    r = .error e := by
  cases r with
  | error e' => cases h; rfl
  | ok p => cases h

/-- **Well-typed settings can be used.** -/
theorem IsWellTyped.isUsable (h : settings.IsWellTyped) : settings.IsUsable := by
  have hdir : settings.outputDir.isText = true := h ("output_dir", .text) (by decide)
  have hlevel : settings.logLevel.isText = true := h ("log_level", .text) (by decide)
  have hbelow (v : Value) (hv : v.isText = true) :
      ∀ e, (settings.below v).map some = .error e → e = .unencodable := fun e he =>
    eq_unencodable_of_below hdir hv (eq_error_of_map_some he)
  have hbelow? (v : Value) (hv : Kind.optionalText.admits v = true) :
      ∀ e, settings.below? v = .error e → e = .unencodable := fun e he =>
    eq_unencodable_of_below? hdir hv he
  refine ⟨?_, ?_, ?_⟩
  · simp only [Settings.paths, List.forall_mem_cons]
    refine ⟨?_, hbelow _ (h ("report_json", .text) (by decide)),
      hbelow? _ (h ("report_txt", .optionalText) (by decide)),
      hbelow? _ (h ("error_file", .optionalText) (by decide)),
      hbelow _ (h ("generated_dir", .text) (by decide)),
      hbelow _ (h ("log_dir", .text) (by decide)), List.forall_mem_nil _⟩
    intro e he
    exact eq_unencodable_of_pathOf hdir (eq_error_of_map_some he)
  · intro session e t hrun
    exact Logging.not_isMistyped_of_setConsole hlevel hrun
  · intro dir _ session e t horderly hrun hmistyped
    rcases Logging.ends_setupFiles dir settings.logLevel session horderly.hasConsoles with
      ⟨ids, u, hok, -⟩ | ⟨e', u, herror, -, hfault⟩
    · cases hok.symm.trans hrun
    · cases herror.symm.trans hrun
      exact hfault.mem_of_isMistyped hlevel hmistyped

/-! ## Loaded settings -/

/-- **Loaded settings are checked in part.** Let the configuration file hold a mapping. Then loading
returns settings, whose checked fields are of their kinds and whose source root and structured
report are not empty, or it refuses the settings because no settings fit the fields, or some field
is not plain. Returned settings are well typed exactly if the unchecked fields of the configuration
and of the overrides are of their kinds, and then they can be used. -/
theorem loaded_settings_are_partly_checked {path : String} {s : Session} {d : Markup.Document}
    (h : Configures path s d) (overrides : List (String × Value)) :
    let fields := fieldsOf (override d overrides)
    (∃ settings t, load path overrides s = .ok settings t ∧ Fits fields settings
      ∧ settings.sourceRoot.truthy = true ∧ settings.reportJson.truthy = true
      ∧ (∀ f ∈ checked, f.2.admits (fieldOf fields f.1) = true)
      ∧ (settings.IsWellTyped ↔ ∀ f ∈ unchecked, f.2.admits (fieldOf fields f.1) = true)
      ∧ (settings.IsWellTyped → settings.IsUsable))
    ∨ ∃ e t, load path overrides s = .error e t ∧
      ((∃ fault, e = .config fault)
          ∧ (∀ settings, Fits fields settings → settings.sourceRoot.truthy = false)
        ∨ ¬ IsPlain fields) := by
  intro fields
  rcases ends_load h overrides with ⟨settings, t, hload, hfits, hroot⟩ | ⟨e, t, hload, hwhy⟩
  · exact Or.inl ⟨settings, t, hload, hfits, hroot, hfits.report, hfits.admits_fieldOf,
      hfits.isWellTyped_iff, IsWellTyped.isUsable⟩
  · refine Or.inr ⟨e, t, hload, hwhy.imp (And.imp_right fun hnone => ?_) id⟩
    intro settings hfits
    rw [← Bool.not_eq_true]
    exact fun htruthy => hnone settings ⟨hfits, htruthy⟩

/-! ## Two configurations -/

/-- A session with a configuration file. -/
def configSession (text : String) : Session :=
  .start { nodes := [(["config.yaml"], .file (Charset.Utf8.bytesOf text))] } (.fresh ⟨"", "", ""⟩)

/-- The document of a configuration, if there is one. -/
def configDocument? (text : String) : Option Markup.Document :=
  (parse "config.yaml" (Charset.Utf8.bytesOf text)).toOption.bind id

/-- The document of a configuration. -/
def configDocument (text : String) : Markup.Document :=
  (configDocument? text).getD .empty

theorem configures_of_mapping {text : String}
    (h : (configDocument? text).any (·.fields?.isSome) = true) :
    Configures "config.yaml" (configSession text) (configDocument text) := by
  have hread : ((configSession text).log (loadRecord "config.yaml")).files.read
      (Path.parse "config.yaml") = .ok (Charset.Utf8.bytesOf text) := rfl
  rw [configDocument]
  cases hparse : parse "config.yaml" (Charset.Utf8.bytesOf text) with
  | error e =>
    rw [configDocument?, hparse] at h
    cases h
  | ok parsed =>
    cases parsed with
    | none =>
      rw [configDocument?, hparse] at h
      cases h
    | some d =>
      have hd : configDocument? text = some d := by
        rw [configDocument?, hparse]
        rfl
      rw [hd] at h ⊢
      have hmapping : d.fields?.isSome = true := h
      refine ⟨rfl, _, some d, (configSession text).log (loadRecord "config.yaml"), hread, hparse,
        ?_⟩
      rw [documentOf]
      simp only [hmapping, ↓reduceIte]
      rfl

/-- A configuration of texts. -/
def textConfig : String :=
  "source_root: src\noutput_dir: out\n"

/-- A configuration with a number for the directory for all output. -/
def numberConfig : String :=
  "source_root: src\noutput_dir: 5\n"

/-- A configuration of texts gives settings that can be used. -/
theorem load_of_text_configuration :
    Configures "config.yaml" (configSession textConfig) (configDocument textConfig)
      ∧ ∃ settings t,
        load "config.yaml" [("top_n", .int 3)] (configSession textConfig) = .ok settings t
          ∧ settings.IsWellTyped ∧ settings.IsUsable := by
  have hconfigures : Configures "config.yaml" (configSession textConfig)
      (configDocument textConfig) :=
    configures_of_mapping (by decide +kernel)
  refine ⟨hconfigures, ?_⟩
  rcases loaded_settings_are_partly_checked hconfigures [("top_n", .int 3)] with
    ⟨settings, t, hload, -, -, -, -, htyped, husable⟩ | ⟨e, t, hload, -⟩
  · have hwell : settings.IsWellTyped := htyped.2 (by decide +kernel)
    exact ⟨settings, t, hload, hwell, husable hwell⟩
  · have hsucceeds : succeeds (load "config.yaml" [("top_n", .int 3)])
        (configSession textConfig) = true := by
      decide +kernel
    exact absurd hload (ne_error_of_succeeds hsucceeds e)

/-- A number is accepted as the directory for all output, and no path can be formed with it. -/
theorem number_for_directory_is_accepted :
    Configures "config.yaml" (configSession numberConfig) (configDocument numberConfig)
      ∧ ∃ settings t, load "config.yaml" [] (configSession numberConfig) = .ok settings t
        ∧ settings.outputDir.display = "5" ∧ ¬ settings.IsWellTyped
        ∧ ∃ e, settings.outputPath = .error e ∧ e.IsMistyped := by
  have hconfigures : Configures "config.yaml" (configSession numberConfig)
      (configDocument numberConfig) :=
    configures_of_mapping (by decide +kernel)
  refine ⟨hconfigures, ?_⟩
  rcases ends_load hconfigures [] with ⟨settings, t, hload, hfits, -⟩ | ⟨e, t, hload, -⟩
  · have htaken : settings.outputDir
        = fieldOf (fieldsOf (override (configDocument numberConfig) [])) "output_dir" :=
      hfits.taken ("output_dir", .text) (by decide)
    have hnumber : settings.outputDir.isText = false := by
      rw [htaken]
      decide +kernel
    have hshown : settings.outputDir.display = "5" := by
      rw [htaken]
      decide +kernel
    refine ⟨settings, t, hload, hshown, ?_, _, pathOf_of_not_isText hnumber, Or.inl rfl⟩
    intro htyped
    have htext : settings.outputDir.isText = true := htyped ("output_dir", .text) (by decide)
    cases hnumber.symm.trans htext
  · have hsucceeds : succeeds (load "config.yaml" []) (configSession numberConfig) = true := by
      decide +kernel
    exact absurd hload (ne_error_of_succeeds hsucceeds e)

end Settings

end StructAtlas
