import StructAtlas.Proofs.LogOutlets
import StructAtlas.Settings

set_option autoImplicit false

/-!
# Checks of settings

Every field of the settings is declared with a kind of values, but only some fields are checked when
settings are made: `Settings.declared` are those of `Settings.checked` and those of
`Settings.unchecked`. `Settings.Fits` says what settings have in common with the fields that they
come from. Checks follow each other (`Settings.Decides.bind`), so settings are made exactly of the
fields that pass them (`Settings.decides_ofFields`), and loading returns exactly the settings that
fit the fields and have a source root (`Settings.ends_load`). The kinds of the unchecked fields are
those of the configuration (`Settings.Fits.isWellTyped_iff`).
-/

namespace StructAtlas

open Act

/-! ## Kinds -/

/-- Whether a value is a text. -/
def Value.isText (v : Value) : Bool :=
  v.codes?.isSome

theorem Value.isText_iff {v : Value} :
    v.isText = true ↔ (∃ s, v = .str s) ∨ ∃ codes, v = .brokenText codes := by
  cases v <;> simp [isText, codes?]

namespace Settings

/-- The kinds of values that fields are declared with. -/
inductive Kind where
  | text
  | optionalText
  | texts
  | truth
  | count
deriving Repr, DecidableEq

/-- Whether a value is of a kind. -/
def Kind.admits : Kind → Value → Bool
  | .text, v => v.isText
  | .optionalText, .null => true
  | .optionalText, v => v.isText
  | .texts, .list items => items.all (·.isText)
  | .truth, .bool _ => true
  | .count, .int n => decide (1 ≤ n)
  | _, _ => false

/-- The fields whose kinds are checked when settings are made. -/
def checked : List (String × Kind) :=
  [("top_n", .count), ("include_patterns", .texts), ("exclude_patterns", .texts),
   ("preserve_line_numbers", .truth), ("primary_encoding", .text), ("fallback_encoding", .text)]

/-- The fields whose kinds are declared, but not checked. -/
def unchecked : List (String × Kind) :=
  [("source_root", .text), ("output_dir", .text), ("report_json", .text),
   ("report_txt", .optionalText), ("error_file", .optionalText), ("generated_dir", .text),
   ("java_package", .optionalText), ("support_package", .text), ("log_dir", .text),
   ("log_level", .text)]

/-- All fields with their kinds. -/
def declared : List (String × Kind) :=
  checked ++ unchecked

/-- The declared fields are those that have defaults, and every default is of its kind. -/
theorem admits_defaults :
    (declared.map (·.1)).Perm (defaults.map (·.1))
      ∧ ∀ f ∈ declared, f.2.admits ((defaults.lookup f.1).getD .null) = true := by
  decide +kernel

/-! ## Values of settings -/

variable {fields : List (Value × Value)} {settings : Settings}

/-- The values of all fields. -/
def values (s : Settings) : List (String × Value) :=
  [("source_root", s.sourceRoot), ("include_patterns", .texts s.includes),
   ("exclude_patterns", .texts s.excludes), ("primary_encoding", .str s.primary),
   ("fallback_encoding", .str s.fallback), ("preserve_line_numbers", .bool s.keepLines),
   ("output_dir", s.outputDir), ("report_json", s.reportJson), ("report_txt", s.reportText),
   ("error_file", s.errorFile), ("generated_dir", s.generatedDir), ("top_n", .int s.topCount),
   ("java_package", s.javaPackage), ("support_package", s.supportPackage), ("log_dir", s.logDir),
   ("log_level", s.logLevel)]

/-- The value of a field. -/
def valueOf (s : Settings) (name : String) : Value :=
  (s.values.lookup name).getD .null

/-- All fields are of their kinds. -/
def IsWellTyped (s : Settings) : Prop :=
  ∀ f ∈ declared, f.2.admits (s.valueOf f.1) = true

theorem admits_texts (ts : List WideText) : Kind.texts.admits (.texts ts) = true := by
  rw [Value.texts, Kind.admits, List.all_map, List.all_eq_true]
  intro t _
  exact congrArg Option.isSome (Value.codes?_ofWide t)

/-- The settings come from fields: the checked fields passed, and the others are as they were. -/
structure Fits (fields : List (Value × Value)) (s : Settings) : Prop where
  count : fieldOf fields "top_n" = .int s.topCount ∧ 1 ≤ s.topCount
  includes : Kind.texts.admits (fieldOf fields "include_patterns") = true
  excludes : Kind.texts.admits (fieldOf fields "exclude_patterns") = true
  choice : fieldOf fields "preserve_line_numbers" = .bool s.keepLines
  primary : fieldOf fields "primary_encoding" = .str s.primary
    ∧ (Charset.find? s.primary).isSome = true
  fallback : fieldOf fields "fallback_encoding" = .str s.fallback
    ∧ (Charset.find? s.fallback).isSome = true
  report : s.reportJson.truthy = true
  taken : ∀ f ∈ unchecked, s.valueOf f.1 = fieldOf fields f.1

theorem Fits.admits_fieldOf (h : Fits fields settings) :
    ∀ f ∈ checked, f.2.admits (fieldOf fields f.1) = true := by
  simp only [checked, List.forall_mem_cons, h.includes, h.excludes, h.count.1, h.choice,
    h.primary.1, h.fallback.1]
  exact ⟨decide_eq_true h.count.2, trivial, trivial, rfl, rfl, rfl, List.forall_mem_nil _⟩

theorem Fits.admits_valueOf (h : Fits fields settings) :
    ∀ f ∈ checked, f.2.admits (settings.valueOf f.1) = true := by
  simp only [checked, List.forall_mem_cons]
  exact ⟨decide_eq_true h.count.2, admits_texts _, admits_texts _, rfl, rfl, rfl,
    List.forall_mem_nil _⟩

/-- Settings are well typed exactly if the fields that are not checked were of their kinds. -/
theorem Fits.isWellTyped_iff (h : Fits fields settings) :
    settings.IsWellTyped ↔ ∀ f ∈ unchecked, f.2.admits (fieldOf fields f.1) = true := by
  constructor
  · intro htyped f hf
    rw [← h.taken f hf]
    exact htyped f (List.mem_append_right _ hf)
  · intro hadmits f hf
    rcases List.mem_append.1 hf with hf | hf
    · exact h.admits_valueOf f hf
    · rw [h.taken f hf]
      exact hadmits f hf

/-! ## Checks -/

section Checks

variable {α β : Type} {v : Value}

/-- The outcome of a check: it passes with a good value, or nothing is good and the settings are
refused, unless the values are not plain enough for that. -/
def Decides (r : Except Failure α) (good : α → Prop) (plain : Prop) : Prop :=
  (∃ a, r = .ok a ∧ good a)
    ∨ ∃ e, r = .error e ∧ ((∃ fault, e = .config fault) ∧ (∀ a, ¬ good a) ∨ ¬ plain)

theorem decides_refuse {good : α → Prop} (fault : Value → ConfigFault) (h : ∀ a, ¬ good a) :
    Decides (refuse fault v) good (v.isShowable = true) := by
  by_cases hshown : v.isShowable = true
  · exact Or.inr ⟨.config (fault v), if_pos hshown, Or.inl ⟨⟨fault v, rfl⟩, h⟩⟩
  · exact Or.inr ⟨.unshowable, if_neg hshown, Or.inr hshown⟩

/-- Checks follow each other. A value that is good in the end was good at every check. -/
theorem Decides.bind {r : Except Failure α} {next : α → Except Failure β} {good : α → Prop}
    {best : β → Prop} {plain more : Prop} (h : Decides r good plain) (hplain : more → plain)
    (hgood : ∀ b, best b → ∃ a, good a) (hnext : ∀ a, good a → Decides (next a) best more) :
    Decides (r >>= next) best more := by
  rcases h with ⟨a, rfl, ha⟩ | ⟨e, rfl, hwhy⟩
  · exact hnext a ha
  · refine Or.inr ⟨e, rfl, hwhy.imp ?_ ?_⟩
    · rintro ⟨hconfig, hnone⟩
      refine ⟨hconfig, fun b hb => ?_⟩
      obtain ⟨a, ha⟩ := hgood b hb
      exact hnone a ha
    · exact fun hnot hmore => hnot (hplain hmore)

theorem decides_checkCount (v : Value) :
    Decides (checkCount v) (fun n => v = .int n ∧ 1 ≤ n) (v.isShowable = true) := by
  cases v with
  | int n =>
    by_cases h : n < 1
    · rw [checkCount, if_pos h]
      apply decides_refuse
      rintro m ⟨hm, hle⟩
      cases hm
      omega
    · rw [checkCount, if_neg h]
      exact Or.inl ⟨n, rfl, rfl, by omega⟩
  | _ =>
    apply decides_refuse
    rintro m ⟨hm, -⟩
    cases hm

theorem texts?_isSome (items : List Value) :
    (texts? items).isSome = items.all (·.isText) := by
  induction items with
  | nil => rfl
  | cons v items ih =>
    cases v with
    | str s => simp [texts?, Value.wide?, ih, Value.isText, Value.codes?]
    | brokenText codes => simp [texts?, Value.wide?, ih, Value.isText, Value.codes?]
    | _ => rfl

theorem decides_checkPatterns (name : String) (v : Value) :
    Decides (checkPatterns name v) (fun _ => Kind.texts.admits v = true)
      (v.isShowable = true) := by
  cases v with
  | list items =>
    rw [checkPatterns, Kind.admits, ← texts?_isSome]
    cases texts? items with
    | some patterns => exact Or.inl ⟨patterns, rfl, rfl⟩
    | none => exact decides_refuse _ fun _ => Bool.false_ne_true
  | _ => exact decides_refuse _ fun _ => Bool.false_ne_true

theorem decides_checkChoice (v : Value) :
    Decides (checkChoice v) (fun b => v = .bool b) (v.isShowable = true) := by
  cases v with
  | bool b => exact Or.inl ⟨b, rfl, rfl⟩
  | _ => exact decides_refuse _ fun _ => Value.noConfusion

/-- A value that may be looked up as a character set: it can be passed on and be shown. -/
def MayName (v : Value) : Prop :=
  v.isShowable = true ∧ v.isEncodable = true ∧ ∀ s, v = .str s → '\x00' ∉ s.toList

theorem decides_checkCharset (name : String) (v : Value) :
    Decides (checkCharset name v)
      (fun s => v = .str s ∧ (Charset.find? s).isSome = true) (MayName v) := by
  have hrefuse (hnone : ∀ s, ¬ (v = .str s ∧ (Charset.find? s).isSome = true)) :
      Decides (refuse (.charset name) v)
        (fun s => v = .str s ∧ (Charset.find? s).isSome = true) (MayName v) := by
    rcases decides_refuse (.charset name) hnone with hok | ⟨e, he, hwhy⟩
    · exact Or.inl hok
    · exact Or.inr ⟨e, he, hwhy.imp id fun hnot hmay => hnot hmay.1⟩
  cases v with
  | str s =>
    rw [checkCharset]
    split
    · rename_i hnull
      exact Or.inr ⟨_, rfl, Or.inr fun hmay => hmay.2.2 s rfl (List.contains_iff_mem.1 hnull)⟩
    · split
      · rename_i hfind
        exact Or.inl ⟨s, rfl, rfl, hfind⟩
      · rename_i hfind
        apply hrefuse
        rintro s' ⟨hs, hfind'⟩
        cases hs
        exact hfind hfind'
  | brokenText codes => exact Or.inr ⟨_, rfl, Or.inr fun hmay => Bool.false_ne_true hmay.2.1⟩
  | _ => exact hrefuse fun s h => Value.noConfusion h.1

theorem decides_checkReport (v : Value) :
    Decides (checkReport v) (fun w => w = v ∧ v.truthy = true) True := by
  by_cases h : v.truthy = true
  · exact Or.inl ⟨v, if_pos h, rfl, h⟩
  · refine Or.inr ⟨_, if_neg h, Or.inl ⟨⟨_, rfl⟩, ?_⟩⟩
    rintro w ⟨-, htruthy⟩
    exact h htruthy

end Checks

/-- Fields whose checks can only fail for the fields themselves: nothing in the way has to be shown
that cannot be shown, or to be passed on that cannot be passed on. -/
structure IsPlain (fields : List (Value × Value)) : Prop where
  keys : ∀ f ∈ fields, isKnown f.1 = false → f.1.isShowable = true
  shown : ∀ f ∈ checked, (fieldOf fields f.1).isShowable = true
  primary : MayName (fieldOf fields "primary_encoding")
  fallback : MayName (fieldOf fields "fallback_encoding")

/-- Settings are made exactly of fields that pass the checks. -/
theorem decides_ofFields (fields : List (Value × Value)) :
    Decides (ofFields fields) (Fits fields) (IsPlain fields) := by
  rw [ofFields]
  refine (decides_checkCount _).bind (fun h => h.shown ("top_n", .count) (by decide))
    (fun s h => ⟨_, h.count⟩) fun count hcount => ?_
  refine (decides_checkPatterns _ _).bind
    (fun h => h.shown ("include_patterns", .texts) (by decide))
    (fun s h => ⟨[], h.includes⟩) fun includes hincludes => ?_
  refine (decides_checkPatterns _ _).bind
    (fun h => h.shown ("exclude_patterns", .texts) (by decide))
    (fun s h => ⟨[], h.excludes⟩) fun excludes hexcludes => ?_
  refine (decides_checkChoice _).bind
    (fun h => h.shown ("preserve_line_numbers", .truth) (by decide))
    (fun s h => ⟨_, h.choice⟩) fun choice hchoice => ?_
  refine (decides_checkCharset _ _).bind (fun h => h.primary) (fun s h => ⟨_, h.primary⟩)
    fun primary hprimary => ?_
  refine (decides_checkCharset _ _).bind (fun h => h.fallback) (fun s h => ⟨_, h.fallback⟩)
    fun fallback hfallback => ?_
  have hreport (s : Settings) (h : Fits fields s) :
      s.reportJson = fieldOf fields "report_json" :=
    h.taken ("report_json", .text) (by decide)
  refine (decides_checkReport _).bind (fun _ => trivial)
    (fun s h => ⟨s.reportJson, hreport s h, hreport s h ▸ h.report⟩) fun report hreport => ?_
  obtain ⟨rfl, htruthy⟩ := hreport
  refine Or.inl ⟨_, rfl, hcount, hincludes, hexcludes, hchoice, hprimary, hfallback, htruthy, ?_⟩
  simp only [unchecked, List.forall_mem_cons]
  exact ⟨rfl, rfl, rfl, rfl, rfl, rfl, rfl, rfl, rfl, rfl, List.forall_mem_nil _⟩

/-! ## Loading -/

/-- Why settings are not made of fields: the checks say no, or the fields are not plain. -/
def Rejects (fields : List (Value × Value)) (good : Settings → Prop) (e : Failure) : Prop :=
  (∃ fault, e = .config fault) ∧ (∀ settings, ¬ good settings) ∨ ¬ IsPlain fields

theorem ends_logUnknown {good : Settings → Prop} {keys : List Value}
    (h : ∀ k ∈ keys, IsPlain fields → k.isShowable = true) :
    Ends (fun _ => True) (keys.forM logUnknown) (fun _ _ => True)
      (fun e _ => Rejects fields good e) := by
  induction keys with
  | nil => exact ends_pure fun _ _ => trivial
  | cons k keys ih =>
    have hfirst : Ends (fun _ => True) (logUnknown k) (fun _ _ => True)
        (fun e _ => Rejects fields good e) := by
      intro s _
      rw [logUnknown]
      by_cases hshown : k.isShowable = true
      · rw [hshown]
        exact Or.inl ⟨(), _, rfl, trivial⟩
      · refine Or.inr ⟨.unshowable, s, ?_, Or.inr fun hplain => ?_⟩
        · rw [Bool.not_eq_true] at hshown
          rw [hshown]
          rfl
        · exact hshown (h k List.mem_cons_self hplain)
    exact hfirst.bind fun _ => ih fun k hk => h k (List.mem_cons_of_mem _ hk)

/-- Making settings returns those that fit the fields, or says why there are none. -/
theorem ends_make (fields : List (Value × Value)) :
    Ends (fun _ => True) (make fields) (fun settings _ => Fits fields settings)
      (fun e _ => Rejects fields (Fits fields) e) := by
  refine Ends.bind (Q := fun _ _ => True) (ends_logUnknown ?_) fun _ => ?_
  · intro k hk hplain
    obtain ⟨hmem, hunknown⟩ := List.mem_filter.1 hk
    obtain ⟨f, hf, rfl⟩ := List.mem_map.1 hmem
    rw [Bool.not_eq_true'] at hunknown
    exact hplain.keys f hf hunknown
  · intro s _
    rcases decides_ofFields fields with ⟨settings, hmade, hfits⟩ | ⟨e, hmade, hwhy⟩
    · rw [hmade]
      exact Or.inl ⟨settings, s, rfl, hfits⟩
    · rw [hmade]
      exact Or.inr ⟨e, s, rfl, hwhy⟩

/-- The record about a configuration file. -/
def loadRecord (path : String) : Record :=
  ⟨.info, appPhase, "설정 파일 로드: " ++ (Path.parse path).toText⟩

/-- The configuration file holds a mapping, or nothing, which counts as the empty mapping. -/
structure Configures (path : String) (s : Session) (d : Markup.Document) : Prop where
  there : s.files.contains (Path.parse path) = .ok true
  holds : ∃ bytes parsed t,
    (s.log (loadRecord path)).files.read (Path.parse path) = .ok bytes
      ∧ parse path bytes = .ok parsed ∧ documentOf parsed (s.log (loadRecord path)) = .ok d t

/-- The settings fit the fields, and they have a source root. -/
def Loads (fields : List (Value × Value)) (s : Settings) : Prop :=
  Fits fields s ∧ s.sourceRoot.truthy = true

/-- Behind the document, loading makes settings of its fields and asks for a source root. -/
theorem exists_load_eq {path : String} {s : Session} {d : Markup.Document}
    (h : Configures path s d) (overrides : List (String × Value)) :
    ∃ t, load path overrides s
      = (make (fieldsOf (override d overrides)) >>= fun settings =>
          if settings.sourceRoot.truthy then pure settings
          else throw (Failure.config .noSourceRoot)) t := by
  obtain ⟨bytes, parsed, t, hread, hparse, hdocument⟩ := h.holds
  refine ⟨t, ?_⟩
  have hthere : askFiles (·.contains (Path.parse path)) s = .ok true s := askFiles_ok h.there
  have hbytes : askFiles (·.read (Path.parse path)) (s.log (loadRecord path))
      = .ok bytes (s.log (loadRecord path)) :=
    askFiles_ok hread
  have hparsed (u : Session) : ofExcept id (parse path bytes) u = .ok parsed u := by
    rw [hparse]
    rfl
  rw [load, bind_ok hthere, Bool.not_true, if_neg Bool.false_ne_true]
  refine (bind_ok (log_ok _ _ _ s) _).trans ((bind_ok hbytes _).trans ?_)
  exact (bind_ok (hparsed _) _).trans (bind_ok hdocument _)

/-- Loading returns the settings that fit the fields of the configuration and of the overrides, or
says why there are none. -/
theorem ends_load {path : String} {s : Session} {d : Markup.Document} (h : Configures path s d)
    (overrides : List (String × Value)) :
    (∃ settings t, load path overrides s = .ok settings t
      ∧ Loads (fieldsOf (override d overrides)) settings)
    ∨ ∃ e t, load path overrides s = .error e t
      ∧ Rejects (fieldsOf (override d overrides)) (Loads (fieldsOf (override d overrides))) e := by
  obtain ⟨u, hload⟩ := exists_load_eq h overrides
  rw [hload]
  generalize fieldsOf (override d overrides) = fields
  rcases ends_make fields u trivial with ⟨settings, t, hmake, hfits⟩ | ⟨e, t, hmake, hwhy⟩
  · rw [bind_ok hmake]
    by_cases hroot : settings.sourceRoot.truthy = true
    · rw [if_pos hroot]
      exact Or.inl ⟨settings, t, rfl, hfits, hroot⟩
    · rw [if_neg hroot]
      refine Or.inr ⟨_, t, rfl, Or.inl ⟨⟨_, rfl⟩, ?_⟩⟩
      -- All settings that fit the fields have the same source root.
      rintro other ⟨hother, htruthy⟩
      have hsame : other.sourceRoot = settings.sourceRoot :=
        (hother.taken ("source_root", .text) (by decide)).trans
          (hfits.taken ("source_root", .text) (by decide)).symm
      exact hroot (hsame ▸ htruthy)
  · rw [bind_error hmake]
    refine Or.inr ⟨e, t, rfl, hwhy.imp ?_ id⟩
    rintro ⟨hconfig, hnone⟩
    exact ⟨hconfig, fun settings hloads => hnone settings hloads.1⟩

end Settings

end StructAtlas
