import StructAtlas.Proofs.ReportFile
import StructAtlas.Proofs.ShowableNotes

set_option autoImplicit false

/-!
# Reports that cannot be used

A structured form may have many faults, and an import stops at the first one in reading order
(`fault?_ofValue`). Four kinds of faults are those of a malformed report; the others are met where a
value is used without a look at its type: a name that is a list or a mapping, a place list that is a
number or a truth value, and a place that is no text. If names and places have the right types there
are no such faults (`IsTyped.isMalformed`).

The main statement says exactly when loading an existing file answers with a registry or with a
failure of the report.
-/

namespace StructAtlas

namespace Registry

/-! ## Faults in reading order -/

/-- The fault of a reading that fails. -/
def fault? {α : Type} : Except ImportFault α → Option ImportFault
  | .ok _ => none
  | .error fault => some fault

/-- The faults of a place list. -/
def placeFaults (field : Option Value) : List ImportFault :=
  match placeItems field with
  | .ok items => items.filterMap fun v => fault? (readPlace v)
  | .error fault => [fault]

/-- The faults of an item: of its name, of its definitions and of its uses. -/
def itemFaults (index : Nat) (item : Value) : List ImportFault :=
  (fault? (itemName index item)).toList
    ++ (placeFaults (item.field? "definitionFiles") ++ placeFaults (item.field? "usageFiles"))

/-- The faults of items, one after the other. -/
def itemsFaults : Nat → List Value → List ImportFault
  | _, [] => []
  | index, item :: items => itemFaults index item ++ itemsFaults (index + 1) items

/-- All faults of a structured form, in the order in which they are met. -/
def faultsOf (v : Value) : List ImportFault :=
  match itemsOf v with
  | .ok items => itemsFaults 0 items
  | .error fault => [fault]

section First

variable {α β : Type}

theorem fault?_map (f : α → β) (r : Except ImportFault α) : fault? (r.map f) = fault? r := by
  cases r <;> rfl

/-- The first fault of two readings is one of the first reading, if that has one. -/
theorem fault?_bind (r : Except ImportFault α) {next : α → Except ImportFault β}
    {later : Option ImportFault} (h : ∀ a, fault? (next a) = later) :
    fault? (r >>= next) = (fault? r).or later := by
  cases r with
  | error fault => rfl
  | ok a => exact h a

theorem fault?_bind_pure (r : Except ImportFault α) (f : α → β) :
    fault? (r >>= fun a => pure (f a)) = fault? r := by
  cases r <;> rfl

theorem fault?_mapM_readPlace (vs : List Value) :
    fault? (vs.mapM readPlace) = (vs.filterMap fun v => fault? (readPlace v)).head? := by
  induction vs with
  | nil => rfl
  | cons v vs ih =>
    rw [List.mapM_cons, fault?_bind _ fun l => (fault?_bind_pure _ _).trans ih]
    cases hv : fault? (readPlace v) <;> simp [hv]

theorem fault?_readPlaces (field : Option Value) :
    fault? (readPlaces field) = (placeFaults field).head? := by
  rw [readPlaces, placeFaults]
  cases placeItems field with
  | error fault => rfl
  | ok items => exact fault?_mapM_readPlace items

theorem fault?_readEntry (index : Nat) (item : Value) :
    fault? (readEntry index item) = (itemFaults index item).head? := by
  have husages := fun name definitions => fault?_bind_pure (readPlaces (item.field? "usageFiles"))
    fun usages => (⟨name, definitions, usages⟩ : Entry)
  have hdefinitions := fun name =>
    fault?_bind (readPlaces (item.field? "definitionFiles")) (husages name)
  rw [readEntry, fault?_bind _ hdefinitions, fault?_readPlaces, fault?_readPlaces, itemFaults,
    List.head?_append, List.head?_append, Option.head?_toList]

theorem fault?_readEntries (index : Nat) (items : List Value) :
    fault? (readEntries index items) = (itemsFaults index items).head? := by
  induction items generalizing index with
  | nil => rfl
  | cons item items ih =>
    rw [readEntries, fault?_bind _ fun e => fault?_bind_pure _ _, ih, fault?_readEntry, itemsFaults,
      List.head?_append]

/-- An import fails with the first fault. -/
theorem fault?_ofValue (v : Value) : fault? (ofValue v) = (faultsOf v).head? := by
  rw [ofValue_eq, fault?_map, entriesOf, faultsOf]
  cases itemsOf v with
  | error fault => rfl
  | ok items => exact fault?_readEntries 0 items

end First

/-! ## Reports of the right types -/

/-- Place lists that hold texts. What counts as absent is an empty list, a text is the list of its
characters and a mapping the list of its keys. -/
def areTexts (v : Value) : Bool :=
  !v.truthy
    || match v with
      | .list items => items.all (·.codes?.isSome)
      | .map fields => fields.all (·.1.codes?.isSome)
      | v => v.codes?.isSome

/-- Items whose name, where there is one, identifies an entry, and whose places are texts. -/
structure IsTypedItem (item : Value) : Prop where
  name : ∀ v, item.field? "name" = some v → v.truthy = true → (Name.ofValue? v).isSome = true
  definitions : ∀ v, item.field? "definitionFiles" = some v → areTexts v = true
  usages : ∀ v, item.field? "usageFiles" = some v → areTexts v = true

/-- Structured forms that have the right types wherever there is something. -/
def IsTyped (v : Value) : Prop :=
  ∀ items, itemsOf v = .ok items → ∀ item ∈ items, IsTypedItem item

/-- A text that is no place is malformed. -/
theorem isMalformed_of_readPlace {v : Value} (hv : v.codes?.isSome = true) {fault : ImportFault}
    (h : fault? (readPlace v) = some fault) : Report.isMalformed fault = true := by
  -- The values with code points are texts.
  obtain ⟨text, htext⟩ : ∃ text, v.wide? = some text := by
    cases v with
    | str s => exact ⟨_, rfl⟩
    | brokenText codes => exact ⟨_, rfl⟩
    | _ => cases hv
  rw [readPlace, htext] at h
  cases hparse : Location.parse text with
  | ok l =>
    simp only [hparse] at h
    cases h
  | error e =>
    simp only [hparse] at h
    obtain rfl := Option.some.inj h
    rfl

theorem placeItems_of_areTexts {field : Option Value}
    (hfield : ∀ v, field = some v → areTexts v = true) :
    ∃ items, placeItems field = .ok items ∧ ∀ v ∈ items, v.codes?.isSome = true := by
  cases field with
  | none => exact ⟨[], rfl, fun _ h => absurd h List.not_mem_nil⟩
  | some v =>
    have htexts := hfield v rfl
    -- Only a value that counts as present is looked into.
    by_cases htruthy : v.truthy = true
    · simp only [areTexts, htruthy, Bool.not_true, Bool.false_or] at htexts
      simp only [placeItems, htruthy, Bool.not_true, Bool.false_eq_true, ↓reduceIte]
      cases v with
      | list items => exact ⟨items, rfl, List.all_eq_true.1 htexts⟩
      | map fields =>
        refine ⟨_, rfl, fun w hw => ?_⟩
        obtain ⟨f, hf, rfl⟩ := List.mem_map.1 hw
        exact List.all_eq_true.1 htexts f hf
      | str s =>
        refine ⟨_, rfl, fun w hw => ?_⟩
        obtain ⟨c, -, rfl⟩ := List.mem_map.1 hw
        rfl
      | brokenText codes =>
        refine ⟨_, rfl, fun w hw => ?_⟩
        obtain ⟨n, -, rfl⟩ := List.mem_map.1 hw
        rw [Value.codes?_ofCodes]
        rfl
      | _ => cases htexts
    · exact ⟨[], by simp [placeItems, htruthy], fun _ h => absurd h List.not_mem_nil⟩

theorem isMalformed_of_mem_placeFaults {field : Option Value}
    (hfield : ∀ v, field = some v → areTexts v = true) {fault : ImportFault}
    (h : fault ∈ placeFaults field) : Report.isMalformed fault = true := by
  obtain ⟨items, hitems, htexts⟩ := placeItems_of_areTexts hfield
  rw [placeFaults, hitems] at h
  obtain ⟨v, hv, hfault⟩ := List.mem_filterMap.1 h
  exact isMalformed_of_readPlace (htexts v hv) hfault

theorem IsTypedItem.isMalformed {index : Nat} {item : Value} (hitem : IsTypedItem item)
    {fault : ImportFault} (h : fault ∈ itemFaults index item) :
    Report.isMalformed fault = true := by
  rcases List.mem_append.1 h with h | h
  · have hfault : fault? (itemName index item) = some fault := by simpa using h
    unfold itemName at hfault
    split at hfault
    · rename_i v hfield
      split at hfault
      · obtain rfl := Option.some.inj hfault
        rfl
      · rename_i htruthy
        have hname := hitem.name v hfield (by simpa using htruthy)
        split at hfault
        · cases hfault
        · rename_i hnone
          rw [hnone] at hname
          cases hname
    · obtain rfl := Option.some.inj hfault
      rfl
  · rcases List.mem_append.1 h with h | h
    · exact isMalformed_of_mem_placeFaults hitem.definitions h
    · exact isMalformed_of_mem_placeFaults hitem.usages h

theorem isMalformed_of_mem_itemsFaults {index : Nat} {items : List Value}
    (hitems : ∀ item ∈ items, IsTypedItem item) {fault : ImportFault}
    (h : fault ∈ itemsFaults index items) : Report.isMalformed fault = true := by
  induction items generalizing index with
  | nil => cases h
  | cons item items ih =>
    rcases List.mem_append.1 h with h | h
    · exact (hitems item List.mem_cons_self).isMalformed h
    · exact ih (fun item hitem => hitems item (List.mem_cons_of_mem _ hitem)) h

theorem isMalformed_of_itemsOf {v : Value} {fault : ImportFault} (h : itemsOf v = .error fault) :
    Report.isMalformed fault = true := by
  unfold itemsOf at h
  split at h
  · cases h
  · obtain rfl := Except.error.inj h
    rfl

/-- All faults of a form of the right types are those of a malformed report. -/
theorem IsTyped.isMalformed {v : Value} (hv : IsTyped v) {fault : ImportFault}
    (h : fault ∈ faultsOf v) : Report.isMalformed fault = true := by
  rw [faultsOf] at h
  split at h
  · rename_i items hitems
    exact isMalformed_of_mem_itemsFaults (hv items hitems) h
  · rename_i hitems
    obtain rfl := List.mem_singleton.1 h
    exact isMalformed_of_itemsOf hitems

end Registry

/-! ## What a caller sees -/

/-- The operation returns, or fails with a failure of this kind. -/
def Act.Answers {α : Type} (act : Act α) (s : Session) (kind : String) : Prop :=
  (∃ a t, act s = .ok a t) ∨ ∃ e t, act s = .error e t ∧ e.kindName = kind

section Answers

variable {α : Type} {act : Act α} {s t : Session}

theorem Act.answers_of_ok {a : α} (h : act s = .ok a t) (kind : String) : act.Answers s kind :=
  Or.inl ⟨a, t, h⟩

theorem Act.answers_iff_of_error {e : Failure} (h : act s = .error e t) {kind : String} :
    act.Answers s kind ↔ e.kindName = kind := by
  constructor
  · rintro (⟨a, u, hok⟩ | ⟨e', u, herror, hkind⟩)
    · rw [h] at hok
      cases hok
    · rw [h] at herror
      cases herror
      exact hkind
  · exact fun hkind => Or.inr ⟨e, t, h, hkind⟩

end Answers

namespace Report

variable {path : Path} {s : Session}

theorem isMalformed_iff {fault : ImportFault} :
    isMalformed fault = true ↔ Failure.contentKind fault = "ValueError" := by
  cases fault <;> simp [isMalformed, Failure.contentKind]

theorem logNote_ok {note : CountMismatch} (h : note.isShowable = true) (s : Session) :
    logNote note s = .ok () (s.log ⟨.debug, appPhase, note.message⟩) := by
  simp only [logNote, h]
  rfl

theorem logNote_error {note : CountMismatch} (h : note.isShowable = false) (s : Session) :
    logNote note s = .error .unshowable s := by
  simp only [logNote, h]
  rfl

/-- Notes are logged up to the first one that cannot be shown. -/
theorem forM_logNote (notes : List CountMismatch) (s : Session) :
    ((∀ note ∈ notes, note.isShowable = true) ∧ ∃ t, notes.forM logNote s = .ok () t)
      ∨ (∃ note ∈ notes, note.isShowable = false)
        ∧ ∃ t, notes.forM logNote s = .error .unshowable t := by
  induction notes generalizing s with
  | nil => exact Or.inl ⟨fun _ h => absurd h List.not_mem_nil, s, rfl⟩
  | cons note notes ih =>
    have hcons : (note :: notes).forM logNote = (logNote note >>= fun _ => notes.forM logNote) :=
      rfl
    cases hnote : note.isShowable with
    | false =>
      refine Or.inr ⟨⟨note, List.mem_cons_self, hnote⟩, s, ?_⟩
      rw [hcons]
      exact Act.bind_error (logNote_error hnote s) _
    | true =>
      rw [hcons, Act.bind_ok (logNote_ok hnote s)]
      rcases ih (s.log ⟨.debug, appPhase, note.message⟩) with ⟨hall, hrun⟩ | ⟨hsome, hrun⟩
      · exact Or.inl ⟨List.forall_mem_cons.2 ⟨hnote, hall⟩, hrun⟩
      · obtain ⟨other, hother, hfalse⟩ := hsome
        exact Or.inr ⟨⟨other, List.mem_cons_of_mem _ hother, hfalse⟩, hrun⟩

/-- What reading a value comes to: an unshowable note stops it, and otherwise the import decides. -/
theorem readValue_cases (v : Value) (s : Session) :
    ((∃ note ∈ (Registry.readValue v).1, note.isShowable = false)
        ∧ ∃ t, readValue v s = .error .unshowable t)
      ∨ (∀ note ∈ (Registry.readValue v).1, note.isShowable = true)
        ∧ ∃ t, readValue v s = (match Registry.ofValue v with
          | .ok r => .ok r t
          | .error fault => .error (.content fault) t) := by
  have hread : readValue v = ((Registry.readValue v).1.forM logNote >>= fun _ =>
      Act.ofExcept .content (Registry.ofValue v)) := rfl
  rw [hread]
  rcases forM_logNote (Registry.readValue v).1 s with ⟨hall, t, hrun⟩ | ⟨hsome, t, hrun⟩
  · refine Or.inr ⟨hall, t, ?_⟩
    rw [Act.bind_ok hrun]
    cases Registry.ofValue v <;> rfl
  · exact Or.inl ⟨hsome, t, Act.bind_error hrun _⟩

/-- The first fault of a value is one of a malformed report, if there is one. -/
def IsBlamed (v : Value) : Prop :=
  ∀ fault ∈ (Registry.faultsOf v).head?, isMalformed fault = true

theorem isBlamed_iff {v : Value} :
    IsBlamed v ↔ ∀ fault, Registry.ofValue v = .error fault → isMalformed fault = true := by
  rw [IsBlamed, ← Registry.fault?_ofValue]
  cases Registry.ofValue v <;> simp [Registry.fault?]

theorem answers_readValue (v : Value) (s : Session) :
    (readValue v).Answers s "ValueError"
      ↔ (∃ note ∈ (Registry.readValue v).1, note.isShowable = false) ∨ IsBlamed v := by
  rcases readValue_cases v s with ⟨hsome, t, hrun⟩ | ⟨hall, t, hrun⟩
  · rw [Act.answers_iff_of_error hrun]
    exact ⟨fun _ => Or.inl hsome, fun _ => rfl⟩
  · have hnone : ¬ ∃ note ∈ (Registry.readValue v).1, note.isShowable = false := by
      rintro ⟨note, hnote, hfalse⟩
      rw [hall note hnote] at hfalse
      cases hfalse
    rw [or_iff_right hnone, isBlamed_iff]
    cases hof : Registry.ofValue v with
    | ok r =>
      rw [hof] at hrun
      exact ⟨fun _ fault h => (nomatch h), fun _ => Act.answers_of_ok hrun _⟩
    | error fault =>
      rw [hof] at hrun
      rw [Act.answers_iff_of_error hrun]
      constructor
      · intro hkind other hother
        obtain rfl := Except.error.inj hother
        exact isMalformed_iff.2 hkind
      · exact fun h => isMalformed_iff.1 (h fault rfl)

theorem load_error {e : Failure} {t : Session} (hcontains : s.files.contains path = .ok true)
    (hfile : readFile path s = .error e t) : load path s = .error (blame path e) t := by
  rw [load, Act.bind_ok (Act.askFiles_ok hcontains)]
  simp only [Bool.not_true, Bool.false_eq_true, ↓reduceIte]
  rw [Act.bind_ok (Act.attempt_error hfile)]
  rfl

/-- Only a fault of a malformed report is one of the report to the caller. -/
theorem kindName_blame (path : Path) (fault : ImportFault) :
    (blame path (.content fault)).kindName = "ReportError" ↔ isMalformed fault = true := by
  cases fault <;> simp [blame, isMalformed, Failure.kindName, Failure.contentKind]

section File

variable {bytes : List UInt8} (hread : s.files.read path = .ok bytes)
include hread

theorem readFile_of_tooDeep (hparse : parse bytes = .error (.json .tooDeep)) :
    readFile path s = .error .tooDeep s := by
  rw [readFile, Act.bind_ok (Act.askFiles_ok hread), hparse]
  rfl

theorem readFile_of_error {fault : ReportFault} (hparse : parse bytes = .error fault)
    (hfault : fault ≠ .json .tooDeep) : readFile path s = .error (.report path fault) s := by
  rw [readFile, Act.bind_ok (Act.askFiles_ok hread), hparse]
  cases fault with
  | json fault =>
    cases fault with
    | tooDeep => exact absurd rfl hfault
    | _ => rfl
  | _ => rfl

omit hread in
/-- No count of a file is too long to be shown. -/
theorem isShowable_of_mem_notes {v : Value} (hparse : parse bytes = .ok v) :
    ∀ note ∈ (Registry.readValue v).1, note.isShowable = true := by
  rw [parse] at hparse
  split at hparse
  · cases hparse
  · rename_i text _
    cases hjson : Json.parse text with
    | error fault =>
      rw [hjson] at hparse
      cases hparse
    | ok w =>
      rw [hjson] at hparse
      obtain rfl := Except.ok.inj hparse
      exact fun _ => Registry.isShowable_of_mem_notes (Json.isShowable_parse hjson)

/-- A value that was read from a file is imported, and the import decides. -/
theorem readFile_of_parse {v : Value} (hparse : parse bytes = .ok v) :
    ∃ t, readFile path s = (match Registry.ofValue v with
      | .ok r => .ok r t
      | .error fault => .error (.content fault) t) := by
  rw [readFile, Act.bind_ok (Act.askFiles_ok hread), hparse]
  -- A count that was read from digits can be shown, so no note stops the import.
  rcases readValue_cases v s with ⟨⟨note, hnote, hfalse⟩, -⟩ | ⟨-, hrun⟩
  · rw [isShowable_of_mem_notes hparse note hnote] at hfalse
    cases hfalse
  · exact hrun

theorem load_of_fault {v : Value} {fault : ImportFault} (hparse : parse bytes = .ok v)
    (hof : Registry.ofValue v = .error fault) :
    ∃ t, load path s = .error (blame path (.content fault)) t := by
  obtain ⟨t, hfile⟩ := readFile_of_parse hread hparse
  rw [hof] at hfile
  exact ⟨t, load_error (FileTree.contains_of_read hread) hfile⟩

/-- What loading an existing file comes to. -/
theorem load_cases :
    (parse bytes = .error (.json .tooDeep) ∧ ∃ t, load path s = .error .tooDeep t)
      ∨ (∃ fault t, parse bytes = .error fault ∧ fault ≠ .json .tooDeep
          ∧ load path s = .error (.report path fault) t)
      ∨ (∃ v r t, parse bytes = .ok v ∧ Registry.ofValue v = .ok r ∧ load path s = .ok r t)
      ∨ ∃ v fault t, parse bytes = .ok v ∧ Registry.ofValue v = .error fault
          ∧ load path s = .error (blame path (.content fault)) t := by
  have hcontains := FileTree.contains_of_read hread
  cases hparse : parse bytes with
  | error fault =>
    by_cases hfault : fault = .json .tooDeep
    · subst hfault
      exact Or.inl ⟨rfl, s, load_error hcontains (readFile_of_tooDeep hread hparse)⟩
    · have hfile := readFile_of_error hread hparse hfault
      exact Or.inr (Or.inl ⟨fault, s, rfl, hfault, load_error hcontains hfile⟩)
  | ok v =>
    refine Or.inr (Or.inr ?_)
    cases hof : Registry.ofValue v with
    | ok r =>
      obtain ⟨t, hfile⟩ := readFile_of_parse hread hparse
      rw [hof] at hfile
      obtain ⟨u, hload⟩ := load_ok hcontains hfile
      exact Or.inl ⟨v, r, u, rfl, hof, hload⟩
    | error fault =>
      obtain ⟨t, hload⟩ := load_of_fault hread hparse hof
      exact Or.inr ⟨v, fault, t, rfl, hof, hload⟩

theorem answers_load :
    (load path).Answers s "ReportError"
      ↔ parse bytes ≠ .error (.json .tooDeep) ∧ ∀ v, parse bytes = .ok v → IsBlamed v := by
  rcases load_cases hread with ⟨hparse, t, hload⟩ | ⟨fault, t, hparse, hfault, hload⟩
    | ⟨v, r, t, hparse, hof, hload⟩ | ⟨v, fault, t, hparse, hof, hload⟩
  · rw [Act.answers_iff_of_error hload, hparse]
    simp [Failure.kindName]
  · rw [Act.answers_iff_of_error hload, hparse]
    simp [Failure.kindName, hfault]
  · have hblamed : IsBlamed v := isBlamed_iff.2 fun fault h => by simp [hof] at h
    exact iff_of_true (Act.answers_of_ok hload _) (by simp [hparse, hblamed])
  · have hblamed : IsBlamed v ↔ isMalformed fault = true := by simp [isBlamed_iff, hof]
    rw [Act.answers_iff_of_error hload, kindName_blame, hparse]
    simp [hblamed]

theorem kindName_of_load {e : Failure} {t : Session} (h : load path s = .error e t) :
    e.kindName ∈ ["ReportError", "RecursionError", "TypeError", "AttributeError"] := by
  rcases load_cases hread with ⟨-, u, hload⟩ | ⟨fault, u, -, -, hload⟩ | ⟨v, r, u, -, -, hload⟩
    | ⟨v, fault, u, -, -, hload⟩ <;> rw [h] at hload <;> cases hload
  · simp [Failure.kindName]
  · simp [Failure.kindName]
  · cases fault <;> simp [blame, isMalformed, Failure.kindName, Failure.contentKind]

/-- Loading an existing file answers with a registry or with a failure of the report exactly if
nesting does not stop it and the first fault that is met is one of a malformed report, which is so
if names and places have the right types. The failures that get through are of three kinds. Reading
a value is the same with failures of values, and a note that cannot be shown is one of those. -/
theorem existing_reports_answer :
    ((load path).Answers s "ReportError"
        ↔ parse bytes ≠ .error (.json .tooDeep) ∧ ∀ v, parse bytes = .ok v → IsBlamed v)
      ∧ (∀ e t, load path s = .error e t →
          e.kindName ∈ ["ReportError", "RecursionError", "TypeError", "AttributeError"])
      ∧ (∀ v s, (readValue v).Answers s "ValueError"
          ↔ (∃ note ∈ (Registry.readValue v).1, note.isShowable = false) ∨ IsBlamed v)
      ∧ ∀ v, Registry.IsTyped v → IsBlamed v :=
  ⟨answers_load hread, fun _ _ => kindName_of_load hread, answers_readValue,
    fun _ hv _ hfault => hv.isMalformed (List.mem_of_mem_head? hfault)⟩

end File

/-- The value of a report about one struct with one definition. -/
def oneDefinition (place : Value) : Value :=
  .record [("definitions", .list [
    .record [("name", .str "A"), ("definitionFiles", .list [place])]])]

/-- A session in which the file `report.json` holds the text of a value. -/
def reportSession (v : Value) : Session :=
  .start (.put .empty ["report.json"]
    (.file (Charset.Utf8.bytesOf (String.ofList (Json.indented v))))) (Journal.empty ⟨"", "", ""⟩)

theorem read_reportSession (v : Value) :
    (reportSession v).files.read ⟨"", ["report.json"]⟩
      = .ok (Charset.Utf8.bytesOf (String.ofList (Json.indented v))) :=
  rfl

theorem parse_oneDefinition {place : Value} (h : Json.Plain 984 place) :
    parse (Charset.Utf8.bytesOf (String.ofList (Json.indented (oneDefinition place))))
      = .ok (oneDefinition place) := by
  apply parse_indented
  refine .record (by simp) fun f hf => ?_
  obtain rfl := List.mem_singleton.1 hf
  refine .list fun v hv => ?_
  obtain rfl := List.mem_singleton.1 hv
  refine .record (by simp) fun f hf => ?_
  simp only [List.mem_cons, List.not_mem_nil, or_false] at hf
  rcases hf with rfl | rfl
  · exact .text _ _
  · refine .list fun w hw => ?_
    obtain rfl := List.mem_singleton.1 hw
    exact h

/-- A place without a line number is a fault of the report. -/
theorem missing_line_is_blamed :
    (load ⟨"", ["report.json"]⟩).Answers (reportSession (oneDefinition (.str "a.h")))
      "ReportError" := by
  have hparse := parse_oneDefinition (.text 984 "a.h")
  have hof : Registry.ofValue (oneDefinition (.str "a.h"))
      = .error (.place (.malformed "a.h")) := by
    rfl
  apply (existing_reports_answer (read_reportSession _)).1.2
  rw [hparse]
  refine ⟨fun h => (by cases h), fun w hw => ?_⟩
  obtain rfl := Except.ok.inj hw
  rw [isBlamed_iff, hof]
  rintro fault h
  obtain rfl := Except.error.inj h
  rfl

/-- A number among the places is none, and it gets through. -/
theorem number_place_gets_through :
    (∃ t, load ⟨"", ["report.json"]⟩ (reportSession (oneDefinition (.int 5)))
        = .error (.content .placeNotText) t)
      ∧ (Failure.content .placeNotText).kindName = "AttributeError"
      ∧ ¬ (load ⟨"", ["report.json"]⟩).Answers (reportSession (oneDefinition (.int 5)))
        "ReportError" := by
  have hplain : Json.Plain 984 (.int 5) := .number 984 (n := 5) (by decide)
  have hof : Registry.ofValue (oneDefinition (.int 5)) = .error .placeNotText := by
    rfl
  obtain ⟨t, hload⟩ := load_of_fault (read_reportSession _) (parse_oneDefinition hplain) hof
  refine ⟨⟨t, hload⟩, rfl, ?_⟩
  rw [Act.answers_iff_of_error hload]
  decide

end Report

end StructAtlas
