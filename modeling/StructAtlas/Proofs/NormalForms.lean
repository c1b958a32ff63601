import StructAtlas.Proofs.ImportReading
import StructAtlas.Registry.Export

set_option autoImplicit false

/-!
# Normal forms of registries

A registry is a normal form if its names are different texts and the places of every name are
different and can be read back (`Registry.IsCanonical`). Such a registry is entered as it is
(`IsCanonical.foldl_enter`), so it is read back from its structured form, and no count is corrected
(`IsCanonical.readValue_toValue`).

The main statement says that every import of texts ends in a normal form, which one it is, and that
writing and reading it again changes nothing.
-/

namespace StructAtlas

/-- An entry that is read back as it is. -/
structure Entry.IsCanonical (e : Entry) : Prop where
  name : e.name.toValue.truthy = true
  definitions : ArePlaces e.definitions
  usages : ArePlaces e.usages

namespace Registry

/-- Different texts as names, and different places of each that can be read back. -/
structure IsCanonical (r : Registry) : Prop extends r.IsTextual where
  entries : ∀ e ∈ r.entries, e.IsCanonical

theorem IsTextual.ext {r r' : Registry} (h : r.IsTextual) (h' : r'.IsTextual)
    (hnames : r.names = r'.names) (hdefinitions : ∀ n, r.definitionsOf n = r'.definitionsOf n)
    (husages : ∀ n, r.usagesOf n = r'.usagesOf n) : r = r' := by
  have hentries : r.entries = r'.entries := by
    rw [h.entries_eq, h'.entries_eq, hnames]
    simp only [hdefinitions, husages]
  cases r
  cases r'
  exact congrArg Registry.mk hentries

/-- The entry of a name is the only one that lists places for it. -/
theorem IsTextual.listed_eq {r : Registry} (h : r.IsTextual) (places : Entry → List Location)
    (n : Name) : listed places n r.entries = ((r.get? n).map places).getD [] := by
  obtain ⟨es⟩ := r
  induction es with
  | nil => rfl
  | cons e es ih =>
    have hname : e.name.isText = true := h.isText e.name List.mem_cons_self
    obtain ⟨hnot, hnodup⟩ := List.nodup_cons.1 h.nodup
    have hrest : Registry.IsTextual ⟨es⟩ :=
      ⟨hnodup, fun m hm => h.isText m (List.mem_cons_of_mem _ hm)⟩
    simp only [listed_cons, get?, List.find?_cons]
    by_cases hn : n = e.name
    · subst hn
      -- No entry behind this one has the same name.
      have hnone : listed places e.name es = [] := by
        rw [listed, List.filter_eq_nil_iff.2, List.flatMap_nil]
        intro e' he' hsame
        have hsame : e'.name = e.name := by simpa using hsame
        exact hnot (List.mem_map.2 ⟨e', he', hsame⟩)
      have hself : e.name.same e.name = true := (Name.same_iff_of_isText hname).2 rfl
      simp [hnone, hself]
    · have hdiff : e.name.same n = false := by
        rw [Bool.eq_false_iff]
        exact fun hsame => hn ((Name.same_iff_of_isText_left hname).1 hsame).symm
      rw [if_neg hn, hdiff, List.nil_append]
      exact ih hrest

section Canonical

variable {r : Registry}

theorem IsCanonical.definitionsOf (h : r.IsCanonical) (n : Name) :
    ArePlaces (r.definitionsOf n) := by
  rw [Registry.definitionsOf]
  cases hget : r.get? n with
  | none => exact arePlaces_nil
  | some e => exact (h.entries e (List.mem_of_find?_eq_some hget)).definitions

theorem IsCanonical.usagesOf (h : r.IsCanonical) (n : Name) : ArePlaces (r.usagesOf n) := by
  rw [Registry.usagesOf]
  cases hget : r.get? n with
  | none => exact arePlaces_nil
  | some e => exact (h.entries e (List.mem_of_find?_eq_some hget)).usages

theorem isTextual_foldl_enter {es : List Entry} (hes : ∀ e ∈ es, e.name.isText = true) :
    (es.foldl enter empty).IsTextual := by
  have hnames := names_foldl_enter hes empty
  refine ⟨hnames ▸ nodup_extend List.nodup_nil _, fun n hn => ?_⟩
  rw [hnames] at hn
  rcases mem_extend.1 hn with hold | hnew
  · cases hold
  · obtain ⟨e, he, rfl⟩ := List.mem_map.1 hnew
    exact hes e he

/-- A normal form is entered as it is. -/
theorem IsCanonical.foldl_enter (h : r.IsCanonical) : r.entries.foldl enter empty = r := by
  have hes : ∀ e ∈ r.entries, e.name.isText = true :=
    fun e he => h.isText e.name (List.mem_map.2 ⟨e, he, rfl⟩)
  have hnone : ∀ {α : Type} (a : α), a ∉ ([] : List α) := fun _ => List.not_mem_nil
  refine (isTextual_foldl_enter hes).ext h.toIsTextual ?_ ?_ ?_
  · rw [names_foldl_enter hes]
    exact (extend_of_nodup (fun n _ => hnone n) h.nodup).trans (List.nil_append _)
  · intro n
    rw [definitionsOf_foldl_enter hes, h.toIsTextual.listed_eq]
    exact (extend_of_nodup (fun l _ => hnone l) (h.definitionsOf n).nodup).trans
      (List.nil_append _)
  · intro n
    rw [usagesOf_foldl_enter hes, h.toIsTextual.listed_eq]
    exact (extend_of_nodup (fun l _ => hnone l) (h.usagesOf n).nodup).trans (List.nil_append _)

/-- The first entries of a normal form are one. -/
theorem IsCanonical.of_append {es more : List Entry} (h : IsCanonical ⟨es ++ more⟩) :
    IsCanonical ⟨es⟩ := by
  have hnames : (Registry.mk (es ++ more)).names
      = (Registry.mk es).names ++ (Registry.mk more).names :=
    List.map_append
  refine ⟨⟨?_, ?_⟩, fun e he => h.entries e (List.mem_append_left _ he)⟩
  · have hnodup := h.nodup
    rw [hnames] at hnodup
    exact (List.nodup_append.1 hnodup).1
  · intro n hn
    exact h.isText n (hnames ▸ List.mem_append_left _ hn)

end Canonical

end Registry

/-! ## Reading back -/

theorem Value.field?_record (fields : List (String × Value)) (k : String) :
    (record fields).field? k = (fields.find? (·.1 == k)).map (·.2) := by
  have hsame : ∀ f : String × Value, (Value.str f.1).same (.str k) = (f.1 == k) := by
    intro f
    simp [same, sameAtom]
  simp only [record, field?, findField?, List.find?_map, Function.comp_def, hsame, Option.map_map]

theorem Entry.field?_toValue (e : Entry) :
    e.toValue.field? "name" = some e.name.toValue
      ∧ e.toValue.field? "count" = some (.int e.total)
      ∧ e.toValue.field? "definitionFiles" = some (.texts (e.definitions.map Location.toText))
      ∧ e.toValue.field? "usageFiles" = some (.texts (e.usages.map Location.toText)) := by
  simp only [toValue, Value.field?_record]
  exact ⟨rfl, rfl, rfl, rfl⟩

namespace Registry

theorem itemsOf_toValue (r : Registry) : itemsOf r.toValue = .ok (r.entries.map Entry.toValue) := by
  rw [itemsOf, toValue, Value.field?_record]
  rfl

theorem readPlace_ofWide (text : WideText) :
    readPlace (.ofWide text) = (Location.parse text).mapError .place := by
  cases text with
  | plain s => rfl
  | broken codes h =>
    have hcodes : WideText.ofCodes codes = .broken codes h :=
      WideText.ofCodes_codes (.broken codes h)
    simp only [Value.ofWide, readPlace, Value.wide?, hcodes]

theorem readPlaces_texts {places : List Location} (h : ArePlaces places) :
    readPlaces (some (.texts (places.map Location.toText))) = .ok places := by
  have hitems : placeItems (some (.texts (places.map Location.toText)))
      = .ok ((places.map Location.toText).map .ofWide) := by
    cases places <;> rfl
  have hwritable := h.writable
  rw [readPlaces, hitems]
  change ((places.map Location.toText).map Value.ofWide).mapM readPlace = .ok places
  clear h hitems
  induction places with
  | nil => rfl
  | cons l places ih =>
    have hl : readPlace (.ofWide l.toText) = .ok l := by
      rw [readPlace_ofWide, Location.parse_toText (hwritable l List.mem_cons_self)]
      rfl
    rw [List.map_cons, List.map_cons, List.mapM_cons, hl,
      ih fun m hm => hwritable m (List.mem_cons_of_mem _ hm)]
    rfl

theorem readEntry_toValue {e : Entry} (h : e.IsCanonical) (index : Nat) :
    readEntry index e.toValue = .ok e := by
  obtain ⟨hname, -, hdefinitions, husages⟩ := Entry.field?_toValue e
  have hitem : itemName index e.toValue = .ok e.name := by
    simp only [itemName, hname, h.name, Bool.not_true, Bool.false_eq_true, ↓reduceIte,
      Name.ofValue?_toValue]
  rw [readEntry, hitem, hdefinitions, husages, readPlaces_texts h.definitions,
    readPlaces_texts h.usages]
  rfl

/-- The stored count of an entry is the number of its places. -/
theorem IsTextual.countNote_toValue {r : Registry} (h : r.IsTextual) {e : Entry}
    (he : e ∈ r.entries) : countNote e.toValue e.name r = [] := by
  have hsame : (Value.int e.total).same (.int e.total) = true := by
    simp [Value.same, Value.sameAtom, Value.whole?]
  rw [countNote, (Entry.field?_toValue e).2.1]
  simp only [totalOf, h.get?_of_mem he, hsame]
  rfl

/-- The rest of the entries of a normal form is read back behind the first ones. -/
theorem IsCanonical.addItems_toValue {done es : List Entry} (h : IsCanonical ⟨done ++ es⟩)
    (index : Nat) :
    addItems index (es.map Entry.toValue) ⟨done⟩ = ([], .ok ⟨done ++ es⟩) := by
  induction es generalizing done index with
  | nil => simp [addItems]
  | cons e es ih =>
    have hsplit : done ++ e :: es = done ++ [e] ++ es := by simp
    rw [hsplit] at h ⊢
    have hdone : IsCanonical ⟨done ++ [e]⟩ := h.of_append
    have he : e ∈ (Registry.mk (done ++ [e])).entries :=
      List.mem_append_right _ (List.mem_singleton_self e)
    -- Both the first entries and those with one more are entered as they are.
    have henter : (Registry.mk done).enter e = ⟨done ++ [e]⟩ := by
      have hlast := hdone.foldl_enter
      rw [List.foldl_append, hdone.of_append.foldl_enter] at hlast
      exact hlast
    rw [List.map_cons, addItems, addItem_eq, readEntry_toValue (hdone.entries e he)]
    simp only [Except.map, henter, hdone.toIsTextual.countNote_toValue he, ih h, List.nil_append]

/-- A normal form is read back from its structured form, and no count is corrected. -/
theorem IsCanonical.readValue_toValue {r : Registry} (h : r.IsCanonical) :
    readValue r.toValue = ([], .ok r) := by
  rw [readValue, itemsOf_toValue]
  exact IsCanonical.addItems_toValue (show IsCanonical ⟨[] ++ r.entries⟩ from h) 0

/-- The items of a structured form have texts as names. -/
def HasTextNames (v : Value) : Prop :=
  ∀ items, itemsOf v = .ok items → ∀ item ∈ items, ∀ name, item.field? "name" = some name →
    name.codes?.isSome = true

section Imported

variable {v : Value} {said : List Entry}

theorem HasTextNames.isText (hnames : HasTextNames v) (h : entriesOf v = .ok said) :
    ∀ e ∈ said, e.name.isText = true := by
  obtain ⟨items, hitems, h⟩ := exists_of_bind_ok h
  intro e he
  obtain ⟨⟨item, hitem, hfield⟩, -⟩ := readEntries_eq_ok h e he
  exact hnames items hitems item hitem _ hfield

/-- An import of texts gives a normal form. -/
theorem isCanonical_of_entriesOf (hnames : HasTextNames v) (h : entriesOf v = .ok said) :
    (said.foldl enter empty).IsCanonical := by
  have htext := hnames.isText h
  have htextual := isTextual_foldl_enter htext
  obtain ⟨items, -, hread⟩ := exists_of_bind_ok h
  have hlegible := readEntries_eq_ok hread
  refine ⟨htextual, fun e he => ⟨?_, ?_, ?_⟩⟩
  · -- The name is that of an item.
    have hmem : e.name ∈ (said.foldl enter empty).names := List.mem_map.2 ⟨e, he, rfl⟩
    rw [names_foldl_enter htext] at hmem
    rcases mem_extend.1 hmem with hold | hnew
    · cases hold
    · obtain ⟨e', he', hname⟩ := List.mem_map.1 hnew
      exact hname ▸ (hlegible e' he').2.1
  · have hdefinitions : e.definitions = (said.foldl enter empty).definitionsOf e.name := by
      rw [definitionsOf, htextual.get?_of_mem he]
      rfl
    rw [hdefinitions, definitionsOf_foldl_enter htext]
    refine ⟨nodup_extend List.nodup_nil _, fun l hl => ?_⟩
    rcases mem_extend.1 hl with hold | hnew
    · cases hold
    · obtain ⟨e', he', hl⟩ := mem_listed hnew
      exact (hlegible e' he').2.2.1 l hl
  · have husages : e.usages = (said.foldl enter empty).usagesOf e.name := by
      rw [usagesOf, htextual.get?_of_mem he]
      rfl
    rw [husages, usagesOf_foldl_enter htext]
    refine ⟨nodup_extend List.nodup_nil _, fun l hl => ?_⟩
    rcases mem_extend.1 hl with hold | hnew
    · cases hold
    · obtain ⟨e', he', hl⟩ := mem_listed hnew
      exact (hlegible e' he').2.2.2 l hl

end Imported

/-- **An import is a normal form.** Let a structured form have texts as names, and let it be read
into a registry. The names are those of its items in the order in which they first occur, each once;
the places of a name are those that the items of this name list, again each once and in the order in
which they first occur, where places are compared after they were read. The registry is written with
counts that are the numbers of its places, and from what is written the same registry is read again,
without a correction, and is written the same way again. -/
theorem import_is_normal_form {v : Value} {r : Registry} (hnames : HasTextNames v)
    (h : ofValue v = .ok r) :
    (∃ said, entriesOf v = .ok said
        ∧ r.names = (said.map (·.name)).eraseDups
        ∧ (∀ n, r.definitionsOf n = (listed (·.definitions) n said).eraseDups)
        ∧ (∀ n, r.usagesOf n = (listed (·.usages) n said).eraseDups)
        ∧ r.entries = r.names.map fun n => ⟨n, r.definitionsOf n, r.usagesOf n⟩)
      ∧ (r.names.Nodup ∧ ∀ e ∈ r.entries, e.definitions.Nodup ∧ e.usages.Nodup)
      ∧ (∃ items, itemsOf r.toValue = .ok items
        ∧ ∀ item ∈ items, ∃ definitions usages : List WideText,
          item.field? "definitionFiles" = some (.texts definitions)
            ∧ item.field? "usageFiles" = some (.texts usages)
            ∧ item.field? "count" = some (.int (definitions.length + usages.length)))
      ∧ readValue r.toValue = ([], .ok r)
      ∧ (ofValue r.toValue).map toValue = .ok r.toValue := by
  rw [ofValue_eq] at h
  cases hsaid : entriesOf v with
  | error fault =>
    rw [hsaid] at h
    cases h
  | ok said =>
    rw [hsaid] at h
    obtain rfl : said.foldl enter empty = r := Except.ok.inj h
    have htext := hnames.isText hsaid
    have hcanonical := isCanonical_of_entriesOf hnames hsaid
    have hback := hcanonical.readValue_toValue
    refine ⟨⟨said, rfl, ?_, ?_, ?_, hcanonical.toIsTextual.entries_eq⟩,
      ⟨hcanonical.nodup, fun e he => ?_⟩, ⟨_, itemsOf_toValue _, ?_⟩, hback, ?_⟩
    · rw [names_foldl_enter htext]
      exact extend_nil_left _
    · intro n
      rw [definitionsOf_foldl_enter htext]
      exact extend_nil_left _
    · intro n
      rw [usagesOf_foldl_enter htext]
      exact extend_nil_left _
    · exact ⟨(hcanonical.entries e he).definitions.nodup, (hcanonical.entries e he).usages.nodup⟩
    · intro item hitem
      obtain ⟨e, -, rfl⟩ := List.mem_map.1 hitem
      obtain ⟨-, hcount, hdefinitions, husages⟩ := Entry.field?_toValue e
      refine ⟨_, _, hdefinitions, husages, ?_⟩
      rw [hcount, Entry.total, List.length_map, List.length_map]
      rfl
    · rw [ofValue, hback]
      rfl

/-- Items of which two have one name. Their places are written in different ways, and the stored
count is wrong. The paths of two places are different halves of pairs. -/
def scatteredItems : List Value :=
  [.record [("name", .str "A"), ("count", .int 9),
      ("definitionFiles", .texts ["a.h:007", "a.h:7", "C:1:٢"])],
    .record [("name", .str "B"),
      ("usageFiles",
        .list [.str "x:1", .brokenText [0xd800, 58, 49], .brokenText [0xd801, 58, 49]])],
    .record [("name", .str "A"), ("definitionFiles", .texts ["b.h:1", "a.h:٧"]),
      ("usageFiles", .texts ["c.c:2"])]]

/-- The structured form with these items. -/
def scatteredForm : Value :=
  .record [("definitions", .list scatteredItems)]

/-- What is read from it. -/
def mergedRegistry : Registry :=
  ⟨[⟨.text "A", [⟨"a.h", 7⟩, ⟨"C:1", 2⟩, ⟨"b.h", 1⟩], [⟨"c.c", 2⟩]⟩,
    ⟨.text "B", [], [⟨"x", 1⟩, ⟨.broken [0xd800] rfl, 1⟩, ⟨.broken [0xd801] rfl, 1⟩]⟩]⟩

theorem import_of_scattered_form :
    HasTextNames scatteredForm
      ∧ ofValue scatteredForm = .ok mergedRegistry
      ∧ readValue mergedRegistry.toValue = ([], .ok mergedRegistry) := by
  have hitems : itemsOf scatteredForm = .ok scatteredItems := by
    rw [itemsOf, scatteredForm, Value.field?_record]
    rfl
  have hnames : HasTextNames scatteredForm := by
    intro items hsame item hitem name hname
    obtain rfl := Except.ok.inj (hitems.symm.trans hsame)
    simp only [scatteredItems, List.mem_cons, List.not_mem_nil, or_false] at hitem
    rcases hitem with rfl | rfl | rfl
    all_goals
      rw [Value.field?_record] at hname
      obtain rfl := Option.some.inj hname
      rfl
  have hread : ofValue scatteredForm = .ok mergedRegistry := by rfl
  exact ⟨hnames, hread, (import_is_normal_form hnames hread).2.2.2.1⟩

end Registry

end StructAtlas
