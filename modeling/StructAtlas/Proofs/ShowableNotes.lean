import StructAtlas.Proofs.ImportReading
import StructAtlas.Proofs.JsonText

set_option autoImplicit false

/-!
# Notes that can be shown

A whole number with too many digits has no display form, and a note about a stored count that is one
cannot be written. Reading a text refuses such numbers, so whatever was read can be shown
(`Json.isShowable_parse`), and with it every note about its counts (`isShowable_of_mem_notes`).
-/

namespace StructAtlas

/-! ## Numbers that can be shown -/

theorem Value.areShowableFields_iff {fs : List (Value × Value)} :
    areShowableFields fs = true
      ↔ ∀ f ∈ fs, f.1.isShowable = true ∧ f.2.isShowable = true := by
  induction fs with
  | nil => simp [areShowableFields]
  | cons f fs ih => simp [areShowableFields, ih, and_assoc]

theorem Value.isShowable_ofCodes (codes : List Nat) : (ofCodes codes).isShowable = true := by
  rw [ofCodes]
  cases WideText.ofCodes codes <;> rfl

theorem Value.areShowableFields_insertField {fs : List (Value × Value)} {k v : Value}
    (hfs : areShowableFields fs = true) (hk : k.isShowable = true) (hv : v.isShowable = true) :
    areShowableFields (insertField fs k v) = true := by
  induction fs with
  | nil => simp [insertField, areShowableFields, hk, hv]
  | cons f fs ih =>
    obtain ⟨k', v'⟩ := f
    simp only [areShowableFields, Bool.and_eq_true] at hfs
    rw [insertField]
    split
    · simp [areShowableFields, hfs, hv]
    · simp [areShowableFields, hfs, ih]

namespace Json

theorem isDigit_of_mem_takeWhole {cs : List Char} {c : Char} (h : c ∈ (takeWhole cs).1) :
    c.isDigit = true := by
  unfold takeWhole at h
  split at h
  · obtain rfl := List.mem_singleton.1 h
    rfl
  · exact List.mem_takeWhile_imp h

theorem digitsToNat_lt {ds : List Char} (hdigits : ∀ c ∈ ds, c.isDigit = true) {limit : Nat}
    (hlength : ds.length ≤ limit) : digitsToNat ds < Decimal.tenPow limit := by
  have hvalue := (Text.digitsValue?_eq_some_iff.1 (Text.digitsValue?_of_isDigit hdigits 0)).2
  calc digitsToNat ds = Nat.ofDigitChars 10 ds 0 := digitsToNat_eq ds
    _ = Decimal.value ds := by rw [← hvalue, Nat.zero_mul, Nat.zero_add]
    _ < 10 ^ ds.length := Decimal.value_lt ds
    _ ≤ 10 ^ limit := Nat.pow_le_pow_right (by decide) hlength

/-- A number that was read is not too long to be shown. -/
theorem isShowable_readNumber {cs rest : List Char} {v : Value}
    (h : readNumber cs = .ok (v, rest)) : v.isShowable = true := by
  unfold readNumber at h
  split at h
  rename_i negative body _
  split at h
  · cases h
  · rename_i whole tail _ hwhole
    have hdigits : ∀ c ∈ whole, c.isDigit = true := by
      intro c hc
      have hmem : c ∈ (takeWhole body).1 := by rwa [hwhole]
      exact isDigit_of_mem_takeWhole hmem
    simp only at h
    split at h
    · split at h
      · cases h
      · rename_i hlength
        obtain ⟨rfl, -⟩ := Prod.mk.inj (Except.ok.inj h)
        have hlt : digitsToNat whole < Value.showLimit :=
          digitsToNat_lt hdigits (Nat.not_lt.1 hlength)
        rw [Value.isShowable, decide_eq_true_eq]
        split <;> simpa using hlt
    · obtain ⟨rfl, -⟩ := Prod.mk.inj (Except.ok.inj h)
      rfl

theorem isShowable_readNamed {cs rest : List Char} {v : Value} {named : List (String × Value)}
    (hnamed : ∀ p ∈ named, p.2.isShowable = true) (h : readNamed cs named = some (v, rest)) :
    v.isShowable = true := by
  induction named with
  | nil => cases h
  | cons p named ih =>
    rw [readNamed] at h
    split at h
    · obtain ⟨rfl, -⟩ := Prod.mk.inj (Option.some.inj h)
      exact hnamed p List.mem_cons_self
    · exact ih (fun q hq => hnamed q (List.mem_cons_of_mem _ hq)) h

/-- With so much fuel, the readers return what can be shown. -/
structure ReadsShowable (fuel : Nat) : Prop where
  value : ∀ {depth cs v rest}, readValue fuel depth cs = .ok (v, rest) → v.isShowable = true
  items : ∀ {depth cs vs rest},
    readItems fuel depth cs = .ok (vs, rest) → Value.areShowable vs = true
  fields : ∀ {depth done cs fs rest}, Value.areShowableFields done = true →
    readFields fuel depth done cs = .ok (fs, rest) → Value.areShowableFields fs = true

section Step

variable {fuel depth : Nat} (h : ReadsShowable fuel)
include h

theorem ReadsShowable.value_succ {cs rest : List Char} {v : Value}
    (hread : readValue (fuel + 1) depth cs = .ok (v, rest)) : v.isShowable = true := by
  unfold readValue at hread
  -- The first character decides between a text, a list, a mapping, and a named value or a number.
  split at hread
  · split at hread
    · obtain ⟨rfl, -⟩ := Prod.mk.inj (Except.ok.inj hread)
      exact Value.isShowable_ofCodes _
    · cases hread
  · simp only at hread
    split at hread
    · cases hread
    · split at hread
      · obtain ⟨rfl, -⟩ := Prod.mk.inj (Except.ok.inj hread)
        rfl
      · obtain ⟨⟨items, rest'⟩, hitems, hread⟩ := exists_of_bind_ok hread
        obtain ⟨rfl, -⟩ := Prod.mk.inj (Except.ok.inj hread)
        exact h.items hitems
  · simp only at hread
    split at hread
    · cases hread
    · split at hread
      · obtain ⟨rfl, -⟩ := Prod.mk.inj (Except.ok.inj hread)
        rfl
      · obtain ⟨⟨fields, rest'⟩, hfields, hread⟩ := exists_of_bind_ok hread
        obtain ⟨rfl, -⟩ := Prod.mk.inj (Except.ok.inj hread)
        exact h.fields rfl hfields
  · split at hread
    · rename_i hnamed
      obtain rfl := Except.ok.inj hread
      exact isShowable_readNamed (by simp [namedValues, Value.isShowable]) hnamed
    · exact isShowable_readNumber hread

theorem ReadsShowable.items_succ {cs rest : List Char} {vs : List Value}
    (hread : readItems (fuel + 1) depth cs = .ok (vs, rest)) : Value.areShowable vs = true := by
  unfold readItems at hread
  obtain ⟨⟨v, rest'⟩, hv, hread⟩ := exists_of_bind_ok hread
  have hshow := h.value hv
  simp only at hread
  split at hread
  · obtain ⟨rfl, -⟩ := Prod.mk.inj (Except.ok.inj hread)
    simp [Value.areShowable, hshow]
  · obtain ⟨⟨vs', rest''⟩, hvs, hread⟩ := exists_of_bind_ok hread
    obtain ⟨rfl, -⟩ := Prod.mk.inj (Except.ok.inj hread)
    simp [Value.areShowable, hshow, h.items hvs]
  · cases hread

theorem ReadsShowable.fields_succ {done fs : List (Value × Value)} {cs rest : List Char}
    (hdone : Value.areShowableFields done = true)
    (hread : readFields (fuel + 1) depth done cs = .ok (fs, rest)) :
    Value.areShowableFields fs = true := by
  unfold readFields at hread
  split at hread
  · split at hread
    · cases hread
    · rename_i key _ _
      split at hread
      · obtain ⟨⟨v, rest'⟩, hv, hread⟩ := exists_of_bind_ok hread
        -- The entries so far are those that came in and the one that was just read.
        have hinsert := Value.areShowableFields_insertField hdone (Value.isShowable_ofCodes key)
          (h.value hv)
        simp only at hread
        split at hread
        · obtain ⟨rfl, -⟩ := Prod.mk.inj (Except.ok.inj hread)
          exact hinsert
        · exact h.fields hinsert hread
        · cases hread
      · cases hread
  · cases hread

end Step

theorem readsShowable (fuel : Nat) : ReadsShowable fuel := by
  induction fuel with
  | zero =>
    constructor
    · intro depth cs v rest h
      simp [readValue] at h
    · intro depth cs vs rest h
      simp [readItems] at h
    · intro depth done cs fs rest _ h
      simp [readFields] at h
  | succ fuel ih => exact ⟨ih.value_succ, ih.items_succ, ih.fields_succ⟩

/-- Every number that a text holds can be shown, since it has been read from its digits. -/
theorem isShowable_parse {cs : List Char} {v : Value} (h : parse cs = .ok v) :
    v.isShowable = true := by
  obtain ⟨⟨v', rest⟩, hread, h⟩ := exists_of_bind_ok h
  simp only at h
  split at h
  · obtain rfl := Except.ok.inj h
    exact (readsShowable _).value hread
  · cases h

end Json

/-! ## Notes about counts -/

theorem Value.isShowable_field? {v w : Value} {k : String} (hv : v.isShowable = true)
    (h : v.field? k = some w) : w.isShowable = true := by
  cases v with
  | map fields =>
    obtain ⟨f, hf, rfl⟩ := Option.map_eq_some_iff.1 h
    exact (areShowableFields_iff.1 hv f (List.mem_of_find?_eq_some hf)).2
  | _ => cases h

namespace Registry

theorem isShowable_of_mem_countNote {item : Value} {name : Name} {r : Registry}
    (hitem : item.isShowable = true) (hname : name.toValue.isShowable = true) {note : CountMismatch}
    (h : note ∈ countNote item name r) : note.isShowable = true := by
  unfold countNote at h
  split at h
  · cases h
  · cases h
  · rename_i hfield
    simp only at h
    split at h
    · cases h
    · obtain rfl := List.mem_singleton.1 h
      simp [CountMismatch.isShowable, hname, Value.isShowable_field? hitem hfield]

theorem field?_of_addItem {index : Nat} {item : Value} {r r' : Registry} {name : Name}
    (h : addItem index item r = .ok (name, r')) : item.field? "name" = some name.toValue := by
  obtain ⟨n, hname, h⟩ := exists_of_bind_ok h
  obtain ⟨_, -, h⟩ := exists_of_bind_ok h
  obtain ⟨_, -, h⟩ := exists_of_bind_ok h
  obtain ⟨_, -, h⟩ := exists_of_bind_ok h
  obtain ⟨_, -, h⟩ := exists_of_bind_ok h
  obtain ⟨rfl, -⟩ := Prod.mk.inj (Except.ok.inj h)
  exact (itemName_eq_ok hname).1

theorem isShowable_of_mem_addItems {index : Nat} {items : List Value} {r : Registry}
    (hitems : Value.areShowable items = true) {note : CountMismatch}
    (h : note ∈ (addItems index items r).1) : note.isShowable = true := by
  induction items generalizing index r with
  | nil => cases h
  | cons item items ih =>
    simp only [Value.areShowable, Bool.and_eq_true] at hitems
    rw [addItems] at h
    split at h
    · cases h
    · rename_i name r' hadd
      rcases List.mem_append.1 h with h | h
      · have hname := Value.isShowable_field? hitems.1 (field?_of_addItem hadd)
        exact isShowable_of_mem_countNote hitems.1 hname h
      · exact ih hitems.2 h

theorem isShowable_of_mem_notes {v : Value} (hv : v.isShowable = true) {note : CountMismatch}
    (h : note ∈ (readValue v).1) : note.isShowable = true := by
  rw [readValue] at h
  split at h
  · rename_i items hitems
    unfold itemsOf at hitems
    split at hitems
    · rename_i hfield
      obtain rfl := Except.ok.inj hitems
      exact isShowable_of_mem_addItems (Value.isShowable_field? hv hfield) h
    · cases hitems
  · cases h

end Registry

end StructAtlas
