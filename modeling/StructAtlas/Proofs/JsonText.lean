import StructAtlas.Json.Reader
import StructAtlas.Json.Writer
import StructAtlas.Proofs.Numerals
import StructAtlas.Proofs.Runs

set_option autoImplicit false

/-!
# Reading JSON that was written

Values made of texts, readable numbers, lists and mappings with different text keys (`Plain`) are
read back as they were written (`parse_indented`). Every reader returns the text behind what it
read, so its lemma holds in front of any text that may follow: anything behind a quoted text, and
anything that does not continue a number behind a number. The depth that a reader is left with
bounds the depth of the value, and the length of the written text bounds the steps.

Two details need care. A character given by its number may stand in front of another one, and the
two must not be taken for a pair (`decode_number`). And a number begins with a zero only if it is
zero, which is how `takeWhole` reads it (`takeWhole_toDigits`).
-/

namespace StructAtlas.Json

open Text

/-! ## Quoted texts -/

theorem hexValue?_hexDigit {n : Nat} (h : n < 16) : hexValue? (hexDigit n) = some n := by
  have hall : ∀ m < 16, hexValue? (hexDigit m) = some m := by decide
  exact hall n h

theorem hexFour?_hexDigits {n : Nat} (h : n < 0x10000) :
    ∃ a b c d, hexDigits 4 n = [a, b, c, d] ∧ hexFour? a b c d = some n := by
  refine ⟨_, _, _, _, rfl, ?_⟩
  have hsum : n / 16 / 16 / 16 % 16 * 0x1000 + n / 16 / 16 % 16 * 0x100 + n / 16 % 16 * 0x10
      + n % 16 = n := by omega
  simp only [hexFour?, hexValue?_hexDigit (Nat.mod_lt _ (by decide : 16 > 0)), bind, Option.bind,
    pure, hsum]

/-- The three forms of a character between quotes: as it is, by a letter, or by its number. -/
theorem encodeChar_cases (c : Char) :
    (encodeChar c = [c] ∧ c ≠ '"' ∧ c ≠ '\\' ∧ 0x20 ≤ c.toNat)
      ∨ (∃ e, encodeChar c = ['\\', e] ∧ e ≠ 'u' ∧ simpleEscape? e = some c)
      ∨ ∃ a b d e, encodeChar c = ['\\', 'u', a, b, d, e] ∧ hexFour? a b d e = some c.toNat
          ∧ c.toNat < 0x20 := by
  have heq : ∀ d : Char, c.toNat = d.toNat → c = d := fun d h => Char.toNat_inj.1 h
  rw [encodeChar]
  simp only [beq_iff_eq]
  split
  · next h => subst h; exact .inr (.inl ⟨_, rfl, by decide, rfl⟩)
  next hquote =>
  split
  · next h => subst h; exact .inr (.inl ⟨_, rfl, by decide, rfl⟩)
  next hslash =>
  split
  · next h => subst h; exact .inr (.inl ⟨_, rfl, by decide, rfl⟩)
  split
  · next h => subst h; exact .inr (.inl ⟨_, rfl, by decide, rfl⟩)
  split
  · next h => subst h; exact .inr (.inl ⟨_, rfl, by decide, rfl⟩)
  split
  · next h => obtain rfl := heq '\x08' h; exact .inr (.inl ⟨_, rfl, by decide, rfl⟩)
  split
  · next h => obtain rfl := heq '\x0c' h; exact .inr (.inl ⟨_, rfl, by decide, rfl⟩)
  split
  · next h =>
    obtain ⟨a, b, d, e, hdigits, hvalue⟩ := hexFour?_hexDigits (n := c.toNat) (by omega)
    exact .inr (.inr ⟨a, b, d, e, by rw [hdigits], hvalue, h⟩)
  · next h => exact .inl ⟨rfl, hquote, hslash, by omega⟩

/-- Whether a text goes on with another number of four digits. -/
def GoesOn (tail : List Char) : Prop :=
  ∃ a b c d rest, tail = '\\' :: 'u' :: a :: b :: c :: d :: rest

theorem decode_of_not_goesOn {tail : List Char} (h : ¬ GoesOn tail) (a b c d : Char) :
    decode ('\\' :: 'u' :: a :: b :: c :: d :: tail)
      = (hexFour? a b c d).bind fun n => (decode tail).map fun r => (n :: r.1, r.2) := by
  rw [decode.eq_4 _ _ _ _ _ fun a' b' c' d' rest e => h ⟨a', b', c', d', rest, e⟩]
  cases hexFour? a b c d <;> rfl

theorem decode_of_hexFour?_eq_none {a b c d : Char} (h : hexFour? a b c d = none)
    (tail : List Char) : decode ('\\' :: 'u' :: a :: b :: c :: d :: tail) = none := by
  by_cases htail : GoesOn tail
  · obtain ⟨a', b', c', d', rest, rfl⟩ := htail
    rw [decode, h]
  · rw [decode_of_not_goesOn htail, h]
    rfl

/-- A number that is no half of a pair is read alone, whatever follows. -/
theorem decode_number {a b c d : Char} {n : Nat} (h : hexFour? a b c d = some n)
    (hn : isHighUnit n = false) (tail : List Char) :
    decode ('\\' :: 'u' :: a :: b :: c :: d :: tail)
      = (decode tail).map fun r => (n :: r.1, r.2) := by
  by_cases htail : GoesOn tail
  · obtain ⟨a', b', c', d', rest, rfl⟩ := htail
    rw [decode, h]
    -- A second number with a wrong digit fails in both readings.
    cases hnext : hexFour? a' b' c' d' with
    | some low => simp [hn]
    | none => rw [decode_of_hexFour?_eq_none hnext]; rfl
  · rw [decode_of_not_goesOn htail, h]
    rfl

theorem decode_letter {e c : Char} (he : e ≠ 'u') (h : simpleEscape? e = some c)
    (tail : List Char) :
    decode ('\\' :: e :: tail) = (decode tail).map fun r => (c.toNat :: r.1, r.2) := by
  rw [decode.eq_5 e tail (fun _ _ _ _ _ _ _ _ _ hu => absurd hu he)
    (fun _ _ _ _ _ hu => absurd hu he), h]

theorem decode_plain {c : Char} (hquote : c ≠ '"') (hslash : c ≠ '\\') (h : 0x20 ≤ c.toNat)
    (tail : List Char) :
    decode (c :: tail) = (decode tail).map fun r => (c.toNat :: r.1, r.2) := by
  rw [decode.eq_6 c tail (fun e => hquote e) (fun _ _ _ _ _ _ _ _ _ e => absurd e hslash)
    (fun _ _ _ _ _ e => absurd e hslash) (fun _ _ e => absurd e hslash), if_neg]
  simp only [Bool.or_eq_true, beq_iff_eq, decide_eq_true_eq, not_or]
  exact ⟨hslash, by omega⟩

/-- A character is read back from its form between quotes. -/
theorem decode_encodeChar (c : Char) (tail : List Char) :
    decode (encodeChar c ++ tail) = (decode tail).map fun r => (c.toNat :: r.1, r.2) := by
  rcases encodeChar_cases c with ⟨hform, hquote, hslash, hc⟩ | ⟨e, hform, he, hletter⟩
    | ⟨a, b, d, e, hform, hnumber, hc⟩
  · rw [hform]
    exact decode_plain hquote hslash hc tail
  · rw [hform]
    exact decode_letter he hletter tail
  · rw [hform]
    refine decode_number hnumber ?_ tail
    simp only [isHighUnit, Bool.and_eq_false_iff, decide_eq_false_iff_not]
    omega

theorem decode_flatMap_encodeChar (cs rest : List Char) :
    decode (cs.flatMap encodeChar ++ '"' :: rest) = some (codes cs, rest) := by
  induction cs with
  | nil => rfl
  | cons c cs ih =>
    rw [List.flatMap_cons, List.append_assoc, decode_encodeChar, ih]
    rfl

theorem ofCodes_codes (cs : List Char) : Value.ofCodes (codes cs) = .str (String.ofList cs) := by
  have h := WideText.ofCodes_codes (.plain (String.ofList cs))
  rw [WideText.codes, String.toList_ofList] at h
  rw [Value.ofCodes, h]
  rfl

/-- A text between quotes, in front of what follows. -/
theorem encode_append (cs rest : List Char) :
    encode cs ++ rest = '"' :: (cs.flatMap encodeChar ++ '"' :: rest) := by
  simp [encode]

/-! ## Numbers -/

/-- Characters that may continue a number. -/
def isNumberPart (c : Char) : Bool :=
  isDigit c || c == '.' || c == 'e' || c == 'E'

theorem isNumberPart_eq_false {c : Char} :
    isNumberPart c = false ↔ isDigit c = false ∧ c ≠ '.' ∧ c ≠ 'e' ∧ c ≠ 'E' := by
  simp [isNumberPart, and_assoc]

theorem isGap_of_isDigit {c : Char} (h : isDigit c = true) : isGap c = false := by
  cases hgap : isGap c with
  | false => rfl
  | true =>
    simp only [isGap, Bool.or_eq_true, beq_iff_eq] at hgap
    rcases hgap with ((rfl | rfl) | rfl) | rfl <;> exact absurd h (by decide)

theorem run_isDigit_toDigits (n : Nat) : Run isDigit (Nat.toDigits 10 n) := fun _ hc =>
  isDigit_of_mem_toDigits hc

theorem exists_head_toDigits (n : Nat) :
    ∃ d ds, Nat.toDigits 10 n = d :: ds ∧ isDigit d = true := by
  obtain ⟨d, ds, hds⟩ := List.exists_cons_of_ne_nil (Nat.toDigits_ne_nil (n := n) (b := 10))
  exact ⟨d, ds, hds, run_isDigit_toDigits n d (by simp [hds])⟩

theorem takeWhole_toDigits (n : Nat) {rest : List Char} (h : Stops isDigit rest) :
    takeWhole (Nat.toDigits 10 n ++ rest) = (Nat.toDigits 10 n, rest) := by
  obtain ⟨d, ds, hds, -⟩ := exists_head_toDigits n
  by_cases hzero : d = '0'
  · -- A zero is read alone; it is also the only digit of its number.
    subst hzero
    obtain ⟨-, rfl⟩ := eq_zero_of_toDigits hds
    rw [hds]
    rfl
  · have hrun : Run isDigit (d :: ds) := hds ▸ run_isDigit_toDigits n
    rw [hds, List.cons_append, takeWhole.eq_2 _ fun _ e => hzero (List.cons.inj e).1,
      ← List.cons_append, takeWhile_run hrun h, dropWhile_run hrun h]

theorem takeFraction_of_stops {rest : List Char} (h : Stops isNumberPart rest) :
    takeFraction rest = ([], rest) := by
  refine takeFraction.eq_2 rest fun cs e => ?_
  subst e
  exact absurd (stops_cons.1 h) (by decide)

theorem takeExponent_of_stops {rest : List Char} (h : Stops isNumberPart rest) :
    takeExponent rest = (none, rest) := by
  cases rest with
  | nil => rfl
  | cons c rest =>
    obtain ⟨-, -, hsmall, hlarge⟩ := isNumberPart_eq_false.1 (stops_cons.1 h)
    rw [takeExponent, if_neg (by simp [hsmall, hlarge])]

theorem digitsToNat_eq (ds : List Char) : digitsToNat ds = Nat.ofDigitChars 10 ds 0 := by
  have hstep : (fun (m : Nat) (c : Char) => m * 10 + (c.toNat - '0'.toNat))
      = fun m c => 10 * m + (c.toNat - '0'.toNat) := by
    funext m c
    rw [Nat.mul_comm]
  rw [digitsToNat, hstep, ← Nat.ofDigitChars_eq_foldl]

theorem digitsToNat_toDigits (n : Nat) : digitsToNat (Nat.toDigits 10 n) = n := by
  rw [digitsToNat_eq, Nat.ofDigitChars_ten_toDigits]

/-- Digits begin with no other character. -/
theorem toDigits_append_ne_cons {c : Char} (h : isDigit c = false) (n : Nat)
    (rest tail : List Char) : Nat.toDigits 10 n ++ rest ≠ c :: tail := by
  intro e
  obtain ⟨d, ds, hds, hd⟩ := exists_head_toDigits n
  rw [hds] at e
  rw [(List.cons.inj e).1, h] at hd
  cases hd

theorem readNumber_toDigits {n : Nat} (hn : Decimal.IsReadable n) {rest : List Char}
    (h : Stops isNumberPart rest) :
    readNumber (Nat.toDigits 10 n ++ rest) = .ok (.int n, rest) := by
  have hdigit : Stops isDigit rest := fun c hc => (isNumberPart_eq_false.1 (h c hc)).1
  obtain ⟨d, ds, hds, -⟩ := exists_head_toDigits n
  have hwhole := takeWhole_toDigits n hdigit
  have hvalue := digitsToNat_toDigits n
  have hlength : ¬ Decimal.digitLimit < (Nat.toDigits 10 n).length := Nat.not_lt.2 hn
  rw [readNumber.eq_2 _ (toDigits_append_ne_cons rfl n rest), hwhole]
  rw [hds] at hvalue hlength ⊢
  simp only [takeFraction_of_stops h, takeExponent_of_stops h, List.isEmpty_nil,
    Option.isNone_none, Bool.and_self, ↓reduceIte, if_neg hlength, hvalue, Bool.false_eq_true]

/-- Digits begin no named value. -/
theorem readNamed_toDigits (n : Nat) (rest : List Char) :
    readNamed (Nat.toDigits 10 n ++ rest) namedValues = none := by
  obtain ⟨d, ds, hds, -⟩ := exists_head_toDigits n
  have hne : ∀ c : Char, isDigit c = false → ¬ c = d := by
    rintro c hc rfl
    exact toDigits_append_ne_cons hc n [] ds (by simp [hds])
  rw [hds]
  simp [namedValues, readNamed, dropStart?, hne, isDigit]

/-! ## Plain values -/

/-- The entries of a mapping with text keys. -/
def textFields (fields : List (String × Value)) : List (Value × Value) :=
  fields.map fun f => (.str f.1, f.2)

/-- Values of texts, readable numbers, lists and mappings with different text keys that lie at most
so deep in each other. -/
inductive Plain : Nat → Value → Prop
  | text (depth : Nat) (s : String) : Plain depth (.str s)
  | number (depth : Nat) {n : Nat} (readable : Decimal.IsReadable n) : Plain depth (.int n)
  | list {depth : Nat} {items : List Value} (plain : ∀ v ∈ items, Plain depth v) :
      Plain (depth + 1) (.list items)
  | record {depth : Nat} {fields : List (String × Value)} (different : (fields.map (·.1)).Nodup)
      (plain : ∀ f ∈ fields, Plain depth f.2) : Plain (depth + 1) (.record fields)

/-- At every level a value is written so that it is read back, and what is written begins with a
character that is neither a gap nor the end of a list. -/
structure ReadsBack (depth : Nat) (v : Value) : Prop where
  head : ∀ level, ∃ c cs, indentedAt level v = c :: cs ∧ isGap c = false ∧ c ≠ ']'
  reads : ∀ level fuel rest, (indentedAt level v).length < fuel → Stops isNumberPart rest →
    readValue fuel depth (indentedAt level v ++ rest) = .ok (v, rest)

/-! ### Layout -/

theorem indentedAt_number (level n : Nat) : indentedAt level (.int n) = Nat.toDigits 10 n :=
  toList_toString (Int.natCast_nonneg n)

theorem indentedItems_cons (level : Nat) (v w : Value) (vs : List Value) :
    indentedItems level (v :: w :: vs)
      = indentedAt level v ++ ',' :: newLine level ++ indentedItems level (w :: vs) :=
  indentedItems.eq_3 level v (w :: vs) (by simp)

theorem indentedAt_list (level : Nat) (v : Value) (vs : List Value) :
    indentedAt level (.list (v :: vs))
      = '[' :: newLine (level + 1) ++ indentedItems (level + 1) (v :: vs) ++ newLine level
        ++ [']'] :=
  indentedAt.eq_2 level (v :: vs) (by simp)

theorem indentedFields_singleton (level : Nat) (f : String × Value) :
    indentedFields level (textFields [f])
      = encode f.1.toList ++ ':' :: ' ' :: indentedAt level f.2 := by
  rw [show textFields [f] = [(.str f.1, f.2)] from rfl, indentedFields]
  rfl

theorem indentedFields_cons (level : Nat) (f g : String × Value)
    (fields : List (String × Value)) :
    indentedFields level (textFields (f :: g :: fields))
      = encode f.1.toList ++ ':' :: ' ' :: indentedAt level f.2 ++ ',' :: newLine level
        ++ indentedFields level (textFields (g :: fields)) :=
  indentedFields.eq_3 level (.str f.1) f.2 (textFields (g :: fields)) (by simp [textFields])

theorem indentedAt_record (level : Nat) (f : String × Value) (fields : List (String × Value)) :
    indentedAt level (.record (f :: fields))
      = '\x7b' :: newLine (level + 1) ++ indentedFields (level + 1) (textFields (f :: fields))
        ++ newLine level ++ ['\x7d'] :=
  indentedAt.eq_4 level (textFields (f :: fields)) (by simp [textFields])

/-! ### Texts and numbers -/

theorem readsBack_text (depth : Nat) (s : String) : ReadsBack depth (.str s) where
  head level := ⟨'"', s.toList.flatMap encodeChar ++ ['"'], rfl, by decide, by decide⟩
  reads level fuel rest hfuel _ := by
    obtain ⟨fuel, rfl⟩ := Nat.exists_eq_add_of_lt hfuel
    rw [show indentedAt level (.str s) = encode s.toList from rfl, encode_append, readValue,
      decode_flatMap_encodeChar]
    simp only [ofCodes_codes, String.ofList_toList]

theorem readsBack_number (depth : Nat) {n : Nat} (hn : Decimal.IsReadable n) :
    ReadsBack depth (.int n) where
  head level := by
    obtain ⟨d, ds, hds, hd⟩ := exists_head_toDigits n
    refine ⟨d, ds, (indentedAt_number level n).trans hds, isGap_of_isDigit hd, ?_⟩
    rintro rfl
    exact absurd hd (by decide)
  reads level fuel rest hfuel hrest := by
    obtain ⟨fuel, rfl⟩ := Nat.exists_eq_add_of_lt hfuel
    rw [indentedAt_number, readValue.eq_5 _ _ _ (toDigits_append_ne_cons rfl n rest)
      (toDigits_append_ne_cons rfl n rest) (toDigits_append_ne_cons rfl n rest),
      readNamed_toDigits]
    exact readNumber_toDigits hn hrest

/-! ### Lists -/

theorem run_newLine (level : Nat) : Run isGap (newLine level) := by
  rw [newLine, run_cons]
  refine ⟨by decide, fun c hc => ?_⟩
  rw [List.eq_of_mem_replicate hc]
  decide

/-- A line feed and indentation are passed over. -/
theorem skipGaps_newLine (level : Nat) {cs : List Char} (h : Stops isGap cs) :
    skipGaps (newLine level ++ cs) = cs :=
  dropWhile_run (run_newLine level) h

/-- A new line ends a number. -/
theorem stops_newLine (level : Nat) (cs : List Char) :
    Stops isNumberPart (newLine level ++ cs) :=
  stops_cons.2 (by decide)

theorem ReadsBack.stops_isGap {depth : Nat} {v : Value} (h : ReadsBack depth v) (level : Nat)
    (rest : List Char) : Stops isGap (indentedAt level v ++ rest) := by
  obtain ⟨c, cs, hhead, hgap, -⟩ := h.head level
  rw [hhead]
  exact stops_cons.2 hgap

section Items

variable {depth level fuel : Nat} {v : Value} {vs : List Value} {rest tail tail' : List Char}

theorem readItems_last (h : ReadsBack depth v) (hfuel : (indentedAt level v).length < fuel)
    (hrest : Stops isNumberPart rest) (hend : skipGaps rest = ']' :: tail) :
    readItems (fuel + 1) depth (indentedAt level v ++ rest) = .ok ([v], tail) := by
  rw [readItems, h.reads level fuel rest hfuel hrest]
  simp only [bind, Except.bind, hend]
  rfl

theorem readItems_next (h : ReadsBack depth v) (hfuel : (indentedAt level v).length < fuel)
    (hrest : Stops isNumberPart rest) (hcomma : skipGaps rest = ',' :: tail)
    (hmore : readItems fuel depth (skipGaps tail) = .ok (vs, tail')) :
    readItems (fuel + 1) depth (indentedAt level v ++ rest) = .ok (v :: vs, tail') := by
  rw [readItems, h.reads level fuel rest hfuel hrest]
  simp only [bind, Except.bind, hcomma, hmore]
  rfl

/-- The head of the items of a list. -/
theorem exists_head_indentedItems (h : ReadsBack depth v) (level : Nat) (vs : List Value) :
    ∃ c cs, indentedItems level (v :: vs) = c :: cs ∧ isGap c = false ∧ c ≠ ']' := by
  obtain ⟨c, cs, hhead, hc⟩ := h.head level
  cases vs with
  | nil => exact ⟨c, cs, by rw [indentedItems, hhead], hc⟩
  | cons w vs =>
    exact ⟨c, _, by rw [indentedItems_cons, hhead]; rfl, hc⟩

theorem stops_indentedItems (h : ReadsBack depth v) (level : Nat) (vs : List Value)
    (rest : List Char) : Stops isGap (indentedItems level (v :: vs) ++ rest) := by
  obtain ⟨c, cs, hhead, hgap, -⟩ := exists_head_indentedItems h level vs
  rw [hhead]
  exact stops_cons.2 hgap

/-- The items of a list are read up to its closing bracket on a line of its own. -/
theorem readItems_indentedItems (h : ∀ w ∈ v :: vs, ReadsBack depth w) (level outer : Nat)
    (rest : List Char) (hfuel : (indentedItems level (v :: vs)).length + 1 < fuel) :
    readItems fuel depth (indentedItems level (v :: vs) ++ (newLine outer ++ ']' :: rest))
      = .ok (v :: vs, rest) := by
  induction vs generalizing v fuel with
  | nil =>
    obtain ⟨fuel, rfl⟩ := Nat.exists_eq_add_of_le' (Nat.zero_lt_of_lt hfuel)
    rw [indentedItems] at hfuel ⊢
    exact readItems_last (h v List.mem_cons_self) (by omega) (stops_newLine outer _)
      (skipGaps_newLine outer (stops_cons.2 (by decide)))
  | cons w vs ih =>
    obtain ⟨fuel, rfl⟩ := Nat.exists_eq_add_of_le' (Nat.zero_lt_of_lt hfuel)
    have hvs : ∀ u ∈ w :: vs, ReadsBack depth u := fun u hu => h u (List.mem_cons_of_mem _ hu)
    rw [indentedItems_cons] at hfuel ⊢
    simp only [List.length_append, List.length_cons] at hfuel
    have hmore : readItems fuel depth (skipGaps (newLine level
        ++ (indentedItems level (w :: vs) ++ (newLine outer ++ ']' :: rest))))
        = .ok (w :: vs, rest) := by
      rw [skipGaps_newLine level (stops_indentedItems (hvs w List.mem_cons_self) level vs _)]
      exact ih hvs (by omega)
    simp only [List.append_assoc, List.cons_append]
    exact readItems_next (h v List.mem_cons_self) (by omega) (stops_cons.2 (by decide)) rfl hmore

theorem readValue_openList {items : List Value} (hskip : skipGaps rest = tail)
    (hne : ∀ cs, tail ≠ ']' :: cs) (h : readItems fuel depth tail = .ok (items, tail')) :
    readValue (fuel + 1) (depth + 1) ('[' :: rest) = .ok (.list items, tail') := by
  rw [readValue, if_neg (by simp)]
  simp only [hskip, Nat.add_sub_cancel, h]
  rfl

theorem readsBack_list {items : List Value} (h : ∀ v ∈ items, ReadsBack depth v) :
    ReadsBack (depth + 1) (.list items) where
  head level := by
    cases items with
    | nil => exact ⟨'[', [']'], rfl, by decide, by decide⟩
    | cons v vs =>
      exact ⟨'[', _, indentedAt_list level v vs, by decide, by decide⟩
  reads level fuel rest hfuel _ := by
    obtain ⟨fuel, rfl⟩ := Nat.exists_eq_add_of_le' (Nat.zero_lt_of_lt hfuel)
    cases items with
    | nil => rfl
    | cons v vs =>
      have hv := h v List.mem_cons_self
      obtain ⟨c, cs, hhead, -, hend⟩ := exists_head_indentedItems hv (level + 1) vs
      rw [indentedAt_list] at hfuel ⊢
      simp only [List.length_append, List.length_cons, newLine] at hfuel
      have hlength : (indentedItems (level + 1) (v :: vs)).length + 1 < fuel := by omega
      have hitems := readItems_indentedItems h (level + 1) level rest hlength
      simp only [List.append_assoc, List.cons_append, List.nil_append]
      refine readValue_openList
        (skipGaps_newLine (level + 1) (stops_indentedItems hv (level + 1) vs _)) ?_ hitems
      intro cs' e
      rw [hhead] at e
      exact hend (List.cons.inj e).1

end Items

/-! ### Mappings -/

section Fields

variable {depth level fuel : Nat} {k : String} {v : Value} {rest tail : List Char}

theorem skipGaps_space (h : Stops isGap tail) : skipGaps (' ' :: tail) = tail :=
  dropWhile_run (run_cons.2 ⟨by decide, run_nil _⟩ : Run isGap [' ']) h

theorem insertField_of_not_mem {fields : List (String × Value)} (h : k ∉ fields.map (·.1))
    (v : Value) :
    Value.insertField (textFields fields) (.str k) v = textFields (fields ++ [(k, v)]) := by
  induction fields with
  | nil => rfl
  | cons f fields ih =>
    simp only [List.map_cons, List.mem_cons, not_or] at h
    have hne : (Value.str f.1).sameKey (.str k) = false := by
      simp [Value.sameKey, Value.same, Value.sameAtom, Ne.symm h.1]
    rw [textFields, List.map_cons, Value.insertField, hne, ← textFields, ih h.2]
    rfl

/-- The next entry of a mapping, up to what follows it. -/
theorem readFields_cons {fields : List (String × Value)} (hk : k ∉ fields.map (·.1))
    (h : ReadsBack depth v) (hfuel : (indentedAt level v).length < fuel)
    (hrest : Stops isNumberPart rest) :
    readFields (fuel + 1) depth (textFields fields)
        (encode k.toList ++ ':' :: ' ' :: (indentedAt level v ++ rest))
      = match skipGaps rest with
        | '\x7d' :: rest => .ok (textFields (fields ++ [(k, v)]), rest)
        | ',' :: rest => readFields fuel depth (textFields (fields ++ [(k, v)])) (skipGaps rest)
        | _ => .error .malformed := by
  have hcolon : skipGaps (':' :: ' ' :: (indentedAt level v ++ rest))
      = ':' :: ' ' :: (indentedAt level v ++ rest) := dropWhile_of_stops (stops_cons.2 (by decide))
  rw [encode_append, readFields, decode_flatMap_encodeChar]
  simp only [hcolon, skipGaps_space (h.stops_isGap level rest), h.reads level fuel rest hfuel hrest,
    bind, Except.bind, ofCodes_codes, String.ofList_toList, insertField_of_not_mem hk]
  rfl

theorem exists_head_indentedFields (level : Nat) (f : String × Value)
    (fields : List (String × Value)) :
    ∃ cs, indentedFields level (textFields (f :: fields)) = '"' :: cs := by
  cases fields with
  | nil => exact ⟨_, rfl⟩
  | cons g fields =>
    exact ⟨_, indentedFields_cons level f g fields⟩

theorem not_mem_of_nodup_keys {done fields : List (String × Value)} {f : String × Value}
    (h : ((done ++ f :: fields).map (·.1)).Nodup) : f.1 ∉ done.map (·.1) := by
  intro hmem
  rw [List.map_append, List.map_cons] at h
  exact (List.nodup_append.1 h).2.2 _ hmem _ List.mem_cons_self rfl

/-- The entries of a mapping are read up to its closing brace on a line of its own. -/
theorem readFields_indentedFields (done : List (String × Value)) {f : String × Value}
    {fields : List (String × Value)} (hkeys : ((done ++ f :: fields).map (·.1)).Nodup)
    (h : ∀ g ∈ f :: fields, ReadsBack depth g.2) (level outer : Nat) (rest : List Char)
    (hfuel : (indentedFields level (textFields (f :: fields))).length + 1 < fuel) :
    readFields fuel depth (textFields done)
        (indentedFields level (textFields (f :: fields)) ++ (newLine outer ++ '\x7d' :: rest))
      = .ok (textFields (done ++ f :: fields), rest) := by
  induction fields generalizing done f fuel with
  | nil =>
    obtain ⟨fuel, rfl⟩ := Nat.exists_eq_add_of_le' (Nat.zero_lt_of_lt hfuel)
    rw [indentedFields_singleton] at hfuel ⊢
    simp only [List.length_append, List.length_cons] at hfuel
    simp only [List.append_assoc, List.cons_append]
    rw [readFields_cons (not_mem_of_nodup_keys hkeys) (h f List.mem_cons_self) (by omega)
      (stops_newLine outer _), skipGaps_newLine outer (stops_cons.2 (by decide))]
    rfl
  | cons g fields ih =>
    obtain ⟨fuel, rfl⟩ := Nat.exists_eq_add_of_le' (Nat.zero_lt_of_lt hfuel)
    have hstops : Stops isGap
        (indentedFields level (textFields (g :: fields)) ++ (newLine outer ++ '\x7d' :: rest)) := by
      obtain ⟨cs, hhead⟩ := exists_head_indentedFields level g fields
      rw [hhead]
      exact stops_cons.2 (by decide)
    have hdone : done ++ f :: g :: fields = done ++ [f] ++ g :: fields := by simp
    rw [indentedFields_cons] at hfuel ⊢
    simp only [List.length_append, List.length_cons] at hfuel
    simp only [List.append_assoc, List.cons_append]
    rw [readFields_cons (not_mem_of_nodup_keys hkeys) (h f List.mem_cons_self) (by omega)
      (stops_cons.2 (by decide)), hdone]
    -- The comma is no gap, and the line behind it is one.
    show readFields fuel depth _ (skipGaps (newLine level ++ _)) = _
    rw [skipGaps_newLine level hstops]
    exact ih (done ++ [f]) (hdone ▸ hkeys) (fun u hu => h u (List.mem_cons_of_mem _ hu)) (by omega)

theorem readValue_openMap {fields : List (String × Value)} {tail' : List Char}
    (hskip : skipGaps rest = tail) (hne : ∀ cs, tail ≠ '\x7d' :: cs)
    (h : readFields fuel depth [] tail = .ok (textFields fields, tail')) :
    readValue (fuel + 1) (depth + 1) ('\x7b' :: rest) = .ok (.record fields, tail') := by
  rw [readValue, if_neg (by simp)]
  simp only [hskip, Nat.add_sub_cancel, h]
  rfl

theorem readsBack_record {fields : List (String × Value)} (hkeys : (fields.map (·.1)).Nodup)
    (h : ∀ f ∈ fields, ReadsBack depth f.2) : ReadsBack (depth + 1) (.record fields) where
  head level := by
    cases fields with
    | nil => exact ⟨'\x7b', ['\x7d'], rfl, by decide, by decide⟩
    | cons f fields =>
      exact ⟨'\x7b', _, indentedAt_record level f fields, by decide, by decide⟩
  reads level fuel rest hfuel _ := by
    obtain ⟨fuel, rfl⟩ := Nat.exists_eq_add_of_le' (Nat.zero_lt_of_lt hfuel)
    cases fields with
    | nil => rfl
    | cons f fields =>
      obtain ⟨cs, hhead⟩ := exists_head_indentedFields (level + 1) f fields
      rw [indentedAt_record] at hfuel ⊢
      simp only [List.length_append, List.length_cons, newLine] at hfuel
      have hlength : (indentedFields (level + 1) (textFields (f :: fields))).length + 1 < fuel := by
        omega
      have hfields := readFields_indentedFields [] hkeys h (level + 1) level rest hlength
      simp only [List.append_assoc, List.cons_append, List.nil_append]
      rw [hhead, List.cons_append] at hfields ⊢
      exact readValue_openMap (skipGaps_newLine (level + 1) (stops_cons.2 (by decide)))
        (by simp) hfields

end Fields

/-! ### Values -/

/-- A plain value is read back at every level, in front of every text that does not continue a
number. -/
theorem Plain.readsBack {depth : Nat} {v : Value} (h : Plain depth v) : ReadsBack depth v := by
  induction h with
  | text depth s => exact readsBack_text depth s
  | number depth readable => exact readsBack_number depth readable
  | list _ ih => exact readsBack_list ih
  | record different _ ih => exact readsBack_record different ih

/-- A plain value is read back from its written form. -/
theorem parse_indented {v : Value} (h : Plain nestingLimit v) : parse (indented v) = .ok v := by
  have hread := h.readsBack.reads 0 ((indented v).length + 1) [] (Nat.lt_succ_self _) (stops_nil _)
  have hskip : skipGaps (indented v) = indented v := by
    obtain ⟨c, cs, hhead, hgap, -⟩ := h.readsBack.head 0
    rw [indented, hhead]
    exact dropWhile_of_stops (stops_cons.2 hgap)
  rw [List.append_nil, ← indented] at hread
  rw [parse, hskip, hread]
  rfl

/-! ## Line ends -/

theorem return_not_mem_of_hexFour? {a b c d : Char} {n : Nat} (h : hexFour? a b c d = some n) :
    '\r' ∉ [a, b, c, d] := by
  have hnone : hexValue? '\r' = none := rfl
  simp only [hexFour?, bind, Option.bind_eq_some_iff] at h
  obtain ⟨_, ha, _, hb, _, hc, _, hd, -⟩ := h
  intro hmem
  simp only [List.mem_cons, List.not_mem_nil, or_false] at hmem
  rcases hmem with rfl | rfl | rfl | rfl <;> simp_all

theorem return_not_mem_encodeChar (c : Char) : '\r' ∉ encodeChar c := by
  rcases encodeChar_cases c with ⟨hform, -, -, hc⟩ | ⟨e, hform, -, hletter⟩
    | ⟨a, b, d, e, hform, hnumber, -⟩
  · rw [hform, List.mem_singleton]
    rintro rfl
    exact absurd hc (by decide)
  · rw [hform]
    intro hmem
    simp only [List.mem_cons, List.not_mem_nil, or_false] at hmem
    rcases hmem with hmem | rfl
    · exact absurd hmem (by decide)
    · exact absurd hletter (by simp [simpleEscape?])
  · rw [hform]
    have hdigits := return_not_mem_of_hexFour? hnumber
    simp_all

theorem return_not_mem_encode (cs : List Char) : '\r' ∉ encode cs := by
  have hmid : '\r' ∉ cs.flatMap encodeChar := by
    intro hmem
    obtain ⟨c, -, hc⟩ := List.mem_flatMap.1 hmem
    exact return_not_mem_encodeChar c hc
  simp [encode, hmid]

theorem return_not_mem_newLine (level : Nat) : '\r' ∉ newLine level := by
  simp [newLine, List.mem_replicate]

theorem return_not_mem_indentedItems {items : List Value} (level : Nat)
    (h : ∀ v ∈ items, '\r' ∉ indentedAt level v) : '\r' ∉ indentedItems level items := by
  induction items with
  | nil => exact List.not_mem_nil
  | cons v vs ih =>
    have hv := h v List.mem_cons_self
    have hvs := ih fun w hw => h w (List.mem_cons_of_mem _ hw)
    cases vs with
    | nil => rwa [indentedItems]
    | cons w vs =>
      rw [indentedItems_cons]
      simp [hv, hvs, return_not_mem_newLine]

theorem return_not_mem_indentedFields {fields : List (String × Value)} (level : Nat)
    (h : ∀ f ∈ fields, '\r' ∉ indentedAt level f.2) :
    '\r' ∉ indentedFields level (textFields fields) := by
  induction fields with
  | nil => exact List.not_mem_nil
  | cons f fields ih =>
    have hf := h f List.mem_cons_self
    have hfields := ih fun g hg => h g (List.mem_cons_of_mem _ hg)
    have hkey := return_not_mem_encode f.1.toList
    cases fields with
    | nil =>
      rw [indentedFields_singleton]
      simp [hkey, hf]
    | cons g fields =>
      rw [indentedFields_cons]
      simp [hkey, hf, hfields, return_not_mem_newLine]

/-- Line ends in texts are escaped, and those between values are line feeds. -/
theorem Plain.return_not_mem {depth : Nat} {v : Value} (h : Plain depth v) (level : Nat) :
    '\r' ∉ indentedAt level v := by
  induction h generalizing level with
  | text depth s => exact return_not_mem_encode s.toList
  | number depth readable =>
    rw [indentedAt_number]
    intro hmem
    exact absurd (isDigit_of_mem_toDigits hmem) (by decide)
  | @list depth items _ ih =>
    have hitems := return_not_mem_indentedItems (level + 1) fun v hv => ih v hv (level + 1)
    cases items with
    | nil => simp [indentedAt]
    | cons v vs =>
      rw [indentedAt_list]
      simp [hitems, return_not_mem_newLine]
  | @record depth fields _ _ ih =>
    have hfields := return_not_mem_indentedFields (level + 1) fun f hf => ih f hf (level + 1)
    cases fields with
    | nil => simp [Value.record, indentedAt]
    | cons f fields =>
      rw [indentedAt_record]
      simp [hfields, return_not_mem_newLine]

end StructAtlas.Json
