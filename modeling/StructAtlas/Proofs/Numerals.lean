import StructAtlas.Location

set_option autoImplicit false

/-!
# Reading numbers and places back

A number that is not negative is written with ASCII digits, the most significant first and without a
leading zero. Readers count these digits up to the number again, as long as there are no more than
`Decimal.digitLimit` of them. The text of a place ends in such digits; none of them is a colon, so
the last colon of the text is the one in front of the line number, whatever the path holds
(`Location.parse_toText`).
-/

namespace StructAtlas

/-- Numbers that have no more digits than a reader accepts. -/
def Decimal.IsReadable (n : Nat) : Prop :=
  (Nat.toDigits 10 n).length ≤ digitLimit

instance (n : Nat) : Decidable (Decimal.IsReadable n) :=
  inferInstanceAs (Decidable (_ ≤ _))

theorem Decimal.IsReadable.of_le {m n : Nat} (h : IsReadable n) (hle : m ≤ n) : IsReadable m := by
  have hpos : 0 < digitLimit := by decide
  have hn := (Nat.length_toDigits_le_iff (by decide) hpos).1 h
  exact (Nat.length_toDigits_le_iff (by decide) hpos).2 (Nat.lt_of_le_of_lt hle hn)

/-! ## Digits -/

theorem isDigit_of_mem_toDigits {n : Nat} {c : Char} (h : c ∈ Nat.toDigits 10 n) :
    c.isDigit = true :=
  Nat.isDigit_of_mem_toDigits (by decide) (by decide) h

theorem toNat_of_isDigit {c : Char} (h : c.isDigit = true) : 48 ≤ c.toNat ∧ c.toNat ≤ 57 := by
  simp only [Char.isDigit, Bool.and_eq_true, decide_eq_true_eq] at h
  exact ⟨UInt32.le_iff_toNat_le.1 h.1, UInt32.le_iff_toNat_le.1 h.2⟩

/-- Digits as a range of characters. -/
theorem between_digits (c : Char) : (decide ('0' ≤ c) && decide (c ≤ '9')) = c.isDigit := rfl

/-- The first digit of a number is a zero for zero only. -/
theorem eq_zero_of_toDigits {n : Nat} {ds : List Char} (h : Nat.toDigits 10 n = '0' :: ds) :
    n = 0 ∧ ds = [] := by
  induction n using Nat.strongRecOn generalizing ds with
  | ind n ih =>
    by_cases hn : n < 10
    · rw [Nat.toDigits_of_lt_base hn] at h
      obtain ⟨hdigit, rfl⟩ := List.cons.inj h
      have hvalue := Nat.toNat_digitChar_of_lt_ten hn
      rw [hdigit] at hvalue
      exact ⟨by simpa using hvalue.symm, rfl⟩
    · -- A longer number begins like its quotient by ten, which is not zero.
      rw [Nat.toDigits_of_base_le (by decide) (by omega)] at h
      obtain ⟨d, front, hfront⟩ := List.exists_cons_of_ne_nil (Nat.toDigits_ne_nil (n := n / 10))
      rw [hfront, List.cons_append] at h
      have hzero := (ih (n / 10) (by omega) (hfront.trans (by rw [(List.cons.inj h).1]))).1
      omega

/-- The text of a number that is not negative. -/
theorem toList_toString {n : Int} (h : 0 ≤ n) : (toString n).toList = Nat.toDigits 10 n.toNat := by
  rw [show toString n = n.repr from rfl, Int.repr_eq_if, if_pos h, Nat.toList_repr]

namespace Text

theorem digitValue?_of_isDigit {c : Char} (h : c.isDigit = true) :
    digitValue? c = some (c.toNat - '0'.toNat) := by
  have hrange := toNat_of_isDigit h
  rw [digitValue?, if_pos (by omega), between_digits, if_pos h]

theorem isDecimal_of_isDigit {c : Char} (h : c.isDigit = true) : isDecimal c = true := by
  rw [isDecimal, digitValue?_of_isDigit h]
  rfl

theorem digitsValue?_of_isDigit {ds : List Char} (h : ∀ c ∈ ds, c.isDigit = true) (n : Nat) :
    digitsValue? ds n = some (Nat.ofDigitChars 10 ds n) := by
  induction ds generalizing n with
  | nil => rfl
  | cons c ds ih =>
    rw [digitsValue?, digitValue?_of_isDigit (h c List.mem_cons_self)]
    simp only
    rw [ih (fun d hd => h d (List.mem_cons_of_mem _ hd)), Nat.ofDigitChars_cons, Nat.mul_comm]

theorem digitsValue?_toDigits (n : Nat) : digitsValue? (Nat.toDigits 10 n) 0 = some n := by
  rw [digitsValue?_of_isDigit fun _ => isDigit_of_mem_toDigits, Nat.ofDigitChars_ten_toDigits]

end Text

/-! ## Places -/

namespace Location

/-- Places whose text can be read back. -/
structure IsWritable (l : Location) : Prop where
  path : l.path.codes ≠ []
  line : 0 ≤ l.line
  digits : Decimal.IsReadable l.line.toNat

instance (l : Location) : Decidable l.IsWritable :=
  decidable_of_iff (l.path.codes ≠ [] ∧ 0 ≤ l.line ∧ Decimal.IsReadable l.line.toNat)
    ⟨fun h => ⟨h.1, h.2.1, h.2.2⟩, fun h => ⟨h.path, h.line, h.digits⟩⟩

theorem readLine_toDigits {n : Nat} (h : Decimal.IsReadable n) :
    readLine (Nat.toDigits 10 n) = .ok n := by
  have hlength : ((Nat.toDigits 10 n).takeWhile Text.isDecimal).length ≤ Decimal.digitLimit :=
    Nat.le_trans (List.takeWhile_sublist _).length_le h
  rw [readLine, if_neg (Nat.not_lt.2 hlength), Text.digitsValue?_toDigits]

theorem codes_toText {l : Location} (h : 0 ≤ l.line) :
    l.toText.codes
      = l.path.codes ++ ':'.toNat :: Text.codes (Nat.toDigits 10 l.line.toNat) := by
  rw [toText, WideText.codes_append, String.toList_append, toList_toString h]
  rfl

theorem splitLast?_toText {l : Location} (h : 0 ≤ l.line) :
    Text.splitLast? ':'.toNat l.toText.codes
      = some (l.path.codes, Text.codes (Nat.toDigits 10 l.line.toNat)) := by
  refine Text.splitLast?_eq_some.2 ⟨codes_toText h, fun hmem => ?_⟩
  obtain ⟨c, hc, hcolon⟩ := List.mem_map.1 hmem
  have hrange := toNat_of_isDigit (isDigit_of_mem_toDigits hc)
  rw [hcolon] at hrange
  exact absurd hrange (by decide)

/-- A place is read back from its text, with all colons of its path. -/
theorem parse_toText {l : Location} (h : l.IsWritable) : parse l.toText = .ok l := by
  have hpath : l.path.codes.isEmpty = false := List.isEmpty_eq_false_iff.2 h.path
  have hdigits : (Nat.toDigits 10 l.line.toNat).isEmpty = false :=
    List.isEmpty_eq_false_iff.2 Nat.toDigits_ne_nil
  have hall : (Nat.toDigits 10 l.line.toNat).all Text.isDigitLike = true := by
    refine List.all_eq_true.2 fun c hc => ?_
    rw [Text.isDigitLike, Text.isDecimal_of_isDigit (isDigit_of_mem_toDigits hc), Bool.true_or]
  have hline : ((l.line.toNat : Nat) : Int) = l.line := Int.toNat_of_nonneg h.line
  rw [parse, splitLast?_toText h.line]
  simp only [Text.characterOf_codes, hpath, hdigits, hall, Bool.not_true, Bool.or_self,
    Bool.false_eq_true, ↓reduceIte, readLine_toDigits h.digits, WideText.ofCodes_codes, hline]

end Location

end StructAtlas
