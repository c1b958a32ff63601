import Mathlib.Data.List.Induction
import Mathlib.Data.List.TakeWhile
import Mathlib.Data.Nat.Digits.Lemmas
import StructAtlas.Failure
import StructAtlas.Proofs.Numerals

set_option autoImplicit false

/-!
# Texts of places

A text is that of a place if it is a path, a colon and a line number in decimal digits of any script
(`Location.Spells`). No digit is a colon, so the colon is the last one of the text, and the path and
the digits are determined by it. Reading gives the path and the number that the digits stand for
(`Location.parse_eq_ok_iff`); all other texts are refused. A place that was read can be written and
read back (`Location.isWritable_of_parse`).

A number has many numerals and is written with one of them: ASCII digits without a superfluous zero
in front (`Decimal.toDigits_value`). So reading inverts writing, and writing inverts reading for
texts with such a numeral (`Location.reading_inverts_writing`).
-/

namespace StructAtlas

/-! ## Numerals -/

namespace Decimal

/-- The number that digits of any script stand for, the most significant first. -/
def value (ds : List Char) : ℕ :=
  Nat.ofDigits 10 (ds.map fun c => (Text.digitValue? c).getD 0).reverse

/-- Digits as they are written: in ASCII, and without a zero in front of others. -/
structure IsNumeral (ds : List Char) : Prop where
  ascii : ∀ c ∈ ds, c.isDigit = true
  leading : ds.head? = some '0' → ds = ['0']

end Decimal

theorem Text.digitValue?_lt {c : Char} {d : ℕ} (h : digitValue? c = some d) : d < 10 := by
  rw [digitValue?] at h
  split at h
  · split at h
    · rename_i hdigit
      have hrange := toNat_of_isDigit ((between_digits c).symm.trans hdigit)
      obtain rfl := Option.some.inj h
      have hzero : '0'.toNat = 48 := rfl
      omega
    · cases h
  · obtain ⟨range, -, rfl⟩ := Option.map_eq_some_iff.1 h
    exact Nat.mod_lt _ (by decide)

namespace Decimal

/-- The number of so many digits is below that power of ten. -/
theorem value_lt (ds : List Char) : value ds < 10 ^ ds.length := by
  have hdigit : ∀ d ∈ (ds.map fun c => (Text.digitValue? c).getD 0).reverse, d < 10 := by
    intro d hd
    obtain ⟨c, -, rfl⟩ := List.mem_map.1 (List.mem_reverse.1 hd)
    cases hc : Text.digitValue? c with
    | none => exact Nat.zero_lt_succ 9
    | some d => exact Text.digitValue?_lt hc
  have hlt := Nat.ofDigits_lt_base_pow_length (by decide) hdigit
  rwa [List.length_reverse, List.length_map] at hlt

/-- Digits that are not too many stand for a number that can be read. -/
theorem isReadable_value {ds : List Char} (h : ds.length ≤ digitLimit) : IsReadable (value ds) :=
  (Nat.length_toDigits_le_iff (by decide) (by decide)).2
    (Nat.lt_of_lt_of_le (value_lt ds) (Nat.pow_le_pow_right (by decide) h))

theorem value_append_singleton (ds : List Char) (c : Char) :
    value (ds ++ [c]) = 10 * value ds + (Text.digitValue? c).getD 0 := by
  rw [value, value, List.map_append, List.reverse_append, List.map_singleton,
    List.reverse_singleton, List.singleton_append, Nat.ofDigits_cons, Nat.add_comm]

theorem value_cons (c : Char) (ds : List Char) :
    value (c :: ds) = (Text.digitValue? c).getD 0 * 10 ^ ds.length + value ds := by
  rw [value, value, List.map_cons, List.reverse_cons, Nat.ofDigits_append, Nat.ofDigits_singleton,
    List.length_reverse, List.length_map, Nat.add_comm, Nat.mul_comm]

theorem value_pos {c : Char} {ds : List Char} (hc : c.isDigit = true) (hzero : c ≠ '0') :
    0 < value (c :: ds) := by
  have hrange := toNat_of_isDigit hc
  have hne : c.toNat ≠ 48 := fun e => hzero (Char.ext (UInt32.toNat_inj.1 e))
  rw [value_cons, Text.digitValue?_of_isDigit hc, Option.getD_some]
  have hdigit : 0 < c.toNat - '0'.toNat := by
    have : '0'.toNat = 48 := rfl
    omega
  have hpow : 0 < 10 ^ ds.length := Nat.pow_pos (by decide)
  exact Nat.add_pos_left (Nat.mul_pos hdigit hpow) _

theorem digitChar_of_isDigit {c : Char} (h : c.isDigit = true) :
    Nat.digitChar (c.toNat - '0'.toNat) = c := by
  have hrange := toNat_of_isDigit h
  have hzero : '0'.toNat = 48 := rfl
  apply Char.ext
  apply UInt32.toNat_inj.1
  have hvalue := Nat.toNat_digitChar_of_lt_ten (n := c.toNat - '0'.toNat) (by omega)
  rw [Char.toNat] at hvalue
  rw [hvalue]
  change _ = c.toNat
  omega

/-- A numeral is what its number is written with. -/
theorem toDigits_value {ds : List Char} (h : IsNumeral ds) (hne : ds ≠ []) :
    Nat.toDigits 10 (value ds) = ds := by
  -- Writing cuts off the last digit, so the induction goes through the digits from behind.
  induction ds using List.reverseRecOn with
  | nil => exact absurd rfl hne
  | append_singleton front c ih =>
    have hc : c.isDigit = true := h.ascii c (by simp)
    have hrange := toNat_of_isDigit hc
    have hzero : '0'.toNat = 48 := rfl
    rw [value_append_singleton, Text.digitValue?_of_isDigit hc, Option.getD_some]
    cases front with
    | nil =>
      have hsingle : 10 * value [] + (c.toNat - '0'.toNat) = c.toNat - '0'.toNat := by
        simp [value]
      rw [hsingle, Nat.toDigits_of_lt_base (by omega), digitChar_of_isDigit hc]
      rfl
    | cons first middle =>
      have hfirst : first ≠ '0' := by
        rintro rfl
        have := h.leading rfl
        simp at this
      have hfront : IsNumeral (first :: middle) :=
        ⟨fun d hd => h.ascii d (List.mem_append_left _ hd),
          fun e => absurd (Option.some.inj e) hfirst⟩
      have hpos : 0 < value (first :: middle) :=
        value_pos (hfront.ascii first List.mem_cons_self) hfirst
      rw [Nat.toDigits_of_base_le (by decide) (by omega)]
      have hdiv : (10 * value (first :: middle) + (c.toNat - '0'.toNat)) / 10
          = value (first :: middle) := by omega
      have hmod : (10 * value (first :: middle) + (c.toNat - '0'.toNat)) % 10
          = c.toNat - '0'.toNat := by omega
      rw [hdiv, hmod, ih hfront (List.cons_ne_nil _ _), digitChar_of_isDigit hc]

theorem isNumeral_toDigits (n : ℕ) : IsNumeral (Nat.toDigits 10 n) where
  ascii _ h := isDigit_of_mem_toDigits h
  leading h := by
    obtain ⟨ds, hds⟩ := List.head?_eq_some_iff.1 h
    rw [hds, (eq_zero_of_toDigits hds).2]

/-- The numerals are the texts of numbers. -/
theorem toDigits_value_iff {ds : List Char} (hne : ds ≠ []) :
    Nat.toDigits 10 (value ds) = ds ↔ IsNumeral ds :=
  ⟨fun h => h ▸ isNumeral_toDigits _, fun h => toDigits_value h hne⟩

end Decimal

namespace Text

/-- Characters are read as digits if they are decimal, and add their value to what stands before
them. -/
theorem digitsValue?_eq_some_iff {ds : List Char} {n m : ℕ} :
    digitsValue? ds n = some m ↔
      (∀ c ∈ ds, isDecimal c = true) ∧ n * 10 ^ ds.length + Decimal.value ds = m := by
  induction ds generalizing n with
  | nil => simp [digitsValue?, Decimal.value]
  | cons c ds ih =>
    rw [digitsValue?, List.forall_mem_cons, isDecimal]
    cases hc : digitValue? c with
    | none => simp
    | some d =>
      have hsum : (n * 10 + d) * 10 ^ ds.length + Decimal.value ds
          = n * 10 ^ (c :: ds).length + Decimal.value (c :: ds) := by
        rw [Decimal.value_cons, hc, Option.getD_some, List.length_cons, Nat.pow_succ, Nat.add_mul,
          Nat.add_assoc, Nat.mul_assoc, Nat.mul_comm 10]
      simp only [Option.isSome_some, true_and]
      rw [ih, hsum]

end Text

/-! ## Places -/

namespace Location

/-- A line number is read if its digits are decimal and not too many. -/
theorem readLine_eq_ok_iff {ds : List Char} {n : ℕ} :
    readLine ds = .ok n ↔
      (∀ c ∈ ds, Text.isDecimal c = true) ∧ ds.length ≤ Decimal.digitLimit
        ∧ n = Decimal.value ds := by
  have hall : (∀ c ∈ ds, Text.isDecimal c = true) → ds.takeWhile Text.isDecimal = ds :=
    List.takeWhile_eq_self_iff.2
  rw [readLine]
  constructor
  · intro h
    split at h
    · cases h
    · rename_i hlength
      split at h
      · rename_i m hvalue
        obtain rfl := Except.ok.inj h
        obtain ⟨hdecimal, hvalue⟩ := Text.digitsValue?_eq_some_iff.1 hvalue
        rw [hall hdecimal] at hlength
        rw [Nat.zero_mul, Nat.zero_add] at hvalue
        exact ⟨hdecimal, Nat.not_lt.1 hlength, hvalue.symm⟩
      · cases h
  · rintro ⟨hdecimal, hlength, rfl⟩
    have hvalue : Text.digitsValue? ds 0 = some (Decimal.value ds) :=
      Text.digitsValue?_eq_some_iff.2 ⟨hdecimal, by rw [Nat.zero_mul, Nat.zero_add]⟩
    rw [hall hdecimal, if_neg (Nat.not_lt.2 hlength), hvalue]

/-- A text is a path, a colon and a line number. -/
structure Spells (text : WideText) (path : List ℕ) (ds : List Char) : Prop where
  split : text.codes = path ++ ':'.toNat :: Text.codes ds
  before : path ≠ []
  behind : ds ≠ []
  decimal : ∀ c ∈ ds, Text.isDecimal c = true
  length : ds.length ≤ Decimal.digitLimit

theorem not_isDigitLike_colon : Text.isDigitLike ':' = false := by decide

theorem isDigitLike_of_isDecimal {c : Char} (h : Text.isDecimal c = true) :
    Text.isDigitLike c = true := by
  rw [Text.isDigitLike, h, Bool.true_or]

/-- Code points that are shown as characters that look like digits are these characters. -/
theorem codes_characterOf {ns : List ℕ}
    (h : ∀ c ∈ ns.map Text.characterOf, Text.isDigitLike c = true) :
    Text.codes (ns.map Text.characterOf) = ns := by
  rw [Text.codes, List.map_map]
  refine (List.map_congr_left fun n hn => ?_).trans (List.map_id ns)
  have hlike := h _ (List.mem_map_of_mem hn)
  have hvalid : n.isValidChar := by
    refine Classical.byContradiction fun hbroken => ?_
    rw [Text.characterOf, if_neg hbroken] at hlike
    exact absurd hlike (by decide)
  rw [Function.comp, Text.characterOf, if_pos hvalid, Char.ofNat, dif_pos hvalid]
  rfl

/-- Behind a path and a colon, characters that look like digits are read as the line number. -/
theorem parse_of_isDigitLike {text : WideText} {path : List ℕ} {ds : List Char}
    (hsplit : text.codes = path ++ ':'.toNat :: Text.codes ds) (hpath : path ≠ []) (hne : ds ≠ [])
    (hlike : ∀ c ∈ ds, Text.isDigitLike c = true) :
    parse text = match readLine ds with
      | .ok n => .ok ⟨.ofCodes path, n⟩
      | .error fault => .error (.line fault) := by
  have hlast : Text.splitLast? ':'.toNat text.codes = some (path, Text.codes ds) := by
    refine Text.splitLast?_eq_some.2 ⟨hsplit, fun hmem => ?_⟩
    obtain ⟨c, hc, hcolon⟩ := List.mem_map.1 hmem
    obtain rfl : c = ':' := Char.ext (UInt32.toNat_inj.1 hcolon)
    exact absurd (hlike ':' hc) (by rw [not_isDigitLike_colon]; decide)
  have hform : ¬ (path.isEmpty || ds.isEmpty || !ds.all Text.isDigitLike) = true := by
    simp [hpath, hne, List.all_eq_true.2 hlike]
  rw [parse, hlast]
  simp only [Text.characterOf_codes]
  exact if_neg hform

theorem parse_of_spells {text : WideText} {path : List ℕ} {ds : List Char}
    (h : Spells text path ds) : parse text = .ok ⟨.ofCodes path, Decimal.value ds⟩ := by
  rw [parse_of_isDigitLike h.split h.before h.behind fun c hc =>
    isDigitLike_of_isDecimal (h.decimal c hc),
    readLine_eq_ok_iff.2 ⟨h.decimal, h.length, rfl⟩]

/-- The texts that are read are those of places. -/
theorem parse_eq_ok_iff {text : WideText} {l : Location} :
    parse text = .ok l ↔
      ∃ path ds, Spells text path ds ∧ l = ⟨.ofCodes path, Decimal.value ds⟩ := by
  constructor
  · intro h
    rw [parse] at h
    split at h
    · rename_i path behind hsplit
      dsimp only at h
      split at h
      · cases h
      · rename_i hform
        split at h
        · rename_i n hline
          obtain ⟨hdecimal, hlength, rfl⟩ := readLine_eq_ok_iff.1 hline
          simp only [Bool.or_eq_true, not_or, List.isEmpty_iff] at hform
          have hbehind := codes_characterOf fun c hc => isDigitLike_of_isDecimal (hdecimal c hc)
          have hcodes := (Text.splitLast?_eq_some.1 hsplit).1
          rw [← hbehind] at hcodes
          exact ⟨path, behind.map Text.characterOf, ⟨hcodes, hform.1.1, hform.1.2, hdecimal,
            hlength⟩, (Except.ok.inj h).symm⟩
        · cases h
    · cases h
  · rintro ⟨path, ds, h, rfl⟩
    exact parse_of_spells h

/-- A place that was read can be written and read back. -/
theorem isWritable_of_parse {text : WideText} {l : Location} (h : parse text = .ok l) :
    l.IsWritable := by
  obtain ⟨path, ds, hspells, rfl⟩ := parse_eq_ok_iff.1 h
  refine ⟨?_, Int.natCast_nonneg _, Decimal.isReadable_value hspells.length⟩
  rw [WideText.codes_ofCodes]
  exact hspells.before

theorem codes_injective : Function.Injective Text.codes :=
  List.map_injective_iff.2 fun _ _ h => Char.ext (UInt32.toNat_inj.1 h)

/-- Writing gives a text back if its line number is a numeral. -/
theorem toText_of_spells {text : WideText} {path : List ℕ} {ds : List Char}
    (h : Spells text path ds) :
    toText ⟨.ofCodes path, Decimal.value ds⟩ = text ↔ Decimal.IsNumeral ds := by
  rw [← WideText.codes_inj, codes_toText (Int.natCast_nonneg _), h.split, WideText.codes_ofCodes,
    List.append_cancel_left_eq, List.cons.injEq, Int.toNat_natCast, codes_injective.eq_iff]
  exact (and_iff_right rfl).trans (Decimal.toDigits_value_iff h.behind)

/-- **Reading inverts writing.** A text is read exactly if it is a path, a colon and a line number
of at most `Decimal.digitLimit` decimal digits of any script, and then as this path and the number
that the digits stand for. Every other text is refused as a wrong value, also if it ends in
characters that only look like digits. A place with a path and a line number that is not negative
and has no more digits is read back from its text. Writing gives the text that was read exactly if
its digits are in ASCII without a superfluous zero in front. -/
theorem reading_inverts_writing (text : WideText) :
    (∀ l, parse text = .ok l ↔
        ∃ path ds, Spells text path ds ∧ l = ⟨.ofCodes path, Decimal.value ds⟩)
      ∧ ((∀ path ds, ¬ Spells text path ds) → ∃ fault, parse text = .error fault
        ∧ (Failure.content (.place fault)).kindName = "ValueError")
      ∧ (∀ path ds, text.codes = path ++ ':'.toNat :: Text.codes ds → path ≠ [] →
        (∀ c ∈ ds, Text.isDigitLike c = true) → (∃ c ∈ ds, Text.isDecimal c = false) →
        ∃ fault, parse text = .error (.line fault))
      ∧ (∀ l, l.IsWritable → parse l.toText = .ok l)
      ∧ ∀ path ds l, Spells text path ds → parse text = .ok l →
        (l.toText = text ↔ Decimal.IsNumeral ds) := by
  refine ⟨fun l => parse_eq_ok_iff, ?_, ?_, fun l => parse_toText, ?_⟩
  · intro hno
    cases hparse : parse text with
    | ok l =>
      obtain ⟨path, ds, h, -⟩ := parse_eq_ok_iff.1 hparse
      exact absurd h (hno path ds)
    | error fault => exact ⟨fault, rfl, rfl⟩
  · rintro path ds hsplit hpath hlike ⟨c, hc, hdecimal⟩
    rw [parse_of_isDigitLike hsplit hpath (List.ne_nil_of_mem hc) hlike]
    cases hline : readLine ds with
    | ok n =>
      have := (readLine_eq_ok_iff.1 hline).1 c hc
      rw [hdecimal] at this
      cases this
    | error fault => exact ⟨fault, rfl⟩
  · intro path ds l h hparse
    obtain rfl := Except.ok.inj ((parse_of_spells h).symm.trans hparse)
    exact toText_of_spells h

/-- A path with a colon and digits of two scripts, a superscript, and a text without a colon. -/
theorem reading_of_two_scripts :
    Spells "c:1:४2" (Text.codes "c:1".toList) "४2".toList ∧ parse "c:1:४2" = .ok ⟨"c:1", 42⟩
      ∧ toText ⟨"c:1", 42⟩ ≠ "c:1:४2"
      ∧ IsWritable ⟨"c:1", 42⟩ ∧ parse (toText ⟨"c:1", 42⟩) = .ok ⟨"c:1", 42⟩
      ∧ (∃ fault, parse "c:²" = .error (.line fault))
      ∧ ∃ fault, parse "c" = .error fault
        ∧ (Failure.content (.place fault)).kindName = "ValueError" := by
  have hspells : Spells "c:1:४2" (Text.codes "c:1".toList) "४2".toList :=
    ⟨by decide, by decide, by decide, List.all_eq_true.1 (by decide), by decide⟩
  have hwritable : IsWritable ⟨"c:1", 42⟩ := by decide
  obtain ⟨hreads, -, -, hback, hagain⟩ := reading_inverts_writing "c:1:४2"
  have hparse : parse "c:1:४2" = .ok ⟨"c:1", 42⟩ := (hreads _).2 ⟨_, _, hspells, by decide +kernel⟩
  refine ⟨hspells, hparse, ?_, hwritable, hback _ hwritable, ?_, ?_⟩
  · intro h
    have hascii := ((hagain _ _ _ hspells hparse).1 h).ascii '४' (by decide)
    exact absurd hascii (by decide)
  · exact (reading_inverts_writing "c:²").2.2.1 (Text.codes "c".toList) ['²'] (by decide)
      (by decide) (List.all_eq_true.1 (by decide)) ⟨'²', by decide, by decide⟩
  · refine (reading_inverts_writing "c").2.1 fun path ds h => ?_
    have hcolon : ':'.toNat ∈ (WideText.plain "c").codes := by
      rw [h.split]
      simp
    exact absurd hcolon (by decide)

end Location

end StructAtlas
