import StructAtlas.Source

set_option autoImplicit false

/-!
# Reading what was written in UTF-8

The bytes of a character are read back as this character, whatever follows (`step_encodeChar`), so
decoding inverts encoding (`decode_encode`). The second byte of a longer sequence is where the
restrictions on surrogates and on the last code point show; there the range of characters is needed.

Files are read with their line ends unified, which changes nothing in a text without carriage
returns (`Source.unifyLineEnds_of_not_mem`). So a file in UTF-8 is read as it is
(`Source.decode_encoded`).
-/

namespace StructAtlas.Charset.Utf8

/-! ## Single bytes -/

theorem toNat_ofNat_of_lt {n : Nat} (h : n < 256) : (UInt8.ofNat n).toNat = n := by
  rw [UInt8.toNat_ofNat']
  exact Nat.mod_eq_of_lt h

theorem toNat_tailByte (n : Nat) : (tailByte n).toNat = 0x80 + n % 0x40 := by
  have hlt : 0x80 + n % 0x40 < 256 := by omega
  unfold tailByte
  exact toNat_ofNat_of_lt hlt

theorem payload_tailByte (n : Nat) : payload (tailByte n) = n % 0x40 := by
  have hbyte := toNat_tailByte n
  unfold payload
  omega

/-- A byte between two bounds, seen as a number. -/
theorem between_iff {b low high : UInt8} :
    (low ≤ b && b ≤ high) = true ↔ low.toNat ≤ b.toNat ∧ b.toNat ≤ high.toNat := by
  simp [UInt8.le_iff_toNat_le]

theorem isTail_tailByte (n : Nat) : isTail (tailByte n) = true := by
  rw [isTail, between_iff, toNat_tailByte]
  simp
  omega

/-- Which second bytes a first byte admits, seen as numbers. -/
theorem isSecond_of {a : UInt8} {n : Nat} (h₁ : a.toNat = 0xe0 → 0x20 ≤ n % 0x40)
    (h₂ : a.toNat = 0xed → n % 0x40 < 0x20) (h₃ : a.toNat = 0xf0 → 0x10 ≤ n % 0x40)
    (h₄ : a.toNat = 0xf4 → n % 0x40 < 0x10) : isSecond a (tailByte n) = true := by
  have hbyte := toNat_tailByte n
  -- Four first bytes narrow the range of the second one; any other admits every tail byte.
  rw [isSecond]
  simp only [beq_iff_eq, ← UInt8.toNat_inj, UInt8.reduceToNat]
  split
  · rename_i h
    have := h₁ h
    rw [between_iff]
    simp only [UInt8.reduceToNat]
    omega
  · split
    · rename_i h
      have := h₂ h
      rw [between_iff]
      simp only [UInt8.reduceToNat]
      omega
    · split
      · rename_i h
        have := h₃ h
        rw [between_iff]
        simp only [UInt8.reduceToNat]
        omega
      · split
        · rename_i h
          have := h₄ h
          rw [between_iff]
          simp only [UInt8.reduceToNat]
          omega
        · exact isTail_tailByte n

/-! ## One character -/

theorem toNat_range (c : Char) : c.toNat < 0xd800 ∨ 0xe000 ≤ c.toNat ∧ c.toNat < 0x110000 := by
  rcases c.valid with h | ⟨h, h'⟩
  · exact Or.inl h
  · exact Or.inr ⟨by change 0xe000 ≤ c.val.toNat; omega, h'⟩

theorem lt_iff {a b : UInt8} : a < b ↔ a.toNat < b.toNat :=
  UInt8.lt_iff_toNat_lt

theorem two_encoded {c : Char} (h : 0x80 ≤ c.toNat) (h' : c.toNat < 0x800) (rest : List UInt8) :
    step (UInt8.ofNat (0xc0 + c.toNat / 0x40)) (tailByte c.toNat :: rest) = .char c 2 := by
  have hfirst : (UInt8.ofNat (0xc0 + c.toNat / 0x40)).toNat = 0xc0 + c.toNat / 0x40 :=
    toNat_ofNat_of_lt (by omega)
  have hsum : (0xc0 + c.toNat / 0x40 - 0xc0) * 0x40 + c.toNat % 0x40 = c.toNat := by omega
  rw [step]
  simp only [lt_iff, hfirst, UInt8.reduceToNat]
  rw [if_neg (by omega), if_neg (by omega), if_pos (by omega), two, isTail_tailByte, if_pos rfl,
    hfirst, payload_tailByte, hsum, Char.ofNat_toNat]

theorem three_encoded {c : Char} (h : 0x800 ≤ c.toNat) (h' : c.toNat < 0x10000)
    (rest : List UInt8) :
    step (UInt8.ofNat (0xe0 + c.toNat / 0x1000))
      (tailByte (c.toNat / 0x40) :: tailByte c.toNat :: rest) = .char c 3 := by
  have hrange := toNat_range c
  have hfirst : (UInt8.ofNat (0xe0 + c.toNat / 0x1000)).toNat = 0xe0 + c.toNat / 0x1000 :=
    toNat_ofNat_of_lt (by omega)
  have hsum : (0xe0 + c.toNat / 0x1000 - 0xe0) * 0x1000 + c.toNat / 0x40 % 0x40 * 0x40
      + c.toNat % 0x40 = c.toNat := by omega
  have hsecond : isSecond (UInt8.ofNat (0xe0 + c.toNat / 0x1000)) (tailByte (c.toNat / 0x40))
      = true := by
    -- The bounds on the second byte keep out surrogates and longer forms of smaller numbers.
    apply isSecond_of <;> rw [hfirst] <;> omega
  rw [step]
  simp only [lt_iff, hfirst, UInt8.reduceToNat]
  rw [if_neg (by omega), if_neg (by omega), if_neg (by omega), if_pos (by omega), three, hsecond,
    isTail_tailByte]
  simp only [Bool.not_true, Bool.false_eq_true, ↓reduceIte]
  rw [hfirst, payload_tailByte, payload_tailByte, hsum, Char.ofNat_toNat]

theorem four_encoded {c : Char} (h : 0x10000 ≤ c.toNat) (rest : List UInt8) :
    step (UInt8.ofNat (0xf0 + c.toNat / 0x40000))
      (tailByte (c.toNat / 0x1000) :: tailByte (c.toNat / 0x40) :: tailByte c.toNat :: rest)
      = .char c 4 := by
  have hrange := toNat_range c
  have hfirst : (UInt8.ofNat (0xf0 + c.toNat / 0x40000)).toNat = 0xf0 + c.toNat / 0x40000 :=
    toNat_ofNat_of_lt (by omega)
  have hsum : (0xf0 + c.toNat / 0x40000 - 0xf0) * 0x40000 + c.toNat / 0x1000 % 0x40 * 0x1000
      + c.toNat / 0x40 % 0x40 * 0x40 + c.toNat % 0x40 = c.toNat := by omega
  have hsecond : isSecond (UInt8.ofNat (0xf0 + c.toNat / 0x40000)) (tailByte (c.toNat / 0x1000))
      = true := by
    apply isSecond_of <;> rw [hfirst] <;> omega
  rw [step]
  simp only [lt_iff, hfirst, UInt8.reduceToNat]
  rw [if_neg (by omega), if_neg (by omega), if_neg (by omega), if_neg (by omega),
    if_pos (by omega), four, hsecond, isTail_tailByte, isTail_tailByte]
  simp only [Bool.not_true, Bool.false_eq_true, ↓reduceIte]
  rw [hfirst, payload_tailByte, payload_tailByte, payload_tailByte, hsum, Char.ofNat_toNat]

theorem one_encoded {c : Char} (h : c.toNat < 0x80) (rest : List UInt8) :
    step (UInt8.ofNat c.toNat) rest = .char c 1 := by
  have hfirst : (UInt8.ofNat c.toNat).toNat = c.toNat := toNat_ofNat_of_lt (by omega)
  rw [step]
  simp only [lt_iff, hfirst, UInt8.reduceToNat]
  rw [if_pos h, Char.ofNat_toNat]

/-- The bytes of a character are read as this character, whatever follows. -/
theorem step_encodeChar (c : Char) :
    ∃ b bs, encodeChar c = b :: bs ∧ ∀ rest, step b (bs ++ rest) = .char c (bs.length + 1) := by
  by_cases h₁ : c.toNat < 0x80
  · exact ⟨_, [], by rw [encodeChar, if_pos h₁], one_encoded h₁⟩
  by_cases h₂ : c.toNat < 0x800
  · exact ⟨_, [_], by rw [encodeChar, if_neg h₁, if_pos h₂], two_encoded (by omega) h₂⟩
  by_cases h₃ : c.toNat < 0x10000
  · exact ⟨_, [_, _], by rw [encodeChar, if_neg h₁, if_neg h₂, if_pos h₃],
      three_encoded (by omega) h₃⟩
  · exact ⟨_, [_, _, _], by rw [encodeChar, if_neg h₁, if_neg h₂, if_neg h₃],
      four_encoded (by omega)⟩

/-! ## A whole text -/

theorem decodeFrom_pending (pending pos : Nat) (bs : List UInt8) :
    decodeFrom pending pos bs = decodeFrom 0 (pos + pending) (bs.drop pending) := by
  induction pending generalizing pos bs with
  | zero => rfl
  | succ pending ih =>
    cases bs with
    | nil => simp [decodeFrom]
    | cons b bs =>
      rw [decodeFrom, ih, List.drop_succ_cons, Nat.add_assoc, Nat.add_comm 1 pending]

theorem decodeFrom_encode (pos : Nat) (cs : List Char) : decodeFrom 0 pos (encode cs) = .ok cs := by
  induction cs generalizing pos with
  | nil => rfl
  | cons c cs ih =>
    obtain ⟨b, bs, hbytes, hstep⟩ := step_encodeChar c
    have hcons : encode (c :: cs) = b :: (bs ++ encode cs) := by
      rw [encode, List.flatMap_cons, hbytes]
      rfl
    rw [hcons, decodeFrom, hstep]
    simp only [Nat.add_one_sub_one]
    -- The bytes behind the first one are passed over as pending.
    rw [decodeFrom_pending, List.drop_left' rfl, ih]
    rfl

/-- Decoding inverts encoding. -/
theorem decode_encode (cs : List Char) : decode (encode cs) = .ok cs :=
  decodeFrom_encode 0 cs

end StructAtlas.Charset.Utf8

namespace StructAtlas

/-! ## Names of character sets -/

namespace Charset

variable {library : Library} {name : String} {charset : Charset}
  {decoder : List UInt8 → Except DecodeFault (List Char)}

theorem decoder_nil (h : charset.decoder? = some decoder) : decoder [] = .ok [] := by
  cases charset <;> cases h <;> rfl

namespace Codec

/-- Under the name of a set that has a decoder, bytes are decoded by it. -/
theorem decode_named (library : Library) (hnull : '\x00' ∉ name.toList)
    (hfind : find? name = some charset) (hdecoder : charset.decoder? = some decoder)
    (bytes : List UInt8) : (named library name).decode bytes = (decoder bytes).mapError .bytes := by
  cases bytes with
  | nil =>
    rw [decoder_nil hdecoder]
    rfl
  | cons b bytes =>
    rw [decode, List.isEmpty_cons, if_neg Bool.false_ne_true]
    show decoderOf library name (b :: bytes) = _
    rw [decoderOf, if_neg (by simpa using hnull), hfind]
    cases charset <;> cases hdecoder <;> rfl

/-- A codec that decodes UTF-8. -/
def IsUtf8 (codec : Codec) : Prop :=
  ∀ bytes, codec.decode bytes = (Utf8.decode bytes).mapError .bytes

theorem isUtf8_utf8 : utf8.IsUtf8 := by
  intro bytes
  cases bytes with
  | nil => rfl
  | cons b bytes => rfl

end Codec

end Charset

/-! ## Line ends -/

/-- A text without carriage returns has its line ends already. -/
theorem Source.unifyLineEnds_of_not_mem {cs : List Char} (h : '\r' ∉ cs) :
    unifyLineEnds cs = cs := by
  have hjoin : joinLineEnds cs = cs := by
    induction cs with
    | nil => rfl
    | cons c cs ih =>
      have hc : c ≠ '\r' := fun e => h (e ▸ List.mem_cons_self)
      have hrest := ih fun hm => h (List.mem_cons_of_mem _ hm)
      rw [joinLineEnds.eq_def]
      split
      · rename_i e
        cases e
      · rename_i e
        exact absurd (List.cons.inj e).1 hc
      · rename_i e
        obtain ⟨rfl, rfl⟩ := List.cons.inj e
        rw [hrest]
  rw [unifyLineEnds, hjoin]
  have hmap : cs.map (fun c => if c == '\r' then '\n' else c) = cs.map id := by
    apply List.map_congr_left
    intro c hc
    have hne : ¬ (c == '\r') = true := by
      rw [beq_iff_eq]
      rintro rfl
      exact h hc
    exact if_neg hne
  rw [hmap, List.map_id]

/-- A file in UTF-8 is read as it is. -/
theorem Source.decode_encoded {primary : Charset.Codec} {text : List Char}
    (fallback : Charset.Codec) (hutf8 : primary.IsUtf8) (hends : '\r' ∉ text) :
    Source.decode primary fallback (Charset.Utf8.encode text) = ⟨false, .ok text⟩ := by
  have hdecode : primary.decode (Charset.Utf8.encode text) = .ok text := by
    rw [hutf8, Charset.Utf8.decode_encode]
    rfl
  rw [Source.decode, hdecode]
  simp only [Source.unifyLineEnds_of_not_mem hends]

end StructAtlas
