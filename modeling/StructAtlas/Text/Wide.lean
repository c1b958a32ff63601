import StructAtlas.Text.Quoted

set_option autoImplicit false

/-!
# Texts of code points

A text in a report or in a configuration file may hold code points that are no characters, namely
halves of pairs of a text in 16 bit units. A `WideText` is a text of characters, or a text with such
a code point in it. Every list of code points is that of one such text (`WideText.codes_ofCodes`,
`WideText.ofCodes_codes`).
-/

namespace StructAtlas

namespace Text

/-- Whether all code points of a text are characters. -/
def areCharacters (codes : List Nat) : Bool :=
  codes.all fun n => decide n.isValidChar

/-- The character of a code point; the replacement character stands for what is none. -/
def characterOf (n : Nat) : Char :=
  if n.isValidChar then Char.ofNat n else '\ufffd'

theorem areCharacters_codes (cs : List Char) : areCharacters (codes cs) = true := by
  refine List.all_eq_true.2 fun n hn => decide_eq_true ?_
  obtain ⟨c, -, rfl⟩ := List.mem_map.1 hn
  exact c.valid

theorem ofNat_codes (cs : List Char) : (codes cs).map Char.ofNat = cs := by
  have h : Char.ofNat ∘ Char.toNat = id := funext fun c => Char.ofNat_toNat c
  rw [codes, List.map_map, h, List.map_id]

theorem codes_ofNat {ns : List Nat} (h : areCharacters ns = true) :
    codes (ns.map Char.ofNat) = ns := by
  rw [codes, List.map_map]
  refine (List.map_congr_left fun n hn => ?_).trans (List.map_id ns)
  have hn : n.isValidChar := of_decide_eq_true (List.all_eq_true.1 h n hn)
  rw [Function.comp, Char.ofNat, dif_pos hn]
  rfl

theorem characterOf_toNat (c : Char) : characterOf c.toNat = c := by
  have h : c.toNat.isValidChar := c.valid
  rw [characterOf, if_pos h, Char.ofNat_toNat]

theorem characterOf_codes (cs : List Char) : (codes cs).map characterOf = cs := by
  rw [codes, List.map_map]
  exact (List.map_congr_left fun c _ => characterOf_toNat c).trans (List.map_id cs)

end Text

/-- A text of code points: a text of characters, or a text with code points that are none. -/
inductive WideText where
  | plain (s : String)
  | broken (codes : List Nat) (h : Text.areCharacters codes = false)
deriving Repr, DecidableEq

namespace WideText

instance : Inhabited WideText := ⟨.plain ""⟩

instance : Coe String WideText := ⟨.plain⟩

/-- The code points of a text. -/
def codes : WideText → List Nat
  | .plain s => Text.codes s.toList
  | .broken codes _ => codes

/-- The text of code points. -/
def ofCodes (codes : List Nat) : WideText :=
  if h : Text.areCharacters codes = true then .plain (String.ofList (codes.map Char.ofNat))
  else .broken codes (by simpa using h)

theorem codes_ofCodes (ns : List Nat) : (ofCodes ns).codes = ns := by
  rw [ofCodes]
  split
  · rename_i h
    rw [codes, String.toList_ofList, Text.codes_ofNat h]
  · rfl

theorem ofCodes_codes (text : WideText) : ofCodes text.codes = text := by
  cases text with
  | plain s => rw [codes, ofCodes, dif_pos (Text.areCharacters_codes _), Text.ofNat_codes,
      String.ofList_toList]
  | broken ns h => rw [codes, ofCodes, dif_neg (by simp [h])]

theorem codes_inj {text text' : WideText} : text.codes = text'.codes ↔ text = text' :=
  ⟨fun h => by rw [← ofCodes_codes text, h, ofCodes_codes], fun h => by rw [h]⟩

/-- The text in characters; the replacement character stands for what is none. -/
def shown : WideText → String
  | .plain s => s
  | .broken codes _ => String.ofList (codes.map Text.characterOf)

/-- The text between quotes. -/
def quoted : WideText → String
  | .plain s => Text.quote s
  | .broken codes _ => String.ofList (Text.quotedCodes codes)

/-- The text with more characters at its end. -/
def append : WideText → String → WideText
  | .plain s, more => .plain (s ++ more)
  | .broken codes h, more => .broken (codes ++ Text.codes more.toList) (by
      rw [Text.areCharacters, List.all_append, Bool.and_eq_false_iff]
      exact Or.inl h)

theorem codes_append (text : WideText) (more : String) :
    (text.append more).codes = text.codes ++ Text.codes more.toList := by
  cases text with
  | plain s => simp [append, codes, Text.codes]
  | broken ns h => rfl

end WideText

end StructAtlas
