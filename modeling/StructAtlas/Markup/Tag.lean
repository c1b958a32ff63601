import StructAtlas.Decimal.Number
import StructAtlas.Markup.Timestamp

set_option autoImplicit false

/-!
# Tags

A tag says what a node stands for. A scalar without tag has the first of these that it has the form
of: truth value, floating point number, whole number, merge mark, absent value, date, default mark.
Any other scalar is a text. A line feed behind one of these forms does not count.
-/

namespace StructAtlas.Markup

/-- What a node stands for. -/
inductive Tag where
  | null
  | bool
  | int
  | float
  | binary
  | timestamp
  | omap
  | pairs
  | set
  | str
  | seq
  | map
  | merge
  | value
  | other
deriving Repr, DecidableEq, Inhabited

namespace Tag

/-- How the names of all tags with a meaning begin. -/
def standardStart : String := "tag:yaml.org,2002:"

/-- The tags with a meaning by the rest of their names. -/
def standard : List (String × Tag) :=
  [("null", .null), ("bool", .bool), ("int", .int), ("float", .float), ("binary", .binary),
   ("timestamp", .timestamp), ("omap", .omap), ("pairs", .pairs), ("set", .set), ("str", .str),
   ("seq", .seq), ("map", .map), ("merge", .merge), ("value", .value)]

/-- The tag of a full name. -/
def ofName (name : String) : Tag :=
  match standard.find? fun t => standardStart ++ t.1 == name with
  | some t => t.2
  | none => .other

/-! ## Forms of scalars without tag -/

/-- The words for truth values, each in lower case. -/
def truthWords : List (String × Bool) :=
  [("yes", true), ("no", false), ("true", true), ("false", false), ("on", true), ("off", false)]

/-- The three ways in which a word may be written. -/
def spellings (word : String) : List (List Char) :=
  [word.toList, (word.toList.head?.map Char.toUpper).toList ++ word.toList.tail,
   word.toList.map Char.toUpper]

/-- Whether a text is a word for a truth value. -/
def isTruth (cs : List Char) : Bool :=
  truthWords.any fun w => (spellings w.1).contains cs

/-- Whether a text stands for the absent value. -/
def isNull (cs : List Char) : Bool :=
  cs == ['~'] || (spellings "null").contains cs

/-- A digit or an underscore. -/
def isGrouped (c : Char) : Bool :=
  c.isDigit || c == '_'

/-- A part of a number in base sixty behind its first colon. -/
def isSixtieth : List Char → Bool
  | [d] => d.isDigit
  | [t, d] => '0' ≤ t && t ≤ '5' && d.isDigit
  | _ => false

/-- Whether an unsigned text is a whole number. -/
def isNatural (cs : List Char) : Bool :=
  match cs with
  | ['0'] => true
  | '0' :: 'b' :: ds => !ds.isEmpty && ds.all fun c => c == '0' || c == '1' || c == '_'
  | '0' :: 'x' :: ds => !ds.isEmpty && ds.all fun c => (Text.hexValue? c).isSome || c == '_'
  | '0' :: ds => ds.all fun c => ('0' ≤ c && c ≤ '7') || c == '_'
  | c :: _ =>
    match Text.splitOn ':' cs with
    | [] => false
    | first :: parts => c.isDigit && first.all isGrouped && parts.all isSixtieth
  | [] => false

/-- Whether a text is a whole number. -/
def isWhole (cs : List Char) : Bool :=
  isNatural (Decimal.takeSign cs).2

/-- Whether a text is an exponent, which has a sign, or nothing. -/
def isExponent : List Char → Bool
  | [] => true
  | e :: sign :: ds =>
    (e == 'e' || e == 'E') && (sign == '+' || sign == '-') && !ds.isEmpty && ds.all Char.isDigit
  | _ => false

/-- Whether an unsigned text is a number with a point. A number without digits before its point
takes no sign, which the flag tells. -/
def isFractional (signed : Bool) (cs : List Char) : Bool :=
  match Text.splitFirst? '.' cs with
  | none => false
  | some (whole, after) =>
    let fraction := after.takeWhile isGrouped
    let tail := after.dropWhile isGrouped
    match whole with
    | [] => !signed && fraction.head?.any Char.isDigit && isExponent tail
    | d :: _ =>
      match Text.splitOn ':' whole with
      | [first] => d.isDigit && first.all isGrouped && isExponent tail
      | first :: parts => d.isDigit && first.all isGrouped && parts.all isSixtieth && tail.isEmpty
      | [] => false

/-- Whether a text is a floating point number. The infinities are written as words, and so is the
number that is none, which takes no sign. -/
def isReal (cs : List Char) : Bool :=
  let body := (Decimal.takeSign cs).2
  let signed := body.length != cs.length
  ["inf", "Inf", "INF"].any (fun w => body == '.' :: w.toList)
    || (!signed && ["nan", "NaN", "NAN"].any fun w => body == '.' :: w.toList)
    || isFractional signed body

/-- The tag of a scalar by its form. -/
def ofForm (cs : List Char) : Tag :=
  let body := if cs.getLast? == some '\n' then cs.dropLast else cs
  if cs.isEmpty then .null
  else if isTruth body then .bool
  else if isReal body then .float
  else if isWhole body then .int
  else if body == ['<', '<'] then .merge
  else if isNull body then .null
  else if Timestamp.isPlain cs then .timestamp
  else if body == ['='] then .value
  else if body == ['!'] || body == ['&'] || body == ['*'] then .other
  else .str

end Tag

end StructAtlas.Markup
