import StructAtlas.Decimal.Binary

set_option autoImplicit false

/-!
# Shortest decimal of a binary fraction

A finite binary number is `m * 2 ^ q`. Every real number strictly between the middles to its two
neighbours rounds to it, and so do the middles themselves when `m` is even. `shortest` finds the
decimal with the fewest digits in that interval: for one digit, two digits, and so on it looks at
the two neighbours of the value on the grid of decimals with that many digits; the first grid with a
hit wins, of two hits the nearer one, and of two equally near ones the even one.
-/

namespace StructAtlas.Decimal

/-- The number `0.d₁d₂… * 10 ^ point`, where `d₁d₂…` are the digits of `digits`. -/
structure Scaled where
  digits : Nat
  point : Int
deriving Repr, DecidableEq

/-- Compares `a * 10 ^ k` with `b / d`. -/
def compareScaled (a : Nat) (k : Int) (b d : Nat) : Ordering :=
  if 0 ≤ k then compare (a * tenPow k.toNat * d) b
  else compare (a * d) (b * tenPow (-k).toNat)

/-- The least `p` in `from, from + 1, …` with `num / den < 10 ^ p`, among `fuel` candidates. -/
def pointFrom (num den : Nat) : Nat → Int → Int
  | 0, p => p
  | fuel + 1, p => if compareScaled 1 p num den == .gt then p else pointFrom num den fuel (p + 1)

/-- The whole part of `num / (den * 10 ^ k)`. -/
def floorScaled (num den : Nat) (k : Int) : Nat :=
  if 0 ≤ k then num / (den * tenPow k.toNat) else num * tenPow (-k).toNat / den

/-- The hits of one grid: the neighbours `c` and `c + 1` of the value that lie in the interval. -/
def gridHit (num den low high : Nat) (closed : Bool) (k : Int) : Option Nat :=
  let c := floorScaled num den k
  let within (x : Nat) : Bool :=
    match compareScaled x k low den, compareScaled x k high den with
    | .gt, .lt => true
    | .eq, .lt => closed
    | .gt, .eq => closed
    | _, _ => false
  match within c, within (c + 1) with
  | true, false => some c
  | false, true => some (c + 1)
  | true, true =>
    match compareScaled (2 * c + 1) k (2 * num) den with
    | .gt => some c
    | .lt => some (c + 1)
    | .eq => some (if c % 2 == 0 then c else c + 1)
  | false, false => none

/-- Searches the grids of `n, n + 1, …` digits, at most `fuel` of them. -/
def searchGrids (num den low high : Nat) (closed : Bool) (point : Int) : Nat → Nat → Scaled
  | 0, n => ⟨floorScaled num den (point - n), point⟩
  | fuel + 1, n =>
    match gridHit num den low high closed (point - n) with
    | some c => if c == tenPow n then ⟨1, point + 1⟩ else ⟨c, point⟩
    | none => searchGrids num den low high closed point fuel (n + 1)

/-- The shortest decimal that rounds to `m * 2 ^ q`. `narrow` says that the lower neighbour is only
half as far away, as it is at a power of two. -/
def shortest (m : Nat) (q : Int) (narrow : Bool) : Scaled :=
  let scale := twoPow q.toNat
  let den := 4 * twoPow (-q).toNat
  let num := 4 * m * scale
  let low := (4 * m - (if narrow then 1 else 2)) * scale
  let high := (4 * m + 2) * scale
  let point := pointFrom num den 800 (-400)
  searchGrids num den low high (m % 2 == 0) point 17 1

/-- The digits of a number without trailing zeros. -/
def significant (n : Nat) : List Char :=
  ((Nat.toDigits 10 n).reverse.dropWhile (· == '0')).reverse

/-- How a decimal number is written: up to which powers of ten positionally, and otherwise with a
signed exponent of at least two digits. -/
structure Style where
  positionalBelow : Int
  positionalFrom : Int

/-- Numbers are written positionally from `0.0001` to below `10 ^ 16`. -/
def plainStyle : Style := ⟨16, -4⟩

/-- At least two digits of an exponent, after its sign. -/
def exponentText (e : Int) : List Char :=
  let digits := Nat.toDigits 10 e.natAbs
  (if e < 0 then '-' else '+') :: (if digits.length < 2 then '0' :: digits else digits)

/-- Writes a scaled number; a whole number keeps one zero after the point. -/
def Style.write (style : Style) (s : Scaled) : List Char :=
  let ds := significant s.digits
  let e := s.point - 1
  if style.positionalFrom ≤ e && e < style.positionalBelow then
    if s.point ≤ 0 then '0' :: '.' :: List.replicate (-s.point).toNat '0' ++ ds
    else
      let n := s.point.toNat
      if ds.length ≤ n then ds ++ List.replicate (n - ds.length) '0' ++ ['.', '0']
      else ds.take n ++ '.' :: ds.drop n
  else
    let front := match ds with
      | [] => ['0']
      | [d] => [d]
      | d :: more => d :: '.' :: more
    front ++ 'e' :: exponentText e

/-- The text of a binary floating point number: the shortest decimal that reads back as it. -/
def ofFloat (x : Float) : String :=
  let b := Binary.ofFloat x
  let sign := if b.negative then "-" else ""
  if !b.isFinite then if b.fraction == 0 then sign ++ "inf" else "nan"
  else if b.isZero then sign ++ "0.0"
  else sign ++ String.ofList (plainStyle.write (shortest b.mantissa b.power b.isNarrow))

end StructAtlas.Decimal
