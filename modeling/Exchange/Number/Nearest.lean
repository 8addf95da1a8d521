import Exchange.Number.Shortest

/-!
# Reading decimals as doubles

`Nearest.ofRatio` rounds a positive fraction `num / den` to the nearest double in exact
natural-number arithmetic, ties to the even significand, so every decimal text reads as the double
that is closest to it.

The fraction is first placed in a binade: with `k` chosen so that `2^52 ≤ num / (den · 2^k) < 2^53`
(or `k = -1074` below the normal range), the significand is the quotient of `num` by `den · 2^k`,
rounded on its remainder. The bit pattern is then `(k + 1074) · 2^52 + significand`; a significand
that rounds up to `2^53` carries into the exponent field by itself, and a pattern at or past the
one of infinity is infinity.

`parseFloat?` reads the text of a double in the usual grammar: an optional sign, then `inf`,
`infinity` or `nan` in any case, or digits with an optional point (at least one digit on one side)
and an optional exponent.
-/

namespace Exchange.Nearest

/-- The bits of positive infinity. -/
def infBits : Nat := 2047 * Nat.pow 2 52

/-- The bit pattern of the double nearest `num / den`, for `num` and `den` positive. -/
def ofRatio (num den : Nat) : Nat :=
  let quot (k : Int) : Nat × Nat :=
    if k ≤ 0 then
      let a := num * Nat.pow 2 (-k).toNat
      (a / den, a % den)
    else
      let b := den * Nat.pow 2 k.toNat
      (num / b, num % b)
  let k0 : Int := (num.log2 : Int) - den.log2 - 52
  let k := if Nat.pow 2 52 ≤ (quot k0).1 then k0 else k0 - 1
  let k := max k (-1074)
  let b : Nat := if k ≤ 0 then den else den * Nat.pow 2 k.toNat
  let (q, r) := quot k
  let mant := if 2 * r > b ∨ (2 * r = b ∧ q % 2 = 1) then q + 1 else q
  let bits := (k + 1074).toNat * Nat.pow 2 52 + mant
  if infBits ≤ bits then infBits else bits

/-- The double nearest `digits · 10^exp`, negated when asked. -/
def ofDecimal (negative : Bool) (digits : Nat) (exp : Int) : Float :=
  let sign : Nat := if negative then Nat.pow 2 63 else 0
  let magnitude : Nat :=
    if digits = 0 then 0
    else
      let size : Int := Shortest.digitCount digits + exp
      if 400 < size then infBits
      else if size < -400 then 0
      else if 0 ≤ exp then ofRatio (digits * Nat.pow 10 exp.toNat) 1
      else ofRatio digits (Nat.pow 10 (-exp).toNat)
  Float.ofBits (sign + magnitude).toUInt64

/-- A quiet NaN. -/
def nan : Float := Float.ofBits 0x7FF8000000000000

/-- Infinity, negated when asked. -/
def infinity (negative : Bool) : Float :=
  Float.ofBits (if negative then 0xFFF0000000000000 else 0x7FF0000000000000)

/-- The value of a run of decimal digits. -/
def digitsValue (ds : List Char) : Nat :=
  ds.foldl (fun n c => 10 * n + (c.toNat - '0'.toNat)) 0

/-- Splits off the longest prefix of decimal digits. -/
def spanDigits (cs : List Char) : List Char × List Char := cs.span Char.isDigit

/-- Reads an exponent: an optional sign and at least one digit, and nothing after. -/
def exponent? (cs : List Char) : Option Int :=
  let (neg, rest) := match cs with
    | '+' :: r => (false, r)
    | '-' :: r => (true, r)
    | r => (false, r)
  let (ds, tail) := spanDigits rest
  if ds.isEmpty || !tail.isEmpty then none
  else
    let v : Int := digitsValue ds
    some (if neg then -v else v)

/-- Reads an unsigned decimal number with optional point and exponent. -/
def unsigned? (negative : Bool) (cs : List Char) : Option Float :=
  let (whole, rest) := spanDigits cs
  let (frac, rest) := match rest with
    | '.' :: r => spanDigits r
    | r => ([], r)
  let pointOk := whole.length + frac.length > 0
  let exp? : Option Int := match rest with
    | [] => some 0
    | c :: r => if c = 'e' ∨ c = 'E' then exponent? r else none
  match exp? with
  | some e =>
    if pointOk then some (ofDecimal negative (digitsValue (whole ++ frac)) (e - frac.length)) else none
  | none => none

end Exchange.Nearest

namespace Exchange

/-- Reads the text of a double: sign, digits, point and exponent, or `inf`, `infinity`, `nan`. -/
def parseFloat? (s : String) : Option Float :=
  let cs := s.toList
  let (negative, body) := match cs with
    | '+' :: r => (false, r)
    | '-' :: r => (true, r)
    | r => (false, r)
  let word := String.ofList (body.map Char.toLower)
  if word = "inf" ∨ word = "infinity" then some (Nearest.infinity negative)
  else if word = "nan" then some Nearest.nan
  else if s.isEmpty then none
  else Nearest.unsigned? negative body

end Exchange
