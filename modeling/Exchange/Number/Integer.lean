/-!
# Integers from text

`parseInteger` reads an integer the way the standard integer parsers do: an optional sign (`-`
only for a type with negative values), then digits of the radix, read from left to right. The
first digit that is not of the radix, or the first digit that takes the number out of its type's
range, decides the error; so `99999999999x` is too large for 32 bits, while `9x` is not a number.
-/

namespace Exchange

/-- The value of a digit of the radix, or `none`; letters stand for ten and up in either case. -/
def digitValue? (radix : Nat) (c : Char) : Option Nat :=
  let v :=
    if c.isDigit then c.toNat - '0'.toNat
    else if 'a' ≤ c && c ≤ 'z' then c.toNat - 'a'.toNat + 10
    else if 'A' ≤ c && c ≤ 'Z' then c.toNat - 'A'.toNat + 10
    else radix
  if v < radix then some v else none

/-- Appends digits to `acc` from left to right, moving away from zero on the side of the sign,
and stops at the first character that is no digit or the first digit that leaves `[lo, hi]`. -/
def appendDigits (radix : Nat) (negative : Bool) (lo hi : Int) : List Char → Int → Except String Int
  | [], acc => .ok acc
  | c :: rest, acc =>
    match digitValue? radix c with
    | none => .error "invalid digit found in string"
    | some d =>
      let next := if negative then acc * radix - d else acc * radix + d
      if hi < next then .error "number too large to fit in target type"
      else if next < lo then .error "number too small to fit in target type"
      else appendDigits radix negative lo hi rest next

/-- Reads an integer in `[lo, hi]`: an optional `+`, or `-` when `lo` is negative, then at least
one digit of the radix. -/
def parseInteger (text : String) (radix : Nat) (lo hi : Int) : Except String Int :=
  let cs := text.toList
  let (negative, body) : Bool × List Char := match cs with
    | '+' :: rest => (false, rest)
    | '-' :: rest => if lo < 0 then (true, rest) else (false, cs)
    | _ => (false, cs)
  if cs.isEmpty then .error "cannot parse integer from empty string"
  else if body.isEmpty then .error "invalid digit found in string"
  else appendDigits radix negative lo hi body 0

end Exchange
