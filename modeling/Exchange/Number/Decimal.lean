import Exchange.Fault

/-!
# Fixed-point decimals

A `Decimal` is `±mantissa · 10^-scale` with a mantissa below `2^96` and a scale of at most 28.
The scale is part of the value's text: `1.50` and `1.5` are equal but print differently. A zero
is never negative.

Reading a text: an optional sign, digits with at most one point, underscores anywhere after the
first digit, and an optional exponent `e` or `E` with its own sign. Integer digits that do not
fit the mantissa make the text unreadable; fraction digits that do not fit, or that pass the 28th
place, are cut there, rounding half up on the first character cut, after which only digits and
underscores may follow. An underscore in that first place counts as a zero while the mantissa is
below `narrowLimit`; from there on the digit after the underscores decides. An exponent moves the
point: to the left by at most 28 places, rounding half up where the value would pass the 28th
place, and to the right by scaling the mantissa, which must still fit.

Division gives the exact quotient when it fits, and otherwise the quotient rounded half to even
at the finest scale, up to 28, whose mantissa still fits. A quotient whose integer part does not
fit is a fault.
-/

namespace Exchange

/-- A decimal number `±mantissa · 10^-scale`. -/
structure Decimal where
  negative : Bool
  mantissa : Nat
  scale : Nat
  deriving DecidableEq, Repr

namespace Decimal

/-- Mantissas stay below this bound. -/
def mantissaBound : Nat := Nat.pow 2 96

def maxScale : Nat := 28

/-- The decimal of these parts; a zero is never negative. -/
def make (negative : Bool) (mantissa scale : Nat) : Decimal :=
  { negative := negative && mantissa != 0, mantissa, scale }

def zero : Decimal := make false 0 0

/-- The decimal of an integer, at scale 0. -/
def ofInt (i : Int) : Decimal := make (i < 0) i.natAbs 0

/-- The text of a decimal: its digits with `scale` of them after the point. -/
def toText (d : Decimal) : String :=
  let ds := (toString d.mantissa).toList
  let body :=
    if d.scale = 0 then ds
    else
      let padded := List.replicate (d.scale + 1 - ds.length) '0' ++ ds
      let cut := padded.length - d.scale
      padded.take cut ++ '.' :: padded.drop cut
  String.ofList ((if d.negative then ['-'] else []) ++ body)

/-- Whether the value is zero or below. -/
def isNonPositive (d : Decimal) : Bool := d.mantissa = 0 || d.negative

/-- Whether the value is a whole number. -/
def isWhole (d : Decimal) : Bool := d.mantissa % Nat.pow 10 d.scale = 0

/-- The value with its fraction dropped. -/
def truncate (d : Decimal) : Int :=
  let t : Int := d.mantissa / Int.pow 10 d.scale
  if d.negative then -t else t

/-- The whole part as a 64-bit signed integer, if it fits. -/
def toInt64? (d : Decimal) : Option Int :=
  let t := d.truncate
  if -(Int.pow 2 63) ≤ t ∧ t < Int.pow 2 63 then some t else none

/-! ## Reading -/

/-- A text being read: sign, digits so far, scale, whether the point and a digit were seen. -/
structure Reading where
  negative : Bool
  mantissa : Nat := 0
  scale : Nat := 0
  point : Bool := false
  digits : Bool := false

/-- Why a character stops the reading. -/
def invalidCharacter (c : Char) : String :=
  if c = '.' then "Invalid decimal: two decimal points"
  else if c = '_' then "Invalid decimal: must start lead with a number"
  else "Invalid decimal: unknown character"

/-- Mantissas below this are read digit by digit in a 64-bit word (`2^64 / 10 - 255`); the
wider reading of larger ones looks past an underscore at the rounding place. -/
def narrowLimit : Nat := 1844674407370954906

/-- Fails at the first character that is neither a digit nor an underscore. -/
def checkTail (cs : List Char) : Except String Unit :=
  match cs.find? fun c => !(c.isDigit || c = '_') with
  | some c => .error (invalidCharacter c)
  | none => .ok ()

/-- Ends a reading at the character `c` that no longer fits, rounding half up on it (an
underscore counts as a zero); only digits and underscores may follow it. -/
def roundOn (r : Reading) (c : Char) (rest : List Char) : Except String Decimal :=
  let digit? : Option Nat :=
    if c.isDigit then some (c.toNat - '0'.toNat)
    else if c = '_' then some 0
    else none
  match digit? with
  | none => .error (invalidCharacter c)
  | some digit =>
    let rounded : Except String Decimal :=
      if digit < 5 then .ok (make r.negative r.mantissa r.scale)
      else if r.mantissa + 1 < mantissaBound then .ok (make r.negative (r.mantissa + 1) r.scale)
      else if r.scale = 0 then .error "Invalid decimal: overflow from mantissa after rounding"
      else .ok (make r.negative ((r.mantissa + 5) / 10) (r.scale - 1))
    match rounded, checkTail rest with
    | .error e, _ => .error e
    | .ok _, .error e => .error e
    | .ok d, .ok () => .ok d

/-- Reads digits, the point and underscores. -/
def readBody (r : Reading) : List Char → Except String Decimal
  | [] =>
    if r.digits then .ok (make r.negative r.mantissa r.scale)
    else .error "Invalid decimal: no digits found"
  | c :: rest =>
    if c.isDigit then
      let wide := narrowLimit ≤ r.mantissa
      let next := r.mantissa * 10 + (c.toNat - '0'.toNat)
      if mantissaBound ≤ next then
        if r.point then roundOn r c rest else .error "Invalid decimal: overflow from too many digits"
      else
        let r := { r with mantissa := next, scale := r.scale + (if r.point then 1 else 0),
                          digits := true }
        match rest with
        | c2 :: rest2 =>
          if r.point && maxScale ≤ r.scale then
            if wide && c2 = '_' then
              match rest2.dropWhile (· = '_') with
              | [] => .ok (make r.negative r.mantissa r.scale)
              | c3 :: rest3 => roundOn r c3 rest3
            else roundOn r c2 rest2
          else readBody r rest
        | [] => readBody r rest
    else if c = '.' && !r.point then readBody { r with point := true } rest
    else if c = '_' && r.digits then readBody r rest
    else .error (invalidCharacter c)

/-- Reads a decimal without an exponent. -/
def readPlain : List Char → Except String Decimal
  | [] => .error "Invalid decimal: empty"
  | '-' :: rest => readBody { negative := true } rest
  | '+' :: rest => readBody { negative := false } rest
  | cs => readBody { negative := false } cs

/-- Reads an unsigned 32-bit exponent, an optional `+` before its digits. -/
def exponentValue? (cs : List Char) : Option Nat :=
  let ds := match cs with
    | '+' :: rest => rest
    | _ => cs
  if ds.isEmpty || !ds.all Char.isDigit then none
  else
    let v := ds.foldl (fun n c => 10 * n + (c.toNat - '0'.toNat)) 0
    if v < Nat.pow 2 32 then some v else none

/-- The decimal at scale `s` or its own, whichever is smaller, rounded half up on the first
digit dropped. -/
def rescaleDown (d : Decimal) (s : Nat) : Decimal :=
  if d.scale ≤ s then d
  else
    let k := d.scale - s
    let kept := d.mantissa / Nat.pow 10 k
    let first := d.mantissa / Nat.pow 10 (k - 1) % 10
    make d.negative (if 5 ≤ first then kept + 1 else kept) s

/-- Moves the point of `d` by an exponent written `expText`. -/
def applyExponent (d : Decimal) (expText : List Char) : Except String Decimal :=
  let scaleError (e : Nat) := s!"Scale exceeds the maximum precision allowed: {e} > {maxScale}"
  match expText with
  | '-' :: rest =>
    match exponentValue? rest with
    | none => .error "Failed to parse"
    | some e =>
      if maxScale < e then .error (scaleError e)
      else if maxScale < d.scale + e then .ok { rescaleDown d (maxScale - e) with scale := maxScale }
      else .ok { d with scale := d.scale + e }
  | cs =>
    match exponentValue? cs with
    | none => .error "Failed to parse"
    | some e =>
      if e ≤ d.scale then .ok { d with scale := d.scale - e }
      else if maxScale < e then .error (scaleError e)
      else
        let m := d.mantissa * Nat.pow 10 (e - d.scale)
        if m < mantissaBound then .ok (make d.negative m 0)
        else .error "Number exceeds maximum value that can be represented."

/-- Reads a decimal, with an optional exponent. -/
def parse (s : String) : Except String Decimal :=
  let cs := s.toList
  let (base, rest) := cs.span fun c => c ≠ 'e' && c ≠ 'E'
  match rest with
  | [] => readPlain cs
  | _ :: expText => do applyExponent (← readPlain base) expText

/-! ## Division -/

/-- The finest scale `s`, from `s` up to 28, at which `num / den` has a mantissa that fits. -/
def fitScale (num den s : Nat) : Nat → Nat
  | 0 => s
  | fuel + 1 =>
    if num * Nat.pow 10 (s + 1) / den < mantissaBound then fitScale num den (s + 1) fuel else s

/-- The quotient `a / b`. -/
def div (a b : Decimal) : Except Fault Decimal :=
  if b.mantissa = 0 then .error .divisionByZero
  else if a.mantissa = 0 then .ok zero
  else
    let num := a.mantissa * Nat.pow 10 b.scale
    let den := b.mantissa * Nat.pow 10 a.scale
    let negative := a.negative != b.negative
    if mantissaBound ≤ num / den then .error .divisionOverflow
    else
      let s := fitScale num den 0 maxScale
      let q := num * Nat.pow 10 s / den
      let r := num * Nat.pow 10 s % den
      let q := if 2 * r > den ∨ (2 * r = den ∧ q % 2 = 1) then q + 1 else q
      if q < mantissaBound then .ok (make negative q s)
      else if s = 0 then .error .divisionOverflow
      else .ok (make negative (mantissaBound / 10 + 1) (s - 1))

end Decimal

end Exchange
