/-!
# Shortest decimal text of a double

A finite double is `m · 2^e`. The reals that round to it form an interval around it, whose ends
belong to it exactly when `m` is even (ties go to the even significand). Its shortest decimal is
found grid by grid: for `k = 1, 2, …, 17` significant digits, the two neighbours of the value on
the grid of `k`-digit decimals are tested, in exact natural-number arithmetic; the first grid with
a neighbour inside the interval gives the digits, the nearer neighbour if both are inside, the
even one on an exact tie. Seventeen digits always suffice.

`floatText` writes the result without an exponent: all integer digits, then a point and
the fraction digits if there are any. Zero keeps its sign, and the non-finite values read
`NaN`, `inf` and `-inf`.
-/

namespace Exchange.Shortest

/-- A finite nonzero double as sign, significand and binary exponent, with whether the gap to the
next smaller double is half the gap to the next larger one. -/
structure Binary where
  negative : Bool
  mant : Nat
  exp : Int
  narrowBelow : Bool
  deriving Repr

/-- The parts of a double; `none` for zero, infinities and NaN. -/
def decode (x : Float) : Option Binary :=
  let bits := x.toBits.toNat
  let negative := bits / Nat.pow 2 63 = 1
  let biased : Nat := (bits / Nat.pow 2 52) % 2048
  let frac : Nat := bits % Nat.pow 2 52
  if biased = 2047 then none
  else if biased = 0 then
    if frac = 0 then none else some ⟨negative, frac, -1074, false⟩
  else some ⟨negative, frac + Nat.pow 2 52, (biased : Int) - 1075, frac = 0 ∧ 1 < biased⟩

/-- Number of decimal digits of a positive number. -/
def digitCount (n : Nat) : Nat := (Nat.toDigits 10 n).length

/-- The smallest `t ≥ 1` with `v · 10^t ≥ s`, looking at most `fuel` values. -/
def shiftUp (v s : Nat) (t : Nat) : Nat → Nat
  | 0 => t
  | fuel + 1 => if s ≤ v * Nat.pow 10 t then t else shiftUp v s (t + 1) fuel

/-- The scaled problem: the value, the interval ends and the scale, all multiplied by `2^s`. -/
structure Scaled where
  value : Nat
  lo : Nat
  hi : Nat
  scale : Nat
  inclusive : Bool

def scaled (b : Binary) : Scaled :=
  let s : Nat := if b.exp < 2 then (2 - b.exp).toNat else 0
  let sh : Nat := (b.exp + s).toNat
  let v := b.mant * Nat.pow 2 sh
  let down := if b.narrowBelow then Nat.pow 2 (sh - 2) else Nat.pow 2 (sh - 1)
  { value := v, lo := v - down, hi := v + Nat.pow 2 (sh - 1), scale := Nat.pow 2 s,
    inclusive := b.mant % 2 == 0 }

/-- The decimal exponent `E` with `10^E ≤ value < 10^(E+1)`. -/
def Scaled.exponent (q : Scaled) : Int :=
  if q.scale ≤ q.value then (digitCount (q.value / q.scale) : Int) - 1
  else -(shiftUp q.value q.scale 1 400 : Int)

/-- The best decimal with `k` significant digits inside the interval, as digits and exponent. -/
def Scaled.onGrid (q : Scaled) (k : Nat) : Option (Nat × Int) :=
  let p : Int := q.exponent - k + 1
  -- a candidate `c · 10^p` is compared as `c · b` against `a ·` (value or an end)
  let a := if p < 0 then Nat.pow 10 (-p).toNat else 1
  let b := if p < 0 then q.scale else Nat.pow 10 p.toNat * q.scale
  let inside (c : Nat) : Bool :=
    if q.inclusive then q.lo * a ≤ c * b ∧ c * b ≤ q.hi * a
    else q.lo * a < c * b ∧ c * b < q.hi * a
  let f := q.value * a / b
  let below := inside f
  let above := inside (f + 1)
  if below && above then
    let dBelow := q.value * a - f * b
    let dAbove := (f + 1) * b - q.value * a
    if dBelow < dAbove then some (f, p)
    else if dAbove < dBelow then some (f + 1, p)
    else if f % 2 == 0 then some (f, p) else some (f + 1, p)
  else if below then some (f, p)
  else if above then some (f + 1, p)
  else none

/-- The first grid, from `k` digits on, that has a decimal inside the interval. -/
def Scaled.search (q : Scaled) (k : Nat) : Nat → Nat × Int
  | 0 => (q.value * Nat.pow 10 17 / q.scale, -17)
  | fuel + 1 =>
    match q.onGrid k with
    | some r => r
    | none => q.search (k + 1) fuel

/-- Drops trailing zero digits into the exponent. -/
def trim (c : Nat) (p : Int) : Nat → Nat × Int
  | 0 => (c, p)
  | fuel + 1 => if c ≠ 0 ∧ c % 10 = 0 then trim (c / 10) (p + 1) fuel else (c, p)

/-- The shortest digits `c` and exponent `p` with `c · 10^p` reading back as the double. -/
def digits (b : Binary) : Nat × Int :=
  let (c, p) := (scaled b).search 1 17
  trim c p 20

/-- `c · 10^p` written out without an exponent. -/
def positional (c : Nat) (p : Int) : String :=
  let ds := toString c
  if 0 ≤ p then ds ++ String.ofList (List.replicate p.toNat '0')
  else
    let n := (-p).toNat
    if n < ds.length then
      String.ofList (ds.toList.take (ds.length - n)) ++ "." ++ String.ofList (ds.toList.drop (ds.length - n))
    else "0." ++ String.ofList (List.replicate (n - ds.length) '0') ++ ds

end Exchange.Shortest

namespace Exchange

/-- The shortest text that reads back as the double, without an exponent. -/
def floatText (x : Float) : String :=
  if x.isNaN then "NaN"
  else if x.isInf then (if x < 0 then "-inf" else "inf")
  else
    match Shortest.decode x with
    | none => if x.toBits.toNat / Nat.pow 2 63 = 1 then "-0" else "0"
    | some b =>
      let (c, p) := Shortest.digits b
      (if b.negative then "-" else "") ++ Shortest.positional c p

end Exchange
