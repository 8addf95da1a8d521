import Exchange.Basic

/-!
# Hexadecimal text of bytes

Bytes are written as two lowercase hexadecimal digits each. Reading accepts either case and
refuses an odd number of digits or any other character.
-/

namespace Exchange.Hex

/-- The digit of a value below sixteen. -/
def digit (n : Nat) : Char :=
  if n < 10 then Char.ofNat (48 + n) else Char.ofNat (87 + n)

/-- The value of a hexadecimal digit. -/
def value? (c : Char) : Option Nat :=
  if '0' ≤ c ∧ c ≤ '9' then some (c.toNat - 48)
  else if 'a' ≤ c ∧ c ≤ 'f' then some (c.toNat - 87)
  else if 'A' ≤ c ∧ c ≤ 'F' then some (c.toNat - 55)
  else none

/-- Two digits per byte, high digit first. -/
def encode (bs : List UInt8) : String :=
  String.ofList (bs.flatMap fun b => [digit (b.toNat / 16), digit (b.toNat % 16)])

/-- The bytes of a digit string. -/
def decodeChars : List Char → Option (List UInt8)
  | [] => some []
  | [_] => none
  | hi :: lo :: rest => do
    let h ← value? hi
    let l ← value? lo
    let tail ← decodeChars rest
    return (h * 16 + l).toUInt8 :: tail

/-- The bytes that a hexadecimal string writes. -/
def decode (s : String) : Option (List UInt8) := decodeChars s.toList

end Exchange.Hex
