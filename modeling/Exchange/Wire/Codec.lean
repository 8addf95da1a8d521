import Exchange.Wire.Record

/-!
# Fixed-size little-endian wire layout

A record is a fixed number of bytes: 32 for a request, 40 for a response or an update, 48 for a
stamped update (its sequence number, then the update). Fields are little-endian words at fixed
offsets; the kind byte and the side byte follow the words, and the remaining reserved bytes are
written as zero and ignored when read.

Reading checks, in this order: that the buffer holds the whole record (extra bytes are ignored),
that the kind byte is a known tag, and that the side byte is a known tag.
-/

namespace Exchange

/-- Little-endian bytes of the low `n` bytes of a number. -/
def leBytes : Nat → Nat → List UInt8
  | 0, _ => []
  | n + 1, x => (x % 256).toUInt8 :: leBytes n (x / 256)

/-- The number whose little-endian bytes these are. -/
def leValue : List UInt8 → Nat
  | [] => 0
  | b :: bs => b.toNat + 256 * leValue bs

@[simp] theorem length_leBytes (n x : Nat) : (leBytes n x).length = n := by
  induction n generalizing x with
  | zero => rfl
  | succ n ih => simp [leBytes, ih]

/-- The fields of the wire that have a fixed byte tag. -/
inductive TagField where
  | requestKind
  | responseKind
  | updateKind
  | side
  deriving DecidableEq, Repr

/-- The type name that a field's tag belongs to, as error text shows it. -/
def TagField.name : TagField → String
  | requestKind => "ClientRequestType"
  | responseKind => "ClientResponseType"
  | updateKind => "MarketUpdateType"
  | side => "side"

/-- Why a buffer is not a record. -/
inductive WireError where
  /-- The buffer holds fewer bytes than the record needs. -/
  | short (needed got : Nat)
  /-- A tag byte names no member of its field. -/
  | unknownTag (field : TagField) (value : UInt8)
  deriving DecidableEq, Repr

def WireError.message : WireError → String
  | .short needed got => s!"wire record needs {needed} bytes, got {got}"
  | .unknownTag field value => s!"unknown {field.name} tag {value.toNat} in wire record"

/-- Bytes of an unsigned 64-bit word. -/
def u64Bytes (x : UInt64) : List UInt8 := leBytes 8 x.toNat
/-- Bytes of an unsigned 32-bit word. -/
def u32Bytes (x : UInt32) : List UInt8 := leBytes 4 x.toNat
/-- Bytes of a signed 64-bit word, in two's complement. -/
def i64Bytes (x : Int64) : List UInt8 := leBytes 8 x.toUInt64.toNat

/-- The unsigned 64-bit word at an offset. -/
def u64At (bs : List UInt8) (off : Nat) : UInt64 := (leValue ((bs.drop off).take 8)).toUInt64
/-- The unsigned 32-bit word at an offset. -/
def u32At (bs : List UInt8) (off : Nat) : UInt32 := (leValue ((bs.drop off).take 4)).toUInt32
/-- The signed 64-bit word at an offset. -/
def i64At (bs : List UInt8) (off : Nat) : Int64 := (u64At bs off).toInt64
/-- The byte at an offset. -/
def byteAt (bs : List UInt8) (off : Nat) : UInt8 := (bs.drop off).headD 0

/-- A tag byte read through its field's table. -/
def readTag {α : Type} (field : TagField) (ofTag? : UInt8 → Option α) (b : UInt8) : Except WireError α :=
  match ofTag? b with
  | some a => .ok a
  | none => .error (.unknownTag field b)

/-- Fails unless the buffer holds `needed` bytes. -/
def needBytes (bs : List UInt8) (needed : Nat) : Except WireError Unit :=
  if bs.length < needed then .error (.short needed bs.length) else .ok ()

namespace Request

def wireSize : Nat := 32

def toBytes (r : Request) : List UInt8 :=
  u64Bytes r.orderId ++ i64Bytes r.price ++ u32Bytes r.clientId ++ u32Bytes r.tickerId ++
    u32Bytes r.qty ++ [r.kind.tag, r.side.tag, 0, 0]

def ofBytes (bs : List UInt8) : Except WireError Request := do
  needBytes bs wireSize
  let kind ← readTag .requestKind RequestKind.ofTag? (byteAt bs 28)
  let side ← readTag .side Side.ofTag? (byteAt bs 29)
  return { kind, side, orderId := u64At bs 0, price := i64At bs 8, clientId := u32At bs 16,
           tickerId := u32At bs 20, qty := u32At bs 24 }

end Request

namespace Response

def wireSize : Nat := 40

def toBytes (r : Response) : List UInt8 :=
  u64Bytes r.orderId ++ i64Bytes r.price ++ u32Bytes r.clientId ++ u32Bytes r.tickerId ++
    u32Bytes r.execQty ++ u32Bytes r.leavesQty ++ [r.kind.tag, r.side.tag, 0, 0, 0, 0, 0, 0]

def ofBytes (bs : List UInt8) : Except WireError Response := do
  needBytes bs wireSize
  let kind ← readTag .responseKind ResponseKind.ofTag? (byteAt bs 32)
  let side ← readTag .side Side.ofTag? (byteAt bs 33)
  return { kind, side, orderId := u64At bs 0, price := i64At bs 8, clientId := u32At bs 16,
           tickerId := u32At bs 20, execQty := u32At bs 24, leavesQty := u32At bs 28 }

end Response

namespace Update

def wireSize : Nat := 40

def toBytes (u : Update) : List UInt8 :=
  u64Bytes u.orderId ++ i64Bytes u.price ++ u64Bytes u.priority ++ u32Bytes u.tickerId ++
    u32Bytes u.qty ++ [u.kind.tag, u.side.tag, 0, 0, 0, 0, 0, 0]

def ofBytes (bs : List UInt8) : Except WireError Update := do
  needBytes bs wireSize
  let kind ← readTag .updateKind UpdateKind.ofTag? (byteAt bs 32)
  let side ← readTag .side Side.ofTag? (byteAt bs 33)
  return { kind, side, orderId := u64At bs 0, price := i64At bs 8, priority := u64At bs 16,
           tickerId := u32At bs 24, qty := u32At bs 28 }

end Update

namespace Stamped

def wireSize : Nat := 48

def toBytes (m : Stamped) : List UInt8 := u64Bytes m.seq ++ m.update.toBytes

def ofBytes (bs : List UInt8) : Except WireError Stamped := do
  needBytes bs wireSize
  let update ← Update.ofBytes (bs.drop 8)
  return { seq := u64At bs 0, update }

end Stamped

end Exchange
