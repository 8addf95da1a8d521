import Exchange.Wire.Lemmas

/-!
# The wire layout, byte by byte

Where each field of a record sits among its bytes. A word is written little-endian: byte `i` of
the `w` bytes of `x` is the `i`-th base-256 digit of `x` (`getElem?_leBytes`), so a field of width
`w` at offset `off` spells its value there (`LittleEndianAt`). A signed price is written as the
unsigned word of the same bits, a kind and a side as their tag bytes, and reserved bytes as zero.

* A request: order id at 0, price at 8, client at 16, ticker at 20, quantity at 24, kind at 28,
  side at 29; 32 bytes.
* A response: order id at 0, price at 8, client at 16, ticker at 20, executed quantity at 24,
  leaves at 28, kind at 32, side at 33; 40 bytes.
* An update: order id at 0, price at 8, priority at 16, ticker at 24, quantity at 28, kind at 32,
  side at 33; 40 bytes.
* A stamped update: its number at 0, then the update's 40 bytes; 48 bytes.

Main statement: `wire_format`, these layouts with the round trips of each record.
-/

namespace Exchange

theorem getElem?_leBytes : ∀ {n x i : Nat}, i < n →
    (leBytes n x)[i]? = some (x / Nat.pow 256 i % 256).toUInt8
  | n + 1, x, 0, _ => by simp [leBytes]
  | n + 1, x, i + 1, h => by
    rw [leBytes, List.getElem?_cons_succ, getElem?_leBytes (by omega)]
    show some (x / 256 / 256 ^ i % 256).toUInt8 = some (x / 256 ^ (i + 1) % 256).toUInt8
    rw [Nat.div_div_eq_div_mul, Nat.pow_succ, Nat.mul_comm]

/-- The `w` bytes of `bs` from `off` on spell `x` little-endian: byte `off + i` is the `i`-th
base-256 digit of `x`. -/
def LittleEndianAt (bs : List UInt8) (off w x : Nat) : Prop :=
  ∀ i < w, bs[off + i]? = some (x / Nat.pow 256 i % 256).toUInt8

theorem littleEndianAt_of_take {bs : List UInt8} {off w x : Nat}
    (h : (bs.drop off).take w = leBytes w x) : LittleEndianAt bs off w x := by
  intro i hi
  have hx := getElem?_leBytes (x := x) hi
  rw [← h, List.getElem?_take_of_lt hi, List.getElem?_drop] at hx
  exact hx

/-! ## The layout of each record -/

/-- Where a request's fields sit among its 32 bytes: the order id at 0, the price at 8, the client
at 16, the ticker at 20, the quantity at 24, then the kind and side tags and two zero bytes. -/
structure Request.Layout (r : Request) (bs : List UInt8) : Prop where
  length : bs.length = 32
  orderId : LittleEndianAt bs 0 8 r.orderId.toNat
  price : LittleEndianAt bs 8 8 r.price.toUInt64.toNat
  clientId : LittleEndianAt bs 16 4 r.clientId.toNat
  tickerId : LittleEndianAt bs 20 4 r.tickerId.toNat
  qty : LittleEndianAt bs 24 4 r.qty.toNat
  tags : bs.drop 28 = [r.kind.tag, r.side.tag, 0, 0]

/-- Where a response's fields sit among its 40 bytes: the order id at 0, the price at 8, the
client at 16, the ticker at 20, the executed quantity at 24, the leaves at 28, then the kind and
side tags and six zero bytes. -/
structure Response.Layout (r : Response) (bs : List UInt8) : Prop where
  length : bs.length = 40
  orderId : LittleEndianAt bs 0 8 r.orderId.toNat
  price : LittleEndianAt bs 8 8 r.price.toUInt64.toNat
  clientId : LittleEndianAt bs 16 4 r.clientId.toNat
  tickerId : LittleEndianAt bs 20 4 r.tickerId.toNat
  execQty : LittleEndianAt bs 24 4 r.execQty.toNat
  leavesQty : LittleEndianAt bs 28 4 r.leavesQty.toNat
  tags : bs.drop 32 = [r.kind.tag, r.side.tag, 0, 0, 0, 0, 0, 0]

/-- Where an update's fields sit among its 40 bytes: the order id at 0, the price at 8, the
priority at 16, the ticker at 24, the quantity at 28, then the kind and side tags and six zero
bytes. -/
structure Update.Layout (u : Update) (bs : List UInt8) : Prop where
  length : bs.length = 40
  orderId : LittleEndianAt bs 0 8 u.orderId.toNat
  price : LittleEndianAt bs 8 8 u.price.toUInt64.toNat
  priority : LittleEndianAt bs 16 8 u.priority.toNat
  tickerId : LittleEndianAt bs 24 4 u.tickerId.toNat
  qty : LittleEndianAt bs 28 4 u.qty.toNat
  tags : bs.drop 32 = [u.kind.tag, u.side.tag, 0, 0, 0, 0, 0, 0]

/-- Where a stamped update's fields sit among its 48 bytes: its number at 0, then its update laid
out from 8 on. -/
structure Stamped.Layout (m : Stamped) (bs : List UInt8) : Prop where
  length : bs.length = 48
  seq : LittleEndianAt bs 0 8 m.seq.toNat
  update : m.update.Layout (bs.drop 8)

theorem Request.layout (r : Request) : r.Layout r.toBytes := by
  refine ⟨by simp [Request.toBytes], ?_, ?_, ?_, ?_, ?_,
    by simp [Request.toBytes, List.drop_append, List.drop_eq_nil_of_le]⟩ <;>
  exact littleEndianAt_of_take
    (by simp [Request.toBytes, u64Bytes, i64Bytes, u32Bytes, List.drop_append,
      List.drop_eq_nil_of_le])

theorem Response.layout (r : Response) : r.Layout r.toBytes := by
  refine ⟨by simp [Response.toBytes], ?_, ?_, ?_, ?_, ?_, ?_,
    by simp [Response.toBytes, List.drop_append, List.drop_eq_nil_of_le]⟩ <;>
  exact littleEndianAt_of_take
    (by simp [Response.toBytes, u64Bytes, i64Bytes, u32Bytes, List.drop_append,
      List.drop_eq_nil_of_le])

theorem Update.layout (u : Update) : u.Layout u.toBytes := by
  refine ⟨by simp [Update.toBytes], ?_, ?_, ?_, ?_, ?_,
    by simp [Update.toBytes, List.drop_append, List.drop_eq_nil_of_le]⟩ <;>
  exact littleEndianAt_of_take
    (by simp [Update.toBytes, u64Bytes, i64Bytes, u32Bytes, List.drop_append,
      List.drop_eq_nil_of_le])

theorem Stamped.layout (m : Stamped) : m.Layout m.toBytes := by
  have hdrop : m.toBytes.drop 8 = m.update.toBytes := by simp [Stamped.toBytes]
  refine ⟨by simp [Stamped.toBytes, Update.toBytes], ?_, hdrop ▸ m.update.layout⟩
  exact littleEndianAt_of_take (by simp [Stamped.toBytes, u64Bytes])

/-! ## The wire format -/

/-- **The wire format.** Each record's bytes hold its fields at the offsets of its layout, and
reading gives the record back. Conversely, a buffer that reads as a record holds that record's
bytes up to its reserved bytes, which are written as zero, and whatever follows it. -/
theorem wire_format :
    (∀ r : Request, r.Layout r.toBytes ∧ Request.ofBytes r.toBytes = .ok r) ∧
    (∀ (bs : List UInt8) (r : Request), Request.ofBytes bs = .ok r →
      r.toBytes = bs.take 30 ++ [0, 0]) ∧
    (∀ r : Response, r.Layout r.toBytes ∧ Response.ofBytes r.toBytes = .ok r) ∧
    (∀ (bs : List UInt8) (r : Response), Response.ofBytes bs = .ok r →
      r.toBytes = bs.take 34 ++ [0, 0, 0, 0, 0, 0]) ∧
    (∀ u : Update, u.Layout u.toBytes ∧ Update.ofBytes u.toBytes = .ok u) ∧
    (∀ (bs : List UInt8) (u : Update), Update.ofBytes bs = .ok u →
      u.toBytes = bs.take 34 ++ [0, 0, 0, 0, 0, 0]) ∧
    (∀ m : Stamped, m.Layout m.toBytes ∧ Stamped.ofBytes m.toBytes = .ok m) ∧
    (∀ (bs : List UInt8) (m : Stamped), Stamped.ofBytes bs = .ok m →
      m.toBytes = bs.take 42 ++ [0, 0, 0, 0, 0, 0]) :=
  ⟨fun r => ⟨r.layout, Request.ofBytes_toBytes r⟩, fun _ _ h => Request.toBytes_ofBytes h,
   fun r => ⟨r.layout, Response.ofBytes_toBytes r⟩, fun _ _ h => Response.toBytes_ofBytes h,
   fun u => ⟨u.layout, Update.ofBytes_toBytes u⟩, fun _ _ h => Update.toBytes_ofBytes h,
   fun m => ⟨m.layout, Stamped.ofBytes_toBytes m⟩, fun _ _ h => Stamped.toBytes_ofBytes h⟩

end Exchange
