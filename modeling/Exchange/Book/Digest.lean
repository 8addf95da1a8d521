import Exchange.Book.Basic
import Exchange.Digest.SipHash
import Exchange.Wire.Codec

/-!
# A fingerprint of book state

`Book.digest` hashes what determines the book's future behaviour: for the bid side and then the
ask side, each level best first as its price and total quantity, followed by its orders oldest
first as id, quantity and priority; and last the number of resting orders. Words are written as
little-endian bytes (8 bytes, except 4 for a quantity) and hashed with SipHash-1-3 under zero keys.
-/

namespace Exchange

/-- The bytes of one level: its price and total, then each order. -/
def Level.digestBytes (l : Level) : List UInt8 :=
  i64Bytes l.price ++ leBytes 8 l.totalQty ++
    l.orders.flatMap fun o => u64Bytes o.orderId ++ u32Bytes o.qty ++ u64Bytes o.priority

namespace Book

/-- The bytes the fingerprint is taken over. -/
def digestBytes (b : Book) : List UInt8 :=
  (b.bids ++ b.asks).flatMap Level.digestBytes ++ leBytes 8 b.orderCount

/-- The fingerprint of the book's state. -/
def digest (b : Book) : UInt64 := SipHash.hash 0 0 b.digestBytes

end Book

end Exchange
