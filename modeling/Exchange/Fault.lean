import Exchange.Wire.Record
import Exchange.Text.Printable

/-!
# Faults: broken invariants that stop the process

A `Fault` is a violated precondition or invariant. It is not an answer that a caller can act
on: the component that meets one stops, and nothing after it runs. Each fault has one line of
text (`Fault.message`), the text the process reports when it stops.
-/

namespace Exchange

/-- Arithmetic operations whose overflow is checked. -/
inductive ArithOp where
  | add
  | subtract
  | multiply
  | negate
  deriving DecidableEq, Repr

def ArithOp.verb : ArithOp → String
  | add => "add"
  | subtract => "subtract"
  | multiply => "multiply"
  | negate => "negate"

/-- The debug checks of the linked order book, each named for what it expects. -/
inductive BookCheck where
  /-- A level with no newest order has no oldest one either. -/
  | emptyHasNoHead
  /-- An order removed with nothing before it is its level's oldest. -/
  | removedIsHead
  /-- An order removed with nothing after it is its level's newest. -/
  | removedIsTail
  /-- A level's total covers a fill of one of its orders. -/
  | totalCoversFill
  /-- A level taken off its side holds no order. -/
  | removedLevelEmpty
  /-- A partial fill is smaller than the order it fills. -/
  | fillBelowQty
  /-- The best level of a side has an oldest order. -/
  | levelHasHead
  deriving DecidableEq, Repr

/-- The text a failed check stops the process with. -/
def BookCheck.message : BookCheck → String
  | emptyHasNoHead => "assertion failed: self.head == NULL_INDEX"
  | removedIsHead => "assertion failed: self.head == index"
  | removedIsTail => "assertion failed: self.tail == index"
  | totalCoversFill => "assertion failed: self.total_qty >= qty as u64"
  | removedLevelEmpty => "assertion failed: level.is_empty()"
  | fillBelowQty => "assertion failed: entry.qty > fill_qty"
  | levelHasHead => "non-empty level without a head"

/-- The invariant violations of the exchange's components. -/
inductive Fault where
  /-- A pool of no slots. -/
  | poolEmptyCapacity
  /-- A pool as large as the null slot index. -/
  | poolCapacityTooLarge
  /-- An allocation from a pool with every slot in use. -/
  | poolExhausted (capacity : Nat)
  /-- A release of a slot beyond the pool. -/
  | foreignSlot (slot capacity : Nat)
  /-- A release of a slot that is already free. -/
  | doubleFree (slot : Nat)
  /-- A read or write of a free slot. -/
  | freeSlotAccess (slot : Nat)
  /-- A free-slot query beyond the pool. -/
  | slotOutOfRange (slot : Nat)
  /-- An index past the end of a sequence. -/
  | indexOutOfBounds (len index : Nat)
  /-- A ring of no slots. -/
  | ringEmptyCapacity
  /-- A write into a ring whose every slot holds an unread element. -/
  | ringLapped (capacity : Nat)
  /-- A commit into a ring that was already full. -/
  | ringCommitFull
  /-- A read commit on an empty ring. -/
  | ringUnderflow
  /-- A direct insertion of an order id that already rests. -/
  | duplicateOrder
  /-- A price level asked for on the invalid side. -/
  | levelForInvalidSide
  /-- A debug check of the linked order book that fails. -/
  | bookCheck (c : BookCheck)
  /-- A resting order whose price has no level on its side. -/
  | orderWithoutLevel (orderId : OrderId) (price : Price)
  /-- Checked arithmetic that left its word. -/
  | overflow (op : ArithOp)
  /-- A request for a ticker that the engine does not trade. -/
  | unknownTicker (r : Request)
  /-- A request of the invalid kind. -/
  | invalidRequestKind (r : Request)
  /-- A stamped update out of sequence for the snapshot book. -/
  | outOfOrder (m : Stamped) (expected : UInt64)
  /-- An ADD for an order the snapshot book already holds. -/
  | addOfLiveOrder (u : Update)
  /-- A MODIFY for an order the snapshot book does not hold. -/
  | modifyOfUnknownOrder (u : Update)
  /-- A CANCEL for an order the snapshot book does not hold. -/
  | cancelOfUnknownOrder (u : Update)
  /-- A decimal quotient too large for its mantissa. -/
  | divisionOverflow
  /-- A decimal divided by zero. -/
  | divisionByZero
  /-- A cut of a text at a byte inside a character: whether it is the cut's start (or else its
  end) that falls inside, the byte, the character, and the bytes the character takes. -/
  | cutInsideChar (atStart : Bool) (index : Nat) (c : Char) (first past : Nat)
  deriving DecidableEq, Repr

/-- The text a fault is reported with. -/
def Fault.message : Fault → String
  | poolEmptyCapacity => "Slab capacity must be non-zero"
  | poolCapacityTooLarge => "Capacity must be less than NULL_INDEX"
  | poolExhausted c => s!"Slab allocator out of space (capacity {c})"
  | foreignSlot i c => s!"Slot {i} does not belong to this slab (capacity {c})"
  | doubleFree i => s!"Double free of slab slot {i}"
  | freeSlotAccess i => s!"Access to free slab slot {i}"
  | slotOutOfRange i => s!"Slot {i} out of range"
  | indexOutOfBounds len i => s!"index out of bounds: the len is {len} but the index is {i}"
  | ringEmptyCapacity => "ring transport capacity must be non-zero"
  | ringLapped c => s!"ring transport overrun: writer lapped the reader (capacity {c})"
  | ringCommitFull => "ring transport overrun: committed into a full ring"
  | ringUnderflow => "ring transport underflow: read past the last committed element"
  | duplicateOrder => "assertion failed: !self.order_map.contains_key(&entry.order_id)"
  | levelForInvalidSide => "Price level requested for INVALID side"
  | bookCheck c => c.message
  | orderWithoutLevel oid p => s!"Order {oid.toNat} rests at price {p.toInt} with no price level"
  | overflow op => s!"attempt to {op.verb} with overflow"
  | unknownTicker r => s!"Received request for unknown ticker: {r.render}"
  | invalidRequestKind r => s!"Received invalid client-request-type: {r.render}"
  | outOfOrder m expected =>
    "assertion `left == right` failed: Snapshot synthesizer received out-of-order incremental " ++
      m.render ++ s!"\n  left: {m.seq.toNat}\n right: {expected.toNat}"
  | addOfLiveOrder u => s!"Received ADD for live order: {u.render}"
  | modifyOfUnknownOrder u => s!"Received MODIFY for unknown order: {u.render}"
  | cancelOfUnknownOrder u => s!"Received CANCEL for unknown order: {u.render}"
  | divisionOverflow => "Division overflowed"
  | divisionByZero => "Division by zero"
  | cutInsideChar atStart index c first past =>
    let side := if atStart then "start" else "end"
    s!"{side} byte index {index} is not a char boundary; it is inside {quoteChar c} " ++
      s!"(bytes {first}..{past} of string)"

end Exchange
