import Exchange.Fault

/-!
# Fixed-capacity slot pools

A `Pool` is a fixed array of slots, each free or holding a value, with a count of the slots in
use and a scan cursor. Allocation takes the first free slot in circular order from the cursor
and moves the cursor just past it, so slots are handed out round-robin. Releasing a slot returns
its value and leaves the cursor alone.

Misuse is a fault: a pool of no slots (or one as large as the null index `2^32 - 1`), allocation
from a full pool, releasing a slot beyond the pool or one already free, touching a free slot.
-/

namespace Exchange

/-- A fixed array of slots, each free (`none`) or in use. -/
structure Pool (α : Type) where
  slots : Array (Option α)
  /-- Where the next allocation starts its scan. -/
  nextFree : Nat
  /-- How many slots are in use. -/
  allocated : Nat
  deriving Repr

namespace Pool

variable {α : Type}

/-- The slot index that names no slot. -/
def nullIndex : Nat := 4294967295

/-- A pool of `capacity` free slots. -/
def create (capacity : Nat) : Except Fault (Pool α) :=
  if capacity = 0 then .error .poolEmptyCapacity
  else if nullIndex ≤ capacity then .error .poolCapacityTooLarge
  else .ok { slots := Array.replicate capacity none, nextFree := 0, allocated := 0 }

def capacity (p : Pool α) : Nat := p.slots.size

def isFull (p : Pool α) : Bool := p.allocated == p.capacity

def isEmpty (p : Pool α) : Bool := p.allocated == 0

/-- Whether slot `i`, inside the pool, is free. -/
def freeAt (p : Pool α) (i : Nat) : Bool := (p.slots[i]?).all Option.isNone

/-- The slot after `i`, wrapping at the end of the pool. -/
def following (p : Pool α) (i : Nat) : Nat := if i + 1 = p.capacity then 0 else i + 1

/-- The first free slot at or after `i` in circular order, looking at most `fuel` slots. -/
def scan (p : Pool α) (i : Nat) : Nat → Option Nat
  | 0 => none
  | fuel + 1 => if p.freeAt i then some i else p.scan (p.following i) fuel

/-- Allocates the first free slot from the cursor for `value`; `none` when the pool is full. -/
def tryAllocate (p : Pool α) (value : α) : Option (Nat × Pool α) :=
  if p.allocated = p.capacity then none
  else
    match p.scan p.nextFree p.capacity with
    | none => none
    | some i =>
      some (i, { slots := p.slots.set! i (some value), nextFree := p.following i,
                 allocated := p.allocated + 1 })

/-- Allocates a slot for `value`; a full pool is a fault. -/
def allocate (p : Pool α) (value : α) : Except Fault (Nat × Pool α) :=
  match p.tryAllocate value with
  | some r => .ok r
  | none => .error (.poolExhausted p.capacity)

/-- Frees slot `i` and returns the value it held. -/
def release (p : Pool α) (i : Nat) : Except Fault (α × Pool α) :=
  match p.slots[i]? with
  | none => .error (.foreignSlot i p.capacity)
  | some none => .error (.doubleFree i)
  | some (some v) => .ok (v, { p with slots := p.slots.set! i none, allocated := p.allocated - 1 })

/-- Frees slot `i` if it is in use; a free slot, or one beyond the pool, is left as it is.
The engine's `deallocate` asserts there, as `release` faults; the list book vacates only the
slots of orders it holds, so it never meets that branch. -/
def vacate (p : Pool α) (i : Nat) : Pool α :=
  match p.slots[i]? with
  | some (some _) => { p with slots := p.slots.set! i none, allocated := p.allocated - 1 }
  | _ => p

/-- The value in slot `i`. -/
def get (p : Pool α) (i : Nat) : Except Fault α :=
  match p.slots[i]? with
  | none => .error (.indexOutOfBounds p.capacity i)
  | some none => .error (.freeSlotAccess i)
  | some (some v) => .ok v

/-- Replaces the value in slot `i`, which must be in use. -/
def set (p : Pool α) (i : Nat) (value : α) : Except Fault (Pool α) := do
  let _ ← p.get i
  return { p with slots := p.slots.set! i (some value) }

/-- Changes the value in slot `i`, which must be in use, by `f`. -/
def modify (p : Pool α) (i : Nat) (f : α → α) : Except Fault (Pool α) := do
  let v ← p.get i
  return { p with slots := p.slots.set! i (some (f v)) }

/-- The slots met walking from slot `i` along `link` up to the null index, with their values;
`none` if the walk meets a slot that is free or beyond the pool, or takes more than `fuel` steps. -/
def walk (p : Pool α) (link : α → Nat) : Nat → Nat → Option (List (Nat × α))
  | i, 0 => if i = nullIndex then some [] else none
  | i, fuel + 1 =>
    if i = nullIndex then some []
    else
      match p.slots[i]? with
      | some (some v) => (p.walk link (link v) fuel).map ((i, v) :: ·)
      | _ => none

/-- Whether slot `i` is free; a slot beyond the pool is a fault. -/
def isFreeAt (p : Pool α) (i : Nat) : Except Fault Bool :=
  if i < p.capacity then .ok (p.freeAt i) else .error (.slotOutOfRange i)

/-- The pool's state in one line: capacity, slots in use and the scan cursor. -/
def describe (p : Pool α) : String :=
  s!"SlabAllocator \x7b capacity: {p.capacity}, allocated: {p.allocated}, next_free: {p.nextFree} \x7d"

end Pool

end Exchange
