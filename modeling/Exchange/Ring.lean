import Exchange.Fault

/-!
# Single-producer single-consumer rings

A `Ring` is a fixed circle of slots with a write cursor, a read cursor and a count of committed,
unread elements. The writer fills the slot under its cursor and then commits it; the reader looks
at the slot under its cursor and then commits the read. Slots start at the element type's default
value, and a commit publishes whatever the slot holds.

Writing into a full ring, committing into a full ring, and committing a read on an empty ring
are faults. The elements in flight, oldest first, are `toList`.
-/

namespace Exchange

/-- A circular transport of fixed capacity. -/
structure Ring (α : Type) where
  slots : Array α
  /-- Committed elements not yet read. -/
  len : Nat
  nextWrite : Nat
  nextRead : Nat
  deriving Repr

namespace Ring

variable {α : Type}

/-- A ring of `capacity` slots holding the default value. -/
def create [Inhabited α] (capacity : Nat) : Except Fault (Ring α) :=
  if capacity = 0 then .error .ringEmptyCapacity
  else .ok { slots := Array.replicate capacity default, len := 0, nextWrite := 0, nextRead := 0 }

def capacity (r : Ring α) : Nat := r.slots.size

def isEmpty (r : Ring α) : Bool := r.len == 0

def isFull (r : Ring α) : Bool := r.len == r.capacity

/-- The cursor after `i`, wrapping at the capacity. -/
def advance (r : Ring α) (i : Nat) : Nat := (i + 1) % r.capacity

/-- Fills the slot under the write cursor without publishing it. -/
def write (r : Ring α) (value : α) : Except Fault (Ring α) :=
  if r.len < r.capacity then .ok { r with slots := r.slots.set! r.nextWrite value }
  else .error (.ringLapped r.capacity)

/-- Publishes the slot under the write cursor. -/
def commitWrite (r : Ring α) : Except Fault (Ring α) :=
  if r.len < r.capacity then .ok { r with nextWrite := r.advance r.nextWrite, len := r.len + 1 }
  else .error .ringCommitFull

/-- Writes and publishes one element. -/
def push (r : Ring α) (value : α) : Except Fault (Ring α) := do
  (← r.write value).commitWrite

/-- The oldest unread element, if any. -/
def peek [Inhabited α] (r : Ring α) : Option α :=
  if r.len = 0 then none else some ((r.slots[r.nextRead]?).getD default)

/-- Releases the oldest unread element. -/
def commitRead (r : Ring α) : Except Fault (Ring α) :=
  if r.len = 0 then .error .ringUnderflow
  else .ok { r with nextRead := r.advance r.nextRead, len := r.len - 1 }

/-- Reads and releases the oldest unread element. -/
def pop [Inhabited α] (r : Ring α) : Option α × Ring α :=
  match r.peek, r.commitRead with
  | some v, .ok r' => (some v, r')
  | _, _ => (none, r)

/-- Reads and releases every unread element, oldest first. -/
def drain [Inhabited α] (r : Ring α) : List α × Ring α :=
  let out := (List.range r.len).map fun k => (r.slots[(r.nextRead + k) % r.capacity]?).getD default
  (out, { r with nextRead := (r.nextRead + r.len) % r.capacity, len := 0 })

/-- The unread elements, oldest first. -/
def toList [Inhabited α] (r : Ring α) : List α := r.drain.1

/-- Publishes several elements in order, stopping at the first fault. -/
def pushAll (r : Ring α) : List α → Except Fault (Ring α)
  | [] => .ok r
  | v :: vs => do (← r.push v).pushAll vs

/-- The writer's view in one line. -/
def writerText (r : Ring α) : String :=
  s!"RingWriter \x7b capacity: {r.capacity}, len: {r.len}, next_write: {r.nextWrite} \x7d"

/-- The reader's view in one line. -/
def readerText (r : Ring α) : String :=
  s!"RingReader \x7b capacity: {r.capacity}, len: {r.len}, next_read: {r.nextRead} \x7d"

end Ring

end Exchange
