import Exchange.Ring
import Exchange.Wire.Codec

/-!
# Gap recovery for the market data feed

A `Consumer` reads two feeds of stamped updates. The incremental feed numbers every update from
1; the snapshot feed repeats cycles numbered from 0: a SNAPSHOT_START, the body, a SNAPSHOT_END,
where START and END carry the last incremental number the cycle includes.

While in sync the consumer passes on each incremental with the expected number, drops older
ones, and ignores the snapshot feed. A number beyond the expected one starts recovery: both
queues are emptied and from then on every record is queued by number. Recovery ends when the
snapshot queue holds one whole cycle numbered 0, 1, … with matching markers `s`, and the queued
incrementals from `s + 1` on leave no hole. The consumer then passes on the cycle's body and
those incrementals, and expects the number after the last of them.

What the consumer passes on goes to a ring; an update that does not fit is a fault.
-/

namespace Exchange

/-- The two feeds of market data. -/
inductive FeedKind where
  | incremental
  | snapshot
  deriving DecidableEq, Repr

/-- Whether the consumer follows the incremental feed or rebuilds from a snapshot. -/
inductive SyncState where
  | normal
  | recovering
  deriving DecidableEq, Repr

def SyncState.label : SyncState → String
  | normal => "NORMAL"
  | recovering => "RECOVERING"

/-- The largest sequence number. -/
def maxSeq : UInt64 := 18446744073709551615

/-- Updates queued by sequence number, in increasing order, one per number. -/
structure SeqQueue where
  entries : List (UInt64 × Update) := []
  deriving DecidableEq, Repr

namespace SeqQueue

/-- Queues an update under its number, replacing one queued under the same number. -/
def put (k : UInt64) (u : Update) : List (UInt64 × Update) → List (UInt64 × Update)
  | [] => [(k, u)]
  | (k', u') :: rest =>
    if k < k' then (k, u) :: (k', u') :: rest
    else if k = k' then (k, u) :: rest
    else (k', u') :: put k u rest

def insert (q : SeqQueue) (k : UInt64) (u : Update) : SeqQueue := ⟨put k u q.entries⟩

def contains (q : SeqQueue) (k : UInt64) : Bool := q.entries.any (·.1 == k)

def size (q : SeqQueue) : Nat := q.entries.length

def keys (q : SeqQueue) : List UInt64 := q.entries.map (·.1)

/-- Whether the numbers are exactly `0, 1, …, size - 1`. -/
def isFromZero (q : SeqQueue) : Bool :=
  q.keys == (List.range q.size).map Nat.toUInt64

/-- The updates queued from number `k` on, in order. -/
def since (q : SeqQueue) (k : UInt64) : List (UInt64 × Update) := q.entries.filter (k ≤ ·.1)

end SeqQueue

/-- The number after a run `next, next + 1, …` that the numbers make up, or `none` at a hole or
where the count would pass the largest number. -/
def runEnd (next : UInt64) : List UInt64 → Option UInt64
  | [] => some next
  | k :: ks => if k = next ∧ next ≠ maxSeq then runEnd (next + 1) ks else none

/-- Whether an update is a cycle marker. -/
def Update.isMarker (u : Update) : Bool :=
  u.kind == .snapshotStart || u.kind == .snapshotEnd

/-- The state of gap recovery, with the ring it passes updates on to. -/
structure Consumer where
  nextExpected : UInt64
  state : SyncState
  snapshots : SeqQueue
  incrementals : SeqQueue
  out : Ring Update

namespace Consumer

/-- A consumer in sync, expecting number 1, passing updates on to a ring of `capacity`. -/
def create (capacity : Nat) : Except Fault Consumer := do
  return { nextExpected := 1, state := .normal, snapshots := {}, incrementals := {},
           out := ← Ring.create capacity }

/-- Passes updates on, in order. -/
def publishAll (c : Consumer) (us : List Update) : Except Fault Consumer := do
  return { c with out := ← c.out.pushAll us }

/-- Queues a record of a feed. A snapshot number seen before restarts the snapshot queue. -/
def enqueue (c : Consumer) (feed : FeedKind) (m : Stamped) : Consumer :=
  match feed with
  | .snapshot =>
    let q := if c.snapshots.contains m.seq then {} else c.snapshots
    { c with snapshots := q.insert m.seq m.update }
  | .incremental => { c with incrementals := c.incrementals.insert m.seq m.update }

/-- Forgets the queued snapshot records. -/
def dropSnapshot (c : Consumer) : Consumer := { c with snapshots := {} }

/-- Leaves recovery if the queues hold a whole cycle and the incrementals after it. -/
def resync (c : Consumer) : Except Fault Consumer :=
  match c.snapshots.entries with
  | [] => .ok c
  | (_, first) :: _ =>
    if first.kind ≠ .snapshotStart then .ok c.dropSnapshot
    else if !c.snapshots.isFromZero then .ok c.dropSnapshot
    else
      match c.snapshots.entries.getLast? with
      | none => .ok c
      | some (_, last) =>
        if last.kind ≠ .snapshotEnd then .ok c
        else
          let s := last.orderId
          if first.orderId ≠ s ∨ s = maxSeq then .ok c.dropSnapshot
          else
            let tail := c.incrementals.since (s + 1)
            match runEnd (s + 1) (tail.map (·.1)) with
            | none => .ok c.dropSnapshot
            | some next => do
              let body := (c.snapshots.entries ++ tail).map (·.2)
              let c ← c.publishAll (body.filter fun u => !u.isMarker)
              return { c with snapshots := {}, incrementals := {}, nextExpected := next,
                              state := .normal }

/-- Handles one record of a feed. -/
def onMessage (c : Consumer) (feed : FeedKind) (m : Stamped) : Except Fault Consumer :=
  match c.state, feed with
  | .normal, .snapshot => .ok c
  | .normal, .incremental =>
    if m.seq = c.nextExpected then do
      let c ← c.publishAll [m.update]
      if c.nextExpected = maxSeq then throw (.overflow .add)
      return { c with nextExpected := c.nextExpected + 1 }
    else if m.seq < c.nextExpected then .ok c
    else
      let c := { c with state := .recovering, snapshots := {}, incrementals := {} }
      (c.enqueue feed m).resync
  | .recovering, _ => (c.enqueue feed m).resync

/-- Handles the whole records of a byte string, skipping those that do not decode, looking at
most `fuel` records. -/
def onRecords (c : Consumer) (feed : FeedKind) (bs : List UInt8) : Nat → Except Fault Consumer
  | 0 => .ok c
  | fuel + 1 =>
    if bs.length < Stamped.wireSize then .ok c
    else do
      let c ← match Stamped.ofBytes (bs.take Stamped.wireSize) with
        | .ok m => c.onMessage feed m
        | .error _ => pure c
      c.onRecords feed (bs.drop Stamped.wireSize) fuel

/-- Handles the whole 48-byte records of a byte string; returns the bytes they use. -/
def onBytes (c : Consumer) (feed : FeedKind) (bs : List UInt8) : Except Fault (Nat × Consumer) := do
  let n := bs.length / Stamped.wireSize
  return (n * Stamped.wireSize, ← c.onRecords feed bs n)

/-- Takes the updates passed on so far. -/
def drain (c : Consumer) : List Update × Consumer :=
  let (us, out) := c.out.drain
  (us, { c with out })

def isRecovering (c : Consumer) : Bool := c.state == .recovering

end Consumer

end Exchange
