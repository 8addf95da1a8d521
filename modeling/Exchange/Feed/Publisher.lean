import Exchange.Ring
import Exchange.Wire.Record

/-!
# Stamping the incremental feed

A `Publisher` takes the engine's updates in order, gives each the next sequence number (from 1),
sends it on the wire and hands it to the snapshot book through a ring.
-/

namespace Exchange

/-- The stamping stage between the engine's updates and the snapshot book. -/
structure Publisher where
  /-- Updates from the engine. -/
  updates : Ring Update
  /-- Stamped updates for the snapshot book. -/
  stamped : Ring Stamped
  nextSeq : UInt64

namespace Publisher

/-- A publisher whose rings both hold `capacity` elements. -/
def create (capacity : Nat) : Except Fault Publisher := do
  return { updates := ← Ring.create capacity, stamped := ← Ring.create capacity, nextSeq := 1 }

/-- Stamps the given updates in order and hands them to the snapshot book; returns the stamped updates. -/
def stampAll (p : Publisher) : List Update → Except Fault (List Stamped × Publisher)
  | [] => .ok ([], p)
  | u :: us => do
    let m : Stamped := { seq := p.nextSeq, update := u }
    let stamped ← p.stamped.push m
    if p.nextSeq = 18446744073709551615 then throw (.overflow .add)
    let (ms, p) ← stampAll { p with stamped, nextSeq := p.nextSeq + 1 } us
    return (m :: ms, p)

/-- Stamps every pending update from the engine. -/
def publish (p : Publisher) : Except Fault (List Stamped × Publisher) :=
  let (us, updates) := p.updates.drain
  stampAll { p with updates } us

/-- The publisher's state in one line. -/
def describe (p : Publisher) : String :=
  s!"IncrementalPublisher \x7b updates: {p.updates.readerText}, synthesizer: {p.stamped.writerText}, " ++
  s!"next_seq: {p.nextSeq.toNat} \x7d"

end Publisher

end Exchange
