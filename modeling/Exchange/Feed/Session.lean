import Exchange.Feed.Consumer

/-!
# The consumer's receive loop

The consumer reads its two feeds through a `FeedLink`: two sockets that can receive into a buffer
of a given room, join and leave their stream, and a shared flag that says whether to go on.

The loop joins the incremental stream and then, while the flag is up, repeats: receive once from
the incremental socket and handle the whole records received so far; if the consumer is
recovering and not subscribed to the snapshot stream, join it; if subscribed, receive once from
the snapshot socket; if the consumer is back in sync and still subscribed, leave the snapshot
stream and forget its partial record. Each feed keeps the bytes of a partial record for the next
receive, in a buffer of 64 KiB. A socket call that fails ends the loop.
-/

namespace Exchange

/-- The socket pair and stop flag the consumer's loop runs on. A failed call answers `none` or
`false`; the link records the call either way. -/
class FeedLink (σ : Type) where
  /-- Receives at most `room` bytes; the empty list when nothing is pending. -/
  recv : σ → FeedKind → Nat → σ × Option (List UInt8)
  join : σ → FeedKind → σ × Bool
  leave : σ → FeedKind → σ × Bool
  running : σ → Bool

/-- Why the loop stopped early. -/
inductive Halt where
  /-- A socket call failed. -/
  | io
  /-- The consumer met a fault. -/
  | fault (f : Fault)
  deriving Repr

/-- The loop's own state: the partial records of both feeds and the subscription. -/
structure LoopState where
  incremental : List UInt8 := []
  snapshot : List UInt8 := []
  subscribed : Bool := false

/-- Room for received bytes in each feed's buffer. -/
def feedBufferSize : Nat := 65536

section
variable {σ : Type} [FeedLink σ]

/-- Receives once from a feed and handles the whole records; returns the partial record left. -/
def Consumer.drainFeed (c : Consumer) (net : σ) (feed : FeedKind) (buf : List UInt8) :
    Consumer × σ × List UInt8 × Option Halt :=
  match FeedLink.recv net feed (feedBufferSize - buf.length) with
  | (net, none) => (c, net, buf, some .io)
  | (net, some bytes) =>
    if bytes.isEmpty then (c, net, buf, none)
    else
      let buf := buf ++ bytes
      match c.onBytes feed buf with
      | .ok (n, c) => (c, net, buf.drop n, none)
      | .error f => (c, net, buf, some (.fault f))

/-- One turn of the loop. -/
def Consumer.turn (c : Consumer) (net : σ) (st : LoopState) : Consumer × σ × LoopState × Option Halt :=
  match c.drainFeed net .incremental st.incremental with
  | (c, net, _, some h) => (c, net, st, some h)
  | (c, net, inc, none) =>
    let st := { st with incremental := inc }
    let joined : σ × Bool :=
      if c.isRecovering && !st.subscribed then FeedLink.join net .snapshot else (net, true)
    match joined with
    | (net, false) => (c, net, st, some .io)
    | (net, true) =>
      let st := { st with subscribed := st.subscribed || c.isRecovering }
      let drained :=
        if st.subscribed then c.drainFeed net .snapshot st.snapshot else (c, net, st.snapshot, none)
      match drained with
      | (c, net, _, some h) => (c, net, st, some h)
      | (c, net, snap, none) =>
        let st := { st with snapshot := snap }
        if !c.isRecovering && st.subscribed then
          match FeedLink.leave net .snapshot with
          | (net, false) => (c, net, st, some .io)
          | (net, true) => (c, net, { st with subscribed := false, snapshot := [] }, none)
        else (c, net, st, none)

/-- Turns of the loop while the flag is up, at most `fuel` of them. -/
def Consumer.loop (c : Consumer) (net : σ) (st : LoopState) : Nat → Consumer × σ × Option Halt
  | 0 => (c, net, none)
  | fuel + 1 =>
    if !FeedLink.running net then (c, net, none)
    else
      match c.turn net st with
      | (c, net, _, some h) => (c, net, some h)
      | (c, net, st, none) => c.loop net st fuel

/-- Joins the incremental stream and runs the loop for at most `fuel` turns. -/
def Consumer.run (c : Consumer) (net : σ) (fuel : Nat) : Consumer × σ × Option Halt :=
  match FeedLink.join net .incremental with
  | (net, false) => (c, net, some .io)
  | (net, true) => c.loop net {} fuel

end

end Exchange
