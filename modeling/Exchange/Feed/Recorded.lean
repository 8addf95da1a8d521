import Exchange.Feed.Session

/-!
# Recorded feeds

A `RecordedNet` plays back recorded byte chunks on the two feeds, for running the consumer's loop
without a network. A receive hands out the next chunk, or as much of it as fits, the rest staying
queued; with nothing queued it hands out nothing. Chosen calls can be made to fail, by name:
`<feed>.<call>` names every call of a kind on a feed, and `<feed>.<call>#<n>` only its n-th call,
counting from 1 and written without leading zeros or sign; other names name no call. Each call
is written to a log: `incremental.join`, `snapshot.recv 192` (the bytes handed out),
`snapshot.leave`, or `<feed>.<call> failed`; a receive with nothing queued is not logged.

The recording stops the run once three incremental receives in a row find nothing queued while
the snapshot feed has nothing queued or is not joined.
-/

namespace Exchange

def FeedKind.label : FeedKind → String
  | .incremental => "incremental"
  | .snapshot => "snapshot"

/-- The calls a feed socket answers. -/
inductive SocketCall where
  | join
  | leave
  | recv
  deriving DecidableEq, Repr

def SocketCall.label : SocketCall → String
  | join => "join"
  | leave => "leave"
  | recv => "recv"

/-- One recorded socket: its queued chunks, whether it is joined, and its calls so far. -/
structure Recording where
  chunks : List (List UInt8)
  joined : Bool := false
  joins : Nat := 0
  leaves : Nat := 0
  recvs : Nat := 0
  deriving Repr

/-- Two recorded sockets with their failures, log and stop flag. -/
structure RecordedNet where
  incremental : Recording
  snapshot : Recording
  /-- The names of the calls that fail. -/
  failures : List String
  /-- The log, newest entry first. -/
  log : List String := []
  /-- Incremental receives in a row that found the recording finished. -/
  idle : Nat := 0
  running : Bool := true
  deriving Repr

namespace RecordedNet

/-- Two sockets with these chunks and failures. -/
def create (inc snap : List (List UInt8)) (failures : List String) : RecordedNet :=
  { incremental := { chunks := inc }, snapshot := { chunks := snap }, failures }

def socket (n : RecordedNet) : FeedKind → Recording
  | .incremental => n.incremental
  | .snapshot => n.snapshot

def withSocket (n : RecordedNet) (feed : FeedKind) (s : Recording) : RecordedNet :=
  match feed with
  | .incremental => { n with incremental := s }
  | .snapshot => { n with snapshot := s }

/-- Whether the `count`-th call of a kind on a feed fails: when the failures name the call
without a count, or with this count. -/
def fails (n : RecordedNet) (feed : FeedKind) (call : SocketCall) (count : Nat) : Bool :=
  let name := s!"{feed.label}.{call.label}"
  n.failures.contains name || n.failures.contains s!"{name}#{count}"

def note (n : RecordedNet) (entry : String) : RecordedNet := { n with log := entry :: n.log }

/-- Counts an incremental receive toward stopping the run. -/
def watch (n : RecordedNet) (found : Bool) : RecordedNet :=
  let quiet := !found && (n.snapshot.chunks.isEmpty || !n.snapshot.joined)
  let idle := if quiet then n.idle + 1 else 0
  { n with idle, running := n.running && idle < 3 }

def recv (n : RecordedNet) (feed : FeedKind) (room : Nat) : RecordedNet × Option (List UInt8) :=
  let s := n.socket feed
  let s := { s with recvs := s.recvs + 1 }
  let n := n.withSocket feed s
  if n.fails feed .recv s.recvs then (n.note s!"{feed.label}.recv failed", none)
  else
    match s.chunks with
    | [] =>
      let n := if feed == .incremental then n.watch false else n
      (n, some [])
    | c :: rest =>
      let given := c.take room
      let left := if room < c.length then c.drop room :: rest else rest
      let n := n.withSocket feed { s with chunks := left }
      let n := if feed == .incremental then n.watch true else n
      (n.note s!"{feed.label}.recv {given.length}", some given)

def join (n : RecordedNet) (feed : FeedKind) : RecordedNet × Bool :=
  let s := n.socket feed
  let s := { s with joins := s.joins + 1 }
  let n := n.withSocket feed s
  if n.fails feed .join s.joins then (n.note s!"{feed.label}.join failed", false)
  else ((n.withSocket feed { s with joined := true }).note s!"{feed.label}.join", true)

def leave (n : RecordedNet) (feed : FeedKind) : RecordedNet × Bool :=
  let s := n.socket feed
  let s := { s with leaves := s.leaves + 1 }
  let n := n.withSocket feed s
  if n.fails feed .leave s.leaves then (n.note s!"{feed.label}.leave failed", false)
  else ((n.withSocket feed { s with joined := false }).note s!"{feed.label}.leave", true)

instance : FeedLink RecordedNet where
  recv := recv
  join := join
  leave := leave
  running := RecordedNet.running

/-- Enough turns to play back everything recorded and stop. -/
def budget (n : RecordedNet) : Nat :=
  let units (r : Recording) := (r.chunks.map (·.length + 1)).foldr (· + ·) 0
  2 * (units n.incremental + units n.snapshot) + 16

/-- The log, oldest entry first. -/
def entries (n : RecordedNet) : List String := n.log.reverse

end RecordedNet

end Exchange
