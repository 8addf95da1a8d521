import Exchange.Net.Address

/-!
# Multicast feed sockets

A `GroupFeed` is a non-blocking datagram socket that receives a multicast feed. Opening it checks
the settings in order: the socket must be UDP, then the group and the interface must be IPv4
addresses. Membership is taken only on `join`.

Joining a group that is not multicast, or joining twice, does nothing; leaving while not joined
does nothing. The host this models has loopback only, so taking membership of a multicast group
fails. A receive takes the oldest pending datagram, cut to the room given (the rest of it is lost,
as with any datagram), or nothing when none is pending.
-/

namespace Exchange

/-- The ways a socket call fails. -/
inductive IoFailure where
  /-- The system refused without a more specific reason. -/
  | uncategorized
  deriving DecidableEq, Repr

def IoFailure.label : IoFailure → String
  | .uncategorized => "Uncategorized"

/-- An open feed socket and the datagrams waiting on it. -/
structure GroupFeed where
  config : SocketConfig
  group : Ipv4
  interface : Ipv4
  joined : Bool := false
  pending : List (List UInt8) := []

namespace GroupFeed

/-- Opens a feed socket for the settings. -/
def create (c : SocketConfig) : Except ConfigError GroupFeed := do
  if !c.isUdp then throw (.invalid s!"market data socket must be UDP: {c.describe}")
  let group ← c.group
  let interface ← c.interface
  return { config := c, group, interface }

/-- Takes membership of the group. -/
def join (f : GroupFeed) : Except IoFailure GroupFeed :=
  if f.joined || !f.group.isMulticast then .ok f else .error .uncategorized

/-- Gives up membership of the group. -/
def leave (f : GroupFeed) : Except IoFailure GroupFeed := .ok { f with joined := false }

/-- A datagram arrives. -/
def deliver (f : GroupFeed) (bytes : List UInt8) : GroupFeed :=
  { f with pending := f.pending ++ [bytes] }

/-- Receives the oldest pending datagram into `room` bytes; nothing when none is pending. -/
def recv (f : GroupFeed) (room : Nat) : List UInt8 × GroupFeed :=
  match f.pending with
  | [] => ([], f)
  | d :: rest => (d.take room, { f with pending := rest })

end GroupFeed

end Exchange
