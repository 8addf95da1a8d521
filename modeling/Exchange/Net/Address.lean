import Exchange.Config.Error

/-!
# Socket settings and IPv4 addresses

A `SocketConfig` names the address a socket binds or joins, the interface for multicast
membership, the port and a few flags.

An IPv4 address is read in dotted-decimal form: exactly four parts, each one to three decimal
digits with no leading zero (unless the part is `0`), each at most 255. Nothing else is allowed:
no sign, no blank, no shorter forms. Multicast groups are the addresses `224.0.0.0/4`.
-/

namespace Exchange

/-- Socket parameters as a configuration gives them. -/
structure SocketConfig where
  ip : String := "0.0.0.0"
  iface : String := "0.0.0.0"
  port : Nat := 0
  isUdp : Bool := true
  isListening : Bool := false
  needsTimestamp : Bool := false
  deriving DecidableEq, Repr

/-- The settings in one line. -/
def SocketConfig.describe (c : SocketConfig) : String :=
  s!"SocketCfg[ip:{c.ip} iface:{c.iface} port:{c.port} is_udp:{c.isUdp} " ++
  s!"is_listening:{c.isListening} needs_SO_timestamp:{c.needsTimestamp}]"

/-- An IPv4 address as its four octets. -/
structure Ipv4 where
  octets : List Nat
  deriving DecidableEq, Repr

/-- Reads one part of a dotted-decimal address. -/
def Ipv4.part? (p : String) : Option Nat :=
  let cs := p.toList
  if cs.isEmpty || cs.length > 3 || !cs.all Char.isDigit then none
  else if cs.length > 1 && cs.head? == some '0' then none
  else
    let v := cs.foldl (fun n c => 10 * n + (c.toNat - '0'.toNat)) 0
    if v ≤ 255 then some v else none

/-- Reads a dotted-decimal address. -/
def Ipv4.parse? (s : String) : Option Ipv4 :=
  let parts := s.splitOn "."
  if parts.length ≠ 4 then none
  else (parts.mapM Ipv4.part?).map Ipv4.mk

/-- Whether the address is a multicast group, `224.0.0.0/4`. -/
def Ipv4.isMulticast (a : Ipv4) : Bool :=
  match a.octets with
  | first :: _ => 224 ≤ first && first ≤ 239
  | [] => false

namespace SocketConfig

/-- The group address, or why it is unusable. -/
def group (c : SocketConfig) : Except ConfigError Ipv4 :=
  match Ipv4.parse? c.ip with
  | some a => .ok a
  | none => .error (.invalid s!"invalid socket address '{c.ip}'")

/-- The interface address, or why it is unusable. -/
def interface (c : SocketConfig) : Except ConfigError Ipv4 :=
  match Ipv4.parse? c.iface with
  | some a => .ok a
  | none => .error (.invalid s!"invalid interface address '{c.iface}'")

end SocketConfig

end Exchange
