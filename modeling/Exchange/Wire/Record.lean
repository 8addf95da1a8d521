import Exchange.Basic

/-!
# The records that travel between participants, engine and feed

A `Request` goes from a participant to the engine, a `Response` comes back to one participant,
and an `Update` describes one change of public book state. A `Stamped` update carries the feed's
sequence number. Each kind is a closed set with a one-byte wire tag and a text label. The empty
record of each type has the invalid kind and side and every other field at its sentinel.

Each record has one line of text (`render`): a sentinel field reads `INVALID`, except the
sequence number of a stamped update, which is printed as it is.
-/

namespace Exchange

/-- What a participant asks of the engine. -/
inductive RequestKind where
  | invalid
  | new
  | cancel
  deriving DecidableEq, Repr, Inhabited

/-- What the engine tells a participant about one of its orders. -/
inductive ResponseKind where
  | invalid
  | accepted
  | canceled
  | filled
  | cancelRejected
  deriving DecidableEq, Repr, Inhabited

/-- What changed in a public book. -/
inductive UpdateKind where
  | invalid
  | clear
  | add
  | modify
  | cancel
  | trade
  | snapshotStart
  | snapshotEnd
  deriving DecidableEq, Repr, Inhabited

namespace RequestKind

def tag : RequestKind → UInt8
  | invalid => 0
  | new => 1
  | cancel => 2

def ofTag? : UInt8 → Option RequestKind
  | 0 => some invalid
  | 1 => some new
  | 2 => some cancel
  | _ => none

def label : RequestKind → String
  | invalid => "INVALID"
  | new => "NEW"
  | cancel => "CANCEL"

def ofLabel? : String → Option RequestKind
  | "INVALID" => some invalid
  | "NEW" => some new
  | "CANCEL" => some cancel
  | _ => none

theorem ofTag?_tag (k : RequestKind) : ofTag? k.tag = some k := by
  cases k <;> rfl

theorem tag_of_ofTag? {b : UInt8} {k : RequestKind} (h : ofTag? b = some k) : k.tag = b := by
  revert h
  unfold ofTag?
  split <;> intro h <;> cases h <;> rfl

end RequestKind

namespace ResponseKind

def tag : ResponseKind → UInt8
  | invalid => 0
  | accepted => 1
  | canceled => 2
  | filled => 3
  | cancelRejected => 4

def ofTag? : UInt8 → Option ResponseKind
  | 0 => some invalid
  | 1 => some accepted
  | 2 => some canceled
  | 3 => some filled
  | 4 => some cancelRejected
  | _ => none

def label : ResponseKind → String
  | invalid => "INVALID"
  | accepted => "ACCEPTED"
  | canceled => "CANCELED"
  | filled => "FILLED"
  | cancelRejected => "CANCEL_REJECTED"

def ofLabel? : String → Option ResponseKind
  | "INVALID" => some invalid
  | "ACCEPTED" => some accepted
  | "CANCELED" => some canceled
  | "FILLED" => some filled
  | "CANCEL_REJECTED" => some cancelRejected
  | _ => none

theorem ofTag?_tag (k : ResponseKind) : ofTag? k.tag = some k := by
  cases k <;> rfl

theorem tag_of_ofTag? {b : UInt8} {k : ResponseKind} (h : ofTag? b = some k) : k.tag = b := by
  revert h
  unfold ofTag?
  split <;> intro h <;> cases h <;> rfl

end ResponseKind

namespace UpdateKind

def tag : UpdateKind → UInt8
  | invalid => 0
  | clear => 1
  | add => 2
  | modify => 3
  | cancel => 4
  | trade => 5
  | snapshotStart => 6
  | snapshotEnd => 7

def ofTag? : UInt8 → Option UpdateKind
  | 0 => some invalid
  | 1 => some clear
  | 2 => some add
  | 3 => some modify
  | 4 => some cancel
  | 5 => some trade
  | 6 => some snapshotStart
  | 7 => some snapshotEnd
  | _ => none

def label : UpdateKind → String
  | invalid => "INVALID"
  | clear => "CLEAR"
  | add => "ADD"
  | modify => "MODIFY"
  | cancel => "CANCEL"
  | trade => "TRADE"
  | snapshotStart => "SNAPSHOT_START"
  | snapshotEnd => "SNAPSHOT_END"

def ofLabel? : String → Option UpdateKind
  | "INVALID" => some invalid
  | "CLEAR" => some clear
  | "ADD" => some add
  | "MODIFY" => some modify
  | "CANCEL" => some cancel
  | "TRADE" => some trade
  | "SNAPSHOT_START" => some snapshotStart
  | "SNAPSHOT_END" => some snapshotEnd
  | _ => none

theorem ofTag?_tag (k : UpdateKind) : ofTag? k.tag = some k := by
  cases k <;> rfl

theorem tag_of_ofTag? {b : UInt8} {k : UpdateKind} (h : ofTag? b = some k) : k.tag = b := by
  revert h
  unfold ofTag?
  split <;> intro h <;> cases h <;> rfl

end UpdateKind

/-- A participant's request to the engine. -/
structure Request where
  kind : RequestKind := .invalid
  clientId : ClientId := noClient
  tickerId : TickerId := noTicker
  orderId : OrderId := noOrder
  side : Side := .invalid
  price : Price := noPrice
  qty : Qty := noQty
  deriving DecidableEq, Repr, Inhabited

/-- The engine's answer about one order, addressed to its owner. -/
structure Response where
  kind : ResponseKind := .invalid
  clientId : ClientId := noClient
  tickerId : TickerId := noTicker
  orderId : OrderId := noOrder
  side : Side := .invalid
  price : Price := noPrice
  execQty : Qty := noQty
  leavesQty : Qty := noQty
  deriving DecidableEq, Repr, Inhabited

/-- One change of public book state. -/
structure Update where
  kind : UpdateKind := .invalid
  orderId : OrderId := noOrder
  tickerId : TickerId := noTicker
  side : Side := .invalid
  price : Price := noPrice
  qty : Qty := noQty
  priority : Priority := noPriority
  deriving DecidableEq, Repr, Inhabited

/-- An update with its feed sequence number. -/
structure Stamped where
  seq : UInt64 := 0
  update : Update := {}
  deriving DecidableEq, Repr, Inhabited

/-- What matching emits, in order: answers to participants and public updates. -/
inductive Event where
  | response (r : Response)
  | update (u : Update)
  deriving DecidableEq, Repr

namespace Request

def render (r : Request) : String :=
  s!"ClientRequest [type:{r.kind.label} client:{fieldText r.clientId} ticker:{fieldText r.tickerId} " ++
  s!"oid:{fieldText r.orderId} side:{r.side.label} qty:{fieldText r.qty} price:{fieldText r.price}]"

end Request

namespace Response

def render (r : Response) : String :=
  s!"ClientResponse [type:{r.kind.label} client:{fieldText r.clientId} ticker:{fieldText r.tickerId} " ++
  s!"oid:{fieldText r.orderId} side:{r.side.label} exec_qty:{fieldText r.execQty} " ++
  s!"leaves_qty:{fieldText r.leavesQty} price:{fieldText r.price}]"

end Response

namespace Update

def render (u : Update) : String :=
  s!"MarketUpdate [type:{u.kind.label} ticker:{fieldText u.tickerId} oid:{fieldText u.orderId} " ++
  s!"side:{u.side.label} qty:{fieldText u.qty} price:{fieldText u.price} " ++
  s!"priority:{fieldText u.priority}]"

end Update

namespace Stamped

def render (m : Stamped) : String :=
  s!"MdpMarketUpdate [seq:{m.seq.toNat} {m.update.render}]"

end Stamped

end Exchange
