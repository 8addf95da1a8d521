import Exchange.Trading.Risk
import Exchange.Ring
import Exchange.Wire.Record

/-!
# A participant's order manager

The order manager keeps at most one order per ticker and side, in a *slot*, and talks to the
engine through a ring of requests. A slot moves through the states of its order: a NEW is sent
from an empty or dead slot (after the risk check allows it) and waits as PENDING_NEW; an ACCEPTED
makes it LIVE; moving a live order to another price sends a CANCEL and waits as PENDING_CANCEL;
a CANCELED, or a fill that leaves nothing, makes it DEAD. A pending slot ignores moves, and
answers for another client, another slot or another order id are ignored. New order ids count up
from 1.
-/

namespace Exchange

/-- The state of a slot's order. -/
inductive SlotState where
  | invalid
  | pendingNew
  | live
  | pendingCancel
  | dead
  deriving DecidableEq, Repr

def SlotState.label : SlotState → String
  | invalid => "INVALID"
  | pendingNew => "PENDING_NEW"
  | live => "LIVE"
  | pendingCancel => "PENDING_CANCEL"
  | dead => "DEAD"

/-- Whether a request for the slot is in flight. -/
def SlotState.isPending : SlotState → Bool
  | pendingNew | pendingCancel => true
  | _ => false

/-- The order a slot tracks. -/
structure Slot where
  tickerId : TickerId := noTicker
  orderId : OrderId := noOrder
  side : Side := .invalid
  price : Price := noPrice
  qty : Qty := noQty
  state : SlotState := .invalid
  deriving DecidableEq, Repr

/-- The slot after an answer about its order: ACCEPTED makes it live, CANCELED dead, and a fill
sets the quantity left and makes it dead when nothing is left; other answers change nothing. -/
def Slot.answer (s : Slot) (r : Response) : Slot :=
  match r.kind with
  | .accepted => { s with state := .live }
  | .canceled => { s with state := .dead }
  | .filled => { s with qty := r.leavesQty, state := if r.leavesQty = 0 then .dead else s.state }
  | _ => s

/-- The slot in one line. -/
def Slot.describe (s : Slot) : String :=
  s!"OMOrder[tid:{fieldText s.tickerId} oid:{fieldText s.orderId} side:{s.side.label} " ++
  s!"price:{fieldText s.price} qty:{fieldText s.qty} state:{s.state.label}]"

/-- One participant's slots and request ring. -/
structure OrderManager where
  clientId : ClientId
  /-- Per ticker, the buy slot and the sell slot. -/
  slots : Array (Slot × Slot)
  requests : Ring Request
  nextOrderId : OrderId

namespace OrderManager

/-- Empty slots for `tickers` tickers and a request ring of `capacity`. -/
def create (clientId : ClientId) (tickers capacity : Nat) : Except Fault OrderManager := do
  return { clientId, slots := Array.replicate tickers ({}, {}), requests := ← Ring.create capacity,
           nextOrderId := 1 }

/-- The slot of a ticker and side. -/
def slot? (om : OrderManager) (t : TickerId) (side : Side) : Option Slot :=
  match om.slots[t.toNat]?, side with
  | some (b, _), .buy => some b
  | some (_, s), .sell => some s
  | _, _ => none

/-- Replaces the slot of a ticker and side. -/
def setSlot (om : OrderManager) (t : TickerId) (side : Side) (s : Slot) : OrderManager :=
  match om.slots[t.toNat]?, side with
  | some (_, a), .buy => { om with slots := om.slots.set! t.toNat (s, a) }
  | some (b, _), .sell => { om with slots := om.slots.set! t.toNat (b, s) }
  | _, _ => om

/-- Follows the engine's answer about one of the participant's orders. -/
def onResponse (om : OrderManager) (r : Response) : OrderManager :=
  if r.clientId ≠ om.clientId then om
  else
    match om.slot? r.tickerId r.side with
    | none => om
    | some s => if s.orderId ≠ r.orderId then om else om.setSlot r.tickerId r.side (s.answer r)

/-- Sends a NEW for the slot with the next order id. -/
def sendNew (om : OrderManager) (t : TickerId) (price : Price) (side : Side) (qty : Qty) :
    Except Fault OrderManager := do
  let orderId := om.nextOrderId
  if orderId = noOrder then throw (.overflow .add)
  let requests ← om.requests.push
    { kind := .new, clientId := om.clientId, tickerId := t, orderId, side, price, qty }
  let om := { om with nextOrderId := orderId + 1, requests }
  return om.setSlot t side { tickerId := t, orderId, side, price, qty, state := .pendingNew }

/-- Sends a CANCEL of the slot's order. -/
def sendCancel (om : OrderManager) (t : TickerId) (side : Side) (s : Slot) :
    Except Fault OrderManager := do
  let om := om.setSlot t side { s with state := .pendingCancel }
  let requests ← om.requests.push
    { kind := .cancel, clientId := om.clientId, tickerId := s.tickerId, orderId := s.orderId,
      side := s.side, price := s.price, qty := s.qty }
  return { om with requests }

/-- Moves the order of a ticker and side towards `price`, asking `check` before a new order. The
check is any pre-trade check: the verdict on an order of a ticker, side and quantity, or the fault
that stops it. -/
def moveWith (om : OrderManager) (check : TickerId → Side → Qty → Except Fault Verdict)
    (t : TickerId) (price : Price) (side : Side) (qty : Qty) : Except Fault OrderManager :=
  match om.slot? t side with
  | none => .ok om
  | some s =>
    match s.state with
    | .live => if s.price ≠ price then om.sendCancel t side s else .ok om
    | .invalid | .dead =>
      if price = noPrice then .ok om
      else do
        match ← check t side qty with
        | .allowed => om.sendNew t price side qty
        | _ => return om
    | .pendingNew | .pendingCancel => .ok om

/-- Moves both orders of a ticker: the bid, then the ask, each for `clip`. -/
def moveBothWith (om : OrderManager) (check : TickerId → Side → Qty → Except Fault Verdict)
    (t : TickerId) (bid ask : Price) (clip : Qty) : Except Fault OrderManager := do
  (← om.moveWith check t bid .buy clip).moveWith check t ask .sell clip

/-- Moves the order of a ticker and side towards `price`, under the risk manager's check. -/
def move (om : OrderManager) (risk : RiskManager) (t : TickerId) (price : Price) (side : Side)
    (qty : Qty) : Except Fault OrderManager :=
  om.moveWith risk.check t price side qty

/-- Moves both orders of a ticker under the risk manager's check. -/
def moveBoth (om : OrderManager) (risk : RiskManager) (t : TickerId) (bid ask : Price)
    (clip : Qty) : Except Fault OrderManager :=
  om.moveBothWith risk.check t bid ask clip

/-- Takes the requests sent so far. -/
def drain (om : OrderManager) : List Request × OrderManager :=
  let (rs, requests) := om.requests.drain
  (rs, { om with requests })

/-- The manager's state in one line. -/
def describe (om : OrderManager) : String :=
  s!"OrderManager \x7b client_id: {om.clientId.toNat}, next_order_id: {om.nextOrderId.toNat}, " ++
  s!"requests: {om.requests.writerText} \x7d"

end OrderManager

end Exchange
