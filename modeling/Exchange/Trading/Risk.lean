import Exchange.Fault
import Exchange.Number.Shortest

/-!
# Pre-trade risk

Each ticker has limits (largest order, largest absolute position, smallest total profit) and a
running position. A new order passes the check only if, in this order: its side is valid, its
quantity is within the order limit, the position it would leave is within the position limit in
absolute value, and the total profit is not below the loss limit. A ticker without a risk entry
fails the check. Position arithmetic is checked 64-bit signed arithmetic; leaving the word is a
fault.
-/

namespace Exchange

/-- The answer of a pre-trade check. -/
inductive Verdict where
  | invalid
  | orderTooLarge
  | positionTooLarge
  | lossTooLarge
  | allowed
  deriving DecidableEq, Repr

def Verdict.label : Verdict → String
  | invalid => "INVALID"
  | orderTooLarge => "ORDER_TOO_LARGE"
  | positionTooLarge => "POSITION_TOO_LARGE"
  | lossTooLarge => "LOSS_TOO_LARGE"
  | allowed => "ALLOWED"

/-- The risk limits of one ticker. -/
structure RiskLimits where
  maxOrderSize : Qty := 0
  maxPosition : Int64 := 0
  maxLoss : Float := 0.0

/-- The limits in one line. -/
def RiskLimits.describe (l : RiskLimits) : String :=
  s!"RiskCfg\x7bmax-order-size:{l.maxOrderSize.toNat} max-position:{l.maxPosition.toInt} " ++
  s!"max-loss:{floatText l.maxLoss}\x7d"

/-- Whether two sets of limits are equal, comparing the loss limit as a float (NaN differs
from itself). -/
def RiskLimits.same (a b : RiskLimits) : Bool :=
  a.maxOrderSize == b.maxOrderSize && a.maxPosition == b.maxPosition && a.maxLoss == b.maxLoss

/-- A ticker's position and total profit. -/
structure Position where
  position : Int64 := 0
  totalPnl : Float := 0.0

/-- Limits and position of one ticker. -/
structure TickerRisk where
  limits : RiskLimits := {}
  position : Position := {}

/-- The risk state of every ticker. -/
structure RiskManager where
  tickers : Array TickerRisk

/-- Whether an integer fits a signed 64-bit word. -/
def fitsInt64 (i : Int) : Bool := -(Int.pow 2 63) ≤ i ∧ i < Int.pow 2 63

/-- The check of one ticker's limits. -/
def TickerRisk.check (r : TickerRisk) (side : Side) (qty : Qty) : Except Fault Verdict :=
  if !side.isValid then .ok .invalid
  else if r.limits.maxOrderSize < qty then .ok .orderTooLarge
  else
    let projected := r.position.position.toInt + side.sign * qty.toNat
    if !fitsInt64 projected then .error (.overflow .add)
    else if projected = -(Int.pow 2 63) then .error (.overflow .negate)
    else if r.limits.maxPosition.toInt < projected.natAbs then .ok .positionTooLarge
    else if r.position.totalPnl < r.limits.maxLoss then .ok .lossTooLarge
    else .ok .allowed

namespace RiskManager

/-- Risk for `count` tickers; the first take the given limits, the rest have zero limits. -/
def create (count : Nat) (limits : List RiskLimits) : RiskManager :=
  { tickers := ((List.range count).map fun i => { limits := (limits[i]?).getD {} }).toArray }

/-- The pre-trade check of an order. -/
def check (rm : RiskManager) (t : TickerId) (side : Side) (qty : Qty) : Except Fault Verdict :=
  match rm.tickers[t.toNat]? with
  | none => .ok .invalid
  | some r => TickerRisk.check r side qty

/-- The ticker's entry; a ticker beyond the manager is a fault. -/
def entry (rm : RiskManager) (t : TickerId) : Except Fault TickerRisk :=
  match rm.tickers[t.toNat]? with
  | some r => .ok r
  | none => .error (.indexOutOfBounds rm.tickers.size t.toNat)

/-- Moves the position by a fill. -/
def onFill (rm : RiskManager) (t : TickerId) (side : Side) (qty : Qty) : Except Fault RiskManager := do
  let r ← rm.entry t
  let moved := r.position.position.toInt + side.sign * qty.toNat
  if !fitsInt64 moved then throw (.overflow .add)
  let r := { r with position := { r.position with position := Int64.ofInt moved } }
  return { tickers := rm.tickers.set! t.toNat r }

/-- Sets the ticker's total profit. -/
def setPnl (rm : RiskManager) (t : TickerId) (pnl : Float) : Except Fault RiskManager := do
  let r ← rm.entry t
  let r := { r with position := { r.position with totalPnl := pnl } }
  return { tickers := rm.tickers.set! t.toNat r }

/-- The ticker's position, if the manager has the ticker. -/
def position? (rm : RiskManager) (t : TickerId) : Option Position :=
  (rm.tickers[t.toNat]?).map (·.position)

end RiskManager

end Exchange
