import Exchange.Pool
import Exchange.Wire.Record

/-!
# Limit order books

A `Book` holds the resting orders of one ticker. Each side is a list of price levels, best first:
bids by falling price, asks by rising price. A level holds its orders oldest first; its total
quantity and order count are read off that list. Every resting order also occupies one slot of
a fixed pool of order slots, and every level one of a fixed number of level slots; running out
of either is a fault. This is the book read off the engine's storage: `LinkedBook` keeps the same
levels and orders as linked nodes in two pools, with stored counters and maps, and each of its
operations stores the book this one's operation gives.

The queries here read the book without changing it: best prices and the spread, the depth at a
price, the best levels, one order by id, and a full view of both sides.
-/

namespace Exchange

/-- An order at rest. Its side and price are those of the level that holds it. -/
structure Resting where
  orderId : OrderId
  clientId : ClientId
  qty : Qty
  priority : Priority
  /-- The pool slot that stores the order. -/
  slot : Nat
  deriving DecidableEq, Repr

/-- The orders resting at one price, oldest first. -/
structure Level where
  price : Price
  orders : List Resting
  deriving DecidableEq, Repr

namespace Level

/-- The sum of the quantities at this price. -/
def totalQty (l : Level) : Nat := (l.orders.map fun o => o.qty.toNat).foldr (· + ·) 0

/-- How many orders rest at this price. -/
def count (l : Level) : Nat := l.orders.length

/-- The priority the next order at this price receives: one past the newest, or 1. -/
def nextPriority (l : Level) : Except Fault Priority :=
  match l.orders.getLast? with
  | none => .ok 1
  | some o => if o.priority = noPriority then .error (.overflow .add) else .ok (o.priority + 1)

end Level

/-- One order as the book reports it. -/
structure Entry where
  tickerId : TickerId
  clientId : ClientId
  orderId : OrderId
  side : Side
  price : Price
  qty : Qty
  priority : Priority
  deriving DecidableEq, Repr

/-- The resting orders of one ticker. -/
structure Book where
  ticker : TickerId
  /-- Buy levels, highest price first. -/
  bids : List Level
  /-- Sell levels, lowest price first. -/
  asks : List Level
  /-- The slots that store orders; each holds its order's id. -/
  orderSlots : Pool OrderId
  /-- How many levels the book can hold at once, both sides together. -/
  levelCapacity : Nat
  deriving Repr

namespace Book

/-- An empty book; a pool of no slots, or one as large as the null index, is a fault. -/
def create (ticker : TickerId) (maxOrders maxLevels : Nat) : Except Fault Book := do
  let orderSlots ← Pool.create maxOrders
  let _ ← (Pool.create maxLevels : Except Fault (Pool Unit))
  return { ticker, bids := [], asks := [], orderSlots, levelCapacity := maxLevels }

/-- The levels of one side, best first; the invalid side has none. -/
def levels (b : Book) : Side → List Level
  | .buy => b.bids
  | .sell => b.asks
  | .invalid => []

/-- Replaces the levels of a valid side. -/
def withLevels (b : Book) (side : Side) (ls : List Level) : Book :=
  match side with
  | .buy => { b with bids := ls }
  | .sell => { b with asks := ls }
  | .invalid => b

/-- The best price of a side. -/
def best (b : Book) (side : Side) : Option Price := (b.levels side).head?.map (·.price)

def bestBid (b : Book) : Option Price := b.best .buy

def bestAsk (b : Book) : Option Price := b.best .sell

/-- How far the best ask lies above the best bid, when both exist and do not cross. -/
def spread (b : Book) : Except Fault (Option Price) :=
  match b.bestBid, b.bestAsk with
  | some bid, some ask =>
    if bid < ask then
      let d := ask.toInt - bid.toInt
      if d < Int.pow 2 63 then .ok (some (Int64.ofInt d)) else .error (.overflow .subtract)
    else .ok none
  | _, _ => .ok none

/-- The level at a price on one side. -/
def levelAt (b : Book) (side : Side) (price : Price) : Option Level :=
  (b.levels side).find? (·.price == price)

/-- Total quantity and order count at a price. -/
def depth (b : Book) (side : Side) (price : Price) : Nat × Nat :=
  match b.levelAt side price with
  | some l => (l.totalQty, l.count)
  | none => (0, 0)

/-- The best `n` levels of a side as price, total quantity and order count. -/
def top (b : Book) (side : Side) (n : Nat) : List (Price × Nat × Nat) :=
  ((b.levels side).take n).map fun l => (l.price, l.totalQty, l.count)

/-- The resting order with this id, with its side and price. -/
def find? (b : Book) (oid : OrderId) : Option (Side × Price × Resting) :=
  let onSide (side : Side) : Option (Side × Price × Resting) :=
    (b.levels side).findSome? fun l => (l.orders.find? (·.orderId == oid)).map fun o => (side, l.price, o)
  (onSide .buy).or (onSide .sell)

/-- Whether an order with this id rests. -/
def contains (b : Book) (oid : OrderId) : Bool := (b.find? oid).isSome

/-- The order with this id, as the book reports it. -/
def order? (b : Book) (oid : OrderId) : Option Entry :=
  (b.find? oid).map fun (side, price, o) =>
    { tickerId := b.ticker, clientId := o.clientId, orderId := o.orderId, side, price,
      qty := o.qty, priority := o.priority }

/-- How many orders rest. -/
def orderCount (b : Book) : Nat := ((b.bids ++ b.asks).map Level.count).foldr (· + ·) 0

/-- How many levels exist on both sides. -/
def levelCount (b : Book) : Nat := b.bids.length + b.asks.length

def isEmpty (b : Book) : Bool := b.orderCount == 0

/-- The book's state in one line. -/
def describe (b : Book) : String :=
  let opt : Option Price → String
    | some p => s!"Some({p.toInt})"
    | none => "None"
  s!"OrderBook \x7b ticker_id: {b.ticker.toNat}, best_bid: {opt b.bestBid}, best_ask: {opt b.bestAsk}, " ++
  s!"bid_levels: {b.bids.length}, ask_levels: {b.asks.length}, order_count: {b.orderCount} \x7d"

end Book

end Exchange
