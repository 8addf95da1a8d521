import Exchange.Book.Basic

/-!
# Price-time matching

`Book.add` places a limit order. An order that is malformed (no quantity, the sentinel quantity,
the invalid side, the sentinel price or id) or whose id already rests is rejected with one
INVALID answer. Otherwise it is accepted and crosses the opposite side: while quantity remains
and the best opposite level's price is within the limit, it trades with that level's oldest
order at the resting price. Each trade answers both owners (FILLED with the quantity left), prints
a TRADE and then either a CANCEL of the resting order (filled completely, with its quantity before
the trade) or a MODIFY with what remains of it. Quantity left over rests as a new order behind
the others at its price, and an ADD announces it with its queue priority.

`Book.cancel` removes a client's own order (CANCELED, then a CANCEL update) and otherwise
answers CANCEL_REJECTED. `Book.insert` and `Book.remove` place and take out one resting order
directly, without matching.
-/

namespace Exchange

/-- Whether a limit on `side` reaches a resting price. -/
def crosses : Side → Price → Price → Bool
  | .buy, limit, resting => resting ≤ limit
  | .sell, limit, resting => limit ≤ resting
  | .invalid, _, _ => false

/-- Whether price `p` ranks before price `q` on a side: higher for bids, lower for asks. -/
def ranksBefore : Side → Price → Price → Bool
  | .buy, p, q => q < p
  | .sell, p, q => p < q
  | .invalid, _, _ => false

/-- Events emitted by an operation, with its result, or the fault that stopped it after them. -/
structure Outcome (α : Type) where
  events : List Event
  result : Except Fault α

/-- The incoming order while it crosses the book. -/
structure Taker where
  ticker : TickerId
  clientId : ClientId
  orderId : OrderId
  side : Side
  limit : Price

namespace Taker

/-- The events of one trade of `fill` against resting order `o` at `price`, leaving the taker
with `left`; the last event reports what happened to the resting order. -/
def tradeEvents (t : Taker) (price : Price) (o : Resting) (fill left : Qty) : List Event :=
  let contra := t.side.opposite
  let passiveLeft := o.qty - fill
  [.response { kind := .filled, clientId := t.clientId, tickerId := t.ticker, orderId := t.orderId,
               side := t.side, price, execQty := fill, leavesQty := left },
   .response { kind := .filled, clientId := o.clientId, tickerId := t.ticker, orderId := o.orderId,
               side := contra, price, execQty := fill, leavesQty := passiveLeft },
   .update { kind := .trade, orderId := noOrder, tickerId := t.ticker, side := t.side, price,
             qty := fill, priority := noPriority },
   if passiveLeft = 0 then
     .update { kind := .cancel, orderId := o.orderId, tickerId := t.ticker, side := contra, price,
               qty := o.qty, priority := o.priority }
   else
     .update { kind := .modify, orderId := o.orderId, tickerId := t.ticker, side := contra, price,
               qty := passiveLeft, priority := o.priority }]

/-- Trades against the orders of one level, oldest first, while quantity remains. Returns the
events, the quantity left, the orders that stay, and the orders filled completely. -/
def fillLevel (t : Taker) (price : Price) : List Resting → Qty →
    List Event × Qty × List Resting × List Resting
  | [], leaves => ([], leaves, [], [])
  | o :: os, leaves =>
    if leaves = 0 then ([], leaves, o :: os, [])
    else
      let fill := min leaves o.qty
      let left := leaves - fill
      let evs := t.tradeEvents price o fill left
      if o.qty - fill = 0 then
        let (more, leaves', rest, filled) := t.fillLevel price os left
        (evs ++ more, leaves', rest, o :: filled)
      else (evs, left, { o with qty := o.qty - fill } :: os, [])

/-- Trades against the levels of the opposite side, best first, while quantity remains and the
level's price is within the limit. Returns the events, the quantity left, the levels that stay,
and the orders filled completely. -/
def fillSide (t : Taker) : List Level → Qty → List Event × Qty × List Level × List Resting
  | [], leaves => ([], leaves, [], [])
  | l :: ls, leaves =>
    if leaves = 0 ∨ !crosses t.side t.limit l.price then ([], leaves, l :: ls, [])
    else
      let (evs, left, rest, filled) := t.fillLevel l.price l.orders leaves
      match rest with
      | [] =>
        let (more, leaves', ls', filled') := t.fillSide ls left
        (evs ++ more, leaves', ls', filled ++ filled')
      | _ => (evs, left, { l with orders := rest } :: ls, filled)

end Taker

namespace Book

/-- Places a new level of a valid side at its rank. -/
def placeLevel (side : Side) (l : Level) : List Level → List Level
  | [] => [l]
  | m :: ms => if ranksBefore side l.price m.price then l :: m :: ms else m :: placeLevel side l ms

/-- Appends an order at the back of the level at `price`. -/
def appendAt (price : Price) (o : Resting) (ls : List Level) : List Level :=
  ls.map fun l => if l.price = price then { l with orders := l.orders ++ [o] } else l

/-- Rests an order behind the others at its price, without matching. An id that already rests,
the invalid side, and a full level or order pool are faults. -/
def insert (b : Book) (clientId : ClientId) (orderId : OrderId) (side : Side) (price : Price)
    (qty : Qty) : Except Fault (Resting × Book) := do
  if b.contains orderId then throw .duplicateOrder
  if !side.isValid then throw .levelForInvalidSide
  let ls := b.levels side
  let (level, ls) ← match ls.find? (·.price == price) with
    | some l => pure (l, ls)
    | none =>
      if b.levelCapacity ≤ b.levelCount then throw (.poolExhausted b.levelCapacity)
      else
        let l : Level := { price, orders := [] }
        pure (l, placeLevel side l ls)
  let priority ← level.nextPriority
  let (slot, orderSlots) ← b.orderSlots.allocate orderId
  let o : Resting := { orderId, clientId, qty, priority, slot }
  return (o, { b.withLevels side (appendAt price o ls) with orderSlots })

/-- Takes a resting order out of the level at `price`, dropping the level if it empties. A price
with no level is left as it is, where the engine's `remove_order_at` panics; the book takes out
only orders it finds, and the linked book, which faults there, stores the same book. -/
def dropFrom (price : Price) (oid : OrderId) : List Level → List Level
  | [] => []
  | l :: ls =>
    if l.price = price then
      let rest := l.orders.filter (·.orderId != oid)
      if rest.isEmpty then ls else { l with orders := rest } :: ls
    else l :: dropFrom price oid ls

/-- The book without a resting order, found on `side` at `price`. -/
def without (b : Book) (side : Side) (price : Price) (o : Resting) : Book :=
  { b.withLevels side (dropFrom price o.orderId (b.levels side)) with
    orderSlots := b.orderSlots.vacate o.slot }

/-- Takes out the order with this id, if it rests, and reports it. -/
def remove (b : Book) (oid : OrderId) : Option Entry × Book :=
  match b.find? oid with
  | some (side, price, o) =>
    (some { tickerId := b.ticker, clientId := o.clientId, orderId := o.orderId, side, price,
            qty := o.qty, priority := o.priority }, b.without side price o)
  | none => (none, b)

/-- Whether a new order is malformed or reuses a resting id. -/
def rejects (b : Book) (orderId : OrderId) (side : Side) (price : Price) (qty : Qty) : Bool :=
  qty == 0 || qty == noQty || !side.isValid || price == noPrice || orderId == noOrder ||
    b.contains orderId

/-- Places a limit order: rejects it, or accepts it, crosses the opposite side and rests what is
left. -/
def add (b : Book) (clientId : ClientId) (orderId : OrderId) (side : Side) (price : Price)
    (qty : Qty) : Outcome Book :=
  let answer (kind : ResponseKind) (leaves : Qty) : Event :=
    .response { kind, clientId, tickerId := b.ticker, orderId, side, price, execQty := 0,
                leavesQty := leaves }
  if b.rejects orderId side price qty then ⟨[answer .invalid qty], .ok b⟩
  else
    let t : Taker := { ticker := b.ticker, clientId, orderId, side, limit := price }
    let contra := side.opposite
    let (evs, leaves, rest, filled) := t.fillSide (b.levels contra) qty
    let crossed : Book :=
      { b.withLevels contra rest with
        orderSlots := filled.foldl (fun p o => p.vacate o.slot) b.orderSlots }
    let head := answer .accepted qty :: evs
    if leaves = 0 then ⟨head, .ok crossed⟩
    else
      match crossed.insert clientId orderId side price leaves with
      | .ok (o, b') =>
        ⟨head ++ [.update { kind := .add, orderId, tickerId := b.ticker, side, price, qty := leaves,
                            priority := o.priority }], .ok b'⟩
      | .error f => ⟨head, .error f⟩

/-- Cancels a client's own resting order; any other id is rejected. -/
def cancel (b : Book) (clientId : ClientId) (orderId : OrderId) : List Event × Book :=
  match b.find? orderId with
  | some (side, price, o) =>
    if o.clientId = clientId then
      ([.response { kind := .canceled, clientId, tickerId := b.ticker, orderId, side, price,
                    execQty := 0, leavesQty := o.qty },
        .update { kind := .cancel, orderId, tickerId := b.ticker, side, price, qty := o.qty,
                  priority := o.priority }], b.without side price o)
    else (rejection, b)
  | none => (rejection, b)
where
  rejection : List Event :=
    [.response { kind := .cancelRejected, clientId, tickerId := b.ticker, orderId, side := .invalid,
                 price := noPrice, execQty := noQty, leavesQty := noQty }]

end Book

end Exchange
