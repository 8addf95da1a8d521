import Exchange.Book.Matching

/-!
# The linked order book

`LinkedBook` is the order book as the engine stores it. Resting orders are nodes in a pool of
order slots and price levels are nodes in a pool of level slots; a link between nodes is a slot
index, the null index for none. A level's orders, oldest first, form a doubly linked list through
their `next` and `prev` links, from the level's `head` to its `tail`, and the level keeps their
count in a 32-bit word and their total quantity in a 64-bit word. The levels of a side form a
doubly linked list, best first, through `worse` and `better`, from `bestBid` or `bestAsk`. Maps
find a level's slot by its price on each side, and an order's slot by its id.

The operations take the stored book's own steps: a new level is linked after the last level that
beats its price, an emptied level is unlinked and its slot freed, an order is appended at its
level's tail and unlinked from anywhere in it. Each check they make is a fault here: a free slot
read or written, a debug check that fails (`BookCheck`), a counter that leaves its word, a resting
order whose price has no level.

Two loops take fuel. The search for a new level's place walks at most as many levels as there are
level slots; the crossing of a NEW takes at most one turn more than there are order slots, since
every turn that does not end it frees one.
-/

namespace Exchange

open Pool (nullIndex)

/-- Checked addition in a word of `size` values: the sum, or the overflow fault. -/
def checkedAdd {α : Type} [Add α] (toNat : α → Nat) (size : Nat) (a b : α) : Except Fault α :=
  if toNat a + toNat b < size then .ok (a + b) else .error (.overflow .add)

/-- Checked subtraction in a word: the difference, or the overflow fault below zero. -/
def checkedSub {α : Type} [Sub α] (toNat : α → Nat) (a b : α) : Except Fault α :=
  if toNat b ≤ toNat a then .ok (a - b) else .error (.overflow .subtract)

/-- A resting order as the linked book stores it: its fields, and the slots of the orders before
and after it at its price. -/
structure OrderNode where
  tickerId : TickerId
  clientId : ClientId
  orderId : OrderId
  side : Side
  price : Price
  qty : Qty
  priority : Priority
  next : Nat
  prev : Nat
  deriving DecidableEq, Repr

/-- An order not yet placed: no priority and no links. -/
def OrderNode.new (tickerId : TickerId) (clientId : ClientId) (orderId : OrderId) (side : Side)
    (price : Price) (qty : Qty) : OrderNode :=
  { tickerId, clientId, orderId, side, price, qty, priority := noPriority, next := nullIndex,
    prev := nullIndex }

/-- A price level as the linked book stores it. -/
structure LevelNode where
  side : Side
  price : Price
  /-- The slot of the oldest order. -/
  head : Nat
  /-- The slot of the newest order. -/
  tail : Nat
  totalQty : UInt64
  count : UInt32
  /-- The slot of the next better level of the side. -/
  better : Nat
  /-- The slot of the next worse level. -/
  worse : Nat
  deriving DecidableEq, Repr

namespace LevelNode

/-- A level with no orders and no links. -/
def new (side : Side) (price : Price) : LevelNode :=
  ⟨side, price, nullIndex, nullIndex, 0, 0, nullIndex, nullIndex⟩

def isEmpty (l : LevelNode) : Bool := l.count == 0

/-- Whether `price` on this level's side ranks ahead of the level. -/
def isBeatenBy (l : LevelNode) (price : Price) : Bool := ranksBefore l.side price l.price

/-- The priority the next order appended here receives: one past the newest order's, or 1. -/
def nextPriority (l : LevelNode) (orders : Pool OrderNode) : Except Fault Priority :=
  if l.tail = nullIndex then .ok 1
  else do
    let o ← orders.get l.tail
    checkedAdd UInt64.toNat UInt64.size o.priority 1

/-- Appends the order in slot `index` after the newest one, counting it and its quantity. -/
def pushBack (l : LevelNode) (orders : Pool OrderNode) (index : Nat) :
    Except Fault (LevelNode × Pool OrderNode) := do
  let qty := (← orders.get index).qty
  let (l, orders) ←
    if l.tail = nullIndex then do
      if l.head ≠ nullIndex then throw (.bookCheck .emptyHasNoHead)
      let orders ← orders.modify index fun o => { o with prev := nullIndex, next := nullIndex }
      pure ({ l with head := index }, orders)
    else do
      let orders ← orders.modify l.tail fun o => { o with next := index }
      let orders ← orders.modify index fun o => { o with prev := l.tail, next := nullIndex }
      pure (l, orders)
  let count ← checkedAdd UInt32.toNat UInt32.size l.count 1
  let totalQty ← checkedAdd UInt64.toNat UInt64.size l.totalQty qty.toUInt64
  return ({ l with tail := index, count, totalQty }, orders)

/-- Unlinks the order in slot `index` from anywhere in the level, leaving it in its slot with no
links, and tells whether the level is left empty. -/
def remove (l : LevelNode) (orders : Pool OrderNode) (index : Nat) :
    Except Fault (Bool × LevelNode × Pool OrderNode) := do
  let node ← orders.get index
  let (l, orders) ←
    if node.prev = nullIndex then do
      if l.head ≠ index then throw (.bookCheck .removedIsHead)
      pure ({ l with head := node.next }, orders)
    else do
      let orders ← orders.modify node.prev fun o => { o with next := node.next }
      pure (l, orders)
  let (l, orders) ←
    if node.next = nullIndex then do
      if l.tail ≠ index then throw (.bookCheck .removedIsTail)
      pure ({ l with tail := node.prev }, orders)
    else do
      let orders ← orders.modify node.next fun o => { o with prev := node.prev }
      pure (l, orders)
  let count ← checkedSub UInt32.toNat l.count 1
  let totalQty ← checkedSub UInt64.toNat l.totalQty node.qty.toUInt64
  let orders ← orders.modify index fun o => { o with prev := nullIndex, next := nullIndex }
  return (count == 0, { l with count, totalQty }, orders)

/-- Takes a partial fill of one of its orders off the level's total. -/
def subtractQty (l : LevelNode) (qty : Qty) : Except Fault LevelNode :=
  if qty.toNat ≤ l.totalQty.toNat then .ok { l with totalQty := l.totalQty - qty.toUInt64 }
  else .error (.bookCheck .totalCoversFill)

end LevelNode

/-- A map from keys to slots: its entries, with no key twice. -/
structure SlotMap (κ : Type) where
  entries : List (κ × Nat)
  nodup : (entries.map (·.1)).Nodup

namespace SlotMap

variable {κ : Type} [DecidableEq κ]

def empty : SlotMap κ := ⟨[], List.nodup_nil⟩

/-- The slot recorded under a key. -/
def find? (m : SlotMap κ) (k : κ) : Option Nat := (m.entries.find? (·.1 == k)).map (·.2)

def contains (m : SlotMap κ) (k : κ) : Bool := (m.find? k).isSome

/-- Forgets a key. -/
def erase (m : SlotMap κ) (k : κ) : SlotMap κ :=
  ⟨m.entries.filter (·.1 != k), m.nodup.sublist (List.filter_sublist.map _)⟩

/-- Records a slot under a key, in place of the one recorded before. -/
def insert (m : SlotMap κ) (k : κ) (i : Nat) : SlotMap κ :=
  ⟨(k, i) :: (m.erase k).entries, List.nodup_cons.2 ⟨by simp [erase], (m.erase k).nodup⟩⟩

end SlotMap

/-- The resting orders of one ticker, as the engine stores them. -/
structure LinkedBook where
  ticker : TickerId
  orders : Pool OrderNode
  levels : Pool LevelNode
  bidLevels : SlotMap Price
  askLevels : SlotMap Price
  /-- The slot of the highest bid level. -/
  bestBid : Nat
  /-- The slot of the lowest ask level. -/
  bestAsk : Nat
  orderMap : SlotMap OrderId

namespace LinkedBook

/-- An empty book; a pool of no slots, or one as large as the null index, is a fault. -/
def create (ticker : TickerId) (maxOrders maxLevels : Nat) : Except Fault LinkedBook := do
  let orders ← Pool.create maxOrders
  let levels ← Pool.create maxLevels
  return { ticker, orders, levels, bidLevels := .empty, askLevels := .empty, bestBid := nullIndex,
           bestAsk := nullIndex, orderMap := .empty }

/-- The slot of a side's best level; the invalid side has none. -/
def bestIndex (lb : LinkedBook) : Side → Nat
  | .buy => lb.bestBid
  | .sell => lb.bestAsk
  | .invalid => nullIndex

/-- The map from prices to level slots of a side; the invalid side has none. -/
def levelMap (lb : LinkedBook) : Side → Option (SlotMap Price)
  | .buy => some lb.bidLevels
  | .sell => some lb.askLevels
  | .invalid => none

/-- The slot of the level at a price on a side. -/
def levelIndex (lb : LinkedBook) (side : Side) (price : Price) : Option Nat :=
  (lb.levelMap side).bind (·.find? price)

/-- Makes a level the best of a side; any side but the bids counts as the asks. -/
def setBest (lb : LinkedBook) (side : Side) (i : Nat) : LinkedBook :=
  match side with
  | .buy => { lb with bestBid := i }
  | _ => { lb with bestAsk := i }

/-- Records a level's slot under its price; any side but the bids counts as the asks. -/
def mapLevel (lb : LinkedBook) (side : Side) (price : Price) (i : Nat) : LinkedBook :=
  match side with
  | .buy => { lb with bidLevels := lb.bidLevels.insert price i }
  | _ => { lb with askLevels := lb.askLevels.insert price i }

/-- Forgets the level at a price; any side but the bids counts as the asks. -/
def unmapLevel (lb : LinkedBook) (side : Side) (price : Price) : LinkedBook :=
  match side with
  | .buy => { lb with bidLevels := lb.bidLevels.erase price }
  | _ => { lb with askLevels := lb.askLevels.erase price }

/-- The levels of a side from the best, walked along their `worse` links. -/
def sideLevels (lb : LinkedBook) (side : Side) : Option (List (Nat × LevelNode)) :=
  lb.levels.walk (·.worse) (lb.bestIndex side) lb.levels.capacity

/-- The orders of a level from the oldest, walked along their `next` links. -/
def levelOrders (lb : LinkedBook) (l : LevelNode) : Option (List (Nat × OrderNode)) :=
  lb.orders.walk (·.next) l.head lb.orders.capacity

/-- Walks a side's levels from `worse` on, past those that `price` does not beat, and returns
the two slots a level at `price` goes between; after `fuel` levels it stops where it is. -/
def findPlace (levels : Pool LevelNode) (price : Price) : Nat → Nat → Nat → Except Fault (Nat × Nat)
  | 0, better, worse => .ok (better, worse)
  | fuel + 1, better, worse =>
    if worse = nullIndex then .ok (better, worse)
    else do
      let l ← levels.get worse
      if l.isBeatenBy price then .ok (better, worse)
      else findPlace levels price fuel worse l.worse

/-- Links the new level in slot `index` into its side, after the last level that beats `price`
and before the first one that `price` beats. -/
def linkLevel (lb : LinkedBook) (side : Side) (index : Nat) (price : Price) :
    Except Fault LinkedBook := do
  let (better, worse) ← findPlace lb.levels price lb.levels.capacity nullIndex (lb.bestIndex side)
  let levels ← lb.levels.modify index fun l => { l with better, worse }
  let lb := { lb with levels }
  let lb ←
    if better = nullIndex then pure (lb.setBest side index)
    else do
      let levels ← lb.levels.modify better fun l => { l with worse := index }
      pure { lb with levels }
  if worse = nullIndex then pure lb
  else do
    let levels ← lb.levels.modify worse fun l => { l with better := index }
    pure { lb with levels }

/-- The slot of the level at a price, created and linked into its side if there is none. -/
def levelFor (lb : LinkedBook) (side : Side) (price : Price) : Except Fault (Nat × LinkedBook) := do
  let some m := lb.levelMap side | throw .levelForInvalidSide
  match m.find? price with
  | some i => pure (i, lb)
  | none =>
    let (index, levels) ← lb.levels.allocate (LevelNode.new side price)
    let lb ← { lb with levels }.linkLevel side index price
    pure (index, lb.mapLevel side price index)

/-- Unlinks an empty level from its side and frees its slot. -/
def removeLevel (lb : LinkedBook) (index : Nat) : Except Fault LinkedBook := do
  let level ← lb.levels.get index
  if !level.isEmpty then throw (.bookCheck .removedLevelEmpty)
  let lb ←
    if level.better = nullIndex then pure (lb.setBest level.side level.worse)
    else do
      let levels ← lb.levels.modify level.better fun l => { l with worse := level.worse }
      pure { lb with levels }
  let lb ←
    if level.worse = nullIndex then pure lb
    else do
      let levels ← lb.levels.modify level.worse fun l => { l with better := level.better }
      pure { lb with levels }
  let lb := lb.unmapLevel level.side level.price
  let (_, levels) ← lb.levels.release index
  return { lb with levels }

/-- Rests an order at the back of its level, created if need be; the order takes the level's next
priority and the book's ticker. Returns its slot. An id that already rests is a fault. -/
def insertOrder (lb : LinkedBook) (entry : OrderNode) : Except Fault (Nat × LinkedBook) := do
  if lb.orderMap.contains entry.orderId then throw .duplicateOrder
  let (li, lb) ← lb.levelFor entry.side entry.price
  let level ← lb.levels.get li
  let priority ← level.nextPriority lb.orders
  let entry := { entry with priority, tickerId := lb.ticker }
  let (index, orders) ← lb.orders.allocate entry
  let level ← lb.levels.get li
  let (level, orders) ← level.pushBack orders index
  let levels ← lb.levels.set li level
  return (index, { lb with orders, levels, orderMap := lb.orderMap.insert entry.orderId index })

/-- Takes the order in slot `index` off its level, dropping the level if it empties, frees the
slot and returns the order. An order whose price has no level is a fault. -/
def removeOrderAt (lb : LinkedBook) (index : Nat) : Except Fault (OrderNode × LinkedBook) := do
  let entry ← lb.orders.get index
  let some li := lb.levelIndex entry.side entry.price
    | throw (.orderWithoutLevel entry.orderId entry.price)
  let level ← lb.levels.get li
  let (emptied, level, orders) ← level.remove lb.orders index
  let levels ← lb.levels.set li level
  let lb := { lb with orders, levels }
  let lb ← if emptied then lb.removeLevel li else pure lb
  let lb := { lb with orderMap := lb.orderMap.erase entry.orderId }
  let (e, orders) ← lb.orders.release index
  return (e, { lb with orders })

/-- Takes out the order with this id, if it rests, and returns it. -/
def removeOrder (lb : LinkedBook) (oid : OrderId) : Except Fault (Option OrderNode × LinkedBook) :=
  match lb.orderMap.find? oid with
  | none => .ok (none, lb)
  | some index => (lb.removeOrderAt index).map fun (e, lb) => (some e, lb)

/-- Takes a partial fill off the order in slot `index` and off its level's total. -/
def reduceQty (lb : LinkedBook) (index : Nat) (fill : Qty) : Except Fault LinkedBook := do
  let entry ← lb.orders.get index
  if entry.qty ≤ fill then throw (.bookCheck .fillBelowQty)
  let orders ← lb.orders.modify index fun o => { o with qty := o.qty - fill }
  let lb := { lb with orders }
  match lb.levelIndex entry.side entry.price with
  | none => pure lb
  | some li =>
    let level ← lb.levels.get li
    let level ← level.subtractQty fill
    let levels ← lb.levels.set li level
    pure { lb with levels }

/-- Trades the taker, holding `leaves`, against the order in slot `index`. The smaller quantity is
filled and both owners are told; a TRADE is printed; the order is then taken off, filled
completely, with a CANCEL, or keeps what is left, with a MODIFY once its quantity is reduced.
Returns what the taker holds after. -/
def fill (lb : LinkedBook) (t : Taker) (leaves : Qty) (index : Nat) : Outcome (Qty × LinkedBook) :=
  match lb.orders.get index with
  | .error f => ⟨[], .error f⟩
  | .ok passive =>
    let ticker := lb.ticker
    let fillQty := min leaves passive.qty
    let left := leaves - fillQty
    let passiveLeft := passive.qty - fillQty
    let traded : List Event :=
      [.response { kind := .filled, clientId := t.clientId, tickerId := ticker, orderId := t.orderId,
                   side := t.side, price := passive.price, execQty := fillQty, leavesQty := left },
       .response { kind := .filled, clientId := passive.clientId, tickerId := ticker,
                   orderId := passive.orderId, side := passive.side, price := passive.price,
                   execQty := fillQty, leavesQty := passiveLeft },
       .update { kind := .trade, orderId := noOrder, tickerId := ticker, side := t.side,
                 price := passive.price, qty := fillQty, priority := noPriority }]
    if passiveLeft = 0 then
      let evs := traded ++
        [.update { kind := .cancel, orderId := passive.orderId, tickerId := ticker,
                   side := passive.side, price := passive.price, qty := passive.qty,
                   priority := passive.priority }]
      match lb.removeOrderAt index with
      | .ok (_, lb) => ⟨evs, .ok (left, lb)⟩
      | .error f => ⟨evs, .error f⟩
    else
      match lb.reduceQty index fillQty with
      | .ok lb =>
        ⟨traded ++ [.update { kind := .modify, orderId := passive.orderId, tickerId := ticker,
                              side := passive.side, price := passive.price, qty := passiveLeft,
                              priority := passive.priority }], .ok (left, lb)⟩
      | .error f => ⟨traded, .error f⟩

/-- Crosses the taker against the best opposite level while it holds something and that level's
price is within its limit, one trade with the level's oldest order at a time, for at most `fuel`
trades; returns what the taker holds after. -/
def crossLoop (t : Taker) : Nat → LinkedBook → Qty → Outcome (Qty × LinkedBook)
  | 0, lb, leaves => ⟨[], .ok (leaves, lb)⟩
  | fuel + 1, lb, leaves =>
    if leaves = 0 then ⟨[], .ok (leaves, lb)⟩
    else
      let li := lb.bestIndex t.side.opposite
      if li = nullIndex then ⟨[], .ok (leaves, lb)⟩
      else
        match lb.levels.get li with
        | .error f => ⟨[], .error f⟩
        | .ok level =>
          if !crosses t.side t.limit level.price then ⟨[], .ok (leaves, lb)⟩
          else if level.head = nullIndex then ⟨[], .error (.bookCheck .levelHasHead)⟩
          else
            let o := lb.fill t leaves level.head
            match o.result with
            | .error f => ⟨o.events, .error f⟩
            | .ok (left, lb) =>
              let r := crossLoop t fuel lb left
              ⟨o.events ++ r.events, r.result⟩

/-- Places a limit order: rejects it, or accepts it, crosses the opposite side and rests what is
left. -/
def add (lb : LinkedBook) (clientId : ClientId) (orderId : OrderId) (side : Side) (price : Price)
    (qty : Qty) : Outcome LinkedBook :=
  let answer (kind : ResponseKind) (leaves : Qty) : Event :=
    .response { kind, clientId, tickerId := lb.ticker, orderId, side, price, execQty := 0,
                leavesQty := leaves }
  if qty == 0 || qty == noQty || !side.isValid || price == noPrice || orderId == noOrder ||
      lb.orderMap.contains orderId then ⟨[answer .invalid qty], .ok lb⟩
  else
    let t : Taker := { ticker := lb.ticker, clientId, orderId, side, limit := price }
    let m := crossLoop t (lb.orders.capacity + 1) lb qty
    let head := answer .accepted qty :: m.events
    match m.result with
    | .error f => ⟨head, .error f⟩
    | .ok (leaves, crossed) =>
      if leaves = 0 then ⟨head, .ok crossed⟩
      else
        match crossed.insertOrder (.new lb.ticker clientId orderId side price leaves) with
        | .error f => ⟨head, .error f⟩
        | .ok (index, rested) =>
          match rested.orders.get index with
          | .error f => ⟨head, .error f⟩
          | .ok o =>
            ⟨head ++ [.update { kind := .add, orderId, tickerId := lb.ticker, side, price,
                                qty := leaves, priority := o.priority }], .ok rested⟩

/-- Cancels a client's own resting order; any other id is rejected. -/
def cancel (lb : LinkedBook) (clientId : ClientId) (orderId : OrderId) : Outcome LinkedBook :=
  let rejection : List Event :=
    [.response { kind := .cancelRejected, clientId, tickerId := lb.ticker, orderId,
                 side := .invalid, price := noPrice, execQty := noQty, leavesQty := noQty }]
  match lb.orderMap.find? orderId with
  | none => ⟨rejection, .ok lb⟩
  | some index =>
    match lb.orders.get index with
    | .error f => ⟨[], .error f⟩
    | .ok o =>
      if o.clientId ≠ clientId then ⟨rejection, .ok lb⟩
      else
        match lb.removeOrderAt index with
        | .error f => ⟨[], .error f⟩
        | .ok (e, lb') =>
          ⟨[.response { kind := .canceled, clientId, tickerId := lb.ticker, orderId,
                        side := e.side, price := e.price, execQty := 0, leavesQty := e.qty },
            .update { kind := .cancel, orderId, tickerId := lb.ticker, side := e.side,
                      price := e.price, qty := e.qty, priority := e.priority }], .ok lb'⟩

end LinkedBook

end Exchange
