import Exchange.Pool
import Exchange.Ring
import Exchange.Wire.Record

/-!
# The snapshot book: the live orders, for snapshots

A `SnapshotBook` follows the stamped updates in sequence and keeps the live orders of each ticker:
an ADD stores the update in a pool slot, a MODIFY changes the stored price and quantity, a
CANCEL frees the slot; other kinds change nothing. Each update must carry the number after the
last one applied, and an ADD of a live id, or a MODIFY or CANCEL of an unknown one, is a fault.

A snapshot cycle, numbered from 0, is a SNAPSHOT_START carrying the last number applied, then
per ticker a CLEAR followed by its live orders in increasing id, then a SNAPSHOT_END carrying
the same number.
-/

namespace Exchange

/-- The live orders of every ticker, rebuilt from the stamped updates. -/
structure SnapshotBook where
  /-- The stored ADD of every live order, as later MODIFYs changed it. -/
  pool : Pool Update
  /-- Per ticker, the live order ids in increasing order with their pool slots. -/
  books : Array (List (OrderId × Nat))
  /-- The number of the last update applied. -/
  lastSeq : UInt64

namespace SnapshotBook

/-- An empty snapshot book of `tickers` books with a pool of `capacity` orders. -/
def create (tickers capacity : Nat) : Except Fault SnapshotBook := do
  return { pool := ← Pool.create capacity, books := Array.replicate tickers [], lastSeq := 0 }

/-- Adds an id to a list ordered by id. -/
def placeId (oid : OrderId) (slot : Nat) : List (OrderId × Nat) → List (OrderId × Nat)
  | [] => [(oid, slot)]
  | (o, s) :: rest => if oid < o then (oid, slot) :: (o, s) :: rest else (o, s) :: placeId oid slot rest

/-- The live orders of the ticker an update names; a ticker beyond the book is a fault. -/
def bookOf (mi : SnapshotBook) (u : Update) : Except Fault (List (OrderId × Nat)) :=
  match mi.books[u.tickerId.toNat]? with
  | some live => .ok live
  | none => .error (.indexOutOfBounds mi.books.size u.tickerId.toNat)

/-- Applies the next stamped update. -/
def apply (mi : SnapshotBook) (m : Stamped) : Except Fault SnapshotBook := do
  if mi.lastSeq = 18446744073709551615 then throw (.overflow .add)
  let expected := mi.lastSeq + 1
  if m.seq ≠ expected then throw (.outOfOrder m expected)
  let u := m.update
  let t := u.tickerId.toNat
  let mi ← match u.kind with
    | .add => do
      let live ← mi.bookOf u
      if live.any (·.1 == u.orderId) then throw (.addOfLiveOrder u)
      let (slot, pool) ← mi.pool.allocate u
      pure { mi with pool, books := mi.books.set! t (placeId u.orderId slot live) }
    | .modify => do
      let live ← mi.bookOf u
      match live.find? (·.1 == u.orderId) with
      | none => throw (.modifyOfUnknownOrder u)
      | some (_, slot) =>
        let old ← mi.pool.get slot
        pure { mi with pool := ← mi.pool.set slot { old with qty := u.qty, price := u.price } }
    | .cancel => do
      let live ← mi.bookOf u
      match live.find? (·.1 == u.orderId) with
      | none => throw (.cancelOfUnknownOrder u)
      | some (_, slot) =>
        let (_, pool) ← mi.pool.release slot
        pure { mi with pool, books := mi.books.set! t (live.filter (·.1 != u.orderId)) }
    | _ => pure mi
  return { mi with lastSeq := m.seq }

/-- Applies up to `max` pending updates from a ring, oldest first, looking at most `fuel` times.
Returns how many were applied. -/
def pollFrom (mi : SnapshotBook) (ring : Ring Stamped) (max : Nat) : (fuel : Nat) →
    Except Fault (Nat × SnapshotBook × Ring Stamped)
  | 0 => .ok (0, mi, ring)
  | fuel + 1 =>
    if max = 0 then .ok (0, mi, ring)
    else
      match ring.pop with
      | (none, ring) => .ok (0, mi, ring)
      | (some m, ring) => do
        let mi ← mi.apply m
        let (n, mi, ring) ← mi.pollFrom ring (max - 1) fuel
        return (n + 1, mi, ring)

/-- Applies up to `max` pending updates from a ring. -/
def pollBatch (mi : SnapshotBook) (ring : Ring Stamped) (max : Nat) :
    Except Fault (Nat × SnapshotBook × Ring Stamped) :=
  mi.pollFrom ring max ring.len

/-- A marker record: only its kind, id and ticker are set. -/
def marker (kind : UpdateKind) (oid : OrderId) (ticker : TickerId) : Update :=
  { kind, orderId := oid, tickerId := ticker }

/-- The live orders of ticker `t`, in increasing id. A free slot, whose read the engine's
`publish_snapshot` panics on, is skipped: no applied run leaves one among the live ids. -/
def liveOrders (mi : SnapshotBook) (t : Nat) : List Update :=
  ((mi.books[t]?).getD []).filterMap fun (_, slot) => (mi.pool.get slot).toOption

/-- The records of a snapshot cycle, in order. -/
def cycleBody (mi : SnapshotBook) : List Update :=
  marker .snapshotStart mi.lastSeq noTicker ::
    ((List.range mi.books.size).flatMap fun t =>
      marker .clear noOrder t.toUInt32 :: mi.liveOrders t) ++
    [marker .snapshotEnd mi.lastSeq noTicker]

/-- A snapshot cycle, numbered from 0. -/
def cycle (mi : SnapshotBook) : List Stamped :=
  (List.range mi.cycleBody.length).zipWith (fun i u => { seq := i.toUInt64, update := u }) mi.cycleBody

/-- How many orders of a ticker are live; 0 for a ticker beyond the book. -/
def liveCount (mi : SnapshotBook) (t : Nat) : Nat := ((mi.books[t]?).getD []).length

/-- The snapshot book's state in one line. -/
def describe (mi : SnapshotBook) : String :=
  s!"SnapshotSynthesizer \x7b last_inc_seq: {mi.lastSeq.toNat}, pool: {mi.pool.describe} \x7d"

end SnapshotBook

end Exchange
