import Exchange.Proofs.Book.Invariant

/-!
# A reference book

The plainest book that price-time matching can be read from. Each side maps a price to the
orders resting there, oldest first; a map is a list of entries in increasing price, one entry a
price, so the best bid is the last entry of the bid map and the best ask the first of the ask
map. An incoming order trades with the oldest order of the best opposite level, one trade at a
time, while quantity remains and that level's price is within its limit; an order filled
completely leaves its level, and a level left empty leaves its map. Orders are found by id by
searching both maps. There are no pool slots and no capacities.

`RefBook.call` answers the calls of `Book.call`, and `Outcome.runCalls` runs a list of calls on
either book. `RefBook.fits` says that a run keeps what the callers of a direct insert promise
(an id that does not rest, a valid side) and never holds more orders or levels than two pools
of given sizes.
-/

namespace Exchange

/-- A resting order as the reference keeps it: id, owner, quantity and queue priority. -/
structure RefOrder where
  orderId : OrderId
  clientId : ClientId
  qty : Qty
  priority : Priority
  deriving DecidableEq, Repr

/-! ## Price maps -/

namespace PriceMap

variable {β : Type}

/-- The value at a price. -/
def get? (m : List (Price × β)) (p : Price) : Option β := (m.find? (·.1 == p)).map (·.2)

/-- Sets the value at a price, keeping prices increasing. -/
def put (p : Price) (v : β) : List (Price × β) → List (Price × β)
  | [] => [(p, v)]
  | (q, w) :: m =>
    if p < q then (p, v) :: (q, w) :: m
    else if p = q then (p, v) :: m
    else (q, w) :: put p v m

/-- Drops the entry at a price. -/
def erase (p : Price) (m : List (Price × β)) : List (Price × β) := m.filter (·.1 != p)

/-- The prices of a map increase from entry to entry. -/
def Increasing (m : List (Price × β)) : Prop := (m.map (·.1)).Pairwise (· < ·)

variable {p : Price} {v : β} {m : List (Price × β)}

theorem mem_put {e : Price × β} : ∀ {m : List (Price × β)}, e ∈ put p v m → e = (p, v) ∨ e ∈ m
  | [], h => .inl (List.mem_singleton.1 h)
  | (q, w) :: m, h => by
    simp only [put] at h
    split at h
    · exact List.mem_cons.1 h
    · split at h
      · rcases List.mem_cons.1 h with rfl | h
        · exact .inl rfl
        · exact .inr (List.mem_cons_of_mem _ h)
      · rcases List.mem_cons.1 h with rfl | h
        · exact .inr List.mem_cons_self
        · rcases mem_put h with rfl | h
          · exact .inl rfl
          · exact .inr (List.mem_cons_of_mem _ h)

theorem increasing_put : ∀ {m : List (Price × β)}, Increasing m → Increasing (put p v m)
  | [], _ => List.pairwise_singleton _ _
  | (q, w) :: m, hs => by
    simp only [Increasing, List.map_cons, List.pairwise_cons, List.mem_map] at hs
    obtain ⟨hq, hs⟩ := hs
    simp only [put]
    split
    · rename_i hpq
      simp only [Increasing, List.map_cons, List.pairwise_cons, List.mem_map, List.mem_cons]
      refine ⟨?_, ⟨hq, hs⟩⟩
      rintro _ (rfl | ⟨e, he, rfl⟩)
      · exact hpq
      · exact Int64.lt_trans hpq (hq _ ⟨e, he, rfl⟩)
    · split
      · rename_i _ hpq
        subst hpq
        simp only [Increasing, List.map_cons, List.pairwise_cons, List.mem_map]
        exact ⟨hq, hs⟩
      · rename_i hpq hne
        simp only [Increasing, List.map_cons, List.pairwise_cons, List.mem_map]
        refine ⟨?_, increasing_put hs⟩
        rintro _ ⟨e, he, rfl⟩
        rcases mem_put he with rfl | he
        · exact Int64.lt_of_le_of_ne (Int64.not_lt.1 hpq) (Ne.symm hne)
        · exact hq _ ⟨e, he, rfl⟩

theorem put_of_mem : ∀ {m : List (Price × β)}, Increasing m → p ∈ m.map (·.1) →
    put p v m = m.map fun e => if e.1 = p then (p, v) else e
  | [], _, hp => by cases hp
  | (q, w) :: m, hs, hp => by
    simp only [Increasing, List.map_cons, List.pairwise_cons, List.mem_map] at hs
    obtain ⟨hq, hs⟩ := hs
    -- every later price lies above `q`, so none of them is `q`
    have hrest : ∀ e ∈ m, e.1 ≠ q := fun e he h => Int64.lt_irrefl (h ▸ hq _ ⟨e, he, rfl⟩)
    simp only [List.map_cons, List.mem_cons] at hp
    simp only [put, List.map_cons]
    split
    · rename_i hpq
      rcases hp with rfl | hp
      · exact absurd hpq Int64.lt_irrefl
      · obtain ⟨e, he, rfl⟩ := List.mem_map.1 hp
        exact absurd (Int64.lt_trans hpq (hq _ ⟨e, he, rfl⟩)) Int64.lt_irrefl
    · split
      · rename_i _ hpq
        subst hpq
        simp only [if_true, List.cons.injEq, true_and]
        exact (List.map_congr_left fun e he => if_neg (hrest e he)).trans (List.map_id' m) |>.symm
      · rename_i _ hne
        rw [if_neg (Ne.symm hne), put_of_mem hs]
        rcases hp with rfl | hp
        · exact absurd rfl hne
        · exact hp

theorem put_perm : ∀ {m : List (Price × β)}, p ∉ m.map (·.1) → (put p v m).Perm ((p, v) :: m)
  | [], _ => List.Perm.refl _
  | (q, w) :: m, hp => by
    simp only [List.map_cons, List.mem_cons, not_or] at hp
    simp only [put]
    split
    · exact List.Perm.refl _
    · rw [if_neg hp.1]
      exact ((put_perm hp.2).cons _).trans (List.Perm.swap _ _ _)

theorem find?_eq_some_iff {e : Price × β} (hnd : (m.map (·.1)).Nodup) :
    m.find? (·.1 == p) = some e ↔ e ∈ m ∧ e.1 = p := by
  constructor
  · intro h
    exact ⟨List.mem_of_find?_eq_some h, by simpa using List.find?_some h⟩
  · rintro ⟨he, rfl⟩
    cases h : m.find? (·.1 == e.1) with
    | none => exact absurd he (by simpa using List.find?_eq_none.1 h e)
    | some e' =>
      have hk : e'.1 = e.1 := by simpa using List.find?_some h
      rw [List.inj_on_of_nodup_map hnd (List.mem_of_find?_eq_some h) he hk]

end PriceMap

/-- The resting orders of one ticker: a price map for each side. -/
structure RefBook where
  ticker : TickerId
  bids : List (Price × List RefOrder)
  asks : List (Price × List RefOrder)
  deriving DecidableEq, Repr

namespace RefBook

/-- A book with no orders. -/
def empty (ticker : TickerId) : RefBook := ⟨ticker, [], []⟩

/-- The price map of a side; the invalid side has none. -/
def side (r : RefBook) : Side → List (Price × List RefOrder)
  | .buy => r.bids
  | .sell => r.asks
  | .invalid => []

/-- Replaces the price map of a valid side. -/
def setSide (r : RefBook) : Side → List (Price × List RefOrder) → RefBook
  | .buy, m => { r with bids := m }
  | .sell, m => { r with asks := m }
  | .invalid, _ => r

@[simp] theorem ticker_setSide (r : RefBook) (s : Side) (m : List (Price × List RefOrder)) :
    (r.setSide s m).ticker = r.ticker := by
  cases s <;> rfl

/-- The orders at a price, oldest first. -/
def ordersAt (r : RefBook) (s : Side) (p : Price) : List RefOrder :=
  (PriceMap.get? (r.side s) p).getD []

/-- Replaces the orders at a price; a price left with none loses its entry. -/
def setOrders (r : RefBook) (s : Side) (p : Price) (os : List RefOrder) : RefBook :=
  r.setSide s (if os.isEmpty then PriceMap.erase p (r.side s) else PriceMap.put p os (r.side s))

/-- The best level of a side: the highest bid, the lowest ask. -/
def best (r : RefBook) : Side → Option (Price × List RefOrder)
  | .buy => r.bids.getLast?
  | .sell => r.asks.head?
  | .invalid => none

/-- The map entry for orders at a price: none when there are no orders. -/
def entry (p : Price) (os : List RefOrder) : List (Price × List RefOrder) :=
  if os.isEmpty then [] else [(p, os)]

/-- Replaces the orders of the best level of a side, at price `p`; a level left with none is
dropped. -/
def setBest (r : RefBook) (s : Side) (p : Price) (os : List RefOrder) : RefBook :=
  match s with
  | .buy => { r with bids := r.bids.dropLast ++ entry p os }
  | .sell => { r with asks := entry p os ++ r.asks.tail }
  | .invalid => r

/-- How many orders rest on a side. -/
def depth (r : RefBook) (s : Side) : Nat := ((r.side s).map (·.2.length)).foldr (· + ·) 0

/-- How many orders rest. -/
def orderCount (r : RefBook) : Nat := r.depth .buy + r.depth .sell

/-- How many levels exist on both sides. -/
def levelCount (r : RefBook) : Nat := r.bids.length + r.asks.length

/-- The resting order with this id, with its side and price. -/
def locate (r : RefBook) (oid : OrderId) : Option (Side × Price × RefOrder) :=
  let onSide (s : Side) : Option (Side × Price × RefOrder) :=
    (r.side s).findSome? fun e => (e.2.find? (·.orderId == oid)).map fun o => (s, e.1, o)
  (onSide .buy).or (onSide .sell)

/-! ## Matching -/

/-- What one trade of `fill` against resting order `o` at `p` prints, the aggressor keeping
`left`: FILLED to the aggressor and to the resting owner, a TRADE, then a CANCEL of the resting
order with its quantity before the trade or a MODIFY with what remains of it. -/
def fillReport (ticker : TickerId) (c : ClientId) (oid : OrderId) (side : Side) (p : Price)
    (o : RefOrder) (fill left : Qty) : List Event :=
  [.response { kind := .filled, clientId := c, tickerId := ticker, orderId := oid, side, price := p,
               execQty := fill, leavesQty := left },
   .response { kind := .filled, clientId := o.clientId, tickerId := ticker, orderId := o.orderId,
               side := side.opposite, price := p, execQty := fill, leavesQty := o.qty - fill },
   .update { kind := .trade, orderId := noOrder, tickerId := ticker, side, price := p, qty := fill,
             priority := noPriority },
   if o.qty - fill = 0 then
     .update { kind := .cancel, orderId := o.orderId, tickerId := ticker, side := side.opposite,
               price := p, qty := o.qty, priority := o.priority }
   else
     .update { kind := .modify, orderId := o.orderId, tickerId := ticker, side := side.opposite,
               price := p, qty := o.qty - fill, priority := o.priority }]

theorem foldr_add_append (xs ys : List Nat) :
    (xs ++ ys).foldr (· + ·) 0 = xs.foldr (· + ·) 0 + ys.foldr (· + ·) 0 := by
  induction xs with
  | nil => simp
  | cons x xs ih => simp [ih, Nat.add_assoc]

theorem depth_setBest {r : RefBook} {s : Side} {p : Price} {os₀ : List RefOrder}
    (h : r.best s = some (p, os₀)) (os : List RefOrder) :
    (r.setBest s p os).depth s + os₀.length = r.depth s + os.length := by
  have hlevel : ((entry p os).map (·.2.length)).foldr (· + ·) 0 = os.length := by
    cases os <;> simp [entry]
  cases s with
  | buy =>
    obtain ⟨ys, hys⟩ := List.getLast?_eq_some_iff.1 h
    simp only [setBest, depth, side, hys, List.dropLast_concat, List.map_append,
      foldr_add_append, hlevel]
    simp
    omega
  | sell =>
    obtain ⟨rest, hrest⟩ : ∃ rest, r.asks = (p, os₀) :: rest := by
      cases ha : r.asks with
      | nil => simp [best, ha] at h
      | cons e rest =>
        simp only [best, ha, List.head?_cons, Option.some.injEq] at h
        exact ⟨rest, h ▸ rfl⟩
    simp only [setBest, depth, side, hrest, List.tail_cons, List.map_append, foldr_add_append,
      hlevel]
    simp
    omega
  | invalid => simp [best] at h

theorem fill_left (qty rq : Qty) :
    (qty - min qty rq).toNat ≤ qty.toNat ∧ (rq - min qty rq ≠ 0 → qty - min qty rq = 0) := by
  have hm : min qty rq = if qty ≤ rq then qty else rq := rfl
  by_cases hle : qty ≤ rq
  · rw [hm, if_pos hle, UInt32.sub_self, UInt32.toNat_zero]
    exact ⟨Nat.zero_le _, fun _ => rfl⟩
  · -- the resting order is filled completely, so it cannot survive the trade
    rw [hm, if_neg hle, UInt32.sub_self,
      UInt32.toNat_sub_of_le _ _ (UInt32.le_of_lt (UInt32.not_le.1 hle))]
    exact ⟨Nat.sub_le _ _, fun h => absurd rfl h⟩

/-- The aggressor `oid` of client `c` on `side`, limited to `limit`, trades `qty` against the
book one resting order at a time: the events, the quantity left, and the book after. -/
def cross (r : RefBook) (c : ClientId) (oid : OrderId) (side : Side) (limit : Price) (qty : Qty) :
    List Event × Qty × RefBook :=
  if _hq : qty = 0 then ([], qty, r)
  else
    match _hb : r.best side.opposite with
    | none => ([], qty, r)
    | some (_, []) => ([], qty, r)
    | some (p, o :: os) =>
      if crosses side limit p then
        let fill := min qty o.qty
        let evs := fillReport r.ticker c oid side p o fill (qty - fill)
        if _hf : o.qty - fill = 0 then
          let (more, left, r') := (r.setBest side.opposite p os).cross c oid side limit (qty - fill)
          (evs ++ more, left, r')
        else
          let (more, left, r') := (r.setBest side.opposite p ({ o with qty := o.qty - fill } :: os)).cross
            c oid side limit (qty - fill)
          (evs ++ more, left, r')
      else ([], qty, r)
termination_by r.depth side.opposite + qty.toNat
decreasing_by
  · have hd := depth_setBest _hb os
    have := (fill_left qty o.qty).1
    simp only [List.length_cons] at hd
    omega
  · -- the resting order survives, so the aggressor is left with nothing
    have hd := depth_setBest _hb ({ o with qty := o.qty - min qty o.qty } :: os)
    have h0 := congrArg UInt32.toNat ((fill_left qty o.qty).2 _hf)
    have hpos : qty.toNat ≠ 0 := fun h => _hq (UInt32.toNat_inj.1 (h.trans UInt32.toNat_zero.symm))
    simp only [List.length_cons] at hd
    simp only [UInt32.toNat_zero] at h0
    omega

section Cross

variable {r : RefBook} {c : ClientId} {oid : OrderId} {side : Side} {limit p : Price} {qty : Qty}
  {o : RefOrder} {os : List RefOrder}

theorem cross_zero : r.cross c oid side limit 0 = ([], 0, r) := by
  rw [cross, dif_pos rfl]

theorem cross_of_best_none (h : r.best side.opposite = none) :
    r.cross c oid side limit qty = ([], qty, r) := by
  rw [cross]
  split
  · rfl
  · split
    · rfl
    · rename_i h'; simp [h] at h'
    · rename_i h'; simp [h] at h'

theorem cross_of_best (hq : qty ≠ 0) (h : r.best side.opposite = some (p, o :: os)) :
    r.cross c oid side limit qty =
      if crosses side limit p then
        let fill := min qty o.qty
        let (more, left, r') := (r.setBest side.opposite p
          (if o.qty - fill = 0 then os else { o with qty := o.qty - fill } :: os)).cross
            c oid side limit (qty - fill)
        (fillReport r.ticker c oid side p o fill (qty - fill) ++ more, left, r')
      else ([], qty, r) := by
  rw [cross, dif_neg hq]
  split
  · rename_i h'; simp [h] at h'
  · rename_i h'; simp [h] at h'
  · rename_i p' o' os' h'
    rw [h] at h'
    cases h'
    split
    · by_cases hf : o.qty - min qty o.qty = 0 <;> simp [hf]
    · rfl

end Cross

/-- The priority the next order at a price receives: one past the newest there, or 1; past the
largest priority is a fault. -/
def nextPriority (os : List RefOrder) : Except Fault Priority :=
  match os.getLast? with
  | none => .ok 1
  | some o => if o.priority = noPriority then .error (.overflow .add) else .ok (o.priority + 1)

/-- Puts an order behind the others at its price. -/
def place (r : RefBook) (side : Side) (p : Price) (o : RefOrder) : RefBook :=
  r.setSide side (PriceMap.put p (r.ordersAt side p ++ [o]) (r.side side))

@[simp] theorem ticker_place (r : RefBook) (side : Side) (p : Price) (o : RefOrder) :
    (r.place side p o).ticker = r.ticker := ticker_setSide _ _ _

/-- Rests an order behind the others at its price, with the next priority there. -/
def rest (r : RefBook) (c : ClientId) (oid : OrderId) (side : Side) (p : Price) (q : Qty) :
    Except Fault (RefOrder × RefBook) :=
  (nextPriority (r.ordersAt side p)).map fun priority =>
    let o : RefOrder := ⟨oid, c, q, priority⟩
    (o, r.place side p o)

/-- Places a limit order: rejects it, or accepts it, lets it cross and rests what is left. -/
def add (r : RefBook) (c : ClientId) (oid : OrderId) (side : Side) (p : Price) (q : Qty) :
    Outcome RefBook :=
  let answer (kind : ResponseKind) : Event :=
    .response { kind, clientId := c, tickerId := r.ticker, orderId := oid, side, price := p,
                execQty := 0, leavesQty := q }
  if q = 0 ∨ q = noQty ∨ side.isValid = false ∨ p = noPrice ∨ oid = noOrder ∨
      (r.locate oid).isSome then ⟨[answer .invalid], .ok r⟩
  else
    let (evs, left, r') := r.cross c oid side p q
    if left = 0 then ⟨answer .accepted :: evs, .ok r'⟩
    else
      match r'.rest c oid side p left with
      | .ok (o, r'') =>
        ⟨answer .accepted :: evs ++
          [.update { kind := .add, orderId := oid, tickerId := r.ticker, side, price := p,
                     qty := left, priority := o.priority }], .ok r''⟩
      | .error f => ⟨answer .accepted :: evs, .error f⟩

/-- Takes the order with this id out of the level at `p` on side `s`. -/
def removeOrder (r : RefBook) (s : Side) (p : Price) (oid : OrderId) : RefBook :=
  r.setOrders s p ((r.ordersAt s p).filter (·.orderId != oid))

/-- Cancels a client's own resting order; any other id is rejected. -/
def cancel (r : RefBook) (c : ClientId) (oid : OrderId) : List Event × RefBook :=
  let rejection : List Event :=
    [.response { kind := .cancelRejected, clientId := c, tickerId := r.ticker, orderId := oid,
                 side := .invalid, price := noPrice, execQty := noQty, leavesQty := noQty }]
  match r.locate oid with
  | some (s, p, o) =>
    if o.clientId = c then
      ([.response { kind := .canceled, clientId := c, tickerId := r.ticker, orderId := oid, side := s,
                    price := p, execQty := 0, leavesQty := o.qty },
        .update { kind := .cancel, orderId := oid, tickerId := r.ticker, side := s, price := p,
                  qty := o.qty, priority := o.priority }], r.removeOrder s p oid)
    else (rejection, r)
  | none => (rejection, r)

/-- Takes out the order with this id, if it rests, and reports it. -/
def remove (r : RefBook) (oid : OrderId) : Option Entry × RefBook :=
  match r.locate oid with
  | some (s, p, o) =>
    (some { tickerId := r.ticker, clientId := o.clientId, orderId := o.orderId, side := s, price := p,
            qty := o.qty, priority := o.priority }, r.removeOrder s p oid)
  | none => (none, r)

/-! ## Calls and runs -/

/-- What a call returns besides its events: the order it rested, or the order it removed. -/
inductive Reply where
  | done
  | rested (o : RefOrder)
  | removed (e : Option Entry)
  deriving DecidableEq, Repr

/-- A call on the reference book. -/
def call (r : RefBook) : Book.Call → Outcome (Reply × RefBook)
  | .add c oid side p q =>
    let o := r.add c oid side p q
    ⟨o.events, o.result.map (.done, ·)⟩
  | .cancel c oid => let (evs, r') := r.cancel c oid; ⟨evs, .ok (.done, r')⟩
  | .insert c oid side p q => ⟨[], (r.rest c oid side p q).map fun (o, r') => (.rested o, r')⟩
  | .remove oid => let (e, r') := r.remove oid; ⟨[], .ok (.removed e, r')⟩

/-- Whether a call keeps what its caller promises: a direct insert names an id that does not
rest, on a valid side. -/
def admits (r : RefBook) : Book.Call → Bool
  | .insert _ oid side _ _ => (r.locate oid).isNone && side.isValid
  | _ => true

/-- Whether a run of calls keeps every caller's promise and never holds more than `maxOrders`
orders or `maxLevels` levels. -/
def fits (maxOrders maxLevels : Nat) : RefBook → List Book.Call → Bool
  | _, [] => true
  | r, c :: cs =>
    r.admits c &&
      match (r.call c).result with
      | .ok (_, r') =>
        decide (r'.orderCount ≤ maxOrders) && decide (r'.levelCount ≤ maxLevels) &&
          fits maxOrders maxLevels r' cs
      | .error _ => true

end RefBook

/-- Runs calls one after another from `s`: the events of all of them, and the replies and the
final state, or the fault that stopped the run. -/
def Outcome.runCalls {σ ρ γ : Type} (step : σ → γ → Outcome (ρ × σ)) (s : σ) :
    List γ → Outcome (List ρ × σ)
  | [] => ⟨[], .ok ([], s)⟩
  | c :: cs =>
    let o := step s c
    match o.result with
    | .error f => ⟨o.events, .error f⟩
    | .ok (x, s') =>
      let rest := Outcome.runCalls step s' cs
      ⟨o.events ++ rest.events, rest.result.map fun (xs, s'') => (x :: xs, s'')⟩

end Exchange
