import Exchange.Proofs.Book.Fills

/-!
# The crossing loop is bounded by the orders it meets

A NEW crosses the other side one trade at a time (`Fill`): against the oldest order of the best
level, while the taker holds some quantity and the level's price is within its limit, filling the
smaller of the two quantities. `Taker.Trades` is that loop run over the other side's orders in
book order, best level first and each queue oldest first, each with its level's price. A trade
either takes its order off the book, filled completely, or leaves the taker with nothing while the
order stays (`Fill.takes_or_finishes`). So the loop's measure, one while the taker holds something
plus the orders left on the other side, falls with every trade (`Fill.measure_lt`); and since a
trade that leaves its order ends the loop, there are no more trades than resting orders
(`Taker.Trades.length_le`). Resting orders of no quantity are traded for nothing and taken off,
so the taker's quantity alone would not bound the loop.

Crossing a side (`Taker.fillSide`) is such a run, from the side's orders to those of the levels it
leaves (`Taker.trades_fillSide`). Each trade emits four events, so a NEW emits its answer, four
events per trade and at most one ADD. Main statement: `Book.add_trades_at_most_resting`.
-/

namespace Exchange

open Level

/-- One trade of a crossing: the price of the level met, its oldest order, and the quantity the
taker held before the trade. -/
structure Fill where
  price : Price
  passive : Resting
  held : Qty

namespace Fill

variable (f : Fill)

/-- The quantity traded: the smaller of the two. -/
def qty : Qty := min f.held f.passive.qty

/-- What the taker holds after the trade. -/
def left : Qty := f.held - f.qty

/-- What the resting order holds after the trade. -/
def passiveLeft : Qty := f.passive.qty - f.qty

/-- The other side's orders after the trade, given those behind the order met: that order is gone
when filled completely, and stays in front with what it holds otherwise. -/
def rest (os : List (Price × Resting)) : List (Price × Resting) :=
  if f.passiveLeft = 0 then os else (f.price, { f.passive with qty := f.passiveLeft }) :: os

/-- **A trade takes its order off or finishes the taker**: the smaller quantity is traded, so one
of the two is left with nothing. -/
theorem takes_or_finishes : f.passiveLeft = 0 ∨ f.left = 0 := by
  have htaker := toNat_min_add_sub_left f.held f.passive.qty
  have hpassive := toNat_min_add_sub_right f.held f.passive.qty
  have hmin := UInt32.toNat_min f.held f.passive.qty
  simp only [passiveLeft, left, qty, ← UInt32.toNat_inj, UInt32.toNat_zero]
  omega

end Fill

/-- The measure of the crossing loop: one while the taker holds something, plus the orders left on
the other side. -/
def crossingMeasure (held : Qty) (os : List (Price × Resting)) : Nat :=
  (if held = 0 then 0 else 1) + os.length

/-- **Each trade lowers the measure**: it takes its order off, or it leaves the taker with
nothing. -/
theorem Fill.measure_lt {f : Fill} (hheld : f.held ≠ 0) (os : List (Price × Resting)) :
    crossingMeasure f.left (f.rest os) < crossingMeasure f.held ((f.price, f.passive) :: os) := by
  unfold crossingMeasure
  by_cases hgone : f.passiveLeft = 0
  · -- the order is taken off
    rw [rest, if_pos hgone, if_neg hheld, List.length_cons]
    split <;> omega
  · -- the order stays, so the taker holds nothing
    have hdone := f.takes_or_finishes.resolve_left hgone
    rw [rest, if_neg hgone, if_pos hdone, if_neg hheld, List.length_cons, List.length_cons]
    omega

namespace Level

/-- The orders of some levels, level by level, each with its level's price. -/
def pricedOrders (ls : List Level) : List (Price × Resting) :=
  ls.flatMap fun l => l.orders.map (l.price, ·)

@[simp] theorem pricedOrders_nil : pricedOrders [] = [] := rfl

@[simp] theorem pricedOrders_cons (l : Level) (ls : List Level) :
    pricedOrders (l :: ls) = l.orders.map (l.price, ·) ++ pricedOrders ls := rfl

@[simp] theorem length_pricedOrders (ls : List Level) :
    (pricedOrders ls).length = (ordersOf ls).length := by
  induction ls with
  | nil => rfl
  | cons l ls ih => simp [ih]

end Level

namespace Taker

variable {t : Taker}

/-- The events of some trades, in order. -/
def tradesEvents (t : Taker) (fs : List Fill) : List Event :=
  fs.flatMap fun f => t.tradeEvents f.price f.passive f.qty f.left

/-- **Each trade emits four events.** -/
@[simp] theorem length_tradesEvents (fs : List Fill) : (t.tradesEvents fs).length = 4 * fs.length := by
  induction fs with
  | nil => rfl
  | cons f fs ih =>
    simp only [tradesEvents, List.flatMap_cons, List.length_append] at ih ⊢
    rw [ih]
    simp only [tradeEvents, List.length_cons, List.length_nil]
    omega

/-- The crossing loop from a taker holding `held` against the other side's orders `os`, in book
order and each with its level's price, making the trades `fs`, to a taker holding `held'` against
`os'`. Each trade is with the first order, made while the taker holds something and the order's
price is within its limit. -/
inductive Trades (t : Taker) : Qty → List (Price × Resting) → List Fill → Qty →
    List (Price × Resting) → Prop
  | stop (held : Qty) (os : List (Price × Resting)) : Trades t held os [] held os
  | trade {held : Qty} {p : Price} {o : Resting} {os : List (Price × Resting)} {fs : List Fill}
      {held' : Qty} {os' : List (Price × Resting)} :
      held ≠ 0 → crosses t.side t.limit p = true →
      Trades t (Fill.left ⟨p, o, held⟩) (Fill.rest ⟨p, o, held⟩ os) fs held' os' →
      Trades t held ((p, o) :: os) (⟨p, o, held⟩ :: fs) held' os'

namespace Trades

variable {held held' held'' : Qty} {os os' os'' : List (Price × Resting)} {fs gs : List Fill}

theorem eq_nil_of_zero (h : t.Trades 0 os fs held' os') : fs = [] := by
  cases h with
  | stop => rfl
  | trade hheld => exact absurd rfl hheld

theorem trans (h : t.Trades held os fs held' os') (h' : t.Trades held' os' gs held'' os'') :
    t.Trades held os (fs ++ gs) held'' os'' := by
  induction h with
  | stop => exact h'
  | trade hheld hp _ ih => exact .trade hheld hp (ih h')

/-- **The measure falls by at least one per trade.** -/
theorem measure (h : t.Trades held os fs held' os') :
    fs.length + crossingMeasure held' os' ≤ crossingMeasure held os := by
  induction h with
  | stop => simp
  | @trade held p o os _ _ _ hheld _ _ ih =>
    have hlt : crossingMeasure (Fill.left ⟨p, o, held⟩) (Fill.rest ⟨p, o, held⟩ os) <
        crossingMeasure held ((p, o) :: os) := Fill.measure_lt hheld os
    simp only [List.length_cons]
    omega

/-- **No more trades than resting orders.** A trade that leaves its order leaves the taker with
nothing, and the loop stops there; every other trade takes an order off. -/
theorem length_le (h : t.Trades held os fs held' os') : fs.length ≤ os.length := by
  induction h with
  | stop => exact Nat.zero_le _
  | @trade held p o os fs _ _ _ _ hrest ih =>
    rcases Fill.takes_or_finishes ⟨p, o, held⟩ with hgone | hdone
    · rw [Fill.rest, if_pos hgone] at ih
      simp only [List.length_cons]
      omega
    · rw [hdone] at hrest
      rw [hrest.eq_nil_of_zero]
      simp

end Trades

/-! ## Crossing a side is a run of the loop -/

theorem trades_fillLevel {price : Price} (hp : crosses t.side t.limit price = true)
    (more : List (Price × Resting)) :
    ∀ {os rest filled : List Resting} {leaves left : Qty} {evs : List Event},
    t.fillLevel price os leaves = (evs, left, rest, filled) →
    ∃ fs, t.Trades leaves (os.map (price, ·) ++ more) fs left (rest.map (price, ·) ++ more) ∧
      evs = t.tradesEvents fs
  | [], rest, filled, leaves, left, evs, h => by
    simp only [fillLevel, Prod.mk.injEq] at h
    obtain ⟨rfl, rfl, rfl, -⟩ := h
    exact ⟨[], .stop _ _, rfl⟩
  | o :: os, rest, filled, leaves, left, evs, h => by
    simp only [fillLevel] at h
    split at h
    · simp only [Prod.mk.injEq] at h
      obtain ⟨rfl, rfl, rfl, -⟩ := h
      exact ⟨[], .stop _ _, rfl⟩
    rename_i hleaves
    split at h
    · -- the order is filled completely, and the rest of the queue follows
      rename_i hgone
      generalize hr : t.fillLevel price os (leaves - min leaves o.qty) = r at h
      obtain ⟨more', leaves', rest', filled'⟩ := r
      simp only [Prod.mk.injEq] at h
      obtain ⟨rfl, rfl, rfl, -⟩ := h
      obtain ⟨fs, hfs, rfl⟩ := trades_fillLevel hp more hr
      have hrest : Fill.rest ⟨price, o, leaves⟩ (os.map (price, ·) ++ more) =
          os.map (price, ·) ++ more := if_pos hgone
      refine ⟨⟨price, o, leaves⟩ :: fs, .trade hleaves hp ?_, by simp [tradesEvents, Fill.qty, Fill.left]⟩
      rw [List.append_eq, hrest]
      exact hfs
    · -- the order stays with what it holds, and the taker holds nothing
      rename_i hstays
      simp only [Prod.mk.injEq] at h
      obtain ⟨rfl, rfl, rfl, -⟩ := h
      have hrest : Fill.rest ⟨price, o, leaves⟩ (os.map (price, ·) ++ more) =
          (price, { o with qty := o.qty - min leaves o.qty }) :: (os.map (price, ·) ++ more) :=
        if_neg hstays
      refine ⟨[⟨price, o, leaves⟩], .trade hleaves hp ?_, by simp [tradesEvents, Fill.qty, Fill.left]⟩
      rw [List.append_eq, hrest]
      exact .stop _ _

/-- **Crossing a side is a run of the loop**, from the side's orders to the orders of the levels
it leaves; its events are those of the run's trades. -/
theorem trades_fillSide : ∀ {ls rest : List Level} {filled : List Resting} {leaves left : Qty}
    {evs : List Event}, t.fillSide ls leaves = (evs, left, rest, filled) →
    ∃ fs, t.Trades leaves (pricedOrders ls) fs left (pricedOrders rest) ∧ evs = t.tradesEvents fs
  | [], rest, filled, leaves, left, evs, h => by
    simp only [fillSide, Prod.mk.injEq] at h
    obtain ⟨rfl, rfl, rfl, -⟩ := h
    exact ⟨[], .stop _ _, rfl⟩
  | l :: ls, rest, filled, leaves, left, evs, h => by
    simp only [fillSide] at h
    split at h
    · simp only [Prod.mk.injEq] at h
      obtain ⟨rfl, rfl, rfl, -⟩ := h
      exact ⟨[], .stop _ _, rfl⟩
    rename_i hgo
    have hp : crosses t.side t.limit l.price = true := by
      simpa using (not_or.1 hgo).2
    generalize hr : t.fillLevel l.price l.orders leaves = r at h
    obtain ⟨evs₁, left₁, rest₁, filled₁⟩ := r
    obtain ⟨fs₁, h₁, rfl⟩ := trades_fillLevel hp (pricedOrders ls) hr
    split at h
    · -- the level is drained, and the loop goes on to the next
      rename_i hnil
      simp only at hnil
      generalize hm : t.fillSide ls left₁ = m at h
      obtain ⟨more, leaves', ls', filled'⟩ := m
      simp only [Prod.mk.injEq] at h
      obtain ⟨rfl, rfl, rfl, -⟩ := h
      obtain ⟨fs₂, h₂, rfl⟩ := trades_fillSide hm
      rw [hnil, List.map_nil, List.nil_append] at h₁
      exact ⟨fs₁ ++ fs₂, h₁.trans h₂, by simp [tradesEvents]⟩
    · -- the loop stopped within the level, which stays with what is left of it
      simp only [Prod.mk.injEq] at h
      obtain ⟨rfl, rfl, rfl, -⟩ := h
      exact ⟨fs₁, h₁, rfl⟩

end Taker

namespace Book

/-- **A NEW's events are its answer, then a run of the crossing loop.** The run goes over the
other side's orders in book order, from the NEW's quantity; at most one event, its ADD, follows the
run's. A rejected NEW makes no trade. -/
theorem add_events_trades (b : Book) (c : ClientId) (oid : OrderId) (side : Side) (p : Price)
    (q : Qty) :
    ∃ fs left rest, (Taker.mk b.ticker c oid side p).Trades q (pricedOrders (b.levels side.opposite))
        fs left (pricedOrders rest) ∧
      ∃ answer tail, (b.add c oid side p q).events =
          answer :: (Taker.mk b.ticker c oid side p).tradesEvents fs ++ tail ∧ tail.length ≤ 1 := by
  rcases add_events_eq b c oid side p q with ⟨-, hev⟩ | ⟨-, evs, leaves, rest, filled, hf, hev⟩
  · exact ⟨[], q, b.levels side.opposite, .stop _ _, _, [], (by rw [hev]; rfl), (by simp)⟩
  obtain ⟨fs, htr, rfl⟩ := Taker.trades_fillSide hf
  refine ⟨fs, leaves, rest, htr, ?_⟩
  rcases hev with hev | ⟨u, -, hev⟩
  · exact ⟨_, [], by rw [hev, List.append_nil], by simp⟩
  · exact ⟨_, [.update u], hev, by simp⟩

/-- **A NEW trades at most once per resting order of the other side.** Its crossing is a run of
the loop over the other side's orders in book order, each trade taking its order off or finishing
the taker, so the loop's measure falls with every trade and there are no more trades than those
orders. The NEW emits its answer, four events per trade, and at most one ADD: at most two events
more than four per resting order of the other side. -/
theorem add_trades_at_most_resting (b : Book) (c : ClientId) (oid : OrderId) (side : Side)
    (p : Price) (q : Qty) :
    ∃ fs left rest, (Taker.mk b.ticker c oid side p).Trades q (pricedOrders (b.levels side.opposite))
        fs left (pricedOrders rest) ∧
      fs.length ≤ (ordersOf (b.levels side.opposite)).length ∧
      fs.length + crossingMeasure left (pricedOrders rest) ≤
        crossingMeasure q (pricedOrders (b.levels side.opposite)) ∧
      (∀ f ∈ fs, f.passiveLeft = 0 ∨ f.left = 0) ∧
      ((Taker.mk b.ticker c oid side p).tradesEvents fs).length = 4 * fs.length ∧
      (∃ answer tail, (b.add c oid side p q).events =
          answer :: (Taker.mk b.ticker c oid side p).tradesEvents fs ++ tail ∧ tail.length ≤ 1) ∧
      (b.add c oid side p q).events.length ≤ 2 + 4 * (ordersOf (b.levels side.opposite)).length := by
  obtain ⟨fs, left, rest, htr, answer, tail, hevs, htail⟩ := add_events_trades b c oid side p q
  have hle := htr.length_le
  rw [length_pricedOrders] at hle
  refine ⟨fs, left, rest, htr, hle, htr.measure, fun f _ => f.takes_or_finishes,
    Taker.length_tradesEvents fs, ⟨answer, tail, hevs, htail⟩, ?_⟩
  rw [hevs, List.length_append, List.length_cons, Taker.length_tradesEvents]
  omega

end Book

end Exchange
