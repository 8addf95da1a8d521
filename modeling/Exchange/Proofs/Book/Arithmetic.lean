import Exchange.Proofs.Book.Fills

/-!
# The arithmetic of a book

Which of a book's words can leave their range. A level counts its orders in 32 bits and sums
their quantities in 64; each new order takes the priority after the newest at its price; a trade
takes the quantity it fills off both orders; the spread subtracts the best bid from the best ask.

* Crossing takes off exactly what it trades: the taker's quantity left and what it traded add up
  to what it came with, and so do the quantities that stay on the side and what was traded
  against them (`Taker.fillSide_conserves`).
* The priorities in a book are never more than the orders it rested anew (`Book.Run.bounded`),
  so below `2^64 - 1` of those no placement overflows (`Book.Bounded.add_ne_overflow`).
* A level never holds as many orders as its pool has slots, and the pool is smaller than the null
  index, so its count and total fit their words (`Book.Bounded.level_fits`).
* The spread overflows exactly when the best ask lies `2^63` or more above the best bid
  (`Book.spread_eq_error_iff`), which two orders at admitted prices can make so.

Main statement: `Book.Run.overflows_only_in_spread`.
-/

namespace Exchange

/-! ## Crossing conserves quantity -/

/-- The quantity of some resting orders. -/
def Resting.qtySum (os : List Resting) : Nat := (os.map fun o => o.qty.toNat).foldr (· + ·) 0

@[simp] theorem Resting.qtySum_nil : Resting.qtySum [] = 0 := rfl

@[simp] theorem Resting.qtySum_cons (o : Resting) (os : List Resting) :
    Resting.qtySum (o :: os) = o.qty.toNat + Resting.qtySum os := rfl

@[simp] theorem Resting.qtySum_append : ∀ os os' : List Resting,
    Resting.qtySum (os ++ os') = Resting.qtySum os + Resting.qtySum os'
  | [], os' => (Nat.zero_add _).symm
  | o :: os, os' => by
    rw [List.cons_append, Resting.qtySum_cons, Resting.qtySum_cons, Resting.qtySum_append os os',
      Nat.add_assoc]

theorem Level.totalQty_eq_qtySum (l : Level) : l.totalQty = Resting.qtySum l.orders := rfl

theorem Resting.qty_le_qtySum {o : Resting} : ∀ {os : List Resting}, o ∈ os →
    o.qty.toNat ≤ Resting.qtySum os
  | _ :: _, .head _ => by
    rw [Resting.qtySum_cons]
    exact Nat.le_add_right _ _
  | _ :: _, .tail _ h => by
    rw [Resting.qtySum_cons]
    exact Nat.le_add_left_of_le (Resting.qty_le_qtySum h)

theorem Resting.qtySum_le : ∀ os : List Resting, Resting.qtySum os ≤ os.length * (2 ^ 32 - 1)
  | [] => by simp
  | o :: os => by
    have hq : o.qty.toNat < 2 ^ 32 := o.qty.toNat_lt
    rw [Resting.qtySum_cons, List.length_cons, Nat.succ_mul]
    have := Resting.qtySum_le os
    omega

namespace Taker

variable {t : Taker} {price : Price}

theorem tradedQty_tradeEvents (o : Resting) (fill left : Qty) :
    Event.sumOf Event.tradedQty (t.tradeEvents price o fill left) = fill.toNat := by
  obtain ⟨u, he, -, hu⟩ := tradeEvents_eq t price o fill left
  have hu' : Event.tradedQty (.update u) = 0 := by
    rcases hu with ⟨-, hk, -⟩ | ⟨-, hk⟩ <;> simp [Event.tradedQty, hk]
  rw [he, Event.sumOf_cons, Event.sumOf_cons, Event.sumOf_cons, Event.sumOf_cons, hu']
  simp [Event.tradedQty]

/-- **Trading against a queue takes off what it trades**: the taker keeps what it came with less
what it traded, and so does the queue. -/
theorem fillLevel_conserves : ∀ {os rest filled : List Resting} {leaves left : Qty}
    {evs : List Event}, t.fillLevel price os leaves = (evs, left, rest, filled) →
    left.toNat + Event.sumOf Event.tradedQty evs = leaves.toNat ∧
      Resting.qtySum rest + Event.sumOf Event.tradedQty evs = Resting.qtySum os
  | [], rest, filled, leaves, left, evs, h => by
    simp only [fillLevel, Prod.mk.injEq] at h
    obtain ⟨rfl, rfl, rfl, -⟩ := h
    simp
  | o :: os, rest, filled, leaves, left, evs, h => by
    simp only [fillLevel] at h
    split at h
    · simp only [Prod.mk.injEq] at h
      obtain ⟨rfl, rfl, rfl, -⟩ := h
      simp
    have hleft := toNat_min_add_sub_left leaves o.qty
    have hright := toNat_min_add_sub_right leaves o.qty
    split at h
    · rename_i hfull
      generalize hr : t.fillLevel price os (leaves - min leaves o.qty) = r at h
      obtain ⟨more, leaves', rest', filled'⟩ := r
      simp only [Prod.mk.injEq] at h
      obtain ⟨rfl, rfl, rfl, -⟩ := h
      obtain ⟨ih₁, ih₂⟩ := fillLevel_conserves hr
      rw [hfull, UInt32.toNat_zero, Nat.add_zero] at hright
      rw [Event.sumOf_append, tradedQty_tradeEvents, Resting.qtySum_cons]
      omega
    · simp only [Prod.mk.injEq] at h
      obtain ⟨rfl, rfl, rfl, -⟩ := h
      rw [tradedQty_tradeEvents, Resting.qtySum_cons, Resting.qtySum_cons]
      dsimp only
      omega

/-- **Crossing takes off what it trades**: the taker keeps what it came with less what it traded,
and the orders that stay on the side hold what the side held less the same. -/
theorem fillSide_conserves : ∀ {ls rest : List Level} {filled : List Resting} {leaves left : Qty}
    {evs : List Event}, t.fillSide ls leaves = (evs, left, rest, filled) →
    left.toNat + Event.sumOf Event.tradedQty evs = leaves.toNat ∧
      Resting.qtySum (Level.ordersOf rest) + Event.sumOf Event.tradedQty evs =
        Resting.qtySum (Level.ordersOf ls)
  | [], rest, filled, leaves, left, evs, h => by
    simp only [fillSide, Prod.mk.injEq] at h
    obtain ⟨rfl, rfl, rfl, -⟩ := h
    simp
  | l :: ls, rest, filled, leaves, left, evs, h => by
    simp only [fillSide] at h
    split at h
    · simp only [Prod.mk.injEq] at h
      obtain ⟨rfl, rfl, rfl, -⟩ := h
      simp
    generalize hr : t.fillLevel l.price l.orders leaves = r at h
    obtain ⟨evs₁, left₁, rest₁, filled₁⟩ := r
    obtain ⟨hl₁, hl₂⟩ := fillLevel_conserves hr
    split at h
    · -- the level is used up, and trading goes on into the next
      rename_i hnil
      simp only at hnil
      generalize hr' : t.fillSide ls left₁ = r' at h
      obtain ⟨more, leaves', ls', filled'⟩ := r'
      simp only [Prod.mk.injEq] at h
      obtain ⟨rfl, rfl, rfl, -⟩ := h
      obtain ⟨ih₁, ih₂⟩ := fillSide_conserves hr'
      rw [hnil, Resting.qtySum_nil] at hl₂
      rw [Event.sumOf_append, Level.ordersOf_cons, Resting.qtySum_append]
      omega
    · simp only [Prod.mk.injEq] at h
      obtain ⟨rfl, rfl, rfl, -⟩ := h
      rw [Level.ordersOf_cons, Level.ordersOf_cons, Resting.qtySum_append, Resting.qtySum_append]
      dsimp only
      omega

end Taker

/-! ## Priorities -/

namespace Level

variable {l : Level} {n : Nat}

theorem nextPriority_eq_error {f : Fault} (h : l.nextPriority = .error f) :
    f = .overflow .add ∧ ∃ o ∈ l.orders, o.priority = noPriority := by
  unfold nextPriority at h
  split at h
  · cases h
  · rename_i last hlast
    split at h
    · cases h
      exact ⟨rfl, last, List.mem_of_getLast? hlast, ‹_›⟩
    · cases h

theorem toNat_nextPriority_le {q : Priority} (hb : ∀ o ∈ l.orders, o.priority.toNat ≤ n)
    (h : l.nextPriority = .ok q) : q.toNat ≤ n + 1 := by
  unfold nextPriority at h
  split at h
  · cases h
    simp
  · rename_i last hlast
    split at h
    · cases h
    · rename_i hmax
      cases h
      have hle := hb last (List.mem_of_getLast? hlast)
      -- the newest priority is not the largest, so the one after it does not wrap
      have hne : last.priority.toNat ≠ 2 ^ 64 - 1 := fun e =>
        hmax (UInt64.toNat_inj.1 (by rw [e]; rfl))
      have hlt := last.priority.toNat_lt
      rw [UInt64.toNat_add, UInt64.toNat_one, Nat.mod_eq_of_lt (by omega)]
      omega

end Level

namespace Book

open Level

variable {b b' : Book} {n m : Nat}

theorem mem_orders_of_mem_levels {side : Side} {l : Level} {o : Resting} (hl : l ∈ b.levels side)
    (ho : o ∈ l.orders) : o ∈ b.orders :=
  (orders_perm (isValid_of_mem_levels hl)).mem_iff.2
    (List.mem_append_left _ (mem_ordersOf.2 ⟨l, hl, ho⟩))

theorem contains_of_mem {oid : OrderId} (h : oid ∈ b.orders.map (·.orderId)) : b.contains oid = true :=
  Bool.eq_true_of_not_eq_false fun hc => contains_eq_false_iff.1 hc h

/-! ## Runs of calls, counting the orders rested -/

/-- How many orders a call rests anew: one for a limit order or an insertion whose id rests after
the call and not before it, none otherwise. -/
def Call.rests (b b' : Book) : Call → Nat
  | .add _ oid _ _ _ | .insert _ oid _ _ _ =>
    if b.contains oid = false ∧ b'.contains oid = true then 1 else 0
  | .cancel _ _ | .remove _ => 0

/-- The books calls lead to from an empty book, with how many orders they rested anew. -/
inductive Run : Nat → Book → Prop
  | create {t : TickerId} {maxOrders maxLevels : Nat} {b : Book} :
      Book.create t maxOrders maxLevels = .ok b → Run 0 b
  | step {n : Nat} {b b' : Book} {c : Call} {r : Reply} :
      Run n b → (b.call c).result = .ok (r, b') → Run (n + c.rests b b') b'

/-- What a book that calls rested `n` orders in keeps of its arithmetic: it is well formed, no
priority in it exceeds `n`, and its pool has fewer slots than the null index. -/
structure Bounded (n : Nat) (b : Book) : Prop where
  wf : b.WF
  priorities : ∀ o ∈ b.orders, o.priority.toNat ≤ n
  capacity : b.orderSlots.capacity < Pool.nullIndex

theorem bounded_create {t : TickerId} {maxOrders maxLevels : Nat}
    (h : Book.create t maxOrders maxLevels = .ok b) : Bounded 0 b := by
  have hw := wf_create h
  simp only [Book.create, bind, Except.bind, pure, Except.pure] at h
  split at h
  · cases h
  · rename_i pool hp
    split at h
    · cases h
    · cases h
      refine ⟨hw, by simp [orders], ?_⟩
      rw [Pool.capacity_create hp]
      exact Pool.lt_nullIndex_of_create hp

theorem Bounded.mono (hB : Bounded n b) (h : n ≤ m) : Bounded m b :=
  ⟨hB.wf, fun o ho => Nat.le_trans (hB.priorities o ho) h, hB.capacity⟩

theorem Bounded.of_priorities (hB : Bounded n b) (hw : b'.WF)
    (hcap : b'.orderSlots.capacity = b.orderSlots.capacity)
    (hp : ∀ o ∈ b'.orders, o.priority ∈ b.orders.map (·.priority)) : Bounded n b' := by
  refine ⟨hw, fun o ho => ?_, hcap ▸ hB.capacity⟩
  obtain ⟨o', ho', he⟩ := List.mem_map.1 (hp o ho)
  exact he ▸ hB.priorities o' ho'

/-- **Placing an order keeps the bound, one higher**: the priority it takes is at most one past
those of its level. -/
theorem Bounded.insert {c : ClientId} {oid : OrderId} {side : Side} {p : Price} {q : Qty}
    {o : Resting} (hB : Bounded n b) (h : b.insert c oid side p q = .ok (o, b')) :
    Bounded (n + 1) b' := by
  have hw' := hB.wf.insert h
  have hperm := (orders_insert hB.wf h).1
  obtain ⟨-, -, level, ls₁, pool', hls, hpr, halloc, -, -, -, rfl⟩ := insert_eq_ok h
  have hlevel : ∀ x ∈ level.orders, x.priority.toNat ≤ n := by
    rcases hls with ⟨hf, -⟩ | ⟨-, -, rfl, -⟩
    · exact fun x hx => hB.priorities x (mem_orders_of_mem_levels (List.mem_of_find?_eq_some hf) hx)
    · intro x hx
      cases hx
  refine ⟨hw', fun x hx => ?_, ?_⟩
  · rcases List.mem_cons.1 (hperm.mem_iff.1 hx) with rfl | hx
    · exact toNat_nextPriority_le hlevel hpr
    · exact Nat.le_succ_of_le (hB.priorities x hx)
  · show pool'.capacity < Pool.nullIndex
    rw [Pool.capacity_of_tryAllocate hB.wf.stored.inv halloc]
    exact hB.capacity

theorem Bounded.cross {t : Taker} {side : Side} {leaves left : Qty} {evs : List Event}
    {rest : List Level} {filled : List Resting} (hB : Bounded n b) (hv : side.isValid = true)
    (h : t.fillSide (b.levels side) leaves = (evs, left, rest, filled)) :
    Bounded n { b.withLevels side rest with
      orderSlots := filled.foldl (fun p o => p.vacate o.slot) b.orderSlots } := by
  have hperm := orders_map_cross hv h (filled.foldl (fun p o => p.vacate o.slot) b.orderSlots)
    (·.priority) fun _ => rfl
  refine hB.of_priorities (hB.wf.cross hv h) (capacity_foldl_vacate _ _) fun o ho => ?_
  exact hperm.mem_iff.2 (List.mem_append_right _ (List.mem_map_of_mem ho))

theorem Bounded.without {oid : OrderId} {side : Side} {p : Price} {o : Resting} (hB : Bounded n b)
    (hf : b.find? oid = some (side, p, o)) : Bounded n (b.without side p o) := by
  obtain ⟨hw', hperm⟩ := hB.wf.without hf
  refine hB.of_priorities hw' (Pool.capacity_vacate _) fun x hx => ?_
  exact List.mem_map_of_mem (hperm.mem_iff.2 (List.mem_cons_of_mem _ hx))


/-! ## Where placing an order can fail -/

/-- **The faults of placing an order**: a resting id, the invalid side, a full level pool or
order pool, or a level whose newest order holds the largest priority, which overflows. -/
theorem insert_eq_error {c : ClientId} {oid : OrderId} {side : Side} {p : Price} {q : Qty}
    {f : Fault} (h : b.insert c oid side p q = .error f) :
    f = .duplicateOrder ∨ f = .levelForInvalidSide ∨ f = .poolExhausted b.levelCapacity ∨
      f = .poolExhausted b.orderSlots.capacity ∨
      f = .overflow .add ∧ ∃ o ∈ b.orders, o.priority = noPriority := by
  unfold Book.insert at h
  simp only [bind, Except.bind, pure, Except.pure, throw, throwThe, MonadExceptOf.throw] at h
  split at h
  · cases h
    exact .inl rfl
  split at h
  · cases h
    exact .inr (.inl rfl)
  split at h
  · -- the level at the price hands out its next priority
    rename_i level hf
    split at h
    · rename_i e he
      cases h
      obtain ⟨rfl, o, ho, hmax⟩ := Level.nextPriority_eq_error he
      exact .inr (.inr (.inr (.inr ⟨rfl, o,
        mem_orders_of_mem_levels (List.mem_of_find?_eq_some hf) ho, hmax⟩)))
    · split at h
      · rename_i e he
        cases h
        exact .inr (.inr (.inr (.inl (Pool.allocate_eq_error he))))
      · cases h
  · -- a new level, if there is room for one, hands out 1
    split at h
    · cases h
      exact .inr (.inr (.inl rfl))
    · split at h
      · rename_i e he
        cases he
      · split at h
        · rename_i e he
          cases h
          exact .inr (.inr (.inr (.inl (Pool.allocate_eq_error he))))
        · cases h

theorem add_result_eq_ok {c : ClientId} {oid : OrderId} {side : Side} {p : Price} {q : Qty}
    (h : (b.add c oid side p q).result = .ok b') :
    b.rejects oid side p q = true ∧ b' = b ∨
    b.rejects oid side p q = false ∧ ∃ evs leaves rest filled,
      (Taker.mk b.ticker c oid side p).fillSide (b.levels side.opposite) q =
        (evs, leaves, rest, filled) ∧
      (leaves = 0 ∧ b' = { b.withLevels side.opposite rest with
          orderSlots := filled.foldl (fun p o => p.vacate o.slot) b.orderSlots } ∨
       ∃ o, ({ b.withLevels side.opposite rest with
          orderSlots := filled.foldl (fun p o => p.vacate o.slot) b.orderSlots } : Book).insert
            c oid side p leaves = .ok (o, b')) := by
  unfold Book.add at h
  split at h
  · cases h
    exact .inl ⟨‹_›, rfl⟩
  rename_i hrej
  simp only at h
  generalize hf : (Taker.mk b.ticker c oid side p).fillSide (b.levels side.opposite) q = r at h
  obtain ⟨evs, leaves, rest, filled⟩ := r
  refine .inr ⟨by simpa using hrej, evs, leaves, rest, filled, rfl, ?_⟩
  simp only at h
  split at h
  · cases h
    exact .inl ⟨‹_›, rfl⟩
  · split at h
    · rename_i o b'' hins
      cases h
      exact .inr ⟨o, hins⟩
    · cases h

theorem add_result_eq_error {c : ClientId} {oid : OrderId} {side : Side} {p : Price} {q : Qty}
    {f : Fault} (h : (b.add c oid side p q).result = .error f) :
    side.isValid = true ∧ ∃ evs leaves rest filled,
      (Taker.mk b.ticker c oid side p).fillSide (b.levels side.opposite) q =
        (evs, leaves, rest, filled) ∧
      ({ b.withLevels side.opposite rest with
          orderSlots := filled.foldl (fun p o => p.vacate o.slot) b.orderSlots } : Book).insert
            c oid side p leaves = .error f := by
  unfold Book.add at h
  split at h
  · cases h
  rename_i hrej
  simp only at h
  generalize hf : (Taker.mk b.ticker c oid side p).fillSide (b.levels side.opposite) q = r at h
  obtain ⟨evs, leaves, rest, filled⟩ := r
  refine ⟨isValid_of_not_rejects hrej, evs, leaves, rest, filled, rfl, ?_⟩
  simp only at h
  split at h
  · cases h
  · split at h
    · cases h
    · rename_i e he
      cases h
      exact he

/-! ## The bound along a run -/

/-- **A limit order keeps the bound**, one higher when it rests anew. -/
theorem Bounded.add {c : ClientId} {oid : OrderId} {side : Side} {p : Price} {q : Qty}
    (hB : Bounded n b) (h : (b.add c oid side p q).result = .ok b') :
    Bounded (n + (Call.add c oid side p q).rests b b') b' := by
  rcases add_result_eq_ok h with ⟨-, rfl⟩ | ⟨hrej, evs, leaves, rest, filled, hf, hcase⟩
  · exact hB.mono (Nat.le_add_right _ _)
  have hv := isValid_of_not_rejects (by rw [hrej]; decide)
  have hc := hB.cross (Side.isValid_opposite hv) hf
  rcases hcase with ⟨-, rfl⟩ | ⟨o, hins⟩
  · exact hc.mono (Nat.le_add_right _ _)
  · -- what is left rests: its id did not rest before, and rests now
    have hnew : b.contains oid = false := by
      simp only [rejects, Bool.or_eq_false_iff] at hrej
      exact hrej.2
    obtain ⟨hperm, hoid, -⟩ := orders_insert hc.wf hins
    have hnow : b'.contains oid = true :=
      contains_of_mem (List.mem_map.2 ⟨o, hperm.mem_iff.2 List.mem_cons_self, hoid⟩)
    have hrests : (Call.add c oid side p q).rests b b' = 1 := by
      simp [Call.rests, hnew, hnow]
    rw [hrests]
    exact hc.insert hins

/-- **Every call keeps the bound**, raised by the orders it rests anew. -/
theorem Bounded.call (hB : Bounded n b) {c : Call} {r : Reply} (h : (b.call c).result = .ok (r, b')) :
    Bounded (n + c.rests b b') b' := by
  cases c with
  | add c oid side p q =>
    simp only [Book.call] at h
    cases hr : (b.add c oid side p q).result with
    | error f => rw [hr] at h; cases h
    | ok b'' => rw [hr] at h; cases h; exact hB.add hr
  | cancel c oid =>
    simp only [Book.call] at h
    cases h
    rcases cancel_events_eq b c oid with ⟨s, pr, o, hf, -, he, -⟩ | ⟨he, -⟩ <;> rw [he]
    · exact hB.without hf
    · exact hB
  | insert c oid side p q =>
    simp only [Book.call] at h
    cases hr : b.insert c oid side p q with
    | error f => rw [hr] at h; cases h
    | ok ob =>
      rw [hr] at h
      cases h
      have hnew := (insert_eq_ok hr).1
      obtain ⟨hperm, hoid, -⟩ := orders_insert hB.wf hr
      have hnow : ob.2.contains oid = true :=
        contains_of_mem (List.mem_map.2 ⟨ob.1, hperm.mem_iff.2 List.mem_cons_self, hoid⟩)
      have hrests : (Call.insert c oid side p q).rests b ob.2 = 1 := by
        simp [Call.rests, hnew, hnow]
      rw [hrests]
      exact hB.insert hr
  | remove oid =>
    simp only [Book.call] at h
    cases h
    unfold Book.remove
    split
    · rename_i s pr o hf
      exact hB.without hf
    · exact hB

/-- **The priorities of a book are no more than the orders rested in it.** -/
theorem Run.bounded (h : Run n b) : Bounded n b := by
  induction h with
  | create hc => exact bounded_create hc
  | step _ hs ih => exact ih.call hs


/-! ## No placement overflows -/

theorem Bounded.priority_ne (hB : Bounded n b) (hn : n < 2 ^ 64 - 1) :
    ∀ o ∈ b.orders, o.priority ≠ noPriority := by
  intro o ho he
  have hle := hB.priorities o ho
  rw [he] at hle
  exact absurd hle (by show ¬ 2 ^ 64 - 1 ≤ n; omega)

/-- **Placing an order does not overflow** below `2^64 - 1` orders rested. -/
theorem Bounded.insert_ne_overflow {c : ClientId} {oid : OrderId} {side : Side} {p : Price}
    {q : Qty} (hB : Bounded n b) (hn : n < 2 ^ 64 - 1) (op : ArithOp) :
    b.insert c oid side p q ≠ .error (.overflow op) := by
  intro h
  rcases insert_eq_error h with h | h | h | h | ⟨-, o, ho, he⟩
  · cases h
  · cases h
  · cases h
  · cases h
  · exact hB.priority_ne hn o ho he

/-- **A limit order does not overflow** below `2^64 - 1` orders rested: the book it crosses keeps
the bound, and placing what is left does not overflow. -/
theorem Bounded.add_ne_overflow {c : ClientId} {oid : OrderId} {side : Side} {p : Price}
    {q : Qty} (hB : Bounded n b) (hn : n < 2 ^ 64 - 1) (op : ArithOp) :
    (b.add c oid side p q).result ≠ .error (.overflow op) := by
  intro h
  obtain ⟨hv, evs, leaves, rest, filled, hf, hins⟩ := add_result_eq_error h
  exact (hB.cross (Side.isValid_opposite hv) hf).insert_ne_overflow hn op hins

/-! ## The counters of a level -/

/-- **A level's counters fit their words**: it holds fewer orders than its pool has slots, so
fewer than `2^32`, their quantities sum to less than `2^64`, and each is part of that sum. -/
theorem Bounded.level_fits (hB : Bounded n b) {side : Side} {l : Level} (hl : l ∈ b.levels side) :
    l.count < 2 ^ 32 ∧ l.totalQty < 2 ^ 64 ∧ ∀ o ∈ l.orders, o.qty.toNat ≤ l.totalQty := by
  have hsub : l.orders.Sublist (ordersOf (b.levels side)) := List.sublist_flatten_of_mem (List.mem_map_of_mem hl)
  have hperm := orders_perm (b := b) (isValid_of_mem_levels hl)
  have hle : l.count ≤ b.orders.length := by
    rw [hperm.length_eq, List.length_append]
    exact Nat.le_trans hsub.length_le (Nat.le_add_right _ _)
  have hcap := hB.wf.stored.length_le
  rw [List.length_map] at hcap
  have hcount : l.count ≤ 2 ^ 32 - 2 := by
    have := hB.capacity
    simp only [Pool.nullIndex] at this
    omega
  refine ⟨by omega, ?_, fun o ho => by
    rw [Level.totalQty_eq_qtySum]; exact Resting.qty_le_qtySum ho⟩
  calc l.totalQty = Resting.qtySum l.orders := Level.totalQty_eq_qtySum l
    _ ≤ l.count * (2 ^ 32 - 1) := Resting.qtySum_le l.orders
    _ ≤ (2 ^ 32 - 2) * (2 ^ 32 - 1) := Nat.mul_le_mul_right _ hcount
    _ < 2 ^ 64 := by decide

/-! ## The spread -/

/-- **The spread overflows exactly when the best ask lies `2^63` or more above the best bid**:
that difference is not an `Int64`. Nothing else makes it fail. -/
theorem spread_eq_error_iff {f : Fault} :
    b.spread = .error f ↔ f = .overflow .subtract ∧
      ∃ bid ask, b.bestBid = some bid ∧ b.bestAsk = some ask ∧ 2 ^ 63 ≤ ask.toInt - bid.toInt := by
  unfold spread
  cases hb : b.bestBid with
  | none => simp
  | some bid =>
    cases ha : b.bestAsk with
    | none => simp
    | some ask =>
      have hpow : Int.pow 2 63 = 2 ^ 63 := rfl
      simp only [Option.some.injEq, exists_and_left, exists_eq_left', hpow]
      by_cases hlt : bid < ask
      · rw [if_pos hlt]
        split
        · rename_i hd
          simp only [reduceCtorEq, false_iff, not_and]
          intro _
          omega
        · rename_i hd
          simp only [Except.error.injEq]
          constructor
          · rintro rfl
            exact ⟨rfl, by omega⟩
          · rintro ⟨rfl, -⟩
            rfl
      · rw [if_neg hlt]
        simp only [reduceCtorEq, false_iff, not_and]
        intro _ hd
        exact hlt (Int64.lt_iff_toInt_lt.2 (by omega))

theorem spread_eq_ok_some {d : Price} (h : b.spread = .ok (some d)) :
    ∃ bid ask, b.bestBid = some bid ∧ b.bestAsk = some ask ∧ bid < ask ∧
      d.toInt = ask.toInt - bid.toInt := by
  unfold spread at h
  cases hb : b.bestBid with
  | none => rw [hb] at h; cases h
  | some bid =>
    cases ha : b.bestAsk with
    | none => rw [hb, ha] at h; cases h
    | some ask =>
      rw [hb, ha] at h
      simp only at h
      split at h
      · rename_i hlt
        split at h
        · rename_i hd
          cases h
          have hpow : Int.pow 2 63 = 2 ^ 63 := rfl
          rw [hpow] at hd
          have hpos := Int64.lt_iff_toInt_lt.1 hlt
          exact ⟨bid, ask, rfl, rfl, hlt, Int64.toInt_ofInt_of_le (by omega) hd⟩
        · cases h
      · cases h

/-! ## Which orders are admitted -/

/-- **Any price but the sentinel is admitted**: a limit order is rejected only for no quantity or
the sentinel quantity, the invalid side, the sentinel price or id, or an id that rests. -/
theorem rejects_eq_false_iff {oid : OrderId} {side : Side} {p : Price} {q : Qty} :
    b.rejects oid side p q = false ↔ q ≠ 0 ∧ q ≠ noQty ∧ side.isValid = true ∧ p ≠ noPrice ∧
      oid ≠ noOrder ∧ b.contains oid = false := by
  simp [rejects, and_assoc]

/-! ## The arithmetic of a run -/

/-- **Only the spread overflows.** In a book that calls rested fewer than `2^64 - 1` orders in:
each level holds fewer than `2^32` orders with quantities summing to less than `2^64`, each order's
quantity within that sum; no limit order or placement overflows; crossing either side takes off
the taker and the side exactly what it trades; the spread fails exactly when the best ask lies
`2^63` or more above the best bid, with an overflow, and is otherwise the exact difference; and a
limit order at any price but the sentinel is admitted unless its quantity, side or id is not. -/
theorem Run.overflows_only_in_spread (h : Run n b) (hn : n < 2 ^ 64 - 1) :
    (∀ side, ∀ l ∈ b.levels side,
      l.count < 2 ^ 32 ∧ l.totalQty < 2 ^ 64 ∧ ∀ o ∈ l.orders, o.qty.toNat ≤ l.totalQty) ∧
    (∀ c oid side p q op, (b.add c oid side p q).result ≠ .error (.overflow op) ∧
      b.insert c oid side p q ≠ .error (.overflow op)) ∧
    (∀ (t : Taker) side leaves evs left rest filled,
      t.fillSide (b.levels side) leaves = (evs, left, rest, filled) →
      left.toNat + Event.sumOf Event.tradedQty evs = leaves.toNat ∧
        Resting.qtySum (ordersOf rest) + Event.sumOf Event.tradedQty evs =
          Resting.qtySum (ordersOf (b.levels side))) ∧
    (∀ f, b.spread = .error f ↔ f = .overflow .subtract ∧
      ∃ bid ask, b.bestBid = some bid ∧ b.bestAsk = some ask ∧ 2 ^ 63 ≤ ask.toInt - bid.toInt) ∧
    (∀ d, b.spread = .ok (some d) → ∃ bid ask, b.bestBid = some bid ∧ b.bestAsk = some ask ∧
      bid < ask ∧ d.toInt = ask.toInt - bid.toInt) ∧
    (∀ oid side p q, b.rejects oid side p q = false ↔ q ≠ 0 ∧ q ≠ noQty ∧ side.isValid = true ∧
      p ≠ noPrice ∧ oid ≠ noOrder ∧ b.contains oid = false) := by
  have hB := h.bounded
  refine ⟨fun side l hl => hB.level_fits hl, fun c oid side p q op => ?_,
    fun t side leaves evs left rest filled hf => Taker.fillSide_conserves hf,
    fun f => spread_eq_error_iff, fun d hd => spread_eq_ok_some hd,
    fun oid side p q => rejects_eq_false_iff⟩
  exact ⟨hB.add_ne_overflow hn op, hB.insert_ne_overflow hn op⟩

/-- A sell at 0 and a buy at the least price rest together; placing more does not overflow, but
the spread between them is `2^63`, one past the largest price. -/
theorem Run.overflows_only_in_spread_of_two_orders :
    ∃ b, Run 2 b ∧ b.bestBid = some (-9223372036854775808) ∧ b.bestAsk = some 0 ∧
      (∀ c oid side p q, (b.add c oid side p q).result ≠ .error (.overflow .add)) ∧
      b.spread = .error (.overflow .subtract) := by
  have h₀ : Book.create 0 2 2 = .ok ⟨0, [], [], ⟨#[none, none], 0, 0⟩, 2⟩ := rfl
  have h₁ := Run.step (c := .add 1 1 .sell 0 5) (.create h₀) rfl
  have h₂ := Run.step (c := .add 1 2 .buy (-9223372036854775808) 5) h₁ rfl
  obtain ⟨-, hadd, -, hspread, -⟩ := overflows_only_in_spread h₂ (by decide)
  refine ⟨_, h₂, rfl, rfl, fun c oid side p q => (hadd c oid side p q .add).1, ?_⟩
  exact (hspread _).2 ⟨rfl, _, _, rfl, rfl, by decide⟩

/-- The spread of a book with a bid at the least price and an ask at 0 overflows. -/
theorem spread_overflows_across_zero :
    ∃ b₀ b₁ b₂, Book.create 0 2 2 = .ok b₀ ∧ (b₀.add 1 1 .sell 0 5).result = .ok b₁ ∧
      (b₁.add 1 2 .buy (-9223372036854775808) 5).result = .ok b₂ ∧
      b₂.bestBid = some (-9223372036854775808) ∧ b₂.bestAsk = some 0 ∧
      b₂.spread = .error (.overflow .subtract) :=
  ⟨_, _, _, rfl, rfl, rfl, rfl, rfl, rfl⟩

end Book

end Exchange
