import Mathlib.Data.List.Nodup
import Exchange.Book.Matching
import Exchange.Proofs.Pool

/-!
# The book invariant

`Book.WF` is what every book reached from `Book.create` satisfies. A side is well formed
(`SideWF`) when its levels are ranked strictly by price, best first, no level is empty, and each
queue runs in strictly increasing priority. Across the book, order ids are distinct, the order
pool stores exactly the resting orders (`Pool.Holds`, each order's slot holding its id), and the
levels fit the level capacity.

The list representation gives for free what a linked one must maintain: the walk along a side is
finite and acyclic, its back links invert its forward links, a level's count and total are those of
its queue, and an order's side and price are those of the level that holds it.

Each operation has one preservation lemma: `WF.insert`, `WF.without`, `WF.cross`, and from them
`WF.add` and `WF.cancel`. The main statement is `reachable_wf`.
-/

namespace Exchange

/-! ## Ranking prices -/

theorem ranksBefore_trans {side : Side} {p q r : Price} (h1 : ranksBefore side p q = true)
    (h2 : ranksBefore side q r = true) : ranksBefore side p r = true := by
  cases side with
  | buy => simp only [ranksBefore, decide_eq_true_eq] at *; exact Int64.lt_trans h2 h1
  | sell => simp only [ranksBefore, decide_eq_true_eq] at *; exact Int64.lt_trans h1 h2
  | invalid => simp [ranksBefore] at h1

theorem ranksBefore_irrefl (side : Side) (p : Price) : ranksBefore side p p = false := by
  cases side <;> simp [ranksBefore, Int64.lt_irrefl]

theorem ne_of_ranksBefore {side : Side} {p q : Price} (h : ranksBefore side p q = true) : p ≠ q := by
  rintro rfl; rw [ranksBefore_irrefl] at h; cases h

theorem ranksBefore_total {side : Side} (hv : side.isValid = true) {p q : Price} (hne : p ≠ q) :
    ranksBefore side p q = true ∨ ranksBefore side q p = true := by
  cases side with
  | buy => simpa [ranksBefore, or_comm] using Int64.lt_or_lt_of_ne hne
  | sell => simpa [ranksBefore] using Int64.lt_or_lt_of_ne hne
  | invalid => cases hv

theorem Side.opposite_ne {side : Side} (hv : side.isValid = true) : side.opposite ≠ side := by
  cases side <;> simp_all [Side.opposite, Side.isValid]

theorem Side.isValid_opposite {side : Side} (hv : side.isValid = true) :
    side.opposite.isValid = true := by
  cases side <;> simp_all [Side.opposite, Side.isValid]

/-! ## The orders of a side -/

namespace Level

/-- The orders of a list of levels, level by level. -/
def ordersOf (ls : List Level) : List Resting := ls.flatMap (·.orders)

@[simp] theorem ordersOf_nil : ordersOf [] = [] := rfl

@[simp] theorem ordersOf_cons (l : Level) (ls : List Level) :
    ordersOf (l :: ls) = l.orders ++ ordersOf ls := rfl

@[simp] theorem ordersOf_append (ls ls' : List Level) :
    ordersOf (ls ++ ls') = ordersOf ls ++ ordersOf ls' := by
  simp [ordersOf, List.flatMap_append]

theorem mem_ordersOf {o : Resting} {ls : List Level} : o ∈ ordersOf ls ↔ ∃ l ∈ ls, o ∈ l.orders := by
  simp [ordersOf]

end Level

/-- What identifies a resting order in the order pool: its id and its slot. -/
def Resting.handle (o : Resting) : OrderId × Nat := (o.orderId, o.slot)

/-- An order with its quantity forgotten: what a partial fill leaves unchanged. -/
def Resting.eraseQty (o : Resting) : Resting := { o with qty := 0 }

@[simp] theorem Resting.handle_eraseQty (o : Resting) : o.eraseQty.handle = o.handle := rfl

@[simp] theorem Resting.orderId_eraseQty (o : Resting) : o.eraseQty.orderId = o.orderId := rfl

@[simp] theorem Resting.priority_eraseQty (o : Resting) : o.eraseQty.priority = o.priority := rfl

namespace Book

open Level

/-- Every resting order: the bids' orders, best level first, then the asks'. -/
def orders (b : Book) : List Resting := ordersOf b.bids ++ ordersOf b.asks

variable {b : Book} {side side' : Side} {ls : List Level}

@[simp] theorem levels_invalid (b : Book) : b.levels .invalid = [] := rfl

theorem levels_withLevels_self (hv : side.isValid = true) : (b.withLevels side ls).levels side = ls := by
  cases side <;> first | rfl | cases hv

theorem levels_withLevels_of_ne (h : side' ≠ side) :
    (b.withLevels side ls).levels side' = b.levels side' := by
  cases side <;> cases side' <;> first | rfl | exact absurd rfl h

theorem levels_withLevels (hv : side.isValid = true) (side' : Side) :
    (b.withLevels side ls).levels side' = if side' = side then ls else b.levels side' := by
  split
  · rename_i he; subst he; exact levels_withLevels_self hv
  · rename_i hne; exact levels_withLevels_of_ne hne

@[simp] theorem ticker_withLevels : (b.withLevels side ls).ticker = b.ticker := by
  cases side <;> rfl

@[simp] theorem orderSlots_withLevels : (b.withLevels side ls).orderSlots = b.orderSlots := by
  cases side <;> rfl

@[simp] theorem levelCapacity_withLevels :
    (b.withLevels side ls).levelCapacity = b.levelCapacity := by
  cases side <;> rfl

theorem orders_perm (hv : side.isValid = true) :
    b.orders.Perm (ordersOf (b.levels side) ++ ordersOf (b.levels side.opposite)) := by
  cases side with
  | buy => exact List.Perm.refl _
  | sell => exact List.perm_append_comm
  | invalid => cases hv

theorem levelCount_eq (hv : side.isValid = true) :
    b.levelCount = (b.levels side).length + (b.levels side.opposite).length := by
  cases side with
  | buy => rfl
  | sell => exact Nat.add_comm _ _
  | invalid => cases hv

end Book

/-! ## Well-formed sides -/

/-- One side's levels: ranked strictly by price, best first, none empty, each queue in strictly
increasing priority. -/
structure SideWF (side : Side) (ls : List Level) : Prop where
  ranked : (ls.map (·.price)).Pairwise fun p q => ranksBefore side p q = true
  nonempty : ∀ l ∈ ls, l.orders ≠ []
  queued : ∀ l ∈ ls, (l.orders.map (·.priority)).Pairwise (· < ·)

theorem sideWF_nil (side : Side) : SideWF side [] := ⟨.nil, by simp, by simp⟩

theorem price_ne_of_ranked {side : Side} : ∀ {ls : List Level},
    (ls.map (·.price)).Pairwise (fun p q => ranksBefore side p q = true) →
    ∀ {l m : Level}, l ∈ ls → m ∈ ls → l ≠ m → l.price ≠ m.price
  | [], _, _, _, hl, _, _ => by cases hl
  | x :: xs, hr, l, m, hl, hm, hne => by
    rw [List.map_cons, List.pairwise_cons] at hr
    rcases List.mem_cons.1 hl with rfl | hl' <;> rcases List.mem_cons.1 hm with rfl | hm'
    · exact absurd rfl hne
    · exact ne_of_ranksBefore (hr.1 _ (List.mem_map_of_mem hm'))
    · exact (ne_of_ranksBefore (hr.1 _ (List.mem_map_of_mem hl'))).symm
    · exact price_ne_of_ranked hr.2 hl' hm' hne

/-! ## Placing an order -/

namespace Book

open Level

variable {side : Side} {p : Price} {o : Resting} {ls : List Level}

theorem placeLevel_perm (side : Side) (l : Level) :
    ∀ ls : List Level, (placeLevel side l ls).Perm (l :: ls)
  | [] => List.Perm.refl _
  | m :: ms => by
    unfold placeLevel
    split
    · exact List.Perm.refl _
    · exact ((placeLevel_perm side l ms).cons m).trans (List.Perm.swap l m ms)

theorem ranked_placeLevel (hv : side.isValid = true) (l : Level) : ∀ ls : List Level,
    (ls.map (·.price)).Pairwise (fun p q => ranksBefore side p q = true) →
    (∀ m ∈ ls, m.price ≠ l.price) →
    ((placeLevel side l ls).map (·.price)).Pairwise (fun p q => ranksBefore side p q = true)
  | [], _, _ => by simp [placeLevel]
  | m :: ms, hr, hne => by
    rw [List.map_cons, List.pairwise_cons] at hr
    unfold placeLevel
    split
    · rename_i hlm
      rw [List.map_cons, List.pairwise_cons, List.map_cons]
      refine ⟨?_, List.pairwise_cons.2 hr⟩
      intro q hq
      rcases List.mem_cons.1 hq with rfl | hq
      · exact hlm
      · exact ranksBefore_trans hlm (hr.1 q hq)
    · rename_i hlm
      rw [List.map_cons, List.pairwise_cons]
      refine ⟨?_, ranked_placeLevel hv l ms hr.2 fun m' hm' => hne m' (List.mem_cons_of_mem _ hm')⟩
      intro q hq
      obtain ⟨x, hx, rfl⟩ := List.mem_map.1 hq
      rcases List.mem_cons.1 ((placeLevel_perm side l ms).mem_iff.1 hx) with rfl | hx
      · exact (ranksBefore_total hv (hne m List.mem_cons_self)).resolve_right hlm
      · exact hr.1 _ (List.mem_map_of_mem hx)

@[simp] theorem appendAt_nil : appendAt p o [] = [] := rfl

theorem appendAt_cons (l : Level) (ls : List Level) :
    appendAt p o (l :: ls) =
      (if l.price = p then { l with orders := l.orders ++ [o] } else l) :: appendAt p o ls := rfl

theorem map_price_appendAt (p : Price) (o : Resting) :
    ∀ ls : List Level, (appendAt p o ls).map (·.price) = ls.map (·.price)
  | [] => rfl
  | l :: ls => by
    rw [appendAt_cons, List.map_cons, List.map_cons, map_price_appendAt p o ls]
    split <;> rfl

theorem appendAt_of_forall_ne : ∀ {ls : List Level}, (∀ l ∈ ls, l.price ≠ p) → appendAt p o ls = ls
  | [], _ => rfl
  | l :: ls, h => by
    rw [appendAt_cons, if_neg (h l List.mem_cons_self),
      appendAt_of_forall_ne fun m hm => h m (List.mem_cons_of_mem _ hm)]

theorem ordersOf_appendAt : ∀ {ls : List Level},
    (ls.map (·.price)).Pairwise (fun p q => ranksBefore side p q = true) →
    (∃ l ∈ ls, l.price = p) → (ordersOf (appendAt p o ls)).Perm (o :: ordersOf ls)
  | [], _, ⟨_, hl, _⟩ => by cases hl
  | m :: ms, hr, ⟨l, hl, hp⟩ => by
    rw [List.map_cons, List.pairwise_cons] at hr
    rw [appendAt_cons]
    by_cases hm : m.price = p
    · have hrest : ∀ x ∈ ms, x.price ≠ p := fun x hx =>
        hm ▸ (ne_of_ranksBefore (hr.1 _ (List.mem_map_of_mem hx))).symm
      rw [if_pos hm, ordersOf_cons, ordersOf_cons, appendAt_of_forall_ne hrest, List.append_assoc]
      exact List.perm_middle
    · have hl' : l ∈ ms := by
        rcases List.mem_cons.1 hl with rfl | hl
        · exact absurd hp hm
        · exact hl
      rw [if_neg hm, ordersOf_cons, ordersOf_cons]
      exact ((ordersOf_appendAt hr.2 ⟨l, hl', hp⟩).append_left m.orders).trans List.perm_middle

theorem mem_appendAt {l' : Level} (h : l' ∈ appendAt p o ls) :
    ∃ l ∈ ls, (l.price = p ∧ l' = { l with orders := l.orders ++ [o] }) ∨ (l.price ≠ p ∧ l' = l) := by
  unfold appendAt at h
  obtain ⟨l, hl, rfl⟩ := List.mem_map.1 h
  by_cases hp : l.price = p
  · exact ⟨l, hl, .inl ⟨hp, by simp [hp]⟩⟩
  · exact ⟨l, hl, .inr ⟨hp, by simp [hp]⟩⟩

theorem ordersOf_placeLevel_nil (side : Side) (p : Price) (ls : List Level) :
    (ordersOf (placeLevel side { price := p, orders := [] } ls)).Perm (ordersOf ls) := by
  have := (placeLevel_perm side { price := p, orders := [] } ls).flatMap_right (·.orders)
  simpa [ordersOf] using this

end Book

theorem Level.lt_nextPriority {l : Level} {q : Priority}
    (hq : (l.orders.map (·.priority)).Pairwise (· < ·)) (h : l.nextPriority = .ok q) :
    ∀ x ∈ l.orders, x.priority < q := by
  unfold Level.nextPriority at h
  split at h
  · rename_i he; simp [List.getLast?_eq_none_iff.1 he]
  · rename_i last he
    split at h
    · cases h
    · rename_i hmax
      cases h
      obtain ⟨init, hinit⟩ := List.getLast?_eq_some_iff.1 he
      rw [hinit, List.map_append, List.pairwise_append] at hq
      have hy : last.priority.toNat ≠ 18446744073709551615 := fun e =>
        hmax (UInt64.toNat_inj.1 (by rw [e]; rfl))
      have hlt := UInt64.toNat_lt last.priority
      intro x hx
      rw [hinit] at hx
      have hle : x.priority.toNat ≤ last.priority.toNat := by
        rcases List.mem_append.1 hx with hx | hx
        · exact Nat.le_of_lt (UInt64.lt_iff_toNat_lt.1
            (hq.2.2 _ (List.mem_map_of_mem hx) _ List.mem_cons_self))
        · exact Nat.le_of_eq (by rw [List.mem_singleton.1 hx])
      rw [UInt64.lt_iff_toNat_lt, UInt64.toNat_add, UInt64.toNat_one, Nat.mod_eq_of_lt (by omega)]
      omega

/-! ## Finding an order -/

namespace Book

open Level

variable {b b' : Book} {side : Side} {p : Price} {o : Resting} {oid : OrderId}

@[simp] theorem levels_setOrderSlots (s : Pool OrderId) (side : Side) :
    ({ b with orderSlots := s } : Book).levels side = b.levels side := by
  cases side <;> rfl

@[simp] theorem orders_setOrderSlots (s : Pool OrderId) :
    ({ b with orderSlots := s } : Book).orders = b.orders := rfl

theorem find?_eq_none_iff : b.find? oid = none ↔ ∀ o ∈ b.orders, o.orderId ≠ oid := by
  simp only [find?, Option.or_eq_none_iff, List.findSome?_eq_none_iff, Option.map_eq_none_iff,
    List.find?_eq_none, beq_iff_eq, orders, List.mem_append, mem_ordersOf]
  constructor
  · rintro ⟨hb, ha⟩ o (⟨l, hl, ho⟩ | ⟨l, hl, ho⟩)
    · exact hb l hl o ho
    · exact ha l hl o ho
  · intro h
    exact ⟨fun l hl o ho => h o (.inl ⟨l, hl, ho⟩), fun l hl o ho => h o (.inr ⟨l, hl, ho⟩)⟩

theorem contains_eq_false_iff : b.contains oid = false ↔ oid ∉ b.orders.map (·.orderId) := by
  simp only [contains, Option.isSome_eq_false_iff, Option.isNone_iff_eq_none, find?_eq_none_iff,
    List.mem_map, not_exists, not_and]

theorem find?_eq_some (h : b.find? oid = some (side, p, o)) :
    side.isValid = true ∧ o.orderId = oid ∧ ∃ l ∈ b.levels side, l.price = p ∧ o ∈ l.orders := by
  have onSide : ∀ s, ((b.levels s).findSome? fun l =>
      (l.orders.find? (·.orderId == oid)).map fun o => (s, l.price, o)) = some (side, p, o) →
      side = s ∧ o.orderId = oid ∧ ∃ l ∈ b.levels s, l.price = p ∧ o ∈ l.orders := by
    intro s hs
    obtain ⟨l, hl, hf⟩ := List.exists_of_findSome?_eq_some hs
    obtain ⟨o', ho', he⟩ := Option.map_eq_some_iff.1 hf
    cases he
    exact ⟨rfl, by simpa using List.find?_some ho', l, hl, rfl, List.mem_of_find?_eq_some ho'⟩
  simp only [find?, Option.or_eq_some_iff] at h
  rcases h with h | ⟨-, h⟩
  · obtain ⟨rfl, hid, hl⟩ := onSide .buy h
    exact ⟨rfl, hid, hl⟩
  · obtain ⟨rfl, hid, hl⟩ := onSide .sell h
    exact ⟨rfl, hid, hl⟩

theorem insert_eq_ok {c : ClientId} {q : Qty} (h : b.insert c oid side p q = .ok (o, b')) :
    b.contains oid = false ∧ side.isValid = true ∧
    ∃ level ls₁ pool',
      ((b.levels side).find? (·.price == p) = some level ∧ ls₁ = b.levels side ∨
       (b.levels side).find? (·.price == p) = none ∧ b.levelCount < b.levelCapacity ∧
         level = { price := p, orders := [] } ∧ ls₁ = placeLevel side level (b.levels side)) ∧
      level.nextPriority = .ok o.priority ∧
      b.orderSlots.tryAllocate oid = some (o.slot, pool') ∧
      o.orderId = oid ∧ o.clientId = c ∧ o.qty = q ∧
      b' = { b.withLevels side (appendAt p o ls₁) with orderSlots := pool' } := by
  unfold Book.insert at h
  cases hc : b.contains oid <;> cases hv : side.isValid <;>
    simp only [hc, hv, if_true, if_false, Bool.not_true, Bool.not_false, Bool.false_eq_true] at h
  all_goals try (cases h)
  refine ⟨rfl, rfl, ?_⟩
  simp only [bind, Except.bind, pure, Except.pure, throw, throwThe, MonadExceptOf.throw] at h
  split at h
  · rename_i level hf
    split at h
    · cases h
    · rename_i pr hpr
      split at h
      · cases h
      · rename_i r ha
        obtain ⟨slot, pool'⟩ := r
        cases h
        exact ⟨level, _, pool', .inl ⟨hf, rfl⟩, hpr, Pool.allocate_eq_ok.1 ha, rfl, rfl, rfl, rfl⟩
  · split at h
    · cases h
    · rename_i hf hcap
      split at h
      · cases h
      · rename_i pr hpr
        split at h
        · cases h
        · rename_i r ha
          obtain ⟨slot, pool'⟩ := r
          cases h
          exact ⟨_, _, pool', .inr ⟨hf, by omega, rfl, rfl⟩, hpr, Pool.allocate_eq_ok.1 ha, rfl, rfl,
            rfl, rfl⟩

end Book

/-! ## The invariant, and placing an order keeps it -/

namespace Book

open Level

variable {b b' : Book} {side : Side} {p : Price} {o : Resting} {oid : OrderId}

/-- What every book reached from `create` satisfies. -/
structure WF (b : Book) : Prop where
  sides : ∀ side, SideWF side (b.levels side)
  ids : (b.orders.map (·.orderId)).Nodup
  stored : b.orderSlots.Holds (b.orders.map Resting.handle)
  levels_le : b.levelCount ≤ b.levelCapacity

theorem wf_create {t : TickerId} {maxOrders maxLevels : Nat}
    (h : Book.create t maxOrders maxLevels = .ok b) : b.WF := by
  simp only [Book.create, bind, Except.bind, pure, Except.pure] at h
  split at h
  · cases h
  · rename_i pool hp
    split at h
    · cases h
    · cases h
      refine ⟨fun side => ?_, by simp [orders], Pool.holds_create hp, by simp [levelCount]⟩
      cases side <;> exact sideWF_nil _

theorem levelFor {level : Level} {ls₁ : List Level} (hv : side.isValid = true)
    (hw : SideWF side (b.levels side))
    (hls : (b.levels side).find? (·.price == p) = some level ∧ ls₁ = b.levels side ∨
      (b.levels side).find? (·.price == p) = none ∧ level = { price := p, orders := [] } ∧
        ls₁ = placeLevel side level (b.levels side)) :
    level ∈ ls₁ ∧ level.price = p ∧
    (ls₁.map (·.price)).Pairwise (fun p q => ranksBefore side p q = true) ∧
    (ordersOf ls₁).Perm (ordersOf (b.levels side)) ∧ (∀ m ∈ ls₁, m ≠ level → m ∈ b.levels side) ∧
    (level.orders.map (·.priority)).Pairwise (· < ·) ∧
    ls₁.length ≤ (b.levels side).length + 1 ∧ (ls₁.length = (b.levels side).length + 1 →
      (b.levels side).find? (·.price == p) = none) := by
  rcases hls with ⟨hf, rfl⟩ | ⟨hf, rfl, rfl⟩
  · have hl := List.mem_of_find?_eq_some hf
    exact ⟨hl, by simpa using List.find?_some hf, hw.ranked, List.Perm.refl _, fun m hm _ => hm,
      hw.queued _ hl, by omega, by omega⟩
  · have hne : ∀ m ∈ b.levels side, m.price ≠ p := fun m hm => by
      simpa using List.find?_eq_none.1 hf m hm
    have hperm := placeLevel_perm side { price := p, orders := [] } (b.levels side)
    refine ⟨hperm.mem_iff.2 List.mem_cons_self, rfl, ranked_placeLevel hv _ _ hw.ranked hne,
      ordersOf_placeLevel_nil side p _, ?_, by simp, by simp [hperm.length_eq],
      fun _ => hf⟩
    intro m hm hml
    exact (List.mem_cons.1 (hperm.mem_iff.1 hm)).resolve_left hml

theorem orders_withLevels_appendAt {level : Level} {ls₁ : List Level} (hv : side.isValid = true)
    (hr : (ls₁.map (·.price)).Pairwise (fun p q => ranksBefore side p q = true))
    (hl : level ∈ ls₁) (hlp : level.price = p) (hperm : (ordersOf ls₁).Perm (ordersOf (b.levels side))) :
    (b.withLevels side (appendAt p o ls₁)).orders.Perm (o :: b.orders) := by
  refine (orders_perm hv).trans ?_
  simp only [levels_withLevels_self hv, levels_withLevels_of_ne (Side.opposite_ne hv)]
  refine (((ordersOf_appendAt hr ⟨level, hl, hlp⟩).trans (hperm.cons o)).append_right _).trans ?_
  exact ((orders_perm hv).cons o).symm

theorem levelCount_withLevels_appendAt {ls₁ : List Level} (hv : side.isValid = true) :
    (b.withLevels side (appendAt p o ls₁)).levelCount = ls₁.length + (b.levels side.opposite).length := by
  rw [levelCount_eq hv]
  simp only [levels_withLevels_self hv, levels_withLevels_of_ne (Side.opposite_ne hv)]
  rw [← List.length_map (f := (·.price)), map_price_appendAt, List.length_map]

/-- **Placing an order keeps the invariant.** -/
theorem WF.insert {c : ClientId} {q : Qty} (hw : b.WF) (h : b.insert c oid side p q = .ok (o, b')) :
    b'.WF := by
  obtain ⟨hc, hv, level, ls₁, pool', hls, hpr, ha, hoid, -, -, rfl⟩ := insert_eq_ok h
  obtain ⟨hl, hlp, hr, hperm, hold, hq, hlen, hnew⟩ :=
    levelFor hv (hw.sides side) (hls.imp id fun ⟨hf, _, hlv, hl₁⟩ => ⟨hf, hlv, hl₁⟩)
  have hside : SideWF side (appendAt p o ls₁) := by
    refine ⟨by rw [map_price_appendAt]; exact hr, ?_, ?_⟩ <;> intro l' hl' <;>
      obtain ⟨l, hl1, ⟨hp, rfl⟩ | ⟨hp, rfl⟩⟩ := mem_appendAt hl'
    · simp
    · exact (hw.sides side).nonempty l' (hold l' hl1 fun e => hp (e ▸ hlp))
    · have : l = level := Classical.byContradiction fun hne =>
        price_ne_of_ranked hr hl1 hl hne (hp.trans hlp.symm)
      subst this
      rw [List.map_append, List.pairwise_append]
      exact ⟨hq, by simp, fun a ha b hb => by
        obtain ⟨x, hx, rfl⟩ := List.mem_map.1 ha
        rw [List.mem_singleton.1 hb]
        exact Level.lt_nextPriority hq hpr x hx⟩
    · exact (hw.sides side).queued l' (hold l' hl1 fun e => hp (e ▸ hlp))
  have horders : (({ b.withLevels side (appendAt p o ls₁) with orderSlots := pool' } : Book).orders).Perm
      (o :: b.orders) := orders_withLevels_appendAt hv hr hl hlp hperm
  have hfresh := contains_eq_false_iff.1 hc
  refine ⟨fun side' => ?_, ?_, ?_, ?_⟩
  · rw [levels_setOrderSlots]
    by_cases hs : side' = side
    · subst hs; rw [levels_withLevels_self hv]; exact hside
    · rw [levels_withLevels_of_ne hs]; exact hw.sides side'
  · refine ((horders.map _).nodup_iff).2 ?_
    rw [List.map_cons, List.nodup_cons, hoid]
    exact ⟨hfresh, hw.ids⟩
  · refine (Pool.Holds.tryAllocate hw.stored ha).perm ?_
    refine List.Perm.trans ?_ (horders.map Resting.handle).symm
    rw [List.map_cons, Resting.handle, hoid]
  · have hcount : ({ b.withLevels side (appendAt p o ls₁) with orderSlots := pool' } : Book).levelCount
        = ls₁.length + (b.levels side.opposite).length := levelCount_withLevels_appendAt hv
    have h0 := levelCount_eq (b := b) hv
    have h1 := hw.levels_le
    rw [hcount]
    simp only [levelCapacity_withLevels]
    rcases Nat.lt_or_eq_of_le hlen with hlt | heq
    · omega
    · -- a new level was placed, which the capacity check allowed
      rcases hls with ⟨hf, -⟩ | ⟨-, hcap, -, -⟩
      · rw [hnew heq] at hf; cases hf
      · omega

end Book

/-! ## Taking an order out -/

theorem perm_cons_filter_orderId : ∀ {os : List Resting} {o : Resting},
    (os.map (·.orderId)).Nodup → o ∈ os → os.Perm (o :: os.filter (·.orderId != o.orderId))
  | [], _, _, ho => by cases ho
  | x :: xs, o, hnd, ho => by
    rw [List.map_cons, List.nodup_cons] at hnd
    rcases List.mem_cons.1 ho with rfl | ho
    · have : xs.filter (·.orderId != o.orderId) = xs := List.filter_eq_self.2 fun y hy => by
        simp only [bne_iff_ne, ne_eq]
        intro e
        exact hnd.1 (e ▸ List.mem_map_of_mem hy)
      simp [this]
    · have hne : x.orderId ≠ o.orderId := fun e => hnd.1 (e ▸ List.mem_map_of_mem ho)
      rw [List.filter_cons, if_pos (by simpa using hne)]
      exact ((perm_cons_filter_orderId hnd.2 ho).cons x).trans (List.Perm.swap o x _)

namespace Book

open Level

variable {b b' : Book} {side : Side} {p : Price} {o : Resting} {oid : OrderId}

theorem dropFrom_cons (l : Level) (ls : List Level) :
    dropFrom p oid (l :: ls) =
      if l.price = p then
        (if (l.orders.filter (·.orderId != oid)).isEmpty then ls
         else { l with orders := l.orders.filter (·.orderId != oid) } :: ls)
      else l :: dropFrom p oid ls := rfl

theorem map_price_dropFrom_sublist (p : Price) (oid : OrderId) :
    ∀ ls : List Level, ((dropFrom p oid ls).map (·.price)).Sublist (ls.map (·.price))
  | [] => List.Sublist.refl _
  | l :: ls => by
    rw [dropFrom_cons]
    split
    · split
      · exact List.sublist_cons_self _ _
      · rename_i hp _; simp
    · exact (map_price_dropFrom_sublist p oid ls).cons_cons _

theorem mem_dropFrom {l' : Level} : ∀ {ls : List Level}, l' ∈ dropFrom p oid ls →
    l' ∈ ls ∨ ∃ l ∈ ls, l' = { l with orders := l.orders.filter (·.orderId != oid) } ∧ l'.orders ≠ []
  | [], h => by cases h
  | l :: ls, h => by
    rw [dropFrom_cons] at h
    split at h
    · split at h
      · exact .inl (List.mem_cons_of_mem _ h)
      · rename_i hne
        rcases List.mem_cons.1 h with rfl | h
        · exact .inr ⟨l, List.mem_cons_self, rfl, by simpa using hne⟩
        · exact .inl (List.mem_cons_of_mem _ h)
    · rcases List.mem_cons.1 h with rfl | h
      · exact .inl List.mem_cons_self
      · rcases mem_dropFrom h with h | ⟨m, hm, he⟩
        · exact .inl (List.mem_cons_of_mem _ h)
        · exact .inr ⟨m, List.mem_cons_of_mem _ hm, he⟩

theorem ordersOf_dropFrom : ∀ {ls : List Level},
    (ls.map (·.price)).Pairwise (fun p q => ranksBefore side p q = true) →
    ((ordersOf ls).map (·.orderId)).Nodup → (∃ l ∈ ls, l.price = p ∧ o ∈ l.orders) →
    (ordersOf ls).Perm (o :: ordersOf (dropFrom p o.orderId ls))
  | [], _, _, ⟨_, hl, _⟩ => by cases hl
  | l :: ls, hr, hnd, ⟨m, hm, hmp, ho⟩ => by
    rw [List.map_cons, List.pairwise_cons] at hr
    rw [ordersOf_cons, List.map_append, List.nodup_append] at hnd
    rw [dropFrom_cons, ordersOf_cons]
    by_cases hp : l.price = p
    · have hml : m = l := by
        rcases List.mem_cons.1 hm with rfl | hm
        · rfl
        · exact absurd (hp.trans hmp.symm) (ne_of_ranksBefore (hr.1 _ (List.mem_map_of_mem hm)))
      subst hml
      rw [if_pos hp]
      have hperm := (perm_cons_filter_orderId hnd.1 ho).append_right (ordersOf ls)
      split
      · rename_i he
        rw [List.isEmpty_iff.1 he] at hperm
        exact hperm
      · exact hperm
    · have hm' : m ∈ ls := by
        rcases List.mem_cons.1 hm with rfl | hm
        · exact absurd hmp hp
        · exact hm
      rw [if_neg hp, ordersOf_cons]
      exact ((ordersOf_dropFrom hr.2 hnd.2.1 ⟨m, hm', hmp, ho⟩).append_left l.orders).trans
        List.perm_middle

theorem levels_without (hv : side.isValid = true) (side' : Side) :
    (b.without side p o).levels side' =
      if side' = side then dropFrom p o.orderId (b.levels side) else b.levels side' := by
  unfold without
  rw [levels_setOrderSlots, levels_withLevels hv]

/-- **Taking a resting order out keeps the invariant**, and removes exactly that order. -/
theorem WF.without (hw : b.WF) (hf : b.find? oid = some (side, p, o)) :
    (b.without side p o).WF ∧ b.orders.Perm (o :: (b.without side p o).orders) := by
  obtain ⟨hv, hoid, l, hl, hlp, ho⟩ := find?_eq_some hf
  subst hoid
  have hsw := hw.sides side
  have hnd : ((ordersOf (b.levels side)).map (·.orderId)).Nodup := by
    have := ((orders_perm hv).map (·.orderId)).nodup_iff.1 hw.ids
    rw [List.map_append] at this
    exact this.sublist (List.sublist_append_left _ _)
  have horders : b.orders.Perm (o :: (b.without side p o).orders) := by
    refine (orders_perm hv).trans ?_
    refine (((ordersOf_dropFrom hsw.ranked hnd ⟨l, hl, hlp, ho⟩).append_right _)).trans ?_
    refine List.Perm.trans ?_ ((orders_perm (b := b.without side p o) hv).cons o).symm
    rw [levels_without hv, levels_without hv, if_pos rfl, if_neg (Side.opposite_ne hv)]
    exact List.Perm.refl _
  refine ⟨⟨fun side' => ?_, ?_, ?_, ?_⟩, horders⟩
  · rw [levels_without hv]
    split
    · rename_i he; subst he
      refine ⟨hsw.ranked.sublist (map_price_dropFrom_sublist _ _ _), ?_, ?_⟩ <;> intro l' hl' <;>
        rcases mem_dropFrom hl' with hl' | ⟨m, hm, rfl, hne⟩
      · exact hsw.nonempty l' hl'
      · exact hne
      · exact hsw.queued l' hl'
      · exact (hsw.queued m hm).sublist ((List.filter_sublist).map _)
    · exact hw.sides side'
  · have := (horders.map (·.orderId)).nodup_iff.1 hw.ids
    rw [List.map_cons, List.nodup_cons] at this
    exact this.2
  · have := (hw.stored.perm (horders.map Resting.handle))
    rw [List.map_cons] at this
    exact this.vacate
  · have h0 := levelCount_eq (b := b.without side p o) hv
    have h1 := levelCount_eq (b := b) hv
    have h2 := (map_price_dropFrom_sublist p o.orderId (b.levels side)).length_le
    rw [levels_without hv, levels_without hv, if_pos rfl, if_neg (Side.opposite_ne hv)] at h0
    simp only [List.length_map] at h2
    have h3 := hw.levels_le
    simp only [without, levelCapacity_withLevels] at h0 ⊢
    omega

theorem WF.remove (hw : b.WF) (oid : OrderId) : (b.remove oid).2.WF := by
  unfold Book.remove
  split
  · rename_i side p o hf; exact (hw.without hf).1
  · exact hw

theorem WF.cancel (hw : b.WF) (c : ClientId) (oid : OrderId) : (b.cancel c oid).2.WF := by
  unfold Book.cancel
  split
  · rename_i side p o hf
    split
    · exact (hw.without hf).1
    · exact hw
  · exact hw

end Book

/-! ## Crossing the book -/

namespace Taker

open Level

variable {t : Taker} {price : Price} {leaves left : Qty} {evs : List Event}

theorem fillLevel_split : ∀ {os rest filled : List Resting} {leaves left : Qty} {evs : List Event},
    t.fillLevel price os leaves = (evs, left, rest, filled) →
    os.map Resting.eraseQty = filled.map Resting.eraseQty ++ rest.map Resting.eraseQty
  | [], rest, filled, leaves, left, evs, h => by
    simp only [fillLevel, Prod.mk.injEq] at h
    obtain ⟨-, -, rfl, rfl⟩ := h
    rfl
  | o :: os, rest, filled, leaves, left, evs, h => by
    simp only [fillLevel] at h
    split at h
    · simp only [Prod.mk.injEq] at h
      obtain ⟨-, -, rfl, rfl⟩ := h
      rfl
    · split at h
      · generalize hr : t.fillLevel price os (leaves - min leaves o.qty) = r at h
        obtain ⟨more, leaves', rest', filled'⟩ := r
        simp only [Prod.mk.injEq] at h
        obtain ⟨-, -, rfl, rfl⟩ := h
        rw [List.map_cons, List.map_cons, fillLevel_split hr, List.cons_append]
      · simp only [Prod.mk.injEq] at h
        obtain ⟨-, -, rfl, rfl⟩ := h
        rfl

theorem fillSide_split : ∀ {ls rest : List Level} {filled : List Resting} {leaves left : Qty}
    {evs : List Event}, t.fillSide ls leaves = (evs, left, rest, filled) →
    (ordersOf ls).map Resting.eraseQty =
      filled.map Resting.eraseQty ++ (ordersOf rest).map Resting.eraseQty ∧
    (rest.map (·.price)).IsSuffix (ls.map (·.price)) ∧
    ∀ l' ∈ rest, l' ∈ ls ∨ ∃ l ∈ ls, l'.price = l.price ∧ l'.orders ≠ [] ∧
      (l'.orders.map Resting.eraseQty).IsSuffix (l.orders.map Resting.eraseQty)
  | [], rest, filled, leaves, left, evs, h => by
    simp only [fillSide, Prod.mk.injEq] at h
    obtain ⟨-, -, rfl, rfl⟩ := h
    exact ⟨rfl, List.suffix_refl _, by simp⟩
  | l :: ls, rest, filled, leaves, left, evs, h => by
    simp only [fillSide] at h
    split at h
    · simp only [Prod.mk.injEq] at h
      obtain ⟨-, -, rfl, rfl⟩ := h
      exact ⟨rfl, List.suffix_refl _, fun l' hl' => .inl hl'⟩
    · generalize hr : t.fillLevel l.price l.orders leaves = r at h
      obtain ⟨evs₁, left₁, rest₁, filled₁⟩ := r
      have hsplit := fillLevel_split hr
      split at h
      · rename_i hnil
        simp only at hnil
        generalize hr' : t.fillSide ls left₁ = r' at h
        obtain ⟨more, leaves', ls', filled'⟩ := r'
        simp only [Prod.mk.injEq] at h
        obtain ⟨-, -, rfl, rfl⟩ := h
        obtain ⟨h1, h2, h3⟩ := fillSide_split hr'
        refine ⟨?_, h2.trans (List.suffix_cons _ _), fun l' hl' => ?_⟩
        · rw [ordersOf_cons, List.map_append, hsplit, h1, hnil]
          simp
        · rcases h3 l' hl' with h | ⟨m, hm, hmp⟩
          · exact .inl (List.mem_cons_of_mem _ h)
          · exact .inr ⟨m, List.mem_cons_of_mem _ hm, hmp⟩
      · rename_i hne
        simp only [Prod.mk.injEq] at h
        obtain ⟨-, -, rfl, rfl⟩ := h
        refine ⟨?_, ?_, fun l' hl' => ?_⟩
        · rw [ordersOf_cons, ordersOf_cons, List.map_append, List.map_append, hsplit,
            List.append_assoc]
        · simp
        · rcases List.mem_cons.1 hl' with rfl | hl'
          · refine .inr ⟨l, List.mem_cons_self, rfl, hne, ?_⟩
            rw [hsplit]
            exact List.suffix_append _ _
          · exact .inl (List.mem_cons_of_mem _ hl')

theorem sideWF_fillSide {side : Side} {ls rest : List Level} {filled : List Resting}
    (hw : SideWF side ls) (h : t.fillSide ls leaves = (evs, left, rest, filled)) :
    SideWF side rest := by
  obtain ⟨-, hsuf, hmem⟩ := fillSide_split h
  refine ⟨hw.ranked.sublist hsuf.sublist, fun l' hl' => ?_, fun l' hl' => ?_⟩ <;>
    rcases hmem l' hl' with h | ⟨l, hl, -, hne, hsub⟩
  · exact hw.nonempty l' h
  · exact hne
  · exact hw.queued l' h
  · have hs := (hsub.map (·.priority)).sublist
    simp only [List.map_map] at hs
    exact (hw.queued l hl).sublist hs

theorem fillLevel_events {P : List Event → Prop} (hnil : P [])
    (happ : ∀ a b, P a → P b → P (a ++ b))
    (htrade : ∀ o leaves, P (t.tradeEvents price o (min leaves o.qty) (leaves - min leaves o.qty))) :
    ∀ {os rest filled : List Resting} {leaves left : Qty} {evs : List Event},
    t.fillLevel price os leaves = (evs, left, rest, filled) → P evs
  | [], rest, filled, leaves, left, evs, h => by
    simp only [fillLevel, Prod.mk.injEq] at h
    obtain ⟨rfl, -⟩ := h
    exact hnil
  | o :: os, rest, filled, leaves, left, evs, h => by
    simp only [fillLevel] at h
    split at h
    · simp only [Prod.mk.injEq] at h
      obtain ⟨rfl, -⟩ := h
      exact hnil
    · split at h
      · generalize hm : t.fillLevel price os (leaves - min leaves o.qty) = m at h
        obtain ⟨more, leaves', rest', filled'⟩ := m
        simp only [Prod.mk.injEq] at h
        obtain ⟨rfl, -⟩ := h
        exact happ _ _ (htrade o leaves) (fillLevel_events hnil happ htrade hm)
      · simp only [Prod.mk.injEq] at h
        obtain ⟨rfl, -⟩ := h
        exact htrade o leaves

theorem fillSide_events {P : List Event → Prop} (hnil : P [])
    (happ : ∀ a b, P a → P b → P (a ++ b))
    (htrade : ∀ price o leaves,
      P (t.tradeEvents price o (min leaves o.qty) (leaves - min leaves o.qty))) :
    ∀ {ls rest : List Level} {filled : List Resting} {leaves left : Qty} {evs : List Event},
    t.fillSide ls leaves = (evs, left, rest, filled) → P evs
  | [], rest, filled, leaves, left, evs, h => by
    simp only [fillSide, Prod.mk.injEq] at h
    obtain ⟨rfl, -⟩ := h
    exact hnil
  | l :: ls, rest, filled, leaves, left, evs, h => by
    simp only [fillSide] at h
    split at h
    · simp only [Prod.mk.injEq] at h
      obtain ⟨rfl, -⟩ := h
      exact hnil
    · generalize hf : t.fillLevel l.price l.orders leaves = f at h
      obtain ⟨evs₁, left₁, rest₁, filled₁⟩ := f
      have first := fillLevel_events hnil happ (htrade l.price) hf
      split at h
      · generalize hm : t.fillSide ls left₁ = m at h
        obtain ⟨more, leaves', ls', filled'⟩ := m
        simp only [Prod.mk.injEq] at h
        obtain ⟨rfl, -⟩ := h
        exact happ _ _ first (fillSide_events hnil happ htrade hm)
      · simp only [Prod.mk.injEq] at h
        obtain ⟨rfl, -⟩ := h
        exact first

end Taker

namespace Book

open Level

variable {b b' : Book} {side : Side} {p : Price} {o : Resting} {oid : OrderId}

theorem orders_map_cross {t : Taker} {leaves left : Qty} {evs : List Event} {rest : List Level}
    {filled : List Resting} (hv : side.isValid = true)
    (h : t.fillSide (b.levels side) leaves = (evs, left, rest, filled)) (pool : Pool OrderId)
    {β : Type} (f : Resting → β) (hf : ∀ o, f o.eraseQty = f o) :
    (b.orders.map f).Perm
      (filled.map f ++ ({ b.withLevels side rest with orderSlots := pool } : Book).orders.map f) := by
  have hsplit := (Taker.fillSide_split h).1
  have hmap : ∀ os : List Resting, os.map f = (os.map Resting.eraseQty).map f := by
    intro os; rw [List.map_map]; exact List.map_congr_left fun o _ => (hf o).symm
  refine ((orders_perm hv).map f).trans ?_
  refine List.Perm.trans ?_ (((orders_perm (b := { b.withLevels side rest with orderSlots := pool })
    hv).map f).append_left _).symm
  simp only [levels_setOrderSlots, levels_withLevels_self hv,
    levels_withLevels_of_ne (Side.opposite_ne hv)]
  rw [List.map_append, List.map_append, hmap (ordersOf (b.levels side)), hsplit, List.map_append,
    ← hmap, ← hmap, List.append_assoc]

theorem find?_cross_of_none {t : Taker} {leaves left : Qty} {evs : List Event} {rest : List Level}
    {filled : List Resting} (hv : side.isValid = true)
    (h : t.fillSide (b.levels side) leaves = (evs, left, rest, filled)) (pool : Pool OrderId)
    (hn : b.find? oid = none) :
    ({ b.withLevels side rest with orderSlots := pool } : Book).find? oid = none := by
  rw [find?_eq_none_iff] at hn ⊢
  intro o ho hid
  have hmem : oid ∈ b.orders.map (·.orderId) :=
    (orders_map_cross hv h pool (·.orderId) fun _ => rfl).mem_iff.2
      (List.mem_append_right _ (List.mem_map.2 ⟨o, ho, hid⟩))
  obtain ⟨o', ho', hid'⟩ := List.mem_map.1 hmem
  exact hn o' ho' hid'

theorem capacity_foldl_vacate : ∀ (os : List Resting) (s : Pool OrderId),
    (os.foldl (fun p o => p.vacate o.slot) s).capacity = s.capacity
  | [], _ => rfl
  | o :: os, s => by rw [List.foldl_cons, capacity_foldl_vacate os, Pool.capacity_vacate]

/-- **Crossing keeps the invariant**: the opposite side loses the filled orders, whose slots are
vacated, and keeps the rest. -/
theorem WF.cross {t : Taker} {leaves left : Qty} {evs : List Event} {rest : List Level}
    {filled : List Resting} (hw : b.WF) (hv : side.isValid = true)
    (h : t.fillSide (b.levels side) leaves = (evs, left, rest, filled)) :
    ({ b.withLevels side rest with
       orderSlots := filled.foldl (fun p o => p.vacate o.slot) b.orderSlots } : Book).WF := by
  obtain ⟨-, hsuf, -⟩ := Taker.fillSide_split h
  have hids := orders_map_cross hv h (filled.foldl (fun p o => p.vacate o.slot) b.orderSlots)
    (·.orderId) fun _ => rfl
  have hhandles := orders_map_cross hv h (filled.foldl (fun p o => p.vacate o.slot) b.orderSlots)
    Resting.handle fun _ => rfl
  generalize hb₁ : ({ b.withLevels side rest with
    orderSlots := filled.foldl (fun p o => p.vacate o.slot) b.orderSlots } : Book) = b₁
    at hids hhandles
  have hlevels : ∀ side', b₁.levels side' = if side' = side then rest else b.levels side' := by
    intro side'
    rw [← hb₁, levels_setOrderSlots, levels_withLevels hv]
  refine ⟨fun side' => ?_, ?_, ?_, ?_⟩
  · rw [hlevels]
    split
    · rename_i he; subst he; exact Taker.sideWF_fillSide (hw.sides side') h
    · exact hw.sides side'
  · exact ((hids.nodup_iff).1 hw.ids).sublist (List.sublist_append_right _ _)
  · have := (hw.stored.perm hhandles).vacateAll
    simpa [← hb₁, List.foldl_map, Resting.handle] using this
  · have h0 := levelCount_eq (b := b₁) hv
    have h1 := levelCount_eq (b := b) hv
    rw [hlevels, hlevels, if_pos rfl, if_neg (Side.opposite_ne hv)] at h0
    have h2 := hsuf.length_le
    simp only [List.length_map] at h2
    have h3 := hw.levels_le
    rw [← hb₁] at h0 ⊢
    simp only [levelCapacity_withLevels] at h0 ⊢
    omega

end Book

namespace Book

variable {b b' : Book}

theorem isValid_of_not_rejects {oid : OrderId} {side : Side} {p : Price} {q : Qty}
    (h : ¬ b.rejects oid side p q = true) : side.isValid = true := by
  cases hv : side.isValid
  · simp [rejects, hv] at h
  · rfl

/-- **Placing a limit order keeps the invariant.** -/
theorem WF.add {c : ClientId} {oid : OrderId} {side : Side} {p : Price} {q : Qty} (hw : b.WF)
    (h : (b.add c oid side p q).result = .ok b') : b'.WF := by
  unfold Book.add at h
  split at h
  · cases h; exact hw
  · rename_i hrej
    have hv := isValid_of_not_rejects hrej
    simp only at h
    generalize hf : (Taker.mk b.ticker c oid side p).fillSide (b.levels side.opposite) q = r at h
    obtain ⟨evs, leaves, rest, filled⟩ := r
    have hc := hw.cross (Side.isValid_opposite hv) hf
    simp only at h
    split at h
    · cases h; exact hc
    · split at h
      · rename_i o b'' hins; cases h; exact hc.insert hins
      · cases h

end Book

/-! ## Calls and reachable books -/

/-- One call a caller makes on a book: matching operations, and direct placement and removal. -/
inductive Book.Call where
  | add (clientId : ClientId) (orderId : OrderId) (side : Side) (price : Price) (qty : Qty)
  | cancel (clientId : ClientId) (orderId : OrderId)
  | insert (clientId : ClientId) (orderId : OrderId) (side : Side) (price : Price) (qty : Qty)
  | remove (orderId : OrderId)
  deriving DecidableEq, Repr

/-- What a call returns besides its events: the order it rested, or the order it removed. -/
inductive Book.Reply where
  | done
  | rested (o : Resting)
  | removed (e : Option Entry)
  deriving DecidableEq, Repr

namespace Book

variable {b b' : Book}

/-- A call on a book: its events, then its reply and the book after it, or the fault that
stopped it. -/
def call (b : Book) : Call → Outcome (Reply × Book)
  | .add c oid side p q =>
    let r := b.add c oid side p q
    ⟨r.events, r.result.map (.done, ·)⟩
  | .cancel c oid =>
    let (evs, b') := b.cancel c oid
    ⟨evs, .ok (.done, b')⟩
  | .insert c oid side p q => ⟨[], (b.insert c oid side p q).map fun (o, b') => (.rested o, b')⟩
  | .remove oid =>
    let (e, b') := b.remove oid
    ⟨[], .ok (.removed e, b')⟩

/-- The books a run of calls can lead to, from an empty book. -/
inductive Reachable : Book → Prop
  | create {t : TickerId} {maxOrders maxLevels : Nat} {b : Book} :
      Book.create t maxOrders maxLevels = .ok b → Reachable b
  | step {b b' : Book} {c : Call} {r : Reply} : Reachable b → (b.call c).result = .ok (r, b') →
      Reachable b'

theorem WF.call (hw : b.WF) {c : Call} {r : Reply} (h : (b.call c).result = .ok (r, b')) : b'.WF := by
  cases c with
  | add c oid side p q =>
    simp only [Book.call] at h
    cases hr : (b.add c oid side p q).result with
    | error f => rw [hr] at h; cases h
    | ok b'' => rw [hr] at h; cases h; exact hw.add hr
  | cancel c oid => simp only [Book.call] at h; cases h; exact hw.cancel c oid
  | insert c oid side p q =>
    simp only [Book.call] at h
    cases hr : b.insert c oid side p q with
    | error f => rw [hr] at h; cases h
    | ok ob => rw [hr] at h; cases h; exact hw.insert hr
  | remove oid => simp only [Book.call] at h; cases h; exact hw.remove oid

theorem Reachable.wf (h : Reachable b) : b.WF := by
  induction h with
  | create hc => exact wf_create hc
  | step _ hs ih => exact ih.call hs

end Book

/-! ## Lookups on a well-formed book -/

namespace Book

open Level

variable {b : Book} {side : Side} {l : Level} {o : Resting}

theorem find?_price_of_mem : ∀ {ls : List Level},
    (ls.map (·.price)).Pairwise (fun p q => ranksBefore side p q = true) → l ∈ ls →
    ls.find? (·.price == l.price) = some l
  | [], _, hl => by cases hl
  | m :: ms, hr, hl => by
    by_cases hm : m.price = l.price
    · have hml : m = l := Classical.byContradiction fun hne =>
        price_ne_of_ranked hr List.mem_cons_self hl hne hm
      rw [List.find?_cons, show (m.price == l.price) = true by simpa using hm, hml]
    · have hl' : l ∈ ms := (List.mem_cons.1 hl).resolve_left fun e => hm (e ▸ rfl)
      rw [List.map_cons, List.pairwise_cons] at hr
      rw [List.find?_cons, show (m.price == l.price) = false by simpa using hm]
      exact find?_price_of_mem hr.2 hl'

theorem eq_of_orderId_eq : ∀ {ls : List Level}, ((ordersOf ls).map (·.orderId)).Nodup →
    ∀ {l l' : Level} {o o' : Resting}, l ∈ ls → l' ∈ ls → o ∈ l.orders → o' ∈ l'.orders →
    o.orderId = o'.orderId → l = l' ∧ o = o'
  | [], _, _, _, _, _, hl, _, _, _, _ => by cases hl
  | m :: ms, hnd, l, l', o, o', hl, hl', ho, ho', he => by
    rw [ordersOf_cons, List.map_append, List.nodup_append] at hnd
    obtain ⟨hm, hms, hdisj⟩ := hnd
    have cross : ∀ {x y : Resting} {k : Level}, x ∈ m.orders → k ∈ ms → y ∈ k.orders →
        x.orderId ≠ y.orderId := fun hx hk hy =>
      hdisj _ (List.mem_map_of_mem hx) _ (List.mem_map_of_mem (mem_ordersOf.2 ⟨_, hk, hy⟩))
    rcases List.mem_cons.1 hl with rfl | hk <;> rcases List.mem_cons.1 hl' with rfl | hk'
    · exact ⟨rfl, List.inj_on_of_nodup_map hm ho ho' he⟩
    · exact absurd he (cross ho hk' ho')
    · exact absurd he.symm (cross ho' hk ho)
    · exact eq_of_orderId_eq hms hk hk' ho ho' he

theorem isValid_of_mem_levels (hl : l ∈ b.levels side) : side.isValid = true := by
  cases side
  · rfl
  · rfl
  · cases hl

/-- **The order lookup of a well-formed book** finds each resting order, with its side and the
price of its level. -/
theorem WF.find?_of_mem (hw : b.WF) (hl : l ∈ b.levels side) (ho : o ∈ l.orders) :
    b.find? o.orderId = some (side, l.price, o) := by
  have hv := isValid_of_mem_levels hl
  have hnd := ((orders_perm hv).map (·.orderId)).nodup_iff.1 hw.ids
  rw [List.map_append, List.nodup_append] at hnd
  have hmem : o ∈ ordersOf (b.levels side) := mem_ordersOf.2 ⟨l, hl, ho⟩
  cases hf : b.find? o.orderId with
  | none =>
    exact absurd rfl (find?_eq_none_iff.1 hf o ((orders_perm hv).mem_iff.2 (List.mem_append_left _ hmem)))
  | some r =>
    obtain ⟨s', p', o'⟩ := r
    obtain ⟨hv', hid, l', hl', hlp, ho'⟩ := find?_eq_some hf
    by_cases hs : s' = side
    · subst hs
      obtain ⟨rfl, rfl⟩ := eq_of_orderId_eq hnd.1 hl hl' ho ho' hid.symm
      rw [hlp]
    · have hopp : s' = side.opposite := by
        cases side <;> cases s' <;> simp_all [Side.opposite, Side.isValid]
      subst hopp
      exact absurd hid (hnd.2.2 _ (List.mem_map_of_mem hmem) _
        (List.mem_map_of_mem (mem_ordersOf.2 ⟨l', hl', ho'⟩))).symm

theorem orderCount_eq (b : Book) : b.orderCount = b.orders.length := by
  -- the count folds level by level, as `ordersOf` concatenates them
  have hfold : ∀ (ls : List Level) (n : Nat),
      (ls.map Level.count).foldr (· + ·) n = (ordersOf ls).length + n := by
    intro ls n
    induction ls with
    | nil => simp
    | cons l ls ih => simp [ih, Level.count, Nat.add_assoc]
  simp [orderCount, orders, hfold]

/-! ## The representation invariant -/

/-- **Representation invariant.** Every book reached from an empty one by calls that complete
keeps its bids at falling and its asks at rising prices, with no empty level. Each level is found
by its price; its priorities rise from its oldest order to its newest; each of its orders is
found by its id, on its side and at its price, and its pool slot holds that id. Every used slot
holds a resting order; the pool counts the resting orders, and the levels fit their capacity. -/
theorem reachable_wellFormed (h : Reachable b) :
    (b.bids.map (·.price)).Pairwise (· > ·) ∧ (b.asks.map (·.price)).Pairwise (· < ·) ∧
    (∀ side, ∀ l ∈ b.levels side, l.orders ≠ [] ∧ b.levelAt side l.price = some l ∧
      (l.orders.map (·.priority)).Pairwise (· < ·) ∧
      ∀ o ∈ l.orders, b.find? o.orderId = some (side, l.price, o) ∧
        b.orderSlots.slots[o.slot]? = some (some o.orderId)) ∧
    (∀ i oid, b.orderSlots.slots[i]? = some (some oid) →
      ∃ side, ∃ l ∈ b.levels side, ∃ o ∈ l.orders, o.orderId = oid ∧ o.slot = i) ∧
    b.orderSlots.allocated = b.orderCount ∧ b.levelCount ≤ b.levelCapacity := by
  have hw := h.wf
  refine ⟨(hw.sides .buy).ranked.imp (by simp [ranksBefore]),
    (hw.sides .sell).ranked.imp (by simp [ranksBefore]), ?levels, ?used, ?count, hw.levels_le⟩
  case levels =>
    intro side l hl
    have hv := isValid_of_mem_levels hl
    refine ⟨(hw.sides side).nonempty l hl, find?_price_of_mem (hw.sides side).ranked hl,
      (hw.sides side).queued l hl, fun o ho => ⟨hw.find?_of_mem hl ho, ?_⟩⟩
    have hmem : o ∈ b.orders := (orders_perm hv).mem_iff.2 (List.mem_append_left _
      (mem_ordersOf.2 ⟨l, hl, ho⟩))
    exact hw.stored.mem _ (List.mem_map_of_mem hmem)
  case used =>
    intro i oid hi
    obtain ⟨e, he, rfl⟩ := hw.stored.used i oid hi
    obtain ⟨o, ho, rfl⟩ := List.mem_map.1 he
    have hoid : b.orderSlots.slots[o.slot]? = some (some o.orderId) :=
      hw.stored.mem _ (List.mem_map_of_mem ho)
    have hsame : oid = o.orderId := by simpa [Resting.handle, hoid] using hi.symm
    simp only [orders, List.mem_append, mem_ordersOf] at ho
    rcases ho with ⟨l, hl, ho⟩ | ⟨l, hl, ho⟩
    · exact ⟨.buy, l, hl, o, ho, hsame.symm, rfl⟩
    · exact ⟨.sell, l, hl, o, ho, hsame.symm, rfl⟩
  case count => simp [hw.stored.allocated, orderCount_eq]

end Book

end Exchange
