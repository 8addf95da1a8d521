import Exchange.Proofs.Book.StoredRuns

/-!
# Every reached linked book is well linked

The representation invariant of the engine's book, stated on the linked book's own fields
(`LinkedBook.WellLinked`). Walked from its best level along the `worse` links, each side's walk
ends, visits no slot twice, ranks its prices strictly and is linked back by `better`; its levels
are on the side, none is empty, and the side's price map finds exactly their slots. Walked from a
level's head along the `next` links, its orders are linked back by `prev` and end at its tail; the
level's count is their number, its total quantity their sum, each carries the level's side and
price, and their priorities rise. The id map finds exactly the used order slots, by the id each
holds; the used slots of both pools are exactly the walked orders and levels, and each pool counts
its used slots.

A linked book that stores a well-formed book is well linked (`Stores.wellLinked`): what the pools
hold are the chains of the book's lists, and walking a chain gives its cells linked both ways.
Every call keeps a stored book stored (`Stores.call`), so every reached linked book stores a
reached book (`Reachable.stores`). Main statement: `LinkedBook.reachable_wellLinked`.
-/

namespace Exchange

open Pool (nullIndex chain firstSlot lastSlot DoublyLinked)

namespace LinkedBook

/-- **A level's orders, walked from its head**: linked both ways with no slot twice, from the
level's head to its tail, counted by its count and totalled by its total quantity, all on its
side and at its price, with priorities rising. -/
structure LevelWalk (side : Side) (l : LevelNode) (os : List (Nat × OrderNode)) : Prop where
  nodup : (os.map (·.1)).Nodup
  linked : DoublyLinked OrderNode.prev OrderNode.next nullIndex os
  head : l.head = firstSlot os nullIndex
  tail : l.tail = lastSlot os nullIndex
  count : l.count.toNat = os.length
  total : l.totalQty.toNat = (os.map fun e => e.2.qty.toNat).foldr (· + ·) 0
  placed : ∀ e ∈ os, e.2.side = side ∧ e.2.price = l.price
  queued : (os.map (·.2.priority)).Pairwise (· < ·)

/-- **A side's levels, walked from its best**: linked both ways with no slot twice, at prices
that rank strictly, on the side and none empty; the side's price map finds exactly their slots,
and each one's orders walk well. -/
structure SideWalk (lb : LinkedBook) (side : Side) (ls : List (Nat × LevelNode)) : Prop where
  nodup : (ls.map (·.1)).Nodup
  linked : DoublyLinked LevelNode.better LevelNode.worse nullIndex ls
  ranked : (ls.map (·.2.price)).Pairwise fun p q => ranksBefore side p q = true
  sided : ∀ e ∈ ls, e.2.side = side
  nonempty : ∀ e ∈ ls, e.2.count ≠ 0
  mapped : ∀ p i, lb.levelIndex side p = some i ↔ ∃ l, (i, l) ∈ ls ∧ l.price = p
  orders : ∀ e ∈ ls, ∃ os, lb.levelOrders e.2 = some os ∧ LevelWalk side e.2 os

/-- **The linked book's representation invariant**: each side walks well from its best level;
the id map finds exactly the used order slots, by the id each holds; the used slots of the two
pools are exactly the walked orders and levels; and each pool counts its used slots. -/
structure WellLinked (lb : LinkedBook) : Prop where
  sides : ∀ side, side.isValid = true → ∃ ls, lb.sideLevels side = some ls ∧ lb.SideWalk side ls
  orderMap : ∀ oid i, lb.orderMap.find? oid = some i ↔
    ∃ o, lb.orders.slots[i]? = some (some o) ∧ o.orderId = oid
  ordersUsed : ∀ i o, lb.orders.slots[i]? = some (some o) ↔
    ∃ side ls, lb.sideLevels side = some ls ∧ ∃ e ∈ ls, ∃ os, lb.levelOrders e.2 = some os ∧ (i, o) ∈ os
  levelsUsed : ∀ i l, lb.levels.slots[i]? = some (some l) ↔
    ∃ side ls, lb.sideLevels side = some ls ∧ (i, l) ∈ ls
  pools : lb.orders.Inv ∧ lb.levels.Inv

/-- The linked books a run of calls can lead to, from an empty one. -/
inductive Reachable : LinkedBook → Prop
  | create {t : TickerId} {maxOrders maxLevels : Nat} {lb : LinkedBook} :
      LinkedBook.create t maxOrders maxLevels = .ok lb → Reachable lb
  | step {lb lb' : LinkedBook} {c : Book.Call} {r : Reply} : Reachable lb →
      (lb.call c).result = .ok (r, lb') → Reachable lb'

end LinkedBook

/-! ## What the chains of a book hold -/

namespace Placed

variable {P : Placed} {s : Side} {ps : List (Nat × Level)} {t : TickerId}

theorem mem_walkedLevels {e : Nat × LevelNode} (he : e ∈ (sideLevels s ps).map fun e => (e.2, e.1)) :
    ∃ c ∈ ps, ∃ x y, e = (c.1, (c.2.node s).link x y) := by
  obtain ⟨e', he', rfl⟩ := List.mem_map.1 he
  obtain ⟨c', hc', x, y, rfl⟩ := Pool.mem_chain he'
  obtain ⟨c, hc, rfl⟩ := List.mem_map.1 hc'
  exact ⟨c, hc, x, y, rfl⟩

theorem walked_of_mem {c : Nat × Level} (hc : c ∈ ps) :
    ∃ x y, (c.1, (c.2.node s).link x y) ∈ (sideLevels s ps).map fun e => (e.2, e.1) := by
  obtain ⟨x, y, hxy⟩ : ∃ x y, ((c.2.node s).link x y, c.1) ∈
      chain LevelNode.link nullIndex (levelCells s ps) nullIndex :=
    Pool.mem_chain_of_mem (List.mem_map_of_mem (f := fun e : Nat × Level => (e.1, e.2.node s)) hc) nullIndex
  exact ⟨x, y, List.mem_map.2 ⟨_, hxy, rfl⟩⟩

theorem mem_orderEntries {e : OrderNode × Nat} (he : e ∈ P.orderEntries t) :
    ∃ s, s.isValid = true ∧ ∃ c ∈ P.side s, e ∈ c.2.orderEntries t s := by
  simp only [orderEntries, sideOrders, List.mem_append, List.mem_flatMap] at he
  rcases he with ⟨c, hc, he⟩ | ⟨c, hc, he⟩
  · exact ⟨.buy, rfl, c, hc, he⟩
  · exact ⟨.sell, rfl, c, hc, he⟩

theorem mem_levelEntries {e : LevelNode × Nat} (he : e ∈ P.levelEntries) :
    ∃ s, (e.2, e.1) ∈ (sideLevels s (P.side s)).map fun e => (e.2, e.1) := by
  simp only [levelEntries, List.mem_append] at he
  rcases he with he | he
  · exact ⟨.buy, List.mem_map_of_mem he⟩
  · exact ⟨.sell, List.mem_map_of_mem he⟩

end Placed

theorem Level.mem_walkedOrders {l : Level} {t : TickerId} {s : Side} {e : Nat × OrderNode}
    (he : e ∈ (l.orderEntries t s).map fun e => (e.2, e.1)) :
    ∃ o ∈ l.orders, ∃ x y, e = (o.slot, (o.node t s l.price).link x y) := by
  obtain ⟨e', he', rfl⟩ := List.mem_map.1 he
  obtain ⟨c, hc, x, y, rfl⟩ := Pool.mem_chain he'
  obtain ⟨o, ho, rfl⟩ := List.mem_map.1 hc
  exact ⟨o, ho, x, y, rfl⟩

namespace LinkedBook

namespace Stores

variable {lb : LinkedBook} {b : Book} {P : Placed} {s : Side}

/-! ## A stored book is well linked -/

/-- **A stored level walks well**: its orders' chain, walked, is linked both ways from its head
to its tail, and its counters count and total it. -/
theorem levelWalk (h : lb.Stores b P) (hw : b.WF) (hv : s.isValid = true) {i : Nat} {l : Level}
    (hl : (i, l) ∈ P.side s) (L R : Nat) :
    LevelWalk s ((l.node s).link L R) ((l.orderEntries lb.ticker s).map fun e => (e.2, e.1)) := by
  obtain ⟨ps₁, ps₂, hps⟩ := List.append_of_mem hl
  have ho := h.orders_split hv hps
  obtain ⟨hcount, htotal⟩ := h.level_fits hv hps
  have hmem : l ∈ b.levels s := by rw [h.sides, hps]; simp
  -- what reads no link sees the level's orders, oldest first
  have hfields {β : Type} {F : OrderNode → β} (hF : ∀ v x y, F (v.link x y) = F v) :
      ((l.orderEntries lb.ticker s).map fun e => (e.2, e.1)).map (fun e => F e.2) =
        l.orders.map fun o => F (o.node lb.ticker s l.price) := by
    rw [List.map_map, Level.orderEntries]
    have := Pool.map_chain_of_link (a := nullIndex) hF nullIndex (l.cells lb.ticker s)
    simp only [Function.comp_def] at this ⊢
    rw [this, Level.cells, List.map_map]
    rfl
  refine ⟨?nodup, Pool.doublyLinked_chain OrderNode.prev_link OrderNode.next_link _ _, ?head, ?tail,
    ?count, ?total, ?placed, ?queued⟩
  case nodup => exact ho.nodup_walked
  case head => rw [LevelNode.head_link, Level.head_node_eq lb.ticker, Level.orderEntries, Pool.firstSlot_walked]
  case tail => rw [LevelNode.tail_link, Level.tail_node_eq lb.ticker, Level.orderEntries, Pool.lastSlot_walked]
  case count =>
    rw [LevelNode.count_link, Level.count_node, Level.count, UInt32.toNat_ofNat_of_lt' hcount]
    simp [Level.orderEntries, Level.cells]
  case total =>
    rw [LevelNode.totalQty_link, Level.totalQty_node, UInt64.toNat_ofNat_of_lt' htotal,
      hfields (F := fun v => v.qty.toNat) fun _ _ _ => rfl]
    rfl
  case placed =>
    intro e he
    obtain ⟨o, -, x, y, rfl⟩ := Level.mem_walkedOrders he
    exact ⟨rfl, rfl⟩
  case queued =>
    rw [hfields (F := OrderNode.priority) OrderNode.priority_link]
    exact (hw.sides s).queued l hmem

/-- **A stored side walks well** from its best level. -/
theorem sideWalk (h : lb.Stores b P) (hw : b.WF) (hv : s.isValid = true) :
    lb.SideWalk s ((Placed.sideLevels s (P.side s)).map fun e => (e.2, e.1)) := by
  have hl := h.levels.perm (Placed.levelEntries_perm hv)
  refine ⟨?nodup, Pool.doublyLinked_chain LevelNode.better_link LevelNode.worse_link _ _, ?ranked,
    ?sided, ?nonempty, ?mapped, ?orders⟩
  case nodup => exact hl.nodup_walked
  case ranked =>
    have hprices := Pool.map_chain_of_link (a := nullIndex) LevelNode.price_link nullIndex
      (Placed.levelCells s (P.side s))
    have hr := (hw.sides s).ranked
    rw [h.sides] at hr
    rw [List.map_map]
    simp only [Function.comp_def, Placed.sideLevels] at hprices ⊢
    rw [hprices]
    simpa [Placed.levelCells, Function.comp_def] using hr
  case sided =>
    intro e he
    obtain ⟨c, -, x, y, rfl⟩ := Placed.mem_walkedLevels he
    rfl
  case nonempty =>
    intro e he
    obtain ⟨⟨i, l⟩, hc, x, y, rfl⟩ := Placed.mem_walkedLevels he
    obtain ⟨ps₁, ps₂, hps⟩ := List.append_of_mem hc
    have hne := (hw.sides s).nonempty l (by rw [h.sides, hps]; simp)
    have hcount := (h.level_fits hv hps).1
    simp only [LevelNode.count_link, Level.count_node, Level.count]
    intro h0
    have := congrArg UInt32.toNat h0
    rw [UInt32.toNat_ofNat_of_lt' hcount, UInt32.toNat_zero] at this
    exact hne (List.length_eq_zero_iff.1 this)
  case mapped =>
    intro p i
    rw [h.levelIndex_eq_some_iff hv]
    constructor
    · rintro ⟨l, hl, rfl⟩
      obtain ⟨x, y, hxy⟩ := Placed.walked_of_mem (s := s) hl
      exact ⟨_, hxy, rfl⟩
    · rintro ⟨n, hn, rfl⟩
      obtain ⟨c, hc, x, y, he⟩ := Placed.mem_walkedLevels hn
      simp only [Prod.mk.injEq] at he
      obtain ⟨rfl, rfl⟩ := he
      exact ⟨c.2, hc, rfl⟩
  case orders =>
    intro e he
    obtain ⟨c, hc, x, y, rfl⟩ := Placed.mem_walkedLevels he
    exact ⟨_, h.levelOrders_node hv hc x y, h.levelWalk hw hv hc x y⟩

theorem slot_order (h : lb.Stores b P) {o : Resting} (ho : o ∈ b.orders) :
    ∃ s x y, ∃ l ∈ b.levels s, lb.orders.slots[o.slot]? = some (some ((o.node lb.ticker s l.price).link x y)) := by
  simp only [Book.orders, List.mem_append, Level.mem_ordersOf] at ho
  obtain ⟨s, hv, l, hl, ho⟩ : ∃ s, s.isValid = true ∧ ∃ l ∈ b.levels s, o ∈ l.orders := by
    rcases ho with ⟨l, hl, ho⟩ | ⟨l, hl, ho⟩
    · exact ⟨.buy, rfl, l, hl, ho⟩
    · exact ⟨.sell, rfl, l, hl, ho⟩
  have hl' := hl
  rw [h.sides] at hl'
  obtain ⟨⟨i, lp, os⟩, hc, rfl⟩ := List.mem_map.1 hl'
  obtain ⟨ps₁, ps₂, hps⟩ := List.append_of_mem hc
  obtain ⟨xs, ys, rfl⟩ := List.append_of_mem ho
  exact ⟨s, _, _, _, hl, Pool.get_eq_ok (h.get_order hv hps)⟩

/-- **A linked book that stores a well-formed book is well linked.** -/
theorem wellLinked (h : lb.Stores b P) (hw : b.WF) : lb.WellLinked := by
  refine ⟨fun s hv => ⟨_, h.sideLevels_eq hv, h.sideWalk hw hv⟩, ?orderMap, ?ordersUsed, ?levelsUsed,
    h.orders.inv, h.levels.inv⟩
  case orderMap =>
    intro oid i
    rw [h.orderMap_eq_some_iff]
    constructor
    · rintro ⟨o, ho, rfl, rfl⟩
      obtain ⟨s, x, y, l, -, hslot⟩ := h.slot_order ho
      exact ⟨_, hslot, rfl⟩
    · rintro ⟨v, hv, rfl⟩
      obtain ⟨e, he, rfl⟩ := h.orders.used _ _ hv
      rw [h.orders.mem e he] at hv
      cases hv
      obtain ⟨s, hs, c, hc, hce⟩ := Placed.mem_orderEntries he
      obtain ⟨o, ho, x, y, hoe⟩ := Level.mem_walkedOrders (List.mem_map_of_mem (f := fun e => (e.2, e.1)) hce)
      simp only [Prod.mk.injEq] at hoe
      obtain ⟨hslot, hnode⟩ := hoe
      have hmem : o ∈ b.orders := (Book.orders_perm hs).mem_iff.2 (List.mem_append_left _
        (Level.mem_ordersOf.2 ⟨c.2, by rw [h.sides]; exact List.mem_map_of_mem hc, ho⟩))
      exact ⟨o, hmem, by rw [hnode]; rfl, hslot.symm⟩
  case ordersUsed =>
    intro i o
    constructor
    · intro hv
      obtain ⟨e, he, rfl⟩ := h.orders.used _ _ hv
      rw [h.orders.mem e he] at hv
      cases hv
      obtain ⟨s, hs, c, hc, hce⟩ := Placed.mem_orderEntries he
      obtain ⟨x, y, hxy⟩ := Placed.walked_of_mem (s := s) hc
      exact ⟨s, _, h.sideLevels_eq hs, _, hxy, _, h.levelOrders_node hs hc x y,
        List.mem_map_of_mem (f := fun e => (e.2, e.1)) hce⟩
    · rintro ⟨s, ls, -, e, -, os, hos, he⟩
      exact Pool.walk_mem hos (i, o) he
  case levelsUsed =>
    intro i l
    constructor
    · intro hv
      obtain ⟨e, he, rfl⟩ := h.levels.used _ _ hv
      rw [h.levels.mem e he] at hv
      cases hv
      obtain ⟨s, hse⟩ := Placed.mem_levelEntries he
      cases hs : s.isValid
      · have : s = .invalid := by cases s <;> first | rfl | cases hs
        subst this
        cases hse
      · exact ⟨s, _, h.sideLevels_eq hs, hse⟩
    · rintro ⟨s, ls, hls, hl⟩
      exact Pool.walk_mem hls (i, l) hl

end Stores

/-- **Every reached linked book stores a reached book**, well formed. -/
theorem Reachable.stores {lb : LinkedBook} (h : lb.Reachable) : ∃ b P, lb.Stores b P ∧ b.WF := by
  induction h with
  | @create t mo ml lb hc =>
    have hs := stores_create t mo ml
    rw [hc] at hs
    cases hb : Book.create t mo ml with
    | error f => rw [hb] at hs; cases hs
    | ok b => rw [hb] at hs; exact ⟨b, _, hs, Book.wf_create hb⟩
  | step _ hs ih =>
    obtain ⟨b, P, h, hw⟩ := ih
    obtain ⟨-, hag⟩ := h.call hw _
    rw [hs] at hag
    cases hb : (b.call _).result with
    | error f => rw [hb] at hag; cases hag
    | ok y =>
      rw [hb] at hag
      obtain ⟨-, P', hst⟩ := hag
      exact ⟨y.2, P', hst, hw.call hb⟩

/-- **Representation invariant of the engine's book.** Every linked book reached from an empty one
by limit orders, cancels, direct inserts and removals that complete is well linked: each side's
levels walk from its best level along `worse` to the null index with no slot twice, linked back by
`better`, at strictly ranked prices, none empty, found by the side's price map; each level's orders
walk from its head to its tail along `next`, linked back by `prev`, counted by its count and
totalled by its total quantity, on its side and at its price, with rising priorities; the id map
finds exactly the used order slots by the id each holds; the used slots of both pools are the
walked orders and levels, and each pool counts them. -/
theorem reachable_wellLinked {lb : LinkedBook} (h : lb.Reachable) : lb.WellLinked := by
  obtain ⟨b, P, hs, hw⟩ := h.stores
  exact hs.wellLinked hw

/-- A buy order placed in an empty linked book leaves it well linked. -/
theorem placed_bid_wellLinked :
    ∃ lb, ((⟨0, ⟨#[none, none], 0, 0⟩, ⟨#[none, none], 0, 0⟩, .empty, .empty, nullIndex, nullIndex,
        .empty⟩ : LinkedBook).call (.add 1 7 .buy 100 5)).result = .ok (.done, lb) ∧ lb.WellLinked := by
  have h₀ : LinkedBook.create 0 2 2 = .ok ⟨0, ⟨#[none, none], 0, 0⟩, ⟨#[none, none], 0, 0⟩, .empty,
      .empty, nullIndex, nullIndex, .empty⟩ := rfl
  obtain ⟨lb, h₁⟩ : ∃ lb, ((⟨0, ⟨#[none, none], 0, 0⟩, ⟨#[none, none], 0, 0⟩, .empty, .empty,
      nullIndex, nullIndex, .empty⟩ : LinkedBook).call (.add 1 7 .buy 100 5)).result = .ok (.done, lb) :=
    ⟨_, rfl⟩
  exact ⟨lb, h₁, reachable_wellLinked (.step (.create h₀) h₁)⟩

end LinkedBook

end Exchange
