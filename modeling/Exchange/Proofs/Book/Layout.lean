import Mathlib
import Exchange.Book.Linked
import Exchange.Proofs.Pool.Chain
import Exchange.Proofs.Book.Invariant

/-!
# How a linked book lays out a book

A linked book stores a `Book` when its pools hold exactly the book's levels and orders, linked in
the book's order. `Placed` gives each level of the two sides its level slot. The order pool then
holds, for each level, the chain of its orders' nodes oldest first (`Level.orderEntries`), and the
level pool holds each side's chain of level nodes best first (`Placed.sideLevels`), each node
with its side, its price, the slots of its first and last orders, and its order count and total
quantity as words. The best pointers are the sides' first slots, the price maps find each level's
slot and the id map each order's; the order pool hands out the same slots as the book's.

The edits a level makes on its order chain (`LevelNode.pushBack`, `LevelNode.remove`) and that the
book makes on a side's level chain (`LinkedBook.linkLevel`, `LinkedBook.removeLevel`) are proved
here on what the pools hold: each turns the held chain of a list into that of the list with one
cell added or taken out, and leaves every other entry alone.
-/

namespace Exchange

open Pool (nullIndex chain firstSlot lastSlot)

/-- Sets an order's links to the orders before and after it. -/
def OrderNode.link (o : OrderNode) (prev next : Nat) : OrderNode := { o with prev, next }

/-- Sets a level's links to the levels before and after it on its side. -/
def LevelNode.link (l : LevelNode) (better worse : Nat) : LevelNode := { l with better, worse }

namespace OrderNode

variable (o : OrderNode) (p n : Nat)

@[simp] theorem link_link (p' n' : Nat) : (o.link p n).link p' n' = o.link p' n' := rfl
@[simp] theorem prev_link : (o.link p n).prev = p := rfl
@[simp] theorem next_link : (o.link p n).next = n := rfl
@[simp] theorem orderId_link : (o.link p n).orderId = o.orderId := rfl
@[simp] theorem clientId_link : (o.link p n).clientId = o.clientId := rfl
@[simp] theorem qty_link : (o.link p n).qty = o.qty := rfl
@[simp] theorem priority_link : (o.link p n).priority = o.priority := rfl
@[simp] theorem side_link : (o.link p n).side = o.side := rfl
@[simp] theorem price_link : (o.link p n).price = o.price := rfl

end OrderNode

namespace LevelNode

variable (l : LevelNode) (b w : Nat)

@[simp] theorem link_link (b' w' : Nat) : (l.link b w).link b' w' = l.link b' w' := rfl
@[simp] theorem better_link : (l.link b w).better = b := rfl
@[simp] theorem worse_link : (l.link b w).worse = w := rfl
@[simp] theorem head_link : (l.link b w).head = l.head := rfl
@[simp] theorem tail_link : (l.link b w).tail = l.tail := rfl
@[simp] theorem count_link : (l.link b w).count = l.count := rfl
@[simp] theorem totalQty_link : (l.link b w).totalQty = l.totalQty := rfl
@[simp] theorem side_link : (l.link b w).side = l.side := rfl
@[simp] theorem price_link : (l.link b w).price = l.price := rfl

end LevelNode

/-- The node that stores a resting order of a level, unlinked. -/
def Resting.node (o : Resting) (ticker : TickerId) (side : Side) (price : Price) : OrderNode :=
  { tickerId := ticker, clientId := o.clientId, orderId := o.orderId, side, price, qty := o.qty,
    priority := o.priority, next := nullIndex, prev := nullIndex }

namespace Resting

variable (o : Resting) (t : TickerId) (s : Side) (p : Price)

@[simp] theorem tickerId_node : (o.node t s p).tickerId = t := rfl
@[simp] theorem clientId_node : (o.node t s p).clientId = o.clientId := rfl
@[simp] theorem orderId_node : (o.node t s p).orderId = o.orderId := rfl
@[simp] theorem side_node : (o.node t s p).side = s := rfl
@[simp] theorem price_node : (o.node t s p).price = p := rfl

end Resting

namespace Level

/-- A level's orders as cells of the order pool: each one's slot and node, oldest first. -/
def cells (l : Level) (ticker : TickerId) (side : Side) : List (Nat × OrderNode) :=
  l.orders.map fun o => (o.slot, o.node ticker side l.price)

/-- What the order pool holds for a level: its orders' nodes linked oldest first. -/
def orderEntries (l : Level) (ticker : TickerId) (side : Side) : List (OrderNode × Nat) :=
  chain OrderNode.link nullIndex (l.cells ticker side) nullIndex

/-- The node that stores a level, unlinked: its side and price, the slots of its oldest and
newest orders, and its order count and total quantity as words. -/
def node (l : Level) (side : Side) : LevelNode :=
  { side, price := l.price, head := (l.orders.map (·.slot)).headD nullIndex,
    tail := (l.orders.map (·.slot)).getLastD nullIndex, totalQty := UInt64.ofNat l.totalQty,
    count := UInt32.ofNat l.count, better := nullIndex, worse := nullIndex }

variable (l : Level) (s : Side)

@[simp] theorem head_node : (l.node s).head = (l.orders.map (·.slot)).headD nullIndex := rfl
@[simp] theorem tail_node : (l.node s).tail = (l.orders.map (·.slot)).getLastD nullIndex := rfl
@[simp] theorem count_node : (l.node s).count = UInt32.ofNat l.count := rfl
@[simp] theorem totalQty_node : (l.node s).totalQty = UInt64.ofNat l.totalQty := rfl
@[simp] theorem side_node : (l.node s).side = s := rfl
@[simp] theorem price_node : (l.node s).price = l.price := rfl

end Level

/-- The levels of both sides, best first, each with the slot of its node. -/
structure Placed where
  bids : List (Nat × Level)
  asks : List (Nat × Level)

namespace Placed

def side (P : Placed) : Side → List (Nat × Level)
  | .buy => P.bids
  | .sell => P.asks
  | .invalid => []

/-- Replaces the levels of a valid side. -/
def withSide (P : Placed) (s : Side) (ps : List (Nat × Level)) : Placed :=
  match s with
  | .buy => { P with bids := ps }
  | .sell => { P with asks := ps }
  | .invalid => P

/-- A side's levels as cells of the level pool, best first. -/
def levelCells (side : Side) (ps : List (Nat × Level)) : List (Nat × LevelNode) :=
  ps.map fun e => (e.1, e.2.node side)

/-- What the order pool holds for a side's levels. -/
def sideOrders (ticker : TickerId) (side : Side) (ps : List (Nat × Level)) : List (OrderNode × Nat) :=
  ps.flatMap fun e => e.2.orderEntries ticker side

/-- What the level pool holds for a side: its levels' nodes linked best first. -/
def sideLevels (side : Side) (ps : List (Nat × Level)) : List (LevelNode × Nat) :=
  chain LevelNode.link nullIndex (levelCells side ps) nullIndex

def orderEntries (P : Placed) (ticker : TickerId) : List (OrderNode × Nat) :=
  sideOrders ticker .buy P.bids ++ sideOrders ticker .sell P.asks

def levelEntries (P : Placed) : List (LevelNode × Nat) :=
  sideLevels .buy P.bids ++ sideLevels .sell P.asks

end Placed

/-- **The linked book `lb` stores the book `b`**, with its levels in the slots `P` gives them:
the order pool holds each level's orders linked oldest first and hands out the slots the book's
pool does; the level pool holds each side's levels linked best first; the best pointers are the
sides' first slots, and the price maps and the id map record each level's and each order's slot. -/
structure LinkedBook.Stores (lb : LinkedBook) (b : Book) (P : Placed) : Prop where
  ticker : lb.ticker = b.ticker
  sides : ∀ side, b.levels side = (P.side side).map (·.2)
  orders : lb.orders.Holds (P.orderEntries lb.ticker)
  orderIds : lb.orders.map (·.orderId) = b.orderSlots
  levels : lb.levels.Holds P.levelEntries
  best : ∀ side, lb.bestIndex side = firstSlot (P.side side) nullIndex
  priceMap : ∀ side m, lb.levelMap side = some m →
    m.entries.Perm ((P.side side).map fun e => (e.2.price, e.1))
  orderMap : lb.orderMap.entries.Perm (b.orders.map Resting.handle)
  levelCapacity : lb.levels.capacity = b.levelCapacity
  ordersFit : lb.orders.capacity < nullIndex
  levelsFit : lb.levels.capacity < nullIndex

/-! ## The two sides -/

namespace Placed

variable {P : Placed} {s : Side} {ps : List (Nat × Level)} {t : TickerId}

@[simp] theorem side_invalid (P : Placed) : P.side .invalid = [] := rfl

theorem side_withSide_self (hv : s.isValid = true) : (P.withSide s ps).side s = ps := by
  cases s <;> first | rfl | cases hv

theorem side_withSide_of_ne {s' : Side} (h : s' ≠ s) : (P.withSide s ps).side s' = P.side s' := by
  cases s <;> cases s' <;> first | rfl | exact absurd rfl h

@[simp] theorem withSide_side : P.withSide s (P.side s) = P := by
  cases s <;> rfl

theorem orderEntries_perm (hv : s.isValid = true) :
    (P.orderEntries t).Perm (sideOrders t s (P.side s) ++ sideOrders t s.opposite (P.side s.opposite)) := by
  cases s
  · exact List.Perm.refl _
  · exact List.perm_append_comm
  · cases hv

theorem levelEntries_perm (hv : s.isValid = true) :
    P.levelEntries.Perm (sideLevels s (P.side s) ++ sideLevels s.opposite (P.side s.opposite)) := by
  cases s
  · exact List.Perm.refl _
  · exact List.perm_append_comm
  · cases hv

@[simp] theorem sideOrders_nil : sideOrders t s [] = [] := rfl

theorem sideOrders_append (ps ps' : List (Nat × Level)) :
    sideOrders t s (ps ++ ps') = sideOrders t s ps ++ sideOrders t s ps' := by
  simp [sideOrders]

@[simp] theorem sideOrders_cons (e : Nat × Level) (ps : List (Nat × Level)) :
    sideOrders t s (e :: ps) = e.2.orderEntries t s ++ sideOrders t s ps := by
  simp [sideOrders]

theorem sideOrders_perm (ps₁ ps₂ : List (Nat × Level)) (e : Nat × Level) :
    (sideOrders t s (ps₁ ++ e :: ps₂)).Perm (e.2.orderEntries t s ++ sideOrders t s (ps₁ ++ ps₂)) := by
  simp only [sideOrders_append, sideOrders_cons]
  exact List.perm_append_comm_assoc _ _ _

theorem orderEntries_withSide (hv : s.isValid = true) {ps₁ ps₂ : List (Nat × Level)}
    (e : Nat × Level) :
    ((P.withSide s (ps₁ ++ e :: ps₂)).orderEntries t).Perm
      (e.2.orderEntries t s ++ (sideOrders t s (ps₁ ++ ps₂) ++ sideOrders t s.opposite (P.side s.opposite))) := by
  refine (orderEntries_perm hv).trans ?_
  rw [side_withSide_self hv, side_withSide_of_ne (Side.opposite_ne hv), ← List.append_assoc]
  exact (sideOrders_perm ps₁ ps₂ e).append_right _

theorem levelEntries_withSide (hv : s.isValid = true) (ps' : List (Nat × Level)) :
    (P.withSide s ps').levelEntries.Perm (sideLevels s ps' ++ sideLevels s.opposite (P.side s.opposite)) := by
  refine (levelEntries_perm hv).trans ?_
  rw [side_withSide_self hv, side_withSide_of_ne (Side.opposite_ne hv)]

@[simp] theorem firstSlot_levelCells : firstSlot (levelCells s ps) nullIndex = firstSlot ps nullIndex := by
  cases ps <;> rfl

@[simp] theorem lastSlot_levelCells (b : Nat) : lastSlot (levelCells s ps) b = lastSlot ps b := by
  simp [lastSlot, levelCells, Function.comp_def]

@[simp] theorem levelCells_nil : levelCells s [] = [] := rfl

@[simp] theorem levelCells_cons (e : Nat × Level) (ps : List (Nat × Level)) :
    levelCells s (e :: ps) = (e.1, e.2.node s) :: levelCells s ps := rfl

theorem levelCells_append (ps ps' : List (Nat × Level)) :
    levelCells s (ps ++ ps') = levelCells s ps ++ levelCells s ps' := List.map_append

theorem sideLevels_append (ps₁ ps₂ : List (Nat × Level)) :
    sideLevels s (ps₁ ++ ps₂) = chain LevelNode.link nullIndex (levelCells s ps₁) (firstSlot ps₂ nullIndex) ++
      chain LevelNode.link (lastSlot ps₁ nullIndex) (levelCells s ps₂) nullIndex := by
  rw [sideLevels, levelCells_append, Pool.chain_append, firstSlot_levelCells, lastSlot_levelCells]

theorem sideLevels_middle (ps₁ ps₂ : List (Nat × Level)) (i : Nat) (l : Level) :
    sideLevels s (ps₁ ++ (i, l) :: ps₂) =
      chain LevelNode.link nullIndex (levelCells s ps₁) i ++
        ((l.node s).link (lastSlot ps₁ nullIndex) (firstSlot ps₂ nullIndex), i) ::
          chain LevelNode.link i (levelCells s ps₂) nullIndex := by
  have hcells : levelCells s (ps₁ ++ (i, l) :: ps₂) =
      levelCells s ps₁ ++ (i, l.node s) :: levelCells s ps₂ := by
    simp [levelCells]
  rw [sideLevels, hcells, Pool.chain_middle, firstSlot_levelCells, lastSlot_levelCells]

end Placed

/-! ## Counting a level's orders in words -/

namespace Level

@[simp] theorem count_mk (p : Price) (os : List Resting) : (Level.mk p os).count = os.length := rfl

theorem totalQty_mk (p : Price) (os : List Resting) :
    (Level.mk p os).totalQty = (os.map fun o => o.qty.toNat).foldr (· + ·) 0 := rfl

theorem totalQty_append (p : Price) (os os' : List Resting) :
    (Level.mk p (os ++ os')).totalQty = (Level.mk p os).totalQty + (Level.mk p os').totalQty := by
  simp only [totalQty_mk, List.map_append, List.foldr_append]
  generalize (os'.map fun o => o.qty.toNat).foldr (· + ·) 0 = n
  induction os with
  | nil => simp
  | cons o os ih => simp [ih]; omega

@[simp] theorem totalQty_cons (p : Price) (o : Resting) (os : List Resting) :
    (Level.mk p (o :: os)).totalQty = o.qty.toNat + (Level.mk p os).totalQty := rfl

@[simp] theorem totalQty_nil (p : Price) : (Level.mk p []).totalQty = 0 := rfl

theorem totalQty_le (l : Level) : l.totalQty ≤ l.count * 4294967295 := by
  obtain ⟨p, os⟩ := l
  induction os with
  | nil => simp
  | cons o os ih =>
    have := o.qty.toNat_lt
    simp only [totalQty_cons, count_mk, List.length_cons] at ih ⊢
    omega

end Level

/-! ## Counters in words -/

section Counters

variable {n T : Nat} {q : Qty}

theorem checkedAdd_count (h : n + 1 < 2 ^ 32) :
    checkedAdd UInt32.toNat UInt32.size (UInt32.ofNat n) 1 = .ok (UInt32.ofNat (n + 1)) := by
  have hn : (UInt32.ofNat n).toNat = n := by simp; omega
  rw [checkedAdd, if_pos (by simp only [hn, UInt32.reduceToNat, UInt32.size]; omega)]
  congr 1
  apply UInt32.toNat_inj.1
  simp only [UInt32.toNat_add, hn, UInt32.reduceToNat, UInt32.toNat_ofNat']

theorem checkedSub_count (h : n < 2 ^ 32) (hn : 0 < n) :
    checkedSub UInt32.toNat (UInt32.ofNat n) 1 = .ok (UInt32.ofNat (n - 1)) := by
  have hn' : (UInt32.ofNat n).toNat = n := by simp; omega
  rw [checkedSub, if_pos (by simp only [hn', UInt32.reduceToNat]; omega)]
  congr 1
  apply UInt32.toNat_inj.1
  rw [UInt32.toNat_sub_of_le _ _ (by rw [UInt32.le_iff_toNat_le, hn']; simp; omega), hn']
  simp; omega

theorem checkedAdd_total (h : T + q.toNat < 2 ^ 64) :
    checkedAdd UInt64.toNat UInt64.size (UInt64.ofNat T) q.toUInt64 = .ok (UInt64.ofNat (T + q.toNat)) := by
  have hT : (UInt64.ofNat T).toNat = T := by simp; omega
  rw [checkedAdd, if_pos (by simp only [hT, UInt32.toNat_toUInt64, UInt64.size]; omega)]
  congr 1
  apply UInt64.toNat_inj.1
  simp only [UInt64.toNat_add, hT, UInt32.toNat_toUInt64, UInt64.toNat_ofNat']

theorem checkedSub_total (h : T < 2 ^ 64) (hq : q.toNat ≤ T) :
    checkedSub UInt64.toNat (UInt64.ofNat T) q.toUInt64 = .ok (UInt64.ofNat (T - q.toNat)) := by
  have hT : (UInt64.ofNat T).toNat = T := by simp; omega
  rw [checkedSub, if_pos (by simp only [hT, UInt32.toNat_toUInt64]; omega)]
  congr 1
  apply UInt64.toNat_inj.1
  rw [UInt64.toNat_sub_of_le _ _ (by rw [UInt64.le_iff_toNat_le, hT]; simp; omega), hT]
  simp; omega

theorem ofNat_count_beq_zero (h : n < 2 ^ 32) : (UInt32.ofNat n == 0) = (n == 0) := by
  have hn : (UInt32.ofNat n).toNat = n := by simp; omega
  rw [Bool.eq_iff_iff, beq_iff_eq, beq_iff_eq, ← UInt32.toNat_inj, hn]
  rfl

end Counters

/-! ## Appending an order to its level -/

namespace LevelNode

variable {l : LevelNode} {orders orders₁ orders₂ : Pool OrderNode} {i : Nat} {v : OrderNode}

theorem pushBack_of_empty (ht : l.tail = nullIndex) (hh : l.head = nullIndex)
    (hget : orders.get i = .ok v)
    (hm : orders.modify i (fun o => { o with prev := nullIndex, next := nullIndex }) = .ok orders₁)
    {c : UInt32} {T : UInt64} (hc : checkedAdd UInt32.toNat UInt32.size l.count 1 = .ok c)
    (hT : checkedAdd UInt64.toNat UInt64.size l.totalQty v.qty.toUInt64 = .ok T) {l' : LevelNode}
    (hl' : { l with head := i, tail := i, count := c, totalQty := T } = l') :
    l.pushBack orders i = .ok (l', orders₁) := by
  subst hl'
  simp only [pushBack, hget, ht, hh, hm, hc, hT, bind, Except.bind, pure, Except.pure, if_true,
    ne_eq, not_true_eq_false, if_false]

theorem pushBack_of_tail (ht : l.tail ≠ nullIndex) (hget : orders.get i = .ok v)
    (hm₁ : orders.modify l.tail (fun o => { o with next := i }) = .ok orders₁)
    (hm₂ : orders₁.modify i (fun o => { o with prev := l.tail, next := nullIndex }) = .ok orders₂)
    {c : UInt32} {T : UInt64} (hc : checkedAdd UInt32.toNat UInt32.size l.count 1 = .ok c)
    (hT : checkedAdd UInt64.toNat UInt64.size l.totalQty v.qty.toUInt64 = .ok T) {l' : LevelNode}
    (hl' : { l with tail := i, count := c, totalQty := T } = l') :
    l.pushBack orders i = .ok (l', orders₂) := by
  subst hl'
  simp only [pushBack, hget, ht, hm₁, hm₂, hc, hT, bind, Except.bind, pure, Except.pure, if_false]

end LevelNode

/-! ## Held order chains -/

namespace Level

variable {t : TickerId} {s : Side} {p : Price} {os os' : List Resting}

@[simp] theorem cells_mk : (Level.mk p os).cells t s = os.map fun o => (o.slot, o.node t s p) := rfl

theorem orderEntries_mk :
    (Level.mk p os).orderEntries t s = chain OrderNode.link nullIndex (os.map fun o => (o.slot, o.node t s p)) nullIndex :=
  rfl

theorem head_node_eq (t : TickerId) (l : Level) : (l.node s).head = Pool.firstSlot (l.cells t s) nullIndex := by
  simp [Pool.firstSlot, cells, Function.comp_def]

theorem tail_node_eq (t : TickerId) (l : Level) : (l.node s).tail = Pool.lastSlot (l.cells t s) nullIndex := by
  simp [Pool.lastSlot, cells, Function.comp_def]

@[simp] theorem qty_node (o : Resting) : (o.node t s p).qty = o.qty := rfl

@[simp] theorem priority_node (o : Resting) : (o.node t s p).priority = o.priority := rfl

@[simp] theorem node_link_null (o : Resting) : (o.node t s p).link nullIndex nullIndex = o.node t s p := rfl

end Level

namespace LevelNode

variable {orders : Pool OrderNode} {rest : List (OrderNode × Nat)} {t : TickerId} {s : Side}
  {p : Price} {os : List Resting} {o : Resting} {v : OrderNode} {b w : Nat}

/-- **A held level hands out the priority its list does**: one past its newest order's, or 1;
an order that holds the largest priority is an overflow for both. -/
theorem nextPriority_chain (h : orders.Holds ((Level.mk p os).orderEntries t s ++ rest))
    (hcap : orders.capacity < nullIndex) :
    (((Level.mk p os).node s).link b w).nextPriority orders = (Level.mk p os).nextPriority := by
  rcases List.eq_nil_or_concat os with rfl | ⟨os, last, rfl⟩
  · rfl
  rw [List.concat_eq_append] at h ⊢
  have htail : last.slot ≠ nullIndex := by
    have := h.slot_lt_capacity (i := last.slot) (by simp [Level.orderEntries_mk])
    omega
  have hsplit : (Level.mk p (os ++ [last])).orderEntries t s ++ rest =
      chain OrderNode.link nullIndex (os.map fun o => (o.slot, o.node t s p)) last.slot ++
        ((last.node t s p).link (Pool.lastSlot (os.map fun o => (o.slot, o.node t s p)) nullIndex)
          nullIndex, last.slot) :: rest := by
    simp [Level.orderEntries_mk, Pool.chain_append, Pool.chain_cons]
  rw [hsplit] at h
  have htl : (((Level.mk p (os ++ [last])).node s).link b w).tail = last.slot := by simp
  simp only [nextPriority, htl, htail, if_false, h.get_mid, bind, Except.bind, Level.nextPriority,
    List.getLast?_concat, checkedAdd, OrderNode.priority_link, Level.priority_node]
  -- the newest priority is the largest exactly when one more leaves the word
  by_cases hp : last.priority = noPriority
  · simp [hp, noPriority]
  · have hlt : last.priority.toNat + 1 < UInt64.size := by
      have := last.priority.toNat_lt
      have hne : last.priority.toNat ≠ 18446744073709551615 := fun e =>
        hp (UInt64.toNat_inj.1 (by simp [e, noPriority]))
      simp only [UInt64.size]
      omega
    simp [hlt, hp]

/-- **Appending an order to a held level.** When the order pool holds a level's chain and, in a
slot of its own, the node of a new order, `pushBack` links the node after the level's newest
order: the pool holds the chain of the level with the order appended, and the level's node is
that level's, its count and total grown by the order. No order's id changes. -/
theorem pushBack_chain (h : orders.Holds ((v, o.slot) :: (Level.mk p os).orderEntries t s ++ rest))
    (hv : v.link nullIndex nullIndex = o.node t s p) (hcap : orders.capacity < nullIndex)
    (hcount : os.length + 1 < 2 ^ 32) (htotal : (Level.mk p os).totalQty + o.qty.toNat < 2 ^ 64) :
    ∃ orders', (((Level.mk p os).node s).link b w).pushBack orders o.slot =
        .ok (((Level.mk p (os ++ [o])).node s).link b w, orders') ∧
      orders'.Holds ((Level.mk p (os ++ [o])).orderEntries t s ++ rest) ∧
      orders'.map (·.orderId) = orders.map (·.orderId) := by
  have hqty : v.qty = o.qty := congrArg OrderNode.qty hv
  have hget : orders.get o.slot = .ok v := h.get_head
  have hT := checkedAdd_total (q := v.qty) (hqty ▸ htotal)
  have hc := checkedAdd_count hcount
  rcases List.eq_nil_or_concat os with rfl | ⟨os, last, rfl⟩
  · -- an empty level: the order becomes its oldest and newest
    obtain ⟨orders₁, hm, h₁⟩ := h.modify_head fun o => { o with prev := nullIndex, next := nullIndex }
    refine ⟨orders₁, pushBack_of_empty rfl rfl hget hm hc hT ?_, ?_, Pool.map_modify hm fun _ => rfl⟩
    · simp [Level.node, link, hqty]
    · have e : (Level.mk p ([] ++ [o])).orderEntries t s ++ rest = (v.link nullIndex nullIndex, o.slot) :: rest := by
        simp [Level.orderEntries_mk, Pool.chain_cons, hv]
      rw [e]
      exact h₁
  rw [List.concat_eq_append] at h hc hT ⊢
  set cells := (os ++ [last]).map fun o => (o.slot, o.node t s p)
  have hlast : Pool.lastSlot cells nullIndex = last.slot := by simp [cells]
  have htl : (((Level.mk p (os ++ [last])).node s).link b w).tail = last.slot := by
    rw [tail_link, Level.tail_node_eq t, Level.cells_mk, hlast]
  have h' : orders.Holds ([(v, o.slot)] ++ chain OrderNode.link nullIndex cells nullIndex ++ rest) := h
  obtain ⟨orders₁, hm₁, h₁⟩ := Pool.Holds.relink_last (y := o.slot)
    (f := fun o' : OrderNode => { o' with next := o.slot }) (fun _ _ _ => rfl) h' (by simp [cells])
  rw [hlast] at hm₁
  obtain ⟨orders₂, hm₂, h₂⟩ := (show orders₁.Holds ((v, o.slot) ::
      (chain OrderNode.link nullIndex cells o.slot ++ rest)) by simpa using h₁).modify_head
    fun o' => { o' with prev := last.slot, next := nullIndex }
  have hvl : ({ v with prev := last.slot, next := nullIndex } : OrderNode) =
      (o.node t s p).link last.slot nullIndex := by
    rw [← hv]; rfl
  have htail : last.slot ≠ nullIndex := by
    have := h.slot_lt_capacity (i := last.slot) (by simp [Level.orderEntries_mk])
    omega
  refine ⟨orders₂, pushBack_of_tail (by rw [htl]; exact htail) hget
    (by rw [htl]; exact hm₁) (by rw [htl]; exact hm₂) hc hT ?_, ?_, ?_⟩
  · simp only [Level.node, link, List.map_append, List.map_cons, List.map_nil, Level.count_mk,
      Level.totalQty_append, Level.totalQty_cons, Level.totalQty_nil, hqty]
    simp [UInt32.add_assoc]
  · -- the new node's entry moves behind the newest order's
    have hfinal : (Level.mk p (os ++ [last] ++ [o])).orderEntries t s ++ rest =
        chain OrderNode.link nullIndex cells o.slot ++
          ((o.node t s p).link last.slot nullIndex, o.slot) :: rest := by
      simp [Level.orderEntries_mk, Pool.chain_append, Pool.chain_cons, cells]
    rw [hfinal, ← hvl]
    exact h₂.perm (by simpa using List.perm_middle.symm)
  · rw [Pool.map_modify hm₂ fun _ => rfl, Pool.map_modify hm₁ fun _ => rfl]

end LevelNode

/-! ## Unlinking an order from its level -/

namespace LevelNode

variable {orders orders₁ orders₂ orders₃ : Pool OrderNode} {l l₁ l₂ : LevelNode} {i : Nat}
  {node : OrderNode}

theorem remove_eq (hget : orders.get i = .ok node)
    (hA : node.prev = nullIndex ∧ l.head = i ∧ { l with head := node.next } = l₁ ∧ orders = orders₁ ∨
      node.prev ≠ nullIndex ∧ l = l₁ ∧
        orders.modify node.prev (fun o => { o with next := node.next }) = .ok orders₁)
    (hB : node.next = nullIndex ∧ l₁.tail = i ∧ { l₁ with tail := node.prev } = l₂ ∧ orders₁ = orders₂ ∨
      node.next ≠ nullIndex ∧ l₁ = l₂ ∧
        orders₁.modify node.next (fun o => { o with prev := node.prev }) = .ok orders₂)
    {c : UInt32} {T : UInt64} (hc : checkedSub UInt32.toNat l₂.count 1 = .ok c)
    (hT : checkedSub UInt64.toNat l₂.totalQty node.qty.toUInt64 = .ok T)
    (hm : orders₂.modify i (fun o => { o with prev := nullIndex, next := nullIndex }) = .ok orders₃) :
    l.remove orders i = .ok (c == 0, { l₂ with count := c, totalQty := T }, orders₃) := by
  rcases hA with ⟨h₁, h₂, rfl, rfl⟩ | ⟨h₁, rfl, h₂⟩ <;>
    rcases hB with ⟨h₃, h₄, rfl, rfl⟩ | ⟨h₃, rfl, h₄⟩ <;>
    simp_all [remove, bind, Except.bind, pure, Except.pure]

variable {X Y : List (Nat × OrderNode)} {A B : List (OrderNode × Nat)} {L R : Nat}

theorem unlinkPrev_chain (node : OrderNode) (h : orders.Holds (chain OrderNode.link nullIndex X i ++ B))
    (hnull : nullIndex ∉ X.map (·.1)) (hprev : node.prev = Pool.lastSlot X nullIndex)
    (hnext : node.next = R) (hhead : l.head = Pool.firstSlot X i) :
    ∃ orders₁, (node.prev = nullIndex ∧ l.head = i ∧
        { l with head := node.next } = { l with head := Pool.firstSlot X R } ∧ orders = orders₁ ∨
      node.prev ≠ nullIndex ∧ l = { l with head := Pool.firstSlot X R } ∧
        orders.modify node.prev (fun o => { o with next := node.next }) = .ok orders₁) ∧
      orders₁.Holds (chain OrderNode.link nullIndex X R ++ B) ∧
      orders₁.map (·.orderId) = orders.map (·.orderId) := by
  by_cases hX : X = []
  · subst hX
    exact ⟨orders, .inl ⟨hprev, hhead, by rw [hnext]; rfl, rfl⟩, by simpa using h, rfl⟩
  obtain ⟨orders₁, hm, h₁⟩ := Pool.Holds.relink_last (A := []) (f := fun o => { o with next := R })
    (fun _ _ _ => rfl) (by simpa using h) hX
  have hslot : Pool.lastSlot X nullIndex ≠ nullIndex := fun he => hnull (he ▸ Pool.lastSlot_mem hX)
  refine ⟨orders₁, .inr ⟨by rwa [hprev], ?_, by rw [hprev, hnext]; exact hm⟩, by simpa using h₁,
    Pool.map_modify hm fun _ => rfl⟩
  rw [Pool.firstSlot_of_ne_nil hX i, ← hhead]

theorem unlinkNext_chain (node : OrderNode) (h : orders.Holds (A ++ chain OrderNode.link i Y nullIndex ++ B))
    (hnull : nullIndex ∉ Y.map (·.1)) (hprev : node.prev = L)
    (hnext : node.next = Pool.firstSlot Y nullIndex) (htail : l.tail = Pool.lastSlot Y i) :
    ∃ orders₂, (node.next = nullIndex ∧ l.tail = i ∧
        { l with tail := node.prev } = { l with tail := Pool.lastSlot Y L } ∧ orders = orders₂ ∨
      node.next ≠ nullIndex ∧ l = { l with tail := Pool.lastSlot Y L } ∧
        orders.modify node.next (fun o => { o with prev := node.prev }) = .ok orders₂) ∧
      orders₂.Holds (A ++ chain OrderNode.link L Y nullIndex ++ B) ∧
      orders₂.map (·.orderId) = orders.map (·.orderId) := by
  by_cases hY : Y = []
  · subst hY
    exact ⟨orders, .inl ⟨hnext, htail, by rw [hprev]; rfl, rfl⟩, by simpa using h, rfl⟩
  obtain ⟨orders₂, hm, h₂⟩ := Pool.Holds.relink_first (g := fun o => { o with prev := L })
    (fun _ _ _ => rfl) h hY
  have hslot : Pool.firstSlot Y nullIndex ≠ nullIndex := fun he => hnull (he ▸ Pool.firstSlot_mem hY)
  refine ⟨orders₂, .inr ⟨by rwa [hnext], ?_, by rw [hprev, hnext]; exact hm⟩, h₂,
    Pool.map_modify hm fun _ => rfl⟩
  rw [Pool.lastSlot_of_ne_nil hY i, ← htail]

variable {rest : List (OrderNode × Nat)} {t : TickerId} {s : Side} {p : Price}
  {xs ys : List Resting} {o : Resting} {b w : Nat}

/-- **Removing an order from a held level.** When the order pool holds a level's chain, `remove`
unlinks one of its orders: the pool holds the chain of the level without it and, apart, the
order's node with its links cleared; the level's node is that level's, and the flag says whether
the level is now empty. -/
theorem remove_chain (h : orders.Holds ((Level.mk p (xs ++ o :: ys)).orderEntries t s ++ rest))
    (hcap : orders.capacity < nullIndex) (hcount : (xs ++ o :: ys).length < 2 ^ 32)
    (htotal : (Level.mk p (xs ++ o :: ys)).totalQty < 2 ^ 64) :
    ∃ orders', (((Level.mk p (xs ++ o :: ys)).node s).link b w).remove orders o.slot =
        .ok ((xs ++ ys).isEmpty, ((Level.mk p (xs ++ ys)).node s).link b w, orders') ∧
      orders'.Holds ((o.node t s p, o.slot) :: (Level.mk p (xs ++ ys)).orderEntries t s ++ rest) ∧
      orders'.map (·.orderId) = orders.map (·.orderId) := by
  set X := xs.map fun o => (o.slot, o.node t s p)
  set Y := ys.map fun o => (o.slot, o.node t s p)
  set l := ((Level.mk p (xs ++ o :: ys)).node s).link b w
  have hsplit : (Level.mk p (xs ++ o :: ys)).orderEntries t s ++ rest =
      chain OrderNode.link nullIndex X o.slot ++
        (((o.node t s p).link (Pool.lastSlot X nullIndex) (Pool.firstSlot Y nullIndex), o.slot) ::
          chain OrderNode.link o.slot Y nullIndex ++ rest) := by
    simp [Level.orderEntries_mk, Pool.chain_middle, X, Y]
  rw [hsplit] at h
  have hget := Pool.Holds.get_mid h
  have hX : nullIndex ∉ X.map (·.1) := h.nullIndex_not_mem hcap (by simp)
  have hY : nullIndex ∉ Y.map (·.1) := h.nullIndex_not_mem hcap (by intro x hx; simp [hx])
  obtain ⟨orders₁, hA, h₁, hid₁⟩ := unlinkPrev_chain (l := l)
    ((o.node t s p).link (Pool.lastSlot X nullIndex) (Pool.firstSlot Y nullIndex)) h hX rfl rfl
    (by rw [head_link, Level.head_node_eq t, Level.cells_mk, List.map_append, List.map_cons,
      Pool.firstSlot_append, Pool.firstSlot_cons])
  obtain ⟨orders₂, hB, h₂, hid₂⟩ := unlinkNext_chain (l := { l with head := Pool.firstSlot X (Pool.firstSlot Y nullIndex) })
    (A := chain OrderNode.link nullIndex X (Pool.firstSlot Y nullIndex) ++
      [((o.node t s p).link (Pool.lastSlot X nullIndex) (Pool.firstSlot Y nullIndex), o.slot)])
    ((o.node t s p).link (Pool.lastSlot X nullIndex) (Pool.firstSlot Y nullIndex)) (by simpa using h₁) hY rfl rfl
    (by rw [tail_link, Level.tail_node_eq t, Level.cells_mk, List.map_append, List.map_cons,
      Pool.lastSlot_append, Pool.lastSlot_cons])
  have h₂' : orders₂.Holds (chain OrderNode.link nullIndex X (Pool.firstSlot Y nullIndex) ++
      ((o.node t s p).link (Pool.lastSlot X nullIndex) (Pool.firstSlot Y nullIndex), o.slot) ::
        (chain OrderNode.link (Pool.lastSlot X nullIndex) Y nullIndex ++ rest)) := by
    simpa using h₂
  obtain ⟨orders₃, hm, h₃⟩ := h₂'.modify_entry fun o => { o with prev := nullIndex, next := nullIndex }
  have hlen : (Level.mk p (xs ++ o :: ys)).count - 1 = (xs ++ ys).length := by simp
  have hqty : (Level.mk p (xs ++ o :: ys)).totalQty - o.qty.toNat = (Level.mk p (xs ++ ys)).totalQty := by
    simp [Level.totalQty_append]; omega
  refine ⟨orders₃, remove_eq hget hA hB (checkedSub_count hcount
    (by simp only [Level.count_mk, List.length_append, List.length_cons]; omega))
    (checkedSub_total htotal (by simp [Level.totalQty_append]; omega)) hm |>.trans ?_, ?_,
    by rw [Pool.map_modify hm fun _ => rfl, hid₂, hid₁]⟩
  · have hhead : Pool.firstSlot X (Pool.firstSlot Y nullIndex) = ((Level.mk p (xs ++ ys)).node s).head := by
      rw [Level.head_node_eq t, Level.cells_mk, List.map_append, Pool.firstSlot_append]
    have htail : Pool.lastSlot Y (Pool.lastSlot X nullIndex) = ((Level.mk p (xs ++ ys)).node s).tail := by
      rw [Level.tail_node_eq t, Level.cells_mk, List.map_append, Pool.lastSlot_append]
    have hlt : (xs ++ ys).length < 2 ^ 32 := by simp at hcount ⊢; omega
    simp only [Except.ok.injEq, Prod.mk.injEq, and_true]
    constructor
    · rw [hlen, ofNat_count_beq_zero hlt]
      cases xs ++ ys <;> rfl
    · dsimp only [l]
      simp only [OrderNode.prev_link, OrderNode.qty_link, Level.qty_node, hlen, hqty, hhead, htail]
      rfl
  · have e : (Level.mk p (xs ++ ys)).orderEntries t s = chain OrderNode.link nullIndex X (Pool.firstSlot Y nullIndex) ++
        chain OrderNode.link (Pool.lastSlot X nullIndex) Y nullIndex := by
      rw [Level.orderEntries_mk, List.map_append, Pool.chain_append]
    rw [e]
    exact h₃.perm (by rw [List.cons_append, List.append_assoc]; exact List.perm_middle)

end LevelNode

/-! ## Placing a level on its side -/

namespace Placed

variable {s : Side} {price : Price} {ps : List (Nat × Level)}

/-- The levels of a side that a new level at `price` goes after: those it does not beat. -/
def before (s : Side) (price : Price) (ps : List (Nat × Level)) : List (Nat × Level) :=
  ps.takeWhile fun e => !ranksBefore s price e.2.price

/-- The levels of a side that a new level at `price` goes before. -/
def after (s : Side) (price : Price) (ps : List (Nat × Level)) : List (Nat × Level) :=
  ps.dropWhile fun e => !ranksBefore s price e.2.price

theorem before_append_after : before s price ps ++ after s price ps = ps :=
  List.takeWhile_append_dropWhile

theorem before_cons_of_beats {e : Nat × Level} (h : ranksBefore s price e.2.price = true) :
    before s price (e :: ps) = [] := by
  simp [before, h]

theorem after_cons_of_beats {e : Nat × Level} (h : ranksBefore s price e.2.price = true) :
    after s price (e :: ps) = e :: ps := by
  simp [after, h]

theorem before_cons_of_not_beats {e : Nat × Level} (h : ranksBefore s price e.2.price = false) :
    before s price (e :: ps) = e :: before s price ps := by
  simp [before, h]

theorem after_cons_of_not_beats {e : Nat × Level} (h : ranksBefore s price e.2.price = false) :
    after s price (e :: ps) = after s price ps := by
  simp [after, h]

theorem placeLevel_map (s : Side) (e : Nat × Level) : ∀ ps : List (Nat × Level),
    Book.placeLevel s e.2 (ps.map (·.2)) = (before s e.2.price ps ++ e :: after s e.2.price ps).map (·.2)
  | [] => rfl
  | f :: ps => by
    cases hb : ranksBefore s e.2.price f.2.price
    · rw [before_cons_of_not_beats hb, after_cons_of_not_beats hb, List.map_cons, Book.placeLevel,
        if_neg (by simp [hb]), placeLevel_map s e ps]
      rfl
    · rw [before_cons_of_beats hb, after_cons_of_beats hb, List.map_cons, Book.placeLevel, if_pos hb]
      rfl

end Placed

@[simp] theorem LevelNode.isBeatenBy_node (l : Level) (s : Side) (b w : Nat) (price : Price) :
    ((l.node s).link b w).isBeatenBy price = ranksBefore s price l.price := rfl

namespace LinkedBook

variable {levels : Pool LevelNode} {s : Side} {price : Price}

/-- **The search for a new level's place** walks a held side chain from its first level, past
the levels the new price does not beat, and stops between the last of them and the first it
beats. -/
theorem findPlace_chain : ∀ (ps : List (Nat × Level)) (b fuel : Nat),
    (∀ e ∈ chain LevelNode.link b (Placed.levelCells s ps) nullIndex,
      levels.slots[e.2]? = some (some e.1)) →
    nullIndex ∉ ps.map (·.1) → (Placed.before s price ps).length ≤ fuel →
    findPlace levels price fuel b (firstSlot ps nullIndex) =
      .ok (lastSlot (Placed.before s price ps) b, firstSlot (Placed.after s price ps) nullIndex)
  | [], b, fuel, _, _, _ => by cases fuel <;> rfl
  | (j, l) :: ps, b, fuel, hheld, hnull, hfuel => by
    have hj : j ≠ nullIndex := fun e => hnull (by simp [e])
    have hget : levels.get j = .ok ((l.node s).link b (firstSlot ps nullIndex)) :=
      Pool.get_of_getElem? (hheld ((l.node s).link b (firstSlot ps nullIndex), j) (by simp [Pool.chain_cons]))
    cases hbeat : ranksBefore s price l.price
    · -- the new level goes after `l`: walk on
      rw [Placed.before_cons_of_not_beats hbeat] at hfuel ⊢
      rw [Placed.after_cons_of_not_beats hbeat]
      obtain ⟨fuel, rfl⟩ : ∃ k, fuel = k + 1 := ⟨fuel - 1, by simp at hfuel; omega⟩
      have ih := findPlace_chain ps j fuel
        (fun e he => hheld e (by simp [Pool.chain_cons, he]))
        (fun e => hnull (by simp at e ⊢; simp [e])) (by simpa using hfuel)
      simpa [findPlace, hj, hget, hbeat, bind, Except.bind] using ih
    · -- the new level goes before `l`
      rw [Placed.before_cons_of_beats hbeat, Placed.after_cons_of_beats hbeat]
      cases fuel <;> simp [findPlace, hj, hget, hbeat, bind, Except.bind]

@[simp] theorem levels_setBest (lb : LinkedBook) (s : Side) (i : Nat) : (lb.setBest s i).levels = lb.levels := by
  cases s <;> rfl

theorem setBest_with_levels (lb : LinkedBook) (s : Side) (i : Nat) (levels : Pool LevelNode) :
    ({ lb with levels } : LinkedBook).setBest s i = { lb.setBest s i with levels } := by
  cases s <;> rfl

theorem setBest_bestIndex {lb : LinkedBook} (hv : s.isValid = true) : lb.setBest s (lb.bestIndex s) = lb := by
  cases s <;> first | rfl | cases hv

theorem linkLevel_eq {lb lb₂ lb₃ : LinkedBook} {i L R : Nat} {levels₁ : Pool LevelNode}
    (hf : findPlace lb.levels price lb.levels.capacity nullIndex (lb.bestIndex s) = .ok (L, R))
    (hm : lb.levels.modify i (fun l => { l with better := L, worse := R }) = .ok levels₁)
    (hA : L = nullIndex ∧ ({ lb with levels := levels₁ } : LinkedBook).setBest s i = lb₂ ∨
      L ≠ nullIndex ∧ ∃ levels₂, levels₁.modify L (fun l => { l with worse := i }) = .ok levels₂ ∧
        { lb with levels := levels₂ } = lb₂)
    (hB : R = nullIndex ∧ lb₂ = lb₃ ∨
      R ≠ nullIndex ∧ ∃ levels₃, lb₂.levels.modify R (fun l => { l with better := i }) = .ok levels₃ ∧
        { lb₂ with levels := levels₃ } = lb₃) :
    lb.linkLevel s i price = .ok lb₃ := by
  rcases hA with ⟨h₁, rfl⟩ | ⟨h₁, levels₂, h₂, rfl⟩ <;>
    rcases hB with ⟨h₃, rfl⟩ | ⟨h₃, levels₃, h₄, rfl⟩ <;>
    simp_all [linkLevel, bind, Except.bind, pure, Except.pure]

theorem new_eq_node (s : Side) (price : Price) : LevelNode.new s price = (Level.mk price []).node s := rfl

/-- **Linking a new level into a held side.** When the level pool holds a side's chain and, in
slot `i`, a new level at `price`, `linkLevel` links the level after the side's levels that `price`
does not beat and before the others: the pool holds the side's chain with the new level in its
place, and the side's best is the chain's first level. -/
theorem linkLevel_chain {lb : LinkedBook} {i : Nat} {ps : List (Nat × Level)}
    {rest : List (LevelNode × Nat)} (hv : s.isValid = true)
    (h : lb.levels.Holds ((LevelNode.new s price, i) :: Placed.sideLevels s ps ++ rest))
    (hbest : lb.bestIndex s = firstSlot ps nullIndex) (hcap : lb.levels.capacity < nullIndex) :
    ∃ levels', lb.linkLevel s i price =
        .ok { lb.setBest s (firstSlot (Placed.before s price ps ++ (i, ⟨price, []⟩) ::
          Placed.after s price ps) nullIndex) with levels := levels' } ∧
      levels'.Holds (Placed.sideLevels s (Placed.before s price ps ++ (i, ⟨price, []⟩) ::
        Placed.after s price ps) ++ rest) ∧ levels'.capacity = lb.levels.capacity := by
  set B := Placed.before s price ps
  set A := Placed.after s price ps
  have hps : B ++ A = ps := Placed.before_append_after
  set L := lastSlot B nullIndex
  set R := firstSlot A nullIndex
  have hslots : (Placed.sideLevels s ps).map (·.2) = ps.map (·.1) := by
    simp [Placed.sideLevels, Placed.levelCells, Function.comp_def]
  have hnull : nullIndex ∉ ps.map (·.1) :=
    h.nullIndex_not_mem hcap (by intro x hx; rw [← hslots] at hx; simp [hx])
  have hsplit : Placed.sideLevels s ps = chain LevelNode.link nullIndex (Placed.levelCells s B) R ++
      chain LevelNode.link L (Placed.levelCells s A) nullIndex := by
    rw [← hps, Placed.sideLevels_append]
  -- the walk stops between the last level of `B` and the first of `A`
  have hfuel : B.length ≤ lb.levels.capacity := by
    have hlen := h.length_le
    have hps_len : ps.length = (Placed.sideLevels s ps).length := by
      simpa using (congrArg List.length hslots).symm
    have hB_len : B.length ≤ ps.length := (List.takeWhile_sublist _).length_le
    simp only [List.length_cons, List.length_append] at hlen
    omega
  have hf : findPlace lb.levels price lb.levels.capacity nullIndex (lb.bestIndex s) = .ok (L, R) := by
    rw [hbest]
    exact findPlace_chain ps nullIndex _ (fun e he => h.mem e (by simp [Placed.sideLevels, he]))
      hnull hfuel
  have h' : lb.levels.Holds ((LevelNode.new s price, i) ::
      (chain LevelNode.link nullIndex (Placed.levelCells s B) R ++
        (chain LevelNode.link L (Placed.levelCells s A) nullIndex ++ rest))) := by
    simpa only [hsplit, List.cons_append, List.append_assoc] using h
  obtain ⟨levels₁, hm, h₁⟩ := h'.modify_head fun l => { l with better := L, worse := R }
  replace h₁ : levels₁.Holds (((LevelNode.new s price).link L R, i) ::
      chain LevelNode.link nullIndex (Placed.levelCells s B) R ++
        chain LevelNode.link L (Placed.levelCells s A) nullIndex ++ rest) := by
    simp only [List.cons_append, List.append_assoc]
    exact h₁
  obtain ⟨lb₂, hA, h₂, hlb₂, hcap₂⟩ : ∃ lb₂ : LinkedBook,
      (L = nullIndex ∧ ({ lb with levels := levels₁ } : LinkedBook).setBest s i = lb₂ ∨
        L ≠ nullIndex ∧ ∃ levels₂, levels₁.modify L (fun l => { l with worse := i }) = .ok levels₂ ∧
          { lb with levels := levels₂ } = lb₂) ∧
      lb₂.levels.Holds (((LevelNode.new s price).link L R, i) ::
        chain LevelNode.link nullIndex (Placed.levelCells s B) i ++
          chain LevelNode.link L (Placed.levelCells s A) nullIndex ++ rest) ∧
      lb₂ = { lb.setBest s (firstSlot B i) with levels := lb₂.levels } ∧
      lb₂.levels.capacity = lb.levels.capacity := by
    by_cases hB : B = []
    · refine ⟨_, .inl ⟨by simp [L, hB], rfl⟩, by simpa [hB] using h₁, ?_,
        by simpa using Pool.capacity_modify hm⟩
      rw [setBest_with_levels]
      simp [hB]
    · have hL : L ≠ nullIndex := fun e => hnull (by
        rw [← hps, List.map_append]
        exact List.mem_append_left _ (e ▸ Pool.lastSlot_mem hB))
      obtain ⟨levels₂, hm₂, h₂⟩ := Pool.Holds.relink_last (A := [((LevelNode.new s price).link L R, i)])
        (f := fun l => { l with worse := i }) (fun _ _ _ => rfl) (by simpa using h₁)
        (by simpa [Placed.levelCells] using hB)
      refine ⟨{ lb with levels := levels₂ }, .inr ⟨hL, levels₂, by simpa using hm₂, rfl⟩,
        by simpa using h₂, ?_, (Pool.capacity_modify hm₂).trans (Pool.capacity_modify hm)⟩
      have hfirst : firstSlot B i = lb.bestIndex s := by
        rw [hbest, ← hps, Pool.firstSlot_append, Pool.firstSlot_of_ne_nil hB]
      rw [hfirst, setBest_bestIndex hv]
  obtain ⟨lb₃, hB', h₃, hlb₃, hcap₃⟩ : ∃ lb₃ : LinkedBook,
      (R = nullIndex ∧ lb₂ = lb₃ ∨
        R ≠ nullIndex ∧ ∃ levels₃, lb₂.levels.modify R (fun l => { l with better := i }) = .ok levels₃ ∧
          { lb₂ with levels := levels₃ } = lb₃) ∧
      lb₃.levels.Holds (((LevelNode.new s price).link L R, i) ::
        chain LevelNode.link nullIndex (Placed.levelCells s B) i ++
          chain LevelNode.link i (Placed.levelCells s A) nullIndex ++ rest) ∧
      lb₃ = { lb₂ with levels := lb₃.levels } ∧ lb₃.levels.capacity = lb.levels.capacity := by
    by_cases hA : A = []
    · exact ⟨lb₂, .inl ⟨by simp [R, hA], rfl⟩, by simpa [hA] using h₂, rfl, hcap₂⟩
    · have hR : R ≠ nullIndex := fun e => hnull (by
        rw [← hps, List.map_append]
        exact List.mem_append_right _ (e ▸ Pool.firstSlot_mem hA))
      obtain ⟨levels₃, hm₃, h₃⟩ := Pool.Holds.relink_first
        (A := ((LevelNode.new s price).link L R, i) ::
          chain LevelNode.link nullIndex (Placed.levelCells s B) i)
        (g := fun l => { l with better := i }) (fun _ _ _ => rfl) (by simpa using h₂)
        (by simpa [Placed.levelCells] using hA)
      exact ⟨{ lb₂ with levels := levels₃ }, .inr ⟨hR, levels₃, by simpa using hm₃, rfl⟩,
        by simpa using h₃, rfl, (Pool.capacity_modify hm₃).trans hcap₂⟩
  refine ⟨lb₃.levels, (linkLevel_eq hf hm hA hB').trans ?_, ?_, hcap₃⟩
  · rw [hlb₃, hlb₂, Pool.firstSlot_append, Pool.firstSlot_cons]
  · rw [Placed.sideLevels_middle, ← new_eq_node]
    refine h₃.perm ?_
    simpa using List.perm_middle.symm

@[simp] theorem levels_unmapLevel (lb : LinkedBook) (s : Side) (p : Price) :
    (lb.unmapLevel s p).levels = lb.levels := by
  cases s <;> rfl

theorem unmapLevel_with_levels (lb : LinkedBook) (s : Side) (p : Price) (levels : Pool LevelNode) :
    ({ lb with levels } : LinkedBook).unmapLevel s p = { lb.unmapLevel s p with levels } := by
  cases s <;> rfl

theorem removeLevel_eq {lb lb₂ lb₃ : LinkedBook} {i : Nat} {level v : LevelNode}
    {levels' : Pool LevelNode} (hget : lb.levels.get i = .ok level) (hempty : level.isEmpty = true)
    (hA : level.better = nullIndex ∧ lb.setBest level.side level.worse = lb₂ ∨
      level.better ≠ nullIndex ∧ ∃ levels₂,
        lb.levels.modify level.better (fun l => { l with worse := level.worse }) = .ok levels₂ ∧
          { lb with levels := levels₂ } = lb₂)
    (hB : level.worse = nullIndex ∧ lb₂ = lb₃ ∨
      level.worse ≠ nullIndex ∧ ∃ levels₃,
        lb₂.levels.modify level.worse (fun l => { l with better := level.better }) = .ok levels₃ ∧
          { lb₂ with levels := levels₃ } = lb₃)
    (hr : lb₃.levels.release i = .ok (v, levels')) :
    lb.removeLevel i = .ok { lb₃.unmapLevel level.side level.price with levels := levels' } := by
  rcases hA with ⟨h₁, rfl⟩ | ⟨h₁, levels₂, h₂, rfl⟩ <;>
    rcases hB with ⟨h₃, rfl⟩ | ⟨h₃, levels₃, h₄, rfl⟩ <;>
    simp_all [removeLevel, bind, Except.bind, pure, Except.pure]

/-- **Unlinking an empty level from a held side.** When the level pool holds a side's chain and
one of its levels is empty, `removeLevel` links its two neighbours to each other, forgets its
price and frees its slot: the pool holds the side's chain without it, and the side's best is that
chain's first level. -/
theorem removeLevel_chain {lb : LinkedBook} {i : Nat} {ps₁ ps₂ : List (Nat × Level)}
    {rest : List (LevelNode × Nat)} (hv : s.isValid = true)
    (h : lb.levels.Holds (Placed.sideLevels s (ps₁ ++ (i, ⟨price, []⟩) :: ps₂) ++ rest))
    (hbest : lb.bestIndex s = firstSlot (ps₁ ++ (i, ⟨price, []⟩) :: ps₂) nullIndex)
    (hcap : lb.levels.capacity < nullIndex) :
    ∃ levels', lb.removeLevel i =
        .ok { (lb.setBest s (firstSlot (ps₁ ++ ps₂) nullIndex)).unmapLevel s price with levels := levels' } ∧
      levels'.Holds (Placed.sideLevels s (ps₁ ++ ps₂) ++ rest) ∧ levels'.capacity = lb.levels.capacity := by
  set L := lastSlot ps₁ nullIndex
  set R := firstSlot ps₂ nullIndex
  set node := ((Level.mk price []).node s).link L R
  have h' : lb.levels.Holds (chain LevelNode.link nullIndex (Placed.levelCells s ps₁) i ++
      (node, i) :: (chain LevelNode.link i (Placed.levelCells s ps₂) nullIndex ++ rest)) := by
    simpa [Placed.sideLevels_middle] using h
  have hslots : ∀ x ∈ ps₁.map (·.1) ++ ps₂.map (·.1),
      x ∈ (chain LevelNode.link nullIndex (Placed.levelCells s ps₁) i ++
        (node, i) :: (chain LevelNode.link i (Placed.levelCells s ps₂) nullIndex ++ rest)).map (·.2) := by
    intro x hx
    simp only [List.mem_append] at hx
    rcases hx with hx | hx <;> simp [Placed.levelCells, Function.comp_def, hx]
  have hnull := h'.nullIndex_not_mem hcap hslots
  obtain ⟨lb₂, hA, h₂, hlb₂, hcap₂⟩ : ∃ lb₂ : LinkedBook,
      (node.better = nullIndex ∧ lb.setBest node.side node.worse = lb₂ ∨
        node.better ≠ nullIndex ∧ ∃ levels₂,
          lb.levels.modify node.better (fun l => { l with worse := node.worse }) = .ok levels₂ ∧
            { lb with levels := levels₂ } = lb₂) ∧
      lb₂.levels.Holds (chain LevelNode.link nullIndex (Placed.levelCells s ps₁) R ++
        (node, i) :: (chain LevelNode.link i (Placed.levelCells s ps₂) nullIndex ++ rest)) ∧
      lb₂ = { lb.setBest s (firstSlot (ps₁ ++ ps₂) nullIndex) with levels := lb₂.levels } ∧
      lb₂.levels.capacity = lb.levels.capacity := by
    by_cases h₁ : ps₁ = []
    · subst h₁
      refine ⟨_, .inl ⟨rfl, rfl⟩, by simpa using h', ?_, by simp⟩
      cases s <;> rfl
    · have hL : L ≠ nullIndex := fun e => hnull (List.mem_append_left _ (e ▸ Pool.lastSlot_mem h₁))
      obtain ⟨levels₂, hm₂, h₂⟩ := Pool.Holds.relink_last (A := [])
        (f := fun l : LevelNode => { l with worse := R }) (fun _ _ _ => rfl) (by simpa using h')
        (by simpa [Placed.levelCells] using h₁)
      refine ⟨{ lb with levels := levels₂ }, .inr ⟨hL, levels₂, by simpa [node] using hm₂, rfl⟩,
        by simpa using h₂, ?_, Pool.capacity_modify hm₂⟩
      have hfirst : firstSlot (ps₁ ++ ps₂) nullIndex = lb.bestIndex s := by
        rw [hbest, Pool.firstSlot_append, Pool.firstSlot_append]
        exact Pool.firstSlot_of_ne_nil h₁ _
      rw [hfirst, setBest_bestIndex hv]
  obtain ⟨lb₃, hB, h₃, hlb₃, hcap₃⟩ : ∃ lb₃ : LinkedBook,
      (node.worse = nullIndex ∧ lb₂ = lb₃ ∨
        node.worse ≠ nullIndex ∧ ∃ levels₃,
          lb₂.levels.modify node.worse (fun l => { l with better := node.better }) = .ok levels₃ ∧
            { lb₂ with levels := levels₃ } = lb₃) ∧
      lb₃.levels.Holds (chain LevelNode.link nullIndex (Placed.levelCells s ps₁) R ++
        (node, i) :: (chain LevelNode.link L (Placed.levelCells s ps₂) nullIndex ++ rest)) ∧
      lb₃ = { lb₂ with levels := lb₃.levels } ∧ lb₃.levels.capacity = lb.levels.capacity := by
    by_cases h₂' : ps₂ = []
    · subst h₂'
      exact ⟨lb₂, .inl ⟨rfl, rfl⟩, by simpa using h₂, rfl, hcap₂⟩
    · have hR : R ≠ nullIndex := fun e => hnull (List.mem_append_right _ (e ▸ Pool.firstSlot_mem h₂'))
      obtain ⟨levels₃, hm₃, h₃⟩ := Pool.Holds.relink_first
        (A := chain LevelNode.link nullIndex (Placed.levelCells s ps₁) R ++ [(node, i)])
        (g := fun l => { l with better := L }) (fun _ _ _ => rfl) (by simpa using h₂)
        (by simpa [Placed.levelCells] using h₂')
      exact ⟨{ lb₂ with levels := levels₃ }, .inr ⟨hR, levels₃, by simpa [node] using hm₃, rfl⟩,
        by simpa using h₃, rfl, (Pool.capacity_modify hm₃).trans hcap₂⟩
  obtain ⟨hr, h₄⟩ := h₃.release_mid
  refine ⟨lb₃.levels.vacate i, (removeLevel_eq h'.get_mid rfl hA hB hr).trans ?_, ?_,
    by rw [Pool.capacity_vacate, hcap₃]⟩
  · rw [hlb₃, hlb₂]
    simp [node, unmapLevel_with_levels]
  · rw [Placed.sideLevels_append, List.append_assoc]
    exact h₄

end LinkedBook

end Exchange
