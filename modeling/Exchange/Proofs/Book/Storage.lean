import Exchange.Proofs.Book.Layout
import Exchange.Proofs.Book.Refinement
import Exchange.Proofs.Book.Crossing

/-!
# The linked book stores the book, operation after operation

`LinkedBook.Stores lb b P` (`Layout.lean`) says the pools, links, counters and maps of `lb` lay
out the book `b`. Here each operation of the linked book is run on a book it stores and shown to
do what the book's operation does: the same fault, or a result stored again. Resting an order
(`Stores.insertOrder`) finds or links its level and appends the order at its tail; taking one
out (`Stores.removeOrderAt`) unlinks it and drops its level if it empties; a trade
(`Stores.fill`) takes a filled order out or lowers a partly filled one's quantity and its
level's total; the crossing loop (`Stores.crossLoop`) makes the trades of `Taker.fillSide` one at
a time. Main statements: `Stores.add` and `Stores.cancel`, with the same events as the book.
-/

namespace Exchange

open Pool (nullIndex chain firstSlot lastSlot)

/-! ## Maps of slots -/

namespace SlotMap

variable {κ : Type} [DecidableEq κ] {m : SlotMap κ} {k : κ} {i : Nat}

theorem find?_eq_some_iff : m.find? k = some i ↔ (k, i) ∈ m.entries := by
  constructor
  · intro h
    obtain ⟨e, he, rfl⟩ := Option.map_eq_some_iff.1 h
    have hk : e.1 = k := by simpa using List.find?_some he
    rw [← hk]
    exact List.mem_of_find?_eq_some he
  · intro h
    cases hf : m.entries.find? (·.1 == k) with
    | none => exact absurd h (by simpa using List.find?_eq_none.1 hf (k, i))
    | some e =>
      have hk : e.1 = k := by simpa using List.find?_some hf
      have he := List.inj_on_of_nodup_map m.nodup (List.mem_of_find?_eq_some hf) h hk
      simp [find?, hf, he]

theorem find?_eq_none_iff : m.find? k = none ↔ k ∉ m.entries.map (·.1) := by
  simp only [find?, Option.map_eq_none_iff, List.find?_eq_none, beq_iff_eq, List.mem_map,
    not_exists, not_and]

theorem contains_eq_false_iff : m.contains k = false ↔ k ∉ m.entries.map (·.1) := by
  simp [contains, find?_eq_none_iff]

@[simp] theorem entries_erase : (m.erase k).entries = m.entries.filter (·.1 != k) := rfl

@[simp] theorem entries_insert : (m.insert k i).entries = (k, i) :: (m.erase k).entries := rfl

theorem erase_of_not_mem (h : k ∉ m.entries.map (·.1)) : (m.erase k).entries = m.entries :=
  List.filter_eq_self.2 fun e he => by
    have : e.1 ≠ k := fun hk => h (hk ▸ List.mem_map_of_mem he)
    simpa using this

end SlotMap

theorem Book.orders_placeLevel_nil {b : Book} {s : Side} {p : Price} (hv : s.isValid = true) :
    (b.withLevels s (Book.placeLevel s ⟨p, []⟩ (b.levels s))).orders.Perm b.orders := by
  refine (Book.orders_perm hv).trans ?_
  rw [Book.levels_withLevels_self hv, Book.levels_withLevels_of_ne (Side.opposite_ne hv)]
  exact ((Book.ordersOf_placeLevel_nil s p _).append_right _).trans (Book.orders_perm hv).symm

namespace Book

open Level

variable {b : Book} {s : Side} {p : Price} {c : ClientId} {oid : OrderId} {q : Qty}

theorem withLevels_withLevels (ls ls' : List Level) :
    (b.withLevels s ls).withLevels s ls' = b.withLevels s ls' := by
  cases s <;> rfl

theorem withLevels_orderSlots (ls : List Level) :
    { b.withLevels s ls with orderSlots := b.orderSlots } = b.withLevels s ls := by
  cases s <;> rfl

theorem withLevels_self : b.withLevels s (b.levels s) = b := by
  cases s <;> rfl

/-- The book after a crossing of its side `s` that leaves that side the levels `rest` and fills the
orders `filled`, whose slots are freed. -/
def afterCross (b : Book) (s : Side) (rest : List Level) (filled : List Resting) : Book :=
  { b.withLevels s rest with orderSlots := filled.foldl (fun p o => p.vacate o.slot) b.orderSlots }

theorem afterCross_nil (rest : List Level) : b.afterCross s rest [] = b.withLevels s rest :=
  withLevels_orderSlots rest

theorem afterCross_self : b.afterCross s (b.levels s) [] = b := by
  rw [afterCross_nil, withLevels_self]

theorem afterCross_cons (o : Resting) (rest : List Level) (filled : List Resting) :
    b.afterCross s rest (o :: filled) = (b.without s p o).afterCross s rest filled := by
  cases s <;> rfl

theorem orders_middle (hv : s.isValid = true) {ps₁ ps₂ : List (Nat × Level)} {e : Nat × Level}
    (hs : b.levels s = (ps₁ ++ e :: ps₂).map (·.2)) :
    b.orders.Perm (e.2.orders ++ (ordersOf ((ps₁ ++ ps₂).map (·.2)) ++ ordersOf (b.levels s.opposite))) := by
  refine (orders_perm hv).trans ?_
  rw [hs, ← List.append_assoc]
  refine List.Perm.append_right _ ?_
  simp only [List.map_append, List.map_cons, ordersOf_append, ordersOf_cons]
  exact List.perm_append_comm_assoc _ _ _

theorem orders_withLevels (hv : s.isValid = true) (ls : List Level) :
    (b.withLevels s ls).orders.Perm (ordersOf ls ++ ordersOf (b.levels s.opposite)) := by
  refine (orders_perm hv).trans ?_
  rw [levels_withLevels_self hv, levels_withLevels_of_ne (Side.opposite_ne hv)]

theorem orders_withLevels_middle (hv : s.isValid = true) (ps₁ ps₂ : List (Nat × Level)) (e : Nat × Level) :
    (b.withLevels s ((ps₁ ++ e :: ps₂).map (·.2))).orders.Perm
      (e.2.orders ++ (ordersOf ((ps₁ ++ ps₂).map (·.2)) ++ ordersOf (b.levels s.opposite))) := by
  have h := orders_middle (b := b.withLevels s ((ps₁ ++ e :: ps₂).map (·.2))) hv (levels_withLevels_self hv)
  rwa [levels_withLevels_of_ne (Side.opposite_ne hv)] at h

theorem appendAt_middle {o : Resting} {i : Nat} {l : Level} : ∀ {ps₁ ps₂ : List (Nat × Level)},
    (∀ e ∈ ps₁ ++ ps₂, e.2.price ≠ l.price) →
    appendAt l.price o ((ps₁ ++ (i, l) :: ps₂).map (·.2)) =
      (ps₁ ++ (i, ⟨l.price, l.orders ++ [o]⟩) :: ps₂).map (·.2)
  | [], ps₂, hne => by
    have hrest : ∀ m ∈ ps₂.map (·.2), m.price ≠ l.price := by
      intro m hm
      obtain ⟨e, he, rfl⟩ := List.mem_map.1 hm
      exact hne e he
    rw [List.nil_append, List.map_cons, appendAt_cons, if_pos rfl, appendAt_of_forall_ne hrest]
    rfl
  | e :: ps₁, ps₂, hne => by
    rw [List.cons_append, List.map_cons, appendAt_cons, if_neg (hne e List.mem_cons_self),
      appendAt_middle fun e' he' => hne e' (List.mem_cons_of_mem _ he')]
    rfl

theorem insert_eq_allocate {level : Level} {ls₁ : List Level} {pr : Priority}
    (hc : b.contains oid = false) (hv : s.isValid = true)
    (hls : (b.levels s).find? (·.price == p) = some level ∧ ls₁ = b.levels s ∨
      (b.levels s).find? (·.price == p) = none ∧ b.levelCount < b.levelCapacity ∧
        level = { price := p, orders := [] } ∧ ls₁ = placeLevel s level (b.levels s))
    (hpr : level.nextPriority = .ok pr) :
    b.insert c oid s p q = (b.orderSlots.allocate oid).map fun r =>
      (⟨oid, c, q, pr, r.1⟩, { b.withLevels s (appendAt p ⟨oid, c, q, pr, r.1⟩ ls₁) with orderSlots := r.2 }) := by
  unfold Book.insert
  simp only [hc, hv, Bool.not_true, Bool.false_eq_true, if_false, bind, Except.bind, pure,
    Except.pure]
  rcases hls with ⟨hf, rfl⟩ | ⟨hf, hcap, rfl, rfl⟩
  · simp only [hf, hpr]
    cases b.orderSlots.allocate oid <;> rfl
  · simp only [hf, if_neg (Nat.not_le.2 hcap), hpr]
    cases b.orderSlots.allocate oid <;> rfl

theorem filter_orderId_middle {A B : List Resting} {o : Resting}
    (hnd : ((A ++ o :: B).map (·.orderId)).Nodup) :
    (A ++ o :: B).filter (·.orderId != o.orderId) = A ++ B := by
  rw [List.map_append, List.map_cons] at hnd
  have hout := List.nodup_middle.1 hnd
  rw [List.nodup_cons, ← List.map_append] at hout
  have hkeep : ∀ x ∈ A ++ B, (x.orderId != o.orderId) = true := fun x hx => by
    have hne : x.orderId ≠ o.orderId := fun e => hout.1 (e ▸ List.mem_map_of_mem hx)
    simpa using hne
  rw [List.filter_append, List.filter_cons_of_neg (by simp),
    List.filter_eq_self.2 fun x hx => hkeep x (List.mem_append_left _ hx),
    List.filter_eq_self.2 fun x hx => hkeep x (List.mem_append_right _ hx)]

theorem dropFrom_middle {o : Resting} {xs ys : List Resting} {i : Nat} :
    ∀ {ps₁ ps₂ : List (Nat × Level)}, (∀ e ∈ ps₁ ++ ps₂, e.2.price ≠ p) →
    ((xs ++ o :: ys).map (·.orderId)).Nodup →
    dropFrom p o.orderId ((ps₁ ++ (i, ⟨p, xs ++ o :: ys⟩) :: ps₂).map (·.2)) =
      if xs ++ ys = [] then (ps₁ ++ ps₂).map (·.2) else (ps₁ ++ (i, ⟨p, xs ++ ys⟩) :: ps₂).map (·.2)
  | [], ps₂, _, hnd => by
    rw [List.nil_append, List.map_cons, dropFrom_cons, if_pos rfl]
    simp only [filter_orderId_middle hnd]
    by_cases he : xs ++ ys = [] <;> simp [he]
  | e :: ps₁, ps₂, hne, hnd => by
    rw [List.cons_append, List.map_cons, dropFrom_cons, if_neg (hne e List.mem_cons_self),
      dropFrom_middle (fun e' he' => hne e' (List.mem_cons_of_mem _ he')) hnd]
    by_cases he : xs ++ ys = [] <;> simp [he]

end Book

/-! ## One trade of a crossing -/

namespace Taker

variable {t : Taker} {p : Price} {o : Resting} {os : List Resting} {l : Level} {ls : List Level}
  {leaves : Qty}

theorem fillSide_stop (hc : crosses t.side t.limit l.price = false) :
    t.fillSide (l :: ls) leaves = ([], leaves, l :: ls, []) := by
  simp [fillSide, hc]

theorem fillSide_partial (hleaves : leaves ≠ 0) (hc : crosses t.side t.limit p = true)
    (hstays : o.qty - min leaves o.qty ≠ 0) :
    t.fillSide (⟨p, o :: os⟩ :: ls) leaves =
      (t.tradeEvents p o (min leaves o.qty) (leaves - min leaves o.qty), leaves - min leaves o.qty,
        ⟨p, { o with qty := o.qty - min leaves o.qty } :: os⟩ :: ls, []) := by
  simp [fillSide, fillLevel, hleaves, hc, hstays]

theorem fillSide_filled (hleaves : leaves ≠ 0) (hc : crosses t.side t.limit p = true)
    (hgone : o.qty - min leaves o.qty = 0) :
    t.fillSide (⟨p, o :: os⟩ :: ls) leaves =
      let r := t.fillSide (if os = [] then ls else ⟨p, os⟩ :: ls) (leaves - min leaves o.qty)
      (t.tradeEvents p o (min leaves o.qty) (leaves - min leaves o.qty) ++ r.1, r.2.1, r.2.2.1,
        o :: r.2.2.2) := by
  rcases os with _ | ⟨o', os⟩
  · simp [fillSide, fillLevel, hleaves, hc, hgone]
  by_cases h0 : leaves - min leaves o.qty = 0
  · simp [fillSide, fillLevel, hleaves, hc, hgone, h0]
  have hl : ¬(leaves = 0 ∨ (!crosses t.side t.limit p) = true) := by simp [hleaves, hc]
  have hl' : ¬(leaves - min leaves o.qty = 0 ∨ (!crosses t.side t.limit p) = true) := by simp [h0, hc]
  rw [fillSide, if_neg hl, fillLevel, if_neg hleaves, if_pos hgone, if_neg (List.cons_ne_nil o' os),
    fillSide, if_neg hl']
  generalize t.fillLevel p (o' :: os) (leaves - min leaves o.qty) = r
  obtain ⟨evs, left, rest, filled⟩ := r
  cases rest <;> simp

end Taker

theorem LinkedBook.crossLoop_of_zero {t : Taker} (fuel : Nat) (lb : LinkedBook) :
    LinkedBook.crossLoop t fuel lb 0 = ⟨[], .ok (0, lb)⟩ := by
  cases fuel <;> simp [LinkedBook.crossLoop]

/-! ## The book's fields under its edits -/

namespace LinkedBook

variable (lb : LinkedBook) (s s' : Side) (p : Price) (i : Nat)

@[simp] theorem ticker_setBest : (lb.setBest s i).ticker = lb.ticker := by cases s <;> rfl
@[simp] theorem orders_setBest : (lb.setBest s i).orders = lb.orders := by cases s <;> rfl
@[simp] theorem orderMap_setBest : (lb.setBest s i).orderMap = lb.orderMap := by cases s <;> rfl
@[simp] theorem levelMap_setBest : (lb.setBest s i).levelMap s' = lb.levelMap s' := by
  cases s <;> cases s' <;> rfl

@[simp] theorem ticker_mapLevel : (lb.mapLevel s p i).ticker = lb.ticker := by cases s <;> rfl
@[simp] theorem orders_mapLevel : (lb.mapLevel s p i).orders = lb.orders := by cases s <;> rfl
@[simp] theorem levels_mapLevel : (lb.mapLevel s p i).levels = lb.levels := by cases s <;> rfl
@[simp] theorem orderMap_mapLevel : (lb.mapLevel s p i).orderMap = lb.orderMap := by cases s <;> rfl
@[simp] theorem bestIndex_mapLevel : (lb.mapLevel s p i).bestIndex s' = lb.bestIndex s' := by
  cases s <;> cases s' <;> rfl

@[simp] theorem ticker_unmapLevel : (lb.unmapLevel s p).ticker = lb.ticker := by cases s <;> rfl
@[simp] theorem orders_unmapLevel : (lb.unmapLevel s p).orders = lb.orders := by cases s <;> rfl
@[simp] theorem orderMap_unmapLevel : (lb.unmapLevel s p).orderMap = lb.orderMap := by cases s <;> rfl
@[simp] theorem bestIndex_unmapLevel : (lb.unmapLevel s p).bestIndex s' = lb.bestIndex s' := by
  cases s <;> cases s' <;> rfl

@[simp] theorem bestIndex_with (orders : Pool OrderNode) (levels : Pool LevelNode) (om : SlotMap OrderId) :
    ({ lb with orders, levels, orderMap := om } : LinkedBook).bestIndex s = lb.bestIndex s := by
  cases s <;> rfl

@[simp] theorem levelMap_with (orders : Pool OrderNode) (levels : Pool LevelNode) (om : SlotMap OrderId) :
    ({ lb with orders, levels, orderMap := om } : LinkedBook).levelMap s = lb.levelMap s := by
  cases s <;> rfl

@[simp] theorem levelIndex_with (orders : Pool OrderNode) (levels : Pool LevelNode) (om : SlotMap OrderId) :
    ({ lb with orders, levels, orderMap := om } : LinkedBook).levelIndex s p = lb.levelIndex s p := by
  simp [levelIndex]

variable {lb s s' p i}

theorem bestIndex_relinked (v v' : Pool LevelNode) (B : Nat) :
    (({ ({ lb with levels := v } : LinkedBook).setBest s B with levels := v' }).mapLevel s p i).bestIndex s' =
      (lb.setBest s B).bestIndex s' := by
  cases s <;> cases s' <;> rfl

theorem levelMap_relinked (v v' : Pool LevelNode) (B : Nat) :
    (({ ({ lb with levels := v } : LinkedBook).setBest s B with levels := v' }).mapLevel s p i).levelMap s' =
      (lb.mapLevel s p i).levelMap s' := by
  cases s <;> cases s' <;> rfl

theorem bestIndex_setBest (hv : s.isValid = true) :
    (lb.setBest s i).bestIndex s' = if s' = s then i else lb.bestIndex s' := by
  cases s <;> cases s' <;> first | rfl | cases hv

theorem levelMap_mapLevel (hv : s.isValid = true) :
    (lb.mapLevel s p i).levelMap s' = if s' = s then (lb.levelMap s).map (·.insert p i) else lb.levelMap s' := by
  cases s <;> cases s' <;> first | rfl | cases hv

theorem levelMap_unmapLevel (hv : s.isValid = true) :
    (lb.unmapLevel s p).levelMap s' = if s' = s then (lb.levelMap s).map (·.erase p) else lb.levelMap s' := by
  cases s <;> cases s' <;> first | rfl | cases hv

end LinkedBook

theorem LinkedBook.insertOrder_eq {lb lb₁ : LinkedBook} {e : OrderNode} {li index : Nat}
    {level level' : LevelNode} {pr : Priority} {orders₁ orders₂ : Pool OrderNode}
    {levels₂ : Pool LevelNode} (hc : lb.orderMap.contains e.orderId = false)
    (hl : lb.levelFor e.side e.price = .ok (li, lb₁)) (hget : lb₁.levels.get li = .ok level)
    (hpr : level.nextPriority lb₁.orders = .ok pr)
    (ha : lb₁.orders.tryAllocate { e with priority := pr, tickerId := lb₁.ticker } = some (index, orders₁))
    (hpush : level.pushBack orders₁ index = .ok (level', orders₂))
    (hset : lb₁.levels.set li level' = .ok levels₂) :
    lb.insertOrder e = .ok (index,
      { lb₁ with orders := orders₂, levels := levels₂, orderMap := lb₁.orderMap.insert e.orderId index }) := by
  simp [LinkedBook.insertOrder, hc, hl, hget, hpr, Pool.allocate_eq_ok.2 ha, hpush, hset, bind,
    Except.bind, pure, Except.pure]

theorem LinkedBook.removeOrderAt_eq {lb lb₂ : LinkedBook} {index li : Nat} {entry e : OrderNode}
    {level level' : LevelNode} {emptied : Bool} {orders' orders'' : Pool OrderNode}
    {levels' : Pool LevelNode} (hget : lb.orders.get index = .ok entry)
    (hli : lb.levelIndex entry.side entry.price = some li) (hlevel : lb.levels.get li = .ok level)
    (hrem : level.remove lb.orders index = .ok (emptied, level', orders'))
    (hset : lb.levels.set li level' = .ok levels')
    (hdrop : emptied = false ∧ { lb with orders := orders', levels := levels' } = lb₂ ∨
      emptied = true ∧ ({ lb with orders := orders', levels := levels' } : LinkedBook).removeLevel li = .ok lb₂)
    (hrel : lb₂.orders.release index = .ok (e, orders'')) :
    lb.removeOrderAt index =
      .ok (e, { lb₂ with orderMap := lb₂.orderMap.erase entry.orderId, orders := orders'' }) := by
  rcases hdrop with ⟨rfl, rfl⟩ | ⟨rfl, hr⟩
  · simp only at hrel
    simp [LinkedBook.removeOrderAt, hget, hli, hlevel, hrem, hset, hrel, bind, Except.bind, pure,
      Except.pure]
  · simp [LinkedBook.removeOrderAt, hget, hli, hlevel, hrem, hset, hr, hrel, bind, Except.bind, pure,
      Except.pure]

theorem LinkedBook.reduceQty_eq {lb : LinkedBook} {index li : Nat} {fill : Qty} {entry : OrderNode}
    {level level' : LevelNode} {orders' : Pool OrderNode} {levels' : Pool LevelNode}
    (hget : lb.orders.get index = .ok entry) (hlt : fill < entry.qty)
    (hm : lb.orders.modify index (fun o => { o with qty := o.qty - fill }) = .ok orders')
    (hli : lb.levelIndex entry.side entry.price = some li) (hlevel : lb.levels.get li = .ok level)
    (hsub : level.subtractQty fill = .ok level') (hset : lb.levels.set li level' = .ok levels') :
    lb.reduceQty index fill = .ok { lb with orders := orders', levels := levels' } := by
  have hle : ¬ entry.qty ≤ fill := UInt32.not_le.2 hlt
  simp [LinkedBook.reduceQty, hget, hle, hm, hli, hlevel, hsub, hset, bind, Except.bind, pure,
    Except.pure]

theorem LevelNode.subtractQty_node {p : Price} {xs ys : List Resting} {o : Resting} {fill : Qty}
    {s : Side} {b w : Nat} (hlt : fill < o.qty) (htotal : (Level.mk p (xs ++ o :: ys)).totalQty < 2 ^ 64) :
    (((Level.mk p (xs ++ o :: ys)).node s).link b w).subtractQty fill =
      .ok (((Level.mk p (xs ++ { o with qty := o.qty - fill } :: ys)).node s).link b w) := by
  have hle : fill.toNat < o.qty.toNat := UInt32.lt_iff_toNat_lt.1 hlt
  have hsub : (o.qty - fill).toNat = o.qty.toNat - fill.toNat :=
    UInt32.toNat_sub_of_le _ _ (UInt32.le_of_lt hlt)
  have hT : (Level.mk p (xs ++ { o with qty := o.qty - fill } :: ys)).totalQty =
      (Level.mk p (xs ++ o :: ys)).totalQty - fill.toNat := by
    simp only [Level.totalQty_append, Level.totalQty_cons, hsub]
    omega
  have hcov : fill.toNat ≤ (Level.mk p (xs ++ o :: ys)).totalQty := by
    simp only [Level.totalQty_append, Level.totalQty_cons]
    omega
  have hofT : (UInt64.ofNat (Level.mk p (xs ++ o :: ys)).totalQty).toNat = (Level.mk p (xs ++ o :: ys)).totalQty := by
    simp only [UInt64.toNat_ofNat']
    omega
  unfold subtractQty
  rw [if_pos (by simp only [totalQty_link, Level.totalQty_node, hofT]; exact hcov)]
  simp only [link, Level.node, Except.ok.injEq, List.map_append, List.map_cons, Level.count_mk,
    List.length_append, List.length_cons, hT]
  congr 1
  apply UInt64.toNat_inj.1
  rw [UInt64.toNat_sub_of_le _ _ (by rw [UInt64.le_iff_toNat_le, hofT]; simpa using hcov), hofT]
  simp only [UInt32.toNat_toUInt64, UInt64.toNat_ofNat']
  omega

/-! ## What a stored book looks up -/

namespace LinkedBook

variable {lb : LinkedBook} {b : Book} {P : Placed} {s : Side} {p : Price} {i : Nat}

theorem levelMap_of_valid (lb : LinkedBook) (hv : s.isValid = true) : ∃ m, lb.levelMap s = some m := by
  cases s
  · exact ⟨_, rfl⟩
  · exact ⟨_, rfl⟩
  · cases hv

namespace Stores

theorem levelIndex_eq_some_iff (h : lb.Stores b P) (hv : s.isValid = true) :
    lb.levelIndex s p = some i ↔ ∃ l, (i, l) ∈ P.side s ∧ l.price = p := by
  obtain ⟨m, hm⟩ := levelMap_of_valid lb hv
  rw [levelIndex, hm, Option.bind_some, SlotMap.find?_eq_some_iff, (h.priceMap s m hm).mem_iff]
  simp only [List.mem_map, Prod.mk.injEq]
  constructor
  · rintro ⟨⟨i', l⟩, he, rfl, rfl⟩
    exact ⟨l, he, rfl⟩
  · rintro ⟨l, he, rfl⟩
    exact ⟨(i, l), he, rfl, rfl⟩

theorem levelIndex_eq_none_iff (h : lb.Stores b P) (hv : s.isValid = true) :
    lb.levelIndex s p = none ↔ ∀ e ∈ P.side s, e.2.price ≠ p := by
  rw [Option.eq_none_iff_forall_ne_some]
  constructor
  · intro hn e he hp
    exact hn e.1 ((h.levelIndex_eq_some_iff hv).2 ⟨e.2, he, hp⟩)
  · intro hn i hi
    obtain ⟨l, hl, hp⟩ := (h.levelIndex_eq_some_iff hv).1 hi
    exact hn _ hl hp

theorem prices_nodup (h : lb.Stores b P) (hv : s.isValid = true) :
    ((P.side s).map (·.2.price)).Nodup := by
  obtain ⟨m, hm⟩ := levelMap_of_valid lb hv
  have := ((h.priceMap s m hm).map (·.1)).nodup_iff.1 m.nodup
  simpa [Function.comp_def] using this

theorem orderMap_eq_some_iff (h : lb.Stores b P) {oid : OrderId} :
    lb.orderMap.find? oid = some i ↔ ∃ o ∈ b.orders, o.orderId = oid ∧ o.slot = i := by
  rw [SlotMap.find?_eq_some_iff, h.orderMap.mem_iff]
  simp only [List.mem_map, Resting.handle, Prod.mk.injEq]

theorem contains_orderMap (h : lb.Stores b P) (oid : OrderId) :
    lb.orderMap.contains oid = b.contains oid := by
  have hkeys : oid ∈ lb.orderMap.entries.map (·.1) ↔ oid ∈ b.orders.map (·.orderId) := by
    rw [(h.orderMap.map (·.1)).mem_iff, List.map_map]
    rfl
  cases h₁ : lb.orderMap.contains oid <;> cases h₂ : b.contains oid
  · rfl
  · have := Book.contains_eq_false_iff.2 (hkeys.not.1 (SlotMap.contains_eq_false_iff.1 h₁))
    rw [h₂] at this
    cases this
  · have := SlotMap.contains_eq_false_iff.2 (hkeys.not.2 (Book.contains_eq_false_iff.1 h₂))
    rw [h₁] at this
    cases this
  · rfl

variable {ps₁ ps₂ : List (Nat × Level)} {l : Level}

theorem orders_split (h : lb.Stores b P) (hv : s.isValid = true) (hps : P.side s = ps₁ ++ (i, l) :: ps₂) :
    lb.orders.Holds (l.orderEntries lb.ticker s ++ (Placed.sideOrders lb.ticker s (ps₁ ++ ps₂) ++
      Placed.sideOrders lb.ticker s.opposite (P.side s.opposite))) := by
  have e : P = P.withSide s (ps₁ ++ (i, l) :: ps₂) := by rw [← hps, Placed.withSide_side]
  have ho := h.orders
  rw [e] at ho
  exact ho.perm (Placed.orderEntries_withSide hv (i, l))

theorem levels_split (h : lb.Stores b P) (hv : s.isValid = true) (hps : P.side s = ps₁ ++ (i, l) :: ps₂) :
    lb.levels.Holds (chain LevelNode.link nullIndex (Placed.levelCells s ps₁) i ++
      ((l.node s).link (lastSlot ps₁ nullIndex) (firstSlot ps₂ nullIndex), i) ::
        (chain LevelNode.link i (Placed.levelCells s ps₂) nullIndex ++
          Placed.sideLevels s.opposite (P.side s.opposite))) := by
  have hl := h.levels.perm (Placed.levelEntries_perm hv)
  rw [hps, Placed.sideLevels_middle] at hl
  simpa using hl

theorem get_level (h : lb.Stores b P) (hv : s.isValid = true) (hps : P.side s = ps₁ ++ (i, l) :: ps₂) :
    lb.levels.get i = .ok ((l.node s).link (lastSlot ps₁ nullIndex) (firstSlot ps₂ nullIndex)) :=
  (h.levels_split hv hps).get_mid

variable {xs ys : List Resting} {o : Resting}

theorem get_order (h : lb.Stores b P) (hv : s.isValid = true)
    (hps : P.side s = ps₁ ++ (i, ⟨p, xs ++ o :: ys⟩) :: ps₂) :
    lb.orders.get o.slot = .ok ((o.node lb.ticker s p).link
      (lastSlot (xs.map fun o => (o.slot, o.node lb.ticker s p)) nullIndex)
      (firstSlot (ys.map fun o => (o.slot, o.node lb.ticker s p)) nullIndex)) := by
  have ho := h.orders_split hv hps
  rw [Level.orderEntries_mk, List.map_append, List.map_cons, Pool.chain_middle, List.append_assoc,
    List.cons_append] at ho
  exact ho.get_mid

theorem allocated_levels (h : lb.Stores b P) : lb.levels.allocated = b.levelCount := by
  have hb := h.sides .buy
  have ha := h.sides .sell
  simp only [Book.levels, Placed.side] at hb ha
  rw [h.levels.allocated, Book.levelCount, hb, ha]
  simp [Placed.levelEntries, Placed.sideLevels, Placed.levelCells]

/-! ### Finding or linking the level at a price -/

theorem find?_none_of_book (h : lb.Stores b P) (hv : s.isValid = true) {m : SlotMap Price}
    (hm : lb.levelMap s = some m) (hf : (b.levels s).find? (·.price == p) = none) : m.find? p = none := by
  have hn : lb.levelIndex s p = none := (h.levelIndex_eq_none_iff hv).2 fun e he hp => by
    have := List.find?_eq_none.1 hf e.2 (h.sides s ▸ List.mem_map_of_mem he)
    simp [hp] at this
  simpa [levelIndex, hm] using hn

theorem levelFor_found (h : lb.Stores b P) (hv : s.isValid = true)
    (hf : (b.levels s).find? (·.price == p) = some l) :
    ∃ ps₁ ps₂ i, P.side s = ps₁ ++ (i, l) :: ps₂ ∧ lb.levelFor s p = .ok (i, lb) := by
  have hl : l ∈ (P.side s).map (·.2) := h.sides s ▸ List.mem_of_find?_eq_some hf
  obtain ⟨⟨i, l'⟩, he, rfl⟩ := List.mem_map.1 hl
  obtain ⟨ps₁, ps₂, hps⟩ := List.append_of_mem he
  have hp : l'.price = p := by simpa using List.find?_some hf
  obtain ⟨m, hm⟩ := levelMap_of_valid lb hv
  have hi : m.find? p = some i := by
    have := (h.levelIndex_eq_some_iff hv).2 ⟨l', he, hp⟩
    simpa [levelIndex, hm] using this
  exact ⟨ps₁, ps₂, i, hps, by simp [levelFor, hm, hi, pure, Except.pure]⟩

theorem levelFor_full (h : lb.Stores b P) (hv : s.isValid = true)
    (hf : (b.levels s).find? (·.price == p) = none) (hfull : b.levelCapacity ≤ b.levelCount) :
    lb.levelFor s p = .error (.poolExhausted b.levelCapacity) := by
  obtain ⟨m, hm⟩ := levelMap_of_valid lb hv
  have heq : lb.levels.allocated = lb.levels.capacity := by
    have := h.levels.inv.allocated_le
    rw [h.allocated_levels, h.levelCapacity] at *
    omega
  have ha : lb.levels.allocate (LevelNode.new s p) = .error (.poolExhausted b.levelCapacity) := by
    simp [Pool.allocate, Pool.tryAllocate_eq_none heq, h.levelCapacity]
  simp [levelFor, hm, h.find?_none_of_book hv hm hf, ha, bind, Except.bind]

theorem levelFor_new (h : lb.Stores b P) (hv : s.isValid = true)
    (hf : (b.levels s).find? (·.price == p) = none) (hroom : b.levelCount < b.levelCapacity) :
    ∃ i lb₁, lb.levelFor s p = .ok (i, lb₁) ∧
      lb₁.Stores (b.withLevels s (Book.placeLevel s ⟨p, []⟩ (b.levels s)))
        (P.withSide s (Placed.before s p (P.side s) ++ (i, ⟨p, []⟩) :: Placed.after s p (P.side s))) := by
  obtain ⟨m, hm⟩ := levelMap_of_valid lb hv
  have hnone := h.find?_none_of_book hv hm hf
  obtain ⟨i, levels₁, hta⟩ : ∃ i levels₁, lb.levels.tryAllocate (LevelNode.new s p) = some (i, levels₁) := by
    obtain ⟨i, -, -, hta⟩ := Pool.tryAllocate_of_lt h.levels.inv
      (by rw [h.allocated_levels, h.levelCapacity]; exact hroom) (LevelNode.new s p)
    exact ⟨i, _, hta⟩
  have ha := Pool.allocate_eq_ok.2 hta
  have hcap₁ := Pool.capacity_of_tryAllocate h.levels.inv hta
  have h₁ := (h.levels.tryAllocate hta).perm ((Placed.levelEntries_perm hv).cons _)
  obtain ⟨levels', hlink, hheld, hcap'⟩ := linkLevel_chain hv
    (show ({ lb with levels := levels₁ } : LinkedBook).levels.Holds _ from h₁) (h.best s) (by rw [hcap₁]; exact h.levelsFit)
  set ps' := Placed.before s p (P.side s) ++ (i, ⟨p, []⟩) :: Placed.after s p (P.side s)
  refine ⟨i, ({ ({ lb with levels := levels₁ } : LinkedBook).setBest s (firstSlot ps' nullIndex) with
    levels := levels' }).mapLevel s p i,
    by simp [levelFor, hm, hnone, ha, hlink, ps', bind, Except.bind, pure, Except.pure], ?_⟩
  have hsplit : Placed.before s p (P.side s) ++ Placed.after s p (P.side s) = P.side s :=
    Placed.before_append_after
  refine ⟨by simp [h.ticker], fun s' => ?_, ?_, by simpa using h.orderIds, ?_, fun s' => ?_, ?_, ?_,
    by simp [hcap', hcap₁, h.levelCapacity], by simpa using h.ordersFit,
    by simp [hcap', hcap₁, h.levelsFit]⟩
  · -- the sides: the new level sits where the book places it
    by_cases hs : s' = s
    · subst hs
      rw [Book.levels_withLevels_self hv, Placed.side_withSide_self hv, h.sides,
        Placed.placeLevel_map s' (i, ⟨p, []⟩)]
    · rw [Book.levels_withLevels_of_ne hs, Placed.side_withSide_of_ne hs, h.sides]
  · -- the order pool holds the same orders: the new level has none
    simp only [orders_mapLevel, ticker_mapLevel, orders_setBest, ticker_setBest]
    refine h.orders.perm ((Placed.orderEntries_perm hv).trans
      ((Placed.orderEntries_withSide hv (i, ⟨p, []⟩)).trans ?_).symm)
    rw [hsplit]
    simp [Level.orderEntries_mk]
  · simpa using hheld.perm (Placed.levelEntries_withSide hv ps').symm
  · -- the best pointers: the new level is the side's best, or the old best stays
    rw [bestIndex_relinked, bestIndex_setBest hv]
    by_cases hs : s' = s
    · rw [if_pos hs, hs, Placed.side_withSide_self hv]
    · rw [if_neg hs, Placed.side_withSide_of_ne hs, h.best s']
  · -- the price maps: the new level's price is recorded on its side
    intro s' m' hm'
    rw [levelMap_relinked, levelMap_mapLevel hv] at hm'
    by_cases hs : s' = s
    · subst hs
      rw [if_pos rfl, hm, Option.map_some, Option.some.injEq] at hm'
      subst hm'
      rw [Placed.side_withSide_self hv, SlotMap.entries_insert,
        SlotMap.erase_of_not_mem ((SlotMap.find?_eq_none_iff).1 hnone)]
      refine ((h.priceMap s' m hm).cons _).trans ?_
      have e : (P.side s').map (fun e => (e.2.price, e.1)) =
          (Placed.before s' p (P.side s')).map (fun e => (e.2.price, e.1)) ++
            (Placed.after s' p (P.side s')).map (fun e => (e.2.price, e.1)) := by
        rw [← List.map_append, hsplit]
      rw [e, List.map_append, List.map_cons]
      exact List.perm_middle.symm
    · rw [if_neg hs] at hm'
      rw [Placed.side_withSide_of_ne hs]
      exact h.priceMap s' m' hm'
  · -- the id map: the book holds the same orders
    simp only [orderMap_mapLevel, orderMap_setBest]
    exact h.orderMap.trans ((Book.orders_placeLevel_nil hv).map _).symm

/-! ### Changing a level in place -/

theorem price_ne (h : lb.Stores b P) (hv : s.isValid = true) (hps : P.side s = ps₁ ++ (i, l) :: ps₂) :
    ∀ e ∈ ps₁ ++ ps₂, e.2.price ≠ l.price := by
  have hnd := h.prices_nodup hv
  rw [hps, List.map_append, List.map_cons] at hnd
  have := (List.nodup_middle.1 hnd)
  rw [List.nodup_cons, ← List.map_append] at this
  intro e he hp
  exact this.1 (hp ▸ List.mem_map_of_mem he)

/-- **Changing a level in place.** When a level of a stored side keeps its slot and its price and
the order pool holds its new chain where the old one was, writing the level's node back stores
the book with the new level. -/
theorem replaceLevel (h : lb.Stores b P) (hv : s.isValid = true)
    (hps : P.side s = ps₁ ++ (i, l) :: ps₂) {l' : Level} (hp : l'.price = l.price)
    {orders' : Pool OrderNode} {slots : Pool OrderId} {om : SlotMap OrderId}
    (ho : orders'.Holds (l'.orderEntries lb.ticker s ++ (Placed.sideOrders lb.ticker s (ps₁ ++ ps₂) ++
      Placed.sideOrders lb.ticker s.opposite (P.side s.opposite))))
    (hids : orders'.map (·.orderId) = slots) (hcap : orders'.capacity = lb.orders.capacity)
    (hom : om.entries.Perm
      ((b.withLevels s ((ps₁ ++ (i, l') :: ps₂).map (·.2))).orders.map Resting.handle)) :
    ∃ levels', lb.levels.set i ((l'.node s).link (lastSlot ps₁ nullIndex) (firstSlot ps₂ nullIndex)) =
        .ok levels' ∧
      ({ lb with orders := orders', levels := levels', orderMap := om }).Stores
        { b.withLevels s ((ps₁ ++ (i, l') :: ps₂).map fun e : Nat × Level => e.2) with orderSlots := slots }
        (P.withSide s (ps₁ ++ (i, l') :: ps₂)) := by
  obtain ⟨levels', hset, hl, hlcap⟩ := (h.levels_split hv hps).set_entry
    ((l'.node s).link (lastSlot ps₁ nullIndex) (firstSlot ps₂ nullIndex))
  refine ⟨levels', hset, by simp [h.ticker], fun s' => ?_,
    ho.perm (Placed.orderEntries_withSide hv (i, l')).symm, hids, ?_, fun s' => ?_,
    fun s' m hm => ?_, hom, by simp [hlcap, h.levelCapacity], hcap ▸ h.ordersFit,
    hlcap ▸ h.levelsFit⟩
  · -- only the side `s` changes
    rw [Book.levels_setOrderSlots]
    by_cases hs : s' = s
    · subst hs
      rw [Book.levels_withLevels_self hv, Placed.side_withSide_self hv]
    · rw [Book.levels_withLevels_of_ne hs, Placed.side_withSide_of_ne hs, h.sides]
  · refine hl.perm (List.Perm.trans ?_ (Placed.levelEntries_withSide hv _).symm)
    rw [Placed.sideLevels_middle]
    simp
  · -- the slots stay, and with them the first one
    by_cases hs : s' = s
    · subst hs
      rw [bestIndex_with, Placed.side_withSide_self hv, h.best, hps, Pool.firstSlot_append,
        Pool.firstSlot_append]
      rfl
    · rw [bestIndex_with, Placed.side_withSide_of_ne hs, h.best]
  · -- and so do the prices
    rw [levelMap_with] at hm
    have hm' := h.priceMap s' m hm
    by_cases hs : s' = s
    · subst hs
      rw [Placed.side_withSide_self hv]
      rw [hps] at hm'
      simpa [hp] using hm'
    · rwa [Placed.side_withSide_of_ne hs]

/-! ### Resting an order -/

/-- **Resting an order behind a stored level.** Once `levelFor` has found or linked the level at
the order's price, `insertOrder` is handed the slot the book's pool hands out, or runs out of
slots as it does, and appends the order to the level as the book does. -/
theorem appendOrder {lb₀ : LinkedBook} {t : TickerId} {c : ClientId} {oid : OrderId} {q : Qty}
    {pr : Priority} (hc : lb₀.orderMap.contains oid = false) (hl : lb₀.levelFor s p = .ok (i, lb))
    (h : lb.Stores b P) (hv : s.isValid = true) (hps : P.side s = ps₁ ++ (i, l) :: ps₂)
    (hlp : l.price = p) (hfresh : b.contains oid = false) (hpr : l.nextPriority = .ok pr) :
    Agrees (fun (x : Nat × LinkedBook) (y : Resting × Book) => x.1 = y.1.slot ∧
        (∃ L R, x.2.orders.get x.1 = .ok ((y.1.node x.2.ticker s p).link L R)) ∧ ∃ P', x.2.Stores y.2 P')
      (lb₀.insertOrder (.new t c oid s p q))
      ((b.orderSlots.allocate oid).map fun r => (⟨oid, c, q, pr, r.1⟩,
        { b.withLevels s (Book.appendAt p ⟨oid, c, q, pr, r.1⟩ (b.levels s)) with orderSlots := r.2 })) := by
  obtain ⟨lp, os⟩ := l
  dsimp only at hlp
  subst hlp
  set L := lastSlot ps₁ nullIndex
  set R := firstSlot ps₂ nullIndex
  have hget : lb.levels.get i = .ok (((Level.mk lp os).node s).link L R) := h.get_level hv hps
  have ho := h.orders_split hv hps
  have hpr' : (((Level.mk lp os).node s).link L R).nextPriority lb.orders = .ok pr := by
    rw [← hpr]
    exact LevelNode.nextPriority_chain ho h.ordersFit
  have halloc : b.orderSlots.allocate oid = (lb.orders.allocate
      ⟨lb.ticker, c, oid, s, lp, q, pr, nullIndex, nullIndex⟩).map fun r => (r.1, r.2.map (·.orderId)) := by
    rw [← h.orderIds]
    exact Pool.allocate_map (f := (·.orderId)) (⟨lb.ticker, c, oid, s, lp, q, pr, nullIndex, nullIndex⟩ : OrderNode)
  cases hta : lb.orders.tryAllocate ⟨lb.ticker, c, oid, s, lp, q, pr, nullIndex, nullIndex⟩ with
  | none =>
    have ha : lb.orders.allocate ⟨lb.ticker, c, oid, s, lp, q, pr, nullIndex, nullIndex⟩ =
        .error (.poolExhausted lb.orders.capacity) := by
      simp [Pool.allocate, hta]
    have hlin : lb₀.insertOrder (.new t c oid s lp q) = .error (.poolExhausted lb.orders.capacity) := by
      simp [LinkedBook.insertOrder, OrderNode.new, hc, hl, hget, hpr', ha, bind, Except.bind]
    rw [hlin, halloc, ha]
    rfl
  | some r =>
    obtain ⟨index, orders₁⟩ := r
    set o : Resting := ⟨oid, c, q, pr, index⟩
    have h₁ := ho.tryAllocate hta
    have hcap₁ := Pool.capacity_of_tryAllocate h.orders.inv hta
    -- the counters stay within their words: the pool is smaller than the null index
    have hcount : os.length + 1 < 2 ^ 32 := by
      have hlen := h₁.length_le
      have hfit := h.ordersFit
      simp only [List.length_cons, List.length_append, Level.orderEntries, Pool.length_chain,
        Level.cells, List.length_map] at hlen
      simp only [nullIndex] at hfit
      omega
    have htotal : (Level.mk lp os).totalQty + o.qty.toNat < 2 ^ 64 := by
      show (Level.mk lp os).totalQty + q.toNat < 2 ^ 64
      have := Level.totalQty_le (Level.mk lp os)
      have := q.toNat_lt
      simp only [Level.count_mk] at *
      omega
    obtain ⟨orders₂, hpush, h₂, hid₂⟩ := LevelNode.pushBack_chain (o := o) (b := L) (w := R) h₁ rfl
      (hcap₁ ▸ h.ordersFit) hcount htotal
    have hcap₂ : orders₂.capacity = lb.orders.capacity := by
      rw [← Pool.capacity_map (f := (·.orderId)), hid₂, Pool.capacity_map, hcap₁]
    have hkeys : oid ∉ lb.orderMap.entries.map (·.1) :=
      SlotMap.contains_eq_false_iff.1 (by rw [h.contains_orderMap, hfresh])
    have hb' : b.withLevels s (Book.appendAt lp o (b.levels s)) =
        b.withLevels s ((ps₁ ++ (i, ⟨lp, os ++ [o]⟩) :: ps₂).map fun e : Nat × Level => e.2) := by
      rw [h.sides, hps, Book.appendAt_middle (h.price_ne hv hps)]
    have hom : (lb.orderMap.insert oid index).entries.Perm
        ((b.withLevels s ((ps₁ ++ (i, ⟨lp, os ++ [o]⟩) :: ps₂).map fun e : Nat × Level => e.2)).orders.map
          Resting.handle) := by
      rw [SlotMap.entries_insert, SlotMap.erase_of_not_mem hkeys]
      refine (h.orderMap.cons _).trans (List.Perm.trans ?_ ((Book.orders_withLevels_middle hv _ _ _).map _).symm)
      have hb := (Book.orders_middle hv (hps ▸ h.sides s)).map Resting.handle
      refine (hb.cons (oid, index)).trans ?_
      simp only [List.map_append, List.map_cons, List.append_assoc, List.singleton_append]
      exact List.perm_middle.symm
    obtain ⟨levels₂, hset, hst⟩ := h.replaceLevel hv hps
      (show (Level.mk lp (os ++ [o])).price = (Level.mk lp os).price from rfl) h₂ hid₂ hcap₂ hom
    rw [LinkedBook.insertOrder_eq hc hl hget hpr' hta hpush hset, halloc, Pool.allocate_eq_ok.2 hta]
    simp only [Except.map]
    rw [hb']
    exact ⟨rfl, ⟨_, _, hst.get_order hv (Placed.side_withSide_self hv)⟩, _, hst⟩

/-- **Resting an order in a stored book** does what the book's `insert` does: it meets the same
fault, or rests the order in the same slot, where its node now lies, and stores the book after. -/
theorem insertOrder (h : lb.Stores b P) (t : TickerId) (c : ClientId) (oid : OrderId) (s : Side)
    (p : Price) (q : Qty) :
    Agrees (fun (x : Nat × LinkedBook) (y : Resting × Book) => x.1 = y.1.slot ∧
        (∃ L R, x.2.orders.get x.1 = .ok ((y.1.node x.2.ticker s p).link L R)) ∧ ∃ P', x.2.Stores y.2 P')
      (lb.insertOrder (.new t c oid s p q)) (b.insert c oid s p q) := by
  cases hc : b.contains oid with
  | true =>
    have hl : lb.insertOrder (.new t c oid s p q) = .error .duplicateOrder := by
      simp [LinkedBook.insertOrder, OrderNode.new, h.contains_orderMap, hc, bind, Except.bind, throw,
        throwThe, MonadExceptOf.throw]
    rw [hl, show b.insert c oid s p q = .error .duplicateOrder by
      simp [Book.insert, hc, bind, Except.bind, throw, throwThe, MonadExceptOf.throw]]
    rfl
  | false =>
  have hc' : lb.orderMap.contains oid = false := by rw [h.contains_orderMap, hc]
  cases hv : s.isValid with
  | false =>
    have hs : s = .invalid := by cases s <;> first | rfl | cases hv
    subst hs
    have hl : lb.insertOrder (.new t c oid .invalid p q) = .error .levelForInvalidSide := by
      simp [LinkedBook.insertOrder, OrderNode.new, hc', levelFor, levelMap, bind, Except.bind, throw,
        throwThe, MonadExceptOf.throw]
    rw [hl, show b.insert c oid .invalid p q = .error .levelForInvalidSide by
      simp [Book.insert, hc, Side.isValid, bind, Except.bind, throw, throwThe, MonadExceptOf.throw]]
    rfl
  | true =>
  cases hf : (b.levels s).find? (·.price == p) with
  | some l =>
    obtain ⟨ps₁, ps₂, i, hps, hl⟩ := h.levelFor_found hv hf
    have hlp : l.price = p := by simpa using List.find?_some hf
    cases hpr : l.nextPriority with
    | error f =>
      -- the level's newest order holds the largest priority
      obtain ⟨lp, os⟩ := l
      have hpr' := LevelNode.nextPriority_chain (b := lastSlot ps₁ nullIndex) (w := firstSlot ps₂ nullIndex)
        (h.orders_split hv hps) h.ordersFit
      have hlin : lb.insertOrder (.new t c oid s p q) = .error f := by
        simp [LinkedBook.insertOrder, OrderNode.new, hc', hl, h.get_level hv hps, hpr', hpr, bind,
          Except.bind]
      rw [hlin, Book.insert_eq_error_of hc hv hf hpr]
      rfl
    | ok pr =>
      rw [Book.insert_eq_allocate hc hv (.inl ⟨hf, rfl⟩) hpr]
      exact appendOrder hc' hl h hv hps hlp hc hpr
  | none =>
    by_cases hroom : b.levelCount < b.levelCapacity
    · obtain ⟨i, lb₁, hl, h₁⟩ := h.levelFor_new hv hf hroom
      rw [Book.insert_eq_allocate hc hv (.inr ⟨hf, hroom, rfl, rfl⟩) rfl]
      have hfresh : (b.withLevels s (Book.placeLevel s ⟨p, []⟩ (b.levels s))).contains oid = false :=
        Book.contains_eq_false_iff.2 fun hm =>
          Book.contains_eq_false_iff.1 hc (((Book.orders_placeLevel_nil hv).map _).subset hm)
      have := appendOrder (t := t) (c := c) (q := q) hc' hl h₁ hv (Placed.side_withSide_self hv) rfl hfresh rfl
      simpa [Book.withLevels_withLevels, Book.levels_withLevels_self hv] using this
    · have hl := h.levelFor_full hv hf (Nat.not_lt.1 hroom)
      have hlin : lb.insertOrder (.new t c oid s p q) = .error (.poolExhausted b.levelCapacity) := by
        simp [LinkedBook.insertOrder, OrderNode.new, hc', hl, bind, Except.bind]
      rw [hlin, show b.insert c oid s p q = .error (.poolExhausted b.levelCapacity) by
        simp [Book.insert, hc, hv, hf, Nat.not_lt.1 hroom, bind, Except.bind, throw, throwThe,
          MonadExceptOf.throw]]
      rfl

/-! ### Taking an order out -/

theorem ids_nodup (h : lb.Stores b P) : (b.orders.map (·.orderId)).Nodup := by
  have := (h.orderMap.map (·.1)).nodup_iff.1 lb.orderMap.nodup
  simpa [Function.comp_def, Resting.handle] using this

theorem level_ids_nodup (h : lb.Stores b P) (hv : s.isValid = true) (hps : P.side s = ps₁ ++ (i, l) :: ps₂) :
    (l.orders.map (·.orderId)).Nodup := by
  have := ((Book.orders_middle hv (hps ▸ h.sides s)).map (·.orderId)).nodup_iff.1 h.ids_nodup
  rw [List.map_append] at this
  exact this.sublist (List.sublist_append_left _ _)

theorem filter_price_middle (hne : ∀ e ∈ ps₁ ++ ps₂, e.2.price ≠ l.price) :
    ((ps₁ ++ (i, l) :: ps₂).map fun e => (e.2.price, e.1)).filter (·.1 != l.price) =
      (ps₁ ++ ps₂).map fun e => (e.2.price, e.1) := by
  have hkeep : ∀ x ∈ (ps₁ ++ ps₂).map (fun e => (e.2.price, e.1)), (x.1 != l.price) = true := by
    intro x hx
    obtain ⟨e, he, rfl⟩ := List.mem_map.1 hx
    simpa using hne e he
  rw [List.map_append, List.map_cons, List.filter_append, List.filter_cons_of_neg (by simp),
    List.filter_eq_self.2 fun x hx => hkeep x (by simp only [List.map_append]; exact List.mem_append_left _ hx),
    List.filter_eq_self.2 fun x hx => hkeep x (by simp only [List.map_append]; exact List.mem_append_right _ hx),
    List.map_append]

/-- **A stored level's counters fit their words**: it holds fewer orders than the order pool has
slots, which is fewer than the null index. -/
theorem level_fits (h : lb.Stores b P) (hv : s.isValid = true) (hps : P.side s = ps₁ ++ (i, l) :: ps₂) :
    l.orders.length < 2 ^ 32 ∧ l.totalQty < 2 ^ 64 := by
  have hlen := (h.orders_split hv hps).length_le
  have hfit := h.ordersFit
  simp only [List.length_append, Level.orderEntries, Pool.length_chain, Level.cells,
    List.length_map] at hlen
  simp only [nullIndex] at hfit
  have hcount : l.orders.length < 2 ^ 32 := by omega
  have := Level.totalQty_le l
  simp only [Level.count] at this
  exact ⟨hcount, by omega⟩

/-- **Dropping an emptied level.** Writing a level's node back with no orders and unlinking it
with `removeLevel` succeeds, whatever the order pool holds, and changes neither that pool nor the
id map; once the order pool holds the other levels' chains, the linked book stores the book
without the level. -/
theorem dropLevel (h : lb.Stores b P) (hv : s.isValid = true) (hps : P.side s = ps₁ ++ (i, l) :: ps₂)
    (orders₀ : Pool OrderNode) :
    ∃ levels₁ lb₂, lb.levels.set i (((Level.mk l.price []).node s).link (lastSlot ps₁ nullIndex)
        (firstSlot ps₂ nullIndex)) = .ok levels₁ ∧
      ({ lb with orders := orders₀, levels := levels₁ } : LinkedBook).removeLevel i = .ok lb₂ ∧
      lb₂.orders = orders₀ ∧ lb₂.orderMap = lb.orderMap ∧
      ∀ (orders' : Pool OrderNode) (slots : Pool OrderId) (om : SlotMap OrderId),
        orders'.Holds (Placed.sideOrders lb.ticker s (ps₁ ++ ps₂) ++
          Placed.sideOrders lb.ticker s.opposite (P.side s.opposite)) →
        orders'.map (·.orderId) = slots → orders'.capacity = lb.orders.capacity →
        om.entries.Perm
          ((b.withLevels s ((ps₁ ++ ps₂).map fun e : Nat × Level => e.2)).orders.map Resting.handle) →
        ({ lb₂ with orderMap := om, orders := orders' }).Stores
          { b.withLevels s ((ps₁ ++ ps₂).map fun e : Nat × Level => e.2) with orderSlots := slots }
          (P.withSide s (ps₁ ++ ps₂)) := by
  obtain ⟨levels₁, hset, hl₁, hcap₁⟩ := (h.levels_split hv hps).set_entry
    (((Level.mk l.price []).node s).link (lastSlot ps₁ nullIndex) (firstSlot ps₂ nullIndex))
  have hl₁' : levels₁.Holds (Placed.sideLevels s (ps₁ ++ (i, ⟨l.price, []⟩) :: ps₂) ++
      Placed.sideLevels s.opposite (P.side s.opposite)) := by
    rw [Placed.sideLevels_middle]
    simpa using hl₁
  have hbest : ({ lb with orders := orders₀, levels := levels₁ } : LinkedBook).bestIndex s =
      firstSlot (ps₁ ++ (i, ⟨l.price, []⟩) :: ps₂) nullIndex := by
    rw [bestIndex_with, h.best, hps, Pool.firstSlot_append, Pool.firstSlot_append]
    rfl
  obtain ⟨levels₂, hrem, hl₂, hcap₂⟩ := removeLevel_chain hv hl₁' hbest
    (show levels₁.capacity < nullIndex by rw [hcap₁]; exact h.levelsFit)
  refine ⟨levels₁, _, hset, hrem, by simp, by simp, fun orders' slots om ho hids hcap hom => ?_⟩
  have hne := h.price_ne hv hps
  refine ⟨by simp [h.ticker], fun s' => ?_, ?_, hids, ?_, fun s' => ?_, fun s' m hm => ?_, hom,
    by simp [hcap₂, hcap₁, h.levelCapacity], hcap ▸ h.ordersFit, by simp [hcap₂, hcap₁, h.levelsFit]⟩
  · -- the level is gone from its side
    rw [Book.levels_setOrderSlots]
    by_cases hs : s' = s
    · subst hs
      rw [Book.levels_withLevels_self hv, Placed.side_withSide_self hv]
    · rw [Book.levels_withLevels_of_ne hs, Placed.side_withSide_of_ne hs, h.sides]
  · have hP := Placed.orderEntries_perm (P := P.withSide s (ps₁ ++ ps₂)) (t := lb.ticker) hv
    rw [Placed.side_withSide_self hv, Placed.side_withSide_of_ne (Side.opposite_ne hv)] at hP
    simpa using ho.perm hP.symm
  · simpa using hl₂.perm (Placed.levelEntries_withSide hv (ps₁ ++ ps₂)).symm
  · -- the level after it, if any, is the side's best
    rw [bestIndex_with, bestIndex_with, bestIndex_unmapLevel, bestIndex_setBest hv, bestIndex_with]
    by_cases hs : s' = s
    · rw [if_pos hs, hs, Placed.side_withSide_self hv]
    · rw [if_neg hs, Placed.side_withSide_of_ne hs, h.best]
  · -- its price is forgotten
    simp only [levelMap_with, levelMap_unmapLevel hv, levelMap_setBest] at hm
    by_cases hs : s' = s
    · subst hs
      rw [if_pos rfl] at hm
      obtain ⟨m₀, hm₀, rfl⟩ := Option.map_eq_some_iff.1 hm
      rw [Placed.side_withSide_self hv, SlotMap.entries_erase, ← filter_price_middle hne]
      have := h.priceMap s' m₀ hm₀
      rw [hps] at this
      exact this.filter _
    · rw [if_neg hs] at hm
      rw [Placed.side_withSide_of_ne hs]
      exact h.priceMap s' m hm

/-- **Taking an order out of a stored book**: `removeOrderAt` unlinks the order from its level,
drops the level if it empties, forgets the order's id and frees its slot, as the book's `without`
does, and returns the order's node. -/
theorem removeOrderAt (h : lb.Stores b P) (hv : s.isValid = true)
    (hps : P.side s = ps₁ ++ (i, ⟨p, xs ++ o :: ys⟩) :: ps₂) :
    ∃ lb' P', lb.removeOrderAt o.slot = .ok (o.node lb.ticker s p, lb') ∧
      lb'.Stores (b.without s p o) P' := by
  have ho := h.orders_split hv hps
  have hli : lb.levelIndex s p = some i :=
    (h.levelIndex_eq_some_iff hv).2 ⟨_, hps ▸ List.mem_append_right _ List.mem_cons_self, rfl⟩
  obtain ⟨hcount, htotal⟩ := h.level_fits hv hps
  obtain ⟨orders', hrem, h', hid'⟩ := LevelNode.remove_chain (b := lastSlot ps₁ nullIndex)
    (w := firstSlot ps₂ nullIndex) ho h.ordersFit hcount htotal
  obtain ⟨hrel, h''⟩ := (show orders'.Holds ([] ++ (o.node lb.ticker s p, o.slot) ::
      ((Level.mk p (xs ++ ys)).orderEntries lb.ticker s ++ (Placed.sideOrders lb.ticker s (ps₁ ++ ps₂) ++
        Placed.sideOrders lb.ticker s.opposite (P.side s.opposite)))) from h').release_mid
  have hids : (orders'.vacate o.slot).map (·.orderId) = b.orderSlots.vacate o.slot := by
    rw [Pool.map_vacate, hid', h.orderIds]
  have hcap : (orders'.vacate o.slot).capacity = lb.orders.capacity := by
    rw [Pool.capacity_vacate, ← Pool.capacity_map (f := (·.orderId)), hid', Pool.capacity_map]
  have hs : b.levels s = (ps₁ ++ (i, ⟨p, xs ++ o :: ys⟩) :: ps₂).map (·.2) := hps ▸ h.sides s
  have hnd₀ := ((Book.orders_middle hv hs).map (·.orderId)).nodup_iff.1 h.ids_nodup
  have hnd : ((xs ++ o :: ys).map (·.orderId)).Nodup := h.level_ids_nodup hv hps
  have hwithout : b.without s p o = { b.withLevels s (if xs ++ ys = [] then (ps₁ ++ ps₂).map (·.2)
      else (ps₁ ++ (i, ⟨p, xs ++ ys⟩) :: ps₂).map (·.2)) with orderSlots := b.orderSlots.vacate o.slot } := by
    rw [Book.without, hs, Book.dropFrom_middle (h.price_ne hv hps) hnd]
  have hom : (lb.orderMap.erase o.orderId).entries.Perm ((xs ++ ys ++
      (Level.ordersOf ((ps₁ ++ ps₂).map (·.2)) ++ Level.ordersOf (b.levels s.opposite))).map Resting.handle) := by
    rw [SlotMap.entries_erase]
    refine (h.orderMap.filter _).trans ?_
    rw [List.filter_map]
    refine List.Perm.map _ ?_
    have hq : ((fun e : OrderId × Nat => e.1 != o.orderId) ∘ Resting.handle) = (·.orderId != o.orderId) := rfl
    rw [hq]
    refine ((Book.orders_middle hv hs).filter _).trans ?_
    rw [List.append_assoc, List.cons_append] at hnd₀ ⊢
    rw [Book.filter_orderId_middle hnd₀, List.append_assoc]
  by_cases he : xs ++ ys = []
  · -- the level empties and is dropped
    obtain ⟨rfl, rfl⟩ := List.append_eq_nil_iff.1 he
    obtain ⟨levels₁, lb₂, hset, hremL, horders₂, hmap₂, hst⟩ := h.dropLevel hv hps orders'
    have hom' : (lb.orderMap.erase o.orderId).entries.Perm
        ((b.withLevels s ((ps₁ ++ ps₂).map fun e : Nat × Level => e.2)).orders.map Resting.handle) := by
      refine hom.trans ?_
      simpa using ((Book.orders_withLevels hv ((ps₁ ++ ps₂).map fun e : Nat × Level => e.2)).map
        Resting.handle).symm
    refine ⟨_, P.withSide s (ps₁ ++ ps₂), LinkedBook.removeOrderAt_eq (h.get_order hv hps) hli
      (h.get_level hv hps) hrem hset (.inr ⟨rfl, hremL⟩) (by rw [horders₂]; exact hrel), ?_⟩
    rw [hwithout, if_pos he, hmap₂]
    exact hst _ _ _ (by simpa [Level.orderEntries_mk] using h'') hids hcap hom'
  · -- the level stays with the other orders
    have hom' := hom.trans ((Book.orders_withLevels_middle hv ps₁ ps₂ (i, ⟨p, xs ++ ys⟩)).map Resting.handle).symm
    obtain ⟨levels', hset, hst⟩ := h.replaceLevel hv hps
      (show (Level.mk p (xs ++ ys)).price = (Level.mk p (xs ++ o :: ys)).price from rfl) h'' hids hcap hom'
    refine ⟨_, P.withSide s (ps₁ ++ (i, ⟨p, xs ++ ys⟩) :: ps₂), LinkedBook.removeOrderAt_eq
      (h.get_order hv hps) hli (h.get_level hv hps) hrem hset (.inl ⟨?_, rfl⟩) hrel, ?_⟩
    · cases hxy : xs ++ ys with
      | nil => exact absurd hxy he
      | cons _ _ => rfl
    · rw [hwithout, if_neg he]
      exact hst

/-! ### Lowering a partly filled order -/

/-- **Lowering a partly filled order in a stored book**: `reduceQty` lowers the order's quantity
and its level's total, and the linked book stores the book with the order lowered. -/
theorem reduceQty (h : lb.Stores b P) (hv : s.isValid = true)
    (hps : P.side s = ps₁ ++ (i, ⟨p, xs ++ o :: ys⟩) :: ps₂) {fill : Qty} (hlt : fill < o.qty) :
    ∃ lb', lb.reduceQty o.slot fill = .ok lb' ∧
      lb'.Stores (b.withLevels s ((ps₁ ++ (i, ⟨p, xs ++ { o with qty := o.qty - fill } :: ys⟩) :: ps₂).map
          fun e : Nat × Level => e.2))
        (P.withSide s (ps₁ ++ (i, ⟨p, xs ++ { o with qty := o.qty - fill } :: ys⟩) :: ps₂)) := by
  set o' : Resting := { o with qty := o.qty - fill }
  set X := xs.map fun o => (o.slot, o.node lb.ticker s p)
  set Y := ys.map fun o => (o.slot, o.node lb.ticker s p)
  set rest := Placed.sideOrders lb.ticker s (ps₁ ++ ps₂) ++
    Placed.sideOrders lb.ticker s.opposite (P.side s.opposite)
  have hsplit : ∀ q : Resting, q.slot = o.slot → (Level.mk p (xs ++ q :: ys)).orderEntries lb.ticker s ++ rest =
      chain OrderNode.link nullIndex X o.slot ++ ((q.node lb.ticker s p).link (lastSlot X nullIndex)
        (firstSlot Y nullIndex), o.slot) :: (chain OrderNode.link o.slot Y nullIndex ++ rest) := by
    intro q hq
    rw [Level.orderEntries_mk, List.map_append, List.map_cons, Pool.chain_middle, List.append_assoc,
      List.cons_append, hq]
  have ho := h.orders_split hv hps
  rw [hsplit o rfl] at ho
  obtain ⟨orders', hm, ho'⟩ := ho.modify_entry fun o => { o with qty := o.qty - fill }
  have ho'' : orders'.Holds ((Level.mk p (xs ++ o' :: ys)).orderEntries lb.ticker s ++ rest) := by
    rw [hsplit o' rfl]
    exact ho'
  have hids : orders'.map (·.orderId) = b.orderSlots := by
    rw [Pool.map_modify hm fun _ => rfl, h.orderIds]
  have hs : b.levels s = (ps₁ ++ (i, ⟨p, xs ++ o :: ys⟩) :: ps₂).map (·.2) := hps ▸ h.sides s
  have hb' := Book.orders_withLevels_middle (b := b) hv ps₁ ps₂ (i, ⟨p, xs ++ o' :: ys⟩)
  have hom : lb.orderMap.entries.Perm ((b.withLevels s ((ps₁ ++ (i, ⟨p, xs ++ o' :: ys⟩) :: ps₂).map
      fun e : Nat × Level => e.2)).orders.map Resting.handle) := by
    refine h.orderMap.trans (((Book.orders_middle hv hs).map _).trans (List.Perm.trans ?_ (hb'.map _).symm))
    simp [o', Resting.handle]
  obtain ⟨levels', hset, hst⟩ := h.replaceLevel hv hps
    (show (Level.mk p (xs ++ o' :: ys)).price = (Level.mk p (xs ++ o :: ys)).price from rfl) ho'' hids
    (Pool.capacity_modify hm) hom
  have hsub := LevelNode.subtractQty_node (b := lastSlot ps₁ nullIndex) (w := firstSlot ps₂ nullIndex)
    (s := s) hlt (h.level_fits hv hps).2
  refine ⟨_, LinkedBook.reduceQty_eq (h.get_order hv hps) hlt hm
    ((h.levelIndex_eq_some_iff hv).2 ⟨_, hps ▸ List.mem_append_right _ List.mem_cons_self, rfl⟩)
    (h.get_level hv hps) hsub hset, ?_⟩
  rw [← Book.withLevels_orderSlots]
  exact hst

/-! ### One trade -/

variable {t : Taker} {leaves : Qty}

/-- **One trade in a stored book.** The taker trades with an order of a level of the other side:
`fill` emits the trade's events, leaves the taker what the trade leaves it, and the linked book
stores the book with the order taken out, when the trade fills it, or lowered. -/
theorem fill (h : lb.Stores b P) (hv : s.isValid = true)
    (hps : P.side s = ps₁ ++ (i, ⟨p, xs ++ o :: ys⟩) :: ps₂) (ht : t.ticker = b.ticker)
    (hs : t.side.opposite = s) :
    (lb.fill t leaves o.slot).events = t.tradeEvents p o (min leaves o.qty) (leaves - min leaves o.qty) ∧
      ∃ lb₁ P₁, (lb.fill t leaves o.slot).result = .ok (leaves - min leaves o.qty, lb₁) ∧
        lb₁.Stores (if o.qty - min leaves o.qty = 0 then b.without s p o
          else b.withLevels s ((ps₁ ++ (i, ⟨p, xs ++ { o with qty := o.qty - min leaves o.qty } :: ys⟩) ::
            ps₂).map fun e : Nat × Level => e.2)) P₁ := by
  subst hs
  have hget := h.get_order hv hps
  rw [← h.ticker] at ht
  by_cases hgone : o.qty - min leaves o.qty = 0
  · -- filled completely: the order is taken out
    obtain ⟨lb₁, P₁, hrem, hst⟩ := h.removeOrderAt hv hps
    have e : lb.fill t leaves o.slot = ⟨t.tradeEvents p o (min leaves o.qty) (leaves - min leaves o.qty),
        .ok (leaves - min leaves o.qty, lb₁)⟩ := by
      simp [LinkedBook.fill, hget, hgone, hrem, Taker.tradeEvents, ht]
    rw [e, if_pos hgone]
    exact ⟨rfl, lb₁, P₁, rfl, hst⟩
  · -- filled in part: the order is lowered
    have hlt : min leaves o.qty < o.qty := by
      have hsum := toNat_min_add_sub_right leaves o.qty
      have hne : (o.qty - min leaves o.qty).toNat ≠ 0 := fun e => hgone (UInt32.toNat_inj.1 (by simpa using e))
      rw [UInt32.lt_iff_toNat_lt]
      omega
    obtain ⟨lb₁, hred, hst⟩ := h.reduceQty hv hps hlt
    have e : lb.fill t leaves o.slot = ⟨t.tradeEvents p o (min leaves o.qty) (leaves - min leaves o.qty),
        .ok (leaves - min leaves o.qty, lb₁)⟩ := by
      simp [LinkedBook.fill, hget, hgone, hred, Taker.tradeEvents, ht]
    rw [e, if_neg hgone]
    exact ⟨rfl, lb₁, _, rfl, hst⟩

/-! ### The crossing loop -/

/-- Taking the oldest order out of a side's best level leaves the rest of that level, if any,
before the other levels. -/
theorem levels_without_head (h : lb.Stores b P) (hv : s.isValid = true)
    (hps : P.side s = (i, ⟨p, o :: xs⟩) :: ps₂) :
    (b.without s p o).levels s = if xs = [] then ps₂.map (·.2) else ⟨p, xs⟩ :: ps₂.map (·.2) := by
  have hps' : P.side s = [] ++ (i, ⟨p, [] ++ o :: xs⟩) :: ps₂ := hps
  have hs₀ : b.levels s = (([] : List (Nat × Level)) ++ (i, ⟨p, [] ++ o :: xs⟩) :: ps₂).map (·.2) :=
    hps' ▸ h.sides _
  have hnd : (([] ++ o :: xs : List Resting).map (·.orderId)).Nodup := h.level_ids_nodup hv hps'
  rw [Book.levels_without hv, if_pos rfl, hs₀, Book.dropFrom_middle (h.price_ne hv hps') hnd]
  simp

/-- **The crossing loop in a stored book** makes the trades of `Taker.fillSide` over the other
side, one at a time, given a turn for each order there and one more: the same events and the
same quantity left, and the linked book stores the book after the crossing. The other side's
levels each hold an order, as every reached book's do. -/
theorem crossLoop (hv : t.side.isValid = true) : ∀ (fuel : Nat) {lb : LinkedBook} {b : Book} {P : Placed}
    (leaves : Qty), lb.Stores b P → t.ticker = b.ticker → (∀ l ∈ b.levels t.side.opposite, l.orders ≠ []) →
    (Level.ordersOf (b.levels t.side.opposite)).length < fuel →
    (LinkedBook.crossLoop t fuel lb leaves).events = (t.fillSide (b.levels t.side.opposite) leaves).1 ∧
      ∃ lb' P', (LinkedBook.crossLoop t fuel lb leaves).result =
          .ok ((t.fillSide (b.levels t.side.opposite) leaves).2.1, lb') ∧
        lb'.Stores (b.afterCross t.side.opposite (t.fillSide (b.levels t.side.opposite) leaves).2.2.1
          (t.fillSide (b.levels t.side.opposite) leaves).2.2.2) P'
  | 0, _, _, _, _, _, _, _, hfuel => absurd hfuel (Nat.not_lt_zero _)
  | fuel + 1, lb, b, P, leaves, h, ht, hne, hfuel => by
    have hsv := Side.isValid_opposite hv
    by_cases h0 : leaves = 0
    · -- the taker holds nothing: both loops stop at once
      subst h0
      rw [Taker.fillSide_zero, Book.afterCross_self, LinkedBook.crossLoop_of_zero]
      exact ⟨rfl, lb, P, rfl, h⟩
    have hside := h.sides t.side.opposite
    cases hps : P.side t.side.opposite with
    | nil =>
      have hbest : lb.bestIndex t.side.opposite = nullIndex := by rw [h.best, hps]; rfl
      rw [hps, List.map_nil] at hside
      have hf : t.fillSide (b.levels t.side.opposite) leaves = ([], leaves, b.levels t.side.opposite, []) := by
        rw [hside]; rfl
      have hl : LinkedBook.crossLoop t (fuel + 1) lb leaves = ⟨[], .ok (leaves, lb)⟩ := by
        simp [LinkedBook.crossLoop, h0, hbest]
      rw [hf, Book.afterCross_self, hl]
      exact ⟨rfl, lb, P, rfl, h⟩
    | cons e ps₂ =>
      obtain ⟨i, l⟩ := e
      have hps' : P.side t.side.opposite = [] ++ (i, l) :: ps₂ := hps
      have hbest : lb.bestIndex t.side.opposite = i := by rw [h.best, hps]; rfl
      have hi : i ≠ nullIndex := by
        have := (h.levels_split hsv hps').slot_lt_capacity (i := i) (by simp)
        have := h.levelsFit
        omega
      have hget := h.get_level hsv hps'
      rw [hps, List.map_cons] at hside
      by_cases hc : crosses t.side t.limit l.price = true
      swap
      · -- the best level is beyond the limit
        rw [Bool.not_eq_true] at hc
        have hf : t.fillSide (b.levels t.side.opposite) leaves = ([], leaves, b.levels t.side.opposite, []) := by
          rw [hside, Taker.fillSide_stop hc]
        have hl : LinkedBook.crossLoop t (fuel + 1) lb leaves = ⟨[], .ok (leaves, lb)⟩ := by
          simp [LinkedBook.crossLoop, h0, hbest, hi, hget, hc]
        rw [hf, Book.afterCross_self, hl]
        exact ⟨rfl, lb, P, rfl, h⟩
      obtain ⟨p, os⟩ := l
      cases os with
      | nil => exact absurd rfl (hne _ (hside ▸ List.mem_cons_self))
      | cons o os =>
      have hps'' : P.side t.side.opposite = [] ++ (i, ⟨p, [] ++ o :: os⟩) :: ps₂ := hps
      have hhead : o.slot ≠ nullIndex := by
        have := (h.orders_split hsv hps'').slot_lt_capacity (i := o.slot) (by simp [Level.orderEntries_mk])
        have := h.ordersFit
        omega
      obtain ⟨hev, lb₁, P₁, hres, hst⟩ : (lb.fill t leaves o.slot).events = _ ∧ _ :=
        h.fill hsv hps'' ht rfl
      have hloop : LinkedBook.crossLoop t (fuel + 1) lb leaves =
          ⟨(lb.fill t leaves o.slot).events ++
            (LinkedBook.crossLoop t fuel lb₁ (leaves - min leaves o.qty)).events,
            (LinkedBook.crossLoop t fuel lb₁ (leaves - min leaves o.qty)).result⟩ := by
        simp [LinkedBook.crossLoop, h0, hbest, hi, hget, hc, hhead, hres]
      rw [hloop, hev, hside]
      by_cases hgone : o.qty - min leaves o.qty = 0
      · -- the order is filled completely and the loop goes on without it
        rw [if_pos hgone] at hst
        rw [Taker.fillSide_filled h0 hc hgone]
        have hb₁ := h.levels_without_head hsv hps
        have hne₁ : ∀ l ∈ (b.without t.side.opposite p o).levels t.side.opposite, l.orders ≠ [] := by
          rw [hb₁]
          intro l hl
          split at hl
          · exact hne l (hside ▸ List.mem_cons_of_mem _ hl)
          · rcases List.mem_cons.1 hl with rfl | hl
            · assumption
            · exact hne l (hside ▸ List.mem_cons_of_mem _ hl)
        have hfuel₁ : (Level.ordersOf ((b.without t.side.opposite p o).levels t.side.opposite)).length < fuel := by
          rw [hside] at hfuel
          rw [hb₁]
          split <;> simp_all
        obtain ⟨hev', lb', P', hres', hst'⟩ := crossLoop hv fuel (leaves - min leaves o.qty) hst
          (by simp [Book.without, ht]) hne₁ hfuel₁
        rw [hb₁] at hev' hres' hst'
        refine ⟨by rw [hev'], lb', P', hres', ?_⟩
        rw [Book.afterCross_cons (p := p)]
        exact hst'
      · -- the order keeps what is left, and the taker holds nothing
        rw [if_neg hgone] at hst
        have hleft : leaves - min leaves o.qty = 0 :=
          (Fill.takes_or_finishes ⟨p, o, leaves⟩).resolve_left hgone
        rw [Taker.fillSide_partial h0 hc hgone, hleft, LinkedBook.crossLoop_of_zero]
        refine ⟨by simp, lb₁, P₁, rfl, ?_⟩
        rw [Book.afterCross_nil]
        simpa using hst

/-! ### The book's operations -/

theorem length_ordersOf_le (h : lb.Stores b P) (hv : s.isValid = true) :
    (Level.ordersOf (b.levels s)).length ≤ lb.orders.capacity := by
  have hlen := (h.orders.perm (Placed.orderEntries_perm hv)).length_le
  have hside : (Placed.sideOrders lb.ticker s (P.side s)).length = (Level.ordersOf (b.levels s)).length := by
    rw [h.sides]
    simp [Placed.sideOrders, Level.ordersOf, Level.orderEntries, Level.cells, List.length_flatMap,
      Function.comp_def]
  rw [List.length_append, hside] at hlen
  omega

theorem locate (h : lb.Stores b P) {oid : OrderId} {o : Resting} (hf : b.find? oid = some (s, p, o)) :
    s.isValid = true ∧ o.orderId = oid ∧ lb.orderMap.find? oid = some o.slot ∧
      ∃ ps₁ i xs ys ps₂, P.side s = ps₁ ++ (i, ⟨p, xs ++ o :: ys⟩) :: ps₂ := by
  obtain ⟨hv, hid, l, hl, hlp, ho⟩ := Book.find?_eq_some hf
  have hmem : o ∈ b.orders :=
    (Book.orders_perm hv).mem_iff.2 (List.mem_append_left _ (Level.mem_ordersOf.2 ⟨l, hl, ho⟩))
  refine ⟨hv, hid, h.orderMap_eq_some_iff.2 ⟨o, hmem, hid, rfl⟩, ?_⟩
  rw [h.sides] at hl
  obtain ⟨⟨i, lp, os⟩, he, rfl⟩ := List.mem_map.1 hl
  obtain ⟨ps₁, ps₂, hps⟩ := List.append_of_mem he
  obtain ⟨xs, ys, rfl⟩ := List.append_of_mem ho
  subst hlp
  exact ⟨ps₁, i, xs, ys, ps₂, hps⟩

theorem orderMap_find?_none (h : lb.Stores b P) {oid : OrderId} (hf : b.find? oid = none) :
    lb.orderMap.find? oid = none := by
  rw [Option.eq_none_iff_forall_ne_some]
  intro i hi
  obtain ⟨o, ho, hid, -⟩ := h.orderMap_eq_some_iff.1 hi
  exact Book.find?_eq_none_iff.1 hf o ho hid

/-- **A limit order in a stored book** makes the events of the book's `add`, and the linked book
after stores the book after, or both meet the same fault. The crossing takes a turn for each
order of the other side, so the loop's fuel, one more than the order pool's slots, never runs
out; the book's levels each hold an order, as every reached book's do. -/
theorem add (h : lb.Stores b P) (hne : ∀ s, ∀ l ∈ b.levels s, l.orders ≠ [])
    (c : ClientId) (oid : OrderId) (s : Side) (p : Price) (q : Qty) :
    (lb.add c oid s p q).events = (b.add c oid s p q).events ∧
      Agrees (fun lb' b' => ∃ P', lb'.Stores b' P') (lb.add c oid s p q).result
        (b.add c oid s p q).result := by
  have hrej : (q == 0 || q == noQty || !s.isValid || p == noPrice || oid == noOrder ||
      lb.orderMap.contains oid) = b.rejects oid s p q := by
    rw [h.contains_orderMap]
    rfl
  unfold LinkedBook.add Book.add
  rw [hrej, h.ticker]
  by_cases hr : b.rejects oid s p q = true
  · rw [if_pos hr, if_pos hr]
    exact ⟨rfl, P, h⟩
  rw [if_neg hr, if_neg hr]
  have hv := Book.isValid_of_not_rejects hr
  obtain ⟨hev, lb₁, P₁, hres, hst⟩ := Stores.crossLoop (t := ⟨b.ticker, c, oid, s, p⟩) hv
    (lb.orders.capacity + 1) q h rfl (hne _)
    (Nat.lt_succ_of_le (h.length_ordersOf_le (Side.isValid_opposite hv)))
  generalize hf : Taker.fillSide ⟨b.ticker, c, oid, s, p⟩ (b.levels s.opposite) q = r at hev hres hst
  obtain ⟨evs, leaves, rest, filled⟩ := r
  simp only at hev hres hst
  simp only [hf, hres, hev]
  rw [show ({ b.withLevels s.opposite rest with
    orderSlots := filled.foldl (fun p o => p.vacate o.slot) b.orderSlots } : Book) =
      b.afterCross s.opposite rest filled from rfl]
  by_cases h0 : leaves = 0
  · rw [if_pos h0, if_pos h0]
    exact ⟨rfl, P₁, hst⟩
  rw [if_neg h0, if_neg h0]
  have hA := hst.insertOrder b.ticker c oid s p leaves
  rcases hx : lb₁.insertOrder (.new b.ticker c oid s p leaves) with f | ⟨index, rested⟩ <;>
    rcases hy : (b.afterCross s.opposite rest filled).insert c oid s p leaves with f' | ⟨o, b'⟩ <;>
    rw [hx, hy] at hA <;> simp only [Agrees] at hA
  · subst hA
    exact ⟨rfl, rfl⟩
  · obtain ⟨rfl, ⟨L, R, hget⟩, P', hst'⟩ := hA
    simp only [hget]
    exact ⟨by simp, P', hst'⟩

/-- **A cancel in a stored book** makes the events of the book's `cancel`, and the linked book
after stores the book after. -/
theorem cancel (h : lb.Stores b P) (c : ClientId) (oid : OrderId) :
    (lb.cancel c oid).events = (b.cancel c oid).1 ∧
      ∃ lb' P', (lb.cancel c oid).result = .ok lb' ∧ lb'.Stores (b.cancel c oid).2 P' := by
  cases hf : b.find? oid with
  | none =>
    refine ⟨?_, lb, P, ?_, ?_⟩ <;>
      simp [LinkedBook.cancel, Book.cancel, Book.cancel.rejection, hf, h.orderMap_find?_none hf, h.ticker, h]
  | some r =>
    obtain ⟨s, p, o⟩ := r
    obtain ⟨hv, hid, hm, ps₁, i, xs, ys, ps₂, hps⟩ := h.locate hf
    obtain ⟨lb', P', hrem, hst⟩ := h.removeOrderAt hv hps
    by_cases hc : o.clientId = c
    · refine ⟨?_, lb', P', ?_, ?_⟩ <;>
        simp [LinkedBook.cancel, Book.cancel, hf, hm, h.get_order hv hps, hc, hrem, h.ticker, hst]
    · refine ⟨?_, lb, P, ?_, ?_⟩ <;>
        simp [LinkedBook.cancel, Book.cancel, Book.cancel.rejection, hf, hm, h.get_order hv hps, hc, h.ticker, h]

/-- **Taking an order out of a stored book by its id** returns the node of the order the book
finds, and the linked book after stores the book after. -/
theorem removeOrder (h : lb.Stores b P) (oid : OrderId) :
    ∃ lb' P', lb.removeOrder oid = .ok ((b.find? oid).map fun (s, p, o) => o.node lb.ticker s p, lb') ∧
      lb'.Stores (b.remove oid).2 P' := by
  cases hf : b.find? oid with
  | none =>
    exact ⟨lb, P, by simp [LinkedBook.removeOrder, h.orderMap_find?_none hf],
      by simpa [Book.remove, hf] using h⟩
  | some r =>
    obtain ⟨s, p, o⟩ := r
    obtain ⟨hv, -, hm, ps₁, i, xs, ys, ps₂, hps⟩ := h.locate hf
    obtain ⟨lb', P', hrem, hst⟩ := h.removeOrderAt hv hps
    exact ⟨lb', P', by simp [LinkedBook.removeOrder, hm, hrem, Except.map], by simpa [Book.remove, hf] using hst⟩

end Stores

/-- **An empty linked book stores the empty book**, and the two creations fail alike. -/
theorem stores_create (t : TickerId) (mo ml : Nat) :
    Agrees (fun lb b => lb.Stores b ⟨[], []⟩) (LinkedBook.create t mo ml) (Book.create t mo ml) := by
  simp only [LinkedBook.create, Book.create, Pool.create_map (fun o : OrderNode => o.orderId) mo,
    Pool.create_map (fun _ : LevelNode => ()) ml, bind, Except.bind, pure, Except.pure]
  cases ho : (Pool.create mo : Except Fault (Pool OrderNode)) with
  | error f => rfl
  | ok orders =>
    cases hl : (Pool.create ml : Except Fault (Pool LevelNode)) with
    | error f => rfl
    | ok levels =>
      have hfit := Pool.capacity_create ho ▸ Pool.lt_nullIndex_of_create ho
      have hfit' := Pool.capacity_create hl ▸ Pool.lt_nullIndex_of_create hl
      refine ⟨rfl, fun side => by cases side <;> rfl, Pool.holds_create ho, rfl,
        Pool.holds_create hl, fun side => by cases side <;> rfl, ?_, by simp [Book.orders, SlotMap.empty],
        Pool.capacity_create hl, hfit, hfit'⟩
      intro side m hm
      cases side <;> simp only [levelMap, Option.some.injEq, reduceCtorEq] at hm <;> subst hm <;>
        exact List.Perm.refl _

end LinkedBook

end Exchange
