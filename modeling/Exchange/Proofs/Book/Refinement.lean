import Exchange.Proofs.Book.Reference

/-!
# The book refines the reference book

`Book.view` forgets what only the book keeps (pool slots and capacities) and lists each side
best first, as `RefBook.view` lists the reference's maps. `Mirrors b r maxOrders maxLevels` ties
a well-formed book to a reference book with the same ticker and view, when the book's pools have
the given sizes.

Each operation keeps `Mirrors`, with the same events: crossing (`cross_fillSide`, the reference
trading one order at a time against the book's level-by-level loop), resting (`Mirrors.insert`,
where the sizes that the reference run fits in keep the pools from running out) and removal
(`Mirrors.without`). Main statement: `matches_reference`, for a whole run of calls from an
empty book.
-/

namespace Exchange

/-- A resting order without its pool slot. -/
def Resting.toRef (o : Resting) : RefOrder := ⟨o.orderId, o.clientId, o.qty, o.priority⟩

namespace Resting

variable (o : Resting)

@[simp] theorem toRef_orderId : o.toRef.orderId = o.orderId := rfl
@[simp] theorem toRef_clientId : o.toRef.clientId = o.clientId := rfl
@[simp] theorem toRef_qty : o.toRef.qty = o.qty := rfl
@[simp] theorem toRef_priority : o.toRef.priority = o.priority := rfl

theorem toRef_setQty (q : Qty) : ({ o with qty := q } : Resting).toRef = { o.toRef with qty := q } :=
  rfl

end Resting

/-- A level as a price map entry. -/
def Level.toRef (l : Level) : Price × List RefOrder := (l.price, l.orders.map Resting.toRef)

/-- A reply without pool slots. -/
def Book.Reply.toRef : Book.Reply → RefBook.Reply
  | .done => .done
  | .rested o => .rested o.toRef
  | .removed e => .removed e

/-- Both sides of a book, best first. -/
def Book.view (b : Book) : List (Price × List RefOrder) × List (Price × List RefOrder) :=
  ((b.levels .buy).map Level.toRef, (b.levels .sell).map Level.toRef)

namespace RefBook

/-- A side's map best first: bids from the highest price, asks from the lowest. -/
def sideView (r : RefBook) : Side → List (Price × List RefOrder)
  | .buy => r.bids.reverse
  | .sell => r.asks
  | .invalid => []

/-- Both sides, best first. -/
def view (r : RefBook) : List (Price × List RefOrder) × List (Price × List RefOrder) :=
  (r.sideView .buy, r.sideView .sell)

/-- The book whose side `s`, listed best first, is `V`. -/
def withView (r : RefBook) (s : Side) (V : List (Price × List RefOrder)) : RefBook :=
  match s with
  | .buy => { r with bids := V.reverse }
  | .sell => { r with asks := V }
  | .invalid => r

/-! ## Sides listed best first -/

variable {r : RefBook} {s s' : Side} {V W : List (Price × List RefOrder)}

@[simp] theorem ticker_withView : (r.withView s V).ticker = r.ticker := by
  cases s <;> rfl

theorem sideView_withView (hv : s.isValid = true) : (r.withView s V).sideView s = V := by
  cases s
  · simp [withView, sideView]
  · rfl
  · cases hv

theorem sideView_withView_of_ne (h : s' ≠ s) : (r.withView s V).sideView s' = r.sideView s' := by
  cases s <;> cases s' <;> first | rfl | exact absurd rfl h

theorem withView_sideView : r.withView s (r.sideView s) = r := by
  cases s <;> simp [withView, sideView]

@[simp] theorem withView_withView : (r.withView s V).withView s W = r.withView s W := by
  cases s <;> rfl

theorem best_eq_head : r.best s = (r.sideView s).head? := by
  cases s
  · rw [best, sideView, List.head?_reverse]
  · rfl
  · rfl

theorem setBest_eq {p : Price} {os₀ os : List RefOrder} (h : r.best s = some (p, os₀)) :
    r.setBest s p os = r.withView s (entry p os ++ (r.sideView s).tail) := by
  cases s with
  | buy =>
    obtain ⟨ys, hys⟩ := List.getLast?_eq_some_iff.1 h
    simp [setBest, withView, sideView, hys, entry]
    split <;> simp
  | sell => rfl
  | invalid => rfl

end RefBook

/-! ## Crossing, one order at a time -/

theorem Taker.fillLevel_left_eq_zero {t : Taker} {p : Price} :
    ∀ {os rest filled : List Resting} {q left : Qty} {evs : List Event},
    t.fillLevel p os q = (evs, left, rest, filled) → rest ≠ [] → left = 0
  | [], _, _, _, _, _, h, hne => by
    simp only [Taker.fillLevel, Prod.mk.injEq] at h
    exact absurd h.2.2.1.symm hne
  | o :: os, rest, filled, q, left, evs, h, hne => by
    simp only [Taker.fillLevel] at h
    split at h
    · rename_i hq
      simp only [Prod.mk.injEq] at h
      exact h.2.1 ▸ hq
    · split at h
      · generalize hr : t.fillLevel p os (q - min q o.qty) = r at h
        obtain ⟨more, left', rest', filled'⟩ := r
        simp only [Prod.mk.injEq] at h
        obtain ⟨-, rfl, rfl, -⟩ := h
        exact Taker.fillLevel_left_eq_zero hr hne
      · rename_i hf
        simp only [Prod.mk.injEq] at h
        rw [← h.2.1]
        exact (RefBook.fill_left q o.qty).2 hf

namespace RefBook

open Level

variable {c : ClientId} {oid : OrderId} {side : Side} {limit : Price}

theorem fillReport_toRef (t : Taker) (p : Price) (o : Resting) (fill left : Qty) :
    fillReport t.ticker t.clientId t.orderId t.side p o.toRef fill left =
      t.tradeEvents p o fill left := rfl

theorem entry_toRef {p : Price} {os : List Resting} :
    entry p (os.map Resting.toRef) = if os = [] then [] else [(p, os.map Resting.toRef)] := by
  cases os <;> rfl

theorem cross_fillLevel (hv : side.isValid = true) {p : Price} (hp : crosses side limit p = true)
    {V : List (Price × List RefOrder)} : ∀ {os rest filled : List Resting} {q left left' : Qty}
    {evs more : List Event} {r r' : RefBook},
    r.sideView side.opposite = entry p (os.map Resting.toRef) ++ V →
    (Taker.mk r.ticker c oid side limit).fillLevel p os q = (evs, left, rest, filled) →
    (r.withView side.opposite (entry p (rest.map Resting.toRef) ++ V)).cross c oid side limit left =
      (more, left', r') →
    r.cross c oid side limit q = (evs ++ more, left', r')
  | [], rest, filled, q, left, left', evs, more, r, r', hr, hfl, hk => by
    simp only [Taker.fillLevel, Prod.mk.injEq] at hfl
    obtain ⟨rfl, rfl, rfl, rfl⟩ := hfl
    rw [← hr, withView_sideView] at hk
    exact hk
  | o :: os, rest, filled, q, left, left', evs, more, r, r', hr, hfl, hk => by
    have hb : r.best side.opposite = some (p, o.toRef :: os.map Resting.toRef) := by
      rw [best_eq_head, hr]; rfl
    have hset : ∀ os', r.setBest side.opposite p os' =
        r.withView side.opposite (entry p os' ++ V) := by
      intro os'
      rw [setBest_eq hb, hr]
      rfl
    simp only [Taker.fillLevel] at hfl
    split at hfl
    · -- nothing left to trade
      rename_i hq
      simp only [Prod.mk.injEq] at hfl
      obtain ⟨rfl, rfl, rfl, rfl⟩ := hfl
      rw [← hr, withView_sideView] at hk
      exact hk
    · rename_i hq
      rw [cross_of_best hq hb, if_pos hp]
      split at hfl
      · -- the resting order is filled completely, and the level goes on without it
        rename_i hf
        generalize hx : (Taker.mk r.ticker c oid side limit).fillLevel p os (q - min q o.qty) = x at hfl
        obtain ⟨more₁, left₁, rest₁, filled₁⟩ := x
        simp only [Prod.mk.injEq] at hfl
        obtain ⟨rfl, rfl, rfl, rfl⟩ := hfl
        have hx' : (Taker.mk (r.withView side.opposite (entry p (os.map Resting.toRef) ++ V)).ticker
            c oid side limit).fillLevel p os (q - min q o.qty) = (more₁, left₁, rest₁, filled₁) := by
          rw [ticker_withView]; exact hx
        have ih : (r.withView side.opposite (entry p (os.map Resting.toRef) ++ V)).cross c oid side
            limit (q - min q o.qty) = (more₁ ++ more, left', r') :=
          cross_fillLevel hv hp (sideView_withView (Side.isValid_opposite hv)) hx'
            (by rw [withView_withView]; exact hk)
        have hf' : o.toRef.qty - min q o.toRef.qty = 0 := hf
        simp only [if_pos hf', hset]
        rw [Resting.toRef_qty, ih, ← fillReport_toRef, List.append_assoc]
      · rename_i hf
        simp only [Prod.mk.injEq] at hfl
        obtain ⟨rfl, rfl, rfl, rfl⟩ := hfl
        have hf' : ¬ o.toRef.qty - min q o.toRef.qty = 0 := hf
        simp only [if_neg hf', hset]
        rw [Resting.toRef_qty, ← Resting.toRef_setQty, ← List.map_cons, hk, ← fillReport_toRef]

/-- **Crossing refines the level loop.** Against a side whose levels are listed by the book,
none of them empty, the reference's one-at-a-time crossing prints the loop's events, leaves the
loop's quantity and lists the levels the loop leaves. -/
theorem cross_fillSide (hv : side.isValid = true) : ∀ {ls rest : List Level}
    {filled : List Resting} {q left : Qty} {evs : List Event} {r : RefBook},
    (∀ l ∈ ls, l.orders ≠ []) → r.sideView side.opposite = ls.map Level.toRef →
    (Taker.mk r.ticker c oid side limit).fillSide ls q = (evs, left, rest, filled) →
    r.cross c oid side limit q = (evs, left, r.withView side.opposite (rest.map Level.toRef))
  | [], rest, filled, q, left, evs, r, _, hr, hfs => by
    simp only [Taker.fillSide, Prod.mk.injEq] at hfs
    obtain ⟨rfl, rfl, rfl, rfl⟩ := hfs
    have hb : r.best side.opposite = none := by rw [best_eq_head, hr]; rfl
    rw [List.map_nil] at hr
    rw [cross_of_best_none hb, List.map_nil, ← hr, withView_sideView]
  | l :: ls, rest, filled, q, left, evs, r, hne, hr, hfs => by
    obtain ⟨o, os, hos⟩ := List.exists_cons_of_ne_nil (hne l List.mem_cons_self)
    have hb : r.best side.opposite = some (l.price, o.toRef :: os.map Resting.toRef) := by
      rw [best_eq_head, hr]; simp [Level.toRef, hos]
    simp only [Taker.fillSide] at hfs
    split at hfs
    · -- the aggressor stops before this level
      rename_i hstop
      simp only [Prod.mk.injEq] at hfs
      obtain ⟨rfl, rfl, rfl, rfl⟩ := hfs
      rw [← hr, withView_sideView]
      by_cases hq : q = 0
      · subst hq; exact cross_zero
      · have hc : crosses side limit l.price = false := by simpa [hq] using hstop
        rw [cross_of_best hq hb, hc]
        rfl
    · rename_i hgo
      simp only [not_or, Bool.not_eq_true', Bool.not_eq_false] at hgo
      have hlevel : r.sideView side.opposite = entry l.price (l.orders.map Resting.toRef) ++
          ls.map Level.toRef := by
        rw [hr, entry_toRef, if_neg (hne l List.mem_cons_self)]; rfl
      generalize hx : (Taker.mk r.ticker c oid side limit).fillLevel l.price l.orders q = x at hfs
      obtain ⟨evs₁, left₁, rest₁, filled₁⟩ := x
      split at hfs
      · -- the level is used up: crossing goes on with the levels behind it
        rename_i hnil
        simp only at hnil
        subst hnil
        generalize hy : (Taker.mk r.ticker c oid side limit).fillSide ls left₁ = y at hfs
        obtain ⟨more, left', rest', filled'⟩ := y
        simp only [Prod.mk.injEq] at hfs
        obtain ⟨rfl, rfl, rfl, rfl⟩ := hfs
        have hy' : (Taker.mk (r.withView side.opposite (ls.map Level.toRef)).ticker
            c oid side limit).fillSide ls left₁ = (more, left', rest', filled') := by
          rw [ticker_withView]; exact hy
        have ih := cross_fillSide hv (fun l' hl' => hne l' (List.mem_cons_of_mem _ hl'))
          (sideView_withView (Side.isValid_opposite hv)) hy'
        rw [withView_withView] at ih
        exact cross_fillLevel hv hgo.2 hlevel hx (by rw [entry_toRef, if_pos rfl]; exact ih)
      · -- the level survives, so the aggressor has nothing left
        rename_i hrest
        simp only [Prod.mk.injEq] at hfs
        obtain ⟨rfl, rfl, rfl, rfl⟩ := hfs
        have h0 : left₁ = 0 := Taker.fillLevel_left_eq_zero hx hrest
        subst h0
        have := cross_fillLevel hv hgo.2 hlevel hx cross_zero
        rw [this, List.append_nil, entry_toRef, if_neg hrest]
        rfl

end RefBook

/-! ## Price maps listed best first -/

/-- A side's price map from its best-first listing, and back: bids are reversed. -/
def orient : Side → List (Price × List RefOrder) → List (Price × List RefOrder)
  | .buy, m => m.reverse
  | _, m => m

namespace RefBook

variable {r : RefBook} {s : Side} {V m : List (Price × List RefOrder)}

theorem side_eq_orient : r.side s = orient s (r.sideView s) := by
  cases s <;> simp [side, sideView, orient]

@[simp] theorem orient_orient : orient s (orient s m) = m := by
  cases s <;> simp [orient]

theorem mem_orient {e : Price × List RefOrder} : e ∈ orient s m ↔ e ∈ m := by
  cases s <;> simp [orient]

theorem orient_map (f : Price × List RefOrder → Price × List RefOrder) :
    orient s (m.map f) = (orient s m).map f := by
  cases s <;> simp [orient, List.map_reverse]

theorem orient_filter (f : Price × List RefOrder → Bool) :
    orient s (m.filter f) = (orient s m).filter f := by
  cases s <;> simp [orient, List.filter_reverse]

theorem setSide_eq_withView : r.setSide s m = r.withView s (orient s m) := by
  cases s <;> simp [setSide, withView, orient]

theorem increasing_orient (hv : s.isValid = true)
    (h : (V.map (·.1)).Pairwise fun p q => ranksBefore s p q = true) :
    PriceMap.Increasing (orient s V) := by
  cases s with
  | buy =>
    simp only [PriceMap.Increasing, orient, List.map_reverse, List.pairwise_reverse]
    simpa [ranksBefore] using h
  | sell => simpa [PriceMap.Increasing, orient, ranksBefore] using h
  | invalid => cases hv

theorem ranked_orient (hv : s.isValid = true) (h : PriceMap.Increasing m) :
    ((orient s m).map (·.1)).Pairwise fun p q => ranksBefore s p q = true := by
  cases s with
  | buy =>
    simp only [PriceMap.Increasing] at h
    simp only [orient, List.map_reverse, List.pairwise_reverse]
    simpa [ranksBefore] using h
  | sell => simpa [PriceMap.Increasing, orient, ranksBefore] using h
  | invalid => cases hv

theorem nodup_of_ranked {ps : List Price} (h : ps.Pairwise fun p q => ranksBefore s p q = true) :
    ps.Nodup :=
  h.imp ne_of_ranksBefore

theorem find?_orient (hnd : (V.map (·.1)).Nodup) (p : Price) :
    (orient s V).find? (·.1 == p) = V.find? (·.1 == p) := by
  have hnd' : ((orient s V).map (·.1)).Nodup := by
    cases s <;> simpa [orient, List.map_reverse, List.nodup_reverse] using hnd
  apply Option.ext
  intro e
  rw [PriceMap.find?_eq_some_iff hnd', PriceMap.find?_eq_some_iff hnd, mem_orient]

theorem eq_of_perm_of_ranked {V W : List (Price × List RefOrder)}
    (hp : V.Perm W) (hV : (V.map (·.1)).Pairwise fun p q => ranksBefore s p q = true)
    (hW : (W.map (·.1)).Pairwise fun p q => ranksBefore s p q = true) : V = W := by
  have hV' : V.Pairwise fun e e' => ranksBefore s e.1 e'.1 = true := List.pairwise_map.1 hV
  have hW' : W.Pairwise fun e e' => ranksBefore s e.1 e'.1 = true := List.pairwise_map.1 hW
  refine List.Perm.eq_of_pairwise ?_ hV' hW' hp
  intro a b _ _ hab hba
  exact absurd (ranksBefore_trans hab hba) (by simp [ranksBefore_irrefl])

end RefBook

theorem Book.mem_orders {b : Book} {s : Side} {l : Level} {o : Resting} (hl : l ∈ b.levels s)
    (ho : o ∈ l.orders) : o ∈ b.orders := by
  cases s with
  | buy => exact List.mem_append_left _ (Level.mem_ordersOf.2 ⟨l, hl, ho⟩)
  | sell => exact List.mem_append_right _ (Level.mem_ordersOf.2 ⟨l, hl, ho⟩)
  | invalid => cases hl

theorem findSome?_eq_some_of_forall {α β : Type} {f : α → Option β} {x : β} : ∀ {l : List α},
    (∀ a ∈ l, f a = none ∨ f a = some x) → (∃ a ∈ l, f a = some x) → l.findSome? f = some x
  | [], _, ⟨_, ha, _⟩ => by cases ha
  | a :: l, hall, ⟨a', ha', hx⟩ => by
    rcases hall a List.mem_cons_self with h | h
    · have ha'' : a' ∈ l := by
        rcases List.mem_cons.1 ha' with rfl | ha'
        · rw [h] at hx; cases hx
        · exact ha'
      simp only [List.findSome?_cons, h]
      exact findSome?_eq_some_of_forall (fun b hb => hall b (List.mem_cons_of_mem _ hb)) ⟨a', ha'', hx⟩
    · simp only [List.findSome?_cons, h]

/-! ## Counting orders and levels -/

namespace RefBook

open Level

variable {b : Book} {r : RefBook}

theorem foldr_add_reverse (l : List Nat) : l.reverse.foldr (· + ·) 0 = l.foldr (· + ·) 0 := by
  induction l with
  | nil => rfl
  | cons x l ih =>
    rw [List.reverse_cons, foldr_add_append, ih]
    simp [Nat.add_comm]

section
variable (hs : ∀ s, (b.levels s).map Level.toRef = r.sideView s)
include hs

theorem depth_eq_of_sides (s : Side) : r.depth s = (ordersOf (b.levels s)).length := by
  have hls : ∀ ls : List Level,
      ((ls.map Level.toRef).map (·.2.length)).foldr (· + ·) 0 = (ordersOf ls).length := by
    intro ls
    induction ls with
    | nil => rfl
    | cons l ls ih =>
      simp only [List.map_cons, List.foldr_cons, ih, ordersOf_cons, List.length_append, Level.toRef,
        List.length_map]
  rw [depth, side_eq_orient, ← hs]
  cases s
  · simp only [orient, List.map_reverse, foldr_add_reverse, hls]
  · exact hls _
  · rfl

theorem orderCount_eq_of_sides : r.orderCount = b.orders.length := by
  rw [orderCount, depth_eq_of_sides hs, depth_eq_of_sides hs, Book.orders, List.length_append]
  rfl

theorem levelCount_eq_of_sides : r.levelCount = b.levelCount := by
  have hb := congrArg List.length (hs .buy)
  have ha := congrArg List.length (hs .sell)
  simp only [List.length_map, sideView, List.length_reverse] at hb ha
  simp only [RefBook.levelCount, Book.levelCount, ← hb, ← ha]
  rfl

end

end RefBook

/-! ## Mirrored books -/

/-- A well-formed book and a reference book with the same ticker that list the same sides, the
book's pools having the given sizes. -/
structure Mirrors (b : Book) (r : RefBook) (maxOrders maxLevels : Nat) : Prop where
  wf : b.WF
  ticker : b.ticker = r.ticker
  sides : ∀ s, (b.levels s).map Level.toRef = r.sideView s
  orderCapacity : b.orderSlots.capacity = maxOrders
  levelCapacity : b.levelCapacity = maxLevels

namespace Mirrors

open Level RefBook

variable {b : Book} {r : RefBook} {mo ml : Nat} {s : Side}

theorem view (h : Mirrors b r mo ml) : b.view = r.view := by
  simp only [Book.view, RefBook.view, h.sides]

theorem mem_side (h : Mirrors b r mo ml) {e : Price × List RefOrder} (he : e ∈ r.side s) :
    ∃ l ∈ b.levels s, l.toRef = e := by
  rw [side_eq_orient, mem_orient, ← h.sides] at he
  exact List.mem_map.1 he

theorem ranked (h : Mirrors b r mo ml) (s : Side) :
    ((r.sideView s).map (·.1)).Pairwise fun p q => ranksBefore s p q = true := by
  rw [← h.sides, List.map_map]
  exact (h.wf.sides s).ranked

theorem orderCount_eq (h : Mirrors b r mo ml) : r.orderCount = b.orders.length :=
  orderCount_eq_of_sides h.sides

theorem levelCount_eq (h : Mirrors b r mo ml) : r.levelCount = b.levelCount :=
  levelCount_eq_of_sides h.sides

theorem ordersAt_eq (h : Mirrors b r mo ml) (p : Price) :
    r.ordersAt s p = (((b.levels s).find? (·.price == p)).map fun l => l.orders.map Resting.toRef).getD [] := by
  have hnd := nodup_of_ranked (h.ranked s)
  rw [ordersAt, PriceMap.get?, side_eq_orient, find?_orient hnd, ← h.sides, List.find?_map,
    Option.map_map]
  rfl

/-- **Finding an order by id** gives the same answer in both books: the reference's search of
its maps finds exactly the order the book's lookup finds. -/
theorem locate_eq (h : Mirrors b r mo ml) (oid : OrderId) :
    r.locate oid = (b.find? oid).map fun (s, p, o) => (s, p, o.toRef) := by
  have hcand : ∀ s e o', e ∈ r.side s → o' ∈ e.2 →
      ∃ l ∈ b.levels s, ∃ o ∈ l.orders, l.toRef = e ∧ o.toRef = o' := by
    intro s e o' he ho'
    obtain ⟨l, hl, rfl⟩ := h.mem_side he
    obtain ⟨o, ho, rfl⟩ := List.mem_map.1 ho'
    exact ⟨l, hl, o, ho, rfl, rfl⟩
  cases hf : b.find? oid with
  | none =>
    have hno := Book.find?_eq_none_iff.1 hf
    simp only [Option.map_none, locate, Option.or_eq_none_iff, List.findSome?_eq_none_iff,
      Option.map_eq_none_iff, List.find?_eq_none, beq_iff_eq]
    have hside : ∀ s, ∀ e ∈ r.side s, ∀ o' ∈ e.2, ¬ o'.orderId = oid := by
      intro s e he o' ho' hid
      obtain ⟨l, hl, o, ho, -, rfl⟩ := hcand s e o' he ho'
      exact hno o (Book.mem_orders hl ho) hid
    exact ⟨hside .buy, hside .sell⟩
  | some x =>
    obtain ⟨s, p, o⟩ := x
    obtain ⟨hv, hid, l, hl, hlp, ho⟩ := Book.find?_eq_some hf
    have huniq : ∀ s' e o', e ∈ r.side s' → o' ∈ e.2 → o'.orderId = oid →
        s' = s ∧ e.1 = p ∧ o' = o.toRef := by
      intro s' e o' he ho' hid'
      obtain ⟨l', hl', o'', ho'', rfl, rfl⟩ := hcand s' e o' he ho'
      have hfind := h.wf.find?_of_mem hl' ho''
      rw [show o''.orderId = oid from hid', hf] at hfind
      simp only [Option.some.injEq, Prod.mk.injEq] at hfind
      obtain ⟨rfl, rfl, rfl⟩ := hfind
      exact ⟨rfl, rfl, rfl⟩
    have hside : ∀ s', ∀ e ∈ r.side s',
        ((e.2.find? (·.orderId == oid)).map fun o' => (s', e.1, o')) = none ∨
        ((e.2.find? (·.orderId == oid)).map fun o' => (s', e.1, o')) = some (s, p, o.toRef) := by
      intro s' e he
      cases hfind : e.2.find? (·.orderId == oid) with
      | none => exact .inl rfl
      | some o' =>
        obtain ⟨rfl, hp, rfl⟩ := huniq s' e o' he (List.mem_of_find?_eq_some hfind)
          (by simpa using List.find?_some hfind)
        exact .inr (by rw [Option.map_some, hp])
    have hmem : l.toRef ∈ r.side s := by
      rw [side_eq_orient, mem_orient, ← h.sides]
      exact List.mem_map_of_mem hl
    have hhit : ((l.toRef.2.find? (·.orderId == oid)).map fun o' => (s, l.toRef.1, o')) =
        some (s, p, o.toRef) := by
      refine (hside s _ hmem).resolve_left fun h0 => ?_
      simp only [Option.map_eq_none_iff, List.find?_eq_none, beq_iff_eq] at h0
      exact h0 o.toRef (List.mem_map_of_mem ho) hid
    simp only [Option.map_some, locate]
    cases s with
    | buy => rw [findSome?_eq_some_of_forall (hside .buy) ⟨_, hmem, hhit⟩]; rfl
    | sell =>
      have hbuy : (r.side .buy).findSome? (fun e =>
          (e.2.find? (·.orderId == oid)).map fun o' => (Side.buy, e.1, o')) = none := by
        refine List.findSome?_eq_none_iff.2 fun e he => (hside .buy e he).resolve_right ?_
        intro h1
        obtain ⟨o', -, h2⟩ := Option.map_eq_some_iff.1 h1
        simp only [Prod.mk.injEq] at h2
        exact absurd h2.1 (by decide)
      rw [hbuy, findSome?_eq_some_of_forall (hside .sell) ⟨_, hmem, hhit⟩]
      rfl
    | invalid => cases hv

end Mirrors

theorem mirrors_create {t : TickerId} {mo ml : Nat} {b : Book} (hc : Book.create t mo ml = .ok b) :
    Mirrors b (RefBook.empty t) mo ml := by
  have hw := Book.wf_create hc
  simp only [Book.create, bind, Except.bind, pure, Except.pure] at hc
  split at hc
  · cases hc
  · rename_i pool hp
    split at hc
    · cases hc
    · cases hc
      refine ⟨hw, rfl, fun s => ?_, Pool.capacity_create hp, rfl⟩
      cases s <;> rfl

/-! ## Resting an order -/

namespace Book

open Level

variable {b : Book} {side : Side} {p : Price} {o : Resting} {oid : OrderId} {c : ClientId} {q : Qty}

theorem appendAt_placeLevel (side : Side) (os : List Resting) : ∀ {ls : List Level},
    (∀ l ∈ ls, l.price ≠ p) →
    appendAt p o (placeLevel side ⟨p, os⟩ ls) = placeLevel side ⟨p, os ++ [o]⟩ ls
  | [], _ => by simp [placeLevel, appendAt]
  | m :: ms, hne => by
    simp only [placeLevel]
    split
    · rw [appendAt_cons, if_pos rfl, appendAt_cons, if_neg (hne m List.mem_cons_self),
        appendAt_of_forall_ne fun l hl => hne l (List.mem_cons_of_mem _ hl)]
    · rw [appendAt_cons, if_neg (hne m List.mem_cons_self),
        appendAt_placeLevel side os fun l hl => hne l (List.mem_cons_of_mem _ hl)]

theorem insert_eq_ok_of {level : Level} {ls₁ : List Level} {pr : Priority} {slot : Nat}
    {pool : Pool OrderId} (hc : b.contains oid = false) (hv : side.isValid = true)
    (hls : (b.levels side).find? (·.price == p) = some level ∧ ls₁ = b.levels side ∨
      (b.levels side).find? (·.price == p) = none ∧ b.levelCount < b.levelCapacity ∧
        level = { price := p, orders := [] } ∧ ls₁ = placeLevel side level (b.levels side))
    (hpr : level.nextPriority = .ok pr) (ha : b.orderSlots.tryAllocate oid = some (slot, pool)) :
    b.insert c oid side p q = .ok (⟨oid, c, q, pr, slot⟩,
      { b.withLevels side (appendAt p ⟨oid, c, q, pr, slot⟩ ls₁) with orderSlots := pool }) := by
  have ha' : b.orderSlots.allocate oid = .ok (slot, pool) := Pool.allocate_eq_ok.2 ha
  unfold Book.insert
  simp only [hc, hv, Bool.not_true, Bool.false_eq_true, if_false, bind, Except.bind, pure,
    Except.pure]
  rcases hls with ⟨hf, rfl⟩ | ⟨hf, hcap, rfl, rfl⟩
  · simp only [hf, hpr, ha']
  · simp only [hf, if_neg (Nat.not_le.2 hcap), hpr, ha']

theorem insert_eq_error_of {level : Level} {f : Fault} (hc : b.contains oid = false)
    (hv : side.isValid = true) (hf : (b.levels side).find? (·.price == p) = some level)
    (hpr : level.nextPriority = .error f) : b.insert c oid side p q = .error f := by
  unfold Book.insert
  simp only [hc, hv, Bool.not_true, Bool.false_eq_true, if_false, bind, Except.bind, pure,
    Except.pure, hf, hpr]

end Book

namespace RefBook

open Level Book

variable {side : Side} {p : Price} {ls : List Level}

theorem nextPriority_toRef (l : Level) :
    nextPriority (l.orders.map Resting.toRef) = l.nextPriority := by
  unfold nextPriority Level.nextPriority
  rw [List.getLast?_map]
  cases l.orders.getLast? <;> rfl

theorem orient_perm {s : Side} {m : List (Price × List RefOrder)} : (orient s m).Perm m := by
  cases s
  · exact List.reverse_perm m
  · exact List.Perm.refl m
  · exact List.Perm.refl m

/-- **Resting refines the book's placement**: putting the orders of a price, with the new one
at their back, into the map lists the book's side with the order appended to its level, or to a
new level placed at its rank. -/
theorem view_rest (hv : side.isValid = true)
    (hr : (ls.map (·.price)).Pairwise fun p q => ranksBefore side p q = true)
    {level : Level} {ls₁ : List Level}
    (hls : ls.find? (·.price == p) = some level ∧ ls₁ = ls ∨
      ls.find? (·.price == p) = none ∧ level = ⟨p, []⟩ ∧ ls₁ = placeLevel side level ls)
    (o : Resting) :
    orient side (PriceMap.put p (level.orders.map Resting.toRef ++ [o.toRef])
      (orient side (ls.map Level.toRef))) = (appendAt p o ls₁).map Level.toRef := by
  have hr' : ((ls.map Level.toRef).map (·.1)).Pairwise fun p q => ranksBefore side p q = true := by
    rw [List.map_map]; exact hr
  have hinc := increasing_orient hv hr'
  rcases hls with ⟨hf, hls₁⟩ | ⟨hf, rfl, hls₁⟩ <;> rw [hls₁]
  · -- the level at the price takes the order at its back
    have hl := List.mem_of_find?_eq_some hf
    have hlp : level.price = p := by simpa using List.find?_some hf
    have hmem : p ∈ (orient side (ls.map Level.toRef)).map (·.1) :=
      List.mem_map.2 ⟨level.toRef, mem_orient.2 (List.mem_map_of_mem hl), hlp⟩
    rw [PriceMap.put_of_mem hinc hmem, ← orient_map, orient_orient, List.map_map, appendAt,
      List.map_map]
    refine List.map_congr_left fun l' hl' => ?_
    by_cases hp : l'.price = p
    · have hsame : l' = level := by
        have := Book.find?_price_of_mem hr hl'
        rw [hp, hf] at this
        exact (Option.some.inj this).symm
      subst hsame
      simp [Level.toRef, hp]
    · simp [Level.toRef, hp]
  · -- a new level is placed at its rank
    have hne : ∀ l ∈ ls, l.price ≠ p := fun l hl => by simpa using List.find?_eq_none.1 hf l hl
    have hnmem : p ∉ (orient side (ls.map Level.toRef)).map (·.1) := by
      simp only [List.mem_map, mem_orient, not_exists, not_and]
      rintro _ ⟨l, hl, rfl⟩ he
      exact hne l hl he
    rw [appendAt_placeLevel side [] hne]
    apply eq_of_perm_of_ranked
    · refine orient_perm.trans ((PriceMap.put_perm hnmem).trans ?_)
      refine List.Perm.trans ?_ ((placeLevel_perm side _ ls).map Level.toRef).symm
      exact orient_perm.cons _
    · exact ranked_orient hv (PriceMap.increasing_put hinc)
    · rw [List.map_map]
      exact ranked_placeLevel hv _ ls hr hne

end RefBook

/-! ## Taking an order out -/

namespace Book

open Level

variable {side : Side} {p : Price} {oid : OrderId}

theorem map_dropFrom {l : Level} : ∀ {ls : List Level},
    (ls.map (·.price)).Pairwise (fun p q => ranksBefore side p q = true) → l ∈ ls → l.price = p →
    (dropFrom p oid ls).map Level.toRef =
      if (l.orders.filter (·.orderId != oid)).isEmpty then (ls.map Level.toRef).filter (·.1 != p)
      else (ls.map Level.toRef).map fun e =>
        if e.1 = p then (p, (l.orders.filter (·.orderId != oid)).map Resting.toRef) else e
  | [], _, hl, _ => by cases hl
  | m :: ms, hr, hl, hp => by
    have hr' := hr
    rw [List.map_cons, List.pairwise_cons] at hr'
    by_cases hm : m.price = p
    · have hml : m = l := Classical.byContradiction fun hne =>
        price_ne_of_ranked hr List.mem_cons_self hl hne (hm.trans hp.symm)
      subst hml
      have hrest : ∀ e ∈ ms.map Level.toRef, e.1 ≠ p := by
        intro e he
        obtain ⟨m', hm', rfl⟩ := List.mem_map.1 he
        exact hm ▸ (ne_of_ranksBefore (hr'.1 _ (List.mem_map_of_mem hm'))).symm
      have hfilter : (ms.map Level.toRef).filter (·.1 != p) = ms.map Level.toRef :=
        List.filter_eq_self.2 fun e he => by simpa using hrest e he
      have hmap : ∀ v, ((ms.map Level.toRef).map fun e => if e.1 = p then (p, v) else e) =
          ms.map Level.toRef := fun v =>
        (List.map_congr_left fun e he => if_neg (hrest e he)).trans (List.map_id' _)
      rw [dropFrom_cons, if_pos hm]
      split <;> simp [Level.toRef, hm, hfilter, hmap]
    · have hl' : l ∈ ms := (List.mem_cons.1 hl).resolve_left fun e => hm (e ▸ hp)
      rw [dropFrom_cons, if_neg hm, List.map_cons, map_dropFrom hr'.2 hl' hp]
      split <;> simp [Level.toRef, hm]

end Book

namespace Mirrors

open Level RefBook Book

variable {b : Book} {r : RefBook} {mo ml : Nat} {s : Side} {p : Price} {o : Resting}
  {oid : OrderId}

/-- **Taking an order out keeps the books mirrored.** -/
theorem without (h : Mirrors b r mo ml) (hf : b.find? oid = some (s, p, o)) :
    Mirrors (b.without s p o) (r.removeOrder s p oid) mo ml := by
  obtain ⟨hv, hoid, l, hl, hlp, ho⟩ := find?_eq_some hf
  have hr := (h.wf.sides s).ranked
  have hinc := increasing_orient hv (h.ranked s)
  have hat : r.ordersAt s p = l.orders.map Resting.toRef := by
    rw [h.ordersAt_eq, ← hlp, find?_price_of_mem hr hl]
    rfl
  have hmem : p ∈ (orient s (r.sideView s)).map (·.1) :=
    List.mem_map.2 ⟨l.toRef, mem_orient.2 (h.sides s ▸ List.mem_map_of_mem hl), hlp⟩
  have hkeep : (r.ordersAt s p).filter (·.orderId != oid) =
      (l.orders.filter (·.orderId != oid)).map Resting.toRef := by
    rw [hat, List.filter_map]
    rfl
  have hside : (dropFrom p oid (b.levels s)).map Level.toRef =
      (r.removeOrder s p oid).sideView s := by
    rw [map_dropFrom hr hl hlp, removeOrder, setOrders, hkeep, setSide_eq_withView,
      sideView_withView hv, side_eq_orient, ← h.sides, List.isEmpty_map]
    split
    · rw [PriceMap.erase, ← orient_filter, orient_orient]
    · rw [← h.sides] at hmem hinc
      rw [PriceMap.put_of_mem hinc hmem, ← orient_map, orient_orient]
  refine ⟨(h.wf.without hf).1, by simp [Book.without, removeOrder, setOrders, h.ticker],
    fun s' => ?_, by simp [Book.without, h.orderCapacity], by simp [Book.without, h.levelCapacity]⟩
  simp only [Book.without, levels_setOrderSlots]
  by_cases hs : s' = s
  · subst hs
    rw [levels_withLevels_self hv, hoid, hside]
  · rw [levels_withLevels_of_ne hs, removeOrder, setOrders, setSide_eq_withView,
      sideView_withView_of_ne hs, h.sides]

end Mirrors

/-! ## Each call keeps the books mirrored -/

/-- Two results agree: the same fault, or values related by `R`. -/
def Agrees {ε α β : Type} (R : α → β → Prop) : Except ε α → Except ε β → Prop
  | .error e, .error e' => e = e'
  | .ok a, .ok b => R a b
  | _, _ => False

section Agrees

variable {ε α β : Type} {R : α → β → Prop} {x : Except ε α} {y : Except ε β}

theorem Agrees.map {α' β' : Type} {S : α' → β' → Prop} {f : α → α'} {g : β → β'}
    (h : Agrees R x y) (hfg : ∀ a b, R a b → S (f a) (g b)) : Agrees S (x.map f) (y.map g) :=
  match x, y, h with
  | .error _, .error _, h => h
  | .ok a, .ok b, h => hfg a b h

theorem Agrees.map_eq {γ : Type} {f : α → γ} {g : β → γ} (h : Agrees R x y)
    (hfg : ∀ a b, R a b → f a = g b) : x.map f = y.map g :=
  match x, y, h with
  | .error _, .error _, h => h ▸ rfl
  | .ok a, .ok b, h => congrArg Except.ok (hfg a b h)

theorem Agrees.imp_ok {S : α → β → Prop} (h : Agrees R x y) (hS : ∀ a b, R a b → y = .ok b → S a b) :
    Agrees S x y :=
  match x, y, h with
  | .error _, .error _, h => h
  | .ok a, .ok b, h => hS a b h rfl

theorem Agrees.trans {γ : Type} {S : β → γ → Prop} {z : Except ε γ} (h : Agrees R x y)
    (h' : Agrees S y z) : Agrees (fun a c => ∃ b, R a b ∧ S b c) x z :=
  match x, y, z, h, h' with
  | .error _, .error _, .error _, h, h' => Eq.trans h h'
  | .ok _, .ok b, .ok _, h, h' => ⟨b, h, h'⟩

end Agrees

namespace Mirrors

open Level RefBook Book

variable {b : Book} {r : RefBook} {mo ml : Nat} {c : ClientId} {oid : OrderId} {side : Side}
  {p : Price} {q : Qty}

/-- **Crossing keeps the books mirrored**, with the same events and the same quantity left. -/
theorem cross {left : Qty} {evs : List Event} {rest : List Level} {filled : List Resting}
    (h : Mirrors b r mo ml) (hv : side.isValid = true)
    (hf : (Taker.mk b.ticker c oid side p).fillSide (b.levels side.opposite) q =
      (evs, left, rest, filled)) :
    r.cross c oid side p q = (evs, left, r.withView side.opposite (rest.map Level.toRef)) ∧
    Mirrors { b.withLevels side.opposite rest with
      orderSlots := filled.foldl (fun p o => p.vacate o.slot) b.orderSlots }
      (r.withView side.opposite (rest.map Level.toRef)) mo ml := by
  have hvo := Side.isValid_opposite hv
  have hf' : (Taker.mk r.ticker c oid side p).fillSide (b.levels side.opposite) q =
      (evs, left, rest, filled) := by rw [← h.ticker]; exact hf
  refine ⟨cross_fillSide hv (h.wf.sides side.opposite).nonempty (h.sides side.opposite).symm hf',
    h.wf.cross hvo hf, by simp [h.ticker], fun s => ?_, ?_, by simp [h.levelCapacity]⟩
  · rw [levels_setOrderSlots]
    by_cases hs : s = side.opposite
    · subst hs
      rw [levels_withLevels_self hvo, sideView_withView hvo]
    · rw [levels_withLevels_of_ne hs, sideView_withView_of_ne hs, h.sides]
  · simp [capacity_foldl_vacate, h.orderCapacity]

/-- **Resting keeps the books mirrored.** An order whose id does not rest, on a valid side,
rests in both books with the same priority, or meets the same fault; a reference that fits the
pools after it keeps the book's pools from running out. -/
theorem insert (h : Mirrors b r mo ml) (hv : side.isValid = true) (hn : b.find? oid = none)
    (hfit : ∀ o' r', r.rest c oid side p q = .ok (o', r') → r'.orderCount ≤ mo ∧ r'.levelCount ≤ ml) :
    Agrees (fun (x : Resting × Book) (y : RefOrder × RefBook) => x.1.toRef = y.1 ∧ Mirrors x.2 y.2 mo ml)
      (b.insert c oid side p q) (r.rest c oid side p q) := by
  have hc : b.contains oid = false := by simp [Book.contains, hn]
  have hvo := Side.opposite_ne hv
  obtain ⟨level, ls₁, hls, hat⟩ : ∃ level ls₁,
      ((b.levels side).find? (·.price == p) = some level ∧ ls₁ = b.levels side ∨
        (b.levels side).find? (·.price == p) = none ∧ level = ⟨p, []⟩ ∧
          ls₁ = placeLevel side level (b.levels side)) ∧
      r.ordersAt side p = level.orders.map Resting.toRef := by
    cases hf : (b.levels side).find? (·.price == p) with
    | some l => exact ⟨l, _, .inl ⟨rfl, rfl⟩, by rw [h.ordersAt_eq, hf]; rfl⟩
    | none => exact ⟨⟨p, []⟩, _, .inr ⟨rfl, rfl, rfl⟩, by rw [h.ordersAt_eq, hf]; rfl⟩
  have hsides : ∀ o : Resting, ∀ s,
      ((b.withLevels side (appendAt p o ls₁)).levels s).map Level.toRef =
        (r.place side p o.toRef).sideView s := by
    intro o s
    rw [place, setSide_eq_withView, side_eq_orient, hat, ← h.sides]
    by_cases hs : s = side
    · subst hs
      rw [levels_withLevels_self hv, sideView_withView hv,
        view_rest hv (h.wf.sides s).ranked hls o]
    · rw [levels_withLevels_of_ne hs, sideView_withView_of_ne hs, h.sides]
  obtain ⟨hl, hlp, hr₁, hperm, -, -, hlen, hnew⟩ := levelFor hv (h.wf.sides side) hls
  have hcount : ∀ o : Resting, (r.place side p o.toRef).orderCount = b.orders.length + 1 ∧
      (r.place side p o.toRef).levelCount = ls₁.length + (b.levels side.opposite).length := by
    intro o
    rw [orderCount_eq_of_sides (hsides o), levelCount_eq_of_sides (hsides o),
      (orders_withLevels_appendAt hv hr₁ hl hlp hperm).length_eq, levelCount_withLevels_appendAt hv]
    exact ⟨rfl, rfl⟩
  have hrest : r.rest c oid side p q = (level.nextPriority).map fun pr =>
      (⟨oid, c, q, pr⟩, r.place side p ⟨oid, c, q, pr⟩) := by
    rw [rest, hat, nextPriority_toRef]
  rw [hrest]
  cases hpr : level.nextPriority with
  | error f =>
    -- only a level with orders can run out of priorities
    have hf : (b.levels side).find? (·.price == p) = some level := by
      rcases hls with ⟨hf, -⟩ | ⟨-, rfl, -⟩
      · exact hf
      · simp [Level.nextPriority] at hpr
    rw [insert_eq_error_of hc hv hf hpr]
    rfl
  | ok pr =>
    have hfits := hfit _ _ (by rw [hrest, hpr]; rfl)
    have hoc : (r.place side p ⟨oid, c, q, pr⟩).orderCount = b.orders.length + 1 :=
      (hcount ⟨oid, c, q, pr, 0⟩).1
    have hlc : (r.place side p ⟨oid, c, q, pr⟩).levelCount =
        ls₁.length + (b.levels side.opposite).length := (hcount ⟨oid, c, q, pr, 0⟩).2
    -- the sizes the reference fits in leave a free slot, and room for a new level
    have hfree : b.orderSlots.allocated < b.orderSlots.capacity := by
      have h0 := h.wf.stored.allocated
      have h1 := hfits.1
      simp only [List.length_map] at h0
      rw [hoc] at h1
      rw [h0, h.orderCapacity]
      omega
    obtain ⟨slot, -, -, ha⟩ := Pool.tryAllocate_of_lt h.wf.stored.inv hfree oid
    have hls' : (b.levels side).find? (·.price == p) = some level ∧ ls₁ = b.levels side ∨
        (b.levels side).find? (·.price == p) = none ∧ b.levelCount < b.levelCapacity ∧
          level = { price := p, orders := [] } ∧ ls₁ = placeLevel side level (b.levels side) := by
      rcases hls with hls | ⟨hf, hlv, hl₁⟩
      · exact .inl hls
      · have h0 := Book.levelCount_eq (b := b) hv
        have h1 := hfits.2
        have h2 : ls₁.length = (b.levels side).length + 1 := by
          rw [hl₁, (placeLevel_perm side level _).length_eq, List.length_cons]
        rw [hlc] at h1
        exact .inr ⟨hf, by rw [h.levelCapacity]; omega, hlv, hl₁⟩
    have hins := insert_eq_ok_of (c := c) (q := q) hc hv hls' hpr ha
    rw [hins]
    refine ⟨rfl, h.wf.insert hins, by simp [h.ticker], fun s => ?_, ?_, by simp [h.levelCapacity]⟩
    · rw [levels_setOrderSlots]
      exact hsides _ s
    · simp [Pool.capacity, ← h.orderCapacity]

/-- **Cancelling keeps the books mirrored**, with the same events. -/
theorem cancel (h : Mirrors b r mo ml) (c : ClientId) (oid : OrderId) :
    (b.cancel c oid).1 = (r.cancel c oid).1 ∧ Mirrors (b.cancel c oid).2 (r.cancel c oid).2 mo ml := by
  unfold Book.cancel RefBook.cancel
  rw [h.locate_eq]
  cases hf : b.find? oid with
  | none => exact ⟨by simp [Book.cancel.rejection, h.ticker], h⟩
  | some x =>
    obtain ⟨s, p, o⟩ := x
    simp only [Option.map_some, Resting.toRef_clientId, Resting.toRef_qty, Resting.toRef_priority]
    by_cases hc : o.clientId = c
    · simp only [hc, if_true]
      exact ⟨by simp [h.ticker], h.without hf⟩
    · simp only [hc, if_false]
      exact ⟨by simp [Book.cancel.rejection, h.ticker], h⟩

/-- **Taking an order out directly keeps the books mirrored**, and both report the same entry. -/
theorem remove (h : Mirrors b r mo ml) (oid : OrderId) :
    (b.remove oid).1 = (r.remove oid).1 ∧ Mirrors (b.remove oid).2 (r.remove oid).2 mo ml := by
  unfold Book.remove RefBook.remove
  rw [h.locate_eq]
  cases hf : b.find? oid with
  | none => exact ⟨rfl, h⟩
  | some x =>
    obtain ⟨s, p, o⟩ := x
    exact ⟨by simp [h.ticker], h.without hf⟩

theorem rejects_iff (h : Mirrors b r mo ml) :
    b.rejects oid side p q = true ↔ (q = 0 ∨ q = noQty ∨ side.isValid = false ∨ p = noPrice ∨
      oid = noOrder ∨ (r.locate oid).isSome) := by
  rw [h.locate_eq, Option.isSome_map]
  simp [Book.rejects, Book.contains, or_assoc]

/-- **Placing a limit order keeps the books mirrored**, with the same events: both reject the
same orders, cross alike, and rest what is left alike. -/
theorem add (h : Mirrors b r mo ml)
    (hfit : ∀ r', (r.add c oid side p q).result = .ok r' → r'.orderCount ≤ mo ∧ r'.levelCount ≤ ml) :
    (b.add c oid side p q).events = (r.add c oid side p q).events ∧
      Agrees (fun b' r' => Mirrors b' r' mo ml) (b.add c oid side p q).result
        (r.add c oid side p q).result := by
  by_cases hrej : b.rejects oid side p q = true
  · -- a rejected order changes neither book
    have hrej' := h.rejects_iff.1 hrej
    simp only [Book.add, RefBook.add, hrej, hrej', if_true, h.ticker]
    exact ⟨trivial, h⟩
  have hacc := mt h.rejects_iff.2 hrej
  have hv := isValid_of_not_rejects hrej
  have hn : b.find? oid = none := by
    simp only [Book.rejects, Book.contains, Bool.or_eq_true, Option.isSome_iff_ne_none] at hrej
    exact not_not.1 fun h0 => hrej (.inr h0)
  rcases hf : (Taker.mk b.ticker c oid side p).fillSide (b.levels side.opposite) q with
    ⟨evs, left, rest, filled⟩
  obtain ⟨hcross, h'⟩ := h.cross hv hf
  simp only [Book.add, RefBook.add, hrej, hacc, Bool.false_eq_true, if_false, hf, hcross]
  by_cases hl : left = 0
  · simp only [hl, if_true, h.ticker]
    exact ⟨trivial, h'⟩
  simp only [hl, if_false]
  dsimp only at h'
  have hag := h'.insert (c := c) (p := p) (q := left) hv (find?_cross_of_none (Side.isValid_opposite hv) hf _ hn)
    fun o' r'' hr => hfit r'' (by simp only [RefBook.add, hacc, if_false, hcross, hl, hr])
  -- a book rests an order where the other meets a fault in no case
  split <;> rename_i hb <;> split <;> rename_i hr <;> rw [hb, hr] at hag <;>
    simp only [Agrees] at hag
  · exact ⟨by simp only [h.ticker, ← hag.1, Resting.toRef_priority], hag.2⟩
  · exact ⟨by simp only [h.ticker], hag⟩

/-- **Every call keeps the books mirrored**, with the same events and the same reply, when the
reference shows the call keeps its caller's promise and the pools' sizes. -/
theorem call (h : Mirrors b r mo ml) {cl : Book.Call} (ha : r.admits cl = true)
    (hfit : ∀ x r', (r.call cl).result = .ok (x, r') → r'.orderCount ≤ mo ∧ r'.levelCount ≤ ml) :
    (b.call cl).events = (r.call cl).events ∧
      Agrees (fun x y => x.1.toRef = y.1 ∧ Mirrors x.2 y.2 mo ml) (b.call cl).result
        (r.call cl).result := by
  cases cl with
  | add c oid side p q =>
    have hfit' : ∀ r', (r.add c oid side p q).result = .ok r' →
        r'.orderCount ≤ mo ∧ r'.levelCount ≤ ml :=
      fun r' hr => hfit .done r' (by simp only [RefBook.call, hr]; rfl)
    obtain ⟨hev, hag⟩ := h.add hfit'
    exact ⟨hev, hag.map fun _ _ h' => ⟨rfl, h'⟩⟩
  | cancel c oid =>
    obtain ⟨hev, h'⟩ := h.cancel c oid
    exact ⟨hev, rfl, h'⟩
  | insert c oid side p q =>
    simp only [RefBook.admits, Bool.and_eq_true, Option.isNone_iff_eq_none, h.locate_eq,
      Option.map_eq_none_iff] at ha
    have hfit' : ∀ o' r', r.rest c oid side p q = .ok (o', r') →
        r'.orderCount ≤ mo ∧ r'.levelCount ≤ ml :=
      fun o' r' hr => hfit (.rested o') r' (by simp only [RefBook.call, hr]; rfl)
    have hag := h.insert ha.2 ha.1 hfit'
    exact ⟨rfl, hag.map fun ⟨_, _⟩ ⟨_, _⟩ h' => ⟨congrArg RefBook.Reply.rested h'.1, h'.2⟩⟩
  | remove oid =>
    obtain ⟨he, h'⟩ := h.remove oid
    exact ⟨rfl, congrArg RefBook.Reply.removed he, h'⟩

/-- **A run of calls keeps the books mirrored**, with the same events and the same replies, when
the reference shows the run fits. -/
theorem run (h : Mirrors b r mo ml) {calls : List Book.Call} (hfit : r.fits mo ml calls = true) :
    (Outcome.runCalls Book.call b calls).events = (Outcome.runCalls RefBook.call r calls).events ∧
      Agrees (fun x y => x.1.map Book.Reply.toRef = y.1 ∧ Mirrors x.2 y.2 mo ml)
        (Outcome.runCalls Book.call b calls).result (Outcome.runCalls RefBook.call r calls).result := by
  induction calls generalizing b r with
  | nil => exact ⟨rfl, rfl, h⟩
  | cons cl cs ih =>
    simp only [RefBook.fits, Bool.and_eq_true] at hfit
    obtain ⟨ha, hrest⟩ := hfit
    obtain ⟨hev, hag⟩ := h.call ha fun x r' hr => by
      rw [hr] at hrest
      simp only [Bool.and_eq_true, decide_eq_true_eq] at hrest
      exact hrest.1
    rcases hb : (b.call cl).result with f | ⟨x, b'⟩ <;>
      rcases hr : (r.call cl).result with f' | ⟨y, r'⟩ <;> rw [hb, hr] at hag <;>
      simp only [Agrees] at hag
    · simp only [Outcome.runCalls, hb, hr]
      exact ⟨hev, hag⟩
    · rw [hr] at hrest
      simp only [Bool.and_eq_true, decide_eq_true_eq] at hrest
      obtain ⟨hev', hag'⟩ := ih hag.2 hrest.2
      simp only [Outcome.runCalls, hb, hr]
      exact ⟨by rw [hev, hev'], hag'.map fun _ _ h' => ⟨by simp [hag.1, h'.1], h'.2⟩⟩

end Mirrors

namespace Book

/-- **The book refines the reference book.** From an empty book, a run of limit orders,
cancels, direct inserts and removals that keeps the callers' promises and the pools' sizes gives
the events, the replies and the two sides, best first, of the reference book run on the same
calls; and a fault that stops one stops the other alike. -/
theorem matches_reference {t : TickerId} {mo ml : Nat} {b : Book} (hb : Book.create t mo ml = .ok b)
    (calls : List Call) (hfit : (RefBook.empty t).fits mo ml calls = true) :
    (Outcome.runCalls Book.call b calls).events =
        (Outcome.runCalls RefBook.call (RefBook.empty t) calls).events ∧
      (Outcome.runCalls Book.call b calls).result.map (fun x => (x.1.map Reply.toRef, x.2.view)) =
        (Outcome.runCalls RefBook.call (RefBook.empty t) calls).result.map
          (fun y => (y.1, y.2.view)) := by
  obtain ⟨hev, hag⟩ := (mirrors_create hb).run hfit
  refine ⟨hev, hag.map_eq fun x y hxy => ?_⟩
  rw [hxy.1, hxy.2.view]

end Book

end Exchange
