import Exchange.Proofs.Book.Answers
import Exchange.Proofs.Engine.Sinks
import Exchange.Proofs.Feed.Listing

/-!
# What a book's updates list

A snapshot lists each resting order as an ADD record: `Resting.record` carries the order's id,
the ticker, the side and price of its level, its quantity left and its queue priority.
`Book.allRecords` holds the records of all resting orders, and `Book.records` puts them in
increasing id, as a snapshot lists them.

A book's updates keep a listing of these records up to date. Trading takes the filled orders off
the front of the resting side, queue by queue: a CANCEL drops each order it fills completely and a
MODIFY rewrites the one it fills in part (`Taker.applyAll_fillLevel`, `Taker.applyAll_fillSide`).
What rests of a NEW comes with one ADD of an id the book does not hold, and a CANCEL drops the
order it takes out. The main statements, `Book.add_listing` and `Book.applyAll_cancel`: read as a
snapshot book reads them, the updates of a NEW or a CANCEL take the records of the book before to
those of the book after, without a fault.
-/

namespace Exchange

open Listing

/-- The ADD record a snapshot lists for an order resting on ticker `t`, on `side` at `price`. -/
def Resting.record (o : Resting) (t : TickerId) (side : Side) (price : Price) : Update :=
  { kind := .add, orderId := o.orderId, tickerId := t, side, price, qty := o.qty,
    priority := o.priority }

@[simp] theorem Resting.orderId_record (o : Resting) (t : TickerId) (side : Side) (price : Price) :
    (o.record t side price).orderId = o.orderId := rfl

namespace Level

/-- The records of the orders of some levels of one side, level by level, each queue oldest
first. -/
def recordsOf (t : TickerId) (side : Side) (ls : List Level) : List Update :=
  ls.flatMap fun l => l.orders.map (·.record t side l.price)

variable {t : TickerId} {side : Side} {p : Price} {o : Resting}

@[simp] theorem recordsOf_nil : recordsOf t side [] = [] := rfl

@[simp] theorem recordsOf_cons (l : Level) (ls : List Level) :
    recordsOf t side (l :: ls) = l.orders.map (·.record t side l.price) ++ recordsOf t side ls :=
  rfl

theorem map_orderId_recordsOf : ∀ ls : List Level,
    (recordsOf t side ls).map (·.orderId) = (ordersOf ls).map (·.orderId)
  | [] => rfl
  | l :: ls => by simp [map_orderId_recordsOf ls, Function.comp_def]

theorem recordsOf_appendAt : ∀ {ls : List Level},
    (ls.map (·.price)).Pairwise (fun p q => ranksBefore side p q = true) →
    (∃ l ∈ ls, l.price = p) →
    (recordsOf t side (Book.appendAt p o ls)).Perm (o.record t side p :: recordsOf t side ls)
  | [], _, ⟨_, hl, _⟩ => by cases hl
  | m :: ms, hr, ⟨l, hl, hp⟩ => by
    rw [List.map_cons, List.pairwise_cons] at hr
    rw [Book.appendAt_cons]
    by_cases hm : m.price = p
    · have hrest : ∀ x ∈ ms, x.price ≠ p := fun x hx =>
        hm ▸ (ne_of_ranksBefore (hr.1 _ (List.mem_map_of_mem hx))).symm
      rw [if_pos hm, Book.appendAt_of_forall_ne hrest]
      simp only [recordsOf_cons, List.map_append, List.map_cons, List.map_nil, hm,
        List.append_assoc, List.singleton_append]
      exact List.perm_middle
    · have hl' : l ∈ ms := by
        rcases List.mem_cons.1 hl with rfl | hl
        · exact absurd hp hm
        · exact hl
      rw [if_neg hm, recordsOf_cons, recordsOf_cons]
      exact ((recordsOf_appendAt hr.2 ⟨l, hl', hp⟩).append_left _).trans List.perm_middle

theorem recordsOf_placeLevel_nil (side' : Side) (p : Price) (ls : List Level) :
    (recordsOf t side (Book.placeLevel side' { price := p, orders := [] } ls)).Perm
      (recordsOf t side ls) := by
  have := (Book.placeLevel_perm side' { price := p, orders := [] } ls).flatMap_right
    fun l => l.orders.map (·.record t side l.price)
  simpa [recordsOf] using this

theorem recordsOf_dropFrom : ∀ {ls : List Level},
    (ls.map (·.price)).Pairwise (fun p q => ranksBefore side p q = true) →
    ((ordersOf ls).map (·.orderId)).Nodup → (∃ l ∈ ls, l.price = p ∧ o ∈ l.orders) →
    (recordsOf t side ls).Perm (o.record t side p :: recordsOf t side (Book.dropFrom p o.orderId ls))
  | [], _, _, ⟨_, hl, _⟩ => by cases hl
  | l :: ls, hr, hnd, ⟨m, hm, hmp, ho⟩ => by
    rw [List.map_cons, List.pairwise_cons] at hr
    rw [ordersOf_cons, List.map_append, List.nodup_append] at hnd
    rw [Book.dropFrom_cons, recordsOf_cons]
    by_cases hp : l.price = p
    · have hml : m = l := by
        rcases List.mem_cons.1 hm with rfl | hm
        · rfl
        · exact absurd (hp.trans hmp.symm) (ne_of_ranksBefore (hr.1 _ (List.mem_map_of_mem hm)))
      subst hml hp
      rw [if_pos rfl]
      have hperm := ((perm_cons_filter_orderId hnd.1 ho).map (·.record t side m.price)).append_right
        (recordsOf t side ls)
      rw [List.map_cons, List.cons_append] at hperm
      split
      · rename_i he
        rwa [List.isEmpty_iff.1 he, List.map_nil, List.nil_append] at hperm
      · rwa [recordsOf_cons]
    · have hm' : m ∈ ls := by
        rcases List.mem_cons.1 hm with rfl | hm
        · exact absurd hmp hp
        · exact hm
      rw [if_neg hp, recordsOf_cons]
      exact ((recordsOf_dropFrom hr.2 hnd.2.1 ⟨m, hm', hmp, ho⟩).append_left _).trans
        List.perm_middle

end Level

/-! ## A book's records -/

namespace Book

open Level

variable {b b' : Book} {side : Side} {p : Price} {o : Resting} {ls : List Level}

/-- The records of a book's resting orders: the bids', then the asks'. -/
def allRecords (b : Book) : List Update :=
  recordsOf b.ticker .buy b.bids ++ recordsOf b.ticker .sell b.asks

/-- The records of a book's resting orders in increasing id: what a snapshot lists for it. -/
def records (b : Book) : List Update := b.allRecords.mergeSort fun u v => u.orderId ≤ v.orderId

theorem map_orderId_allRecords (b : Book) :
    b.allRecords.map (·.orderId) = b.orders.map (·.orderId) := by
  simp only [allRecords, orders, List.map_append, map_orderId_recordsOf]

theorem length_allRecords (b : Book) : b.allRecords.length = b.orders.length := by
  simpa using congrArg List.length (map_orderId_allRecords b)

theorem nodup_allRecords (hw : b.WF) : (b.allRecords.map (·.orderId)).Nodup := by
  rw [map_orderId_allRecords]
  exact hw.ids

theorem length_allRecords_le (hw : b.WF) : b.allRecords.length ≤ b.orderSlots.capacity := by
  rw [length_allRecords]
  simpa using hw.stored.length_le

theorem records_perm (b : Book) : b.records.Perm b.allRecords := List.mergeSort_perm _ _

/-- **A book's records, as a snapshot lists them, come in increasing id.** -/
theorem sorted_records (hw : b.WF) : b.records.Pairwise fun u v => u.orderId < v.orderId := by
  have hle : b.records.Pairwise fun u v => decide (u.orderId ≤ v.orderId) = true :=
    @List.pairwise_mergeSort Update (fun u v => decide (u.orderId ≤ v.orderId))
      (fun _ _ _ h₁ h₂ => decide_eq_true (UInt64.le_trans (of_decide_eq_true h₁) (of_decide_eq_true h₂)))
      (fun u v => by simp [UInt64.le_total u.orderId v.orderId]) _
  have hnd : (b.records.map (·.orderId)).Nodup :=
    ((records_perm b).map _).nodup_iff.2 (nodup_allRecords hw)
  have hne : b.records.Pairwise fun u v => u.orderId ≠ v.orderId := List.pairwise_map.1 hnd
  refine (hle.and hne).imp fun {u v} ⟨h₁, h₂⟩ => ?_
  have hle' : u.orderId.toNat ≤ v.orderId.toNat := UInt64.le_iff_toNat_le.1 (of_decide_eq_true h₁)
  have hne' : u.orderId.toNat ≠ v.orderId.toNat := fun h => h₂ (UInt64.toNat_inj.1 h)
  exact UInt64.lt_iff_toNat_lt.2 (Nat.lt_of_le_of_ne hle' hne')

theorem allRecords_perm (hv : side.isValid = true) :
    b.allRecords.Perm (recordsOf b.ticker side (b.levels side) ++
      recordsOf b.ticker side.opposite (b.levels side.opposite)) := by
  cases side with
  | buy => exact List.Perm.refl _
  | sell => exact List.perm_append_comm
  | invalid => cases hv

theorem allRecords_without (hw : b.WF) (hf : b.find? p' = some (side, p, o)) :
    b.allRecords.Perm (o.record b.ticker side p :: (b.without side p o).allRecords) := by
  obtain ⟨hv, rfl, l, hl, hlp, ho⟩ := find?_eq_some hf
  refine (allRecords_perm hv).trans ?_
  refine ((recordsOf_dropFrom (hw.sides side).ranked (Book.nodup_side hw side)
    ⟨l, hl, hlp, ho⟩).append_right _).trans ?_
  refine List.Perm.trans ?_ ((allRecords_perm (b := b.without side p o) hv).cons _).symm
  rw [levels_without hv, levels_without hv, if_pos rfl, if_neg (Side.opposite_ne hv)]
  simp only [without, ticker_withLevels, List.cons_append]
  exact List.Perm.refl _

end Book

/-! ## Trading takes records off the front -/

namespace Taker

open Level

variable {t : Taker} {price : Price} {o : Resting} {fill left : Qty} {L : Listing}

theorem applyAll_tradeEvents_full (hfull : o.qty - fill = 0) {R : List Update}
    (hnd : ((o.record t.ticker t.side.opposite price :: R).map (·.orderId)).Nodup) :
    (L.setSlice t.ticker (byId (o.record t.ticker t.side.opposite price :: R))).applyAll
      ((t.tradeEvents price o fill left).filterMap Event.update?) =
      some (L.setSlice t.ticker (byId R)) := by
  simp only [tradeEvents, if_pos hfull, List.filterMap_cons, Event.update?, List.filterMap_nil,
    applyAll_cons, apply_trade, Option.bind_some, applyAll_nil]
  rw [apply_cancel_head ?_ ?_ ?_ hnd, Option.bind_some] <;> rfl

theorem applyAll_tradeEvents_part (hpart : ¬ o.qty - fill = 0) {R : List Update} :
    (L.setSlice t.ticker (byId (o.record t.ticker t.side.opposite price :: R))).applyAll
      ((t.tradeEvents price o fill left).filterMap Event.update?) =
      some (L.setSlice t.ticker
        (byId (({ o with qty := o.qty - fill } : Resting).record t.ticker t.side.opposite price :: R))) := by
  simp only [tradeEvents, if_neg hpart, List.filterMap_cons, Event.update?, List.filterMap_nil,
    applyAll_cons, apply_trade, Option.bind_some, applyAll_nil]
  rw [apply_modify_head ?_ ?_ ?_, Option.bind_some] <;> rfl

/-- **Trading against a queue takes its filled orders off the front**: from the records of the
queue followed by others, all with distinct ids, its updates lead to the records of what stays of
the queue, followed by the same others. -/
theorem applyAll_fillLevel (L : Listing) (R : List Update) :
    ∀ {os rest filled : List Resting} {leaves left : Qty} {evs : List Event},
    ((os.map (·.record t.ticker t.side.opposite price) ++ R).map (·.orderId)).Nodup →
    t.fillLevel price os leaves = (evs, left, rest, filled) →
    (L.setSlice t.ticker (byId (os.map (·.record t.ticker t.side.opposite price) ++ R))).applyAll
      (evs.filterMap Event.update?) =
      some (L.setSlice t.ticker (byId (rest.map (·.record t.ticker t.side.opposite price) ++ R)))
  | [], rest, filled, leaves, left, evs, _, h => by
    simp only [fillLevel, Prod.mk.injEq] at h
    obtain ⟨rfl, -, rfl, -⟩ := h
    rfl
  | o :: os, rest, filled, leaves, left, evs, hnd, h => by
    simp only [fillLevel] at h
    rw [List.map_cons, List.cons_append] at hnd ⊢
    split at h
    · simp only [Prod.mk.injEq] at h
      obtain ⟨rfl, -, rfl, -⟩ := h
      rfl
    · split at h
      · -- the head is filled completely and leaves the queue
        rename_i hfull
        generalize hm : t.fillLevel price os (leaves - min leaves o.qty) = m at h
        obtain ⟨more, leaves', rest', filled'⟩ := m
        simp only [Prod.mk.injEq] at h
        obtain ⟨rfl, -, rfl, -⟩ := h
        rw [List.filterMap_append, applyAll_append, applyAll_tradeEvents_full hfull hnd,
          Option.bind_some]
        exact applyAll_fillLevel L R (List.nodup_cons.1 (by simpa only [List.map_cons] using hnd)).2 hm
      · -- the head is filled in part and stays, with what is left
        rename_i hpart
        simp only [Prod.mk.injEq] at h
        obtain ⟨rfl, -, rfl, -⟩ := h
        rw [applyAll_tradeEvents_part hpart]
        rfl

/-- **Trading against a side takes its filled orders off the front**, level by level: from the
records of the side followed by others, all with distinct ids, its updates lead to the records of
the levels that stay, followed by the same others. -/
theorem applyAll_fillSide (L : Listing) (R : List Update) :
    ∀ {ls rest : List Level} {filled : List Resting} {leaves left : Qty} {evs : List Event},
    ((recordsOf t.ticker t.side.opposite ls ++ R).map (·.orderId)).Nodup →
    t.fillSide ls leaves = (evs, left, rest, filled) →
    (L.setSlice t.ticker (byId (recordsOf t.ticker t.side.opposite ls ++ R))).applyAll
      (evs.filterMap Event.update?) =
      some (L.setSlice t.ticker (byId (recordsOf t.ticker t.side.opposite rest ++ R)))
  | [], rest, filled, leaves, left, evs, _, h => by
    simp only [fillSide, Prod.mk.injEq] at h
    obtain ⟨rfl, -, rfl, -⟩ := h
    rfl
  | l :: ls, rest, filled, leaves, left, evs, hnd, h => by
    simp only [fillSide] at h
    split at h
    · simp only [Prod.mk.injEq] at h
      obtain ⟨rfl, -, rfl, -⟩ := h
      rfl
    · generalize hf : t.fillLevel l.price l.orders leaves = f at h
      obtain ⟨evs₁, left₁, rest₁, filled₁⟩ := f
      rw [recordsOf_cons, List.append_assoc] at hnd ⊢
      have hlevel := applyAll_fillLevel L (recordsOf t.ticker t.side.opposite ls ++ R) hnd hf
      cases rest₁ with
      | nil =>
        generalize hr : t.fillSide ls left₁ = r at h
        obtain ⟨more, leaves', ls', filled'⟩ := r
        simp only [Prod.mk.injEq] at h
        obtain ⟨rfl, -, rfl, -⟩ := h
        rw [List.map_nil, List.nil_append] at hlevel
        have hnd' : ((recordsOf t.ticker t.side.opposite ls ++ R).map (·.orderId)).Nodup := by
          rw [List.map_append] at hnd
          exact (List.nodup_append.1 hnd).2.1
        rw [List.filterMap_append, applyAll_append, hlevel, Option.bind_some]
        exact applyAll_fillSide L R hnd' hr
      | cons r rs =>
        simp only [Prod.mk.injEq] at h
        obtain ⟨rfl, -, rfl, -⟩ := h
        rw [hlevel, recordsOf_cons, List.append_assoc]

theorem mem_fillLevel {ev : Event} :
    ∀ {os rest filled : List Resting} {leaves left : Qty} {evs : List Event},
    t.fillLevel price os leaves = (evs, left, rest, filled) → ev ∈ evs →
    ∃ o fill left, ev ∈ t.tradeEvents price o fill left
  | [], rest, filled, leaves, left, evs, h, hev => by
    simp only [fillLevel, Prod.mk.injEq] at h
    obtain ⟨rfl, -⟩ := h
    cases hev
  | o :: os, rest, filled, leaves, left, evs, h, hev => by
    simp only [fillLevel] at h
    split at h
    · simp only [Prod.mk.injEq] at h
      obtain ⟨rfl, -⟩ := h
      cases hev
    · split at h
      · generalize hm : t.fillLevel price os (leaves - min leaves o.qty) = m at h
        obtain ⟨more, leaves', rest', filled'⟩ := m
        simp only [Prod.mk.injEq] at h
        obtain ⟨rfl, -⟩ := h
        rcases List.mem_append.1 hev with hev | hev
        · exact ⟨_, _, _, hev⟩
        · exact mem_fillLevel hm hev
      · simp only [Prod.mk.injEq] at h
        obtain ⟨rfl, -⟩ := h
        exact ⟨_, _, _, hev⟩

theorem mem_fillSide {ev : Event} :
    ∀ {ls rest : List Level} {filled : List Resting} {leaves left : Qty} {evs : List Event},
    t.fillSide ls leaves = (evs, left, rest, filled) → ev ∈ evs →
    ∃ price o fill left, ev ∈ t.tradeEvents price o fill left
  | [], rest, filled, leaves, left, evs, h, hev => by
    simp only [fillSide, Prod.mk.injEq] at h
    obtain ⟨rfl, -⟩ := h
    cases hev
  | l :: ls, rest, filled, leaves, left, evs, h, hev => by
    simp only [fillSide] at h
    split at h
    · simp only [Prod.mk.injEq] at h
      obtain ⟨rfl, -⟩ := h
      cases hev
    · generalize hf : t.fillLevel l.price l.orders leaves = f at h
      obtain ⟨evs₁, left₁, rest₁, filled₁⟩ := f
      split at h
      · generalize hr : t.fillSide ls left₁ = r at h
        obtain ⟨more, leaves', ls', filled'⟩ := r
        simp only [Prod.mk.injEq] at h
        obtain ⟨rfl, -⟩ := h
        rcases List.mem_append.1 hev with hev | hev
        · exact ⟨_, mem_fillLevel hf hev⟩
        · exact mem_fillSide hr hev
      · simp only [Prod.mk.injEq] at h
        obtain ⟨rfl, -⟩ := h
        exact ⟨_, mem_fillLevel hf hev⟩

theorem kind_fillSide {ls rest : List Level} {filled : List Resting} {leaves left : Qty}
    {evs : List Event} (h : t.fillSide ls leaves = (evs, left, rest, filled)) :
    ∀ u ∈ evs.filterMap Event.update?, u.kind ≠ .add := by
  intro u hu
  obtain ⟨ev, hev, hu⟩ := List.mem_filterMap.1 hu
  obtain ⟨price, o, fill, left, hev⟩ := mem_fillSide h hev
  simp only [tradeEvents, List.mem_cons, List.mem_nil_iff, or_false] at hev
  rcases hev with rfl | rfl | rfl | rfl
  · cases hu
  · cases hu
  · cases hu
    simp
  · split at hu <;> cases hu <;> simp

end Taker

/-! ## The updates of a NEW and of a CANCEL -/

namespace Book

open Level

variable {b b' : Book} {c : ClientId} {x : OrderId} {side : Side} {p : Price} {q : Qty}

theorem capacity_add (hw : b.WF) (h : (b.add c x side p q).result = .ok b') :
    b'.orderSlots.capacity = b.orderSlots.capacity := by
  unfold Book.add at h
  split at h
  · cases h; rfl
  · rename_i hrej
    have hv := isValid_of_not_rejects hrej
    simp only at h
    generalize hf : (Taker.mk b.ticker c x side p).fillSide (b.levels side.opposite) q = r at h
    obtain ⟨evs, leaves, rest, filled⟩ := r
    have hc := hw.cross (Side.isValid_opposite hv) hf
    simp only at h
    split at h
    · cases h
      simp [capacity_foldl_vacate]
    · split at h
      · rename_i o b'' hins
        cases h
        obtain ⟨-, -, -, -, pool', -, -, ha, -, -, -, rfl⟩ := insert_eq_ok hins
        simpa [capacity_foldl_vacate] using Pool.capacity_of_tryAllocate hc.stored.inv ha
      · cases h

theorem capacity_cancel (c : ClientId) (x : OrderId) :
    (b.cancel c x).2.orderSlots.capacity = b.orderSlots.capacity := by
  unfold Book.cancel
  split
  · split
    · simp [without]
    · rfl
  · rfl

/-- **The updates of a NEW, read as a snapshot book reads them.** Trading publishes no ADD, and
from the records of the book it leads to the records `R` of the crossed book. What is left of the
order then rests, or not: the book after lists `R`, or the NEW's last update is the ADD of an id
that `R` does not hold, and the book after lists `R` with that ADD. -/
theorem add_listing (hw : b.WF) (h : (b.add c x side p q).result = .ok b') :
    ∃ us R, (∀ u ∈ us, u.kind ≠ .add) ∧
      (∀ L : Listing, (L.setSlice b.ticker (byId b.allRecords)).applyAll us =
        some (L.setSlice b.ticker (byId R))) ∧
      ((b.add c x side p q).events.filterMap Event.update? = us ∧ b'.allRecords.Perm R ∨
       ∃ u, (b.add c x side p q).events.filterMap Event.update? = us ++ [u] ∧ u.kind = .add ∧
         u.tickerId = b.ticker ∧ u.orderId ∉ R.map (·.orderId) ∧ b'.allRecords.Perm (u :: R)) := by
  unfold Book.add at h ⊢
  by_cases hrej : b.rejects x side p q = true
  · -- a rejected order: one INVALID answer and no update, and the book stays
    rw [if_pos hrej] at h ⊢
    cases h
    exact ⟨[], b.allRecords, by simp, fun _ => rfl, .inl ⟨rfl, List.Perm.refl _⟩⟩
  rw [if_neg hrej] at h ⊢
  have hv := isValid_of_not_rejects hrej
  simp only at h ⊢
  generalize hf : (Taker.mk b.ticker c x side p).fillSide (b.levels side.opposite) q = f at h ⊢
  obtain ⟨evs, leaves, rest, filled⟩ := f
  have hcw := hw.cross (Side.isValid_opposite hv) hf
  generalize hcr : ({ b.withLevels side.opposite rest with
    orderSlots := filled.foldl (fun p o => p.vacate o.slot) b.orderSlots } : Book) = crossed
    at h hcw ⊢
  have hcrossed : ∀ sd, crossed.levels sd = if sd = side.opposite then rest else b.levels sd := by
    intro sd
    rw [← hcr, levels_setOrderSlots, levels_withLevels (Side.isValid_opposite hv)]
  have hctk : crossed.ticker = b.ticker := by rw [← hcr]; simp
  have hcperm : crossed.allRecords.Perm
      (recordsOf b.ticker side.opposite rest ++ recordsOf b.ticker side (b.levels side)) := by
    have := allRecords_perm (b := crossed) hv
    rw [hcrossed, hcrossed, if_neg (Side.opposite_ne hv).symm, if_pos rfl, hctk] at this
    exact this.trans List.perm_append_comm
  have hbperm : b.allRecords.Perm (recordsOf b.ticker side.opposite (b.levels side.opposite) ++
      recordsOf b.ticker side (b.levels side)) := (allRecords_perm hv).trans List.perm_append_comm
  have htrade : ∀ L : Listing, (L.setSlice b.ticker (byId b.allRecords)).applyAll
      (evs.filterMap Event.update?) = some (L.setSlice b.ticker
        (byId (recordsOf b.ticker side.opposite rest ++ recordsOf b.ticker side (b.levels side)))) := by
    intro L
    rw [byId_perm (nodup_allRecords hw) hbperm]
    exact Taker.applyAll_fillSide L _ ((hbperm.map (·.orderId)).nodup_iff.1 (nodup_allRecords hw)) hf
  refine ⟨evs.filterMap Event.update?, _, Taker.kind_fillSide hf, htrade, ?_⟩
  by_cases hl : leaves = 0
  · -- nothing is left to rest: the book is the crossed one
    rw [if_pos hl] at h ⊢
    cases h
    exact .inl ⟨rfl, hcperm⟩
  rw [if_neg hl] at h ⊢
  dsimp only at h ⊢
  split at h
  · -- what is left rests behind the orders at its price, and one ADD announces it
    rename_i o b'' hins
    cases h
    have hwf := hcw.insert hins
    obtain ⟨-, -, level, ls₁, pool', hls, -, -, hoid, -, hoq, rfl⟩ := insert_eq_ok hins
    obtain ⟨hlv, hlp, hr, -⟩ :=
      levelFor hv (hcw.sides side) (hls.imp id fun ⟨hf, _, hlv, hl₁⟩ => ⟨hf, hlv, hl₁⟩)
    have hside : crossed.levels side = b.levels side := by rw [hcrossed, if_neg (Side.opposite_ne hv).symm]
    have hls₁ : (recordsOf b.ticker side ls₁).Perm (recordsOf b.ticker side (b.levels side)) := by
      rw [← hside]
      rcases hls with ⟨-, rfl⟩ | ⟨-, -, rfl, rfl⟩
      · exact List.Perm.refl _
      · exact recordsOf_placeLevel_nil side p _
    have hlevels : ∀ sd, ({ crossed.withLevels side (appendAt p o ls₁) with orderSlots := pool' } :
        Book).levels sd = if sd = side then appendAt p o ls₁ else crossed.levels sd := by
      intro sd
      rw [levels_setOrderSlots, levels_withLevels hv]
    generalize hb₂ : ({ crossed.withLevels side (appendAt p o ls₁) with orderSlots := pool' } :
      Book) = b₂ at hlevels hwf ⊢
    have htk₂ : b₂.ticker = b.ticker := by rw [← hb₂, ← hctk]; simp
    have hu : o.record b.ticker side p = { kind := .add, orderId := x, tickerId := b.ticker, side,
                                           price := p, qty := leaves, priority := o.priority } := by
      rw [Resting.record, hoid, hoq]
    have hperm : b₂.allRecords.Perm (o.record b.ticker side p ::
        (recordsOf b.ticker side.opposite rest ++ recordsOf b.ticker side (b.levels side))) := by
      have h₂ := allRecords_perm (b := b₂) hv
      rw [hlevels, hlevels, if_pos rfl, if_neg (Side.opposite_ne hv), hcrossed, if_pos rfl, htk₂]
        at h₂
      refine h₂.trans ?_
      refine ((((recordsOf_appendAt hr ⟨level, hlv, hlp⟩).trans (hls₁.cons _)).append_right
        _).trans ?_)
      rw [List.cons_append]
      exact (List.perm_append_comm).cons _
    refine .inr ⟨_, ?_, rfl, rfl, ?_, hu ▸ hperm⟩
    · simp only [List.filterMap_cons, List.filterMap_append, Event.update?, List.filterMap_nil]
    · have := (hperm.map (·.orderId)).nodup_iff.1 (nodup_allRecords hwf)
      rw [List.map_cons, List.nodup_cons] at this
      rw [← hoid]
      exact this.1
  · cases h

/-- **The updates of a CANCEL, read as a snapshot book reads them**: from the records of the book
before they lead to those of the book after. -/
theorem applyAll_cancel (hw : b.WF) (c : ClientId) (x : OrderId) (L : Listing) :
    (L.setSlice b.ticker (byId b.allRecords)).applyAll ((b.cancel c x).1.filterMap Event.update?) =
      some (L.setSlice b.ticker (byId (b.cancel c x).2.allRecords)) := by
  unfold Book.cancel
  split
  · rename_i side p o hf
    split
    · -- the owner's own order: one CANCEL drops its record
      have hperm := allRecords_without hw hf
      obtain ⟨-, hoid, -⟩ := find?_eq_some hf
      have hnd := (hperm.map (·.orderId)).nodup_iff.1 (nodup_allRecords hw)
      simp only [List.filterMap_cons, Event.update?, List.filterMap_nil, applyAll_cons,
        applyAll_nil]
      rw [byId_perm (nodup_allRecords hw) hperm, apply_cancel_head ?_ ?_ ?_ hnd, Option.bind_some]
      · rfl
      · rfl
      · exact hoid.symm
    · rfl
  · rfl

theorem kind_cancel (c : ClientId) (x : OrderId) :
    ∀ u ∈ (b.cancel c x).1.filterMap Event.update?, u.kind ≠ .add := by
  unfold Book.cancel
  split
  · split
    · simp [Event.update?]
    · simp [cancel.rejection, Event.update?]
  · simp [cancel.rejection, Event.update?]

end Book

end Exchange
