import Exchange.Proofs.Book.Ledger
import Exchange.Proofs.Book.Answers

/-!
# A book's answers keep the fill ledger

Every NEW and CANCEL a book serves answers so that its answers fit what is open
(`Book.OpenIs.add`, `Book.OpenIs.cancel`): what is open before the call is what rests
(`Book.OpenIs`), and what its answers leave open is what rests after it. The accounts of
`Ledger.of` therefore balance against the book at every point of a run (`Book.History`). The same
calls pair each TRADE with the two FILLEDs of its trade, take an order off the book only with a
CANCEL update that follows its CANCELED or its last FILLED, and execute twice what they trade;
summed over a run, the quantity accepted is twice the quantity traded, plus the quantity
cancelled, plus what rests.
-/

namespace Exchange

/-! ## One trade -/

theorem toNat_min_add_sub_left (a b : Qty) : (min a b).toNat + (a - min a b).toNat = a.toNat := by
  have hle : min a b ≤ a := UInt32.le_iff_toNat_le.2 (by rw [UInt32.toNat_min]; omega)
  rw [UInt32.toNat_sub_of_le _ _ hle, UInt32.toNat_min]
  omega

theorem toNat_min_add_sub_right (a b : Qty) : (min a b).toNat + (b - min a b).toNat = b.toNat := by
  have hle : min a b ≤ b := UInt32.le_iff_toNat_le.2 (by rw [UInt32.toNat_min]; omega)
  rw [UInt32.toNat_sub_of_le _ _ hle, UInt32.toNat_min]
  omega

theorem min_eq_of_sub_min_eq_zero {a b : Qty} (h : b - min a b = 0) : min a b = b := by
  have hsum := toNat_min_add_sub_right a b
  rw [h, UInt32.toNat_zero, Nat.add_zero] at hsum
  exact UInt32.toNat_inj.1 hsum

namespace Taker

open Event

variable {t : Taker} {o : Resting} {leaves : Qty}

theorem tradeEvents_eq (t : Taker) (price : Price) (o : Resting) (fill left : Qty) :
    ∃ u, t.tradeEvents price o fill left =
      [.response { kind := .filled, clientId := t.clientId, tickerId := t.ticker,
                   orderId := t.orderId, side := t.side, price, execQty := fill, leavesQty := left },
       .response { kind := .filled, clientId := o.clientId, tickerId := t.ticker,
                   orderId := o.orderId, side := t.side.opposite, price, execQty := fill,
                   leavesQty := o.qty - fill },
       .update { kind := .trade, orderId := noOrder, tickerId := t.ticker, side := t.side, price,
                 qty := fill, priority := noPriority },
       .update u] ∧ u.orderId = o.orderId ∧
      (o.qty - fill = 0 ∧ u.kind = .cancel ∧ u.qty = o.qty ∨ o.qty - fill ≠ 0 ∧ u.kind = .modify) := by
  simp only [tradeEvents]
  split
  · exact ⟨_, rfl, rfl, .inl ⟨‹_›, rfl, rfl⟩⟩
  · exact ⟨_, rfl, rfl, .inr ⟨‹_›, rfl⟩⟩

/-- **One trade answers so that its answers fit what is open**, when the taker has its leaves
open and the resting order its quantity: the trade leaves each what it does not execute. -/
theorem open_tradeEvents {Q : Outstanding} (price : Price) (hne : o.orderId ≠ t.orderId)
    (ht : Q t.orderId = some leaves.toNat) (ho : Q o.orderId = some o.qty.toNat) :
    Q.FitsAll (t.tradeEvents price o (min leaves o.qty) (leaves - min leaves o.qty)) ∧
    Q.recordAll (t.tradeEvents price o (min leaves o.qty) (leaves - min leaves o.qty)) =
      Function.update (Function.update Q t.orderId (openOf (leaves - min leaves o.qty))) o.orderId
        (openOf (o.qty - min leaves o.qty)) := by
  obtain ⟨u, he, -, -⟩ := tradeEvents_eq t price o (min leaves o.qty) (leaves - min leaves o.qty)
  rw [he]
  simp [Response.Fits, Response.openAfter, Function.update_of_ne hne, ht, ho,
    toNat_min_add_sub_left, toNat_min_add_sub_right]

theorem tradesPaired_tradeEvents (t : Taker) (price : Price) (o : Resting) (fill left : Qty) :
    TradesPaired (t.tradeEvents price o fill left) := by
  obtain ⟨u, he, -, hu⟩ := tradeEvents_eq t price o fill left
  rw [he]
  show Preceded _ _ ([_, _] ++ [_] ++ [_])
  refine .snoc (.snoc ((preceded_response _).append (preceded_response _)) fun _ =>
    ⟨[], _, rfl, _, _, rfl, rfl, rfl, rfl, rfl, rfl, rfl, rfl, rfl⟩) fun hk => ?_
  rcases hu with ⟨-, hk', -⟩ | ⟨-, hk'⟩ <;> rw [hk'] at hk <;> cases hk

theorem cancelsExplained_tradeEvents (t : Taker) (price : Price) (o : Resting) (leaves : Qty) :
    CancelsExplained (t.tradeEvents price o (min leaves o.qty) (leaves - min leaves o.qty)) := by
  obtain ⟨u, he, hid, hu⟩ := tradeEvents_eq t price o (min leaves o.qty) (leaves - min leaves o.qty)
  rw [he]
  show Preceded _ _ ([_, _] ++ [_] ++ [_])
  refine .snoc (.snoc ((preceded_response _).append (preceded_response _)) fun hk => by cases hk)
    fun hk => ?_
  rcases hu with ⟨h0, -, hq⟩ | ⟨-, hk'⟩
  · exact ⟨[_], _, rfl, .inr ⟨_, _, rfl, rfl, hid.symm, (min_eq_of_sub_min_eq_zero h0).trans hq.symm,
      h0, rfl⟩⟩
  · rw [hk'] at hk
    cases hk

theorem sumOf_tradeEvents (t : Taker) (price : Price) (o : Resting) (fill left : Qty) :
    sumOf filledQty (t.tradeEvents price o fill left) =
      2 * sumOf tradedQty (t.tradeEvents price o fill left) := by
  obtain ⟨u, he, -, hu⟩ := tradeEvents_eq t price o fill left
  rw [he]
  have hu' : tradedQty (.update u) = 0 := by
    rcases hu with ⟨-, hk, -⟩ | ⟨-, hk⟩ <;> simp [tradedQty, hk]
  simp only [sumOf_cons, sumOf_nil, hu']
  simp [filledQty, tradedQty]
  omega

end Taker

/-! ## What the events show of every trade -/

namespace Event

/-- What the events of matching show of every trade: each TRADE right after its two FILLEDs, each
CANCEL update right after what took its order off the book, and twice the traded quantity
executed, once for each side. -/
structure TradesShown (evs : List Event) : Prop where
  paired : TradesPaired evs
  cancels : CancelsExplained evs
  executed : sumOf filledQty evs = 2 * sumOf tradedQty evs

theorem tradesShown_nil : TradesShown [] := ⟨preceded_nil, preceded_nil, rfl⟩

theorem TradesShown.append {evs evs' : List Event} (h : TradesShown evs) (h' : TradesShown evs') :
    TradesShown (evs ++ evs') :=
  ⟨h.paired.append h'.paired, h.cancels.append h'.cancels, by
    simp only [sumOf_append, h.executed, h'.executed]; omega⟩

theorem tradesShown_response {r : Response} (hk : r.kind ≠ .filled) : TradesShown [.response r] :=
  ⟨preceded_response r, preceded_response r, by simp [filledQty, hk, tradedQty]⟩

theorem tradesShown_update {u : Update} (ht : u.kind ≠ .trade) (hc : u.kind ≠ .cancel) :
    TradesShown [.update u] :=
  ⟨preceded_update ht, preceded_update hc, by simp [filledQty, tradedQty, ht]⟩

theorem tradesShown_tradeEvents (t : Taker) (price : Price) (o : Resting) (leaves : Qty) :
    TradesShown (t.tradeEvents price o (min leaves o.qty) (leaves - min leaves o.qty)) :=
  ⟨Taker.tradesPaired_tradeEvents t price o _ _, Taker.cancelsExplained_tradeEvents t price o leaves,
    Taker.sumOf_tradeEvents t price o _ _⟩

end Event

namespace Taker

variable {t : Taker} {price : Price}

/-! ## Trading against a queue and a side -/

/-- **Trading against a queue answers so that each answer fits what is open**, when the taker has
its leaves open and each order of the queue its quantity: afterwards the taker has what is left
open, the orders that stay their quantities, the filled ones nothing, and every other id what it
had. -/
theorem open_fillLevel : ∀ {os rest filled : List Resting} {leaves left : Qty} {evs : List Event}
    {Q : Outstanding}, (os.map (·.orderId)).Nodup → t.orderId ∉ os.map (·.orderId) →
    Q t.orderId = openOf leaves → (∀ o ∈ os, Q o.orderId = some o.qty.toNat) →
    t.fillLevel price os leaves = (evs, left, rest, filled) →
    Q.FitsAll evs ∧ Q.recordAll evs t.orderId = openOf left ∧
    (∀ o ∈ rest, Q.recordAll evs o.orderId = some o.qty.toNat) ∧
    (∀ o ∈ filled, Q.recordAll evs o.orderId = none) ∧
    (∀ x, x ≠ t.orderId → x ∉ os.map (·.orderId) → Q.recordAll evs x = Q x)
  | [], rest, filled, leaves, left, evs, Q, _, _, ht, _, h => by
    simp only [fillLevel, Prod.mk.injEq] at h
    obtain ⟨rfl, rfl, rfl, rfl⟩ := h
    exact ⟨trivial, ht, fun _ h => (by cases h), fun _ h => (by cases h), fun _ _ _ => rfl⟩
  | o :: os, rest, filled, leaves, left, evs, Q, hnd, hfresh, ht, hos, h => by
    simp only [fillLevel] at h
    rw [List.map_cons, List.nodup_cons] at hnd
    have hne : o.orderId ≠ t.orderId := fun he => hfresh (he ▸ List.mem_cons_self)
    have hfresh' : t.orderId ∉ os.map (·.orderId) := fun hm => hfresh (List.mem_cons_of_mem _ hm)
    split at h
    · -- nothing is left to trade
      simp only [Prod.mk.injEq] at h
      obtain ⟨rfl, rfl, rfl, rfl⟩ := h
      exact ⟨trivial, ht, hos, fun _ h => (by cases h), fun _ _ _ => rfl⟩
    rename_i h0
    have ht' : Q t.orderId = some leaves.toNat := by rw [ht, openOf, if_neg h0]
    obtain ⟨hfit, hrec⟩ := open_tradeEvents price hne ht' (hos o List.mem_cons_self)
    -- one trade with the head changes what is open of the taker and of the head only
    have hhead : Q.recordAll (t.tradeEvents price o (min leaves o.qty) (leaves - min leaves o.qty))
        o.orderId = openOf (o.qty - min leaves o.qty) := by rw [hrec, Function.update_self]
    have htaker : Q.recordAll (t.tradeEvents price o (min leaves o.qty) (leaves - min leaves o.qty))
        t.orderId = openOf (leaves - min leaves o.qty) := by
      rw [hrec, Function.update_of_ne hne.symm, Function.update_self]
    have hframe : ∀ x, x ≠ o.orderId → x ≠ t.orderId →
        Q.recordAll (t.tradeEvents price o (min leaves o.qty) (leaves - min leaves o.qty)) x = Q x :=
      fun x hxo hxt => by rw [hrec, Function.update_of_ne hxo, Function.update_of_ne hxt]
    have hos' : ∀ o' ∈ os, o'.orderId ≠ o.orderId ∧ o'.orderId ≠ t.orderId := fun o' ho' =>
      ⟨fun he => hnd.1 (he ▸ List.mem_map_of_mem ho'),
        fun he => hfresh' (he ▸ List.mem_map_of_mem ho')⟩
    split at h
    · -- the head is filled completely, and trading goes on with the rest of the queue
      rename_i hfull
      generalize hm : t.fillLevel price os (leaves - min leaves o.qty) = m at h
      obtain ⟨more, leaves', rest', filled'⟩ := m
      simp only [Prod.mk.injEq] at h
      obtain ⟨rfl, rfl, rfl, rfl⟩ := h
      obtain ⟨hfit₂, ht₂, hrest₂, hfilled₂, hother₂⟩ := open_fillLevel hnd.2 hfresh' htaker
        (fun o' ho' => by rw [hframe _ (hos' o' ho').1 (hos' o' ho').2, hos o' (.tail _ ho')]) hm
      refine ⟨Outstanding.fitsAll_append.2 ⟨hfit, hfit₂⟩, ?_, ?_, ?_, ?_⟩
      · rw [Outstanding.recordAll_append, ht₂]
      · intro o' ho'
        rw [Outstanding.recordAll_append, hrest₂ o' ho']
      · intro o' ho'
        rw [Outstanding.recordAll_append]
        rcases List.mem_cons.1 ho' with rfl | ho'
        · rw [hother₂ _ hne hnd.1, hhead, hfull, openOf, if_pos rfl]
        · exact hfilled₂ o' ho'
      · intro x hxt hxs
        have hxo : x ≠ o.orderId := fun he => hxs (he ▸ List.mem_cons_self)
        rw [Outstanding.recordAll_append, hother₂ x hxt fun hm => hxs (List.mem_cons_of_mem _ hm),
          hframe x hxo hxt]
    · -- the head keeps what the trade leaves it, and trading stops
      rename_i hpart
      simp only [Prod.mk.injEq] at h
      obtain ⟨rfl, rfl, rfl, rfl⟩ := h
      refine ⟨hfit, htaker, fun o' ho' => ?_, fun _ h => (by cases h), fun x hxt hxs => ?_⟩
      · rcases List.mem_cons.1 ho' with rfl | ho'
        · exact hhead.trans (if_neg hpart)
        · rw [hframe _ (hos' o' ho').1 (hos' o' ho').2, hos o' (.tail _ ho')]
      · exact hframe x (fun he => hxs (he ▸ List.mem_cons_self)) hxt

theorem cancel_of_filled_fillLevel :
    ∀ {os rest filled : List Resting} {leaves left : Qty} {evs : List Event},
    t.fillLevel price os leaves = (evs, left, rest, filled) → ∀ o ∈ filled, o ∈ os ∧
    ∃ u, .update u ∈ evs ∧ u.kind = .cancel ∧ u.orderId = o.orderId ∧ u.qty = o.qty
  | [], rest, filled, leaves, left, evs, h => by
    simp only [fillLevel, Prod.mk.injEq] at h
    obtain ⟨-, -, -, rfl⟩ := h
    exact fun _ h => (by cases h)
  | o :: os, rest, filled, leaves, left, evs, h => by
    simp only [fillLevel] at h
    split at h
    · simp only [Prod.mk.injEq] at h
      obtain ⟨-, -, -, rfl⟩ := h
      exact fun _ h => (by cases h)
    split at h
    · rename_i hfull
      generalize hm : t.fillLevel price os (leaves - min leaves o.qty) = m at h
      obtain ⟨more, leaves', rest', filled'⟩ := m
      simp only [Prod.mk.injEq] at h
      obtain ⟨rfl, -, -, rfl⟩ := h
      intro o' ho'
      rcases List.mem_cons.1 ho' with rfl | ho'
      · -- the head's trade ends with its CANCEL
        obtain ⟨u, he, hid, hu⟩ :=
          tradeEvents_eq t price o' (min leaves o'.qty) (leaves - min leaves o'.qty)
        rcases hu with ⟨-, hk, hq⟩ | ⟨hne, -⟩
        · exact ⟨List.mem_cons_self, u, List.mem_append_left _ (by rw [he]; simp), hk, hid, hq⟩
        · exact absurd hfull hne
      · obtain ⟨hmem, u, hu, hrest⟩ := cancel_of_filled_fillLevel hm o' ho'
        exact ⟨List.mem_cons_of_mem _ hmem, u, List.mem_append_right _ hu, hrest⟩
    · simp only [Prod.mk.injEq] at h
      obtain ⟨-, -, -, rfl⟩ := h
      exact fun _ h => (by cases h)

open Level in
/-- **Trading against a side answers so that each answer fits what is open**, when the taker has
its leaves open and each order of the side its quantity: afterwards the taker has what is left
open, the orders of the levels that stay their quantities, the filled ones nothing, and every
other id what it had. -/
theorem open_fillSide : ∀ {ls rest : List Level} {filled : List Resting} {leaves left : Qty}
    {evs : List Event} {Q : Outstanding}, ((ordersOf ls).map (·.orderId)).Nodup →
    t.orderId ∉ (ordersOf ls).map (·.orderId) →
    Q t.orderId = openOf leaves → (∀ o ∈ ordersOf ls, Q o.orderId = some o.qty.toNat) →
    t.fillSide ls leaves = (evs, left, rest, filled) →
    Q.FitsAll evs ∧ Q.recordAll evs t.orderId = openOf left ∧
    (∀ o ∈ ordersOf rest, Q.recordAll evs o.orderId = some o.qty.toNat) ∧
    (∀ o ∈ filled, Q.recordAll evs o.orderId = none) ∧
    (∀ x, x ≠ t.orderId → x ∉ (ordersOf ls).map (·.orderId) → Q.recordAll evs x = Q x)
  | [], rest, filled, leaves, left, evs, Q, _, _, ht, hos, h => by
    simp only [fillSide, Prod.mk.injEq] at h
    obtain ⟨rfl, rfl, rfl, rfl⟩ := h
    exact ⟨trivial, ht, hos, fun _ h => (by cases h), fun _ _ _ => rfl⟩
  | l :: ls, rest, filled, leaves, left, evs, Q, hnd, hfresh, ht, hos, h => by
    simp only [fillSide] at h
    rw [ordersOf_cons, List.map_append] at hfresh
    rw [ordersOf_cons, List.map_append, List.nodup_append] at hnd
    obtain ⟨hnd₁, hnd₂, hdisj⟩ := hnd
    split at h
    · -- the side does not cross, or nothing is left to trade
      simp only [Prod.mk.injEq] at h
      obtain ⟨rfl, rfl, rfl, rfl⟩ := h
      exact ⟨trivial, ht, hos, fun _ h => (by cases h), fun _ _ _ => rfl⟩
    generalize hf : t.fillLevel l.price l.orders leaves = f at h
    obtain ⟨evs₁, left₁, rest₁, filled₁⟩ := f
    have hids := ids_fillLevel hf
    obtain ⟨hfit₁, ht₁, hrest₁, hfilled₁, hother₁⟩ := open_fillLevel hnd₁
      (fun hm => hfresh (List.mem_append_left _ hm)) ht
      (fun o ho => hos o (by rw [ordersOf_cons]; exact List.mem_append_left _ ho)) hf
    have hlater : ∀ o ∈ ordersOf ls, o.orderId ≠ t.orderId ∧ o.orderId ∉ l.orders.map (·.orderId) :=
      fun o ho => ⟨fun he => hfresh (List.mem_append_right _ (he ▸ List.mem_map_of_mem ho)),
        fun hm => hdisj _ hm _ (List.mem_map_of_mem ho) rfl⟩
    have hos₂ : ∀ o ∈ ordersOf ls, Q.recordAll evs₁ o.orderId = some o.qty.toNat := fun o ho => by
      rw [hother₁ _ (hlater o ho).1 (hlater o ho).2,
        hos o (by rw [ordersOf_cons]; exact List.mem_append_right _ ho)]
    split at h
    · -- the first level empties, and trading goes on with the next ones
      generalize hm : t.fillSide ls left₁ = m at h
      obtain ⟨more, leaves', ls', filled'⟩ := m
      simp only [Prod.mk.injEq] at h
      obtain ⟨rfl, rfl, rfl, rfl⟩ := h
      obtain ⟨hfit₂, ht₂, hrest₂, hfilled₂, hother₂⟩ := open_fillSide hnd₂
        (fun hm => hfresh (List.mem_append_right _ hm)) ht₁ hos₂ hm
      refine ⟨Outstanding.fitsAll_append.2 ⟨hfit₁, hfit₂⟩, ?_, ?_, ?_, ?_⟩
      · rw [Outstanding.recordAll_append, ht₂]
      · intro o ho
        rw [Outstanding.recordAll_append, hrest₂ o ho]
      · intro o ho
        rw [Outstanding.recordAll_append]
        rcases List.mem_append.1 ho with ho | ho
        · -- filled in the first level: no later level has it
          have hmem : o.orderId ∈ l.orders.map (·.orderId) := by
            rw [hids]; exact List.mem_append_left _ (List.mem_map_of_mem ho)
          have hnot : o.orderId ∉ (ordersOf ls).map (·.orderId) := fun hm' =>
            hdisj _ hmem _ hm' rfl
          have hne : o.orderId ≠ t.orderId := fun he =>
            hfresh (List.mem_append_left _ (he ▸ hmem))
          rw [hother₂ _ hne hnot, hfilled₁ o ho]
        · exact hfilled₂ o ho
      · intro x hxt hxs
        rw [ordersOf_cons, List.map_append, List.mem_append, not_or] at hxs
        rw [Outstanding.recordAll_append, hother₂ x hxt hxs.2, hother₁ x hxt hxs.1]
    · -- the first level keeps some orders, and trading stops there
      simp only [Prod.mk.injEq] at h
      obtain ⟨rfl, rfl, rfl, rfl⟩ := h
      refine ⟨hfit₁, ht₁, fun o ho => ?_, hfilled₁, fun x hxt hxs => ?_⟩
      · rcases List.mem_append.1 ho with ho | ho
        · exact hrest₁ o ho
        · exact hos₂ o ho
      · rw [ordersOf_cons, List.map_append, List.mem_append, not_or] at hxs
        exact hother₁ x hxt hxs.1

open Level in
theorem cancel_of_filled_fillSide :
    ∀ {ls rest : List Level} {filled : List Resting} {leaves left : Qty} {evs : List Event},
    t.fillSide ls leaves = (evs, left, rest, filled) → ∀ o ∈ filled, o ∈ ordersOf ls ∧
    ∃ u, .update u ∈ evs ∧ u.kind = .cancel ∧ u.orderId = o.orderId ∧ u.qty = o.qty
  | [], rest, filled, leaves, left, evs, h => by
    simp only [fillSide, Prod.mk.injEq] at h
    obtain ⟨-, -, -, rfl⟩ := h
    exact fun _ h => (by cases h)
  | l :: ls, rest, filled, leaves, left, evs, h => by
    simp only [fillSide] at h
    split at h
    · simp only [Prod.mk.injEq] at h
      obtain ⟨-, -, -, rfl⟩ := h
      exact fun _ h => (by cases h)
    generalize hf : t.fillLevel l.price l.orders leaves = f at h
    obtain ⟨evs₁, left₁, rest₁, filled₁⟩ := f
    have first := cancel_of_filled_fillLevel hf
    split at h
    · generalize hm : t.fillSide ls left₁ = m at h
      obtain ⟨more, leaves', ls', filled'⟩ := m
      simp only [Prod.mk.injEq] at h
      obtain ⟨rfl, -, -, rfl⟩ := h
      intro o ho
      rcases List.mem_append.1 ho with ho | ho
      · obtain ⟨hmem, u, hu, hrest⟩ := first o ho
        exact ⟨List.mem_append_left _ hmem, u, List.mem_append_left _ hu, hrest⟩
      · obtain ⟨hmem, u, hu, hrest⟩ := cancel_of_filled_fillSide hm o ho
        exact ⟨List.mem_append_right _ hmem, u, List.mem_append_right _ hu, hrest⟩
    · simp only [Prod.mk.injEq] at h
      obtain ⟨rfl, -, -, rfl⟩ := h
      intro o ho
      obtain ⟨hmem, hrest⟩ := first o ho
      exact ⟨List.mem_append_left _ hmem, hrest⟩

end Taker

/-! ## What is open is what rests -/

namespace Book

open Level

variable {b b' : Book} {Q : Outstanding} {c : ClientId} {oid : OrderId} {side : Side} {p : Price}
  {q : Qty}

/-- What is open is what rests: each resting order is open with its quantity, and no other id is
open. -/
structure OpenIs (b : Book) (Q : Outstanding) : Prop where
  resting : ∀ o ∈ b.orders, Q o.orderId = some o.qty.toNat
  closed : ∀ x, x ∉ b.orders.map (·.orderId) → Q x = none

theorem orders_create {t : TickerId} {maxOrders maxLevels : Nat}
    (h : Book.create t maxOrders maxLevels = .ok b) : b.orders = [] := by
  simp only [Book.create, bind, Except.bind, pure, Except.pure] at h
  split at h
  · cases h
  · split at h
    · cases h
    · cases h
      rfl

theorem openIs_create {t : TickerId} {maxOrders maxLevels : Nat}
    (h : Book.create t maxOrders maxLevels = .ok b) : b.OpenIs fun _ => none :=
  ⟨fun o ho => (by rw [orders_create h] at ho; cases ho), fun _ _ => rfl⟩

theorem orders_insert {o : Resting} (hw : b.WF) (h : b.insert c oid side p q = .ok (o, b')) :
    b'.orders.Perm (o :: b.orders) ∧ o.orderId = oid ∧ o.qty = q := by
  obtain ⟨-, hv, level, ls₁, pool', hls, -, -, hoid, -, hoq, rfl⟩ := insert_eq_ok h
  obtain ⟨hl, hlp, hr, hperm, -⟩ :=
    levelFor hv (hw.sides side) (hls.imp id fun ⟨hf, _, hlv, hl₁⟩ => ⟨hf, hlv, hl₁⟩)
  exact ⟨orders_withLevels_appendAt hv hr hl hlp hperm, hoid, hoq⟩

/-! ## The events of one call -/

theorem add_events_eq (b : Book) (c : ClientId) (oid : OrderId) (side : Side) (p : Price) (q : Qty) :
    b.rejects oid side p q = true ∧
      (b.add c oid side p q).events = [.response ⟨.invalid, c, b.ticker, oid, side, p, 0, q⟩] ∨
    b.rejects oid side p q = false ∧ ∃ evs leaves rest filled,
      (Taker.mk b.ticker c oid side p).fillSide (b.levels side.opposite) q =
        (evs, leaves, rest, filled) ∧
      ((b.add c oid side p q).events = .response ⟨.accepted, c, b.ticker, oid, side, p, 0, q⟩ :: evs ∨
        ∃ u, u.kind = .add ∧ (b.add c oid side p q).events =
          .response ⟨.accepted, c, b.ticker, oid, side, p, 0, q⟩ :: evs ++ [.update u]) := by
  unfold Book.add
  split
  · exact .inl ⟨‹_›, rfl⟩
  rename_i hrej
  simp only
  generalize hf : (Taker.mk b.ticker c oid side p).fillSide (b.levels side.opposite) q = f
  obtain ⟨evs, leaves, rest, filled⟩ := f
  refine .inr ⟨by simpa using hrej, evs, leaves, rest, filled, rfl, ?_⟩
  simp only
  split
  · exact .inl rfl
  · split
    · exact .inr ⟨_, rfl, rfl⟩
    · exact .inl rfl

theorem mem_add_events_of_fillSide (hrej : b.rejects oid side p q = false) {evs : List Event}
    {leaves : Qty} {rest : List Level} {filled : List Resting}
    (hf : (Taker.mk b.ticker c oid side p).fillSide (b.levels side.opposite) q =
      (evs, leaves, rest, filled)) {e : Event} (he : e ∈ evs) : e ∈ (b.add c oid side p q).events := by
  rcases add_events_eq b c oid side p q with
    ⟨hr, -⟩ | ⟨-, evs', leaves', rest', filled', hf', hev⟩
  · rw [hrej] at hr
    cases hr
  rw [hf] at hf'
  cases hf'
  rcases hev with hev | ⟨u, -, hev⟩ <;> rw [hev]
  · exact List.mem_cons_of_mem _ he
  · exact List.mem_append_left _ (List.mem_cons_of_mem _ he)

theorem cancel_events_eq (b : Book) (c : ClientId) (oid : OrderId) :
    (∃ s pr o, b.find? oid = some (s, pr, o) ∧ o.clientId = c ∧ (b.cancel c oid).2 = b.without s pr o ∧
      ∃ r u, (b.cancel c oid).1 = [.response r, .update u] ∧ r.kind = .canceled ∧
        r.orderId = oid ∧ r.leavesQty = o.qty ∧ u.kind = .cancel ∧ u.orderId = oid ∧ u.qty = o.qty) ∨
    (b.cancel c oid).2 = b ∧ ∃ r, (b.cancel c oid).1 = [.response r] ∧ r.kind = .cancelRejected := by
  unfold Book.cancel
  split
  · rename_i s pr o hfd
    split
    · exact .inl ⟨s, pr, o, hfd, ‹_›, rfl, _, _, rfl, rfl, rfl, rfl, rfl, rfl, rfl⟩
    · exact .inr ⟨rfl, _, rfl, rfl⟩
  · exact .inr ⟨rfl, _, rfl, rfl⟩

/-! ## Answers that fit what is open -/

/-- **Crossing the book answers so that its answers fit what is open**, once the taker is open
with all its quantity: what they leave open is the taker's quantity left and what rests on the
crossed book. -/
theorem OpenIs.cross (hw : b.WF) (ho : b.OpenIs Q) (hv : side.isValid = true)
    (hx : oid ∉ b.orders.map (·.orderId)) {Q₁ : Outstanding} (h₁ : Q₁ oid = openOf q)
    (h₁' : ∀ x, x ≠ oid → Q₁ x = Q x) {evs : List Event} {leaves : Qty} {rest : List Level}
    {filled : List Resting}
    (hf : (Taker.mk b.ticker c oid side p).fillSide (b.levels side.opposite) q =
      (evs, leaves, rest, filled)) (pool : Pool OrderId) :
    Q₁.FitsAll evs ∧ Q₁.recordAll evs oid = openOf leaves ∧
    (∀ o ∈ ({ b.withLevels side.opposite rest with orderSlots := pool } : Book).orders,
      Q₁.recordAll evs o.orderId = some o.qty.toNat) ∧
    (∀ x, x ≠ oid →
      x ∉ ({ b.withLevels side.opposite rest with orderSlots := pool } : Book).orders.map (·.orderId) →
      Q₁.recordAll evs x = none) := by
  have hvo := Side.isValid_opposite hv
  have hnd := ((orders_perm hv).map (·.orderId)).nodup_iff.1 hw.ids
  rw [List.map_append, List.nodup_append] at hnd
  have hbook : ∀ o ∈ b.orders, o.orderId ≠ oid := fun o ho' he =>
    hx (he ▸ List.mem_map_of_mem ho')
  have hos : ∀ o ∈ ordersOf (b.levels side.opposite), Q₁ o.orderId = some o.qty.toNat :=
    fun o ho' => by
      have hmem : o ∈ b.orders := (orders_perm hvo).mem_iff.2 (List.mem_append_left _ ho')
      rw [h₁' _ (hbook o hmem), ho.resting o hmem]
  obtain ⟨hfit, ht, hrest, hfilled, hother⟩ :=
    Taker.open_fillSide (nodup_side hw _) (not_mem_side hx _) h₁ hos hf
  have hids := orders_map_cross hvo hf pool (·.orderId) fun _ => rfl
  have hlev : ∀ s, ({ b.withLevels side.opposite rest with orderSlots := pool } : Book).levels s =
      if s = side.opposite then rest else b.levels s := fun s => by
    rw [levels_setOrderSlots, levels_withLevels hvo]
  refine ⟨hfit, ht, fun o ho' => ?_, fun x hxo hxs => ?_⟩
  · -- an order of the crossed book rests on the taker's side, untouched, or stayed on the other
    have hmem := (orders_perm hv).mem_iff.1 ho'
    rw [hlev, hlev, if_neg (Side.opposite_ne hv).symm, if_pos rfl] at hmem
    rcases List.mem_append.1 hmem with hmem | hmem
    · have hmem' : o ∈ b.orders := (orders_perm hv).mem_iff.2 (List.mem_append_left _ hmem)
      rw [hother _ (hbook o hmem') fun hm => hnd.2.2 _ (List.mem_map_of_mem hmem) _ hm rfl,
        h₁' _ (hbook o hmem'), ho.resting o hmem']
    · exact hrest o hmem
  · -- an id the crossed book lacks was filled, or never rested
    by_cases hxb : x ∈ b.orders.map (·.orderId)
    · rcases List.mem_append.1 (hids.mem_iff.1 hxb) with hxf | hxc
      · obtain ⟨o, hof, rfl⟩ := List.mem_map.1 hxf
        exact hfilled o hof
      · exact absurd hxc hxs
    · have hxo' : x ∉ (ordersOf (b.levels side.opposite)).map (·.orderId) := fun hm => by
        obtain ⟨o, hmem, rfl⟩ := List.mem_map.1 hm
        exact hxb (List.mem_map_of_mem ((orders_perm hvo).mem_iff.2 (List.mem_append_left _ hmem)))
      rw [hother x hxo hxo', h₁' x hxo, ho.closed x hxb]

/-- **A NEW answers so that its answers fit what is open, and leaves open what rests after it.** -/
theorem OpenIs.add (hw : b.WF) (ho : b.OpenIs Q) (h : (b.add c oid side p q).result = .ok b') :
    Q.FitsAll (b.add c oid side p q).events ∧
      b'.OpenIs (Q.recordAll (b.add c oid side p q).events) := by
  unfold Book.add at h ⊢
  by_cases hrej : b.rejects oid side p q = true
  · -- a rejected order: its INVALID changes nothing open, and the book stays
    rw [if_pos hrej] at h ⊢
    cases h
    refine ⟨by simp [Response.Fits], ?_⟩
    simpa [Response.openAfter] using ho
  rw [if_neg hrej] at h ⊢
  have hv := isValid_of_not_rejects hrej
  simp only [rejects, Bool.or_eq_true, beq_iff_eq, not_or] at hrej
  have hq : q ≠ 0 := hrej.1.1.1.1.1
  have hx : oid ∉ b.orders.map (·.orderId) := contains_eq_false_iff.1 (by simpa using hrej.2)
  simp only at h ⊢
  generalize hf : (Taker.mk b.ticker c oid side p).fillSide (b.levels side.opposite) q = f at h ⊢
  obtain ⟨evs, leaves, rest, filled⟩ := f
  simp only at h ⊢
  have hacc : Q.Fits (.response { kind := .accepted, clientId := c, tickerId := b.ticker,
                                  orderId := oid, side, price := p, execQty := 0,
                                  leavesQty := q }) := ho.closed oid hx
  have h₁ : Function.update Q oid (openOf q) oid = openOf q := Function.update_self _ _ _
  obtain ⟨hfit, ht, hres, hclo⟩ := ho.cross hw hv hx h₁
    (fun x hxo => Function.update_of_ne hxo _ _) hf
    (filled.foldl (fun p o => p.vacate o.slot) b.orderSlots)
  have hwc := hw.cross (Side.isValid_opposite hv) hf
  by_cases hl : leaves = 0
  · -- nothing is left to rest: the book is the crossed one
    rw [if_pos hl] at h ⊢
    cases h
    refine ⟨⟨hacc, hfit⟩, hres, fun x hxs => ?_⟩
    by_cases hxo : x = oid
    · subst hxo
      exact ht.trans (by rw [hl, openOf, if_pos rfl])
    · exact hclo x hxo hxs
  rw [if_neg hl] at h ⊢
  generalize hcr : ({ b.withLevels side.opposite rest with
    orderSlots := filled.foldl (fun p o => p.vacate o.slot) b.orderSlots } : Book) = crossed
    at h hres hclo hwc ⊢
  cases hins : crossed.insert c oid side p leaves with
  | error f => rw [hins] at h; cases h
  | ok ob =>
    obtain ⟨o, b''⟩ := ob
    rw [hins] at h
    simp only [Except.ok.injEq] at h ⊢
    subst h
    obtain ⟨hperm, hoid, hoq⟩ := orders_insert hwc hins
    refine ⟨Outstanding.fitsAll_append.2 ⟨⟨hacc, hfit⟩, by simp⟩, fun o' ho' => ?_,
      fun x hxs => ?_⟩
    · rw [Outstanding.recordAll_append]
      rcases List.mem_cons.1 (hperm.mem_iff.1 ho') with rfl | ho'
      · simp only [Outstanding.recordAll_cons, Outstanding.recordAll_nil,
          Outstanding.record_update]
        rw [hoid, hoq]
        exact ht.trans (by rw [openOf, if_neg hl])
      · exact hres o' ho'
    · have hxo : x ≠ oid := fun he =>
        hxs (he ▸ hoid ▸ List.mem_map_of_mem (hperm.mem_iff.2 List.mem_cons_self))
      rw [Outstanding.recordAll_append]
      exact hclo x hxo fun hm => hxs (by
        obtain ⟨o', ho', rfl⟩ := List.mem_map.1 hm
        exact List.mem_map_of_mem (hperm.mem_iff.2 (List.mem_cons_of_mem _ ho')))

/-- **A CANCEL answers so that its answers fit what is open, and leaves open what rests after
it.** -/
theorem OpenIs.cancel (hw : b.WF) (ho : b.OpenIs Q) (c : ClientId) (oid : OrderId) :
    Q.FitsAll (b.cancel c oid).1 ∧ (b.cancel c oid).2.OpenIs (Q.recordAll (b.cancel c oid).1) := by
  rcases cancel_events_eq b c oid with
    ⟨s, pr, o, hfd, -, hb', r, u, he, hr, hrid, hrq, -, -, -⟩ | ⟨hb', r, he, hr⟩ <;> rw [he, hb']
  · -- the order is taken out: its CANCELED closes what was open of it
    obtain ⟨-, horders⟩ := hw.without hfd
    obtain ⟨-, hoid, -⟩ := find?_eq_some hfd
    have hnd := (horders.map (·.orderId)).nodup_iff.1 hw.ids
    rw [List.map_cons, List.nodup_cons, hoid] at hnd
    have hQ := ho.resting o (horders.mem_iff.2 List.mem_cons_self)
    rw [hoid] at hQ
    have hrec : Q.recordAll [.response r, .update u] = Function.update Q oid none := by
      simp [Response.openAfter, hr, hrid]
    refine ⟨by simp [Response.Fits, hr, hrid, hrq, hQ], fun o' ho' => ?_, fun x hxs => ?_⟩
    · have hne : o'.orderId ≠ oid := fun he => hnd.1 (he ▸ List.mem_map_of_mem ho')
      rw [hrec, Function.update_of_ne hne]
      exact ho.resting o' (horders.mem_iff.2 (List.mem_cons_of_mem _ ho'))
    · rw [hrec, Function.update_apply]
      split
      · rfl
      · rename_i hxo
        refine ho.closed x fun hm => hxs ?_
        rcases List.mem_cons.1 ((horders.map (·.orderId)).mem_iff.1 hm) with he | hm
        · exact absurd (he.trans hoid) hxo
        · exact hm
  · -- CANCEL_REJECTED changes nothing open
    refine ⟨by simp [Response.Fits, hr], ?_⟩
    simpa [Response.openAfter, hr] using ho

/-- **The events of a NEW show every trade**: each TRADE right after its FILLEDs, each CANCEL
right after what took its order off the book, and twice what they trade executed. -/
theorem tradesShown_add (b : Book) (c : ClientId) (oid : OrderId) (side : Side) (p : Price)
    (q : Qty) : Event.TradesShown (b.add c oid side p q).events := by
  rcases add_events_eq b c oid side p q with ⟨-, he⟩ | ⟨-, evs, leaves, rest, filled, hf, hev⟩
  · rw [he]
    exact Event.tradesShown_response (by simp)
  have hhead : Event.TradesShown (.response ⟨.accepted, c, b.ticker, oid, side, p, 0, q⟩ :: evs) :=
    (Event.tradesShown_response (by simp)).append
      (Taker.fillSide_events Event.tradesShown_nil (fun _ _ => .append)
        (Event.tradesShown_tradeEvents _) hf)
  rcases hev with he | ⟨u, hu, he⟩ <;> rw [he]
  · exact hhead
  · exact hhead.append (Event.tradesShown_update (by rw [hu]; decide) (by rw [hu]; decide))

/-- **The events of a CANCEL show every trade**: they trade nothing, and their CANCEL update comes
right after the order's CANCELED. -/
theorem tradesShown_cancel (b : Book) (c : ClientId) (oid : OrderId) :
    Event.TradesShown (b.cancel c oid).1 := by
  rcases cancel_events_eq b c oid with
    ⟨s, pr, o, -, -, -, r, u, he, hr, hrid, hrq, hu, huid, huq⟩ | ⟨-, r, he, hr⟩ <;> rw [he]
  · refine ⟨.snoc (Event.preceded_response r) fun hk => ?_,
      .snoc (Event.preceded_response r) fun _ => ⟨[], _, rfl, .inl ⟨r, rfl, hr, ?_, ?_⟩⟩, ?_⟩
    · rw [hu] at hk; cases hk
    · rw [hrid, huid]
    · rw [hrq, huq]
    · simp [Event.filledQty, Event.tradedQty, hr, hu]
  · exact Event.tradesShown_response (by rw [hr]; decide)

/-! ## Orders leave the book by a CANCEL update -/

/-- **An order leaves the book in a NEW only by a CANCEL update** carrying the quantity it had:
the NEW filled it completely. -/
theorem cancel_of_leaves_add (hw : b.WF) (h : (b.add c oid side p q).result = .ok b')
    {o : Resting} (ho : o ∈ b.orders) (hgone : o.orderId ∉ b'.orders.map (·.orderId)) :
    ∃ u, .update u ∈ (b.add c oid side p q).events ∧ u.kind = .cancel ∧ u.orderId = o.orderId ∧
      u.qty = o.qty := by
  have hfilled : b.rejects oid side p q = false ∧ ∃ evs leaves rest filled,
      (Taker.mk b.ticker c oid side p).fillSide (b.levels side.opposite) q =
        (evs, leaves, rest, filled) ∧ ∃ o' ∈ filled, o'.orderId = o.orderId := by
    unfold Book.add at h
    split at h
    · cases h
      exact absurd (List.mem_map_of_mem ho) hgone
    rename_i hrej
    have hv := isValid_of_not_rejects hrej
    simp only at h
    generalize hf : (Taker.mk b.ticker c oid side p).fillSide (b.levels side.opposite) q = f at h
    obtain ⟨evs, leaves, rest, filled⟩ := f
    refine ⟨by simpa using hrej, evs, leaves, rest, filled, rfl, ?_⟩
    have hids := orders_map_cross (Side.isValid_opposite hv) hf
      (filled.foldl (fun p o => p.vacate o.slot) b.orderSlots) (·.orderId) fun _ => rfl
    have hwc := hw.cross (Side.isValid_opposite hv) hf
    simp only at h
    generalize hcr : ({ b.withLevels side.opposite rest with
      orderSlots := filled.foldl (fun p o => p.vacate o.slot) b.orderSlots } : Book) = crossed
      at h hids hwc
    have hkeep : o.orderId ∉ crossed.orders.map (·.orderId) := by
      split at h
      · cases h
        exact hgone
      · split at h
        · rename_i o'' b'' hins
          cases h
          obtain ⟨hperm, -⟩ := orders_insert hwc hins
          intro hm
          obtain ⟨o₁, ho₁, he⟩ := List.mem_map.1 hm
          exact hgone (he ▸ List.mem_map_of_mem (hperm.mem_iff.2 (List.mem_cons_of_mem _ ho₁)))
        · cases h
    rcases List.mem_append.1 (hids.mem_iff.1 (List.mem_map_of_mem ho)) with hm | hm
    · obtain ⟨o', ho', he⟩ := List.mem_map.1 hm
      exact ⟨o', ho', he⟩
    · exact absurd hm hkeep
  obtain ⟨hrej, evs, leaves, rest, filled, hf, o', ho', hid⟩ := hfilled
  have hnr : ¬ b.rejects oid side p q = true := by rw [hrej]; decide
  have hv := isValid_of_not_rejects hnr
  obtain ⟨hmem, u, hu, hk, huid, huq⟩ := Taker.cancel_of_filled_fillSide hf o' ho'
  have ho'b : o' ∈ b.orders :=
    (orders_perm (Side.isValid_opposite hv)).mem_iff.2 (List.mem_append_left _ hmem)
  obtain rfl : o' = o := List.inj_on_of_nodup_map hw.ids ho'b ho hid
  exact ⟨u, mem_add_events_of_fillSide hrej hf hu, hk, huid, huq⟩

/-- **An order leaves the book in a CANCEL only by a CANCEL update** carrying the quantity it had:
it is the order cancelled. -/
theorem cancel_of_leaves_cancel (hw : b.WF) (c : ClientId) (oid : OrderId) {o : Resting}
    (ho : o ∈ b.orders) (hgone : o.orderId ∉ (b.cancel c oid).2.orders.map (·.orderId)) :
    ∃ u, .update u ∈ (b.cancel c oid).1 ∧ u.kind = .cancel ∧ u.orderId = o.orderId ∧
      u.qty = o.qty := by
  rcases cancel_events_eq b c oid with
    ⟨s, pr, o₀, hfd, -, hb', r, u, he, -, -, -, hk, huid, huq⟩ | ⟨hb', -⟩
  · rw [hb'] at hgone
    obtain ⟨-, horders⟩ := hw.without hfd
    obtain ⟨-, hoid, -⟩ := find?_eq_some hfd
    rcases List.mem_cons.1 (horders.mem_iff.1 ho) with rfl | ho'
    · exact ⟨u, by rw [he]; simp, hk, huid.trans hoid.symm, huq⟩
    · exact absurd (List.mem_map_of_mem ho') hgone
  · rw [hb'] at hgone
    exact absurd (List.mem_map_of_mem ho) hgone

/-! ## What rests, summed -/

/-- The quantity resting on a book. -/
def restingTotal (b : Book) : Nat := (b.orders.map fun o => o.qty.toNat).foldr (· + ·) 0

theorem OpenIs.total_eq (hw : b.WF) (ho : b.OpenIs Q) {S : Finset OrderId}
    (hS : ∀ o ∈ b.orders, o.orderId ∈ S) : Q.total S = b.restingTotal := by
  have hsub : (b.orders.map (·.orderId)).toFinset ⊆ S := fun x hx => by
    obtain ⟨o, ho', rfl⟩ := List.mem_map.1 (List.mem_toFinset.1 hx)
    exact hS o ho'
  have hzero : ∀ x ∈ S, x ∉ (b.orders.map (·.orderId)).toFinset → (Q x).getD 0 = 0 :=
    fun x _ hx => by rw [ho.closed x fun hm => hx (List.mem_toFinset.2 hm)]; rfl
  unfold Outstanding.total restingTotal
  rw [← Finset.sum_subset hsub hzero, List.sum_toFinset _ hw.ids, List.map_map, List.sum_eq_foldr]
  congr 1
  exact List.map_congr_left fun o ho' => by simp [ho.resting o ho']

/-- **What rests changes by what a call accepts, less what it fills and cancels**, when its
answers fit what was open and what they leave open is what rests after it. -/
theorem restingTotal_call (hw : b.WF) (hw' : b'.WF) (ho : b.OpenIs Q) {evs : List Event}
    (hf : Q.FitsAll evs) (ho' : b'.OpenIs (Q.recordAll evs)) :
    b'.restingTotal + Event.sumOf Event.filledQty evs +
        Event.sumOf (Event.leavesOf .canceled) evs =
      b.restingTotal + Event.sumOf (Event.leavesOf .accepted) evs := by
  -- sum over every id that rests before or after, or that an answer names
  let S : Finset OrderId :=
    (b.orders.map (·.orderId) ++ b'.orders.map (·.orderId) ++ evs.filterMap Event.answerId?).toFinset
  have hS : ∀ e ∈ evs, ∀ x, e.answerId? = some x → x ∈ S := fun e he x hx =>
    List.mem_toFinset.2 (List.mem_append_right _ (List.mem_filterMap.2 ⟨e, he, hx⟩))
  have h := Outstanding.total_recordAll hS hf
  rw [ho.total_eq hw fun o ho => List.mem_toFinset.2
      (List.mem_append_left _ (List.mem_append_left _ (List.mem_map_of_mem ho))),
    ho'.total_eq hw' fun o ho => List.mem_toFinset.2
      (List.mem_append_left _ (List.mem_append_right _ (List.mem_map_of_mem ho)))] at h
  exact h

/-! ## Runs of NEWs and CANCELs -/

/-- The events a book has sent since its creation, over NEWs and CANCELs, and the book it holds
after them. -/
inductive History : Book → List Event → Prop
  | create {t : TickerId} {maxOrders maxLevels : Nat} {b : Book} :
      Book.create t maxOrders maxLevels = .ok b → History b []
  | add {b b' : Book} {evs : List Event} (c : ClientId) (oid : OrderId) (side : Side) (p : Price)
      (q : Qty) : History b evs → (b.add c oid side p q).result = .ok b' →
      History b' (evs ++ (b.add c oid side p q).events)
  | cancel {b : Book} {evs : List Event} (c : ClientId) (oid : OrderId) :
      History b evs → History (b.cancel c oid).2 (evs ++ (b.cancel c oid).1)

/-- What every history keeps: the book is well formed, every answer fits what the answers before
it left open, what they leave open is what rests, the events show every trade, and the quantity
accepted is twice the quantity traded, plus the quantity cancelled, plus what rests. -/
structure Kept (b : Book) (evs : List Event) : Prop where
  wf : b.WF
  fits : Outstanding.FitsAll (fun _ => none) evs
  open_eq : b.OpenIs (Outstanding.recordAll (fun _ => none) evs)
  shown : Event.TradesShown evs
  total : Event.sumOf (Event.leavesOf .accepted) evs =
    2 * Event.sumOf Event.tradedQty evs + Event.sumOf (Event.leavesOf .canceled) evs +
      b.restingTotal

theorem Kept.call (hk : Kept b evs) {evs' : List Event} (hw' : b'.WF)
    (hf : (Outstanding.recordAll (fun _ => none) evs).FitsAll evs')
    (ho' : b'.OpenIs ((Outstanding.recordAll (fun _ => none) evs).recordAll evs'))
    (hs : Event.TradesShown evs') : Kept b' (evs ++ evs') := by
  have hsum := restingTotal_call hk.wf hw' hk.open_eq hf ho'
  have htot := hk.total
  have hexec := hs.executed
  refine ⟨hw', Outstanding.fitsAll_append.2 ⟨hk.fits, hf⟩,
    by rw [Outstanding.recordAll_append]; exact ho', hk.shown.append hs, ?_⟩
  simp only [Event.sumOf_append]
  omega

theorem History.kept (h : History b evs) : Kept b evs := by
  induction h with
  | create hc =>
    refine ⟨wf_create hc, trivial, openIs_create hc, Event.tradesShown_nil, ?_⟩
    simp [restingTotal, orders_create hc]
  | add c oid side p q _ ha ih =>
    obtain ⟨hf, ho'⟩ := ih.open_eq.add ih.wf ha
    exact ih.call (ih.wf.add ha) hf ho' (tradesShown_add _ c oid side p q)
  | cancel c oid _ ih =>
    obtain ⟨hf, ho'⟩ := ih.open_eq.cancel ih.wf c oid
    exact ih.call (ih.wf.cancel c oid) hf ho' (tradesShown_cancel _ c oid)

/-- **The answers of a book keep a fill ledger that balances.** Over any NEWs and CANCELs from an
empty book, the account of each resting order, kept since its last ACCEPTED, accepted what its
FILLEDs executed plus what rests of it, and was never cancelled; the account of any other order
accepted what it filled plus the leaves of its CANCELED. Each FILLED leaves what its order
accepted less all its FILLEDs so far, this one included. Each TRADE comes right after the FILLEDs
of its two sides, each executing the traded quantity. From the book reached, the next NEW or
CANCEL takes an order off the book only with a CANCEL update carrying what it had, and every
CANCEL update comes right after its order's CANCELED or after its last FILLED, leaving nothing,
and that trade's TRADE. Summed over the run, the quantity accepted is twice the quantity traded,
plus the quantity cancelled, plus what rests. -/
theorem History.fill_ledger_balances (hh : History b evs) :
    (∀ o ∈ b.orders, ∃ a, Ledger.of evs o.orderId = some a ∧
      a.accepted = a.filled + o.qty.toNat ∧ a.canceled = 0) ∧
    (∀ x a, x ∉ b.orders.map (·.orderId) → Ledger.of evs x = some a →
      a.accepted = a.filled + a.canceled) ∧
    (∀ pre r post, evs = pre ++ .response r :: post → r.kind = .filled →
      ∃ a, Ledger.of pre r.orderId = some a ∧
        a.filled + r.execQty.toNat + r.leavesQty.toNat = a.accepted) ∧
    Event.TradesPaired evs ∧ Event.CancelsExplained evs ∧
    (∀ c oid side p q b', (b.add c oid side p q).result = .ok b' → ∀ o ∈ b.orders,
      o.orderId ∉ b'.orders.map (·.orderId) → ∃ u, .update u ∈ (b.add c oid side p q).events ∧
        u.kind = .cancel ∧ u.orderId = o.orderId ∧ u.qty = o.qty) ∧
    (∀ c oid, ∀ o ∈ b.orders, o.orderId ∉ (b.cancel c oid).2.orders.map (·.orderId) →
      ∃ u, .update u ∈ (b.cancel c oid).1 ∧ u.kind = .cancel ∧ u.orderId = o.orderId ∧
        u.qty = o.qty) ∧
    Event.sumOf (Event.leavesOf .accepted) evs =
      2 * Event.sumOf Event.tradedQty evs + Event.sumOf (Event.leavesOf .canceled) evs +
        b.restingTotal := by
  have hk := hh.kept
  have hb := balanced_empty.recordAll hk.fits
  refine ⟨fun o ho => hb.open_eq _ _ (hk.open_eq.resting o ho),
    fun x a hx ha => hb.closed_eq x a (hk.open_eq.closed x hx) ha, fun pre r post he hr => ?_,
    hk.shown.paired, hk.shown.cancels,
    fun c oid side p q b' ha o ho hgone => cancel_of_leaves_add hk.wf ha ho hgone,
    fun c oid o ho hgone => cancel_of_leaves_cancel hk.wf c oid ho hgone, hk.total⟩
  have hfits := hk.fits
  rw [he, Outstanding.fitsAll_append] at hfits
  exact (balanced_empty.recordAll hfits.1).filled hfits.2.1 hr

/-- A sell of 2 rests on an empty book and a buy of 1 takes half of it: the seller's account,
kept from its ACCEPTED of 2, has filled 1 with 1 resting. -/
theorem partial_fill_keeps_seller_account :
    ∃ evs, History ⟨0, [], [⟨100, [⟨1, 1, 1, 1, 0⟩]⟩], ⟨#[some 1, none, none, none], 1, 1⟩, 4⟩ evs ∧
      ∃ a, Ledger.of evs 1 = some a ∧ a.accepted = a.filled + 1 ∧ a.canceled = 0 := by
  have h₀ : Book.create 0 4 4 = .ok ⟨0, [], [], ⟨#[none, none, none, none], 0, 0⟩, 4⟩ := rfl
  have hr : History ⟨0, [], [⟨100, [⟨1, 1, 1, 1, 0⟩]⟩], ⟨#[some 1, none, none, none], 1, 1⟩, 4⟩ _ :=
    .add 2 2 .buy 100 1 (.add 1 1 .sell 100 2 (.create h₀) rfl) rfl
  exact ⟨_, hr, hr.fill_ledger_balances.1 ⟨1, 1, 1, 1, 0⟩ (by decide)⟩

end Book

end Exchange
