import Exchange.Trading.OrderManager
import Exchange.Proofs.Ring

/-!
# One request in flight per slot

What an order manager sends. A move sends nothing, or one request for its slot (`Moved`): a NEW
from an empty or dead slot at a valid price, after the risk check allowed the order in that same
call, carrying the next order id and leaving the slot waiting for it; or a CANCEL of a live
slot's order when the price moves, leaving the slot waiting for it. Handling a response sends
nothing.

A run (`Run`) is any sequence of moves, responses handled and reads of the request ring; its log
records each request with the slot it was sent for, and each response. Along every run, the
requests carry the participant's id, the NEWs carry the order ids 1, 2, 3, … in turn, and between
two requests for one slot the manager handled a response that settled the first
(`Response.Settles`): its own, for that ticker and side and the order the first request named,
and ACCEPTED, CANCELED, or FILLED with nothing left. The main statement is
`sends_one_request_per_slot`.
-/

namespace Exchange

/-! ## Answers to a slot -/

namespace Slot

variable {s : Slot} {r : Response}

@[simp] theorem orderId_answer : (s.answer r).orderId = s.orderId := by
  unfold answer; split <;> rfl

theorem isPending_answer (hp : s.state.isPending = false) : (s.answer r).state.isPending = false := by
  unfold answer
  split
  · rfl
  · rfl
  · split
    · rfl
    · exact hp
  · exact hp

theorem settled_of_answer (hp : s.state.isPending = true) (h : (s.answer r).state.isPending = false) :
    r.kind = .accepted ∨ r.kind = .canceled ∨ r.kind = .filled ∧ r.leavesQty = 0 := by
  unfold answer at h
  split at h
  · rename_i hk; exact .inl hk
  · rename_i hk; exact .inr (.inl hk)
  · rename_i hk
    split at h
    · rename_i hq; exact .inr (.inr ⟨hk, hq⟩)
    · rw [hp] at h; cases h
  · rw [hp] at h; cases h

end Slot

/-- A response for participant `c` about the order `oid` of the slot of ticker `t` and `side` that
takes the slot out of waiting: ACCEPTED, CANCELED, or FILLED with nothing left. -/
def Response.Settles (r : Response) (c : ClientId) (t : TickerId) (side : Side) (oid : OrderId) :
    Prop :=
  r.clientId = c ∧ r.tickerId = t ∧ r.side = side ∧ r.orderId = oid ∧
    (r.kind = .accepted ∨ r.kind = .canceled ∨ r.kind = .filled ∧ r.leavesQty = 0)

namespace OrderManager

variable {om om' : OrderManager} {t t' : TickerId} {side side' : Side} {s s' : Slot}

/-! ## Slots -/

@[simp] theorem clientId_setSlot : (om.setSlot t side s).clientId = om.clientId := by
  unfold setSlot; split <;> rfl

@[simp] theorem requests_setSlot : (om.setSlot t side s).requests = om.requests := by
  unfold setSlot; split <;> rfl

@[simp] theorem nextOrderId_setSlot : (om.setSlot t side s).nextOrderId = om.nextOrderId := by
  unfold setSlot; split <;> rfl

theorem lt_size_of_slot? (h : om.slot? t side = some s) : t.toNat < om.slots.size := by
  unfold slot? at h
  split at h
  · rename_i p _ hp; exact (Array.getElem?_eq_some_iff.1 hp).1
  · rename_i p _ hp; exact (Array.getElem?_eq_some_iff.1 hp).1
  · cases h

theorem slot?_setSlot_self (h : om.slot? t side = some s) :
    (om.setSlot t side s').slot? t side = some s' := by
  have hlt := lt_size_of_slot? h
  have hp : om.slots[t.toNat]? = some om.slots[t.toNat] := Array.getElem?_eq_getElem hlt
  cases side <;> simp_all [slot?, setSlot, Array.set!_eq_setIfInBounds]

theorem slot?_setSlot_of_ne (h : (t', side') ≠ (t, side)) :
    (om.setSlot t side s').slot? t' side' = om.slot? t' side' := by
  cases hp : om.slots[t.toNat]? with
  | none => cases side <;> simp [setSlot, hp]
  | some p =>
    have hlt : t.toNat < om.slots.size := (Array.getElem?_eq_some_iff.1 hp).1
    by_cases ht : t' = t
    · subst ht
      cases side <;> cases side' <;> simp_all [slot?, setSlot, Array.set!_eq_setIfInBounds]
    · have hne : t.toNat ≠ t'.toNat := fun e => ht (UInt32.toNat_inj.1 e.symm)
      cases side <;> simp [slot?, setSlot, hp, Array.set!_eq_setIfInBounds, hne]

/-! ## What one call sends -/

theorem sendNew_eq {price : Price} {qty : Qty} (h : om.sendNew t price side qty = .ok om') :
    om.nextOrderId ≠ noOrder ∧ ∃ rq, om.requests.push
      { kind := .new, clientId := om.clientId, tickerId := t, orderId := om.nextOrderId, side, price,
        qty } = .ok rq ∧
      om' = ({ om with nextOrderId := om.nextOrderId + 1, requests := rq } : OrderManager).setSlot t
        side { tickerId := t, orderId := om.nextOrderId, side, price, qty, state := .pendingNew } := by
  simp only [sendNew, bind, Except.bind, pure, Except.pure, throw, throwThe, MonadExceptOf.throw] at h
  split at h
  · cases h
  · rename_i hmax
    split at h
    · cases h
    · rename_i rq hrq
      cases h
      exact ⟨hmax, rq, hrq, rfl⟩

theorem sendCancel_eq (h : om.sendCancel t side s = .ok om') :
    ∃ rq, om.requests.push
      { kind := .cancel, clientId := om.clientId, tickerId := s.tickerId, orderId := s.orderId,
        side := s.side, price := s.price, qty := s.qty } = .ok rq ∧
      om' = { om.setSlot t side { s with state := .pendingCancel } with requests := rq } := by
  simp only [sendCancel, bind, Except.bind, pure, Except.pure] at h
  split at h
  · cases h
  · rename_i rq hrq
    cases h
    exact ⟨rq, by simpa using hrq, rfl⟩

/-- What one move does: it sends nothing and changes nothing; or it sends a NEW with the next
order id from an empty or dead slot, at a valid price the risk check allowed, and leaves the slot
waiting for it; or it sends a CANCEL of a live slot's order whose price is not the one asked, and
leaves the slot waiting for it. No other slot changes. -/
inductive Moved (om : OrderManager) (check : TickerId → Side → Qty → Except Fault Verdict)
    (t : TickerId) (price : Price) (side : Side) (qty : Qty) : OrderManager → List Request → Prop
  | idle : Moved om check t price side qty om []
  | new {om' : OrderManager} {s : Slot} :
      om.slot? t side = some s → (s.state = .invalid ∨ s.state = .dead) → price ≠ noPrice →
      check t side qty = .ok .allowed →
      om'.nextOrderId.toNat = om.nextOrderId.toNat + 1 →
      om'.slot? t side =
        some { tickerId := t, orderId := om.nextOrderId, side, price, qty, state := .pendingNew } →
      (∀ t' side', (t', side') ≠ (t, side) → om'.slot? t' side' = om.slot? t' side') →
      Moved om check t price side qty om'
        [{ kind := .new, clientId := om.clientId, tickerId := t, orderId := om.nextOrderId, side,
           price, qty }]
  | cancel {om' : OrderManager} {s : Slot} :
      om.slot? t side = some s → s.state = .live → s.price ≠ price →
      om'.nextOrderId = om.nextOrderId →
      om'.slot? t side = some { s with state := .pendingCancel } →
      (∀ t' side', (t', side') ≠ (t, side) → om'.slot? t' side' = om.slot? t' side') →
      Moved om check t price side qty om'
        [{ kind := .cancel, clientId := om.clientId, tickerId := s.tickerId, orderId := s.orderId,
           side := s.side, price := s.price, qty := s.qty }]

theorem toNat_add_one_of_ne_noOrder {a : OrderId} (h : a ≠ noOrder) : (a + 1).toNat = a.toNat + 1 := by
  have hlt := UInt64.toNat_lt a
  have hne : a.toNat ≠ 18446744073709551615 := fun e => h (UInt64.toNat_inj.1 (by rw [e]; rfl))
  rw [UInt64.toNat_add, UInt64.toNat_one, Nat.mod_eq_of_lt (by omega)]

/-- **The step law of a move**: it appends what `Moved` allows to the request ring. -/
theorem moveWith_moved {check : TickerId → Side → Qty → Except Fault Verdict} {price : Price}
    {qty : Qty} (hw : om.requests.WF) (h : om.moveWith check t price side qty = .ok om') :
    ∃ sent, Moved om check t price side qty om' sent ∧ om'.requests.WF ∧
      om'.requests.toList = om.requests.toList ++ sent ∧ om'.clientId = om.clientId := by
  unfold moveWith at h
  split at h
  · cases h; exact ⟨[], .idle, hw, by simp, rfl⟩
  · rename_i s hs
    split at h
    · -- a live slot: a CANCEL when the price moves
      rename_i hlive
      split at h
      · rename_i hne
        obtain ⟨rq, hrq, rfl⟩ := sendCancel_eq h
        obtain ⟨hw', hl⟩ := hw.push hrq
        exact ⟨_, .cancel hs hlive hne (by simp) (slot?_setSlot_self hs)
          (fun t' side' hk => slot?_setSlot_of_ne hk), hw', hl, by simp⟩
      · cases h; exact ⟨[], .idle, hw, by simp, rfl⟩
    any_goals (cases h; exact ⟨[], .idle, hw, by simp, rfl⟩)
    all_goals
      rename_i hst
      have hstate : s.state = .invalid ∨ s.state = .dead := by simp [hst]
      split at h
      · cases h; exact ⟨[], .idle, hw, by simp, rfl⟩
      · rename_i hprice
        simp only [bind, Except.bind, pure, Except.pure] at h
        split at h
        · cases h
        · rename_i verdict hcheck
          split at h
          · obtain ⟨hmax, rq, hrq, rfl⟩ := sendNew_eq h
            obtain ⟨hw', hl⟩ := hw.push hrq
            exact ⟨_, .new hs hstate hprice hcheck
              (by simpa using toNat_add_one_of_ne_noOrder hmax) (slot?_setSlot_self hs)
              (fun t' side' hk => slot?_setSlot_of_ne hk), by simpa using hw', by simpa using hl,
              by simp⟩
          · cases h; exact ⟨[], .idle, hw, by simp, rfl⟩

@[simp] theorem requests_onResponse (r : Response) : (om.onResponse r).requests = om.requests := by
  unfold onResponse
  split
  · rfl
  · split
    · rfl
    · split
      · rfl
      · simp

@[simp] theorem clientId_onResponse (r : Response) : (om.onResponse r).clientId = om.clientId := by
  unfold onResponse
  split
  · rfl
  · split
    · rfl
    · split
      · rfl
      · simp

@[simp] theorem nextOrderId_onResponse (r : Response) :
    (om.onResponse r).nextOrderId = om.nextOrderId := by
  unfold onResponse
  split
  · rfl
  · split
    · rfl
    · split
      · rfl
      · simp

theorem onResponse_cases (r : Response) :
    om.onResponse r = om ∨ ∃ s, r.clientId = om.clientId ∧ om.slot? r.tickerId r.side = some s ∧
      s.orderId = r.orderId ∧ om.onResponse r = om.setSlot r.tickerId r.side (s.answer r) := by
  unfold onResponse
  split
  · exact .inl rfl
  · rename_i hc
    split
    · exact .inl rfl
    · rename_i s hs
      split
      · exact .inl rfl
      · rename_i ho
        exact .inr ⟨s, not_not.1 hc, hs, not_not.1 ho, rfl⟩

/-! ## Runs -/

/-- What a run of an order manager logs: a request sent for the slot of a ticker and side, or a
response handled. -/
inductive Entry where
  | sent (t : TickerId) (side : Side) (q : Request)
  | handled (r : Response)

/-- The order id of a NEW that the entry sends. -/
def Entry.newId? : Entry → Option OrderId
  | .sent _ _ q => if q.kind = .new then some q.orderId else none
  | .handled _ => none

@[simp] theorem Entry.newId?_handled (r : Response) : (Entry.handled r).newId? = none := rfl

/-- The managers a run of calls leads to from `om₀`, with the run's log. A move logs the requests
it appends to the ring, a response is logged as handled, and a read takes the oldest request off
the ring. Moving both orders of a ticker is a move of the bid, then one of the ask
(`Run.moveBoth`). -/
inductive Run (om₀ : OrderManager) : OrderManager → List Entry → Prop
  | start : Run om₀ om₀ []
  | move {om om' : OrderManager} {log : List Entry} {sent : List Request}
      (check : TickerId → Side → Qty → Except Fault Verdict) (t : TickerId) (price : Price)
      (side : Side) (qty : Qty) :
      Run om₀ om log → om.moveWith check t price side qty = .ok om' →
      om'.requests.toList = om.requests.toList ++ sent → Run om₀ om' (log ++ sent.map (.sent t side))
  | update {om : OrderManager} {log : List Entry} (r : Response) :
      Run om₀ om log → Run om₀ (om.onResponse r) (log ++ [.handled r])
  | pop {om : OrderManager} {log : List Entry} :
      Run om₀ om log → Run om₀ { om with requests := om.requests.pop.2 } log

/-- What a run keeps, for the manager of participant `c`. -/
structure Inv (c : ClientId) (om : OrderManager) (log : List Entry) : Prop where
  ring : om.requests.WF
  client : om.clientId = c
  /-- The NEWs sent carry the order ids `1, 2, …`, and the next id follows them. -/
  ids : (log.filterMap Entry.newId?).map UInt64.toNat = List.range' 1 (om.nextOrderId.toNat - 1) ∧
    1 ≤ om.nextOrderId.toNat
  owned : ∀ t side q, Entry.sent t side q ∈ log → q.clientId = c
  /-- A request sent for a slot was settled by a later response, or it is the slot's last and the
  slot waits for it. -/
  slots : ∀ {t : TickerId} {side : Side} {s : Slot}, om.slot? t side = some s →
    ∀ {i : Nat} {q : Request}, log[i]? = some (.sent t side q) →
    (∃ k r, i < k ∧ log[k]? = some (.handled r) ∧ r.Settles c t side q.orderId) ∨
      (s.state.isPending = true ∧ q.orderId = s.orderId ∧
        ∀ (j : Nat) (q' : Request), i < j → log[j]? ≠ some (.sent t side q'))
  /-- Between two requests for a slot, a response settled the first. -/
  between : ∀ {i j : Nat} {t : TickerId} {side : Side} {q q' : Request}, i < j →
    log[i]? = some (.sent t side q) →
    log[j]? = some (.sent t side q') →
    ∃ k r, i < k ∧ k < j ∧ log[k]? = some (.handled r) ∧ r.Settles c t side q.orderId

theorem getElem?_snoc {log : List Entry} {e x : Entry} {i : Nat} (h : (log ++ [e])[i]? = some x) :
    (i < log.length ∧ log[i]? = some x) ∨ (i = log.length ∧ e = x) := by
  rcases Nat.lt_or_ge i log.length with hi | hi
  · exact .inl ⟨hi, by rwa [List.getElem?_append_left hi] at h⟩
  · rw [List.getElem?_append_right hi] at h
    obtain ⟨hlt, he⟩ := List.getElem?_eq_some_iff.1 h
    simp only [List.length_singleton] at hlt
    exact .inr ⟨by omega, by simpa [show i - log.length = 0 by omega] using he⟩

theorem getElem?_snoc_of_lt {log : List Entry} {e : Entry} {i : Nat} (h : i < log.length) :
    (log ++ [e])[i]? = log[i]? :=
  List.getElem?_append_left h

theorem lt_length_of_getElem? {log : List Entry} {i : Nat} {x : Entry} (h : log[i]? = some x) :
    i < log.length :=
  (List.getElem?_eq_some_iff.1 h).1

variable {c : ClientId} {log : List Entry}

theorem settled_snoc {e : Entry} {i : Nat} {t : TickerId} {side : Side} {oid : OrderId}
    (h : ∃ k r, i < k ∧ log[k]? = some (.handled r) ∧ r.Settles c t side oid) :
    ∃ k r, i < k ∧ (log ++ [e])[k]? = some (.handled r) ∧ r.Settles c t side oid := by
  obtain ⟨k, r, hik, hk, hr⟩ := h
  exact ⟨k, r, hik, by rw [getElem?_snoc_of_lt (lt_length_of_getElem? hk)]; exact hk, hr⟩

theorem inv_create {T cap : Nat} (h : OrderManager.create c T cap = .ok om) : Inv c om [] := by
  simp only [OrderManager.create, bind, Except.bind, pure, Except.pure] at h
  split at h
  · cases h
  · rename_i rq hrq
    cases h
    refine ⟨Ring.wf_create hrq, rfl, ⟨rfl, Nat.le_refl 1⟩, by simp,
      fun {_ _ _} _ {_ _} h => by simp at h, fun {_ _ _ _ _ _} _ h => by simp at h⟩

/-- **Sending one request** for a slot that was not waiting, and leaving it waiting for that
request with every other slot as it was, keeps the invariant. -/
theorem Inv.send (hi : Inv c om log) {q : Request} {s s' : Slot} (hw : om'.requests.WF)
    (hc : om'.clientId = om.clientId) (hq : q.clientId = c)
    (hids : ((log ++ [Entry.sent t side q]).filterMap Entry.newId?).map UInt64.toNat =
      List.range' 1 (om'.nextOrderId.toNat - 1) ∧ 1 ≤ om'.nextOrderId.toNat)
    (hs : om.slot? t side = some s) (hfree : s.state.isPending = false)
    (hs' : om'.slot? t side = some s') (hwait : s'.state.isPending = true)
    (hid : q.orderId = s'.orderId)
    (hother : ∀ t' side', (t', side') ≠ (t, side) → om'.slot? t' side' = om.slot? t' side') :
    Inv c om' (log ++ [.sent t side q]) := by
  -- the earlier requests for the slot were all settled, since it was not waiting
  have hsettled : ∀ {i : Nat} {q₁ : Request}, log[i]? = some (.sent t side q₁) →
      ∃ k r, i < k ∧ log[k]? = some (.handled r) ∧ r.Settles c t side q₁.orderId := by
    intro i q₁ h₁
    rcases hi.slots hs h₁ with h | ⟨hp, -⟩
    · exact h
    · rw [hp] at hfree; cases hfree
  refine ⟨hw, hc.trans hi.client, hids, fun t₁ side₁ q₁ hq₁ => ?_, fun {t₁ side₁ s₁} hs₁ {i q₁} h₁ => ?_,
    fun {i j t₁ side₁ q₁ q₂} hij h₁ h₂ => ?_⟩
  · rcases List.mem_append.1 hq₁ with hq₁ | hq₁
    · exact hi.owned _ _ _ hq₁
    · cases List.mem_singleton.1 hq₁; exact hq
  · rcases getElem?_snoc h₁ with ⟨hlt, hold⟩ | ⟨rfl, he⟩
    · by_cases hk : (t₁, side₁) = (t, side)
      · -- an earlier request for this slot
        obtain ⟨rfl, rfl⟩ := Prod.mk.inj hk
        exact .inl (settled_snoc (hsettled hold))
      · -- a request for another slot, which the send left alone
        rw [hother _ _ hk] at hs₁
        rcases hi.slots hs₁ hold with h | ⟨hp, hid₁, hlast⟩
        · exact .inl (settled_snoc h)
        · refine .inr ⟨hp, hid₁, fun j q' hij hj => ?_⟩
          rcases getElem?_snoc hj with ⟨-, hj⟩ | ⟨-, he⟩
          · exact hlast j q' hij hj
          · cases he; exact hk rfl
    · -- the request just sent
      cases he
      rw [hs'] at hs₁
      cases hs₁
      refine .inr ⟨hwait, hid, fun j q' hij hj => ?_⟩
      have := lt_length_of_getElem? hj
      simp only [List.length_append, List.length_singleton] at this
      omega
  · rcases getElem?_snoc h₂ with ⟨hj, h₂⟩ | ⟨rfl, he⟩
    · have h₁' : log[i]? = some (.sent t₁ side₁ q₁) := by rwa [getElem?_snoc_of_lt (by omega)] at h₁
      obtain ⟨k, r, hik, hkj, hk, hr⟩ := hi.between hij h₁' h₂
      exact ⟨k, r, hik, hkj, by rw [getElem?_snoc_of_lt (by omega)]; exact hk, hr⟩
    · cases he
      rw [getElem?_snoc_of_lt hij] at h₁
      obtain ⟨k, r, hik, hk, hr⟩ := hsettled h₁
      exact ⟨k, r, hik, lt_length_of_getElem? hk, by rw [getElem?_snoc_of_lt (lt_length_of_getElem? hk)]; exact hk, hr⟩

theorem Inv.move (hi : Inv c om log) {check : TickerId → Side → Qty → Except Fault Verdict}
    {price : Price} {qty : Qty} {sent : List Request}
    (h : om.moveWith check t price side qty = .ok om')
    (hsent : om'.requests.toList = om.requests.toList ++ sent) :
    Inv c om' (log ++ sent.map (.sent t side)) := by
  obtain ⟨sent', hm, hw', hl', hc'⟩ := moveWith_moved hi.ring h
  obtain rfl : sent = sent' := List.append_cancel_left (hsent.symm.trans hl')
  cases hm with
  | idle => simpa using hi
  | new hs hstate hprice hcheck hnext hslot hother =>
    have hn := hi.ids.2
    refine hi.send hw' hc' hi.client ⟨?_, by omega⟩ hs (by rcases hstate with h | h <;> rw [h] <;> rfl)
      hslot rfl rfl hother
    rw [List.filterMap_append, List.map_append, hi.ids.1, hnext]
    simp only [List.filterMap_cons, List.filterMap_nil, Entry.newId?, if_pos, List.map_cons,
      List.map_nil]
    rw [show om.nextOrderId.toNat + 1 - 1 = (om.nextOrderId.toNat - 1) + 1 by omega,
      List.range'_concat]
    congr 2
    omega
  | cancel hs hlive hprice hnext hslot hother =>
    refine hi.send hw' hc' hi.client ⟨?_, by rw [hnext]; exact hi.ids.2⟩ hs (by rw [hlive]; rfl) hslot
      rfl rfl hother
    simp [Entry.newId?, hnext, hi.ids.1]

theorem Inv.update (hi : Inv c om log) (r : Response) : Inv c (om.onResponse r) (log ++ [.handled r]) := by
  refine ⟨by simpa using hi.ring, by simpa using hi.client, by simpa [List.filterMap_cons] using hi.ids,
    fun t₁ side₁ q₁ hq₁ => ?_, fun {t₁ side₁ s₁} hs₁ {i q₁} h₁ => ?_,
    fun {i j t₁ side₁ q₁ q₂} hij h₁ h₂ => ?_⟩
  · rcases List.mem_append.1 hq₁ with hq₁ | hq₁
    · exact hi.owned _ _ _ hq₁
    · cases List.mem_singleton.1 hq₁
  · rcases getElem?_snoc h₁ with ⟨hlt, hold⟩ | ⟨-, he⟩
    · -- nothing was sent since; the slot either did not change, or it took the answer
      have hlast : ∀ (s₀ : Slot), (∀ (j : Nat) (q' : Request), i < j →
          log[j]? ≠ some (.sent t₁ side₁ q')) →
          ∀ (j : Nat) (q' : Request), i < j → (log ++ [.handled r])[j]? ≠ some (.sent t₁ side₁ q') := by
        intro s₀ hl j q' hij hj
        rcases getElem?_snoc hj with ⟨-, hj⟩ | ⟨-, he⟩
        · exact hl j q' hij hj
        · cases he
      rcases @onResponse_cases om r with he | ⟨s, hc, hs, hid, he⟩
      · rw [he] at hs₁
        rcases hi.slots hs₁ hold with h | ⟨hp, hid₁, hl⟩
        · exact .inl (settled_snoc h)
        · exact .inr ⟨hp, hid₁, hlast s₁ hl⟩
      · rw [he] at hs₁
        by_cases hk : (t₁, side₁) = (r.tickerId, r.side)
        · obtain ⟨rfl, rfl⟩ := Prod.mk.inj hk
          rw [slot?_setSlot_self hs] at hs₁
          cases hs₁
          rcases hi.slots hs hold with h | ⟨hp, hid₁, hl⟩
          · exact .inl (settled_snoc h)
          · cases hw : (s.answer r).state.isPending
            · -- the answer settled the request
              refine .inl ⟨log.length, r, hlt, List.getElem?_concat_length, ?_⟩
              exact ⟨hc.trans hi.client, rfl, rfl, by rw [hid₁, hid], Slot.settled_of_answer hp hw⟩
            · exact .inr ⟨rfl, by rw [Slot.orderId_answer]; exact hid₁, hlast s hl⟩
        · rw [slot?_setSlot_of_ne hk] at hs₁
          rcases hi.slots hs₁ hold with h | ⟨hp, hid₁, hl⟩
          · exact .inl (settled_snoc h)
          · exact .inr ⟨hp, hid₁, hlast s₁ hl⟩
    · cases he
  · rcases getElem?_snoc h₂ with ⟨hj, h₂⟩ | ⟨-, he⟩
    · have h₁' : log[i]? = some (.sent t₁ side₁ q₁) := by rwa [getElem?_snoc_of_lt (by omega)] at h₁
      obtain ⟨k, r', hik, hkj, hk, hr⟩ := hi.between hij h₁' h₂
      exact ⟨k, r', hik, hkj, by rw [getElem?_snoc_of_lt (by omega)]; exact hk, hr⟩
    · cases he

theorem Inv.pop (hi : Inv c om log) : Inv c { om with requests := om.requests.pop.2 } log :=
  ⟨hi.ring.pop.1, hi.client, hi.ids, hi.owned, hi.slots, hi.between⟩

theorem Run.inv {om₀ : OrderManager} (h₀ : Inv c om₀ []) (h : Run om₀ om log) : Inv c om log := by
  induction h with
  | start => exact h₀
  | move check t price side qty _ hm hsent ih => exact ih.move hm hsent
  | update r _ ih => exact ih.update r
  | pop _ ih => exact ih.pop

theorem Run.moveBoth {om₀ : OrderManager} (h : Run om₀ om log) (hw : om.requests.WF)
    {check : TickerId → Side → Qty → Except Fault Verdict} {bid ask : Price} {clip : Qty}
    (hm : om.moveBothWith check t bid ask clip = .ok om') :
    ∃ sent₁ sent₂, om'.requests.toList = om.requests.toList ++ sent₁ ++ sent₂ ∧
      Run om₀ om' (log ++ sent₁.map (.sent t .buy) ++ sent₂.map (.sent t .sell)) := by
  simp only [moveBothWith, bind, Except.bind] at hm
  split at hm
  · cases hm
  · rename_i om₁ h₁
    obtain ⟨sent₁, -, hw₁, hl₁, -⟩ := moveWith_moved hw h₁
    obtain ⟨sent₂, -, -, hl₂, -⟩ := moveWith_moved hw₁ hm
    exact ⟨sent₁, sent₂, by rw [hl₂, hl₁], .move check t ask .sell clip (.move check t bid .buy clip h h₁ hl₁)
      hm hl₂⟩

/-- **One request in flight per slot, and every NEW past the risk check.** For the order manager
of participant `c`, along any run of moves (under any risk checks), responses and reads of its
request ring:

* each move sends nothing, a NEW or a CANCEL, as `Moved` says: a NEW only from an empty or dead
  slot, at a valid price, when the check allowed it in that call, with the next order id, leaving
  the slot waiting for it with that id, price and quantity; a CANCEL only of a live slot's order,
  at another price, with the slot's id, side and price, leaving the slot waiting for it;
* handling a response sends nothing;
* every request carries `c`, and the NEWs carry the order ids 1, 2, 3, … in turn;
* between two requests for one slot, the manager handled a response that settled the first: for
  `c`, that ticker and side and the first request's order, ACCEPTED, CANCELED, or FILLED with
  nothing left. -/
theorem sends_one_request_per_slot {c : ClientId} {T cap : Nat} {om₀ : OrderManager}
    (h₀ : OrderManager.create c T cap = .ok om₀) :
    (∀ {om om' : OrderManager} {log : List Entry}
        {check : TickerId → Side → Qty → Except Fault Verdict} {t : TickerId} {price : Price}
        {side : Side} {qty : Qty}, Run om₀ om log → om.moveWith check t price side qty = .ok om' →
      om.clientId = c ∧ ∃ sent, om'.requests.toList = om.requests.toList ++ sent ∧
        Moved om check t price side qty om' sent) ∧
    (∀ {om : OrderManager} (r : Response), (om.onResponse r).requests = om.requests) ∧
    (∀ {om : OrderManager} {log : List Entry}, Run om₀ om log →
      (∀ t side q, Entry.sent t side q ∈ log → q.clientId = c) ∧
      (log.filterMap Entry.newId?).map UInt64.toNat =
        List.range' 1 (log.filterMap Entry.newId?).length ∧
      ∀ {i j : Nat} {t : TickerId} {side : Side} {q q' : Request}, i < j →
        log[i]? = some (.sent t side q) → log[j]? = some (.sent t side q') →
        ∃ k r, i < k ∧ k < j ∧ log[k]? = some (.handled r) ∧ r.Settles c t side q.orderId) := by
  have hinv : ∀ {om : OrderManager} {log : List Entry}, Run om₀ om log → Inv c om log :=
    fun h => h.inv (inv_create h₀)
  refine ⟨fun h hm => ?_, fun r => requests_onResponse r, fun h => ?_⟩
  · obtain ⟨sent, hmoved, -, hl, -⟩ := moveWith_moved (hinv h).ring hm
    exact ⟨(hinv h).client, sent, hl, hmoved⟩
  · have hi := hinv h
    have hlen := congrArg List.length hi.ids.1
    rw [List.length_map, List.length_range'] at hlen
    exact ⟨hi.owned, by rw [hi.ids.1, hlen], hi.between⟩

/-- The law holds for participant 3 with two tickers and a ring of four requests. -/
theorem sends_one_request_per_slot_of_two_tickers :
    ∃ om₀ : OrderManager, OrderManager.create 3 2 4 = .ok om₀ ∧
    (∀ {om om' : OrderManager} {log : List Entry}
        {check : TickerId → Side → Qty → Except Fault Verdict} {t : TickerId} {price : Price}
        {side : Side} {qty : Qty}, Run om₀ om log → om.moveWith check t price side qty = .ok om' →
      om.clientId = 3 ∧ ∃ sent, om'.requests.toList = om.requests.toList ++ sent ∧
        Moved om check t price side qty om' sent) ∧
    (∀ {om : OrderManager} (r : Response), (om.onResponse r).requests = om.requests) ∧
    (∀ {om : OrderManager} {log : List Entry}, Run om₀ om log →
      (∀ t side q, Entry.sent t side q ∈ log → q.clientId = 3) ∧
      (log.filterMap Entry.newId?).map UInt64.toNat =
        List.range' 1 (log.filterMap Entry.newId?).length ∧
      ∀ {i j : Nat} {t : TickerId} {side : Side} {q q' : Request}, i < j →
        log[i]? = some (.sent t side q) → log[j]? = some (.sent t side q') →
        ∃ k r, i < k ∧ k < j ∧ log[k]? = some (.handled r) ∧ r.Settles 3 t side q.orderId) :=
  ⟨_, rfl, @sends_one_request_per_slot 3 2 4 _ rfl⟩

end OrderManager

end Exchange
