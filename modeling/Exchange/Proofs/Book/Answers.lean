import Exchange.Proofs.Book.Invariant

/-!
# What the answers of a book tell the owner of an order

Each answer a book sends about an order says what is left of it: ACCEPTED, that it stands at its
price with all its quantity; a FILLED, what is left after a trade, nothing meaning gone; CANCELED,
that it is gone. `Response.track` reads one answer so, and `Event.trackAll` reads, among the
events of a book, the answers to one client about one of its orders on one ticker and side.

`Book.holding b c side oid` is that order as the book holds it: its price and quantity left, if
it rests on `side` as an order of client `c`. The main statements, `Book.track_add` and
`Book.track_cancel`: reading the answers of a NEW or a CANCEL from what the book held before gives
what it holds after, for every client, side and order id. Answers therefore reach the right
client, name the right side, and carry the quantity that rests. Who is answered at all is
`Book.answer_add` and `Book.answer_cancel`: the caller about its own request, or the owner of a
resting order about that order.
-/

namespace Exchange

/-! ## Reading answers -/

/-- What an answer about an order tells its owner of its price and quantity left. -/
def Response.track (r : Response) (k : Option (Price × Qty)) : Option (Price × Qty) :=
  match r.kind with
  | .accepted => some (r.price, r.leavesQty)
  | .filled => if r.leavesQty = 0 then none else k.map fun (p, _) => (p, r.leavesQty)
  | .canceled => none
  | _ => k

/-- Whether an answer goes to client `c` about its order `oid` on ticker `t` and `side`. -/
def Response.About (r : Response) (c : ClientId) (t : TickerId) (side : Side) (oid : OrderId) :
    Prop :=
  r.clientId = c ∧ r.tickerId = t ∧ r.side = side ∧ r.orderId = oid

instance (r : Response) (c : ClientId) (t : TickerId) (side : Side) (oid : OrderId) :
    Decidable (r.About c t side oid) :=
  inferInstanceAs (Decidable (_ ∧ _))

namespace Event

/-- Reads one event for client `c`'s order `oid` on ticker `t` and `side`: an answer about it
updates what `c` knows, anything else leaves it. -/
def track (c : ClientId) (t : TickerId) (side : Side) (oid : OrderId) (k : Option (Price × Qty)) :
    Event → Option (Price × Qty)
  | .response r => if r.About c t side oid then r.track k else k
  | .update _ => k

/-- Reads events in order for client `c`'s order `oid` on ticker `t` and `side`. -/
def trackAll (c : ClientId) (t : TickerId) (side : Side) (oid : OrderId) (k : Option (Price × Qty))
    (evs : List Event) : Option (Price × Qty) :=
  evs.foldl (track c t side oid) k

variable {c : ClientId} {t : TickerId} {side : Side} {oid : OrderId} {k : Option (Price × Qty)}
  {evs evs' : List Event}

@[simp] theorem trackAll_nil : trackAll c t side oid k [] = k := rfl

theorem trackAll_cons (e : Event) :
    trackAll c t side oid k (e :: evs) = trackAll c t side oid (e.track c t side oid k) evs := rfl

theorem trackAll_append :
    trackAll c t side oid k (evs ++ evs') = trackAll c t side oid (trackAll c t side oid k evs) evs' :=
  List.foldl_append

theorem trackAll_append_update (u : Update) :
    trackAll c t side oid k (evs ++ [.update u]) = trackAll c t side oid k evs := by
  rw [trackAll_append]
  rfl

theorem trackAll_of_forall (h : ∀ r, .response r ∈ evs → ¬ r.About c t side oid) :
    trackAll c t side oid k evs = k := by
  induction evs generalizing k with
  | nil => rfl
  | cons e evs ih =>
    rw [trackAll_cons, ih fun r hr => h r (List.mem_cons_of_mem _ hr)]
    cases e with
    | response r => simp [track, h r List.mem_cons_self]
    | update u => rfl

theorem trackAll_none (h : ∀ r, .response r ∈ evs → r.About c t side oid → r.kind ≠ .accepted) :
    trackAll c t side oid none evs = none := by
  induction evs with
  | nil => rfl
  | cons e evs ih =>
    rw [trackAll_cons]
    have he : e.track c t side oid none = none := by
      cases e with
      | update u => rfl
      | response r =>
        show (if r.About c t side oid then r.track none else none) = none
        split
        · rename_i ha
          have hk := h r List.mem_cons_self ha
          unfold Response.track
          split
          · contradiction
          · split <;> rfl
          · rfl
          · rfl
        · rfl
    rw [he]
    exact ih fun r hr => h r (List.mem_cons_of_mem _ hr)

end Event

/-! ## What a book holds -/

namespace Book

open Level

/-- Client `c`'s order `oid` in the queue of a level at price `p`: its price and quantity. -/
def holdingAt (c : ClientId) (oid : OrderId) (p : Price) (os : List Resting) :
    Option (Price × Qty) :=
  match os.find? (·.orderId == oid) with
  | some o => if o.clientId = c then some (p, o.qty) else none
  | none => none

/-- Client `c`'s order `oid` among the levels of one side, at the first level that has the id. -/
def holdingIn (c : ClientId) (oid : OrderId) : List Level → Option (Price × Qty)
  | [] => none
  | l :: ls => if oid ∈ l.orders.map (·.orderId) then holdingAt c oid l.price l.orders
    else holdingIn c oid ls

/-- Client `c`'s order `oid` as it rests on one side of the book: its price and quantity left. -/
def holding (b : Book) (c : ClientId) (side : Side) (oid : OrderId) : Option (Price × Qty) :=
  holdingIn c oid (b.levels side)

variable {c : ClientId} {oid : OrderId} {p : Price} {o : Resting} {os : List Resting}
  {l : Level} {ls : List Level}

@[simp] theorem holdingAt_nil : holdingAt c oid p [] = none := rfl

theorem holdingAt_of_not_mem (h : oid ∉ os.map (·.orderId)) : holdingAt c oid p os = none := by
  have hf : os.find? (·.orderId == oid) = none :=
    List.find?_eq_none.2 fun o ho he => h (List.mem_map.2 ⟨o, ho, by simpa using he⟩)
  simp [holdingAt, hf]

theorem holdingAt_cons_self : holdingAt c o.orderId p (o :: os) =
    if o.clientId = c then some (p, o.qty) else none := by
  simp [holdingAt]

theorem holdingAt_cons_setQty (q : Qty) : holdingAt c o.orderId p ({ o with qty := q } :: os) =
    if o.clientId = c then some (p, q) else none := by
  simp [holdingAt]

theorem holdingAt_cons_of_ne (h : o.orderId ≠ oid) :
    holdingAt c oid p (o :: os) = holdingAt c oid p os := by
  simp [holdingAt, h]

theorem holdingIn_of_not_mem (h : oid ∉ (ordersOf ls).map (·.orderId)) : holdingIn c oid ls = none := by
  induction ls with
  | nil => rfl
  | cons l ls ih =>
    rw [ordersOf_cons, List.map_append, List.mem_append, not_or] at h
    simp only [holdingIn, if_neg h.1, ih h.2]

theorem holdingIn_cons_of_mem (h : oid ∈ l.orders.map (·.orderId)) :
    holdingIn c oid (l :: ls) = holdingAt c oid l.price l.orders := if_pos h

theorem holdingIn_cons_of_not_mem (h : oid ∉ l.orders.map (·.orderId)) :
    holdingIn c oid (l :: ls) = holdingIn c oid ls := if_neg h

theorem holdingAt_of_mem (hnd : (os.map (·.orderId)).Nodup) (ho : o ∈ os) :
    holdingAt c o.orderId p os = if o.clientId = c then some (p, o.qty) else none := by
  induction os with
  | nil => cases ho
  | cons o' os ih =>
    rw [List.map_cons, List.nodup_cons] at hnd
    rcases List.mem_cons.1 ho with rfl | ho
    · exact holdingAt_cons_self
    · have hne : o'.orderId ≠ o.orderId := fun he => hnd.1 (he ▸ List.mem_map_of_mem ho)
      rw [holdingAt_cons_of_ne hne, ih hnd.2 ho]

theorem holdingIn_of_mem (hnd : ((ordersOf ls).map (·.orderId)).Nodup) (hl : l ∈ ls)
    (ho : o ∈ l.orders) :
    holdingIn c o.orderId ls = if o.clientId = c then some (l.price, o.qty) else none := by
  induction ls with
  | nil => cases hl
  | cons l' ls ih =>
    rw [ordersOf_cons, List.map_append, List.nodup_append] at hnd
    rcases List.mem_cons.1 hl with rfl | hl
    · rw [holdingIn_cons_of_mem (List.mem_map_of_mem ho)]
      exact holdingAt_of_mem hnd.1 ho
    · have hin : o.orderId ∈ (ordersOf ls).map (·.orderId) :=
        List.mem_map_of_mem (mem_ordersOf.2 ⟨l, hl, ho⟩)
      rw [holdingIn_cons_of_not_mem fun h => hnd.2.2 _ h _ hin rfl]
      exact ih hnd.2.1 hl

theorem holding_of_not_mem {b : Book} (h : oid ∉ b.orders.map (·.orderId)) (side : Side) :
    b.holding c side oid = none := by
  refine holdingIn_of_not_mem fun hm => h ?_
  cases side with
  | buy =>
    simp only [orders, List.map_append, List.mem_append]
    exact .inl hm
  | sell =>
    simp only [orders, List.map_append, List.mem_append]
    exact .inr hm
  | invalid => cases hm

theorem holdingAt_append_of_ne (h : o.orderId ≠ oid) :
    holdingAt c oid p (os ++ [o]) = holdingAt c oid p os := by
  simp [holdingAt, List.find?_append, h]

theorem holdingAt_filter_of_ne {x : OrderId} (h : oid ≠ x) :
    holdingAt c oid p (os.filter (·.orderId != x)) = holdingAt c oid p os := by
  induction os with
  | nil => rfl
  | cons o os ih =>
    by_cases ho : o.orderId = oid
    · subst ho
      rw [List.filter_cons_of_pos (by simpa using h), holdingAt_cons_self, holdingAt_cons_self]
    · rw [holdingAt_cons_of_ne ho, ← ih]
      by_cases hx : o.orderId = x
      · rw [List.filter_cons_of_neg (by simpa using hx)]
      · rw [List.filter_cons_of_pos (by simpa using hx), holdingAt_cons_of_ne ho]

theorem holdingIn_appendAt_of_ne (h : o.orderId ≠ oid) :
    ∀ ls : List Level, holdingIn c oid (appendAt p o ls) = holdingIn c oid ls
  | [] => rfl
  | l :: ls => by
    rw [appendAt_cons]
    split
    · have hmem : oid ∈ (l.orders ++ [o]).map (·.orderId) ↔ oid ∈ l.orders.map (·.orderId) := by
        simp [Ne.symm h]
      by_cases hl : oid ∈ l.orders.map (·.orderId)
      · have hl' : oid ∈ ({ l with orders := l.orders ++ [o] } : Level).orders.map (·.orderId) :=
          hmem.2 hl
        rw [holdingIn_cons_of_mem hl', holdingIn_cons_of_mem hl]
        exact holdingAt_append_of_ne h
      · have hl' : oid ∉ ({ l with orders := l.orders ++ [o] } : Level).orders.map (·.orderId) :=
          fun h' => hl (hmem.1 h')
        rw [holdingIn_cons_of_not_mem hl', holdingIn_cons_of_not_mem hl, holdingIn_appendAt_of_ne h ls]
    · by_cases hl : oid ∈ l.orders.map (·.orderId)
      · rw [holdingIn_cons_of_mem hl, holdingIn_cons_of_mem hl]
      · rw [holdingIn_cons_of_not_mem hl, holdingIn_cons_of_not_mem hl, holdingIn_appendAt_of_ne h ls]

theorem holdingIn_appendAt_self : ∀ {ls : List Level}, o.orderId ∉ (ordersOf ls).map (·.orderId) →
    (∃ l ∈ ls, l.price = p) →
    holdingIn c o.orderId (appendAt p o ls) = if o.clientId = c then some (p, o.qty) else none
  | [], _, ⟨_, hl, _⟩ => by cases hl
  | l :: ls, hn, ⟨m, hm, hmp⟩ => by
    rw [ordersOf_cons, List.map_append, List.mem_append, not_or] at hn
    rw [appendAt_cons]
    split
    · rename_i hp
      have hl' : o.orderId ∈ ({ l with orders := l.orders ++ [o] } : Level).orders.map (·.orderId) := by
        simp
      rw [holdingIn_cons_of_mem hl']
      have hf : (l.orders ++ [o]).find? (·.orderId == o.orderId) = some o := by
        rw [List.find?_append, List.find?_eq_none.2 fun o' ho' he =>
          hn.1 (List.mem_map.2 ⟨o', ho', by simpa using he⟩)]
        simp
      simp only [holdingAt, hf, hp]
    · rename_i hp
      have hm' : m ∈ ls := (List.mem_cons.1 hm).resolve_left fun he => hp (he ▸ hmp)
      rw [holdingIn_cons_of_not_mem hn.1]
      exact holdingIn_appendAt_self hn.2 ⟨m, hm', hmp⟩

theorem holdingIn_placeLevel_nil (side : Side) (p : Price) :
    ∀ ls : List Level, holdingIn c oid (placeLevel side ⟨p, []⟩ ls) = holdingIn c oid ls
  | [] => rfl
  | m :: ms => by
    unfold placeLevel
    split
    · exact holdingIn_cons_of_not_mem (by simp)
    · by_cases hm : oid ∈ m.orders.map (·.orderId)
      · rw [holdingIn_cons_of_mem hm, holdingIn_cons_of_mem hm]
      · rw [holdingIn_cons_of_not_mem hm, holdingIn_cons_of_not_mem hm, holdingIn_placeLevel_nil side p ms]

theorem holdingIn_dropFrom_of_ne {x : OrderId} (h : oid ≠ x) :
    ∀ ls : List Level, holdingIn c oid (dropFrom p x ls) = holdingIn c oid ls
  | [] => rfl
  | l :: ls => by
    rw [dropFrom_cons]
    have hmem : oid ∈ (l.orders.filter (·.orderId != x)).map (·.orderId) ↔
        oid ∈ l.orders.map (·.orderId) := by
      simp only [List.mem_map, List.mem_filter, bne_iff_ne, ne_eq]
      exact ⟨fun ⟨o, ⟨ho, _⟩, he⟩ => ⟨o, ho, he⟩, fun ⟨o, ho, he⟩ => ⟨o, ⟨ho, he ▸ h⟩, he⟩⟩
    split
    · split
      · -- the level empties: it held only `x`, so not `oid`
        rename_i he
        have hl : oid ∉ l.orders.map (·.orderId) := by
          intro hl
          have hkept := hmem.2 hl
          rw [List.isEmpty_iff.1 he] at hkept
          simp at hkept
        rw [holdingIn_cons_of_not_mem hl]
      · by_cases hl : oid ∈ l.orders.map (·.orderId)
        · have hl' : oid ∈ ({ l with orders := l.orders.filter (·.orderId != x) } : Level).orders.map
              (·.orderId) := hmem.2 hl
          rw [holdingIn_cons_of_mem hl', holdingIn_cons_of_mem hl]
          exact holdingAt_filter_of_ne h
        · have hl' : oid ∉ ({ l with orders := l.orders.filter (·.orderId != x) } : Level).orders.map
              (·.orderId) := fun h' => hl (hmem.1 h')
          rw [holdingIn_cons_of_not_mem hl', holdingIn_cons_of_not_mem hl]
    · by_cases hl : oid ∈ l.orders.map (·.orderId)
      · rw [holdingIn_cons_of_mem hl, holdingIn_cons_of_mem hl]
      · rw [holdingIn_cons_of_not_mem hl, holdingIn_cons_of_not_mem hl, holdingIn_dropFrom_of_ne h ls]

end Book

/-! ## Trading answers each resting order's owner -/

namespace Taker

open Level

variable {t : Taker} {price : Price} {o : Resting} {fill left : Qty} {r : Response}
  {c : ClientId} {oid : OrderId} {k : Option (Price × Qty)}

theorem answer_tradeEvents (h : .response r ∈ t.tradeEvents price o fill left) :
    ((r.clientId = t.clientId ∧ r.orderId = t.orderId ∧ r.side = t.side) ∨
      (r.clientId = o.clientId ∧ r.orderId = o.orderId ∧ r.side = t.side.opposite)) ∧
      r.tickerId = t.ticker ∧ r.kind = .filled := by
  simp only [tradeEvents, List.mem_cons, List.mem_nil_iff, or_false] at h
  rcases h with h | h | h | h
  · cases h; exact ⟨.inl ⟨rfl, rfl, rfl⟩, rfl, rfl⟩
  · cases h; exact ⟨.inr ⟨rfl, rfl, rfl⟩, rfl, rfl⟩
  · cases h
  · split at h <;> cases h

theorem track_tradeUpdate (cond : Prop) [Decidable cond] (u v : Update) (c : ClientId)
    (t : TickerId) (side : Side) (oid : OrderId) (k : Option (Price × Qty)) :
    Event.track c t side oid k (if cond then .update u else .update v) = k := by
  split <;> rfl

theorem trackAll_tradeEvents_opposite (hv : t.side.isValid = true) :
    Event.trackAll c t.ticker t.side.opposite oid k (t.tradeEvents price o fill left) =
      if o.clientId = c ∧ o.orderId = oid then
        (if o.qty - fill = 0 then none else k.map fun (p, _) => (p, o.qty - fill))
      else k := by
  have hne : t.side ≠ t.side.opposite := (Side.opposite_ne hv).symm
  simp only [tradeEvents, Event.trackAll, List.foldl_cons, List.foldl_nil, track_tradeUpdate]
  simp only [Event.track, Response.About, hne, false_and, and_false, if_false, true_and]
  by_cases ho : o.clientId = c ∧ o.orderId = oid
  · obtain ⟨rfl, rfl⟩ := ho
    simp [Response.track]
  · simp only [if_neg ho]

theorem trackAll_tradeEvents_self (hv : t.side.isValid = true) :
    Event.trackAll t.clientId t.ticker t.side t.orderId k (t.tradeEvents price o fill left) =
      if left = 0 then none else k.map fun (p, _) => (p, left) := by
  have hne : t.side.opposite ≠ t.side := Side.opposite_ne hv
  simp only [tradeEvents, Event.trackAll, List.foldl_cons, List.foldl_nil, track_tradeUpdate]
  simp [Event.track, Response.About, hne, Response.track]

theorem answer_fillLevel : ∀ {os rest filled : List Resting} {leaves left : Qty} {evs : List Event},
    t.fillLevel price os leaves = (evs, left, rest, filled) → .response r ∈ evs →
    ((r.clientId = t.clientId ∧ r.orderId = t.orderId ∧ r.side = t.side) ∨
      ∃ o ∈ os, r.clientId = o.clientId ∧ r.orderId = o.orderId ∧ r.side = t.side.opposite) ∧
      r.tickerId = t.ticker ∧ r.kind = .filled
  | [], rest, filled, leaves, left, evs, h, hr => by
    simp only [fillLevel, Prod.mk.injEq] at h
    obtain ⟨rfl, -⟩ := h
    cases hr
  | o :: os, rest, filled, leaves, left, evs, h, hr => by
    simp only [fillLevel] at h
    split at h
    · simp only [Prod.mk.injEq] at h
      obtain ⟨rfl, -⟩ := h
      cases hr
    · -- one trade with the head of the queue, then possibly more with the rest
      have head : .response r ∈ t.tradeEvents price o (min leaves o.qty) (leaves - min leaves o.qty) →
          ((r.clientId = t.clientId ∧ r.orderId = t.orderId ∧ r.side = t.side) ∨
            ∃ o' ∈ o :: os, r.clientId = o'.clientId ∧ r.orderId = o'.orderId ∧
              r.side = t.side.opposite) ∧ r.tickerId = t.ticker ∧ r.kind = .filled := fun hr => by
        obtain ⟨hr | hr, htk⟩ := answer_tradeEvents hr
        · exact ⟨.inl hr, htk⟩
        · exact ⟨.inr ⟨o, List.mem_cons_self, hr⟩, htk⟩
      split at h
      · generalize hm : t.fillLevel price os (leaves - min leaves o.qty) = m at h
        obtain ⟨more, leaves', rest', filled'⟩ := m
        simp only [Prod.mk.injEq] at h
        obtain ⟨rfl, -⟩ := h
        rcases List.mem_append.1 hr with hr | hr
        · exact head hr
        · obtain ⟨hr | ⟨o', ho', hr⟩, htk⟩ := answer_fillLevel hm hr
          · exact ⟨.inl hr, htk⟩
          · exact ⟨.inr ⟨o', List.mem_cons_of_mem _ ho', hr⟩, htk⟩
      · simp only [Prod.mk.injEq] at h
        obtain ⟨rfl, -⟩ := h
        exact head hr

/-- **Trading against a queue tells each resting order's owner what is left of it**: from what a
queue held of an order on the resting side, its answers lead to what the queue holds after. -/
theorem track_fillLevel (hv : t.side.isValid = true) (c : ClientId) (oid : OrderId) :
    ∀ {os rest filled : List Resting} {leaves left : Qty} {evs : List Event},
    (os.map (·.orderId)).Nodup → t.fillLevel price os leaves = (evs, left, rest, filled) →
    Event.trackAll c t.ticker t.side.opposite oid (Book.holdingAt c oid price os) evs =
      Book.holdingAt c oid price rest
  | [], rest, filled, leaves, left, evs, _, h => by
    simp only [fillLevel, Prod.mk.injEq] at h
    obtain ⟨rfl, -, rfl, -⟩ := h
    rfl
  | o :: os, rest, filled, leaves, left, evs, hnd, h => by
    simp only [fillLevel] at h
    rw [List.map_cons, List.nodup_cons] at hnd
    split at h
    · simp only [Prod.mk.injEq] at h
      obtain ⟨rfl, -, rfl, -⟩ := h
      rfl
    · split at h
      · -- the head is filled completely and leaves the queue
        rename_i hfull
        generalize hm : t.fillLevel price os (leaves - min leaves o.qty) = m at h
        obtain ⟨more, leaves', rest', filled'⟩ := m
        simp only [Prod.mk.injEq] at h
        obtain ⟨rfl, -, rfl, -⟩ := h
        rw [Event.trackAll_append, trackAll_tradeEvents_opposite hv]
        by_cases ho : o.orderId = oid
        · -- the head was the order: its owner learns it is gone, and the rest never had it
          subst ho
          have hnil : Book.holdingAt c o.orderId price os = none := Book.holdingAt_of_not_mem hnd.1
          by_cases hc : o.clientId = c
          · rw [if_pos ⟨hc, rfl⟩, if_pos hfull, ← hnil]
            exact track_fillLevel hv c o.orderId hnd.2 hm
          · rw [if_neg fun h => hc h.1, Book.holdingAt_cons_self, if_neg hc, ← hnil]
            exact track_fillLevel hv c o.orderId hnd.2 hm
        · rw [if_neg fun h => ho h.2, Book.holdingAt_cons_of_ne ho]
          exact track_fillLevel hv c oid hnd.2 hm
      · -- the head is filled in part and stays, with what is left
        rename_i hpart
        simp only [Prod.mk.injEq] at h
        obtain ⟨rfl, -, rfl, -⟩ := h
        rw [trackAll_tradeEvents_opposite hv]
        by_cases ho : o.orderId = oid
        · subst ho
          rw [Book.holdingAt_cons_self, Book.holdingAt_cons_setQty]
          by_cases hc : o.clientId = c
          · rw [if_pos ⟨hc, rfl⟩, if_neg hpart, if_pos hc, if_pos hc]
            rfl
          · rw [if_neg fun h => hc h.1, if_neg hc, if_neg hc]
        · have ho' : ({ o with qty := o.qty - min leaves o.qty } : Resting).orderId ≠ oid := ho
          rw [if_neg fun h => ho h.2, Book.holdingAt_cons_of_ne ho, Book.holdingAt_cons_of_ne ho']

theorem ids_fillLevel {os rest filled : List Resting} {leaves left : Qty} {evs : List Event}
    (h : t.fillLevel price os leaves = (evs, left, rest, filled)) :
    os.map (·.orderId) = filled.map (·.orderId) ++ rest.map (·.orderId) := by
  have hmap := congrArg (List.map (·.orderId)) (fillLevel_split h)
  simpa only [List.map_append, List.map_map, Function.comp_def, Resting.orderId_eraseQty] using hmap

theorem fillLevel_zero : ∀ os : List Resting, t.fillLevel price os 0 = ([], 0, os, [])
  | [] => rfl
  | _ :: _ => by simp [fillLevel]

/-- **Trading against a queue tells the taker what is left of its order**, nothing once all of it
traded. -/
theorem trackSelf_fillLevel (hv : t.side.isValid = true) (pr : Price) :
    ∀ {os rest filled : List Resting} {leaves left : Qty} {evs : List Event}, leaves ≠ 0 →
    t.fillLevel price os leaves = (evs, left, rest, filled) →
    Event.trackAll t.clientId t.ticker t.side t.orderId (some (pr, leaves)) evs =
      if left = 0 then none else some (pr, left)
  | [], rest, filled, leaves, left, evs, hl, h => by
    simp only [fillLevel, Prod.mk.injEq] at h
    obtain ⟨rfl, rfl, -⟩ := h
    rw [if_neg hl]
    rfl
  | o :: os, rest, filled, leaves, left, evs, hl, h => by
    simp only [fillLevel, if_neg hl] at h
    split at h
    · generalize hm : t.fillLevel price os (leaves - min leaves o.qty) = m at h
      obtain ⟨more, leaves', rest', filled'⟩ := m
      simp only [Prod.mk.injEq] at h
      obtain ⟨rfl, rfl, -⟩ := h
      rw [Event.trackAll_append, trackAll_tradeEvents_self hv]
      by_cases h0 : leaves - min leaves o.qty = 0
      · -- the taker has nothing left, so the rest of the queue is not reached
        rw [h0, fillLevel_zero] at hm
        simp only [Prod.mk.injEq] at hm
        obtain ⟨rfl, rfl, -⟩ := hm
        simp [h0]
      · rw [if_neg h0]
        exact trackSelf_fillLevel hv pr h0 hm
    · simp only [Prod.mk.injEq] at h
      obtain ⟨rfl, rfl, -⟩ := h
      rw [trackAll_tradeEvents_self hv]
      split <;> rfl

theorem answer_fillSide : ∀ {ls rest : List Level} {filled : List Resting} {leaves left : Qty}
    {evs : List Event}, t.fillSide ls leaves = (evs, left, rest, filled) → .response r ∈ evs →
    ((r.clientId = t.clientId ∧ r.orderId = t.orderId ∧ r.side = t.side) ∨
      ∃ o ∈ ordersOf ls, r.clientId = o.clientId ∧ r.orderId = o.orderId ∧
        r.side = t.side.opposite) ∧ r.tickerId = t.ticker ∧ r.kind = .filled
  | [], rest, filled, leaves, left, evs, h, hr => by
    simp only [fillSide, Prod.mk.injEq] at h
    obtain ⟨rfl, -⟩ := h
    cases hr
  | l :: ls, rest, filled, leaves, left, evs, h, hr => by
    simp only [fillSide] at h
    split at h
    · simp only [Prod.mk.injEq] at h
      obtain ⟨rfl, -⟩ := h
      cases hr
    · generalize hf : t.fillLevel l.price l.orders leaves = f at h
      obtain ⟨evs₁, left₁, rest₁, filled₁⟩ := f
      have first : .response r ∈ evs₁ →
          ((r.clientId = t.clientId ∧ r.orderId = t.orderId ∧ r.side = t.side) ∨
            ∃ o ∈ ordersOf (l :: ls), r.clientId = o.clientId ∧ r.orderId = o.orderId ∧
              r.side = t.side.opposite) ∧ r.tickerId = t.ticker ∧ r.kind = .filled := fun hr => by
        obtain ⟨hr | ⟨o, ho, hr⟩, htk⟩ := answer_fillLevel hf hr
        · exact ⟨.inl hr, htk⟩
        · exact ⟨.inr ⟨o, by rw [ordersOf_cons]; exact List.mem_append_left _ ho, hr⟩, htk⟩
      split at h
      · generalize hm : t.fillSide ls left₁ = m at h
        obtain ⟨more, leaves', ls', filled'⟩ := m
        simp only [Prod.mk.injEq] at h
        obtain ⟨rfl, -⟩ := h
        rcases List.mem_append.1 hr with hr | hr
        · exact first hr
        · obtain ⟨hr | ⟨o, ho, hr⟩, htk⟩ := answer_fillSide hm hr
          · exact ⟨.inl hr, htk⟩
          · exact ⟨.inr ⟨o, by rw [ordersOf_cons]; exact List.mem_append_right _ ho, hr⟩, htk⟩
      · simp only [Prod.mk.injEq] at h
        obtain ⟨rfl, -⟩ := h
        exact first hr

theorem trackAll_fillLevel_of_not_mem (hv : t.side.isValid = true) {c : ClientId} {oid : OrderId}
    {os rest filled : List Resting} {leaves left : Qty} {evs : List Event}
    (h : t.fillLevel price os leaves = (evs, left, rest, filled)) (ho : oid ∉ os.map (·.orderId))
    (k : Option (Price × Qty)) :
    Event.trackAll c t.ticker t.side.opposite oid k evs = k := by
  refine Event.trackAll_of_forall fun r hr ⟨_, _, hs, hid⟩ => ?_
  obtain ⟨⟨-, -, hs'⟩ | ⟨o, hmem, -, hid', -⟩, -⟩ := answer_fillLevel h hr
  · exact Side.opposite_ne hv (hs.symm.trans hs')
  · exact ho (List.mem_map.2 ⟨o, hmem, hid'.symm.trans hid⟩)

/-- **Trading against a side tells each resting order's owner what is left of it**: from what the
side held of an order, its answers lead to what the levels left after trading hold. -/
theorem track_fillSide (hv : t.side.isValid = true) (c : ClientId) (oid : OrderId) :
    ∀ {ls rest : List Level} {filled : List Resting} {leaves left : Qty} {evs : List Event},
    ((ordersOf ls).map (·.orderId)).Nodup → t.fillSide ls leaves = (evs, left, rest, filled) →
    Event.trackAll c t.ticker t.side.opposite oid (Book.holdingIn c oid ls) evs =
      Book.holdingIn c oid rest
  | [], rest, filled, leaves, left, evs, _, h => by
    simp only [fillSide, Prod.mk.injEq] at h
    obtain ⟨rfl, -, rfl, -⟩ := h
    rfl
  | l :: ls, rest, filled, leaves, left, evs, hnd, h => by
    simp only [fillSide] at h
    rw [ordersOf_cons, List.map_append, List.nodup_append] at hnd
    obtain ⟨hnd₁, hnd₂, hdisj⟩ := hnd
    have hout : oid ∈ l.orders.map (·.orderId) → Book.holdingIn c oid ls = none := fun hm =>
      Book.holdingIn_of_not_mem fun hm' => hdisj _ hm _ hm' rfl
    split at h
    · simp only [Prod.mk.injEq] at h
      obtain ⟨rfl, -, rfl, -⟩ := h
      rfl
    · generalize hf : t.fillLevel l.price l.orders leaves = f at h
      obtain ⟨evs₁, left₁, rest₁, filled₁⟩ := f
      have hids := ids_fillLevel hf
      split at h
      · -- the first level empties, and trading goes on with the next ones
        rename_i hnil
        simp only at hnil
        subst hnil
        generalize hm : t.fillSide ls left₁ = m at h
        obtain ⟨more, leaves', ls', filled'⟩ := m
        simp only [Prod.mk.injEq] at h
        obtain ⟨rfl, -, rfl, -⟩ := h
        rw [Event.trackAll_append]
        by_cases hmem : oid ∈ l.orders.map (·.orderId)
        · rw [Book.holdingIn_cons_of_mem hmem, track_fillLevel hv c oid hnd₁ hf, Book.holdingAt_nil,
            ← hout hmem]
          exact track_fillSide hv c oid hnd₂ hm
        · rw [Book.holdingIn_cons_of_not_mem hmem, trackAll_fillLevel_of_not_mem hv hf hmem]
          exact track_fillSide hv c oid hnd₂ hm
      · -- the first level keeps some orders, and trading stops there
        simp only [Prod.mk.injEq] at h
        obtain ⟨rfl, -, rfl, -⟩ := h
        by_cases hmem : oid ∈ l.orders.map (·.orderId)
        · rw [Book.holdingIn_cons_of_mem hmem, track_fillLevel hv c oid hnd₁ hf]
          by_cases hr : oid ∈ rest₁.map (·.orderId)
          · have hr' : oid ∈ ({ l with orders := rest₁ } : Level).orders.map (·.orderId) := hr
            exact (Book.holdingIn_cons_of_mem hr').symm
          · have hr' : oid ∉ ({ l with orders := rest₁ } : Level).orders.map (·.orderId) := hr
            rw [Book.holdingIn_cons_of_not_mem hr', Book.holdingAt_of_not_mem hr, hout hmem]
        · have hr : oid ∉ ({ l with orders := rest₁ } : Level).orders.map (·.orderId) := fun hr =>
            hmem (hids ▸ List.mem_append_right _ hr)
          rw [Book.holdingIn_cons_of_not_mem hmem, trackAll_fillLevel_of_not_mem hv hf hmem,
            Book.holdingIn_cons_of_not_mem hr]

theorem fillSide_zero : ∀ ls : List Level, t.fillSide ls 0 = ([], 0, ls, [])
  | [] => rfl
  | _ :: _ => by simp [fillSide]

/-- **Trading against a side tells the taker what is left of its order**, nothing once all of it
traded. -/
theorem trackSelf_fillSide (hv : t.side.isValid = true) (pr : Price) :
    ∀ {ls rest : List Level} {filled : List Resting} {leaves left : Qty} {evs : List Event},
    leaves ≠ 0 → t.fillSide ls leaves = (evs, left, rest, filled) →
    Event.trackAll t.clientId t.ticker t.side t.orderId (some (pr, leaves)) evs =
      if left = 0 then none else some (pr, left)
  | [], rest, filled, leaves, left, evs, hl, h => by
    simp only [fillSide, Prod.mk.injEq] at h
    obtain ⟨rfl, rfl, -⟩ := h
    rw [if_neg hl]
    rfl
  | l :: ls, rest, filled, leaves, left, evs, hl, h => by
    simp only [fillSide] at h
    split at h
    · simp only [Prod.mk.injEq] at h
      obtain ⟨rfl, rfl, -⟩ := h
      rw [if_neg hl]
      rfl
    · generalize hf : t.fillLevel l.price l.orders leaves = f at h
      obtain ⟨evs₁, left₁, rest₁, filled₁⟩ := f
      have hself := trackSelf_fillLevel hv pr hl hf
      split at h
      · generalize hm : t.fillSide ls left₁ = m at h
        obtain ⟨more, leaves', ls', filled'⟩ := m
        simp only [Prod.mk.injEq] at h
        obtain ⟨rfl, rfl, -⟩ := h
        rw [Event.trackAll_append, hself]
        by_cases h0 : left₁ = 0
        · -- the taker has nothing left, so no further level is reached
          rw [h0, fillSide_zero] at hm
          simp only [Prod.mk.injEq] at hm
          obtain ⟨rfl, rfl, -⟩ := hm
          simp [h0]
        · rw [if_neg h0]
          exact trackSelf_fillSide hv pr h0 hm
      · simp only [Prod.mk.injEq] at h
        obtain ⟨rfl, rfl, -⟩ := h
        exact hself

theorem trackAll_fillSide_of_ne {ls rest : List Level} {filled : List Resting} {leaves left : Qty}
    {evs : List Event} (h : t.fillSide ls leaves = (evs, left, rest, filled)) {c : ClientId}
    {side : Side} {oid : OrderId} (hs : side ≠ t.side.opposite)
    (hself : ¬(c = t.clientId ∧ side = t.side ∧ oid = t.orderId)) (k : Option (Price × Qty)) :
    Event.trackAll c t.ticker side oid k evs = k := by
  refine Event.trackAll_of_forall fun r hr habout => ?_
  obtain ⟨hc, -, hsd, hid⟩ := habout
  obtain ⟨⟨hc', hid', hs'⟩ | ⟨o, -, -, -, hs'⟩, -⟩ := answer_fillSide h hr
  · exact hself ⟨hc.symm.trans hc', hsd.symm.trans hs', hid.symm.trans hid'⟩
  · exact hs (hsd.symm.trans hs')

end Taker

/-! ## A NEW and a CANCEL answer every owner -/

namespace Book

open Level

variable {b b' : Book} {c c' : ClientId} {x oid : OrderId} {side sd : Side} {p : Price} {q : Qty}

theorem nodup_side (hw : b.WF) : ∀ side, ((ordersOf (b.levels side)).map (·.orderId)).Nodup
  | .buy => by
    have h := hw.ids
    rw [orders, List.map_append, List.nodup_append] at h
    exact h.1
  | .sell => by
    have h := hw.ids
    rw [orders, List.map_append, List.nodup_append] at h
    exact h.2.1
  | .invalid => List.nodup_nil

theorem not_mem_side (h : oid ∉ b.orders.map (·.orderId)) :
    ∀ side, oid ∉ (ordersOf (b.levels side)).map (·.orderId)
  | .buy => fun hm => h (by rw [orders, List.map_append]; exact List.mem_append_left _ hm)
  | .sell => fun hm => h (by rw [orders, List.map_append]; exact List.mem_append_right _ hm)
  | .invalid => fun hm => by cases hm

theorem holding_of_find? (hw : b.WF) {pr : Price} {o : Resting} (h : b.find? x = some (side, pr, o))
    (c : ClientId) (sd : Side) :
    b.holding c sd x = if sd = side ∧ o.clientId = c then some (pr, o.qty) else none := by
  obtain ⟨hv, rfl, l, hl, rfl, ho⟩ := find?_eq_some h
  by_cases hsd : sd = side
  · subst hsd
    rw [holding, holdingIn_of_mem (nodup_side hw _) hl ho]
    simp only [true_and]
  · rw [if_neg fun h => hsd h.1]
    refine holdingIn_of_not_mem fun hm => ?_
    have hnd := ((orders_perm hv).map (·.orderId)).nodup_iff.1 hw.ids
    rw [List.map_append, List.nodup_append] at hnd
    refine hnd.2.2 _ (List.mem_map_of_mem (mem_ordersOf.2 ⟨l, hl, ho⟩)) _ ?_ rfl
    cases side <;> cases sd <;> first | exact absurd rfl hsd | exact hm | cases hm | cases hv

theorem find?_of_holding (hw : b.WF) {pr : Price} {q : Qty} (h : b.holding c sd x = some (pr, q)) :
    ∃ o, b.find? x = some (sd, pr, o) ∧ o.clientId = c ∧ o.qty = q := by
  cases hf : b.find? x with
  | none =>
    rw [holding_of_not_mem (contains_eq_false_iff.1 (by simp [contains, hf])) sd] at h
    cases h
  | some e =>
    obtain ⟨s, pr', o⟩ := e
    rw [holding_of_find? hw hf] at h
    split at h
    · rename_i hso
      obtain ⟨rfl, hoc⟩ := hso
      cases h
      exact ⟨o, rfl, hoc, rfl⟩
    · cases h

theorem holding_ne_none_of_mem (hw : b.WF) {o : Resting} (h : o ∈ ordersOf (b.levels sd)) :
    b.holding o.clientId sd o.orderId ≠ none := by
  obtain ⟨l, hl, ho⟩ := mem_ordersOf.1 h
  rw [holding, holdingIn_of_mem (nodup_side hw sd) hl ho, if_pos rfl]
  exact Option.some_ne_none _

theorem holding_cancel_self (hw : b.WF) (c : ClientId) (x : OrderId) (sd : Side) :
    (b.cancel c x).2.holding c sd x = none := by
  unfold cancel
  split
  · rename_i s pr o hfd
    split
    · obtain ⟨-, horders⟩ := hw.without hfd
      obtain ⟨-, hoid, -⟩ := find?_eq_some hfd
      have hnd := (horders.map (·.orderId)).nodup_iff.1 hw.ids
      rw [List.map_cons, List.nodup_cons, hoid] at hnd
      exact holding_of_not_mem hnd.1 sd
    · rename_i hoc
      rw [holding_of_find? hw hfd, if_neg fun h => hoc h.2]
  · rename_i hfd
    exact holding_of_not_mem (contains_eq_false_iff.1 (by simp [contains, hfd])) sd

theorem track_accepted (k : Option (Price × Qty)) :
    Event.track c b.ticker sd oid k
      (.response { kind := .accepted, clientId := c', tickerId := b.ticker, orderId := x, side,
                   price := p, execQty := 0, leavesQty := q }) =
      if c' = c ∧ side = sd ∧ x = oid then some (p, q) else k := by
  simp only [Event.track, Response.About, Response.track, true_and]

/-- **A NEW tells every client what is left of each of its orders**: from what the book held of
any order on any side, the answers of placing a limit order lead to what the book holds after. -/
theorem track_add (hw : b.WF) (h : (b.add c' x side p q).result = .ok b') (c : ClientId)
    (sd : Side) (oid : OrderId) :
    Event.trackAll c b.ticker sd oid (b.holding c sd oid) (b.add c' x side p q).events =
      b'.holding c sd oid := by
  unfold Book.add at h ⊢
  by_cases hrej : b.rejects x side p q = true
  · -- a rejected order: one INVALID answer, which tells nothing, and the book stays
    rw [if_pos hrej] at h ⊢
    cases h
    simp only [Event.trackAll, List.foldl_cons, List.foldl_nil, Event.track, Response.track]
    split <;> rfl
  rw [if_neg hrej] at h ⊢
  have hv := isValid_of_not_rejects hrej
  have hvo := Side.opposite_ne hv
  simp only [rejects, Bool.or_eq_true, beq_iff_eq, not_or] at hrej
  have hq : q ≠ 0 := hrej.1.1.1.1.1
  have hx : x ∉ b.orders.map (·.orderId) := contains_eq_false_iff.1 (by simpa using hrej.2)
  simp only at h ⊢
  generalize hf : (Taker.mk b.ticker c' x side p).fillSide (b.levels side.opposite) q = f at h ⊢
  obtain ⟨evs, leaves, rest, filled⟩ := f
  generalize hcr : ({ b.withLevels side.opposite rest with
    orderSlots := filled.foldl (fun p o => p.vacate o.slot) b.orderSlots } : Book) = crossed at h ⊢
  have hcrossed : ∀ sd, crossed.levels sd = if sd = side.opposite then rest else b.levels sd := by
    intro sd
    rw [← hcr, levels_setOrderSlots, levels_withLevels (Side.isValid_opposite hv)]
  have hopp : Event.trackAll c b.ticker side.opposite oid (b.holding c side.opposite oid)
      (.response { kind := .accepted, clientId := c', tickerId := b.ticker, orderId := x, side,
                   price := p, execQty := 0, leavesQty := q } :: evs) = holdingIn c oid rest := by
    rw [Event.trackAll_cons, track_accepted, if_neg fun h => hvo h.2.1.symm]
    exact Taker.track_fillSide hv c oid (nodup_side hw _) hf
  have hother : ∀ sd, sd ≠ side.opposite → ¬(c' = c ∧ side = sd ∧ x = oid) →
      Event.trackAll c b.ticker sd oid (b.holding c sd oid)
        (.response { kind := .accepted, clientId := c', tickerId := b.ticker, orderId := x, side,
                     price := p, execQty := 0, leavesQty := q } :: evs) = b.holding c sd oid := by
    intro sd hsd hn
    rw [Event.trackAll_cons, track_accepted, if_neg hn]
    exact Taker.trackAll_fillSide_of_ne hf hsd (fun h => hn ⟨h.1.symm, h.2.1.symm, h.2.2.symm⟩) _
  have hself : Event.trackAll c' b.ticker side x (b.holding c' side x)
      (.response { kind := .accepted, clientId := c', tickerId := b.ticker, orderId := x, side,
                   price := p, execQty := 0, leavesQty := q } :: evs) =
        if leaves = 0 then none else some (p, leaves) := by
    rw [Event.trackAll_cons, track_accepted, if_pos ⟨rfl, rfl, rfl⟩]
    exact Taker.trackSelf_fillSide hv p hq hf
  have hnone : b.holding c side x = none := holding_of_not_mem hx side
  simp only at h ⊢
  by_cases hl : leaves = 0
  · -- nothing is left to rest: the book is the crossed one
    rw [if_pos hl] at h ⊢
    simp only [Except.ok.injEq] at h
    subst h
    show _ = holdingIn c oid (crossed.levels sd)
    rw [hcrossed]
    split
    · rename_i he; subst he; exact hopp
    · rename_i hsd
      by_cases hn : c' = c ∧ side = sd ∧ x = oid
      · obtain ⟨rfl, rfl, rfl⟩ := hn
        rw [hself, if_pos hl]
        exact (holding_of_not_mem hx side).symm
      · exact hother sd hsd hn
  · rw [if_neg hl] at h ⊢
    split at h
    · rename_i o b'' hins
      cases h
      obtain ⟨-, -, level, ls₁, pool', hls, -, -, hoid, hoc, hoq, rfl⟩ := insert_eq_ok hins
      have hside : crossed.levels side = b.levels side := by rw [hcrossed, if_neg hvo.symm]
      have hls₁ : (∀ oid, holdingIn c oid ls₁ = holdingIn c oid (b.levels side)) ∧
          (∃ l ∈ ls₁, l.price = p) ∧ x ∉ (ordersOf ls₁).map (·.orderId) := by
        rcases hls with ⟨hfd, rfl⟩ | ⟨-, -, rfl, rfl⟩
        · refine ⟨fun _ => by rw [hside], ⟨level, List.mem_of_find?_eq_some hfd, ?_⟩, ?_⟩
          · simpa using List.find?_some hfd
          · rw [hside]; exact not_mem_side hx side
        · refine ⟨fun _ => by rw [holdingIn_placeLevel_nil, hside],
            ⟨_, (placeLevel_perm side _ _).mem_iff.2 List.mem_cons_self, rfl⟩, ?_⟩
          have hperm := (ordersOf_placeLevel_nil side p (crossed.levels side)).map (·.orderId)
          rw [hperm.mem_iff, hside]
          exact not_mem_side hx side
      obtain ⟨hheld, hprice, hxls⟩ := hls₁
      have hlevels : ∀ sd, ({ crossed.withLevels side (appendAt p o ls₁) with orderSlots := pool' } :
          Book).levels sd = if sd = side then appendAt p o ls₁ else crossed.levels sd := by
        intro sd
        rw [levels_setOrderSlots, levels_withLevels hv]
      show Event.trackAll c b.ticker sd oid (b.holding c sd oid) ((_ :: evs) ++ [_]) =
        holdingIn c oid (({ crossed.withLevels side (appendAt p o ls₁) with orderSlots := pool' } :
          Book).levels sd)
      rw [Event.trackAll_append_update, hlevels]
      split
      · -- the taker's side: the new order rests there with what is left of it
        rename_i he
        subst sd
        by_cases hn : c' = c ∧ side = side ∧ x = oid
        · obtain ⟨rfl, -, rfl⟩ := hn
          rw [hself, if_neg hl, ← hoid, holdingIn_appendAt_self (hoid ▸ hxls) hprice, hoc, if_pos rfl,
            hoq]
        · rw [hother side hvo.symm hn]
          by_cases hid : x = oid
          · subst hid
            have hcc : c' ≠ c := fun he => hn ⟨he, rfl, rfl⟩
            rw [hnone, ← hoid, holdingIn_appendAt_self (hoid ▸ hxls) hprice, hoc, if_neg hcc]
          · rw [holdingIn_appendAt_of_ne (hoid ▸ hid), hheld]
            rfl
      · rename_i hsd
        rw [hcrossed]
        split
        · rename_i he
          subst he
          rw [hopp]
        · rename_i hso
          rw [hother sd hso fun h => hsd h.2.1.symm]
          rfl
    · cases h

theorem mem_events_add {e : Event} (h : e ∈ (b.add c' x side p q).events) :
    (∃ kind, e = .response ⟨kind, c', b.ticker, x, side, p, 0, q⟩) ∨ (∃ u, e = .update u) ∨
      ∃ evs leaves rest filled, (Taker.mk b.ticker c' x side p).fillSide (b.levels side.opposite) q =
        (evs, leaves, rest, filled) ∧ e ∈ evs := by
  unfold Book.add at h
  split at h
  · rcases List.mem_singleton.1 h with rfl
    exact .inl ⟨_, rfl⟩
  simp only at h
  generalize hf : (Taker.mk b.ticker c' x side p).fillSide (b.levels side.opposite) q = f at h
  obtain ⟨evs, leaves, rest, filled⟩ := f
  simp only at h
  have hhead : e ∈ (.response ⟨.accepted, c', b.ticker, x, side, p, 0, q⟩ :: evs : List Event) →
      (∃ kind, e = .response ⟨kind, c', b.ticker, x, side, p, 0, q⟩) ∨ (∃ u, e = .update u) ∨
        ∃ evs' leaves' rest' filled', (evs, leaves, rest, filled) = (evs', leaves', rest', filled') ∧
          e ∈ evs' := by
    intro he
    rcases List.mem_cons.1 he with rfl | he
    · exact .inl ⟨_, rfl⟩
    · exact .inr (.inr ⟨evs, leaves, rest, filled, rfl, he⟩)
  split at h
  · exact hhead h
  · split at h
    · rcases List.mem_append.1 h with h | h
      · exact hhead h
      · rcases List.mem_singleton.1 h with rfl
        exact .inr (.inl ⟨_, rfl⟩)
    · exact hhead h

theorem answer_add (hw : b.WF) {r : Response} (hr : .response r ∈ (b.add c' x side p q).events) :
    r.tickerId = b.ticker ∧
      ((r.clientId = c' ∧ r.orderId = x ∧ r.side = side ∧
          (r.kind = .accepted → r.price = p ∧ r.leavesQty = q)) ∨
        r.kind = .filled ∧ b.holding r.clientId r.side r.orderId ≠ none) := by
  rcases mem_events_add hr with ⟨kind, hk⟩ | ⟨u, hu⟩ | ⟨evs, leaves, rest, filled, hf, he⟩
  · cases hk
    exact ⟨rfl, .inl ⟨rfl, rfl, rfl, fun _ => ⟨rfl, rfl⟩⟩⟩
  · cases hu
  · obtain ⟨⟨hc, hid, hs⟩ | ⟨o, ho, hc, hid, hs⟩, htk, hk⟩ := Taker.answer_fillSide hf he
    · exact ⟨htk, .inl ⟨hc, hid, hs, fun ha => absurd (ha.symm.trans hk) (by decide)⟩⟩
    · refine ⟨htk, .inr ⟨hk, ?_⟩⟩
      rw [hc, hid, hs]
      exact holding_ne_none_of_mem hw ho

theorem answer_cancel (hw : b.WF) {r : Response} (hr : .response r ∈ (b.cancel c' x).1) :
    r.tickerId = b.ticker ∧ r.clientId = c' ∧ r.orderId = x ∧
      (r.side = .invalid ∨ r.kind = .canceled ∧ b.holding c' r.side x ≠ none) := by
  unfold cancel at hr
  split at hr
  · rename_i s pr o hfd
    split at hr
    · rename_i hoc
      simp only [List.mem_cons, Event.response.injEq, reduceCtorEq, List.mem_nil_iff, or_false]
        at hr
      subst hr
      refine ⟨rfl, rfl, rfl, .inr ⟨rfl, ?_⟩⟩
      rw [holding_of_find? hw hfd, if_pos ⟨rfl, hoc⟩]
      exact Option.some_ne_none _
    · rcases List.mem_singleton.1 hr with ⟨⟩
      exact ⟨rfl, rfl, rfl, .inl rfl⟩
  · rcases List.mem_singleton.1 hr with ⟨⟩
    exact ⟨rfl, rfl, rfl, .inl rfl⟩

theorem events_add : ∃ kind rest, (b.add c' x side p q).events =
      .response ⟨kind, c', b.ticker, x, side, p, 0, q⟩ :: rest ∧
      (kind = .invalid ∨ kind = .accepted) ∧ ∀ r, .response r ∈ rest → r.kind = .filled := by
  unfold Book.add
  split
  · exact ⟨_, [], rfl, .inl rfl, fun _ h => by cases h⟩
  simp only
  generalize hf : (Taker.mk b.ticker c' x side p).fillSide (b.levels side.opposite) q = f
  obtain ⟨evs, leaves, rest, filled⟩ := f
  have hfilled : ∀ r, .response r ∈ evs → r.kind = .filled := fun r hr =>
    (Taker.answer_fillSide hf hr).2.2
  simp only
  split
  · exact ⟨_, evs, rfl, .inr rfl, hfilled⟩
  · split
    · refine ⟨_, evs ++ [_], rfl, .inr rfl, fun r hr => ?_⟩
      rcases List.mem_append.1 hr with hr | hr
      · exact hfilled r hr
      · simp at hr
    · exact ⟨_, evs, rfl, .inr rfl, hfilled⟩

/-- **A CANCEL tells every client what is left of each of its orders**: its owner learns a
cancelled order is gone, and nothing else changes. -/
theorem track_cancel (hw : b.WF) (c' : ClientId) (x : OrderId) (c : ClientId) (sd : Side)
    (oid : OrderId) :
    Event.trackAll c b.ticker sd oid (b.holding c sd oid) (b.cancel c' x).1 =
      (b.cancel c' x).2.holding c sd oid := by
  unfold Book.cancel
  have hrej : Event.trackAll c b.ticker sd oid (b.holding c sd oid) (cancel.rejection b c' x) =
      b.holding c sd oid := by
    simp only [cancel.rejection, Event.trackAll, List.foldl_cons, List.foldl_nil, Event.track,
      Response.track]
    split <;> rfl
  split
  · rename_i s pr o hfd
    split
    · rename_i hoc
      obtain ⟨-, horders⟩ := hw.without hfd
      obtain ⟨-, hoid, -⟩ := find?_eq_some hfd
      have hgone : x ∉ (b.without s pr o).orders.map (·.orderId) := by
        have hnd := (horders.map (·.orderId)).nodup_iff.1 hw.ids
        rw [List.map_cons, List.nodup_cons, hoid] at hnd
        exact hnd.1
      simp only [Event.trackAll, List.foldl_cons, List.foldl_nil, Event.track, Response.About,
        Response.track]
      show (if c' = c ∧ True ∧ s = sd ∧ x = oid then none else b.holding c sd oid) =
        holdingIn c oid ((b.without s pr o).levels sd)
      by_cases hid : oid = x
      · -- the cancelled order: its owner held it on its side, and nobody holds it after
        subst hid
        have hafter : holdingIn c oid ((b.without s pr o).levels sd) = none :=
          holding_of_not_mem hgone sd
        rw [holding_of_find? hw hfd, hoc, hafter]
        split_ifs with hown hheld
        · rfl
        · exact absurd ⟨hheld.2, trivial, hheld.1.symm, rfl⟩ hown
        · rfl
      · rw [if_neg fun h => hid h.2.2.2.symm, levels_without (find?_eq_some hfd).1]
        split
        · rename_i he
          subst sd
          exact (holdingIn_dropFrom_of_ne (hoid ▸ hid) _).symm
        · rfl
    · exact hrej
  · exact hrej

end Book

end Exchange
