import Exchange.Proofs.Book.Answers
import Exchange.Proofs.Engine.Sinks
import Exchange.Proofs.Feed.Stream
import Exchange.Proofs.Trading.InFlight

/-!
# An order manager trading on the engine

One participant's order manager sends its requests to the engine through its ring and reads the
engine's answers for it in the order the engine sent them; other participants send the engine
requests too. A `Desk` is that system between two steps: the manager, the engine's books, and the
answers on their way to the manager. `Desk.Run` is any interleaving of moves of one or both sides
of a ticker, at any price and quantity and under any pre-trade check; of the engine serving the
manager's oldest request or a request of another participant; and of the manager reading its
oldest answer. The engine is the list engine `Engine.serve`, which the engine over rings is
(`Engine.serves_as_list_engine`).

Along every run (`Desk.trades_one_order_per_slot`), at most one order of the participant rests on
each side of each book, and it is the current order of that ticker's and side's slot. When no
request and no answer is in flight, no slot waits for a CANCEL, a live slot's order rests at the
slot's price with the slot's quantity left, and a slot still waiting for a NEW is one whose NEW
the engine answered INVALID: a quantity of 0 or of the sentinel, or an order id another
participant already had resting.

The proof reads the answers in flight ahead of the manager (`Slot.readAll`): the slot it would
then show is what the book holds of its order (`Book.holding`), by `Book.track_add` and
`Book.track_cancel` on each request the engine serves.
-/

namespace Exchange

/-! ## A slot reading answers -/

namespace Slot

/-- What a slot shows of its order: its price and quantity while it stands or is being cancelled,
nothing otherwise. -/
def view (s : Slot) : Option (Price × Qty) :=
  match s.state with
  | .live | .pendingCancel => some (s.price, s.qty)
  | _ => none

/-- The slot of participant `c`'s ticker `t` and `side` after it reads one answer: an answer
about its own order changes it, as the order manager does. -/
def read (c : ClientId) (t : TickerId) (side : Side) (s : Slot) (r : Response) : Slot :=
  if r.About c t side s.orderId then s.answer r else s

/-- The slot after it reads answers in order. -/
def readAll (c : ClientId) (t : TickerId) (side : Side) (s : Slot) (rs : List Response) : Slot :=
  rs.foldl (read c t side) s

/-- Whether the slot reads these answers in step with its order: every ACCEPTED about it finds it
waiting for the NEW, at the ACCEPTED's price and quantity. -/
def Reads (c : ClientId) (t : TickerId) (side : Side) : Slot → List Response → Prop
  | _, [] => True
  | s, r :: rs =>
    (r.About c t side s.orderId → r.kind = .accepted →
      s.state = .pendingNew ∧ r.price = s.price ∧ r.leavesQty = s.qty) ∧
    Reads c t side (s.read c t side r) rs

variable {c : ClientId} {t : TickerId} {side : Side} {s : Slot} {r : Response}
  {rs rs' : List Response}

@[simp] theorem orderId_read : (s.read c t side r).orderId = s.orderId := by
  unfold read; split <;> simp

@[simp] theorem orderId_readAll : (s.readAll c t side rs).orderId = s.orderId := by
  induction rs generalizing s with
  | nil => rfl
  | cons r rs ih => exact ih.trans orderId_read

@[simp] theorem readAll_nil : s.readAll c t side [] = s := rfl

theorem readAll_cons : s.readAll c t side (r :: rs) = (s.read c t side r).readAll c t side rs := rfl

theorem readAll_append :
    s.readAll c t side (rs ++ rs') = (s.readAll c t side rs).readAll c t side rs' :=
  List.foldl_append

theorem reads_append :
    s.Reads c t side (rs ++ rs') ↔ s.Reads c t side rs ∧ (s.readAll c t side rs).Reads c t side rs' := by
  induction rs generalizing s with
  | nil => simp [Reads]
  | cons r rs ih => simp only [List.cons_append, Reads, ih, readAll_cons, and_assoc]

theorem reads_of_forall (h : ∀ r ∈ rs, r.About c t side s.orderId → r.kind ≠ .accepted) :
    s.Reads c t side rs := by
  induction rs generalizing s with
  | nil => trivial
  | cons r rs ih =>
    refine ⟨fun ha hk => absurd hk (h r List.mem_cons_self ha), ih fun r' hr' => ?_⟩
    rw [orderId_read]
    exact h r' (List.mem_cons_of_mem _ hr')

theorem readAll_of_forall (h : ∀ r ∈ rs, ¬ r.About c t side s.orderId) : s.readAll c t side rs = s := by
  induction rs generalizing s with
  | nil => rfl
  | cons r rs ih =>
    have hr : s.read c t side r = s := if_neg (h r List.mem_cons_self)
    rw [readAll_cons, hr, ih fun r' hr' => h r' (List.mem_cons_of_mem _ hr')]

/-- **An answer moves the slot as it moves what the order's owner knows**, provided an ACCEPTED
carries the slot's price and quantity. -/
theorem view_answer (h : r.kind = .accepted → r.price = s.price ∧ r.leavesQty = s.qty) :
    (s.answer r).view = r.track s.view := by
  unfold answer Response.track
  cases hk : r.kind with
  | accepted =>
    obtain ⟨hp, hq⟩ := h hk
    simp [view, hp, hq]
  | filled =>
    by_cases h0 : r.leavesQty = 0
    · simp [view, h0]
    · -- a fill that leaves some: the slot keeps its state and price
      simp only [if_neg h0, view]
      cases s.state <;> rfl
  | canceled => rfl
  | cancelRejected => rfl
  | invalid => rfl

theorem view_read (h : r.About c t side s.orderId → r.kind = .accepted →
      r.price = s.price ∧ r.leavesQty = s.qty) :
    (s.read c t side r).view = Event.track c t side s.orderId s.view (.response r) := by
  show _ = if r.About c t side s.orderId then r.track s.view else s.view
  unfold read
  split
  · rename_i ha; exact view_answer (h ha)
  · rfl

/-- **Reading answers in step, the slot shows what their reader learns of its order.** -/
theorem view_readAll (h : s.Reads c t side rs) :
    (s.readAll c t side rs).view = Event.trackAll c t side s.orderId s.view (rs.map .response) := by
  induction rs generalizing s with
  | nil => rfl
  | cons r rs ih =>
    obtain ⟨hr, hrs⟩ := h
    rw [readAll_cons, ih hrs, orderId_read, view_read fun ha hk => (hr ha hk).2, List.map_cons,
      Event.trackAll_cons]

/-! ### What a slot can become -/

@[simp] theorem tickerId_answer : (s.answer r).tickerId = s.tickerId := by
  unfold answer; split <;> rfl

theorem state_answer_ne_invalid (h : s.state ≠ .invalid) : (s.answer r).state ≠ .invalid := by
  unfold answer
  split
  · simp
  · simp
  · split
    · simp
    · exact h
  · exact h

theorem state_answer_of_pendingNew (h : (s.answer r).state = .pendingNew) : s.state = .pendingNew := by
  unfold answer at h; split at h <;> first | cases h | skip
  · split at h
    · cases h
    · exact h
  · exact h

theorem state_answer_of_pendingCancel (h : (s.answer r).state = .pendingCancel) :
    s.state = .pendingCancel := by
  unfold answer at h; split at h <;> first | cases h | skip
  · split at h
    · cases h
    · exact h
  · exact h

theorem state_read_of_pendingNew (h : (s.read c t side r).state = .pendingNew) :
    s.state = .pendingNew := by
  unfold read at h; split at h
  · exact state_answer_of_pendingNew h
  · exact h

theorem state_readAll_of_pendingNew (h : (s.readAll c t side rs).state = .pendingNew) :
    s.state = .pendingNew := by
  induction rs generalizing s with
  | nil => exact h
  | cons r rs ih => exact state_read_of_pendingNew (ih h)

theorem state_readAll_of_pendingCancel (h : (s.readAll c t side rs).state = .pendingCancel) :
    s.state = .pendingCancel := by
  induction rs generalizing s with
  | nil => exact h
  | cons r rs ih =>
    have h' := ih h
    unfold read at h'
    split at h'
    · exact state_answer_of_pendingCancel h'
    · exact h'

theorem reads_not_accepted (h : s.Reads c t side rs) (hs : s.state ≠ .pendingNew) :
    ∀ r ∈ rs, r.About c t side s.orderId → r.kind ≠ .accepted := by
  induction rs generalizing s with
  | nil => intro r hr; cases hr
  | cons r rs ih =>
    obtain ⟨hr, hrs⟩ := h
    intro r' hr' ha hk
    rcases List.mem_cons.1 hr' with rfl | hr'
    · exact hs (hr ha hk).1
    · exact ih hrs (fun hn => hs (state_read_of_pendingNew hn)) r' hr' (by rwa [orderId_read]) hk

theorem view_readAll_of_settled (h : s.Reads c t side rs) (hs : s.state = .invalid ∨ s.state = .dead) :
    (s.readAll c t side rs).view = none := by
  induction rs generalizing s with
  | nil => rcases hs with hs | hs <;> simp [view, hs]
  | cons r rs ih =>
    obtain ⟨hr, hrs⟩ := h
    refine ih hrs ?_
    unfold read
    split
    · rename_i ha
      have hk : r.kind ≠ .accepted := fun hk => by rcases hs with hs | hs <;> simp [(hr ha hk).1] at hs
      unfold answer
      split
      · exact absurd ‹_› hk
      · exact .inr rfl
      · split
        · exact .inr rfl
        · exact hs
      · exact hs
    · exact hs

end Slot

namespace OrderManager

variable {om : OrderManager} {t : TickerId} {side : Side}

theorem slot?_invalid : om.slot? t .invalid = none := by
  unfold slot?
  split <;> first | rfl | contradiction

/-- **How a response moves the slots**: each slot reads it. -/
theorem slot?_onResponse (r : Response) :
    (om.onResponse r).slot? t side = (om.slot? t side).map (Slot.read om.clientId t side · r) := by
  unfold onResponse
  split
  · -- an answer for another participant
    rename_i hc
    cases om.slot? t side with
    | none => rfl
    | some s =>
      exact congrArg some (if_neg fun (h : r.About om.clientId t side s.orderId) => hc h.1).symm
  · rename_i hc
    split
    · -- no slot for the answer's ticker and side
      rename_i hn
      cases hs : om.slot? t side with
      | none => rfl
      | some s =>
        refine congrArg some (if_neg fun ⟨_, ht, hsd, _⟩ => ?_).symm
        rw [ht, hsd, hs] at hn
        cases hn
    · rename_i s' hs'
      split
      · -- an answer about another order of that slot
        rename_i ho
        cases hs : om.slot? t side with
        | none => rfl
        | some s =>
          refine congrArg some (if_neg fun ⟨_, ht, hsd, hid⟩ => ?_).symm
          rw [ht, hsd, hs] at hs'
          cases hs'
          exact ho hid.symm
      · rename_i ho
        by_cases hk : (t, side) = (r.tickerId, r.side)
        · obtain ⟨rfl, rfl⟩ := Prod.mk.inj hk
          rw [slot?_setSlot_self hs', hs']
          exact congrArg some (if_pos ⟨not_not.1 hc, rfl, rfl, (not_not.1 ho).symm⟩).symm
        · rw [slot?_setSlot_of_ne hk]
          cases hs : om.slot? t side with
          | none => rfl
          | some s =>
            refine congrArg some (if_neg fun ⟨_, ht, hsd, _⟩ => hk ?_).symm
            rw [ht, hsd]

end OrderManager

/-! ## The engine serving one request -/

namespace Engine

/-- Books as an engine keeps them: each well formed, and the book at index `t` that of ticker
`t`. -/
structure BooksWF (books : Array Book) : Prop where
  wf : ∀ (i : Nat) (b : Book), books[i]? = some b → b.WF
  ticker : ∀ (t : TickerId) (b : Book), books[t.toNat]? = some b → b.ticker = t

variable {books books' : Array Book} {q : Request} {evs : List Event} {x : Book.Reply}

theorem serve_ok (h : serve books q = ⟨evs, .ok (x, books')⟩) :
    ∃ b b', books[q.tickerId.toNat]? = some b ∧ q.kind ≠ .invalid ∧
      b.call q.toCall = ⟨evs, .ok (x, b')⟩ ∧ books' = books.set! q.tickerId.toNat b' := by
  have hres : (serve books q).result = .ok (x, books') := by rw [h]
  obtain ⟨b, b', hb, hc, rfl⟩ := serve_eq_ok hres
  have hk : q.kind ≠ .invalid := fun hk => by simp [serve, hb, hk] at hres
  refine ⟨b, b', hb, hk, ?_, rfl⟩
  have hev : (b.call q.toCall).events = evs := by
    rw [← show (serve books q).events = evs by rw [h]]
    cases hq : q.kind
    · exact absurd hq hk
    all_goals simp [serve, hb, hq]
  rw [← hev, ← hc]

theorem serve_cases (h : serve books q = ⟨evs, .ok (x, books')⟩) :
    ∃ b b', books[q.tickerId.toNat]? = some b ∧ books' = books.set! q.tickerId.toNat b' ∧
      (q.kind = .new ∧ (b.add q.clientId q.orderId q.side q.price q.qty).events = evs ∧
          (b.add q.clientId q.orderId q.side q.price q.qty).result = .ok b' ∨
        q.kind = .cancel ∧ (b.cancel q.clientId q.orderId).1 = evs ∧
          (b.cancel q.clientId q.orderId).2 = b') := by
  obtain ⟨b, b', hb, hk, hc, rfl⟩ := serve_ok h
  refine ⟨b, b', hb, rfl, ?_⟩
  unfold Request.toCall at hc
  split at hc
  · -- a CANCEL
    rename_i hcan
    simp only [Book.call, Outcome.mk.injEq, Except.ok.injEq, Prod.mk.injEq] at hc
    exact .inr ⟨hcan, hc.1, hc.2.2⟩
  · -- a NEW: the kind is neither INVALID nor CANCEL
    rename_i hcan
    have hnew : q.kind = .new := by
      cases hq : q.kind
      · exact absurd hq hk
      · rfl
      · exact absurd hq hcan
    simp only [Book.call, Outcome.mk.injEq] at hc
    obtain ⟨hev, hres⟩ := hc
    cases hr : (b.add q.clientId q.orderId q.side q.price q.qty).result with
    | error f => rw [hr] at hres; cases hres
    | ok b₂ =>
      rw [hr] at hres
      simp only [Except.map, Except.ok.injEq, Prod.mk.injEq] at hres
      exact .inl ⟨hnew, hev, by rw [hres.2]⟩

theorem answer_serve (hw : BooksWF books) (h : serve books q = ⟨evs, .ok (x, books')⟩) {r : Response} (hr : .response r ∈ evs) :
    ∃ b, books[q.tickerId.toNat]? = some b ∧ r.tickerId = q.tickerId ∧
      ((r.kind ≠ .accepted ∧ b.holding r.clientId r.side r.orderId ≠ none) ∨
        r.clientId = q.clientId ∧ r.orderId = q.orderId ∧
          (r.side = .invalid ∨ q.kind = .new ∧ r.side = q.side ∧
            (r.kind = .accepted → r.price = q.price ∧ r.leavesQty = q.qty))) := by
  obtain ⟨b, b', hb, -, hcall⟩ := serve_cases h
  have hbw := hw.wf _ b hb
  have htk := hw.ticker _ b hb
  refine ⟨b, hb, ?_⟩
  rcases hcall with ⟨hnew, rfl, -⟩ | ⟨-, rfl, -⟩
  · -- a NEW
    obtain ⟨hrt, ⟨hrc, hro, hrs, hacc⟩ | ⟨hfill, hheld⟩⟩ := Book.answer_add hbw hr
    · exact ⟨hrt.trans htk, .inr ⟨hrc, hro, .inr ⟨hnew, hrs, hacc⟩⟩⟩
    · exact ⟨hrt.trans htk, .inl ⟨by rw [hfill]; decide, hheld⟩⟩
  · -- a CANCEL
    obtain ⟨hrt, hrc, hro, hside | ⟨hcan, hheld⟩⟩ := Book.answer_cancel hbw hr
    · exact ⟨hrt.trans htk, .inr ⟨hrc, hro, .inl hside⟩⟩
    · refine ⟨hrt.trans htk, .inl ⟨by rw [hcan]; decide, ?_⟩⟩
      rwa [hrc, hro]

theorem getElem?_set!_self {b₀ b' : Book} {i : Nat} (h : books[i]? = some b₀) :
    (books.set! i b')[i]? = some b' := by
  have hi : i < books.size := (Array.getElem?_eq_some_iff.1 h).1
  simp [Array.set!_eq_setIfInBounds, hi]

theorem getElem?_set!_of_ne {b' : Book} {i j : Nat} (h : j ≠ i) :
    (books.set! i b')[j]? = books[j]? := by
  simp [Array.set!_eq_setIfInBounds, Ne.symm h]

/-- **Serving a request tells every participant what is left of each of its orders**, on every
book: from what a book held of an order, the answers of the request lead to what it holds after. -/
theorem track_serve (hw : BooksWF books) (h : serve books q = ⟨evs, .ok (x, books')⟩) (c : ClientId) (t : TickerId) (sd : Side)
    (oid : OrderId) {b₀ b₁ : Book} (h₀ : books[t.toNat]? = some b₀)
    (h₁ : books'[t.toNat]? = some b₁) :
    Event.trackAll c t sd oid (b₀.holding c sd oid) evs = b₁.holding c sd oid := by
  obtain ⟨b, b', hb, rfl, hcall⟩ := serve_cases h
  by_cases htq : t = q.tickerId
  · -- the book of the request: its call tells
    subst htq
    rw [hb] at h₀
    obtain rfl : b = b₀ := Option.some.inj h₀
    rw [getElem?_set!_self hb] at h₁
    obtain rfl : b' = b₁ := Option.some.inj h₁
    rw [← hw.ticker _ b hb]
    rcases hcall with ⟨-, rfl, hadd⟩ | ⟨-, rfl, rfl⟩
    · exact Book.track_add (hw.wf _ b hb) hadd c sd oid
    · exact Book.track_cancel (hw.wf _ b hb) _ _ c sd oid
  · -- another book: unchanged, and no answer is on its ticker
    have hne : t.toNat ≠ q.tickerId.toNat := fun e => htq (UInt32.toNat_inj.1 e)
    rw [getElem?_set!_of_ne hne, h₀] at h₁
    cases h₁
    refine Event.trackAll_of_forall fun r hr habout => htq ?_
    obtain ⟨-, -, hrq, -⟩ := answer_serve hw h hr
    exact habout.2.1.symm.trans hrq

theorem events_serve_new (h : serve books q = ⟨evs, .ok (x, books')⟩) (hk : q.kind = .new) :
    ∃ b kind rest, books[q.tickerId.toNat]? = some b ∧
      evs = .response ⟨kind, q.clientId, b.ticker, q.orderId, q.side, q.price, 0, q.qty⟩ :: rest ∧
      (kind = .invalid ∨ kind = .accepted) ∧ ∀ r, .response r ∈ rest → r.kind = .filled := by
  obtain ⟨b, b', hb, -, hc, -⟩ := serve_ok h
  simp only [Request.toCall, hk, Book.call, Outcome.mk.injEq] at hc
  obtain ⟨rfl, -⟩ := hc
  obtain ⟨kind, rest, hev, hkind, hrest⟩ :=
    @Book.events_add b q.clientId q.orderId q.side q.price q.qty
  exact ⟨b, kind, rest, hb, hev, hkind, hrest⟩

theorem books_serve_cancel (h : serve books q = ⟨evs, .ok (x, books')⟩) (hk : q.kind = .cancel) :
    ∃ b, books[q.tickerId.toNat]? = some b ∧
      books'[q.tickerId.toNat]? = some (b.cancel q.clientId q.orderId).2 := by
  obtain ⟨b, b', hb, -, hc, rfl⟩ := serve_ok h
  simp only [Request.toCall, hk, Book.call, Outcome.mk.injEq, Except.ok.injEq, Prod.mk.injEq] at hc
  obtain ⟨-, -, rfl⟩ := hc
  exact ⟨b, hb, getElem?_set!_self hb⟩

theorem BooksWF.serve (hw : BooksWF books) (h : serve books q = ⟨evs, .ok (x, books')⟩) :
    BooksWF books' := by
  obtain ⟨b, b', hb, rfl, hcall⟩ := serve_cases h
  have hbw := hw.wf _ b hb
  have hcall' : b'.WF ∧ b'.ticker = b.ticker := by
    rcases hcall with ⟨-, -, hadd⟩ | ⟨-, -, rfl⟩
    · exact ⟨hbw.add hadd, Book.ticker_add hadd⟩
    · exact ⟨hbw.cancel _ _, Book.ticker_cancel⟩
  obtain ⟨hwf, htk⟩ := hcall'
  constructor
  · intro i b₁ h₁
    by_cases hi : i = q.tickerId.toNat
    · subst hi
      rw [getElem?_set!_self hb] at h₁
      cases h₁
      exact hwf
    · rw [getElem?_set!_of_ne hi] at h₁
      exact hw.wf i b₁ h₁
  · intro t b₁ h₁
    by_cases ht : t = q.tickerId
    · subst ht
      rw [getElem?_set!_self hb] at h₁
      cases h₁
      rw [htk]
      exact hw.ticker _ b hb
    · rw [getElem?_set!_of_ne fun e => ht (UInt32.toNat_inj.1 e)] at h₁
      exact hw.ticker t b₁ h₁

theorem isSome_serve (h : serve books q = ⟨evs, .ok (x, books')⟩) (i : Nat) :
    books'[i]?.isSome = books[i]?.isSome := by
  obtain ⟨b, b', hb, -, -, rfl⟩ := serve_ok h
  by_cases hi : i = q.tickerId.toNat
  · subst hi
    rw [getElem?_set!_self hb, hb]
    rfl
  · rw [getElem?_set!_of_ne hi]

end Engine

/-! ## A participant trading on the engine -/

/-- One participant's order manager trading on the engine's books, with the answers for it that
the engine has sent and it has not read yet, oldest first. Its requests wait in its own ring. -/
structure Desk where
  om : OrderManager
  books : Array Book
  inbox : List Response

/-- The answers for participant `c` among a request's events, in order. -/
def Event.answersFor (c : ClientId) (evs : List Event) : List Response :=
  (evs.filterMap Event.response?).filter (·.clientId == c)

namespace Event

variable {c : ClientId} {evs : List Event} {r : Response}

theorem mem_answersFor : r ∈ answersFor c evs ↔ .response r ∈ evs ∧ r.clientId = c := by
  simp only [answersFor, List.mem_filter, List.mem_filterMap, beq_iff_eq]
  constructor
  · rintro ⟨⟨e, he, hr⟩, hc⟩
    cases e with
    | response r' => cases hr; exact ⟨he, hc⟩
    | update u => cases hr
  · rintro ⟨he, hc⟩
    exact ⟨⟨_, he, rfl⟩, hc⟩

theorem trackAll_answersFor (t : TickerId) (side : Side) (oid : OrderId) :
    ∀ (k : Option (Price × Qty)) (evs : List Event),
      trackAll c t side oid k ((answersFor c evs).map .response) = trackAll c t side oid k evs
  | _, [] => rfl
  | k, .update u :: evs => by
    have h : answersFor c (.update u :: evs) = answersFor c evs := rfl
    rw [h, trackAll_answersFor t side oid k evs]
    rfl
  | k, .response r :: evs => by
    by_cases hc : r.clientId = c
    · have h : answersFor c (.response r :: evs) = r :: answersFor c evs := by
        simp [answersFor, response?, hc]
      rw [h, List.map_cons, trackAll_cons, trackAll_cons, trackAll_answersFor t side oid _ evs]
    · have h : answersFor c (.response r :: evs) = answersFor c evs := by
        simp [answersFor, response?, hc]
      rw [h, trackAll_cons, trackAll_answersFor t side oid k evs]
      show _ = trackAll c t side oid (if r.About c t side oid then r.track k else k) evs
      rw [if_neg fun h => hc h.1]

end Event

theorem Engine.answersFor_serve_new {books books' : Array Book} {q : Request} {evs : List Event}
    {x : Book.Reply} (hw : Engine.BooksWF books) (h : Engine.serve books q = ⟨evs, .ok (x, books')⟩)
    (hk : q.kind = .new) :
    ∃ kind rest, Event.answersFor q.clientId evs =
        ⟨kind, q.clientId, q.tickerId, q.orderId, q.side, q.price, 0, q.qty⟩ ::
          Event.answersFor q.clientId rest ∧
      (kind = .invalid ∨ kind = .accepted) ∧ ∀ r, .response r ∈ rest → r.kind = .filled := by
  obtain ⟨b, kind, rest, hb, hev, hkind, hfill⟩ := Engine.events_serve_new h hk
  rw [hw.ticker _ b hb] at hev
  refine ⟨kind, rest, ?_, hkind, hfill⟩
  rw [hev]
  simp [Event.answersFor, Event.response?]

namespace Desk

/-- What one slot of participant `c`, of ticker `t` and `side`, and the book of `t` agree on,
with the requests `sent` and the answers `inbox` in flight and the answers `log` read. -/
structure SlotInv (c : ClientId) (t : TickerId) (side : Side) (s : Slot) (b : Book)
    (sent : List Request) (inbox log : List Response) : Prop where
  /-- The slot reads the answers in flight in step. -/
  reads : s.Reads c t side inbox
  /-- Once it has read them, it shows what the book holds of its order. -/
  shows : (s.readAll c t side inbox).view = b.holding c side s.orderId
  /-- A NEW in flight for its order is the slot's own, which waits for it, and nothing about the
  order is answered yet. -/
  fresh : ∀ q ∈ sent, q.kind = .new → q.orderId = s.orderId →
    q = ⟨.new, c, t, s.orderId, side, s.price, s.qty⟩ ∧ s.state = .pendingNew ∧
      ∀ r ∈ inbox, ¬ r.About c t side s.orderId
  /-- Still waiting for a NEW once it has read everything: the NEW is in flight, or was answered
  INVALID. -/
  waitNew : (s.readAll c t side inbox).state = .pendingNew →
    (∃ q ∈ sent, q.kind = .new ∧ q.orderId = s.orderId) ∨
      ∃ r ∈ log ++ inbox, r.About c t side s.orderId ∧ r.kind = .invalid
  /-- Still waiting for a CANCEL once it has read everything: the CANCEL is in flight. -/
  waitCancel : (s.readAll c t side inbox).state = .pendingCancel →
    ∃ q ∈ sent, q.kind = .cancel ∧ q.tickerId = t ∧ q.orderId = s.orderId

/-- The invariant of a desk, with `log` the answers read so far: the requests in flight are the
participant's, with ids already given out, and each NEW is the NEW of its slot; the answers in
flight are the participant's; a slot is empty, or has an order id already given out; every order
of the participant that rests is the order of its slot; and each slot agrees with its book. -/
structure Inv (d : Desk) (log : List Response) : Prop where
  ring : d.om.requests.WF
  books : Engine.BooksWF d.books
  sent : ∀ q ∈ d.om.requests.toList, q.clientId = d.om.clientId ∧
    q.orderId.toNat < d.om.nextOrderId.toNat ∧
    (q.kind = .new → ∃ s, d.om.slot? q.tickerId q.side = some s ∧ s.orderId = q.orderId)
  newIds : ((d.om.requests.toList.filter (·.kind == .new)).map (·.orderId)).Nodup
  inbox : ∀ r ∈ d.inbox, r.clientId = d.om.clientId ∧ r.orderId.toNat < d.om.nextOrderId.toNat
  slots : ∀ t side s, d.om.slot? t side = some s →
    s.state = .invalid ∧ s.orderId = noOrder ∨
      s.state ≠ .invalid ∧ s.tickerId = t ∧ s.orderId.toNat < d.om.nextOrderId.toNat
  resting : ∀ (t : TickerId) (b : Book) side oid, d.books[t.toNat]? = some b →
    b.holding d.om.clientId side oid ≠ none →
      ∃ s, d.om.slot? t side = some s ∧ s.orderId = oid ∧ s.state ≠ .invalid
  agree : ∀ t side s, d.om.slot? t side = some s → ∃ b, d.books[t.toNat]? = some b ∧
    SlotInv d.om.clientId t side s b d.om.requests.toList d.inbox log

theorem ne_noOrder_of_lt {a n : OrderId} (h : a.toNat < n.toNat) : a ≠ noOrder := by
  rintro rfl
  have := UInt64.toNat_lt n
  simp [noOrder] at h
  omega

/-! ### Reading an answer -/

section Read

variable {d : Desk} {log : List Response} {r : Response} {rs : List Response}

theorem SlotInv.read {c : ClientId} {t : TickerId} {side : Side} {s : Slot} {b : Book}
    {sent : List Request} (hs : SlotInv c t side s b sent (r :: rs) log) :
    SlotInv c t side (s.read c t side r) b sent rs (log ++ [r]) where
  reads := hs.reads.2
  shows := by rw [Slot.orderId_read, ← hs.shows]; rfl
  fresh q hq hk hid := by
    rw [Slot.orderId_read] at hid
    obtain ⟨hqe, hpn, hno⟩ := hs.fresh q hq hk hid
    have hr : s.read c t side r = s := if_neg (hno r List.mem_cons_self)
    rw [hr]
    exact ⟨hqe, hpn, fun r' hr' => hno r' (List.mem_cons_of_mem _ hr')⟩
  waitNew h := by
    rw [Slot.orderId_read]
    rw [List.append_assoc, List.singleton_append]
    exact hs.waitNew h
  waitCancel h := by
    rw [Slot.orderId_read]
    exact hs.waitCancel h

/-- **Reading an answer keeps the invariant.** -/
theorem Inv.read (hi : Inv d log) (h : d.inbox = r :: rs) :
    Inv ⟨d.om.onResponse r, d.books, rs⟩ (log ++ [r]) := by
  obtain ⟨hrc, hrid⟩ := hi.inbox r (by rw [h]; exact List.mem_cons_self)
  have hread : ∀ t side s, d.om.slot? t side = some s →
      (s.state = .invalid → s.read d.om.clientId t side r = s) ∧
      (s.state ≠ .invalid → (s.read d.om.clientId t side r).state ≠ .invalid) ∧
      (s.read d.om.clientId t side r).tickerId = s.tickerId := by
    intro t side s hs
    refine ⟨fun hinv => if_neg fun ha => ?_, fun hinv => ?_, ?_⟩
    · rcases hi.slots t side s hs with ⟨-, hno⟩ | ⟨hne, -⟩
      · exact ne_noOrder_of_lt hrid (ha.2.2.2.trans hno)
      · exact hne hinv
    · unfold Slot.read
      split
      · exact Slot.state_answer_ne_invalid hinv
      · exact hinv
    · unfold Slot.read
      split
      · exact Slot.tickerId_answer
      · rfl
  refine ⟨by simpa using hi.ring, hi.books, ?_, by simpa using hi.newIds, ?_, ?_, ?_, ?_⟩
  · intro q hq
    simp only [OrderManager.requests_onResponse, OrderManager.clientId_onResponse,
      OrderManager.nextOrderId_onResponse, OrderManager.slot?_onResponse] at hq ⊢
    obtain ⟨hc, hid, hnew⟩ := hi.sent q hq
    refine ⟨hc, hid, fun hk => ?_⟩
    obtain ⟨s, hs, hso⟩ := hnew hk
    exact ⟨_, by rw [hs]; rfl, by rw [Slot.orderId_read, hso]⟩
  · intro r' hr'
    simpa using hi.inbox r' (by rw [h]; exact List.mem_cons_of_mem _ hr')
  · intro t side s' hs'
    simp only [OrderManager.slot?_onResponse, OrderManager.nextOrderId_onResponse,
      Option.map_eq_some_iff] at hs' ⊢
    obtain ⟨s, hs, rfl⟩ := hs'
    obtain ⟨hsame, hstate, htk⟩ := hread t side s hs
    rcases hi.slots t side s hs with ⟨hinv, hno⟩ | ⟨hinv, hst, hid⟩
    · rw [hsame hinv]
      exact .inl ⟨hinv, hno⟩
    · exact .inr ⟨hstate hinv, htk.trans hst, by rw [Slot.orderId_read]; exact hid⟩
  · intro t b side oid hb hheld
    simp only [OrderManager.clientId_onResponse, OrderManager.slot?_onResponse] at hheld ⊢
    obtain ⟨s, hs, hso, hinv⟩ := hi.resting t b side oid hb hheld
    exact ⟨_, by rw [hs]; rfl, by rw [Slot.orderId_read, hso], (hread t side s hs).2.1 hinv⟩
  · intro t side s' hs'
    simp only [OrderManager.slot?_onResponse, OrderManager.clientId_onResponse,
      OrderManager.requests_onResponse, Option.map_eq_some_iff] at hs' ⊢
    obtain ⟨s, hs, rfl⟩ := hs'
    obtain ⟨b, hb, hsi⟩ := hi.agree t side s hs
    rw [h] at hsi
    exact ⟨b, hb, hsi.read⟩

end Read

/-! ### Moving an order -/

section Move

variable {d : Desk} {log : List Response} {om' : OrderManager} {t : TickerId} {side : Side}
  {s : Slot}

theorem SlotInv.append_sent {c : ClientId} {t : TickerId} {side : Side} {s : Slot} {b : Book}
    {sent extra : List Request} {inbox : List Response}
    (hs : SlotInv c t side s b sent inbox log)
    (hx : ∀ q ∈ extra, q.kind = .new → q.orderId ≠ s.orderId) :
    SlotInv c t side s b (sent ++ extra) inbox log where
  reads := hs.reads
  shows := hs.shows
  fresh q hq hk hid := by
    rcases List.mem_append.1 hq with hq | hq
    · exact hs.fresh q hq hk hid
    · exact absurd hid (hx q hq hk)
  waitNew h := by
    rcases hs.waitNew h with ⟨q, hq, hk⟩ | hr
    · exact .inl ⟨q, List.mem_append_left _ hq, hk⟩
    · exact .inr hr
  waitCancel h := by
    obtain ⟨q, hq, hk⟩ := hs.waitCancel h
    exact ⟨q, List.mem_append_left _ hq, hk⟩

theorem Inv.ne_next_of_slot (hi : Inv d log) (hn : d.om.nextOrderId ≠ noOrder)
    (hs : d.om.slot? t side = some s) : s.orderId ≠ d.om.nextOrderId := by
  rcases hi.slots t side s hs with ⟨-, hno⟩ | ⟨-, -, hid⟩
  · rw [hno]; exact Ne.symm hn
  · exact fun h => by rw [h] at hid; omega

theorem Inv.newSlot_frame (hi : Inv d log) (hs : d.om.slot? t side = some s)
    (hnonew : ∀ q ∈ d.om.requests.toList, q.kind = .new → q.orderId ≠ s.orderId)
    (hother : ∀ t' side', (t', side') ≠ (t, side) → om'.slot? t' side' = d.om.slot? t' side')
    {q : Request} (hq : q ∈ d.om.requests.toList) (hk : q.kind = .new) :
    ∃ s', om'.slot? q.tickerId q.side = some s' ∧ s'.orderId = q.orderId := by
  obtain ⟨s', hs', hsid⟩ := (hi.sent q hq).2.2 hk
  by_cases hk' : (q.tickerId, q.side) = (t, side)
  · obtain ⟨ht, hsd⟩ := Prod.mk.inj hk'
    rw [ht, hsd, hs] at hs'
    cases hs'
    exact absurd hsid.symm (hnonew q hq hk)
  · exact ⟨s', by rw [hother _ _ hk']; exact hs', hsid⟩

theorem Inv.holding_of_settled (hi : Inv d log) (hs : d.om.slot? t side = some s)
    (hst : s.state = .invalid ∨ s.state = .dead) {b : Book} (hb : d.books[t.toNat]? = some b)
    (oid : OrderId) : b.holding d.om.clientId side oid = none := by
  by_contra hheld
  obtain ⟨s', hs', rfl, -⟩ := hi.resting t b side oid hb hheld
  rw [hs] at hs'
  cases hs'
  obtain ⟨b', hb', hsi⟩ := hi.agree t side s hs
  rw [hb] at hb'
  cases hb'
  exact hheld (hsi.shows.symm.trans (Slot.view_readAll_of_settled hsi.reads hst))

/-- **A NEW sent from an empty or dead slot keeps the invariant**: it takes an id nothing has. -/
theorem Inv.sendNew (hi : Inv d log) {price : Price} {qty : Qty} (hs : d.om.slot? t side = some s)
    (hst : s.state = .invalid ∨ s.state = .dead) (hw : om'.requests.WF)
    (hl : om'.requests.toList = d.om.requests.toList ++
      [⟨.new, d.om.clientId, t, d.om.nextOrderId, side, price, qty⟩])
    (hc : om'.clientId = d.om.clientId)
    (hnext : om'.nextOrderId.toNat = d.om.nextOrderId.toNat + 1)
    (hslot : om'.slot? t side =
      some { tickerId := t, orderId := d.om.nextOrderId, side, price, qty, state := .pendingNew })
    (hother : ∀ t' side', (t', side') ≠ (t, side) → om'.slot? t' side' = d.om.slot? t' side') :
    Inv ⟨om', d.books, d.inbox⟩ log := by
  have hn : d.om.nextOrderId ≠ noOrder := by
    have := UInt64.toNat_lt om'.nextOrderId
    intro h
    rw [h] at hnext
    simp [noOrder] at hnext
    omega
  have hsentN : ∀ q ∈ d.om.requests.toList, q.orderId ≠ d.om.nextOrderId := fun q hq h => by
    have := (hi.sent q hq).2.1
    rw [h] at this
    omega
  have hinboxN : ∀ r ∈ d.inbox, r.orderId ≠ d.om.nextOrderId := fun r hr h => by
    have := (hi.inbox r hr).2
    rw [h] at this
    omega
  obtain ⟨b, hb, hsi⟩ := hi.agree t side s hs
  have hempty := hi.holding_of_settled hs hst hb
  -- a NEW in flight for the slot's order would have kept it waiting
  have hnonew : ∀ q ∈ d.om.requests.toList, q.kind = .new → q.orderId ≠ s.orderId :=
    fun q hq hk h => by
      have := (hsi.fresh q hq hk h).2.1
      rcases hst with h | h <;> rw [h] at this <;> cases this
  refine ⟨hw, hi.books, ?_, ?_, ?_, ?_, ?_, ?_⟩
  · -- the requests in flight
    intro q hq
    simp only [hl, hc, hnext] at hq ⊢
    rcases List.mem_append.1 hq with hq | hq
    · obtain ⟨hqc, hqid, -⟩ := hi.sent q hq
      exact ⟨hqc, by omega, hi.newSlot_frame hs hnonew hother hq⟩
    · rw [List.mem_singleton] at hq
      subst hq
      exact ⟨rfl, Nat.lt_succ_self _, fun _ => ⟨_, hslot, rfl⟩⟩
  · -- the NEW ids in flight stay distinct
    rw [hl, List.filter_append, List.map_append, List.nodup_append]
    have hnew : (([⟨.new, d.om.clientId, t, d.om.nextOrderId, side, price, qty⟩] : List Request).filter
        (·.kind == .new)).map (·.orderId) = [d.om.nextOrderId] := rfl
    rw [hnew]
    refine ⟨hi.newIds, List.nodup_singleton _, fun a ha b' hb' => ?_⟩
    rw [List.mem_singleton] at hb'
    subst hb'
    obtain ⟨q, hq, rfl⟩ := List.mem_map.1 ha
    exact hsentN q (List.mem_of_mem_filter hq)
  · intro r hr
    obtain ⟨hrc, hrid⟩ := hi.inbox r hr
    exact ⟨hc ▸ hrc, by rw [hnext]; omega⟩
  · intro t' side' s' hs'
    rw [hnext]
    by_cases hk : (t', side') = (t, side)
    · obtain ⟨rfl, rfl⟩ := Prod.mk.inj hk
      rw [hslot] at hs'
      cases hs'
      exact .inr ⟨by simp, rfl, Nat.lt_succ_self _⟩
    · rw [hother _ _ hk] at hs'
      rcases hi.slots t' side' s' hs' with h | ⟨h₁, h₂, h₃⟩
      · exact .inl h
      · exact .inr ⟨h₁, h₂, by omega⟩
  · intro t' b' side' oid hb' hheld
    rw [hc] at hheld
    obtain ⟨s', hs', hid, hinv⟩ := hi.resting t' b' side' oid hb' hheld
    by_cases hk : (t', side') = (t, side)
    · -- nothing rests on the side of the slot that sends
      obtain ⟨rfl, rfl⟩ := Prod.mk.inj hk
      rw [hb] at hb'
      cases hb'
      exact absurd (hempty oid) hheld
    · exact ⟨s', by rw [hother _ _ hk]; exact hs', hid, hinv⟩
  · intro t' side' s' hs'
    rw [hc, hl]
    by_cases hk : (t', side') = (t, side)
    · -- the slot that sends: it waits for its NEW, and nothing about the id is answered
      obtain ⟨rfl, rfl⟩ := Prod.mk.inj hk
      rw [hslot] at hs'
      cases hs'
      have hnone : ∀ r ∈ d.inbox, ¬ r.About d.om.clientId t' side' d.om.nextOrderId :=
        fun r hr ha => hinboxN r hr ha.2.2.2
      have hread : Slot.readAll d.om.clientId t' side'
          { tickerId := t', orderId := d.om.nextOrderId, side := side', price, qty,
            state := .pendingNew } d.inbox =
          { tickerId := t', orderId := d.om.nextOrderId, side := side', price, qty,
            state := .pendingNew } := Slot.readAll_of_forall hnone
      refine ⟨b, hb, ⟨Slot.reads_of_forall fun r hr ha => absurd ha (hnone r hr), ?_, ?_, ?_, ?_⟩⟩
      · rw [hread, hempty]
        rfl
      · intro q hq hk hid
        rcases List.mem_append.1 hq with hq | hq
        · exact absurd hid (hsentN q hq)
        · rw [List.mem_singleton] at hq
          exact ⟨hq, rfl, hnone⟩
      · intro _
        exact .inl ⟨_, List.mem_append_right _ List.mem_cons_self, rfl, rfl⟩
      · intro h
        rw [hread] at h
        cases h
    · rw [hother _ _ hk] at hs'
      obtain ⟨b', hb', hsi'⟩ := hi.agree t' side' s' hs'
      refine ⟨b', hb', hsi'.append_sent fun q hq _ hid => ?_⟩
      rw [List.mem_singleton] at hq
      subst hq
      exact hi.ne_next_of_slot hn hs' hid.symm

/-- **A CANCEL sent for a live slot keeps the invariant.** -/
theorem Inv.sendCancel (hi : Inv d log) (hs : d.om.slot? t side = some s) (hlive : s.state = .live)
    (hw : om'.requests.WF)
    (hl : om'.requests.toList = d.om.requests.toList ++
      [⟨.cancel, d.om.clientId, s.tickerId, s.orderId, s.side, s.price, s.qty⟩])
    (hc : om'.clientId = d.om.clientId) (hnext : om'.nextOrderId = d.om.nextOrderId)
    (hslot : om'.slot? t side = some { s with state := .pendingCancel })
    (hother : ∀ t' side', (t', side') ≠ (t, side) → om'.slot? t' side' = d.om.slot? t' side') :
    Inv ⟨om', d.books, d.inbox⟩ log := by
  obtain ⟨b, hb, hsi⟩ := hi.agree t side s hs
  have hst : s.state ≠ .invalid := by rw [hlive]; decide
  obtain ⟨htk, hid⟩ : s.tickerId = t ∧ s.orderId.toNat < d.om.nextOrderId.toNat := by
    rcases hi.slots t side s hs with ⟨h, -⟩ | ⟨-, h₁, h₂⟩
    · exact absurd h hst
    · exact ⟨h₁, h₂⟩
  have hnonew : ∀ q ∈ d.om.requests.toList, q.kind = .new → q.orderId ≠ s.orderId :=
    fun q hq hk h => by
      have := (hsi.fresh q hq hk h).2.1
      rw [hlive] at this
      cases this
  refine ⟨hw, hi.books, ?_, ?_, ?_, ?_, ?_, ?_⟩
  · intro q hq
    simp only [hl, hc, hnext] at hq ⊢
    rcases List.mem_append.1 hq with hq | hq
    · obtain ⟨hqc, hqid, -⟩ := hi.sent q hq
      exact ⟨hqc, hqid, hi.newSlot_frame hs hnonew hother hq⟩
    · rw [List.mem_singleton] at hq
      subst hq
      exact ⟨rfl, hid, fun h => by cases h⟩
  · rw [hl, List.filter_append]
    simpa using hi.newIds
  · intro r hr
    rw [hc, hnext]
    exact hi.inbox r hr
  · intro t' side' s' hs'
    rw [hnext]
    by_cases hk : (t', side') = (t, side)
    · obtain ⟨rfl, rfl⟩ := Prod.mk.inj hk
      rw [hslot] at hs'
      cases hs'
      exact .inr ⟨by simp, htk, hid⟩
    · rw [hother _ _ hk] at hs'
      exact hi.slots t' side' s' hs'
  · intro t' b' side' oid hb' hheld
    rw [hc] at hheld
    obtain ⟨s', hs', hsid, hinv⟩ := hi.resting t' b' side' oid hb' hheld
    by_cases hk : (t', side') = (t, side)
    · obtain ⟨rfl, rfl⟩ := Prod.mk.inj hk
      rw [hs] at hs'
      cases hs'
      exact ⟨_, hslot, hsid, by simp⟩
    · exact ⟨s', by rw [hother _ _ hk]; exact hs', hsid, hinv⟩
  · intro t' side' s' hs'
    rw [hc, hl]
    by_cases hk : (t', side') = (t, side)
    · -- the slot that cancels: it shows the same order, and its CANCEL is in flight
      obtain ⟨rfl, rfl⟩ := Prod.mk.inj hk
      rw [hslot] at hs'
      cases hs'
      have hacc := Slot.reads_not_accepted hsi.reads (by rw [hlive]; decide)
      have hreads : Slot.Reads d.om.clientId t' side' { s with state := .pendingCancel } d.inbox :=
        Slot.reads_of_forall hacc
      refine ⟨b, hb, ⟨hreads, ?_, ?_, ?_, ?_⟩⟩
      · rw [Slot.view_readAll hreads, ← hsi.shows, Slot.view_readAll hsi.reads]
        simp [Slot.view, hlive]
      · intro q hq hk hqid
        rcases List.mem_append.1 hq with hq | hq
        · exact absurd hqid (hnonew q hq hk)
        · rw [List.mem_singleton] at hq
          subst hq
          cases hk
      · intro h
        cases Slot.state_readAll_of_pendingNew h
      · intro _
        exact ⟨_, List.mem_append_right _ List.mem_cons_self, rfl, htk, rfl⟩
    · rw [hother _ _ hk] at hs'
      obtain ⟨b', hb', hsi'⟩ := hi.agree t' side' s' hs'
      refine ⟨b', hb', hsi'.append_sent fun q hq hk _ => ?_⟩
      rw [List.mem_singleton] at hq
      subst hq
      cases hk

/-- **A move keeps the invariant.** -/
theorem Inv.move (hi : Inv d log) {check : TickerId → Side → Qty → Except Fault Verdict}
    {price : Price} {qty : Qty} (h : d.om.moveWith check t price side qty = .ok om') :
    Inv ⟨om', d.books, d.inbox⟩ log := by
  obtain ⟨extra, hm, hw, hl, hc⟩ := OrderManager.moveWith_moved hi.ring h
  cases hm with
  | idle => exact hi
  | new hs hst _ _ hnext hslot hother => exact hi.sendNew hs hst hw hl hc hnext hslot hother
  | cancel hs hlive _ hnext hslot hother => exact hi.sendCancel hs hlive hw hl hc hnext hslot hother

theorem Inv.moveBoth (hi : Inv d log) {check : TickerId → Side → Qty → Except Fault Verdict}
    {bid ask : Price} {clip : Qty} (h : d.om.moveBothWith check t bid ask clip = .ok om') :
    Inv ⟨om', d.books, d.inbox⟩ log := by
  simp only [OrderManager.moveBothWith, bind, Except.bind] at h
  split at h
  · cases h
  · rename_i om₁ h₁
    exact (hi.move h₁).move (d := ⟨om₁, d.books, d.inbox⟩) h

end Move

/-! ### The engine serving a request -/

section Serve

variable {d : Desk} {log : List Response} {q : Request} {evs : List Event} {x : Book.Reply}
  {books' : Array Book} {sent' : List Request}

theorem Inv.not_new_tail (hi : Inv d log) (hsent : d.om.requests.toList = q :: sent')
    (hk : q.kind = .new) : ∀ q' ∈ sent', q'.kind = .new → q'.orderId ≠ q.orderId := by
  intro q' hq' hk' hid
  have hnd := hi.newIds
  rw [hsent, List.filter_cons_of_pos (by simpa using hk), List.map_cons, List.nodup_cons] at hnd
  exact hnd.1 (List.mem_map.2 ⟨q', List.mem_filter.2 ⟨hq', by simpa using hk'⟩, hid⟩)

theorem Inv.answer_slot (hi : Inv d log) (h : Engine.serve d.books q = ⟨evs, .ok (x, books')⟩)
    {t : TickerId} {side : Side} {oid : OrderId} (hside : side ≠ .invalid) {b₀ : Book}
    (hb₀ : d.books[t.toNat]? = some b₀) {r : Response} (hr : .response r ∈ evs)
    (ha : r.About d.om.clientId t side oid) :
    (r.kind ≠ .accepted ∧ b₀.holding d.om.clientId side oid ≠ none) ∨
      q.clientId = d.om.clientId ∧ q.orderId = oid ∧ q.kind = .new ∧ q.tickerId = t ∧
        q.side = side := by
  obtain ⟨hac, hat, has, hao⟩ := ha
  obtain ⟨b, hb, hrt, hleft | ⟨hrc, hro, hinv | ⟨hnew, hrs, -⟩⟩⟩ := Engine.answer_serve hi.books h hr
  · have ht : q.tickerId = t := hrt.symm.trans hat
    subst ht
    rw [hb] at hb₀
    cases hb₀
    rw [hac, has, hao] at hleft
    exact .inl hleft
  · exact absurd (has.symm.trans hinv) hside
  · exact .inr ⟨hrc.symm.trans hac, hro.symm.trans hao, hnew, hrt.symm.trans hat,
      hrs.symm.trans has⟩

/-- **A slot agrees with its book after the engine serves a request.** -/
theorem Inv.slotInv_serve (hi : Inv d log) (h : Engine.serve d.books q = ⟨evs, .ok (x, books')⟩)
    (hsent : d.om.requests.toList = q :: sent' ∨
      q.clientId ≠ d.om.clientId ∧ sent' = d.om.requests.toList)
    {t : TickerId} {side : Side} {s : Slot} (hs : d.om.slot? t side = some s) {b₀ b₁ : Book}
    (hb₀ : d.books[t.toNat]? = some b₀) (hb₁ : books'[t.toNat]? = some b₁)
    (hsi : SlotInv d.om.clientId t side s b₀ d.om.requests.toList d.inbox log) :
    SlotInv d.om.clientId t side s b₁ sent' (d.inbox ++ Event.answersFor d.om.clientId evs) log := by
  have hside : side ≠ .invalid := by
    rintro rfl
    rw [OrderManager.slot?_invalid] at hs
    cases hs
  have hsub : ∀ q' ∈ sent', q' ∈ d.om.requests.toList := by
    rcases hsent with hsent | ⟨-, rfl⟩
    · exact fun q' hq' => by rw [hsent]; exact List.mem_cons_of_mem _ hq'
    · exact fun _ => id
  have hserved : ∀ q' ∈ d.om.requests.toList, q' ∉ sent' → q' = q := by
    intro q' hq' hq's
    rcases hsent with hsent | ⟨-, rfl⟩
    · rw [hsent] at hq'
      exact (List.mem_cons.1 hq').resolve_right hq's
    · exact absurd hq' hq's
  have hhead : q.clientId = d.om.clientId → d.om.requests.toList = q :: sent' := by
    rcases hsent with hsent | ⟨hne, -⟩
    · exact fun _ => hsent
    · exact fun hc => absurd hc hne
  have hrn : ∀ r ∈ Event.answersFor d.om.clientId evs, .response r ∈ evs :=
    fun r hr => (Event.mem_answersFor.1 hr).1
  have htrack : Event.trackAll d.om.clientId t side s.orderId (b₀.holding d.om.clientId side s.orderId)
      ((Event.answersFor d.om.clientId evs).map .response) = b₁.holding d.om.clientId side s.orderId := by
    rw [Event.trackAll_answersFor]
    exact Engine.track_serve hi.books h _ t side s.orderId hb₀ hb₁
  set s₀ := s.readAll d.om.clientId t side d.inbox with hs₀
  -- it reads the new answers in step: they hold an ACCEPTED about its order only when the
  -- request is its own NEW, which it waits for having read nothing about the order
  have hreads : s₀.Reads d.om.clientId t side (Event.answersFor d.om.clientId evs) := by
    by_cases hown : q.clientId = d.om.clientId ∧ q.orderId = s.orderId ∧ q.kind = .new ∧
        q.tickerId = t ∧ q.side = side
    · obtain ⟨hqc, hqo, hqk, -, -⟩ := hown
      have hq : q ∈ d.om.requests.toList := by rw [hhead hqc]; exact List.mem_cons_self
      obtain ⟨rfl, hpn, hno⟩ := hsi.fresh q hq hqk hqo
      have hs₀s : s₀ = s := Slot.readAll_of_forall hno
      obtain ⟨kind, rest, hans, -, hfill⟩ := Engine.answersFor_serve_new hi.books h rfl
      dsimp only at hans
      rw [hs₀s, hans]
      refine ⟨fun _ _ => ⟨hpn, rfl, rfl⟩, Slot.reads_of_forall fun r hr _ hk => ?_⟩
      rw [hfill r (Event.mem_answersFor.1 hr).1] at hk
      cases hk
    · refine Slot.reads_of_forall fun r hr ha => ?_
      rw [Slot.orderId_readAll] at ha
      rcases hi.answer_slot h hside hb₀ (hrn r hr) ha with ⟨hk, -⟩ | hown'
      · exact hk
      · exact absurd hown' hown
  have hshows : (s.readAll d.om.clientId t side (d.inbox ++ Event.answersFor d.om.clientId evs)).view =
      b₁.holding d.om.clientId side s.orderId := by
    rw [Slot.readAll_append, ← hs₀, Slot.view_readAll hreads, Slot.orderId_readAll, hsi.shows, htrack]
  refine ⟨Slot.reads_append.2 ⟨hsi.reads, hreads⟩, hshows, ?_, ?_, ?_⟩
  · -- a NEW still in flight: the served request answered nothing about its order
    intro q' hq' hk hid
    obtain ⟨hqe, hpn, hno⟩ := hsi.fresh q' (hsub q' hq') hk hid
    refine ⟨hqe, hpn, fun r hr ha => ?_⟩
    rcases List.mem_append.1 hr with hr | hr
    · exact hno r hr ha
    · rcases hi.answer_slot h hside hb₀ (hrn r hr) ha with ⟨-, hheld⟩ | ⟨hqc, hqo, hqk, -, -⟩
      · -- the order does not rest yet
        have hs₀s : s₀ = s := Slot.readAll_of_forall hno
        rw [← hsi.shows, ← hs₀, hs₀s] at hheld
        exact hheld (by simp [Slot.view, hpn])
      · exact hi.not_new_tail (hhead hqc) hqk q' hq' hk (hid.trans hqo.symm)
  · -- still waiting for a NEW: it is in flight, or was answered
    intro hpn
    rw [Slot.readAll_append] at hpn
    rcases hsi.waitNew (Slot.state_readAll_of_pendingNew hpn) with ⟨q', hq', hk, hid⟩ | ⟨r, hr, hinv⟩
    · by_cases hq's : q' ∈ sent'
      · exact .inl ⟨q', hq's, hk, hid⟩
      · -- it was the request served: its own answer is in flight now
        obtain ⟨hqe, hst, hno⟩ := hsi.fresh q' hq' hk hid
        obtain rfl := hserved q' hq' hq's
        subst hqe
        have hs₀s : s₀ = s := Slot.readAll_of_forall hno
        obtain ⟨kind, rest, hans, hkind, -⟩ := Engine.answersFor_serve_new hi.books h hk
        dsimp only at hans
        rw [← hs₀, hs₀s, hans, Slot.readAll_cons] at hpn
        rcases hkind with rfl | rfl
        · -- answered INVALID
          have hmem : (⟨.invalid, d.om.clientId, t, s.orderId, side, s.price, 0, s.qty⟩ : Response) ∈
              Event.answersFor d.om.clientId evs := by
            rw [hans]
            exact List.mem_cons_self
          exact .inr ⟨_, List.mem_append_right _ (List.mem_append_right _ hmem),
            ⟨rfl, rfl, rfl, rfl⟩, rfl⟩
        · -- ACCEPTED makes it live, and no answer makes it wait again
          have hlive := Slot.state_readAll_of_pendingNew hpn
          simp [Slot.read, Response.About, Slot.answer] at hlive
    · rw [← List.append_assoc]
      exact .inr ⟨r, List.mem_append_left _ hr, hinv⟩
  · -- still waiting for a CANCEL: it is in flight, since a served CANCEL takes the order out
    intro hpc
    have hpc₀ : s₀.state = .pendingCancel := by
      rw [Slot.readAll_append] at hpc
      exact Slot.state_readAll_of_pendingCancel hpc
    obtain ⟨q', hq', hk, hqt, hid⟩ := hsi.waitCancel hpc₀
    by_cases hq's : q' ∈ sent'
    · exact ⟨q', hq's, hk, hqt, hid⟩
    · obtain rfl := hserved q' hq' hq's
      obtain ⟨b, hb, hb'⟩ := Engine.books_serve_cancel h hk
      rw [hqt, hb₀] at hb
      cases hb
      rw [hqt, hb₁] at hb'
      cases hb'
      have hgone := Book.holding_cancel_self (hi.books.wf _ b₀ hb₀) q'.clientId q'.orderId side
      rw [(hi.sent q' hq').1, hid] at hgone hshows
      rw [hgone] at hshows
      simp [Slot.view, hpc] at hshows

/-- **The engine serving a request keeps the invariant**: the participant's oldest request, which
leaves its ring, or a request of another participant. -/
theorem Inv.serve (hi : Inv d log) (h : Engine.serve d.books q = ⟨evs, .ok (x, books')⟩)
    {om' : OrderManager} (hw : om'.requests.WF) (hc : om'.clientId = d.om.clientId)
    (hnext : om'.nextOrderId = d.om.nextOrderId)
    (hslots : ∀ t side, om'.slot? t side = d.om.slot? t side)
    (hsent : d.om.requests.toList = q :: om'.requests.toList ∨
      q.clientId ≠ d.om.clientId ∧ om'.requests.toList = d.om.requests.toList) :
    Inv ⟨om', books', d.inbox ++ Event.answersFor d.om.clientId evs⟩ log := by
  have hsub : om'.requests.toList.Sublist d.om.requests.toList := by
    rcases hsent with hsent | ⟨-, hsame⟩
    · rw [hsent]; exact List.sublist_cons_self _ _
    · rw [hsame]
  have hhead : q.clientId = d.om.clientId → q ∈ d.om.requests.toList := by
    rcases hsent with hsent | ⟨hne, -⟩
    · exact fun _ => by rw [hsent]; exact List.mem_cons_self
    · exact fun hc => absurd hc hne
  have hbook : ∀ (t : TickerId) (b₁ : Book), books'[t.toNat]? = some b₁ →
      ∃ b₀, d.books[t.toNat]? = some b₀ := by
    intro t b₁ hb₁
    have := Engine.isSome_serve h t.toNat
    rw [hb₁] at this
    exact Option.isSome_iff_exists.1 this.symm
  refine ⟨hw, hi.books.serve h, ?_, ?_, ?_, ?_, ?_, ?_⟩
  · intro q' hq'
    rw [hc, hnext, hslots]
    exact hi.sent q' (hsub.subset hq')
  · exact ((hsub.filter _).map _).nodup hi.newIds
  · intro r hr
    rw [hc, hnext]
    rcases List.mem_append.1 hr with hr | hr
    · exact hi.inbox r hr
    · obtain ⟨hre, hrc⟩ := Event.mem_answersFor.1 hr
      refine ⟨hrc, ?_⟩
      obtain ⟨b, hb, -, ⟨-, hheld⟩ | ⟨hqc, hqo, -⟩⟩ := Engine.answer_serve hi.books h hre
      · -- an answer about an order that rests: the order of a slot
        rw [hrc] at hheld
        obtain ⟨s, hs, hso, hinv⟩ := hi.resting _ b _ _ hb hheld
        rcases hi.slots _ _ s hs with ⟨h', -⟩ | ⟨-, -, hid⟩
        · exact absurd h' hinv
        · rw [← hso]; exact hid
      · rw [hqo]
        exact (hi.sent q (hhead (hqc.symm.trans hrc))).2.1
  · intro t side s hs
    rw [hnext]
    rw [hslots] at hs
    exact hi.slots t side s hs
  · intro t b₁ sd oid hb₁ hheld
    rw [hc] at hheld
    rw [hslots]
    obtain ⟨b₀, hb₀⟩ := hbook t b₁ hb₁
    by_cases h0 : b₀.holding d.om.clientId sd oid = none
    · -- it did not rest before: the request was the participant's NEW for it
      have hacc : ∃ r, .response r ∈ evs ∧ r.About d.om.clientId t sd oid ∧ r.kind = .accepted := by
        by_contra hno
        refine hheld ?_
        rw [← Engine.track_serve hi.books h _ t sd oid hb₀ hb₁, h0]
        exact Event.trackAll_none fun r hr ha hk => hno ⟨r, hr, ha, hk⟩
      obtain ⟨r, hr, ha, hk⟩ := hacc
      have hsd : sd ≠ .invalid := by
        rintro rfl
        exact hheld rfl
      rcases hi.answer_slot h hsd hb₀ hr ha with ⟨hk', -⟩ | ⟨hqc, hqo, hqk, hqt, hqs⟩
      · exact absurd hk hk'
      · obtain ⟨-, hqid, hnew⟩ := hi.sent q (hhead hqc)
        obtain ⟨s, hs, hso⟩ := hnew hqk
        rw [hqt, hqs] at hs
        refine ⟨s, hs, hso.trans hqo, fun hinv => ?_⟩
        rcases hi.slots t sd s hs with ⟨-, hno⟩ | ⟨h', -⟩
        · exact ne_noOrder_of_lt hqid (hso.symm.trans hno)
        · exact h' hinv
    · exact hi.resting t b₀ sd oid hb₀ h0
  · intro t side s hs
    rw [hc]
    rw [hslots] at hs
    obtain ⟨b₀, hb₀, hsi⟩ := hi.agree t side s hs
    obtain ⟨b₁, hb₁⟩ : ∃ b₁, books'[t.toNat]? = some b₁ := by
      have := Engine.isSome_serve h t.toNat
      rw [hb₀] at this
      exact Option.isSome_iff_exists.1 this
    exact ⟨b₁, hb₁, hi.slotInv_serve h hsent hs hb₀ hb₁ hsi⟩

end Serve

/-! ### Runs -/

/-- The runs from an order manager `om₀` and the books `books₀` of an engine: moves of one or
both sides of a ticker under any pre-trade check, the engine serving the manager's oldest request
or any request of another participant, and the manager reading its oldest answer. The list is
every answer the manager has read, oldest first. -/
inductive Run (om₀ : OrderManager) (books₀ : Array Book) : Desk → List Response → Prop
  | start : Run om₀ books₀ ⟨om₀, books₀, []⟩ []
  | move {d : Desk} {log : List Response} {om : OrderManager}
      (check : TickerId → Side → Qty → Except Fault Verdict) (t : TickerId) (price : Price)
      (side : Side) (qty : Qty) :
      Run om₀ books₀ d log → d.om.moveWith check t price side qty = .ok om →
      Run om₀ books₀ ⟨om, d.books, d.inbox⟩ log
  | moveBoth {d : Desk} {log : List Response} {om : OrderManager}
      (check : TickerId → Side → Qty → Except Fault Verdict) (t : TickerId) (bid ask : Price)
      (clip : Qty) :
      Run om₀ books₀ d log → d.om.moveBothWith check t bid ask clip = .ok om →
      Run om₀ books₀ ⟨om, d.books, d.inbox⟩ log
  | serve {d : Desk} {log : List Response} {q : Request} {rq : Ring Request} {evs : List Event}
      {x : Book.Reply} {books : Array Book} :
      Run om₀ books₀ d log → d.om.requests.pop = (some q, rq) →
      Engine.serve d.books q = ⟨evs, .ok (x, books)⟩ →
      Run om₀ books₀ ⟨{ d.om with requests := rq }, books,
        d.inbox ++ Event.answersFor d.om.clientId evs⟩ log
  | serveOther {d : Desk} {log : List Response} {q : Request} {evs : List Event}
      {x : Book.Reply} {books : Array Book} :
      Run om₀ books₀ d log → q.clientId ≠ d.om.clientId →
      Engine.serve d.books q = ⟨evs, .ok (x, books)⟩ →
      Run om₀ books₀ ⟨d.om, books, d.inbox ++ Event.answersFor d.om.clientId evs⟩ log
  | read {d : Desk} {log : List Response} {r : Response} {rs : List Response} :
      Run om₀ books₀ d log → d.inbox = r :: rs →
      Run om₀ books₀ ⟨d.om.onResponse r, d.books, rs⟩ (log ++ [r])

theorem createBooks_getElem? {maxOrders maxLevels : Nat} : ∀ {ts : List Nat} {bs : List Book},
    Engine.createBooks maxOrders maxLevels ts = .ok bs → bs.length = ts.length ∧
      ∀ (i : Nat) (b : Book), bs[i]? = some b →
        ∃ t, ts[i]? = some t ∧ Book.create t.toUInt32 maxOrders maxLevels = .ok b
  | [], bs, h => by
    cases h
    exact ⟨rfl, fun i b hb => by simp at hb⟩
  | t :: ts, bs, h => by
    simp only [Engine.createBooks, bind, Except.bind, pure, Except.pure] at h
    split at h
    · cases h
    · rename_i b hb
      split at h
      · cases h
      · rename_i bs' hbs
        cases h
        obtain ⟨hlen, hget⟩ := createBooks_getElem? hbs
        refine ⟨by simp [hlen], fun i b' hb' => ?_⟩
        cases i with
        | zero =>
          simp only [List.getElem?_cons_zero, Option.some.injEq] at hb'
          subst hb'
          exact ⟨t, rfl, hb⟩
        | succ i => exact hget i b' (by simpa using hb')

theorem books_create {sz : EngineSizes} {e : Engine} (h : Engine.create sz = .ok e) :
    e.books.size = sz.maxTickers ∧ Engine.BooksWF e.books ∧
      ∀ (i : Nat) (b : Book), e.books[i]? = some b → b.bids = [] ∧ b.asks = [] := by
  simp only [Engine.create, bind, Except.bind, pure, Except.pure] at h
  split at h
  · cases h
  split at h
  · cases h
  split at h
  · cases h
  split at h
  · cases h
  rename_i bs hbs
  cases h
  obtain ⟨hlen, hget⟩ := createBooks_getElem? hbs
  have hbook : ∀ (i : Nat) (b : Book), bs.toArray[i]? = some b →
      i < sz.maxTickers ∧ Book.create i.toUInt32 sz.maxOrders sz.maxPriceLevels = .ok b := by
    intro i b hb
    obtain ⟨t, ht, hc⟩ := hget i b (by simpa using hb)
    have hi : i < sz.maxTickers := by simpa using (List.getElem?_eq_some_iff.1 ht).1
    rw [List.getElem?_range hi] at ht
    cases ht
    exact ⟨hi, hc⟩
  refine ⟨by simp [hlen], ⟨fun i b hb => Book.wf_create (hbook i b hb).2, fun t b hb => ?_⟩,
    fun i b hb => ?_⟩
  · rw [Book.ticker_create (hbook _ b hb).2]
    simp
  · have hc := (hbook i b hb).2
    simp only [Book.create, bind, Except.bind, pure, Except.pure] at hc
    split at hc
    · cases hc
    · split at hc
      · cases hc
      · cases hc
        exact ⟨rfl, rfl⟩

theorem slot?_create {c : ClientId} {T cap : Nat} {om : OrderManager}
    (h : OrderManager.create c T cap = .ok om) {t : TickerId} {side : Side} {s : Slot}
    (hs : om.slot? t side = some s) : s = {} := by
  simp only [OrderManager.create, bind, Except.bind, pure, Except.pure] at h
  split at h
  · cases h
  · cases h
    unfold OrderManager.slot? at hs
    split at hs
    · rename_i p _ hp
      simp only [Array.getElem?_replicate] at hp
      split at hp
      · cases hp; cases hs; rfl
      · cases hp
    · rename_i p _ hp
      simp only [Array.getElem?_replicate] at hp
      split at hp
      · cases hp; cases hs; rfl
      · cases hp
    · cases hs

/-- **The invariant holds at the start**: a new order manager, and the books of a new engine with
at least as many tickers. -/
theorem inv_start {c : ClientId} {T cap : Nat} {sz : EngineSizes} {om₀ : OrderManager}
    {e₀ : Engine} (hom : OrderManager.create c T cap = .ok om₀) (he : Engine.create sz = .ok e₀)
    (hT : T ≤ sz.maxTickers) : Inv ⟨om₀, e₀.books, []⟩ [] := by
  obtain ⟨hsize, hbooks, hempty⟩ := books_create he
  have hom' := hom
  simp only [OrderManager.create, bind, Except.bind, pure, Except.pure] at hom'
  split at hom'
  · cases hom'
  rename_i rq hrq
  cases hom'
  have hnone : ∀ (t : TickerId) (b : Book) side oid, e₀.books[t.toNat]? = some b →
      b.holding c side oid = none := by
    intro t b side oid hb
    obtain ⟨hbids, hasks⟩ := hempty _ b hb
    cases side <;> simp [Book.holding, Book.levels, hbids, hasks, Book.holdingIn]
  refine ⟨Ring.wf_create hrq, hbooks, (by simp [Ring.toList_create hrq]),
    (by simp [Ring.toList_create hrq]), (fun r hr => by cases hr), (fun t side s hs => ?_),
    (fun t b side oid hb hheld => absurd (hnone t b side oid hb) hheld), (fun t side s hs => ?_)⟩
  · rw [slot?_create hom hs]
    exact .inl ⟨rfl, rfl⟩
  · have hlt := OrderManager.lt_size_of_slot? hs
    simp only [Array.size_replicate] at hlt
    obtain ⟨b, hb⟩ : ∃ b, e₀.books[t.toNat]? = some b :=
      ⟨_, Array.getElem?_eq_getElem (by omega)⟩
    rw [slot?_create hom hs]
    refine ⟨b, hb, ⟨trivial, ?_, (fun q hq => by simp [Ring.toList_create hrq] at hq),
      (fun h => by cases h), (fun h => by cases h)⟩⟩
    rw [hnone t b side _ hb]
    rfl

/-- **Every run keeps the invariant.** -/
theorem Run.inv {om₀ : OrderManager} {books₀ : Array Book} (h₀ : Inv ⟨om₀, books₀, []⟩ [])
    {d : Desk} {log : List Response} (h : Run om₀ books₀ d log) : Inv d log := by
  induction h with
  | start => exact h₀
  | move _ _ _ _ _ _ hm ih => exact ih.move hm
  | moveBoth _ _ _ _ _ _ hm ih => exact ih.moveBoth hm
  | serve _ hpop hs ih =>
    obtain ⟨hw, hl⟩ := ih.ring.pop
    rw [hpop] at hw hl
    exact ih.serve hs hw rfl rfl (fun _ _ => rfl) (.inl hl)
  | serveOther _ hne hs ih => exact ih.serve hs ih.ring rfl rfl (fun _ _ => rfl) (.inr ⟨hne, rfl⟩)
  | read _ hr ih => exact ih.read hr

theorem Run.clientId {om₀ : OrderManager} {books₀ : Array Book} {d : Desk} {log : List Response}
    (hw : om₀.requests.WF) (h : Run om₀ books₀ d log) :
    d.om.clientId = om₀.clientId ∧ d.om.requests.WF := by
  induction h with
  | start => exact ⟨rfl, hw⟩
  | move _ _ _ _ _ _ hm ih =>
    obtain ⟨_, -, hw', -, hc⟩ := OrderManager.moveWith_moved ih.2 hm
    exact ⟨hc.trans ih.1, hw'⟩
  | moveBoth _ _ _ _ _ _ hm ih =>
    simp only [OrderManager.moveBothWith, bind, Except.bind] at hm
    split at hm
    · cases hm
    · rename_i om₁ h₁
      obtain ⟨_, -, hw₁, -, hc₁⟩ := OrderManager.moveWith_moved ih.2 h₁
      obtain ⟨_, -, hw₂, -, hc₂⟩ := OrderManager.moveWith_moved hw₁ hm
      exact ⟨hc₂.trans (hc₁.trans ih.1), hw₂⟩
  | serve _ hpop _ ih =>
    obtain ⟨hw', -⟩ := ih.2.pop
    rw [hpop] at hw'
    exact ⟨ih.1, hw'⟩
  | serveOther _ _ _ ih => exact ih
  | read _ _ ih => exact ⟨by simpa using ih.1, by simpa using ih.2⟩

/-! ### One order per slot -/

open Level in
theorem length_filter_le_one {os : List Resting} (hnd : (os.map (·.orderId)).Nodup) {c : ClientId}
    {oid : OrderId} (h : ∀ o ∈ os, o.clientId = c → o.orderId = oid) :
    (os.filter (·.clientId == c)).length ≤ 1 := by
  have hnd' : ((os.filter (·.clientId == c)).map (·.orderId)).Nodup :=
    ((List.filter_sublist).map _).nodup hnd
  have hall : ∀ x ∈ (os.filter (·.clientId == c)).map (·.orderId), x = oid := by
    intro x hx
    obtain ⟨o, ho, rfl⟩ := List.mem_map.1 hx
    obtain ⟨ho, hoc⟩ := List.mem_filter.1 ho
    exact h o ho (by simpa using hoc)
  rw [List.eq_replicate_iff.2 ⟨rfl, hall⟩, List.nodup_replicate] at hnd'
  simpa using hnd'

/-- **One order per slot, and no slot left waiting.** An order manager for participant `c` with
`T` tickers trades on the books of an engine with at least `T` tickers, through any run:
* on each side of each book, at most one order of `c` rests, and it is the current order of the
  slot of that ticker and side;
* when no request and no answer is in flight, every slot is empty, dead, or live with its order
  resting at the slot's price with the slot's quantity left, or it waits for a NEW that the
  engine answered INVALID. -/
theorem trades_one_order_per_slot {c : ClientId} {T cap : Nat} {sz : EngineSizes}
    {om₀ : OrderManager} {e₀ : Engine} (hom : OrderManager.create c T cap = .ok om₀)
    (he : Engine.create sz = .ok e₀) (hT : T ≤ sz.maxTickers) {d : Desk} {log : List Response}
    (hrun : Run om₀ e₀.books d log) :
    (∀ (t : TickerId) (b : Book) (side : Side), d.books[t.toNat]? = some b →
      ((Level.ordersOf (b.levels side)).filter (·.clientId == c)).length ≤ 1 ∧
      ∀ o ∈ Level.ordersOf (b.levels side), o.clientId = c →
        ∃ s, d.om.slot? t side = some s ∧ s.orderId = o.orderId) ∧
    (d.om.requests.toList = [] → d.inbox = [] → ∀ t side s, d.om.slot? t side = some s →
      s.state = .invalid ∨ s.state = .dead ∨
      (s.state = .live ∧ ∃ b o, d.books[t.toNat]? = some b ∧
        b.find? s.orderId = some (side, s.price, o) ∧ o.clientId = c ∧ o.qty = s.qty) ∨
      (s.state = .pendingNew ∧ ∃ r ∈ log, r.About c t side s.orderId ∧ r.kind = .invalid)) := by
  have hi := hrun.inv (inv_start hom he hT)
  have hc : d.om.clientId = c := by
    have hw₀ := (inv_start hom he hT).ring
    rw [(hrun.clientId hw₀).1]
    simp only [OrderManager.create, bind, Except.bind, pure, Except.pure] at hom
    split at hom
    · cases hom
    · cases hom; rfl
  subst hc
  refine ⟨fun t b side hb => ?_, fun hsent hinbox t side s hs => ?_⟩
  · -- every order of `c` resting on a side is the order of the slot
    have hwf := hi.books.wf _ b hb
    have hslot : ∀ o ∈ Level.ordersOf (b.levels side), o.clientId = d.om.clientId →
        ∃ s, d.om.slot? t side = some s ∧ s.orderId = o.orderId := by
      intro o ho hoc
      have hheld := Book.holding_ne_none_of_mem hwf ho
      rw [hoc] at hheld
      obtain ⟨s, hs, hso, -⟩ := hi.resting t b side o.orderId hb hheld
      exact ⟨s, hs, hso⟩
    refine ⟨?_, hslot⟩
    by_cases hex : ∃ o ∈ Level.ordersOf (b.levels side), o.clientId = d.om.clientId
    · obtain ⟨o, ho, hoc⟩ := hex
      obtain ⟨s, hs, -⟩ := hslot o ho hoc
      refine @length_filter_le_one _ (Book.nodup_side hwf side) _ s.orderId fun o' ho' hoc' => ?_
      obtain ⟨s', hs', hso'⟩ := hslot o' ho' hoc'
      rw [hs] at hs'
      cases hs'
      exact hso'.symm
    · have hnil : (Level.ordersOf (b.levels side)).filter (·.clientId == d.om.clientId) = [] :=
        List.filter_eq_nil_iff.2 fun o ho hoc => hex ⟨o, ho, by simpa using hoc⟩
      simp [hnil]
  · -- nothing in flight: the slot shows what rests, and waits only for a refused NEW
    obtain ⟨b, hb, hsi⟩ := hi.agree t side s hs
    rw [hsent, hinbox] at hsi
    have hshows := hsi.shows
    rw [Slot.readAll_nil] at hshows
    cases hst : s.state with
    | invalid => exact .inl rfl
    | dead => exact .inr (.inl rfl)
    | live =>
      have hheld : b.holding d.om.clientId side s.orderId = some (s.price, s.qty) := by
        rw [← hshows]; simp [Slot.view, hst]
      obtain ⟨o, hf, hoc, hoq⟩ := Book.find?_of_holding (hi.books.wf _ b hb) hheld
      exact .inr (.inr (.inl ⟨rfl, b, o, hb, hf, hoc, hoq⟩))
    | pendingNew =>
      rcases hsi.waitNew (by simpa using hst) with ⟨q, hq, -⟩ | ⟨r, hr, hinv⟩
      · cases hq
      · rw [List.append_nil] at hr
        exact .inr (.inr (.inr ⟨rfl, r, hr, hinv⟩))
    | pendingCancel =>
      obtain ⟨q, hq, -⟩ := hsi.waitCancel (by simpa using hst)
      cases hq

/-- The law for participant 1 with one ticker, after a NEW of one lot is sent, accepted, and read:
the slot is live, and its order rests. -/
theorem trades_one_order_per_slot_after_one_order :
    ∃ (om₀ : OrderManager) (e₀ : Engine) (d : Desk) (log : List Response),
      OrderManager.create 1 1 4 = .ok om₀ ∧ Engine.create ⟨1, 4, 4, 4, 8, 8⟩ = .ok e₀ ∧
      1 ≤ (⟨1, 4, 4, 4, 8, 8⟩ : EngineSizes).maxTickers ∧ Run om₀ e₀.books d log ∧
      (∀ (t : TickerId) (b : Book) (side : Side), d.books[t.toNat]? = some b →
        ((Level.ordersOf (b.levels side)).filter (·.clientId == 1)).length ≤ 1 ∧
        ∀ o ∈ Level.ordersOf (b.levels side), o.clientId = 1 →
          ∃ s, d.om.slot? t side = some s ∧ s.orderId = o.orderId) ∧
      (d.om.requests.toList = [] → d.inbox = [] → ∀ t side s, d.om.slot? t side = some s →
        s.state = .invalid ∨ s.state = .dead ∨
        (s.state = .live ∧ ∃ b o, d.books[t.toNat]? = some b ∧
          b.find? s.orderId = some (side, s.price, o) ∧ o.clientId = 1 ∧ o.qty = s.qty) ∨
        (s.state = .pendingNew ∧ ∃ r ∈ log, r.About 1 t side s.orderId ∧ r.kind = .invalid)) := by
  refine ⟨_, _, _, _, rfl, rfl, Nat.le_refl 1,
    Run.read (Run.serve (Run.move (fun _ _ _ => .ok .allowed) 0 100 .buy 1 Run.start rfl) rfl rfl) rfl, ?_⟩
  exact @trades_one_order_per_slot 1 1 4 ⟨1, 4, 4, 4, 8, 8⟩ _ _ rfl rfl (Nat.le_refl 1) _ _
    (Run.read (Run.serve (Run.move (fun _ _ _ => .ok .allowed) 0 100 .buy 1 Run.start rfl) rfl rfl) rfl)

/-- A NEW of quantity 0, which the check allows, is answered INVALID, and its slot keeps waiting
for it with nothing in flight. -/
theorem slot_waits_after_invalid_new :
    ∃ (om₀ : OrderManager) (e₀ : Engine) (d : Desk) (log : List Response) (s : Slot),
      OrderManager.create 1 1 4 = .ok om₀ ∧ Engine.create ⟨1, 4, 4, 4, 8, 8⟩ = .ok e₀ ∧
      Run om₀ e₀.books d log ∧ d.om.requests.toList = [] ∧ d.inbox = [] ∧
      d.om.slot? 0 .buy = some s ∧ s.state = .pendingNew :=
  ⟨_, _, _, _, _, rfl, rfl,
    Run.read (Run.serve (Run.move (fun _ _ _ => .ok .allowed) 0 100 .buy 0 Run.start rfl) rfl rfl) rfl,
    rfl, rfl, rfl, rfl⟩

end Desk

end Exchange
