import Exchange.Proofs.Ring
import Exchange.Proofs.Book.Reference
import Exchange.Engine

/-!
# The engine over rings is the engine over lists

With lists for sinks, the engine is plain: each request, oldest first, is the call it makes on the
book of its ticker (`Engine.serve`), and the events of all of them form one list
(`Outcome.runCalls`). The engine over rings splits that list over two rings, takes its requests
from a third in batches, and is read while it runs.

`Engine.Run` is any schedule of pushes onto the request ring, polls that complete and pops from
the two output rings, with what the outside saw of it (`Engine.Seen`). Along every run, a poll
of at most `max` requests processes `min max pending` of them, oldest first; the requests
processed are the first ones pushed and the others wait in order; the responses popped, then
those still in their ring, are the answers of the list engine on the processed requests, and
likewise the updates; and each book is what the requests for its own ticker made of it
(`Engine.serves_as_list_engine`).

A poll that stops at a fault falls outside this: the request that faulted and those after it
stay pending, and a full output ring loses events the list engine keeps.
-/

namespace Exchange

/-! ## The list engine -/

/-- What a request asks of the book of its ticker: a NEW places a limit order, a CANCEL cancels
one. -/
def Request.toCall (r : Request) : Book.Call :=
  match r.kind with
  | .cancel => .cancel r.clientId r.orderId
  | _ => .add r.clientId r.orderId r.side r.price r.qty

/-- The answer of an event, if it is one. -/
def Event.response? : Event → Option Response
  | .response r => some r
  | .update _ => none

/-- The update of an event, if it is one. -/
def Event.update? : Event → Option Update
  | .update u => some u
  | .response _ => none

namespace Engine

/-- One request on the books, its events kept in a list: the book of its ticker answers the call
it makes. A ticker with no book, or the invalid kind, is a fault. -/
def serve (books : Array Book) (r : Request) : Outcome (Book.Reply × Array Book) :=
  match books[r.tickerId.toNat]?, r.kind with
  | none, _ => ⟨[], .error (.unknownTicker r)⟩
  | some _, .invalid => ⟨[], .error (.invalidRequestKind r)⟩
  | some b, _ =>
    let o := b.call r.toCall
    ⟨o.events, o.result.map fun (x, b') => (x, books.set! r.tickerId.toNat b')⟩

end Engine

namespace Outcome

variable {σ ρ γ : Type} {step : σ → γ → Outcome (ρ × σ)} {s s' : σ}

theorem runCalls_cons_of_ok {c : γ} {cs : List γ} {x : ρ} (h : (step s c).result = .ok (x, s')) :
    Outcome.runCalls step s (c :: cs) =
      ⟨(step s c).events ++ (Outcome.runCalls step s' cs).events,
        (Outcome.runCalls step s' cs).result.map fun (xs, s'') => (x :: xs, s'')⟩ := by
  simp only [Outcome.runCalls, h]

theorem runCalls_append_of_ok {cs : List γ} (cs' : List γ) {evs : List Event} {xs : List ρ}
    (h : Outcome.runCalls step s cs = ⟨evs, .ok (xs, s')⟩) :
    Outcome.runCalls step s (cs ++ cs') =
      ⟨evs ++ (Outcome.runCalls step s' cs').events,
        (Outcome.runCalls step s' cs').result.map fun (ys, s'') => (xs ++ ys, s'')⟩ := by
  induction cs generalizing s evs xs with
  | nil =>
    simp only [Outcome.runCalls, Outcome.mk.injEq, Except.ok.injEq, Prod.mk.injEq] at h
    obtain ⟨rfl, rfl, rfl⟩ := h
    cases hr : (Outcome.runCalls step s cs').result <;> simp [Except.map] <;> rw [← hr]
  | cons c cs ih =>
    cases hc : (step s c).result with
    | error f => simp [Outcome.runCalls, hc] at h
    | ok p =>
      obtain ⟨x, s₁⟩ := p
      rw [runCalls_cons_of_ok hc] at h
      cases hr : (Outcome.runCalls step s₁ cs).result with
      | error f => rw [hr] at h; cases h
      | ok q =>
        obtain ⟨xs', s₂⟩ := q
        rw [hr] at h
        simp only [Except.map, Outcome.mk.injEq, Except.ok.injEq, Prod.mk.injEq] at h
        obtain ⟨rfl, ⟨rfl, rfl⟩, rfl⟩ := h
        have hrest : Outcome.runCalls step s₁ cs =
            ⟨(Outcome.runCalls step s₁ cs).events, .ok (xs', s₂)⟩ := by
          rw [← hr]
        rw [List.cons_append, runCalls_cons_of_ok hc, ih hrest]
        cases (Outcome.runCalls step s₂ cs').result <;> simp [Except.map]

end Outcome

namespace Engine

variable {books books' : Array Book} {b : Book} {r : Request}

theorem serve_of_new (hb : books[r.tickerId.toNat]? = some b) (hk : r.kind = .new) :
    serve books r = ⟨(b.add r.clientId r.orderId r.side r.price r.qty).events,
      (b.add r.clientId r.orderId r.side r.price r.qty).result.map
        fun b' => (.done, books.set! r.tickerId.toNat b')⟩ := by
  simp only [serve, hb, hk, Request.toCall, Book.call]
  cases (b.add r.clientId r.orderId r.side r.price r.qty).result <;> rfl

theorem serve_of_cancel (hb : books[r.tickerId.toNat]? = some b) (hk : r.kind = .cancel) :
    serve books r = ⟨(b.cancel r.clientId r.orderId).1,
      .ok (.done, books.set! r.tickerId.toNat (b.cancel r.clientId r.orderId).2)⟩ := by
  simp only [serve, hb, hk, Request.toCall, Book.call]
  rfl

theorem serve_eq_ok {x : Book.Reply} (h : (serve books r).result = .ok (x, books')) :
    ∃ b b', books[r.tickerId.toNat]? = some b ∧ (b.call r.toCall).result = .ok (x, b') ∧
      books' = books.set! r.tickerId.toNat b' := by
  unfold serve at h
  split at h
  · cases h
  · cases h
  · rename_i b _ _
    cases hc : (b.call r.toCall).result with
    | error f => simp [hc, Except.map] at h
    | ok p =>
      obtain ⟨x', b'⟩ := p
      simp only [hc, Except.map, Except.ok.injEq, Prod.mk.injEq] at h
      obtain ⟨rfl, rfl⟩ := h
      exact ⟨b, b', by assumption, hc, rfl⟩

/-- **Each book is what the requests for its own ticker made of it**: a run of the list engine
that completes leaves at each ticker the book that the calls of that ticker's requests, alone and
in order, lead to. -/
theorem runCalls_serve_books : ∀ {books books' : Array Book} {reqs : List Request}
    {evs : List Event} {xs : List Book.Reply},
    Outcome.runCalls serve books reqs = ⟨evs, .ok (xs, books')⟩ →
    ∀ t b, books[t]? = some b → ∃ ys b', books'[t]? = some b' ∧
      (Outcome.runCalls Book.call b
        ((reqs.filter fun r => r.tickerId.toNat = t).map Request.toCall)).result = .ok (ys, b')
  | books, books', [], evs, xs, h, t, b, hb => by
    simp only [Outcome.runCalls, Outcome.mk.injEq, Except.ok.injEq, Prod.mk.injEq] at h
    obtain ⟨-, -, rfl⟩ := h
    exact ⟨[], b, hb, rfl⟩
  | books, books', r :: rs, evs, xs, h, t, b, hb => by
    cases hs : (serve books r).result with
    | error f => simp [Outcome.runCalls, hs] at h
    | ok p =>
      obtain ⟨x, books₁⟩ := p
      obtain ⟨b₀, b₁, hb₀, hc, rfl⟩ := serve_eq_ok hs
      rw [Outcome.runCalls_cons_of_ok hs] at h
      cases hr : (Outcome.runCalls serve (books.set! r.tickerId.toNat b₁) rs).result with
      | error f => rw [hr] at h; cases h
      | ok q =>
        obtain ⟨xs', books''⟩ := q
        rw [hr] at h
        simp only [Except.map, Outcome.mk.injEq, Except.ok.injEq, Prod.mk.injEq] at h
        obtain ⟨-, -, rfl⟩ := h
        have hrest : Outcome.runCalls serve (books.set! r.tickerId.toNat b₁) rs =
            ⟨(Outcome.runCalls serve (books.set! r.tickerId.toNat b₁) rs).events, .ok (xs', books'')⟩ := by
          rw [← hr]
        have hlt : r.tickerId.toNat < books.size := (Array.getElem?_eq_some_iff.1 hb₀).1
        by_cases ht : r.tickerId.toNat = t
        · -- the request is for this ticker: its call comes first in the ticker's own run
          subst ht
          rw [hb₀] at hb
          cases hb
          have hb₁ : (books.set! r.tickerId.toNat b₁)[r.tickerId.toNat]? = some b₁ := by
            simp [Array.set!_eq_setIfInBounds, hlt]
          obtain ⟨ys, b', hb', hrun⟩ := runCalls_serve_books hrest _ _ hb₁
          refine ⟨x :: ys, b', hb', ?_⟩
          rw [List.filter_cons_of_pos (by simp), List.map_cons, Outcome.runCalls_cons_of_ok hc, hrun]
          rfl
        · -- another ticker's request leaves this book alone
          have hb₁ : (books.set! r.tickerId.toNat b₁)[t]? = some b := by
            simp [Array.set!_eq_setIfInBounds, ht, hb]
          obtain ⟨ys, b', hb', hrun⟩ := runCalls_serve_books hrest _ _ hb₁
          exact ⟨ys, b', hb', by rw [List.filter_cons_of_neg (by simpa using ht)]; exact hrun⟩

/-! ## The rings -/

variable {e e' e₁ e₂ e₃ : Engine} {evs : List Event} {reqs reqs' : List Request}

/-- The engine's three rings are well formed. -/
structure WF (e : Engine) : Prop where
  requests : e.requests.WF
  responses : e.responses.WF
  updates : e.updates.WF

theorem wf_create {sz : EngineSizes} (h : Engine.create sz = .ok e) :
    e.WF ∧ e.requests.toList = [] ∧ e.responses.toList = [] ∧ e.updates.toList = [] := by
  simp only [Engine.create, bind, Except.bind, pure, Except.pure] at h
  split at h
  · cases h
  · rename_i requests hq
    split at h
    · cases h
    · rename_i responses hr
      split at h
      · cases h
      · rename_i updates hu
        split at h
        · cases h
        · cases h
          exact ⟨⟨Ring.wf_create hq, Ring.wf_create hr, Ring.wf_create hu⟩,
            Ring.toList_create hq, Ring.toList_create hr, Ring.toList_create hu⟩

/-- `e'` is `e` with the events `evs` written to its output rings, each to its own, and its
requests untouched. -/
structure Wrote (e e' : Engine) (evs : List Event) : Prop where
  requests : e'.requests = e.requests
  responses : e'.responses.toList = e.responses.toList ++ evs.filterMap Event.response?
  updates : e'.updates.toList = e.updates.toList ++ evs.filterMap Event.update?

theorem Wrote.trans {evs' : List Event} (h₁ : Wrote e₁ e₂ evs) (h₂ : Wrote e₂ e₃ evs') :
    Wrote e₁ e₃ (evs ++ evs') :=
  ⟨h₂.requests.trans h₁.requests,
    by rw [h₂.responses, h₁.responses, List.filterMap_append, List.append_assoc],
    by rw [h₂.updates, h₁.updates, List.filterMap_append, List.append_assoc]⟩

theorem WF.emit (hw : e.WF) {ev : Event} (h : e.emit ev = .ok e') :
    e'.WF ∧ e'.books = e.books ∧ Wrote e e' [ev] := by
  cases ev with
  | response x =>
    simp only [Engine.emit, bind, Except.bind, pure, Except.pure] at h
    split at h
    · cases h
    · rename_i ring hpush
      cases h
      obtain ⟨hw', hl⟩ := hw.responses.push hpush
      exact ⟨⟨hw.requests, hw', hw.updates⟩, rfl, rfl, by simpa [Event.response?] using hl,
        by simp [Event.update?]⟩
  | update u =>
    simp only [Engine.emit, bind, Except.bind, pure, Except.pure] at h
    split at h
    · cases h
    · rename_i ring hpush
      cases h
      obtain ⟨hw', hl⟩ := hw.updates.push hpush
      exact ⟨⟨hw.requests, hw.responses, hw'⟩, rfl, rfl, by simp [Event.response?],
        by simpa [Event.update?] using hl⟩

theorem WF.emitAll : ∀ {e e' : Engine} {evs : List Event}, e.WF → e.emitAll evs = (e', none) →
    e'.WF ∧ e'.books = e.books ∧ Wrote e e' evs
  | e, e', [], hw, h => by
    cases h
    exact ⟨hw, rfl, rfl, by simp, by simp⟩
  | e, e', ev :: evs, hw, h => by
    simp only [Engine.emitAll] at h
    split at h
    · rename_i e₁ he₁
      obtain ⟨hw₁, hb₁, hwr₁⟩ := hw.emit he₁
      obtain ⟨hw', hb', hwr'⟩ := WF.emitAll hw₁ h
      exact ⟨hw', hb'.trans hb₁, hwr₁.trans hwr'⟩
    · cases h

/-- `e'` is `e` after the list engine served `reqs` on its books, each event written to its
ring. -/
def Served (e e' : Engine) (reqs : List Request) : Prop :=
  ∃ evs xs, Outcome.runCalls serve e.books reqs = ⟨evs, .ok (xs, e'.books)⟩ ∧
    e'.responses.toList = e.responses.toList ++ evs.filterMap Event.response? ∧
    e'.updates.toList = e.updates.toList ++ evs.filterMap Event.update?

theorem Served.nil : Served e e [] := ⟨[], [], rfl, by simp, by simp⟩

theorem Served.trans (h₁ : Served e₁ e₂ reqs) (h₂ : Served e₂ e₃ reqs') :
    Served e₁ e₃ (reqs ++ reqs') := by
  obtain ⟨evs, xs, hrun, hr, hu⟩ := h₁
  obtain ⟨evs', xs', hrun', hr', hu'⟩ := h₂
  refine ⟨evs ++ evs', xs ++ xs', ?_, ?_, ?_⟩
  · rw [Outcome.runCalls_append_of_ok reqs' hrun, hrun']
    rfl
  · rw [hr', hr, List.filterMap_append, List.append_assoc]
  · rw [hu', hu, List.filterMap_append, List.append_assoc]

theorem served_singleton {x : Book.Reply} (h : serve e.books r = ⟨evs, .ok (x, e'.books)⟩)
    (hw : Wrote e e' evs) : Served e e' [r] := by
  refine ⟨evs, [x], ?_, hw.responses, hw.updates⟩
  have hx : (serve e.books r).result = .ok (x, e'.books) := by rw [h]
  rw [Outcome.runCalls_cons_of_ok hx, h]
  simp [Outcome.runCalls, Except.map]

/-- **A request processed without a fault is the list engine serving it**: its events go to
their rings and its book is stored back. -/
theorem WF.process (hw : e.WF) (h : e.process r = (e', none)) :
    e'.WF ∧ e'.requests = e.requests ∧ Served e e' [r] := by
  unfold Engine.process at h
  split at h
  · cases h
  · rename_i b hb
    split at h
    · -- a new order: its events, then the book it leaves
      rename_i hk
      dsimp only at h
      split at h
      · cases h
      · rename_i e₁ he₁
        obtain ⟨hw₁, hbooks, hwr⟩ := hw.emitAll he₁
        split at h
        · rename_i b' hb'
          cases h
          have hserve : serve e.books r = ⟨(b.add r.clientId r.orderId r.side r.price r.qty).events,
              .ok (.done, e.books.set! r.tickerId.toNat b')⟩ := by
            rw [serve_of_new hb hk, hb']
            rfl
          exact ⟨⟨hw₁.requests, hw₁.responses, hw₁.updates⟩, hwr.requests,
            served_singleton (hserve.trans (by rw [hbooks])) ⟨hwr.requests, hwr.responses, hwr.updates⟩⟩
        · cases h
    · -- a cancel: its events, then the book it leaves
      rename_i hk
      dsimp only at h
      split at h
      · cases h
      · rename_i e₁ he₁
        obtain ⟨hw₁, hbooks, hwr⟩ := hw.emitAll he₁
        cases h
        have hserve : serve e.books r = ⟨(b.cancel r.clientId r.orderId).1,
            .ok (.done, e.books.set! r.tickerId.toNat (b.cancel r.clientId r.orderId).2)⟩ :=
          serve_of_cancel hb hk
        exact ⟨⟨hw₁.requests, hw₁.responses, hw₁.updates⟩, hwr.requests,
          served_singleton (hserve.trans (by rw [hbooks])) ⟨hwr.requests, hwr.responses, hwr.updates⟩⟩
    · cases h

/-! ## Batches -/

/-- **A batch that completes takes `min max pending` requests off the front of the ring**, and
is the list engine serving them in order. The fuel has to cover the pending requests. -/
theorem WF.pollUpTo : ∀ {e e' : Engine} {max fuel n : Nat}, e.WF → e.requests.len ≤ fuel →
    e.pollUpTo max fuel = (n, e', none) →
    n = min max e.requests.len ∧ e'.WF ∧ e'.requests.toList = e.requests.toList.drop n ∧
      Served e e' (e.requests.toList.take n)
  | e, e', max, 0, n, hw, hfuel, h => by
    cases h
    exact ⟨by omega, hw, rfl, Served.nil⟩
  | e, e', max, fuel + 1, n, hw, hfuel, h => by
    simp only [Engine.pollUpTo] at h
    split at h
    · cases h
      exact ⟨by omega, hw, rfl, Served.nil⟩
    · split at h
      · -- nothing is pending
        rename_i hpeek
        cases h
        have h0 := Ring.peek_eq_none.1 hpeek
        exact ⟨by omega, hw, rfl, Served.nil⟩
      · rename_i r hpeek
        split at h
        · cases h
        · rename_i e₁ he₁
          obtain ⟨hw₁, hreq₁, hserved₁⟩ := hw.process he₁
          obtain ⟨rq, hcommit, hwq, hlist, hlen⟩ := hw.requests.peek_commitRead hpeek
          rw [hreq₁, hcommit] at h
          cases hp : ({ e₁ with requests := rq } : Engine).pollUpTo (max - 1) fuel with
          | mk n' rest =>
            obtain ⟨e₂, f⟩ := rest
            simp only [hp, Prod.mk.injEq] at h
            obtain ⟨rfl, rfl, rfl⟩ := h
            have hwq' : ({ e₁ with requests := rq } : Engine).WF := ⟨hwq, hw₁.responses, hw₁.updates⟩
            obtain ⟨hn', hw₂, hl₂, hserved₂⟩ := WF.pollUpTo hwq' (by show rq.len ≤ fuel; omega) hp
            dsimp only at hn' hl₂
            refine ⟨by omega, hw₂, by rw [hl₂, hlist]; rfl, ?_⟩
            rw [hlist, List.take_succ_cons]
            exact hserved₁.trans hserved₂

theorem WF.pollBatch (hw : e.WF) {max n : Nat} (h : e.pollBatch max = (n, e', none)) :
    n = min max e.requests.len ∧ e'.WF ∧ e'.requests.toList = e.requests.toList.drop n ∧
      Served e e' (e.requests.toList.take n) :=
  hw.pollUpTo (Nat.le_refl _) h

theorem poll_eq_pollBatch : e.poll = e.pollBatch e.requests.len := rfl

/-! ## Runs -/

/-- What the outside has seen of an engine: the requests pushed, how many of them polls have
processed, and the responses and updates popped, each oldest first. -/
structure Seen where
  pushed : List Request
  processed : Nat
  responses : List Response
  updates : List Update

/-- The engines a schedule of pushes, completed polls and pops leads to from `e₀`, with what the
outside saw along it. -/
inductive Run (e₀ : Engine) : Engine → Seen → Prop
  | start : Run e₀ e₀ ⟨[], 0, [], []⟩
  | push {e : Engine} {s : Seen} {r : Request} {rq : Ring Request} :
      Run e₀ e s → e.requests.push r = .ok rq →
      Run e₀ { e with requests := rq } { s with pushed := s.pushed ++ [r] }
  | poll {e e' : Engine} {s : Seen} {max n : Nat} :
      Run e₀ e s → e.pollBatch max = (n, e', none) →
      Run e₀ e' { s with processed := s.processed + n }
  | popResponse {e : Engine} {s : Seen} {x : Response} {rs : Ring Response} :
      Run e₀ e s → e.responses.pop = (some x, rs) →
      Run e₀ { e with responses := rs } { s with responses := s.responses ++ [x] }
  | popUpdate {e : Engine} {s : Seen} {u : Update} {us : Ring Update} :
      Run e₀ e s → e.updates.pop = (some u, us) →
      Run e₀ { e with updates := us } { s with updates := s.updates ++ [u] }

/-- What a run keeps: the rings are well formed, the requests not yet processed wait in the
request ring in the order pushed, and the list engine on the processed ones leads to the books,
and to the responses and updates seen and still in their rings. -/
structure Serves (e₀ e : Engine) (s : Seen) : Prop where
  wf : e.WF
  processed_le : s.processed ≤ s.pushed.length
  pending : e.requests.toList = s.pushed.drop s.processed
  served : ∃ evs xs,
    Outcome.runCalls serve e₀.books (s.pushed.take s.processed) = ⟨evs, .ok (xs, e.books)⟩ ∧
    s.responses ++ e.responses.toList = evs.filterMap Event.response? ∧
    s.updates ++ e.updates.toList = evs.filterMap Event.update?

variable {e₀ : Engine} {s : Seen}

theorem serves_create {sz : EngineSizes} (h : Engine.create sz = .ok e₀) :
    Serves e₀ e₀ ⟨[], 0, [], []⟩ := by
  obtain ⟨hw, hq, hr, hu⟩ := wf_create h
  exact ⟨hw, le_refl 0, hq, [], [], rfl, by simp [hr], by simp [hu]⟩

theorem Serves.push (hs : Serves e₀ e s) {r : Request} {rq : Ring Request}
    (h : e.requests.push r = .ok rq) :
    Serves e₀ { e with requests := rq } { s with pushed := s.pushed ++ [r] } := by
  obtain ⟨hwq, hl⟩ := hs.wf.requests.push h
  refine ⟨⟨hwq, hs.wf.responses, hs.wf.updates⟩, ?_, ?_, ?_⟩
  · exact Nat.le_trans hs.processed_le (by simp)
  · simp only [hl, hs.pending, List.drop_append_of_le_length hs.processed_le]
  · simpa only [List.take_append_of_le_length hs.processed_le] using hs.served

theorem Serves.poll (hs : Serves e₀ e s) {max n : Nat} (h : e.pollBatch max = (n, e', none)) :
    Serves e₀ e' { s with processed := s.processed + n } := by
  obtain ⟨hn, hw', hl', evs', xs', hrun', hr', hu'⟩ := hs.wf.pollBatch h
  obtain ⟨evs, xs, hrun, hr, hu⟩ := hs.served
  have hle := hs.processed_le
  have hlen : e.requests.len = s.pushed.length - s.processed := by
    rw [← Ring.length_toList, hs.pending, List.length_drop]
  have htake : s.pushed.take (s.processed + n) =
      s.pushed.take s.processed ++ e.requests.toList.take n := by
    rw [hs.pending, List.take_add]
  refine ⟨hw', by dsimp only; omega, by rw [hl', hs.pending, List.drop_drop], evs ++ evs', xs ++ xs',
    ?_, ?_, ?_⟩
  · dsimp only
    rw [htake, Outcome.runCalls_append_of_ok _ hrun, hrun']
    rfl
  · rw [hr', ← List.append_assoc, hr, List.filterMap_append]
  · rw [hu', ← List.append_assoc, hu, List.filterMap_append]

theorem Serves.popResponse (hs : Serves e₀ e s) {x : Response} {rs : Ring Response}
    (h : e.responses.pop = (some x, rs)) :
    Serves e₀ { e with responses := rs } { s with responses := s.responses ++ [x] } := by
  obtain ⟨hw', hl⟩ := hs.wf.responses.pop
  rw [h] at hw' hl
  obtain ⟨evs, xs, hrun, hr, hu⟩ := hs.served
  refine ⟨⟨hs.wf.requests, hw', hs.wf.updates⟩, hs.processed_le, hs.pending, evs, xs, hrun, ?_, hu⟩
  rw [← hr, hl]
  simp

theorem Serves.popUpdate (hs : Serves e₀ e s) {u : Update} {us : Ring Update}
    (h : e.updates.pop = (some u, us)) :
    Serves e₀ { e with updates := us } { s with updates := s.updates ++ [u] } := by
  obtain ⟨hw', hl⟩ := hs.wf.updates.pop
  rw [h] at hw' hl
  obtain ⟨evs, xs, hrun, hr, hu⟩ := hs.served
  refine ⟨⟨hs.wf.requests, hs.wf.responses, hw'⟩, hs.processed_le, hs.pending, evs, xs, hrun, hr, ?_⟩
  rw [← hu, hl]
  simp

theorem Run.serves {sz : EngineSizes} (h₀ : Engine.create sz = .ok e₀) (hrun : Run e₀ e s) :
    Serves e₀ e s := by
  induction hrun with
  | start => exact serves_create h₀
  | push _ h ih => exact ih.push h
  | poll _ h ih => exact ih.poll h
  | popResponse _ h ih => exact ih.popResponse h
  | popUpdate _ h ih => exact ih.popUpdate h

/-- **The engine over rings serves as the engine over lists.** Along every schedule of pushes,
completed polls and pops: a poll of at most `max` requests processes `min max pending` of them,
oldest first; the requests processed are the first ones pushed, and the others wait in order;
the responses popped, then those still in their ring, are the responses of the list engine on the
processed requests, and the updates likewise; and each book is what the calls of the requests for
its own ticker, alone and in order, made of it. -/
theorem serves_as_list_engine {sz : EngineSizes} (h₀ : Engine.create sz = .ok e₀)
    (hrun : Run e₀ e s) :
    (∀ {max n : Nat} {e' : Engine}, e.pollBatch max = (n, e', none) →
      n = min max e.requests.len ∧ e'.requests.toList = e.requests.toList.drop n) ∧
    e.requests.toList = s.pushed.drop s.processed ∧
    ∃ evs xs,
      Outcome.runCalls serve e₀.books (s.pushed.take s.processed) = ⟨evs, .ok (xs, e.books)⟩ ∧
      s.responses ++ e.responses.toList = evs.filterMap Event.response? ∧
      s.updates ++ e.updates.toList = evs.filterMap Event.update? ∧
      ∀ t b, e₀.books[t]? = some b → ∃ ys b', e.books[t]? = some b' ∧
        (Outcome.runCalls Book.call b (((s.pushed.take s.processed).filter
          fun r => r.tickerId.toNat = t).map Request.toCall)).result = .ok (ys, b') := by
  have hs := hrun.serves h₀
  obtain ⟨evs, xs, hlist, hr, hu⟩ := hs.served
  refine ⟨fun h => ?_, hs.pending, evs, xs, hlist, hr, hu, runCalls_serve_books hlist⟩
  obtain ⟨hn, -, hl, -⟩ := hs.wf.pollBatch h
  exact ⟨hn, hl⟩

theorem serves_as_list_engine_after_one_new :
    ∃ e₀ e, Engine.create ⟨1, 1, 1, 1, 2, 2⟩ = .ok e₀ ∧
      Run e₀ e ⟨[⟨.new, 1, 0, 1, .buy, 100, 1⟩], 1, [], []⟩ ∧
      (∀ {max n : Nat} {e' : Engine}, e.pollBatch max = (n, e', none) →
        n = min max e.requests.len ∧ e'.requests.toList = e.requests.toList.drop n) ∧
      e.requests.toList = [] ∧
      ∃ evs xs, Outcome.runCalls serve e₀.books [⟨.new, 1, 0, 1, .buy, 100, 1⟩] =
          ⟨evs, .ok (xs, e.books)⟩ ∧
        e.responses.toList = evs.filterMap Event.response? ∧
        e.updates.toList = evs.filterMap Event.update? ∧
        ∀ t b, e₀.books[t]? = some b → ∃ ys b', e.books[t]? = some b' ∧
          (Outcome.runCalls Book.call b (([⟨.new, 1, 0, 1, .buy, 100, 1⟩].filter
            fun r : Request => r.tickerId.toNat = t).map Request.toCall)).result = .ok (ys, b') :=
  ⟨_, _, rfl, (fun hrun => ⟨hrun, serves_as_list_engine (rfl : Engine.create ⟨1, 1, 1, 1, 2, 2⟩ = _) hrun⟩)
    (@Run.poll _ _ _ ⟨[⟨.new, 1, 0, 1, .buy, 100, 1⟩], 0, [], []⟩ 1 1
      (@Run.push _ _ ⟨[], 0, [], []⟩ ⟨.new, 1, 0, 1, .buy, 100, 1⟩ _ Run.start rfl) rfl)⟩

/-- A batch stops at the first request its book cannot hold: with room for one order, the second
of two resting bids faults, and the batch of two processes one. -/
theorem pollBatch_stops_when_orders_run_out :
    ∃ e₀ e, Engine.create ⟨1, 1, 4, 4, 8, 8⟩ = .ok e₀ ∧
      Run e₀ e ⟨[⟨.new, 1, 0, 1, .buy, 100, 1⟩, ⟨.new, 1, 0, 2, .buy, 99, 1⟩], 0, [], []⟩ ∧
      e.requests.len = 2 ∧ (e.pollBatch 2).1 = 1 ∧ (e.pollBatch 2).2.2 = some (.poolExhausted 1) :=
  ⟨_, _, rfl, @Run.push _ _ ⟨[⟨.new, 1, 0, 1, .buy, 100, 1⟩], 0, [], []⟩ ⟨.new, 1, 0, 2, .buy, 99, 1⟩ _
    (@Run.push _ _ ⟨[], 0, [], []⟩ ⟨.new, 1, 0, 1, .buy, 100, 1⟩ _ Run.start rfl) rfl, rfl, rfl, rfl⟩

end Engine

end Exchange
