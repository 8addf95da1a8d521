import Exchange.Engine
import Exchange.Feed.Publisher
import Exchange.Proofs.Book.Invariant
import Exchange.Proofs.Feed.Recovery

/-!
# The stamped update stream

What the exchange puts on its incremental feed. Matching publishes ADDs, MODIFYs, CANCELs and
TRADEs, each naming the ticker of the book it comes from (`Book.ofTicker_add`,
`Book.ofTicker_cancel`). An engine's books name tickers below its count, so every update a run of
an engine emits is one that matching publishes for one of its tickers
(`Engine.published_runRequests`), whether or not the run ends in a fault. The publisher numbers
the updates it stamps one after another from its next number (`Publisher.stampAll_eq`).
-/

namespace Exchange

/-- The kinds of update that matching publishes. -/
def UpdateKind.fromMatching : UpdateKind → Bool
  | .add | .modify | .cancel | .trade => true
  | _ => false

/-- An update that matching publishes for one of `tickers` tickers. -/
def Update.Published (tickers : Nat) (u : Update) : Prop :=
  u.tickerId.toNat < tickers ∧ u.kind.fromMatching = true

theorem Update.Published.kind_ne_clear {tickers : Nat} {u : Update} (h : u.Published tickers) :
    u.kind ≠ .clear := by
  intro hk
  have := h.2
  rw [hk] at this
  cases this

/-- Any update the event carries names ticker `t` and is of a kind that matching publishes. -/
def Event.OfTicker (t : TickerId) : Event → Prop
  | .response _ => True
  | .update u => u.tickerId = t ∧ u.kind.fromMatching = true

/-! ## What matching publishes -/

namespace Taker

variable (t : Taker) (price : Price)

theorem ofTicker_tradeEvents (o : Resting) (fill left : Qty) :
    ∀ ev ∈ t.tradeEvents price o fill left, ev.OfTicker t.ticker := by
  intro ev hev
  simp only [tradeEvents, List.mem_cons, List.mem_nil_iff, or_false] at hev
  rcases hev with rfl | rfl | rfl | rfl
  · trivial
  · trivial
  · exact ⟨rfl, rfl⟩
  · split <;> exact ⟨rfl, rfl⟩

theorem ofTicker_fillLevel : ∀ (os : List Resting) (leaves : Qty),
    ∀ ev ∈ (t.fillLevel price os leaves).1, ev.OfTicker t.ticker
  | [], _ => by simp [fillLevel]
  | o :: os, leaves => by
    intro ev hev
    simp only [fillLevel] at hev
    split at hev
    · cases hev
    · split at hev
      · rcases List.mem_append.1 hev with h | h
        · exact ofTicker_tradeEvents t price _ _ _ ev h
        · exact ofTicker_fillLevel os _ ev h
      · exact ofTicker_tradeEvents t price _ _ _ ev hev

theorem ofTicker_fillSide : ∀ (ls : List Level) (leaves : Qty),
    ∀ ev ∈ (t.fillSide ls leaves).1, ev.OfTicker t.ticker
  | [], _ => by simp [fillSide]
  | l :: ls, leaves => by
    intro ev hev
    simp only [fillSide] at hev
    split at hev
    · cases hev
    · split at hev
      · rcases List.mem_append.1 hev with h | h
        · exact ofTicker_fillLevel t _ _ _ ev h
        · exact ofTicker_fillSide ls _ ev h
      · exact ofTicker_fillLevel t _ _ _ ev hev

end Taker

namespace Book

variable {b b' : Book} {c : ClientId} {oid : OrderId} {side : Side} {p : Price} {q : Qty}

theorem ofTicker_add (b : Book) (c : ClientId) (oid : OrderId) (side : Side) (p : Price) (q : Qty) :
    ∀ ev ∈ (b.add c oid side p q).events, ev.OfTicker b.ticker := by
  intro ev hev
  unfold add at hev
  split at hev
  · rcases List.mem_singleton.1 hev with rfl
    trivial
  · dsimp only at hev
    have hcross : ∀ ev ∈ ((Taker.mk b.ticker c oid side p).fillSide (b.levels side.opposite) q).1,
        ev.OfTicker b.ticker :=
      Taker.ofTicker_fillSide _ _ _
    split at hev
    · rcases List.mem_cons.1 hev with rfl | hev
      · trivial
      · exact hcross ev hev
    · split at hev
      · rcases List.mem_append.1 hev with hev | hev
        · rcases List.mem_cons.1 hev with rfl | hev
          · trivial
          · exact hcross ev hev
        · rcases List.mem_singleton.1 hev with rfl
          exact ⟨rfl, rfl⟩
      · rcases List.mem_cons.1 hev with rfl | hev
        · trivial
        · exact hcross ev hev

theorem ticker_add (h : (b.add c oid side p q).result = .ok b') : b'.ticker = b.ticker := by
  unfold add at h
  split at h
  · cases h; rfl
  · dsimp only at h
    split at h
    · cases h
      simp
    · split at h
      · rename_i o b₁ hins
        cases h
        obtain ⟨-, -, level, ls₁, pool', -, -, -, -, -, -, rfl⟩ := insert_eq_ok hins
        simp
      · cases h

theorem ofTicker_cancel (b : Book) (c : ClientId) (oid : OrderId) :
    ∀ ev ∈ (b.cancel c oid).1, ev.OfTicker b.ticker := by
  intro ev hev
  unfold cancel at hev
  split at hev
  · split at hev
    · simp only [List.mem_cons, List.mem_nil_iff, or_false] at hev
      rcases hev with rfl | rfl
      · trivial
      · exact ⟨rfl, rfl⟩
    · rcases List.mem_singleton.1 hev with rfl
      trivial
  · rcases List.mem_singleton.1 hev with rfl
    trivial

theorem ticker_cancel : (b.cancel c oid).2.ticker = b.ticker := by
  unfold cancel
  split
  · split
    · simp [without]
    · rfl
  · rfl

theorem ticker_create {t : TickerId} {maxOrders maxLevels : Nat}
    (h : Book.create t maxOrders maxLevels = .ok b) : b.ticker = t := by
  simp only [Book.create, bind, Except.bind, pure, Except.pure] at h
  split at h
  · cases h
  · split at h
    · cases h
    · cases h; rfl

end Book

/-! ## What an engine emits -/

namespace Engine

variable {T : Nat} {e e' : Engine}

/-- What an engine keeps for the feed: its update ring is well formed and holds updates that
matching publishes for its tickers, and each of its books names one of them. -/
structure FeedInv (tickers : Nat) (e : Engine) : Prop where
  ring : e.updates.WF
  pending : ∀ u ∈ e.updates.toList, u.Published tickers
  books : ∀ {i : Nat} {b : Book}, e.books[i]? = some b → b.ticker.toNat < tickers

theorem ticker_createBooks {maxOrders maxLevels : Nat} : ∀ {ts : List Nat} {bs : List Book},
    createBooks maxOrders maxLevels ts = .ok bs → ∀ b ∈ bs, ∃ t ∈ ts, b.ticker = t.toUInt32
  | [], bs, h => by
    cases h
    intro b hb
    cases hb
  | t :: ts, bs, h => by
    simp only [createBooks, bind, Except.bind, pure, Except.pure] at h
    split at h
    · cases h
    · rename_i b hb
      split at h
      · cases h
      · rename_i bs' hbs
        cases h
        intro b' hb'
        rcases List.mem_cons.1 hb' with rfl | hb'
        · exact ⟨t, List.mem_cons_self, Book.ticker_create hb⟩
        · obtain ⟨t', ht', h'⟩ := ticker_createBooks hbs b' hb'
          exact ⟨t', List.mem_cons_of_mem _ ht', h'⟩

theorem feedInv_create {sz : EngineSizes} (h : Engine.create sz = .ok e) : FeedInv sz.maxTickers e := by
  simp only [Engine.create, bind, Except.bind, pure, Except.pure] at h
  split at h
  · cases h
  · split at h
    · cases h
    · split at h
      · cases h
      · rename_i updates hu
        split at h
        · cases h
        · rename_i bs hbs
          cases h
          refine ⟨Ring.wf_create hu, by simp [Ring.toList_create hu], fun {i b} hb => ?_⟩
          have hb' : bs[i]? = some b := by simpa using hb
          obtain ⟨t, ht, hbt⟩ := ticker_createBooks hbs b (List.mem_of_getElem? hb')
          rw [hbt, Nat.toUInt32_eq, UInt32.toNat_ofNat']
          exact Nat.lt_of_le_of_lt (Nat.mod_le _ _) (List.mem_range.1 ht)

theorem books_emit {ev : Event} (h : e.emit ev = .ok e') : e'.books = e.books := by
  cases ev <;> simp only [emit, bind, Except.bind, pure, Except.pure] at h <;> split at h <;>
    cases h <;> rfl

theorem books_emitAll : ∀ {e : Engine} {evs : List Event}, (e.emitAll evs).1.books = e.books
  | _, [] => rfl
  | e, ev :: evs => by
    simp only [emitAll]
    split
    · rename_i e' he'
      rw [books_emitAll, books_emit he']
    · rfl

theorem FeedInv.emit (hi : FeedInv T e) {ev : Event} {tk : TickerId} (hev : ev.OfTicker tk)
    (htk : tk.toNat < T) (h : e.emit ev = .ok e') : FeedInv T e' := by
  cases ev with
  | response r =>
    simp only [Engine.emit, bind, Except.bind, pure, Except.pure] at h
    split at h
    · cases h
    · cases h
      exact ⟨hi.ring, hi.pending, hi.books⟩
  | update u =>
    simp only [Engine.emit, bind, Except.bind, pure, Except.pure] at h
    split at h
    · cases h
    · rename_i ring hpush
      cases h
      obtain ⟨hw, hl⟩ := hi.ring.push hpush
      refine ⟨hw, ?_, hi.books⟩
      rw [hl]
      intro u' hu'
      rcases List.mem_append.1 hu' with hu' | hu'
      · exact hi.pending u' hu'
      · rw [List.mem_singleton.1 hu']
        exact ⟨hev.1 ▸ htk, hev.2⟩

theorem FeedInv.emitAll {tk : TickerId} (htk : tk.toNat < T) : ∀ {e : Engine} {evs : List Event},
    FeedInv T e → (∀ ev ∈ evs, ev.OfTicker tk) → FeedInv T (e.emitAll evs).1
  | _, [], hi, _ => hi
  | e, ev :: evs, hi, hevs => by
    simp only [Engine.emitAll]
    split
    · rename_i e' he'
      exact FeedInv.emitAll htk (hi.emit (hevs ev List.mem_cons_self) htk he')
        fun ev' h' => hevs ev' (List.mem_cons_of_mem _ h')
    · exact hi

theorem FeedInv.store (hi : FeedInv T e) {b : Book} (hb : b.ticker.toNat < T) (i : Nat) :
    FeedInv T { e with books := e.books.set! i b } := by
  refine ⟨hi.ring, hi.pending, fun {j b'} hj => ?_⟩
  simp only [Array.set!_eq_setIfInBounds, Array.getElem?_setIfInBounds] at hj
  split at hj
  · split at hj
    · cases hj
      exact hb
    · cases hj
  · exact hi.books hj

theorem FeedInv.process (hi : FeedInv T e) (r : Request) : FeedInv T (e.process r).1 := by
  unfold Engine.process
  split
  · exact hi
  · rename_i b hb
    have hbt := hi.books hb
    split
    · -- a new order: its events, then the book it leaves
      dsimp only
      have hi' := hi.emitAll hbt (Book.ofTicker_add b r.clientId r.orderId r.side r.price r.qty)
      split
      · rename_i e' f he'
        rw [he'] at hi'
        exact hi'
      · rename_i e' he'
        rw [he'] at hi'
        split
        · rename_i b' hb'
          exact hi'.store (Book.ticker_add hb' ▸ hbt) _
        · exact hi'
    · -- a cancel: its events, then the book it leaves
      dsimp only
      have hi' := hi.emitAll hbt (Book.ofTicker_cancel b r.clientId r.orderId)
      split
      · rename_i e' f he'
        rw [he'] at hi'
        exact hi'
      · rename_i e' he'
        rw [he'] at hi'
        exact hi'.store (by rw [Book.ticker_cancel]; exact hbt) _
    · exact hi

theorem FeedInv.pollUpTo : ∀ {e : Engine} (max fuel : Nat), FeedInv T e →
    FeedInv T (e.pollUpTo max fuel).2.1
  | _, _, 0, hi => hi
  | e, max, fuel + 1, hi => by
    simp only [Engine.pollUpTo]
    split
    · exact hi
    · split
      · exact hi
      · rename_i r _
        have hi' := hi.process r
        split
        · rename_i e' f he'
          rw [he'] at hi'
          exact hi'
        · rename_i e' he'
          rw [he'] at hi'
          split
          · exact hi'
          · exact FeedInv.pollUpTo _ _ ⟨hi'.ring, hi'.pending, hi'.books⟩

theorem FeedInv.drainOutput (hi : FeedInv T e) :
    (∀ u ∈ e.drainOutput.2.1, u.Published T) ∧ FeedInv T e.drainOutput.2.2 := by
  obtain ⟨hdrain, hw, hnil⟩ := hi.ring.drain
  refine ⟨?_, hw, ?_, hi.books⟩
  · show ∀ u ∈ e.updates.drain.1, u.Published T
    rw [hdrain]
    exact hi.pending
  · show ∀ u ∈ e.updates.drain.2.toList, u.Published T
    rw [hnil]
    intro u hu
    cases hu

theorem FeedInv.runRequests : ∀ {e : Engine} (reqs : List Request), FeedInv T e →
    ∀ u ∈ (e.runRequests reqs).2.1, u.Published T
  | _, [], _ => by simp [Engine.runRequests]
  | e, r :: rs, hi => by
    simp only [Engine.runRequests]
    split
    · simp
    · rename_i e₁ he₁
      have hi₁ : FeedInv T e₁ := by
        simp only [bind, Except.bind, pure, Except.pure] at he₁
        split at he₁
        · cases he₁
        · cases he₁
          exact ⟨hi.ring, hi.pending, hi.books⟩
      have hi₂ : FeedInv T (e₁.pollBatch 1).2.1 := hi₁.pollUpTo _ _
      obtain ⟨hout, hi₃⟩ := hi₂.drainOutput
      split
      · exact hout
      · intro u hu
        rcases List.mem_append.1 hu with hu | hu
        · exact hout u hu
        · exact FeedInv.runRequests rs hi₃ u hu

/-- **Every update an engine emits is one that matching publishes for one of its tickers**, also
when the run stops at a fault. -/
theorem published_runRequests {sz : EngineSizes} (h : Engine.create sz = .ok e) (reqs : List Request) :
    ∀ u ∈ (e.runRequests reqs).2.1, u.Published sz.maxTickers :=
  (feedInv_create h).runRequests reqs

end Engine

/-! ## Stamping -/

namespace Publisher

/-- **Stamping numbers the updates one after another** from the publisher's next number. -/
theorem stampAll_eq : ∀ {p p' : Publisher} {us : List Update} {ms : List Stamped},
    p.stampAll us = .ok (ms, p') →
      ms.map (·.update) = us ∧ ∀ i (h : i < ms.length), ms[i].seq.toNat = p.nextSeq.toNat + i
  | _, _, [], _, h => by
    cases h
    exact ⟨rfl, fun i h => absurd h (Nat.not_lt_zero i)⟩
  | p, p', u :: us, ms, h => by
    simp only [stampAll, bind, Except.bind, pure, Except.pure] at h
    split at h
    · cases h
    · split at h
      · cases h
      · rename_i hmax
        split at h
        · cases h
        · rename_i x hrest
          cases h
          obtain ⟨hmap, hseq⟩ := stampAll_eq hrest
          refine ⟨by rw [List.map_cons, hmap], fun i hi => ?_⟩
          cases i with
          | zero => rfl
          | succ j =>
            rw [List.getElem_cons_succ, hseq j (by simpa using hi), toNat_add_one_of_ne hmax]
            omega

end Publisher

end Exchange
