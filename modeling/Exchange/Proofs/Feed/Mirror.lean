import Exchange.Proofs.Feed.Records
import Exchange.Proofs.Feed.Cycle
import Exchange.Proofs.Trading.Protocol

/-!
# The snapshot book follows the engine

Run requests through a new engine, stamp its updates from 1, and apply them one after another to a
new snapshot book with a book per ticker of the engine and a pool with room for every order the
engine's books can hold. Every update is admitted and applied without a fault; the snapshot book
then holds exactly the engine's resting orders, each ticker's in increasing id, each as the ADD
of its id, side, level price, quantity left and queue priority; and the cycle it publishes is the
snapshot of the engine's books (`Engine.snapshot_follows_engine`).

The proof is a simulation. `Engine.listing` reads the books as a `Listing`: each ticker's slice
holds the records of its book (`Book.allRecords`). A request moves the listing as its updates
read (`Book.add_listing`, `Book.applyAll_cancel`), and a snapshot book that lists the books
before the request applies its updates and lists them after (`Engine.lists_serve`). The one ADD a
NEW may end with finds room in the pool: every other ticker holds at most a book's pool of
orders, and the NEW's ticker one less than its book holds after (`SnapshotBook.Lists.allocated_lt`).
A run of requests is a run of the list engine (`Engine.WF.runRequests`), and the simulation
follows it request by request (`Engine.lists_runCalls`).
-/

namespace Exchange

open Listing

/-! ## What applying an update asks -/

namespace SnapshotBook

variable {mi mi' : SnapshotBook} {m : Stamped}

/-- What applying an update asks of the live ids of its ticker: an ADD names an id that is not
live, a MODIFY or a CANCEL one that is. -/
def Admits (mi : SnapshotBook) (u : Update) : Prop :=
  (u.kind = .add → u.orderId ∉ ((mi.books[u.tickerId.toNat]?).getD []).map (·.1)) ∧
    (u.kind = .modify ∨ u.kind = .cancel →
      u.orderId ∈ ((mi.books[u.tickerId.toNat]?).getD []).map (·.1))

theorem admits_of_apply (h : mi.apply m = .ok mi') : mi.Admits m.update := by
  obtain ⟨-, -, hcase⟩ := apply_eq_ok h
  rcases hcase with ⟨hk, live, -, -, hl, hfresh, -⟩ | ⟨hk, live, slot, -, -, hl, hmem, -⟩ |
    ⟨hk, live, slot, -, -, hl, hmem, -⟩ | ⟨hadd, hmod, hcan, -⟩
  · -- an ADD went past the check that its id is not live
    refine ⟨fun _ hmem => ?_, fun hk' => by rcases hk' with hk' | hk' <;> simp [hk] at hk'⟩
    rw [hl, Option.getD_some] at hmem
    obtain ⟨e, he, heq⟩ := List.mem_map.1 hmem
    exact hfresh e he heq
  · -- a MODIFY found its id among the live ones
    refine ⟨fun hk' => by simp [hk] at hk', fun _ => ?_⟩
    rw [hl, Option.getD_some]
    exact List.mem_map.2 ⟨_, hmem, rfl⟩
  · -- and so did a CANCEL
    refine ⟨fun hk' => by simp [hk] at hk', fun _ => ?_⟩
    rw [hl, Option.getD_some]
    exact List.mem_map.2 ⟨_, hmem, rfl⟩
  · -- the other kinds ask nothing
    exact ⟨fun hk => absurd hk hadd, fun hk => hk.elim (absurd · hmod) (absurd · hcan)⟩

theorem admits_of_applyAll {mi₀ : SnapshotBook} {ms : List Stamped} (h : mi₀.applyAll ms = .ok mi)
    {i : Nat} (hi : i < ms.length) :
    ∃ mi', mi₀.applyAll (ms.take i) = .ok mi' ∧ mi'.Admits ms[i].update := by
  rw [← List.take_append_drop i ms, applyAll_append] at h
  cases ht : mi₀.applyAll (ms.take i) with
  | error f => rw [ht] at h; cases h
  | ok mi' =>
    rw [ht] at h
    refine ⟨mi', rfl, ?_⟩
    change mi'.applyAll (ms.drop i) = .ok mi at h
    rw [List.drop_eq_getElem_cons hi, applyAll_cons] at h
    cases ha : mi'.apply ms[i] with
    | error f => rw [ha] at h; cases h
    | ok mi'' => exact admits_of_apply ha

/-- **A batch applies the oldest pending updates in order.** On a well-formed ring, with fuel
for every pending update, when the oldest `min max pending` updates apply without a fault, a batch
of at most `max` applies them: it counts them, leaves the snapshot book they lead to, and takes
them off the ring. -/
theorem pollFrom_of_applyAll : ∀ (mi : SnapshotBook) {ring : Ring Stamped} (max : Nat) {fuel : Nat},
    ring.WF → ring.len ≤ fuel → mi.applyAll (ring.toList.take (min max ring.len)) = .ok mi' →
    ∃ ring', mi.pollFrom ring max fuel = .ok (min max ring.len, mi', ring') ∧ ring'.WF ∧
      ring'.toList = ring.toList.drop (min max ring.len)
  | mi, ring, max, 0, hw, hf, h => by
    have h0 : ring.len = 0 := by omega
    rw [h0, Nat.min_zero, List.take_zero] at h
    cases h
    exact ⟨ring, by rw [h0, Nat.min_zero]; rfl, hw, by rw [h0, Nat.min_zero, List.drop_zero]⟩
  | mi, ring, max, fuel + 1, hw, hf, h => by
    by_cases hnone : max = 0 ∨ ring.len = 0
    · -- nothing to apply: the batch stops at once
      have hk : min max ring.len = 0 := by omega
      rw [hk, List.take_zero] at h
      cases h
      refine ⟨ring, ?_, hw, by rw [hk, List.drop_zero]⟩
      rw [hk]
      unfold pollFrom
      by_cases hm : max = 0
      · rw [if_pos hm]
      · have h0 : ring.len = 0 := hnone.resolve_left hm
        have hpop : ring.pop = (none, ring) := by simp [Ring.pop, Ring.peek, Ring.commitRead, h0]
        rw [if_neg hm, hpop]
    · -- the oldest update first, then a batch of one less on the rest
      obtain ⟨hw₁, hl⟩ := hw.pop
      obtain ⟨m, ring₁, hpop⟩ : ∃ m ring₁, ring.pop = (some m, ring₁) :=
        ⟨_, _, Ring.pop_of_ne_zero (by omega)⟩
      simp only [hpop, Option.toList_some, List.singleton_append] at hw₁ hl
      have hlen : ring₁.len + 1 = ring.len := by
        have := congrArg List.length hl
        simp only [Ring.length_toList, List.length_cons] at this
        omega
      have hk : min max ring.len = min (max - 1) ring₁.len + 1 := by omega
      rw [hk, hl, List.take_succ_cons, applyAll_cons] at h
      cases ha : mi.apply m with
      | error f => rw [ha] at h; cases h
      | ok mi₁ =>
        rw [ha] at h
        obtain ⟨ring', hpoll, hw', hl'⟩ :=
          pollFrom_of_applyAll mi₁ (max - 1) hw₁ (show ring₁.len ≤ fuel by omega) h
        refine ⟨ring', ?_, hw', by rw [hk, hl, List.drop_succ_cons, hl']⟩
        unfold pollFrom
        rw [if_neg (by omega), hpop]
        simp only [bind, Except.bind, ha, hpoll, pure, Except.pure, hk]

/-- **Polling a batch is applying its updates in order**: when the oldest `min max pending`
updates of a well-formed ring apply without a fault, `pollBatch` applies them and leaves the same
snapshot book. -/
theorem pollBatch_of_applyAll {ring : Ring Stamped} {max : Nat} (hw : ring.WF)
    (h : mi.applyAll (ring.toList.take (min max ring.len)) = .ok mi') :
    ∃ ring', mi.pollBatch ring max = .ok (min max ring.len, mi', ring') ∧ ring'.WF ∧
      ring'.toList = ring.toList.drop (min max ring.len) :=
  pollFrom_of_applyAll mi max hw (Nat.le_refl _) h

end SnapshotBook

namespace Engine

variable {books books' : Array Book} {b b' : Book} {r : Request} {evs : List Event}
  {x : Book.Reply}

/-! ## What the books list -/

/-- What the books list for a snapshot, by ticker and id: the record of each resting order. -/
def listing (books : Array Book) : Listing :=
  ⟨fun k => (books[k.1.toNat]?).bind fun b => byId b.allRecords k.2⟩

/-- The snapshot of books after update `n`: a START, then per ticker a CLEAR and the records of
its resting orders in increasing id, then an END; both markers carry `n`. -/
def snapshotOf (books : Array Book) (n : UInt64) : List Update :=
  SnapshotBook.marker .snapshotStart n noTicker ::
    ((List.range books.size).flatMap fun t =>
      SnapshotBook.marker .clear noOrder t.toUInt32 :: ((books[t]?).map Book.records).getD []) ++
    [SnapshotBook.marker .snapshotEnd n noTicker]

theorem slice_listing {tk : TickerId} (hb : books[tk.toNat]? = some b) :
    (listing books).slice tk = byId b.allRecords := by
  funext oid
  simp [listing, slice, hb]

theorem listing_set! {tk : TickerId} (hb : books[tk.toNat]? = some b) (b' : Book) :
    listing (books.set! tk.toNat b') = (listing books).setSlice tk (byId b'.allRecords) := by
  refine Listing.ext (funext fun k => ?_)
  simp only [listing, setSlice]
  split
  · rename_i h
    subst h
    rw [getElem?_set!_self hb]
    rfl
  · rename_i h
    rw [getElem?_set!_of_ne fun e => h (UInt32.toNat_inj.1 e)]

theorem listing_create {sz : EngineSizes} {e : Engine} (h : Engine.create sz = .ok e) :
    listing e.books = Listing.empty := by
  obtain ⟨-, -, hempty⟩ := Desk.books_create h
  refine Listing.ext (funext fun k => ?_)
  simp only [listing, Listing.empty]
  cases hb : e.books[k.1.toNat]? with
  | none => rfl
  | some b =>
    obtain ⟨hbid, hask⟩ := hempty _ b hb
    simp [Book.allRecords, hbid, hask, byId]

/-! ## The books' pools -/

/-- Every book's order pool has `M` slots. -/
def Sized (M : Nat) (books : Array Book) : Prop :=
  ∀ (i : Nat) (b : Book), books[i]? = some b → b.orderSlots.capacity = M

theorem sized_create {sz : EngineSizes} {e : Engine} (h : Engine.create sz = .ok e) :
    Sized sz.maxOrders e.books := by
  simp only [Engine.create, bind, Except.bind, pure, Except.pure] at h
  split at h
  · cases h
  split at h
  · cases h
  split at h
  · cases h
  split at h
  · cases h
  rename_i bs hbs
  cases h
  intro i b hb
  obtain ⟨-, hget⟩ := Desk.createBooks_getElem? hbs
  obtain ⟨t, -, hc⟩ := hget i b (by simpa using hb)
  simp only [Book.create, bind, Except.bind, pure, Except.pure] at hc
  split at hc
  · cases hc
  · rename_i pool hp
    split at hc
    · cases hc
    · cases hc
      exact Pool.capacity_create hp

theorem Sized.serve {M : Nat} (hs : Sized M books) (hw : BooksWF books)
    (h : serve books r = ⟨evs, .ok (x, books')⟩) : Sized M books' := by
  obtain ⟨b, b', hb, rfl, hcall⟩ := serve_cases h
  have hcap : b'.orderSlots.capacity = b.orderSlots.capacity := by
    rcases hcall with ⟨-, -, hres⟩ | ⟨-, -, rfl⟩
    · exact Book.capacity_add (hw.wf _ b hb) hres
    · exact Book.capacity_cancel _ _
  intro i b₁ h₁
  by_cases hi : i = r.tickerId.toNat
  · subst hi
    rw [getElem?_set!_self hb] at h₁
    cases h₁
    rw [hcap]
    exact hs _ b hb
  · rw [getElem?_set!_of_ne hi] at h₁
    exact hs i b₁ h₁

theorem tickerId_of_mem_updates {t : TickerId} (h : ∀ ev ∈ evs, ev.OfTicker t) {u : Update}
    (hu : u ∈ evs.filterMap Event.update?) : u.tickerId = t := by
  obtain ⟨ev, hev, he⟩ := List.mem_filterMap.1 hu
  cases ev with
  | response _ => cases he
  | update u' =>
    cases he
    exact (h _ hev).1

/-! ## The snapshot book follows each request -/

/-- **Room for the order that rests.** When every book has a pool of `M` orders and the snapshot
book `M` slots per ticker, a snapshot book that lists the books with the slice of `tk` replaced by
fewer than `M` records has a free slot. -/
theorem allocated_lt_of_sized {mi : SnapshotBook} {M : Nat} {tk : TickerId} {R : List Update}
    (hmi : mi.Lists ((listing books).setSlice tk (byId R))) (hw : BooksWF books)
    (hs : Sized M books) (hsize : mi.books.size = books.size) (hT : books.size ≤ 2 ^ 32)
    (hcap : books.size * M ≤ mi.pool.capacity) (hlt : tk.toNat < books.size)
    (hRnd : (R.map (·.orderId)).Nodup) (hRlt : R.length < M) :
    mi.pool.allocated < mi.pool.capacity := by
  refine hmi.allocated_lt (by rw [hsize]; exact hT) (by rw [hsize]; exact hcap) ?_
    (by rw [hsize]; exact hlt) slice_setSlice hRnd hRlt
  intro tk' htk'
  by_cases he : tk' = tk
  · subst he
    exact ⟨R, slice_setSlice, hRnd, hRlt.le⟩
  · rw [hsize] at htk'
    obtain ⟨b₁, hb₁⟩ : ∃ b₁, books[tk'.toNat]? = some b₁ := ⟨_, Array.getElem?_eq_getElem htk'⟩
    have hbw₁ := hw.wf _ b₁ hb₁
    refine ⟨b₁.allRecords, by rw [slice_setSlice_of_ne he, slice_listing hb₁],
      Book.nodup_allRecords hbw₁, ?_⟩
    rw [← hs _ b₁ hb₁]
    exact Book.length_allRecords_le hbw₁

/-- **One request.** A snapshot book that lists the books, with a book per ticker and a pool of
`M` slots per ticker when every book's pool has `M`, applies the updates of a request the engine
serves without a fault, numbered on from its last one, and lists the books after it. -/
theorem lists_serve {mi : SnapshotBook} {M : Nat} (hmi : mi.Lists (listing books))
    (hw : BooksWF books) (hs : Sized M books) (hsize : mi.books.size = books.size)
    (hT : books.size ≤ 2 ^ 32) (hcap : books.size * M ≤ mi.pool.capacity)
    (h : serve books r = ⟨evs, .ok (x, books')⟩) {ms : List Stamped}
    (hmap : ms.map (·.update) = evs.filterMap Event.update?)
    (hseq : ∀ i (hi : i < ms.length), ms[i].seq.toNat = mi.lastSeq.toNat + i + 1) :
    ∃ mi', mi.applyAll ms = .ok mi' ∧ mi'.Lists (listing books') ∧
      mi'.lastSeq.toNat = mi.lastSeq.toNat + ms.length ∧ SnapshotBook.SameSizes mi mi' := by
  obtain ⟨b, b', hb, rfl, hcall⟩ := serve_cases h
  have hbw := hw.wf _ b hb
  have htk : b.ticker = r.tickerId := hw.ticker _ b hb
  rw [← htk] at hb ⊢
  have hlt : b.ticker.toNat < mi.books.size := hsize ▸ SnapshotBook.lt_size_of_getElem? hb
  rw [listing_set! hb]
  have hL₀ : (listing books).setSlice b.ticker (byId b.allRecords) = listing books := by
    rw [← slice_listing hb, setSlice_slice]
  have hev : ∀ ev ∈ evs, ev.OfTicker b.ticker := by
    rcases hcall with ⟨-, rfl, -⟩ | ⟨-, rfl, -⟩
    · exact Book.ofTicker_add _ _ _ _ _ _
    · exact Book.ofTicker_cancel _ _ _
  have hts : ∀ m ∈ ms, m.update.tickerId.toNat < mi.books.size := fun m hm => by
    rw [tickerId_of_mem_updates hev (hmap ▸ List.mem_map_of_mem hm)]
    exact hlt
  rcases hcall with ⟨-, rfl, hres⟩ | ⟨-, rfl, rfl⟩
  · -- a NEW: trading's updates, then perhaps the ADD of what rests
    obtain ⟨us, R, hadd, hlist, hcase⟩ := Book.add_listing hbw hres
    have hbw' := hbw.add hres
    have hnd' := Book.nodup_allRecords hbw'
    have htrade := hlist (listing books)
    rw [hL₀] at htrade
    rcases hcase with ⟨hus, hperm⟩ | ⟨u, hus, hk, hut, hfresh, hperm⟩
    · refine hmi.applyAll ?_ hseq hts fun m hm => hadd _ (hus ▸ hmap ▸ List.mem_map_of_mem hm)
      rw [hmap, hus, htrade, byId_perm hnd' hperm]
    · obtain ⟨ms₁, ms₂, rfl, hms₁, hms₂⟩ := List.map_eq_append_iff.1 (hmap.trans hus)
      obtain ⟨m, rfl, hm⟩ := List.map_eq_singleton_iff.1 hms₂
      obtain ⟨mi₁, ha₁, h₁, hlast₁, hsz₁⟩ := hmi.applyAll (by rw [hms₁]; exact htrade)
        (fun i hi => by
          have := hseq i (by simp; omega)
          rwa [List.getElem_append_left hi] at this)
        (fun m' hm' => hts m' (List.mem_append_left _ hm'))
        (fun m' hm' => hadd _ (hms₁ ▸ List.mem_map_of_mem hm'))
      -- the ADD finds room: each ticker holds at most a book's pool, its own one order less
      have hRnd : (R.map (·.orderId)).Nodup := by
        have := (hperm.map (·.orderId)).nodup_iff.1 hnd'
        rw [List.map_cons, List.nodup_cons] at this
        exact this.2
      have hRlt : R.length < M := by
        have h1 := hperm.length_eq
        have h2 := Book.length_allRecords_le hbw'
        rw [Book.capacity_add hbw hres, hs _ b hb] at h2
        simp only [List.length_cons] at h1
        omega
      have hroom : mi₁.pool.allocated < mi₁.pool.capacity :=
        allocated_lt_of_sized h₁ hw hs (hsz₁.tickers.trans hsize) hT
          (by rw [hsz₁.capacity]; exact hcap) (hsize ▸ hlt) hRnd hRlt
      have hLu : ((listing books).setSlice b.ticker (byId R)).apply m.update =
          some ((listing books).setSlice b.ticker (byId b'.allRecords)) := by
        rw [hm, apply_add_fresh hk hut hfresh, byId_perm hnd' hperm]
      have hseq₁ : m.seq.toNat = mi₁.lastSeq.toNat + 1 := by
        have := hseq ms₁.length (by simp)
        simp only [List.getElem_append_right (Nat.le_refl _), Nat.sub_self,
          List.getElem_cons_zero] at this
        rw [hlast₁, this]
      obtain ⟨mi', ha', h', hlast', hsz'⟩ :=
        h₁.apply_next hLu hseq₁ (hsz₁.tickers ▸ hts m (by simp)) fun _ => hroom
      refine ⟨mi', ?_, h', ?_, hsz₁.trans hsz'⟩
      · rw [SnapshotBook.applyAll_append, ha₁]
        change mi₁.applyAll [m] = _
        rw [SnapshotBook.applyAll_cons, ha']
        rfl
      · rw [hlast', hlast₁, List.length_append, List.length_singleton]
        omega
  · -- a CANCEL: its updates drop the order it takes out
    have htrade := Book.applyAll_cancel hbw r.clientId r.orderId (listing books)
    rw [hL₀] at htrade
    exact hmi.applyAll (by rw [hmap]; exact htrade) hseq hts
      fun m hm => Book.kind_cancel _ _ _ (hmap ▸ List.mem_map_of_mem hm)

/-- **A run of requests.** A snapshot book that lists the books applies the updates of a run of
the list engine that completes, numbered on from its last one, without a fault, and lists the
books after it. -/
theorem lists_runCalls {M : Nat} : ∀ {mi : SnapshotBook} {books books' : Array Book}
    {reqs : List Request} {evs : List Event} {xs : List Book.Reply} {ms : List Stamped},
    mi.Lists (listing books) → BooksWF books → Sized M books → mi.books.size = books.size →
    books.size ≤ 2 ^ 32 → books.size * M ≤ mi.pool.capacity →
    Outcome.runCalls serve books reqs = ⟨evs, .ok (xs, books')⟩ →
    ms.map (·.update) = evs.filterMap Event.update? →
    (∀ i (hi : i < ms.length), ms[i].seq.toNat = mi.lastSeq.toNat + i + 1) →
    ∃ mi', mi.applyAll ms = .ok mi' ∧ mi'.Lists (listing books') ∧
      mi'.lastSeq.toNat = mi.lastSeq.toNat + ms.length ∧ SnapshotBook.SameSizes mi mi' ∧
      BooksWF books' ∧ books'.size = books.size
  | mi, books, books', [], evs, xs, ms, hmi, hw, _, _, _, _, hrun, hmap, _ => by
    simp only [Outcome.runCalls, Outcome.mk.injEq, Except.ok.injEq, Prod.mk.injEq] at hrun
    obtain ⟨rfl, -, rfl⟩ := hrun
    obtain rfl : ms = [] := List.map_eq_nil_iff.1 hmap
    exact ⟨mi, rfl, hmi, rfl, ⟨rfl, rfl⟩, hw, rfl⟩
  | mi, books, books', r :: rs, evs, xs, ms, hmi, hw, hs, hsize, hT, hcap, hrun, hmap, hseq => by
    cases hr : (serve books r).result with
    | error f => simp [Outcome.runCalls, hr] at hrun
    | ok p =>
      obtain ⟨x, books₁⟩ := p
      rw [Outcome.runCalls_cons_of_ok hr] at hrun
      cases hrest : (Outcome.runCalls serve books₁ rs).result with
      | error f => rw [hrest] at hrun; cases hrun
      | ok q =>
        obtain ⟨xs', books''⟩ := q
        rw [hrest] at hrun
        simp only [Except.map, Outcome.mk.injEq, Except.ok.injEq, Prod.mk.injEq] at hrun
        obtain ⟨rfl, -, rfl⟩ := hrun
        have hserve : serve books r = ⟨(serve books r).events, .ok (x, books₁)⟩ := by rw [← hr]
        have hrun' : Outcome.runCalls serve books₁ rs =
            ⟨(Outcome.runCalls serve books₁ rs).events, .ok (xs', books'')⟩ := by rw [← hrest]
        rw [List.filterMap_append] at hmap
        obtain ⟨ms₁, ms₂, rfl, hms₁, hms₂⟩ := List.map_eq_append_iff.1 hmap
        obtain ⟨mi₁, ha₁, h₁, hlast₁, hsz₁⟩ := lists_serve hmi hw hs hsize hT hcap hserve hms₁
          (fun i hi => by
            have := hseq i (by simp; omega)
            rwa [List.getElem_append_left hi] at this)
        have hsize₁ : books₁.size = books.size := by
          obtain ⟨b, b', -, rfl, -⟩ := serve_cases hserve
          simp
        obtain ⟨mi', ha', h', hlast', hsz', hw', hsize'⟩ := lists_runCalls h₁ (hw.serve hserve)
          (hs.serve hw hserve) (by rw [hsz₁.tickers, hsize, hsize₁]) (by rw [hsize₁]; exact hT)
          (by rw [hsize₁, hsz₁.capacity]; exact hcap) hrun' hms₂
          (fun i hi => by
            have := hseq (ms₁.length + i) (by simp; omega)
            rw [List.getElem_append_right (by omega)] at this
            simp only [Nat.add_sub_cancel_left] at this
            rw [hlast₁, this]
            omega)
        refine ⟨mi', by rw [SnapshotBook.applyAll_append, ha₁]; exact ha', h', ?_, hsz₁.trans hsz',
          hw', hsize'.trans hsize₁⟩
        rw [hlast', hlast₁, List.length_append]
        omega

/-! ## The engine over rings -/

variable {e e' : Engine}

theorem WF.drainOutput (hw : e.WF) :
    e.drainOutput.2.1 = e.updates.toList ∧ e.drainOutput.2.2.WF ∧
      e.drainOutput.2.2.books = e.books ∧ e.drainOutput.2.2.requests = e.requests ∧
      e.drainOutput.2.2.updates.toList = [] := by
  obtain ⟨hd, hw', hnil⟩ := hw.updates.drain
  obtain ⟨-, hwr, -⟩ := hw.responses.drain
  exact ⟨hd, ⟨hw.requests, hwr, hw'⟩, rfl, rfl, hnil⟩

/-- **Running requests one at a time is the list engine on them.** From an engine whose rings are
well formed and whose request and update rings are empty, requests run without a fault, each
queued, processed and its outputs taken before the next, leave the books of the list engine's
run of them and emit its updates. -/
theorem WF.runRequests : ∀ {e e' : Engine} {reqs : List Request} {out : List Response}
    {ups : List Update}, e.WF → e.requests.toList = [] → e.updates.toList = [] →
    e.runRequests reqs = (out, ups, e', none) →
    ∃ evs xs, Outcome.runCalls serve e.books reqs = ⟨evs, .ok (xs, e'.books)⟩ ∧
      ups = evs.filterMap Event.update?
  | e, e', [], out, ups, _, _, _, h => by
    simp only [Engine.runRequests, Prod.mk.injEq] at h
    obtain ⟨-, rfl, rfl, -⟩ := h
    exact ⟨[], [], rfl, rfl⟩
  | e, e', r :: rs, out, ups, hw, hq, hu, h => by
    simp only [Engine.runRequests] at h
    split at h
    · cases h
    · rename_i e₁ he₁
      simp only [bind, Except.bind, pure, Except.pure] at he₁
      split at he₁
      · cases he₁
      · rename_i rq hpush
        cases he₁
        obtain ⟨hwq, hlq⟩ := hw.requests.push hpush
        have hw₁ : ({ e with requests := rq } : Engine).WF := ⟨hwq, hw.responses, hw.updates⟩
        generalize hp : ({ e with requests := rq } : Engine).pollBatch 1 = pr at h
        obtain ⟨n, e₂, f⟩ := pr
        dsimp only at h
        cases f with
        | some f => cases h
        | none =>
          generalize hrr : e₂.drainOutput.2.2.runRequests rs = rr at h
          obtain ⟨out', ups', e₄, f'⟩ := rr
          simp only [Prod.mk.injEq] at h
          obtain ⟨-, rfl, rfl, rfl⟩ := h
          obtain ⟨hn, hw₂, hl₂, evs₁, xs₁, hrun₁, -, hu₂⟩ := hw₁.pollBatch hp
          have hl₁ : rq.toList = [r] := by rw [hlq, hq]; rfl
          have hlen : rq.len = 1 := by rw [← Ring.length_toList, hl₁]; rfl
          dsimp only at hn hl₂ hrun₁ hu₂
          rw [hlen] at hn
          obtain rfl : n = 1 := hn
          rw [hl₁] at hl₂ hrun₁
          obtain ⟨hd, hw₃, hb₃, hr₃, hu₃⟩ := hw₂.drainOutput
          obtain ⟨evs₂, xs₂, hrun₂, hups₂⟩ :=
            WF.runRequests hw₃ (by rw [hr₃, hl₂]; rfl) hu₃ hrr
          refine ⟨evs₁ ++ evs₂, xs₁ ++ xs₂, ?_, ?_⟩
          · have hsplit := Outcome.runCalls_append_of_ok rs hrun₁
            rw [← hb₃, hrun₂] at hsplit
            exact hsplit
          · rw [hd, hu₂, hu, hups₂, List.filterMap_append]
            rfl

/-! ## The snapshot book follows the engine -/

/-- **The snapshot book follows the engine.** Run any requests through a new engine, one at a
time with its outputs taken after each, without a fault. Stamp its updates from 1 and apply them
in turn to a new snapshot book with a book per ticker of the engine and room for as many orders as
all the engine's books hold. Then the updates are numbered 1, 2, … with no gap; the snapshot book
admits each one when it comes (an ADD of an id not live on its ticker, a MODIFY or a CANCEL of a
live one) and applies them all without a fault; the last number applied is the number of updates;
each ticker's live orders are the records of its book's resting orders, in increasing id; and the
cycle the snapshot book publishes is the snapshot of the engine's books, numbered from 0. -/
theorem snapshot_follows_engine {sz : EngineSizes} {cap : Nat} {e₀ e : Engine}
    {reqs : List Request} {out : List Response} {ups : List Update} {p₀ p : Publisher}
    {ms : List Stamped} {mi₀ : SnapshotBook}
    (hT : sz.maxTickers ≤ 2 ^ 32) (hcap : sz.maxTickers * sz.maxOrders ≤ cap)
    (he₀ : Engine.create sz = .ok e₀) (hrun : e₀.runRequests reqs = (out, ups, e, none))
    (hp₀ : p₀.nextSeq = 1) (hms : p₀.stampAll ups = .ok (ms, p))
    (hmi₀ : SnapshotBook.create sz.maxTickers cap = .ok mi₀) :
    (∀ i (hi : i < ms.length), ms[i].seq.toNat = i + 1) ∧
    (∀ i (hi : i < ms.length), ∃ mi, mi₀.applyAll (ms.take i) = .ok mi ∧ mi.Admits ms[i].update) ∧
    ∃ mi, mi₀.applyAll ms = .ok mi ∧ mi.lastSeq.toNat = ms.length ∧
      (∀ (t : Nat) (b : Book), e.books[t]? = some b → mi.liveOrders t = b.records) ∧
      mi.cycle = (List.range (snapshotOf e.books mi.lastSeq).length).zipWith
        (fun i u => ⟨i.toUInt64, u⟩) (snapshotOf e.books mi.lastSeq) := by
  obtain ⟨hw₀, hq₀, -, hu₀⟩ := wf_create he₀
  obtain ⟨evs, xs, hlist, hups⟩ := hw₀.runRequests hq₀ hu₀ hrun
  obtain ⟨hsize₀, hbw₀, -⟩ := Desk.books_create he₀
  obtain ⟨hmap, hnum⟩ := Publisher.stampAll_eq hms
  have hseq : ∀ i (hi : i < ms.length), ms[i].seq.toNat = i + 1 := fun i hi => by
    rw [hnum i hi, hp₀]
    simp only [UInt64.reduceToNat]
    omega
  obtain ⟨hmsize, hmcap, -, hlast₀⟩ := SnapshotBook.create_sizes hmi₀
  have hmi : mi₀.Lists (listing e₀.books) := by
    rw [listing_create he₀]
    exact SnapshotBook.lists_create hmi₀
  obtain ⟨mi, ha, hL, hlast, hsame, hbw, hsize⟩ := lists_runCalls hmi hbw₀ (sized_create he₀)
    (by rw [hmsize, hsize₀]) (by rw [hsize₀]; exact hT) (by rw [hsize₀, hmcap]; exact hcap) hlist
    (hmap.trans hups) (fun i hi => by rw [hseq i hi, hlast₀, UInt64.toNat_zero]; omega)
  have hmisize : mi.books.size = e.books.size := by rw [hsame.tickers, hmsize, hsize, hsize₀]
  have hlive : ∀ (t : Nat) (b : Book), e.books[t]? = some b → mi.liveOrders t = b.records := by
    intro t b hb
    have ht : t < mi.books.size := hmisize ▸ SnapshotBook.lt_size_of_getElem? hb
    have htk : t.toUInt32.toNat = t := by
      rw [Nat.toUInt32_eq, UInt32.toNat_ofNat', Nat.mod_eq_of_lt (by omega)]
    obtain ⟨live, hl⟩ : ∃ live, mi.books[t]? = some live := ⟨_, Array.getElem?_eq_getElem ht⟩
    have hbwt := hbw.wf t b hb
    rw [← htk] at hl hb ⊢
    refine eq_of_byId (hL.sorted_liveOrders _) (Book.sorted_records hbwt) ?_
    rw [hL.byId_liveOrders hl, slice_listing hb,
      byId_perm (Book.nodup_allRecords hbwt) (Book.records_perm b).symm]
  have hticker : ∀ t ∈ List.range e.books.size,
      SnapshotBook.marker .clear noOrder t.toUInt32 :: mi.liveOrders t =
        SnapshotBook.marker .clear noOrder t.toUInt32 :: ((e.books[t]?).map Book.records).getD [] := by
    intro t ht
    obtain ⟨b, hb⟩ : ∃ b, e.books[t]? = some b :=
      ⟨_, Array.getElem?_eq_getElem (List.mem_range.1 ht)⟩
    rw [hb, hlive t b hb]
    rfl
  have hbody : mi.cycleBody = snapshotOf e.books mi.lastSeq := by
    unfold SnapshotBook.cycleBody snapshotOf
    rw [hmisize, List.flatMap_congr hticker]
  refine ⟨hseq, fun i hi => SnapshotBook.admits_of_applyAll ha hi, mi, ha, ?_, hlive, ?_⟩
  · rw [hlast, hlast₀, UInt64.toNat_zero, Nat.zero_add]
  · unfold SnapshotBook.cycle
    rw [hbody]

/-- A resting bid, then a sell that trades part of it: three updates (the bid's ADD, a TRADE and
the MODIFY of what is left of the bid), all applied. -/
theorem snapshot_follows_engine_after_a_trade :
    let reqs : List Request :=
      [{ kind := .new, clientId := 1, tickerId := 0, orderId := 1, side := .buy, price := 100,
         qty := 10 },
       { kind := .new, clientId := 2, tickerId := 0, orderId := 2, side := .sell, price := 100,
         qty := 4 }]
    ∃ (e₀ e : Engine) (out : List Response) (ups : List Update) (ms : List Stamped) (p : Publisher)
      (mi₀ : SnapshotBook),
      ((⟨1, 2, 2, 1, 4, 4⟩ : EngineSizes).maxTickers ≤ 2 ^ 32 ∧
        (⟨1, 2, 2, 1, 4, 4⟩ : EngineSizes).maxTickers * (⟨1, 2, 2, 1, 4, 4⟩ : EngineSizes).maxOrders ≤ 2 ∧
        Engine.create ⟨1, 2, 2, 1, 4, 4⟩ = .ok e₀ ∧ e₀.runRequests reqs = (out, ups, e, none) ∧
        (⟨⟨Array.replicate 4 default, 0, 0, 0⟩, ⟨Array.replicate 4 default, 0, 0, 0⟩, 1⟩ :
          Publisher).nextSeq = 1 ∧
        (⟨⟨Array.replicate 4 default, 0, 0, 0⟩, ⟨Array.replicate 4 default, 0, 0, 0⟩, 1⟩ :
          Publisher).stampAll ups = .ok (ms, p) ∧
        SnapshotBook.create 1 2 = .ok mi₀) ∧
      ms.length = 3 ∧
      (∀ i (hi : i < ms.length), ms[i].seq.toNat = i + 1) ∧
      (∀ i (hi : i < ms.length), ∃ mi, mi₀.applyAll (ms.take i) = .ok mi ∧ mi.Admits ms[i].update) ∧
      ∃ mi, mi₀.applyAll ms = .ok mi ∧ mi.lastSeq.toNat = ms.length ∧
        (∀ (t : Nat) (b : Book), e.books[t]? = some b → mi.liveOrders t = b.records) ∧
        mi.cycle = (List.range (snapshotOf e.books mi.lastSeq).length).zipWith
          (fun i u => ⟨i.toUInt64, u⟩) (snapshotOf e.books mi.lastSeq) := by
  intro reqs
  refine ⟨_, _, _, _, _, _, _, ⟨by decide, by decide, rfl, rfl, rfl, rfl, rfl⟩, rfl, ?_⟩
  exact @snapshot_follows_engine ⟨1, 2, 2, 1, 4, 4⟩ 2 _ _ reqs _ _
    ⟨⟨Array.replicate 4 default, 0, 0, 0⟩, ⟨Array.replicate 4 default, 0, 0, 0⟩, 1⟩ _ _ _
    (by decide) (by decide) rfl rfl rfl rfl rfl

end Engine

end Exchange
