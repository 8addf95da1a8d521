import Exchange.Proofs.Feed.Cycle
import Exchange.Proofs.Feed.Stream

/-!
# Rebuilding a participant's book from the two feeds

The publisher stamps the engine's updates `1, 2, …` (`Numbered`); a participant that reads the
first `k` of them without loss holds `bookAfter ms k`. A snapshot book follows the same updates
and, after some of them, publishes a cycle. A consumer reads any of the stamped updates, in any
order, lost or repeated, and records of the cycles, lost but not reordered.

`rebuilds_book`: whenever such a consumer is in sync and expects number `n`, what it has passed
on, read into an empty book, gives the book of the first `n - 1` updates.

The two feeds meet at `Rebuilds`: records of the snapshot feed taken in order, numbered
`0, 1, …, e`, between a START and an END that carry the same number `s`, read into any book of
the engine's tickers, give the book after the first `s` updates (`rebuilds_of_publishAfter`). The
consumer keeps `Follows`: in sync, what it passed on is the book of the updates before the one it
expects; while recovering, it is the book of fewer updates than the number of a queued
incremental; the queued incrementals are stamped updates, and the snapshot queue is numbered from
0 and was received in order (`Follows.onMessage`, `Follows.feedAll`).
-/

namespace Exchange

/-! ## The stamped stream -/

/-- The updates are numbered `1, 2, …` in order. -/
def Numbered (ms : List Stamped) : Prop := ∀ i (h : i < ms.length), ms[i].seq.toNat = i + 1

/-- The book of a participant that read the first `k` stamped updates without loss. -/
def bookAfter (ms : List Stamped) (k : Nat) : Option ClientBook :=
  ClientBook.empty.applyAll ((ms.take k).map (·.update))

section Stream

variable {ms : List Stamped} {m : Stamped} {k j : Nat}

theorem Numbered.getElem?_of_mem (hn : Numbered ms) (hm : m ∈ ms) :
    0 < m.seq.toNat ∧ ms[m.seq.toNat - 1]? = some m := by
  obtain ⟨i, hi, rfl⟩ := List.getElem_of_mem hm
  rw [hn i hi, Nat.add_sub_cancel]
  exact ⟨Nat.succ_pos i, List.getElem?_eq_getElem hi⟩

theorem bookAfter_add :
    bookAfter ms (k + j) = (bookAfter ms k).bind (·.applyAll (((ms.drop k).take j).map (·.update))) := by
  rw [bookAfter, List.take_add, List.map_append, ClientBook.applyAll_append]
  rfl

theorem bookAfter_succ (h : ms[k]? = some m) :
    bookAfter ms (k + 1) = (bookAfter ms k).bind (·.apply m.update) := by
  obtain ⟨hk, rfl⟩ := List.getElem?_eq_some_iff.1 h
  rw [bookAfter_add, List.drop_eq_getElem_cons hk]
  simp only [List.take_succ_cons, List.take_zero, List.map_cons, List.map_nil,
    ClientBook.applyAll_singleton]

theorem bookAfter_eq_none_of_le (h : bookAfter ms k = none) (hk : k ≤ j) : bookAfter ms j = none := by
  obtain ⟨d, rfl⟩ := Nat.exists_eq_add_of_le hk
  rw [bookAfter_add, h]
  rfl

theorem bookAfter_min : bookAfter ms (min k ms.length) = bookAfter ms k := by
  rw [bookAfter, bookAfter, ← List.take_eq_take_min]

theorem ticker_lt_of_bookAfter {T : Nat} (hpub : ∀ m ∈ ms, m.update.Published T) {B : ClientBook}
    (h : bookAfter ms k = some B) : ∀ key v, B.entry key = some v → key.1.toNat < T := by
  refine ClientBook.applyAll_ticker (P := fun t => t.toNat < T) (fun u hu _ => ?_)
    (fun _ _ hv => by cases hv) h
  obtain ⟨m, hm, rfl⟩ := List.mem_map.1 hu
  exact (hpub m (List.mem_of_mem_take hm)).1

theorem Numbered.eq_drop_take (hn : Numbered ms) : ∀ {es : List (UInt64 × Update)} {s : Nat},
    (∀ e ∈ es, (⟨e.1, e.2⟩ : Stamped) ∈ ms) → es.map (·.1.toNat) = List.range' (s + 1) es.length →
      s ≤ ms.length →
        s + es.length ≤ ms.length ∧ es.map (·.2) = ((ms.drop s).take es.length).map (·.update)
  | [], s, _, _, hs => ⟨hs, rfl⟩
  | e :: es, s, hms, hkeys, _ => by
    rw [List.map_cons, List.length_cons, List.range'_succ] at hkeys
    obtain ⟨he, hkeys⟩ := List.cons.inj hkeys
    obtain ⟨-, hget⟩ := hn.getElem?_of_mem (hms e List.mem_cons_self)
    rw [he, Nat.add_sub_cancel] at hget
    obtain ⟨hlt, hval⟩ := List.getElem?_eq_some_iff.1 hget
    obtain ⟨hle, heq⟩ := hn.eq_drop_take (fun e' he' => hms e' (List.mem_cons_of_mem _ he')) hkeys hlt
    refine ⟨by rw [List.length_cons]; omega, ?_⟩
    rw [List.drop_eq_getElem_cons hlt, List.length_cons, List.take_succ_cons, List.map_cons,
      List.map_cons, hval, heq]

end Stream

/-! ## Queues numbered from 0 -/

namespace SeqQueue

/-- The queued updates with their numbers, as stamped records. -/
def records (q : SeqQueue) : List Stamped := q.entries.map fun e => ⟨e.1, e.2⟩

variable {k : UInt64} {u : Update} {e : UInt64 × Update}

theorem put_of_forall_lt : ∀ {es : List (UInt64 × Update)}, (∀ e ∈ es, e.1 < k) →
    put k u es = es ++ [(k, u)]
  | [], _ => rfl
  | (k', u') :: es, h => by
    have hlt : k' < k := h _ List.mem_cons_self
    have hnlt : ¬k < k' := fun h' => UInt64.lt_irrefl _ (UInt64.lt_trans h' hlt)
    have hne : k ≠ k' := fun h' => UInt64.lt_irrefl _ (h' ▸ hlt)
    rw [put, if_neg hnlt, if_neg hne, put_of_forall_lt fun e he => h e (List.mem_cons_of_mem _ he)]
    rfl

theorem exists_key_put : ∀ {es : List (UInt64 × Update)}, e ∈ es → ∃ e' ∈ put k u es, e'.1 = e.1
  | (k', u') :: es, he => by
    rw [put]
    split
    · exact ⟨e, List.mem_cons_of_mem _ he, rfl⟩
    · split
      · rename_i hk
        rcases List.mem_cons.1 he with rfl | he
        · exact ⟨(k, u), List.mem_cons_self, hk⟩
        · exact ⟨e, List.mem_cons_of_mem _ he, rfl⟩
      · rcases List.mem_cons.1 he with rfl | he
        · exact ⟨_, List.mem_cons_self, rfl⟩
        · obtain ⟨e', he', hkey⟩ := exists_key_put he
          exact ⟨e', List.mem_cons_of_mem _ he', hkey⟩

theorem keys_of_isFromZero {q : SeqQueue} (hz : q.isFromZero = true) :
    q.entries.map (·.1) = (List.range q.entries.length).map Nat.toUInt64 := by
  simpa [isFromZero, keys, size] using hz

theorem lt_of_not_contains {q : SeqQueue} (hz : q.isFromZero = true) (hc : q.contains k = false) :
    ∀ e ∈ q.entries, e.1 < k := by
  intro e he
  have hkeys := keys_of_isFromZero hz
  obtain ⟨i, hi, hie⟩ := List.mem_map.1 (hkeys ▸ List.mem_map_of_mem he : e.1 ∈ _)
  rw [List.mem_range] at hi
  rw [UInt64.lt_iff_toNat_lt]
  refine Nat.lt_of_not_le fun hle => ?_
  -- otherwise `k` is numbered below the queue's length, so it is queued
  have hk : k.toNat < q.entries.length := by
    have : e.1.toNat ≤ i := by rw [← hie, Nat.toUInt64_eq, UInt64.toNat_ofNat']; exact Nat.mod_le _ _
    omega
  obtain ⟨e', he', hke⟩ := List.mem_map.1
    (hkeys ▸ List.mem_map.2 ⟨k.toNat, List.mem_range.2 hk, by simp⟩ : k ∈ q.entries.map (·.1))
  have : q.contains k = true := List.any_eq_true.2 ⟨e', he', by simp [hke]⟩
  rw [hc] at this
  cases this

theorem toNat_key_of_isFromZero {q : SeqQueue} (hz : q.isFromZero = true) (hs : Sorted q.entries) :
    ∀ i (h : i < q.entries.length), q.entries[i].1.toNat = i := by
  have hkeys := keys_of_isFromZero hz
  -- the numbers increase, so there are no more of them than numbers
  have hlen : q.entries.length ≤ 2 ^ 64 := by
    refine Nat.le_of_not_lt fun hlen => ?_
    have hsorted : ((List.range q.entries.length).map Nat.toUInt64).Pairwise (· < ·) := hkeys ▸ hs
    have := List.pairwise_iff_getElem.1 hsorted 0 (2 ^ 64) (by simp; omega) (by simp; omega)
      (Nat.two_pow_pos 64)
    simp only [List.getElem_map, List.getElem_range] at this
    exact absurd this (by decide)
  intro i hi
  have := congrArg (·[i]?) hkeys
  simp only [List.getElem?_map, List.getElem?_range hi, List.getElem?_eq_getElem hi,
    Option.map_some, Option.some.injEq] at this
  rw [this, Nat.toUInt64_eq, UInt64.toNat_ofNat', Nat.mod_eq_of_lt (by omega)]

end SeqQueue

/-! ## The consumer's input -/

/-- The records received on the snapshot feed, in order. -/
def snapshotRecords (input : List (FeedKind × Stamped)) : List Stamped :=
  input.filterMap fun x => if x.1 = .snapshot then some x.2 else none

section Input

variable {xs ys : List (FeedKind × Stamped)} {m : Stamped}

theorem snapshotRecords_append : snapshotRecords (xs ++ ys) = snapshotRecords xs ++ snapshotRecords ys :=
  List.filterMap_append

theorem snapshotRecords_append_snapshot :
    snapshotRecords (xs ++ [(.snapshot, m)]) = snapshotRecords xs ++ [m] := by
  rw [snapshotRecords_append]
  rfl

theorem snapshotRecords_append_incremental :
    snapshotRecords (xs ++ [(.incremental, m)]) = snapshotRecords xs := by
  rw [snapshotRecords_append]
  exact List.append_nil _

theorem snapshotRecords_sublist_append : (snapshotRecords xs).Sublist (snapshotRecords (xs ++ ys)) := by
  rw [snapshotRecords_append]
  exact List.sublist_append_left _ _

end Input

/-- Handles records in order, stopping at the first fault. -/
def Consumer.feedAll (c : Consumer) (input : List (FeedKind × Stamped)) : Except Fault Consumer :=
  input.foldlM (fun c x => c.onMessage x.1 x.2) c

theorem Consumer.feedAll_cons {c c' : Consumer} {x : FeedKind × Stamped} {xs : List (FeedKind × Stamped)}
    (h : c.feedAll (x :: xs) = .ok c') : ∃ c₁, c.onMessage x.1 x.2 = .ok c₁ ∧ c₁.feedAll xs = .ok c' := by
  simp only [Consumer.feedAll, List.foldlM_cons, bind, Except.bind] at h
  split at h
  · cases h
  · exact ⟨_, ‹_›, h⟩

/-! ## What the snapshot feed rebuilds -/

/-- What a snapshot feed `ss` lets a consumer rebuild, for `T` tickers and the stamped updates
`ms`: records taken from it in order, numbered `0, 1, …` by place, between a START and an END
that carry the same number `s`, are of no more updates than there are, and read into a book of
those tickers they give the book after the first `s` updates. -/
def Rebuilds (T : Nat) (ms ss : List Stamped) : Prop :=
  ∀ Q : List Stamped, Q.Sublist ss → (∀ i (h : i < Q.length), Q[i].seq.toNat = i) →
    ∀ f l : Stamped, Q.head? = some f → Q.getLast? = some l → f.update.kind = .snapshotStart →
      l.update.kind = .snapshotEnd → f.update.orderId = l.update.orderId →
        f.update.orderId.toNat ≤ ms.length ∧
          ∀ X : ClientBook, (∀ key v, X.entry key = some v → key.1.toNat < T) →
            X.applyAll (Q.map (·.update)) = bookAfter ms f.update.orderId.toNat

theorem Rebuilds.sublist {T : Nat} {ms ss ss' : List Stamped} (h : Rebuilds T ms ss)
    (hs : ss'.Sublist ss) : Rebuilds T ms ss' :=
  fun Q hQ => h Q (hQ.trans hs)

namespace SnapshotBook

variable {T cap : Nat} {ms : List Stamped} {mi₀ mi : SnapshotBook}

theorem mirrors_applyAll_take {j : Nat} (hmi₀ : create T cap = .ok mi₀)
    (hk : ∀ m ∈ ms, m.update.kind ≠ .clear) (h : mi₀.applyAll (ms.take j) = .ok mi) :
    ∃ B, bookAfter ms j = some B ∧ Mirrors mi B ∧ mi.lastSeq.toNat = min j ms.length ∧
      mi.books.size = T ∧ mi.pool.capacity = cap := by
  obtain ⟨hsize, hcap, -, hseq⟩ := create_sizes hmi₀
  obtain ⟨hlast, hsame, B, hB, hmir⟩ :=
    (mirrors_create hmi₀).applyAll h fun m hm => hk m (List.mem_of_mem_take hm)
  refine ⟨B, hB, hmir, ?_, hsame.tickers.trans hsize, hsame.capacity.trans hcap⟩
  rw [hlast, hseq, List.length_take, UInt64.toNat_zero, Nat.zero_add]

/-- **The cycles rebuild the book.** The cycles a new snapshot book of the engine's tickers
publishes as it follows the stamped updates let a consumer rebuild the book after any number of
them that a cycle names. -/
theorem rebuilds_of_publishAfter {counts : List Nat} {ss : List Stamped} (hT : T ≤ 2 ^ 32)
    (hmi₀ : create T cap = .ok mi₀) (hk : ∀ m ∈ ms, m.update.kind ≠ .clear)
    (hss : mi₀.publishAfter ms counts = .ok ss) : Rebuilds T ms ss := by
  obtain ⟨cuts, rfl, hmono, hcuts⟩ :=
    publishAfter_eq (show mi₀.applyAll (ms.take 0) = .ok mi₀ from rfl) hss
  have hmir : ∀ x ∈ cuts, ∃ B, bookAfter ms x.1 = some B ∧ Mirrors x.2 B ∧
      x.2.lastSeq.toNat = min x.1 ms.length ∧ x.2.books.size = T ∧ x.2.pool.capacity = cap :=
    fun x hx => mirrors_applyAll_take hmi₀ hk (hcuts x hx).2
  have hsorted : (cuts.map (·.2)).Pairwise fun a b => a.lastSeq ≤ b.lastSeq := by
    rw [List.pairwise_map]
    refine (List.pairwise_map.1 hmono).imp_of_mem fun {x y} hx hy hxy => ?_
    obtain ⟨-, -, -, hx, -⟩ := hmir x hx
    obtain ⟨-, -, -, hy, -⟩ := hmir y hy
    rw [UInt64.le_iff_toNat_le, hx, hy]
    omega
  have hone : ∀ a ∈ cuts.map (·.2), ∀ b ∈ cuts.map (·.2), a.lastSeq = b.lastSeq → a = b := by
    simp only [List.mem_map]
    rintro _ ⟨x, hx, rfl⟩ _ ⟨y, hy, rfl⟩ hxy
    obtain ⟨-, -, -, hx', -⟩ := hmir x hx
    obtain ⟨-, -, -, hy', -⟩ := hmir y hy
    have htake : ms.take x.1 = ms.take y.1 := List.take_eq_take_iff.2 (by rw [← hx', ← hy', hxy])
    have hxy' := (hcuts x hx).2
    rw [htake, (hcuts y hy).2] at hxy'
    exact (Except.ok.inj hxy').symm
  have hframed : ∀ a ∈ cuts.map (·.2), a.Framed := by
    simp only [List.mem_map]
    rintro _ ⟨x, hx, rfl⟩
    obtain ⟨B, -, h, -, hsize, hcap⟩ := hmir x hx
    have hlt := (create_sizes hmi₀).2.2.1
    unfold Pool.nullIndex at hlt
    exact h.framed (by rw [hsize, hcap]; omega)
  intro Q hQ hseq f l hf hl hstart hend hmark
  obtain ⟨a, ha, rfl⟩ := eq_cycle_of_sublist hsorted hone hframed (by rwa [List.flatMap_map]) hseq
    hf hl hstart hend hmark
  obtain ⟨x, hx, rfl⟩ := List.mem_map.1 ha
  obtain ⟨B, hB, h, hlast, hsize, -⟩ := hmir x hx
  have hs : f.update.orderId = x.2.lastSeq :=
    (hframed _ ha).start f (List.mem_of_mem_head? hf) hstart
  rw [hs, hlast, bookAfter_min]
  refine ⟨Nat.min_le_right _ _, fun X hX => ?_⟩
  rw [map_update_cycle, h.applyAll_cycleBody (by rw [hsize]; exact hT) (by rw [hsize]; exact hX), hB]

end SnapshotBook

/-! ## What the consumer holds -/

namespace Consumer

variable {ms : List Stamped} {c c' : Consumer} {xs : List (FeedKind × Stamped)} {feed : FeedKind}
  {m : Stamped} {T : Nat}

/-- What the ring and the queues hold, for a consumer that received `xs`. -/
structure Holds (ms : List Stamped) (c : Consumer) (xs : List (FeedKind × Stamped)) : Prop where
  ring : c.out.WF
  /-- Every queued incremental is a stamped update. -/
  stamped : ∀ e ∈ c.incrementals.entries, (⟨e.1, e.2⟩ : Stamped) ∈ ms
  sorted : SeqQueue.Sorted c.snapshots.entries
  /-- The snapshot queue holds records received on the snapshot feed, in the order received. -/
  received : c.snapshots.records.Sublist (snapshotRecords xs)

/-- In sync: what was passed on is the book of the updates before the expected one. -/
def InSync (ms : List Stamped) (c : Consumer) : Prop :=
  c.nextExpected.toNat - 1 ≤ ms.length ∧
    ClientBook.empty.applyAll c.out.toList = bookAfter ms (c.nextExpected.toNat - 1)

/-- Recovering: what was passed on is the book of fewer updates than the number of a queued
incremental. -/
def Behind (ms : List Stamped) (c : Consumer) : Prop :=
  ∃ k ≤ ms.length, ClientBook.empty.applyAll c.out.toList = bookAfter ms k ∧
    ∃ e ∈ c.incrementals.entries, k < e.1.toNat

/-- A consumer that received `xs`, against the stamped updates `ms`. -/
structure Follows (ms : List Stamped) (c : Consumer) (xs : List (FeedKind × Stamped)) : Prop where
  holds : Holds ms c xs
  fromZero : c.snapshots.isFromZero = true
  inSync : c.state = .normal → InSync ms c
  behind : c.state = .recovering → Behind ms c

theorem follows_create {n : Nat} (h : Consumer.create n = .ok c) : Follows ms c [] := by
  obtain ⟨r, hr, rfl⟩ := create_eq h
  refine ⟨⟨Ring.wf_create hr, (fun _ he => nomatch he), List.Pairwise.nil, List.Sublist.slnil⟩, rfl,
    fun _ => ⟨Nat.zero_le _, ?_⟩, fun h' => nomatch h'⟩
  rw [Ring.toList_create hr]
  rfl

theorem Follows.snoc (hf : Follows ms c xs) (x : FeedKind × Stamped) : Follows ms c (xs ++ [x]) :=
  ⟨⟨hf.holds.ring, hf.holds.stamped, hf.holds.sorted,
    hf.holds.received.trans snapshotRecords_sublist_append⟩, hf.fromZero, hf.inSync, hf.behind⟩

/-! ### Queuing while recovering -/

theorem Holds.enqueue (hh : Holds ms c xs) (hz : c.snapshots.isFromZero = true)
    (hm : feed = .incremental → m ∈ ms) : Holds ms (c.enqueue feed m) (xs ++ [(feed, m)]) := by
  cases feed with
  | snapshot =>
    refine ⟨hh.ring, hh.stamped, ?_, ?_⟩
    · simp only [enqueue, SeqQueue.insert]
      refine SeqQueue.sorted_put ?_
      split
      · exact List.Pairwise.nil
      · exact hh.sorted
    · rw [snapshotRecords_append_snapshot]
      simp only [enqueue, SeqQueue.insert]
      split
      · exact List.Sublist.append (List.nil_sublist _) (List.Sublist.refl [m])
      · rename_i hc
        rw [SeqQueue.put_of_forall_lt (SeqQueue.lt_of_not_contains hz (by simpa using hc))]
        simp only [SeqQueue.records, List.map_append, List.map_cons, List.map_nil]
        exact hh.received.append (List.Sublist.refl _)
  | incremental =>
    refine ⟨hh.ring, fun e he => ?_, hh.sorted, by rw [snapshotRecords_append_incremental]; exact hh.received⟩
    rcases SeqQueue.mem_put he with rfl | he
    · exact hm rfl
    · exact hh.stamped e he

theorem Behind.enqueue (hb : Behind ms c) : Behind ms (c.enqueue feed m) := by
  obtain ⟨k, hk, hout, e, he, hlt⟩ := hb
  cases feed with
  | snapshot => exact ⟨k, hk, hout, e, he, hlt⟩
  | incremental =>
    obtain ⟨e', he', hkey⟩ := SeqQueue.exists_key_put (k := m.seq) (u := m.update) he
    exact ⟨k, hk, hout, e', he', by rw [hkey]; exact hlt⟩

/-! ### Leaving recovery -/

theorem Holds.cycle_rebuilds (hh : Holds ms c xs) (hreb : Rebuilds T ms (snapshotRecords xs))
    (hz : c.snapshots.isFromZero = true) {k₀ kₑ : UInt64} {first last : Update}
    {rest : List (UInt64 × Update)} (hentries : c.snapshots.entries = (k₀, first) :: rest)
    (hlast : c.snapshots.entries.getLast? = some (kₑ, last)) (hstart : first.kind = .snapshotStart)
    (hend : last.kind = .snapshotEnd) (hmark : first.orderId = last.orderId) :
    last.orderId.toNat ≤ ms.length ∧
      ∀ X : ClientBook, (∀ key v, X.entry key = some v → key.1.toNat < T) →
        X.applyAll (c.snapshots.entries.map (·.2)) = bookAfter ms last.orderId.toNat := by
  have hseq : ∀ i (h : i < c.snapshots.records.length), c.snapshots.records[i].seq.toNat = i := by
    intro i hi
    simp only [SeqQueue.records, List.getElem_map]
    exact SeqQueue.toNat_key_of_isFromZero hz hh.sorted i (by simpa [SeqQueue.records] using hi)
  have hf : c.snapshots.records.head? = some ⟨k₀, first⟩ := by simp [SeqQueue.records, hentries]
  have hl : c.snapshots.records.getLast? = some ⟨kₑ, last⟩ := by simp [SeqQueue.records, hlast]
  have hmap : c.snapshots.records.map (·.update) = c.snapshots.entries.map (·.2) := by
    simp [SeqQueue.records]
  obtain ⟨hle, hbook⟩ := hreb _ hh.received hseq _ _ hf hl hstart hend hmark
  rw [hmark] at hle hbook
  exact ⟨hle, fun X hX => hmap ▸ hbook X hX⟩

theorem Holds.tail_run (hh : Holds ms c xs) (hn : Numbered ms) {s next : UInt64} (hmax : s ≠ maxSeq)
    (hrun : runEnd (s + 1) ((c.incrementals.since (s + 1)).map (·.1)) = some next)
    (hs : s.toNat ≤ ms.length) :
    next.toNat = s.toNat + 1 + (c.incrementals.since (s + 1)).length ∧
      s.toNat + (c.incrementals.since (s + 1)).length ≤ ms.length ∧
      (c.incrementals.since (s + 1)).map (·.2) =
        ((ms.drop s.toNat).take (c.incrementals.since (s + 1)).length).map (·.update) ∧
      ∀ e ∈ c.incrementals.entries, s < e.1 → e.1.toNat < next.toNat := by
  obtain ⟨hks, hnext⟩ := runEnd_eq_some hrun
  rw [toNat_add_one_of_ne hmax, List.length_map] at hks hnext
  rw [List.map_map] at hks
  obtain ⟨hle, heq⟩ := hn.eq_drop_take (fun e he => hh.stamped e (SeqQueue.mem_since.1 he).1) hks hs
  refine ⟨hnext, hle, heq, fun e he hlt => ?_⟩
  have hmem : e ∈ c.incrementals.since (s + 1) :=
    SeqQueue.mem_since.2 ⟨he, (lt_iff_add_one_le hmax).1 hlt⟩
  have hin : e.1.toNat ∈ List.range' (s.toNat + 1) (c.incrementals.since (s + 1)).length := by
    rw [← hks]
    exact List.mem_map_of_mem hmem
  rw [List.mem_range'_1] at hin
  omega

/-- **Checking the queues keeps the invariant.** Recovery either goes on, with the snapshot
queue kept (numbered from 0) or emptied, or ends with a replay, after which what was passed on
is the book of the updates before the one expected: the queued cycle rebuilds the book after its
number `s`, and the queued incrementals after it read in the updates from `s + 1` on. -/
theorem Follows.resync (hh : Holds ms c xs) (hb : Behind ms c) (hrec : c.state = .recovering)
    (hreb : Rebuilds T ms (snapshotRecords xs)) (hpub : ∀ m ∈ ms, m.update.Published T)
    (hn : Numbered ms) (h : c.resync = .ok c') : Follows ms c' xs := by
  rcases resync_cases h with ⟨rfl, hz⟩ | rfl |
    ⟨k₀, kₑ, first, last, rest, next, c₃, hentries, hlast, hstart, hz, hend, hmark, hmax, hrun,
      hpubAll, rfl⟩
  · exact ⟨hh, hz, (fun h' => nomatch hrec.symm.trans h'), fun _ => hb⟩
  · exact ⟨⟨hh.ring, hh.stamped, List.Pairwise.nil, List.nil_sublist _⟩, rfl,
      (fun h' => nomatch hrec.symm.trans h'), fun _ => hb⟩
  · obtain ⟨hw, hout⟩ := toList_publishAll hh.ring hpubAll
    obtain ⟨hsle, hcycle⟩ := hh.cycle_rebuilds hreb hz hentries hlast hstart hend hmark
    obtain ⟨hnext, hle, htail, hbelow⟩ := hh.tail_run hn hmax hrun hsle
    obtain ⟨k, hk, hbook, e, he, hke⟩ := hb
    set s := last.orderId.toNat
    set tail := c.incrementals.since (last.orderId + 1)
    have hks : k ≤ s + tail.length := by
      by_cases hlt : last.orderId < e.1
      · have := hbelow e he hlt
        omega
      · have : e.1.toNat ≤ s := UInt64.le_iff_toNat_le.1 (UInt64.not_lt.1 hlt)
        omega
    refine ⟨⟨hw, (fun _ he => nomatch he), List.Pairwise.nil, List.nil_sublist _⟩, rfl,
      fun _ => ⟨by show next.toNat - 1 ≤ _; omega, ?_⟩, fun h' => nomatch h'⟩
    show ClientBook.empty.applyAll c₃.out.toList = bookAfter ms (next.toNat - 1)
    rw [hout, ClientBook.applyAll_append, hbook, show next.toNat - 1 = s + tail.length by omega]
    simp only [ClientBook.applyAll_filter_isMarker, List.map_append, ClientBook.applyAll_append]
    cases hX : bookAfter ms k with
    | none => exact (bookAfter_eq_none_of_le hX hks).symm
    | some X =>
      rw [Option.bind_some, hcycle X (ticker_lt_of_bookAfter hpub hX), htail, ← bookAfter_add]

/-! ### One record, then a run of them -/

theorem Follows.deliver (hf : Follows ms c xs) (hn : Numbered ms) (hs : c.state = .normal)
    (hm : m ∈ ms) (hseq : m.seq = c.nextExpected) (hmax : c.nextExpected ≠ maxSeq) {o : Ring Update}
    (hpush : c.out.pushAll [m.update] = .ok o) (x : FeedKind × Stamped) :
    Follows ms { c with out := o, nextExpected := c.nextExpected + 1 } (xs ++ [x]) := by
  obtain ⟨hw, hout⟩ := hf.holds.ring.pushAll hpush
  obtain ⟨hle, hbook⟩ := hf.inSync hs
  obtain ⟨hpos, hget⟩ := hn.getElem?_of_mem hm
  rw [hseq] at hpos hget
  have hlt : c.nextExpected.toNat - 1 < ms.length := (List.getElem?_eq_some_iff.1 hget).1
  have hnext : (c.nextExpected + 1).toNat - 1 = c.nextExpected.toNat - 1 + 1 := by
    rw [toNat_add_one_of_ne hmax]
    omega
  refine ⟨⟨hw, hf.holds.stamped, hf.holds.sorted,
    hf.holds.received.trans snapshotRecords_sublist_append⟩, hf.fromZero, fun _ => ⟨?_, ?_⟩,
    fun h' => nomatch hs.symm.trans h'⟩
  · show (c.nextExpected + 1).toNat - 1 ≤ ms.length
    omega
  · show ClientBook.empty.applyAll o.toList = bookAfter ms ((c.nextExpected + 1).toNat - 1)
    rw [hout, ClientBook.applyAll_append, hbook, hnext, bookAfter_succ hget]
    cases bookAfter ms (c.nextExpected.toNat - 1) with
    | none => rfl
    | some B => exact ClientBook.applyAll_singleton

theorem Follows.gap (hf : Follows ms c xs) (hs : c.state = .normal) (hm : m ∈ ms)
    (hgt : c.nextExpected < m.seq) :
    Holds ms (Consumer.enqueue ⟨c.nextExpected, .recovering, {}, {}, c.out⟩ .incremental m)
        (xs ++ [(.incremental, m)]) ∧
      Behind ms (Consumer.enqueue ⟨c.nextExpected, .recovering, {}, {}, c.out⟩ .incremental m) := by
  have h₁ : Holds ms ⟨c.nextExpected, .recovering, {}, {}, c.out⟩ xs :=
    ⟨hf.holds.ring, (fun _ he => nomatch he), List.Pairwise.nil, List.nil_sublist _⟩
  obtain ⟨hle, hout⟩ := hf.inSync hs
  refine ⟨h₁.enqueue rfl fun _ => hm, c.nextExpected.toNat - 1, hle, hout, (m.seq, m.update),
    List.mem_cons_self, ?_⟩
  rw [UInt64.lt_iff_toNat_lt] at hgt
  show c.nextExpected.toNat - 1 < m.seq.toNat
  omega

/-- **One record keeps the invariant.** -/
theorem Follows.onMessage (hf : Follows ms c xs) (hn : Numbered ms)
    (hpub : ∀ m ∈ ms, m.update.Published T) (hreb : Rebuilds T ms (snapshotRecords (xs ++ [(feed, m)])))
    (hm : feed = .incremental → m ∈ ms) (h : c.onMessage feed m = .ok c') :
    Follows ms c' (xs ++ [(feed, m)]) := by
  rcases onMessage_cases h with ⟨-, rfl, rfl⟩ | ⟨hs, rfl, hseq, hmax, o, hpush, rfl⟩ |
    ⟨-, -, -, rfl⟩ | ⟨hs, rfl, hgt, rfl⟩ | ⟨hs, h⟩
  · exact hf.snoc _
  · exact hf.deliver hn hs (hm rfl) hseq hmax hpush _
  · exact hf.snoc _
  · obtain ⟨hh, hb⟩ := hf.gap hs (hm rfl) hgt
    exact ⟨hh, rfl, (fun h' => nomatch h'), fun _ => hb⟩
  · exact Follows.resync (hf.holds.enqueue hf.fromZero hm) (hf.behind hs).enqueue
      (enqueue_state.trans hs) hreb hpub hn h

/-- **A run of records keeps the invariant.** -/
theorem Follows.feedAll (hn : Numbered ms) (hpub : ∀ m ∈ ms, m.update.Published T) :
    ∀ {c c' : Consumer} {xs input : List (FeedKind × Stamped)}, Follows ms c xs →
      (∀ x ∈ input, x.1 = .incremental → x.2 ∈ ms) → Rebuilds T ms (snapshotRecords (xs ++ input)) →
        c.feedAll input = .ok c' → Follows ms c' (xs ++ input)
  | c, c', xs, [], hf, _, _, h => by
    cases h
    rw [List.append_nil]
    exact hf
  | c, c', xs, (feed, m) :: input, hf, hinc, hreb, h => by
    obtain ⟨c₁, h₁, h⟩ := feedAll_cons h
    have hsplit : xs ++ (feed, m) :: input = (xs ++ [(feed, m)]) ++ input := by simp
    rw [hsplit] at hreb ⊢
    have hf₁ := hf.onMessage hn hpub (hreb.sublist snapshotRecords_sublist_append)
      (hinc (feed, m) List.mem_cons_self) h₁
    exact Follows.feedAll hn hpub hf₁ (fun x hx => hinc x (List.mem_cons_of_mem _ hx)) hreb h

end Consumer

/-! ## The feeds rebuild the book -/

/-- **Gap recovery rebuilds the book.** Run any requests through a new engine, stamp its updates
from 1, and let a new snapshot book of the engine's tickers follow them, publishing cycles after
any counts of them. A new consumer reads any of the stamped updates on the incremental feed, in
any order, lost or repeated, and on the snapshot feed records of the cycles, lost but in order.
Whenever it is in sync, expecting `n`, the updates it passed on, read into an empty book, give
the book of the first `n - 1` stamped updates. -/
theorem rebuilds_book {sz : EngineSizes} {e : Engine} {reqs : List Request} {p₀ p : Publisher}
    {ms : List Stamped} {cap : Nat} {mi₀ : SnapshotBook} {counts : List Nat} {cycles : List Stamped}
    {n : Nat} {c₀ c : Consumer} {input : List (FeedKind × Stamped)}
    (hT : sz.maxTickers ≤ 2 ^ 32) (he : Engine.create sz = .ok e) (hp₀ : p₀.nextSeq = 1)
    (hms : p₀.stampAll (e.runRequests reqs).2.1 = .ok (ms, p))
    (hmi₀ : SnapshotBook.create sz.maxTickers cap = .ok mi₀)
    (hcycles : mi₀.publishAfter ms counts = .ok cycles)
    (hinc : ∀ x ∈ input, x.1 = .incremental → x.2 ∈ ms)
    (hsnap : (snapshotRecords input).Sublist cycles)
    (hc₀ : Consumer.create n = .ok c₀) (hc : c₀.feedAll input = .ok c) (hnormal : c.state = .normal) :
    c.nextExpected.toNat - 1 ≤ ms.length ∧
      ClientBook.empty.applyAll c.out.toList =
        ClientBook.empty.applyAll ((ms.take (c.nextExpected.toNat - 1)).map (·.update)) := by
  obtain ⟨hups, hseq⟩ := Publisher.stampAll_eq hms
  have hn : Numbered ms := fun i hi => by rw [hseq i hi, hp₀]; simp [Nat.add_comm]
  have hpub : ∀ m ∈ ms, m.update.Published sz.maxTickers := fun m hm =>
    Engine.published_runRequests he reqs m.update (hups ▸ List.mem_map_of_mem hm)
  have hreb : Rebuilds sz.maxTickers ms (snapshotRecords input) :=
    (SnapshotBook.rebuilds_of_publishAfter hT hmi₀ (fun m hm => (hpub m hm).kind_ne_clear)
      hcycles).sublist hsnap
  exact (Consumer.Follows.feedAll hn hpub (Consumer.follows_create hc₀) hinc hreb hc).inSync hnormal

/-- One ticker and two bids: the consumer first gets the second ADD, a gap, then the whole cycle
published after the first ADD; it replays the cycle and the second ADD, and expects 3. -/
theorem rebuilds_book_after_gap :
    let reqs : List Request :=
      [{ kind := .new, clientId := 1, tickerId := 0, orderId := 1, side := .buy, price := 100, qty := 10 },
       { kind := .new, clientId := 1, tickerId := 0, orderId := 2, side := .buy, price := 101, qty := 5 }]
    let p₀ : Publisher := ⟨⟨Array.replicate 4 default, 0, 0, 0⟩, ⟨Array.replicate 4 default, 0, 0, 0⟩, 1⟩
    let input : List (FeedKind × Stamped) :=
      [(.incremental, ⟨2, ⟨.add, 2, 0, .buy, 101, 5, 1⟩⟩),
       (.snapshot, ⟨0, SnapshotBook.marker .snapshotStart 1 noTicker⟩),
       (.snapshot, ⟨1, SnapshotBook.marker .clear noOrder 0⟩),
       (.snapshot, ⟨2, ⟨.add, 1, 0, .buy, 100, 10, 1⟩⟩),
       (.snapshot, ⟨3, SnapshotBook.marker .snapshotEnd 1 noTicker⟩)]
    ∃ (e : Engine) (ms : List Stamped) (p : Publisher) (mi₀ : SnapshotBook) (cycles : List Stamped)
      (c₀ c : Consumer),
      ((⟨1, 2, 2, 4, 4, 4⟩ : EngineSizes).maxTickers ≤ 2 ^ 32 ∧ Engine.create ⟨1, 2, 2, 4, 4, 4⟩ = .ok e ∧
        p₀.nextSeq = 1 ∧ p₀.stampAll (e.runRequests reqs).2.1 = .ok (ms, p) ∧
        SnapshotBook.create 1 2 = .ok mi₀ ∧ mi₀.publishAfter ms [1] = .ok cycles ∧
        (∀ x ∈ input, x.1 = .incremental → x.2 ∈ ms) ∧ (snapshotRecords input).Sublist cycles ∧
        Consumer.create 4 = .ok c₀ ∧ c₀.feedAll input = .ok c ∧ c.state = .normal) ∧
      c.nextExpected = 3 ∧ c.nextExpected.toNat - 1 ≤ ms.length ∧
        ClientBook.empty.applyAll c.out.toList =
          ClientBook.empty.applyAll ((ms.take (c.nextExpected.toNat - 1)).map (·.update)) := by
  intro reqs p₀ input
  refine ⟨_, _, _, _, _, _, _, ⟨?_, rfl, rfl, rfl, rfl, rfl, ?_, ?_, rfl, rfl, rfl⟩, rfl, ?_⟩
  · decide
  · decide
  · decide
  · exact @rebuilds_book ⟨1, 2, 2, 4, 4, 4⟩ _ reqs p₀ _ _ 2 _ [1] _ 4 _ _ input (by decide) rfl rfl rfl
      rfl rfl (by decide) (by decide) rfl rfl rfl

end Exchange
