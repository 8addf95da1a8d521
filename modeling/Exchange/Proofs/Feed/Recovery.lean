import Exchange.Feed.Consumer
import Exchange.Proofs.Ring

/-!
# What gap recovery passes on

Each record a consumer handles passes on one of three things (`Consumer.Passes`). In sync, the
incremental with the expected number passes on as it is, and the consumer then expects the next
number. A call that ends recovery passes on a replay (`Consumer.Replay`): a whole cycle of the
snapshot feed, numbered `0, 1, …, e` and received since recovery began, whose START and END
carry the same number `s`, then the incrementals numbered `s + 1, …` received since recovery
began, the last copy of each, with no hole and nothing after them, all without the cycle markers;
the consumer then expects the number after the last of them. Every other call passes on nothing,
and leaves the expected number alone if the consumer stays in sync.

`Consumer.Received c log` says that a run of records from a new consumer reached `c`, `log` being
the records received since the consumer last was in sync. `Consumer.passes_on_stream` states the
law for every call of every such run: what the consumer passed on grows by what the call passes
on. So the stream is the in-sync incrementals from number 1, then, after each recovery, its
replay and the in-sync incrementals from the number after it.
-/

namespace Exchange

/-! ## Queues by number and runs of numbers -/

namespace SeqQueue

/-- The numbers increase from entry to entry. -/
def Sorted (es : List (UInt64 × Update)) : Prop := (es.map (·.1)).Pairwise (· < ·)

variable {k : UInt64} {u : Update} {e : UInt64 × Update}

theorem mem_put : ∀ {es : List (UInt64 × Update)}, e ∈ put k u es → e = (k, u) ∨ e ∈ es
  | [], h => .inl (List.mem_singleton.1 h)
  | (k', u') :: es, h => by
    simp only [put] at h
    split at h
    · exact List.mem_cons.1 h
    · split at h
      · rcases List.mem_cons.1 h with rfl | h
        · exact .inl rfl
        · exact .inr (List.mem_cons_of_mem _ h)
      · rcases List.mem_cons.1 h with rfl | h
        · exact .inr List.mem_cons_self
        · rcases mem_put h with rfl | h
          · exact .inl rfl
          · exact .inr (List.mem_cons_of_mem _ h)

theorem sorted_put : ∀ {es : List (UInt64 × Update)}, Sorted es → Sorted (put k u es)
  | [], _ => List.pairwise_singleton _ _
  | (k', u') :: es, hs => by
    simp only [Sorted, List.map_cons, List.pairwise_cons, List.mem_map] at hs
    obtain ⟨hk, hs⟩ := hs
    simp only [put]
    split
    · rename_i hlt
      simp only [Sorted, List.map_cons, List.pairwise_cons, List.mem_map, List.mem_cons]
      refine ⟨?_, ⟨hk, hs⟩⟩
      rintro _ (rfl | ⟨e, he, rfl⟩)
      · exact hlt
      · exact UInt64.lt_trans hlt (hk _ ⟨e, he, rfl⟩)
    · split
      · rename_i _ heq
        subst heq
        simp only [Sorted, List.map_cons, List.pairwise_cons, List.mem_map]
        exact ⟨hk, hs⟩
      · rename_i hlt hne
        simp only [Sorted, List.map_cons, List.pairwise_cons, List.mem_map]
        refine ⟨?_, sorted_put hs⟩
        rintro _ ⟨e, he, rfl⟩
        rcases mem_put he with rfl | he
        · exact UInt64.lt_of_le_of_ne (UInt64.not_lt.1 hlt) (Ne.symm hne)
        · exact hk _ ⟨e, he, rfl⟩

theorem mem_put_iff : ∀ {es : List (UInt64 × Update)}, Sorted es →
    (e ∈ put k u es ↔ e = (k, u) ∨ e ∈ es ∧ e.1 ≠ k)
  | [], _ => by simp [put]
  | (k', u') :: es, hs => by
    simp only [Sorted, List.map_cons, List.pairwise_cons, List.mem_map] at hs
    obtain ⟨hk, hs⟩ := hs
    have habove : ∀ e ∈ es, k' < e.1 := fun e he => hk _ ⟨e, he, rfl⟩
    simp only [put]
    split
    · rename_i hlt
      have hne : ∀ e ∈ (k', u') :: es, e.1 ≠ k := by
        intro e he heq
        rcases List.mem_cons.1 he with rfl | he
        · exact UInt64.lt_irrefl _ (heq ▸ hlt)
        · exact UInt64.lt_irrefl _ (UInt64.lt_trans hlt (heq ▸ habove e he))
      constructor
      · intro h
        rcases List.mem_cons.1 h with rfl | h
        · exact .inl rfl
        · exact .inr ⟨h, hne e h⟩
      · rintro (rfl | ⟨h, -⟩)
        · exact List.mem_cons_self
        · exact List.mem_cons_of_mem _ h
    · split
      · rename_i _ heq
        subst heq
        simp only [List.mem_cons]
        constructor
        · rintro (rfl | h)
          · exact .inl rfl
          · exact .inr ⟨.inr h, fun heq => UInt64.lt_irrefl _ (heq ▸ habove e h)⟩
        · rintro (rfl | ⟨rfl | h, hne⟩)
          · exact .inl rfl
          · exact absurd rfl hne
          · exact .inr h
      · rename_i hlt hne
        rw [List.mem_cons, mem_put_iff hs, List.mem_cons]
        constructor
        · rintro (rfl | rfl | ⟨h, hne'⟩)
          · exact .inr ⟨.inl rfl, Ne.symm hne⟩
          · exact .inl rfl
          · exact .inr ⟨.inr h, hne'⟩
        · rintro (rfl | ⟨rfl | h, hne'⟩)
          · exact .inr (.inl rfl)
          · exact .inl rfl
          · exact .inr (.inr ⟨h, hne'⟩)

theorem mem_since {q : SeqQueue} : e ∈ q.since k ↔ e ∈ q.entries ∧ k ≤ e.1 := by
  simp [since]

end SeqQueue

theorem toNat_add_one_of_ne {a : UInt64} (h : a ≠ maxSeq) : (a + 1).toNat = a.toNat + 1 := by
  have hlt := UInt64.toNat_lt a
  have hne : a.toNat ≠ maxSeq.toNat := fun e => h (UInt64.toNat_inj.1 e)
  rw [UInt64.toNat_add, UInt64.toNat_one, Nat.mod_eq_of_lt]
  change a.toNat ≠ 18446744073709551615 at hne
  omega

theorem lt_iff_add_one_le {a k : UInt64} (h : a ≠ maxSeq) : a < k ↔ a + 1 ≤ k := by
  rw [UInt64.lt_iff_toNat_lt, UInt64.le_iff_toNat_le, toNat_add_one_of_ne h]
  omega

theorem runEnd_eq_some : ∀ {a n : UInt64} {ks : List UInt64}, runEnd a ks = some n →
    ks.map UInt64.toNat = List.range' a.toNat ks.length ∧ n.toNat = a.toNat + ks.length
  | a, n, [], h => by
    simp only [runEnd, Option.some.injEq] at h
    subst h
    exact ⟨rfl, rfl⟩
  | a, n, k :: ks, h => by
    simp only [runEnd] at h
    split at h
    · rename_i hk
      obtain ⟨rfl, hne⟩ := hk
      obtain ⟨hks, hn⟩ := runEnd_eq_some h
      rw [toNat_add_one_of_ne hne] at hks hn
      refine ⟨?_, by rw [hn, List.length_cons]; omega⟩
      rw [List.map_cons, hks, List.length_cons, List.range'_succ]
    · cases h

/-! ## The law -/

namespace Consumer

/-- The update last received on a feed under a number, among records received oldest first. -/
def lastReceived (feed : FeedKind) (k : UInt64) (log : List (FeedKind × Stamped)) : Option Update :=
  (log.reverse.find? fun r => r.1 == feed && r.2.seq == k).map (·.2.update)

@[simp] theorem lastReceived_nil (feed : FeedKind) (k : UInt64) : lastReceived feed k [] = none :=
  rfl

theorem lastReceived_append (feed f : FeedKind) (k : UInt64) (m : Stamped)
    (log : List (FeedKind × Stamped)) :
    lastReceived feed k (log ++ [(f, m)]) =
      if f = feed ∧ m.seq = k then some m.update else lastReceived feed k log := by
  unfold lastReceived
  rw [List.reverse_append, List.reverse_singleton, List.singleton_append, List.find?_cons]
  split
  · rename_i hb
    simp only [Bool.and_eq_true, beq_iff_eq] at hb
    rw [if_pos hb]
    rfl
  · rename_i hb
    rw [if_neg fun h => by simp [h.1, h.2] at hb]

/-- A cycle of the snapshot feed and the incrementals after it, as recovery passes them on. -/
structure Replay where
  cycle : List (UInt64 × Update)
  tail : List (UInt64 × Update)
  /-- The incremental number the cycle's START and END carry. -/
  mark : UInt64

namespace Replay

/-- What the replay passes on: its updates in order, without the cycle markers. -/
def output (r : Replay) : List Update := ((r.cycle ++ r.tail).map (·.2)).filter fun u => !u.isMarker

/-- A replay from records received in `log`, after which the next number expected is `next`:
a whole cycle numbered from 0, received on the snapshot feed, between a START and an END that
carry the same number short of the largest; then the incrementals above that number, the last
copy received of each, with consecutive numbers up to the one before `next`. -/
structure Valid (r : Replay) (log : List (FeedKind × Stamped)) (next : UInt64) : Prop where
  keys_cycle : r.cycle.map (·.1) = (List.range r.cycle.length).map Nat.toUInt64
  received_cycle : ∀ e ∈ r.cycle, (FeedKind.snapshot, ({ seq := e.1, update := e.2 } : Stamped)) ∈ log
  start : ∃ e ∈ r.cycle.head?, e.2.kind = .snapshotStart ∧ e.2.orderId = r.mark
  finish : ∃ e ∈ r.cycle.getLast?, e.2.kind = .snapshotEnd ∧ e.2.orderId = r.mark
  mark_ne : r.mark ≠ maxSeq
  last_tail : ∀ k u, (k, u) ∈ r.tail ↔ r.mark < k ∧ lastReceived .incremental k log = some u
  keys_tail : r.tail.map (·.1.toNat) = List.range' (r.mark.toNat + 1) r.tail.length
  next_eq : next.toNat = r.mark.toNat + 1 + r.tail.length

end Replay

/-- What a call on `c` with record `m` of `feed` passes on, `c'` being the consumer after it and
`log` the records received since `c` last was in sync, `m` included. -/
inductive Passes (c : Consumer) (log : List (FeedKind × Stamped)) (feed : FeedKind) (m : Stamped)
    (c' : Consumer) : List Update → Prop
  /-- In sync, the expected incremental passes on, and the next number is expected. -/
  | deliver : c.state = .normal → feed = .incremental → m.seq = c.nextExpected →
      c'.state = .normal → c'.nextExpected = c.nextExpected + 1 → Passes c log feed m c' [m.update]
  /-- Nothing passes on, unless the record is the expected incremental of a consumer in sync; a
  consumer in sync after the call was in sync before it and expects the same number. -/
  | quiet : ¬(c.state = .normal ∧ feed = .incremental ∧ m.seq = c.nextExpected) →
      (c'.state = .normal → c.state = .normal ∧ c'.nextExpected = c.nextExpected) →
      Passes c log feed m c' []
  /-- Recovery ends with a replay of records received since it began. -/
  | replay (r : Replay) : c.state = .recovering → c'.state = .normal →
      r.Valid log c'.nextExpected → Passes c log feed m c' r.output

/-- The consumers a run of records leads to from `c₀`, with the records received since the
consumer last was in sync. -/
inductive Received (c₀ : Consumer) : Consumer → List (FeedKind × Stamped) → Prop
  | start : Received c₀ c₀ []
  | step {c c' : Consumer} {log : List (FeedKind × Stamped)} {feed : FeedKind} {m : Stamped} :
      Received c₀ c log → c.onMessage feed m = .ok c' →
      Received c₀ c' (if c'.state = .recovering then log ++ [(feed, m)] else [])

/-- What the queues hold, for a consumer that received `log` since it last was in sync. -/
structure Tracks (c : Consumer) (log : List (FeedKind × Stamped)) : Prop where
  ring : c.out.WF
  inSync : c.state = .normal → log = []
  sorted : SeqQueue.Sorted c.incrementals.entries
  incrementals : c.state = .recovering →
    ∀ k u, (k, u) ∈ c.incrementals.entries ↔ lastReceived .incremental k log = some u
  snapshots : c.state = .recovering →
    ∀ e ∈ c.snapshots.entries, (FeedKind.snapshot, ({ seq := e.1, update := e.2 } : Stamped)) ∈ log

variable {c c' : Consumer} {log : List (FeedKind × Stamped)} {feed : FeedKind} {m : Stamped}

theorem create_eq {n : Nat} (h : Consumer.create n = .ok c) :
    ∃ r, Ring.create n = .ok r ∧
      c = { nextExpected := 1, state := .normal, snapshots := {}, incrementals := {}, out := r } := by
  simp only [Consumer.create, bind, Except.bind, pure, Except.pure] at h
  split at h
  · cases h
  · rename_i r hr
    cases h
    exact ⟨r, hr, rfl⟩

theorem tracks_create {n : Nat} (h : Consumer.create n = .ok c) : Tracks c [] := by
  obtain ⟨r, hr, rfl⟩ := create_eq h
  exact ⟨Ring.wf_create hr, fun _ => rfl, List.Pairwise.nil, (fun h => nomatch h),
    (fun h => nomatch h)⟩

theorem publishAll_eq {us : List Update} (h : c.publishAll us = .ok c') :
    c.out.pushAll us = .ok c'.out ∧ c' = { c with out := c'.out } := by
  simp only [publishAll, bind, Except.bind, pure, Except.pure] at h
  split at h
  · cases h
  · rename_i out hout
    cases h
    exact ⟨hout, rfl⟩

theorem toList_publishAll {us : List Update} (hw : c.out.WF) (h : c.publishAll us = .ok c') :
    c'.out.WF ∧ c'.out.toList = c.out.toList ++ us :=
  hw.pushAll (publishAll_eq h).1

theorem Tracks.enqueue (ht : Tracks c log) (hrec : c.state = .recovering) :
    Tracks (c.enqueue feed m) (log ++ [(feed, m)]) := by
  have hlog : ∀ r ∈ log, r ∈ log ++ [(feed, m)] := fun r hr => List.mem_append_left _ hr
  cases feed with
  | snapshot =>
    refine ⟨ht.ring, (fun h => nomatch hrec.symm.trans h), ht.sorted, fun _ k u => ?_, fun _ e he => ?_⟩
    · -- the incrementals are as they were, and so is the last one received under each number
      rw [lastReceived_append, if_neg (by simp)]
      exact ht.incrementals hrec k u
    · -- a snapshot record is the one just received, or one queued before
      rcases SeqQueue.mem_put he with rfl | he
      · exact List.mem_append_right _ List.mem_cons_self
      · split at he
        · cases he
        · exact hlog _ (ht.snapshots hrec e he)
  | incremental =>
    refine ⟨ht.ring, (fun h => nomatch hrec.symm.trans h), SeqQueue.sorted_put ht.sorted,
      fun _ k u => ?_, fun _ e he => hlog _ (ht.snapshots hrec e he)⟩
    -- the incremental just received replaces any queued under its number
    simp only [enqueue, SeqQueue.insert]
    rw [SeqQueue.mem_put_iff ht.sorted, lastReceived_append, ht.incrementals hrec k u]
    by_cases hk : m.seq = k
    · subst hk
      simp [eq_comm]
    · simp [hk, Ne.symm hk]

theorem Tracks.dropSnapshot (ht : Tracks c log) : Tracks c.dropSnapshot log :=
  ⟨ht.ring, ht.inSync, ht.sorted, ht.incrementals, fun _ _ he => nomatch he⟩

theorem resync_cases (h : c.resync = .ok c') :
    (c' = c ∧ c.snapshots.isFromZero = true) ∨ c' = c.dropSnapshot ∨
      ∃ (k₀ kₑ : UInt64) (first last : Update) (rest : List (UInt64 × Update)) (next : UInt64)
        (c₃ : Consumer),
        c.snapshots.entries = (k₀, first) :: rest ∧ c.snapshots.entries.getLast? = some (kₑ, last) ∧
        first.kind = .snapshotStart ∧ c.snapshots.isFromZero = true ∧ last.kind = .snapshotEnd ∧
        first.orderId = last.orderId ∧ last.orderId ≠ maxSeq ∧
        runEnd (last.orderId + 1) ((c.incrementals.since (last.orderId + 1)).map (·.1)) = some next ∧
        c.publishAll (((c.snapshots.entries ++ c.incrementals.since (last.orderId + 1)).map
          (·.2)).filter fun u => !u.isMarker) = .ok c₃ ∧
        c' = ⟨next, .normal, {}, {}, c₃.out⟩ := by
  unfold Consumer.resync at h
  split at h
  · rename_i hentries
    cases h
    exact .inl ⟨rfl, by simp [SeqQueue.isFromZero, SeqQueue.keys, SeqQueue.size, hentries]⟩
  rename_i k₀ first rest hentries
  split at h
  · cases h; exact .inr (.inl rfl)
  rename_i hstart
  split at h
  · cases h; exact .inr (.inl rfl)
  rename_i hzero
  simp only [Bool.not_eq_true', Bool.not_eq_false] at hzero
  split at h
  · cases h; exact .inl ⟨rfl, hzero⟩
  rename_i kₑ last hlast
  split at h
  · cases h; exact .inl ⟨rfl, hzero⟩
  rename_i hend
  dsimp only at h
  split at h
  · cases h; exact .inr (.inl rfl)
  rename_i hmark
  split at h
  · cases h; exact .inr (.inl rfl)
  rename_i next hrun
  simp only [bind, Except.bind, pure, Except.pure] at h
  split at h
  · cases h
  rename_i c₃ hpub
  cases h
  simp only [ne_eq, not_or, not_not] at hmark hstart hend
  exact .inr (.inr ⟨k₀, kₑ, first, last, rest, next, c₃, hentries, hlast, hstart, hzero, hend,
    hmark.1, hmark.2, hrun, hpub, rfl⟩)

theorem onMessage_cases (h : c.onMessage feed m = .ok c') :
    (c.state = .normal ∧ feed = .snapshot ∧ c' = c) ∨
      (c.state = .normal ∧ feed = .incremental ∧ m.seq = c.nextExpected ∧ c.nextExpected ≠ maxSeq ∧
        ∃ o, c.out.pushAll [m.update] = .ok o ∧
          c' = { c with out := o, nextExpected := c.nextExpected + 1 }) ∨
      (c.state = .normal ∧ feed = .incremental ∧ m.seq < c.nextExpected ∧ c' = c) ∨
      (c.state = .normal ∧ feed = .incremental ∧ c.nextExpected < m.seq ∧
        c' = Consumer.enqueue ⟨c.nextExpected, .recovering, {}, {}, c.out⟩ .incremental m) ∨
      (c.state = .recovering ∧ (c.enqueue feed m).resync = .ok c') := by
  unfold Consumer.onMessage at h
  split at h
  · rename_i hs
    cases h
    exact .inl ⟨hs, rfl, rfl⟩
  · rename_i hs
    split at h
    · rename_i hseq
      simp only [bind, Except.bind, pure, Except.pure] at h
      split at h
      · cases h
      rename_i c₁ hpub
      obtain ⟨hpush, hc₁⟩ := publishAll_eq hpub
      generalize c₁.out = o at hpush hc₁
      subst hc₁
      split at h
      · cases h
      rename_i hmax
      cases h
      exact .inr (.inl ⟨hs, rfl, hseq, hmax, o, hpush, rfl⟩)
    split at h
    · rename_i hold
      cases h
      exact .inr (.inr (.inl ⟨hs, rfl, hold, rfl⟩))
    · rename_i hseq hold
      have hkeep : (Consumer.enqueue ⟨c.nextExpected, .recovering, {}, {}, c.out⟩ .incremental m).resync =
          .ok (Consumer.enqueue ⟨c.nextExpected, .recovering, {}, {}, c.out⟩ .incremental m) := rfl
      dsimp only at h
      rw [hkeep] at h
      cases h
      exact .inr (.inr (.inr (.inl ⟨hs, rfl,
        UInt64.lt_of_le_of_ne (UInt64.not_lt.1 hold) (Ne.symm hseq), rfl⟩)))
  · rename_i hs
    exact .inr (.inr (.inr (.inr ⟨hs, h⟩)))

/-- **Leaving recovery replays what was received.** Checking the queues either keeps recovering,
passing nothing on, or ends recovery with a replay of records received since it began. -/
theorem Tracks.resync (ht : Tracks c log) (hrec : c.state = .recovering) (h : c.resync = .ok c') :
    (c'.state = .recovering ∧ c'.out = c.out ∧ Tracks c' log) ∨
      (c'.state = .normal ∧ Tracks c' [] ∧
        ∃ r : Replay, r.Valid log c'.nextExpected ∧ c'.out.toList = c.out.toList ++ r.output) := by
  rcases resync_cases h with ⟨rfl, -⟩ | rfl |
    ⟨k₀, kₑ, first, last, rest, next, c₃, hentries, hlast, hstart, hzero, hend, hmark, hmax, hrun,
      hpub, rfl⟩
  · exact .inl ⟨hrec, rfl, ht⟩
  · exact .inl ⟨hrec, rfl, ht.dropSnapshot⟩
  obtain ⟨hw₃, hout⟩ := toList_publishAll ht.ring hpub
  obtain ⟨hks, hn⟩ := runEnd_eq_some hrun
  rw [toNat_add_one_of_ne hmax] at hks hn
  refine .inr ⟨rfl, ⟨hw₃, fun _ => rfl, List.Pairwise.nil, (fun h => nomatch h), (fun h => nomatch h)⟩,
    ⟨c.snapshots.entries, c.incrementals.since (last.orderId + 1), last.orderId⟩,
    ⟨?_, ht.snapshots hrec, ?_, ⟨(kₑ, last), hlast, hend, rfl⟩, hmax, fun k u => ?_, ?_, ?_⟩, hout⟩
  · simpa [SeqQueue.isFromZero, SeqQueue.keys, SeqQueue.size] using hzero
  · exact ⟨(k₀, first), by simp [hentries], hstart, hmark⟩
  · rw [SeqQueue.mem_since, ht.incrementals hrec k u, ← lt_iff_add_one_le hmax]
    exact and_comm
  · simpa [List.map_map, Function.comp_def] using hks
  · simpa using hn

theorem tracks_of_normal (hw : c.out.WF) (hs : c.state = .normal)
    (hsorted : SeqQueue.Sorted c.incrementals.entries) : Tracks c [] :=
  ⟨hw, fun _ => rfl, hsorted, (fun h => nomatch hs.symm.trans h), (fun h => nomatch hs.symm.trans h)⟩

theorem enqueue_state : (c.enqueue feed m).state = c.state := by
  cases feed <;> rfl

theorem enqueue_out : (c.enqueue feed m).out = c.out := by
  cases feed <;> rfl

/-- **One call, one law.** A call keeps track of the records received since the consumer last
was in sync, and passes on what `Passes` allows. -/
theorem Tracks.onMessage (ht : Tracks c log) (h : c.onMessage feed m = .ok c') :
    Tracks c' (if c'.state = .recovering then log ++ [(feed, m)] else []) ∧
      ∃ us, c'.out.toList = c.out.toList ++ us ∧ Passes c (log ++ [(feed, m)]) feed m c' us := by
  rcases onMessage_cases h with ⟨hs, rfl, rfl⟩ | ⟨hs, rfl, hseq, -, o, hpush, rfl⟩ |
    ⟨hs, rfl, hold, rfl⟩ | ⟨hs, rfl, hgt, rfl⟩ | ⟨hs, h⟩
  · -- in sync, the snapshot feed is ignored
    obtain rfl := ht.inSync hs
    rw [if_neg (by rw [hs]; decide)]
    exact ⟨ht, [], (List.append_nil _).symm, .quiet (fun h => nomatch h.2.1) fun _ => ⟨hs, rfl⟩⟩
  · -- the expected incremental passes on
    obtain rfl := ht.inSync hs
    obtain ⟨hw, hout⟩ := ht.ring.pushAll hpush
    rw [if_neg (by show ¬c.state = .recovering; rw [hs]; decide)]
    exact ⟨tracks_of_normal hw hs ht.sorted, [m.update], hout, .deliver hs rfl hseq hs rfl⟩
  · -- an old incremental is dropped
    obtain rfl := ht.inSync hs
    rw [if_neg (by rw [hs]; decide)]
    exact ⟨ht, [], (List.append_nil _).symm,
      .quiet (fun h => UInt64.ne_of_lt hold h.2.2) fun _ => ⟨hs, rfl⟩⟩
  · -- a gap starts recovery, with empty queues and nothing to replay
    obtain rfl := ht.inSync hs
    have ht₁ : Tracks ⟨c.nextExpected, .recovering, {}, {}, c.out⟩ [] :=
      ⟨ht.ring, (fun h => nomatch h), List.Pairwise.nil, (fun _ k u => by simp),
        (fun _ _ he => nomatch he)⟩
    have hst : (Consumer.enqueue ⟨c.nextExpected, .recovering, {}, {}, c.out⟩ .incremental m).state =
        .recovering := enqueue_state
    rw [if_pos hst]
    exact ⟨ht₁.enqueue rfl, [], (List.append_nil _).symm,
      .quiet (fun h => UInt64.ne_of_lt hgt h.2.2.symm) fun h => nomatch h⟩
  · -- while recovering, every record is queued and the queues are checked
    have ht₂ : Tracks (c.enqueue feed m) (log ++ [(feed, m)]) := ht.enqueue hs
    rcases ht₂.resync (enqueue_state.trans hs) h with ⟨hst, hout, ht'⟩ | ⟨hst, ht', r, hr, hout⟩
    · rw [if_pos hst]
      exact ⟨ht', [], by rw [hout, enqueue_out, List.append_nil],
        .quiet (fun h' => nomatch hs.symm.trans h'.1) fun h' => nomatch hst.symm.trans h'⟩
    · rw [if_neg (by rw [hst]; decide)]
      exact ⟨ht', r.output, by rw [hout, enqueue_out], .replay r hs hst hr⟩

theorem Received.tracks {c₀ : Consumer} (h₀ : Tracks c₀ []) (h : Received c₀ c log) : Tracks c log := by
  induction h with
  | start => exact h₀
  | step _ hm ih => exact (ih.onMessage hm).1

/-- **The stream law of gap recovery.** A new consumer has passed nothing on, is in sync and
expects number 1; along any run of records from it, each call passes on what `Passes` allows:
the expected incremental while in sync, nothing, or, when recovery ends, a replay of a whole
snapshot cycle and the incrementals after it received since recovery began. -/
theorem passes_on_stream {n : Nat} {c₀ : Consumer} (h₀ : Consumer.create n = .ok c₀) :
    c₀.out.toList = [] ∧ c₀.state = .normal ∧ c₀.nextExpected = 1 ∧
      ∀ {c c' : Consumer} {log : List (FeedKind × Stamped)} {feed : FeedKind} {m : Stamped},
        Received c₀ c log → c.onMessage feed m = .ok c' →
          ∃ us, c'.out.toList = c.out.toList ++ us ∧ Passes c (log ++ [(feed, m)]) feed m c' us := by
  obtain ⟨r, hr, rfl⟩ := create_eq h₀
  exact ⟨Ring.toList_create hr, rfl, rfl, fun h hm => ((h.tracks (tracks_create h₀)).onMessage hm).2⟩

/-- A consumer with a ring of four slots gets incremental 2, a gap, then a snapshot cycle that
carries 1: its END ends recovery with a replay of the queued incremental, and 3 is expected. -/
theorem passes_on_stream_through_replay :
    let gap : Stamped := ⟨2, ⟨.add, 2, 0, .buy, 101, 5, 1⟩⟩
    let start : Stamped := ⟨0, { kind := .snapshotStart, orderId := 1, tickerId := noTicker }⟩
    let stop : Stamped := ⟨1, { kind := .snapshotEnd, orderId := 1, tickerId := noTicker }⟩
    ∃ (c₀ c₁ c₂ c₃ : Consumer) (log : List (FeedKind × Stamped)),
      (Consumer.create 4 = .ok c₀ ∧ c₀.onMessage .incremental gap = .ok c₁ ∧
        c₁.onMessage .snapshot start = .ok c₂ ∧ Received c₀ c₂ log ∧
        c₂.onMessage .snapshot stop = .ok c₃ ∧
        c₂.state = .recovering ∧ c₃.state = .normal ∧ c₃.nextExpected = 3 ∧
        c₃.out.toList = [gap.update]) ∧
      (c₀.out.toList = [] ∧ c₀.state = .normal ∧ c₀.nextExpected = 1 ∧
        ∀ {c c' : Consumer} {log : List (FeedKind × Stamped)} {feed : FeedKind} {m : Stamped},
          Received c₀ c log → c.onMessage feed m = .ok c' →
            ∃ us, c'.out.toList = c.out.toList ++ us ∧ Passes c (log ++ [(feed, m)]) feed m c' us) ∧
      ∃ us, c₃.out.toList = c₂.out.toList ++ us ∧
        Passes c₂ (log ++ [(.snapshot, stop)]) .snapshot stop c₃ us := by
  intro gap start stop
  have h₀ : Consumer.create 4 = .ok ⟨1, .normal, {}, {}, ⟨Array.replicate 4 default, 0, 0, 0⟩⟩ := rfl
  have hc₁ := Received.step Received.start
    (show Consumer.onMessage ⟨1, .normal, {}, {}, ⟨Array.replicate 4 default, 0, 0, 0⟩⟩
      .incremental gap = _ from rfl)
  have hc₂ := Received.step hc₁ (show Consumer.onMessage _ .snapshot start = _ from rfl)
  have hlaw := passes_on_stream h₀
  exact ⟨_, _, _, _, _, ⟨h₀, rfl, rfl, hc₂, rfl, rfl, rfl, rfl, rfl⟩, hlaw, hlaw.2.2.2 hc₂ rfl⟩

end Consumer

end Exchange
