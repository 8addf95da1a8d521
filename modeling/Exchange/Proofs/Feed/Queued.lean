import Exchange.Proofs.Feed.Handover

/-!
# What a consumer keeps queued

Between records, a consumer in sync queues nothing, and a recovering one queues at most the
opening of one snapshot cycle (`SeqQueue.Opening`): records numbered `0, 1, …, k - 1`, the first
a START, none an END. Each of the ways a call can leave the snapshot queue keeps this: a gap
empties both queues, a repeated number restarts the queue, a queue that does not begin with a
START or has a hole is dropped, a cycle whose markers disagree or whose incrementals have a hole
is dropped, and a whole cycle is replayed and emptied with the incrementals. What is kept is
checked to have no END at its end, and a record numbered past a queue numbered from 0 goes last.

So a complete cycle is never left queued, and recovery ends only on the call that brings the
END of a cycle on the snapshot feed (`Consumer.Buffered.synced_on_end`). Main statement:
`Consumer.queues_hold_open_cycle`.
-/

namespace Exchange

namespace SeqQueue

/-- The queue holds the opening of one snapshot cycle, or nothing: it is numbered from 0, begun
by a START, and holds no END. -/
structure Opening (q : SeqQueue) : Prop where
  fromZero : q.isFromZero = true
  starts : ∀ e ∈ q.entries.head?, e.2.kind = .snapshotStart
  unended : ∀ e ∈ q.entries, e.2.kind ≠ .snapshotEnd

theorem opening_empty : Opening {} :=
  ⟨rfl, (fun _ he => by cases he), (fun _ he => by cases he)⟩

end SeqQueue

namespace Consumer

variable {c c' : Consumer} {feed : FeedKind} {m : Stamped}

/-- What a consumer may keep queued between records: nothing in sync, and while recovering the
opening of one snapshot cycle. -/
structure Buffered (c : Consumer) : Prop where
  inSync : c.state = .normal → c.snapshots.entries = [] ∧ c.incrementals.entries = []
  opening : c.snapshots.Opening

/-! ## What one call leaves queued -/

theorem enqueue_snapshot (hz : c.snapshots.isFromZero = true) :
    ∃ es, (c.enqueue .snapshot m).snapshots.entries = es ++ [m.entry] ∧
      ∀ e ∈ es, e ∈ c.snapshots.entries := by
  cases hc : c.snapshots.contains m.seq with
  | true =>
    refine ⟨[], ?_, fun _ he => by cases he⟩
    simp [enqueue, hc, SeqQueue.insert, SeqQueue.put, Stamped.entry]
  | false =>
    refine ⟨c.snapshots.entries, ?_, fun _ he => he⟩
    rw [enqueue_next (SeqQueue.lt_of_not_contains hz hc)]
    rfl

theorem snapshots_resync (h : c.resync = .ok c') :
    c'.snapshots.entries = [] ∨
      c' = c ∧ (∀ e ∈ c.snapshots.entries.head?, e.2.kind = .snapshotStart) ∧
        ∀ e ∈ c.snapshots.entries.getLast?, e.2.kind ≠ .snapshotEnd := by
  unfold resync at h
  split at h
  · rename_i hentries
    cases h
    exact .inl hentries
  rename_i k₀ first rest hentries
  have hstarts : ∀ e ∈ c.snapshots.entries.head?, first.kind = .snapshotStart →
      e.2.kind = .snapshotStart := by
    intro e he hk
    rw [hentries, List.head?_cons, Option.mem_some_iff] at he
    rw [← he]
    exact hk
  split at h
  · cases h; exact .inl rfl
  rename_i hstart
  split at h
  · cases h; exact .inl rfl
  split at h
  · rename_i hlast
    cases h
    exact .inr ⟨rfl, fun e he => hstarts e he (not_not.1 hstart), by simp [hlast]⟩
  rename_i kₑ last hlast
  split at h
  · -- the cycle queued has no end yet, and is kept
    rename_i hend
    cases h
    refine .inr ⟨rfl, fun e he => hstarts e he (not_not.1 hstart), fun e he => ?_⟩
    rw [hlast, Option.mem_some_iff] at he
    rw [← he]
    exact hend
  dsimp only at h
  split at h
  · cases h; exact .inl rfl
  split at h
  · cases h; exact .inl rfl
  simp only [bind, Except.bind, pure, Except.pure] at h
  split at h
  · cases h
  · cases h; exact .inl rfl

theorem inSync_resync (hrec : c.state = .recovering) (h : c.resync = .ok c') :
    c'.state = .normal → c'.snapshots.entries = [] ∧ c'.incrementals.entries = [] := by
  intro hs
  rcases resync_cases h with ⟨rfl, -⟩ | rfl |
    ⟨_, _, _, _, _, _, _, -, -, -, -, -, -, -, -, -, rfl⟩
  · exact absurd (hrec.symm.trans hs) (by decide)
  · exact absurd (hrec.symm.trans hs) (by decide)
  · exact ⟨rfl, rfl⟩

/-- **Queuing a record and checking the queues keeps an open cycle.** The queue kept ends with
no END, and the record just queued is its last one or was not queued on the snapshot feed. -/
theorem opening_resync (ho : c.snapshots.Opening) (h : (c.enqueue feed m).resync = .ok c') :
    c'.snapshots.Opening := by
  have hz' : c'.snapshots.isFromZero = true := by
    rcases resync_cases h with ⟨rfl, hz⟩ | rfl |
      ⟨_, _, _, _, _, _, _, -, -, -, -, -, -, -, -, -, rfl⟩
    · exact hz
    · rfl
    · rfl
  rcases snapshots_resync h with hnil | ⟨rfl, hstart, hopen⟩
  · exact ⟨hz', by simp [hnil], by simp [hnil]⟩
  refine ⟨hz', hstart, fun e he => ?_⟩
  cases feed with
  | incremental => exact ho.unended e he
  | snapshot =>
    obtain ⟨es, hes, hold⟩ := enqueue_snapshot (m := m) ho.fromZero
    rw [hes, List.mem_append, List.mem_singleton] at he
    rcases he with he | rfl
    · exact ho.unended e (hold e he)
    · -- the record just queued is the last one, and the check found it no END
      exact hopen _ (by rw [hes, List.getLast?_concat]; rfl)

/-- **One call keeps what a consumer may queue.** -/
theorem Buffered.onMessage (hb : c.Buffered) (h : c.onMessage feed m = .ok c') : c'.Buffered := by
  rcases onMessage_cases h with ⟨-, -, rfl⟩ | ⟨hs, -, -, -, o, -, rfl⟩ | ⟨-, -, -, rfl⟩ |
    ⟨-, -, -, rfl⟩ | ⟨hrec, hr⟩
  · exact hb
  · -- passing on the expected incremental leaves both queues alone
    exact ⟨fun _ => hb.inSync hs, hb.opening⟩
  · exact hb
  · -- a gap starts recovery with the snapshot queue empty
    exact ⟨(fun hs => by cases hs), SeqQueue.opening_empty⟩
  · exact ⟨inSync_resync (enqueue_state.trans hrec) hr, opening_resync hb.opening hr⟩

theorem buffered_create {n : Nat} (h : Consumer.create n = .ok c) : c.Buffered := by
  obtain ⟨r, -, rfl⟩ := create_eq h
  exact ⟨fun _ => ⟨rfl, rfl⟩, SeqQueue.opening_empty⟩

theorem Received.buffered {c₀ : Consumer} {log : List (FeedKind × Stamped)} (h₀ : c₀.Buffered)
    (h : Received c₀ c log) : c.Buffered := by
  induction h with
  | start => exact h₀
  | step _ hm ih => exact ih.onMessage hm

/-- **Recovery ends only on the END of a cycle.** A recovering consumer that keeps at most an open
cycle queued is back in sync after a call only if the call brought a record of the snapshot feed,
and that record is an END: an incremental leaves the snapshot queue without an END, and any other
snapshot record leaves it without an END at its end. -/
theorem Buffered.synced_on_end (hb : c.Buffered) (hrec : c.state = .recovering)
    (h : c.onMessage feed m = .ok c') (hs : c'.state = .normal) :
    feed = .snapshot ∧ m.update.kind = .snapshotEnd := by
  rw [onMessage_of_recovering hrec] at h
  rcases resync_cases h with ⟨rfl, -⟩ | rfl |
    ⟨_, kₑ, _, last, _, _, _, -, hlast, -, -, hend, -, -, -, -, -⟩
  · exact absurd (hs.symm.trans (enqueue_state.trans hrec)) (by decide)
  · exact absurd (hs.symm.trans (enqueue_state.trans hrec)) (by decide)
  cases feed with
  | incremental =>
    exact absurd hend (hb.opening.unended _ (List.mem_of_getLast? hlast))
  | snapshot =>
    obtain ⟨es, hes, -⟩ := enqueue_snapshot (m := m) hb.opening.fromZero
    rw [hes, List.getLast?_concat, Option.some.injEq] at hlast
    rw [show last = m.update from (congrArg Prod.snd hlast).symm] at hend
    exact ⟨rfl, hend⟩

/-- **What a consumer keeps queued.** In every consumer that handling records leads to from a new
one: in sync, both queues are empty; recovering, the snapshot queue is empty or numbered exactly
`0, 1, …, k - 1`, with a START first and no END last. No queued snapshot record is an END, so no
complete cycle is ever left queued; and a call ends recovery only if it brings an END on the
snapshot feed. -/
theorem queues_hold_open_cycle {n : Nat} {c₀ : Consumer} {log : List (FeedKind × Stamped)}
    (h₀ : Consumer.create n = .ok c₀) (h : Received c₀ c log) :
    (c.state = .normal → c.snapshots.entries = [] ∧ c.incrementals.entries = []) ∧
    (c.state = .recovering → c.snapshots.entries = [] ∨
      c.snapshots.entries.map (·.1) = (List.range c.snapshots.entries.length).map Nat.toUInt64 ∧
        (∃ e ∈ c.snapshots.entries.head?, e.2.kind = .snapshotStart) ∧
        ∀ e ∈ c.snapshots.entries.getLast?, e.2.kind ≠ .snapshotEnd) ∧
    (∀ e ∈ c.snapshots.entries, e.2.kind ≠ .snapshotEnd) ∧
    ∀ {feed : FeedKind} {m : Stamped} {c' : Consumer}, c.state = .recovering →
      c.onMessage feed m = .ok c' → c'.state = .normal →
        feed = .snapshot ∧ m.update.kind = .snapshotEnd := by
  have hb := h.buffered (buffered_create h₀)
  refine ⟨hb.inSync, fun _ => ?_, hb.opening.unended, fun hrec hm hs => hb.synced_on_end hrec hm hs⟩
  by_cases hnil : c.snapshots.entries = []
  · exact .inl hnil
  have hhead := List.head?_eq_some_head hnil
  refine .inr ⟨SeqQueue.keys_of_isFromZero hb.opening.fromZero,
    ⟨_, hhead, hb.opening.starts _ hhead⟩,
    fun e he => hb.opening.unended e (List.mem_of_getLast? (Option.mem_def.1 he))⟩

/-- A consumer that got incremental 2, a gap, then the START of a cycle: it is recovering with the
START alone queued. -/
theorem queues_hold_open_cycle_after_gap :
    let gap : Stamped := ⟨2, ⟨.add, 2, 0, .buy, 101, 5, 1⟩⟩
    let start : Stamped := ⟨0, SnapshotBook.marker .snapshotStart 1 noTicker⟩
    ∃ (c₀ c₁ c : Consumer) (log : List (FeedKind × Stamped)),
      (Consumer.create 4 = .ok c₀ ∧ c₀.onMessage .incremental gap = .ok c₁ ∧
        c₁.onMessage .snapshot start = .ok c ∧ Received c₀ c log ∧ c.state = .recovering ∧
        c.snapshots.entries = [(0, start.update)]) ∧
      (c.state = .normal → c.snapshots.entries = [] ∧ c.incrementals.entries = []) ∧
      (c.state = .recovering → c.snapshots.entries = [] ∨
        c.snapshots.entries.map (·.1) = (List.range c.snapshots.entries.length).map Nat.toUInt64 ∧
          (∃ e ∈ c.snapshots.entries.head?, e.2.kind = .snapshotStart) ∧
          ∀ e ∈ c.snapshots.entries.getLast?, e.2.kind ≠ .snapshotEnd) ∧
      (∀ e ∈ c.snapshots.entries, e.2.kind ≠ .snapshotEnd) ∧
      ∀ {feed : FeedKind} {m : Stamped} {c' : Consumer}, c.state = .recovering →
        c.onMessage feed m = .ok c' → c'.state = .normal →
          feed = .snapshot ∧ m.update.kind = .snapshotEnd := by
  intro gap start
  have hc₁ := Received.step Received.start
    (show Consumer.onMessage ⟨1, .normal, {}, {}, ⟨Array.replicate 4 default, 0, 0, 0⟩⟩
      .incremental gap = _ from rfl)
  have hc := Received.step hc₁ (show Consumer.onMessage _ .snapshot start = _ from rfl)
  exact ⟨_, _, _, _, ⟨rfl, rfl, rfl, hc, rfl, rfl⟩, @queues_hold_open_cycle _ 4 _ _ rfl hc⟩

end Consumer

end Exchange
