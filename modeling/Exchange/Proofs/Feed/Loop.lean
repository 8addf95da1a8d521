import Exchange.Proofs.Feed.Ingest

/-!
# What the receive loop hands the consumer

The loop talks to its two sockets and hands the consumer records. To see what it does, run it on
a socket pair that writes down each call made on it with the socket's answer (`Watched`): the
answers pass through unchanged, so the run is the run on the bare pair (`Consumer.run_forget`).

From the calls alone the loop's buffers can be played back (`LoopState.hear`): a receive of bytes
on a feed hands on the records its buffer makes of them and keeps the partial record after them; a
join of the snapshot stream subscribes; a leave unsubscribes and forgets the snapshot stream's
partial record. Main statement, `Consumer.loop_hears`: a run of the loop hands the consumer
exactly the records played back from its calls, in order, and ends with the consumer they lead
to, or the fault they lead to. The records of the incremental feed are then the records of all
the bytes received on it, however the receives cut them (`LoopState.incremental_hearAll`).
-/

namespace Exchange

/-- A socket call of the receive loop, with the socket's answer. -/
inductive LinkCall where
  | recv (feed : FeedKind) (answer : Option (List UInt8))
  | join (feed : FeedKind) (ok : Bool)
  | leave (feed : FeedKind) (ok : Bool)
  deriving DecidableEq, Repr

/-- A socket pair that writes down each call made on it, oldest first. -/
structure Watched (σ : Type) where
  net : σ
  calls : List LinkCall

namespace Watched

variable {σ : Type} [FeedLink σ]

instance : FeedLink (Watched σ) where
  recv w feed room :=
    let r := FeedLink.recv w.net feed room
    (⟨r.1, w.calls ++ [.recv feed r.2]⟩, r.2)
  join w feed :=
    let r := FeedLink.join w.net feed
    (⟨r.1, w.calls ++ [.join feed r.2]⟩, r.2)
  leave w feed :=
    let r := FeedLink.leave w.net feed
    (⟨r.1, w.calls ++ [.leave feed r.2]⟩, r.2)
  running w := FeedLink.running w.net

variable (w : Watched σ) (feed : FeedKind)

theorem recv_eq (room : Nat) : FeedLink.recv w feed room =
    (⟨(FeedLink.recv w.net feed room).1, w.calls ++ [.recv feed (FeedLink.recv w.net feed room).2]⟩,
      (FeedLink.recv w.net feed room).2) := rfl

theorem join_eq : FeedLink.join w feed =
    (⟨(FeedLink.join w.net feed).1, w.calls ++ [.join feed (FeedLink.join w.net feed).2]⟩,
      (FeedLink.join w.net feed).2) := rfl

theorem leave_eq : FeedLink.leave w feed =
    (⟨(FeedLink.leave w.net feed).1, w.calls ++ [.leave feed (FeedLink.leave w.net feed).2]⟩,
      (FeedLink.leave w.net feed).2) := rfl

theorem running_eq : FeedLink.running w = FeedLink.running w.net := rfl

end Watched

/-! ## Playing the buffers back -/

namespace LoopState

/-- The partial record a feed's buffer holds. -/
def buffer (st : LoopState) : FeedKind → List UInt8
  | .incremental => st.incremental
  | .snapshot => st.snapshot

/-- The state with a feed's buffer replaced. -/
def withBuffer (st : LoopState) : FeedKind → List UInt8 → LoopState
  | .incremental, buf => { st with incremental := buf }
  | .snapshot, buf => { st with snapshot := buf }

@[simp] theorem withBuffer_buffer (st : LoopState) (feed : FeedKind) :
    st.withBuffer feed (st.buffer feed) = st := by
  cases feed <;> rfl

/-- What the loop hands the consumer for one socket call, and its state after: a receive of bytes
hands on the records its feed's buffer makes of them; joining the snapshot stream subscribes;
leaving it unsubscribes and forgets its partial record. Nothing else changes anything. -/
def hear (st : LoopState) : LinkCall → List (FeedKind × Stamped) × LoopState
  | .recv feed (some bytes) =>
    ((ingest (st.buffer feed) bytes).1.map (feed, ·),
      st.withBuffer feed (ingest (st.buffer feed) bytes).2)
  | .join .snapshot true => ([], { st with subscribed := true })
  | .leave .snapshot true => ([], { st with subscribed := false, snapshot := [] })
  | _ => ([], st)

/-- What the loop hands the consumer for calls made one after another. -/
def hearAll (st : LoopState) : List LinkCall → List (FeedKind × Stamped) × LoopState
  | [] => ([], st)
  | call :: calls => ((st.hear call).1 ++ ((st.hear call).2.hearAll calls).1,
      ((st.hear call).2.hearAll calls).2)

theorem hearAll_append (st : LoopState) (cs cs' : List LinkCall) :
    st.hearAll (cs ++ cs') = ((st.hearAll cs).1 ++ ((st.hearAll cs).2.hearAll cs').1,
      ((st.hearAll cs).2.hearAll cs').2) := by
  induction cs generalizing st with
  | nil => rfl
  | cons call cs ih => simp [hearAll, ih]

@[simp] theorem hearAll_singleton (st : LoopState) (call : LinkCall) :
    st.hearAll [call] = st.hear call := by
  simp [hearAll]

@[simp] theorem subscribed_hear_recv (st : LoopState) (feed : FeedKind) (a : Option (List UInt8)) :
    (st.hear (.recv feed a)).2.subscribed = st.subscribed := by
  rcases a with _ | bytes
  · rfl
  · cases feed <;> rfl

theorem hearAll_recv_join (st : LoopState) (a : Option (List UInt8)) :
    st.hearAll (.recv .incremental a :: if st.subscribed then [] else [.join .snapshot true]) =
      ((st.hear (.recv .incremental a)).1, { (st.hear (.recv .incremental a)).2 with subscribed := true }) := by
  have hsub := subscribed_hear_recv st .incremental a
  rw [hearAll]
  generalize st.hear (.recv .incremental a) = r at hsub ⊢
  obtain ⟨rs, ⟨inc, snap, sub⟩⟩ := r
  cases hs : st.subscribed <;> simp_all [hearAll, hear]

@[simp] theorem hear_leave_records (st : LoopState) (feed : FeedKind) (ok : Bool) :
    (st.hear (.leave feed ok)).1 = [] := by
  cases feed <;> cases ok <;> rfl

end LoopState

/-- The bytes a call received on a feed. -/
def LinkCall.received (feed : FeedKind) : LinkCall → List UInt8
  | .recv feed' (some bytes) => if feed' = feed then bytes else []
  | _ => []

/-- The records of one feed among records of both, in order. -/
def recordsOn (feed : FeedKind) (rs : List (FeedKind × Stamped)) : List Stamped :=
  rs.filterMap fun r => if r.1 = feed then some r.2 else none

theorem recordsOn_append (feed : FeedKind) (rs rs' : List (FeedKind × Stamped)) :
    recordsOn feed (rs ++ rs') = recordsOn feed rs ++ recordsOn feed rs' :=
  List.filterMap_append

namespace LoopState

theorem incremental_hear (st : LoopState) (call : LinkCall) :
    (recordsOn .incremental (st.hear call).1, (st.hear call).2.incremental) =
      ingest st.incremental (call.received .incremental) := by
  rcases call with ⟨_ | _, _ | bytes⟩ | ⟨_ | _, _ | _⟩ | ⟨_ | _, _ | _⟩ <;>
    simp only [hear, recordsOn, LinkCall.received, ingest, buffer, withBuffer, List.filterMap_map,
      Function.comp_def, reduceCtorEq, if_true, if_false, List.isEmpty_nil, List.filterMap_nil,
      List.filterMap_some]
  split <;> simp

/-- **The incremental feed as a stream.** Whatever else the calls do, the incremental records they
hand on and the partial record left are those of a buffer taking in, one after another, the
chunks received on the incremental feed. -/
theorem incremental_hearAll (st : LoopState) (cs : List LinkCall) :
    (recordsOn .incremental (st.hearAll cs).1, (st.hearAll cs).2.incremental) =
      ingestAll st.incremental (cs.map (LinkCall.received .incremental)) := by
  -- induction on the calls, one `incremental_hear` per call
  induction cs generalizing st with
  | nil => rfl
  | cons call cs ih =>
    rw [List.map_cons, ingestAll, ← incremental_hear]
    dsimp only
    rw [← ih]
    simp [hearAll, recordsOn_append]

end LoopState

/-! ## One turn -/

namespace Consumer

/-- Handles records of both feeds in order, stopping at the first fault. -/
def handleAll (c : Consumer) (rs : List (FeedKind × Stamped)) : Except Fault Consumer :=
  rs.foldlM (fun c r => c.onMessage r.1 r.2) c

@[simp] theorem handleAll_nil (c : Consumer) : c.handleAll [] = .ok c := rfl

theorem handleAll_append (c : Consumer) (rs rs' : List (FeedKind × Stamped)) :
    c.handleAll (rs ++ rs') = (c.handleAll rs >>= fun c => c.handleAll rs') := by
  simp [handleAll, List.foldlM_append]

theorem handleAll_append_of_ok {c c' : Consumer} {rs : List (FeedKind × Stamped)}
    (h : c.handleAll rs = .ok c') (rs' : List (FeedKind × Stamped)) :
    c.handleAll (rs ++ rs') = c'.handleAll rs' := by
  rw [handleAll_append, h]
  rfl

theorem handleAll_map (c : Consumer) (feed : FeedKind) (ms : List Stamped) :
    c.handleAll (ms.map (feed, ·)) = c.handleFeed feed ms := by
  simp [handleAll, handleFeed, List.foldlM_map]

/-- What a stretch of the loop leaves, as handling records sees it: the consumer, or the fault
that stopped the loop. A failed socket call stops the loop with the consumer as it is. -/
def outcome (c : Consumer) : Option Halt → Except Fault Consumer
  | some (.fault f) => .error f
  | _ => .ok c

variable {σ : Type} [FeedLink σ]

/-- **One drain.** It makes one receive on its feed and hands the consumer what the loop hears from
it; if the loop goes on, the buffer is the one played back. The drain stops on the socket exactly
when the receive failed. -/
theorem drainFeed_hears (c : Consumer) (w : Watched σ) (feed : FeedKind) (st : LoopState) :
    ∃ answer, (c.drainFeed w feed (st.buffer feed)).2.1.calls = w.calls ++ [.recv feed answer] ∧
      c.handleAll (st.hear (.recv feed answer)).1 =
        outcome (c.drainFeed w feed (st.buffer feed)).1 (c.drainFeed w feed (st.buffer feed)).2.2.2 ∧
      ((c.drainFeed w feed (st.buffer feed)).2.2.2 = none →
        (st.hear (.recv feed answer)).2 = st.withBuffer feed (c.drainFeed w feed (st.buffer feed)).2.2.1) ∧
      (answer = none ↔ (c.drainFeed w feed (st.buffer feed)).2.2.2 = some .io) := by
  rw [drainFeed_eq, Watched.recv_eq]
  rcases FeedLink.recv w.net feed (feedBufferSize - (st.buffer feed).length) with ⟨net', _ | bytes⟩
  · exact ⟨none, rfl, rfl, fun h => (by cases h), ⟨fun _ => rfl, fun _ => rfl⟩⟩
  refine ⟨some bytes, ?_⟩
  dsimp only
  split
  · -- nothing received: nothing is handed on and the buffer stays
    rename_i hb
    simp [LoopState.hear, ingest, hb, outcome]
  · simp only [LoopState.hear, handleAll_map]
    cases hc : c.handleFeed feed (ingest (st.buffer feed) bytes).1 with
    | ok c' => exact ⟨rfl, rfl, fun _ => rfl, by simp⟩
    | error f => exact ⟨rfl, rfl, fun h => (by cases h), by simp⟩

/-- What one turn of the loop can do from consumer `c` and state `st`: the calls it makes, and the
consumer, state and stop it ends with. The turn receives once on the incremental feed, leading to
`c₁`; if `c₁` is recovering and the snapshot stream is not joined, it joins it; if the stream is
joined, it receives once on it, leading to `c₂`; and if `c₂` is back in sync, it leaves it. -/
inductive LoopTurn (c : Consumer) (st : LoopState) :
    List LinkCall → Consumer → LoopState → Option Halt → Prop
  /-- The incremental receive failed, or its records met a fault. Here and below, a turn stops on
the socket only where a call failed, and goes on only past receives that answered. -/
  | incrementalStop {a : Option (List UInt8)} {c' : Consumer} {h : Halt} :
      c.handleAll (st.hear (.recv .incremental a)).1 = c'.outcome (some h) → (h = .io → a = none) →
      LoopTurn c st [.recv .incremental a] c' st (some h)
  /-- In sync and not joined: the snapshot stream is left alone. -/
  | quiet {a : Option (List UInt8)} {c₁ : Consumer} :
      c.handleAll (st.hear (.recv .incremental a)).1 = .ok c₁ → c₁.isRecovering = false →
      st.subscribed = false → a.isSome = true →
      LoopTurn c st [.recv .incremental a] c₁ (st.hear (.recv .incremental a)).2 none
  /-- Recovering and not joined, and joining fails. -/
  | joinFails {a : Option (List UInt8)} {c₁ : Consumer} :
      c.handleAll (st.hear (.recv .incremental a)).1 = .ok c₁ → c₁.isRecovering = true →
      st.subscribed = false → a.isSome = true →
      LoopTurn c st [.recv .incremental a, .join .snapshot false] c₁ (st.hear (.recv .incremental a)).2
        (some .io)
  /-- Joined, having joined now if needed, the snapshot receive fails or its records meet a
  fault. -/
  | snapshotStop {a a' : Option (List UInt8)} {c₁ c₂ : Consumer} {h : Halt} :
      c.handleAll (st.hear (.recv .incremental a)).1 = .ok c₁ →
      (st.subscribed || c₁.isRecovering) = true →
      c₁.handleAll ({ (st.hear (.recv .incremental a)).2 with subscribed := true }.hear
        (.recv .snapshot a')).1 = c₂.outcome (some h) → a.isSome = true → (h = .io → a' = none) →
      LoopTurn c st (.recv .incremental a :: (if st.subscribed then [] else [.join .snapshot true]) ++
        [.recv .snapshot a']) c₂ { (st.hear (.recv .incremental a)).2 with subscribed := true } (some h)
  /-- Joined, the snapshot records leave the consumer recovering. -/
  | stays {a a' : Option (List UInt8)} {c₁ c₂ : Consumer} :
      c.handleAll (st.hear (.recv .incremental a)).1 = .ok c₁ →
      (st.subscribed || c₁.isRecovering) = true →
      c₁.handleAll ({ (st.hear (.recv .incremental a)).2 with subscribed := true }.hear
        (.recv .snapshot a')).1 = .ok c₂ →
      c₂.isRecovering = true → a.isSome = true → a'.isSome = true →
      LoopTurn c st (.recv .incremental a :: (if st.subscribed then [] else [.join .snapshot true]) ++
        [.recv .snapshot a']) c₂
        ({ (st.hear (.recv .incremental a)).2 with subscribed := true }.hear (.recv .snapshot a')).2 none
  /-- Joined, the snapshot records bring the consumer back in sync, and the turn leaves the
  snapshot stream, successfully (`ok`) or not. -/
  | leaves {a a' : Option (List UInt8)} {c₁ c₂ : Consumer} {ok : Bool} :
      c.handleAll (st.hear (.recv .incremental a)).1 = .ok c₁ →
      (st.subscribed || c₁.isRecovering) = true →
      c₁.handleAll ({ (st.hear (.recv .incremental a)).2 with subscribed := true }.hear
        (.recv .snapshot a')).1 = .ok c₂ →
      c₂.isRecovering = false → a.isSome = true → a'.isSome = true →
      LoopTurn c st (.recv .incremental a :: (if st.subscribed then [] else [.join .snapshot true]) ++
        [.recv .snapshot a', .leave .snapshot ok]) c₂
        (({ (st.hear (.recv .incremental a)).2 with subscribed := true }.hear
          (.recv .snapshot a')).2.hear (.leave .snapshot ok)).2
        (if ok then none else some .io)

/-- **What a turn does.** Every turn of the loop is one of the cases of `LoopTurn`, and the calls
it makes are written down in order. -/
theorem loopTurn_turn (c : Consumer) (w : Watched σ) (st : LoopState) :
    ∃ cs, (c.turn w st).2.1.calls = w.calls ++ cs ∧
      LoopTurn c st cs (c.turn w st).1 (c.turn w st).2.2.1 (c.turn w st).2.2.2 := by
  obtain ⟨a₁, hcalls₁, hout₁, hst₁, hio₁⟩ := drainFeed_hears c w .incremental st
  simp only [LoopState.buffer] at hcalls₁ hout₁ hst₁ hio₁
  unfold Consumer.turn
  rcases hd₁ : c.drainFeed w .incremental st.incremental with ⟨c₁, w₁, inc, _ | h₁⟩
  rotate_left
  · -- the incremental drain stopped the loop
    rw [hd₁] at hcalls₁ hout₁ hio₁
    exact ⟨_, hcalls₁, .incrementalStop (by simpa using hout₁) fun h => hio₁.2 (by rw [h])⟩
  rw [hd₁] at hcalls₁ hout₁ hst₁ hio₁
  dsimp only at hcalls₁
  have ha₁ : a₁.isSome = true := Option.isSome_iff_ne_none.2 fun h => by simpa using hio₁.1 h
  have hst₁ : (st.hear (.recv .incremental a₁)).2 = { st with incremental := inc } := hst₁ rfl
  have hc₁ : c.handleAll (st.hear (.recv .incremental a₁)).1 = .ok c₁ := hout₁
  dsimp only
  generalize hjoin : (if (c₁.isRecovering && !st.subscribed) = true then
    FeedLink.join w₁ FeedKind.snapshot else (w₁, true)) = joined
  obtain ⟨w₂, ok⟩ := joined
  have hw₂ : w₂.calls = w₁.calls ++
      (if (c₁.isRecovering && !st.subscribed) = true then [.join .snapshot ok] else []) ∧
      ((c₁.isRecovering && !st.subscribed) = false → ok = true) := by
    split at hjoin
    · rw [Watched.join_eq] at hjoin
      cases hjoin
      simp_all
    · cases hjoin
      simp_all
  cases ok with
  | false =>
    -- only a join can fail here: the consumer is recovering and the stream not joined
    have hj : (c₁.isRecovering && !st.subscribed) = true := by
      cases h : (c₁.isRecovering && !st.subscribed) <;> simp_all
    simp only [Bool.and_eq_true, Bool.not_eq_true'] at hj
    dsimp only
    refine ⟨[.recv .incremental a₁, .join .snapshot false], ?_, ?_⟩
    · simp [hw₂.1, hcalls₁, hj]
    · rw [← hst₁]
      exact .joinFails hc₁ hj.1 hj.2 ha₁
  | true =>
    dsimp only
    by_cases hs : (st.subscribed || c₁.isRecovering) = true
    · -- the snapshot stream is joined: receive on it
      have hJ : (if (c₁.isRecovering && !st.subscribed) = true then [LinkCall.join .snapshot true] else []) =
          (if st.subscribed then [] else [.join .snapshot true]) := by
        cases hsub : st.subscribed <;> simp_all
      rw [hJ] at hw₂
      obtain ⟨a₂, hcalls₂, hout₂, hst₂, hio₂⟩ :=
        drainFeed_hears c₁ w₂ .snapshot { (st.hear (.recv .incremental a₁)).2 with subscribed := true }
      have hbuf : ({ (st.hear (.recv .incremental a₁)).2 with subscribed := true } : LoopState).buffer
          .snapshot = st.snapshot := by
        simp [LoopState.buffer, hst₁]
      rw [hbuf] at hcalls₂ hout₂ hst₂ hio₂
      rw [if_pos hs]
      simp only [hs]
      rcases hd₂ : c₁.drainFeed w₂ .snapshot st.snapshot with ⟨c₂, w₃, snap, _ | h₂⟩
      rotate_left
      · -- the snapshot receive stopped the loop
        rw [hd₂] at hcalls₂ hout₂ hio₂
        have key := LoopTurn.snapshotStop hc₁ hs hout₂ ha₁ fun h => hio₂.2 (by rw [h])
        rw [hst₁] at key
        dsimp only at hcalls₂ ⊢
        exact ⟨_, by simp [hcalls₂, hw₂.1, hcalls₁], key⟩
      rw [hd₂] at hcalls₂ hout₂ hst₂ hio₂
      dsimp only at hcalls₂
      have ha₂ : a₂.isSome = true := Option.isSome_iff_ne_none.2 fun h => by simpa using hio₂.1 h
      have hst₃ := hst₂ rfl
      have hc₂ : c₁.handleAll _ = .ok c₂ := hout₂
      dsimp only
      cases hr : c₂.isRecovering with
      | true =>
        have key := LoopTurn.stays hc₁ hs hc₂ hr ha₁ ha₂
        rw [hst₃, hst₁] at key
        exact ⟨_, by simp [hcalls₂, hw₂.1, hcalls₁], key⟩
      | false =>
        simp only [Bool.not_false, Bool.and_true, if_true, Watched.leave_eq]
        rcases FeedLink.leave w₃.net .snapshot with ⟨net, ok⟩
        have key := @LoopTurn.leaves c st _ _ _ _ ok hc₁ hs hc₂ hr ha₁ ha₂
        rw [hst₃, hst₁] at key
        cases ok <;> exact ⟨_, by simp [hcalls₂, hw₂.1, hcalls₁], key⟩
    · -- in sync and not joined: the turn ends after the incremental receive
      simp only [Bool.or_eq_true, not_or, Bool.not_eq_true] at hs
      have key := LoopTurn.quiet hc₁ hs.2 hs.1 ha₁
      rw [hst₁, hs.1] at key
      simp only [hs.1, hs.2, Bool.or_false, Bool.false_eq_true, if_false, Bool.not_false,
        Bool.and_false]
      exact ⟨_, by simp [hw₂.1, hcalls₁, hs.2], key⟩

/-- **A turn as heard.** The records played back from a turn's calls lead the consumer where the turn
leads it, or to the fault that stopped it; a turn that goes on ends in the state played back. -/
theorem LoopTurn.hears {c c' : Consumer} {st st' : LoopState} {cs : List LinkCall} {h : Option Halt}
    (ht : LoopTurn c st cs c' st' h) :
    c.handleAll (st.hearAll cs).1 = c'.outcome h ∧ (h = none → (st.hearAll cs).2 = st') := by
  cases ht with
  | incrementalStop hc => exact ⟨by simpa using hc, fun h => by cases h⟩
  | quiet hc => exact ⟨by simpa [outcome] using hc, fun _ => by simp⟩
  | joinFails hc _ hsub =>
    refine ⟨?_, fun h => by cases h⟩
    simpa [LoopState.hearAll, LoopState.hear, outcome] using hc
  | snapshotStop hc _ hc' =>
    refine ⟨?_, fun h => by cases h⟩
    rw [LoopState.hearAll_append, LoopState.hearAll_recv_join, handleAll_append_of_ok hc]
    simpa using hc'
  | stays hc _ hc' =>
    rw [LoopState.hearAll_append, LoopState.hearAll_recv_join, handleAll_append_of_ok hc]
    exact ⟨by simpa [outcome] using hc', fun _ => by simp⟩
  | @leaves _ _ _ _ ok hc _ hc' =>
    rw [LoopState.hearAll_append, LoopState.hearAll_recv_join, handleAll_append_of_ok hc]
    simp only [LoopState.hearAll, List.append_nil, LoopState.hear_leave_records]
    refine ⟨?_, fun _ => trivial⟩
    cases ok <;> simpa [outcome] using hc'

/-- **What the loop hands the consumer.** A run of the loop hands the consumer exactly the records
played back from the calls it makes, in order, and ends with the consumer they lead to, or the fault
they lead to. -/
theorem loop_hears (c : Consumer) (w : Watched σ) (st : LoopState) (fuel : Nat) :
    ∃ cs, (c.loop w st fuel).2.1.calls = w.calls ++ cs ∧
      c.handleAll (st.hearAll cs).1 = outcome (c.loop w st fuel).1 (c.loop w st fuel).2.2 := by
  -- induction on the turns left; each turn is one case of `LoopTurn`
  induction fuel generalizing c w st with
  | zero => exact ⟨[], by simp [loop], by simp [loop, outcome, LoopState.hearAll]⟩
  | succ fuel ih =>
    unfold loop
    split
    · exact ⟨[], by simp, by simp [outcome, LoopState.hearAll]⟩
    obtain ⟨cs, hcalls, hturn⟩ := loopTurn_turn c w st
    obtain ⟨hout, hst⟩ := hturn.hears
    rcases ht : c.turn w st with ⟨c', w', st', _ | h⟩
    · rw [ht] at hcalls hout hst
      dsimp only at hcalls hout hst
      obtain ⟨cs', hcalls', hout'⟩ := ih c' w' st'
      refine ⟨cs ++ cs', by simp [hcalls', hcalls], ?_⟩
      rw [LoopState.hearAll_append, handleAll_append, hout, hst rfl]
      exact hout'
    · rw [ht] at hcalls hout
      exact ⟨cs, hcalls, hout⟩

/-! ## The watched run is the run -/

theorem drainFeed_forget (c : Consumer) (w : Watched σ) (feed : FeedKind) (buf : List UInt8) :
    c.drainFeed w.net feed buf =
      ((c.drainFeed w feed buf).1, (c.drainFeed w feed buf).2.1.net, (c.drainFeed w feed buf).2.2) := by
  rw [drainFeed_eq, drainFeed_eq, Watched.recv_eq]
  rcases FeedLink.recv w.net feed (feedBufferSize - buf.length) with ⟨net', _ | bytes⟩
  · rfl
  · dsimp only
    split
    · rfl
    · cases c.handleFeed feed (ingest buf bytes).1 <;> rfl

theorem turn_forget (c : Consumer) (w : Watched σ) (st : LoopState) :
    c.turn w.net st = ((c.turn w st).1, (c.turn w st).2.1.net, (c.turn w st).2.2) := by
  unfold Consumer.turn
  rw [drainFeed_forget]
  rcases c.drainFeed w .incremental st.incremental with ⟨c₁, w₁, inc, _ | h⟩
  rotate_left
  · rfl
  dsimp only
  generalize (c₁.isRecovering && !st.subscribed) = b
  generalize (st.subscribed || c₁.isRecovering) = sub
  have hjoin : (if b = true then FeedLink.join w₁.net .snapshot else (w₁.net, true)) =
      ((if b = true then FeedLink.join w₁ .snapshot else (w₁, true)).1.net,
        (if b = true then FeedLink.join w₁ .snapshot else (w₁, true)).2) := by
    split <;> rfl
  rw [hjoin]
  generalize (if b = true then FeedLink.join w₁ .snapshot else (w₁, true)) = joined
  rcases joined with ⟨w₂, _ | _⟩
  · rfl
  dsimp only
  have hdrain : (if sub = true then c₁.drainFeed w₂.net .snapshot st.snapshot
      else (c₁, w₂.net, st.snapshot, none)) =
      ((if sub = true then c₁.drainFeed w₂ .snapshot st.snapshot else (c₁, w₂, st.snapshot, none)).1,
        (if sub = true then c₁.drainFeed w₂ .snapshot st.snapshot else (c₁, w₂, st.snapshot, none)).2.1.net,
        (if sub = true then c₁.drainFeed w₂ .snapshot st.snapshot else (c₁, w₂, st.snapshot, none)).2.2) := by
    split
    · exact drainFeed_forget c₁ w₂ .snapshot st.snapshot
    · rfl
  rw [hdrain]
  generalize (if sub = true then c₁.drainFeed w₂ .snapshot st.snapshot else (c₁, w₂, st.snapshot, none)) = drained
  rcases drained with ⟨c₂, w₃, snap, _ | h⟩
  · dsimp only
    split
    · rw [Watched.leave_eq]
      rcases FeedLink.leave w₃.net .snapshot with ⟨net, _ | _⟩ <;> rfl
    · rfl
  · rfl

theorem loop_forget (c : Consumer) (w : Watched σ) (st : LoopState) (fuel : Nat) :
    c.loop w.net st fuel = ((c.loop w st fuel).1, (c.loop w st fuel).2.1.net, (c.loop w st fuel).2.2) := by
  induction fuel generalizing c w st with
  | zero => rfl
  | succ fuel ih =>
    unfold loop
    rw [← Watched.running_eq, turn_forget]
    split
    · rfl
    rcases c.turn w st with ⟨c', w', st', _ | h⟩
    · exact ih c' w' st'
    · rfl

/-- **The watched run is the run.** Run on a pair that writes its calls down, the consumer ends
as on the bare pair, with the same answers and the same stop. -/
theorem run_forget (c : Consumer) (w : Watched σ) (fuel : Nat) :
    c.run w.net fuel = ((c.run w fuel).1, (c.run w fuel).2.1.net, (c.run w fuel).2.2) := by
  unfold run
  rw [Watched.join_eq]
  rcases FeedLink.join w.net .incremental with ⟨net, _ | _⟩
  · rfl
  · exact loop_forget c ⟨net, w.calls ++ [.join .incremental true]⟩ {} fuel

/-- **What a run hands the consumer.** The run joins the incremental stream and then loops: it hands
the consumer exactly the records played back from its calls. -/
theorem run_hears (c : Consumer) (w : Watched σ) (fuel : Nat) :
    ∃ cs, (c.run w fuel).2.1.calls = w.calls ++ cs ∧
      c.handleAll (({} : LoopState).hearAll cs).1 = outcome (c.run w fuel).1 (c.run w fuel).2.2 := by
  unfold run
  rw [Watched.join_eq]
  rcases FeedLink.join w.net .incremental with ⟨net, _ | _⟩
  · exact ⟨[.join .incremental false], rfl, by simp [LoopState.hear, outcome]⟩
  · obtain ⟨cs, hcalls, hout⟩ := loop_hears c ⟨net, w.calls ++ [.join .incremental true]⟩ {} fuel
    refine ⟨.join .incremental true :: cs, by simp [hcalls], ?_⟩
    simpa [LoopState.hearAll, LoopState.hear] using hout

/-- **Chunking makes no difference.** Handling a buffer reports the bytes of its whole records and
handles exactly the records they decode to, in order. A run of the loop, on any socket pair, ends
as its watched copy does and hands the consumer exactly the records played back from the calls it
makes. Among those, the incremental records are the records of the whole incremental stream, however
the receives cut it, and the bytes left in the incremental buffer are the stream's trailing bytes
that make no whole record. -/
theorem feed_ingestion_ignores_chunking (c : Consumer) (net : σ) (fuel : Nat) :
    (∀ feed bs, c.onBytes feed bs = (c.handleFeed feed (stampedRecords bs)).map
      fun c' => (bs.length / Stamped.wireSize * Stamped.wireSize, c')) ∧
    let r := c.run (⟨net, []⟩ : Watched σ) fuel
    let heard := ({} : LoopState).hearAll r.2.1.calls
    let stream := (r.2.1.calls.map (LinkCall.received .incremental)).flatten
    c.run net fuel = (r.1, r.2.1.net, r.2.2) ∧
    c.handleAll heard.1 = outcome r.1 r.2.2 ∧
    recordsOn .incremental heard.1 = stampedRecords stream ∧
    heard.2.incremental = stream.drop (stream.length - stream.length % Stamped.wireSize) := by
  refine ⟨onBytes_eq c, ?_⟩
  intro r heard stream
  obtain ⟨cs, hcalls, hout⟩ := run_hears c ⟨net, []⟩ fuel
  rw [List.nil_append] at hcalls
  have hreplay := LoopState.incremental_hearAll {} r.2.1.calls
  rw [ingestAll_eq _ (by decide), List.nil_append] at hreplay
  refine ⟨run_forget c ⟨net, []⟩ fuel, ?_, congrArg Prod.fst hreplay, ?_⟩
  · change c.handleAll (({} : LoopState).hearAll r.2.1.calls).1 = _
    rw [hcalls]
    exact hout
  · rw [← leftover_eq]
    exact congrArg Prod.snd hreplay

end Consumer

end Exchange
