import Exchange.Proofs.Feed.Loop
import Exchange.Proofs.Feed.Recovery
import Exchange.Feed.Recorded

/-!
# The snapshot stream follows recovery

The loop joins the snapshot stream when the consumer starts recovering and leaves it when the
consumer is back in sync. Recovery starts only on an incremental record, a gap, and ends only on a
snapshot record, the end of a whole cycle: a recovering consumer waits for a cycle's end
(`Consumer.Waits`), so an incremental record cannot end its recovery, and a consumer in sync
ignores snapshot records.

Call by call (`Subscribes`): each join and each leave of the snapshot stream is exactly the one
owed, a join right after the incremental receive that leaves the consumer recovering with the
stream not joined, a leave right after the snapshot receive that leaves it back in sync; a join
finds the snapshot buffer empty, and the snapshot stream is read only while joined. Main statement,
`Consumer.subscription_follows_recovery`: every run from a consumer in sync follows this; its
joins and leaves alternate, from a join; and unless a fault stops it, it joins as many times as
the consumer starts recovering.
-/

namespace Exchange

namespace Consumer

variable {c c' : Consumer} {feed : FeedKind} {m : Stamped}

theorem isRecovering_eq_true_iff : c.isRecovering = true ↔ c.state = .recovering := by
  unfold isRecovering
  cases c.state <;> decide

theorem isRecovering_eq_false_iff : c.isRecovering = false ↔ c.state = .normal := by
  unfold isRecovering
  cases c.state <;> decide

/-! ## Records: recovery starts on a gap and ends on a cycle's end -/

/-- A recovering consumer waits for the end of a snapshot cycle: the last snapshot record it has
queued is no end marker. -/
def Waits (c : Consumer) : Prop :=
  c.isRecovering = true → ∀ e ∈ c.snapshots.entries.getLast?, e.2.kind ≠ .snapshotEnd

theorem waits_of_normal (h : c.state = .normal) : c.Waits :=
  fun hrec => absurd (isRecovering_eq_true_iff.1 hrec) (by rw [h]; decide)

theorem waits_dropSnapshot : c.dropSnapshot.Waits := by
  simp [Waits, dropSnapshot]

theorem resync_waits (h : c.resync = .ok c') : c'.Waits := by
  unfold resync at h
  split at h
  · rename_i hentries
    cases h
    simp [Waits, hentries]
  split at h
  · cases h; exact waits_dropSnapshot
  split at h
  · cases h; exact waits_dropSnapshot
  split at h
  · rename_i hlast
    cases h
    simp [Waits, hlast]
  rename_i kₑ last hlast
  split at h
  · -- the cycle queued has no end yet
    rename_i hend
    cases h
    intro _ e he
    rw [hlast, Option.mem_some_iff] at he
    subst he
    exact hend
  dsimp only at h
  split at h
  · cases h; exact waits_dropSnapshot
  split at h
  · cases h; exact waits_dropSnapshot
  simp only [bind, Except.bind, pure, Except.pure] at h
  split at h
  · cases h
  · cases h
    intro hrec
    simp [isRecovering] at hrec

theorem state_resync (hw : ∀ e ∈ c.snapshots.entries.getLast?, e.2.kind ≠ .snapshotEnd)
    (h : c.resync = .ok c') : c'.state = c.state := by
  rcases resync_cases h with ⟨rfl, -⟩ | rfl | ⟨_, kₑ, _, last, _, _, _, -, hlast, -, -, hend, -⟩
  · rfl
  · rfl
  · exact absurd hend (hw (kₑ, last) (by rw [hlast]; rfl))

theorem Waits.onMessage (hw : c.Waits) (h : c.onMessage feed m = .ok c') : c'.Waits := by
  rcases onMessage_cases h with ⟨hs, -, rfl⟩ | ⟨hs, -, -, -, o, -, rfl⟩ | ⟨hs, -, -, rfl⟩ |
    ⟨-, -, -, rfl⟩ | ⟨-, hr⟩
  · exact waits_of_normal hs
  · exact waits_of_normal (by simp [hs])
  · exact waits_of_normal hs
  · -- a gap starts recovery with no snapshot record queued
    intro _ e he
    simp [enqueue] at he
  · exact resync_waits hr

theorem isRecovering_onMessage_incremental (hw : c.Waits) (hr : c.isRecovering = true)
    (h : c.onMessage .incremental m = .ok c') : c'.isRecovering = true := by
  have hrec := isRecovering_eq_true_iff.1 hr
  rcases onMessage_cases h with ⟨hs, -⟩ | ⟨hs, -⟩ | ⟨hs, -⟩ | ⟨hs, -⟩ | ⟨-, hres⟩
  all_goals try exact absurd (hrec.symm.trans hs) (by decide)
  have hstate := state_resync (c := c.enqueue .incremental m) (hw hr) hres
  rw [isRecovering_eq_true_iff, hstate, enqueue_state, hrec]

theorem onMessage_snapshot_of_normal (hr : c.isRecovering = false)
    (h : c.onMessage .snapshot m = .ok c') : c' = c := by
  rcases onMessage_cases h with ⟨-, -, rfl⟩ | ⟨-, hf, -⟩ | ⟨-, hf, -⟩ | ⟨-, hf, -⟩ | ⟨hs, -⟩
  · rfl
  all_goals try exact absurd hf (by decide)
  exact absurd (isRecovering_eq_false_iff.1 hr) (by rw [hs]; decide)

/-! ## Records handled in order -/

variable {c₁ : Consumer} {r : FeedKind × Stamped} {rs : List (FeedKind × Stamped)}

theorem handleAll_cons (c : Consumer) (r : FeedKind × Stamped) (rs : List (FeedKind × Stamped)) :
    c.handleAll (r :: rs) = (c.onMessage r.1 r.2 >>= fun c' => c'.handleAll rs) := rfl

theorem handleAll_cons_eq_ok (h : c.handleAll (r :: rs) = .ok c') :
    ∃ c₁, c.onMessage r.1 r.2 = .ok c₁ ∧ c₁.handleAll rs = .ok c' := by
  rw [handleAll_cons] at h
  cases hm : c.onMessage r.1 r.2 with
  | error f => simp [hm, bind, Except.bind] at h
  | ok c₁ =>
    rw [hm] at h
    exact ⟨c₁, rfl, h⟩

theorem Waits.handleAll (hw : c.Waits) (h : c.handleAll rs = .ok c') : c'.Waits := by
  induction rs generalizing c with
  | nil => cases h; exact hw
  | cons r rs ih =>
    obtain ⟨c₁, hm, hrest⟩ := handleAll_cons_eq_ok h
    exact ih (hw.onMessage hm) hrest

theorem isRecovering_handleAll_incremental (hw : c.Waits) (hr : c.isRecovering = true)
    (hinc : ∀ r ∈ rs, r.1 = .incremental) (h : c.handleAll rs = .ok c') :
    c'.isRecovering = true := by
  induction rs generalizing c with
  | nil => cases h; exact hr
  | cons r rs ih =>
    obtain ⟨c₁, hm, hrest⟩ := handleAll_cons_eq_ok h
    obtain ⟨feed, m⟩ := r
    obtain rfl : feed = .incremental := hinc _ List.mem_cons_self
    exact ih (hw.onMessage hm) (isRecovering_onMessage_incremental hw hr hm)
      (fun r hr => hinc r (List.mem_cons_of_mem _ hr)) hrest

/-- How many times handling these records in order brings the consumer into recovery, up to the
first fault. -/
def recoveries (c : Consumer) : List (FeedKind × Stamped) → Nat
  | [] => 0
  | r :: rs =>
    match c.onMessage r.1 r.2 with
    | .ok c' => (if !c.isRecovering && c'.isRecovering then 1 else 0) + c'.recoveries rs
    | .error _ => 0

theorem recoveries_append (h : c.handleAll rs = .ok c₁) (rs' : List (FeedKind × Stamped)) :
    c.recoveries (rs ++ rs') = c.recoveries rs + c₁.recoveries rs' := by
  induction rs generalizing c with
  | nil => cases h; simp [recoveries]
  | cons r rs ih =>
    obtain ⟨c₂, hm, hrest⟩ := handleAll_cons_eq_ok h
    simp only [List.cons_append, recoveries, hm, ih hrest]
    omega

theorem recoveries_snapshot (hs : ∀ r ∈ rs, r.1 = .snapshot) : c.recoveries rs = 0 := by
  induction rs generalizing c with
  | nil => rfl
  | cons r rs ih =>
    obtain ⟨feed, m⟩ := r
    obtain rfl : feed = .snapshot := hs _ List.mem_cons_self
    cases hm : c.onMessage .snapshot m with
    | error f => simp [recoveries, hm]
    | ok c' =>
      simp only [recoveries, hm, ih fun r hr => hs r (List.mem_cons_of_mem _ hr)]
      cases hr : c.isRecovering
      · rw [onMessage_snapshot_of_normal hr hm, hr]
        rfl
      · rfl

theorem recoveries_incremental (hw : c.Waits) (hinc : ∀ r ∈ rs, r.1 = .incremental)
    (h : c.handleAll rs = .ok c₁) :
    c.recoveries rs = if !c.isRecovering && c₁.isRecovering then 1 else 0 := by
  induction rs generalizing c with
  | nil => cases h; simp [recoveries]
  | cons r rs ih =>
    obtain ⟨c₂, hm, hrest⟩ := handleAll_cons_eq_ok h
    have hinc' : ∀ r ∈ rs, r.1 = .incremental := fun r hr => hinc r (List.mem_cons_of_mem _ hr)
    simp only [recoveries, hm, ih (hw.onMessage hm) hinc' hrest]
    obtain ⟨feed, m⟩ := r
    obtain rfl : feed = .incremental := hinc _ List.mem_cons_self
    cases hr : c.isRecovering
    · cases hr₂ : c₂.isRecovering
      · simp
      · -- once recovering, the rest of the records keep it recovering
        have := isRecovering_handleAll_incremental (hw.onMessage hm) hr₂ hinc' hrest
        simp [this]
    · have hr₂ := isRecovering_onMessage_incremental hw hr hm
      simp [hr₂, isRecovering_handleAll_incremental (hw.onMessage hm) hr₂ hinc' hrest]

end Consumer

/-! ## Calls that follow recovery -/

namespace LinkCall

/-- The change a call makes to the snapshot subscription: a join of the snapshot stream
(`some true`) or a leave of it (`some false`), answered or not. -/
def subscription : LinkCall → Option Bool
  | .join .snapshot _ => some true
  | .leave .snapshot _ => some false
  | _ => none

/-- Whether the socket failed the call. -/
def failed : LinkCall → Bool
  | .recv _ none => true
  | .join _ false => true
  | .leave _ false => true
  | _ => false

theorem subscribed_hear (st : LoopState) (call : LinkCall) (h : call.failed = false) :
    (st.hear call).2.subscribed = call.subscription.getD st.subscribed := by
  rcases call with ⟨_ | _, _ | _⟩ | ⟨_ | _, _ | _⟩ | ⟨_ | _, _ | _⟩ <;> first | rfl | cases h

end LinkCall

namespace LoopState

@[simp] theorem snapshot_hear_recv_incremental (st : LoopState) (a : Option (List UInt8)) :
    (st.hear (.recv .incremental a)).2.snapshot = st.snapshot := by
  rcases a with _ | bytes <;> rfl

theorem feed_of_mem_hear_recv (st : LoopState) (feed : FeedKind) (a : Option (List UInt8)) :
    ∀ r ∈ (st.hear (.recv feed a)).1, r.1 = feed := by
  rcases a with _ | bytes
  · simp [hear]
  · simp only [hear, List.mem_map]
    rintro _ ⟨m, -, rfl⟩
    rfl

@[simp] theorem hear_join_failed (st : LoopState) (feed : FeedKind) :
    st.hear (.join feed false) = ([], st) := by
  cases feed <;> rfl

theorem with_subscribed_eq (st : LoopState) (h : st.subscribed = true) :
    { st with subscribed := true } = st := by
  cases st
  simp_all

end LoopState

namespace Consumer

variable {c c' : Consumer} {st : LoopState} {prev : Option LinkCall} {call : LinkCall}

/-- The subscription change owed right after the call `prev`, by consumer `c` in loop state `st`:
a join once an incremental receive leaves the consumer recovering with the snapshot stream not
joined, a leave once a snapshot receive leaves it back in sync with the stream joined. -/
def owed (c : Consumer) (st : LoopState) : Option LinkCall → Option Bool
  | some (.recv .incremental _) => if c.isRecovering && !st.subscribed then some true else none
  | some (.recv .snapshot _) => if !c.isRecovering && st.subscribed then some false else none
  | _ => none

theorem subscribed_of_owed {b : Bool} (h : owed c st prev = some b) : st.subscribed = !b := by
  unfold owed at h
  split at h
  · obtain ⟨hj, ⟨⟩⟩ := Option.ite_none_right_eq_some.1 h
    revert hj
    cases st.subscribed <;> simp
  · obtain ⟨hl, ⟨⟩⟩ := Option.ite_none_right_eq_some.1 h
    revert hl
    cases st.subscribed <;> simp
  · cases h

/-- What a call made by consumer `c` in loop state `st` right after `prev` must be: it joins or
leaves the snapshot stream exactly as owed, a join finds the snapshot buffer empty, and the
snapshot stream is read only while joined. -/
structure Allowed (c : Consumer) (st : LoopState) (prev : Option LinkCall) (call : LinkCall) :
    Prop where
  as_owed : call.subscription = owed c st prev
  join_empty : call.subscription = some true → st.snapshot = []
  reads_joined : ∀ a, call = .recv .snapshot a → st.subscribed = true

/-- **Calls that follow recovery.** `Subscribes c st prev calls`: consumer `c`, in loop state `st`
right after the call `prev`, makes `calls`, each allowed where it is made. The consumer and the
state move with the records played back from each call; a call that fails or meets a fault is the
last, and calls that end otherwise end owing nothing. -/
inductive Subscribes : Consumer → LoopState → Option LinkCall → List LinkCall → Prop
  | done {c : Consumer} {st : LoopState} {prev : Option LinkCall} :
      owed c st prev = none → Subscribes c st prev []
  | halt {c : Consumer} {st : LoopState} {prev : Option LinkCall} {call : LinkCall} :
      Allowed c st prev call →
      (call.failed = true ∨ ∃ f, c.handleAll (st.hear call).1 = .error f) →
      Subscribes c st prev [call]
  | next {c c' : Consumer} {st : LoopState} {prev : Option LinkCall} {call : LinkCall}
      {rest : List LinkCall} :
      Allowed c st prev call → call.failed = false →
      c.handleAll (st.hear call).1 = .ok c' → Subscribes c' (st.hear call).2 (some call) rest →
      Subscribes c st prev (call :: rest)

theorem alternate_succ (j : Nat) (s : Bool) :
    (decide ((j + 1) % 2 = 0) != s) = (decide (j % 2 = 0) != !s) := by
  by_cases hj : j % 2 = 0
  · have : ¬(j + 1) % 2 = 0 := by omega
    cases s <;> simp [hj, this]
  · have : (j + 1) % 2 = 0 := by omega
    cases s <;> simp [hj, this]

/-- **Joins and leaves alternate.** Along calls that follow recovery, the subscription changes
alternate, the first one joining exactly when the stream is not joined. -/
theorem Subscribes.alternates {calls : List LinkCall} (hf : Subscribes c st prev calls) :
    ∀ i b, (calls.filterMap LinkCall.subscription)[i]? = some b →
      b = (decide (i % 2 = 0) != st.subscribed) := by
  -- induction on the calls; a change of subscription flips the state the rest starts from
  induction hf with
  | done => simp
  | @halt c st prev call hA _ =>
    intro i b hb
    cases hsub : call.subscription with
    | none => simp [hsub] at hb
    | some b₀ =>
      simp only [List.filterMap_cons, hsub, List.filterMap_nil] at hb
      obtain ⟨rfl, rfl⟩ : i = 0 ∧ b₀ = b := by
        cases i <;> simp_all
      rw [subscribed_of_owed (hA.as_owed ▸ hsub)]
      cases b₀ <;> rfl
  | @next c c' st prev call rest hA hfail _ _ ih =>
    intro i b hb
    have hst := LinkCall.subscribed_hear st call hfail
    cases hsub : call.subscription with
    | none =>
      simp only [List.filterMap_cons, hsub] at hb
      rw [ih i b hb, hst, hsub]
      rfl
    | some b₀ =>
      simp only [List.filterMap_cons, hsub] at hb
      have hold := subscribed_of_owed (hA.as_owed ▸ hsub)
      cases i with
      | zero =>
        obtain rfl : b₀ = b := by simpa using hb
        rw [hold]
        cases b₀ <;> rfl
      | succ j =>
        rw [ih j b hb, hst, hsub, alternate_succ, hold]
        cases b₀ <;> rfl

/-- What holds between turns of the loop: the consumer waits for a cycle's end, the snapshot
stream is joined exactly while the consumer recovers, and its buffer is empty while not joined. -/
structure Synced (c : Consumer) (st : LoopState) : Prop where
  waits : c.Waits
  subscribed : st.subscribed = c.isRecovering
  buffer : st.subscribed = false → st.snapshot = []

theorem Synced.start (hc : c.isRecovering = false) : Synced c {} where
  waits h := absurd (hc.symm.trans h) (by decide)
  subscribed := hc.symm
  buffer _ := rfl

theorem Synced.owed (hs : Synced c st) (prev : Option LinkCall) : owed c st prev = none := by
  unfold Consumer.owed
  split <;> simp [hs.subscribed]

/-! ## One turn -/

variable {c₁ : Consumer} {a : Option (List UInt8)}

theorem allowed_recv_incremental (hs : Synced c st) (a : Option (List UInt8)) :
    Allowed c st prev (.recv .incremental a) where
  as_owed := (hs.owed prev).symm
  join_empty h := by cases h
  reads_joined _ h := by cases h

theorem allowed_recv_snapshot (hr : c.isRecovering = true) (hsub : st.subscribed = true)
    (a : Option (List UInt8)) : Allowed c st prev (.recv .snapshot a) where
  as_owed := by
    show none = owed c st prev
    unfold owed
    split <;> simp [hr, hsub]
  join_empty h := by cases h
  reads_joined _ _ := hsub

theorem allowed_join (hr : c.isRecovering = true) (hsub : st.subscribed = false)
    (hbuf : st.snapshot = []) (a : Option (List UInt8)) (ok : Bool) :
    Allowed c st (some (.recv .incremental a)) (.join .snapshot ok) where
  as_owed := by simp [LinkCall.subscription, owed, hr, hsub]
  join_empty _ := hbuf
  reads_joined _ h := by cases h

theorem allowed_leave (hr : c.isRecovering = false) (hsub : st.subscribed = true)
    (a : Option (List UInt8)) (ok : Bool) :
    Allowed c st (some (.recv .snapshot a)) (.leave .snapshot ok) where
  as_owed := by simp [LinkCall.subscription, owed, hr, hsub]
  join_empty h := by cases h
  reads_joined _ h := by cases h

theorem failed_recv (ha : a.isSome = true) (feed : FeedKind) : (LinkCall.recv feed a).failed = false := by
  cases a
  · cases ha
  · rfl

theorem stops_of_outcome {feed : FeedKind} {h : Halt}
    (hc : c.handleAll (st.hear (.recv feed a)).1 = c'.outcome (some h)) (hio : h = .io → a = none) :
    (LinkCall.recv feed a).failed = true ∨ ∃ f, c.handleAll (st.hear (.recv feed a)).1 = .error f := by
  cases h with
  | io => exact .inl (by rw [hio rfl]; rfl)
  | fault f => exact .inr ⟨f, hc⟩

theorem Synced.snapshot_hear (hs : Synced c st) (hsub : st.subscribed = false) :
    (st.hear (.recv .incremental a)).2.snapshot = [] := by
  rw [LoopState.snapshot_hear_recv_incremental]
  exact hs.buffer hsub

theorem Synced.recovering_of_joined (hs : Synced c st)
    (hc : c.handleAll (st.hear (.recv .incremental a)).1 = .ok c₁)
    (hj : (st.subscribed || c₁.isRecovering) = true) : c₁.isRecovering = true := by
  cases hsub : st.subscribed
  · simpa [hsub] using hj
  · exact isRecovering_handleAll_incremental hs.waits (hs.subscribed.symm.trans hsub)
      (LoopState.feed_of_mem_hear_recv _ _ _) hc

theorem subscribes_open {rest : List LinkCall} (hs : Synced c st)
    (hc : c.handleAll (st.hear (.recv .incremental a)).1 = .ok c₁) (hr : c₁.isRecovering = true)
    (ha : a.isSome = true)
    (hrest : ∀ prev',
      Subscribes c₁ { (st.hear (.recv .incremental a)).2 with subscribed := true } prev' rest) :
    Subscribes c st prev
      (.recv .incremental a :: ((if st.subscribed then [] else [.join .snapshot true]) ++ rest)) := by
  refine .next (allowed_recv_incremental hs a) (failed_recv ha _) hc ?_
  cases hsub : st.subscribed
  · simp only [Bool.false_eq_true, ↓reduceIte, List.singleton_append]
    exact .next (allowed_join hr (by simp [hsub]) (hs.snapshot_hear hsub) a true) rfl rfl (hrest _)
  · -- already joined: the state is the one the rest starts from
    have hjoined := LoopState.with_subscribed_eq (st.hear (.recv .incremental a)).2 (by simp [hsub])
    simp only [↓reduceIte, List.nil_append]
    rw [hjoined] at hrest
    exact hrest _

/-- **A turn follows recovery.** The calls of a turn from a synced state are allowed, each where
it is made; the rest of the run follows on if the turn goes on. -/
theorem LoopTurn.subscribes {cs rest : List LinkCall} {st' : LoopState} {h : Option Halt}
    (hs : Synced c st) (ht : LoopTurn c st cs c' st' h)
    (hrest : h = none → ∀ prev', Subscribes c' st' prev' rest) (hstop : h ≠ none → rest = []) :
    Subscribes c st prev (cs ++ rest) := by
  cases ht with
  | incrementalStop hc hio =>
    rw [hstop (by simp)]
    exact .halt (allowed_recv_incremental hs _) (stops_of_outcome hc hio)
  | quiet hc _ _ ha => exact .next (allowed_recv_incremental hs _) (failed_recv ha _) hc (hrest rfl _)
  | joinFails hc hr hsub ha =>
    rw [hstop (by simp)]
    exact .next (allowed_recv_incremental hs _) (failed_recv ha _) hc
      (.halt (allowed_join hr (by simp [hsub]) (hs.snapshot_hear hsub) _ false) (.inl rfl))
  | snapshotStop hc hj hc' ha hio =>
    rw [hstop (by simp), List.append_nil]
    have hr₁ := hs.recovering_of_joined hc hj
    exact subscribes_open hs hc hr₁ ha fun _ =>
      .halt (allowed_recv_snapshot hr₁ rfl _) (stops_of_outcome hc' hio)
  | stays hc hj hc' _ ha ha' =>
    simp only [List.cons_append, List.append_assoc]
    have hr₁ := hs.recovering_of_joined hc hj
    exact subscribes_open hs hc hr₁ ha fun _ =>
      .next (allowed_recv_snapshot hr₁ rfl _) (failed_recv ha' _) hc' (hrest rfl _)
  | @leaves a a' _ _ ok hc hj hc' hr₂ ha ha' =>
    simp only [List.cons_append, List.append_assoc]
    have hr₁ := hs.recovering_of_joined hc hj
    refine subscribes_open hs hc hr₁ ha fun _ =>
      .next (allowed_recv_snapshot hr₁ rfl _) (failed_recv ha' _) hc' ?_
    have hleave : Allowed c' ({ (st.hear (.recv .incremental a)).2 with subscribed := true }.hear
        (.recv .snapshot a')).2 (some (.recv .snapshot a')) (.leave .snapshot ok) :=
      allowed_leave hr₂ (by simp) a' ok
    cases ok
    · rw [hstop (by simp)]
      exact .halt hleave (.inl rfl)
    · exact .next hleave rfl (by simp) (hrest (by simp) _)

theorem LoopTurn.synced {cs : List LinkCall} {st' : LoopState} {h : Option Halt}
    (hs : Synced c st) (ht : LoopTurn c st cs c' st' h) (hh : h = none) : Synced c' st' := by
  cases ht with
  | incrementalStop => cases hh
  | quiet hc hr hsub =>
    exact ⟨hs.waits.handleAll hc, by simp [hsub, hr], fun _ => by simp [hs.buffer hsub]⟩
  | joinFails => cases hh
  | snapshotStop => cases hh
  | stays hc _ hc' hr₂ =>
    exact ⟨(hs.waits.handleAll hc).handleAll hc', by simp [hr₂], fun h => by simp at h⟩
  | @leaves _ _ _ _ ok hc _ hc' hr₂ =>
    cases ok
    · simp at hh
    · exact ⟨(hs.waits.handleAll hc).handleAll hc', by simp [LoopState.hear, hr₂], fun _ => rfl⟩

theorem countP_joins_eq_recoveries (opening tail : List LinkCall) {st₂ : LoopState}
    (hs : Synced c st) (hopen : st.hearAll opening = ((st.hear (.recv .incremental a)).1, st₂))
    (hc : c.handleAll (st.hear (.recv .incremental a)).1 = .ok c₁)
    (hsnap : ∀ r ∈ (st₂.hearAll tail).1, r.1 = .snapshot)
    (hcount : (opening ++ tail).countP (·.subscription = some true) =
      if !c.isRecovering && c₁.isRecovering then 1 else 0) :
    (opening ++ tail).countP (·.subscription = some true) =
      c.recoveries (st.hearAll (opening ++ tail)).1 := by
  simp only [LoopState.hearAll_append, hopen]
  rw [recoveries_append hc, recoveries_incremental hs.waits (LoopState.feed_of_mem_hear_recv _ _ _) hc,
    recoveries_snapshot hsnap, hcount, Nat.add_zero]

theorem joins_of_joined {tail : List LinkCall} (hs : Synced c st)
    (hc : c.handleAll (st.hear (.recv .incremental a)).1 = .ok c₁)
    (hj : (st.subscribed || c₁.isRecovering) = true)
    (htail : tail.countP (·.subscription = some true) = 0)
    (hsnap : ∀ r ∈ ({ (st.hear (.recv .incremental a)).2 with subscribed := true }.hearAll tail).1,
      r.1 = .snapshot) :
    (LinkCall.recv .incremental a :: (if st.subscribed then [] else [.join .snapshot true]) ++
        tail).countP (·.subscription = some true) =
      c.recoveries (st.hearAll
        (.recv .incremental a :: (if st.subscribed then [] else [.join .snapshot true]) ++ tail)).1 := by
  refine countP_joins_eq_recoveries _ _ hs (LoopState.hearAll_recv_join _ _) hc hsnap ?_
  rw [List.countP_append, htail]
  cases hsub : st.subscribed <;>
    simp [LinkCall.subscription, hs.recovering_of_joined hc hj, ← hs.subscribed, hsub]

/-- **A turn joins as often as it starts recovery**, unless a fault stops it. -/
theorem LoopTurn.joins {cs : List LinkCall} {st' : LoopState} {h : Option Halt}
    (hs : Synced c st) (ht : LoopTurn c st cs c' st' h) (hf : ∀ f, h ≠ some (.fault f)) :
    cs.countP (·.subscription = some true) = c.recoveries (st.hearAll cs).1 := by
  cases ht with
  | @incrementalStop a _ h₀ _ hio =>
    cases h₀ with
    | fault f => exact absurd rfl (hf f)
    | io =>
      rw [hio rfl]
      rfl
  | quiet hc hr =>
    refine countP_joins_eq_recoveries _ [] hs (LoopState.hearAll_singleton st _) hc
      (by simp [LoopState.hearAll]) ?_
    simp [LinkCall.subscription, hr]
  | joinFails hc hr hsub =>
    refine countP_joins_eq_recoveries [_, .join .snapshot false] [] hs
      (by simp [LoopState.hearAll]; rfl) hc (by simp [LoopState.hearAll]) ?_
    simp [LinkCall.subscription, hr, ← hs.subscribed, hsub]
  | snapshotStop hc hj =>
    exact joins_of_joined hs hc hj rfl (by simpa using LoopState.feed_of_mem_hear_recv _ _ _)
  | stays hc hj =>
    exact joins_of_joined hs hc hj rfl (by simpa using LoopState.feed_of_mem_hear_recv _ _ _)
  | leaves hc hj =>
    exact joins_of_joined hs hc hj rfl
      (by simpa [LoopState.hearAll] using LoopState.feed_of_mem_hear_recv _ _ _)

/-! ## The loop and the run -/

variable {σ : Type} [FeedLink σ]

/-- **The loop follows recovery.** From a synced state, the calls of the loop follow recovery,
whatever came before; unless a fault stops it, the loop joins the snapshot stream as often as the
records it hands on bring the consumer into recovery. -/
theorem loop_subscribes (c : Consumer) (w : Watched σ) (st : LoopState) (fuel : Nat)
    (hs : Synced c st) :
    ∃ cs, (c.loop w st fuel).2.1.calls = w.calls ++ cs ∧ (∀ prev, Subscribes c st prev cs) ∧
      ((∀ f, (c.loop w st fuel).2.2 ≠ some (.fault f)) →
        cs.countP (·.subscription = some true) = c.recoveries (st.hearAll cs).1) := by
  -- induction on the turns left; `Synced` carries from turn to turn
  induction fuel generalizing c w st with
  | zero => exact ⟨[], by simp [loop], fun prev => .done (hs.owed prev), fun _ => rfl⟩
  | succ fuel ih =>
    unfold loop
    split
    · exact ⟨[], by simp, fun prev => .done (hs.owed prev), fun _ => rfl⟩
    obtain ⟨cs, hcalls, hturn⟩ := loopTurn_turn c w st
    obtain ⟨hout, hst⟩ := hturn.hears
    rcases ht : c.turn w st with ⟨c', w', st', _ | h⟩
    · rw [ht] at hcalls hout hst hturn
      dsimp only at hcalls hout hst hturn
      obtain ⟨cs', hcalls', hfol, hcount⟩ := ih c' w' st' (hturn.synced hs rfl)
      refine ⟨cs ++ cs', by simp [hcalls', hcalls],
        fun prev => hturn.subscribes hs (fun _ => hfol) (fun h => absurd rfl h), fun hf => ?_⟩
      have hok : c.handleAll (st.hearAll cs).1 = .ok c' := hout
      rw [List.countP_append, hturn.joins hs (fun _ h => by cases h), hcount hf]
      simp only [LoopState.hearAll_append]
      rw [recoveries_append hok, hst rfl]
    · rw [ht] at hcalls hturn
      dsimp only at hcalls hturn
      refine ⟨cs, hcalls, fun prev => ?_, hturn.joins hs⟩
      have key : Subscribes c st prev (cs ++ []) := hturn.subscribes hs (fun h => by cases h) fun _ => rfl
      rwa [List.append_nil] at key

/-- **The run follows recovery.** A run from a consumer in sync joins the incremental stream,
then loops from the empty state. -/
theorem run_subscribes (c : Consumer) (w : Watched σ) (fuel : Nat) (hc : c.isRecovering = false) :
    ∃ cs, (c.run w fuel).2.1.calls = w.calls ++ cs ∧ Subscribes c {} none cs ∧
      ((∀ f, (c.run w fuel).2.2 ≠ some (.fault f)) →
        cs.countP (·.subscription = some true) = c.recoveries (({} : LoopState).hearAll cs).1) := by
  have hjoin : ∀ ok, Allowed c {} none (.join .incremental ok) := fun _ =>
    ⟨rfl, fun h => (by cases h), fun _ h => (by cases h)⟩
  unfold run
  rw [Watched.join_eq]
  rcases FeedLink.join w.net .incremental with ⟨net, _ | _⟩
  · exact ⟨[.join .incremental false], rfl, .halt (hjoin false) (.inl rfl), fun _ => rfl⟩
  · obtain ⟨cs, hcalls, hfol, hcount⟩ :=
      loop_subscribes c ⟨net, w.calls ++ [.join .incremental true]⟩ {} fuel (Synced.start hc)
    refine ⟨.join .incremental true :: cs, by simp [hcalls], .next (hjoin true) rfl rfl (hfol _),
      fun hf => ?_⟩
    simpa [LoopState.hearAll, LoopState.hear, LinkCall.subscription] using hcount hf

/-- **The snapshot subscription follows recovery.** Take a run of the loop from a consumer in
sync, on any socket pair, and the calls it makes (`calls`, written down by the watched pair, whose
run is the run: `Consumer.run_forget`). The calls follow recovery (`Subscribes`): each join and each
leave of the snapshot stream is made exactly when owed, a join right after the incremental
receive that leaves the consumer recovering with the stream not joined, a leave right after the
snapshot receive that brings it back in sync; every join finds the snapshot buffer empty; the
snapshot stream is read only while joined. The joins and leaves alternate, from a join. Unless a
fault stops the run, it joins as many times as the records it hands the consumer bring it into
recovery. And recovery, from a consumer in sync, starts only on an incremental record and ends
only on a snapshot record. -/
theorem subscription_follows_recovery (c : Consumer) (net : σ) (fuel : Nat)
    (hc : c.isRecovering = false) :
    let calls := (c.run (⟨net, []⟩ : Watched σ) fuel).2.1.calls
    Subscribes c {} none calls ∧
      (∀ i b, (calls.filterMap LinkCall.subscription)[i]? = some b → b = decide (i % 2 = 0)) ∧
      ((∀ f, (c.run net fuel).2.2 ≠ some (.fault f)) →
        calls.countP (·.subscription = some true) = c.recoveries (({} : LoopState).hearAll calls).1) ∧
      ∀ rs feed m c₁ c₂, c.handleAll rs = .ok c₁ → c₁.onMessage feed m = .ok c₂ →
        (c₁.isRecovering = false → c₂.isRecovering = true → feed = .incremental) ∧
        (c₁.isRecovering = true → c₂.isRecovering = false → feed = .snapshot) := by
  intro calls
  obtain ⟨cs, hcalls, hfol, hcount⟩ := run_subscribes c (⟨net, []⟩ : Watched σ) fuel hc
  have hcs : calls = cs := by simpa using hcalls
  have hfault : (c.run net fuel).2.2 = (c.run (⟨net, []⟩ : Watched σ) fuel).2.2 := by
    have := run_forget c (⟨net, []⟩ : Watched σ) fuel
    dsimp only at this
    rw [this]
  rw [hcs]
  refine ⟨hfol, fun i b hb => by simpa using hfol.alternates i b hb,
    fun hf => hcount (hfault ▸ hf), fun rs feed m c₁ c₂ h h' => ?_⟩
  have hw := (Synced.start hc).waits.handleAll h
  constructor
  · intro hr₁ hr₂
    cases feed
    · rfl
    · rw [onMessage_snapshot_of_normal hr₁ h', hr₁] at hr₂
      cases hr₂
  · intro hr₁ hr₂
    cases feed
    · rw [isRecovering_onMessage_incremental hw hr₁ h'] at hr₂
      cases hr₂
    · rfl

/-- A recorded incremental 2, a gap, and a snapshot cycle that carries 1: the run joins the
snapshot stream on the gap and leaves it on the cycle's end. -/
theorem subscription_follows_recovery_through_gap :
    let gap : Stamped := ⟨2, ⟨.add, 2, 0, .buy, 101, 5, 1⟩⟩
    let start : Stamped := ⟨0, { kind := .snapshotStart, orderId := 1, tickerId := noTicker }⟩
    let stop : Stamped := ⟨1, { kind := .snapshotEnd, orderId := 1, tickerId := noTicker }⟩
    let net := RecordedNet.create [gap.toBytes] [start.toBytes ++ stop.toBytes] []
    ∃ c : Consumer, Consumer.create 4 = .ok c ∧ c.isRecovering = false ∧
      let calls := (c.run (⟨net, []⟩ : Watched RecordedNet) 2).2.1.calls
      calls.filterMap LinkCall.subscription = [true, false] ∧
      Subscribes c {} none calls ∧
        (∀ i b, (calls.filterMap LinkCall.subscription)[i]? = some b → b = decide (i % 2 = 0)) ∧
        ((∀ f, (c.run net 2).2.2 ≠ some (.fault f)) →
          calls.countP (·.subscription = some true) =
            c.recoveries (({} : LoopState).hearAll calls).1) ∧
        ∀ rs feed m c₁ c₂, c.handleAll rs = .ok c₁ → c₁.onMessage feed m = .ok c₂ →
          (c₁.isRecovering = false → c₂.isRecovering = true → feed = .incremental) ∧
          (c₁.isRecovering = true → c₂.isRecovering = false → feed = .snapshot) := by
  intro gap start stop net
  have h₀ : Consumer.create 4 = .ok ⟨1, .normal, {}, {}, ⟨Array.replicate 4 default, 0, 0, 0⟩⟩ := rfl
  exact ⟨_, h₀, rfl, by decide +kernel, subscription_follows_recovery _ net 2 rfl⟩

end Consumer

end Exchange
