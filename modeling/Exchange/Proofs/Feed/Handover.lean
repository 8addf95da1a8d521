import Mathlib.Data.List.Sort
import Exchange.Proofs.Feed.Rebuild

/-!
# Handing over from a snapshot cycle to the incremental feed

A recovering consumer rebuilds from the next whole cycle of the snapshot feed. Fed the records of
a cycle in the order they were published, it queues them one by one and waits
(`Consumer.feedAll_opening`): its snapshot queue holds the records received so far, numbered from
0, begun by a START and not yet ended. The END completes the cycle. If the incrementals queued
after the number `s` that the markers carry run on without a hole, the consumer then passes on
the cycle's records without its markers, then those incrementals, and is back in sync
(`Consumer.feedAll_cycle`).

A new cycle's START restarts the snapshot queue because that queue is numbered from 0 in every
consumer reached by handling records (`Consumer.Received.isFromZero`). The cycle a snapshot book
publishes is a START, the records of the tickers, and an END (`SnapshotBook.cycle_split`),
numbered by place (`SnapshotBook.placed_cycle`); none of the tickers' records is an END, since a
snapshot book mirrors some book whatever updates it applied (`SnapshotBook.Mirrors.exists_applyAll`,
`SnapshotBook.Mirrors.not_end_of_tickers`).

The hand-over checks that the number after the markers' exists, and runs the incrementals on
only below the largest number; but in sync the consumer adds one to the number it expects without
a check. So a step overflows exactly when, in sync and expecting the largest number, the
consumer passes on the incremental with that number (`Consumer.overflows_iff_past_last_number`),
and a cycle whose markers carry the number before the largest leads there.

Main statement: `Consumer.resyncs_on_published_cycle`.
-/

namespace Exchange

/-! ## Runs of numbers -/

theorem runEnd_of_range' : ∀ {a : UInt64} {ks : List UInt64},
    ks.map UInt64.toNat = List.range' a.toNat ks.length → a.toNat + ks.length < 2 ^ 64 →
      runEnd a ks = some (UInt64.ofNat (a.toNat + ks.length))
  | a, [], _, _ => by simp [runEnd]
  | a, k :: ks, hks, hlt => by
    rw [List.map_cons, List.length_cons, List.range'_succ, List.cons.injEq] at hks
    obtain ⟨hk, hks⟩ := hks
    rw [List.length_cons] at hlt
    -- the number expected is not the largest, so the run goes on past it
    have ha : a ≠ maxSeq := fun h => by
      have : a.toNat = 2 ^ 64 - 1 := by rw [h]; rfl
      omega
    have ha1 := toNat_add_one_of_ne ha
    have hlt' : (a + 1).toNat + ks.length < 2 ^ 64 := by rw [ha1]; omega
    rw [← ha1] at hks
    rw [runEnd, if_pos ⟨UInt64.toNat_inj.1 hk, ha⟩, runEnd_of_range' hks hlt', ha1,
      List.length_cons, Nat.add_assoc, Nat.add_comm 1]

theorem eq_range'_of_mem_iff {ks : List Nat} {a len : Nat} (hs : ks.Pairwise (· < ·))
    (hm : ∀ k, k ∈ ks ↔ a ≤ k ∧ k < a + len) : ks = List.range' a len :=
  hs.eq_of_mem_iff (List.pairwise_lt_range' ..) fun k => by rw [hm, List.mem_range'_1]

namespace SeqQueue

theorem keys_since {q : SeqQueue} {s n : UInt64} (hsorted : Sorted q.entries) (hs : s ≠ maxSeq)
    (hsn : s ≤ n) (htail : ∀ k, s < k → (k ∈ q.keys ↔ k ≤ n)) :
    (q.since (s + 1)).map (·.1.toNat) = List.range' (s.toNat + 1) (n.toNat - s.toNat) := by
  rw [UInt64.le_iff_toNat_le] at hsn
  apply eq_range'_of_mem_iff
  · -- the numbers increase along the queue, so along any part of it
    have hinc : (q.entries.map (·.1.toNat)).Pairwise (· < ·) := by
      rw [List.pairwise_map]
      exact (List.pairwise_map.1 hsorted).imp fun h => UInt64.lt_iff_toNat_lt.1 h
    exact hinc.sublist ((List.filter_sublist).map _)
  · intro k
    simp only [List.mem_map, mem_since]
    constructor
    · rintro ⟨e, ⟨he, hle⟩, rfl⟩
      have hlt : s < e.1 := (lt_iff_add_one_le hs).2 hle
      have hen : e.1 ≤ n := (htail e.1 hlt).1 (List.mem_map_of_mem he)
      rw [UInt64.lt_iff_toNat_lt] at hlt
      rw [UInt64.le_iff_toNat_le] at hen
      omega
    · rintro ⟨h1, h2⟩
      have hk : (k.toUInt64).toNat = k := by
        rw [Nat.toUInt64_eq, UInt64.toNat_ofNat', Nat.mod_eq_of_lt (by have := n.toNat_lt; omega)]
      have hslt : s < k.toUInt64 := by rw [UInt64.lt_iff_toNat_lt, hk]; omega
      have hkn : k.toUInt64 ≤ n := by rw [UInt64.le_iff_toNat_le, hk]; omega
      obtain ⟨e, he, hek⟩ := List.mem_map.1 ((htail _ hslt).2 hkn)
      exact ⟨e, ⟨he, hek ▸ (lt_iff_add_one_le hs).1 hslt⟩, by rw [hek, hk]⟩

theorem runEnd_since {q : SeqQueue} {s n : UInt64} (hsorted : Sorted q.entries) (hs : s ≠ maxSeq)
    (hsn : s ≤ n) (hn : n ≠ maxSeq) (htail : ∀ k, s < k → (k ∈ q.keys ↔ k ≤ n)) :
    runEnd (s + 1) ((q.since (s + 1)).map (·.1)) = some (n + 1) := by
  have hkeys := keys_since hsorted hs hsn htail
  have hlen : ((q.since (s + 1)).map (·.1)).length = n.toNat - s.toNat := by
    rw [List.length_map, ← List.length_map (f := fun e : UInt64 × Update => e.1.toNat), hkeys,
      List.length_range']
  have hs1 := toNat_add_one_of_ne hs
  have hn1 := toNat_add_one_of_ne hn
  rw [UInt64.le_iff_toNat_le] at hsn
  have hnlt : n.toNat + 1 < 2 ^ 64 := by rw [← hn1]; exact (n + 1).toNat_lt
  rw [runEnd_of_range' (by rw [List.map_map, hlen, hs1]; exact hkeys) (by rw [hlen, hs1]; omega),
    hlen, hs1]
  congr 1
  apply UInt64.toNat_inj.1
  rw [UInt64.toNat_ofNat', Nat.mod_eq_of_lt (by omega), hn1]
  omega

end SeqQueue

/-! ## Records numbered by their place -/

/-- The queue entry of a record: its number and its update. -/
def Stamped.entry (m : Stamped) : UInt64 × Update := (m.seq, m.update)

/-- Each record is numbered by its place, from 0. -/
def Stamped.Placed (xs : List Stamped) : Prop := ∀ i (h : i < xs.length), xs[i].seq.toNat = i

namespace Stamped.Placed

variable {xs : List Stamped}

theorem take (h : Placed xs) (k : Nat) : Placed (xs.take k) := fun i hi => by
  rw [List.getElem_take]
  exact h i (Nat.lt_of_lt_of_le hi (List.length_take_le' _ _))

theorem seq_eq (h : Placed xs) (i : Nat) (hi : i < xs.length) : xs[i].seq = i.toUInt64 := by
  have hlt := xs[i].seq.toNat_lt
  rw [h i hi] at hlt
  apply UInt64.toNat_inj.1
  rw [h i hi, Nat.toUInt64_eq, UInt64.toNat_ofNat', Nat.mod_eq_of_lt hlt]

theorem isFromZero (h : Placed xs) : (⟨xs.map entry⟩ : SeqQueue).isFromZero = true := by
  have hkeys : (⟨xs.map entry⟩ : SeqQueue).keys = (List.range xs.length).map Nat.toUInt64 := by
    apply List.ext_getElem (by simp [SeqQueue.keys])
    intro i h₁ _
    simp only [SeqQueue.keys, List.map_map, List.getElem_map, List.getElem_range]
    exact h.seq_eq i (by simpa [SeqQueue.keys] using h₁)
  simp [SeqQueue.isFromZero, hkeys, SeqQueue.size]

theorem lt_last {ys : List Stamped} {x : Stamped} (h : Placed (ys ++ [x])) :
    ∀ e ∈ ys.map entry, e.1 < x.seq := by
  intro e he
  obtain ⟨i, hi, rfl⟩ := List.getElem_of_mem he
  rw [List.length_map] at hi
  have hx := h ys.length (by simp)
  have he := h i (by simp; omega)
  rw [List.getElem_append_left hi] at he
  rw [List.getElem_append_right (Nat.le_refl _)] at hx
  simp only [Nat.sub_self, List.getElem_cons_zero] at hx
  rw [List.getElem_map, entry, UInt64.lt_iff_toNat_lt, he, hx]
  exact hi

end Stamped.Placed

/-! ## The cycles a snapshot book publishes -/

namespace SnapshotBook

variable {mi mi' : SnapshotBook} {B : ClientBook}

theorem Mirrors.exists_apply (h : Mirrors mi B) {m : Stamped} (ha : mi.apply m = .ok mi') :
    ∃ B', Mirrors mi' B' := by
  by_cases hk : m.update.kind = .clear
  · obtain ⟨-, -, hcase⟩ := apply_eq_ok ha
    rcases hcase with ⟨hk', -⟩ | ⟨hk', -⟩ | ⟨hk', -⟩ | ⟨-, -, -, rfl⟩
    · simp [hk] at hk'
    · simp [hk] at hk'
    · simp [hk] at hk'
    · exact ⟨B, h.lastSeq m.seq⟩
  · obtain ⟨-, -, -, B', -, h'⟩ := h.apply ha hk
    exact ⟨B', h'⟩

/-- **A snapshot book mirrors some book all along**, whatever updates it applies. -/
theorem Mirrors.exists_applyAll {ms : List Stamped} (h : Mirrors mi B)
    (ha : mi.applyAll ms = .ok mi') : ∃ B', Mirrors mi' B' := by
  induction ms generalizing mi B with
  | nil =>
    cases ha
    exact ⟨B, h⟩
  | cons m ms ih =>
    rw [applyAll_cons] at ha
    cases hm : mi.apply m with
    | error f => rw [hm] at ha; cases ha
    | ok mi₁ =>
      rw [hm] at ha
      obtain ⟨B₁, h₁⟩ := h.exists_apply hm
      exact ih h₁ ha

theorem cycle_split : ∃ x₀ rest xₑ, mi.cycle = x₀ :: rest ++ [xₑ] ∧
    x₀.update = marker .snapshotStart mi.lastSeq noTicker ∧
    rest.map (·.update) = (List.range mi.books.size).flatMap mi.tickerRecords ∧
    xₑ.update = marker .snapshotEnd mi.lastSeq noTicker := by
  have h : mi.cycle.map (·.update) = mi.cycleBody := map_update_cycle
  rw [cycleBody_eq] at h
  obtain ⟨x₀, tl, hc, h₀, htl⟩ := List.map_eq_cons_iff.1 h
  obtain ⟨rest, l, rfl, hr, hl⟩ := List.map_eq_append_iff.1 htl
  obtain ⟨xₑ, rfl, hₑ⟩ := List.map_eq_singleton_iff.1 hl
  exact ⟨x₀, rest, xₑ, by rw [hc, List.cons_append], h₀, hr, hₑ⟩

theorem placed_cycle (hlen : mi.cycle.length ≤ 2 ^ 64) : Stamped.Placed mi.cycle := by
  intro i hi
  have hb : i < mi.cycleBody.length := length_cycle ▸ hi
  have hx := getElem?_cycle hb
  rw [List.getElem?_eq_getElem hi, Option.some.injEq] at hx
  rw [hx, Nat.toUInt64_eq, UInt64.toNat_ofNat', Nat.mod_eq_of_lt (by omega)]

theorem Mirrors.not_end_of_tickers (h : Mirrors mi B) {rest : List Stamped}
    (hrest : rest.map (·.update) = (List.range mi.books.size).flatMap mi.tickerRecords) :
    ∀ x ∈ rest, x.update.kind ≠ .snapshotEnd := by
  intro x hx hk
  have hm := h.isMarker_of_mem_tickers (hrest ▸ List.mem_map_of_mem hx)
  simp [Update.isMarker, hk] at hm

end SnapshotBook

/-! ## The snapshot queue while a cycle arrives -/

namespace Consumer

variable {c c' : Consumer} {feed : FeedKind} {m : Stamped} {log : List (FeedKind × Stamped)}

theorem isFromZero_onMessage (hz : c.snapshots.isFromZero = true) (h : c.onMessage feed m = .ok c') :
    c'.snapshots.isFromZero = true := by
  rcases onMessage_cases h with ⟨-, -, rfl⟩ | ⟨-, -, -, -, o, -, rfl⟩ | ⟨-, -, -, rfl⟩ |
    ⟨-, -, -, rfl⟩ | ⟨-, h⟩
  · exact hz
  · exact hz
  · exact hz
  · rfl
  · rcases resync_cases h with ⟨rfl, hz'⟩ | rfl | ⟨_, _, _, _, _, _, _, -, -, -, -, -, -, -, -, -, rfl⟩
    · exact hz'
    · rfl
    · rfl

/-- **The snapshot queue is numbered from 0** in every consumer reached by handling records. -/
theorem Received.isFromZero {c₀ : Consumer} (h₀ : c₀.snapshots.isFromZero = true)
    (h : Received c₀ c log) : c.snapshots.isFromZero = true := by
  induction h with
  | start => exact h₀
  | step _ hm ih => exact isFromZero_onMessage ih hm

theorem onMessage_of_recovering (hrec : c.state = .recovering) :
    c.onMessage feed m = (c.enqueue feed m).resync := by
  unfold onMessage
  rw [hrec]

/-- The consumer with its snapshot queue replaced. -/
def withSnapshots (c : Consumer) (es : List (UInt64 × Update)) : Consumer :=
  { c with snapshots := ⟨es⟩ }

section WithSnapshots

variable {es es' : List (UInt64 × Update)}

@[simp] theorem state_withSnapshots : (c.withSnapshots es).state = c.state := rfl
@[simp] theorem out_withSnapshots : (c.withSnapshots es).out = c.out := rfl
@[simp] theorem incrementals_withSnapshots : (c.withSnapshots es).incrementals = c.incrementals := rfl
@[simp] theorem entries_withSnapshots : (c.withSnapshots es).snapshots.entries = es := rfl

@[simp] theorem withSnapshots_withSnapshots :
    (c.withSnapshots es).withSnapshots es' = c.withSnapshots es' := rfl

end WithSnapshots

theorem enqueue_first (hz : c.snapshots.isFromZero = true) (h0 : m.seq = 0) :
    c.enqueue .snapshot m = c.withSnapshots [m.entry] := by
  simp only [enqueue, withSnapshots]
  congr 1
  split
  · simp [SeqQueue.insert, SeqQueue.put, Stamped.entry, h0]
  · rename_i hc
    -- a queue numbered from 0 that lacks 0 is empty
    have hnil : c.snapshots.entries = [] := by
      refine List.eq_nil_iff_forall_not_mem.2 fun e he => ?_
      have := SeqQueue.lt_of_not_contains hz (by simpa using hc) e he
      rw [h0] at this
      exact UInt64.not_lt_zero this
    simp [SeqQueue.insert, hnil, SeqQueue.put, Stamped.entry, h0]

theorem enqueue_next (hlt : ∀ e ∈ c.snapshots.entries, e.1 < m.seq) :
    c.enqueue .snapshot m = c.withSnapshots (c.snapshots.entries ++ [m.entry]) := by
  have hc : c.snapshots.contains m.seq = false := by
    simp only [SeqQueue.contains, List.any_eq_false, beq_iff_eq]
    exact fun e he heq => UInt64.lt_irrefl _ (heq ▸ hlt e he)
  simp only [enqueue, hc, Bool.false_eq_true, if_false, SeqQueue.insert,
    SeqQueue.put_of_forall_lt hlt]
  rfl

theorem resync_of_open {k : UInt64} {first : Update} {rest : List (UInt64 × Update)}
    (hs : c.snapshots.entries = (k, first) :: rest) (hstart : first.kind = .snapshotStart)
    (hz : c.snapshots.isFromZero = true)
    (hopen : ∀ e ∈ c.snapshots.entries.getLast?, e.2.kind ≠ .snapshotEnd) : c.resync = .ok c := by
  obtain ⟨last, hlast⟩ : ∃ last, c.snapshots.entries.getLast? = some last := by
    rw [hs]; exact ⟨_, List.getLast?_eq_some_getLast (List.cons_ne_nil _ _)⟩
  have hend := hopen last hlast
  unfold Consumer.resync
  simp only [hs, hstart, ne_eq, not_true_eq_false, if_false, hz, Bool.not_true,
    Bool.false_eq_true]
  rw [← hs, hlast]
  simp [hend]

theorem resync_of_whole {k kₑ next : UInt64} {first last : Update} {rest : List (UInt64 × Update)}
    {c₃ : Consumer} (hs : c.snapshots.entries = (k, first) :: rest)
    (hstart : first.kind = .snapshotStart) (hz : c.snapshots.isFromZero = true)
    (hlast : c.snapshots.entries.getLast? = some (kₑ, last)) (hend : last.kind = .snapshotEnd)
    (hmark : first.orderId = last.orderId) (hmax : last.orderId ≠ maxSeq)
    (hrun : runEnd (last.orderId + 1) ((c.incrementals.since (last.orderId + 1)).map (·.1)) = some next)
    (hpub : c.publishAll (((c.snapshots.entries ++ c.incrementals.since (last.orderId + 1)).map
      (·.2)).filter fun u => !u.isMarker) = .ok c₃) :
    c.resync = .ok ⟨next, .normal, {}, {}, c₃.out⟩ := by
  unfold Consumer.resync
  simp only [hs, hstart, ne_eq, not_true_eq_false, if_false, hz, Bool.not_true,
    Bool.false_eq_true]
  rw [← hs, hlast]
  simp only [hend, hmark, hmax, not_true_eq_false, if_false, or_self, hrun, bind, Except.bind]
  rw [hpub]
  rfl

theorem feedAll_append (c : Consumer) (xs ys : List (FeedKind × Stamped)) :
    c.feedAll (xs ++ ys) = (c.feedAll xs).bind (·.feedAll ys) := by
  unfold feedAll
  rw [List.foldlM_append]
  rfl

theorem feedAll_singleton (c : Consumer) (x : FeedKind × Stamped) :
    c.feedAll [x] = c.onMessage x.1 x.2 := by
  show (c.onMessage x.1 x.2 >>= fun c' => pure c') = _
  cases c.onMessage x.1 x.2 <;> rfl

/-! ## A cycle, record by record -/

section Cycle

variable {x₀ : Stamped} {rest : List Stamped}

theorem onMessage_open {xs : List Stamped} {x : Stamped} (hrec : c.state = .recovering)
    (hplaced : Stamped.Placed (x₀ :: xs ++ [x])) (hstart : x₀.update.kind = .snapshotStart)
    (hx : x.update.kind ≠ .snapshotEnd) :
    (c.withSnapshots ((x₀ :: xs).map Stamped.entry)).onMessage .snapshot x =
      .ok (c.withSnapshots ((x₀ :: xs ++ [x]).map Stamped.entry)) := by
  have hes : (x₀ :: xs).map Stamped.entry ++ [x.entry] = (x₀ :: xs ++ [x]).map Stamped.entry := by
    simp
  rw [onMessage_of_recovering (state_withSnapshots.trans hrec), enqueue_next (by simpa using hplaced.lt_last),
    withSnapshots_withSnapshots, entries_withSnapshots, hes]
  refine resync_of_open rfl hstart hplaced.isFromZero fun e he => ?_
  simp only [entries_withSnapshots, List.map_append, List.map_singleton, List.getLast?_append,
    List.getLast?_singleton, Option.some_or, Option.mem_def, Option.some.injEq] at he
  subst he
  exact hx

theorem feedAll_opening (hrec : c.state = .recovering) (hz : c.snapshots.isFromZero = true)
    (hplaced : Stamped.Placed (x₀ :: rest)) (hstart : x₀.update.kind = .snapshotStart)
    (hopen : ∀ i (h : i + 1 < (x₀ :: rest).length), (x₀ :: rest)[i].update.kind ≠ .snapshotEnd) :
    ∀ k, 1 ≤ k → k < (x₀ :: rest).length →
      c.feedAll (((x₀ :: rest).take k).map (.snapshot, ·)) =
        .ok (c.withSnapshots (((x₀ :: rest).take k).map Stamped.entry)) := by
  intro k hk
  induction k, hk using Nat.le_induction with
  | base =>
    intro hlen
    have h0 : x₀.seq = 0 := UInt64.toNat_inj.1 (hplaced 0 (by simp))
    rw [List.take_one, List.head?_cons, Option.toList_some, List.map_singleton, feedAll_singleton,
      onMessage_of_recovering hrec, enqueue_first hz h0]
    refine resync_of_open rfl hstart ((hplaced.take 1).isFromZero) fun e he => ?_
    simp only [entries_withSnapshots, List.getLast?_singleton, Option.mem_def,
      Option.some.injEq] at he
    subst he
    exact hopen 0 hlen
  | succ k hk ih =>
    intro hlen
    have hk' : k < (x₀ :: rest).length := by omega
    obtain ⟨j, rfl⟩ : ∃ j, k = j + 1 := ⟨k - 1, by omega⟩
    have htake : (x₀ :: rest).take (j + 1 + 1) = x₀ :: rest.take j ++ [(x₀ :: rest)[j + 1]] := by
      rw [List.take_add_one, List.getElem?_eq_getElem hk', Option.toList_some, List.take_succ_cons]
    rw [List.take_succ_cons] at ih
    rw [htake, List.map_append, feedAll_append, ih hk']
    simp only [Except.bind, List.map_singleton, feedAll_singleton]
    exact onMessage_open hrec (htake ▸ hplaced.take _) hstart (hopen _ hlen)

theorem open_of_parts (xₑ : Stamped) (h₀ : x₀.update.kind ≠ .snapshotEnd)
    (hrest : ∀ x ∈ rest, x.update.kind ≠ .snapshotEnd) :
    ∀ i (h : i + 1 < (x₀ :: rest ++ [xₑ]).length), (x₀ :: rest ++ [xₑ])[i].update.kind ≠ .snapshotEnd
  | 0, _ => h₀
  | j + 1, h => by
    have hj : j < rest.length := by simp at h; omega
    have heq : (x₀ :: rest ++ [xₑ])[j + 1] = rest[j] := by
      simp only [List.cons_append, List.getElem_cons_succ]
      exact List.getElem_append_left hj
    rw [heq]
    exact hrest _ (List.getElem_mem hj)

/-- **The END completes the cycle.** Fed a whole cycle numbered by place, a START first and an
END last, both carrying `s`, with no END between them, a recovering consumer whose snapshot queue
is numbered from 0 waits until the END. If the incrementals it queued from `s + 1` on run on to
`next`, it then passes on the cycle's records and those incrementals, without the markers, and
is in sync expecting `next`, with both queues empty. -/
theorem feedAll_cycle {xₑ : Stamped} {s next : UInt64} {o : Ring Update}
    (hrec : c.state = .recovering) (hz : c.snapshots.isFromZero = true)
    (hplaced : Stamped.Placed (x₀ :: rest ++ [xₑ])) (hstart : x₀.update.kind = .snapshotStart)
    (hrest : ∀ x ∈ rest, x.update.kind ≠ .snapshotEnd) (hend : xₑ.update.kind = .snapshotEnd)
    (hmark₀ : x₀.update.orderId = s) (hmarkₑ : xₑ.update.orderId = s) (hs : s ≠ maxSeq)
    (hrun : runEnd (s + 1) ((c.incrementals.since (s + 1)).map (·.1)) = some next)
    (hpush : c.out.pushAll (((x₀ :: rest ++ [xₑ]).map (·.update) ++
      (c.incrementals.since (s + 1)).map (·.2)).filter fun u => !u.isMarker) = .ok o) :
    c.feedAll ((x₀ :: rest ++ [xₑ]).map (.snapshot, ·)) = .ok ⟨next, .normal, {}, {}, o⟩ := by
  have hopen := open_of_parts xₑ (by rw [hstart]; decide) hrest
  have hwait := feedAll_opening hrec hz (by simpa using hplaced) hstart (by simpa using hopen)
    (rest.length + 1) (by omega) (by simp)
  rw [List.take_succ_cons, List.take_left' rfl] at hwait
  rw [List.map_append, feedAll_append, hwait]
  simp only [Except.bind, List.map_singleton, feedAll_singleton]
  rw [onMessage_of_recovering (state_withSnapshots.trans hrec),
    enqueue_next (by simpa using hplaced.lt_last), withSnapshots_withSnapshots,
    entries_withSnapshots]
  have hE : (x₀ :: rest).map Stamped.entry ++ [xₑ.entry] = (x₀ :: rest ++ [xₑ]).map Stamped.entry := by
    simp
  rw [hE]
  set c' := c.withSnapshots ((x₀ :: rest ++ [xₑ]).map Stamped.entry)
  have hent : c'.snapshots.entries = (x₀.seq, x₀.update) :: (rest ++ [xₑ]).map Stamped.entry := rfl
  have hlast : c'.snapshots.entries.getLast? = some (xₑ.seq, xₑ.update) := by
    rw [hent, List.map_append, ← List.cons_append, List.map_singleton, List.getLast?_concat]
    rfl
  have hpub : c'.publishAll (((c'.snapshots.entries ++ c'.incrementals.since (xₑ.update.orderId + 1)).map
      (·.2)).filter fun u => !u.isMarker) = .ok { c' with out := o } := by
    have hmap : (c'.snapshots.entries ++ c'.incrementals.since (xₑ.update.orderId + 1)).map (·.2) =
        (x₀ :: rest ++ [xₑ]).map (·.update) ++ (c.incrementals.since (s + 1)).map (·.2) := by
      simp [c', hmarkₑ, Stamped.entry]
    rw [hmap]
    simp only [publishAll, bind, Except.bind, out_withSnapshots, c', hpush]
    rfl
  exact resync_of_whole hent hstart hplaced.isFromZero hlast hend
    (hmark₀.trans hmarkₑ.symm) (hmarkₑ ▸ hs) (by simpa [c', hmarkₑ] using hrun) hpub

end Cycle

/-! ## The last number -/

theorem publishAll_eq_error {us : List Update} {f : Fault} (h : c.publishAll us = .error f) :
    f = .ringLapped c.out.capacity ∨ f = .ringCommitFull := by
  simp only [publishAll, bind, Except.bind] at h
  split at h
  · rename_i hpush
    cases h
    exact Ring.pushAll_eq_error hpush
  · cases h

theorem resync_eq_error {f : Fault} (h : c.resync = .error f) : ∃ us, c.publishAll us = .error f := by
  unfold Consumer.resync at h
  split at h
  · cases h
  split at h
  · cases h
  split at h
  · cases h
  split at h
  · cases h
  split at h
  · cases h
  dsimp only at h
  split at h
  · cases h
  split at h
  · cases h
  simp only [bind, Except.bind, pure, Except.pure] at h
  split at h
  · rename_i hpub
    cases h
    exact ⟨_, hpub⟩
  · cases h

theorem publishAll_ne_overflow {us : List Update} {op : ArithOp} :
    c.publishAll us ≠ .error (.overflow op) := fun h => by
  rcases publishAll_eq_error h with h | h <;> cases h

theorem resync_ne_overflow {op : ArithOp} : c.resync ≠ .error (.overflow op) := fun h => by
  obtain ⟨us, hpub⟩ := resync_eq_error h
  exact publishAll_ne_overflow hpub

/-- **The one overflow of a consumer.** Handling a record overflows exactly when the consumer is
in sync expecting the largest number, the record is the incremental with that number, and the ring
has room for it: the update passes on, and no number is left to expect. Every other fault of a
step is the ring's, and recovery, which checks its additions, never overflows. -/
theorem overflows_iff_past_last_number :
    (∃ op, c.onMessage feed m = .error (.overflow op)) ↔
      c.state = .normal ∧ feed = .incremental ∧ m.seq = c.nextExpected ∧ c.nextExpected = maxSeq ∧
        ∃ o, c.out.pushAll [m.update] = .ok o := by
  constructor
  · rintro ⟨op, h⟩
    unfold onMessage at h
    split at h
    · cases h
    · rename_i hs
      split at h
      · rename_i hseq
        simp only [bind, Except.bind, pure, Except.pure] at h
        split at h
        · rename_i hpub
          cases h
          exact absurd hpub publishAll_ne_overflow
        · rename_i c₁ hpub
          obtain ⟨hpush, hc₁⟩ := publishAll_eq hpub
          generalize c₁.out = o at hpush hc₁
          subst hc₁
          split at h
          · rename_i hmax
            exact ⟨hs, rfl, hseq, hmax, o, hpush⟩
          · cases h
      split at h
      · cases h
      · exact absurd h resync_ne_overflow
    · exact absurd h resync_ne_overflow
  · rintro ⟨hs, rfl, hseq, hmax, o, hpush⟩
    refine ⟨.add, ?_⟩
    unfold onMessage
    simp only [hs, hseq, if_true, publishAll, hpush, bind, Except.bind, pure, Except.pure, hmax]
    rfl

/-- A cycle whose markers carry the number before the largest hands over to expect the largest,
and the incremental with that number then overflows: after a gap at 2, a cycle of its two markers
alone, both carrying 2^64 - 2, leaves a new consumer in sync expecting 2^64 - 1. -/
theorem overflows_after_cycle_marked_before_last :
    ∃ c₀ c, Consumer.create 4 = .ok c₀ ∧
      c₀.feedAll [(.incremental, ⟨2, ⟨.add, 1, 0, .buy, 100, 10, 1⟩⟩),
        (.snapshot, ⟨0, SnapshotBook.marker .snapshotStart 18446744073709551614 noTicker⟩),
        (.snapshot, ⟨1, SnapshotBook.marker .snapshotEnd 18446744073709551614 noTicker⟩)] = .ok c ∧
      c.state = .normal ∧ c.nextExpected = maxSeq ∧
      c.onMessage .incremental ⟨maxSeq, ⟨.add, 2, 0, .buy, 101, 5, 1⟩⟩ = .error (.overflow .add) :=
  ⟨_, _, rfl, rfl, rfl, rfl, rfl⟩

/-! ## Handing over -/

/-- **A recovering consumer resyncs on a published cycle.** Take a snapshot book that followed
any updates, with a last number `s` below the largest and no more cycle records than numbers,
and a consumer that handling records left recovering, with the incrementals numbered exactly
`s + 1, …, n` queued above `s`, `n` below the largest, and room in its ring for the cycle and
those incrementals. Fed the cycle record by record, the consumer stays recovering and passes
nothing on until the END. On the END it is in sync expecting `n + 1`, both queues empty, and has
passed on the cycle's records other than its markers, then the incrementals `s + 1, …, n` in
order, other than markers. -/
theorem resyncs_on_published_cycle {T cap k : Nat} {mi₀ mi : SnapshotBook} {ms : List Stamped}
    (hmi₀ : SnapshotBook.create T cap = .ok mi₀) (hmi : mi₀.applyAll ms = .ok mi)
    (hlen : mi.cycle.length ≤ 2 ^ 64) (hs : mi.lastSeq ≠ maxSeq) {c₀ : Consumer}
    (hc₀ : Consumer.create k = .ok c₀) (hc : Received c₀ c log) (hrec : c.state = .recovering)
    {n : UInt64} (hsn : mi.lastSeq ≤ n) (hn : n ≠ maxSeq)
    (htail : ∀ q, mi.lastSeq < q → (q ∈ c.incrementals.keys ↔ q ≤ n))
    (hroom : c.out.len + mi.cycle.length + (n.toNat - mi.lastSeq.toNat) ≤ c.out.capacity) :
    (∀ j < mi.cycle.length, ∃ c', c.feedAll ((mi.cycle.take j).map (.snapshot, ·)) = .ok c' ∧
        c'.state = .recovering ∧ c'.out = c.out) ∧
    (c.incrementals.since (mi.lastSeq + 1)).map (·.1.toNat) =
        List.range' (mi.lastSeq.toNat + 1) (n.toNat - mi.lastSeq.toNat) ∧
    ∃ o, c.feedAll (mi.cycle.map (.snapshot, ·)) = .ok ⟨n + 1, .normal, {}, {}, o⟩ ∧
      o.toList = c.out.toList ++ (mi.cycle.map (·.update)).filter (fun u => !u.isMarker) ++
        ((c.incrementals.since (mi.lastSeq + 1)).map (·.2)).filter fun u => !u.isMarker := by
  obtain ⟨B, hB⟩ := (SnapshotBook.mirrors_create hmi₀).exists_applyAll hmi
  obtain ⟨x₀, rest, xₑ, hcyc, h₀, hrest, hₑ⟩ := @SnapshotBook.cycle_split mi
  have hplaced : Stamped.Placed (x₀ :: rest ++ [xₑ]) := hcyc ▸ SnapshotBook.placed_cycle hlen
  have hstart : x₀.update.kind = .snapshotStart := by rw [h₀]; rfl
  have hend : xₑ.update.kind = .snapshotEnd := by rw [hₑ]; rfl
  have hmid := hB.not_end_of_tickers hrest
  have ht := hc.tracks (tracks_create hc₀)
  have hz : c.snapshots.isFromZero = true :=
    hc.isFromZero (by obtain ⟨r, -, rfl⟩ := create_eq hc₀; rfl)
  have hkeys := SeqQueue.keys_since ht.sorted hs hsn htail
  have hrun := SeqQueue.runEnd_since ht.sorted hs hsn hn htail
  have hsince : (c.incrementals.since (mi.lastSeq + 1)).length = n.toNat - mi.lastSeq.toNat := by
    rw [← List.length_map (f := fun e : UInt64 × Update => e.1.toNat), hkeys, List.length_range']
  obtain ⟨o, ho⟩ : ∃ o, c.out.pushAll ((mi.cycle.map (·.update) ++
      (c.incrementals.since (mi.lastSeq + 1)).map (·.2)).filter fun u => !u.isMarker) = .ok o :=
    ht.ring.pushAll_of_room (by
    have := List.length_filter_le (fun u : Update => !u.isMarker)
      (mi.cycle.map (·.update) ++ (c.incrementals.since (mi.lastSeq + 1)).map (·.2))
    rw [List.length_append, List.length_map, List.length_map, hsince] at this
    omega)
  refine ⟨fun j hj => ?_, hkeys, o, ?_, ?_⟩
  · -- before the END the consumer only queues
    rw [hcyc] at hj ⊢
    rcases Nat.eq_zero_or_pos j with rfl | hpos
    · exact ⟨c, rfl, hrec, rfl⟩
    · have hopen := open_of_parts xₑ (by rw [hstart]; decide) hmid
      have hplaced' : Stamped.Placed (x₀ :: (rest ++ [xₑ])) := by simpa using hplaced
      have hwait := feedAll_opening hrec hz hplaced' hstart (by simpa using hopen) j hpos
        (by simpa using hj)
      exact ⟨_, hwait, hrec, rfl⟩
  · rw [hcyc] at ho ⊢
    exact feedAll_cycle hrec hz hplaced hstart hmid hend (by rw [h₀]; rfl) (by rw [hₑ]; rfl) hs
      hrun ho
  · rw [(ht.ring.pushAll ho).2, List.filter_append, List.append_assoc]

/-- One ticker with one live bid, the snapshot book at number 1; the consumer got incremental 2,
a gap. Fed the cycle, it passes on the CLEAR, the bid and incremental 2, and expects 3. -/
theorem resyncs_after_gap_on_cycle :
    let ms : List Stamped := [⟨1, ⟨.add, 1, 0, .buy, 100, 10, 1⟩⟩]
    let m : Stamped := ⟨2, ⟨.add, 2, 0, .buy, 101, 5, 1⟩⟩
    ∃ (mi₀ mi : SnapshotBook) (c₀ c : Consumer) (log : List (FeedKind × Stamped)),
      (SnapshotBook.create 1 1 = .ok mi₀ ∧ mi₀.applyAll ms = .ok mi ∧ Consumer.create 8 = .ok c₀ ∧
        c₀.onMessage .incremental m = .ok c ∧ Received c₀ c log ∧ c.state = .recovering ∧
        ∀ q, mi.lastSeq < q → (q ∈ c.incrementals.keys ↔ q ≤ 2)) ∧
      ∃ o, c.feedAll (mi.cycle.map (.snapshot, ·)) = .ok ⟨3, .normal, {}, {}, o⟩ ∧
        o.toList = [SnapshotBook.marker .clear noOrder 0, ⟨.add, 1, 0, .buy, 100, 10, 1⟩, m.update] := by
  intro ms m
  have htail : ∀ q : UInt64, (1 : UInt64) < q → (q ∈ [(2 : UInt64)] ↔ q ≤ 2) := by
    intro q hq
    rw [List.mem_singleton]
    constructor
    · rintro rfl
      decide
    · intro h2
      rw [UInt64.lt_iff_toNat_lt] at hq
      rw [UInt64.le_iff_toNat_le] at h2
      apply UInt64.toNat_inj.1
      simp only [UInt64.reduceToNat] at hq h2 ⊢
      omega
  have hc := Received.step Received.start
    (show Consumer.onMessage ⟨1, .normal, {}, {}, ⟨Array.replicate 8 default, 0, 0, 0⟩⟩ .incremental m =
      _ from rfl)
  refine ⟨_, _, _, _, _, ⟨rfl, rfl, rfl, rfl, hc, rfl, htail⟩, ?_⟩
  obtain ⟨-, -, o, ho, hl⟩ := @resyncs_on_published_cycle _ _ 1 1 8 _ _ ms rfl rfl (by decide)
    (by decide) _ rfl hc rfl 2 (by decide) (by decide) htail (by decide)
  exact ⟨o, ho, by rw [hl]; rfl⟩

end Consumer

end Exchange
