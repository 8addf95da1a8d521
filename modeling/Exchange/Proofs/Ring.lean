import Mathlib.Data.Nat.ModEq
import Exchange.Ring

/-!
# Rings are first in, first out

`Ring.WF` is what every ring keeps: it has slots, holds no more elements than slots, its read
cursor is a slot, and its write cursor stands `len` slots past the read cursor, around the circle.
Creation establishes it.

Under it, the slots `0, 1, …, len - 1` past the read cursor are distinct and the write cursor is
the next one, so writing there leaves the unread elements alone (`WF.write`), a commit appends the
write slot to `toList` (`WF.commitWrite`), a push appends its element (`WF.push`), and pushing
several appends them in order (`WF.pushAll`).

`Ring.Run r sent taken` is a run of the two halves in any interleaving, with what the writer
published and what the reader released. The main statement, `Ring.first_in_first_out`: along every
run the ring holds what was published and not yet released, oldest first, and each half faults
exactly when the ring is full or empty.
-/

namespace Exchange.Ring

variable {α : Type} [Inhabited α] {r r' : Ring α} {v : α}

/-- The cursors and the count agree with the circle of slots. -/
structure WF (r : Ring α) : Prop where
  pos : 0 < r.capacity
  len_le : r.len ≤ r.capacity
  nextRead_lt : r.nextRead < r.capacity
  nextWrite_eq : r.nextWrite = (r.nextRead + r.len) % r.capacity

theorem create_eq {n : Nat} (h : create n = .ok r) :
    0 < n ∧ r = { slots := Array.replicate n default, len := 0, nextWrite := 0, nextRead := 0 } := by
  unfold create at h
  split at h
  · cases h
  · cases h; exact ⟨by omega, rfl⟩

theorem wf_create {n : Nat} (h : create n = .ok r) : r.WF := by
  obtain ⟨hn, rfl⟩ := create_eq h
  exact ⟨by simpa [capacity] using hn, Nat.zero_le _, by simpa [capacity] using hn, by simp⟩

@[simp] theorem toList_create {n : Nat} (h : create n = .ok r) : r.toList = [] := by
  obtain ⟨-, rfl⟩ := create_eq h
  rfl

theorem toList_eq (r : Ring α) :
    r.toList = (List.range r.len).map fun k => (r.slots[(r.nextRead + k) % r.capacity]?).getD default :=
  rfl

theorem mod_ne_of_lt {a k n c : Nat} (hk : k < n) (hn : n < c) : (a + k) % c ≠ (a + n) % c := by
  intro h
  have h' : k % c = n % c := Nat.ModEq.add_left_cancel' a h
  rw [Nat.mod_eq_of_lt (by omega), Nat.mod_eq_of_lt hn] at h'
  omega

/-- The element under the write cursor: what a commit publishes. -/
def writeSlot (r : Ring α) : α := (r.slots[r.nextWrite]?).getD default

omit [Inhabited α] in
theorem write_eq (h : r.write v = .ok r') :
    r.len < r.capacity ∧ r' = { r with slots := r.slots.set! r.nextWrite v } := by
  unfold write at h
  split at h
  · cases h; exact ⟨‹_›, rfl⟩
  · cases h

omit [Inhabited α] in
theorem commitWrite_eq (h : r.commitWrite = .ok r') :
    r.len < r.capacity ∧
      r' = { r with nextWrite := (r.nextWrite + 1) % r.capacity, len := r.len + 1 } := by
  unfold commitWrite advance at h
  split at h
  · cases h; exact ⟨‹_›, rfl⟩
  · cases h

omit [Inhabited α] in
@[simp] theorem size_set! (xs : Array α) (i : Nat) (v : α) : (xs.set! i v).size = xs.size := by
  rw [Array.set!_eq_setIfInBounds, Array.size_setIfInBounds]

/-- **Filling the write slot leaves the unread elements alone**: while the ring is not full, the
write slot is none of theirs. -/
theorem WF.write (hw : r.WF) (h : r.write v = .ok r') :
    r'.WF ∧ r'.toList = r.toList ∧ r'.writeSlot = v := by
  obtain ⟨hlt, rfl⟩ := write_eq h
  have hwlt : r.nextWrite < r.slots.size := by
    rw [hw.nextWrite_eq]; exact Nat.mod_lt _ hw.pos
  have hget : ∀ j, (r.slots.set! r.nextWrite v)[j]? =
      if r.nextWrite = j then some v else r.slots[j]? := by
    intro j
    rw [Array.set!_eq_setIfInBounds, Array.getElem?_setIfInBounds]
    simp [hwlt]
  refine ⟨⟨by simpa [capacity] using hw.pos, by simpa [capacity] using hw.len_le,
    by simpa [capacity] using hw.nextRead_lt, by simpa [capacity] using hw.nextWrite_eq⟩, ?_, ?_⟩
  · simp only [toList_eq, capacity, size_set!]
    refine List.map_congr_left fun k hk => ?_
    rw [hget, if_neg]
    rw [hw.nextWrite_eq]
    exact (mod_ne_of_lt (List.mem_range.1 hk) hlt).symm
  · simp only [writeSlot]
    rw [hget, if_pos rfl]
    rfl

/-- **A commit publishes the write slot** after the unread elements. -/
theorem WF.commitWrite (hw : r.WF) (h : r.commitWrite = .ok r') :
    r'.WF ∧ r'.toList = r.toList ++ [r.writeSlot] := by
  obtain ⟨hlt, rfl⟩ := commitWrite_eq h
  have hpos := hw.pos
  refine ⟨⟨hpos, by simp only [capacity] at hlt ⊢; omega, hw.nextRead_lt, ?_⟩, ?_⟩
  · -- the write cursor moves one slot on, as the count grows by one
    show (r.nextWrite + 1) % r.capacity = (r.nextRead + (r.len + 1)) % r.capacity
    rw [hw.nextWrite_eq, Nat.mod_add_mod, Nat.add_assoc]
  · have hnw : r.nextWrite = (r.nextRead + r.len) % r.slots.size := hw.nextWrite_eq
    simp only [toList_eq, capacity, List.range_succ, List.map_append, List.map_singleton]
    rw [← hnw]
    rfl

/-- **A push appends its element** to the unread ones, and keeps the ring well formed. -/
theorem WF.push (hw : r.WF) (h : r.push v = .ok r') : r'.WF ∧ r'.toList = r.toList ++ [v] := by
  simp only [Ring.push, bind, Except.bind] at h
  split at h
  · cases h
  · rename_i r₁ h₁
    obtain ⟨hw₁, hl₁, hv⟩ := hw.write h₁
    obtain ⟨hw', hl'⟩ := hw₁.commitWrite h
    exact ⟨hw', by rw [hl', hl₁, hv]⟩

theorem WF.drain (hw : r.WF) : r.drain.1 = r.toList ∧ r.drain.2.WF ∧ r.drain.2.toList = [] := by
  refine ⟨rfl, ⟨hw.pos, Nat.zero_le _, Nat.mod_lt _ hw.pos, ?_⟩, rfl⟩
  show r.nextWrite = ((r.nextRead + r.len) % r.capacity + 0) % r.capacity
  rw [Nat.add_zero, Nat.mod_mod]
  exact hw.nextWrite_eq

theorem pop_of_ne_zero (h : r.len ≠ 0) :
    r.pop = (some ((r.slots[r.nextRead]?).getD default),
      { r with nextRead := (r.nextRead + 1) % r.capacity, len := r.len - 1 }) := by
  simp [pop, peek, commitRead, advance, h]

/-- **A pop takes the oldest unread element**, if there is one, and keeps the ring well formed. -/
theorem WF.pop (hw : r.WF) : r.pop.2.WF ∧ r.toList = r.pop.1.toList ++ r.pop.2.toList := by
  by_cases h0 : r.len = 0
  · have hpop : r.pop = (none, r) := by simp [Ring.pop, peek, commitRead, h0]
    rw [hpop]
    exact ⟨hw, rfl⟩
  · rw [pop_of_ne_zero h0]
    have hpos := hw.pos
    have hrd := hw.nextRead_lt
    have hle := hw.len_le
    refine ⟨⟨hpos, by simp only [capacity] at hle ⊢; omega, Nat.mod_lt _ hpos, ?_⟩, ?_⟩
    · -- the write cursor stays `len` slots past the read cursor
      show r.nextWrite = ((r.nextRead + 1) % r.capacity + (r.len - 1)) % r.capacity
      rw [hw.nextWrite_eq, Nat.mod_add_mod, Nat.add_assoc, Nat.add_sub_cancel' (Nat.pos_of_ne_zero h0)]
    · obtain ⟨n, hn⟩ := Nat.exists_eq_succ_of_ne_zero h0
      simp only [toList_eq, hn, List.range_succ_eq_map, List.map_cons, List.map_map, Nat.add_zero,
        Nat.mod_eq_of_lt hrd, Option.toList_some, List.singleton_append]
      congr 1
      refine List.map_congr_left fun k _ => ?_
      simp only [Function.comp_apply, capacity]
      rw [Nat.mod_add_mod, Nat.add_assoc, Nat.add_comm 1 k]

@[simp] theorem length_toList (r : Ring α) : r.toList.length = r.len := by
  simp [toList_eq]

theorem peek_eq_none : r.peek = none ↔ r.len = 0 := by
  unfold peek
  split <;> simp [*]

/-- **Looking at the oldest element and then releasing it** takes it off the front of `toList`. -/
theorem WF.peek_commitRead (hw : r.WF) (h : r.peek = some v) :
    ∃ r', r.commitRead = .ok r' ∧ r'.WF ∧ r.toList = v :: r'.toList ∧ r'.len + 1 = r.len := by
  have h0 : r.len ≠ 0 := fun h0 => by simp [peek, h0] at h
  have hv : (r.slots[r.nextRead]?).getD default = v := by simpa [peek, h0] using h
  obtain ⟨hw', hl⟩ := hw.pop
  rw [pop_of_ne_zero h0, hv] at hw' hl
  exact ⟨_, by simp [commitRead, advance, h0], hw', hl, by simp only; omega⟩

/-- **Pushing several elements appends them in order.** -/
theorem WF.pushAll {vs : List α} (hw : r.WF) (h : r.pushAll vs = .ok r') :
    r'.WF ∧ r'.toList = r.toList ++ vs := by
  induction vs generalizing r with
  | nil =>
    cases h
    exact ⟨hw, (List.append_nil _).symm⟩
  | cons v vs ih =>
    simp only [pushAll, bind, Except.bind] at h
    split at h
    · cases h
    · rename_i r₁ h₁
      obtain ⟨hw₁, hl₁⟩ := hw.push h₁
      obtain ⟨hw', hl'⟩ := ih hw₁ h
      exact ⟨hw', by rw [hl', hl₁, List.append_assoc, List.singleton_append]⟩

/-! ## Runs of the two halves -/

omit [Inhabited α] in
theorem write_eq_error_iff (hw : r.WF) (v : α) :
    (∃ f, r.write v = .error f) ↔ r.len = r.capacity := by
  have := hw.len_le
  unfold write
  split <;> simp <;> omega

omit [Inhabited α] in
theorem commitWrite_eq_error_iff (hw : r.WF) : (∃ f, r.commitWrite = .error f) ↔ r.len = r.capacity := by
  have := hw.len_le
  unfold commitWrite
  split <;> simp <;> omega

omit [Inhabited α] in
theorem push_eq_error_iff (hw : r.WF) (v : α) :
    (∃ f, r.push v = .error f) ↔ r.len = r.capacity := by
  rw [← write_eq_error_iff hw v]
  cases hwr : r.write v with
  | error f => simp [Ring.push, bind, Except.bind, hwr]
  | ok r₁ =>
    obtain ⟨hlt, rfl⟩ := write_eq hwr
    have hlt' : r.len < r.slots.size := hlt
    simp [Ring.push, bind, Except.bind, hwr, commitWrite, capacity, hlt']

omit [Inhabited α] in
theorem commitRead_eq_error_iff : (∃ f, r.commitRead = .error f) ↔ r.len = 0 := by
  unfold commitRead
  split <;> simp [*]

omit [Inhabited α] in
theorem capacity_push (h : r.push v = .ok r') : r'.capacity = r.capacity := by
  simp only [Ring.push, bind, Except.bind] at h
  split at h
  · cases h
  · rename_i r₁ h₁
    obtain ⟨-, rfl⟩ := write_eq h₁
    obtain ⟨-, rfl⟩ := commitWrite_eq h
    exact size_set! _ _ _

/-- **A ring with room takes every push**: elements that fit are all pushed. -/
theorem WF.pushAll_of_room {vs : List α} (hw : r.WF) (hroom : r.len + vs.length ≤ r.capacity) :
    ∃ r', r.pushAll vs = .ok r' := by
  induction vs generalizing r with
  | nil => exact ⟨r, rfl⟩
  | cons v vs ih =>
    rw [List.length_cons] at hroom
    cases hp : r.push v with
    | error f => exact absurd ((push_eq_error_iff hw v).1 ⟨f, hp⟩) (by omega)
    | ok r₁ =>
      obtain ⟨hw₁, hl₁⟩ := hw.push hp
      have hlen : r₁.len = r.len + 1 := by
        rw [← length_toList, hl₁, List.length_append, length_toList, List.length_singleton]
      obtain ⟨r', h'⟩ := ih hw₁ (by rw [hlen, capacity_push hp]; omega)
      refine ⟨r', ?_⟩
      rw [Ring.pushAll, hp]
      exact h'

omit [Inhabited α] in
theorem push_eq_error {f : Fault} (h : r.push v = .error f) :
    f = .ringLapped r.capacity ∨ f = .ringCommitFull := by
  simp only [Ring.push, bind, Except.bind] at h
  split at h
  · rename_i hw
    cases h
    unfold write at hw
    split at hw
    · cases hw
    · cases hw
      exact .inl rfl
  · unfold commitWrite at h
    split at h
    · cases h
    · cases h
      exact .inr rfl

omit [Inhabited α] in
theorem pushAll_eq_error {vs : List α} {f : Fault} (h : r.pushAll vs = .error f) :
    f = .ringLapped r.capacity ∨ f = .ringCommitFull := by
  induction vs generalizing r with
  | nil => cases h
  | cons v vs ih =>
    rw [Ring.pushAll] at h
    cases hp : r.push v with
    | error f' =>
      rw [hp] at h
      cases h
      exact push_eq_error hp
    | ok r₁ =>
      rw [hp] at h
      rw [← capacity_push hp]
      exact ih h

theorem WF.peek_eq_head? (hw : r.WF) : r.peek = r.toList.head? := by
  unfold peek
  split
  · rename_i h0
    simp [toList_eq, h0]
  · rename_i h0
    obtain ⟨n, hn⟩ := Nat.exists_eq_succ_of_ne_zero h0
    simp [toList_eq, hn, List.range_succ_eq_map, Nat.mod_eq_of_lt hw.nextRead_lt]

/-- The rings the two halves reach from a new ring by calls that complete, with what the writer
published, oldest first, and what the reader released. A commit publishes the content of the
write slot, whatever the writes before it left there; a push publishes its value. A read commit
releases the element the reader sees before it; a pop releases the element it returns. Looking
at the oldest element, and a pop of an empty ring, change nothing. -/
inductive Run : Ring α → List α → List α → Prop
  | create {n : Nat} {r : Ring α} : Ring.create n = .ok r → Run r [] []
  | write {r r' : Ring α} {sent taken : List α} {v : α} :
      Run r sent taken → r.write v = .ok r' → Run r' sent taken
  | commitWrite {r r' : Ring α} {sent taken : List α} :
      Run r sent taken → r.commitWrite = .ok r' → Run r' (sent ++ [r.writeSlot]) taken
  | push {r r' : Ring α} {sent taken : List α} {v : α} :
      Run r sent taken → r.push v = .ok r' → Run r' (sent ++ [v]) taken
  | commitRead {r r' : Ring α} {sent taken : List α} {v : α} :
      Run r sent taken → r.peek = some v → r.commitRead = .ok r' → Run r' sent (taken ++ [v])
  | pop {r r' : Ring α} {sent taken : List α} {v : α} :
      Run r sent taken → r.pop = (some v, r') → Run r' sent (taken ++ [v])

/-- The ring is well formed and holds, oldest first, what was published and not yet released. -/
structure Fifo (r : Ring α) (sent taken : List α) : Prop where
  wf : r.WF
  sent_eq : sent = taken ++ r.toList

variable {sent taken : List α}

theorem Run.fifo (hr : Run r sent taken) : Fifo r sent taken := by
  induction hr with
  | create hc => exact ⟨wf_create hc, by simp [toList_create hc]⟩
  | write _ h ih =>
    obtain ⟨hw, hl, -⟩ := ih.wf.write h
    exact ⟨hw, by rw [hl]; exact ih.sent_eq⟩
  | commitWrite _ h ih =>
    obtain ⟨hw, hl⟩ := ih.wf.commitWrite h
    exact ⟨hw, by rw [hl, ih.sent_eq, List.append_assoc]⟩
  | push _ h ih =>
    obtain ⟨hw, hl⟩ := ih.wf.push h
    exact ⟨hw, by rw [hl, ih.sent_eq, List.append_assoc]⟩
  | commitRead _ hp h ih =>
    obtain ⟨r₁, hc, hw, hl, -⟩ := ih.wf.peek_commitRead hp
    rw [h, Except.ok.injEq] at hc
    subst hc
    exact ⟨hw, by rw [ih.sent_eq, hl, List.append_assoc, List.singleton_append]⟩
  | pop _ h ih =>
    obtain ⟨hw, hl⟩ := ih.wf.pop
    rw [h] at hw hl
    exact ⟨hw, by rw [ih.sent_eq, hl, Option.toList_some, List.append_assoc]⟩

/-- **A ring is a first-in first-out queue.** Along every run of its two halves from a new ring,
the ring holds the published elements not yet released, oldest first, so the `k`-th element
released is the `k`-th published. Its count is the number published less the number released, at
most the capacity, and the write cursor stands that many slots past the read cursor. The reader
sees nothing exactly when the count is zero, and otherwise the oldest element. Filling the write
slot, pushing and committing a write fault exactly when the ring is full; committing a read faults
exactly when it is empty. -/
theorem first_in_first_out (hr : Run r sent taken) :
    sent = taken ++ r.toList ∧
    (∀ k, k < taken.length → taken[k]? = sent[k]?) ∧
    r.len = sent.length - taken.length ∧ r.len ≤ r.capacity ∧
    r.nextWrite = (r.nextRead + r.len) % r.capacity ∧
    (r.peek = none ↔ r.len = 0) ∧ r.peek = r.toList.head? ∧
    (∀ v, (∃ f, r.write v = .error f) ↔ r.len = r.capacity) ∧
    (∀ v, (∃ f, r.push v = .error f) ↔ r.len = r.capacity) ∧
    ((∃ f, r.commitWrite = .error f) ↔ r.len = r.capacity) ∧
    ((∃ f, r.commitRead = .error f) ↔ r.len = 0) := by
  obtain ⟨hw, hsent⟩ := hr.fifo
  have hlen : sent.length = taken.length + r.len := by
    rw [hsent, List.length_append, length_toList]
  refine ⟨hsent, fun k hk => ?_, by omega, hw.len_le, hw.nextWrite_eq, peek_eq_none,
    hw.peek_eq_head?, write_eq_error_iff hw, push_eq_error_iff hw, commitWrite_eq_error_iff hw,
    commitRead_eq_error_iff⟩
  rw [hsent, List.getElem?_append_left hk]

/-- Two slots: push 1 and 2, pop, then push 3 into the slot the pop freed. The ring holds 2 and
then 3. -/
theorem wrapped_ring_holds_in_order :
    Run (⟨#[3, 2], 2, 1, 1⟩ : Ring Nat) [1, 2, 3] [1] ∧ (⟨#[3, 2], 2, 1, 1⟩ : Ring Nat).toList = [2, 3] := by
  have hr : Run (⟨#[3, 2], 2, 1, 1⟩ : Ring Nat) [1, 2, 3] [1] :=
    .push (.pop (.push (.push (.create (show Ring.create 2 = .ok ⟨#[0, 0], 0, 0, 0⟩ from rfl))
      rfl) rfl) rfl) rfl
  exact ⟨hr, (List.append_cancel_left (first_in_first_out hr).1.symm)⟩

end Exchange.Ring
