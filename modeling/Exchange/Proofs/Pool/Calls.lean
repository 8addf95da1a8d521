import Mathlib.Logic.Function.Basic
import Exchange.Proofs.Pool

/-!
# Calls on a pool, and what they hand back

A client of a pool makes calls (`Pool.Call`): allocate a value or try to, deallocate a slot, read
a slot, replace its value, ask whether it is free. `Pool.call` answers one call with a
`Pool.Reply`, or faults. `Pool.Run p h` says that `p` is reached from a new pool by the calls `h`,
oldest first, each with its reply.

What the client can know of the slots is `Pool.held h`: for each slot, the value the calls put
there last, if they handed the slot out and did not take it back. Along every run the pool's slots
hold exactly that (`Run.stores`). With the scan lemma `scan_eq_some`, which says the scan stops at
the first free slot in circular order, this gives the main statement `Pool.meets_specification`:
allocation takes the first free slot from the cursor, which no earlier allocation still holds,
and deallocation and reads give back the value the calls last stored.
-/

namespace Exchange.Pool

variable {α : Type}

/-! ## Calls and their replies -/

/-- One call on a pool. -/
inductive Call (α : Type) where
  | allocate (value : α)
  | tryAllocate (value : α)
  | deallocate (index : Nat)
  | get (index : Nat)
  | set (index : Nat) (value : α)
  | isFreeAt (index : Nat)
  deriving Repr

/-- What a call returns: a slot, a slot or none, a value, nothing, or whether a slot is free. -/
inductive Reply (α : Type) where
  | index (i : Nat)
  | found (i : Option Nat)
  | value (v : α)
  | done
  | free (b : Bool)
  deriving Repr

/-- Answers one call: the reply and the pool after it, or the fault that stops the caller. -/
def call (p : Pool α) : Call α → Except Fault (Reply α × Pool α)
  | .allocate v => (p.allocate v).map fun (i, p') => (.index i, p')
  | .tryAllocate v =>
    match p.tryAllocate v with
    | some (i, p') => .ok (.found (some i), p')
    | none => .ok (.found none, p)
  | .deallocate i => (p.release i).map fun (v, p') => (.value v, p')
  | .get i => (p.get i).map fun v => (.value v, p)
  | .set i v => (p.set i v).map fun p' => (.done, p')
  | .isFreeAt i => (p.isFreeAt i).map fun b => (.free b, p)

/-- What a completed call tells its client about the slots: an allocation puts its value in the
slot it returns, a replacement puts its value in its slot, a deallocation empties its slot. -/
def record (m : Nat → Option α) : Call α × Reply α → Nat → Option α
  | (.allocate v, .index i) => Function.update m i (some v)
  | (.tryAllocate v, .found (some i)) => Function.update m i (some v)
  | (.deallocate i, .value _) => Function.update m i none
  | (.set i v, .done) => Function.update m i (some v)
  | _ => m

/-- For each slot, the value the calls `h` stored there last, if they handed the slot out and
did not take it back. -/
def held (h : List (Call α × Reply α)) : Nat → Option α :=
  h.foldl record fun _ => none

@[simp] theorem held_nil : held ([] : List (Call α × Reply α)) = fun _ => none := rfl

@[simp] theorem held_append_singleton (h : List (Call α × Reply α)) (e : Call α × Reply α) :
    held (h ++ [e]) = record (held h) e := by
  simp [held]

/-- The pools that completed calls reach from a new pool, with those calls and their replies. -/
inductive Run : Pool α → List (Call α × Reply α) → Prop
  | create {n : Nat} {p : Pool α} : Pool.create n = .ok p → Run p []
  | step {p p' : Pool α} {h : List (Call α × Reply α)} {c : Call α} {r : Reply α} :
      Run p h → p.call c = .ok (r, p') → Run p' (h ++ [(c, r)])

/-! ## The scan stops at the first free slot -/

variable {p p' : Pool α}

theorem following_add_mod {i : Nat} (hi : i < p.capacity) (k : Nat) :
    (p.following i + k) % p.capacity = (i + (k + 1)) % p.capacity := by
  rw [following_eq_mod hi, Nat.mod_add_mod, Nat.add_assoc, Nat.add_comm 1 k]

/-- **What the scan finds** is the first free slot in circular order from where it starts: `k`
slots past it, fewer than the fuel, with every slot before it in use. -/
theorem scan_eq_some : ∀ {n i j : Nat}, i < p.capacity → p.scan i n = some j →
    ∃ k < n, j = (i + k) % p.capacity ∧ p.freeAt j = true ∧
      ∀ m < k, p.freeAt ((i + m) % p.capacity) = false
  | 0, _, _, _, h => by simp [scan] at h
  | n + 1, i, j, hi, h => by
    simp only [scan] at h
    split at h
    · rename_i hfree
      cases h
      refine ⟨0, Nat.succ_pos n, by rw [Nat.add_zero, Nat.mod_eq_of_lt hi], hfree, ?_⟩
      intro m hm
      exact absurd hm (Nat.not_lt_zero m)
    · rename_i hbusy
      obtain ⟨k, hk, rfl, hfree, hbefore⟩ := scan_eq_some (following_lt hi) h
      refine ⟨k + 1, by omega, following_add_mod hi k, hfree, ?_⟩
      intro m hm
      cases m with
      | zero => rw [Nat.add_zero, Nat.mod_eq_of_lt hi]; simpa using hbusy
      | succ m => rw [← following_add_mod hi m]; exact hbefore m (by omega)

/-- Slot `i` is the first free slot in circular order from the cursor: `k` slots past it, with
every slot before it in use. -/
def FirstFree (p : Pool α) (i : Nat) : Prop :=
  ∃ k < p.capacity, i = (p.nextFree + k) % p.capacity ∧ p.freeAt i = true ∧
    ∀ m < k, p.freeAt ((p.nextFree + m) % p.capacity) = false

theorem scan_of_tryAllocate {v : α} {i : Nat} (h : p.tryAllocate v = some (i, p')) :
    p.scan p.nextFree p.capacity = some i := by
  unfold tryAllocate at h
  split at h
  · cases h
  · split at h
    · cases h
    · rename_i j hj
      cases h
      exact hj

theorem firstFree_of_tryAllocate (hp : p.Inv) {v : α} {i : Nat} (h : p.tryAllocate v = some (i, p')) :
    p.FirstFree i :=
  scan_eq_some hp.nextFree_lt (scan_of_tryAllocate h)

/-! ## The slots hold what the calls stored -/

/-- The pool is consistent, and each slot holds what the calls stored there last. -/
structure Stores (p : Pool α) (h : List (Call α × Reply α)) : Prop where
  inv : p.Inv
  held_eq : ∀ i, (p.slots[i]?).join = held h i

variable {h : List (Call α × Reply α)}

theorem stores_create {n : Nat} (hc : Pool.create n = .ok p) : Stores p [] := by
  refine ⟨inv_create hc, fun i => ?_⟩
  obtain ⟨-, rfl⟩ := create_eq hc
  rw [Array.getElem?_replicate]
  split <;> rfl

theorem join_set! {xs : Array (Option α)} {i : Nat} (hi : i < xs.size) (x : Option α) (j : Nat) :
    ((xs.set! i x)[j]?).join = Function.update (fun j => (xs[j]?).join) i x j := by
  rw [getElem?_set!_of_lt hi, Function.update_apply]
  by_cases hij : i = j
  · subst hij; simp
  · rw [if_neg hij, if_neg (Ne.symm hij)]

theorem Stores.held_update (hs : Stores p h) {i : Nat} (hi : i < p.slots.size) (x : Option α)
    (j : Nat) : ((p.slots.set! i x)[j]?).join = Function.update (held h) i x j := by
  rw [join_set! hi]
  congr 1
  funext k
  exact hs.held_eq k

theorem Stores.fill (hs : Stores p h) {v : α} {i : Nat} (ha : p.tryAllocate v = some (i, p'))
    {e : Call α × Reply α} (he : record (held h) e = Function.update (held h) i (some v)) :
    Stores p' (h ++ [e]) := by
  obtain ⟨hi, -, rfl⟩ := tryAllocate_eq_some hs.inv ha
  refine ⟨inv_tryAllocate hs.inv ha, fun j => ?_⟩
  rw [held_append_singleton, he]
  exact hs.held_update hi (some v) j

theorem Stores.same (hs : Stores p h) {e : Call α × Reply α} (he : record (held h) e = held h) :
    Stores p (h ++ [e]) :=
  ⟨hs.inv, fun j => by rw [held_append_singleton, he]; exact hs.held_eq j⟩

/-- **One call keeps what the pool stores** in step with what the calls record. -/
theorem Stores.call (hs : Stores p h) {c : Call α} {r : Reply α} (hc : p.call c = .ok (r, p')) :
    Stores p' (h ++ [(c, r)]) := by
  cases c with
  | allocate v =>
    cases ha : p.allocate v with
    | error f => simp [Pool.call, ha, Except.map] at hc
    | ok x =>
      obtain ⟨i, p₁⟩ := x
      simp only [Pool.call, ha, Except.map, Except.ok.injEq, Prod.mk.injEq] at hc
      obtain ⟨rfl, rfl⟩ := hc
      exact hs.fill (allocate_eq_ok.1 ha) (by simp [record])
  | tryAllocate v =>
    cases ha : p.tryAllocate v with
    | none =>
      simp only [Pool.call, ha, Except.ok.injEq, Prod.mk.injEq] at hc
      obtain ⟨rfl, rfl⟩ := hc
      exact hs.same (by simp [record])
    | some x =>
      obtain ⟨i, p₁⟩ := x
      simp only [Pool.call, ha, Except.ok.injEq, Prod.mk.injEq] at hc
      obtain ⟨rfl, rfl⟩ := hc
      exact hs.fill ha (by simp [record])
  | deallocate i =>
    cases hd : p.release i with
    | error f => simp [Pool.call, hd, Except.map] at hc
    | ok x =>
      obtain ⟨v, p₁⟩ := x
      simp only [Pool.call, hd, Except.map, Except.ok.injEq, Prod.mk.injEq] at hc
      obtain ⟨rfl, rfl⟩ := hc
      obtain ⟨hv, rfl⟩ := release_eq_ok hd
      refine ⟨inv_vacate hs.inv i, fun j => ?_⟩
      rw [held_append_singleton, vacate_of_used hv]
      simpa [record] using hs.held_update (Array.getElem?_eq_some_iff.1 hv).1 none j
  | get i =>
    cases hg : p.get i with
    | error f => simp [Pool.call, hg, Except.map] at hc
    | ok v =>
      simp only [Pool.call, hg, Except.map, Except.ok.injEq, Prod.mk.injEq] at hc
      obtain ⟨rfl, rfl⟩ := hc
      exact hs.same (by simp [record])
  | set i v =>
    cases hset : p.set i v with
    | error f => simp [Pool.call, hset, Except.map] at hc
    | ok p₁ =>
      simp only [Pool.call, hset, Except.map, Except.ok.injEq, Prod.mk.injEq] at hc
      obtain ⟨rfl, rfl⟩ := hc
      obtain ⟨⟨w, hw⟩, rfl⟩ := set_eq_ok hset
      refine ⟨inv_set hs.inv hset, fun j => ?_⟩
      rw [held_append_singleton]
      simpa [record] using hs.held_update (Array.getElem?_eq_some_iff.1 hw).1 (some v) j
  | isFreeAt i =>
    cases hf : p.isFreeAt i with
    | error f => simp [Pool.call, hf, Except.map] at hc
    | ok b =>
      simp only [Pool.call, hf, Except.map, Except.ok.injEq, Prod.mk.injEq] at hc
      obtain ⟨rfl, rfl⟩ := hc
      exact hs.same (by simp [record])

theorem Run.stores (hr : Run p h) : Stores p h := by
  induction hr with
  | create hc => exact stores_create hc
  | step _ hc ih => exact ih.call hc

/-! ## What each call does along a run -/

variable {v : α} {i : Nat}

theorem tryAllocate_eq_none_iff (hp : p.Inv) (v : α) :
    p.tryAllocate v = none ↔ p.allocated = p.capacity := by
  refine ⟨fun h => ?_, fun h => tryAllocate_eq_none h v⟩
  rcases Nat.lt_or_eq_of_le hp.allocated_le with hlt | heq
  · obtain ⟨j, -, -, hj⟩ := tryAllocate_of_lt hp hlt v
    rw [hj] at h
    cases h
  · exact heq

theorem Stores.tryAllocate (hs : Stores p h) (ha : p.tryAllocate v = some (i, p')) :
    p.FirstFree i ∧ held h i = none ∧
      p' = { slots := p.slots.set! i (some v), nextFree := (i + 1) % p.capacity,
             allocated := p.allocated + 1 } := by
  obtain ⟨hi, hfree, rfl⟩ := tryAllocate_eq_some hs.inv ha
  refine ⟨firstFree_of_tryAllocate hs.inv ha, ?_, by rw [following_eq_mod hi]⟩
  rw [← hs.held_eq i, hfree]
  rfl

theorem allocate_eq_error_iff (hp : p.Inv) (v : α) :
    (∃ f, p.allocate v = .error f) ↔ p.isFull = true := by
  rw [isFull, beq_iff_eq, ← tryAllocate_eq_none_iff hp v]
  unfold allocate
  split <;> simp_all

theorem release_eq_error_iff (i : Nat) :
    (∃ f, p.release i = .error f) ↔ p.capacity ≤ i ∨ p.freeAt i = true := by
  unfold release freeAt capacity
  cases hs : p.slots[i]? with
  | none => simp [Array.getElem?_eq_none_iff.1 hs]
  | some x =>
    have hi : i < p.slots.size := (Array.getElem?_eq_some_iff.1 hs).1
    cases x with
    | none => simp
    | some w => simp [Nat.not_le.2 hi]

theorem Stores.release (hs : Stores p h) (hd : p.release i = .ok (v, p')) :
    held h i = some v ∧ p' = { p with slots := p.slots.set! i none, allocated := p.allocated - 1 } := by
  obtain ⟨hv, rfl⟩ := release_eq_ok hd
  refine ⟨?_, vacate_of_used hv⟩
  rw [← hs.held_eq i, hv]
  rfl

theorem Stores.get (hs : Stores p h) (hi : i < p.capacity) (hu : p.freeAt i = false) :
    ∃ v, held h i = some v ∧ p.get i = .ok v := by
  have hsome : p.slots[i]? = some p.slots[i] := Array.getElem?_eq_getElem hi
  cases hx : p.slots[i] with
  | none => simp [freeAt, hsome, hx] at hu
  | some w =>
    rw [hx] at hsome
    refine ⟨w, ?_, get_of_getElem? hsome⟩
    rw [← hs.held_eq i, hsome]
    rfl

/-- **The pool meets its specification.** Along every run from a new pool, `allocated` counts the
slots in use and the cursor is a slot, and each slot holds the value the calls stored there last,
if they handed it out and did not take it back. An allocation fails exactly when the pool is full.
Otherwise it takes the first free slot in circular order from the cursor, which the calls do not
hold; it stores the value there, counts one more slot, and moves the cursor just past it. A
deallocation faults exactly on a slot beyond the pool or a free one; otherwise it frees the slot
and hands back the value held there. A read of a slot in use gives the value held there. -/
theorem meets_specification (hr : Run p h) :
    p.allocated = p.slots.countP Option.isSome ∧ p.nextFree < p.capacity ∧
    (∀ i, (p.slots[i]?).join = held h i) ∧
    (∀ v, p.tryAllocate v = none ↔ p.allocated = p.capacity) ∧
    (∀ v i p', p.tryAllocate v = some (i, p') →
      p.FirstFree i ∧ held h i = none ∧
      p' = { slots := p.slots.set! i (some v), nextFree := (i + 1) % p.capacity,
             allocated := p.allocated + 1 }) ∧
    (∀ v, (∃ f, p.allocate v = .error f) ↔ p.isFull = true) ∧
    (∀ v r, p.allocate v = .ok r ↔ p.tryAllocate v = some r) ∧
    (∀ i, (∃ f, p.release i = .error f) ↔ p.capacity ≤ i ∨ p.freeAt i = true) ∧
    (∀ i v p', p.release i = .ok (v, p') → held h i = some v ∧
      p' = { p with slots := p.slots.set! i none, allocated := p.allocated - 1 }) ∧
    (∀ i, i < p.capacity → p.freeAt i = false → ∃ v, held h i = some v ∧ p.get i = .ok v) := by
  have hs := hr.stores
  exact ⟨hs.inv.allocated_eq, hs.inv.nextFree_lt, hs.held_eq, tryAllocate_eq_none_iff hs.inv,
    fun _ _ _ => hs.tryAllocate, allocate_eq_error_iff hs.inv, fun _ _ => allocate_eq_ok,
    release_eq_error_iff, fun _ _ _ => hs.release, fun _ => hs.get⟩

/-- Three slots, two allocations and the first one freed: the next allocation continues from the
cursor, at slot 2, and leaves the freed slot 0 for later. -/
theorem cursor_passes_freed_slot :
    Run (⟨#[none, some 8, none], 2, 1⟩ : Pool Nat)
      [(.allocate 7, .index 0), (.allocate 8, .index 1), (.deallocate 0, .value 7)] ∧
    (⟨#[none, some 8, none], 2, 1⟩ : Pool Nat).FirstFree 2 := by
  have hr : Run (⟨#[none, some 8, none], 2, 1⟩ : Pool Nat)
      [(.allocate 7, .index 0), (.allocate 8, .index 1), (.deallocate 0, .value 7)] :=
    .step (.step (.step (.create (show Pool.create 3 = .ok ⟨#[none, none, none], 0, 0⟩ from rfl))
      rfl) rfl) rfl
  exact ⟨hr, ((meets_specification hr).2.2.2.2.1 9 2 _ rfl).1⟩

end Exchange.Pool
