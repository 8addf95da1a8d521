import Exchange.Pool

/-!
# Pool bookkeeping

`Pool.Inv` is what every pool keeps: `allocated` counts the slots in use, and the scan cursor is
one of the slots. Creation establishes it; allocation, release and `vacate` keep it.

Under it, allocation fails exactly when the pool is full: the circular scan from the cursor looks
at every slot once (`scan_of_free`), so it always finds a free slot when there is one
(`tryAllocate_of_lt`), and a full pool is refused before the scan (`tryAllocate_eq_none`).

`Holds p es` says what a pool stores, for a client that keeps its own list of values with their
slots: each listed value sits in its slot, every slot in use is listed, and no two entries share a
slot. Filling a free slot adds an entry, and vacating an entry's slot removes it.
-/

namespace Exchange

theorem getElem?_set!_of_lt {α : Type} {xs : Array α} {i j : Nat} {v : α} (hi : i < xs.size) :
    (xs.set! i v)[j]? = if i = j then some v else xs[j]? := by
  simp [Array.set!_eq_setIfInBounds, Array.getElem?_setIfInBounds, hi]

end Exchange

namespace Exchange.Pool

variable {α : Type} {p : Pool α}

/-- The count of slots in use is right, and the cursor is a slot. -/
structure Inv (p : Pool α) : Prop where
  allocated_eq : p.allocated = p.slots.countP Option.isSome
  nextFree_lt : p.nextFree < p.capacity

theorem create_eq {n : Nat} (h : create n = .ok p) :
    0 < n ∧ p = { slots := Array.replicate n none, nextFree := 0, allocated := 0 } := by
  unfold create at h
  split at h
  · cases h
  · split at h
    · cases h
    · cases h; exact ⟨by omega, rfl⟩

theorem inv_create {n : Nat} (h : create n = .ok p) : Inv p := by
  obtain ⟨hn, rfl⟩ := create_eq h
  exact ⟨by simp [Array.countP_replicate], by simpa [capacity] using hn⟩

theorem capacity_create {n : Nat} (h : create n = .ok p) : p.capacity = n := by
  obtain ⟨-, rfl⟩ := create_eq h
  simp [capacity]

theorem lt_nullIndex_of_create {n : Nat} (h : create n = .ok p) : n < nullIndex := by
  unfold create at h
  split at h
  · cases h
  · split at h
    · cases h
    · omega

theorem Inv.allocated_le (hp : Inv p) : p.allocated ≤ p.capacity := by
  rw [hp.allocated_eq]; exact Array.countP_le_size

theorem countP_set! {xs : Array (Option α)} {i : Nat} (h : i < xs.size) (a : Option α) :
    (xs.set! i a).countP Option.isSome =
      xs.countP Option.isSome - (if xs[i].isSome then 1 else 0) + (if a.isSome then 1 else 0) := by
  rw [Array.set!_eq_setIfInBounds, Array.setIfInBounds_def, dif_pos h, Array.countP_set h]

/-! ## The scan -/

theorem following_lt {i : Nat} (h : i < p.capacity) : p.following i < p.capacity := by
  unfold following; split <;> omega

theorem following_eq_mod {i : Nat} (h : i < p.capacity) :
    p.following i = (i + 1) % p.capacity := by
  unfold following
  split
  · rename_i he; rw [he, Nat.mod_self]
  · rw [Nat.mod_eq_of_lt (by omega)]

theorem getElem?_of_freeAt {i : Nat} (hi : i < p.capacity) (h : p.freeAt i = true) :
    p.slots[i]? = some none := by
  unfold freeAt at h
  rw [Array.getElem?_eq_getElem hi] at h ⊢
  simpa [Option.isNone_iff_eq_none] using h

theorem scan_of_free : ∀ (n i k : Nat), i < p.capacity → k < n →
    p.freeAt ((i + k) % p.capacity) = true →
    ∃ j, p.scan i n = some j ∧ p.freeAt j = true ∧ j < p.capacity
  | 0, _, _, _, hk, _ => absurd hk (Nat.not_lt_zero _)
  | n + 1, i, k, hi, hk, hfree => by
    simp only [scan]
    by_cases hi' : p.freeAt i = true
    · exact ⟨i, by simp [hi'], hi', hi⟩
    · rw [if_neg hi']
      cases k with
      | zero => rw [Nat.add_zero, Nat.mod_eq_of_lt hi] at hfree; exact absurd hfree hi'
      | succ k =>
        apply scan_of_free n (p.following i) k (following_lt hi) (by omega)
        rwa [following_eq_mod hi, Nat.mod_add_mod, Nat.add_right_comm, Nat.add_assoc]

theorem exists_free (hp : Inv p) (h : p.allocated < p.capacity) :
    ∃ j, j < p.capacity ∧ p.freeAt j = true := by
  apply Classical.byContradiction
  intro hc
  have hall : p.slots.countP Option.isSome = p.slots.size := by
    rw [Array.countP_eq_size]
    intro a ha
    obtain ⟨j, hj, rfl⟩ := Array.mem_iff_getElem.1 ha
    have hj' : ¬ p.freeAt j = true := fun hf => hc ⟨j, hj, hf⟩
    simp only [freeAt, Array.getElem?_eq_getElem hj, Option.all_some] at hj'
    cases e : p.slots[j] <;> simp_all
  rw [hp.allocated_eq] at h
  exact absurd hall (Nat.ne_of_lt h)

theorem scan_of_lt (hp : Inv p) (h : p.allocated < p.capacity) :
    ∃ j, p.scan p.nextFree p.capacity = some j ∧ p.freeAt j = true ∧ j < p.capacity := by
  obtain ⟨j, hj, hfree⟩ := exists_free hp h
  have hi := hp.nextFree_lt
  by_cases hle : p.nextFree ≤ j
  · refine scan_of_free _ _ (j - p.nextFree) hi (by omega) ?_
    rwa [Nat.add_sub_cancel' hle, Nat.mod_eq_of_lt hj]
  · refine scan_of_free _ _ (j + p.capacity - p.nextFree) hi (by omega) ?_
    rwa [show p.nextFree + (j + p.capacity - p.nextFree) = j + p.capacity by omega,
      Nat.add_mod_right, Nat.mod_eq_of_lt hj]

/-! ## Allocation -/

theorem tryAllocate_eq_none (h : p.allocated = p.capacity) (v : α) : p.tryAllocate v = none := by
  simp [tryAllocate, h]

theorem tryAllocate_of_lt (hp : Inv p) (h : p.allocated < p.capacity) (v : α) :
    ∃ i, i < p.capacity ∧ p.slots[i]? = some none ∧
      p.tryAllocate v = some (i, { slots := p.slots.set! i (some v), nextFree := p.following i,
                                   allocated := p.allocated + 1 }) := by
  obtain ⟨j, hs, hfree, hj⟩ := scan_of_lt hp h
  refine ⟨j, hj, getElem?_of_freeAt hj hfree, ?_⟩
  simp [tryAllocate, Nat.ne_of_lt h, hs]

theorem allocate_eq_ok {v : α} {r : Nat × Pool α} : p.allocate v = .ok r ↔ p.tryAllocate v = some r := by
  unfold allocate; split <;> simp_all

theorem allocate_eq_error {v : α} {f : Fault} (h : p.allocate v = .error f) :
    f = .poolExhausted p.capacity := by
  unfold allocate at h
  split at h
  · cases h
  · cases h
    rfl

theorem inv_tryAllocate {i : Nat} {p' : Pool α} {v : α} (hp : Inv p)
    (h : p.tryAllocate v = some (i, p')) : Inv p' := by
  have hlt : p.allocated < p.capacity := by
    have := hp.allocated_le
    rcases Nat.lt_or_eq_of_le this with hlt | heq
    · exact hlt
    · rw [tryAllocate_eq_none heq] at h; cases h
  obtain ⟨j, hj, hfree, he⟩ := tryAllocate_of_lt hp hlt v
  rw [he] at h
  cases h
  have hfree' : p.slots[i] = none := by
    rw [Array.getElem?_eq_getElem hj] at hfree; exact Option.some.inj hfree
  refine ⟨?_, by simpa [capacity] using following_lt hj⟩
  simp only
  rw [countP_set! hj, hfree', hp.allocated_eq]
  simp

theorem tryAllocate_eq_some {i : Nat} {p' : Pool α} {v : α} (hp : Inv p)
    (h : p.tryAllocate v = some (i, p')) :
    i < p.capacity ∧ p.slots[i]? = some none ∧
      p' = { slots := p.slots.set! i (some v), nextFree := p.following i,
             allocated := p.allocated + 1 } := by
  have hlt : p.allocated < p.capacity := by
    rcases Nat.lt_or_eq_of_le hp.allocated_le with hlt | heq
    · exact hlt
    · rw [tryAllocate_eq_none heq] at h; cases h
  obtain ⟨j, hj, hfree, he⟩ := tryAllocate_of_lt hp hlt v
  rw [he] at h
  cases h
  exact ⟨hj, hfree, rfl⟩

theorem capacity_of_tryAllocate {i : Nat} {p' : Pool α} {v : α} (hp : Inv p)
    (h : p.tryAllocate v = some (i, p')) : p'.capacity = p.capacity := by
  obtain ⟨-, -, rfl⟩ := tryAllocate_eq_some hp h
  simp [capacity]

/-! ## Release -/

theorem vacate_of_used {i : Nat} {v : α} (h : p.slots[i]? = some (some v)) :
    p.vacate i = { p with slots := p.slots.set! i none, allocated := p.allocated - 1 } := by
  simp [vacate, h]

theorem vacate_of_not_used {i : Nat} (h : ∀ v, p.slots[i]? ≠ some (some v)) : p.vacate i = p := by
  unfold vacate
  split
  · rename_i v hv; exact absurd hv (h v)
  · rfl

@[simp] theorem capacity_vacate (i : Nat) : (p.vacate i).capacity = p.capacity := by
  unfold vacate capacity; split <;> simp

theorem inv_vacate (hp : Inv p) (i : Nat) : Inv (p.vacate i) := by
  by_cases hu : ∃ v, p.slots[i]? = some (some v)
  · obtain ⟨v, hv⟩ := hu
    rw [vacate_of_used hv]
    have hi : i < p.slots.size := by
      rcases Nat.lt_or_ge i p.slots.size with h | h
      · exact h
      · rw [Array.getElem?_eq_none h] at hv; cases hv
    have hsome : p.slots[i] = some v := by
      rw [Array.getElem?_eq_getElem hi] at hv; exact Option.some.inj hv
    refine ⟨?_, by simpa [capacity] using hp.nextFree_lt⟩
    simp only
    rw [countP_set! hi, hsome, hp.allocated_eq]
    simp
  · rw [vacate_of_not_used fun v hv => hu ⟨v, hv⟩]; exact hp

theorem getElem?_vacate_of_used {i j : Nat} {v : α} (h : p.slots[i]? = some (some v)) :
    (p.vacate i).slots[j]? = if i = j then some none else p.slots[j]? := by
  rw [vacate_of_used h]
  have hi : i < p.slots.size := by
    rcases Nat.lt_or_ge i p.slots.size with h' | h'
    · exact h'
    · rw [Array.getElem?_eq_none h'] at h; cases h
  simp [Array.getElem?_setIfInBounds, hi]

theorem release_eq_ok {i : Nat} {v : α} {p' : Pool α} (h : p.release i = .ok (v, p')) :
    p.slots[i]? = some (some v) ∧ p' = p.vacate i := by
  unfold release at h
  split at h
  · cases h
  · cases h
  · rename_i w hw
    cases h
    exact ⟨hw, (vacate_of_used hw).symm⟩

/-! ## Reading and replacing a value -/

theorem get_eq_ok {i : Nat} {v : α} (h : p.get i = .ok v) : p.slots[i]? = some (some v) := by
  unfold get at h
  split at h
  · cases h
  · cases h
  · rename_i w hw
    cases h
    exact hw

theorem get_of_getElem? {i : Nat} {v : α} (h : p.slots[i]? = some (some v)) : p.get i = .ok v := by
  simp [get, h]

theorem set_eq_ok {i : Nat} {v : α} {p' : Pool α} (h : p.set i v = .ok p') :
    (∃ w, p.slots[i]? = some (some w)) ∧ p' = { p with slots := p.slots.set! i (some v) } := by
  simp only [set, bind, Except.bind] at h
  split at h
  · cases h
  · rename_i w hw
    cases h
    exact ⟨⟨w, get_eq_ok hw⟩, rfl⟩

theorem capacity_of_set {i : Nat} {v : α} {p' : Pool α} (h : p.set i v = .ok p') :
    p'.capacity = p.capacity := by
  obtain ⟨-, rfl⟩ := set_eq_ok h
  simp [capacity]

theorem inv_set {i : Nat} {v : α} {p' : Pool α} (hp : Inv p) (h : p.set i v = .ok p') : Inv p' := by
  obtain ⟨⟨w, hw⟩, rfl⟩ := set_eq_ok h
  have hi : i < p.slots.size := by
    rcases Nat.lt_or_ge i p.slots.size with h' | h'
    · exact h'
    · rw [Array.getElem?_eq_none h'] at hw; cases hw
  have hsome : p.slots[i] = some w := by
    rw [Array.getElem?_eq_getElem hi] at hw; exact Option.some.inj hw
  have hpos : 0 < p.slots.countP Option.isSome :=
    Array.countP_pos_iff.2 ⟨some w, Array.mem_of_getElem? hw, rfl⟩
  refine ⟨?_, by simpa [capacity] using hp.nextFree_lt⟩
  simp only
  rw [countP_set! hi, hsome, hp.allocated_eq]
  simp only [Option.isSome_some, if_true]
  omega

/-! ## What a pool stores -/

/-- The pool stores exactly the listed values, each in its slot. -/
structure Holds (p : Pool α) (es : List (α × Nat)) : Prop where
  inv : p.Inv
  mem : ∀ e ∈ es, p.slots[e.2]? = some (some e.1)
  used : ∀ i v, p.slots[i]? = some (some v) → ∃ e ∈ es, e.2 = i
  slots_nodup : (es.map Prod.snd).Nodup
  allocated : p.allocated = es.length

theorem holds_create {n : Nat} (h : create n = .ok p) : Holds p [] := by
  obtain ⟨-, rfl⟩ := create_eq h
  refine ⟨inv_create h, by simp, ?_, by simp, rfl⟩
  intro i v hv
  rw [Array.getElem?_replicate] at hv
  split at hv <;> simp at hv

theorem Holds.perm {es es' : List (α × Nat)} (h : Holds p es) (hp : es.Perm es') : Holds p es' where
  inv := h.inv
  mem e he := h.mem e (hp.mem_iff.2 he)
  used i v hv := by
    obtain ⟨e, he, hi⟩ := h.used i v hv
    exact ⟨e, hp.mem_iff.1 he, hi⟩
  slots_nodup := (hp.map Prod.snd).nodup_iff.1 h.slots_nodup
  allocated := h.allocated.trans hp.length_eq

theorem Holds.vacate {e : α × Nat} {es : List (α × Nat)} (h : Holds p (e :: es)) :
    Holds (p.vacate e.2) es := by
  have he := h.mem e List.mem_cons_self
  have hnd := h.slots_nodup
  simp only [List.map_cons, List.nodup_cons] at hnd
  refine ⟨inv_vacate h.inv e.2, ?_, ?_, hnd.2, ?_⟩
  · intro e' he'
    have hne : e.2 ≠ e'.2 := fun hs => hnd.1 (hs ▸ List.mem_map_of_mem he')
    rw [getElem?_vacate_of_used he, if_neg hne]
    exact h.mem e' (List.mem_cons_of_mem _ he')
  · intro i v hv
    rw [getElem?_vacate_of_used he] at hv
    split at hv
    · cases hv
    · obtain ⟨e', he', hi⟩ := h.used i v hv
      rcases List.mem_cons.1 he' with rfl | he'
      · exact absurd hi (by assumption)
      · exact ⟨e', he', hi⟩
  · rw [vacate_of_used he, h.allocated]; simp

theorem Holds.tryAllocate {es : List (α × Nat)} {v : α} {i : Nat} {p' : Pool α} (h : Holds p es)
    (ha : p.tryAllocate v = some (i, p')) : Holds p' ((v, i) :: es) := by
  have hinv' := inv_tryAllocate h.inv ha
  have hlt : p.allocated < p.capacity := by
    rcases Nat.lt_or_eq_of_le h.inv.allocated_le with hlt | heq
    · exact hlt
    · rw [tryAllocate_eq_none heq] at ha; cases ha
  obtain ⟨j, hj, hfree, he⟩ := tryAllocate_of_lt h.inv hlt v
  rw [he] at ha
  cases ha
  have hfresh : ∀ e ∈ es, e.2 ≠ i := fun e he hs => by
    have := h.mem e he
    rw [hs, hfree] at this
    cases this
  have hget : ∀ k, (p.slots.set! i (some v))[k]? = if i = k then some (some v) else p.slots[k]? := by
    intro k
    simp [Array.getElem?_setIfInBounds, show i < p.slots.size from hj]
  refine ⟨hinv', ?_, ?_, ?_, ?_⟩
  · intro e he
    rw [hget]
    rcases List.mem_cons.1 he with rfl | he
    · simp
    · rw [if_neg (Ne.symm (hfresh e he))]; exact h.mem e he
  · intro k w hw
    rw [hget] at hw
    split at hw
    · exact ⟨(v, i), List.mem_cons_self, by assumption⟩
    · obtain ⟨e, he, hk⟩ := h.used k w hw
      exact ⟨e, List.mem_cons_of_mem _ he, hk⟩
  · simp only [List.map_cons, List.nodup_cons, List.mem_map, not_exists, not_and]
    exact ⟨fun e he hs => hfresh e he hs, h.slots_nodup⟩
  · simp [h.allocated]

theorem Holds.vacateAll {es rest : List (α × Nat)} :
    ∀ {p : Pool α}, p.Holds (es ++ rest) → (es.foldl (fun p e => p.vacate e.2) p).Holds rest := by
  induction es with
  | nil => exact id
  | cons e es ih => intro p h; exact ih h.vacate

theorem Holds.length_le {es : List (α × Nat)} (h : Holds p es) : es.length ≤ p.capacity :=
  h.allocated ▸ h.inv.allocated_le

end Exchange.Pool
