import Exchange.Proofs.Pool

/-!
# Chains of linked slots

A doubly linked list threaded through a pool is a list of cells, each a slot and the value it
holds apart from its two links. `chain link b cs a` is what the pool holds for it: each cell's
value with its links set by `link` to the slot before it (`b` before the first) and the slot after
it (`a` after the last). A pool that holds a chain's entries stores the list linked both ways.

An edit of a linked list changes few entries: appending a cell re-links the last one, unlinking a
cell re-links its two neighbours. So the lemmas here read and rewrite one entry of what a pool
holds (`Holds.get_mid`, `Holds.write`, `Holds.release_mid`), split a chain around a cell
(`chain_append`), and walk a held chain from its first slot to the null index (`walk_chain`).

`Pool.map` forgets part of what each slot holds. Allocation and release commute with it, so two
pools that agree under it hand out the same slots.
-/

namespace Exchange.Pool

variable {α β : Type}

/-! ## Cells and chains -/

/-- The first slot of some cells, or `a` if there are none. -/
def firstSlot (cs : List (Nat × α)) (a : Nat) : Nat := (cs.map (·.1)).headD a

/-- The last slot of some cells, or `b` if there are none. -/
def lastSlot (cs : List (Nat × α)) (b : Nat) : Nat := (cs.map (·.1)).getLastD b

/-- The entries, each a value and its slot, that a pool holds for the cells `cs` linked in order,
with the slot `b` before them and the slot `a` after them. -/
def chain (link : α → Nat → Nat → α) : Nat → List (Nat × α) → Nat → List (α × Nat)
  | _, [], _ => []
  | b, c :: cs, a => (link c.2 b (firstSlot cs a), c.1) :: chain link c.1 cs a

variable {link : α → Nat → Nat → α} {a b : Nat} {c : Nat × α} {cs xs ys : List (Nat × α)}

@[simp] theorem firstSlot_nil : firstSlot ([] : List (Nat × α)) a = a := rfl

@[simp] theorem firstSlot_cons : firstSlot (c :: cs) a = c.1 := rfl

@[simp] theorem lastSlot_nil : lastSlot ([] : List (Nat × α)) b = b := rfl

@[simp] theorem lastSlot_cons : lastSlot (c :: cs) b = lastSlot cs c.1 := by
  simp only [lastSlot, List.map_cons, List.getLastD_eq_getLast?, List.getLast?_cons, Option.getD_some]

theorem firstSlot_append : firstSlot (xs ++ ys) a = firstSlot xs (firstSlot ys a) := by
  cases xs <;> rfl

theorem lastSlot_append : lastSlot (xs ++ ys) b = lastSlot ys (lastSlot xs b) := by
  induction xs generalizing b with
  | nil => rfl
  | cons c xs ih => simp [ih]

@[simp] theorem lastSlot_concat : lastSlot (xs ++ [c]) b = c.1 := by
  simp [lastSlot_append]

theorem firstSlot_of_ne_nil (h : cs ≠ []) (a' : Nat) : firstSlot cs a = firstSlot cs a' := by
  cases cs with
  | nil => contradiction
  | cons c cs => rfl

theorem lastSlot_of_ne_nil (h : cs ≠ []) (b' : Nat) : lastSlot cs b = lastSlot cs b' := by
  obtain ⟨cs, c, rfl⟩ := (List.eq_nil_or_concat cs).resolve_left h
  rw [List.concat_eq_append, lastSlot_concat, lastSlot_concat]

theorem firstSlot_mem (h : cs ≠ []) : firstSlot cs a ∈ cs.map (·.1) := by
  cases cs with
  | nil => contradiction
  | cons c cs => simp

theorem lastSlot_mem (h : cs ≠ []) : lastSlot cs b ∈ cs.map (·.1) := by
  obtain ⟨cs, c, rfl⟩ := (List.eq_nil_or_concat cs).resolve_left h
  simp

@[simp] theorem chain_nil : chain link b [] a = [] := rfl

theorem chain_cons : chain link b (c :: cs) a = (link c.2 b (firstSlot cs a), c.1) :: chain link c.1 cs a :=
  rfl

/-- **A chain splits at any point**: the first part ends before the second's first slot, and the
second starts after the first's last slot. -/
theorem chain_append : ∀ (xs : List (Nat × α)) (b : Nat),
    chain link b (xs ++ ys) a = chain link b xs (firstSlot ys a) ++ chain link (lastSlot xs b) ys a
  | [], _ => rfl
  | c :: xs, b => by
    rw [List.cons_append, chain_cons, chain_cons, chain_append xs c.1, firstSlot_append,
      lastSlot_cons, List.cons_append]

theorem chain_middle : chain link b (xs ++ c :: ys) a =
    chain link b xs c.1 ++ (link c.2 (lastSlot xs b) (firstSlot ys a), c.1) :: chain link c.1 ys a := by
  rw [chain_append, chain_cons, firstSlot_cons]

@[simp] theorem map_snd_chain : ∀ (b : Nat) (cs : List (Nat × α)),
    (chain link b cs a).map (·.2) = cs.map (·.1)
  | _, [] => rfl
  | _, c :: cs => by simp [chain_cons, map_snd_chain c.1 cs]

theorem map_chain_of_link {F : α → β} (hF : ∀ v x y, F (link v x y) = F v) :
    ∀ (b : Nat) (cs : List (Nat × α)), (chain link b cs a).map (fun e => F e.1) = cs.map fun c => F c.2
  | _, [] => rfl
  | _, c :: cs => by simp [chain_cons, hF, map_chain_of_link hF c.1 cs]

theorem mem_chain : ∀ {b : Nat} {cs : List (Nat × α)} {e : α × Nat}, e ∈ chain link b cs a →
    ∃ c ∈ cs, ∃ x y, e = (link c.2 x y, c.1)
  | _, [], _, he => absurd he List.not_mem_nil
  | _, c :: cs, _, he => by
    rw [chain_cons, List.mem_cons] at he
    rcases he with rfl | he
    · exact ⟨c, List.mem_cons_self, _, _, rfl⟩
    · obtain ⟨c', hc', x, y, rfl⟩ := mem_chain he
      exact ⟨c', List.mem_cons_of_mem _ hc', x, y, rfl⟩

theorem mem_chain_of_mem (hc : c ∈ cs) (b : Nat) : ∃ x y, (link c.2 x y, c.1) ∈ chain link b cs a := by
  obtain ⟨xs, ys, rfl⟩ := List.append_of_mem hc
  rw [chain_middle]
  exact ⟨_, _, List.mem_append_right _ List.mem_cons_self⟩

@[simp] theorem length_chain (b : Nat) (cs : List (Nat × α)) : (chain link b cs a).length = cs.length := by
  have h : ((chain link b cs a).map (·.2)).length = (cs.map (·.1)).length :=
    congrArg List.length (map_snd_chain b cs)
  rwa [List.length_map, List.length_map] at h

/-! ## Reading and rewriting what a pool holds -/

variable {p : Pool α} {es es₁ es₂ : List (α × Nat)} {v w : α} {i : Nat}

theorem Holds.getElem?_mid (h : p.Holds (es₁ ++ (v, i) :: es₂)) : p.slots[i]? = some (some v) :=
  h.mem (v, i) (by simp)

theorem Holds.get_mid (h : p.Holds (es₁ ++ (v, i) :: es₂)) : p.get i = .ok v :=
  get_of_getElem? h.getElem?_mid

theorem Holds.lt_capacity (h : p.Holds es) {e : α × Nat} (he : e ∈ es) : e.2 < p.capacity := by
  have hs := h.mem e he
  rcases Nat.lt_or_ge e.2 p.slots.size with hlt | hge
  · exact hlt
  · rw [Array.getElem?_eq_none hge] at hs; cases hs

theorem Holds.slot_lt_capacity (h : p.Holds es) (hi : i ∈ es.map (·.2)) : i < p.capacity := by
  obtain ⟨e, he, rfl⟩ := List.mem_map.1 hi
  exact h.lt_capacity he

theorem Holds.ne_nullIndex (h : p.Holds es) (hcap : p.capacity < nullIndex) {e : α × Nat} (he : e ∈ es) :
    e.2 ≠ nullIndex :=
  Nat.ne_of_lt (Nat.lt_trans (h.lt_capacity he) hcap)

theorem Holds.nullIndex_not_mem (h : p.Holds es) (hcap : p.capacity < nullIndex) {slots : List Nat}
    (hsub : slots ⊆ es.map (·.2)) : nullIndex ∉ slots := fun hm =>
  absurd (h.slot_lt_capacity (hsub hm)) (by omega)

/-- **Rewriting one held entry**: a new value in the slot of an entry is held in its place. -/
theorem Holds.write (h : p.Holds (es₁ ++ (v, i) :: es₂)) (w : α) :
    ({ p with slots := p.slots.set! i (some w) } : Pool α).Holds (es₁ ++ (w, i) :: es₂) := by
  have hv := h.getElem?_mid
  have hi : i < p.slots.size := h.lt_capacity (e := (v, i)) (by simp)
  have hnd : (i :: (es₁ ++ es₂).map (·.2)).Nodup := by
    have := h.slots_nodup
    rw [List.map_append, List.map_cons] at this
    simpa using List.perm_middle.nodup_iff.1 this
  have hother : ∀ e ∈ es₁ ++ es₂, e.2 ≠ i := fun e he hei =>
    (List.nodup_cons.1 hnd).1 (hei ▸ List.mem_map_of_mem he)
  have hget : ∀ j, (p.slots.set! i (some w))[j]? = if i = j then some (some w) else p.slots[j]? := by
    intro j
    simp [Array.getElem?_setIfInBounds, hi]
  have hsome : p.slots[i] = some v := by
    rw [Array.getElem?_eq_getElem hi] at hv; exact Option.some.inj hv
  refine ⟨⟨?_, by simpa [capacity] using h.inv.nextFree_lt⟩, ?_, ?_, ?_, by simpa using h.allocated⟩
  · simp only
    rw [countP_set! hi, hsome, h.inv.allocated_eq]
    have hpos : 0 < p.slots.countP Option.isSome :=
      Array.countP_pos_iff.2 ⟨some v, Array.mem_of_getElem? hv, rfl⟩
    simp only [Option.isSome_some, if_true]
    omega
  · intro e he
    rw [hget]
    rcases List.mem_append.1 he with he | he
    · rw [if_neg (Ne.symm (hother e (List.mem_append_left _ he)))]
      exact h.mem e (by simp [he])
    · rcases List.mem_cons.1 he with rfl | he
      · simp
      · rw [if_neg (Ne.symm (hother e (List.mem_append_right _ he)))]
        exact h.mem e (by simp [he])
  · intro j x hx
    rw [hget] at hx
    split at hx
    · exact ⟨(w, i), by simp, by assumption⟩
    · obtain ⟨e, he, hej⟩ := h.used j x hx
      simp only [List.mem_append, List.mem_cons] at he
      rcases he with he | rfl | he
      · exact ⟨e, by simp [he], hej⟩
      · exact absurd hej (by assumption)
      · exact ⟨e, by simp [he], hej⟩
  · simpa using h.slots_nodup

theorem Holds.modify_mid (h : p.Holds (es₁ ++ (v, i) :: es₂)) (f : α → α) :
    p.modify i f = .ok { p with slots := p.slots.set! i (some (f v)) } := by
  simp [modify, h.get_mid, bind, Except.bind, pure, Except.pure]

/-- **Changing one held entry** by `f` succeeds, and the changed value is held in its place. -/
theorem Holds.modify_entry (h : p.Holds (es₁ ++ (v, i) :: es₂)) (f : α → α) :
    ∃ q, p.modify i f = .ok q ∧ q.Holds (es₁ ++ (f v, i) :: es₂) :=
  ⟨_, h.modify_mid f, h.write (f v)⟩

theorem Holds.get_head (h : p.Holds ((v, i) :: es)) : p.get i = .ok v := by
  have h' : p.Holds ([] ++ (v, i) :: es) := h
  exact h'.get_mid

theorem Holds.modify_head (h : p.Holds ((v, i) :: es)) (f : α → α) :
    ∃ q, p.modify i f = .ok q ∧ q.Holds ((f v, i) :: es) := by
  have h' : p.Holds ([] ++ (v, i) :: es) := h
  exact h'.modify_entry f

theorem Holds.set_mid (h : p.Holds (es₁ ++ (v, i) :: es₂)) (w : α) :
    p.set i w = .ok { p with slots := p.slots.set! i (some w) } := by
  simp [set, h.get_mid, bind, Except.bind, pure, Except.pure]

theorem Holds.set_entry (h : p.Holds (es₁ ++ (v, i) :: es₂)) (w : α) :
    ∃ q, p.set i w = .ok q ∧ q.Holds (es₁ ++ (w, i) :: es₂) ∧ q.capacity = p.capacity :=
  ⟨_, h.set_mid w, h.write w, by simp [capacity]⟩

/-- **Releasing a held entry's slot** succeeds, hands back its value and holds the rest. -/
theorem Holds.release_mid (h : p.Holds (es₁ ++ (v, i) :: es₂)) :
    p.release i = .ok (v, p.vacate i) ∧ (p.vacate i).Holds (es₁ ++ es₂) := by
  refine ⟨by simp [release, h.getElem?_mid, vacate_of_used h.getElem?_mid], ?_⟩
  exact (h.perm List.perm_middle).vacate

/-! ## Re-linking the ends of a held chain -/

section Relink

variable {A B : List (α × Nat)} {x y : Nat}

/-- **Re-linking a chain's last cell forwards**: changing its value by `f`, which moves its
forward link to `y`, gives the chain that ends before `y`. -/
theorem Holds.relink_last {f : α → α} (hf : ∀ v p n, f (link v p n) = link v p y)
    (h : p.Holds (A ++ chain link b xs x ++ B)) (hxs : xs ≠ []) :
    ∃ q, p.modify (lastSlot xs b) f = .ok q ∧ q.Holds (A ++ chain link b xs y ++ B) := by
  obtain ⟨xs, c, rfl⟩ := (List.eq_nil_or_concat xs).resolve_left hxs
  rw [List.concat_eq_append] at h ⊢
  have hsplit : ∀ z, A ++ chain link b (xs ++ [c]) z ++ B =
      (A ++ chain link b xs c.1) ++ (link c.2 (lastSlot xs b) z, c.1) :: B := by
    intro z
    simp [chain_append, chain_cons]
  rw [hsplit] at h ⊢
  simpa [hf] using h.modify_entry f

/-- **Re-linking a chain's first cell backwards**: changing its value by `g`, which moves its
backward link to `y`, gives the chain that starts after `y`. -/
theorem Holds.relink_first {g : α → α} (hg : ∀ v p n, g (link v p n) = link v y n)
    (h : p.Holds (A ++ chain link x ys a ++ B)) (hys : ys ≠ []) :
    ∃ q, p.modify (firstSlot ys a) g = .ok q ∧ q.Holds (A ++ chain link y ys a ++ B) := by
  obtain ⟨c, ys, rfl⟩ := List.exists_cons_of_ne_nil hys
  have hsplit : ∀ z, A ++ chain link z (c :: ys) a ++ B =
      A ++ (link c.2 z (firstSlot ys a), c.1) :: (chain link c.1 ys a ++ B) := by
    intro z
    simp [chain_cons]
  rw [hsplit] at h ⊢
  simpa [hg] using h.modify_entry g

end Relink

/-! ## Walking a held chain -/

/-- **Walking a held chain** from its first slot along the forward links visits its cells in
order and stops at the null index, given one step of fuel per cell. -/
theorem walk_chain {next : α → Nat} (hnext : ∀ v x y, next (link v x y) = y) :
    ∀ (b : Nat) (cs : List (Nat × α)) (fuel : Nat),
    (∀ e ∈ chain link b cs nullIndex, p.slots[e.2]? = some (some e.1)) →
    (∀ c ∈ cs, c.1 ≠ nullIndex) → cs.length ≤ fuel →
    p.walk next (firstSlot cs nullIndex) fuel = some ((chain link b cs nullIndex).map fun e => (e.2, e.1))
  | _, [], fuel, _, _, _ => by cases fuel <;> simp [walk]
  | b, c :: cs, fuel + 1, hmem, hnull, hlen => by
    have hc := hmem (link c.2 b (firstSlot cs nullIndex), c.1) (by simp [chain_cons])
    have hrest := walk_chain hnext c.1 cs fuel (fun e he => hmem e (by simp [chain_cons, he]))
      (fun c' hc' => hnull c' (by simp [hc'])) (by simpa using hlen)
    simp only [firstSlot_cons, walk, if_neg (hnull c (by simp)), hc, hnext, hrest, chain_cons,
      List.map_cons, Option.map_some]

/-- **Walking a chain a pool holds first**, from its first slot, visits its cells, given as many
steps as the pool has slots. -/
theorem Holds.walk_front_chain {next : α → Nat} (hnext : ∀ v x y, next (link v x y) = y)
    {rest : List (α × Nat)} (h : p.Holds (chain link b cs nullIndex ++ rest))
    (hcap : p.capacity < nullIndex) :
    p.walk next (firstSlot cs nullIndex) p.capacity =
      some ((chain link b cs nullIndex).map fun e => (e.2, e.1)) := by
  have hlen := h.length_le
  rw [List.length_append, length_chain] at hlen
  refine walk_chain hnext b cs _ (fun e he => h.mem e (List.mem_append_left _ he)) (fun c hc => ?_)
    (by omega)
  obtain ⟨x, y, hxy⟩ : ∃ x y, (link c.2 x y, c.1) ∈ chain link b cs nullIndex := mem_chain_of_mem hc b
  exact h.ne_nullIndex hcap (List.mem_append_left _ hxy)

theorem slots_walked (b : Nat) (cs : List (Nat × α)) :
    ((chain link b cs a).map fun e => (e.2, e.1)).map (·.1) = cs.map (·.1) := by
  rw [List.map_map]
  exact map_snd_chain b cs

/-- A chain a pool holds first has its slots once each. -/
theorem Holds.nodup_walked {rest : List (α × Nat)} (h : p.Holds (chain link b cs a ++ rest)) :
    (((chain link b cs a).map fun e => (e.2, e.1)).map (·.1)).Nodup := by
  have hnd := h.slots_nodup
  rw [List.map_append, List.nodup_append] at hnd
  rw [List.map_map]
  exact hnd.1

theorem firstSlot_walked (b a' : Nat) (cs : List (Nat × α)) :
    firstSlot ((chain link b cs a).map fun e => (e.2, e.1)) a' = firstSlot cs a' := by
  rw [firstSlot, slots_walked, firstSlot]

theorem lastSlot_walked (b b' : Nat) (cs : List (Nat × α)) :
    lastSlot ((chain link b cs a).map fun e => (e.2, e.1)) b' = lastSlot cs b' := by
  rw [lastSlot, slots_walked, lastSlot]

/-- Cells linked both ways after `prev`: each cell's back link names the slot before it (`prev`
for the first) and its forward link the slot after it (the null index after the last). -/
def DoublyLinked (back fwd : α → Nat) : Nat → List (Nat × α) → Prop
  | _, [] => True
  | prev, c :: cs => back c.2 = prev ∧ fwd c.2 = firstSlot cs nullIndex ∧ DoublyLinked back fwd c.1 cs

/-- **A walked chain is linked both ways.** -/
theorem doublyLinked_chain {back fwd : α → Nat} (hback : ∀ v x y, back (link v x y) = x)
    (hfwd : ∀ v x y, fwd (link v x y) = y) :
    ∀ (b : Nat) (cs : List (Nat × α)),
      DoublyLinked back fwd b ((chain link b cs nullIndex).map fun e => (e.2, e.1))
  | _, [] => trivial
  | b, c :: cs => by
    rw [chain_cons, List.map_cons]
    exact ⟨hback _ _ _, by rw [hfwd, firstSlot_walked], doublyLinked_chain hback hfwd c.1 cs⟩

theorem walk_mem {next : α → Nat} : ∀ {j fuel : Nat} {cs : List (Nat × α)},
    p.walk next j fuel = some cs → ∀ e ∈ cs, p.slots[e.1]? = some (some e.2)
  | j, 0, cs, h, e, he => by
    simp only [walk] at h
    split at h
    · cases h
      cases he
    · cases h
  | j, fuel + 1, cs, h, e, he => by
    simp only [walk] at h
    split at h
    · cases h
      cases he
    · split at h
      · rename_i v hv
        obtain ⟨rest, hrest, rfl⟩ := Option.map_eq_some_iff.1 h
        rcases List.mem_cons.1 he with rfl | he
        · exact hv
        · exact walk_mem hrest e he
      · cases h

/-! ## Forgetting part of a pool's values -/

/-- The pool with each value replaced by what `f` keeps of it. -/
def map (f : α → β) (p : Pool α) : Pool β := ⟨p.slots.map (Option.map f), p.nextFree, p.allocated⟩

variable {f : α → β}

@[simp] theorem getElem?_map (j : Nat) : (p.map f).slots[j]? = (p.slots[j]?).map (Option.map f) := by
  simp [map]

@[simp] theorem capacity_map : (p.map f).capacity = p.capacity := by simp [map, capacity]

@[simp] theorem nextFree_map : (p.map f).nextFree = p.nextFree := rfl

@[simp] theorem allocated_map : (p.map f).allocated = p.allocated := rfl

theorem create_map (f : α → β) (n : Nat) :
    (create n : Except Fault (Pool β)) = (create n).map (Pool.map f) := by
  unfold create
  split
  · rfl
  · split
    · rfl
    · simp [Except.map, map]

theorem freeAt_map (j : Nat) : (p.map f).freeAt j = p.freeAt j := by
  simp only [freeAt, getElem?_map]
  cases p.slots[j]? with
  | none => rfl
  | some x => cases x <;> rfl

theorem following_map (j : Nat) : (p.map f).following j = p.following j := by
  simp [following]

theorem scan_map : ∀ (j n : Nat), (p.map f).scan j n = p.scan j n
  | _, 0 => rfl
  | j, n + 1 => by simp only [scan, freeAt_map, following_map, scan_map _ n]

/-- **Allocation commutes with forgetting**: the same slot is handed out, and it keeps what `f`
keeps of the value. -/
theorem tryAllocate_map (v : α) :
    (p.map f).tryAllocate (f v) = (p.tryAllocate v).map fun r => (r.1, r.2.map f) := by
  unfold tryAllocate
  simp only [capacity_map, allocated_map, nextFree_map, scan_map]
  split
  · rfl
  · split
    · rfl
    · simp only [following_map, Option.map_some]
      simp [map, Array.map_setIfInBounds]

theorem allocate_map (v : α) :
    (p.map f).allocate (f v) = (p.allocate v).map fun r => (r.1, r.2.map f) := by
  unfold allocate
  rw [tryAllocate_map]
  cases p.tryAllocate v <;> simp [Except.map]

theorem map_vacate (j : Nat) : (p.vacate j).map f = (p.map f).vacate j := by
  unfold vacate
  simp only [getElem?_map]
  cases hj : p.slots[j]? with
  | none => rfl
  | some x =>
    cases x with
    | none => rfl
    | some x => simp [map, Array.map_setIfInBounds]

theorem map_write (hv : p.slots[i]? = some (some v)) (hf : f w = f v) :
    ({ p with slots := p.slots.set! i (some w) } : Pool α).map f = p.map f := by
  have hi : i < p.slots.size := by
    rcases Nat.lt_or_ge i p.slots.size with h | h
    · exact h
    · rw [Array.getElem?_eq_none h] at hv; cases hv
  simp only [map, Array.set!_eq_setIfInBounds, Array.map_setIfInBounds, Option.map_some, hf,
    mk.injEq, and_true]
  apply Array.ext_getElem?
  intro j
  simp only [Array.getElem?_setIfInBounds, Array.size_map, hi, Array.getElem?_map]
  split
  · subst j; simp [hv]
  · rfl

theorem modify_eq_ok {g : α → α} {q : Pool α} (h : p.modify i g = .ok q) :
    ∃ v, p.slots[i]? = some (some v) ∧ q = { p with slots := p.slots.set! i (some (g v)) } := by
  unfold modify at h
  cases hg : p.get i with
  | error e => simp [hg, bind, Except.bind] at h
  | ok v =>
    simp only [hg, bind, Except.bind, pure, Except.pure, Except.ok.injEq] at h
    exact ⟨v, get_eq_ok hg, h.symm⟩

theorem capacity_modify {g : α → α} {q : Pool α} (h : p.modify i g = .ok q) : q.capacity = p.capacity := by
  obtain ⟨v, -, rfl⟩ := modify_eq_ok h
  simp [capacity]

theorem map_modify {g : α → α} {q : Pool α} (h : p.modify i g = .ok q) (hg : ∀ v, f (g v) = f v) :
    q.map f = p.map f := by
  obtain ⟨v, hv, rfl⟩ := modify_eq_ok h
  exact map_write hv (hg v)

end Exchange.Pool
