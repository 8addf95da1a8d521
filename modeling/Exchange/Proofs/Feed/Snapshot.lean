import Mathlib.Data.List.Nodup
import Exchange.Feed.SnapshotBook
import Exchange.Proofs.Pool
import Exchange.Proofs.Feed.ClientBook
import Exchange.Proofs.Feed.Recovery

/-!
# The snapshot book mirrors the participant's book

`SnapshotBook.Mirrors mi B` says that the snapshot book `mi` holds exactly the orders of the
participant's book `B`: each live id of a ticker names a pool slot of its own, holding an ADD of
that ticker and id with `B`'s side, price and quantity; the ids of each ticker increase; and `B`
holds nothing else. An empty snapshot book mirrors the empty book, and applying an update that is
not a CLEAR keeps the mirror, the participant's book reading the same update (`Mirrors.apply`).
-/

namespace Exchange

namespace SnapshotBook

/-- Applies stamped updates in order, stopping at the first fault. -/
def applyAll (mi : SnapshotBook) (ms : List Stamped) : Except Fault SnapshotBook :=
  ms.foldlM apply mi

/-- The cycles a snapshot book publishes as it follows the stamped updates: for each count in
turn, it applies that many more of them and then publishes a cycle. -/
def publishAfter (mi : SnapshotBook) (ms : List Stamped) : List Nat → Except Fault (List Stamped)
  | [] => .ok []
  | n :: ns => do
    let mi' ← mi.applyAll (ms.take n)
    return mi'.cycle ++ (← mi'.publishAfter (ms.drop n) ns)

/-! ## Ids in increasing order -/

section Ids

variable {oid : OrderId} {slot : Nat} {e : OrderId × Nat}

theorem mem_placeId : ∀ {live : List (OrderId × Nat)},
    e ∈ placeId oid slot live ↔ e = (oid, slot) ∨ e ∈ live
  | [] => by simp [placeId]
  | (o, s) :: rest => by
    simp only [placeId]
    split
    · exact List.mem_cons
    · rw [List.mem_cons, mem_placeId, List.mem_cons, or_left_comm]

theorem ascending_placeId : ∀ {live : List (OrderId × Nat)},
    (live.map (·.1)).Pairwise (· < ·) → (∀ e ∈ live, e.1 ≠ oid) →
      ((placeId oid slot live).map (·.1)).Pairwise (· < ·)
  | [], _, _ => List.pairwise_singleton _ _
  | (o, s) :: rest, hs, hne => by
    simp only [List.map_cons, List.pairwise_cons, List.mem_map] at hs
    obtain ⟨hlt, hs⟩ := hs
    simp only [placeId]
    split
    · rename_i h
      simp only [List.map_cons, List.pairwise_cons, List.mem_map, List.mem_cons]
      refine ⟨?_, fun _ ⟨e, he, heq⟩ => heq ▸ hlt _ ⟨e, he, rfl⟩, hs⟩
      rintro _ (rfl | ⟨e, he, rfl⟩)
      · exact h
      · exact UInt64.lt_trans h (hlt _ ⟨e, he, rfl⟩)
    · rename_i h
      simp only [List.map_cons, List.pairwise_cons, List.mem_map]
      refine ⟨?_, ascending_placeId hs fun e he => hne e (List.mem_cons_of_mem _ he)⟩
      rintro _ ⟨e, he, rfl⟩
      rcases mem_placeId.1 he with rfl | he
      · exact UInt64.lt_of_le_of_ne (UInt64.not_lt.1 h) (hne _ List.mem_cons_self)
      · exact hlt _ ⟨e, he, rfl⟩

end Ids

/-! ## The mirror -/

/-- The snapshot book holds exactly the orders of the participant's book `B`. -/
structure Mirrors (mi : SnapshotBook) (B : ClientBook) : Prop where
  pool : mi.pool.Inv
  /-- Each live id names a slot holding its ADD, as `B` has it. -/
  stored : ∀ {t : Nat} {live : List (OrderId × Nat)}, mi.books[t]? = some live →
    ∀ e ∈ live, ∃ u : Update, mi.pool.slots[e.2]? = some (some u) ∧ u.kind = .add ∧
      u.tickerId.toNat = t ∧ u.orderId = e.1 ∧ B.entry (u.tickerId, e.1) = some (u.side, u.price, u.qty)
  ascending : ∀ {t : Nat} {live : List (OrderId × Nat)}, mi.books[t]? = some live →
    (live.map (·.1)).Pairwise (· < ·)
  /-- `B` holds no order that is not live. -/
  complete : ∀ {key : TickerId × OrderId} {v : Side × Price × Qty}, B.entry key = some v →
    ∃ live, mi.books[key.1.toNat]? = some live ∧ key.2 ∈ live.map (·.1)

variable {mi mi' : SnapshotBook} {B : ClientBook} {t t' : Nat} {live live' : List (OrderId × Nat)}
  {e e' : OrderId × Nat}

theorem mirrors_create {tickers capacity : Nat} (h : create tickers capacity = .ok mi) :
    Mirrors mi ClientBook.empty := by
  simp only [create, bind, Except.bind, pure, Except.pure] at h
  split at h
  · cases h
  · rename_i pool hp
    cases h
    refine ⟨Pool.inv_create hp, ?_, ?_, fun hv => nomatch hv⟩
    · intro t live hl e he
      rw [Array.getElem?_replicate] at hl
      split at hl <;> cases hl
      cases he
    · intro t live hl
      rw [Array.getElem?_replicate] at hl
      split at hl <;> cases hl
      exact List.Pairwise.nil

theorem create_sizes {tickers capacity : Nat} (h : create tickers capacity = .ok mi) :
    mi.books.size = tickers ∧ mi.pool.capacity = capacity ∧ capacity < Pool.nullIndex ∧
      mi.lastSeq = 0 := by
  simp only [create, bind, Except.bind, pure, Except.pure] at h
  split at h
  · cases h
  · rename_i pool hp
    cases h
    exact ⟨Array.size_replicate, Pool.capacity_create hp, Pool.lt_nullIndex_of_create hp, rfl⟩

theorem Mirrors.slot_unique (h : Mirrors mi B) (hl : mi.books[t]? = some live)
    (hl' : mi.books[t']? = some live') (he : e ∈ live) (he' : e' ∈ live') (hs : e.2 = e'.2) :
    t = t' ∧ e = e' := by
  obtain ⟨u, hu, -, ht, ho, -⟩ := h.stored hl e he
  obtain ⟨u', hu', -, ht', ho', -⟩ := h.stored hl' e' he'
  rw [hs, hu'] at hu
  cases hu
  exact ⟨ht.symm.trans ht', Prod.ext (ho.symm.trans ho') hs⟩

theorem Mirrors.lastSeq (h : Mirrors mi B) (s : UInt64) : Mirrors { mi with lastSeq := s } B :=
  ⟨h.pool, h.stored, h.ascending, h.complete⟩

theorem Mirrors.nodup_ids (h : Mirrors mi B) (hl : mi.books[t]? = some live) :
    (live.map (·.1)).Nodup :=
  (h.ascending hl).imp fun {a b} (hlt : a < b) (hab : a = b) => UInt64.lt_irrefl a (hab ▸ hlt)

theorem Mirrors.eq_of_orderId_eq (h : Mirrors mi B) (hl : mi.books[t]? = some live) (he : e ∈ live)
    (he' : e' ∈ live) (ho : e.1 = e'.1) : e = e' :=
  List.inj_on_of_nodup_map (h.nodup_ids hl) he he' ho

theorem key_ne_of_toNat_ne {k k' : TickerId × OrderId} (h : k.1.toNat ≠ k'.1.toNat ∨ k.2 ≠ k'.2) :
    k ≠ k' := by
  rintro rfl
  rcases h with h | h <;> exact h rfl

theorem lt_size_of_getElem? {α : Type} {xs : Array α} {i : Nat} {v : α} (h : xs[i]? = some v) :
    i < xs.size :=
  (Array.getElem?_eq_some_iff.1 h).1

theorem bookOf_eq_ok {u : Update} :
    mi.bookOf u = .ok live ↔ mi.books[u.tickerId.toNat]? = some live := by
  unfold bookOf; split <;> simp_all

theorem find?_orderId {oid : OrderId} (h : live.find? (·.1 == oid) = some e) : (oid, e.2) ∈ live := by
  have hk : e.1 = oid := by simpa using List.find?_some h
  exact hk ▸ List.mem_of_find?_eq_some h

/-! ## The live ids after one ticker's change -/

section LiveIds

variable {books : Array (List (OrderId × Nat))} {u : Update}

theorem ascending_set! {i : Nat} (hi : i < books.size)
    (hasc : ∀ {t : Nat} {live : List (OrderId × Nat)}, books[t]? = some live →
      (live.map (·.1)).Pairwise (· < ·))
    (hnew : (live'.map (·.1)).Pairwise (· < ·)) {j : Nat} {ids : List (OrderId × Nat)}
    (hl : (books.set! i live')[j]? = some ids) : (ids.map (·.1)).Pairwise (· < ·) := by
  rw [getElem?_set!_of_lt hi] at hl
  split at hl
  · cases hl
    exact hnew
  · exact hasc hl

theorem live_set!_placeId (hl : books[u.tickerId.toNat]? = some live) {key : TickerId × OrderId}
    (hkey : key = (u.tickerId, u.orderId) ∨
      ∃ ids, books[key.1.toNat]? = some ids ∧ key.2 ∈ ids.map (·.1)) :
    ∃ ids, (books.set! u.tickerId.toNat (placeId u.orderId slot live))[key.1.toNat]? = some ids ∧
      key.2 ∈ ids.map (·.1) := by
  rw [getElem?_set!_of_lt (lt_size_of_getElem? hl)]
  rcases hkey with rfl | ⟨ids, hids, hmem⟩
  · exact ⟨_, if_pos rfl, List.mem_map.2 ⟨(u.orderId, slot), mem_placeId.2 (.inl rfl), rfl⟩⟩
  · split
    · rename_i htt
      rw [← htt, hl] at hids
      cases hids
      obtain ⟨e, he, hk⟩ := List.mem_map.1 hmem
      exact ⟨_, rfl, List.mem_map.2 ⟨e, mem_placeId.2 (.inr he), hk⟩⟩
    · exact ⟨ids, hids, hmem⟩

theorem live_set!_filter (hl : books[u.tickerId.toNat]? = some live) {key : TickerId × OrderId}
    (hne : key ≠ (u.tickerId, u.orderId))
    (hkey : ∃ ids, books[key.1.toNat]? = some ids ∧ key.2 ∈ ids.map (·.1)) :
    ∃ ids, (books.set! u.tickerId.toNat (live.filter (·.1 != u.orderId)))[key.1.toNat]? =
      some ids ∧ key.2 ∈ ids.map (·.1) := by
  obtain ⟨ids, hids, hmem⟩ := hkey
  rw [getElem?_set!_of_lt (lt_size_of_getElem? hl)]
  split
  · rename_i htt
    rw [← htt, hl] at hids
    cases hids
    obtain ⟨e, he, hk⟩ := List.mem_map.1 hmem
    refine ⟨_, rfl, List.mem_map.2 ⟨e, List.mem_filter.2 ⟨he, ?_⟩, hk⟩⟩
    have hticker : key.1 = u.tickerId := UInt32.toNat_inj.1 htt.symm
    simpa [hk] using fun h2 => hne (Prod.ext hticker h2)
  · exact ⟨ids, hids, hmem⟩

theorem mem_of_set!_filter (hl : books[u.tickerId.toNat]? = some live) {j : Nat}
    {ids : List (OrderId × Nat)}
    (hids : (books.set! u.tickerId.toNat (live.filter (·.1 != u.orderId)))[j]? = some ids)
    (he : e ∈ ids) :
    ∃ ids', books[j]? = some ids' ∧ e ∈ ids' ∧ (j = u.tickerId.toNat → e.1 ≠ u.orderId) := by
  rw [getElem?_set!_of_lt (lt_size_of_getElem? hl)] at hids
  split at hids
  · rename_i htt
    cases hids
    obtain ⟨he, hne⟩ := List.mem_filter.1 he
    exact ⟨live, htt ▸ hl, he, fun _ => by simpa using hne⟩
  · rename_i htt
    exact ⟨ids, hids, he, fun h' => absurd h'.symm htt⟩

end LiveIds

/-! ## One update -/

/-- **What applying an update does.** Past the checks on its number, an ADD of an id that is not
live on its ticker takes a free slot and places the id, a MODIFY of a live id rewrites the ADD in
its slot, a CANCEL of a live id frees its slot and drops the id, and every other kind only takes
the number. -/
theorem apply_eq_ok {m : Stamped} (h : mi.apply m = .ok mi') :
    mi.lastSeq ≠ maxSeq ∧ m.seq = mi.lastSeq + 1 ∧
      ((m.update.kind = .add ∧ ∃ live slot pool,
          mi.books[m.update.tickerId.toNat]? = some live ∧ (∀ e ∈ live, e.1 ≠ m.update.orderId) ∧
          mi.pool.tryAllocate m.update = some (slot, pool) ∧
          mi' = { mi with
            pool, books := mi.books.set! m.update.tickerId.toNat (placeId m.update.orderId slot live),
            lastSeq := m.seq }) ∨
        (m.update.kind = .modify ∧ ∃ live slot old pool,
          mi.books[m.update.tickerId.toNat]? = some live ∧ (m.update.orderId, slot) ∈ live ∧
          mi.pool.get slot = .ok old ∧
          mi.pool.set slot { old with qty := m.update.qty, price := m.update.price } = .ok pool ∧
          mi' = { mi with pool, lastSeq := m.seq }) ∨
        (m.update.kind = .cancel ∧ ∃ live slot v pool,
          mi.books[m.update.tickerId.toNat]? = some live ∧ (m.update.orderId, slot) ∈ live ∧
          mi.pool.release slot = .ok (v, pool) ∧
          mi' = { mi with
            pool, books := mi.books.set! m.update.tickerId.toNat (live.filter (·.1 != m.update.orderId)),
            lastSeq := m.seq }) ∨
        (m.update.kind ≠ .add ∧ m.update.kind ≠ .modify ∧ m.update.kind ≠ .cancel ∧
          mi' = { mi with lastSeq := m.seq })) := by
  unfold SnapshotBook.apply at h
  dsimp only at h
  split at h
  · cases h
  rename_i hmax
  split at h
  · cases h
  rename_i hseq
  refine ⟨hmax, not_not.1 hseq, ?_⟩
  cases hk : m.update.kind
  case add =>
    simp only [hk, bind, Except.bind, pure, Except.pure] at h
    split at h
    · cases h
    rename_i live hl
    split at h
    · cases h
    rename_i hfresh
    split at h
    · cases h
    rename_i x hx
    cases h
    exact .inl ⟨rfl, live, x.1, x.2, bookOf_eq_ok.1 hl,
      fun e he heq => hfresh (List.any_eq_true.2 ⟨e, he, by simp [heq]⟩), Pool.allocate_eq_ok.1 hx, rfl⟩
  case modify =>
    simp only [hk, bind, Except.bind, pure, Except.pure] at h
    split at h
    · cases h
    rename_i live hl
    split at h
    · cases h
    rename_i slot he
    split at h
    · cases h
    rename_i old hold
    split at h
    · cases h
    rename_i pool hset
    cases h
    exact .inr (.inl ⟨rfl, live, slot, old, pool, bookOf_eq_ok.1 hl, find?_orderId he, hold, hset, rfl⟩)
  case cancel =>
    simp only [hk, bind, Except.bind, pure, Except.pure] at h
    split at h
    · cases h
    rename_i live hl
    split at h
    · cases h
    rename_i slot he
    split at h
    · cases h
    rename_i x hrel
    cases h
    exact .inr (.inr (.inl ⟨rfl, live, slot, x.1, x.2, bookOf_eq_ok.1 hl, find?_orderId he, hrel, rfl⟩))
  all_goals
    simp only [hk, bind, Except.bind, pure, Except.pure] at h
    cases h
    exact .inr (.inr (.inr ⟨by simp, by simp, by simp, rfl⟩))

theorem Mirrors.place (h : Mirrors mi B) {u : Update} {slot : Nat} {pool : Pool Update}
    (hk : u.kind = .add) (hl : mi.books[u.tickerId.toNat]? = some live)
    (hfresh : ∀ e ∈ live, e.1 ≠ u.orderId) (ha : mi.pool.tryAllocate u = some (slot, pool)) :
    Mirrors { mi with pool, books := mi.books.set! u.tickerId.toNat (placeId u.orderId slot live) }
      ⟨Function.update B.entry (u.tickerId, u.orderId) (some (u.side, u.price, u.qty))⟩ := by
  obtain ⟨hslot, hfree, rfl⟩ := Pool.tryAllocate_eq_some h.pool ha
  have hslot : slot < mi.pool.slots.size := hslot
  have ht := lt_size_of_getElem? hl
  -- the slot was free, so it is none of the live ids' slots
  have hold : ∀ {t' : Nat} {live' : List (OrderId × Nat)}, mi.books[t']? = some live' →
      ∀ e ∈ live', e.2 ≠ slot := by
    intro t' live' hl' e he hs
    obtain ⟨u', hu', -⟩ := h.stored hl' e he
    rw [hs, hfree] at hu'
    cases hu'
  refine ⟨Pool.inv_tryAllocate h.pool ha, ?_, ?_, ?_⟩
  · intro t' live' hl' e he
    rw [getElem?_set!_of_lt ht] at hl'
    split at hl'
    · rename_i htt
      cases hl'
      rcases mem_placeId.1 he with rfl | he
      · exact ⟨u, by rw [getElem?_set!_of_lt hslot, if_pos rfl], hk, htt, rfl, by simp⟩
      · obtain ⟨u', hu', hk', ht', ho', hB⟩ := h.stored hl e he
        refine ⟨u', ?_, hk', ht'.trans htt, ho', ?_⟩
        · rw [getElem?_set!_of_lt hslot, if_neg (Ne.symm (hold hl e he))]; exact hu'
        · dsimp only
          rw [Function.update_of_ne (key_ne_of_toNat_ne (.inr (hfresh e he)))]; exact hB
    · rename_i htt
      obtain ⟨u', hu', hk', ht', ho', hB⟩ := h.stored hl' e he
      refine ⟨u', ?_, hk', ht', ho', ?_⟩
      · rw [getElem?_set!_of_lt hslot, if_neg (Ne.symm (hold hl' e he))]; exact hu'
      · dsimp only
        rw [Function.update_of_ne (key_ne_of_toNat_ne (.inl (by rw [ht']; exact Ne.symm htt)))]
        exact hB
  · intro t' live' hl'
    exact ascending_set! ht h.ascending (ascending_placeId (h.ascending hl) hfresh) hl'
  · intro key v hv
    by_cases hkey : key = (u.tickerId, u.orderId)
    · exact live_set!_placeId hl (.inl hkey)
    · dsimp only at hv
      rw [Function.update_of_ne hkey] at hv
      exact live_set!_placeId hl (.inr (h.complete hv))

theorem Mirrors.modify (h : Mirrors mi B) {u old : Update} {slot : Nat} {pool : Pool Update}
    (hl : mi.books[u.tickerId.toNat]? = some live) (hmem : (u.orderId, slot) ∈ live)
    (hget : mi.pool.get slot = .ok old)
    (hset : mi.pool.set slot { old with qty := u.qty, price := u.price } = .ok pool) :
    B.entry (u.tickerId, u.orderId) = some (old.side, old.price, old.qty) ∧
      Mirrors { mi with pool }
        ⟨Function.update B.entry (u.tickerId, u.orderId) (some (old.side, u.price, u.qty))⟩ := by
  obtain ⟨u₀, hu₀, hk₀, ht₀, ho₀, hB₀⟩ := h.stored hl _ hmem
  have hold : u₀ = old := Option.some.inj (Option.some.inj (hu₀.symm.trans (Pool.get_eq_ok hget)))
  subst hold
  have htk : u₀.tickerId = u.tickerId := UInt32.toNat_inj.1 ht₀
  obtain ⟨-, rfl⟩ := Pool.set_eq_ok hset
  have hslot := lt_size_of_getElem? hu₀
  refine ⟨htk ▸ hB₀, Pool.inv_set h.pool hset, ?_, h.ascending, ?_⟩
  · intro t' live' hl' e he
    obtain ⟨u', hu', hk', ht', ho', hB⟩ := h.stored hl' e he
    by_cases hs : e.2 = slot
    · -- the modified order itself
      obtain ⟨rfl, rfl⟩ := h.slot_unique hl' hl he hmem hs
      refine ⟨{ u₀ with qty := u.qty, price := u.price }, ?_, hk₀, ht₀, ho₀, ?_⟩
      · rw [getElem?_set!_of_lt hslot, if_pos rfl]
      · simp [htk]
    · refine ⟨u', ?_, hk', ht', ho', ?_⟩
      · rw [getElem?_set!_of_lt hslot, if_neg (Ne.symm hs)]; exact hu'
      · dsimp only
        rw [Function.update_of_ne]
        · exact hB
        · -- the same key would be the same live id, in the same slot
          intro hkey
          have ht'' : t' = u.tickerId.toNat := by rw [← ht', (Prod.mk.inj hkey).1]
          subst ht''
          rw [hl] at hl'
          cases hl'
          exact hs (congrArg Prod.snd (h.eq_of_orderId_eq hl he hmem ((Prod.mk.inj hkey).2)))
  · intro key v hv
    by_cases hkey : key = (u.tickerId, u.orderId)
    · subst hkey
      exact ⟨live, hl, List.mem_map.2 ⟨_, hmem, rfl⟩⟩
    · dsimp only at hv
      rw [Function.update_of_ne hkey] at hv
      exact h.complete hv

theorem Mirrors.cancel (h : Mirrors mi B) {u v : Update} {slot : Nat} {pool : Pool Update}
    (hl : mi.books[u.tickerId.toNat]? = some live) (hmem : (u.orderId, slot) ∈ live)
    (hrel : mi.pool.release slot = .ok (v, pool)) :
    (∃ x, B.entry (u.tickerId, u.orderId) = some x) ∧
      Mirrors { mi with pool, books := mi.books.set! u.tickerId.toNat (live.filter (·.1 != u.orderId)) }
        ⟨Function.update B.entry (u.tickerId, u.orderId) none⟩ := by
  obtain ⟨u₀, hu₀, -, ht₀, -, hB₀⟩ := h.stored hl _ hmem
  have htk : u₀.tickerId = u.tickerId := UInt32.toNat_inj.1 ht₀
  obtain ⟨hused, rfl⟩ := Pool.release_eq_ok hrel
  have ht := lt_size_of_getElem? hl
  refine ⟨⟨_, htk ▸ hB₀⟩, Pool.inv_vacate h.pool slot, ?_, ?_, ?_⟩
  · intro t' live' hl' e he
    -- a live id left has another slot than the freed one
    obtain ⟨live'', hl'', he'', hne⟩ := mem_of_set!_filter hl hl' he
    obtain ⟨u', hu', hk', ht', ho', hB⟩ := h.stored hl'' e he''
    have hs : e.2 ≠ slot := fun hs => by
      obtain ⟨rfl, rfl⟩ := h.slot_unique hl'' hl he'' hmem hs
      exact hne rfl rfl
    refine ⟨u', ?_, hk', ht', ho', ?_⟩
    · rw [Pool.getElem?_vacate_of_used hused, if_neg (Ne.symm hs)]; exact hu'
    · dsimp only
      rw [Function.update_of_ne]
      · exact hB
      · intro hkey
        exact hne (by rw [← ht', (Prod.mk.inj hkey).1]) ((Prod.mk.inj hkey).2)
  · intro t' live' hl'
    exact ascending_set! ht h.ascending ((h.ascending hl).sublist ((List.filter_sublist).map _)) hl'
  · intro key x hx
    by_cases hkey : key = (u.tickerId, u.orderId)
    · subst hkey
      simp at hx
    · dsimp only at hx
      rw [Function.update_of_ne hkey] at hx
      exact live_set!_filter hl hkey (h.complete hx)

/-- Applying updates keeps the tickers and the size of the pool. -/
structure SameSizes (mi mi' : SnapshotBook) : Prop where
  tickers : mi'.books.size = mi.books.size
  capacity : mi'.pool.capacity = mi.pool.capacity

theorem SameSizes.trans {mi₁ mi₂ mi₃ : SnapshotBook} (h₁ : SameSizes mi₁ mi₂) (h₂ : SameSizes mi₂ mi₃) :
    SameSizes mi₁ mi₃ :=
  ⟨h₂.tickers.trans h₁.tickers, h₂.capacity.trans h₁.capacity⟩

/-- **Applying an update keeps the mirror.** An update that is not a CLEAR, applied to the
snapshot book, is read by the participant's book without a fault, and the two still mirror each
other. The update carries the number after the last one applied, and becomes the last. -/
theorem Mirrors.apply (h : Mirrors mi B) {m : Stamped} (ha : mi.apply m = .ok mi')
    (hk : m.update.kind ≠ .clear) :
    m.seq.toNat = mi.lastSeq.toNat + 1 ∧ mi'.lastSeq = m.seq ∧ SameSizes mi mi' ∧
      ∃ B', B.apply m.update = some B' ∧ Mirrors mi' B' := by
  obtain ⟨hmax, hseq, hcase⟩ := apply_eq_ok ha
  refine ⟨by rw [hseq]; exact toNat_add_one_of_ne hmax, ?_⟩
  rcases hcase with ⟨hk', live, slot, pool, hl, hfresh, hx, rfl⟩ |
    ⟨hk', live, slot, old, pool, hl, hmem, hold, hset, rfl⟩ |
    ⟨hk', live, slot, v, pool, hl, hmem, hrel, rfl⟩ | ⟨hadd, hmod, hcan, rfl⟩
  · -- an ADD
    refine ⟨rfl, ⟨by simp, Pool.capacity_of_tryAllocate h.pool hx⟩, _, ?_,
      (h.place hk' hl hfresh hx).lastSeq m.seq⟩
    simp only [ClientBook.apply, hk']
  · -- a MODIFY
    obtain ⟨hB, hm⟩ := h.modify hl hmem hold hset
    exact ⟨rfl, ⟨rfl, Pool.capacity_of_set hset⟩, _,
      by simp only [ClientBook.apply, hk', hB, Option.map_some], hm.lastSeq m.seq⟩
  · -- a CANCEL
    obtain ⟨⟨x, hB⟩, hm⟩ := h.cancel hl hmem hrel
    exact ⟨rfl, ⟨by simp, by rw [(Pool.release_eq_ok hrel).2, Pool.capacity_vacate]⟩, _,
      by simp only [ClientBook.apply, hk', hB, Option.map_some], hm.lastSeq m.seq⟩
  · -- the other kinds change neither book
    refine ⟨rfl, ⟨rfl, rfl⟩, B, ?_, h.lastSeq m.seq⟩
    cases hk' : m.update.kind
    case add => exact absurd hk' hadd
    case modify => exact absurd hk' hmod
    case cancel => exact absurd hk' hcan
    case clear => exact absurd hk' hk
    all_goals simp only [ClientBook.apply, hk']

theorem applyAll_cons {m : Stamped} {ms : List Stamped} :
    mi.applyAll (m :: ms) = (mi.apply m).bind (·.applyAll ms) := rfl

theorem applyAll_append {ms ms' : List Stamped} :
    mi.applyAll (ms ++ ms') = (mi.applyAll ms).bind (·.applyAll ms') := by
  unfold applyAll
  rw [List.foldlM_append]
  rfl

/-- **Applying updates keeps the mirror**: the participant's book reads them all without a
fault, and the numbers follow on from the last one applied. -/
theorem Mirrors.applyAll {ms : List Stamped} (h : Mirrors mi B) (ha : mi.applyAll ms = .ok mi')
    (hk : ∀ m ∈ ms, m.update.kind ≠ .clear) :
    mi'.lastSeq.toNat = mi.lastSeq.toNat + ms.length ∧ SameSizes mi mi' ∧
      ∃ B', B.applyAll (ms.map (·.update)) = some B' ∧ Mirrors mi' B' := by
  induction ms generalizing mi B with
  | nil =>
    cases ha
    exact ⟨rfl, ⟨rfl, rfl⟩, B, rfl, h⟩
  | cons m ms ih =>
    rw [applyAll_cons] at ha
    cases hm : mi.apply m with
    | error f => rw [hm] at ha; cases ha
    | ok mi₁ =>
      rw [hm] at ha
      obtain ⟨hseq, hlast, hsize, B₁, hB₁, h₁⟩ := h.apply hm (hk m List.mem_cons_self)
      obtain ⟨hlast', hsize', B', hB', h'⟩ :=
        ih h₁ ha fun m' hm' => hk m' (List.mem_cons_of_mem _ hm')
      refine ⟨by rw [hlast', hlast, hseq, List.length_cons]; omega, hsize.trans hsize', B', ?_, h'⟩
      rw [List.map_cons, ClientBook.applyAll_cons, hB₁]
      exact hB'

theorem publishAfter_eq {mi₀ : SnapshotBook} {ms : List Stamped} : ∀ {ns : List Nat} {a : Nat}
    {mi : SnapshotBook} {out : List Stamped}, mi₀.applyAll (ms.take a) = .ok mi →
      mi.publishAfter (ms.drop a) ns = .ok out →
      ∃ cuts : List (Nat × SnapshotBook), out = cuts.flatMap (·.2.cycle) ∧
        (cuts.map (·.1)).Pairwise (· ≤ ·) ∧ ∀ x ∈ cuts, a ≤ x.1 ∧ mi₀.applyAll (ms.take x.1) = .ok x.2
  | [], _, _, _, _, hp => by
    cases hp
    exact ⟨[], rfl, .nil, by simp⟩
  | n :: ns, a, mi, out, h₀, hp => by
    simp only [publishAfter, bind, Except.bind, pure, Except.pure] at hp
    split at hp
    · cases hp
    · rename_i mi' h₁
      split at hp
      · cases hp
      · rename_i rest hrest
        cases hp
        have h₁' : mi₀.applyAll (ms.take (a + n)) = .ok mi' := by
          rw [List.take_add, applyAll_append, h₀]
          exact h₁
        rw [List.drop_drop] at hrest
        obtain ⟨cuts, rfl, hsorted, hcuts⟩ := publishAfter_eq h₁' hrest
        refine ⟨(a + n, mi') :: cuts, by simp, ?_, ?_⟩
        · simp only [List.map_cons, List.pairwise_cons, List.mem_map]
          exact ⟨fun k ⟨x, hx, hk⟩ => hk ▸ (hcuts x hx).1, hsorted⟩
        · intro x hx
          rcases List.mem_cons.1 hx with rfl | hx
          · exact ⟨Nat.le_add_right _ _, h₁'⟩
          · exact ⟨Nat.le_trans (Nat.le_add_right _ _) (hcuts x hx).1, (hcuts x hx).2⟩

end SnapshotBook

end Exchange
