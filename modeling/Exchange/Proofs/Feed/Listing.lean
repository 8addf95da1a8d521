import Mathlib.Algebra.Order.BigOperators.Group.Finset
import Exchange.Proofs.Feed.Snapshot

/-!
# What a snapshot book lists

A `Listing` is what a snapshot lists for each live order, by ticker and id: the order's ADD, as
later MODIFYs changed its price and quantity. `Listing.apply` reads one update as a snapshot book
does. An ADD of an id not listed enters it, a MODIFY of a listed id writes its price and quantity
into the record, a CANCEL of a listed id drops it, and the other kinds change nothing; an ADD of a
listed id, or a MODIFY or CANCEL of an id not listed, is the fault `none`.

The records of one ticker are often known as a list with distinct ids, read by id
(`Listing.byId`), and any reordering of the list reads the same. Reading a CANCEL or a MODIFY of
the list's first record takes it off or rewrites it, and an ADD of a new id puts it in front
(`apply_cancel_head`, `apply_modify_head`, `apply_add_fresh`).

`SnapshotBook.Lists mi L` ties a snapshot book to what it lists: each live id names a slot holding
`L`'s record, the ids of each ticker increase, `L` lists nothing else, and the pool counts the live
ids. The snapshot book then applies without a fault every update that `L` reads, carries the next
number and names one of its tickers, provided an ADD finds a free slot; and it lists what `L`
reads (`Lists.apply`).
-/

namespace Exchange

/-- What a snapshot lists for each live order, by ticker and id. -/
@[ext]
structure Listing where
  entry : TickerId × OrderId → Option Update

namespace Listing

/-- Lists nothing. -/
def empty : Listing := ⟨fun _ => none⟩

/-- Reads one update as a snapshot book does; `none` is the fault of an ADD of a listed id, or a
MODIFY or CANCEL of an id not listed. -/
def apply (L : Listing) (u : Update) : Option Listing :=
  let key := (u.tickerId, u.orderId)
  match u.kind, L.entry key with
  | .add, none => some ⟨Function.update L.entry key (some u)⟩
  | .modify, some v =>
    some ⟨Function.update L.entry key (some { v with qty := u.qty, price := u.price })⟩
  | .cancel, some _ => some ⟨Function.update L.entry key none⟩
  | .add, some _ | .modify, none | .cancel, none => none
  | _, _ => some L

/-- Reads updates in order, stopping at the first fault. -/
def applyAll (L : Listing) (us : List Update) : Option Listing := us.foldlM apply L

/-- The records listed for ticker `t`, by id. -/
def slice (L : Listing) (t : TickerId) (oid : OrderId) : Option Update := L.entry (t, oid)

/-- `L` with the records of ticker `t` replaced. -/
def setSlice (L : Listing) (t : TickerId) (f : OrderId → Option Update) : Listing :=
  ⟨fun k => if k.1 = t then f k.2 else L.entry k⟩

/-- A list of records read by id: its first record with the id. -/
def byId (rs : List Update) (oid : OrderId) : Option Update := rs.find? (·.orderId == oid)

/-! ## Records read by id -/

section ById

variable {r r' : Update} {rs rs' : List Update} {oid : OrderId}

theorem byId_cons : byId (r :: rs) oid = if r.orderId = oid then some r else byId rs oid := by
  by_cases h : r.orderId = oid <;> simp [byId, h]

theorem byId_eq_none : byId rs oid = none ↔ oid ∉ rs.map (·.orderId) := by
  simp [byId, List.find?_eq_none]

theorem mem_of_byId (h : byId rs oid = some r) : r ∈ rs ∧ r.orderId = oid :=
  ⟨List.mem_of_find?_eq_some h, by simpa using List.find?_some h⟩

theorem byId_of_mem (hnd : (rs.map (·.orderId)).Nodup) (hr : r ∈ rs) :
    byId rs r.orderId = some r := by
  induction rs with
  | nil => cases hr
  | cons r₀ rs ih =>
    rw [List.map_cons, List.nodup_cons] at hnd
    rw [byId_cons]
    rcases List.mem_cons.1 hr with rfl | hr
    · exact if_pos rfl
    · rw [if_neg fun he => hnd.1 (by rw [he]; exact List.mem_map_of_mem hr), ih hnd.2 hr]

theorem byId_perm (hnd : (rs.map (·.orderId)).Nodup) (hp : rs.Perm rs') : byId rs = byId rs' := by
  funext oid
  cases h : byId rs oid with
  | none =>
    rw [eq_comm, byId_eq_none, ← (hp.map _).mem_iff]
    exact byId_eq_none.1 h
  | some r =>
    obtain ⟨hr, rfl⟩ := mem_of_byId h
    exact (byId_of_mem ((hp.map _).nodup_iff.1 hnd) (hp.mem_iff.1 hr)).symm

theorem perm_of_byId (hnd : (rs.map (·.orderId)).Nodup) (hnd' : (rs'.map (·.orderId)).Nodup)
    (h : byId rs = byId rs') : rs.Perm rs' := by
  refine (List.perm_ext_iff_of_nodup (hnd.of_map _) (hnd'.of_map _)).2 fun r => ⟨fun hr => ?_, fun hr => ?_⟩
  · have hb := byId_of_mem hnd hr
    rw [h] at hb
    exact (mem_of_byId hb).1
  · have hb := byId_of_mem hnd' hr
    rw [← h] at hb
    exact (mem_of_byId hb).1

theorem eq_of_byId (h₁ : rs.Pairwise fun u v => u.orderId < v.orderId)
    (h₂ : rs'.Pairwise fun u v => u.orderId < v.orderId) (h : byId rs = byId rs') : rs = rs' := by
  have hnd : ∀ {l : List Update}, (l.Pairwise fun u v => u.orderId < v.orderId) →
      (l.map (·.orderId)).Nodup :=
    fun hl => List.pairwise_map.2 (hl.imp UInt64.ne_of_lt)
  refine List.Perm.eq_of_pairwise (fun a b _ _ hab hba => ?_) h₁ h₂ (perm_of_byId (hnd h₁) (hnd h₂) h)
  exact absurd (UInt64.lt_trans hab hba) (UInt64.lt_irrefl _)

theorem update_byId_cons_none (hnd : ((r :: rs).map (·.orderId)).Nodup) :
    Function.update (byId (r :: rs)) r.orderId none = byId rs := by
  rw [List.map_cons, List.nodup_cons] at hnd
  funext oid
  by_cases ho : oid = r.orderId
  · subst ho
    rw [Function.update_self, eq_comm, byId_eq_none]
    exact hnd.1
  · rw [Function.update_of_ne ho, byId_cons, if_neg (Ne.symm ho)]

theorem update_byId (r : Update) (rs : List Update) :
    Function.update (byId rs) r.orderId (some r) = byId (r :: rs) := by
  funext oid
  by_cases ho : oid = r.orderId
  · subst ho
    rw [Function.update_self, byId_cons, if_pos rfl]
  · rw [Function.update_of_ne ho, byId_cons, if_neg (Ne.symm ho)]

theorem update_byId_cons (h : r'.orderId = r.orderId) :
    Function.update (byId (r :: rs)) r.orderId (some r') = byId (r' :: rs) := by
  funext oid
  by_cases ho : oid = r.orderId
  · subst ho
    rw [Function.update_self, byId_cons, if_pos h]
  · rw [Function.update_of_ne ho, byId_cons, byId_cons, if_neg (Ne.symm ho), if_neg (h ▸ Ne.symm ho)]

end ById

/-! ## One ticker's records -/

section Slice

variable {L : Listing} {t : TickerId} {f g : OrderId → Option Update}

@[simp] theorem slice_setSlice : (L.setSlice t f).slice t = f := by
  funext oid
  simp [slice, setSlice]

theorem slice_setSlice_of_ne {t' : TickerId} (h : t' ≠ t) : (L.setSlice t f).slice t' = L.slice t' := by
  funext oid
  simp [slice, setSlice, h]

@[simp] theorem setSlice_setSlice : (L.setSlice t f).setSlice t g = L.setSlice t g := by
  refine Listing.ext (funext fun k => ?_)
  simp only [setSlice]
  split <;> rfl

@[simp] theorem setSlice_slice : L.setSlice t (L.slice t) = L := by
  refine Listing.ext (funext fun k => ?_)
  simp only [setSlice, slice]
  split
  · rename_i h; rw [← h]
  · rfl

theorem update_eq_setSlice (oid : OrderId) (v : Option Update) :
    (⟨Function.update L.entry (t, oid) v⟩ : Listing) =
      L.setSlice t (Function.update (L.slice t) oid v) := by
  refine Listing.ext (funext fun k => ?_)
  obtain ⟨t', oid'⟩ := k
  by_cases ht : t' = t
  · subst ht
    simp [setSlice, slice, Function.update_apply]
  · simp [setSlice, Function.update_apply, ht]

end Slice

/-! ## Reading updates -/

section Apply

variable {L L' : Listing} {t : TickerId} {u r : Update} {rs : List Update} {us vs : List Update}

@[simp] theorem applyAll_nil : L.applyAll [] = some L := rfl

theorem applyAll_cons : L.applyAll (u :: us) = (L.apply u).bind (·.applyAll us) := rfl

theorem applyAll_append : L.applyAll (us ++ vs) = (L.applyAll us).bind (·.applyAll vs) := by
  unfold applyAll
  rw [List.foldlM_append]
  rfl

theorem apply_trade (hk : u.kind = .trade) : L.apply u = some L := by
  cases h : L.entry (u.tickerId, u.orderId) <;> simp [apply, hk, h]

theorem apply_cancel_head (hk : u.kind = .cancel) (ht : u.tickerId = t) (ho : u.orderId = r.orderId)
    (hnd : ((r :: rs).map (·.orderId)).Nodup) :
    (L.setSlice t (byId (r :: rs))).apply u = some (L.setSlice t (byId rs)) := by
  have hentry : (L.setSlice t (byId (r :: rs))).entry (u.tickerId, u.orderId) = some r := by
    simp [setSlice, ht, ho, byId_cons]
  simp only [apply, hk, hentry]
  rw [update_eq_setSlice, ht, setSlice_setSlice, slice_setSlice, ho, update_byId_cons_none hnd]

theorem apply_modify_head (hk : u.kind = .modify) (ht : u.tickerId = t) (ho : u.orderId = r.orderId) :
    (L.setSlice t (byId (r :: rs))).apply u =
      some (L.setSlice t (byId ({ r with qty := u.qty, price := u.price } :: rs))) := by
  have hentry : (L.setSlice t (byId (r :: rs))).entry (u.tickerId, u.orderId) = some r := by
    simp [setSlice, ht, ho, byId_cons]
  simp only [apply, hk, hentry]
  rw [update_eq_setSlice, ht, setSlice_setSlice, slice_setSlice, ho]
  exact congrArg (fun f => some (L.setSlice t f)) (update_byId_cons rfl)

theorem apply_add_fresh (hk : u.kind = .add) (ht : u.tickerId = t)
    (hfresh : u.orderId ∉ rs.map (·.orderId)) :
    (L.setSlice t (byId rs)).apply u = some (L.setSlice t (byId (u :: rs))) := by
  have hentry : (L.setSlice t (byId rs)).entry (u.tickerId, u.orderId) = none := by
    simp only [setSlice, ht, if_true]
    exact byId_eq_none.2 hfresh
  simp only [apply, hk, hentry]
  rw [update_eq_setSlice, ht, setSlice_setSlice, slice_setSlice, update_byId]

theorem apply_add_eq (hk : u.kind = .add) (h : L.apply u = some L') :
    L.entry (u.tickerId, u.orderId) = none ∧
      L' = ⟨Function.update L.entry (u.tickerId, u.orderId) (some u)⟩ := by
  cases he : L.entry (u.tickerId, u.orderId) <;> simp [apply, hk, he] at h
  exact ⟨rfl, h.symm⟩

theorem apply_modify_eq (hk : u.kind = .modify) (h : L.apply u = some L') :
    ∃ v, L.entry (u.tickerId, u.orderId) = some v ∧
      L' = ⟨Function.update L.entry (u.tickerId, u.orderId)
        (some { v with qty := u.qty, price := u.price })⟩ := by
  cases he : L.entry (u.tickerId, u.orderId) <;> simp [apply, hk, he] at h
  exact ⟨_, rfl, h.symm⟩

theorem apply_cancel_eq (hk : u.kind = .cancel) (h : L.apply u = some L') :
    (∃ v, L.entry (u.tickerId, u.orderId) = some v) ∧
      L' = ⟨Function.update L.entry (u.tickerId, u.orderId) none⟩ := by
  cases he : L.entry (u.tickerId, u.orderId) <;> simp [apply, hk, he] at h
  exact ⟨⟨_, rfl⟩, h.symm⟩

theorem apply_eq_of_kind (hk : u.kind ≠ .add ∧ u.kind ≠ .modify ∧ u.kind ≠ .cancel)
    (h : L.apply u = some L') : L' = L := by
  obtain ⟨ha, hm, hc⟩ := hk
  cases hkind : u.kind <;> simp_all [apply]

/-- What a participant holds of the listed orders: their side, price and quantity. -/
def toClientBook (L : Listing) : ClientBook :=
  ⟨fun k => (L.entry k).map fun u => (u.side, u.price, u.qty)⟩

end Apply

end Listing

/-! ## A snapshot book that lists -/

namespace SnapshotBook

/-- The snapshot book lists `L`: each live id names a slot holding `L`'s ADD record for it, the
ids of each ticker increase, `L` lists nothing that is not live, and the pool counts the live
ids. -/
structure Lists (mi : SnapshotBook) (L : Listing) : Prop where
  pool : mi.pool.Inv
  stored : ∀ {t : Nat} {live : List (OrderId × Nat)}, mi.books[t]? = some live →
    ∀ e ∈ live, ∃ u : Update, mi.pool.slots[e.2]? = some (some u) ∧ u.kind = .add ∧
      u.tickerId.toNat = t ∧ u.orderId = e.1 ∧ L.entry (u.tickerId, e.1) = some u
  ascending : ∀ {t : Nat} {live : List (OrderId × Nat)}, mi.books[t]? = some live →
    (live.map (·.1)).Pairwise (· < ·)
  complete : ∀ {key : TickerId × OrderId} {v : Update}, L.entry key = some v →
    ∃ live, mi.books[key.1.toNat]? = some live ∧ key.2 ∈ live.map (·.1)
  counted : mi.pool.allocated = ∑ t ∈ Finset.range mi.books.size, mi.liveCount t

variable {mi : SnapshotBook} {L : Listing} {t : Nat} {live : List (OrderId × Nat)}
  {oid : OrderId} {slot : Nat}

theorem lists_create {tickers capacity : Nat} (h : create tickers capacity = .ok mi) :
    Lists mi Listing.empty := by
  simp only [create, bind, Except.bind, pure, Except.pure] at h
  split at h
  · cases h
  · rename_i pool hp
    cases h
    refine ⟨Pool.inv_create hp, ?_, ?_, (fun hv => by cases hv), ?_⟩
    · intro t live hl e he
      rw [Array.getElem?_replicate] at hl
      split at hl <;> cases hl
      cases he
    · intro t live hl
      rw [Array.getElem?_replicate] at hl
      split at hl <;> cases hl
      exact List.Pairwise.nil
    · obtain ⟨-, rfl⟩ := Pool.create_eq hp
      refine (Finset.sum_eq_zero fun t _ => ?_).symm
      simp only [liveCount, Array.getElem?_replicate]
      split <;> rfl

theorem Lists.lastSeq (h : Lists mi L) (s : UInt64) : Lists { mi with lastSeq := s } L :=
  ⟨h.pool, h.stored, h.ascending, h.complete, h.counted⟩

theorem Lists.mirrors (h : Lists mi L) : Mirrors mi L.toClientBook where
  pool := h.pool
  stored hl e he := by
    obtain ⟨u, hu, hk, ht, ho, hL⟩ := h.stored hl e he
    exact ⟨u, hu, hk, ht, ho, by simp [Listing.toClientBook, hL]⟩
  ascending := h.ascending
  complete hv := by
    obtain ⟨v, hv, -⟩ := Option.map_eq_some_iff.1 hv
    exact h.complete hv

theorem Lists.not_live (h : Lists mi L) {tk : TickerId} (hl : mi.books[tk.toNat]? = some live)
    (hn : L.entry (tk, oid) = none) : ∀ e ∈ live, e.1 ≠ oid := by
  intro e he heq
  obtain ⟨u, -, -, ht, -, hL⟩ := h.stored hl e he
  rw [UInt32.toNat_inj.1 ht, heq, hn] at hL
  cases hL

theorem Lists.live_of_entry (h : Lists mi L) {tk : TickerId} {v : Update} (hv : L.entry (tk, oid) = some v) :
    ∃ live slot, mi.books[tk.toNat]? = some live ∧ (oid, slot) ∈ live ∧
      mi.pool.slots[slot]? = some (some v) := by
  obtain ⟨live, hl, hmem⟩ := h.complete hv
  obtain ⟨e, he, rfl⟩ := List.mem_map.1 hmem
  obtain ⟨u, hu, -, ht, -, hL⟩ := h.stored hl e he
  rw [UInt32.toNat_inj.1 ht, hv] at hL
  cases hL
  exact ⟨live, e.2, hl, he, hu⟩

/-! ### Counting the live ids -/

theorem length_placeId : ∀ {live : List (OrderId × Nat)}, (placeId oid slot live).length = live.length + 1
  | [] => rfl
  | (o, s) :: rest => by
    simp only [placeId]
    split
    · rfl
    · simp [length_placeId]

theorem length_filter_ne : ∀ {live : List (OrderId × Nat)}, (live.map (·.1)).Nodup →
    (oid, slot) ∈ live → (live.filter (·.1 != oid)).length + 1 = live.length
  | [], _, hmem => by cases hmem
  | e :: es, hnd, hmem => by
    rw [List.map_cons, List.nodup_cons] at hnd
    rcases List.mem_cons.1 hmem with rfl | hmem
    · -- the dropped id is the first, and no other has it
      have hkeep : es.filter (·.1 != oid) = es := List.filter_eq_self.2 fun e' he' => by
        have hne : e'.1 ≠ oid := fun he => hnd.1 (List.mem_map.2 ⟨e', he', he⟩)
        simpa using hne
      simp [hkeep]
    · have hne : e.1 ≠ oid := fun he => hnd.1 (List.mem_map.2 ⟨_, hmem, he.symm⟩)
      rw [List.filter_cons_of_pos (by simpa using hne), List.length_cons, List.length_cons,
        length_filter_ne hnd.2 hmem]

theorem find?_of_mem (hnd : (live.map (·.1)).Nodup) (hmem : (oid, slot) ∈ live) :
    live.find? (·.1 == oid) = some (oid, slot) := by
  obtain ⟨e, he⟩ : ∃ e, live.find? (·.1 == oid) = some e :=
    Option.isSome_iff_exists.1 (List.find?_isSome.2 ⟨(oid, slot), hmem, by simp⟩)
  have hk : e.1 = oid := by simpa using List.find?_some he
  rw [he, List.inj_on_of_nodup_map hnd (List.mem_of_find?_eq_some he) hmem hk]

theorem sum_length_set! {books : Array (List (OrderId × Nat))} (xs : List (OrderId × Nat))
    (hl : books[t]? = some live) :
    (∑ i ∈ Finset.range books.size, (((books.set! t xs)[i]?).getD []).length) + live.length =
      (∑ i ∈ Finset.range books.size, ((books[i]?).getD []).length) + xs.length := by
  have hlt := lt_size_of_getElem? hl
  have ht : t ∈ Finset.range books.size := Finset.mem_range.2 hlt
  rw [← Finset.add_sum_erase _ _ ht, ← Finset.add_sum_erase _ _ ht]
  have hrest : ∑ i ∈ (Finset.range books.size).erase t, (((books.set! t xs)[i]?).getD []).length =
      ∑ i ∈ (Finset.range books.size).erase t, ((books[i]?).getD []).length :=
    Finset.sum_congr rfl fun i hi => by
      rw [getElem?_set!_of_lt hlt, if_neg (Finset.ne_of_mem_erase hi).symm]
  rw [hrest, getElem?_set!_of_lt hlt, if_pos rfl, hl, Option.getD_some, Option.getD_some]
  omega

/-! ### One update -/

theorem Lists.place (h : Lists mi L) {u : Update} {pool : Pool Update}
    (hk : u.kind = .add) (hl : mi.books[u.tickerId.toNat]? = some live)
    (hn : L.entry (u.tickerId, u.orderId) = none) (ha : mi.pool.tryAllocate u = some (slot, pool)) :
    Lists { mi with pool, books := mi.books.set! u.tickerId.toNat (placeId u.orderId slot live) }
      ⟨Function.update L.entry (u.tickerId, u.orderId) (some u)⟩ := by
  have hfresh := h.not_live hl hn
  obtain ⟨hslot, hfree, rfl⟩ := Pool.tryAllocate_eq_some h.pool ha
  have hslot : slot < mi.pool.slots.size := hslot
  have ht := lt_size_of_getElem? hl
  -- the slot was free, so it is none of the live ids' slots
  have hold : ∀ {t' : Nat} {live' : List (OrderId × Nat)}, mi.books[t']? = some live' →
      ∀ e ∈ live', e.2 ≠ slot := by
    intro t' live' hl' e he hs
    obtain ⟨u', hu', -⟩ := h.stored hl' e he
    rw [hs, hfree] at hu'
    cases hu'
  refine ⟨Pool.inv_tryAllocate h.pool ha, ?_, ?_, ?_, ?_⟩
  · intro t' live' hl' e he
    rw [getElem?_set!_of_lt ht] at hl'
    split at hl'
    · rename_i htt
      cases hl'
      rcases mem_placeId.1 he with rfl | he
      · exact ⟨u, by rw [getElem?_set!_of_lt hslot, if_pos rfl], hk, htt, rfl, by simp⟩
      · obtain ⟨u', hu', hk', ht', ho', hL⟩ := h.stored hl e he
        refine ⟨u', ?_, hk', ht'.trans htt, ho', ?_⟩
        · rw [getElem?_set!_of_lt hslot, if_neg (Ne.symm (hold hl e he))]; exact hu'
        · dsimp only
          rw [Function.update_of_ne (key_ne_of_toNat_ne (.inr (hfresh e he)))]; exact hL
    · rename_i htt
      obtain ⟨u', hu', hk', ht', ho', hL⟩ := h.stored hl' e he
      refine ⟨u', ?_, hk', ht', ho', ?_⟩
      · rw [getElem?_set!_of_lt hslot, if_neg (Ne.symm (hold hl' e he))]; exact hu'
      · dsimp only
        rw [Function.update_of_ne (key_ne_of_toNat_ne (.inl (by rw [ht']; exact Ne.symm htt)))]
        exact hL
  · intro t' live' hl'
    exact ascending_set! ht h.ascending (ascending_placeId (h.ascending hl) hfresh) hl'
  · intro key v hv
    by_cases hkey : key = (u.tickerId, u.orderId)
    · exact live_set!_placeId hl (.inl hkey)
    · dsimp only at hv
      rw [Function.update_of_ne hkey] at hv
      exact live_set!_placeId hl (.inr (h.complete hv))
  · -- one slot more in use, and one id more live
    have hc := h.counted
    have hsum := sum_length_set! (placeId u.orderId slot live) hl
    rw [length_placeId] at hsum
    simp only [liveCount, Array.size_set!] at hc ⊢
    omega

theorem Lists.modify (h : Lists mi L) {u v : Update}
    (hl : mi.books[u.tickerId.toNat]? = some live) (hmem : (u.orderId, slot) ∈ live)
    (hv : L.entry (u.tickerId, u.orderId) = some v) :
    mi.pool.slots[slot]? = some (some v) ∧
      Lists { mi with pool := { mi.pool with
          slots := mi.pool.slots.set! slot (some { v with qty := u.qty, price := u.price }) } }
        ⟨Function.update L.entry (u.tickerId, u.orderId)
          (some { v with qty := u.qty, price := u.price })⟩ := by
  obtain ⟨u₀, hu₀, hk₀, ht₀, ho₀, hL₀⟩ := h.stored hl _ hmem
  have htk : u₀.tickerId = u.tickerId := UInt32.toNat_inj.1 ht₀
  rw [htk, hv] at hL₀
  obtain rfl : v = u₀ := Option.some.inj hL₀
  have hslot := lt_size_of_getElem? hu₀
  have hset : mi.pool.set slot { v with qty := u.qty, price := u.price } =
      .ok { mi.pool with slots := mi.pool.slots.set! slot (some { v with qty := u.qty, price := u.price }) } := by
    simp [Pool.set, Pool.get_of_getElem? hu₀, bind, Except.bind, pure, Except.pure]
  refine ⟨hu₀, ⟨Pool.inv_set h.pool hset, ?_, h.ascending, ?_, h.counted⟩⟩
  · intro t' live' hl' e he
    obtain ⟨u', hu', hk', ht', ho', hL⟩ := h.stored hl' e he
    by_cases hs : e.2 = slot
    · -- the modified order itself
      obtain ⟨rfl, rfl⟩ := h.mirrors.slot_unique hl' hl he hmem hs
      refine ⟨{ v with qty := u.qty, price := u.price }, ?_, hk₀, ht₀, ho₀, ?_⟩
      · rw [getElem?_set!_of_lt hslot, if_pos rfl]
      · simp [htk]
    · refine ⟨u', ?_, hk', ht', ho', ?_⟩
      · rw [getElem?_set!_of_lt hslot, if_neg (Ne.symm hs)]; exact hu'
      · dsimp only
        rw [Function.update_of_ne]
        · exact hL
        · -- the same key would be the same live id, in the same slot
          intro hkey
          have ht'' : t' = u.tickerId.toNat := by rw [← ht', (Prod.mk.inj hkey).1]
          subst ht''
          rw [hl] at hl'
          cases hl'
          exact hs (congrArg Prod.snd (h.mirrors.eq_of_orderId_eq hl he hmem ((Prod.mk.inj hkey).2)))
  · intro key w hw
    by_cases hkey : key = (u.tickerId, u.orderId)
    · subst hkey
      exact ⟨live, hl, List.mem_map.2 ⟨_, hmem, rfl⟩⟩
    · dsimp only at hw
      rw [Function.update_of_ne hkey] at hw
      exact h.complete hw

theorem Lists.cancel (h : Lists mi L) {u : Update}
    (hl : mi.books[u.tickerId.toNat]? = some live) (hmem : (u.orderId, slot) ∈ live) :
    (∃ v, mi.pool.slots[slot]? = some (some v)) ∧
      Lists { mi with pool := mi.pool.vacate slot,
                      books := mi.books.set! u.tickerId.toNat (live.filter (·.1 != u.orderId)) }
        ⟨Function.update L.entry (u.tickerId, u.orderId) none⟩ := by
  obtain ⟨u₀, hu₀, -, -, -, -⟩ := h.stored hl _ hmem
  have ht := lt_size_of_getElem? hl
  refine ⟨⟨u₀, hu₀⟩, Pool.inv_vacate h.pool slot, ?_, ?_, ?_, ?_⟩
  · intro t' live' hl' e he
    -- a live id left has another slot than the freed one
    obtain ⟨live'', hl'', he'', hne⟩ := mem_of_set!_filter hl hl' he
    obtain ⟨u', hu', hk', ht', ho', hL⟩ := h.stored hl'' e he''
    have hs : e.2 ≠ slot := fun hs => by
      obtain ⟨rfl, rfl⟩ := h.mirrors.slot_unique hl'' hl he'' hmem hs
      exact hne rfl rfl
    refine ⟨u', ?_, hk', ht', ho', ?_⟩
    · rw [Pool.getElem?_vacate_of_used hu₀, if_neg (Ne.symm hs)]; exact hu'
    · dsimp only
      rw [Function.update_of_ne]
      · exact hL
      · intro hkey
        exact hne (by rw [← ht', (Prod.mk.inj hkey).1]) ((Prod.mk.inj hkey).2)
  · intro t' live' hl'
    exact ascending_set! ht h.ascending ((h.ascending hl).sublist ((List.filter_sublist).map _)) hl'
  · intro key x hx
    by_cases hkey : key = (u.tickerId, u.orderId)
    · subst hkey
      simp at hx
    · dsimp only at hx
      rw [Function.update_of_ne hkey] at hx
      exact live_set!_filter hl hkey (h.complete hx)
  · -- one slot less in use, and one id less live
    have hc := h.counted
    have hsum := sum_length_set! (live.filter (·.1 != u.orderId)) hl
    have hlen := length_filter_ne (h.mirrors.nodup_ids hl) hmem
    simp only [liveCount, Array.size_set!, Pool.vacate_of_used hu₀] at hc ⊢
    omega

/-- **Applying an update that the listing reads.** An update that carries the next number and
names one of the snapshot book's tickers, of a kind the listing reads without a fault, is applied
without a fault when an ADD finds the pool not full. The snapshot book then lists what the
listing reads, has the update's number as the last, and keeps its sizes. -/
theorem Lists.apply (h : Lists mi L) {m : Stamped} {L' : Listing} (hL : L.apply m.update = some L')
    (hmax : mi.lastSeq ≠ maxSeq) (hseq : m.seq = mi.lastSeq + 1)
    (ht : m.update.tickerId.toNat < mi.books.size)
    (hroom : m.update.kind = .add → mi.pool.allocated < mi.pool.capacity) :
    ∃ mi', mi.apply m = .ok mi' ∧ Lists mi' L' ∧ mi'.lastSeq = m.seq ∧ SameSizes mi mi' := by
  obtain ⟨live, hl⟩ : ∃ live, mi.books[m.update.tickerId.toNat]? = some live :=
    ⟨_, Array.getElem?_eq_getElem ht⟩
  have hbook : mi.bookOf m.update = .ok live := bookOf_eq_ok.2 hl
  have hmax' : ¬ mi.lastSeq = 18446744073709551615 := hmax
  have hseq' : ¬ m.seq ≠ mi.lastSeq + 1 := not_not.2 hseq
  unfold SnapshotBook.apply
  cases hk : m.update.kind
  case add =>
    obtain ⟨hn, rfl⟩ := Listing.apply_add_eq hk hL
    have hany : (live.any fun x => x.1 == m.update.orderId) = false := by
      simpa using h.not_live hl hn
    obtain ⟨slot, hslot, -, ha⟩ := Pool.tryAllocate_of_lt h.pool (hroom hk) m.update
    have hall : mi.pool.allocate m.update = .ok (slot, _) := Pool.allocate_eq_ok.2 ha
    refine ⟨_, by simp only [hmax', hseq', if_false, hk, hbook, hany, hall, bind, Except.bind, pure, Except.pure]; rfl,
      (h.place hk hl hn ha).lastSeq m.seq, rfl, ⟨by simp, Pool.capacity_of_tryAllocate h.pool ha⟩⟩
  case modify =>
    obtain ⟨v, hv, rfl⟩ := Listing.apply_modify_eq hk hL
    obtain ⟨live', slot, hl', hmem, -⟩ := h.live_of_entry hv
    rw [hl] at hl'
    cases hl'
    have hfind := find?_of_mem (h.mirrors.nodup_ids hl) hmem
    obtain ⟨hu, hm⟩ := h.modify hl hmem hv
    refine ⟨_, ?_, hm.lastSeq m.seq, rfl, ⟨rfl, by simp [Pool.capacity]⟩⟩
    simp only [hmax', hseq', if_false, hk, hbook]
    simp [hfind, Pool.set, Pool.get_of_getElem? hu, bind, Except.bind, pure, Except.pure]
  case cancel =>
    obtain ⟨⟨v, hv⟩, rfl⟩ := Listing.apply_cancel_eq hk hL
    obtain ⟨live', slot, hl', hmem, hu⟩ := h.live_of_entry hv
    rw [hl] at hl'
    cases hl'
    have hfind := find?_of_mem (h.mirrors.nodup_ids hl) hmem
    obtain ⟨-, hm⟩ := h.cancel hl hmem
    refine ⟨_, ?_, hm.lastSeq m.seq, rfl, ⟨by simp, by simp⟩⟩
    simp only [hmax', hseq', if_false, hk, hbook]
    simp [hfind, Pool.release, hu, Pool.vacate_of_used hu, bind, Except.bind, pure, Except.pure]
  all_goals
    obtain rfl := Listing.apply_eq_of_kind (by simp [hk]) hL
    exact ⟨_, by simp only [hmax', hseq', if_false, hk]; rfl, h.lastSeq m.seq, rfl, ⟨rfl, rfl⟩⟩

/-- **Applying the next update**, numbered by its value: `Lists.apply` for an update whose number
is one past the last one applied. -/
theorem Lists.apply_next (h : Lists mi L) {m : Stamped} {L' : Listing} (hL : L.apply m.update = some L')
    (hseq : m.seq.toNat = mi.lastSeq.toNat + 1) (ht : m.update.tickerId.toNat < mi.books.size)
    (hroom : m.update.kind = .add → mi.pool.allocated < mi.pool.capacity) :
    ∃ mi', mi.apply m = .ok mi' ∧ Lists mi' L' ∧ mi'.lastSeq.toNat = mi.lastSeq.toNat + 1 ∧
      SameSizes mi mi' := by
  -- a number one past the last one applied exists, so the last one is not the largest
  have hmax : mi.lastSeq ≠ maxSeq := fun he => by
    have := m.seq.toNat_lt
    rw [he] at hseq
    simp [maxSeq] at hseq
    omega
  have hs : m.seq = mi.lastSeq + 1 := UInt64.toNat_inj.1 (by rw [toNat_add_one_of_ne hmax, hseq])
  obtain ⟨mi', ha, h', hlast, hsz⟩ := h.apply hL hmax hs ht hroom
  exact ⟨mi', ha, h', by rw [hlast, hseq], hsz⟩

/-- **A run of updates with no ADD.** Updates numbered on from the last one applied, each naming
one of the snapshot book's tickers, that the listing reads without a fault: the snapshot book
applies them all, lists what the listing reads after them, and keeps its sizes. -/
theorem Lists.applyAll : ∀ {mi : SnapshotBook} {L L' : Listing} {ms : List Stamped},
    Lists mi L → L.applyAll (ms.map (·.update)) = some L' →
    (∀ i (hi : i < ms.length), ms[i].seq.toNat = mi.lastSeq.toNat + i + 1) →
    (∀ m ∈ ms, m.update.tickerId.toNat < mi.books.size) → (∀ m ∈ ms, m.update.kind ≠ .add) →
    ∃ mi', mi.applyAll ms = .ok mi' ∧ Lists mi' L' ∧
      mi'.lastSeq.toNat = mi.lastSeq.toNat + ms.length ∧ SameSizes mi mi'
  | mi, L, L', [], h, hL, _, _, _ => by
    cases hL
    exact ⟨mi, rfl, h, rfl, rfl, rfl⟩
  | mi, L, L', m :: ms, h, hL, hseq, ht, hk => by
    rw [List.map_cons, Listing.applyAll_cons] at hL
    obtain ⟨L₁, hL₁, hrest⟩ := Option.bind_eq_some_iff.1 hL
    obtain ⟨mi₁, ha, h₁, hlast, hsz⟩ := h.apply_next hL₁ (hseq 0 (by simp)) (ht m List.mem_cons_self)
      fun hadd => absurd hadd (hk m List.mem_cons_self)
    obtain ⟨mi', ha', h', hlast', hsz'⟩ := Lists.applyAll h₁ hrest
      (fun i hi => by
        have := hseq (i + 1) (by simp; omega)
        simp only [List.getElem_cons_succ] at this
        rw [hlast, this]
        omega)
      (fun m' hm => hsz.tickers ▸ ht m' (List.mem_cons_of_mem _ hm))
      (fun m' hm => hk m' (List.mem_cons_of_mem _ hm))
    refine ⟨mi', by rw [applyAll_cons, ha]; exact ha', h', ?_, hsz.trans hsz'⟩
    rw [hlast', hlast, List.length_cons]
    omega

/-! ### Reading the live orders -/

open Listing

theorem Lists.mem_liveOrders (h : Lists mi L) (hl : mi.books[t]? = some live) {u : Update}
    (hu : u ∈ mi.liveOrders t) : u.tickerId.toNat = t ∧ L.entry (u.tickerId, u.orderId) = some u := by
  simp only [liveOrders, hl, Option.getD_some, List.mem_filterMap] at hu
  obtain ⟨e, he, hget⟩ := hu
  have hget' : mi.pool.get e.2 = .ok u := by
    revert hget
    cases mi.pool.get e.2 <;> simp [Except.toOption]
  obtain ⟨u', hu', -, ht, ho, hL⟩ := h.stored hl e he
  obtain rfl : u = u' := Option.some.inj (Option.some.inj ((Pool.get_eq_ok hget').symm.trans hu'))
  exact ⟨ht, ho ▸ hL⟩

theorem Lists.map_orderId_liveOrders (h : Lists mi L) (hl : mi.books[t]? = some live) :
    (mi.liveOrders t).map (·.orderId) = live.map (·.1) := by
  simp only [liveOrders, hl, Option.getD_some, List.map_filterMap]
  rw [← List.filterMap_eq_map']
  refine List.filterMap_congr fun e he => ?_
  obtain ⟨u, hu, -, -, ho, -⟩ := h.stored hl e he
  simp [Pool.get_of_getElem? hu, Except.toOption, ho]

theorem Lists.sorted_liveOrders (h : Lists mi L) (t : Nat) :
    (mi.liveOrders t).Pairwise fun u v => u.orderId < v.orderId := by
  cases hl : mi.books[t]? with
  | none => simp [liveOrders, hl]
  | some live =>
    have := h.ascending hl
    rw [← h.map_orderId_liveOrders hl, List.pairwise_map] at this
    exact this

theorem Lists.byId_liveOrders (h : Lists mi L) {tk : TickerId} (hl : mi.books[tk.toNat]? = some live) :
    byId (mi.liveOrders tk.toNat) = L.slice tk := by
  have hnd : ((mi.liveOrders tk.toNat).map (·.orderId)).Nodup := by
    rw [h.map_orderId_liveOrders hl]
    exact h.mirrors.nodup_ids hl
  have hentry : ∀ u ∈ mi.liveOrders tk.toNat, L.slice tk u.orderId = some u := by
    intro u hu
    obtain ⟨ht, hL⟩ := h.mem_liveOrders hl hu
    rw [UInt32.toNat_inj.1 ht] at hL
    exact hL
  funext oid
  cases hv : L.slice tk oid with
  | some v =>
    obtain ⟨live', hl', hmem⟩ := h.complete hv
    rw [hl] at hl'
    cases hl'
    rw [← h.map_orderId_liveOrders hl] at hmem
    obtain ⟨u, hu, rfl⟩ := List.mem_map.1 hmem
    rw [byId_of_mem hnd hu, ← hv, hentry u hu]
  | none =>
    refine byId_eq_none.2 fun hmem => ?_
    obtain ⟨u, hu, rfl⟩ := List.mem_map.1 hmem
    rw [hentry u hu] at hv
    cases hv

theorem Lists.liveCount_eq (h : Lists mi L) {tk : TickerId} (ht : tk.toNat < mi.books.size)
    {rs : List Update} (hs : L.slice tk = byId rs) (hnd : (rs.map (·.orderId)).Nodup) :
    mi.liveCount tk.toNat = rs.length := by
  obtain ⟨live, hl⟩ : ∃ live, mi.books[tk.toNat]? = some live := ⟨_, Array.getElem?_eq_getElem ht⟩
  have hnd' : ((mi.liveOrders tk.toNat).map (·.orderId)).Nodup := by
    rw [h.map_orderId_liveOrders hl]
    exact h.mirrors.nodup_ids hl
  have hperm := perm_of_byId hnd' hnd ((h.byId_liveOrders hl).trans hs)
  calc mi.liveCount tk.toNat = (live.map (·.1)).length := by simp [liveCount, hl]
    _ = ((mi.liveOrders tk.toNat).map (·.orderId)).length := by rw [h.map_orderId_liveOrders hl]
    _ = rs.length := by rw [List.length_map, hperm.length_eq]

/-- **Room for one more order.** When every ticker's slice lists at most `M` records and one of
them fewer, a pool of at least `M` slots per ticker is not full. -/
theorem Lists.allocated_lt (h : Lists mi L) {M : Nat} (hT : mi.books.size ≤ 2 ^ 32)
    (hcap : mi.books.size * M ≤ mi.pool.capacity)
    (hle : ∀ tk : TickerId, tk.toNat < mi.books.size →
      ∃ rs, L.slice tk = byId rs ∧ (rs.map (·.orderId)).Nodup ∧ rs.length ≤ M)
    {tk : TickerId} (htk : tk.toNat < mi.books.size) {rs : List Update} (hs : L.slice tk = byId rs)
    (hnd : (rs.map (·.orderId)).Nodup) (hlt : rs.length < M) :
    mi.pool.allocated < mi.pool.capacity := by
  have hcount : ∀ t ∈ Finset.range mi.books.size, mi.liveCount t ≤ M := by
    intro t ht
    have ht' : t.toUInt32.toNat = t := by
      rw [Nat.toUInt32_eq, UInt32.toNat_ofNat', Nat.mod_eq_of_lt (by simp at ht; omega)]
    obtain ⟨rs', hs', hnd', hle'⟩ := hle t.toUInt32 (by rw [ht']; simpa using ht)
    rw [← ht', h.liveCount_eq (by rw [ht']; simpa using ht) hs' hnd']
    exact hle'
  have hone : mi.liveCount tk.toNat < M := by
    rw [h.liveCount_eq htk hs hnd]
    exact hlt
  calc mi.pool.allocated = ∑ t ∈ Finset.range mi.books.size, mi.liveCount t := h.counted
    _ < ∑ _t ∈ Finset.range mi.books.size, M :=
        Finset.sum_lt_sum hcount ⟨tk.toNat, Finset.mem_range.2 htk, hone⟩
    _ = mi.books.size * M := by simp
    _ ≤ mi.pool.capacity := hcap

end SnapshotBook

end Exchange
