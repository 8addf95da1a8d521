import Exchange.Proofs.Feed.Listing
import Exchange.Proofs.Feed.Cycle

/-!
# The live orders a snapshot book keeps

A snapshot book keeps its live orders in two places that must agree: per ticker, the live ids
with their pool slots, and the pool, whose slots hold the live orders' records. Applying an
update keeps the two in step with a `Listing`, the plain map from ticker and id to record:
whatever update the snapshot book applies, the listing reads without a fault, and the snapshot
book then lists what the listing read (`SnapshotBook.Lists.apply_of_ok`, the converse of
`SnapshotBook.Lists.apply`). Updates are applied one at a time or in batches drawn from a ring
(`SnapshotBook.Applied`); a batch applies the updates it takes off the ring, in order.

What the listing holds can be read off the updates themselves (`Listing.Standing`): the record of
a live order is the last ADD of its ticker and id, which no CANCEL of it follows, with the price
and quantity of the last MODIFY of it since. So every live id names a slot in use holding that
record, no two live ids share a slot, the pool counts the live ids, the last number applied is
the number of updates, and a cycle reads every live order's slot and lists, for each ticker, one
ADD per live order. Main statement: `SnapshotBook.keeps_live_orders`.
-/

namespace Exchange

/-! ## What the updates say of one order -/

namespace Update

/-- The order an update names: its ticker and id. -/
def key (u : Update) : TickerId × OrderId := (u.tickerId, u.orderId)

/-- A record with the price and quantity of the last of the updates `ms`, or as it is when there
are none. -/
def withLatest (r : Update) (ms : List Update) : Update :=
  match ms.getLast? with
  | none => r
  | some v => { r with price := v.price, qty := v.qty }

variable {r v : Update} {ms : List Update}

@[simp] theorem withLatest_nil : r.withLatest [] = r := rfl

@[simp] theorem withLatest_concat :
    r.withLatest (ms ++ [v]) = { r with price := v.price, qty := v.qty } := by
  simp [withLatest]

theorem withLatest_revise (p : Price) (q : Qty) :
    { r.withLatest ms with qty := q, price := p } = { r with price := p, qty := q } := by
  unfold withLatest
  split <;> rfl

end Update

namespace Listing

/-- What the updates `us` say is listed for the order `key`: `r` is the last ADD of the order,
which no CANCEL of it follows, with the price and quantity of the last MODIFY of it since. -/
def Standing (us : List Update) (key : TickerId × OrderId) (r : Update) : Prop :=
  ∃ pre add post, us = pre ++ add :: post ∧ add.kind = .add ∧ add.key = key ∧
    (∀ v ∈ post, v.key = key → v.kind ≠ .add ∧ v.kind ≠ .cancel) ∧
    r = add.withLatest (post.filter fun v => v.kind = .modify ∧ v.key = key)

variable {us : List Update} {key : TickerId × OrderId} {r u : Update} {L L' : Listing}

theorem standing_add (hk : u.kind = .add) : Standing (us ++ [u]) u.key u :=
  ⟨us, u, [], rfl, hk, rfl, (fun _ hv => by cases hv), rfl⟩

theorem Standing.concat (h : Standing us key r)
    (hu : u.key ≠ key ∨ u.kind ≠ .add ∧ u.kind ≠ .modify ∧ u.kind ≠ .cancel) :
    Standing (us ++ [u]) key r := by
  obtain ⟨pre, add, post, rfl, hk, hkey, hpost, rfl⟩ := h
  -- the update is no MODIFY of the order, so the last one is still the last
  have hskip : ¬ (u.kind = .modify ∧ u.key = key) := fun ⟨hm, hkk⟩ =>
    hu.elim (· hkk) (·.2.1 hm)
  refine ⟨pre, add, post ++ [u], by simp, hk, hkey, fun v hv hvk => ?_, by simp [hskip]⟩
  rcases List.mem_append.1 hv with hv | hv
  · exact hpost v hv hvk
  · rw [List.mem_singleton] at hv
    subst hv
    exact hu.elim (absurd hvk ·) fun h => ⟨h.1, h.2.2⟩

theorem Standing.concat_modify (h : Standing us key r) (hk : u.kind = .modify) (hkey : u.key = key) :
    Standing (us ++ [u]) key { r with qty := u.qty, price := u.price } := by
  obtain ⟨pre, add, post, rfl, hadd, hak, hpost, rfl⟩ := h
  refine ⟨pre, add, post ++ [u], by simp, hadd, hak, fun v hv hvk => ?_, ?_⟩
  · rcases List.mem_append.1 hv with hv | hv
    · exact hpost v hv hvk
    · rw [List.mem_singleton] at hv
      subst hv
      rw [hk]
      exact ⟨by decide, by decide⟩
  · rw [Update.withLatest_revise, List.filter_append]
    simp [hk, hkey]

theorem entry_apply_of_ne (h : L.apply u = some L') (hkey : key ≠ u.key) :
    L'.entry key = L.entry key := by
  cases hk : u.kind
  case add => rw [(apply_add_eq hk h).2]; exact Function.update_of_ne hkey _ _
  case modify =>
    obtain ⟨_, -, rfl⟩ := apply_modify_eq hk h
    exact Function.update_of_ne hkey _ _
  case cancel => rw [(apply_cancel_eq hk h).2]; exact Function.update_of_ne hkey _ _
  all_goals rw [apply_eq_of_kind (by simp [hk]) h]

/-- **One update read.** What the listing holds before an update stands by the updates before
it; what it holds after stands by them and the update. -/
theorem standing_apply (hs : ∀ {key r}, L.entry key = some r → Standing us key r)
    (h : L.apply u = some L') (hr : L'.entry key = some r) : Standing (us ++ [u]) key r := by
  by_cases hkey : key = u.key
  case neg =>
    rw [entry_apply_of_ne h hkey] at hr
    exact (hs hr).concat (.inl (Ne.symm hkey))
  subst hkey
  cases hk : u.kind
  case add =>
    rw [(apply_add_eq hk h).2] at hr
    simp only [Update.key, Function.update_self, Option.some.injEq] at hr
    subst hr
    exact standing_add hk
  case modify =>
    obtain ⟨v, hv, rfl⟩ := apply_modify_eq hk h
    simp only [Update.key, Function.update_self, Option.some.injEq] at hr
    subst hr
    exact (hs hv).concat_modify hk rfl
  case cancel =>
    rw [(apply_cancel_eq hk h).2] at hr
    simp [Update.key] at hr
  all_goals
    rw [apply_eq_of_kind (by simp [hk]) h] at hr
    exact (hs hr).concat (.inr (by simp [hk]))

/-- **The listing, read off the updates.** Whatever a listing read from nothing holds for an
order is what the updates say stands for it. -/
theorem standing_applyAll {us : List Update} {L : Listing} (h : Listing.empty.applyAll us = some L)
    {key : TickerId × OrderId} {r : Update} (hr : L.entry key = some r) : Standing us key r := by
  induction us using List.reverseRecOn generalizing L key r with
  | nil =>
    cases h
    simp [Listing.empty] at hr
  | append_singleton us u ih =>
    rw [applyAll_append] at h
    obtain ⟨L₁, h₁, h₂⟩ := Option.bind_eq_some_iff.1 h
    have happly : L₁.apply u = some L := by simpa [applyAll_cons] using h₂
    exact standing_apply (fun hr₁ => ih h₁ hr₁) happly hr

end Listing

/-! ## The snapshot book reads as its listing -/

namespace SnapshotBook

variable {mi mi' : SnapshotBook} {L : Listing} {m : Stamped}

theorem lastSeq_apply (ha : mi.apply m = .ok mi') : mi'.lastSeq.toNat = mi.lastSeq.toNat + 1 := by
  obtain ⟨hmax, hseq, hcase⟩ := apply_eq_ok ha
  have hlast : mi'.lastSeq = m.seq := by
    rcases hcase with ⟨-, _, _, _, -, -, -, rfl⟩ | ⟨-, _, _, _, _, -, -, -, -, rfl⟩ |
      ⟨-, _, _, _, _, -, -, -, rfl⟩ | ⟨-, -, -, rfl⟩ <;> rfl
  rw [hlast, hseq, toNat_add_one_of_ne hmax]

/-- **A snapshot book reads each update it applies as its listing does.** An update applied
without a fault is read by the listing without a fault, and the snapshot book then lists what the
listing read. -/
theorem Lists.apply_of_ok (h : Lists mi L) (ha : mi.apply m = .ok mi') :
    ∃ L', L.apply m.update = some L' ∧ Lists mi' L' := by
  obtain ⟨-, -, hcase⟩ := apply_eq_ok ha
  rcases hcase with ⟨hk, live, slot, pool, hl, hfresh, hx, rfl⟩ |
    ⟨hk, live, slot, old, pool, hl, hmem, hold, hset, rfl⟩ |
    ⟨hk, live, slot, v, pool, hl, hmem, hrel, rfl⟩ | ⟨hadd, hmod, hcan, rfl⟩
  · -- an ADD of an id that is not live: the listing holds nothing for it
    have hn : L.entry (m.update.tickerId, m.update.orderId) = none := by
      cases hv : L.entry (m.update.tickerId, m.update.orderId) with
      | none => rfl
      | some v =>
        obtain ⟨live', hl', hmem'⟩ := h.complete hv
        rw [hl] at hl'
        cases hl'
        obtain ⟨e, he, heq⟩ := List.mem_map.1 hmem'
        exact absurd heq (hfresh e he)
    exact ⟨_, by simp [Listing.apply, hk, hn], (h.place hk hl hn hx).lastSeq m.seq⟩
  · -- a MODIFY of a live id: its slot holds the record the listing holds
    obtain ⟨u₀, -, -, ht₀, -, hL₀⟩ := h.stored hl _ hmem
    rw [UInt32.toNat_inj.1 ht₀] at hL₀
    obtain ⟨hu, hm⟩ := h.modify hl hmem hL₀
    obtain rfl : old = u₀ :=
      Option.some.inj (Option.some.inj ((Pool.get_eq_ok hold).symm.trans hu))
    obtain ⟨-, rfl⟩ := Pool.set_eq_ok hset
    exact ⟨_, by simp [Listing.apply, hk, hL₀], hm.lastSeq m.seq⟩
  · -- a CANCEL of a live id: its slot is freed
    obtain ⟨u₀, -, -, ht₀, -, hL₀⟩ := h.stored hl _ hmem
    rw [UInt32.toNat_inj.1 ht₀] at hL₀
    obtain ⟨-, hm⟩ := h.cancel hl hmem
    obtain ⟨-, rfl⟩ := Pool.release_eq_ok hrel
    exact ⟨_, by simp [Listing.apply, hk, hL₀], hm.lastSeq m.seq⟩
  · -- the other kinds change neither
    refine ⟨L, ?_, h.lastSeq m.seq⟩
    cases hk : m.update.kind
    case add => exact absurd hk hadd
    case modify => exact absurd hk hmod
    case cancel => exact absurd hk hcan
    all_goals simp [Listing.apply, hk]

theorem Lists.applyAll_of_ok : ∀ {mi mi' : SnapshotBook} {L : Listing} {ms : List Stamped},
    Lists mi L → mi.applyAll ms = .ok mi' →
    ∃ L', L.applyAll (ms.map (·.update)) = some L' ∧ Lists mi' L' ∧
      mi'.lastSeq.toNat = mi.lastSeq.toNat + ms.length
  | mi, mi', L, [], h, ha => by
    cases ha
    exact ⟨L, rfl, h, rfl⟩
  | mi, mi', L, m :: ms, h, ha => by
    rw [applyAll_cons] at ha
    cases hm : mi.apply m with
    | error f => rw [hm] at ha; cases ha
    | ok mi₁ =>
      rw [hm] at ha
      obtain ⟨L₁, hL₁, h₁⟩ := h.apply_of_ok hm
      obtain ⟨L', hL', h', hlast⟩ := Lists.applyAll_of_ok h₁ ha
      refine ⟨L', ?_, h', ?_⟩
      · rw [List.map_cons, Listing.applyAll_cons, hL₁]
        exact hL'
      · rw [hlast, lastSeq_apply hm, List.length_cons]
        omega

/-! ## Batches from a ring -/

/-- **A batch applies what it takes off the ring.** A batch that ends without a fault, having
applied `n` updates, leaves the snapshot book that applying the `n` oldest updates of a
well-formed ring leads to. -/
theorem applyAll_of_pollFrom : ∀ (fuel : Nat) {mi mi' : SnapshotBook} {ring ring' : Ring Stamped}
    {max n : Nat}, ring.WF → mi.pollFrom ring max fuel = .ok (n, mi', ring') →
    mi.applyAll (ring.toList.take n) = .ok mi'
  | 0, mi, mi', ring, ring', max, n, _, h => by
    cases h
    rfl
  | fuel + 1, mi, mi', ring, ring', max, n, hw, h => by
    unfold pollFrom at h
    split at h
    · cases h
      rfl
    split at h
    · cases h
      rfl
    rename_i m ring₁ hpop
    simp only [bind, Except.bind] at h
    split at h
    · cases h
    rename_i mi₁ ha
    split at h
    · cases h
    rename_i x hrest
    obtain ⟨n', mi₂, ring₂⟩ := x
    cases h
    obtain ⟨hw₁, hl⟩ := hw.pop
    simp only [hpop, Option.toList_some, List.singleton_append] at hw₁ hl
    rw [hl, List.take_succ_cons, applyAll_cons, ha]
    exact applyAll_of_pollFrom fuel hw₁ hrest

/-- The snapshot books that applying records leads to from `mi₀`, one at a time or in batches
drawn from a well-formed ring, with the records applied, in order. -/
inductive Applied (mi₀ : SnapshotBook) : SnapshotBook → List Stamped → Prop
  | start : Applied mi₀ mi₀ []
  | apply {mi mi' : SnapshotBook} {ms : List Stamped} {m : Stamped} :
      Applied mi₀ mi ms → mi.apply m = .ok mi' → Applied mi₀ mi' (ms ++ [m])
  | pollBatch {mi mi' : SnapshotBook} {ms : List Stamped} {ring ring' : Ring Stamped} {max n : Nat} :
      Applied mi₀ mi ms → ring.WF → mi.pollBatch ring max = .ok (n, mi', ring') →
      Applied mi₀ mi' (ms ++ ring.toList.take n)

theorem Applied.applyAll {mi₀ : SnapshotBook} {ms : List Stamped} (h : Applied mi₀ mi ms) :
    mi₀.applyAll ms = .ok mi := by
  induction h with
  | start => rfl
  | apply _ ha ih =>
    rw [applyAll_append, ih]
    show _ = _
    rw [Except.bind, applyAll_cons, ha]
    rfl
  | pollBatch _ hw hp ih =>
    rw [applyAll_append, ih]
    exact applyAll_of_pollFrom _ hw hp

/-! ## What a cycle lists -/

theorem Lists.add_of_mem_liveOrders (h : Lists mi L) {t : Nat} {u : Update}
    (hu : u ∈ mi.liveOrders t) : u.kind = .add ∧ u.tickerId.toNat = t := by
  cases hl : mi.books[t]? with
  | none => simp [liveOrders, hl] at hu
  | some live =>
    simp only [liveOrders, hl, Option.getD_some, List.mem_filterMap] at hu
    obtain ⟨e, he, hget⟩ := hu
    obtain ⟨u', hu', hk, ht, -, -⟩ := h.stored hl e he
    rw [Pool.get_of_getElem? hu'] at hget
    simp only [Except.toOption, Option.some.injEq] at hget
    subst hget
    exact ⟨hk, ht⟩

theorem Lists.length_liveOrders (h : Lists mi L) (t : Nat) :
    (mi.liveOrders t).length = mi.liveCount t := by
  cases hl : mi.books[t]? with
  | none => simp [liveOrders, liveCount, hl]
  | some live =>
    have hlen := congrArg List.length (h.map_orderId_liveOrders hl)
    simpa [liveCount, hl] using hlen

theorem Lists.countP_tickerRecords (h : Lists mi L) (t : Nat) : ∀ {ts : List Nat}, ts.Nodup →
    (ts.flatMap mi.tickerRecords).countP (fun u => u.kind = .add ∧ u.tickerId.toNat = t) =
      if t ∈ ts then mi.liveCount t else 0
  | [], _ => by simp
  | t' :: ts, hnd => by
    obtain ⟨hout, hnd'⟩ := List.nodup_cons.1 hnd
    have hone : (mi.tickerRecords t').countP (fun u => u.kind = .add ∧ u.tickerId.toNat = t) =
        if t' = t then mi.liveCount t else 0 := by
      rw [tickerRecords, List.countP_cons, if_neg (by simp [marker]), Nat.add_zero]
      by_cases ht : t' = t
      · subst ht
        rw [if_pos rfl, ← h.length_liveOrders t']
        exact List.countP_eq_length.2 fun u hu => by simpa using h.add_of_mem_liveOrders hu
      · rw [if_neg ht, List.countP_eq_zero.2 fun u hu => by
          simp [(h.add_of_mem_liveOrders hu).2, ht]]
    rw [List.flatMap_cons, List.countP_append, hone, Lists.countP_tickerRecords h t hnd']
    by_cases ht : t' = t
    · subst ht
      simp [hout]
    · simp [ht, Ne.symm ht]

/-- **A cycle lists one ADD per live order of each ticker.** -/
theorem Lists.countP_cycleBody (h : Lists mi L) (t : Nat) :
    mi.cycleBody.countP (fun u => u.kind = .add ∧ u.tickerId.toNat = t) = mi.liveCount t := by
  rw [cycleBody_eq, List.countP_cons, List.countP_append, h.countP_tickerRecords t List.nodup_range]
  by_cases ht : t < mi.books.size
  · simp [ht, marker]
  · -- a ticker past the book has no live orders
    have h0 : mi.liveCount t = 0 := by
      simp [liveCount, Array.getElem?_eq_none (Nat.le_of_not_lt ht)]
    simp [ht, h0, marker]

/-! ## The main statement -/

/-- **A snapshot book keeps its live orders.** Start from a new snapshot book and apply records,
one at a time or in batches from a ring, without a fault. Then the last number applied is the
number of records; the pool counts the live ids; each live id of ticker `t` names a slot in use
that holds an ADD of `t` and that id, as the updates say it stands: the last ADD of the order,
with the price and quantity of the last MODIFY of it since; no two live ids share a slot; and the
cycle reads every live order's slot and lists, for each ticker, one ADD per live order. -/
theorem keeps_live_orders {T cap : Nat} {mi₀ : SnapshotBook} {ms : List Stamped}
    (h₀ : create T cap = .ok mi₀) (h : Applied mi₀ mi ms) :
    mi.lastSeq.toNat = ms.length ∧
    mi.pool.allocated = ∑ t ∈ Finset.range mi.books.size, mi.liveCount t ∧
    (∀ {t : Nat} {live : List (OrderId × Nat)}, mi.books[t]? = some live → ∀ e ∈ live,
      ∃ r, mi.pool.slots[e.2]? = some (some r) ∧ r.kind = .add ∧ r.tickerId.toNat = t ∧
        r.orderId = e.1 ∧ Listing.Standing (ms.map (·.update)) r.key r) ∧
    (∀ {t t' : Nat} {live live' : List (OrderId × Nat)} {e e' : OrderId × Nat},
      mi.books[t]? = some live → mi.books[t']? = some live' → e ∈ live → e' ∈ live' →
        e.2 = e'.2 → t = t' ∧ e = e') ∧
    ∀ t, (mi.liveOrders t).length = mi.liveCount t ∧
      mi.cycleBody.countP (fun u => u.kind = .add ∧ u.tickerId.toNat = t) = mi.liveCount t := by
  obtain ⟨L, hL, hlists, hlast⟩ := (lists_create h₀).applyAll_of_ok h.applyAll
  refine ⟨?_, hlists.counted, fun hl e he => ?_, hlists.mirrors.slot_unique,
    fun t => ⟨hlists.length_liveOrders t, hlists.countP_cycleBody t⟩⟩
  · rw [hlast, (create_sizes h₀).2.2.2, UInt64.toNat_zero, Nat.zero_add]
  · obtain ⟨r, hr, hk, ht, ho, hent⟩ := hlists.stored hl e he
    rw [← ho] at hent
    exact ⟨r, hr, hk, ht, ho, Listing.standing_applyAll hL hent⟩

/-- One ticker, the ADD of order 7 and then a MODIFY of it, applied one at a time: the order is
live with the MODIFY's price and quantity. -/
theorem keeps_live_orders_after_modify :
    let add : Stamped := ⟨1, ⟨.add, 7, 0, .buy, 100, 10, 1⟩⟩
    let modify : Stamped := ⟨2, ⟨.modify, 7, 0, .buy, 101, 4, 1⟩⟩
    ∃ mi₀ mi : SnapshotBook, create 1 2 = .ok mi₀ ∧ Applied mi₀ mi [add, modify] ∧
      mi.liveOrders 0 = [⟨.add, 7, 0, .buy, 101, 4, 1⟩] ∧
      mi.lastSeq.toNat = [add, modify].length ∧
      mi.pool.allocated = ∑ t ∈ Finset.range mi.books.size, mi.liveCount t ∧
      (∀ {t : Nat} {live : List (OrderId × Nat)}, mi.books[t]? = some live → ∀ e ∈ live,
        ∃ r, mi.pool.slots[e.2]? = some (some r) ∧ r.kind = .add ∧ r.tickerId.toNat = t ∧
          r.orderId = e.1 ∧ Listing.Standing ([add, modify].map (·.update)) r.key r) ∧
      (∀ {t t' : Nat} {live live' : List (OrderId × Nat)} {e e' : OrderId × Nat},
        mi.books[t]? = some live → mi.books[t']? = some live' → e ∈ live → e' ∈ live' →
          e.2 = e'.2 → t = t' ∧ e = e') ∧
      ∀ t, (mi.liveOrders t).length = mi.liveCount t ∧
        mi.cycleBody.countP (fun u => u.kind = .add ∧ u.tickerId.toNat = t) = mi.liveCount t := by
  intro add modify
  have ha := Applied.apply (Applied.apply Applied.start
    (show SnapshotBook.apply ⟨⟨Array.replicate 2 none, 0, 0⟩, Array.replicate 1 [], 0⟩ add = _ from rfl))
    (show SnapshotBook.apply _ modify = _ from rfl)
  exact ⟨_, _, rfl, ha, rfl, @keeps_live_orders _ 1 2 _ _ rfl ha⟩

end SnapshotBook

end Exchange
