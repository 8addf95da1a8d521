import Mathlib.Algebra.Order.BigOperators.Group.List
import Mathlib.Algebra.Order.Group.Nat
import Exchange.Proofs.Feed.Snapshot

/-!
# Snapshot cycles

What a cycle of a snapshot book that mirrors a participant's book `B` holds:

* read into any book whose orders belong to the snapshot book's tickers, its records leave
  exactly `B` (`Mirrors.applyAll_cycleBody`): each ticker's CLEAR empties the ticker, and its
  live orders, as ADDs, enter `B`'s orders of that ticker;
* it is framed (`Framed`): its records are numbered from 0, a SNAPSHOT_START comes first and a
  SNAPSHOT_END last, both carrying the number of the last update applied, no marker stands
  between them, and there are no more records than numbers.

So records taken in order from the cycles a snapshot book publishes as it follows the updates,
numbered `0, 1, …, e`, with a START first and an END last that carry the same number, are one
whole cycle (`eq_cycle_of_sublist`). The snapshot book only moves forward, so every record
between the two markers comes from a cycle published at that same number, and there is one.
-/

namespace Exchange.SnapshotBook

variable {mi : SnapshotBook} {B : ClientBook} {t : Nat} {live : List (OrderId × Nat)}

/-- The records of one ticker in a cycle: a CLEAR, then the live orders. -/
def tickerRecords (mi : SnapshotBook) (t : Nat) : List Update :=
  marker .clear noOrder t.toUInt32 :: mi.liveOrders t

theorem cycleBody_eq : mi.cycleBody = marker .snapshotStart mi.lastSeq noTicker ::
    ((List.range mi.books.size).flatMap mi.tickerRecords ++
      [marker .snapshotEnd mi.lastSeq noTicker]) := rfl

theorem length_cycle : mi.cycle.length = mi.cycleBody.length := by
  simp [cycle]

theorem getElem?_cycle {i : Nat} (h : i < mi.cycleBody.length) :
    mi.cycle[i]? = some ⟨i.toUInt64, mi.cycleBody[i]⟩ := by
  simp [cycle, h]

theorem mem_cycle {x : Stamped} :
    x ∈ mi.cycle ↔ ∃ i : Nat, mi.cycleBody[i]? = some x.update ∧ x.seq = i.toUInt64 := by
  rw [List.mem_iff_getElem?]
  constructor
  · rintro ⟨i, hi⟩
    have hlt : i < mi.cycleBody.length := by
      rw [← length_cycle]; exact (List.getElem?_eq_some_iff.1 hi).1
    rw [getElem?_cycle hlt] at hi
    cases hi
    exact ⟨i, List.getElem?_eq_getElem hlt, rfl⟩
  · rintro ⟨i, hi, hs⟩
    obtain ⟨hlt, hx⟩ := List.getElem?_eq_some_iff.1 hi
    refine ⟨i, ?_⟩
    rw [getElem?_cycle hlt, hx, ← hs]

theorem map_update_cycle : mi.cycle.map (·.update) = mi.cycleBody := by
  apply List.ext_getElem?
  intro i
  rw [List.getElem?_map]
  by_cases h : i < mi.cycleBody.length
  · rw [getElem?_cycle h, List.getElem?_eq_getElem h]
    rfl
  · rw [List.getElem?_eq_none (by rw [length_cycle]; omega), List.getElem?_eq_none (by omega)]
    rfl

/-! ## The live orders of a ticker -/

theorem Mirrors.mem_liveOrders (h : Mirrors mi B) (hl : mi.books[t]? = some live) {u : Update}
    (hu : u ∈ mi.liveOrders t) :
    u.kind = .add ∧ u.tickerId.toNat = t ∧
      B.entry (u.tickerId, u.orderId) = some (u.side, u.price, u.qty) := by
  simp only [liveOrders, hl, Option.getD_some, List.mem_filterMap] at hu
  obtain ⟨e, he, hget⟩ := hu
  have hget' : mi.pool.get e.2 = .ok u := by
    revert hget
    cases mi.pool.get e.2 <;> simp [Except.toOption]
  obtain ⟨u', hu', hk, ht, ho, hB⟩ := h.stored hl e he
  obtain rfl : u = u' :=
    Option.some.inj (Option.some.inj ((Pool.get_eq_ok hget').symm.trans hu'))
  exact ⟨hk, ht, ho ▸ hB⟩

theorem Mirrors.key_mem_liveOrders (h : Mirrors mi B) {k : TickerId × OrderId}
    {v : Side × Price × Qty} (hv : B.entry k = some v) :
    k ∈ (mi.liveOrders k.1.toNat).map fun u => (u.tickerId, u.orderId) := by
  obtain ⟨live, hl, hmem⟩ := h.complete hv
  obtain ⟨e, he, he1⟩ := List.mem_map.1 hmem
  obtain ⟨u, hu, -, ht, ho, -⟩ := h.stored hl e he
  refine List.mem_map.2 ⟨u, ?_, ?_⟩
  · simp only [liveOrders, hl, Option.getD_some, List.mem_filterMap]
    exact ⟨e, he, by simp [Pool.get_of_getElem? hu, Except.toOption]⟩
  · rw [UInt32.toNat_inj.1 ht, ho, he1]

/-! ## Reading a cycle -/

theorem Mirrors.applyAll_tickerRecords (h : Mirrors mi B) (ht : t < mi.books.size)
    (hT : t < 2 ^ 32) (Y : ClientBook) :
    Y.applyAll (mi.tickerRecords t) =
      some ⟨fun k => if k.1.toNat = t then B.entry k else Y.entry k⟩ := by
  obtain ⟨live, hl⟩ : ∃ live, mi.books[t]? = some live := ⟨_, Array.getElem?_eq_getElem ht⟩
  have hadds : ∀ u ∈ mi.liveOrders t,
      u.kind = .add ∧ B.entry (u.tickerId, u.orderId) = some (u.side, u.price, u.qty) :=
    fun u hu => ⟨(h.mem_liveOrders hl hu).1, (h.mem_liveOrders hl hu).2.2⟩
  have hclear : ∀ k : TickerId × OrderId,
      k.1 = (marker .clear noOrder t.toUInt32).tickerId ↔ k.1.toNat = t := by
    intro k
    show k.1 = t.toUInt32 ↔ _
    rw [← UInt32.toNat_inj, Nat.toUInt32_eq, UInt32.toNat_ofNat', Nat.mod_eq_of_lt hT]
  rw [tickerRecords, ClientBook.applyAll_cons, ClientBook.apply_clear rfl, Option.bind_some,
    ClientBook.applyAll_adds hadds]
  refine congrArg some (ClientBook.ext (funext fun k => ?_))
  dsimp only
  by_cases hk : k.1.toNat = t
  · rw [if_pos hk, if_pos ((hclear k).2 hk)]
    split
    · rfl
    · -- an order of the ticker that `B` holds is among its live orders
      rename_i hin
      cases hb : B.entry k with
      | none => rfl
      | some v => exact absurd (hk ▸ h.key_mem_liveOrders hb) hin
  · rw [if_neg hk, if_neg (fun h' => hk ((hclear k).1 h')), if_neg]
    intro hin
    obtain ⟨u, hu, rfl⟩ := List.mem_map.1 hin
    exact hk (h.mem_liveOrders hl hu).2.1

theorem Mirrors.applyAll_tickers (h : Mirrors mi B) (hT : mi.books.size ≤ 2 ^ 32) (X : ClientBook) :
    ∀ n ≤ mi.books.size, X.applyAll ((List.range n).flatMap mi.tickerRecords) =
      some ⟨fun k => if k.1.toNat < n then B.entry k else X.entry k⟩
  | 0, _ => by simp
  | n + 1, hn => by
    rw [List.range_succ, List.flatMap_append, List.flatMap_singleton, ClientBook.applyAll_append,
      h.applyAll_tickers hT X n (Nat.le_of_succ_le hn), Option.bind_some,
      h.applyAll_tickerRecords (by omega) (by omega)]
    refine congrArg some (ClientBook.ext (funext fun k => ?_))
    dsimp only
    by_cases hk : k.1.toNat = n
    · simp [hk]
    · by_cases hlt : k.1.toNat < n
      · simp [hk, hlt, show k.1.toNat < n + 1 by omega]
      · simp [hk, hlt, show ¬ k.1.toNat < n + 1 by omega]

/-- **A cycle rebuilds the participant's book.** Read into a book whose orders belong to the
snapshot book's tickers, the records of a cycle leave exactly the orders the snapshot book
mirrors. -/
theorem Mirrors.applyAll_cycleBody (h : Mirrors mi B) (hT : mi.books.size ≤ 2 ^ 32) {X : ClientBook}
    (hX : ∀ k v, X.entry k = some v → k.1.toNat < mi.books.size) :
    X.applyAll mi.cycleBody = some B := by
  rw [cycleBody_eq, ClientBook.applyAll_cons, ClientBook.apply_of_isMarker rfl, Option.bind_some,
    ClientBook.applyAll_append, h.applyAll_tickers hT X _ le_rfl, Option.bind_some,
    ClientBook.applyAll_cons, ClientBook.apply_of_isMarker rfl, Option.bind_some,
    ClientBook.applyAll_nil]
  refine congrArg some (ClientBook.ext (funext fun k => ?_))
  dsimp only
  split
  · rfl
  · -- neither book holds an order of a ticker beyond the snapshot book's
    rename_i hk
    have hX' : X.entry k = none := by
      cases hx : X.entry k with
      | none => rfl
      | some v => exact absurd (hX k v hx) hk
    have hB : B.entry k = none := by
      cases hb : B.entry k with
      | none => rfl
      | some v =>
        obtain ⟨live, hl, -⟩ := h.complete hb
        exact absurd (lt_size_of_getElem? hl) hk
    rw [hX', hB]

/-! ## The frame of a cycle -/

/-- The frame of a cycle: a SNAPSHOT_START first and a SNAPSHOT_END last, both carrying the
number of the last update applied, and no more records than numbers. -/
structure Framed (mi : SnapshotBook) : Prop where
  start : ∀ x ∈ mi.cycle, x.update.kind = .snapshotStart → x.update.orderId = mi.lastSeq
  finish : ∀ x ∈ mi.cycle, x.update.kind = .snapshotEnd →
    x.seq.toNat + 1 = mi.cycle.length ∧ x.update.orderId = mi.lastSeq
  length_le : mi.cycle.length ≤ 2 ^ 64

theorem Framed.getElem?_seq (hF : mi.Framed) {x : Stamped} (hx : x ∈ mi.cycle) :
    mi.cycle[x.seq.toNat]? = some x := by
  obtain ⟨i, hi, hs⟩ := mem_cycle.1 hx
  have hlt : i < mi.cycleBody.length := (List.getElem?_eq_some_iff.1 hi).1
  have hi' : x.seq.toNat = i := by
    rw [hs, Nat.toUInt64_eq, UInt64.toNat_ofNat', Nat.mod_eq_of_lt]
    exact Nat.lt_of_lt_of_le (length_cycle ▸ hlt) hF.length_le
  rw [hi', getElem?_cycle hlt, ← hs, (List.getElem?_eq_some_iff.1 hi).2]

theorem Mirrors.isMarker_of_mem_tickers (h : Mirrors mi B) {u : Update}
    (hu : u ∈ (List.range mi.books.size).flatMap mi.tickerRecords) : u.isMarker = false := by
  obtain ⟨t, ht, hu⟩ := List.mem_flatMap.1 hu
  rcases List.mem_cons.1 hu with rfl | hu
  · rfl
  · obtain ⟨live, hl⟩ : ∃ live, mi.books[t]? = some live :=
      ⟨_, Array.getElem?_eq_getElem (List.mem_range.1 ht)⟩
    simp [Update.isMarker, (h.mem_liveOrders hl hu).1]

theorem mem_getD_books {e : OrderId × Nat} (he : e ∈ (mi.books[t]?).getD []) :
    ∃ live, mi.books[t]? = some live ∧ e ∈ live := by
  cases hl : mi.books[t]? with
  | none => rw [hl] at he; cases he
  | some live => rw [hl] at he; exact ⟨live, rfl, he⟩

theorem Mirrors.liveCount_le (h : Mirrors mi B) :
    ((List.range mi.books.size).map fun t => ((mi.books[t]?).getD []).length).sum ≤
      mi.pool.capacity := by
  have hnd : ((List.range mi.books.size).flatMap fun t => ((mi.books[t]?).getD []).map (·.2)).Nodup := by
    rw [List.nodup_flatMap]
    refine ⟨fun t _ => ?_, List.nodup_range.imp fun {a b} hab => ?_⟩
    · cases hl : mi.books[t]? with
      | none => exact List.nodup_nil
      | some live =>
        exact List.Nodup.map_on (fun e he e' he' hs => (h.slot_unique hl hl he he' hs).2)
          ((h.nodup_ids hl).of_map _)
    · -- two tickers share no slot
      intro s hs hs'
      obtain ⟨e, he, rfl⟩ := List.mem_map.1 hs
      obtain ⟨e', he', hs⟩ := List.mem_map.1 hs'
      obtain ⟨live, hl, he⟩ := mem_getD_books he
      obtain ⟨live', hl', he'⟩ := mem_getD_books he'
      exact hab (h.slot_unique hl hl' he he' hs.symm).1
  have hsub : ((List.range mi.books.size).flatMap fun t => ((mi.books[t]?).getD []).map (·.2)) ⊆
      List.range mi.pool.capacity := by
    intro s hs
    obtain ⟨t, -, hs⟩ := List.mem_flatMap.1 hs
    obtain ⟨e, he, rfl⟩ := List.mem_map.1 hs
    obtain ⟨live, hl, he⟩ := mem_getD_books he
    obtain ⟨u, hu, -⟩ := h.stored hl e he
    exact List.mem_range.2 (lt_size_of_getElem? hu)
  simpa [List.length_flatMap] using (List.subperm_of_subset hnd hsub).length_le

theorem Mirrors.length_cycle_le (h : Mirrors mi B) :
    mi.cycle.length ≤ mi.books.size + mi.pool.capacity + 2 := by
  have hle : ∀ t ∈ List.range mi.books.size,
      (mi.tickerRecords t).length ≤ 1 + ((mi.books[t]?).getD []).length := by
    intro t _
    simp only [tickerRecords, liveOrders, List.length_cons]
    have := List.length_filterMap_le (fun (x : OrderId × Nat) => (mi.pool.get x.2).toOption)
      ((mi.books[t]?).getD [])
    omega
  have hsum : ((List.range mi.books.size).map fun t => (mi.tickerRecords t).length).sum ≤
      mi.books.size + ((List.range mi.books.size).map fun t => ((mi.books[t]?).getD []).length).sum := by
    have := List.sum_le_sum hle
    rw [List.sum_map_add] at this
    simpa using this
  have hcount := h.liveCount_le
  rw [length_cycle, cycleBody_eq]
  simp only [List.length_cons, List.length_append, List.length_flatMap, List.length_nil]
  omega

/-- **A cycle is framed**, when its snapshot book has fewer tickers and slots than numbers. -/
theorem Mirrors.framed (h : Mirrors mi B) (hsize : mi.books.size + mi.pool.capacity + 2 ≤ 2 ^ 64) :
    mi.Framed := by
  have hL := h.length_cycle_le
  have hbody : mi.cycleBody = (marker .snapshotStart mi.lastSeq noTicker ::
      (List.range mi.books.size).flatMap mi.tickerRecords) ++ [marker .snapshotEnd mi.lastSeq noTicker] := by
    rw [cycleBody_eq, List.cons_append]
  refine ⟨fun x hx hk => ?_, fun x hx hk => ?_, by omega⟩
  · -- a START stands only first
    obtain ⟨i, hi, -⟩ := mem_cycle.1 hx
    rw [cycleBody_eq] at hi
    cases i with
    | zero =>
      rw [List.getElem?_cons_zero] at hi
      rw [← Option.some.inj hi]
      rfl
    | succ j =>
      rw [List.getElem?_cons_succ] at hi
      rcases List.mem_append.1 (List.mem_of_getElem? hi) with hm | hm
      · have := h.isMarker_of_mem_tickers hm
        simp [Update.isMarker, hk] at this
      · rw [List.mem_singleton] at hm
        rw [hm] at hk
        cases hk
  · -- an END stands only last
    obtain ⟨i, hi, hs⟩ := mem_cycle.1 hx
    have hlt : i < mi.cycleBody.length := (List.getElem?_eq_some_iff.1 hi).1
    rw [hbody] at hi
    by_cases hin : i < (marker .snapshotStart mi.lastSeq noTicker ::
        (List.range mi.books.size).flatMap mi.tickerRecords).length
    · rw [List.getElem?_append_left hin] at hi
      rcases List.mem_cons.1 (List.mem_of_getElem? hi) with hm | hm
      · rw [hm] at hk
        cases hk
      · have := h.isMarker_of_mem_tickers hm
        simp [Update.isMarker, hk] at this
    · rw [List.getElem?_append_right (Nat.le_of_not_lt hin)] at hi
      have hlen : mi.cycleBody.length = (marker .snapshotStart mi.lastSeq noTicker ::
          (List.range mi.books.size).flatMap mi.tickerRecords).length + 1 := by
        rw [hbody, List.length_append, List.length_singleton]
      have hi0 : i - (marker .snapshotStart mi.lastSeq noTicker ::
          (List.range mi.books.size).flatMap mi.tickerRecords).length = 0 := by omega
      rw [hi0, List.getElem?_cons_zero] at hi
      refine ⟨?_, by rw [← Option.some.inj hi]; rfl⟩
      rw [hs, Nat.toUInt64_eq, UInt64.toNat_ofNat', Nat.mod_eq_of_lt (by rw [length_cycle] at hL; omega),
        length_cycle]
      omega

/-! ## A whole cycle among the published ones -/

/-- **A framed run of published records is one whole cycle.** Take records in order from the
cycles of snapshot books that only move forward, one snapshot book to a number, each cycle framed.
If they are numbered `0, 1, …` by place, the first is a SNAPSHOT_START and the last a SNAPSHOT_END
carrying the same number, then they are all the records of one of those cycles. -/
theorem eq_cycle_of_sublist {snaps : List SnapshotBook}
    (hsorted : snaps.Pairwise fun a b => a.lastSeq ≤ b.lastSeq)
    (hone : ∀ a ∈ snaps, ∀ b ∈ snaps, a.lastSeq = b.lastSeq → a = b)
    (hframed : ∀ a ∈ snaps, a.Framed) {Q : List Stamped} (hQ : Q.Sublist (snaps.flatMap cycle))
    (hseq : ∀ i (h : i < Q.length), Q[i].seq.toNat = i) {f l : Stamped} (hf : Q.head? = some f)
    (hl : Q.getLast? = some l) (hstart : f.update.kind = .snapshotStart)
    (hend : l.update.kind = .snapshotEnd) (hmark : f.update.orderId = l.update.orderId) :
    ∃ a ∈ snaps, Q = a.cycle := by
  -- tag each published record with the snapshot book that published it
  have htag : snaps.flatMap cycle = (snaps.flatMap fun a => a.cycle.map (a, ·)).map (·.2) := by
    simp [List.map_flatMap]
  rw [htag] at hQ
  obtain ⟨Qt, hQt, rfl⟩ := List.sublist_map_iff.1 hQ
  have hmem : ∀ p ∈ Qt, p.1 ∈ snaps ∧ p.2 ∈ p.1.cycle := by
    intro p hp
    obtain ⟨a, ha, hp⟩ := List.mem_flatMap.1 (hQt.subset hp)
    obtain ⟨x, hx, rfl⟩ := List.mem_map.1 hp
    exact ⟨ha, hx⟩
  have hpw : Qt.Pairwise fun p q => p.1.lastSeq ≤ q.1.lastSeq := by
    refine List.Pairwise.sublist hQt ?_
    rw [List.pairwise_flatMap]
    refine ⟨fun a _ => ?_, hsorted.imp fun hab x hx y hy => ?_⟩
    · rw [List.pairwise_map]
      exact List.pairwise_of_forall fun _ _ => UInt64.le_refl _
    · obtain ⟨_, _, rfl⟩ := List.mem_map.1 hx
      obtain ⟨_, _, rfl⟩ := List.mem_map.1 hy
      exact hab
  rw [List.head?_map, Option.map_eq_some_iff] at hf
  obtain ⟨pf, hpf, rfl⟩ := hf
  rw [List.getLast?_map, Option.map_eq_some_iff] at hl
  obtain ⟨pl, hpl, rfl⟩ := hl
  obtain ⟨rest, hrest⟩ := List.head?_eq_some_iff.1 hpf
  obtain ⟨init, hinit⟩ := List.getLast?_eq_some_iff.1 hpl
  have hpl_mem : pl ∈ Qt := hinit ▸ List.mem_append_right _ List.mem_cons_self
  have hpf' := hmem pf (hrest ▸ List.mem_cons_self)
  have hpl' := hmem pl hpl_mem
  have hfirst := (hframed _ hpf'.1).start _ hpf'.2 hstart
  obtain ⟨hlen, hlast⟩ := (hframed _ hpl'.1).finish _ hpl'.2 hend
  have hall : ∀ p ∈ Qt, p.1 = pf.1 := by
    intro p hp
    have h1 : pf.1.lastSeq ≤ p.1.lastSeq := by
      rw [hrest] at hp hpw
      rcases List.mem_cons.1 hp with rfl | hp
      · exact UInt64.le_refl _
      · exact List.rel_of_pairwise_cons hpw hp
    have h2 : p.1.lastSeq ≤ pl.1.lastSeq := by
      rw [hinit] at hp hpw
      rcases List.mem_append.1 hp with hp | hp
      · exact (List.pairwise_append.1 hpw).2.2 _ hp _ List.mem_cons_self
      · rw [List.mem_singleton.1 hp]
        exact UInt64.le_refl _
    refine hone _ (hmem p hp).1 _ hpf'.1 (UInt64.le_antisymm ?_ h1)
    calc p.1.lastSeq ≤ pl.1.lastSeq := h2
      _ = pf.1.lastSeq := by rw [← hlast, ← hmark, hfirst]
  have hcyc : ∀ p ∈ Qt, p.2 ∈ pf.1.cycle := fun p hp => hall p hp ▸ (hmem p hp).2
  have hF := hframed _ hpf'.1
  refine ⟨pf.1, hpf'.1, List.ext_getElem? fun i => ?_⟩
  rcases Nat.lt_or_ge i Qt.length with hi | hi
  · -- each record stands at its number
    have hs := hseq i (by simpa using hi)
    rw [List.getElem_map] at hs
    have hat := hF.getElem?_seq (hcyc _ (List.getElem_mem hi))
    rw [hs] at hat
    rw [List.getElem?_map, List.getElem?_eq_getElem hi, Option.map_some, hat]
  · -- and the last one closes the cycle
    have hne : 0 < Qt.length := by rw [hrest]; exact Nat.succ_pos _
    have hpl'' : Qt[Qt.length - 1] = pl := by
      rw [List.getLast?_eq_getElem?] at hpl
      exact (List.getElem?_eq_some_iff.1 hpl).2
    have hs := hseq (Qt.length - 1) (by simpa using Nat.sub_lt hne Nat.one_pos)
    rw [List.getElem_map, hpl''] at hs
    rw [hall pl hpl_mem] at hlen
    rw [List.getElem?_eq_none (by simpa using hi), List.getElem?_eq_none]
    omega

end Exchange.SnapshotBook
