import Exchange.Proofs.Book.Refinement

/-!
# The book never stays crossed

A book is *uncrossed* (`Book.Uncrossed`) when every bid price lies below every ask price. An empty
book is. Taking an order out keeps it so, since a side only loses prices. A NEW keeps it so too:
crossing takes levels off the front of the other side only, and it stops either with nothing left
to rest or at the first level the limit does not reach (`Taker.fillSide_stops`), so what rests
lies on its own side of every level that remains. Direct insertion is the one call that can cross
the book; the books reached without it (`Book.ReachableByMatching`) are all uncrossed.

The trades of a NEW come level by level from the best (`Taker.tradePrices_fillSide`): each at the
price of a level the limit reaches, and none better for the taker than the one before. The main
statement is `Book.never_stays_crossed`.
-/

namespace Exchange

/-! ## Trade prices -/

/-- The prices of the trades among some events, in order. -/
def Event.tradePrices (evs : List Event) : List Price :=
  evs.filterMap fun
    | .update u => if u.kind = .trade then some u.price else none
    | .response _ => none

namespace Event

@[simp] theorem tradePrices_nil : tradePrices [] = [] := rfl

@[simp] theorem tradePrices_append (evs evs' : List Event) :
    tradePrices (evs ++ evs') = tradePrices evs ++ tradePrices evs' :=
  List.filterMap_append

@[simp] theorem tradePrices_response_cons (r : Response) (evs : List Event) :
    tradePrices (.response r :: evs) = tradePrices evs := rfl

theorem mem_tradePrices {x : Price} {evs : List Event} :
    x ∈ tradePrices evs ↔ ∃ u, .update u ∈ evs ∧ u.kind = .trade ∧ u.price = x := by
  unfold tradePrices
  rw [List.mem_filterMap]
  constructor
  · rintro ⟨e, he, hx⟩
    cases e with
    | update u =>
      simp only at hx
      split at hx
      · cases hx; exact ⟨u, he, ‹_›, rfl⟩
      · cases hx
    | response r => cases hx
  · rintro ⟨u, hu, hk, rfl⟩
    exact ⟨.update u, hu, by simp [hk]⟩

end Event

/-! ## Where crossing trades and where it stops -/

namespace Taker

variable {t : Taker}

@[simp] theorem tradePrices_tradeEvents (price : Price) (o : Resting) (fill left : Qty) :
    Event.tradePrices (t.tradeEvents price o fill left) = [price] := by
  unfold tradeEvents
  simp only
  split <;> rfl

theorem tradePrices_fillLevel {price : Price} {os rest filled : List Resting} {leaves left : Qty}
    {evs : List Event} (h : t.fillLevel price os leaves = (evs, left, rest, filled)) :
    ∀ x ∈ Event.tradePrices evs, x = price :=
  fillLevel_events (P := fun evs => ∀ x ∈ Event.tradePrices evs, x = price) (by simp)
    (fun _ _ ha hb x hx => (List.mem_append.1 ((Event.tradePrices_append _ _) ▸ hx)).elim (ha x) (hb x))
    (fun _ _ x hx => by simpa using hx) h

theorem tradePrices_fillSide : ∀ {ls rest : List Level} {filled : List Resting} {leaves left : Qty}
    {evs : List Event}, t.fillSide ls leaves = (evs, left, rest, filled) →
    (∀ x ∈ Event.tradePrices evs, (∃ l ∈ ls, l.price = x) ∧ crosses t.side t.limit x = true) ∧
    ∀ s, (ls.map (·.price)).Pairwise (fun p q => ranksBefore s p q = true) →
      (Event.tradePrices evs).Pairwise fun x y => x = y ∨ ranksBefore s x y = true
  | [], _, _, _, _, _, h => by
    simp only [fillSide, Prod.mk.injEq] at h
    obtain ⟨rfl, -⟩ := h
    simp
  | l :: ls, rest, filled, leaves, left, evs, h => by
    simp only [fillSide] at h
    split at h
    · simp only [Prod.mk.injEq] at h
      obtain ⟨rfl, -⟩ := h
      simp
    · rename_i hgo
      have hcross : crosses t.side t.limit l.price = true := by
        simpa using (not_or.1 hgo).2
      generalize hr : t.fillLevel l.price l.orders leaves = r at h
      obtain ⟨evs₁, left₁, rest₁, filled₁⟩ := r
      have hlevel := tradePrices_fillLevel hr
      have hfirst : ∀ x ∈ Event.tradePrices evs₁, (∃ m ∈ l :: ls, m.price = x) ∧
          crosses t.side t.limit x = true := fun x hx => by
        rw [hlevel x hx]; exact ⟨⟨l, List.mem_cons_self, rfl⟩, hcross⟩
      have hsame : ∀ s, (Event.tradePrices evs₁).Pairwise fun x y => x = y ∨ ranksBefore s x y = true :=
        fun _ => List.pairwise_of_forall_mem_list fun x hx y hy =>
          .inl ((hlevel x hx).trans (hlevel y hy).symm)
      split at h
      · generalize hr' : t.fillSide ls left₁ = r' at h
        obtain ⟨more, leaves', ls', filled'⟩ := r'
        simp only [Prod.mk.injEq] at h
        obtain ⟨rfl, -⟩ := h
        obtain ⟨hmore, hsorted⟩ := tradePrices_fillSide hr'
        refine ⟨fun x hx => ?_, fun s hrk => ?_⟩
        · rw [Event.tradePrices_append, List.mem_append] at hx
          rcases hx with hx | hx
          · exact hfirst x hx
          · obtain ⟨⟨m, hm, hmx⟩, hc⟩ := hmore x hx
            exact ⟨⟨m, List.mem_cons_of_mem _ hm, hmx⟩, hc⟩
        · rw [List.map_cons, List.pairwise_cons] at hrk
          rw [Event.tradePrices_append, List.pairwise_append]
          refine ⟨hsame s, hsorted s hrk.2, fun x hx y hy => .inr ?_⟩
          obtain ⟨⟨m, hm, rfl⟩, -⟩ := hmore y hy
          rw [hlevel x hx]
          exact hrk.1 _ (List.mem_map_of_mem hm)
      · simp only [Prod.mk.injEq] at h
        obtain ⟨rfl, -⟩ := h
        exact ⟨hfirst, fun s _ => hsame s⟩

/-- **Crossing stops with nothing left, or at the first level the limit does not reach.** -/
theorem fillSide_stops : ∀ {ls rest : List Level} {filled : List Resting} {leaves left : Qty}
    {evs : List Event}, t.fillSide ls leaves = (evs, left, rest, filled) → left ≠ 0 →
    ∀ l ∈ rest.head?, crosses t.side t.limit l.price = false
  | [], _, _, _, _, _, h, _ => by
    simp only [fillSide, Prod.mk.injEq] at h
    obtain ⟨-, -, rfl, -⟩ := h
    simp
  | l :: ls, rest, filled, leaves, left, evs, h, hleft => by
    simp only [fillSide] at h
    split at h
    · rename_i hstop
      simp only [Prod.mk.injEq] at h
      obtain ⟨-, rfl, rfl, -⟩ := h
      intro m hm
      cases hm
      simpa [hleft] using hstop
    · generalize hr : t.fillLevel l.price l.orders leaves = r at h
      obtain ⟨evs₁, left₁, rest₁, filled₁⟩ := r
      split at h
      · generalize hr' : t.fillSide ls left₁ = r' at h
        obtain ⟨more, leaves', ls', filled'⟩ := r'
        simp only [Prod.mk.injEq] at h
        obtain ⟨-, rfl, rfl, -⟩ := h
        exact fillSide_stops hr' hleft
      · -- a level that outlasts the taker fills it completely
        rename_i hne
        simp only [Prod.mk.injEq] at h
        obtain ⟨-, rfl, rfl, -⟩ := h
        exact absurd (fillLevel_left_eq_zero hr hne) hleft

end Taker

theorem not_crosses_of_head {side : Side} {limit : Price} {ls : List Level}
    (hr : (ls.map (·.price)).Pairwise (fun p q => ranksBefore side.opposite p q = true))
    (hh : ∀ l ∈ ls.head?, crosses side limit l.price = false) :
    ∀ q ∈ ls.map (·.price), crosses side limit q = false := by
  cases ls with
  | nil => simp
  | cons l ls =>
    have hl := hh l rfl
    rw [List.map_cons, List.pairwise_cons] at hr
    intro q hq
    rcases List.mem_cons.1 hq with rfl | hq
    · exact hl
    · have hlq := hr.1 q hq
      cases side <;>
        simp only [crosses, ranksBefore, Side.opposite, decide_eq_true_eq, decide_eq_false_iff_not,
          Int64.le_iff_toInt_le, Int64.lt_iff_toInt_lt] at hl hlq ⊢ <;> omega

/-! ## Uncrossed books -/

namespace Book

open Level

variable {b b' : Book} {side : Side} {p : Price} {o : Resting}

/-- Every bid price lies below every ask price. -/
def Uncrossed (b : Book) : Prop :=
  ∀ x ∈ (b.levels .buy).map (·.price), ∀ y ∈ (b.levels .sell).map (·.price), x < y

theorem Uncrossed.of_prices (hu : b.Uncrossed)
    (h : ∀ s, ∀ x ∈ (b'.levels s).map (·.price), x ∈ (b.levels s).map (·.price)) : b'.Uncrossed :=
  fun x hx y hy => hu x (h .buy x hx) y (h .sell y hy)

theorem uncrossed_create {t : TickerId} {maxOrders maxLevels : Nat}
    (h : Book.create t maxOrders maxLevels = .ok b) : b.Uncrossed := by
  simp only [Book.create, bind, Except.bind, pure, Except.pure] at h
  split at h
  · cases h
  · split at h
    · cases h
    · cases h
      intro x hx
      simp [levels] at hx

theorem Uncrossed.without (hu : b.Uncrossed) (hv : side.isValid = true) (p : Price) (o : Resting) :
    (b.without side p o).Uncrossed := by
  refine hu.of_prices fun s x hx => ?_
  rw [levels_without hv] at hx
  split at hx
  · rename_i hs
    subst hs
    exact (map_price_dropFrom_sublist p o.orderId _).subset hx
  · exact hx

theorem Uncrossed.cancel (hu : b.Uncrossed) (c : ClientId) (oid : OrderId) :
    (b.cancel c oid).2.Uncrossed := by
  unfold Book.cancel
  split
  · rename_i s pr o hf
    split
    · exact hu.without (find?_eq_some hf).1 pr o
    · exact hu
  · exact hu

theorem Uncrossed.remove (hu : b.Uncrossed) (oid : OrderId) : (b.remove oid).2.Uncrossed := by
  unfold Book.remove
  split
  · rename_i s pr o hf
    exact hu.without (find?_eq_some hf).1 pr o
  · exact hu

theorem Uncrossed.cross {t : Taker} {leaves left : Qty} {evs : List Event} {rest : List Level}
    {filled : List Resting} (hu : b.Uncrossed) (hv : side.isValid = true)
    (h : t.fillSide (b.levels side) leaves = (evs, left, rest, filled)) (pool : Pool OrderId) :
    ({ b.withLevels side rest with orderSlots := pool } : Book).Uncrossed := by
  obtain ⟨-, hsuf, -⟩ := Taker.fillSide_split h
  refine hu.of_prices fun s x hx => ?_
  rw [levels_setOrderSlots, levels_withLevels hv] at hx
  split at hx
  · rename_i hs
    subst hs
    exact hsuf.subset hx
  · exact hx

theorem mem_prices_insert {c : ClientId} {oid : OrderId} {q : Qty}
    (h : b.insert c oid side p q = .ok (o, b')) {s : Side} {x : Price}
    (hx : x ∈ (b'.levels s).map (·.price)) : x ∈ (b.levels s).map (·.price) ∨ s = side ∧ x = p := by
  obtain ⟨-, hv, level, ls₁, pool', hls, -, -, -, -, -, rfl⟩ := insert_eq_ok h
  rw [levels_setOrderSlots, levels_withLevels hv] at hx
  split at hx
  · rename_i hs
    subst hs
    rw [map_price_appendAt] at hx
    rcases hls with ⟨-, rfl⟩ | ⟨-, -, rfl, rfl⟩
    · exact .inl hx
    · have hmem := ((placeLevel_perm s _ _).map (·.price)).mem_iff.1 hx
      rw [List.map_cons, List.mem_cons] at hmem
      rcases hmem with rfl | hmem
      · exact .inr ⟨rfl, rfl⟩
      · exact .inl hmem
  · exact .inl hx

theorem Uncrossed.insert {c : ClientId} {oid : OrderId} {q : Qty} (hu : b.Uncrossed)
    (hp : ∀ y ∈ (b.levels side.opposite).map (·.price), crosses side p y = false)
    (h : b.insert c oid side p q = .ok (o, b')) : b'.Uncrossed := by
  intro x hx y hy
  rcases mem_prices_insert h hx with hx | ⟨rfl, rfl⟩ <;>
    rcases mem_prices_insert h hy with hy | ⟨hs, rfl⟩
  · exact hu x hx y hy
  · -- a sell rests below no bid
    subst hs
    have := hp x hx
    simp only [crosses, decide_eq_false_iff_not] at this
    exact Int64.not_le.1 this
  · -- a buy rests below every ask
    have := hp y hy
    simp only [crosses, decide_eq_false_iff_not] at this
    exact Int64.not_le.1 this
  · cases hs

/-- **A NEW keeps the book uncrossed.** -/
theorem Uncrossed.add {c : ClientId} {oid : OrderId} {q : Qty} (hw : b.WF) (hu : b.Uncrossed)
    (h : (b.add c oid side p q).result = .ok b') : b'.Uncrossed := by
  unfold Book.add at h
  split at h
  · cases h; exact hu
  · rename_i hrej
    have hv := isValid_of_not_rejects hrej
    simp only at h
    generalize hf : (Taker.mk b.ticker c oid side p).fillSide (b.levels side.opposite) q = r at h
    obtain ⟨evs, leaves, rest, filled⟩ := r
    have hc := hu.cross (Side.isValid_opposite hv) hf
      (filled.foldl (fun p o => p.vacate o.slot) b.orderSlots)
    simp only at h
    split at h
    · cases h; exact hc
    · rename_i hleft
      split at h
      · rename_i o b'' hins
        cases h
        refine hc.insert ?_ hins
        rw [levels_setOrderSlots, levels_withLevels_self (Side.isValid_opposite hv)]
        exact not_crosses_of_head (Taker.sideWF_fillSide (hw.sides _) hf).ranked
          (Taker.fillSide_stops hf hleft)
      · cases h

theorem Uncrossed.bestBid_lt_bestAsk (hu : b.Uncrossed) {bid ask : Price} (hb : b.bestBid = some bid)
    (ha : b.bestAsk = some ask) : bid < ask := by
  obtain ⟨l, hl, rfl⟩ := Option.map_eq_some_iff.1 hb
  obtain ⟨m, hm, rfl⟩ := Option.map_eq_some_iff.1 ha
  exact hu _ (List.mem_map_of_mem (List.mem_of_mem_head? hl)) _
    (List.mem_map_of_mem (List.mem_of_mem_head? hm))

/-! ## The trades of a NEW -/

theorem tradePrices_add {c : ClientId} {oid : OrderId} {q : Qty} :
    Event.tradePrices (b.add c oid side p q).events =
      if b.rejects oid side p q then []
      else Event.tradePrices
        ((Taker.mk b.ticker c oid side p).fillSide (b.levels side.opposite) q).1 := by
  unfold Book.add
  split
  · rfl
  · simp only
    generalize (Taker.mk b.ticker c oid side p).fillSide (b.levels side.opposite) q = r
    obtain ⟨evs, leaves, rest, filled⟩ := r
    simp only
    split
    · simp
    · split
      · simp [Event.tradePrices]
      · simp

/-! ## Books reached by matching -/

/-- The books that matching calls reach from an empty book: NEWs, CANCELs and removals, with no
direct insertion. -/
inductive ReachableByMatching : Book → Prop
  | create {t : TickerId} {maxOrders maxLevels : Nat} {b : Book} :
      Book.create t maxOrders maxLevels = .ok b → ReachableByMatching b
  | add {b b' : Book} (c : ClientId) (oid : OrderId) (side : Side) (p : Price) (q : Qty) :
      ReachableByMatching b → (b.add c oid side p q).result = .ok b' → ReachableByMatching b'
  | cancel {b : Book} (c : ClientId) (oid : OrderId) :
      ReachableByMatching b → ReachableByMatching (b.cancel c oid).2
  | remove {b : Book} (oid : OrderId) : ReachableByMatching b → ReachableByMatching (b.remove oid).2

theorem ReachableByMatching.wf_uncrossed (h : ReachableByMatching b) : b.WF ∧ b.Uncrossed := by
  induction h with
  | create hc => exact ⟨wf_create hc, uncrossed_create hc⟩
  | add _ _ _ _ _ _ ha ih => exact ⟨ih.1.add ha, ih.2.add ih.1 ha⟩
  | cancel c oid _ ih => exact ⟨ih.1.cancel c oid, ih.2.cancel c oid⟩
  | remove oid _ ih => exact ⟨ih.1.remove oid, ih.2.remove oid⟩

/-- **The book never stays crossed.** In every book that NEWs, CANCELs and removals reach from an
empty one, the best bid lies below the best ask. Every TRADE a NEW prints there is at the price of
a level on the other side, no worse than the limit: at most the limit for a buy, at least the
limit for a sell. The trades of one NEW never get better for the taker: their prices rise for a
buy and fall for a sell. -/
theorem never_stays_crossed (hr : ReachableByMatching b) :
    (∀ bid ask, b.bestBid = some bid → b.bestAsk = some ask → bid < ask) ∧
    ∀ (c : ClientId) (oid : OrderId) (side : Side) (p : Price) (q : Qty),
      (∀ u, .update u ∈ (b.add c oid side p q).events → u.kind = .trade →
        (∃ l ∈ b.levels side.opposite, l.price = u.price) ∧
        (side = .buy → u.price ≤ p) ∧ (side = .sell → p ≤ u.price)) ∧
      (side = .buy → (Event.tradePrices (b.add c oid side p q).events).Pairwise (· ≤ ·)) ∧
      (side = .sell → (Event.tradePrices (b.add c oid side p q).events).Pairwise (· ≥ ·)) := by
  obtain ⟨hw, hu⟩ := hr.wf_uncrossed
  refine ⟨fun _ _ => hu.bestBid_lt_bestAsk, fun c oid side p q => ?_⟩
  rw [tradePrices_add]
  split
  · -- a rejected NEW prints no trade
    rename_i hrej
    refine ⟨fun u hu hk => ?_, fun _ => .nil, fun _ => .nil⟩
    have hx := Event.mem_tradePrices.2 ⟨u, hu, hk, rfl⟩
    rw [tradePrices_add, if_pos hrej] at hx
    cases hx
  · rename_i hrej
    obtain ⟨hat, hsorted⟩ := Taker.tradePrices_fillSide (Prod.ext rfl rfl :
      (Taker.mk b.ticker c oid side p).fillSide (b.levels side.opposite) q = _)
    have hs := hsorted side.opposite (hw.sides side.opposite).ranked
    refine ⟨fun u hu hk => ?_, fun hb => ?_, fun hs' => ?_⟩
    · have hx := Event.mem_tradePrices.2 ⟨u, hu, hk, rfl⟩
      rw [tradePrices_add, if_neg hrej] at hx
      obtain ⟨hl, hc⟩ := hat _ hx
      refine ⟨hl, fun hb => ?_, fun hs' => ?_⟩
      · subst hb; simpa [crosses] using hc
      · subst hs'; simpa [crosses] using hc
    · subst hb
      refine hs.imp fun {x y} h => ?_
      rcases h with rfl | h
      · exact Int64.le_refl x
      · exact Int64.le_of_lt (by simpa [ranksBefore, Side.opposite] using h)
    · subst hs'
      refine hs.imp fun {x y} h => ?_
      rcases h with rfl | h
      · exact Int64.le_refl x
      · exact Int64.le_of_lt (by simpa [ranksBefore, Side.opposite] using h)

/-- Two sells from an empty book rest 2 at 100 and 2 at 101; a buy of 3 at 101 then trades at
100 and at 101, in that order. -/
theorem buy_trades_up_the_asks :
    ReachableByMatching ⟨0, [], [⟨100, [⟨1, 1, 2, 1, 0⟩]⟩, ⟨101, [⟨2, 1, 2, 1, 1⟩]⟩],
      ⟨#[some 1, some 2, none, none], 2, 2⟩, 4⟩ ∧
    (Event.tradePrices ((Book.mk 0 [] [⟨100, [⟨1, 1, 2, 1, 0⟩]⟩, ⟨101, [⟨2, 1, 2, 1, 1⟩]⟩]
      ⟨#[some 1, some 2, none, none], 2, 2⟩ 4).add 2 3 .buy 101 3).events).Pairwise (· ≤ ·) := by
  have h₀ : Book.create 0 4 4 = .ok ⟨0, [], [], ⟨#[none, none, none, none], 0, 0⟩, 4⟩ := rfl
  have hr : ReachableByMatching ⟨0, [], [⟨100, [⟨1, 1, 2, 1, 0⟩]⟩, ⟨101, [⟨2, 1, 2, 1, 1⟩]⟩],
      ⟨#[some 1, some 2, none, none], 2, 2⟩, 4⟩ :=
    .add 1 2 .sell 101 2 (.add 1 1 .sell 100 2 (.create h₀) rfl) rfl
  exact ⟨hr, ((never_stays_crossed hr).2 2 3 .buy 101 3).2.1 rfl⟩

end Book

end Exchange
