import Mathlib.Logic.Function.Basic
import Exchange.Feed.Consumer

/-!
# A participant's book

What a participant keeps from the market data it reads: for each ticker and order id, the side,
price and quantity of the live order. An ADD enters an order, a MODIFY sets its price and
quantity, a CANCEL takes it out, and a CLEAR empties its ticker; a MODIFY or CANCEL of an order
the participant does not hold is a fault. Trades and the cycle markers change nothing.

`ClientBook.applyAll` reads a list of updates in order, stopping at the first fault.
-/

namespace Exchange

/-- The live orders a participant knows, by ticker and order id. -/
@[ext]
structure ClientBook where
  entry : TickerId × OrderId → Option (Side × Price × Qty)

namespace ClientBook

/-- The book that holds nothing. -/
def empty : ClientBook := ⟨fun _ => none⟩

/-- Reads one update; `none` is the fault of a MODIFY or CANCEL of an order not held. -/
def apply (b : ClientBook) (u : Update) : Option ClientBook :=
  let key := (u.tickerId, u.orderId)
  match u.kind with
  | .add => some ⟨Function.update b.entry key (some (u.side, u.price, u.qty))⟩
  | .modify => (b.entry key).map fun (side, _, _) =>
      ⟨Function.update b.entry key (some (side, u.price, u.qty))⟩
  | .cancel => (b.entry key).map fun _ => ⟨Function.update b.entry key none⟩
  | .clear => some ⟨fun k => if k.1 = u.tickerId then none else b.entry k⟩
  | .trade | .snapshotStart | .snapshotEnd | .invalid => some b

/-- Reads updates in order, stopping at the first fault. -/
def applyAll (b : ClientBook) (us : List Update) : Option ClientBook := us.foldlM apply b

variable {b : ClientBook} {u : Update} {us vs : List Update}

@[simp] theorem applyAll_nil : b.applyAll [] = some b := rfl

theorem applyAll_cons : b.applyAll (u :: us) = (b.apply u).bind (·.applyAll us) := rfl

theorem applyAll_append : b.applyAll (us ++ vs) = (b.applyAll us).bind (·.applyAll vs) := by
  unfold applyAll
  rw [List.foldlM_append]
  rfl

theorem applyAll_singleton : b.applyAll [u] = b.apply u := by
  rw [applyAll_cons]
  cases b.apply u <;> rfl

theorem apply_of_isMarker (h : u.isMarker = true) : b.apply u = some b := by
  simp only [Update.isMarker, Bool.or_eq_true, beq_iff_eq] at h
  rcases h with h | h <;> simp [apply, h]

theorem applyAll_filter_isMarker :
    ∀ {b : ClientBook} {us : List Update}, b.applyAll (us.filter fun u => !u.isMarker) = b.applyAll us
  | _, [] => rfl
  | b, u :: us => by
    by_cases hm : u.isMarker = true
    · rw [List.filter_cons_of_neg (by simp [hm]), applyAll_cons, apply_of_isMarker hm]
      exact applyAll_filter_isMarker
    · rw [List.filter_cons_of_pos (by simpa using hm), applyAll_cons, applyAll_cons]
      cases b.apply u with
      | none => rfl
      | some b' => exact applyAll_filter_isMarker

theorem apply_clear (h : u.kind = .clear) :
    b.apply u = some ⟨fun k => if k.1 = u.tickerId then none else b.entry k⟩ := by
  simp [apply, h]

theorem applyAll_adds {B : ClientBook} : ∀ {b : ClientBook} {us : List Update},
    (∀ u ∈ us, u.kind = .add ∧ B.entry (u.tickerId, u.orderId) = some (u.side, u.price, u.qty)) →
      b.applyAll us = some ⟨fun k =>
        if k ∈ us.map (fun u => (u.tickerId, u.orderId)) then B.entry k else b.entry k⟩
  | b, [], _ => by simp
  | b, u :: us, h => by
    obtain ⟨hk, hB⟩ := h u List.mem_cons_self
    rw [applyAll_cons, show b.apply u = some ⟨Function.update b.entry (u.tickerId, u.orderId)
      (some (u.side, u.price, u.qty))⟩ by simp [apply, hk], Option.bind_some,
      applyAll_adds fun u' hu' => h u' (List.mem_cons_of_mem _ hu')]
    congr
    funext k
    by_cases hin : k ∈ us.map (fun u => (u.tickerId, u.orderId))
    · simp only [hin, List.map_cons, List.mem_cons, or_true, if_true]
    · by_cases hku : k = (u.tickerId, u.orderId)
      · subst hku
        simp [hB]
      · simp [hin, hku]

theorem entry_of_apply {b' : ClientBook} {k : TickerId × OrderId} {v : Side × Price × Qty}
    (h : b.apply u = some b') (hv : b'.entry k = some v) :
    (u.kind = .add ∧ k = (u.tickerId, u.orderId)) ∨ ∃ v', b.entry k = some v' := by
  unfold apply at h
  cases hk : u.kind <;> simp only [hk] at h
  case add =>
    cases h
    by_cases hku : k = (u.tickerId, u.orderId)
    · exact .inl ⟨rfl, hku⟩
    · exact .inr ⟨v, by simpa [Function.update_of_ne hku] using hv⟩
  case modify =>
    obtain ⟨x, hx, rfl⟩ := Option.map_eq_some_iff.1 h
    by_cases hku : k = (u.tickerId, u.orderId)
    · subst hku; exact .inr ⟨x, hx⟩
    · exact .inr ⟨v, by simpa [Function.update_of_ne hku] using hv⟩
  case cancel =>
    obtain ⟨x, hx, rfl⟩ := Option.map_eq_some_iff.1 h
    by_cases hku : k = (u.tickerId, u.orderId)
    · subst hku; simp at hv
    · exact .inr ⟨v, by simpa [Function.update_of_ne hku] using hv⟩
  case clear =>
    cases h
    by_cases hkt : k.1 = u.tickerId
    · simp [hkt] at hv
    · exact .inr ⟨v, by simpa [hkt] using hv⟩
  all_goals cases h; exact .inr ⟨v, hv⟩

theorem applyAll_ticker {P : TickerId → Prop} : ∀ {b b' : ClientBook} {us : List Update},
    (∀ u ∈ us, u.kind = .add → P u.tickerId) → (∀ k v, b.entry k = some v → P k.1) →
      b.applyAll us = some b' → ∀ k v, b'.entry k = some v → P k.1
  | b, b', [], _, hb, h => by
    cases h
    exact hb
  | b, b', u :: us, hus, hb, h => by
    rw [applyAll_cons] at h
    cases hu : b.apply u with
    | none => rw [hu] at h; cases h
    | some b₁ =>
      rw [hu, Option.bind_some] at h
      refine applyAll_ticker (fun u' hu' => hus u' (List.mem_cons_of_mem _ hu')) (fun k v hv => ?_) h
      rcases entry_of_apply hu hv with ⟨hk, rfl⟩ | ⟨v', hv'⟩
      · exact hus u List.mem_cons_self hk
      · exact hb k v' hv'

end ClientBook

end Exchange
