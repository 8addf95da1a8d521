import Mathlib.Algebra.BigOperators.Group.Finset.Basic
import Exchange.Proofs.Book.Invariant

/-!
# The fill ledger

The answers a book sends about an order keep a ledger: its ACCEPTED gives the quantity accepted,
each FILLED an executed quantity, its CANCELED the quantity cancelled. `Ledger.of evs` keeps one
`Account` per order id, restarted by each ACCEPTED of that id. Alongside it, the answers say how
much of each order is still open (`Outstanding`): an ACCEPTED or a FILLED leaves its leaves
open, none once they reach zero, and a CANCELED closes the order.

An answer *fits* what is open before it (`Outstanding.Fits`): a FILLED executes part of what is
open and leaves the rest, a CANCELED cancels all of it, an ACCEPTED names an order not open.
Under answers that fit, each account balances (`Balanced`): an open order has accepted what it
filled plus what is open and was never cancelled, a closed one accepted what it filled plus what
it cancelled. Summed over the ids, what is open changes by what is accepted less what is filled
and cancelled (`total_recordAll`).

Last come the shapes the events of matching take around an update (`Event.Preceded`): each
TRADE right after the FILLEDs of its two sides (`Event.TradesPaired`), each CANCEL update right
after what took its order off the book (`Event.CancelsExplained`). That a book's answers fit, and
take these shapes, is the book's side of the argument (`Book.OpenIs`, `Book.History`).
-/

namespace Exchange

/-! ## Accounts -/

/-- What the answers say of one accepted order: the quantity accepted, the sum of its FILLEDs'
executed quantities, and the leaves of its CANCELED, if any. -/
structure Account where
  accepted : Nat
  filled : Nat
  canceled : Nat
  deriving DecidableEq, Repr

/-- What one answer does to the account of the order it names: an ACCEPTED opens a new account, a
FILLED adds its executed quantity, a CANCELED its leaves. -/
def Account.post (r : Response) (a : Option Account) : Option Account :=
  match r.kind with
  | .accepted => some ⟨r.leavesQty.toNat, 0, 0⟩
  | .filled => a.map fun a => { a with filled := a.filled + r.execQty.toNat }
  | .canceled => a.map fun a => { a with canceled := a.canceled + r.leavesQty.toNat }
  | _ => a

/-- The account of each order id. -/
abbrev Ledger := OrderId → Option Account

namespace Ledger

/-- The ledger after one more event: an answer posts to the account of the order it names. -/
def record (L : Ledger) : Event → Ledger
  | .response r => Function.update L r.orderId (Account.post r (L r.orderId))
  | .update _ => L

/-- The ledger after some events. -/
def recordAll (L : Ledger) (evs : List Event) : Ledger := evs.foldl record L

/-- The ledger that some events keep, from no account. -/
def of (evs : List Event) : Ledger := recordAll (fun _ => none) evs

@[simp] theorem recordAll_nil (L : Ledger) : L.recordAll [] = L := rfl

@[simp] theorem recordAll_append (L : Ledger) (evs evs' : List Event) :
    L.recordAll (evs ++ evs') = (L.recordAll evs).recordAll evs' := List.foldl_append

@[simp] theorem recordAll_cons (L : Ledger) (e : Event) (evs : List Event) :
    L.recordAll (e :: evs) = (L.record e).recordAll evs := rfl

end Ledger

/-! ## What is open -/

/-- The quantity an answer leaves open: its leaves, or nothing once they are zero. -/
def openOf (q : Qty) : Option Nat := if q = 0 then none else some q.toNat

/-- What one answer leaves open of the order it names. -/
def Response.openAfter (r : Response) (n : Option Nat) : Option Nat :=
  match r.kind with
  | .accepted => openOf r.leavesQty
  | .filled => openOf r.leavesQty
  | .canceled => none
  | _ => n

/-- Whether an answer fits the quantity open before it: an ACCEPTED names an order not open, a
FILLED executes part of what is open and leaves the rest, a CANCELED cancels all of it. -/
def Response.Fits (r : Response) (n : Option Nat) : Prop :=
  match r.kind with
  | .accepted => n = none
  | .filled => n = some (r.execQty.toNat + r.leavesQty.toNat)
  | .canceled => n = some r.leavesQty.toNat
  | _ => True

/-- The quantity still open of each open order, by id. -/
abbrev Outstanding := OrderId → Option Nat

namespace Outstanding

/-- What is open after one more event. -/
def record (Q : Outstanding) : Event → Outstanding
  | .response r => Function.update Q r.orderId (r.openAfter (Q r.orderId))
  | .update _ => Q

/-- What is open after some events. -/
def recordAll (Q : Outstanding) (evs : List Event) : Outstanding := evs.foldl record Q

/-- Whether an event fits what is open before it; an update always does. -/
def Fits (Q : Outstanding) : Event → Prop
  | .response r => r.Fits (Q r.orderId)
  | .update _ => True

/-- Whether each of some events fits what the events before it left open. -/
def FitsAll : Outstanding → List Event → Prop
  | _, [] => True
  | Q, e :: evs => Q.Fits e ∧ FitsAll (Q.record e) evs

@[simp] theorem recordAll_nil (Q : Outstanding) : Q.recordAll [] = Q := rfl

@[simp] theorem recordAll_cons (Q : Outstanding) (e : Event) (evs : List Event) :
    Q.recordAll (e :: evs) = (Q.record e).recordAll evs := rfl

@[simp] theorem recordAll_append (Q : Outstanding) (evs evs' : List Event) :
    Q.recordAll (evs ++ evs') = (Q.recordAll evs).recordAll evs' := List.foldl_append

@[simp] theorem record_update (Q : Outstanding) (u : Update) : Q.record (.update u) = Q := rfl

@[simp] theorem record_response (Q : Outstanding) (r : Response) :
    Q.record (.response r) = Function.update Q r.orderId (r.openAfter (Q r.orderId)) := rfl

@[simp] theorem fits_update (Q : Outstanding) (u : Update) : Q.Fits (.update u) := trivial

@[simp] theorem fits_response (Q : Outstanding) (r : Response) :
    Q.Fits (.response r) ↔ r.Fits (Q r.orderId) := Iff.rfl

@[simp] theorem fitsAll_nil (Q : Outstanding) : Q.FitsAll [] := trivial

@[simp] theorem fitsAll_cons (Q : Outstanding) (e : Event) (evs : List Event) :
    Q.FitsAll (e :: evs) ↔ Q.Fits e ∧ (Q.record e).FitsAll evs := Iff.rfl

theorem fitsAll_append {Q : Outstanding} {evs evs' : List Event} :
    Q.FitsAll (evs ++ evs') ↔ Q.FitsAll evs ∧ (Q.recordAll evs).FitsAll evs' := by
  induction evs generalizing Q with
  | nil => simp
  | cons e evs ih => simp [ih, and_assoc]

end Outstanding

/-! ## Balanced accounts -/

/-- Each account balances against what is open: an open order has an account, never cancelled,
that accepted what it filled plus what is open; a closed order's account accepted what it filled
plus what it cancelled. -/
structure Balanced (L : Ledger) (Q : Outstanding) : Prop where
  open_eq : ∀ x n, Q x = some n → ∃ a, L x = some a ∧ a.accepted = a.filled + n ∧ a.canceled = 0
  closed_eq : ∀ x a, Q x = none → L x = some a → a.accepted = a.filled + a.canceled

variable {L : Ledger} {Q : Outstanding}

theorem balanced_empty : Balanced (fun _ => none) (fun _ => none) :=
  ⟨fun _ _ h => (by cases h), fun _ _ _ h => (by cases h)⟩

theorem Balanced.post (hb : Balanced L Q) {r : Response} (hf : r.Fits (Q r.orderId)) :
    (∀ n, r.openAfter (Q r.orderId) = some n → ∃ a, Account.post r (L r.orderId) = some a ∧
      a.accepted = a.filled + n ∧ a.canceled = 0) ∧
    (r.openAfter (Q r.orderId) = none → ∀ a, Account.post r (L r.orderId) = some a →
      a.accepted = a.filled + a.canceled) := by
  unfold Response.Fits at hf
  unfold Response.openAfter Account.post
  split
  · -- an ACCEPTED opens a new account for all its leaves
    unfold openOf
    split
    · rename_i h0
      refine ⟨fun n hn => (by cases hn), fun _ a ha => ?_⟩
      cases ha
      simp [h0]
    · refine ⟨fun n hn => ?_, fun hn => (by cases hn)⟩
      cases hn
      exact ⟨_, rfl, by simp, rfl⟩
  · -- a FILLED moves its executed quantity from open to filled
    rename_i hk
    rw [hk] at hf
    obtain ⟨a, ha, hacc, hcan⟩ := hb.open_eq _ _ hf
    rw [ha]
    unfold openOf
    split
    · rename_i h0
      refine ⟨fun n hn => (by cases hn), fun _ a' ha' => ?_⟩
      cases ha'
      simp only [h0, UInt32.toNat_zero, Nat.add_zero] at hacc
      simp only [hacc, hcan, Nat.add_zero]
    · refine ⟨fun n hn => ?_, fun hn => (by cases hn)⟩
      cases hn
      exact ⟨_, rfl, by simp only; omega, hcan⟩
  · -- a CANCELED moves what is open to cancelled
    rename_i hk
    rw [hk] at hf
    obtain ⟨a, ha, hacc, hcan⟩ := hb.open_eq _ _ hf
    rw [ha]
    refine ⟨fun n hn => (by cases hn), fun _ a' ha' => ?_⟩
    cases ha'
    simp only [hacc, hcan, Nat.zero_add]
  · -- any other answer leaves the account and what is open as they were
    exact ⟨hb.open_eq _, fun hn a ha => hb.closed_eq _ a hn ha⟩

/-- **One event that fits keeps the accounts balanced.** -/
theorem Balanced.record (hb : Balanced L Q) {e : Event} (hf : Q.Fits e) :
    Balanced (L.record e) (Q.record e) := by
  cases e with
  | update u => exact hb
  | response r =>
    obtain ⟨hopen, hclosed⟩ := hb.post hf
    refine ⟨fun x n hn => ?_, fun x a hn ha => ?_⟩
    · simp only [Ledger.record, Outstanding.record, Function.update_apply] at hn ⊢
      split
      · rename_i hx
        subst hx
        rw [if_pos rfl] at hn
        exact hopen n hn
      · rename_i hx
        rw [if_neg hx] at hn
        exact hb.open_eq x n hn
    · simp only [Ledger.record, Outstanding.record, Function.update_apply] at hn ha
      split at ha
      · rename_i hx
        subst hx
        rw [if_pos rfl] at hn
        exact hclosed hn a ha
      · rename_i hx
        rw [if_neg hx] at hn
        exact hb.closed_eq x a hn ha

theorem Balanced.recordAll (hb : Balanced L Q) {evs : List Event} (hf : Q.FitsAll evs) :
    Balanced (L.recordAll evs) (Q.recordAll evs) := by
  induction evs generalizing L Q with
  | nil => exact hb
  | cons e evs ih => exact ih (hb.record hf.1) hf.2

theorem Balanced.filled (hb : Balanced L Q) {r : Response} (hf : r.Fits (Q r.orderId))
    (hk : r.kind = .filled) :
    ∃ a, L r.orderId = some a ∧ a.filled + r.execQty.toNat + r.leavesQty.toNat = a.accepted := by
  simp only [Response.Fits, hk] at hf
  obtain ⟨a, ha, hacc, -⟩ := hb.open_eq _ _ hf
  exact ⟨a, ha, by omega⟩

/-! ## Quantities summed over events -/

namespace Event

/-- The order an answer names; an update names none. -/
def answerId? : Event → Option OrderId
  | .response r => some r.orderId
  | .update _ => none

/-- The leaves of an answer of kind `k`; zero for any other event. -/
def leavesOf (k : ResponseKind) : Event → Nat
  | .response r => if r.kind = k then r.leavesQty.toNat else 0
  | .update _ => 0

/-- The executed quantity of a FILLED; zero for any other event. -/
def filledQty : Event → Nat
  | .response r => if r.kind = .filled then r.execQty.toNat else 0
  | .update _ => 0

/-- The quantity of a TRADE; zero for any other event. -/
def tradedQty : Event → Nat
  | .update u => if u.kind = .trade then u.qty.toNat else 0
  | .response _ => 0

/-- A quantity summed over some events. -/
def sumOf (f : Event → Nat) (evs : List Event) : Nat := evs.foldr (fun e n => f e + n) 0

@[simp] theorem sumOf_nil (f : Event → Nat) : sumOf f [] = 0 := rfl

@[simp] theorem sumOf_cons (f : Event → Nat) (e : Event) (evs : List Event) :
    sumOf f (e :: evs) = f e + sumOf f evs := rfl

@[simp] theorem sumOf_append (f : Event → Nat) (evs evs' : List Event) :
    sumOf f (evs ++ evs') = sumOf f evs + sumOf f evs' := by
  induction evs with
  | nil => simp
  | cons e evs ih => simp [ih, Nat.add_assoc]

end Event

namespace Outstanding

/-- The quantity open over some ids. -/
def total (S : Finset OrderId) (Q : Outstanding) : Nat := ∑ x ∈ S, (Q x).getD 0

theorem total_update {S : Finset OrderId} {Q : Outstanding} {x : OrderId} (hx : x ∈ S)
    (v : Option Nat) : total S (Function.update Q x v) + (Q x).getD 0 = total S Q + v.getD 0 := by
  unfold total
  rw [← Finset.add_sum_erase S _ hx, ← Finset.add_sum_erase S _ hx, Function.update_self]
  have hrest : ∑ y ∈ S.erase x, (Function.update Q x v y).getD 0 = ∑ y ∈ S.erase x, (Q y).getD 0 :=
    Finset.sum_congr rfl fun y hy => by rw [Function.update_of_ne (Finset.ne_of_mem_erase hy)]
  rw [hrest]
  omega

@[simp] theorem getD_openOf (q : Qty) : (openOf q).getD 0 = q.toNat := by
  unfold openOf
  split
  · rename_i h; simp [h]
  · rfl

/-- **What is open changes by what an answer accepts, less what it fills or cancels.** -/
theorem total_record {S : Finset OrderId} {Q : Outstanding} {e : Event}
    (hS : ∀ x, e.answerId? = some x → x ∈ S) (hf : Q.Fits e) :
    total S (Q.record e) + e.filledQty + e.leavesOf .canceled = total S Q + e.leavesOf .accepted := by
  cases e with
  | update u => simp [record, Event.filledQty, Event.leavesOf]
  | response r =>
    have hx := total_update (hS r.orderId rfl) (Q := Q) (r.openAfter (Q r.orderId))
    simp only [Fits, Response.Fits] at hf
    simp only [record, Event.filledQty, Event.leavesOf, Response.openAfter] at hx ⊢
    cases hk : r.kind <;> simp only [hk, reduceCtorEq, if_true, if_false, getD_openOf] at hf hx ⊢
    case accepted | canceled | filled =>
      simp only [hf, Option.getD_some, Option.getD_none] at hx
      omega
    all_goals omega

/-- **Over answers that fit, what is open grows by what is accepted and shrinks by what is filled
and cancelled**, summed over any ids that include every id the answers name. -/
theorem total_recordAll {S : Finset OrderId} {Q : Outstanding} {evs : List Event}
    (hS : ∀ e ∈ evs, ∀ x, e.answerId? = some x → x ∈ S) (hf : Q.FitsAll evs) :
    total S (Q.recordAll evs) + Event.sumOf Event.filledQty evs +
        Event.sumOf (Event.leavesOf .canceled) evs =
      total S Q + Event.sumOf (Event.leavesOf .accepted) evs := by
  induction evs generalizing Q with
  | nil => simp
  | cons e evs ih =>
    have h₁ := total_record (hS e List.mem_cons_self) hf.1
    have h₂ := ih (fun e' he' => hS e' (List.mem_cons_of_mem _ he')) hf.2
    simp only [recordAll_cons, Event.sumOf_cons]
    omega

end Outstanding

/-! ## What comes right before an update -/

namespace Event

/-- Each update among `evs` that `P` selects comes right after a run of events that `R` accepts
for it. -/
def Preceded (P : Update → Prop) (R : List Event → Update → Prop) (evs : List Event) : Prop :=
  ∀ pre u post, evs = pre ++ .update u :: post → P u → ∃ pre' tail, pre = pre' ++ tail ∧ R tail u

section Preceded

variable {P : Update → Prop} {R : List Event → Update → Prop} {evs evs' : List Event}

theorem preceded_nil : Preceded P R [] := fun pre _ _ he => by cases pre <;> cases he

theorem preceded_response (r : Response) : Preceded P R [.response r] := fun pre _ _ he => by
  rcases pre with _ | ⟨_, _ | ⟨_, _⟩⟩ <;> simp at he

theorem preceded_update {u : Update} (hu : ¬ P u) : Preceded P R [.update u] :=
  fun pre _ _ he hp => by
    rcases pre with _ | ⟨_, _ | ⟨_, _⟩⟩ <;> simp only [List.nil_append, List.cons_append,
      List.cons.injEq, Event.update.injEq, reduceCtorEq, List.nil_eq, and_false] at he
    exact absurd (he.1 ▸ hp) hu

theorem Preceded.append (h : Preceded P R evs) (h' : Preceded P R evs') :
    Preceded P R (evs ++ evs') := by
  intro pre u post he hp
  rcases List.append_eq_append_iff.1 he with ⟨a, rfl, ha⟩ | ⟨c, rfl, hc⟩
  · -- the update lies in the second part
    obtain ⟨pre', tail, rfl, hr⟩ := h' a u post ha hp
    exact ⟨evs ++ pre', tail, (List.append_assoc _ _ _).symm, hr⟩
  · rcases c with _ | ⟨v, c⟩
    · -- the update starts the second part, so what precedes it there is nothing
      obtain ⟨pre', tail, hnil, hr⟩ := h' [] u post (by simpa using hc.symm) hp
      obtain ⟨-, rfl⟩ := List.append_eq_nil_iff.1 hnil.symm
      exact ⟨pre, [], (List.append_nil _).symm, hr⟩
    · -- the update lies in the first part
      simp only [List.cons_append, List.cons.injEq] at hc
      obtain ⟨rfl, rfl⟩ := hc
      exact h pre _ c rfl hp

theorem Preceded.snoc (h : Preceded P R evs) {u : Update}
    (hu : P u → ∃ pre' tail, evs = pre' ++ tail ∧ R tail u) : Preceded P R (evs ++ [.update u]) := by
  intro pre v post he hp
  rcases List.eq_nil_or_concat post with rfl | ⟨post', w, rfl⟩
  · -- the selected update is the one added
    obtain ⟨rfl, hv⟩ := List.append_inj' he rfl
    simp only [List.cons.injEq, Event.update.injEq, and_true] at hv
    subst hv
    exact hu hp
  · rw [List.concat_eq_append, ← List.cons_append, ← List.append_assoc] at he
    exact h pre v post' (List.append_inj' he rfl).1 hp

end Preceded

/-- The two FILLEDs of a trade, the aggressor's then the resting order's, each executing the
traded quantity at the traded price, on the trade's side and the other one. -/
def TradeFills (tail : List Event) (u : Update) : Prop :=
  ∃ r₁ r₂, tail = [.response r₁, .response r₂] ∧ r₁.kind = .filled ∧ r₂.kind = .filled ∧
    r₁.execQty = u.qty ∧ r₂.execQty = u.qty ∧ r₁.price = u.price ∧ r₂.price = u.price ∧
    r₁.side = u.side ∧ r₂.side = u.side.opposite

/-- What the CANCEL update of a resting order follows: its CANCELED, removing what the update says
rested, or its last FILLED, executing all of that and leaving nothing, with the trade's TRADE. -/
def CancelCause (tail : List Event) (u : Update) : Prop :=
  (∃ r, tail = [.response r] ∧ r.kind = .canceled ∧ r.orderId = u.orderId ∧ r.leavesQty = u.qty) ∨
  (∃ r v, tail = [.response r, .update v] ∧ r.kind = .filled ∧ r.orderId = u.orderId ∧
    r.execQty = u.qty ∧ r.leavesQty = 0 ∧ v.kind = .trade)

/-- Each TRADE comes right after the FILLEDs of its two sides. -/
def TradesPaired (evs : List Event) : Prop := Preceded (·.kind = .trade) TradeFills evs

/-- Each CANCEL update comes right after what took its order off the book. -/
def CancelsExplained (evs : List Event) : Prop := Preceded (·.kind = .cancel) CancelCause evs

end Event

end Exchange
