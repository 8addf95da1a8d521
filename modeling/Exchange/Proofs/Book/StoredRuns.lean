import Exchange.Proofs.Book.Storage

/-!
# Runs of the linked book

`LinkedBook.call` answers the calls of `Book.call` on the engine's linked book: limit orders,
cancels, direct inserts that return the slot of the rested order, and removals that return the
removed order's node. On a linked book that stores a well-formed book, each call makes the book's
events and replies and leaves a linked book that stores the book after (`Stores.call`); by
induction, so does every run (`Stores.run`).

`LinkedBook.view` reads a linked book as the reference reads its maps: the levels walked from each
side's best one along their `worse` links, each with its orders walked from the oldest along their
`next` links. A stored book's view is the book's (`Stores.view`). With the list book's refinement of
the reference book, the main statement follows: `LinkedBook.refines_reference`.
-/

theorem List.mapM_eq_some_of_map {α β : Type} {f : α → Option β} :
    ∀ {l : List α} {l' : List β}, l.map f = l'.map some → l.mapM f = some l'
  | [], [], _ => rfl
  | x :: l, y :: l', h => by
    simp only [List.map_cons, List.cons.injEq] at h
    simp [List.mapM_cons, h.1, List.mapM_eq_some_of_map h.2]

namespace Exchange

open Pool (nullIndex chain firstSlot)

/-- An order's node as the reference lists it. -/
def OrderNode.toRef (o : OrderNode) : RefOrder := ⟨o.orderId, o.clientId, o.qty, o.priority⟩

/-- An order's node as the book reports it. -/
def OrderNode.entry (o : OrderNode) : Entry :=
  { tickerId := o.tickerId, clientId := o.clientId, orderId := o.orderId, side := o.side,
    price := o.price, qty := o.qty, priority := o.priority }

@[simp] theorem OrderNode.toRef_link (o : OrderNode) (p n : Nat) : (o.link p n).toRef = o.toRef := rfl

@[simp] theorem Resting.toRef_node (o : Resting) (t : TickerId) (s : Side) (p : Price) :
    (o.node t s p).toRef = o.toRef := rfl

namespace LinkedBook

/-- What a call on the linked book returns besides its events: the slot and node of the order it
rested, or the node of the order it removed. -/
inductive Reply where
  | done
  | rested (index : Nat) (o : OrderNode)
  | removed (o : Option OrderNode)

/-- A reply as the reference gives it. -/
def Reply.toRef : Reply → RefBook.Reply
  | .done => .done
  | .rested _ o => .rested o.toRef
  | .removed o => .removed (o.map OrderNode.entry)

/-- A call on the linked book: its events, then its reply and the book after it, or the fault
that stopped it. A direct insert reads back the node it rested. -/
def call (lb : LinkedBook) : Book.Call → Outcome (Reply × LinkedBook)
  | .add c oid side p q =>
    let r := lb.add c oid side p q
    ⟨r.events, r.result.map (.done, ·)⟩
  | .cancel c oid =>
    let r := lb.cancel c oid
    ⟨r.events, r.result.map (.done, ·)⟩
  | .insert c oid side p q =>
    match lb.insertOrder (.new lb.ticker c oid side p q) with
    | .error f => ⟨[], .error f⟩
    | .ok (index, lb') => ⟨[], (lb'.orders.get index).map fun o => (.rested index o, lb')⟩
  | .remove oid => ⟨[], (lb.removeOrder oid).map fun (o, lb') => (.removed o, lb')⟩

/-- A level as the reference lists it: its price and its orders, walked from the oldest. -/
def levelView (lb : LinkedBook) (l : LevelNode) : Option (Price × List RefOrder) :=
  (lb.levelOrders l).map fun os => (l.price, os.map fun e => e.2.toRef)

/-- A side as the reference lists it, walked from its best level; `none` if a walk breaks. -/
def sideView (lb : LinkedBook) (side : Side) : Option (List (Price × List RefOrder)) :=
  (lb.sideLevels side).bind fun ls => ls.mapM fun e => lb.levelView e.2

/-- Both sides, best first. -/
def view (lb : LinkedBook) : Option (List (Price × List RefOrder) × List (Price × List RefOrder)) :=
  (lb.sideView .buy).bind fun bids => (lb.sideView .sell).map fun asks => (bids, asks)

@[simp] theorem levelView_link (lb : LinkedBook) (l : LevelNode) (b w : Nat) :
    lb.levelView (l.link b w) = lb.levelView l := rfl

variable {lb : LinkedBook} {b : Book} {P : Placed} {s : Side}

namespace Stores

/-! ## Reading a stored book along its links -/

theorem levelOrders_node (h : lb.Stores b P) (hv : s.isValid = true) {i : Nat} {l : Level}
    (hl : (i, l) ∈ P.side s) (L R : Nat) :
    lb.levelOrders ((l.node s).link L R) =
      some ((l.orderEntries lb.ticker s).map fun e => (e.2, e.1)) := by
  obtain ⟨ps₁, ps₂, hps⟩ := List.append_of_mem hl
  unfold levelOrders
  rw [LevelNode.head_link, Level.head_node_eq lb.ticker]
  exact (h.orders_split hv hps).walk_front_chain OrderNode.next_link h.ordersFit

theorem sideLevels_eq (h : lb.Stores b P) (hv : s.isValid = true) :
    lb.sideLevels s = some ((Placed.sideLevels s (P.side s)).map fun e => (e.2, e.1)) := by
  have hfirst : firstSlot (P.side s) nullIndex = firstSlot (Placed.levelCells s (P.side s)) nullIndex := by
    simp [firstSlot, Placed.levelCells, Function.comp_def]
  unfold sideLevels
  rw [h.best, hfirst]
  exact (h.levels.perm (Placed.levelEntries_perm hv)).walk_front_chain LevelNode.worse_link h.levelsFit

theorem levelView_node (h : lb.Stores b P) (hv : s.isValid = true) {i : Nat} {l : Level}
    (hl : (i, l) ∈ P.side s) : lb.levelView (l.node s) = some l.toRef := by
  rw [← levelView_link lb (l.node s) nullIndex nullIndex, levelView, h.levelOrders_node hv hl,
    Option.map_some, List.map_map, Level.orderEntries]
  have hrefs := Pool.map_chain_of_link (a := nullIndex) OrderNode.toRef_link nullIndex (l.cells lb.ticker s)
  simp only [Function.comp_def] at hrefs ⊢
  rw [hrefs]
  simp [Level.cells, Level.toRef]

theorem sideView_eq (h : lb.Stores b P) (hv : s.isValid = true) :
    lb.sideView s = some ((b.levels s).map Level.toRef) := by
  rw [sideView, h.sideLevels_eq hv, Option.bind_some]
  apply List.mapM_eq_some_of_map
  have hviews := Pool.map_chain_of_link (a := nullIndex) (levelView_link lb) nullIndex
    (Placed.levelCells s (P.side s))
  rw [List.map_map, h.sides s]
  simp only [Function.comp_def, Placed.sideLevels] at hviews ⊢
  rw [hviews]
  simp only [Placed.levelCells, List.map_map, Function.comp_def]
  exact List.map_congr_left fun e he => h.levelView_node hv he

/-- **A stored book reads as the book**: walking the linked lists gives the book's two sides,
best first. -/
theorem view (h : lb.Stores b P) : lb.view = some b.view := by
  rw [LinkedBook.view, h.sideView_eq rfl, Option.bind_some, h.sideView_eq rfl, Option.map_some]
  rfl

/-! ## Calls and runs -/

/-- **Every call on a stored book** makes the book's events and a reply that reads as the book's,
and the linked book after stores the book after; or both meet the same fault. -/
theorem call (h : lb.Stores b P) (hw : b.WF) (cl : Book.Call) :
    (lb.call cl).events = (b.call cl).events ∧
      Agrees (fun x y => x.1.toRef = y.1.toRef ∧ ∃ P', x.2.Stores y.2 P') (lb.call cl).result
        (b.call cl).result := by
  cases cl with
  | add c oid side p q =>
    obtain ⟨hev, hag⟩ := h.add (fun s l hl => (hw.sides s).nonempty l hl) c oid side p q
    exact ⟨hev, hag.map fun _ _ h' => ⟨rfl, h'⟩⟩
  | cancel c oid =>
    obtain ⟨hev, lb', P', hres, hst⟩ := h.cancel c oid
    refine ⟨hev, ?_⟩
    simp only [LinkedBook.call, Book.call, hres]
    exact ⟨rfl, P', hst⟩
  | insert c oid side p q =>
    have hA := h.insertOrder lb.ticker c oid side p q
    rcases hx : lb.insertOrder (.new lb.ticker c oid side p q) with f | ⟨index, lb'⟩ <;>
      rcases hy : b.insert c oid side p q with f' | ⟨o, b'⟩ <;> rw [hx, hy] at hA <;>
      simp only [Agrees] at hA
    · subst hA
      simp [LinkedBook.call, Book.call, hx, hy, Agrees, Except.map]
    · obtain ⟨rfl, ⟨L, R, hget⟩, P', hst⟩ := hA
      refine ⟨by simp [LinkedBook.call, Book.call, hx, hy], ?_⟩
      simp only [LinkedBook.call, Book.call, hx, hy, hget]
      exact ⟨by simp [Reply.toRef, Book.Reply.toRef], P', hst⟩
  | remove oid =>
    obtain ⟨lb', P', hrem, hst⟩ := h.removeOrder oid
    refine ⟨rfl, ?_⟩
    simp only [LinkedBook.call, Book.call, hrem]
    refine ⟨?_, P', hst⟩
    cases hf : b.find? oid <;>
      simp [Reply.toRef, Book.Reply.toRef, Book.remove, hf, OrderNode.entry, h.ticker]

end Stores

section Runs

variable {σ τ ρ ρ' γ κ : Type} {step₁ : σ → γ → Outcome (ρ × σ)} {step₂ : τ → γ → Outcome (ρ' × τ)}
  {R : σ → τ → Prop} {f : ρ → κ} {g : ρ' → κ}

/-- **Two machines that step alike run alike**: when each call from related states makes the
same events, replies that read the same and related states, or the same fault, so does every run
of calls. -/
theorem runCalls_agree
    (hstep : ∀ s t c, R s t → (step₁ s c).events = (step₂ t c).events ∧
      Agrees (fun x y => f x.1 = g y.1 ∧ R x.2 y.2) (step₁ s c).result (step₂ t c).result) :
    ∀ (calls : List γ) {s : σ} {t : τ}, R s t →
      (Outcome.runCalls step₁ s calls).events = (Outcome.runCalls step₂ t calls).events ∧
        Agrees (fun x y => x.1.map f = y.1.map g ∧ R x.2 y.2)
          (Outcome.runCalls step₁ s calls).result (Outcome.runCalls step₂ t calls).result
  | [], _, _, h => ⟨rfl, rfl, h⟩
  | c :: cs, s, t, h => by
    obtain ⟨hev, hag⟩ := hstep s t c h
    rcases h₁ : (step₁ s c).result with e | ⟨x, s'⟩ <;>
      rcases h₂ : (step₂ t c).result with e' | ⟨y, t'⟩ <;> rw [h₁, h₂] at hag <;>
      simp only [Agrees] at hag
    · simp only [Outcome.runCalls, h₁, h₂]
      exact ⟨hev, hag⟩
    · obtain ⟨hev', hag'⟩ := runCalls_agree hstep cs hag.2
      simp only [Outcome.runCalls, h₁, h₂]
      exact ⟨by rw [hev, hev'], hag'.map fun _ _ h' => ⟨by simp [hag.1, h'.1], h'.2⟩⟩

end Runs

/-- **A run on a stored book** makes the book's events and replies that read as the book's, and
the linked book after stores the book after, which stays well formed; or both meet the same
fault. -/
theorem Stores.run (h : lb.Stores b P) (hw : b.WF) (calls : List Book.Call) :
    (Outcome.runCalls LinkedBook.call lb calls).events = (Outcome.runCalls Book.call b calls).events ∧
      Agrees (fun x y => x.1.map Reply.toRef = y.1.map Book.Reply.toRef ∧
          (∃ P', x.2.Stores y.2 P') ∧ y.2.WF)
        (Outcome.runCalls LinkedBook.call lb calls).result (Outcome.runCalls Book.call b calls).result := by
  refine runCalls_agree (R := fun (lb : LinkedBook) (b : Book) => (∃ P, lb.Stores b P) ∧ b.WF) ?_ calls
    ⟨⟨P, h⟩, hw⟩
  rintro lb b cl ⟨⟨P, h⟩, hw⟩
  obtain ⟨hev, hag⟩ := h.call hw cl
  exact ⟨hev, hag.imp_ok fun _ _ hxy hy => ⟨hxy.1, hxy.2, hw.call hy⟩⟩

/-- **The engine's linked book refines the reference book.** From an empty linked book, a run of
limit orders, cancels, direct inserts and removals that keeps the callers' promises and the
pools' sizes makes the events and the replies of the reference book run on the same calls, and
walking the linked lists of the book it leaves gives the reference book's two sides, best first;
a fault that stops one run stops the other alike. -/
theorem refines_reference {t : TickerId} {mo ml : Nat} (hlb : LinkedBook.create t mo ml = .ok lb)
    (calls : List Book.Call) (hfit : (RefBook.empty t).fits mo ml calls = true) :
    (Outcome.runCalls call lb calls).events =
        (Outcome.runCalls RefBook.call (RefBook.empty t) calls).events ∧
      (Outcome.runCalls call lb calls).result.map (fun x => (x.1.map Reply.toRef, x.2.view)) =
        (Outcome.runCalls RefBook.call (RefBook.empty t) calls).result.map
          fun y => (y.1, some y.2.view) := by
  have hc := stores_create t mo ml
  rw [hlb] at hc
  cases hb : Book.create t mo ml with
  | error f => rw [hb] at hc; cases hc
  | ok b =>
    rw [hb] at hc
    obtain ⟨hev, hag⟩ := Stores.run (P := ⟨[], []⟩) hc (Book.wf_create hb) calls
    obtain ⟨hev', hag'⟩ := (mirrors_create hb).run hfit
    refine ⟨hev.trans hev', (hag.trans hag').map_eq ?_⟩
    rintro x y ⟨z, ⟨hxz, ⟨P', hst⟩, -⟩, hzy, hm⟩
    rw [hxz, hzy, hst.view, hm.view]

/-- A sell that two buys cross, the second resting what is left, then a direct insert, a cancel
of the filled sell and the insert's removal: the linked book answers as the reference does. -/
theorem crossing_run_refines_reference :
    let calls : List Book.Call := [.add 1 1 .sell 100 5, .add 2 2 .buy 101 3, .add 3 3 .buy 101 4,
      .insert 4 4 .buy 99 7, .cancel 1 1, .remove 4]
    LinkedBook.create 0 4 4 = .ok ⟨0, ⟨#[none, none, none, none], 0, 0⟩,
        ⟨#[none, none, none, none], 0, 0⟩, .empty, .empty, nullIndex, nullIndex, .empty⟩ ∧
      (RefBook.empty 0).fits 4 4 calls = true ∧
      (Outcome.runCalls call ⟨0, ⟨#[none, none, none, none], 0, 0⟩,
          ⟨#[none, none, none, none], 0, 0⟩, .empty, .empty, nullIndex, nullIndex, .empty⟩ calls).events =
        (Outcome.runCalls RefBook.call (RefBook.empty 0) calls).events ∧
      (Outcome.runCalls call ⟨0, ⟨#[none, none, none, none], 0, 0⟩,
          ⟨#[none, none, none, none], 0, 0⟩, .empty, .empty, nullIndex, nullIndex, .empty⟩ calls).result.map
          (fun x => (x.1.map Reply.toRef, x.2.view)) =
        (Outcome.runCalls RefBook.call (RefBook.empty 0) calls).result.map
          fun y => (y.1, some y.2.view) := by
  intro calls
  have hlb : LinkedBook.create 0 4 4 = .ok ⟨0, ⟨#[none, none, none, none], 0, 0⟩,
      ⟨#[none, none, none, none], 0, 0⟩, .empty, .empty, nullIndex, nullIndex, .empty⟩ := rfl
  have hfit : (RefBook.empty 0).fits 4 4 calls = true := by decide +kernel
  exact ⟨hlb, hfit, refines_reference hlb calls hfit⟩

end LinkedBook

end Exchange
