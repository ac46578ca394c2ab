import Bourse.Proofs.Floor.Steps
import Bourse.Proofs.Settlement.Faithful
import Bourse.Proofs.Twin.Desk

/-!
# Searches on desks that match the same

Looking for the best order of a side goes on side by side on twin desks: the same order is found,
and the same are set aside. Orders that are gone are all that only the first desk comes across, and
it drops them without an effect on depth (`Desk.Twin.paired_topMatching`).

Between a search and what follows it the two queues have the same head (`Desk.SameHead`).
-/

namespace Bourse

open Bourse.Action

variable {α : Type}

/-! ## Settlement does not read the journal -/

namespace Simulated

/-- Closing an order does not depend on the journal. -/
theorem unread_close (r : OrderRef) :
    Unread (Office.onOrders (Action.change (·.modify r Order.close)) :
      Action (Office Simulated) Unit) := (unread_change _).within

/-- Filling an order does not depend on the journal. -/
theorem unread_fillOrder (r : OrderRef) (q : Quantity) : Unread (fillOrder r q) :=
  unread_current.bind fun _ => (unread_ofExcept _).bind fun _ => unread_replace _

/-- A trade does not depend on the journal. -/
theorem unread_trade (ask bid : OrderRef) (price : Price) (q : Quantity) :
    Unread (trade ask bid price q) :=
  (unread_fillOrder ask q).bind fun _ => (unread_fillOrder bid q).bind fun _ =>
    unread_current.bind fun _ => (unread_replace _).bind fun _ => unread_pure _

/-- Closing the orders of users who cannot settle does not depend on the journal. -/
theorem unread_closeRejected (ask bid : OrderRef) (askRejected bidRejected : Bool) :
    Unread (closeRejected ask bid askRejected bidRejected) := by
  unfold closeRejected
  cases askRejected <;> cases bidRejected
  · exact unread_pure _
  · exact (unread_close bid).bind fun _ => unread_pure _
  · exact (unread_close ask).bind fun _ => unread_pure _
  · exact (unread_close ask).bind fun _ => (unread_close bid).bind fun _ => unread_pure _

/-- Settling a pair does not depend on the journal. -/
theorem unread_settle (ask bid : OrderRef) (price : Price) (q : Quantity) :
    Unread (settle ask bid price q) := by
  refine unread_current.bind fun o => ?_
  simp only
  split
  · exact unread_pure _
  · exact unread_pure _
  · exact unread_pure _
  · split
    · exact unread_closeRejected _ _ _ _
    · exact unread_trade _ _ _ _

/-- Noting a stop-loss does not depend on the journal. -/
theorem unread_noteStopLoss (r : OrderRef) : Unread (noteStopLoss r) :=
  unread_current.bind fun _ => (unread_replace _).bind fun _ => unread_log _

end Simulated

namespace Desk

variable {lax : Bool} {aside : Multiset Item} {hand : Multiset OrderId} {items : List Item}
  {s s' : Logged (Desk Simulated)} {d d' : Desk Simulated} {side : Side} {exclude : Option UserId}
  {r : OrderRef} {i : Item}

/-! ## On a part of the desk -/

/-- An action of settlement that takes nothing back from orders. -/
theorem Twin.paired_onOffice {act : Action (Office Simulated) α}
    (h : Twin lax aside hand s.state s'.state) (hact : Unread act)
    (hfollow : Ends act ⟨s.state.office, s.journal⟩
      (fun _ t => s.state.office.orders.Follow t.state.orders)
      (fun _ t => s.state.office.orders.Follow t.state.orders)) :
    Paired (onOffice act) (onOffice act) s s'
      (fun _ t t' => Twin lax aside hand t t' ∧ t.book = s.state.book ∧ t'.book = s'.state.book)
      (Twin lax 0 hand) := by
  have hboth := (hact ⟨s.state.office, s.journal⟩ ⟨s'.state.office, s'.journal⟩ h.office).andLeft
    (P := fun _ o => s.state.office.orders.Follow o.orders)
    (E := fun o => s.state.office.orders.Follow o.orders) hfollow
  refine paired_within (hboth.mono ?_ ?_)
  · rintro _ o _ ⟨rfl, ho⟩
    exact ⟨h.withOffice ho, rfl, rfl⟩
  · rintro o _ ⟨rfl, ho⟩
    exact (h.withOffice ho).lose

/-- An action on the ledger that shows nothing of what is gone. -/
theorem Twin.paired_onLedger {act : Action Ledger α} (h : Twin lax aside hand s.state s'.state)
    (hact : ∀ t t' : Logged Ledger, t.state.Alike t'.state →
      Paired act act t t' (fun _ => Ledger.Alike) Ledger.Alike)
    (hhides : Ends act ⟨s.state.book.ledger, s.journal⟩
      (fun _ t => s.state.book.ledger.Hides t.state)
      (fun _ t => s.state.book.ledger.Hides t.state)) :
    Paired (onLedger act) (onLedger act) s s'
      (fun _ t t' => Twin lax aside hand t t' ∧ Beside s.state t ∧ Beside s'.state t')
      (Twin lax 0 hand) := by
  have hboth := (hact ⟨s.state.book.ledger, s.journal⟩ ⟨s'.state.book.ledger, s'.journal⟩
    h.ledger).andLeft (P := fun _ => s.state.book.ledger.Hides) (E := s.state.book.ledger.Hides)
    hhides
  refine paired_within (hboth.mono ?_ ?_)
  · rintro _ l l' ⟨hl, hhides⟩
    exact ⟨h.withLedger hl fun i _ _ => hhides i.id, .priced _ _ _, .priced _ _ _⟩
  · rintro l l' ⟨hl, hhides⟩
    exact (h.withLedger hl fun i _ _ => hhides i.id).lose

/-- Queues of resting orders are changed together. -/
theorem paired_changeQueue {f f' : Queue → Queue}
    {R : Unit → Desk Simulated → Desk Simulated → Prop}
    {B : Desk Simulated → Desk Simulated → Prop}
    (h : R () { s.state with book := s.state.book.withQueue (f (s.state.book.queue side)) side }
      { s'.state with book := s'.state.book.withQueue (f' (s'.state.book.queue side)) side }) :
    Paired (changeQueue side f) (changeQueue side f') s s' R B := ⟨rfl, h⟩

/-- Queues of dormant stop-losses are changed together. -/
theorem paired_changeStopLossQueue {f f' : Queue → Queue}
    {R : Unit → Desk Simulated → Desk Simulated → Prop}
    {B : Desk Simulated → Desk Simulated → Prop}
    (h : R () { s.state with book :=
        s.state.book.withStopLossQueue (f (s.state.book.stopLossQueue side)) side }
      { s'.state with book :=
        s'.state.book.withStopLossQueue (f' (s'.state.book.stopLossQueue side)) side }) :
    Paired (changeStopLossQueue side f) (changeStopLossQueue side f') s s' R B := ⟨rfl, h⟩

/-- A withdrawal does the same to twins, and nothing beside. -/
theorem Twin.paired_withdraw (h : Twin lax aside hand s.state s'.state) (id : OrderId) :
    Paired (onLedger (Ledger.withdraw id)) (onLedger (Ledger.withdraw id)) s s'
      (fun _ t t' => Twin lax aside hand t t' ∧ Beside s.state t ∧ Beside s'.state t')
      (Twin lax 0 hand) :=
  h.paired_onLedger (fun _ _ => Ledger.paired_withdraw)
    (Ledger.hides_withdraw.mono (fun _ _ ht => ht.2) fun _ _ ht => ht.2)

/-! ## Looking for the best order of a side -/

/-- The order heads the queues of the side of both desks. -/
def SameHead (side : Side) (r : OrderRef) (d d' : Desk Simulated) : Prop :=
  ∃ i, (d.book.queue side).headItem? = some i ∧ (d'.book.queue side).headItem? = some i ∧
    i.order = r

theorem SameHead.congr {e e' : Desk Simulated} (h : SameHead side r d d')
    (hd : e.book.queue side = d.book.queue side) (hd' : e'.book.queue side = d'.book.queue side) :
    SameHead side r e e' := by
  unfold SameHead
  rw [hd, hd']
  exact h

/-- Taking the depth of an order away that is not shown does nothing. -/
theorem withdraw_of_find? {id : OrderId} (h : s.state.book.ledger.find? id = none) :
    onLedger (Ledger.withdraw id) s = .ok () s := by
  refine ends_eq_ok.1 ?_
  rw [ends_onLedger]
  simp only [Ledger.withdraw, ends_bind, ends_current, h]
  exact ⟨trivial, rfl⟩

/-- A search in an empty queue finds nothing. -/
theorem topMatching_of_empty {n : Nat} (h : (s.state.book.queue side).headItem? = none) :
    topMatching side exclude n items s = .ok (none, items) s := by
  refine ends_eq_ok.1 ?_
  cases n with
  | zero => exact ⟨rfl, rfl⟩
  | succ n =>
    simp only [topMatching, ends_bind, ends_current, h]
    exact ⟨rfl, rfl⟩

/-- Without its head a queue of resting orders is within one step less. -/
theorem size_queue_dropHead {b : Book} {n : Nat} (h : (b.queue side).size ≤ n + 1) :
    ((b.withQueue (b.queue side).dropHead side).queue side).size ≤ n := by
  rw [Book.queue_withQueue, if_pos rfl, Queue.size_dropHead]
  omega

namespace Twin

/-- A search goes on side by side. -/
theorem paired_topMatching {n n' : Nat} (h : Twin lax items hand s.state s'.state)
    (hn : (s.state.book.queue side).size ≤ n) (hn' : (s'.state.book.queue side).size ≤ n') :
    Paired (topMatching side exclude n items) (topMatching side exclude n' items) s s'
      (fun found t t' => Twin lax found.2 hand t t' ∧
        ∀ r, found.1 = some r → SameHead side r t t') (Twin lax 0 hand) := by
  induction n generalizing n' items s s' with
  | zero =>
    have hempty := Queue.headItem?_of_size (Nat.le_zero.1 hn)
    exact paired_of_ok (topMatching_of_empty hempty)
      (topMatching_of_empty ((h.queue side).headItem?_eq_none hempty)) ⟨h, nofun⟩
  | succ n ih =>
    cases hh : (s.state.book.queue side).headItem? with
    | none =>
      exact paired_of_ok (topMatching_of_empty hh)
        (topMatching_of_empty ((h.queue side).headItem?_eq_none hh)) ⟨h, nofun⟩
    | some head =>
    have hsize := size_queue_dropHead hn
    rcases h.head_cases hh with ⟨hh', hdrop⟩ | ⟨hgone, hdrop⟩
    · -- both queues have the head
      obtain ⟨n', rfl⟩ := Nat.exists_eq_add_one.2 ((Queue.size_pos_of_headItem? hh').trans_le hn')
      have hsize' := size_queue_dropHead hn'
      simp only [topMatching]
      refine paired_current ?_
      simp only [hh, hh', h.order]
      split
      · refine Paired.bind (R := fun _ t t' => Twin lax items hand t t' ∧
          (t.book.queue side).size ≤ n ∧ (t'.book.queue side).size ≤ n')
          (paired_changeQueue ⟨hdrop _ (.inl rfl), hsize, hsize'⟩) ?_
        rintro _ t t' ⟨ht, hsize, hsize'⟩
        refine (ht.paired_withdraw _).bind ?_
        rintro _ u u' ⟨hu, hbeside, hbeside'⟩
        refine paired_log_bind fun v v' hv hv' => ih (hv ▸ hv' ▸ hu) ?_ ?_
        · rw [hv, hbeside.queue]
          exact hsize
        · rw [hv', hbeside'.queue]
          exact hsize'
      · split
        · have haside : ((items ++ [head] : List Item) : Multiset Item) = items + {head} := rfl
          refine Paired.bind (R := fun _ t t' => Twin lax (items ++ [head] : List Item) hand t t' ∧
            (t.book.queue side).size ≤ n ∧ (t'.book.queue side).size ≤ n')
            (paired_changeQueue ⟨hdrop _ (.inr haside), hsize, hsize'⟩) ?_
          exact fun _ t t' ht => ih ht.1 ht.2.1 ht.2.2
        · exact paired_pure ⟨h, fun _ hr => ⟨head, hh, hh', Option.some.inj hr⟩⟩
    · -- the head of the first queue is gone
      have hopen : (s.state.order head.order).isOpen = false := by
        rw [Order.isOpen, hgone.2.1]
        rfl
      simp only [topMatching]
      refine Paired.left ?_
      simp only [ends_current, hh, hopen, Bool.not_false, if_true]
      refine Paired.left ?_
      rw [ends_changeQueue]
      have hmem : head ∈ s.state.book.stock :=
        Book.mem_stock.2 ⟨side, .inl (Queue.mem_bag_of_headItem? hh)⟩
      have hfind : (s.state.book.withQueue (s.state.book.queue side).dropHead side).ledger.find?
          (s.state.order head.order).id = none := by
        rw [Book.ledger_withQueue, h.ids head (Multiset.mem_add.2 (.inl hmem))]
        exact hgone.2.2
      refine Paired.left (.of_ok (withdraw_of_find? hfind) (Paired.left ?_))
      rw [ends_log]
      exact ih hdrop hsize hn'

/-- What is known of two desks after both looked for the best order of a side. -/
structure Found (lax : Bool) (hand : Multiset OrderId) (side : Side) (exclude : Option UserId)
    (d d' : Desk Simulated) (found : Option OrderRef × List Item) (e e' : Desk Simulated) :
    Prop where
  twin : Twin lax found.2 hand e e'
  head : ∀ r, found.1 = some r → SameHead side r e e'
  searched : ∃ dropped, Searched side exclude d e dropped found.2
  searched' : ∃ dropped, Searched side exclude d' e' dropped found.2

/-- A search is made on any book. -/
theorem searched_findTop (s : Logged (Desk Simulated)) :
    Ends (findTop side exclude) s
      (fun found t => ∃ dropped, Searched side exclude s.state t.state dropped found.2)
      (fun _ _ => True) := by
  have hdrop : Drops s.state side (fun _ => True) True := fun _ _ _ _ _ _ =>
    Ledger.breaks_withdraw.mono (fun _ _ _ => trivial) fun _ _ hf => ⟨hf, trivial⟩
  exact (ends_findTop hdrop trivial).mono (fun _ _ ⟨dropped, h, _⟩ => ⟨dropped, h⟩)
    fun _ _ _ => trivial

/-- A search finds the same on twins. -/
theorem paired_findTop (h : Twin lax 0 hand s.state s'.state) :
    Paired (findTop side exclude) (findTop side exclude) s s'
      (Found lax hand side exclude s.state s'.state) (Twin lax 0 hand) := by
  have hfind : Paired (findTop side exclude) (findTop side exclude) s s'
      (fun found t t' => Twin lax found.2 hand t t' ∧
        ∀ r, found.1 = some r → SameHead side r t t') (Twin lax 0 hand) :=
    paired_current (paired_topMatching h le_rfl le_rfl)
  have hleft := hfind.andLeft (E := fun _ => True)
    (P := fun found t => ∃ dropped, Searched side exclude s.state t dropped found.2)
    (searched_findTop s)
  have hboth := hleft.andRight (E := fun _ => True)
    (P := fun found t => ∃ dropped, Searched side exclude s'.state t dropped found.2)
    (searched_findTop s')
  exact hboth.mono (fun _ _ _ ⟨⟨⟨htwin, hhead⟩, hs⟩, hs'⟩ => ⟨htwin, hhead, hs, hs'⟩)
    fun _ _ hb => hb.1.1

/-- What was set aside is put back on both desks. -/
theorem withItems (h : Twin lax items hand d d') (side : Side) :
    Twin lax 0 hand (d.withItems side items) (d'.withItems side items) := by
  have hbag : (items.foldl Queue.pushItem (d.book.queue side)).bag + 0 =
      (d.book.queue side).bag + items := by
    rw [bag_foldl_pushItem, add_zero, add_comm]
  refine h.withQueue ((h.queue side).pushItems items) ?_ ?_
  · exact fun i hi => .inl (hbag ▸ hi)
  · exact le_of_eq (by rw [hbag])

/-- Putting back what was set aside does the same to twins. -/
theorem paired_restore (h : Twin lax items hand s.state s'.state) :
    Paired (restore side items) (restore side items) s s' (fun _ => Twin lax 0 hand)
      (Twin lax 0 hand) := paired_changeQueue (h.withItems side)

/-- Items leave the first place of a queue of both desks. -/
theorem withoutHead (h : Twin lax aside hand d d') (hhead : SameHead side r d d') :
    Twin lax aside hand (d.withoutHead side d.book.ledger)
    (d'.withoutHead side d'.book.ledger) := by
  obtain ⟨i, hi, hi', -⟩ := hhead
  rw [withoutHead_ledger, withoutHead_ledger]
  exact h.shrinkQueue ((h.queue side).dropHeads (h.nodup_queue side) hi hi')
    (Queue.bag_dropHead hi ▸ Multiset.le_cons_self _ _)

/-- An order that heads its queue on both desks leaves it if it is finished. -/
theorem paired_popIf (h : Twin lax aside hand s.state s'.state)
    (hhead : SameHead side r s.state s'.state) {done : Bool}
    {next next' : Action (Desk Simulated) α} {R : α → Desk Simulated → Desk Simulated → Prop}
    {B : Desk Simulated → Desk Simulated → Prop}
    (hnext : ∀ t t', Twin lax aside hand t.state t'.state →
      (∀ other, side ≠ other → t.state.book.queue other = s.state.book.queue other ∧
        t'.state.book.queue other = s'.state.book.queue other) → Paired next next' t t' R B) :
    Paired (if done = true then popResting side r >>= fun _ => next else next)
      (if done = true then popResting side r >>= fun _ => next' else next') s s' R B := by
  split
  · have hdropped := h.withoutHead hhead
    obtain ⟨i, hi, hi', hr⟩ := hhead
    refine Paired.bind (R := fun _ t t' => Twin lax aside hand t t' ∧
      ∀ other, side ≠ other → t.book.queue other = s.state.book.queue other ∧
        t'.book.queue other = s'.state.book.queue other) ?_ fun _ t t' ht => hnext t t' ht.1 ht.2
    refine paired_of_ok (ends_eq_ok.1 ((ends_popResting hi hr).2 ⟨rfl, rfl⟩))
      (ends_eq_ok.1 ((ends_popResting hi' hr).2 ⟨rfl, rfl⟩)) ⟨hdropped, fun other hne => ?_⟩
    exact ⟨queue_withoutHead_of_ne s.state side _ hne, queue_withoutHead_of_ne s'.state side _ hne⟩
  · exact hnext s s' h fun _ _ => ⟨rfl, rfl⟩

end Twin

end Desk

end Bourse
