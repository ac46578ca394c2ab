import Bourse.Proofs.Twin.Session

/-!
# Cancelled orders that stay queued

A cancelled order stays in its queue until it comes to the top. Here that is compared with a book
that removes it at once, wherever it is queued (`Desk.cancelEagerly`): under any sequence of
requests the two are alike in all that can be seen (`Session.lazy_removal_unseen`). What lingers in
the first book is closed and no longer shown, so it is one of the orders that `Desk.Twin` lets the
first desk hold alone.
-/

namespace Bourse

open Bourse.Action Desk

/-! ## Removing orders at once -/

/-- The queue without an order. -/
def Queue.without (q : Queue) (r : OrderRef) : Queue :=
  (q.items.toList.filter fun i => i.order ≠ r).foldl Queue.pushItem (.empty q.direction)

/-- Without an order a queue has the items of the other orders. -/
theorem Queue.bag_without (q : Queue) (r : OrderRef) :
    (q.without r).bag = q.bag.filter fun i => i.order ≠ r := by
  rw [Queue.without, Desk.bag_foldl_pushItem, show (Queue.empty q.direction).bag = 0 from rfl,
    add_zero]
  exact (Multiset.filter_coe ..).symm

/-- Removing an order from the second queue is not noticed if its items are gone in the first. -/
theorem Queue.Twin.without {gone : Item → Prop} {direction : PriceDirection} {q q' : Queue}
    {r : OrderRef} (h : q.Twin gone direction q') (hgone : ∀ i ∈ q'.bag, i.order = r → gone i) :
    q.Twin gone direction (q'.without r) := by
  obtain ⟨extra, hbag, hextra⟩ := h.bag
  refine ⟨h.ordered, ?_, extra + q'.bag.filter (fun i => i.order = r), ?_, ?_⟩
  · exact h.ordered'.1 ▸ Desk.ordered_foldl_pushItem _ Queue.ordered_empty
  · rw [bag_without, hbag, add_assoc, Multiset.filter_add_not]
  · intro i hi
    rcases Multiset.mem_add.1 hi with hi | hi
    · exact hextra i hi
    · obtain ⟨hmem, hr⟩ := Multiset.mem_filter.1 hi
      exact hgone i hmem hr

/-- The book without an order in any of its queues. -/
def Book.without (b : Book) (r : OrderRef) : Book where
  instrument := b.instrument
  asks := b.asks.without r
  bids := b.bids.without r
  askStopLosses := b.askStopLosses.without r
  bidStopLosses := b.bidStopLosses.without r
  ledger := b.ledger
  lastPrice := b.lastPrice
  capacity := b.capacity
  phase := b.phase

/-- Settlement cancels an order, and if it could the book removes the order at once. -/
def Desk.cancelEagerly {σ : Type} (r : OrderRef) : Action (Desk σ) (Except CancelError Unit) := do
  let answer ← Desk.onOffice (Office.onOrders (Orders.cancel r))
  if let .ok () := answer then
    Desk.changeBook (·.without r)
  return answer

namespace Book

variable (b : Book) (r : OrderRef)

/-- Without an order each queue of resting orders is without it. -/
theorem queue_without (s : Side) : (b.without r).queue s = (b.queue s).without r := by
  cases s <;> rfl

/-- Without an order each queue of dormant stop-losses is without it. -/
theorem stopLossQueue_without (s : Side) :
    (b.without r).stopLossQueue s = (b.stopLossQueue s).without r := by
  cases s <;> rfl

end Book

namespace Desk

variable {hand : Multiset OrderId} {s s' : Logged (Desk Simulated)} {d d' : Desk Simulated}
  {r : OrderRef}

/-- A closed order that is not shown any more can be removed from the second desk. -/
theorem Twin.without (h : Twin true 0 hand d d') (hclosed : (d.order r).closed = true)
    (hhidden : d.book.ledger.find? (d.order r).id = none) :
    Twin true 0 hand d { d' with book := d'.book.without r } := by
  have hgone : ∀ i ∈ d.book.stock, i.order = r → Gone true d i := by
    rintro i hi rfl
    refine ⟨rfl, hclosed, ?_⟩
    rw [← h.ids i (Multiset.mem_add.2 (.inl hi))]
    exact hhidden
  have hstock : ∀ {q q' : Queue} {direction : PriceDirection}, q.Twin (Gone true d) direction q' →
      (∀ i ∈ q.bag, i ∈ d.book.stock) → q.Twin (Gone true d) direction (q'.without r) := by
    intro q q' direction hq hmem
    refine hq.without fun i hi => hgone i (hmem i ?_)
    obtain ⟨extra, hbag, -⟩ := hq.bag
    exact hbag ▸ Multiset.mem_add.2 (.inr hi)
  refine ⟨h.office, h.header, h.ledger, fun s => ?_, fun s => ?_, h.ids, h.distinct⟩
  · rw [Book.queue_without]
    exact hstock (h.queue s) fun i hi => Book.mem_stock.2 ⟨s, .inl hi⟩
  · rw [Book.stopLossQueue_without]
    exact hstock (h.dormant s) fun i hi => Book.mem_stock.2 ⟨s, .inr hi⟩

/-- The desks are twins, or would be if the second had not removed an order. It is closed, but may
still be shown. -/
def Removed (hand : Multiset OrderId) (r : OrderRef) (d d' : Desk Simulated) : Prop :=
  Twin true 0 hand d d' ∨ ∃ e, Twin true 0 hand d e ∧ (d.order r).closed = true ∧
    d' = { e with book := e.book.without r }

/-- Removing an order from the queues changes no order. -/
theorem Removed.order (h : Removed hand r d d') : d'.order = d.order := by
  rcases h with h | ⟨e, h, -, rfl⟩
  · exact h.order
  · exact h.order

/-- Settlement cancels an order on both desks, and the second removes it if it could be
cancelled. -/
theorem Twin.paired_cancelEagerly (h : Twin true 0 hand s.state s'.state) :
    Paired (onOffice (Office.onOrders (Orders.cancel r))) (cancelEagerly r) s s'
      (fun _ => Removed hand r) (Twin true 0 hand) := by
  have hclosed : Ends (onOffice (Office.onOrders (Orders.cancel r))) s
      (fun answer t => answer = .ok () → (t.state.order r).closed = true) (fun _ _ => True) := by
    simp only [ends_onOffice, Office.onOrders, ends_within, Orders.cancel, ends_bind, ends_current]
    split
    · intro h
      cases h
    · intro _
      show ((s.state.office.orders.set r _).get r).closed = true
      rw [Orders.get_set, if_pos rfl]
      rfl
  rw [← bind_pure (onOffice (Office.onOrders (Orders.cancel r)))]
  refine Paired.bind ((h.paired_cancel.andLeft (P := fun answer t => answer = .ok () →
    (t.order r).closed = true) (E := fun _ => True) hclosed).mono (fun _ _ _ ht => ht)
    fun _ _ ht => ht.1) ?_
  rintro (error | _) t t' ⟨ht, hclosed⟩
  · exact paired_pure (.inl ht)
  · exact ⟨rfl, .inr ⟨t'.state, ht, hclosed rfl, rfl⟩⟩

/-- The book takes the depth of a cancelled order away, which the second desk may have removed
before. -/
theorem Removed.paired_withdraw (h : Removed hand r s.state s'.state) :
    Paired (withdraw (s.state.order r).side r) (withdraw (s.state.order r).side r) s s'
      (fun _ => Twin true 0 hand) (Twin true 0 hand) := by
  rcases h with h | ⟨e, h, hclosed, hremoved⟩
  · exact h.paired_withdrawCall
  have horder : s'.state.order = s.state.order := by
    rw [hremoved]
    exact h.order
  simp only [withdraw, checkSide, bind_assoc, pure_bind]
  refine paired_current ?_
  simp only [horder, if_true]
  refine paired_current ?_
  rw [horder]
  have hledger : s.state.book.ledger.Alike s'.state.book.ledger := by
    rw [hremoved]
    exact h.ledger
  -- the depth goes as if the order was still there, and then it can be removed
  have hafter : ∀ l l' : Ledger, l.Alike l' →
      l.find? (s.state.order r).id = none ∧ s.state.book.ledger.Hides l →
      Twin true 0 hand { s.state with book := { s.state.book with ledger := l } }
        { s'.state with book := { s'.state.book with ledger := l' } } := by
    rintro l l' hl ⟨hhidden, hhides⟩
    have hwithdrawn := h.withLedger hl fun i _ _ => hhides i.id
    rw [hremoved]
    exact hwithdrawn.without hclosed hhidden
  have hwithdraw : Paired (Ledger.withdraw (s.state.order r).id)
      (Ledger.withdraw (s.state.order r).id) ⟨s.state.book.ledger, s.journal⟩
      ⟨s'.state.book.ledger, s'.journal⟩ (fun _ => Ledger.Alike) Ledger.Alike :=
    Ledger.paired_withdraw hledger
  have hboth := hwithdraw.andLeft
    (P := fun _ l => l.find? (s.state.order r).id = none ∧ s.state.book.ledger.Hides l)
    (E := fun l => l.find? (s.state.order r).id = none ∧ s.state.book.ledger.Hides l)
    Ledger.hides_withdraw
  refine Paired.bind (R := fun _ => Twin true 0 hand) (paired_within (hboth.mono ?_ ?_)) ?_
  · exact fun _ l l' hl => hafter l l' hl.1 hl.2
  · exact fun l l' hl => hafter l l' hl.1 hl.2
  · exact fun _ t t' ht => paired_log_bind fun u u' hu hu' => paired_pure (hu ▸ hu' ▸ ht)

/-- Queues stay sound without an order. -/
theorem Sound.without {known : OrderRef → Prop} (hd : Sound known d) :
    Sound known { d with book := d.book.without r } where
  ordered s := by
    rw [Book.queue_without]
    exact (hd.ordered s).1 ▸ ordered_foldl_pushItem _ Queue.ordered_empty
  resting s i hi := by
    rw [Book.queue_without, Queue.bag_without] at hi
    exact hd.resting s i (Multiset.mem_of_mem_filter hi)
  dormant s i hi := by
    rw [Book.stopLossQueue_without, Queue.bag_without] at hi
    exact hd.dormant s i (Multiset.mem_of_mem_filter hi)

/-- An eager cancellation keeps the book sound and takes nothing back. -/
theorem ends_cancelEagerly (hd : Sound (fun _ => True) s.state) :
    Ends (cancelEagerly r) s
      (fun _ t => Kept (fun _ => True) (fun _ _ => True) s.state t.state ∧
        t.state.book.phase = s.state.book.phase) (fun _ _ => False) := by
  rw [cancelEagerly, ends_bind]
  refine (ends_cancel (g := .empty) (Session.keeps_true _ fun _ => True) hd trivial).imp ?_
  rintro (error | _) t ⟨hkept, hphase⟩
  · exact ⟨hkept, hphase⟩
  · exact ⟨⟨hkept.sound.without, hkept.orders, trivial⟩, hphase⟩

end Desk

/-- A call by which settlement cancels an order. -/
def Call.isCancel : Call → Bool
  | .cancel _ => true
  | _ => false

/-- What is asked of a book from outside, where orders are cancelled by settlement and book
together. -/
inductive Request where
  /-- Any other call. -/
  | call (c : Call) (plain : c.isCancel = false)
  /-- An order is cancelled: settlement closes it, and then the book takes its depth away. -/
  | cancel (r : OrderRef)

/-- The order that a request hands to the book. -/
def Request.handed? : Request → Option OrderRef
  | call c _ => c.handed?
  | cancel _ => none

/-- The orders that requests hand to the book. -/
def requested (requests : List Request) : List OrderRef := requests.filterMap Request.handed?

/-- What a further request hands in comes before the rest. -/
theorem requested_cons (q : Request) (requests : List Request) :
    requested (q :: requests) = q.handed?.toList ++ requested requests := by
  cases h : q.handed? <;> simp [requested, h]

/-- Requests of two lists hand in the orders of both. -/
theorem requested_append (requests requests' : List Request) :
    requested (requests ++ requests') = requested requests ++ requested requests' :=
  List.filterMap_append

namespace Session

/-- Carries out a request. A cancelled order stays in its queue. -/
def serve (s : Session) : Request → Session
  | .call c _ => s.apply c
  | .cancel r => (s.apply (.cancel r)).apply (.withdraw (s.state.order r).side r)

/-- Carries out a request. A cancelled order leaves its queue at once. -/
def serveEagerly (s : Session) : Request → Session
  | .call c _ => s.apply c
  | .cancel r => (s.perform (Desk.cancelEagerly r) fun answer g => g.afterCancel r answer).apply
      (.withdraw (s.state.order r).side r)

variable {os : Orders} {future : List OrderRef} {s s' : Session} {calls : List Call} {r : OrderRef}

/-- A book that removes cancelled orders at once stays upright. -/
theorem upright_cancelEagerly (hup : Upright os calls s) :
    Upright os (calls ++ [.cancel r])
      (s.perform (cancelEagerly r) fun answer g => g.afterCancel r answer) := by
  refine perform_of_ends (R := Upright os _) (ends_cancelEagerly hup.sound) ?_ fun _ _ hf =>
    hf.elim
  refine fun answer t ht => hup.of_kept _ ht.1 (ht.2 ▸ .refl _) (.inl ?_)
  cases answer <;> simp [Register.afterCancel]

/-- Cancelling an order keeps two sessions abreast, though only the second removes it at once. -/
theorem abreast_cancel (h : Abreast os true future s s') (hup : Upright os calls s') :
    Abreast os true future (s.serve (.cancel r)) (s'.serveEagerly (.cancel r)) := by
  have hup' := upright_cancelEagerly (r := r) hup
  have hside : (s.state.order r).side = (s'.state.order r).side := by rw [h.twin.order]
  simp only [serve, serveEagerly, apply]
  -- between the two halves of the cancellation
  obtain ⟨hremoved, hwaiting, hkept, hregister⟩ : _ ∧ _ ∧ _ ∧ _ := perform_of_paired
    (n := fun answer g => g.afterCancel r answer)
    (K := fun t t' => Removed (os.numbers (s.waiting ++ future)) r t.state t'.state ∧
      t'.waiting = s'.waiting ∧ (t'.state.order r).side = (s'.state.order r).side ∧
      t.register.Alike t'.register)
    h.twin.paired_cancelEagerly (ends_cancelEagerly hup.sound)
    (fun answer t t' ht hends => ⟨ht, congrArg Phase.orders hends.2, (hends.1.orders r).side,
      h.register.afterCancel r answer⟩) fun _ _ _ _ hf => hf.elim
  generalize s.perform (onOffice (Office.onOrders (Orders.cancel r))) _ = t at *
  generalize s'.perform (cancelEagerly r) _ = t' at *
  rw [hside, ← hkept, hremoved.order]
  refine perform_of_paired (K := Abreast os true future) hremoved.paired_withdraw
    (Desk.ends_withdraw (keeps_true _ fun _ => True) (g := .empty) hup'.sound trivial trivial)
    ?_ ?_
  · exact fun answer u u' hu hends =>
      h.of_twin hu (hwaiting ▸ hends.2 ▸ .refl _) (hregister.afterWithdraw r answer)
  · exact fun _ u u' hu hends => h.of_twin hu (hwaiting ▸ hends.2 ▸ .refl _) hregister

/-- A request keeps two sessions abreast, though only the second removes cancelled orders at
once. -/
theorem abreast_serve {q : Request} (h : Abreast os true (q.handed?.toList ++ future) s s')
    (hup : Upright os calls s') : Abreast os true future (s.serve q) (s'.serveEagerly q) := by
  cases q with
  | call c plain => exact abreast_apply h hup
  | cancel r => exact abreast_cancel h hup

/-- A book that removes cancelled orders at once stays upright under requests. -/
theorem upright_serveEagerly {q : Request} (hup : Upright os calls s)
    (hfresh : ∀ r, q.handed? = some r → r ∉ handed calls) :
    ∃ calls', handed calls' = handed calls ++ q.handed?.toList ∧
    Upright os calls' (s.serveEagerly q) := by
  have keeps : Keeps (fun _ => True) (fun _ => True) (fun _ _ _ _ => True) fun _ => True :=
    keeps_true _ _
  cases q with
  | call c plain =>
    exact ⟨calls ++ [c], handed_append ..,
      stands_apply keeps hup ⟨fun r hr => ⟨trivial, hfresh r hr⟩, fun _ _ _ => trivial⟩⟩
  | cancel r =>
    refine ⟨_, ?_, stands_apply keeps (upright_cancelEagerly (r := r) hup)
      (c := .withdraw (s.state.order r).side r) ⟨fun _ hr => (nomatch hr), fun _ _ _ => trivial⟩⟩
    rw [handed_append, handed_append, List.append_assoc]
    rfl

/-- Under requests that hand in orders of different numbers, a book that leaves cancelled orders in
their queues until they surface looks like one that removes them at once. -/
theorem lazy_removal_unseen (i : Instrument) (history buffer : Nat) (os : Orders)
    (requests : List Request)
    (hdistinct : ((requested requests).map fun r => (os.get r).id).Nodup) :
    LooksLike (requests.foldl serve (opening i history buffer os))
      (requests.foldl serveEagerly (opening i history buffer os)) := by
  have hrun : ∀ done rest, requests = done ++ rest → ∃ calls, handed calls = requested done ∧
      Upright os calls (done.foldl serveEagerly (opening i history buffer os)) ∧
      Abreast os true (requested rest) (done.foldl serve (opening i history buffer os))
        (done.foldl serveEagerly (opening i history buffer os)) := by
    intro done
    induction done using List.reverseRecOn with
    | nil =>
      rintro rest rfl
      exact ⟨[], rfl, ⟨sound_new .., .refl _, trivial, nofun, .nil, nofun⟩,
        abreast_opening i history buffer os true hdistinct⟩
    | append_singleton done q ih =>
      intro rest hsplit
      rw [List.append_assoc, List.singleton_append] at hsplit
      obtain ⟨calls, hcalls, hup, habreast⟩ := ih _ hsplit
      rw [requested_cons] at habreast
      obtain ⟨calls', hcalls', hup'⟩ := upright_serveEagerly (q := q) hup fun r hr hmem => by
        rw [hsplit, requested_append, requested_cons, hr] at hdistinct
        refine (List.nodup_append.1 hdistinct.of_map).2.2 r (hcalls ▸ hmem) r ?_ rfl
        exact List.mem_cons_self
      rw [List.foldl_append, List.foldl_append]
      refine ⟨calls', ?_, hup', abreast_serve habreast hup⟩
      rw [hcalls', hcalls, requested_append, requested_cons]
      exact (congrArg _ (List.append_nil _)).symm
  obtain ⟨-, -, -, habreast⟩ := hrun requests [] (List.append_nil _).symm
  exact habreast.looksLike

/-- Both asks of `ownCross` are loaded, and the better one is cancelled. -/
def ownCrossCancelled : List Request :=
  [.call (.load .ask ⟨0⟩) rfl, .call (.load .ask ⟨1⟩) rfl, .call .start rfl, .cancel ⟨0⟩]

/-- The cancelled ask heads the asks until the bid comes in, or is removed at once. The bid trades
with the other ask. -/
theorem lazy_removal_unseen_of_ownCross :
    let requests := ownCrossCancelled ++ [.call (.submit .bid ⟨2⟩) rfl]
    ((requested requests).map fun r => (ownCross.get r).id).Nodup ∧
      (ownCrossCancelled.foldl serve ownCrossOpening).state.book.best? .ask = some ⟨0⟩ ∧
      (ownCrossCancelled.foldl serveEagerly ownCrossOpening).state.book.best? .ask = some ⟨1⟩ ∧
      (requests.foldl serve ownCrossOpening).state.trades.length = 1 ∧
      LooksLike (requests.foldl serve ownCrossOpening)
        (requests.foldl serveEagerly ownCrossOpening) := by
  intro requests
  have hdistinct : ((requested requests).map fun r => (ownCross.get r).id).Nodup := by decide
  exact ⟨hdistinct, by decide +kernel, by decide +kernel, by decide +kernel,
    lazy_removal_unseen _ _ _ _ requests hdistinct⟩

end Session

end Bourse
