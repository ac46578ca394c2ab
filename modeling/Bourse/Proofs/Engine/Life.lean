import Bourse.Proofs.Engine.Basic
import Bourse.Proofs.Settlement.Settling
import Mathlib.Data.List.Induction

/-!
# The life of orders in an engine

`Order.Ages` says what happens to an order from one state to a later one: it keeps its terms, is
closed only when it is filled or for a reason, and is filled no more after that. `Office.Ages` says
so of all orders, where the reasons are that it was cancelled or that its user cannot settle, and
that what is traded is traded between orders that are not closed yet and whose users can settle.

Everything that an engine does ages its office (`Simulated.rules_ages`), and so does a whole run
(`Exchange.ages_run`). This makes the life cycle of an order between any two states of a run
(`Exchange.orders_live`).
-/

namespace Bourse

open Bourse.Action

/-! ## Orders -/

namespace Order

variable {o o' o'' : Order} {q : Quantity} {reason reason' : Prop}

/-- The second state of an order comes after the first, and if it was closed in between then it was
filled or for a reason. -/
structure Ages (o o' : Order) (reason : Prop) : Prop where
  follows : o.Follows o'
  fulfilled : o.closed = true → o'.fulfilled = o.fulfilled
  closes : o.closed = false → o'.closed = true → o'.fulfilled = o'.quantity ∨ reason

namespace Ages

theorem refl (o : Order) : Ages o o reason :=
  ⟨.refl o, fun _ => rfl, fun hc hc' => absurd (hc.symm.trans hc') nofun⟩

theorem trans (h : Ages o o' reason) (h' : Ages o' o'' reason) : Ages o o'' reason where
  follows := h.follows.trans h'.follows
  fulfilled hc := (h'.fulfilled (h.follows.closed hc)).trans (h.fulfilled hc)
  closes hc hc'' := by
    cases hc' : o'.closed with
    | false => exact h'.closes hc' hc''
    | true =>
      refine (h.closes hc hc').imp_left fun hfull => ?_
      rw [h'.fulfilled hc', hfull, h'.follows.quantity]

theorem mono (h : Ages o o' reason) (hr : reason → reason') : Ages o o' reason' :=
  { h with closes := fun hc hc' => (h.closes hc hc').imp_right hr }

end Ages

/-- An order may be closed for a reason. -/
theorem ages_close (h : reason) : Ages o o.close reason :=
  ⟨follows_close, fun _ => rfl, fun _ _ => .inr h⟩

/-- A stop-loss may be activated without one. -/
theorem ages_activateStopLoss : Ages o o.activateStopLoss.2 reason := by
  have hsame : o.activateStopLoss.2.closed = o.closed ∧
      o.activateStopLoss.2.fulfilled = o.fulfilled := by
    unfold activateStopLoss
    split <;> exact ⟨rfl, rfl⟩
  exact ⟨follows_activateStopLoss, fun _ => hsame.2,
    fun hc hc' => absurd (hc.symm.trans (hsame.1.symm.trans hc')) nofun⟩

/-- If the order is closed then nothing is left of it. -/
def ClosedFull (o : Order) : Prop := o.closed = true → o.fulfilled = o.quantity

/-- What a fill adds to an order of which nothing is left. -/
theorem fulfilled_filled_of_full (hq : q.toNat ≤ o.unfulfilled.toNat)
    (h : o.fulfilled = o.quantity) : (o.filled q).fulfilled = o.fulfilled := by
  have hzero : q.toNat = 0 := by
    rw [toNat_unfulfilled, h] at hq
    omega
  rw [← Quantity.toNat_inj, toNat_fulfilled_filled hq, hzero, Nat.add_zero]

/-- A fill closes an order only if it leaves nothing of it. -/
theorem closedFull_filled (hq : q.toNat ≤ o.unfulfilled.toNat) (h : o.ClosedFull) :
    (o.filled q).ClosedFull := by
  intro hc
  rw [closed_filled, Bool.or_eq_true] at hc
  rcases hc with hc | hc
  · exact (fulfilled_filled_of_full hq (h hc)).trans (h hc)
  · exact beq_iff_eq.1 hc

/-- An order may be filled with what it has left at most. -/
theorem ages_filled (hq : q.toNat ≤ o.unfulfilled.toNat) (h : o.ClosedFull) :
    Ages o (o.filled q) reason where
  follows := follows_filled hq
  fulfilled hc := fulfilled_filled_of_full hq (h hc)
  closes _ hc' := .inl (closedFull_filled hq h hc')

end Order

namespace Orders

variable {os : Orders} {r r' : OrderRef} {q : Quantity}

/-- A change of one order leaves the others. -/
theorem ages_modify (f : Order → Order) (reason : OrderRef → Prop)
    (h : (os.get r).Ages (f (os.get r)) (reason r)) (r' : OrderRef) :
    (os.get r').Ages ((os.modify r f).get r') (reason r') := by
  rw [get_modify]
  split
  · next heq => exact heq ▸ h
  · exact .refl _

/-- Filling an order leaves none that is full open. -/
theorem closedFull_filled (hq : q.toNat ≤ (os.get r).unfulfilled.toNat)
    (h : (os.get r').ClosedFull) : ((os.modify r (·.filled q)).get r').ClosedFull := by
  rw [get_modify]
  split
  · next heq =>
    subst heq
    exact Order.closedFull_filled hq h
  · exact h

end Orders

/-! ## Offices -/

namespace Office

variable {o o' o'' : Office Simulated} {r : OrderRef} {cancels cancels' : OrderRef → Prop}
  {rejects rejects' : UserId → Prop}

/-- The order is not closed, and its user can settle. -/
structure Free (o : Office Simulated) (r : OrderRef) : Prop where
  closed : (o.orders.get r).closed = false
  refuses : o.refuses r = false

/-- The trade is one of two free orders. -/
def Frees (o : Office Simulated) (t : Trade) : Prop :=
  ∃ ask bid, o.Free ask ∧ o.Free bid ∧ t.askId = (o.orders.get ask).id ∧
    t.bidId = (o.orders.get bid).id

/-- The second state of an office comes after the first. In between some orders were cancelled and
some users flagged as unable to settle. -/
structure Ages (cancels : OrderRef → Prop) (rejects : UserId → Prop) (o o' : Office Simulated) :
    Prop where
  orders : ∀ r, (o.orders.get r).Ages (o'.orders.get r)
    (cancels r ∨ o'.backend.isRejected (o.orders.get r).user = true)
  rejected : ∀ u, o.backend.isRejected u = true → o'.backend.isRejected u = true
  rejects : ∀ u, o'.backend.isRejected u = true → o.backend.isRejected u = true ∨ rejects u
  trades : ∃ new, o'.backend.trades.toList = o.backend.trades.toList ++ new ∧ ∀ t ∈ new, o.Frees t

namespace Ages

/-- Orders that come after others were filled and closed at most. -/
theorem follow (h : Ages cancels rejects o o') : o.orders.Follow o'.orders := fun r =>
  (h.orders r).follows

/-- An order that is refused once is refused from then on. -/
theorem refuses (h : Ages cancels rejects o o') (hr : o.refuses r = true) :
    o'.refuses r = true := by
  unfold Office.refuses at *
  rw [(h.follow r).user]
  exact h.rejected _ hr

/-- What is free was free before. -/
theorem free (h : Ages cancels rejects o o') (hr : o'.Free r) : o.Free r := by
  refine ⟨(h.follow r).not_closed hr.closed, ?_⟩
  cases hrefuses : o.refuses r
  · rfl
  · exact (h.refuses hrefuses).symm.trans hr.refuses

/-- A trade that may be made later might have been made before. -/
theorem frees (h : Ages cancels rejects o o') {t : Trade} (ht : o'.Frees t) : o.Frees t := by
  obtain ⟨ask, bid, hask, hbid, ha, hb⟩ := ht
  exact ⟨ask, bid, h.free hask, h.free hbid, ha.trans (h.follow ask).id,
    hb.trans (h.follow bid).id⟩

theorem trans (h : Ages cancels rejects o o') (h' : Ages cancels rejects o' o'') :
    Ages cancels rejects o o'' where
  orders r := by
    refine ((h.orders r).mono (.imp_right (h'.rejected _))).trans ((h'.orders r).mono ?_)
    rw [(h.follow r).user]
    exact id
  rejected u hu := h'.rejected u (h.rejected u hu)
  rejects u hu := (h'.rejects u hu).elim (h.rejects u) .inr
  trades := by
    obtain ⟨new, hnew, hfrees⟩ := h.trades
    obtain ⟨new', hnew', hfrees'⟩ := h'.trades
    refine ⟨new ++ new', by rw [hnew', hnew, List.append_assoc], ?_⟩
    intro t ht
    exact (List.mem_append.1 ht).elim (hfrees t) fun ht => h.frees (hfrees' t ht)

theorem mono (h : Ages cancels rejects o o') (hcancels : ∀ r, cancels r → cancels' r)
    (hrejects : ∀ u, rejects u → rejects' u) : Ages cancels' rejects' o o' :=
  { h with
    orders := fun r => (h.orders r).mono (.imp_left (hcancels r))
    rejects := fun u hu => (h.rejects u hu).imp_right (hrejects u) }

/-- Only orders changed. -/
theorem of_orders (hr : o'.backend.rejected = o.backend.rejected)
    (ht : o'.backend.trades = o.backend.trades) (ho : ∀ r, (o.orders.get r).Ages (o'.orders.get r)
      (cancels r ∨ o.backend.isRejected (o.orders.get r).user = true)) :
    Ages cancels rejects o o' := by
  have hsame : ∀ u, o'.backend.isRejected u = o.backend.isRejected u := fun u => by
    rw [Simulated.isRejected, Simulated.isRejected, hr]
  refine ⟨fun r => ?_, fun u => ?_, fun u => ?_, [], by rw [ht, List.append_nil], nofun⟩
  · rw [hsame]
    exact ho r
  · rw [hsame]
    exact id
  · rw [hsame]
    exact .inl

theorem refl (o : Office Simulated) : Ages cancels rejects o o :=
  .of_orders rfl rfl fun _ => .refl _

end Ages

end Office

/-! ## Settlement -/

namespace Simulated

open Office

variable {cancels : OrderRef → Prop} {rejects : UserId → Prop} {ask bid : OrderRef} {price : Price}
  {o o' : Office Simulated} {answer : Option FillOutcome}

/-- Closing an order because its user cannot settle. -/
theorem ages_closeRefused (os : Orders) (r r' : OrderRef) :
    (os.get r').Ages ((o.closeRefused os r).get r') (o.refuses r' = true) := by
  unfold closeRefused
  split
  · next hrefuses =>
    exact Orders.ages_modify Order.close (o.refuses · = true) (Order.ages_close hrefuses) r'
  · exact .refl _

/-- Filling both orders of a pair that is not closed. -/
theorem ages_filled {os : Orders} {q : Quantity} {reason : OrderRef → Prop}
    (ha : (os.get ask).closed = false) (hb : (os.get bid).closed = false)
    (hqa : q.toNat ≤ (os.get ask).unfulfilled.toNat)
    (hqb : q.toNat ≤ ((os.modify ask (·.filled q)).get bid).unfulfilled.toNat) (r : OrderRef) :
    (os.get r).Ages (((os.modify ask (·.filled q)).modify bid (·.filled q)).get r) (reason r) := by
  have hfull : ∀ {r}, (os.get r).closed = false → (os.get r).ClosedFull :=
    fun hc hc' => absurd (hc.symm.trans hc') nofun
  refine (Orders.ages_modify (·.filled q) reason (Order.ages_filled hqa (hfull ha)) r).trans
    (Orders.ages_modify (·.filled q) reason (Order.ages_filled hqb ?_) r)
  exact Orders.closedFull_filled hqa (hfull hb)

/-- A call to settle ages the office. -/
theorem Settling.ages (h : Settling ask bid price o answer o') : Ages cancels rejects o o' := by
  cases h with
  | gone => exact .refl o
  | refused =>
    exact .of_orders rfl rfl fun r =>
      ((ages_closeRefused o.orders ask r).trans (ages_closeRefused _ bid r)).mono .inr
  | @traded q out os t ha hb hra hrb hqa hqb orders _ _ _ hask hbid _ =>
    refine ⟨?_, fun _ hu => hu, fun _ hu => .inl hu, [t], Array.toList_push .., ?_⟩
    · exact orders ▸ ages_filled ha hb hqa hqb
    · intro u hu
      cases List.mem_singleton.1 hu
      exact ⟨ask, bid, ⟨ha, hra⟩, ⟨hb, hrb⟩, hask, hbid⟩
  | @overfilled q ha hqa =>
    refine .of_orders rfl rfl (Orders.ages_modify _ _ (Order.ages_filled hqa ?_))
    exact fun hc => absurd (ha.symm.trans hc) nofun

/-- Everything that a book does ages the office. -/
theorem rules_ages : Exchange.Rules settlement (Ages cancels rejects) where
  refl := .refl
  trans := Ages.trans
  book :=
    { refl := fun d => .refl d.office
      trans := fun h h' => h.trans h'
      queue := fun d _ _ => .refl d.office
      dormant := fun d _ _ => .refl d.office
      ledger := fun d _ => .refl d.office
      phase := fun d _ => .refl d.office
      activate := fun _ _ =>
      .of_orders rfl rfl (Orders.ages_modify _ _ Order.ages_activateStopLoss)
      note := fun hl => hl.of_ends (P := fun _ o' => Ages cancels rejects _ o') fun _ =>
        ends_noteStopLoss.mono (fun _ _ ht => ht ▸ .of_orders rfl rfl fun _ => .refl _)
          fun _ _ hf => hf.elim
      fill := fun hl => (Settling.of_leads hl).ages
      breakOff := fun hl => (Settling.of_leads hl).ages }

end Simulated

/-! ## Runs -/

namespace Exchange

open Office

variable {x : Logged (Exchange Simulated)} {r : OrderRef} {u : UserId}

/-- Settlement cancels the order in one of the operations, and it was not closed before. -/
def Cancelled (x : Logged (Exchange Simulated)) (operations : List Operation)
    (r : OrderRef) : Prop :=
  ∃ done rest, operations = done ++ .cancel r :: rest ∧ ((run x done).state.order r).closed = false

/-- A cancellation by settlement closes the order, unless it was closed already. -/
theorem ends_cancel (x : Logged (Exchange Simulated)) (r : OrderRef) :
    Ends (onOffice (Office.onOrders (Orders.cancel r))) x
      (fun _ y => y.state.office = x.state.office ∧ (x.state.order r).closed = true ∨
        y.state.office =
          { x.state.office with orders := x.state.office.orders.modify r Order.close } ∧
          (x.state.order r).closed = false)
      (fun _ _ => False) := by
  simp only [onOffice, Office.onOrders, ends_within, Orders.cancel, ends_bind, ends_current]
  split
  · next hc => exact .inl ⟨rfl, hc⟩
  · next hc => exact .inr ⟨rfl, Bool.eq_false_iff.2 hc⟩

/-- A cancellation closes the order, unless it is closed already. -/
theorem office_cancel (x : Logged (Exchange Simulated)) (r : OrderRef) :
    (apply x (.cancel r)).state.office = x.state.office ∧ (x.state.order r).closed = true ∨
      (apply x (.cancel r)).state.office =
          { x.state.office with orders := x.state.office.orders.modify r Order.close } ∧
        (x.state.order r).closed = false :=
  perform_of_ends (P := fun y => y.state.office = x.state.office ∧
    (x.state.order r).closed = true ∨
    y.state.office = { x.state.office with orders := x.state.office.orders.modify r Order.close } ∧
      (x.state.order r).closed = false) ((ends_cancel x r).mono
      (fun _ _ h => h) fun _ _ hf => hf.elim)

/-- A flag is put on one user. -/
theorem isRejected_reject {v : UserId} :
    (apply x (.reject u)).state.office.backend.isRejected v = true ↔
    x.state.office.backend.isRejected v = true ∨ v = u := by
  show (x.state.office.backend.reject u).isRejected v = true ↔ _
  unfold Simulated.isRejected Simulated.reject
  rw [List.contains_cons, Bool.or_eq_true, beq_iff_eq, or_comm]

/-- Every operation ages the office. -/
theorem ages_apply {cancels : OrderRef → Prop} {rejects : UserId → Prop} (c : Operation)
    (hcancels : ∀ r, c = .cancel r → (x.state.order r).closed = false → cancels r)
    (hrejects : ∀ u, c = .reject u → rejects u) :
    Ages cancels rejects x.state.office (apply x c).state.office := by
  have hengine : ∀ {α : Type} {act : Action (Exchange Simulated) α},
      Respects (Ages cancels rejects) act →
        Ages cancels rejects x.state.office (perform act x).state.office := fun h =>
    perform_of_ends (P := fun y => Ages cancels rejects x.state.office y.state.office) (h x)
  cases c with
  | bootstrap source history => exact hengine (Simulated.rules_ages.bootstrap source history)
  | submit side r => exact hengine (Simulated.rules_ages.submit side r)
  | withdraw side r => exact hengine (Simulated.rules_ages.withdraw side r)
  | cancel r =>
    rcases office_cancel x r with ⟨heq, -⟩ | ⟨heq, hc⟩ <;> rw [heq]
    · exact .refl _
    · exact .of_orders rfl rfl
        (Orders.ages_modify Order.close _ (Order.ages_close (.inl (hcancels r rfl hc))))
  | reject u =>
    refine ⟨fun r => .refl _, fun v hv => isRejected_reject.2 (.inl hv), fun v hv => ?_,
      [], (List.append_nil _).symm, nofun⟩
    exact (isRejected_reject.1 hv).imp_right fun heq => hrejects v (by rw [heq])
  | tick now => exact .of_orders rfl rfl fun _ => .refl _
  | flush => exact hengine Simulated.rules_ages.flush
  | shutdown => exact hengine Simulated.rules_ages.shutdown

/-- Every run ages the office, by the cancellations and the users flagged in its course. -/
theorem ages_run (x : Logged (Exchange Simulated)) (operations : List Operation) :
    Ages (Cancelled x operations) (.reject · ∈ operations) x.state.office
      (run x operations).state.office := by
  induction operations using List.reverseRecOn with
  | nil => exact .refl _
  | append_singleton operations c ih =>
    rw [run_append]
    refine (ih.mono ?_ fun u hu => List.mem_append_left _ hu).trans
      (ages_apply (x := run x operations) c ?_ ?_)
    · rintro r ⟨done, rest, rfl, hc⟩
      exact ⟨done, rest ++ [c], by rw [List.append_assoc, List.cons_append], hc⟩
    · rintro r rfl hc
      exact ⟨operations, [], rfl, hc⟩
    · rintro u rfl
      exact List.mem_append_right _ List.mem_cons_self

/-- No other order of the table has the number of this one. -/
def Named (os : Orders) (r : OrderRef) : Prop :=
  ∀ r', r'.row < os.rows.size → (os.get r').id = (os.get r).id → r' = r

/-- An order that trades, and has its number alone, is not closed and of a user that can settle. -/
theorem free_of_named {os : Orders} {o : Office Simulated} {t : Trade} (hos : os.Follow o.orders)
    (hr : Named os r) (ht : o.Frees t) (hid : t.askId = (os.get r).id ∨ t.bidId = (os.get r).id) :
    o.Free r := by
  have hrow : ∀ {r'}, o.Free r' → r'.row < os.rows.size := by
    intro r' hfree
    by_contra hge
    have hblank : os.get r' = Order.blank := by
      unfold Orders.get
      rw [Array.getElem?_eq_none (Nat.not_lt.1 hge), Option.getD_none]
    have hclosed := (hos r').not_closed hfree.closed
    rw [hblank] at hclosed
    cases hclosed
  obtain ⟨ask, bid, hask, hbid, ha, hb⟩ := ht
  rcases hid with hid | hid
  · exact hr ask (hrow hask) ((hos ask).id.symm.trans (ha.symm.trans hid)) ▸ hask
  · exact hr bid (hrow hbid) ((hos bid).id.symm.trans (hb.symm.trans hid)) ▸ hbid

/-- The life cycle of orders between two states of a run: after the first operations, and after the
later ones. -/
structure LifeCycle (os : Orders) (x : Logged (Exchange Simulated))
    (first later : List Operation) : Prop where
  /-- An order keeps its terms, its fill does not go back, it is not opened again, and it changes
  its type only from a dormant stop-loss to an active one. -/
  follows : ∀ r, ((run x first).state.order r).Follows ((run x (first ++ later)).state.order r)
  /-- What was filled of a closed order is final. -/
  final : ∀ r, ((run x first).state.order r).closed = true →
    ((run x (first ++ later)).state.order r).fulfilled = ((run x first).state.order r).fulfilled
  /-- An order is closed because it is filled, or was cancelled, or because its user was
  flagged. -/
  closes : ∀ r, ((run x first).state.order r).closed = false →
    ((run x (first ++ later)).state.order r).closed = true →
      ((run x (first ++ later)).state.order r).fulfilled =
        ((run x (first ++ later)).state.order r).quantity ∨
      Cancelled (run x first) later r ∨ .reject (os.get r).user ∈ first ++ later
  /-- The trades made later name no order that was closed before, or cancelled, or whose user was
  flagged. -/
  trades : ∃ new, (run x (first ++ later)).state.office.backend.trades.toList =
      (run x first).state.office.backend.trades.toList ++ new ∧
    ∀ r, Named os r → ((run x first).state.order r).closed = true ∨ .cancel r ∈ first ∨
        .reject (os.get r).user ∈ first →
      ∀ t ∈ new, t.askId ≠ (os.get r).id ∧ t.bidId ≠ (os.get r).id

/-- A cancelled order is closed. -/
theorem closed_of_cancel {operations : List Operation} (h : .cancel r ∈ operations) :
    ((run x operations).state.order r).closed = true := by
  obtain ⟨done, rest, rfl⟩ := List.append_of_mem h
  rw [run_append]
  refine ((ages_run (apply (run x done) (.cancel r)) rest).follow r).closed ?_
  rcases office_cancel (run x done) r with ⟨heq, hc⟩ | ⟨heq, -⟩ <;> rw [heq]
  · exact hc
  · show (((run x done).state.office.orders.modify r Order.close).get r).closed = true
    rw [Orders.get_modify, if_pos rfl]
    rfl

/-- A flagged user stays so. -/
theorem isRejected_of_reject {operations : List Operation} (h : .reject u ∈ operations) :
    (run x operations).state.office.backend.isRejected u = true := by
  obtain ⟨done, rest, rfl⟩ := List.append_of_mem h
  rw [run_append]
  exact (ages_run (apply (run x done) (.reject u)) rest).rejected u
    (isRejected_reject.2 (.inr rfl))

/-- In every run of an engine, whatever is done, the orders keep to their life cycle between any
two of its states. -/
theorem orders_live (config : EngineConfig) (os : Orders) (first later : List Operation) :
    LifeCycle os (opening config os) first later := by
  have hfirst := ages_run (opening config os) first
  have hlater := ages_run (run (opening config os) first) later
  have huser : ∀ r, ((run (opening config os) first).state.order r).user = (os.get r).user :=
    fun r => (hfirst.follow r).user
  rw [← run_append] at hlater
  refine ⟨hlater.follow, fun r => (hlater.orders r).fulfilled, fun r hc hc' => ?_, ?_⟩
  · refine ((hlater.orders r).closes hc hc').imp_right (.imp_right fun hu => ?_)
    rw [show ((run (opening config os) first).state.office.orders.get r).user =
      _ from huser r] at hu
    refine List.mem_append.2 ((hlater.rejects _ hu).imp_left fun hu => ?_)
    exact (hfirst.rejects _ hu).resolve_left nofun
  · obtain ⟨new, hnew, hfrees⟩ := hlater.trades
    refine ⟨new, hnew, fun r hr hgone t ht => ?_⟩
    have hnot : ¬ (t.askId = (os.get r).id ∨ t.bidId = (os.get r).id) := by
      intro hid
      have hfree := free_of_named hfirst.follow hr (hfrees t ht) hid
      rcases hgone with hc | hcancel | hreject
      · exact Bool.false_ne_true (hfree.closed.symm.trans hc)
      · exact Bool.false_ne_true (hfree.closed.symm.trans (closed_of_cancel hcancel))
      · have hrefuses := hfree.refuses
        unfold Office.refuses at hrefuses
        rw [show ((run (opening config os) first).state.office.orders.get r).user = _ from huser r,
          isRejected_of_reject hreject] at hrefuses
        cases hrefuses
    exact not_or.1 hnot

end Exchange

end Bourse
