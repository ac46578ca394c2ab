import Bourse.Proofs.Session.Invariant

/-!
# Conservation of shares

Every share an order is filled by is a share of a recorded trade that names it, and the other way
round (`Fair`). This is kept by a settlement of an open pair, the only step that fills orders, and
by everything else a session does, also by calls that break off. So the trades account for all
fills of a session (`shares_conserved`), and what the asks were filled by is what the bids were.
-/

namespace Bourse

open Bourse.Action

/-- The order of a side that a trade names. -/
def Trade.named (t : Trade) : Side → OrderId
  | .ask => t.askId
  | .bid => t.bidId

/-- The shares of the trades that name an order on its side. -/
def filledBy (trades : List Trade) (o : Order) : Nat :=
  ((trades.filter fun t => t.named o.side = o.id).map (·.quantity.toNat)).sum

/-- A further trade fills the orders that it names. -/
theorem filledBy_append (trades : List Trade) (t : Trade) (o : Order) :
    filledBy (trades ++ [t]) o =
      filledBy trades o + if t.named o.side = o.id then t.quantity.toNat else 0 := by
  unfold filledBy
  rw [List.filter_append, List.map_append, List.sum_append]
  by_cases h : t.named o.side = o.id <;> simp [h]

/-- A sum to which only one order contributes. -/
theorem sum_map_eq_of_single {rs : List OrderRef} {key : OrderRef → OrderId} {f : OrderRef → Nat}
    (hkeys : (rs.map key).Nodup) {r : OrderRef} (hr : r ∈ rs)
    (hzero : ∀ r' ∈ rs, key r' ≠ key r → f r' = 0) : (rs.map f).sum = f r := by
  induction rs with
  | nil => cases hr
  | cons a rest ih =>
    rw [List.map_cons, List.nodup_cons] at hkeys
    rw [List.map_cons, List.sum_cons]
    rcases List.mem_cons.1 hr with rfl | hr
    · have hrest : (rest.map f).sum = 0 := List.sum_eq_zero fun n hn => by
        obtain ⟨r', hr', rfl⟩ := List.mem_map.1 hn
        exact hzero r' (.tail _ hr') fun heq => hkeys.1 (heq ▸ List.mem_map_of_mem hr')
      rw [hrest, Nat.add_zero]
    · have ha : f a = 0 := hzero a (.head _) fun heq =>
        hkeys.1 (heq ▸ List.mem_map_of_mem hr)
      rw [ha, Nat.zero_add, ih hkeys.2 hr fun r' hr' => hzero r' (.tail _ hr')]

/-- If each trade names one of the orders then the shares these were filled by are the shares of
the trades. -/
theorem sum_filledBy {os : Orders} {side : Side} {rs : List OrderRef}
    (hids : (rs.map fun r => (os.get r).id).Nodup) (hside : ∀ r ∈ rs, (os.get r).side = side)
    (trades : List Trade) (hnamed : ∀ t ∈ trades, ∃ r ∈ rs, (os.get r).id = t.named side) :
    (rs.map fun r => filledBy trades (os.get r)).sum = (trades.map (·.quantity.toNat)).sum := by
  induction trades using List.reverseRecOn with
  | nil => simp [filledBy]
  | append_singleton trades t ih =>
    have hone : (rs.map fun r => if t.named (os.get r).side = (os.get r).id
        then t.quantity.toNat else 0).sum = t.quantity.toNat := by
      obtain ⟨r, hr, hid⟩ := hnamed t (by simp)
      rw [sum_map_eq_of_single hids hr fun r' hr' hne => ?_, hside r hr, if_pos hid.symm]
      rw [hside r' hr', if_neg fun heq => hne (heq.symm.trans hid.symm)]
    simp only [filledBy_append, List.sum_map_add, List.map_append, List.sum_append]
    rw [hone, ih fun t' ht' => hnamed t' (List.mem_append_left _ ht')]
    simp

/-- Different known orders have different numbers. -/
def Distinct (known : OrderRef → Prop) (os : Orders) : Prop :=
  ∀ r r', known r → known r' → (os.get r).id = (os.get r').id → r = r'

/-- The trades account for all fills of the known orders since `os`. -/
structure Fair (known : OrderRef → Prop) (os : Orders) (o : Office Simulated) : Prop where
  orders : os.Follow o.orders
  fulfilled : ∀ r, known r → (o.orders.get r).fulfilled.toNat =
    (os.get r).fulfilled.toNat + filledBy o.backend.trades.toList (os.get r)
  bounded : ∀ r, known r → (o.orders.get r).fulfilled.toNat ≤ (os.get r).quantity.toNat
  trades : ∀ t ∈ o.backend.trades.toList, 0 < t.quantity.toNat ∧
    ∀ side, ∃ r, known r ∧ (os.get r).side = side ∧ (os.get r).id = t.named side

namespace Fair

variable {known : OrderRef → Prop} {os : Orders} {o : Office Simulated} {ask bid : OrderRef}

/-- A change of the table that fills no order, and no trade, keep the account. -/
theorem of_fulfilled (h : Fair known os o) {o' : Office Simulated} (hf : o.orders.Follow o'.orders)
    (hfilled : ∀ r, (o'.orders.get r).fulfilled = (o.orders.get r).fulfilled)
    (htrades : o'.backend.trades = o.backend.trades) : Fair known os o' where
  orders := h.orders.trans hf
  fulfilled r hr := by rw [hfilled, htrades]; exact h.fulfilled r hr
  bounded r hr := by rw [hfilled]; exact h.bounded r hr
  trades t ht := h.trades t (htrades ▸ ht)

/-- A deal names the two orders of the pair. -/
theorem ids_of_deal? (h : Fair known os o) {price : Price} {t : Trade}
    (ht : o.deal? ask bid price = some t) :
    t.askId = (os.get ask).id ∧ t.bidId = (os.get bid).id := by
  obtain ⟨-, -, rfl⟩ := Office.deal?_eq_some ht
  exact ⟨(h.orders ask).id, (h.orders bid).id⟩

/-- Of the known orders a trade names the two of its pair. -/
theorem named_iff (h : Fair known os o) (hdist : Distinct known os) (hask : known ask)
    (hbid : known bid) (hsa : (o.orders.get ask).side = .ask)
    (hsb : (o.orders.get bid).side = .bid) {price : Price} {t : Trade}
    (ht : o.deal? ask bid price = some t) {r : OrderRef} (hr : known r) :
    t.named (os.get r).side = (os.get r).id ↔ r = ask ∨ r = bid := by
  obtain ⟨hasks, hbids⟩ := h.ids_of_deal? ht
  have hside := (h.orders ask).side.symm.trans hsa
  have hside' := (h.orders bid).side.symm.trans hsb
  constructor
  · intro hn
    cases hs : (os.get r).side
    · rw [hs] at hn
      exact .inl (hdist r ask hr hask (hn.symm.trans hasks))
    · rw [hs] at hn
      exact .inr (hdist r bid hr hbid (hn.symm.trans hbids))
  · rintro (rfl | rfl)
    · rw [hside]
      exact hasks
    · rw [hside']
      exact hbids

/-- A trade fills the two orders it names, and no other. -/
theorem trade (h : Fair known os o) (hdist : Distinct known os) (hask : known ask)
    (hbid : known bid) (hsa : (o.orders.get ask).side = .ask)
    (hsb : (o.orders.get bid).side = .bid) (ha : (o.orders.get ask).isOpen = true)
    (hb : (o.orders.get bid).isOpen = true) {price : Price} {t : Trade}
    (ht : o.deal? ask bid price = some t) : Fair known os (o.dealt ask bid price) := by
  have hne := Orders.ne_of_side hsa hsb
  have hfilled := Office.fulfilled_dealt hne ht
  obtain ⟨hasks, hbids⟩ := h.ids_of_deal? ht
  refine ⟨h.orders.trans (Office.follow_dealt hne), ?_, ?_, ?_⟩
  · intro r hr
    have hnamed := h.named_iff hdist hask hbid hsa hsb ht hr
    rw [hfilled, h.fulfilled r hr, Office.trades_dealt, ht, Option.toList_some, filledBy_append,
      if_congr hnamed rfl rfl, Nat.add_assoc]
  · intro r hr
    have hold := h.bounded r hr
    rw [hfilled]
    split
    · next hmem =>
      have hfit := Office.quantity_le_unfulfilled ht hmem
      rw [Order.toNat_unfulfilled, (h.orders r).quantity] at hfit
      omega
    · exact hold
  · intro t' ht'
    rw [Office.trades_dealt, ht, Option.toList_some, List.mem_append, List.mem_singleton] at ht'
    rcases ht' with ht' | rfl
    · exact h.trades t' ht'
    · refine ⟨Office.quantity_pos ht ha hb, ?_⟩
      intro side
      cases side
      · exact ⟨ask, hask, (h.orders ask).side.symm.trans hsa, hasks.symm⟩
      · exact ⟨bid, hbid, (h.orders bid).side.symm.trans hsb, hbids.symm⟩

/-- Settling an open pair keeps the account. -/
theorem dealt (h : Fair known os o) (hdist : Distinct known os) (hask : known ask)
    (hbid : known bid) (hsa : (o.orders.get ask).side = .ask)
    (hsb : (o.orders.get bid).side = .bid) (ha : (o.orders.get ask).isOpen = true)
    (hb : (o.orders.get bid).isOpen = true) {price : Price} :
    Fair known os (o.dealt ask bid price) := by
  cases ht : o.deal? ask bid price with
  | some t => exact h.trade hdist hask hbid hsa hsb ha hb ht
  | none =>
    refine h.of_fulfilled (Office.follow_dealt (Orders.ne_of_side hsa hsb)) ?_ ?_
    · intro r
      rw [Office.get_dealt_none ht]
      split <;> rfl
    · rw [Office.dealt_of_none ht]

/-- The trades account for all fills still when a stop-loss is activated. -/
theorem activated (h : Fair known os o) (r : OrderRef) : Fair known os (o.activated r) := by
  refine h.of_fulfilled (Orders.follow_modify Order.follows_activateStopLoss) ?_ rfl
  intro r'
  show ((o.orders.modify r _).get r').fulfilled = _
  rw [Orders.get_modify]
  split
  · next heq =>
    subst heq
    unfold Order.activateStopLoss
    split <;> rfl
  · rfl

/-- The trades account for all fills still when an order is cancelled. -/
theorem cancelled (h : Fair known os o) (r : OrderRef) :
    Fair known os { o with orders := o.orders.set r (o.orders.get r).close } := by
  refine h.of_fulfilled (Orders.follow_modify Order.follows_close) ?_ rfl
  intro r'
  show ((o.orders.modify r Order.close).get r').fulfilled = _
  rw [Orders.get_modify]
  split
  · next heq => subst heq; rfl
  · rfl

end Fair

/-- A session keeps the account of its trades, whatever breaks off. -/
theorem keeps_fair {known : OrderRef → Prop} {os : Orders} (hdist : Distinct known os) :
    Keeps known (fun _ => True) (fun _ _ o _ => Fair known os o) (Fair known os) where
  upkeep _ := {
    drop _ _ _ _ _ _ _ h :=
      Ledger.breaks_withdraw.mono (fun _ _ _ => h) fun _ _ hf => ⟨hf, h⟩
    settle _ _ _ _ _ _ _ hask hbid hsa hsb ha hb _ _ h :=
      Ledger.breaks_settlePair.mono (fun _ _ _ => h.dealt hdist hask hbid hsa hsb ha hb)
        fun _ _ hf => ⟨hf, h.dealt hdist hask hbid hsa hsb ha hb⟩
    fires _ := ⟨fun r _ _ _ h => h.activated r,
      fun _ _ _ _ h => h.of_fulfilled (.refl _) (fun _ => rfl) rfl⟩
    rest _ _ _ _ _ _ h := Ledger.breaks_add.mono (fun _ _ _ => h) fun _ _ hf => ⟨hf, h⟩
    finish _ _ _ _ _ h := h }
  accept _ _ _ _ _ _ _ h := h
  pass _ _ _ _ _ _ _ h := h
  replay _ _ _ _ _ h := Ledger.breaks_recordTrade.mono (fun _ _ _ => h) fun _ _ _ => h
  withdraw _ _ _ _ _ _ h := Ledger.breaks_withdraw.mono (fun _ _ _ => h) fun _ _ _ => h
  cancel _ r _ _ _ h := h.cancelled r
  backend _ _ _ _ hb h := h.of_fulfilled (.refl _) (fun _ => rfl) hb
  broken _ _ _ h := h

namespace Session

/-- The orders of a side that calls hand to the book. -/
def handedOn (os : Orders) (calls : List Call) (side : Side) : List OrderRef :=
  (handed calls).filter fun r => (os.get r).side = side

/-- What a session has filled the orders of a side by. -/
def filledOn (os : Orders) (calls : List Call) (o : Office Simulated) (side : Side) : Nat :=
  ((handedOn os calls side).map fun r =>
    (o.orders.get r).fulfilled.toNat - (os.get r).fulfilled.toNat).sum

/-- If the trades account for all fills then each side was filled with as much as was traded. -/
theorem filledOn_eq_of_fair {os : Orders} {calls : List Call} {o : Office Simulated}
    (hids : ((handed calls).map fun r => (os.get r).id).Nodup)
    (h : Fair (· ∈ handed calls) os o) (side : Side) :
    filledOn os calls o side = (o.backend.trades.toList.map (·.quantity.toNat)).sum := by
  have hfilled : ∀ r ∈ handedOn os calls side,
      (o.orders.get r).fulfilled.toNat - (os.get r).fulfilled.toNat =
        filledBy o.backend.trades.toList (os.get r) := by
    intro r hr
    rw [h.fulfilled r (List.mem_of_mem_filter hr), Nat.add_sub_cancel_left]
  unfold filledOn
  rw [List.map_congr_left hfilled]
  refine sum_filledBy ?_ (fun r hr => by simpa using (List.mem_filter.1 hr).2) _ ?_
  · exact hids.sublist ((List.filter_sublist ..).map _)
  · intro t ht
    obtain ⟨r, hr, hside, hid⟩ := (h.trades t ht).2 side
    exact ⟨r, List.mem_filter.2 ⟨hr, by simpa using hside⟩, hid⟩

/-- In a session that hands each order in once, with numbers of their own and no order filled above
its quantity, the recorded trades account for all fills: an order was filled by the shares of the
trades that name it on its side, and never above its quantity; a trade has a positive quantity, and
names an ask as ask and a bid as bid; and asks and bids were filled by as much. -/
theorem shares_conserved (i : Instrument) (history buffer : Nat) (os : Orders) (calls : List Call)
    (hids : ((handed calls).map fun r => (os.get r).id).Nodup)
    (hfits : ∀ r ∈ handed calls, (os.get r).fulfilled.toNat ≤ (os.get r).quantity.toNat) :
    let o := ((opening i history buffer os).run calls).state.office
    (∀ r ∈ handed calls,
      (o.orders.get r).fulfilled.toNat =
        (os.get r).fulfilled.toNat + filledBy o.backend.trades.toList (os.get r) ∧
      (o.orders.get r).fulfilled.toNat ≤ (o.orders.get r).quantity.toNat) ∧
    (∀ t ∈ o.backend.trades.toList, 0 < t.quantity.toNat ∧
      ∀ side, ∃ r ∈ handed calls, (os.get r).side = side ∧ (os.get r).id = t.named side) ∧
    filledOn os calls o .ask = filledOn os calls o .bid := by
  have hdist : Distinct (· ∈ handed calls) os := fun r r' hr hr' heq =>
    List.inj_on_of_nodup_map hids hr hr' heq
  have hfair : Fair (· ∈ handed calls) os ⟨os, .empty⟩ := by
    refine ⟨.refl os, fun r _ => rfl, hfits, ?_⟩
    intro t ht
    cases ht
  have hrun := stands_run (keeps_fair hdist) i history buffer os hfair calls
    ⟨hids.of_map _, fun r hr => hr, fun _ _ _ => trivial⟩
  intro o
  have h : Fair (· ∈ handed calls) os o := hrun.inv
  refine ⟨fun r hr => ⟨h.fulfilled r hr, ?_⟩, h.trades, ?_⟩
  · rw [(h.orders r).quantity]
    exact h.bounded r hr
  · rw [filledOn_eq_of_fair hids h, filledOn_eq_of_fair hids h]

/-- The bid of the first user takes the ask of the second, and both were filled by 4 shares. -/
theorem shares_of_ownCross :
    let calls := [.load .ask ⟨0⟩, .start, .submit .ask ⟨1⟩, .submit .bid ⟨2⟩]
    let o := (ownCrossOpening.run calls).state.office
    o.backend.trades.size = 1 ∧ filledOn ownCross calls o .ask = 4 ∧
      filledOn ownCross calls o .ask = filledOn ownCross calls o .bid := by
  intro calls o
  refine ⟨by decide +kernel, by decide +kernel, ?_⟩
  exact (shares_conserved ⟨⟨0⟩, .ofUInt64 90⟩ 10 10 ownCross calls (by decide) (by decide)).2.2

end Session

end Bourse
