import Bourse.Proofs.Session.Invariant

/-!
# Market depth of a session

In a session the ledger shows the accepted orders that are open and rest at a limit, each with what
it has left, and perhaps others, which are of no account in market depth or whose cancellation is
under way (`Exact`). Every step that fills or closes an order moves its entry along, so a level
holds what the orders at its price have left, whenever no cancellation is half done
(`depth_exact`).

`Exact` is about any view of the orders, not only about their table: while a match is settled one
of its orders is seen as it is after it, and the other still as before.
-/

namespace Bourse

open Bourse.Action

/-- Orders with numbers of their own, together of fewer than 2⁶³ shares. -/
structure Orderly (os : Orders) (rs : List OrderRef) : Prop where
  ids : (rs.map fun r => (os.get r).id).Nodup
  fits : (rs.map fun r => (os.get r).quantity.toNat).sum < 2 ^ 63

/-- The order may be shown. One that is closed is so by a cancellation that is under way. -/
structure MayShow (view : OrderRef → Order) (g : Register) (inc : Option OrderRef)
    (r : OrderRef) : Prop where
  accepted : r ∈ g.accepted
  withdrawn : r ∉ g.withdrawn
  incoming : inc ≠ some r
  type : (view r).type ≠ .stopLoss
  closed : (view r).closed = true → r ∈ g.cancelled

/-- The order has to be shown. -/
structure MustShow (view : OrderRef → Order) (g : Register) (inc : Option OrderRef)
    (r : OrderRef) : Prop where
  accepted : r ∈ g.accepted
  withdrawn : r ∉ g.withdrawn
  incoming : inc ≠ some r
  type : (view r).type = .limit
  isOpen : (view r).isOpen = true

/-- The ledger shows the orders that have to be shown, and no other than may be. -/
structure Exact (os : Orders) (rs : List OrderRef) (view : OrderRef → Order) (g : Register)
    (inc : Option OrderRef) (l : Ledger) : Prop where
  follows : ∀ r, (os.get r).Follows (view r)
  accepted : ∀ r ∈ g.accepted, r ∈ rs
  withdrawn : ∀ r ∈ g.withdrawn, r ∈ g.accepted
  incoming : ∀ r, inc = some r → r ∈ g.accepted ∧ r ∉ g.withdrawn ∧ (view r).type ≠ .stopLoss
  balanced : l.Balanced
  only : ∀ e ∈ l.shown, 0 < e.quantity.toNat ∧ ∃ r, MayShow view g inc r ∧ e = .ofOrder (view r)
  all : ∀ r, MustShow view g inc r → .ofOrder (view r) ∈ l.shown

variable {os : Orders} {rs : List OrderRef} {view : OrderRef → Order} {g : Register}
  {inc : Option OrderRef} {l : Ledger} {r : OrderRef}

/-- What must be shown may be shown. -/
theorem MustShow.mayShow (h : MustShow view g inc r) : MayShow view g inc r where
  accepted := h.accepted
  withdrawn := h.withdrawn
  incoming := h.incoming
  type := by
    rw [h.type]
    nofun
  closed hc := by
    rw [(Order.isOpen_iff.1 h.isOpen).1] at hc
    cases hc

namespace Orderly

/-- Entries of different orders together show fewer than 2⁶³ shares. -/
theorem total_lt (ho : Orderly os rs) (hf : ∀ r, (os.get r).Follows (view r)) {es : List Shown}
    (hnodup : (es.map (·.id)).Nodup) (hes : ∀ e ∈ es, ∃ r ∈ rs, e = .ofOrder (view r)) :
    Ledger.total es < 2 ^ 63 := by
  have hsub : es ⊆ rs.map fun r => .ofOrder (view r) := by
    intro e he
    obtain ⟨r, hr, rfl⟩ := hes e he
    exact List.mem_map_of_mem hr
  obtain ⟨es', hperm, hsub⟩ := (hnodup.of_map _).subperm hsub
  have hle : Ledger.total es' ≤ Ledger.total (rs.map fun r => .ofOrder (view r)) :=
    (hsub.map _).sum_le_sum fun _ _ => Nat.zero_le _
  have hall : Ledger.total (rs.map fun r => .ofOrder (view r)) ≤
      (rs.map fun r => (os.get r).quantity.toNat).sum := by
    unfold Ledger.total
    rw [List.map_map]
    refine List.sum_le_sum ?_
    intro r _
    show (view r).unfulfilled.toNat ≤ _
    rw [Order.toNat_unfulfilled, (hf r).quantity]
    exact Nat.sub_le _ _
  rw [← Ledger.total_perm hperm]
  exact (hle.trans hall).trans_lt ho.fits

end Orderly

namespace Exact

/-- A fresh ledger is exact as long as no order was accepted. -/
theorem fresh (os : Orders) (rs : List OrderRef) {g : Register} (hg : g.accepted = [])
    (hw : g.withdrawn = []) (i : InstrumentId) (history : Nat) :
    Exact os rs os.get g none (.empty i history) := by
  have hnone : ∀ r, r ∉ g.accepted := fun r => hg ▸ List.not_mem_nil
  refine ⟨fun _ => .refl _, fun r hr => absurd hr (hnone r), fun r hr => ?_, nofun,
    Ledger.balanced_empty i history, nofun, fun r hmust => absurd hmust.accepted (hnone r)⟩
  rw [hw] at hr
  cases hr

/-- Known orders of one number are the same order. -/
theorem eq_of_id (h : Exact os rs view g inc l) (ho : Orderly os rs) {r' : OrderRef} (hr : r ∈ rs)
    (hr' : r' ∈ rs) (hid : (view r).id = (view r').id) : r = r' := by
  rw [(h.follows r).id, (h.follows r').id] at hid
  exact List.inj_on_of_nodup_map ho.ids hr hr' hid

/-- The order of an entry. -/
theorem mayShow_of_id (h : Exact os rs view g inc l) (ho : Orderly os rs) (hr : r ∈ rs) {e : Shown}
    (he : e ∈ l.shown) (hid : e.id = (view r).id) :
    MayShow view g inc r ∧ e = .ofOrder (view r) := by
  obtain ⟨-, r', hmay, rfl⟩ := h.only e he
  obtain rfl := h.eq_of_id ho (h.accepted r' hmay.accepted) hr hid
  exact ⟨hmay, rfl⟩

/-- A ledger that is exact shows fewer than 2⁶³ shares. -/
theorem fits (h : Exact os rs view g inc l) (ho : Orderly os rs) :
    Ledger.total l.shown < 2 ^ 63 :=
  ho.total_lt h.follows h.balanced.distinct fun e he => by
    obtain ⟨-, r, hmay, heq⟩ := h.only e he
    exact ⟨r, h.accepted r hmay.accepted, heq⟩

/-- An order that may not be shown is not. -/
theorem find?_eq_none (h : Exact os rs view g inc l) (ho : Orderly os rs) (hr : r ∈ rs)
    (hnot : ¬ MayShow view g inc r) : l.find? (view r).id = none :=
  Ledger.find?_eq_none.2 fun _ he hid => hnot (h.mayShow_of_id ho hr he hid).1

/-- There is room for the incoming order. -/
theorem fits_incoming (h : Exact os rs view g (some r) l) (ho : Orderly os rs) (hr : r ∈ rs) :
    Ledger.total l.shown + (view r).unfulfilled.toNat < 2 ^ 63 := by
  have hnone := h.find?_eq_none ho hr fun hmay => hmay.incoming rfl
  have htotal : Ledger.total (.ofOrder (view r) :: l.shown) < 2 ^ 63 := by
    refine ho.total_lt h.follows (List.nodup_cons.2 ⟨?_, h.balanced.distinct⟩) ?_
    · intro hmem
      obtain ⟨e, he, hid⟩ := List.mem_map.1 hmem
      exact Ledger.find?_eq_none.1 hnone e he hid
    · intro e he
      rcases List.mem_cons.1 he with rfl | he
      · exact ⟨r, hr, rfl⟩
      · obtain ⟨-, r', hmay, heq⟩ := h.only e he
        exact ⟨r', h.accepted r' hmay.accepted, heq⟩
  rw [Ledger.total_cons, Nat.add_comm] at htotal
  exact htotal

/-- What is shown stays exact if all that may be shown still may, as it is, and nothing more has
to. -/
theorem of_shown (h : Exact os rs view g inc l) {view' : OrderRef → Order} {g' : Register}
    {inc' : Option OrderRef} {l' : Ledger} (hb : l'.Balanced) (hshown : l'.shown = l.shown)
    (hf : ∀ r, (view r).Follows (view' r)) (ha : ∀ r ∈ g'.accepted, r ∈ rs)
    (hw : ∀ r ∈ g'.withdrawn, r ∈ g'.accepted)
    (hinc : ∀ r, inc' = some r → r ∈ g'.accepted ∧ r ∉ g'.withdrawn ∧ (view' r).type ≠ .stopLoss)
    (hmay : ∀ r, MayShow view g inc r →
      MayShow view' g' inc' r ∧ Shown.ofOrder (view' r) = .ofOrder (view r))
    (hmust : ∀ r, MustShow view' g' inc' r → MustShow view g inc r) :
    Exact os rs view' g' inc' l' where
  follows r := (h.follows r).trans (hf r)
  accepted := ha
  withdrawn := hw
  incoming := hinc
  balanced := hb
  only e he := by
    obtain ⟨hpos, r, hr, rfl⟩ := h.only e (hshown ▸ he)
    exact ⟨hpos, r, (hmay r hr).1, (hmay r hr).2.symm⟩
  all r hr := by
    have hold := hmust r hr
    rw [hshown, (hmay r hold.mayShow).2]
    exact h.all r hold

/-- A report that shows nothing more or less. -/
theorem ends_recordTrade (h : Exact os rs view g inc l) (t : Trade) (j : Array Event) :
    Ends (Ledger.recordTrade t) ⟨l, j⟩
      (fun _ u => Exact os rs view g inc u.state ∧ u.journal = j) (fun _ _ => False) :=
  (Ledger.ends_recordTrade (s := ⟨l, j⟩) h.balanced).imp
    (fun _ _ hu => ⟨h.of_shown hu.1 hu.2.1 (fun _ => .refl _) h.accepted h.withdrawn h.incoming
      (fun _ hmay => ⟨hmay, rfl⟩) fun _ hmust => hmust, hu.2.2⟩)

/-- Withdrawing an order that need not be shown then. -/
theorem ends_withdraw (h : Exact os rs view g inc l) (ho : Orderly os rs) (hr : r ∈ rs)
    {g' : Register} (ha : g'.accepted = g.accepted) (hc : g'.cancelled = g.cancelled)
    (hw : ∀ r', r' ≠ r → (r' ∈ g'.withdrawn ↔ r' ∈ g.withdrawn))
    (hwr : r ∈ g'.withdrawn → r ∈ g.accepted ∧ inc ≠ some r) (hnot : ¬ MustShow view g' inc r)
    (j : Array Event) :
    Ends (Ledger.withdraw (view r).id) ⟨l, j⟩
      (fun _ t => Exact os rs view g' inc t.state ∧ t.journal = j) (fun _ _ => False) := by
  refine (Ledger.ends_withdraw (s := ⟨l, j⟩) h.balanced
    (Ledger.fits_of_total (n := 0) (h.fits ho))).imp ?_
  intro _ t ht
  obtain ⟨hb, hshown, hjournal⟩ := ht
  refine ⟨?_, hjournal⟩
  refine ⟨h.follows, fun r' hr' => h.accepted r' (ha ▸ hr'), ?_, ?_, hb, ?_, ?_⟩
  · intro r' hr'
    rw [ha]
    by_cases heq : r' = r
    · exact heq ▸ (hwr (heq ▸ hr')).1
    · exact h.withdrawn r' ((hw r' heq).1 hr')
  · intro r' hr'
    obtain ⟨hacc, hnw, ht⟩ := h.incoming r' hr'
    refine ⟨ha ▸ hacc, ?_, ht⟩
    intro hw'
    by_cases heq : r' = r
    · exact (hwr (heq ▸ hw')).2 (heq ▸ hr')
    · exact hnw ((hw r' heq).1 hw')
  · intro e he
    rw [hshown, Ledger.mem_without] at he
    obtain ⟨hpos, r', hmay, rfl⟩ := h.only e he.1
    have hne : r' ≠ r := fun heq => he.2 (heq ▸ rfl)
    exact ⟨hpos, r', ⟨ha ▸ hmay.accepted, mt (hw r' hne).1 hmay.withdrawn,
      hmay.incoming, hmay.type, fun hcl => hc ▸ hmay.closed hcl⟩, rfl⟩
  · intro r' hmust
    have hne : r' ≠ r := fun heq => hnot (heq ▸ hmust)
    have hacc : r' ∈ g.accepted := ha ▸ hmust.accepted
    rw [hshown, Ledger.mem_without]
    refine ⟨h.all r' ⟨hacc, mt (hw r' hne).2 hmust.withdrawn, hmust.incoming, hmust.type,
      hmust.isOpen⟩, fun hid => hne ?_⟩
    exact h.eq_of_id ho (h.accepted r' hacc) hr hid

/-! ## A match step -/

end Exact

/-- The entry of an order moves along with a match. -/
theorem Order.Left.left?_ofOrder {o o' : Order} {trade : Option Trade} (h : o.Left o' trade)
    (ht : o.type ≠ .stopLoss) :
    (Shown.ofOrder o).left? o'.closed trade = if o'.closed then none else some (.ofOrder o') := by
  have hentry : ∀ q : Quantity, q.toNat = o'.unfulfilled.toNat →
      { Shown.ofOrder o with quantity := q } = Shown.ofOrder o' := by
    intro q hq
    rw [Shown.ofOrder, Shown.ofOrder, ← Quantity.toNat_inj.1 hq, Order.isMarket, Order.isMarket,
      h.follows.id, h.follows.side, h.follows.price, h.follows.type_eq ht]
  have hleft := h.unfulfilled
  unfold Shown.left?
  cases hc : o'.closed
  · have hpos := (Order.isOpen_iff.1 (h.isOpen.trans (by rw [hc]; rfl))).2
    rw [if_neg (by decide), if_neg (by decide)]
    cases trade with
    | none => exact congrArg some (hentry _ hleft.symm)
    | some t =>
      rw [Option.map_some, Option.getD_some] at hleft
      have hlt : ¬ (Shown.ofOrder o).quantity.toNat ≤ t.quantity.toNat := by
        show ¬ o.unfulfilled.toNat ≤ _
        omega
      dsimp only
      rw [if_neg hlt]
      exact congrArg some (hentry _ (by rw [Quantity.toNat_monus, hleft]; rfl))
  · rw [if_pos rfl, if_pos rfl]

/-- Where one order changed to a later one, all orders come after those before. -/
theorem follows_update {o' : Order} (hf : (view r).Follows o') (r' : OrderRef) :
    (view r').Follows (Function.update view r o' r') := by
  by_cases heq : r' = r
  · rw [heq, Function.update_self]
    exact hf
  · rw [Function.update_of_ne heq]
    exact .refl _

namespace Exact

/-- An order is seen in a later state that shows as much, if anything. -/
theorem update (h : Exact os rs view g inc l) {o' : Order} (hf : (view r).Follows o')
    {g' : Register} (ha : g'.accepted = g.accepted) (hw : g'.withdrawn = g.withdrawn)
    (hc : ∀ r' ∈ g.cancelled, r' ∈ g'.cancelled)
    (hmay : MayShow view g inc r → (o'.closed = true → r ∈ g'.cancelled) ∧
      Shown.ofOrder o' = .ofOrder (view r))
    (hnot : inc ≠ some r → o'.isOpen = true → o'.type = .limit → o' = view r) :
    Exact os rs (Function.update view r o') g' inc l := by
  refine h.of_shown h.balanced rfl (follows_update hf) (ha ▸ h.accepted) (ha ▸ hw ▸ h.withdrawn)
    ?_ ?_ ?_
  · intro r' hr'
    obtain ⟨hacc, hnw, ht⟩ := h.incoming r' hr'
    exact ⟨ha ▸ hacc, hw ▸ hnw, (follows_update hf r').type_ne ht⟩
  · intro r' hm
    have ht := (follows_update hf r').type_ne hm.type
    by_cases heq : r' = r
    · subst heq
      obtain ⟨hcl, hentry⟩ := hmay hm
      rw [Function.update_self] at ht ⊢
      refine ⟨⟨ha ▸ hm.accepted, hw ▸ hm.withdrawn, hm.incoming, ?_, ?_⟩, hentry⟩
      · rw [Function.update_self]
        exact ht
      · rw [Function.update_self]
        exact hcl
    · have hv : Function.update view r o' r' = view r' := Function.update_of_ne heq ..
      rw [hv]
      exact ⟨⟨ha ▸ hm.accepted, hw ▸ hm.withdrawn, hm.incoming, hv ▸ hm.type,
        fun hcl => hc r' (hm.closed (hv ▸ hcl))⟩, rfl⟩
  · intro r' hmust
    have hv : Function.update view r o' r' = view r' := by
      by_cases heq : r' = r
      · have htype := hmust.type
        have hopen := hmust.isOpen
        rw [heq, Function.update_self] at htype hopen ⊢
        exact hnot (heq ▸ hmust.incoming) hopen htype
      · exact Function.update_of_ne heq ..
    exact ⟨ha ▸ hmust.accepted, hw ▸ hmust.withdrawn, hmust.incoming, hv ▸ hmust.type,
      hv ▸ hmust.isOpen⟩

/-- While it is matched, the incoming order is of no account. -/
theorem update_incoming (h : Exact os rs view g (some r) l) {o' : Order}
    (hf : (view r).Follows o') : Exact os rs (Function.update view r o') g (some r) l :=
  h.update hf rfl rfl (fun _ hc => hc) (fun hmay => absurd rfl hmay.incoming)
    fun hne => absurd rfl hne

/-- Bringing the depth of a shown order in line with a match. -/
theorem ends_settleSide (h : Exact os rs view g inc l) (ho : Orderly os rs) (hr : r ∈ rs)
    (hinc : inc ≠ some r) {o' : Order} {trade : Option Trade} (hl : (view r).Left o' trade)
    (ht : (view r).type ≠ .stopLoss)
    (hq : ∀ t, trade = some t → t.quantity.toNat ≤ (view r).unfulfilled.toNat) (j : Array Event) :
    Ends (Ledger.settleSide (view r).id o'.closed trade) ⟨l, j⟩
      (fun _ t => Exact os rs (Function.update view r o') g inc t.state ∧ t.journal = j)
      (fun _ _ => False) := by
  refine (Ledger.ends_settleSide (s := ⟨l, j⟩) h.balanced (h.fits ho)).imp ?_
  intro _ t hb
  obtain ⟨hb, -, hmem, hjournal⟩ := hb
  have hleft := hl.left?_ofOrder ht
  refine ⟨?_, hjournal fun t ht e he => ?_⟩
  swap
  · obtain ⟨-, rfl⟩ := h.mayShow_of_id ho hr (Ledger.mem_of_find? he).1 (Ledger.mem_of_find? he).2
    exact hq t ht
  refine ⟨?_, h.accepted, h.withdrawn, ?_, hb, ?_, ?_⟩
  · intro r'
    exact (h.follows r').trans (follows_update hl.follows r')
  · intro r' hr'
    rw [Function.update_of_ne fun heq : r' = r => hinc (heq ▸ hr')]
    exact h.incoming r' hr'
  · intro e he
    rcases (hmem e).1 he with ⟨he, hid⟩ | ⟨e', he', hid, heq⟩
    · obtain ⟨hpos, r', hmay, rfl⟩ := h.only e he
      have hv : Function.update view r o' r' = view r' :=
        Function.update_of_ne (fun heq : r' = r => hid (heq ▸ rfl)) ..
      exact ⟨hpos, r', ⟨hmay.accepted, hmay.withdrawn, hmay.incoming, hv ▸ hmay.type,
        hv ▸ hmay.closed⟩, by rw [hv]⟩
    · obtain ⟨hmay, rfl⟩ := h.mayShow_of_id ho hr he' hid
      rw [hleft] at heq
      cases hc : o'.closed
      · rw [hc] at heq
        cases heq
        have hpos := (Order.isOpen_iff.1 (hl.isOpen.trans (by rw [hc]; rfl))).2
        refine ⟨hpos, r, ?_⟩
        rw [Function.update_self]
        refine ⟨⟨hmay.accepted, hmay.withdrawn, hinc, ?_, ?_⟩, rfl⟩
        · rw [Function.update_self]
          exact hl.follows.type_ne ht
        · rw [Function.update_self, hc]
          nofun
      · rw [hc] at heq
        cases heq
  · intro r' hmust
    rw [hmem]
    by_cases heq : r' = r
    · subst heq
      have hopen := hmust.isOpen
      have htype := hmust.type
      rw [Function.update_self] at hopen htype ⊢
      refine .inr ⟨_, h.all r' ⟨hmust.accepted, hmust.withdrawn, hinc, ?_,
        hl.follows.isOpen hopen⟩, rfl, ?_⟩
      · rw [← htype, hl.follows.type_eq ht]
      · rw [hleft, (Order.isOpen_iff.1 hopen).1]
        rfl
    · have hv : Function.update view r o' r' = view r' := Function.update_of_ne heq ..
      rw [hv]
      refine .inl ⟨h.all r' ⟨hmust.accepted, hmust.withdrawn, hmust.incoming, hv ▸ hmust.type,
        hv ▸ hmust.isOpen⟩, fun hid => heq ?_⟩
      exact h.eq_of_id ho (h.accepted r' hmust.accepted) hr hid

/-- Bringing the depth of an order of a match in line, whether it is shown or incoming. -/
theorem ends_settleShown (h : Exact os rs view g inc l) (ho : Orderly os rs) (hr : r ∈ rs)
    {incoming : Option Side} {side : Side} (hinc : incoming = some side ↔ inc = some r)
    {o' : Order} {out : FillOutcome} (hdone : (out.status side).isDone = o'.closed)
    (hl : (view r).Left o' out.trade) (ht : (view r).type ≠ .stopLoss)
    (hq : ∀ t, out.trade = some t → t.quantity.toNat ≤ (view r).unfulfilled.toNat)
    (j : Array Event) : Ends (Ledger.settleShown incoming side (view r).id out) ⟨l, j⟩
      (fun _ t => Exact os rs (Function.update view r o') g inc t.state ∧ t.journal = j)
      (fun _ _ => False) := by
  unfold Ledger.settleShown
  by_cases hin : incoming = some side
  · rw [if_pos hin, ends_pure]
    obtain rfl := hinc.1 hin
    exact ⟨h.update_incoming hl.follows, rfl⟩
  · rw [if_neg hin, hdone]
    exact h.ends_settleSide ho hr (mt hinc.2 hin) hl ht hq j

end Exact

/-- If nothing else changed, a pair is all that is to be seen anew. -/
theorem update_pair {view view' : OrderRef → Order} {ask bid : OrderRef}
    (h : ∀ r, r ≠ ask → r ≠ bid → view' r = view r) :
    Function.update (Function.update view ask (view' ask)) bid (view' bid) = view' := by
  funext r
  by_cases hrb : r = bid
  · rw [hrb, Function.update_self]
  · by_cases hra : r = ask
    · rw [Function.update_of_ne hrb, hra, Function.update_self]
    · rw [Function.update_of_ne hrb, Function.update_of_ne hra, h r hra hrb]

namespace Exact

/-- Bringing the depth of a pair in line with a fill of it: first the ask is seen as it is
afterwards, then the bid too. -/
theorem ends_settlePair {incoming : Option Side} {ask bid : OrderRef} {view' : OrderRef → Order}
    {out : FillOutcome} (h : Exact os rs view g (Desk.incomingOf incoming ask bid) l)
    (ho : Orderly os rs) (hask : ask ∈ rs) (hbid : bid ∈ rs) (hne : ask ≠ bid)
    (hta : (view ask).type ≠ .stopLoss) (htb : (view bid).type ≠ .stopLoss)
    (hf : Filled view view' ask bid out) (j : Array Event) :
    Ends (Ledger.settlePair (view ask).id (view bid).id out incoming) ⟨l, j⟩
      (fun _ t => Exact os rs (Function.update (Function.update view ask (view' ask)) bid
        (view' bid)) g (Desk.incomingOf incoming ask bid) t.state ∧ t.journal = j)
      (fun _ _ => False) := by
  have hrecord : Ends (Ledger.recordDeal out.trade) ⟨l, j⟩
      (fun _ t => Exact os rs view g (Desk.incomingOf incoming ask bid) t.state ∧ t.journal = j)
      (fun _ _ => False) := by
    cases out.trade with
    | none => exact ⟨h, rfl⟩
    | some t => exact h.ends_recordTrade t j
  have hincA : incoming = some .ask ↔ Desk.incomingOf incoming ask bid = some ask := by
    rcases incoming with _ | _ | _ <;> simp [Desk.incomingOf, Ne.symm hne]
  have hincB : incoming = some .bid ↔ Desk.incomingOf incoming ask bid = some bid := by
    rcases incoming with _ | _ | _ <;> simp [Desk.incomingOf, hne]
  have hother : Function.update view ask (view' ask) bid = view bid :=
    Function.update_of_ne (Ne.symm hne) ..
  rw [Ledger.settlePair]
  refine hrecord.bind ?_
  intro _ t ht
  refine (ht.1.ends_settleShown ho hask hincA hf.askDone hf.leftAsk hta
    (fun t ht => (hf.quantity t ht).1) t.journal).bind ?_
  intro _ u hu
  have hleft := hf.leftBid
  have hquantity := fun t ht => (hf.quantity t ht).2
  rw [← hother] at hleft htb hquantity
  have hlast := hu.1.ends_settleShown ho hbid hincB hf.bidDone hleft htb hquantity u.journal
  rw [hother] at hlast
  exact hlast.imp (fun _ v hv => ⟨hv.1, hv.2.trans (hu.2.trans ht.2)⟩)

/-! ## Single orders -/

/-- An order that comes in is not shown before it rests. -/
theorem accept (h : Exact os rs view g none l) (hr : r ∈ rs) (hg : r ∉ g.accepted)
    (ht : (view r).type ≠ .stopLoss) : Exact os rs view (g.accept r) (some r) l := by
  refine h.of_shown h.balanced rfl (fun _ => .refl _) ?_
    (fun r' hr' => .tail _ (h.withdrawn r' hr')) ?_ (fun r' hmay => ⟨?_, rfl⟩) ?_
  · intro r' hr'
    rcases List.mem_cons.1 hr' with rfl | hr'
    · exact hr
    · exact h.accepted r' hr'
  · rintro r' ⟨rfl⟩
    exact ⟨.head _, fun hw => hg (h.withdrawn r hw), ht⟩
  · refine ⟨.tail _ hmay.accepted, hmay.withdrawn, fun heq => hg ?_, hmay.type, hmay.closed⟩
    exact (Option.some.inj heq) ▸ hmay.accepted
  · intro r' hmust
    refine ⟨?_, hmust.withdrawn, nofun, hmust.type, hmust.isOpen⟩
    exact (List.mem_cons.1 hmust.accepted).resolve_left fun heq => hmust.incoming (heq ▸ rfl)

/-- An order that comes in closed, or as a dormant stop-loss, is not shown. -/
theorem pass (h : Exact os rs view g none l) (hr : r ∈ rs) (hg : r ∉ g.accepted)
    (ht : (view r).closed = true ∨ (view r).type = .stopLoss) :
    Exact os rs view (g.accept r) none l := by
  refine h.of_shown h.balanced rfl (fun _ => .refl _) ?_
    (fun r' hr' => .tail _ (h.withdrawn r' hr')) nofun
    (fun r' hmay => ⟨⟨.tail _ hmay.accepted, hmay.withdrawn, nofun, hmay.type, hmay.closed⟩, rfl⟩)
    fun r' hmust => ⟨?_, hmust.withdrawn, nofun, hmust.type, hmust.isOpen⟩
  · intro r' hr'
    rcases List.mem_cons.1 hr' with rfl | hr'
    · exact hr
    · exact h.accepted r' hr'
  · refine (List.mem_cons.1 hmust.accepted).resolve_left ?_
    intro heq
    have htype := heq ▸ hmust.type
    have hopen := (Order.isOpen_iff.1 (heq ▸ hmust.isOpen)).1
    rcases ht with hc | ht
    · exact absurd (hopen.symm.trans hc) (by decide)
    · rw [ht] at htype
      cases htype

/-- Nothing is left of an incoming order. -/
theorem finish (h : Exact os rs view g (some r) l) (hclosed : (view r).isOpen = false) :
    Exact os rs view g none l := by
  refine h.of_shown h.balanced rfl (fun _ => .refl _) h.accepted h.withdrawn nofun
    (fun r' hmay => ⟨⟨hmay.accepted, hmay.withdrawn, nofun, hmay.type, hmay.closed⟩, rfl⟩)
    fun r' hmust => ⟨hmust.accepted, hmust.withdrawn, ?_, hmust.type, hmust.isOpen⟩
  intro heq
  cases heq
  exact absurd (hclosed.symm.trans hmust.isOpen) (by decide)

/-- What is left of an incoming order is shown. -/
theorem ends_add (h : Exact os rs view g (some r) l) (ho : Orderly os rs) (hr : r ∈ rs)
    (hopen : (view r).isOpen = true) (j : Array Event) :
    Ends (Ledger.add (view r)) ⟨l, j⟩
      (fun _ t => Exact os rs view g none t.state ∧ t.journal = j) (fun _ _ => False) := by
  have hnone := h.find?_eq_none ho hr fun hmay => hmay.incoming rfl
  obtain ⟨hacc, hnw, ht⟩ := h.incoming r rfl
  obtain ⟨hcl, hpos⟩ := Order.isOpen_iff.1 hopen
  refine (Ledger.ends_add (s := ⟨l, j⟩) h.balanced
    fun _ _ _ => Ledger.fits_of_total (h.fits_incoming ho hr) _ _).imp ?_
  intro _ t hb
  obtain ⟨hb, hshown, hjournal⟩ := hb
  rw [Ledger.added_of_new hopen hnone] at hshown
  refine ⟨?_, hjournal⟩
  refine ⟨h.follows, h.accepted, h.withdrawn, nofun, hb, ?_, ?_⟩
  · intro e he
    rw [hshown] at he
    rcases List.mem_cons.1 he with rfl | he
    · exact ⟨hpos, r, ⟨hacc, hnw, nofun, ht, fun hc => absurd (hcl.symm.trans hc) (by decide)⟩,
        rfl⟩
    · obtain ⟨hpos', r', hmay, heq⟩ := h.only e he
      exact ⟨hpos', r', ⟨hmay.accepted, hmay.withdrawn, nofun, hmay.type, hmay.closed⟩, heq⟩
  · intro r' hmust
    rw [hshown, List.mem_cons]
    by_cases heq : r' = r
    · exact .inl (heq ▸ rfl)
    · exact .inr (h.all r' ⟨hmust.accepted, hmust.withdrawn,
        fun heq' => heq (Option.some.inj heq').symm, hmust.type, hmust.isOpen⟩)

end Exact

/-- Changing an order in the table changes the view of it. -/
theorem get_modify_eq_update (os : Orders) (r : OrderRef) (f : Order → Order) :
    (os.modify r f).get = Function.update os.get r (f (os.get r)) := by
  funext r'
  rw [Orders.get_modify]
  by_cases heq : r = r'
  · rw [if_pos heq, heq, Function.update_self]
  · rw [if_neg heq, Function.update_of_ne (Ne.symm heq)]

namespace Exact

variable {o : Office Simulated}

/-- An activated stop-loss takes any price, so nothing of it has to be shown. -/
theorem activated {σ : Type} {o : Office σ} (h : Exact os rs o.orders.get g inc l) (r : OrderRef) :
    Exact os rs (o.activated r).orders.get g inc l := by
  show Exact os rs (o.orders.modify r _).get g inc l
  rw [get_modify_eq_update]
  have hsame : (o.orders.get r).type ≠ .stopLoss →
      (o.orders.get r).activateStopLoss.2 = o.orders.get r := by
    intro ht
    rw [Order.activateStopLoss, if_neg ht]
  refine h.update Order.follows_activateStopLoss rfl rfl (fun _ hc => hc) ?_ ?_
  · intro hmay
    rw [hsame hmay.type]
    exact ⟨hmay.closed, rfl⟩
  · intro _ _ htype
    by_cases ht : (o.orders.get r).type = .stopLoss
    · rw [Order.activateStopLoss, if_pos ht] at htype
      cases htype
    · exact hsame ht

/-- An order that settlement has cancelled stays shown until it is withdrawn. -/
theorem cancelled (h : Exact os rs o.orders.get g none l) (r : OrderRef) :
    Exact os rs (o.orders.set r (o.orders.get r).close).get (g.cancel r) none l := by
  show Exact os rs (o.orders.modify r Order.close).get _ none l
  rw [get_modify_eq_update]
  refine h.update Order.follows_close ?_ ?_ ?_ (fun hmay => ⟨fun _ => ?_, rfl⟩)
    fun _ hopen => absurd hopen (by simp [Order.isOpen, Order.close])
  · unfold Register.cancel
    split <;> rfl
  · unfold Register.cancel
    split <;> rfl
  · intro r' hc
    unfold Register.cancel
    split
    · exact .tail _ hc
    · exact hc
  · rw [Register.cancel, if_pos hmay.accepted]
    exact .head _

/-- The book takes the depth of an order away, for good. -/
theorem ends_withdraw_noted (h : Exact os rs view g none l) (ho : Orderly os rs) (hr : r ∈ rs)
    (j : Array Event) :
    Ends (Ledger.withdraw (view r).id) ⟨l, j⟩
      (fun _ t => Exact os rs view (g.withdraw r) none t.state ∧ t.journal = j)
      (fun _ _ => False) := by
  refine h.ends_withdraw ho hr ?_ ?_ ?_ (fun hw => ⟨?_, nofun⟩) ?_ j
  · unfold Register.withdraw
    split <;> rfl
  · unfold Register.withdraw
    split <;> rfl
  · intro r' hne
    unfold Register.withdraw
    split
    · exact List.mem_cons.trans (or_iff_right hne)
    · rfl
  · unfold Register.withdraw at hw
    split at hw
    · assumption
    · exact h.withdrawn r hw
  · intro hmust
    have hacc := hmust.accepted
    have hnw := hmust.withdrawn
    unfold Register.withdraw at hacc hnw
    split at hacc
    · next hmem => exact hnw (by rw [if_pos hmem]; exact .head _)
    · next hmem => exact hmem hacc

end Exact

/-- A session keeps its ledger exact, and no depth overflows. -/
theorem keeps_exact (ho : Orderly os rs) :
    Keeps (· ∈ rs) (· ∈ rs) (fun g inc o l => Exact os rs o.orders.get g inc l)
      (fun _ => False) where
  upkeep g := {
    drop := by
      intro inc r o l j hr hclosed h
      refine (h.ends_withdraw ho hr rfl rfl (fun _ _ => Iff.rfl) ?_ ?_ j).mono
        (fun _ _ ht => ht.1) fun _ _ hf => hf.elim
      · intro hw
        exact ⟨h.withdrawn r hw, fun heq => (h.incoming r heq).2.1 hw⟩
      · intro hmust
        rw [hmust.isOpen] at hclosed
        cases hclosed
    settle := by
      intro incoming ask bid price o l j hask hbid hsa hsb ha hb hta htb h
      have hne := Orders.ne_of_side hsa hsb
      refine (h.ends_settlePair ho hask hbid hne hta htb (Simulated.filled_dealt hne ha hb) j).mono
        (fun _ _ ht => ?_) fun _ _ hf => hf.elim
      rw [update_pair fun _ => Office.get_dealt_of_ne hne] at ht
      exact ht.1
    fires := fun inc => ⟨fun r o l _ h => h.activated r, fun _ _ _ _ h => h⟩
    rest := by
      intro r o l j hr hopen h
      exact (h.ends_add ho hr hopen j).mono (fun _ _ ht => ht.1) fun _ _ hf => hf.elim
    finish := fun _ _ _ _ hclosed h => h.finish hclosed }
  accept _ _ _ _ hr hg ht h := h.accept hr hg ht
  pass _ _ _ _ hr hg ht h := h.pass hr hg ht
  replay _ _ _ j t h := (h.ends_recordTrade t j).imp (fun _ _ ht => ht.1)
  withdraw _ _ _ _ j hr h :=
    (h.ends_withdraw_noted ho hr j).imp (fun _ _ ht => ht.1)
  cancel _ r _ _ _ h := h.cancelled r
  backend _ _ _ _ _ h := h
  broken _ _ _ hf := hf.elim

/-! ## Levels -/

namespace Session

/-- One half of the cancellation of an accepted order was carried out, and the other was not: it is
closed by settlement but still shown, or no longer shown but open. -/
def HalfDone (s : Session) (r : OrderRef) : Prop :=
  (r ∈ s.register.cancelled ∧ r ∉ s.register.withdrawn) ∨
    (r ∈ s.register.withdrawn ∧ (s.state.order r).closed = false)

instance (s : Session) (r : OrderRef) : Decidable (s.HalfDone r) :=
  inferInstanceAs (Decidable (_ ∨ _))

/-- The accepted open limit orders of a side at a price. -/
def restingAt (s : Session) (side : Side) (p : Price) : List OrderRef :=
  s.register.accepted.filter fun r =>
    let o := s.state.order r
    o.isOpen ∧ o.type = .limit ∧ o.side = side ∧ o.price.Same p

variable {s : Session}

/-- Between cancellations, what is shown at a price are the accepted open limit orders there. -/
theorem perm_restingAt (h : Exact os rs s.state.order s.register none s.state.book.ledger)
    (ho : Orderly os rs) (hnodup : s.register.accepted.Nodup)
    (hdone : ∀ r ∈ s.register.accepted, ¬ s.HalfDone r) (side : Side) (p : Price) :
    (s.state.book.ledger.shown.filter fun e =>
      e.isMarket = false ∧ e.side = side ∧ e.price.Same p).Perm
      ((s.restingAt side p).map fun r => .ofOrder (s.state.order r)) := by
  have hinj : ∀ r ∈ s.restingAt side p, ∀ r' ∈ s.restingAt side p,
      Shown.ofOrder (s.state.order r) = .ofOrder (s.state.order r') → r = r' := by
    intro r hr r' hr' heq
    exact h.eq_of_id ho (h.accepted r (List.mem_of_mem_filter hr))
      (h.accepted r' (List.mem_of_mem_filter hr')) (congrArg Shown.id heq)
  refine (List.perm_ext_iff_of_nodup (h.balanced.distinct.of_map _ |>.filter _)
    ((hnodup.filter _).map_on hinj)).2 ?_
  intro e
  rw [List.mem_filter, List.mem_map]
  constructor
  · rintro ⟨he, hat⟩
    obtain ⟨hpos, r, hmay, rfl⟩ := h.only e he
    obtain ⟨hmarket, hside, hprice⟩ := of_decide_eq_true hat
    -- it is closed only by a cancellation under way, and none is
    have hopen : (s.state.order r).closed = false := by
      cases hc : (s.state.order r).closed
      · rfl
      · exact absurd (.inl ⟨hmay.closed hc, hmay.withdrawn⟩) (hdone r hmay.accepted)
    have htype : (s.state.order r).type = .limit := by
      have hmarket : (s.state.order r).type.isMarket = false := hmarket
      have hne := hmay.type
      cases ht : (s.state.order r).type <;> simp_all [OrderType.isMarket]
    refine ⟨r, List.mem_filter.2 ⟨hmay.accepted, decide_eq_true ?_⟩, rfl⟩
    exact ⟨Order.isOpen_iff.2 ⟨hopen, hpos⟩, htype, hside, hprice⟩
  · rintro ⟨r, hr, rfl⟩
    obtain ⟨hacc, hat⟩ := List.mem_filter.1 hr
    obtain ⟨hopen, htype, hside, hprice⟩ := of_decide_eq_true hat
    have hnw : r ∉ s.register.withdrawn := fun hw =>
      hdone r hacc (.inr ⟨hw, (Order.isOpen_iff.1 hopen).1⟩)
    refine ⟨h.all r ⟨hacc, hnw, nofun, htype, hopen⟩, decide_eq_true ⟨?_, hside, hprice⟩⟩
    show (s.state.order r).type.isMarket = false
    rw [htype]
    rfl

/-- In a session that hands each order in once, with numbers of their own and together fewer than
2⁶³ shares, and cancels only orders that are handed in: whenever no cancellation is half done,
market depth holds at each price of a side what the accepted open limit orders there have left. -/
theorem depth_exact (i : Instrument) (history buffer : Nat) (os : Orders) (calls : List Call)
    (ho : Orderly os (handed calls))
    (hwithdrawn : ∀ side r, .withdraw side r ∈ calls → r ∈ handed calls)
    (hdone : ∀ r ∈ ((opening i history buffer os).run calls).register.accepted,
      ¬ ((opening i history buffer os).run calls).HalfDone r) :
    let s := (opening i history buffer os).run calls
    s.register.accepted.Nodup ∧ ∀ side p, (s.state.book.ledger.depth.quantityAt side p).toNat =
      ((s.restingAt side p).map fun r => (s.state.order r).unfulfilled.toNat).sum := by
  have hrun := stands_run (keeps_exact ho) i history buffer os
    (.fresh os _ rfl rfl i.id history) calls
    ⟨ho.ids.of_map _, fun r hr => hr, hwithdrawn⟩
  intro s
  have h : Exact os (handed calls) s.state.order s.register none s.state.book.ledger := hrun.inv
  have hnodup : s.register.accepted.Nodup := (List.nodup_append.1 hrun.nodup).2.1
  refine ⟨hnodup, ?_⟩
  intro side p
  have hheld : (s.state.book.ledger.depth.quantityAt side p).toNat =
      Ledger.shownAt s.state.book.ledger.shown side p := h.balanced.held side p
  rw [hheld, Ledger.shownAt_eq_total,
    Ledger.total_perm (perm_restingAt h ho hnodup hdone side p), Ledger.total, List.map_map]
  rfl

/-- The bid of the first user has taken the ask of the second, and his own ask is cancelled, by the
book before it is by settlement; of the bid 3 shares are left. -/
theorem depth_of_ownCross :
    let calls := [.load .ask ⟨0⟩, .start, .submit .ask ⟨1⟩, .withdraw .ask ⟨0⟩, .submit .bid ⟨2⟩,
      .cancel ⟨0⟩]
    let s := ownCrossOpening.run calls
    s.register.cancelled = [⟨0⟩] ∧
      (s.state.book.ledger.depth.quantityAt .bid (.ofUInt64 100)).toNat = 3 ∧
      ∀ side p, (s.state.book.ledger.depth.quantityAt side p).toNat =
        ((s.restingAt side p).map fun r => (s.state.order r).unfulfilled.toNat).sum := by
  intro calls s
  refine ⟨by decide +kernel, by decide +kernel, ?_⟩
  refine (depth_exact ⟨⟨0⟩, .ofUInt64 90⟩ 10 10 ownCross calls ⟨by decide, by decide⟩ ?_
    (by decide +kernel)).2
  rintro side r hmem
  obtain ⟨rfl, rfl⟩ : side = .ask ∧ r = ⟨0⟩ := by simpa [calls] using hmem
  decide

end Session

end Bourse
