import Bourse.Proofs.Floor.Custody

/-!
# The life of a stop-loss

`Life` follows one stop-loss through a run, with the calls of settlement since it was brought to
the book. Between two fills it is dormant and spared by all trades so far. A trade makes its side
due (`Life.pending`), and the book looks at the first stop-loss of that side until one is left that
the trade does not reach. As a side is ranked by triggers, the trade then reaches no other one
either (`Tidy.spared_of_head`). If it was reached it is activated (`Life.fired`), and then reported
(`Life.reported`).
-/

namespace Bourse

open Bourse.Action Bourse.Desk

variable {σ : Type} {S : Settlement σ} {st st' : Stage σ} {r : OrderRef}

/-! ## What the calls of settlement say of a stop-loss -/

/-- The trade of the call reaches the stop-loss, and leaves it not closed. -/
def FillCall.SetsOff (c : FillCall) (r : OrderRef) : Prop :=
  (c.after.get r).closed = false ∧ ∃ t, c.trade? = some t ∧ (c.after.get r).ReachedAt t.price

namespace Transcript

variable {log log' : Transcript} {o o' : Order} {e : Entry}

/-- No trade reaches the stop-loss. -/
def Spares (log : Transcript) (o : Order) : Prop :=
  ∀ c t, .fill c ∈ log → c.trade? = some t → ¬ o.ReachedAt t.price

/-- The first trade that reached the stop-loss found it not closed, and it was reported before
anything else was filled. -/
inductive SetOff (log : Transcript) (r : OrderRef) : Prop
  | intro {before reports after : Transcript} {c : FillCall} {os : Orders}
    (log_eq : log = before ++ .fill c :: (reports ++ .triggered r os :: after))
    (spared : before.Spares (c.after.get r)) (sets : c.SetsOff r)
    (reports_only : reports.fills = [])

/-- Trades that spare an order spare it as it is filled and closed. -/
theorem Spares.of_follows (h : log.Spares o) (hfollows : o.Follows o') : log.Spares o' :=
  fun c t hc ht hreached => h c t hc ht (hfollows.reachedAt.1 hreached)

/-- Trades that spare an order spared it before. -/
theorem Spares.before (h : log.Spares o') (hfollows : o.Follows o') : log.Spares o :=
  fun c t hc ht hreached => h c t hc ht (hfollows.reachedAt.2 hreached)

/-- One more call spares the stop-loss, unless its trade reaches it. -/
theorem Spares.snoc (h : log.Spares o)
    (he : ∀ c t, e = .fill c → c.trade? = some t → ¬ o.ReachedAt t.price) :
    Spares (log ++ [e]) o := by
  intro c t hc ht
  rcases List.mem_append.1 hc with hc | hc
  · exact h c t hc ht
  · exact he c t (List.mem_singleton.1 hc).symm ht

/-- No trades spare every order. -/
theorem Spares.nil (o : Order) : Spares [] o := fun _ _ => nofun

/-- What set an order off did so whatever comes later. -/
theorem SetOff.snoc (h : log.SetOff r) (e : Entry) : SetOff (log ++ [e]) r := by
  obtain ⟨rfl, spared, sets, reports⟩ := h
  refine .intro (by simp only [List.append_assoc, List.cons_append]; rfl) spared sets reports

end Transcript

/-! ## What is due -/

/-- No side is due twice. -/
theorem Step.nodup_due (h : Step S st st') (hdue : (st.hand.due.map (·.1)).Nodup) :
    (st'.hand.due.map (·.1)).Nodup := by
  cases h with
  | @fill c o out asked answered fired due =>
    show ((Hand.dueAfter out.trade).map (·.1)).Nodup
    cases out.trade with
    | none => exact List.nodup_nil
    | some t => exact (by decide : [Side.ask, Side.bid].Nodup)
  | settle due head =>
    rw [due] at hdue
    exact (List.nodup_cons.1 hdue).2
  | beside | search | pop | restore | drop | take | promote | rest | leave => exact hdue

/-- One price is due on each side. -/
theorem eq_of_nodup_due {due : List (Side × Price)} (h : (due.map (·.1)).Nodup) {side : Side}
    {p p' : Price} (hp : (side, p) ∈ due) (hp' : (side, p') ∈ due) : p = p' :=
  congrArg (·.2) (List.inj_on_of_nodup_map h hp hp' rfl)

/-! ## Where a stop-loss is -/

namespace Tidy

/-- An accepted stop-loss that is dormant and not closed is in the queue of its side. -/
theorem parked (h : Tidy st) (hr : r ∈ st.accepted) (htype : (st.desk.order r).type = .stopLoss)
    (hclosed : (st.desk.order r).closed = false) :
    ∃ i ∈ (st.desk.book.stopLossQueue (st.desk.order r).side).bag, i.order = r := by
  have hheld := h.custody.present r hr (.inr ⟨htype, hclosed⟩)
  rcases Stage.mem_held.1 hheld with ⟨side, i, hi, rfl⟩ | ⟨side, i, hi,
    rfl⟩ | hfired | ⟨n, hn, rfl⟩
  · exact absurd htype (h.sorted.kept side i hi).2
  · exact ⟨i, (h.sorted.dormant side i hi).1 ▸ hi, rfl⟩
  · exact absurd htype (h.sorted.fired r hfired)
  · exact absurd htype (h.sorted.newcomer n hn).2

/-- If the first stop-loss of a side is not reached, none is that is dormant and not closed. -/
theorem spared_of_head (h : Tidy st) {p : Price} (hr : r ∈ st.accepted)
    (htype : (st.desk.order r).type = .stopLoss) (hclosed : (st.desk.order r).closed = false)
    (hhead : ∀ i, (st.desk.book.stopLossQueue (st.desk.order r).side).headItem? = some i →
      (st.desk.order i.order).isReachedBy p = false) : ¬ (st.desk.order r).ReachedAt p := by
  obtain ⟨i, hi, rfl⟩ := h.parked hr htype hclosed
  refine not_reachedAt_of_head st.orders (h.sorted.ordered _) (fun k hk => ?_) hhead i hi
  obtain ⟨hside, -, hktype, hprice⟩ := h.sorted.dormant _ k hk
  exact ⟨hside, hktype, hprice⟩

/-- A dormant stop-loss was accepted. -/
theorem accepted_of_dormant (h : Tidy st) {side : Side} {i : Item}
    (hi : i ∈ (st.desk.book.stopLossQueue side).bag) : i.order ∈ st.accepted :=
  h.custody.accepted _ (Stage.mem_held.2 (.inr (.inl ⟨side, i, hi, rfl⟩)))

/-- An activated stop-loss was accepted. -/
theorem accepted_of_fired (h : Tidy st) (hr : r ∈ st.hand.fired) : r ∈ st.accepted :=
  h.custody.accepted _ (Stage.mem_held.2 (.inr (.inr (.inl hr))))

/-- No stop-loss is activated twice at once. -/
theorem nodup_fired (h : Tidy st) : st.hand.fired.Nodup :=
  Multiset.coe_nodup.1 (Multiset.nodup_add.1 (Multiset.nodup_add.1
    (Multiset.nodup_add.1 h.custody.nodup).1).1).2.1

/-- Only what is taken in hand changes its type. -/
theorem type_eq (hS : S.Faithful) (hstep : Step S st st') (h : Tidy st)
    (hfired : r ∈ st'.hand.fired → r ∈ st.hand.fired) :
    (st'.desk.order r).type = (st.desk.order r).type := by
  rcases hstep.type_eq hS r with heq | ⟨hr, -, side, i, hi, rfl⟩
  · exact heq
  · exact absurd (hfired hr) (h.custody.not_fired hi)

end Tidy

/-! ## The life of a stop-loss -/

/-- What becomes of a stop-loss, and the calls of settlement since it was brought to the book. -/
inductive Life (r : OrderRef) (st : Stage σ) (since : Transcript) : Prop
  /-- It is dormant, and no trade so far has reached it. -/
  | dormant (type : (st.desk.order r).type = .stopLoss) (unreported : r ∉ since.reported)
    (notDue : ∀ p, ((st.desk.order r).side, p) ∉ st.hand.due)
    (spared : r ∈ st.accepted → (st.desk.order r).closed = false → since.Spares (st.desk.order r))
  /-- It is dormant, and the last trade may have reached it. Its side is still to be looked at. -/
  | pending {before : Transcript} {c : FillCall} {t : Trade}
    (type : (st.desk.order r).type = .stopLoss) (unreported : r ∉ since.reported)
    (since_eq : since = before ++ [.fill c]) (trade : c.trade? = some t)
    (due : ((st.desk.order r).side, t.price) ∈ st.hand.due)
    (spared : r ∈ st.accepted → (st.desk.order r).closed = false → before.Spares (st.desk.order r))
  /-- The last trade reached it, and it was activated. -/
  | fired {before reports : Transcript} {c : FillCall} (type : (st.desk.order r).type ≠ .stopLoss)
    (unreported : r ∉ since.reported) (since_eq : since = before ++ .fill c :: reports)
    (spared : before.Spares (c.after.get r)) (sets : c.SetsOff r)
    (reports_only : reports.fills = []) (mem : r ∈ st.hand.fired)
  /-- It was activated and reported. -/
  | reported (type : (st.desk.order r).type ≠ .stopLoss) (once : since.reported.count r = 1)
    (set : since.SetOff r) (notMem : r ∉ st.hand.fired)

namespace Life

variable {since : Transcript}

/-- Whatever adds no call and changes neither the type nor what is in hand of the stop-loss. -/
theorem of_same (h : Life r st since) (hfired : r ∈ st'.hand.fired ↔ r ∈ st.hand.fired)
    (hdue : st'.hand.due = st.hand.due) (hfollow : (st.desk.order r).Follows (st'.desk.order r))
    (htype : (st'.desk.order r).type = (st.desk.order r).type)
    (haccepted : (st.desk.order r).type = .stopLoss → r ∈ st'.accepted → r ∈ st.accepted) :
    Life r st' since := by
  cases h with
  | dormant type unreported notDue spared =>
    refine .dormant (htype.trans type) unreported (fun p => ?_) fun hr hc => ?_
    · rw [hdue, hfollow.side]
      exact notDue p
    · exact (spared (haccepted type hr) (hfollow.not_closed hc)).of_follows hfollow
  | pending type unreported since_eq trade due spared =>
    refine .pending (htype.trans type) unreported since_eq trade ?_ fun hr hc => ?_
    · rw [hdue, hfollow.side]
      exact due
    · exact (spared (haccepted type hr) (hfollow.not_closed hc)).of_follows hfollow
  | fired type unreported since_eq spared sets reports_only mem =>
    exact .fired (htype.trans_ne type) unreported since_eq spared sets reports_only (hfired.2 mem)
  | reported type once set notMem =>
    exact .reported (htype.trans_ne type) once set fun hmem => notMem (hfired.1 hmem)

/-- A pair is filled. -/
theorem fill (h : Life r st since) {c : FillCall} {o : Office σ} {out : FillOutcome}
    (answered : c.outcome = some out) (fired : st.hand.fired = []) (due : st.hand.due = [])
    (hretain : st.orders.Retain o.orders) :
    Life r (st.put (st.desk.called (.fill c) o) { st.hand with due := Hand.dueAfter out.trade })
      (since ++ [.fill c]) := by
  have htype : (o.orders.get r).type = (st.desk.order r).type := hretain.type r
  have hfollow : (st.desk.order r).Follows (o.orders.get r) := hretain.follow r
  have htrade : c.trade? = out.trade := by rw [FillCall.trade?, answered]; rfl
  cases h with
  | dormant type unreported notDue spared =>
    have hunreported : r ∉ Transcript.reported (since ++ [.fill c]) := by
      rwa [Transcript.reported_snoc_fill]
    have hspared : r ∈ st.accepted → (o.orders.get r).closed = false →
        since.Spares (o.orders.get r) := fun hr hc =>
      (spared hr (hfollow.not_closed hc)).of_follows hfollow
    cases hout : out.trade with
    | none =>
      refine .dormant (htype.trans type) hunreported (fun p => List.not_mem_nil) fun hr hc => ?_
      refine (hspared hr hc).snoc ?_
      rintro _ t ⟨⟩ ht
      cases (htrade.trans hout).symm.trans ht
    | some t =>
      refine .pending (htype.trans type) hunreported rfl (htrade.trans hout) ?_ hspared
      show ((o.orders.get r).side, t.price) ∈ [(Side.ask, t.price), (Side.bid, t.price)]
      cases (o.orders.get r).side
      · exact List.mem_cons_self
      · exact List.mem_cons_of_mem _ List.mem_cons_self
  | pending type unreported since_eq trade due' spared =>
    exact absurd (due ▸ due') List.not_mem_nil
  | fired type unreported since_eq spared sets reports_only mem =>
    exact absurd (fired ▸ mem) List.not_mem_nil
  | reported type once set notMem =>
    refine .reported (htype.trans_ne type) ?_ (set.snoc _) notMem
    rw [Transcript.reported_snoc_fill]
    exact once

/-- A stop-loss is activated, which may be this one. -/
theorem take (h : Life r st since) (hst : Tidy st) (hdue : (st.hand.due.map (·.1)).Nodup)
    (hlog : ∀ e ∈ since, e ∈ st.log) {side : Side} {price : Price} {i : Item}
    (due : (side, price) ∈ st.hand.due)
    (head : (st.desk.book.stopLossQueue side).headItem? = some i)
    (closed : (st.desk.order i.order).closed = false)
    (reached : (st.desk.order i.order).isReachedBy price = true) :
    Life r (st.put { st.desk.withoutDormant side with office := st.desk.office.activated i.order }
      { st.hand with fired := st.hand.fired ++ [i.order] }) since := by
  have hi := Queue.mem_bag_of_headItem? head
  obtain ⟨hside, hdormant, -⟩ := hst.sorted.dormant side i hi
  by_cases hr : i.order = r
  · subst hr
    cases h with
    | dormant type unreported notDue spared => exact absurd (hside ▸ due) (notDue price)
    | @pending before c t type unreported since_eq trade due' spared =>
      have hprice : t.price = price := eq_of_nodup_due hdue (hside ▸ due') due
      have hfollow : (c.after.get i.order).Follows (st.desk.order i.order) := by
        refine hst.custody.calls c (hlog _ ?_) i.order
        rw [since_eq]
        exact List.mem_append_right _ (List.mem_singleton_self _)
      have hspared := (spared (hst.accepted_of_dormant hi) closed).before hfollow
      refine .fired ?_ unreported since_eq hspared ⟨?_, t, trade, ?_⟩ rfl
        (List.mem_append_right _ (List.mem_singleton_self _))
      · show ((st.orders.modify i.order _).get i.order).type ≠ _
        rw [Orders.get_modify, if_pos rfl]
        exact Order.type_activateStopLoss
      · exact hfollow.not_closed closed
      · rw [← hfollow.reachedAt, hprice, ← Order.isReachedBy_iff]
        exact reached
    | fired type => exact absurd hdormant type
    | reported type => exact absurd hdormant type
  · have hfollow : st.orders.Follow (st.orders.modify i.order (·.activateStopLoss.2)) :=
      Orders.follow_modify Order.follows_activateStopLoss
    refine h.of_same ?_ rfl (hfollow r) ?_ fun _ hr => hr
    · show r ∈ st.hand.fired ++ [i.order] ↔ r ∈ st.hand.fired
      rw [List.mem_append, List.mem_singleton, or_iff_left fun heq => hr heq.symm]
    · show ((st.orders.modify i.order _).get r).type = (st.orders.get r).type
      rw [Orders.get_modify, if_neg hr]

/-- A side has been looked at. -/
theorem settle (h : Life r st since) (hst : Tidy st) (hdue : (st.hand.due.map (·.1)).Nodup)
    {side : Side} {price : Price} {rest : List (Side × Price)}
    (due : st.hand.due = (side, price) :: rest)
    (head : ∀ i, (st.desk.book.stopLossQueue side).headItem? = some i →
      (st.desk.order i.order).closed = false ∧ (st.desk.order i.order).isReachedBy price = false) :
    Life r (st.put st.desk { st.hand with due := rest }) since := by
  have hsub : ∀ x ∈ rest, x ∈ st.hand.due := fun x hx => due ▸ List.mem_cons_of_mem _ hx
  have hrest : ∀ p, (side, p) ∉ rest := by
    intro p hp
    rw [due] at hdue
    exact (List.nodup_cons.1 hdue).1 (List.mem_map_of_mem (f := (·.1)) hp)
  cases h with
  | dormant type unreported notDue spared =>
    exact .dormant type unreported (fun p hp => notDue p (hsub _ hp)) spared
  | @pending before c t type unreported since_eq trade due' spared =>
    by_cases hside : (st.desk.order r).side = side
    · have hprice : t.price = price :=
        eq_of_nodup_due hdue (hside ▸ due') (due ▸ List.mem_cons_self)
      refine .dormant type unreported (fun p => hside.symm ▸ hrest p) fun hr hc => ?_
      rw [since_eq]
      refine (spared hr hc).snoc ?_
      rintro _ t' ⟨⟩ ht'
      cases trade.symm.trans ht'
      rw [hprice]
      refine hst.spared_of_head hr type hc ?_
      exact fun i hi => (head i (hside ▸ hi)).2
    · refine .pending type unreported since_eq trade ?_ spared
      rw [due] at due'
      refine (List.mem_cons.1 due').resolve_left fun heq => hside (congrArg (·.1) heq)
  | fired type unreported since_eq spared sets reports_only mem =>
    exact .fired type unreported since_eq spared sets reports_only mem
  | reported type once set notMem => exact .reported type once set notMem

/-- A stop-loss is reported, which may be this one. -/
theorem promote (h : Life r st since) (hst : Tidy st) {r' : OrderRef} {rest : List OrderRef}
    {o : Office σ} {d : Desk (Recorded σ)} {os : Orders} (fired : st.hand.fired = r' :: rest)
    (due : st.hand.due = []) (hd : d.office.orders = o.orders)
    (hretain : st.orders.Retain o.orders) :
    Life r (st.put d { st.hand with fired := rest }) (since ++ [.triggered r' os]) := by
  have horder : d.order r = o.orders.get r := congrArg (·.get r) hd
  have htype : (d.order r).type = (st.desk.order r).type := horder ▸ hretain.type r
  have hfollow : (st.desk.order r).Follows (d.order r) := horder ▸ hretain.follow r
  have hactive : (st.desk.order r').type ≠ .stopLoss :=
    hst.sorted.fired r' (fired ▸ List.mem_cons_self)
  have hnodup := hst.nodup_fired
  rw [fired, List.nodup_cons] at hnodup
  have hunreported : r' ≠ r → r ∉ since.reported →
      r ∉ Transcript.reported (since ++ [.triggered r' os]) := by
    intro hr h
    rw [Transcript.reported_snoc_triggered, List.mem_append, List.mem_singleton]
    exact fun hmem => hmem.elim h fun heq => hr heq.symm
  cases h with
  | dormant type unreported notDue spared =>
    have hr : r' ≠ r := fun heq => hactive (heq ▸ type)
    refine .dormant (htype.trans type) (hunreported hr unreported) (fun p => ?_) fun hr hc => ?_
    · exact (due.symm ▸ List.not_mem_nil : _ ∉ st.hand.due)
    · exact ((spared hr (hfollow.not_closed hc)).of_follows hfollow).snoc fun _ _ => nofun
  | pending type unreported since_eq trade due' spared =>
    exact absurd (due ▸ due') List.not_mem_nil
  | @fired before reports c type unreported since_eq spared sets reports_only mem =>
    have hsince : since ++ [.triggered r' os] =
        before ++ .fill c :: (reports ++ [.triggered r' os]) := by
      rw [since_eq, List.append_assoc, List.cons_append]
    by_cases hr : r' = r
    · subst hr
      refine .reported (htype.trans_ne type) ?_ (.intro hsince spared sets reports_only) hnodup.1
      rw [Transcript.reported_snoc_triggered, List.count_append, List.count_eq_zero.2 unreported,
        List.count_singleton_self]
    · have hmem : r ∈ rest := (List.mem_cons.1 (fired ▸ mem)).resolve_left fun heq => hr heq.symm
      refine .fired (htype.trans_ne type) (hunreported hr unreported) hsince spared sets ?_ hmem
      unfold Transcript.fills at *
      rw [List.filterMap_append, reports_only]
      rfl
  | reported type once set notMem =>
    have hr : r' ≠ r := fun heq => notMem (fired ▸ heq ▸ List.mem_cons_self)
    refine .reported (htype.trans_ne type) ?_ (set.snoc _) fun hmem => notMem ?_
    · rw [Transcript.reported_snoc_triggered, List.count_append, once, List.count_singleton]
      simp [hr]
    · exact fired ▸ List.mem_cons_of_mem _ hmem

end Life

variable {old since : Transcript}

/-- A step lets the stop-loss live on, with the calls that it adds. -/
theorem Step.life (hS : S.Faithful) (hstep : Step S st st') (hst : Tidy st)
    (hdue : (st.hand.due.map (·.1)).Nodup) (hlog : st.log = old ++ since) (h : Life r st since) :
    ∃ since', st'.log = old ++ since' ∧ Life r st' since' := by
  have hsame : st'.log = st.log → st'.hand.fired = st.hand.fired → st'.hand.due = st.hand.due →
      ∃ since', st'.log = old ++ since' ∧ Life r st' since' := by
    intro hlog' hfired hdue'
    refine ⟨since, hlog'.trans hlog, h.of_same (hfired ▸ Iff.rfl) hdue' (hstep.follow hS r) ?_ ?_⟩
    · exact hst.type_eq hS hstep fun hr => hfired ▸ hr
    · exact fun _ hr => hstep.same.2.2 ▸ hr
  cases hstep with
  | beside h => exact hsame (congrArg (·.backend.transcript) h.office) rfl rfl
  | search clear searched => exact hsame (congrArg (·.backend.transcript) searched.office) rfl rfl
  | @fill c o out asked answered fired due =>
    refine ⟨since ++ [.fill c], ?_, h.fill answered fired due (hS.fill (answered ▸ asked.leads))⟩
    rw [← List.append_assoc, ← hlog]
    rfl
  | take due head closed reached =>
    refine ⟨since, hlog, h.take hst hdue (fun e he => ?_) due head closed reached⟩
    exact hlog ▸ List.mem_append_right _ he
  | settle due head => exact ⟨since, hlog, h.settle hst hdue due head⟩
  | @promote r' rest o fired due leads =>
    refine ⟨since ++ [.triggered r' st.orders], ?_, h.promote hst fired due rfl
      (hS.stopLossTriggered leads)⟩
    rw [← List.append_assoc, ← hlog]
    rfl
  | pop | restore | drop | rest | leave => exact hsame rfl rfl rfl

/-- Between two orders the stop-loss lives on. -/
theorem Turn.life (hturn : Turn st st') (hst : Tidy st) (h : Life r st since) :
    Life r st' since := by
  refine h.of_same ?_ ?_ (hturn.retain.follow r) (hturn.retain.type r) fun htype hr => ?_
  · cases hturn <;> exact Iff.rfl
  · cases hturn <;> rfl
  · cases hturn with
    | call waiting newcomer =>
      -- it is none of those who wait, since they are not dormant
      refine (List.mem_cons.1 hr).resolve_left fun heq => ?_
      exact hst.sorted.waiting r (heq ▸ waiting ▸ List.mem_cons_self) htype
    | giveUp | cancel | backend | enter => exact hr

/-- Another order comes in, and the stop-loss lives on. -/
theorem Receive.life {r' : OrderRef} (hreceive : Receive r' st st') (hr : r ≠ r')
    (h : Life r st since) : Life r st' since := by
  have horder : st'.desk.order r = st.desk.order r := congrArg (·.orders.get r) hreceive.office
  refine h.of_same ?_ ?_ (horder ▸ .refl _) (congrArg (·.type) horder) fun _ hmem => ?_
  · cases hreceive <;> exact Iff.rfl
  · cases hreceive <;> rfl
  · cases hreceive with
    | pass | park | take => exact (List.mem_cons.1 hmem).resolve_left hr
    | refuse | wait => exact hmem

/-- The life of a stop-loss begins when it comes in. -/
theorem Receive.life_begins (hreceive : Receive r st st') (hdue : st.hand.due = [])
    (htype : (st.desk.order r).type = .stopLoss) : Life r st' [] := by
  have horder : st'.desk.order r = st.desk.order r := congrArg (·.orders.get r) hreceive.office
  have hdue' : st'.hand.due = st.hand.due := by cases hreceive <;> rfl
  refine .dormant (horder ▸ htype) List.not_mem_nil (fun p => ?_) fun _ _ => .nil _
  rw [hdue', hdue]
  exact List.not_mem_nil

end Bourse
