import Bourse.Proofs.Floor.Moves
import Bourse.Proofs.Floor.Places
import Bourse.Proofs.Settlement.Faithful

/-!
# No order is lost or in two places

Settlement is any that fills and closes orders and changes nothing else of them. Two invariants are
carried through a run in which nothing breaks off: each order is where its side and type say
(`Sorted`), and nobody holds an order twice or has lost one that must stay (`Custody`). An order
must stay if it is open and settlement has never called it finished while it was (`Stays`); a
dormant stop-loss stays until it is closed. What a step discards need not stay
(`Discarded.not_stays`).

Between two moves nothing is in hand, so an order that stays is in exactly one of the four queues,
and its type tells in which (`Floor.orders_in_one_place`).
-/

namespace Bourse

open Bourse.Action Bourse.Desk

variable {σ : Type} {S : Settlement σ} {st st' : Stage σ} {r : OrderRef}

/-! ## What is left of orders and record -/

section

/-- Who waits and who was accepted does not change in a step. -/
theorem Step.same (h : Step S st st') : st'.waiting = st.waiting ∧ st'.brought = st.brought ∧
    st'.accepted = st.accepted := by
  cases h <;> exact ⟨rfl, rfl, rfl⟩

/-- A step fills and closes orders, or activates a dormant stop-loss that is not closed and takes
it in hand. -/
theorem Step.orders (hS : S.Faithful) (h : Step S st st') : st.orders.Retain st'.orders ∨
    ∃ side i, i ∈ (st.desk.book.stopLossQueue side).bag ∧ i.order ∈ st'.hand.fired ∧
      (st.desk.order i.order).closed = false ∧
      st'.orders = st.orders.modify i.order (·.activateStopLoss.2) := by
  cases h with
  | beside h => exact .inl (.of_eq (congrArg (·.orders) h.office))
  | search clear searched => exact .inl (.of_eq (congrArg (·.orders) searched.office))
  | fill asked answered fired due => exact .inl (hS.fill (answered ▸ asked.leads))
  | promote fired due leads => exact .inl (hS.stopLossTriggered leads)
  | @take side price i due head closed reached =>
    exact .inr ⟨side, i, Queue.mem_bag_of_headItem? head,
      List.mem_append_right _ (List.mem_singleton_self _), closed, rfl⟩
  | pop | restore | drop | settle | rest | leave => exact .inl (.refl _)

/-- A step fills and closes orders at most. -/
theorem Step.follow (hS : S.Faithful) (h : Step S st st') : st.orders.Follow st'.orders := by
  rcases h.orders hS with hretain | ⟨side, i, -, -, -, heq⟩
  · exact hretain.follow
  · rw [heq]
    exact Orders.follow_modify Order.follows_activateStopLoss

/-- A step changes the type of no order but one that it activates. -/
theorem Step.type_eq (hS : S.Faithful) (h : Step S st st') (r : OrderRef) :
    (st'.desk.order r).type = (st.desk.order r).type ∨
      r ∈ st'.hand.fired ∧ (st.desk.order r).closed = false ∧
        ∃ side i, i ∈ (st.desk.book.stopLossQueue side).bag ∧ i.order = r := by
  rcases h.orders hS with hretain | ⟨side, i, hi, hfired, hclosed, heq⟩
  · exact .inl (hretain.type r)
  · by_cases hr : i.order = r
    · subst hr
      exact .inr ⟨hfired, hclosed, side, i, hi, rfl⟩
    · refine .inl ?_
      show (st'.orders.get r).type = (st.orders.get r).type
      rw [heq, Orders.get_modify, if_neg hr]

/-- The record grows by at most one call. A fill that is added leaves the orders as they are
now. -/
theorem Step.log (h : Step S st st') : st'.log = st.log ∨
    ∃ e, st'.log = st.log ++ [e] ∧ ∀ c, e = .fill c → c.after = st'.orders := by
  cases h with
  | beside h => exact .inl (congrArg (·.backend.transcript) h.office)
  | search clear searched => exact .inl (congrArg (·.backend.transcript) searched.office)
  | @fill c o out asked answered fired due =>
    refine .inr ⟨.fill c, rfl, ?_⟩
    rintro _ ⟨⟩
    exact asked.after
  | promote fired due leads => exact .inr ⟨_, rfl, nofun⟩
  | pop | restore | drop | take | settle | rest | leave => exact .inl rfl

/-- A step only adds calls to the log. -/
theorem Step.log_prefix (h : Step S st st') : st.log <+: st'.log := by
  rcases h.log with heq | ⟨e, heq, -⟩
  · exact heq ▸ List.prefix_rfl
  · rw [heq]
    exact List.prefix_append _ _

/-- Between two orders one is closed at most. -/
theorem Turn.retain (h : Turn st st') : st.orders.Retain st'.orders := by
  cases h with
  | cancel => exact Orders.retain_close ..
  | call | giveUp | backend | enter => exact .refl _

theorem Turn.log (h : Turn st st') : st'.log = st.log := by cases h <;> rfl

/-- An order that comes in leaves all orders and the record as they are. -/
theorem Receive.office (h : Receive r st st') : st'.desk.office = st.desk.office := by
  cases h <;> rfl

theorem Receive.log (h : Receive r st st') : st'.log = st.log :=
  congrArg (·.backend.transcript) h.office

end

/-! ## Orders where they belong -/

/-- Each order is where its side and type say. Dormant stop-losses are ranked by the prices they
wait for. -/
structure Sorted (st : Stage σ) : Prop where
  kept : ∀ side i, st.Keeps side i →
    (st.desk.order i.order).side = side ∧ (st.desk.order i.order).type ≠ .stopLoss
  newcomer : ∀ n, st.hand.newcomer = some n →
    (st.desk.order n.order).side = n.side ∧ (st.desk.order n.order).type ≠ .stopLoss
  fired : ∀ r ∈ st.hand.fired, (st.desk.order r).type ≠ .stopLoss
  waiting : ∀ r ∈ st.waiting, (st.desk.order r).type ≠ .stopLoss
  dormant : ∀ side, ∀ i ∈ (st.desk.book.stopLossQueue side).bag,
    (st.desk.order i.order).side = side ∧ (st.desk.order i.order).type = .stopLoss ∧
      i.type = .stopLoss ∧ i.price = (st.desk.order i.order).price
  ordered : ∀ side, (st.desk.book.stopLossQueue side).Ordered (.ofStopLoss side)

/-- The order must not be lost: it is open, and settlement never called it finished while it was,
or it is a dormant stop-loss that is not closed. -/
def Stays (st : Stage σ) (r : OrderRef) : Prop :=
  ((st.desk.order r).isOpen = true ∧ ¬ st.log.Misreported r) ∨
    ((st.desk.order r).type = .stopLoss ∧ (st.desk.order r).closed = false)

/-- What must not be lost now had to stay before. -/
theorem Stays.of_follow (h : Stays st' r) (hfollow : st.orders.Follow st'.orders)
    (hlog : st.log <+: st'.log) : Stays st r := by
  have hr : (st.desk.order r).Follows (st'.desk.order r) := hfollow r
  rcases h with ⟨hopen, hmis⟩ | ⟨htype, hclosed⟩
  · exact .inl ⟨hr.isOpen hopen, fun h => hmis (h.mono hlog)⟩
  · refine .inr ⟨?_, hr.not_closed hclosed⟩
    rcases hr.type with ht | ⟨ht, -⟩
    · exact ht.symm.trans htype
    · exact ht

/-- An active order that is not open may go. -/
theorem not_stays_of_not_isOpen (hopen : (st.desk.order r).isOpen = false)
    (htype : (st.desk.order r).type ≠ .stopLoss) : ¬ Stays st r := by
  rintro (⟨h, -⟩ | ⟨h, -⟩)
  · exact Bool.false_ne_true (hopen.symm.trans h)
  · exact htype h

/-- A closed order may go. -/
theorem not_stays_of_closed (hclosed : (st.desk.order r).closed = true) : ¬ Stays st r := by
  rintro (⟨h, -⟩ | ⟨-, h⟩)
  · exact Bool.false_ne_true ((Order.isOpen_iff.1 h).1.symm.trans hclosed)
  · exact Bool.false_ne_true (h.symm.trans hclosed)

/-- What a step discards need not stay: settlement called it finished, so if it is open that was a
false report. -/
theorem Discarded.not_stays (h : Discarded st r) (hst : Sorted st)
    (hcalls : ∀ c, .fill c ∈ st.log → c.after.Follow st.orders) : ¬ Stays st r := by
  cases h with
  | @dropped side i kept order isOpen =>
    exact not_stays_of_not_isOpen isOpen (order ▸ (hst.kept side i kept).2)
  | @finished side i kept order finished =>
    rintro (⟨hopen, hmis⟩ | ⟨htype, -⟩)
    · obtain ⟨c, hc, hfinishes⟩ := finished
      exact hmis ⟨c, hc, hfinishes, (hcalls c hc r).isOpen hopen⟩
    · exact (order ▸ (hst.kept side i kept).2) htype
  | @left n newcomer order isOpen =>
    exact not_stays_of_not_isOpen isOpen (order ▸ (hst.newcomer n newcomer).2)
  | dormant closed => exact not_stays_of_closed closed

/-! ## Nothing lost, nothing twice -/

/-- Nobody holds an order twice, and none is lost that must stay. -/
structure Custody (st : Stage σ) : Prop where
  nodup : (st.held + (st.waiting : Multiset OrderRef)).Nodup
  accepted : ∀ r ∈ st.held, r ∈ st.accepted
  brought : ∀ r, r ∈ st.accepted ∨ r ∈ st.waiting → r ∈ st.brought
  present : ∀ r ∈ st.accepted, Stays st r → r ∈ st.held
  calls : ∀ c, .fill c ∈ st.log → c.after.Follow st.orders

namespace Custody

/-- Discarding orders that need not stay, while others wait and were accepted as before. -/
theorem of_gone (h : Custody st) {gone : Multiset OrderRef} (hheld : st.held = gone + st'.held)
    (hgone : ∀ r ∈ gone, ¬ Stays st r) (hwaiting : st'.waiting.Sublist st.waiting)
    (hbrought : st'.brought = st.brought) (haccepted : st'.accepted = st.accepted)
    (hfollow : st.orders.Follow st'.orders) (hlog : st.log <+: st'.log)
    (hcalls : ∀ c, .fill c ∈ st'.log → c.after.Follow st'.orders) : Custody st' where
  nodup := by
    refine Multiset.nodup_of_le (add_le_add ?_ ?_) h.nodup
    · rw [hheld]
      exact Multiset.le_add_left _ _
    · exact Multiset.coe_le.2 hwaiting.subperm
  accepted r hr := by
    rw [haccepted]
    exact h.accepted r (hheld ▸ Multiset.mem_add.2 (.inr hr))
  brought r hr := by
    rw [haccepted] at hr
    rw [hbrought]
    exact h.brought r (hr.imp_right fun hr => hwaiting.subset hr)
  present r hr hstays := by
    rw [haccepted] at hr
    have hstays := hstays.of_follow hfollow hlog
    rcases Multiset.mem_add.1 (hheld ▸ h.present r hr hstays) with hmem | hmem
    · exact absurd hstays (hgone r hmem)
    · exact hmem
  calls := hcalls

/-- A step takes nobody's order twice and loses none, one case for each kind of step. -/
theorem step (hS : S.Faithful) (hstep : Step S st st') (h : Custody st) (hst : Sorted st) :
    Custody st' := by
  obtain ⟨gone, hheld, hgone⟩ := hstep.held_eq
  obtain ⟨hwaiting, hbrought, haccepted⟩ := hstep.same
  refine h.of_gone hheld (fun r hr => (hgone r hr).not_stays hst h.calls)
    (hwaiting ▸ .refl _) hbrought haccepted (hstep.follow hS) hstep.log_prefix ?_
  intro c hc
  have hold : .fill c ∈ st.log → c.after.Follow st'.orders :=
    fun hc => (h.calls c hc).trans (hstep.follow hS)
  rcases hstep.log with heq | ⟨e, heq, he⟩
  · exact hold (heq ▸ hc)
  · rw [heq, List.mem_append, List.mem_singleton] at hc
    rcases hc with hc | hc
    · exact hold hc
    · rw [he c hc.symm]
      exact .refl _

/-- One more order is taken in, and accepted. It was not held, and may have waited. -/
theorem of_new (h : Custody st) (hheld : st'.held = r ::ₘ st.held)
    (hnodup : (st'.held + (st'.waiting : Multiset OrderRef)).Nodup)
    (hbrought : ∀ r', r' = r ∨ r' ∈ st.brought → r' ∈ st'.brought)
    (hwaiting : ∀ r' ∈ st'.waiting, r' ∈ st.waiting) (haccepted : st'.accepted = r :: st.accepted)
    (hr : r ∈ st'.brought) (horders : st'.orders = st.orders) (hlog : st'.log = st.log) :
    Custody st' where
  nodup := hnodup
  accepted r' hr' := by
    rw [haccepted]
    rcases Multiset.mem_cons.1 (hheld ▸ hr') with rfl | hr'
    · exact List.mem_cons_self
    · exact List.mem_cons_of_mem _ (h.accepted r' hr')
  brought r' hr' := by
    rw [haccepted] at hr'
    rcases hr' with hr' | hr'
    · rcases List.mem_cons.1 hr' with rfl | hr'
      · exact hr
      · exact hbrought r' (.inr (h.brought r' (.inl hr')))
    · exact hbrought r' (.inr (h.brought r' (.inr (hwaiting r' hr'))))
  present r' hr' hstays := by
    rw [haccepted] at hr'
    rw [hheld]
    rcases List.mem_cons.1 hr' with rfl | hr'
    · exact Multiset.mem_cons_self _ _
    · refine Multiset.mem_cons_of_mem (h.present r' hr' (hstays.of_follow ?_ ?_))
      · exact horders ▸ .refl _
      · exact hlog ▸ List.prefix_rfl
  calls c hc := by
    rw [hlog] at hc
    rw [horders]
    exact h.calls c hc

/-- The same orders are held, and who waits now waited before. -/
theorem of_held (h : Custody st) (hheld : st'.held = st.held)
    (hwaiting : st'.waiting.Sublist st.waiting) (hbrought : st'.brought = st.brought)
    (haccepted : st'.accepted = st.accepted) (hfollow : st.orders.Follow st'.orders)
    (hlog : st'.log = st.log) : Custody st' := by
  have hgone : st.held = 0 + st'.held := hheld ▸ (zero_add _).symm
  refine h.of_gone hgone (fun r hr => absurd hr (Multiset.notMem_zero r)) hwaiting
    hbrought haccepted hfollow (hlog ▸ List.prefix_rfl) fun c hc => ?_
  exact (h.calls c (hlog ▸ hc)).trans hfollow

/-- A turn keeps custody, one case for each kind of turn. -/
theorem turn (hturn : Turn st st') (h : Custody st) : Custody st' := by
  have hretain := hturn.retain
  cases hturn with
  | @call r rest waiting newcomer =>
    have hheld : Stage.held { st with
        hand := { st.hand with newcomer := some ⟨r, (st.desk.order r).side,
          (st.desk.order r).user⟩ }
        waiting := rest
        accepted := r :: st.accepted } = r ::ₘ st.held := Stage.held_of_newcomer newcomer ..
    have hmem : r ∈ st.waiting := waiting ▸ List.mem_cons_self
    refine h.of_new hheld ?_ (fun r' hr' => ?_) (fun r' hr' => ?_) rfl
      (h.brought r (.inr hmem)) rfl rfl
    · have hnodup := h.nodup
      rw [waiting, ← Multiset.cons_coe, Multiset.add_cons, ← Multiset.cons_add, ← hheld] at hnodup
      exact hnodup
    · rcases hr' with rfl | hr'
      · exact h.brought r' (.inr hmem)
      · exact hr'
    · exact waiting ▸ List.mem_cons_of_mem r hr'
  | giveUp sub => exact h.of_held rfl sub rfl rfl (.refl _) rfl
  | cancel => exact h.of_held rfl (.refl _) rfl rfl hretain.follow rfl
  | backend => exact h.of_held rfl (.refl _) rfl rfl (.refl _) rfl
  | enter => exact h.of_held rfl (.refl _) rfl rfl (.refl _) rfl

/-- A new order comes into custody. -/
theorem receive (hreceive : Receive r st st') (hfresh : r ∉ st.brought) (h : Custody st) :
    Custody st' := by
  have hnot : r ∉ st.held + (st.waiting : Multiset OrderRef) := by
    intro hr
    rcases Multiset.mem_add.1 hr with hr | hr
    · exact hfresh (h.brought r (.inl (h.accepted r hr)))
    · exact hfresh (h.brought r (.inr hr))
  have hmore : ∀ r', r' ∈ st.accepted ∨ r' ∈ st.waiting → r' ∈ r :: st.brought :=
    fun r' hr' => List.mem_cons_of_mem r (h.brought r' hr')
  cases hreceive with
  | refuse => exact ⟨h.nodup, h.accepted, hmore, h.present, h.calls⟩
  | pass closed =>
    refine ⟨h.nodup, fun r' hr' => List.mem_cons_of_mem r (h.accepted r' hr'), ?_, ?_, h.calls⟩
    · rintro r' (hr' | hr')
      · rcases List.mem_cons.1 hr' with rfl | hr'
        · exact List.mem_cons_self
        · exact hmore r' (.inl hr')
      · exact hmore r' (.inr hr')
    · intro r' hr' hstays
      rcases List.mem_cons.1 hr' with rfl | hr'
      · exact absurd hstays (not_stays_of_closed closed)
      · exact h.present r' hr' hstays
  | park closed dormant =>
    have hheld : Stage.held { st with
        desk := st.desk.parked r, brought := r :: st.brought, accepted := r :: st.accepted } =
        r ::ₘ st.held := by
      unfold Stage.held
      rw [stock_parked, Multiset.map_add, Multiset.map_singleton, ← Multiset.singleton_add]
      show ({r} : Multiset OrderRef) + _ + _ + _ + _ = _
      abel
    refine h.of_new hheld ?_ (fun r' => List.mem_cons.2)
      (fun r' hr' => hr') rfl List.mem_cons_self rfl rfl
    rw [hheld, Multiset.cons_add]
    exact Multiset.nodup_cons.2 ⟨hnot, h.nodup⟩
  | take active newcomer =>
    have hheld : Stage.held { st with
        hand := { st.hand with newcomer := some ⟨r, (st.desk.order r).side,
          (st.desk.order r).user⟩ }
        brought := r :: st.brought
        accepted := r :: st.accepted } = r ::ₘ st.held := Stage.held_of_newcomer newcomer ..
    refine h.of_new hheld ?_ (fun r' => List.mem_cons.2)
      (fun r' hr' => hr') rfl List.mem_cons_self rfl rfl
    rw [hheld, Multiset.cons_add]
    exact Multiset.nodup_cons.2 ⟨hnot, h.nodup⟩
  | wait active =>
    refine ⟨?_, h.accepted, ?_, h.present, h.calls⟩
    · show (st.held + ((st.waiting ++ [r] : List OrderRef) : Multiset OrderRef)).Nodup
      rw [← Multiset.coe_add, Multiset.coe_singleton, ← add_assoc, add_comm,
        Multiset.singleton_add]
      exact Multiset.nodup_cons.2 ⟨hnot, h.nodup⟩
    · rintro r' (hr' | hr')
      · exact hmore r' (.inl hr')
      · rcases List.mem_append.1 hr' with hr' | hr'
        · exact hmore r' (.inr hr')
        · exact List.mem_singleton.1 hr' ▸ List.mem_cons_self

/-- A dormant stop-loss is not in hand. -/
theorem not_fired (h : Custody st) {side : Side} {i : Item}
    (hi : i ∈ (st.desk.book.stopLossQueue side).bag) : i.order ∉ st.hand.fired := by
  intro hfired
  have hnodup := (Multiset.nodup_add.1 (Multiset.nodup_add.1 h.nodup).1).1
  have hdisjoint := (Multiset.nodup_add.1 hnodup).2.2
  have hstock : i.order ∈ st.desk.book.stock.map (·.order) :=
    Multiset.mem_map_of_mem _ (Book.mem_stock.2 ⟨side, .inr hi⟩)
  exact Multiset.disjoint_left.1 hdisjoint (Multiset.mem_add.2 (.inl hstock))
    (Multiset.mem_coe.2 hfired)

end Custody

namespace Sorted

/-- Orders may be filled, closed and activated, and what comes to a new place must belong there. -/
theorem of_follow (h : Sorted st) (hfollow : st.orders.Follow st'.orders)
    (hkept : ∀ side i, st'.Keeps side i → st.Keeps side i ∨
      (st.desk.order i.order).side = side ∧ (st.desk.order i.order).type ≠ .stopLoss)
    (hnewcomer : ∀ n, st'.hand.newcomer = some n → st.hand.newcomer = some n ∨
      (st.desk.order n.order).side = n.side ∧ (st.desk.order n.order).type ≠ .stopLoss)
    (hfired : ∀ r ∈ st'.hand.fired, r ∈ st.hand.fired ∨ (st'.desk.order r).type ≠ .stopLoss)
    (hwaiting : ∀ r ∈ st'.waiting, r ∈ st.waiting ∨ (st.desk.order r).type ≠ .stopLoss)
    (hdormant : ∀ side, ∀ i ∈ (st'.desk.book.stopLossQueue side).bag,
      i ∈ (st.desk.book.stopLossQueue side).bag ∧
        (st'.desk.order i.order).type = (st.desk.order i.order).type)
    (hordered : ∀ side, (st'.desk.book.stopLossQueue side).Ordered (.ofStopLoss side)) :
    Sorted st' where
  kept side i hi := by
    obtain ⟨hside, htype⟩ := (hkept side i hi).elim (h.kept side i) fun hi => hi
    exact ⟨(hfollow i.order).side.trans hside, (hfollow i.order).type_ne htype⟩
  newcomer n hn := by
    obtain ⟨hside, htype⟩ := (hnewcomer n hn).elim (h.newcomer n) fun hn => hn
    exact ⟨(hfollow n.order).side.trans hside, (hfollow n.order).type_ne htype⟩
  fired r hr := (hfired r hr).elim (fun hr => (hfollow r).type_ne (h.fired r hr)) fun hr => hr
  waiting r hr := (hfollow r).type_ne ((hwaiting r hr).elim (h.waiting r) fun hr => hr)
  dormant side i hi := by
    obtain ⟨hi, heq⟩ := hdormant side i hi
    obtain ⟨hside, htype, hitem, hprice⟩ := h.dormant side i hi
    exact ⟨(hfollow i.order).side.trans hside, heq.trans htype, hitem,
      hprice.trans (hfollow i.order).price.symm⟩
  ordered := hordered

/-- A step keeps the dormant stop-losses ranked. -/
theorem ordered_step (hstep : Step S st st')
    (h : ∀ side, (st.desk.book.stopLossQueue side).Ordered (.ofStopLoss side)) (side : Side) :
    (st'.desk.book.stopLossQueue side).Ordered (.ofStopLoss side) := by
  have hwithout : ∀ side', ((st.desk.withoutDormant side').book.stopLossQueue side).Ordered
      (.ofStopLoss side) := by
    intro side'
    by_cases hs : side' = side
    · subst hs
      rw [stopLossQueue_withoutDormant]
      exact (h side').dropHead
    · rw [stopLossQueue_withoutDormant_of_ne hs]
      exact h side
  cases hstep with
  | beside hd => exact hd.stopLossQueue side ▸ h side
  | search clear searched => exact searched.stopLossQueue side ▸ h side
  | fill asked answered fired due => exact h side
  | @pop side' i head finished =>
    exact (stopLossQueue_withoutHead st.desk side' st.desk.book.ledger side).symm ▸ h side
  | @restore side' items aside =>
    exact (stopLossQueue_withItems st.desk side' items side).symm ▸ h side
  | @drop side' i head closed => exact hwithout side'
  | @take side' price i due head closed reached => exact hwithout side'
  | settle due head => exact h side
  | @promote r rest o fired due leads =>
    exact (stopLossQueue_withItems (st.desk.called (.triggered r st.orders) o)
      (st.desk.order r).side [.ofOrder r (o.orders.get r)] side).symm ▸ h side
  | @rest n l newcomer => exact (stopLossQueue_rested st.desk n.side n.order l side).symm ▸ h side
  | leave newcomer finished => exact h side

/-- A step keeps each order where it belongs. -/
theorem step (hS : S.Faithful) (hstep : Step S st st') (h : Sorted st) (hst' : Custody st') :
    Sorted st' := by
  refine h.of_follow (hstep.follow hS) ?_ ?_ ?_ ?_ ?_ (ordered_step hstep h.ordered)
  · intro side i hi
    rcases hstep.keeps hi with hi | ⟨n, hn, rfl, hr⟩ | ⟨hfired, hside⟩
    · exact .inl hi
    · exact .inr (hr ▸ h.newcomer n hn)
    · exact .inr ⟨hside, h.fired _ hfired⟩
  · intro n hn
    cases hstep <;> first | exact .inl hn | cases hn
  · intro r hr
    cases hstep with
    | @take side price i due head closed reached =>
      refine (List.mem_append.1 hr).imp_right fun hr => ?_
      cases List.mem_singleton.1 hr
      show ((st.orders.modify i.order _).get i.order).type ≠ _
      rw [Orders.get_modify, if_pos rfl]
      exact Order.type_activateStopLoss
    | promote fired due leads => exact .inl (fired ▸ List.mem_cons_of_mem _ hr)
    | beside | search | fill | pop | restore | drop | settle | rest | leave => exact .inl hr
  · exact fun r hr => .inl (hstep.same.1 ▸ hr)
  · intro side i hi
    refine ⟨hstep.dormant hi, ?_⟩
    rcases hstep.type_eq hS i.order with heq | ⟨hfired, -⟩
    · exact heq
    · exact absurd hfired (hst'.not_fired hi)

/-- A turn keeps each order where it belongs. -/
theorem turn (hturn : Turn st st') (h : Sorted st) : Sorted st' := by
  have hretain := hturn.retain
  cases hturn with
  | @call r rest waiting newcomer =>
    have htype := h.waiting r (waiting ▸ List.mem_cons_self)
    refine h.of_follow (.refl _) (fun _ _ => .inl) ?_ (fun _ => .inl) (fun r' hr' => .inl ?_)
      (fun _ _ hi => ⟨hi, rfl⟩) h.ordered
    · rintro n ⟨⟩
      exact .inr ⟨rfl, htype⟩
    · exact waiting ▸ List.mem_cons_of_mem r hr'
  | giveUp sub =>
    exact ⟨h.kept, h.newcomer, h.fired, fun r hr => h.waiting r (sub.subset hr),
      h.dormant, h.ordered⟩
  | cancel =>
    exact h.of_follow hretain.follow (fun _ _ => .inl) (fun _ => .inl) (fun _ => .inl)
      (fun _ => .inl)
      (fun _ i hi => ⟨hi, hretain.type i.order⟩) h.ordered
  | backend => exact ⟨h.kept, h.newcomer, h.fired, h.waiting, h.dormant, h.ordered⟩
  | enter =>
    have hqueue : ∀ (p : Phase) (side : Side),
        ({ st.desk.book with phase := p } : Book).queue side = st.desk.book.queue side :=
      fun _ side => by cases side <;> rfl
    have hstop : ∀ (p : Phase) (side : Side),
      ({ st.desk.book with phase := p } : Book).stopLossQueue
        side = st.desk.book.stopLossQueue side := fun _ side => by cases side <;> rfl
    refine h.of_follow (.refl _) (fun side i hi => .inl ?_) (fun _ => .inl) (fun _ => .inl)
      (fun _ => .inl) (fun side i hi => ⟨hstop _ side ▸ hi, rfl⟩) fun side =>
      hstop _ side ▸ h.ordered side
    exact hi.imp_left fun hi => hqueue _ side ▸ hi

/-- An order that comes in goes where it belongs. -/
theorem receive (hreceive : Receive r st st') (h : Sorted st) : Sorted st' := by
  cases hreceive with
  | refuse => exact ⟨h.kept, h.newcomer, h.fired, h.waiting, h.dormant, h.ordered⟩
  | pass closed => exact ⟨h.kept, h.newcomer, h.fired, h.waiting, h.dormant, h.ordered⟩
  | park closed dormant =>
    refine ⟨fun side i hi => h.kept side i (hi.imp_left fun hi => ?_), h.newcomer,
      h.fired, h.waiting, fun side i hi => ?_, fun side => ?_⟩
    · exact (Book.queue_withStopLossQueue .. : (st.desk.parked r).book.queue side = _) ▸ hi
    · have hi : i ∈ ((st.desk.parked r).book.stopLossQueue side).bag := hi
      rw [stopLossQueue_parked] at hi
      split at hi
      · next hside =>
        rw [Queue.push, Queue.bag_pushItem, Multiset.mem_cons] at hi
        rcases hi with rfl | hi
        · exact ⟨hside, dormant, dormant, rfl⟩
        · exact h.dormant side i hi
      · exact h.dormant side i hi
    · show ((st.desk.parked r).book.stopLossQueue side).Ordered _
      rw [stopLossQueue_parked]
      split
      · exact (h.ordered side).pushItem _
      · exact h.ordered side
  | take active newcomer =>
    refine h.of_follow (.refl _) (fun _ _ => .inl) ?_ (fun _ => .inl) (fun _ => .inl)
      (fun _ _ hi => ⟨hi, rfl⟩) h.ordered
    rintro n ⟨⟩
    exact .inr ⟨rfl, active⟩
  | wait active =>
    refine ⟨h.kept, h.newcomer, h.fired, fun r' hr' => ?_, h.dormant, h.ordered⟩
    rcases List.mem_append.1 hr' with hr' | hr'
    · exact h.waiting r' hr'
    · exact List.mem_singleton.1 hr' ▸ active

end Sorted

/-! ## Over a whole run -/

/-- Every order is held once at most, none is lost that must stay, and each is where it belongs. -/
structure Tidy (st : Stage σ) : Prop where
  custody : Custody st
  sorted : Sorted st

namespace Tidy

/-- A step leaves all tidy. -/
theorem step (hS : S.Faithful) (hstep : Step S st st') (h : Tidy st) : Tidy st' := by
  have hcustody := h.custody.step hS hstep h.sorted
  exact ⟨hcustody, h.sorted.step hS hstep hcustody⟩

/-- A turn leaves all tidy. -/
theorem turn (hturn : Turn st st') (h : Tidy st) : Tidy st' :=
  ⟨h.custody.turn hturn, h.sorted.turn hturn⟩

/-- A new order leaves all tidy. -/
theorem receive (hreceive : Receive r st st') (hfresh : r ∉ st.brought) (h : Tidy st) : Tidy st' :=
  ⟨h.custody.receive hreceive hfresh, h.sorted.receive hreceive⟩

end Tidy

/-- How often an order is in a queue. -/
def Queue.times (q : Queue) (r : OrderRef) : Nat := (q.bag.map (·.order)).count r

namespace Book

/-- How often an order is in the four queues together. -/
def times (b : Book) (r : OrderRef) : Nat :=
  (b.queue .ask).times r + (b.queue .bid).times r + (b.stopLossQueue .ask).times r +
    (b.stopLossQueue .bid).times r

/-- How often a book holds an order is read off its stock. -/
theorem times_eq (b : Book) (r : OrderRef) : b.times r = (b.stock.map (·.order)).count r := by
  simp only [times, stock, Queue.times, Multiset.map_add, Multiset.count_add]

/-- The queue where an order belongs: among the stop-losses of its side as long as it is a dormant
one, among the resting orders of its side otherwise. -/
def home (b : Book) (o : Order) : Queue :=
  if o.type = .stopLoss then b.stopLossQueue o.side else b.queue o.side

/-- What is in its queue is nowhere else, if it is in one place at most. -/
theorem times_home {b : Book} {o : Order} (hone : b.times r ≤ 1)
    (hr : r ∈ (b.home o).bag.map (·.order)) : b.times r = 1 ∧ (b.home o).times r = 1 := by
  have hpos : 1 ≤ (b.home o).times r := Multiset.one_le_count_iff_mem.2 hr
  have hle : (b.home o).times r ≤ b.times r := by
    unfold home times
    split
    · cases o.side <;> omega
    · cases o.side <;> omega
  omega

end Book

/-- With nothing in hand, an order that must stay is in its queue. -/
theorem Tidy.mem_home (h : Tidy st) (hidle : st.hand = .idle) (hr : r ∈ st.accepted)
    (hstays : Stays st r) : r ∈ (st.desk.book.home (st.desk.order r)).bag.map (·.order) := by
  have hheld := h.custody.present r hr hstays
  rw [Stage.held_of_idle hidle] at hheld
  obtain ⟨i, hi, rfl⟩ := Multiset.mem_map.1 hheld
  obtain ⟨side, hi | hi⟩ := Book.mem_stock.1 hi
  · obtain ⟨hside, htype⟩ := h.sorted.kept side i (.inl hi)
    rw [Book.home, if_neg htype, hside]
    exact Multiset.mem_map_of_mem _ hi
  · obtain ⟨hside, htype, -⟩ := h.sorted.dormant side i hi
    rw [Book.home, if_pos htype, hside]
    exact Multiset.mem_map_of_mem _ hi

/-- A tidy book between two orders holds each once at most. -/
theorem Tidy.times_le_one (h : Tidy st) (hidle : st.hand = .idle) (r : OrderRef) :
    st.desk.book.times r ≤ 1 := by
  have hnodup := (Multiset.nodup_add.1 h.custody.nodup).1
  rw [Stage.held_of_idle hidle] at hnodup
  rw [Book.times_eq]
  exact Multiset.nodup_iff_count_le_one.1 hnodup r

namespace Floor

variable {i : Instrument} {history buffer : Nat} {os : Orders} {b : σ}

/-- A fresh book is tidy. -/
theorem tidy_opening : Tidy ((recording i history buffer os b).stage []) := by
  have hqueue : ∀ side, ((Book.new i history buffer).queue side).bag = 0 :=
    fun side => by cases side <;> rfl
  have hstop : ∀ side, ((Book.new i history buffer).stopLossQueue side).bag = 0 :=
    fun side => by cases side <;> rfl
  refine ⟨⟨Multiset.nodup_zero, fun r hr => absurd hr (Multiset.notMem_zero r), ?_, fun _ => nofun,
    fun _ => nofun⟩, ⟨fun side i hi => ?_, fun _ => nofun, fun _ => nofun, fun _ => nofun,
    fun side i hi => ?_, fun side => ?_⟩⟩
  · rintro r (hr | hr) <;> cases hr
  · exact absurd (hqueue side ▸ hi.resolve_right List.not_mem_nil) (Multiset.notMem_zero i)
  · exact absurd (hstop side ▸ hi) (Multiset.notMem_zero i)
  · cases side <;> exact Queue.ordered_empty

/-- A run in which nothing broke off leaves all tidy. -/
theorem tidy_recordedRun (hS : S.Faithful) {moves : List (Move σ)} (hnodup : (brought moves).Nodup)
    (hintact : (recordedRun S i history buffer os b moves).intact = true) :
    Tidy ((recordedRun S i history buffer os b moves).stage (brought moves).reverse) :=
  holds_run [] moves hnodup hintact tidy_opening Tidy.receive (Tidy.step hS) Tidy.turn

/-- Whatever settlement answers, if it fills and closes orders only: no order is lost and none is
in two places, as long as each is brought to the book once and nothing breaks off. An accepted
order is in one place at most of the four queues together. If it is open, and settlement never
called it finished while it left it open, it is in exactly one, and that is the queue where it
belongs. -/
theorem orders_in_one_place (S : Settlement σ) (hS : S.Faithful) (i : Instrument)
    (history buffer : Nat) (os : Orders) (b : σ) (moves : List (Move σ))
    (hnodup : (brought moves).Nodup)
    (hintact : ((opening i history buffer os b).run S moves).intact = true) (r : OrderRef)
    (hr : r ∈ ((opening i history buffer os b).run S moves).register.accepted) :
    let d := ((opening i history buffer os b).run S moves).state
    d.book.times r ≤ 1 ∧
      ((d.order r).isOpen = true → ¬ (transcript S i history buffer os b moves).Misreported r →
        d.book.times r = 1 ∧ (d.book.home (d.order r)).times r = 1) := by
  intro d
  have hseen : (recordedRun S i history buffer os b moves).seen Recorded.inner = _ :=
    run_recording moves
  rw [← hseen] at hintact hr
  have htidy := tidy_recordedRun hS hnodup hintact
  have hd : d = (recordedRun S i history buffer os b moves).state.seen Recorded.inner :=
    congrArg Floor.state hseen.symm
  rw [hd]
  have hone := htidy.times_le_one rfl r
  exact ⟨hone, fun hopen hmis => Book.times_home hone (htidy.mem_home rfl hr (.inl ⟨hopen, hmis⟩))⟩

/-- In the book of `ownCross` the first ask is set aside when the bid of its user comes in, and is
back in its queue afterwards. -/
theorem order_in_one_place_of_ownCross :
    let moves : List (Move Simulated) :=
      [.load .ask ⟨0⟩, .start, .submit .ask ⟨1⟩, .submit .bid ⟨2⟩]
    let f := (opening ⟨⟨0⟩, .ofUInt64 90⟩ 10 10 Session.ownCross .empty).run
      Simulated.settlement moves
    (Simulated.settlement.Faithful ∧ (brought moves).Nodup ∧ f.intact = true ∧
      ⟨0⟩ ∈ f.register.accepted) ∧
    ((f.state.order ⟨0⟩).isOpen = true ∧
      ¬ (transcript Simulated.settlement ⟨⟨0⟩, .ofUInt64 90⟩ 10 10
      Session.ownCross .empty moves).Misreported ⟨0⟩) ∧
    f.state.book.times ⟨0⟩ = 1 ∧ (f.state.book.home (f.state.order ⟨0⟩)).times ⟨0⟩ = 1 := by
  intro moves f
  have hintact : f.intact = true := by decide +kernel
  have hr : (⟨0⟩ : OrderRef) ∈ f.register.accepted := by decide +kernel
  have hopen : (f.state.order ⟨0⟩).isOpen = true := by decide +kernel
  have hpairs : (transcript Simulated.settlement ⟨⟨0⟩, .ofUInt64 90⟩ 10 10 Session.ownCross .empty
      moves).fills.map (fun c => (c.ask, c.bid)) = [(⟨1⟩, ⟨2⟩)] := by decide +kernel
  have hmis : ¬ (transcript Simulated.settlement ⟨⟨0⟩, .ofUInt64 90⟩ 10 10 Session.ownCross .empty
      moves).Misreported ⟨0⟩ := by
    rintro ⟨c, hc, ⟨out, -, hfinishes⟩, -⟩
    have hpair := List.mem_map_of_mem (f := fun c => (c.ask, c.bid)) (Transcript.mem_fills.2 hc)
    rw [hpairs, List.mem_singleton, Prod.mk.injEq] at hpair
    rcases hfinishes with ⟨heq, -⟩ | ⟨heq, -⟩
    · exact absurd (hpair.1.symm.trans heq) (by decide)
    · exact absurd (hpair.2.symm.trans heq) (by decide)
  refine ⟨⟨Simulated.faithful, by decide, hintact, hr⟩, ⟨hopen, hmis⟩, ?_⟩
  exact (orders_in_one_place Simulated.settlement Simulated.faithful _ _ _ _ _ moves
    (by decide) hintact ⟨0⟩ hr).2 hopen hmis

end Floor

end Bourse
