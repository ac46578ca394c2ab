import Bourse.Proofs.Floor.Moves
import Bourse.Proofs.Floor.Places
import Bourse.Proofs.Settlement.Faithful

/-!
# Only legal pairs reach settlement

Whatever settlement answers, as long as it leaves every order its side and its user, each pair that
it is asked to fill is legal (`FillCall.Legal`): an open ask and an open bid of different users
that cross, for the smaller of what they have left (`Floor.calls_legal`).

The sides of a pair come from the queues the orders are found in, so what is carried through a run
is that every resting order is on the side of its queue and that the order that comes in is on the
side and of the user it was taken in with (`Lawful`). The rest is checked just before the call, and
no order changes in between.
-/

namespace Bourse

open Bourse.Action Bourse.Desk

variable {σ : Type} {S : Settlement σ} {st st' : Stage σ}

/-- The pair of a call, as the orders were when it was made, may be filled. -/
structure FillCall.Legal (c : FillCall) : Prop where
  askSide : (c.before.get c.ask).side = .ask
  bidSide : (c.before.get c.bid).side = .bid
  users : (c.before.get c.ask).user ≠ (c.before.get c.bid).user
  askOpen : (c.before.get c.ask).isOpen = true
  bidOpen : (c.before.get c.bid).isOpen = true
  crosses : Bourse.crosses (c.before.get c.ask) (c.before.get c.bid) = true
  quantity : c.quantity = min (c.before.get c.ask).unfulfilled (c.before.get c.bid).unfulfilled
  positive : 0 < c.quantity.toNat

/-- Resting orders are on the side of their queue, the order that comes in is as it was taken in,
and every call so far was legal. -/
structure Lawful (st : Stage σ) : Prop where
  kept : ∀ side i, st.Keeps side i → (st.desk.order i.order).side = side
  newcomer : ∀ n, st.hand.newcomer = some n →
    (st.desk.order n.order).side = n.side ∧ (st.desk.order n.order).user = n.user
  legal : ∀ c, .fill c ∈ st.log → c.Legal

/-- A pair that settlement is asked to fill is legal. -/
theorem Asked.legal {c : FillCall} {o : Office σ} (h : Asked S st c o) (hst : Lawful st) :
    c.Legal := by
  have horder : ∀ r, st.desk.order r = c.before.get r := fun r => by rw [h.before]; rfl
  have hsides : (c.before.get c.ask).side = .ask ∧ (c.before.get c.bid).side = .bid ∧
      (c.before.get c.ask).user ≠ (c.before.get c.bid).user ∧
      (c.before.get c.ask).isOpen = true ∧ (c.before.get c.bid).isOpen = true := by
    rw [← horder, ← horder]
    generalize hask : c.ask = ask
    generalize hbid : c.bid = bid
    have hfacing := h.facing
    rw [hask, hbid] at hfacing
    cases hfacing with
    | @incoming n i newcomer isOpen head eligible =>
      obtain ⟨hside, huser⟩ := hst.newcomer n newcomer
      have hresting := hst.kept n.side.opposite i (.inl (Queue.mem_bag_of_headItem? head))
      have hne : n.user ≠ (st.desk.order i.order).user := fun heq => eligible.2 (congrArg some heq)
      obtain ⟨r, side, user⟩ := n
      cases side with
      | ask => exact ⟨hside, hresting, huser ▸ hne, isOpen, eligible.1⟩
      | bid => exact ⟨hresting, hside, huser ▸ hne.symm, eligible.1, isOpen⟩
    | @resting i j newcomer headAsk isOpen headBid eligible =>
      refine ⟨?_, ?_, ?_, isOpen, eligible.1⟩
      · exact hst.kept .ask i (.inl (Queue.mem_bag_of_headItem? headAsk))
      · exact hst.kept .bid j (.inl (Queue.mem_bag_of_headItem? headBid))
      · exact fun heq => eligible.2 (congrArg some heq)
  obtain ⟨haskSide, hbidSide, hne, hask, hbid⟩ := hsides
  have hquantity := h.quantity
  rw [horder, horder] at hquantity
  refine ⟨haskSide, hbidSide, hne, hask, hbid, ?_, hquantity, ?_⟩
  · rw [← horder, ← horder]
    exact h.crosses
  · rw [hquantity, Quantity.toNat_min]
    have haskPos := (Order.isOpen_iff.1 hask).2
    have hbidPos := (Order.isOpen_iff.1 hbid).2
    omega

namespace Lawful

/-- What changes no side and no user, and adds resting orders to queues of their side only. -/
theorem of_same (h : Lawful st) (hparties : st.orders.SameParties st'.orders)
    (hkept : ∀ side i, st'.Keeps side i → st.Keeps side i ∨ (st.desk.order i.order).side = side)
    (hnewcomer : ∀ n, st'.hand.newcomer = some n → st.hand.newcomer = some n ∨
      (st.desk.order n.order).side = n.side ∧ (st.desk.order n.order).user = n.user)
    (hlog : ∀ c, .fill c ∈ st'.log → .fill c ∈ st.log ∨ c.Legal) : Lawful st' where
  kept side i hi :=
    (hparties i.order).1.trans ((hkept side i hi).elim (h.kept side i) fun hside => hside)
  newcomer n hn := by
    obtain ⟨hside, huser⟩ := (hnewcomer n hn).elim (h.newcomer n) fun hn => hn
    exact ⟨(hparties n.order).1.trans hside, (hparties n.order).2.trans huser⟩
  legal c hc := (hlog c hc).elim (h.legal c) fun hc => hc

/-- One more call in the record is legal, if it is a fill. -/
theorem or_legal {log : Transcript} {e : Entry} (he : ∀ c, e = .fill c → c.Legal) (c : FillCall)
    (hc : .fill c ∈ log ++ [e]) : .fill c ∈ log ∨ c.Legal := by
  rcases List.mem_append.1 hc with hc | hc
  · exact .inl hc
  · exact .inr (he c (List.mem_singleton.1 hc).symm)

/-- A step leaves all lawful, one case for each kind of step. -/
theorem step (hS : S.KeepsParties) (hstep : Step S st st') (h : Lawful st) : Lawful st' := by
  have hkept : ∀ side i, st'.Keeps side i → st.Keeps side i ∨
      (st.desk.order i.order).side = side := by
    intro side i hi
    rcases hstep.keeps hi with hi | ⟨n, hn, rfl, hr⟩ | ⟨-, hside⟩
    · exact .inl hi
    · exact .inr (hr ▸ (h.newcomer n hn).1)
    · exact .inr hside
  cases hstep with
  | beside hd =>
    refine h.of_same (.of_eq (congrArg (·.orders) hd.office)) hkept (fun _ => .inl)
      fun c hc => .inl ?_
    exact (congrArg (·.backend.transcript) hd.office : _ = st.log) ▸ hc
  | search clear searched =>
    refine h.of_same (.of_eq (congrArg (·.orders) searched.office)) hkept (fun _ => .inl)
      fun c hc => .inl ?_
    exact (congrArg (·.backend.transcript) searched.office : _ = st.log) ▸ hc
  | fill asked answered fired due =>
    refine h.of_same (hS.fill asked.leads) hkept (fun _ => .inl) (or_legal ?_)
    rintro c ⟨⟩
    exact asked.legal h
  | pop head finished => exact h.of_same (.refl _) hkept (fun _ => .inl) fun _ => .inl
  | restore aside => exact h.of_same (.refl _) hkept (fun _ => .inl) fun _ => .inl
  | drop head closed => exact h.of_same (.refl _) hkept (fun _ => .inl) fun _ => .inl
  | @take side price i due head closed reached =>
    have hfollow : st.orders.Follow (st.orders.modify i.order (·.activateStopLoss.2)) :=
      Orders.follow_modify Order.follows_activateStopLoss
    exact h.of_same hfollow.sameParties hkept (fun _ => .inl) fun _ => .inl
  | settle due head => exact h.of_same (.refl _) hkept (fun _ => .inl) fun _ => .inl
  | promote fired due leads =>
    exact h.of_same (hS.stopLossTriggered leads) hkept (fun _ => .inl) (or_legal nofun)
  | rest newcomer => exact h.of_same (.refl _) hkept (fun _ => nofun) fun _ => .inl
  | leave newcomer finished => exact h.of_same (.refl _) hkept (fun _ => nofun) fun _ => .inl

/-- A turn leaves all lawful. -/
theorem turn (hturn : Turn st st') (h : Lawful st) : Lawful st' := by
  cases hturn with
  | call waiting newcomer =>
    refine h.of_same (.refl _) (fun _ _ => .inl) ?_ fun _ => .inl
    rintro n ⟨⟩
    exact .inr ⟨rfl, rfl⟩
  | giveUp sub => exact ⟨h.kept, h.newcomer, h.legal⟩
  | @cancel r =>
    have hfollow : st.orders.Follow (st.orders.modify r Order.close) :=
      Orders.follow_modify Order.follows_close
    exact h.of_same hfollow.sameParties (fun _ _ => .inl) (fun _ => .inl) fun _ => .inl
  | backend => exact ⟨h.kept, h.newcomer, h.legal⟩
  | enter =>
    refine h.of_same (.refl _) (fun side i hi => .inl (hi.imp_left fun hi => ?_)) (fun _ => .inl)
      fun _ => .inl
    cases side <;> exact hi

/-- An order that comes in leaves all lawful. -/
theorem receive {r : OrderRef} (hreceive : Receive r st st') (h : Lawful st) : Lawful st' := by
  cases hreceive with
  | refuse => exact ⟨h.kept, h.newcomer, h.legal⟩
  | pass closed => exact ⟨h.kept, h.newcomer, h.legal⟩
  | park closed dormant =>
    refine h.of_same (.refl _) (fun side i hi => .inl (hi.imp_left fun hi => ?_)) (fun _ => .inl)
      fun _ => .inl
    exact (Book.queue_withStopLossQueue .. : (st.desk.parked r).book.queue side = _) ▸ hi
  | take active newcomer =>
    refine h.of_same (.refl _) (fun _ _ => .inl) ?_ fun _ => .inl
    rintro n ⟨⟩
    exact .inr ⟨rfl, rfl⟩
  | wait active => exact ⟨h.kept, h.newcomer, h.legal⟩

/-- Where settlement breaks off all is lawful. -/
theorem collapse (hS : S.KeepsParties) (hfall : Collapse S st st') (h : Lawful st) :
    Lawful st' := by
  obtain ⟨hbreak, waiting, brought, accepted⟩ := hfall
  cases hbreak with
  | beside hd =>
    refine h.of_same (.of_eq (congrArg (·.orders) hd.office)) ?_ (fun _ => nofun)
      fun c hc => .inl ?_
    · exact fun side i hi => .inl (.inl (hd.queue side ▸ hi.resolve_right List.not_mem_nil))
    · exact (congrArg (·.backend.transcript) hd.office : _ = st.log) ▸ hc
  | fill asked broken =>
    refine h.of_same (hS.fill asked.leads) ?_ (fun _ => nofun) (or_legal ?_)
    · exact fun side i hi => .inl (.inl (hi.resolve_right List.not_mem_nil))
    · rintro c ⟨⟩
      exact asked.legal h
  | promote leads =>
    refine h.of_same (hS.stopLossTriggered leads) ?_ (fun _ => nofun) (or_legal nofun)
    exact fun side i hi => .inl (.inl (hi.resolve_right List.not_mem_nil))

end Lawful

namespace Floor

variable {i : Instrument} {history buffer : Nat} {os : Orders} {b : σ}

/-- A run leaves all lawful, whether it broke off or not. -/
theorem lawful_recordedRun (hS : S.KeepsParties) (moves : List (Move σ)) :
    Lawful ((recordedRun S i history buffer os b moves).stage (brought moves).reverse) := by
  induction moves using List.reverseRecOn with
  | nil =>
    refine ⟨fun side i hi => ?_, fun _ => nofun, fun _ => nofun⟩
    cases side <;> exact absurd (hi.resolve_right List.not_mem_nil) (Multiset.notMem_zero _)
  | append_singleton moves m ih =>
    rw [recordedRun_append, reverse_brought_append]
    exact holds_apply ih (fun _ h => ih.receive h) (.step hS) .turn fun _ => .collapse hS

/-- Whatever settlement answers, if it leaves every order its side and its user: each pair that it
is ever asked to fill is an open ask and an open bid of different users that cross, for the smaller
of what they have left, which is not nothing. Nothing is supposed of the moves, and what breaks off
is no exception. -/
theorem calls_legal (S : Settlement σ) (hS : S.KeepsParties) (i : Instrument)
    (history buffer : Nat) (os : Orders) (b : σ) (moves : List (Move σ)) (c : FillCall)
    (hc : .fill c ∈ transcript S i history buffer os b moves) : c.Legal :=
  (lawful_recordedRun hS moves).legal c hc

/-- In the book of `ownCross` the bid of the first user meets the ask of the second. -/
theorem call_legal_of_ownCross :
    let moves : List (Move Simulated) :=
      [.load .ask ⟨0⟩, .start, .submit .ask ⟨1⟩, .submit .bid ⟨2⟩]
    Simulated.settlement.KeepsParties ∧ ∃ c : FillCall,
      .fill c ∈ transcript Simulated.settlement ⟨⟨0⟩, .ofUInt64 90⟩ 10 10 Session.ownCross .empty
        moves ∧ (c.ask, c.bid) = (⟨1⟩, ⟨2⟩) ∧ c.Legal := by
  intro moves
  refine ⟨Simulated.keepsParties, ?_⟩
  have hpairs : (transcript Simulated.settlement ⟨⟨0⟩, .ofUInt64 90⟩ 10 10 Session.ownCross .empty
      moves).fills.map (fun c => (c.ask, c.bid)) = [(⟨1⟩, ⟨2⟩)] := by decide +kernel
  obtain ⟨c, hc, hpair⟩ := List.mem_map.1 (hpairs ▸ List.mem_singleton_self _)
  have hc := Transcript.mem_fills.1 hc
  exact ⟨c, hc, hpair, calls_legal Simulated.settlement Simulated.keepsParties
    _ _ _ _ _ moves c hc⟩

end Floor

end Bourse
