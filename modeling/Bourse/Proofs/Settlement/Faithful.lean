import Bourse.Proofs.Ends
import Bourse.Proofs.Order
import Bourse.Settlement.Scripted

/-!
# What settlement may do to orders

A settlement is `Faithful` if it fills and closes orders but changes nothing else of them, takes no
fill back and opens none again (`Orders.Retain`), wherever it answers. It `KeepsParties` if it
leaves every order at least its side and its user, also where it breaks off. Simulated settlement
is both, and scripted settlement is faithful whatever the script.
-/

namespace Bourse

open Bourse.Action

variable {σ : Type}

namespace Orders

variable {os os' os'' : Orders} {r : OrderRef} {f : Order → Order}

/-- Every order is on the same side and of the same user in both tables. -/
def SameParties (os os' : Orders) : Prop :=
  ∀ r, (os'.get r).side = (os.get r).side ∧ (os'.get r).user = (os.get r).user

theorem SameParties.refl (os : Orders) : SameParties os os := fun _ => ⟨rfl, rfl⟩

theorem SameParties.of_eq (h : os' = os) : SameParties os os' := h ▸ .refl _

/-- Filling and closing leaves the parties. -/
theorem Follow.sameParties (h : os.Follow os') : SameParties os os' :=
  fun r => ⟨(h r).side, (h r).user⟩

/-- From the first table to the second, orders were filled and closed, and not changed
otherwise. -/
structure Retain (os os' : Orders) : Prop where
  follow : os.Follow os'
  type : ∀ r, (os'.get r).type = (os.get r).type

theorem Retain.refl (os : Orders) : Retain os os := ⟨.refl os, fun _ => rfl⟩

theorem Retain.of_eq (h : os' = os) : Retain os os' := h ▸ .refl _

theorem Retain.trans (h : os.Retain os') (h' : os'.Retain os'') : os.Retain os'' :=
  ⟨h.follow.trans h'.follow, fun r => (h'.type r).trans (h.type r)⟩

/-- Changing one order to a later one of its type fills and closes orders only. -/
theorem retain_modify (hf : (os.get r).Follows (f (os.get r)))
    (ht : (f (os.get r)).type = (os.get r).type) : os.Retain (os.modify r f) := by
  refine ⟨follow_modify hf, ?_⟩
  intro r'
  rw [get_modify]
  split
  · next heq => exact heq ▸ ht
  · rfl

/-- Closing one order fills and closes orders only. -/
theorem retain_close (os : Orders) (r : OrderRef) : os.Retain (os.modify r Order.close) :=
  retain_modify Order.follows_close rfl

end Orders

namespace Settlement

/-- Where settlement answers, orders were filled and closed, and not changed otherwise. -/
structure Faithful (S : Settlement σ) : Prop where
  fill : ∀ {ask bid : OrderRef} {price : Price} {q : Quantity} {o o' : Office σ}
    {out : FillOutcome}, (S.fill ask bid price q).Leads o (some out) o' → o.orders.Retain o'.orders
  stopLossTriggered : ∀ {r : OrderRef} {o o' : Office σ},
    (S.stopLossTriggered r).Leads o (some ()) o' → o.orders.Retain o'.orders

/-- Settlement leaves every order its side and its user, also where it breaks off. -/
structure KeepsParties (S : Settlement σ) : Prop where
  fill : ∀ {ask bid : OrderRef} {price : Price} {q : Quantity} {o o' : Office σ}
    {answer : Option FillOutcome}, (S.fill ask bid price q).Leads o answer o' →
    o.orders.SameParties o'.orders
  stopLossTriggered : ∀ {r : OrderRef} {o o' : Office σ} {answer : Option Unit},
    (S.stopLossTriggered r).Leads o answer o' → o.orders.SameParties o'.orders

end Settlement

/-! ## Actions that keep to it -/

namespace Office

variable {α β : Type} {act : Action (Office σ) α}

/-- The action fills and closes orders, and does nothing else to them, also if it breaks off. -/
def Retains (act : Action (Office σ) α) : Prop :=
  ∀ s, Ends act s (fun _ t => s.state.orders.Retain t.state.orders)
    (fun _ t => s.state.orders.Retain t.state.orders)

/-- Actions in sequence fill and close orders only if their parts do. -/
theorem Retains.bind {next : α → Action (Office σ) β} (h : Retains act)
    (hnext : ∀ a, Retains (next a)) : Retains (act >>= next) := fun s =>
  (h s).bind fun a t ht => (hnext a t).mono (fun _ _ hu => ht.trans hu) fun _ _ hu => ht.trans hu

/-- Where the action leads orders were filled and closed only. -/
theorem Retains.of_leads {o o' : Office σ} {answer : Option α} (h : Retains act)
    (hl : act.Leads o answer o') : o.orders.Retain o'.orders :=
  hl.of_ends (P := fun _ u => o.orders.Retain u.orders) fun j => h ⟨o, j⟩

/-- An answer changes no order. -/
theorem retains_pure (a : α) : Retains (pure a : Action (Office σ) α) := fun _ => .refl _

/-- A look at the office changes no order. -/
theorem retains_current : Retains (Action.current : Action (Office σ) (Office σ)) :=
  fun _ => .refl _

/-- Closing an order does nothing else. -/
theorem retains_close (r : OrderRef) :
    Retains (onOrders (Action.change (·.modify r Order.close)) : Action (Office σ) Unit) :=
  fun s => s.state.orders.retain_close r

/-- What only the backend is changed by leaves the orders as they are. -/
theorem retains_onBackend (act : Action σ α) : Retains (onBackend act) := by
  intro s
  rw [onBackend, ends_within]
  exact (Ends.any act _).mono (fun _ _ _ => .refl _) fun _ _ _ => .refl _

/-- What a part of the backend keeps to, the whole keeps to. -/
theorem Retains.withinBackend {τ : Type} (part : τ → σ) (put : σ → τ → τ) (h : Retains act) :
    Retains (Office.withinBackend part put act) := by
  intro s
  rw [Office.withinBackend, ends_within]
  exact h ⟨⟨s.state.orders, part s.state.backend⟩, s.journal⟩

/-- A cancellation closes an order at most. -/
theorem retains_cancel (r : OrderRef) :
    Retains (onOrders (Orders.cancel r) : Action (Office σ) _) := by
  intro s
  simp only [onOrders, ends_within, Orders.cancel, ends_bind, ends_current]
  split
  · exact .refl _
  · exact s.state.orders.retain_close r

end Office

/-! ## Simulated settlement -/

/-- A fill that is carried out was asked for no more than is left. -/
theorem Order.le_of_fill {o o' : Order} {q : Quantity} (h : o.fill q = .ok o') :
    q.toNat ≤ o.unfulfilled.toNat := by
  by_contra hle
  rw [fill, if_neg (fun h => hle (Quantity.le_def.1 h))] at h
  cases h

namespace Simulated

open Office

/-- Filling an order does nothing else. -/
theorem retains_fillOrder (r : OrderRef) (q : Quantity) : Retains (fillOrder r q) := by
  intro s
  simp only [fillOrder, ends_bind, ends_current, ends_ofExcept, ends_replace]
  cases hfill : (s.state.orders.get r).fill q with
  | error f => exact .refl _
  | ok o =>
    have hle := Order.le_of_fill hfill
    rw [Order.fill_eq hle] at hfill
    cases hfill
    exact Orders.retain_modify (f := (·.filled q)) (Order.follows_filled hle) rfl

/-- A trade fills two orders. -/
theorem retains_trade (ask bid : OrderRef) (price : Price) (q : Quantity) :
    Retains (trade ask bid price q) :=
  (retains_fillOrder ask q).bind fun _ => (retains_fillOrder bid q).bind fun _ _ => .refl _

/-- The orders of users who cannot settle are closed. -/
theorem retains_closeRejected (ask bid : OrderRef) (askRejected bidRejected : Bool) :
    Retains (closeRejected ask bid askRejected bidRejected) := by
  unfold closeRejected
  cases askRejected <;> cases bidRejected
  · exact retains_pure _
  · exact (retains_close bid).bind fun _ => retains_pure _
  · exact (retains_close ask).bind fun _ => retains_pure _
  · exact (retains_close ask).bind fun _ => (retains_close bid).bind fun _ => retains_pure _

/-- Settling a pair fills and closes orders only. -/
theorem retains_settle (ask bid : OrderRef) (price : Price) (q : Quantity) :
    Retains (settle ask bid price q) := by
  refine retains_current.bind fun o => ?_
  simp only
  split
  · exact retains_pure _
  · exact retains_pure _
  · exact retains_pure _
  · split
    · exact retains_closeRejected _ _ _ _
    · exact retains_trade _ _ _ _

/-- Noting a stop-loss changes no order. -/
theorem retains_noteStopLoss (r : OrderRef) : Retains (noteStopLoss r) := fun _ => .refl _

/-- Simulated settlement fills and closes orders only. -/
theorem faithful : settlement.Faithful where
  fill := Retains.of_leads (retains_settle _ _ _ _)
  stopLossTriggered := Retains.of_leads (retains_noteStopLoss _)

/-- Simulated settlement leaves every order its side and its user. -/
theorem keepsParties : settlement.KeepsParties where
  fill h := (Retains.of_leads (retains_settle _ _ _ _) h).follow.sameParties
  stopLossTriggered h := (Retains.of_leads (retains_noteStopLoss _) h).follow.sameParties

end Simulated

/-! ## Scripted settlement -/

namespace Scripted

open Office

/-- What is simulated fills and closes orders only. -/
theorem retains_simulate (i : InstrumentId) (ask bid : OrderRef) (price : Price) (q : Quantity) :
    Retains (simulate i ask bid price q) :=
  retains_current.bind fun _ => (retains_onBackend _).bind fun _ =>
    (Simulated.retains_settle ask bid price q).withinBackend _ _

/-- What the script says of one side fills and closes orders only. -/
theorem retains_applySide (r : OrderRef) (side : ScriptedSide) : Retains (applySide r side) := by
  have hclose : Retains (if side.close then onOrders (Action.change (·.modify r Order.close))
      else pure () : Action (Office Scripted) Unit) := by
    split
    · exact retains_close r
    · exact retains_pure _
  unfold applySide
  cases side.fill with
  | none => exact hclose
  | some q => exact ((Simulated.retains_fillOrder r q).withinBackend _ _).bind fun _ => hclose

/-- What the script says fills and closes orders only. -/
theorem retains_follow (d : Directive) (i : InstrumentId) (ask bid : OrderRef) (price : Price)
    (q : Quantity) : Retains (follow d i ask bid price q) := by
  cases d with
  | simulate => exact retains_simulate i ask bid price q
  | cancelFirst cancelAsk cancelBid =>
    have hsimulate := retains_simulate i ask bid price q
    cases cancelAsk <;> cases cancelBid
    · exact hsimulate
    · exact (retains_cancel bid).bind fun _ => hsimulate
    · exact (retains_cancel ask).bind fun _ => hsimulate
    · exact (retains_cancel ask).bind fun _ => (retains_cancel bid).bind fun _ => hsimulate
  | crash => exact fun _ => .refl _
  | answer askSide bidSide trade =>
    exact (retains_applySide ask askSide).bind fun _ =>
      (retains_applySide bid bidSide).bind fun _ =>
      retains_current.bind fun _ => retains_pure _

/-- Scripted settlement fills and closes orders only, whatever the script. -/
theorem faithful : settlement.Faithful where
  fill := Retains.of_leads <| retains_current.bind fun _ => (retains_onBackend _).bind fun d =>
    (retains_follow d _ _ _ _ _).bind fun outcome => by
      cases outcome.trade with
      | none => exact retains_pure _
      | some _ => exact (retains_onBackend _).bind fun _ => retains_pure _
  stopLossTriggered := Retains.of_leads <|
    ((Simulated.retains_noteStopLoss _).withinBackend _ _).bind fun _ =>
      retains_current.bind fun _ => retains_onBackend _

end Scripted

end Bourse
