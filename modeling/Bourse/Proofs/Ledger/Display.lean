import Bourse.Proofs.Ledger
import Bourse.Proofs.Order
import Mathlib.Data.List.Infix

/-!
# A ledger in use

A `Display` is a ledger with the market depth that it alone feeds, under a sequence of
`LedgerCall`s, and beside a table of orders that others change as they like. An order is shown as
it is when it is shown, and what is taken off later is taken off what was shown, whatever has
become of the order.

So the ledger and market depth agree after every call (`Display.levels_agree`), as long as no level
reaches 2⁶³.
-/

namespace Bourse

/-- What is done to a ledger, to its market depth, or to the orders it shows. -/
inductive LedgerCall where
  /-- An order is shown as it is now. -/
  | add (r : OrderRef)
  /-- A traded quantity is taken off an order. -/
  | reduce (id : OrderId) (q : Quantity)
  /-- Whatever an order still shows is taken off. -/
  | withdraw (id : OrderId)
  /-- A trade is reported. -/
  | recordTrade (t : Trade)
  /-- The changes of market depth are taken by a subscriber. -/
  | takeUpdate
  /-- Orders are filled, closed, activated, or changed in any other way. -/
  | change (orders : Orders)

/-- A ledger in use. -/
structure Display where
  /-- The orders as they are now. -/
  orders : Orders
  ledger : Ledger

/-- No level was dropped by a close of more than it held. -/
def NoUnderflow (journal : Array Event) : Prop :=
  ∀ i s p q held, Event.levelUnderflow i s p q held ∉ journal

namespace Ledger

open Bourse.Action

variable {s : Logged Ledger} {id : OrderId} {q : Quantity} {e : Shown}

/-- All entries are positive still when an order is added. -/
theorem positive_added {l : Ledger} (h : ∀ e ∈ l.shown, 0 < e.quantity.toNat) (o : Order) :
    ∀ e ∈ added o l, 0 < e.quantity.toNat := by
  unfold added
  split
  · next hnew =>
    rw [Bool.and_eq_true, Order.isOpen_iff] at hnew
    rintro e he
    rcases List.mem_cons.1 he with rfl | he
    · exact hnew.1.2
    · exact h e he
  · exact h

/-- All entries are positive still when one is reduced. -/
theorem positive_reduced {l : Ledger} (hd : (l.shown.map (·.id)).Nodup)
    (h : ∀ e ∈ l.shown, 0 < e.quantity.toNat) :
    ∀ e ∈ reduced id q l, 0 < e.quantity.toNat := by
  intro e he
  obtain ⟨he, -⟩ | ⟨e', -, -, hlt, rfl⟩ := (mem_reduced hd).1 he
  · exact h e he
  · rw [Quantity.toNat_monus]
    omega

/-- A subscriber that takes the changes keeps the balance: the next are counted from the levels of
now. -/
theorem Balanced.takeUpdate {l : Ledger} (h : l.Balanced)
    (hfit : ∀ side p, shownAt l.shown side p < 2 ^ 63) :
    Balanced { l with depth := l.depth.takeUpdate.2 } := by
  refine ⟨h.distinct, fun side p => ?_, shownAt l.shown, fun side p => ⟨hfit side p, ?_⟩⟩
  · cases side with
    | ask => exact h.held .ask p
    | bid => exact h.held .bid p
  · rw [sub_self]
    cases side <;> rfl

/-- A reduction drops no level that holds less. -/
theorem noUnderflow_reducedJournal {l : Ledger} {journal : Array Event} (h : NoUnderflow journal) :
    NoUnderflow (reducedJournal id q l journal) := by
  unfold reducedJournal
  split
  · exact h
  · split
    · exact h
    · intro i s p q held hmem
      rcases Array.mem_push.1 hmem with hmem | heq
      · exact h i s p q held hmem
      · cases heq

/-- What taking a traded quantity off a shown order does: `e` is what the order showed before, and
`excess` is the answer. -/
structure Takes (id : OrderId) (q : Quantity) (e : Shown) (l l' : Ledger) (excess : Quantity) :
    Prop where
  /-- The lesser of what was traded and what was shown is taken off the level of the order, and
  nothing off any other. -/
  level : ∀ s p, (l'.depth.quantityAt s p).toNat +
    (if e.isMarket = false ∧ e.side = s ∧
      e.price.Same p then min q.toNat e.quantity.toNat else 0) = (l.depth.quantityAt s p).toNat
  rest : excess.toNat = q.toNat - e.quantity.toNat
  conserved : e.quantity.toNat + excess.toNat =
    ((l'.shownQuantity? id).getD .zero).toNat + q.toNat
  others : ∀ id', id' ≠ id → l'.find? id' = l.find? id'

/-- A reduction takes what is traded, or all that is shown. -/
theorem takes_of_reduced {l l' : Ledger} {excess : Quantity} (h : l.Balanced) (h' : l'.Balanced)
    (he : l.find? id = some e) (hshown : l'.shown = reduced id q l)
    (hexcess : excess.toNat = q.toNat - e.quantity.toNat) : Takes id q e l l' excess := by
  refine ⟨fun side p => ?_, hexcess, ?_, fun id' hid => ?_⟩
  · have hheld : (l'.depth.quantityAt side p).toNat = shownAt (reduced id q l) side p :=
      hshown ▸ h'.held side p
    have hbefore : (l.depth.quantityAt side p).toNat = shownAt l.shown side p := h.held side p
    rw [hheld, hbefore]
    exact shownAt_reduced h.distinct he side p
  · rw [shownQuantity?, find?_reduced he hshown, if_pos rfl]
    split
    · simp only [Option.map_none, Option.getD_none, Quantity.toNat_zero]
      omega
    · simp only [Option.map_some, Option.getD_some, Quantity.toNat_monus]
      omega
  · rw [find?_reduced he hshown, if_neg (Ne.symm hid)]

end Ledger

namespace Display

open Bourse.Action
open Ledger (shownAt added reduced total Takes)

variable {s : Logged Display} {c : LedgerCall} {calls : List LedgerCall}

/-- Runs an action on the ledger. -/
def onLedger (act : Action Ledger α) : Action Display α :=
  act.within (·.ledger) (fun l d => { d with ledger := l })

/-- Carries out a call. The answer is what the ledger answers, if it answers something. -/
def serve : LedgerCall → Action Display (Option Quantity)
  | .add r => do
    let d ← current
    onLedger (Ledger.add (d.orders.get r))
    return none
  | .reduce id q => do
    let excess ← onLedger (Ledger.reduce id q)
    return some excess
  | .withdraw id => do
    onLedger (Ledger.withdraw id)
    return none
  | .recordTrade t => do
    onLedger (Ledger.recordTrade t)
    return none
  | .takeUpdate => do
    onLedger (change fun l => { l with depth := l.depth.takeUpdate.2 })
    return none
  | .change orders => do
    change fun d => { d with orders }
    return none

/-- A ledger that nothing was asked of yet, beside a table of orders. -/
def opening (orders : Orders) (i : InstrumentId) (history : Nat) : Logged Display :=
  ⟨⟨orders, .empty i history⟩, #[]⟩

/-- At all times what is shown at a price is below 2⁶³, also where a call breaks off. -/
def StaysSmall (s : Logged Display) (calls : List LedgerCall) : Prop :=
  ∀ pre, pre <+: calls → ∀ side p,
    shownAt (endState (inTurn serve pre) s).state.ledger.shown side p < 2 ^ 63

/-- What is shown stays small if all entries together do. -/
theorem staysSmall_of_total (h : ∀ pre ∈ calls.inits,
    total (endState (inTurn serve pre) s).state.ledger.shown < 2 ^ 63) : StaysSmall s calls :=
  fun pre hpre side p =>
    (Ledger.shownAt_le_total _ side p).trans_lt (h pre ((List.mem_inits pre calls).2 hpre))

/-- The ledger is balanced and shows nothing of no quantity, and no level was overrun. -/
structure Sound (s : Logged Display) : Prop where
  balanced : s.state.ledger.Balanced
  positive : ∀ e ∈ s.state.ledger.shown, 0 < e.quantity.toNat
  noUnderflow : NoUnderflow s.journal

/-- A display that shows nothing is sound. -/
theorem sound_opening (orders : Orders) (i : InstrumentId) (history : Nat) :
    Sound (opening orders i history) := ⟨Ledger.balanced_empty i history, nofun, nofun⟩

/-- Taking a traded quantity off leaves the ledger sound. -/
theorem ends_reduce (h : Sound s) (hfit : ∀ side p, shownAt s.state.ledger.shown side p < 2 ^ 63)
    (id : OrderId) (q : Quantity) :
    Ends (serve (.reduce id q)) s
      (fun a t => Sound t ∧ ∀ e, s.state.ledger.find? id = some e →
        ∃ excess, a = some excess ∧ Takes id q e s.state.ledger t.state.ledger excess)
      (fun _ _ => False) := by
  rw [serve, ends_bind, onLedger, ends_within]
  refine (Ledger.ends_reduce (s := ⟨s.state.ledger, s.journal⟩) h.balanced hfit).imp ?_
  rintro excess t ⟨hbalanced, hshown, hjournal, hexcess⟩
  refine ⟨⟨hbalanced, ?_, ?_⟩, fun e he => ⟨excess, rfl, ?_⟩⟩
  · exact hshown ▸ Ledger.positive_reduced h.balanced.distinct h.positive
  · exact hjournal ▸ Ledger.noUnderflow_reducedJournal h.noUnderflow
  · exact Ledger.takes_of_reduced h.balanced hbalanced he hshown (hexcess e he)

/-- A call is answered and leaves the ledger sound, as long as what is shown stays small. -/
theorem sound_serve (h : Sound s) (hfit : ∀ side p, shownAt s.state.ledger.shown side p < 2 ^ 63)
    (hnext : ∀ side p, shownAt (endState (serve c) s).state.ledger.shown side p < 2 ^ 63) :
    Ends (serve c) s (fun _ t => Sound t) (fun _ _ => False) := by
  cases c with
  | add r =>
    let o := s.state.orders.get r
    -- what is shown then is known before it is known that nothing breaks off
    have hadded : ∀ side p, shownAt (added o s.state.ledger) side p < 2 ^ 63 := by
      have hshown : (endState (serve (.add r)) s).state.ledger.shown = added o s.state.ledger := by
        refine Ends.endState (P := fun t : Logged Display => t.state.ledger.shown = _) ?_
        simp only [serve, onLedger, ends_bind, ends_current, ends_within]
        exact Ledger.shown_add o
      exact fun side p => hshown ▸ hnext side p
    simp only [serve, onLedger, ends_bind, ends_current, ends_within]
    refine (Ledger.ends_add (s := ⟨s.state.ledger, s.journal⟩) h.balanced
      fun hopen hnone hm => ?_).imp ?_
    · have hat := hadded o.side o.price
      rw [Ledger.added_of_new hopen hnone, Ledger.shownAt_cons, Shown.showsAt,
        if_pos ⟨hm, rfl, rfl⟩] at hat
      rwa [Nat.add_comm]
    · rintro _ t ⟨hbalanced, hshown, hjournal⟩
      exact ⟨hbalanced, hshown ▸ Ledger.positive_added h.positive o, hjournal ▸ h.noUnderflow⟩
  | reduce id q => exact (ends_reduce h hfit id q).imp fun _ _ ht => ht.1
  | withdraw id =>
    simp only [serve, onLedger, ends_bind, ends_within]
    refine (Ledger.ends_withdraw (s := ⟨s.state.ledger, s.journal⟩) h.balanced hfit).imp ?_
    rintro _ t ⟨hbalanced, hshown, hjournal⟩
    refine ⟨hbalanced, hshown ▸ fun e he => ?_, hjournal ▸ h.noUnderflow⟩
    exact h.positive e (Ledger.mem_without.1 he).1
  | recordTrade t =>
    simp only [serve, onLedger, ends_bind, ends_within]
    refine (Ledger.ends_recordTrade (s := ⟨s.state.ledger, s.journal⟩) h.balanced).imp ?_
    rintro _ t ⟨hbalanced, hshown, hjournal⟩
    exact ⟨hbalanced, hshown ▸ h.positive, hjournal ▸ h.noUnderflow⟩
  | takeUpdate => exact ⟨h.balanced.takeUpdate hfit, h.positive, h.noUnderflow⟩
  | change orders => exact ⟨h.balanced, h.positive, h.noUnderflow⟩

/-- Calls are answered and leave the ledger sound, as long as what is shown stays small. -/
theorem sound_run (h : Sound s) (hsmall : StaysSmall s calls) :
    Ends (inTurn serve calls) s (fun _ t => Sound t) (fun _ _ => False) := by
  refine Ends.inTurn (P := fun _ _ t => Sound t) h fun pre c answers t hpre heq ht => ?_
  have hbefore := hsmall pre ((List.prefix_append _ _).trans hpre)
  have hafter := hsmall (pre ++ [c]) hpre
  rw [endState_concat heq] at hafter
  unfold endState at hbefore
  rw [heq] at hbefore
  exact sound_serve ht hbefore hafter

/-- The ledger and market depth say the same. -/
structure Agrees (l : Ledger) : Prop where
  /-- A level holds what the orders show together that rest there. -/
  level : ∀ s p, (l.depth.quantityAt s p).toNat =
    total (l.shown.filter fun e => e.isMarket = false ∧ e.side = s ∧ e.price.Same p)
  positive : ∀ e ∈ l.shown, 0 < e.quantity.toNat
  distinct : (l.shown.map (·.id)).Nodup

/-- Whatever is called, and whatever becomes of the orders in between, as long as what is shown at
a price stays below 2⁶³: the calls are answered, the ledger and market depth agree, no close ever
overruns its level, and a traded quantity is next taken off a shown order exactly. -/
theorem levels_agree (orders : Orders) (i : InstrumentId) (history : Nat) (calls : List LedgerCall)
    (h : StaysSmall (opening orders i history) calls) :
    ∃ answers t, inTurn serve calls (opening orders i history) = .ok answers t ∧
      Agrees t.state.ledger ∧ NoUnderflow t.journal ∧
      ∀ id q e, t.state.ledger.find? id = some e →
        ∃ excess u, serve (.reduce id q) t = .ok (some excess) u ∧ NoUnderflow u.journal ∧
          Takes id q e t.state.ledger u.state.ledger excess := by
  obtain ⟨answers, t, heq, ht⟩ := (sound_run (sound_opening orders i history) h).exists_ok
  refine ⟨answers, t, heq, ⟨fun side p => ?_, ht.positive, ht.balanced.distinct⟩, ht.noUnderflow,
    fun id q e he => ?_⟩
  · rw [← Ledger.shownAt_eq_total]
    exact ht.balanced.held side p
  · have hfit := h calls (List.prefix_refl _)
    unfold endState at hfit
    rw [heq] at hfit
    obtain ⟨_, u, hserve, hu, htakes⟩ := (ends_reduce ht hfit id q).exists_ok
    obtain ⟨excess, rfl, htaken⟩ := htakes e he
    exact ⟨excess, u, hserve, hu.noUnderflow, htaken⟩

/-- Two asks of one price, at different scales, are shown. The first is closed and asked to be
shown again, more of it is traded than it shows, and it is withdrawn twice. -/
theorem levels_agree_of_twoAsks :
    let ask (n : UInt64) (price : Decimal) (q : UInt64) : Order :=
      { Order.blank with id := ⟨n⟩, price := ⟨price⟩, quantity := ⟨q⟩, closed := false }
    let orders : Orders := ⟨#[ask 1 (.ofParts false 10 0 (by decide) (by decide)) 5,
      ask 2 (.ofParts false 1000 2 (by decide) (by decide)) 4]⟩
    let calls : List LedgerCall := [.add ⟨0⟩, .add ⟨1⟩, .change (orders.modify ⟨0⟩ Order.close),
      .add ⟨0⟩, .takeUpdate, .reduce ⟨1⟩ ⟨7⟩, .withdraw ⟨1⟩, .withdraw ⟨1⟩]
    StaysSmall (opening orders ⟨1⟩ 10) calls ∧ ∃ answers t,
      inTurn serve calls (opening orders ⟨1⟩ 10) = .ok answers t ∧
        Agrees t.state.ledger ∧ NoUnderflow t.journal := by
  intro ask orders calls
  have h : StaysSmall (opening orders ⟨1⟩ 10) calls := staysSmall_of_total (by decide +kernel)
  obtain ⟨answers, t, heq, hagrees, hjournal, -⟩ := levels_agree orders ⟨1⟩ 10 calls h
  exact ⟨h, answers, t, heq, hagrees, hjournal⟩

end Display

end Bourse
