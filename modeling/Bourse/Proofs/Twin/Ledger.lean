import Bourse.Proofs.Ledger
import Bourse.Proofs.Paired

/-!
# Ledgers that show the same

`Ledger.Alike` relates ledgers that show the same of every order, whatever the order of their
entries, and whose levels hold the same at every price, whatever the scale of the prices they were
made with. No operation tells such ledgers apart: it gives the same answer, or breaks off with the
same failure, and leaves ledgers that are alike again.

`Ledger.Hides` says that no order came to be shown.
-/

namespace Bourse

open Bourse.Action

/-! ## Levels -/

namespace Levels

variable {s s' : Logged Levels} {p : Price} {q : Quantity} {delta : Int64}

/-- The same levels, and the same differences, by the value of the price. -/
structure Alike (l l' : Levels) : Prop where
  depth : ∀ p, l'.depth.find? p = l.depth.find? p
  diff : ∀ p, (l'.diff.find? p).getD 0 = (l.diff.find? p).getD 0

theorem Alike.refl (l : Levels) : Alike l l := ⟨fun _ => rfl, fun _ => rfl⟩

/-- Levels that are alike have the same quantity at a price. -/
theorem Alike.quantityAt {l l' : Levels} (h : Alike l l') (p : Price) :
    l'.quantityAt p = l.quantityAt p := congrArg (·.getD .zero) (h.depth p)

/-- The same is written at a level. -/
theorem Alike.insert {l l' : Levels} (h : Alike l l') (p : Price) (q : Quantity) :
    Alike { l with depth := l.depth.insert p q } { l' with depth := l'.depth.insert p q } :=
  ⟨fun r => by rw [PriceMap.find?_insert, PriceMap.find?_insert, h.depth], h.diff⟩

/-- A level is removed. -/
theorem Alike.erase {l l' : Levels} (h : Alike l l') (p : Price) :
    Alike { l with depth := l.depth.erase p } { l' with depth := l'.depth.erase p } :=
  ⟨fun r => by rw [PriceMap.find?_erase, PriceMap.find?_erase, h.depth], h.diff⟩

/-- Recording a difference does the same to levels that are alike. -/
theorem paired_recordDiff (h : Alike s.state s'.state) :
    Paired (recordDiff p delta) (recordDiff p delta) s s' (fun _ => Alike) Alike := by
  refine paired_current ?_
  rw [h.diff p]
  refine Paired.bind (R := fun _ => Alike) (paired_ofExcept (fun _ _ => h) h) ?_
  intro sum t t' ht
  refine paired_replace ⟨h.depth, fun r => ?_⟩
  simp only
  split <;> simp only [PriceMap.find?_insert, PriceMap.find?_erase] <;> split <;>
    first | rfl | exact h.diff r

/-- Adding a quantity does the same to levels that are alike. -/
theorem paired_add (h : Alike s.state s'.state) :
    Paired (add p q) (add p q) s s' (fun _ => Alike) Alike := by
  refine paired_current ?_
  rw [h.quantityAt p]
  refine Paired.bind (R := fun _ => Alike) (paired_ofExcept (fun _ _ => h) h) ?_
  intro sum t t' _
  exact (paired_replace (R := fun _ => Alike) (h.insert p sum)).bind fun _ _ _ => paired_recordDiff

/-- Removing a quantity does the same to levels that are alike. -/
theorem paired_remove (h : Alike s.state s'.state) :
    Paired (remove p q) (remove p q) s s' (fun _ => Alike) Alike := by
  refine paired_current ?_
  simp only [h.quantityAt p]
  have hneg : ∀ {t t' : Logged Levels} (x : Quantity), Alike t.state t'.state →
      Paired (Action.ofExcept (Delta.neg x.signed) >>= recordDiff p)
        (Action.ofExcept (Delta.neg x.signed) >>= recordDiff p) t t' (fun _ => Alike) Alike := by
    intro t t' x ht
    refine Paired.bind (R := fun _ => Alike) (paired_ofExcept (fun _ _ => ht) ht) ?_
    exact fun _ _ _ => paired_recordDiff
  cases (s.state.quantityAt p).sub? q with
  | some rest =>
    refine Paired.bind (R := fun _ => Alike) (paired_replace ?_) ?_
    · by_cases hz : rest.isZero = true
      · simp only [hz, if_true]
        exact h.erase p
      · simp only [hz, Bool.false_eq_true, if_false]
        exact h.insert p rest
    · intro _ t t' ht
      simp only [← bind_assoc]
      exact (hneg q ht).bind fun _ _ _ hu => paired_pure (R := fun _ => Alike) hu
  | none =>
    refine Paired.bind (R := fun _ => Alike) (paired_replace (h.erase p)) ?_
    intro _ t t' ht
    split
    · simp only [← bind_assoc]
      exact (hneg _ ht).bind fun _ _ _ hu => paired_pure (R := fun _ => Alike) hu
    · exact paired_pure ht

end Levels

/-! ## Market depth -/

namespace MarketDepth

variable {s s' : Logged MarketDepth} {isMarket : Bool} {side : Side} {p : Price} {q : Quantity}

/-- The same trades, and the same levels on both sides. -/
structure Alike (d d' : MarketDepth) : Prop where
  instrument : d'.instrument = d.instrument
  history : d'.history = d.history
  latest : d'.latest = d.latest
  fresh : d'.fresh = d.fresh
  levels : ∀ s, (d.levels s).Alike (d'.levels s)

theorem Alike.refl (d : MarketDepth) : Alike d d := ⟨rfl, rfl, rfl, rfl, fun _ => .refl _⟩

/-- Market depth is alike if one side is replaced by levels that are. -/
theorem Alike.withLevels {d d' : MarketDepth} (h : Alike d d') {l l' : Levels} (hl : l.Alike l')
    (side : Side) : Alike (d.withLevels l side) (d'.withLevels l' side) where
  instrument := by cases side <;> exact h.instrument
  history := by cases side <;> exact h.history
  latest := by cases side <;> exact h.latest
  fresh := by cases side <;> exact h.fresh
  levels s := by
    rw [levels_withLevels, levels_withLevels]
    split
    · exact hl
    · exact h.levels s

/-- What does the same to levels does the same to market depth. -/
theorem paired_onLevels {α : Type} {act : Action Levels α} (h : Alike s.state s'.state)
    (hact : ∀ t t' : Logged Levels, t.state.Alike t'.state →
      Paired act act t t' (fun _ => Levels.Alike) Levels.Alike) :
    Paired (onLevels side act) (onLevels side act) s s' (fun _ => Alike) Alike :=
  paired_within ((hact _ _ (h.levels side)).mono (fun _ _ _ hl => h.withLevels hl side)
    fun _ _ hl => h.withLevels hl side)

/-- A report does the same to market depth that is alike. -/
theorem paired_receive (h : Alike s.state s'.state) (r : Report) :
    Paired (receive r) (receive r) s s' (fun _ => Alike) Alike := by
  cases r with
  | add isMarket side p q =>
    simp only [receive, addOrder]
    split
    · exact paired_pure h
    · exact paired_onLevels h fun _ _ => Levels.paired_add
  | close isMarket side p q =>
    simp only [receive, closeOrder]
    split
    · exact paired_pure h
    · refine (paired_onLevels h fun _ _ => Levels.paired_remove).bind ?_
      intro held t t' ht
      cases held with
      | none => exact paired_pure ht
      | some held => exact paired_current (paired_log ht)
  | trade tick =>
    have hlatest : ((tick :: s'.state.latest).take s'.state.history) =
        (tick :: s.state.latest).take s.state.history := by rw [h.latest, h.history]
    have hfresh : s'.state.fresh.push tick = s.state.fresh.push tick := by rw [h.fresh]
    refine ⟨rfl, h.instrument, h.history, hlatest, hfresh, fun side => ?_⟩
    cases side
    · exact h.levels .ask
    · exact h.levels .bid

end MarketDepth

/-! ## Ledgers -/

namespace Ledger

variable {s s' : Logged Ledger} {id : OrderId} {o : Order} {q : Quantity} {t : Trade}

/-- The same shown of every order, and the same market depth. -/
structure Alike (l l' : Ledger) : Prop where
  find? : ∀ id, l'.find? id = l.find? id
  depth : l.depth.Alike l'.depth

theorem Alike.refl (l : Ledger) : Alike l l := ⟨fun _ => rfl, .refl _⟩

/-- No order is shown that was not shown before. -/
def Hides (l l' : Ledger) : Prop := ∀ id, l.find? id = none → l'.find? id = none

theorem Hides.refl (l : Ledger) : Hides l l := fun _ h => h

/-- The same order is taken off both. -/
theorem Alike.without {l l' : Ledger} (h : Alike l l') (id : OrderId) :
    Alike { l with shown := without id l.shown } { l' with shown := Ledger.without id l'.shown } :=
  ⟨fun id' => by rw [find?_without, find?_without, h.find?], h.depth⟩

/-- A report does the same to ledgers that are alike. -/
theorem paired_report (h : Alike s.state s'.state) (r : Report) :
    Paired (report r) (report r) s s' (fun _ => Alike) Alike := by
  refine Paired.bind (R := fun _ => Alike) (paired_change ⟨h.find?, h.depth⟩) ?_
  intro _ t t' ht
  exact paired_within ((MarketDepth.paired_receive ht.depth r).mono
    (fun _ _ _ hd => ⟨ht.find?, hd⟩) fun _ _ hd => ⟨ht.find?, hd⟩)

/-- Showing an order does the same to ledgers that are alike. -/
theorem paired_add (h : Alike s.state s'.state) :
    Paired (add o) (add o) s s' (fun _ => Alike) Alike := by
  refine paired_current ?_
  rw [h.find? o.id]
  split
  · refine Paired.bind (R := fun _ => Alike) (paired_replace ⟨fun id => ?_, h.depth⟩) ?_
    · rw [find?_cons, find?_cons]
      split
      · rfl
      · exact h.find? id
    · exact fun _ _ _ ht => paired_report ht _
  · exact paired_pure h

/-- A reduction does the same to ledgers that are alike. -/
theorem paired_reduce (h : Alike s.state s'.state) :
    Paired (reduce id q) (reduce id q) s s' (fun _ => Alike) Alike := by
  refine paired_current ?_
  rw [h.find? id]
  cases s.state.find? id with
  | none => exact paired_pure h
  | some entry =>
    have hwithout := h.without id
    -- the entry is taken off, or replaced by what is left of it, and this is reported
    have hrest : ∀ (t t' : Logged Ledger) (shown shown' : List Shown),
        Alike { s.state with shown } { s'.state with shown := shown' } →
        Paired (replace { s.state with shown } >>= fun _ =>
            report (.close entry.isMarket entry.side entry.price (min q entry.quantity)) >>=
              fun _ =>
              pure (q.monus (min q entry.quantity)))
          (replace { s'.state with shown := shown' } >>= fun _ =>
            report (.close entry.isMarket entry.side entry.price (min q entry.quantity)) >>=
              fun _ =>
              pure (q.monus (min q entry.quantity))) t t' (fun _ => Alike) Alike := by
      intro t t' shown shown' hshown
      refine Paired.bind (R := fun _ => Alike) (paired_replace hshown) fun _ _ _ hu => ?_
      exact (paired_report hu _).bind fun _ _ _ hv => paired_pure (R := fun _ => Alike) hv
    have hleft : ∀ e : Shown, Alike { s.state with shown := e :: without id s.state.shown }
        { s'.state with shown := e :: without id s'.state.shown } := by
      intro e
      refine ⟨fun id' => ?_, h.depth⟩
      rw [find?_cons, find?_cons, hwithout.find? id']
    have hboth : ∀ t t' : Logged Ledger, Paired _ _ t t' (fun _ => Alike) Alike := fun t t' =>
      hrest t t'
        (if (entry.quantity.monus (min q entry.quantity)).isZero then without id s.state.shown
          else { entry with quantity := entry.quantity.monus (min q entry.quantity) } ::
            without id s.state.shown)
        (if (entry.quantity.monus (min q entry.quantity)).isZero then without id s'.state.shown
          else { entry with quantity := entry.quantity.monus (min q entry.quantity) } ::
            without id s'.state.shown) (by split; exacts [hwithout, hleft _])
    simp only
    split
    · exact Paired.bind (R := fun _ _ _ => True) (paired_log trivial) fun _ t t' _ => hboth t t'
    · exact hboth s s'

/-- A withdrawal does the same to ledgers that are alike. -/
theorem paired_withdraw (h : Alike s.state s'.state) :
    Paired (withdraw id) (withdraw id) s s' (fun _ => Alike) Alike := by
  refine paired_current ?_
  rw [h.find? id]
  cases s.state.find? id with
  | none => exact paired_pure h
  | some entry =>
    exact Paired.bind (R := fun _ => Alike) (paired_replace (h.without id)) fun _ _ _ ht =>
      paired_report ht _

/-- Reporting a trade does the same to ledgers that are alike. -/
theorem paired_recordTrade (h : Alike s.state s'.state) :
    Paired (recordTrade t) (recordTrade t) s s' (fun _ => Alike) Alike := paired_report h _

/-! ### What is hidden -/

/-- Ledgers that show the same hide the same. -/
theorem Hides.of_shown {l l' : Ledger} (h : l'.shown = l.shown) : Hides l l' := fun id hid => by
  unfold find? at *
  rw [h]
  exact hid

/-- A withdrawal hides its order, and shows none. -/
theorem hides_withdraw : Ends (withdraw id) s
    (fun _ t => t.state.find? id = none ∧ Hides s.state t.state)
    (fun _ t => t.state.find? id = none ∧ Hides s.state t.state) := by
  simp only [withdraw, ends_bind, ends_current]
  cases he : s.state.find? id with
  | none => exact ⟨he, .refl _⟩
  | some e =>
    have hends : ∀ t : Logged Ledger, t.state.shown = without id s.state.shown →
        t.state.find? id = none ∧ Hides s.state t.state := by
      intro t ht
      have hfind : ∀ id', t.state.find? id' = if id = id' then none else s.state.find? id' := by
        intro id'
        rw [← find?_without]
        unfold find?
        rw [ht]
      refine ⟨by rw [hfind, if_pos rfl], fun id' hid => ?_⟩
      rw [hfind]
      split
      · rfl
      · exact hid
    simp only [ends_bind, ends_replace]
    exact (shown_report _).mono (fun _ => hends) fun _ => hends

/-- A reduction shows no order. -/
theorem hides_reduce : Ends (reduce id q) s (fun _ t => Hides s.state t.state)
    (fun _ t => Hides s.state t.state) := by
  simp only [reduce, ends_bind, ends_current]
  cases he : s.state.find? id with
  | none => exact .refl _
  | some e =>
    have hid : e.id = id := (mem_of_find? he).2
    have hends : ∀ (t : Logged Ledger) (left : Quantity), t.state.shown =
        (if left.isZero then without id s.state.shown
          else { e with quantity := left } :: without id s.state.shown) →
          Hides s.state t.state := by
      intro t left ht id' hid'
      have hne : ¬ id = id' := fun heq => by
        rw [← heq, he] at hid'
        cases hid'
      have hfind : t.state.find? id' = s.state.find? id' := by
        rw [← (find?_without s.state id id').trans (if_neg hne)]
        unfold find?
        rw [ht]
        split
        · rfl
        · rw [List.find?_cons_of_neg]
          simpa [hid] using hne
      rw [hfind, hid']
    have hreport : ∀ (j : Array Event) (left : Quantity) (r : Report),
        Ends (report r) ⟨{ s.state with shown := if left.isZero then without id s.state.shown
          else { e with quantity := left } :: without id s.state.shown }, j⟩
          (fun _ t => Hides s.state t.state) (fun _ t => Hides s.state t.state) := fun j left r =>
      (shown_report r).mono (fun _ t => hends t left) fun _ t => hends t left
    simp only
    split
    · simp only [ends_log, ends_bind, ends_replace]
      exact hreport _ _ _
    · simp only [ends_bind, ends_replace]
      exact hreport _ _ _

/-- Reporting a trade shows no order. -/
theorem hides_recordTrade : Ends (recordTrade t) s (fun _ t => Hides s.state t.state)
    (fun _ t => Hides s.state t.state) :=
  (shown_report _).mono (fun _ _ => .of_shown) fun _ _ => .of_shown

/-- No order is shown that was not shown before, but for one that is open. -/
def HidesBut (o : Order) (l l' : Ledger) : Prop :=
  ∀ id, (id = o.id → o.isOpen = false) → l.find? id = none → l'.find? id = none

/-- Showing an order shows no other. -/
theorem hides_add : Ends (add o) s (fun _ t => HidesBut o s.state t.state)
    (fun _ t => HidesBut o s.state t.state) := by
  simp only [add, ends_bind, ends_current]
  split
  · next hadd =>
    rw [Bool.and_eq_true] at hadd
    have hends : ∀ t : Logged Ledger, t.state.shown = Shown.ofOrder o :: s.state.shown →
        HidesBut o s.state t.state := by
      intro t ht id hne hid
      have hne : ¬ (Shown.ofOrder o).id = id := fun heq =>
        Bool.false_ne_true ((hne heq.symm).symm.trans hadd.1)
      unfold find? at *
      rw [ht, List.find?_cons_of_neg]
      · exact hid
      · exact decide_eq_false hne ▸ Bool.false_ne_true
    simp only [ends_bind, ends_replace]
    exact (shown_report _).mono (fun _ => hends) fun _ => hends
  · exact fun _ _ hid => hid

end Ledger

end Bourse
