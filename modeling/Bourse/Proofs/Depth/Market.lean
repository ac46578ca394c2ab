import Bourse.Depth.Market
import Bourse.Proofs.Depth.Levels

/-!
# What market depth holds

`MarketDepth.held` and `MarketDepth.change` are the quantity and the pending difference at a price
of a side. A report moves them at one price of one side (`MarketDepth.Moved`), by the quantity that
came or left, or not at all if the order takes any price. What the levels of a side do holds of
reports by `ends_addOrder_iff` and `ends_closeOrder_iff`.
-/

namespace Bourse.MarketDepth

open Bourse.Action

variable {s : Logged MarketDepth} {isMarket : Bool} {side : Side} {p : Price} {q : Quantity}

/-- The quantity at a price of a side, without the bound. -/
def held (d : MarketDepth) (s : Side) (p : Price) : Nat := (d.levels s).held p

/-- The difference at a price of a side since the differences were last taken. -/
def change (d : MarketDepth) (s : Side) (p : Price) : Int := (d.levels s).change p

/-- The quantity and the difference at a price of a side moved by a number, and nothing else
did. -/
structure Moved (d d' : MarketDepth) (s : Side) (p : Price) (n : Int) : Prop where
  held : ∀ s' r, (d'.held s' r : Int) = d.held s' r + if s = s' ∧ p.Same r then n else 0
  change : ∀ s' r, d'.change s' r = d.change s' r + if s = s' ∧ p.Same r then n else 0

@[simp] theorem levels_withLevels (d : MarketDepth) (l : Levels) (s s' : Side) :
    (d.withLevels l s).levels s' = if s = s' then l else d.levels s' := by
  cases s <;> cases s' <;> rfl

theorem Moved.refl (d : MarketDepth) (s : Side) (p : Price) : Moved d d s p 0 :=
  ⟨fun _ _ => by simp, fun _ _ => by simp⟩

/-- What moved among the levels of a side moved in market depth. -/
theorem Moved.of_levels {d : MarketDepth} {l : Levels} {n : Int}
    (h : Levels.Moved (d.levels side) l p n) : Moved d (d.withLevels l side) side p n := by
  constructor <;> intro s' r
  · unfold MarketDepth.held
    rw [levels_withLevels]
    by_cases hs : side = s'
    · subst hs
      simpa using h.held r
    · simp [hs]
  · unfold MarketDepth.change
    rw [levels_withLevels]
    by_cases hs : side = s'
    · subst hs
      simpa using h.change r
    · simp [hs]

/-- A report that passes levels by is one of an order that takes any price, or of no quantity. -/
theorem passed_iff : (isMarket || q.isZero) = true ↔ isMarket = true ∨ q.toNat = 0 := by
  rw [Bool.or_eq_true, Quantity.isZero_iff]

/-- Neither market orders nor empty quantities are passed on. -/
theorem not_passed_iff : ¬ (isMarket || q.isZero) = true ↔ isMarket = false ∧ 0 < q.toNat := by
  rw [passed_iff, not_or, Bool.not_eq_true, Nat.pos_iff_ne_zero]

/-- Adding an order is adding to a level, unless it is passed over. -/
theorem ends_addOrder_iff {Q : Unit → Logged MarketDepth → Prop}
    {E : Failure → Logged MarketDepth → Prop} : Ends (addOrder isMarket side p q) s Q E ↔
    if isMarket || q.isZero then Q () s else
      Ends (Levels.add p q) ⟨s.state.levels side, s.journal⟩
        (fun _ t => Q () ⟨s.state.withLevels t.state side, t.journal⟩)
        (fun f t => E f ⟨s.state.withLevels t.state side, t.journal⟩) := by
  unfold addOrder
  split
  · rfl
  · exact ends_within

/-- Closing an order is removing from a level, unless it is passed over. -/
theorem ends_closeOrder_iff {Q : Unit → Logged MarketDepth → Prop}
    {E : Failure → Logged MarketDepth → Prop} : Ends (closeOrder isMarket side p q) s Q E ↔
    if isMarket || q.isZero then Q () s else
      Ends (Levels.remove p q) ⟨s.state.levels side, s.journal⟩
        (fun held t => Q () ⟨s.state.withLevels t.state side, match held with
          | none => t.journal
          | some held => t.journal.push (.levelUnderflow
              (s.state.withLevels t.state side).instrument side p q held)⟩)
        (fun f t => E f ⟨s.state.withLevels t.state side, t.journal⟩) := by
  unfold closeOrder
  split
  · rfl
  · simp only [onLevels, ends_bind, ends_within]
    refine iff_of_eq (congrArg (fun R => Ends _ _ R _) ?_)
    funext held t
    cases held <;> rfl

/-- The quantity of an order is added to its level, unless the order takes any price. -/
theorem ends_addOrder (hsum : isMarket = false → s.state.held side p + q.toNat < 2 ^ 64)
    (hq : isMarket = false → q.toNat < 2 ^ 63)
    (hfits : isMarket = false → Delta.Fits (s.state.change side p + q.toNat)) :
    Ends (addOrder isMarket side p q) s
      (fun _ t => Moved s.state t.state side p (if isMarket then 0 else q.toNat) ∧
        t.journal = s.journal)
      (fun _ _ => False) := by
  rw [ends_addOrder_iff]
  split
  · next h =>
    refine ⟨?_, rfl⟩
    rcases passed_iff.1 h with rfl | hz
    · exact .refl ..
    · rw [hz]; simpa using Moved.refl ..
  · next h =>
    obtain ⟨rfl, -⟩ := not_passed_iff.1 h
    have hadd := Levels.ends_add (s := ⟨s.state.levels side, s.journal⟩) (hsum rfl)
      (hq rfl) (hfits rfl)
    exact hadd.imp fun _ t ht => ⟨.of_levels ht.1, ht.2⟩

/-- The quantity of an order is taken off its level, unless the order takes any price. A level that
holds less is dropped, and only then is there an event. -/
theorem ends_closeOrder (hq : isMarket = false → min q.toNat (s.state.held side p) < 2 ^ 63)
    (hfits : isMarket = false →
      Delta.Fits (s.state.change side p - (min q.toNat (s.state.held side p) : Nat))) :
    Ends (closeOrder isMarket side p q) s
      (fun _ t => Moved s.state t.state side p
          (if isMarket then 0 else -(min q.toNat (s.state.held side p) : Nat)) ∧
        ((isMarket = false → q.toNat ≤ s.state.held side p) → t.journal = s.journal))
      (fun _ _ => False) := by
  rw [ends_closeOrder_iff]
  split
  · next h =>
    refine ⟨?_, fun _ => rfl⟩
    rcases passed_iff.1 h with rfl | hz
    · exact .refl ..
    · rw [hz, Nat.zero_min]; simpa using Moved.refl ..
  · next h =>
    obtain ⟨rfl, -⟩ := not_passed_iff.1 h
    have hremove := Levels.ends_remove (s := ⟨s.state.levels side, s.journal⟩) (hq rfl) (hfits rfl)
    refine hremove.imp ?_
    rintro _ t ⟨rfl, ht, hj⟩
    refine ⟨.of_levels ht, fun hle => ?_⟩
    rw [if_pos (show q.toNat ≤ (s.state.levels side).held p from hle rfl)]
    exact hj

/-- Reporting a trade moves no level. -/
theorem ends_addTrade {tick : TradeTick} (side : Side) (p : Price) :
    Ends (addTrade tick) s (fun _ t => Moved s.state t.state side p 0 ∧ t.journal = s.journal)
      (fun _ _ => False) :=
  ⟨⟨fun _ _ => by simp; rfl, fun _ _ => by simp; rfl⟩, rfl⟩

/-- A report breaks off only by an overflow. -/
theorem breaks_receive (r : Report) :
    Ends (receive r) s (fun _ _ => True) (fun f _ => f.IsOverflow) := by
  cases r with
  | add isMarket side p q =>
    show Ends (addOrder isMarket side p q) s _ _
    unfold addOrder
    split
    · trivial
    · rw [onLevels, ends_within]
      exact Levels.breaks_add
  | close isMarket side p q =>
    show Ends (closeOrder isMarket side p q) s _ _
    unfold closeOrder
    split
    · trivial
    · simp only [onLevels, ends_bind, ends_within]
      refine Levels.breaks_remove.imp ?_
      intro held t _
      cases held with
      | none => trivial
      | some held => simp only [ends_bind, ends_current, ends_log]
  | trade tick => trivial

/-! ## What depth tells of trades -/

/-- What market depth tells besides its levels. -/
def feed (d : MarketDepth) : InstrumentId × Nat × List TradeTick × Array TradeTick :=
  (d.instrument, d.history, d.latest, d.fresh)

/-- Other levels leave the feed. -/
theorem feed_withLevels (d : MarketDepth) (l : Levels) (s : Side) :
    (d.withLevels l s).feed = d.feed := by
  cases s <;> rfl

/-- A report that is not of a trade changes levels only. -/
theorem feed_receive {r : Report} (hr : ∀ tick, r ≠ .trade tick) :
    Ends (receive r) s (fun _ t => t.state.feed = s.state.feed)
    (fun _ t => t.state.feed = s.state.feed) := by
  cases r with
  | add isMarket side p q =>
    refine ends_addOrder_iff.2 ?_
    split
    · rfl
    · exact (Ends.any _ _).mono (fun _ _ _ => feed_withLevels ..) fun _ _ _ => feed_withLevels ..
  | close isMarket side p q =>
    refine ends_closeOrder_iff.2 ?_
    split
    · rfl
    · exact (Ends.any _ _).mono (fun _ _ _ => feed_withLevels ..) fun _ _ _ => feed_withLevels ..
  | trade tick => exact absurd rfl (hr tick)

/-- The differences of a side are those of its levels. -/
theorem change_withLevels (d : MarketDepth) (l : Levels) (s' : Side) (r : Price) :
    (d.withLevels l side).change s' r = if side = s' then l.change r else d.change s' r := by
  unfold MarketDepth.change
  rw [levels_withLevels]
  split <;> rfl

/-- Whatever is added, the difference moves by the quantity read with a sign. -/
theorem records_addOrder : Ends (addOrder isMarket side p q) s
    (fun _ t => ∀ s' r, t.state.change s' r = s.state.change s' r +
      if isMarket = false ∧ side = s' ∧ p.Same r then q.signed.toInt else 0)
    (fun _ _ => True) := by
  rw [ends_addOrder_iff]
  split
  · next h =>
    intro s' r
    rcases passed_iff.1 h with rfl | hz
    · simp
    · simp [Quantity.toInt_signed (q := q) (by omega), hz]
  · next h =>
    obtain ⟨rfl, -⟩ := not_passed_iff.1 h
    refine Levels.records_add.imp fun _ t ht s' r => ?_
    rw [change_withLevels]
    split
    · next hs =>
      subst hs
      rw [ht r]
      simp [MarketDepth.change]
    · next hs => simp [hs]

/-- Whatever is closed, the difference moves by what is taken off the level, read with a sign. -/
theorem records_closeOrder : Ends (closeOrder isMarket side p q) s
    (fun _ t => ∀ s' r, t.state.change s' r = s.state.change s' r -
      if isMarket = false ∧ side = s' ∧ p.Same r then
        (min q (s.state.quantityAt side p)).signed.toInt else 0)
    (fun _ _ => True) := by
  rw [ends_closeOrder_iff]
  split
  · next h =>
    intro s' r
    rcases passed_iff.1 h with rfl | hz
    · simp
    · have hmin : (min q (s.state.quantityAt side p)).toNat = 0 := by
        rw [Quantity.toNat_min, hz, Nat.zero_min]
      simp [Quantity.toInt_signed (q := min q (s.state.quantityAt side p)) (by omega), hmin]
  · next h =>
    obtain ⟨rfl, -⟩ := not_passed_iff.1 h
    refine Levels.records_remove.imp fun _ t ht s' r => ?_
    rw [change_withLevels]
    split
    · next hs =>
      subst hs
      rw [ht r]
      simp [MarketDepth.change, MarketDepth.quantityAt]
    · next hs => simp [hs]

/-- The quantities of a side are those of its levels. -/
theorem held_withLevels (d : MarketDepth) (l : Levels) (s' : Side) (r : Price) :
    (d.withLevels l side).held s' r = if side = s' then l.held r else d.held s' r := by
  unfold MarketDepth.held
  rw [levels_withLevels]
  split <;> rfl

/-- Whatever is added, the level holds so much more, unless the order takes any price. -/
theorem holds_addOrder : Ends (addOrder isMarket side p q) s
    (fun _ t => ∀ s' r, t.state.held s' r = s.state.held s' r +
      if isMarket = false ∧ side = s' ∧ p.Same r then q.toNat else 0)
    (fun _ _ => True) := by
  rw [ends_addOrder_iff]
  split
  · next h =>
    intro s' r
    rcases passed_iff.1 h with rfl | hz
    · simp
    · simp [hz]
  · next h =>
    obtain ⟨rfl, -⟩ := not_passed_iff.1 h
    refine Levels.holds_add.imp fun _ t ht s' r => ?_
    rw [held_withLevels]
    split
    · next hs =>
      subst hs
      rw [ht r]
      simp [MarketDepth.held]
    · next hs => simp [hs]

/-- Whatever is closed, the level holds so much less, or nothing, unless the order takes any
price. -/
theorem holds_closeOrder : Ends (closeOrder isMarket side p q) s
    (fun _ t => ∀ s' r, t.state.held s' r = s.state.held s' r -
      if isMarket = false ∧ side = s' ∧ p.Same r then q.toNat else 0)
    (fun _ _ => True) := by
  rw [ends_closeOrder_iff]
  split
  · next h =>
    intro s' r
    rcases passed_iff.1 h with rfl | hz
    · simp
    · simp [hz]
  · next h =>
    obtain ⟨rfl, -⟩ := not_passed_iff.1 h
    refine Levels.holds_remove.imp fun _ t ht s' r => ?_
    rw [held_withLevels]
    split
    · next hs =>
      subst hs
      rw [ht r]
      simp [MarketDepth.held]
    · next hs => simp [hs]

/-- No level and no difference has an entry of zero. -/
def Proper (d : MarketDepth) : Prop := ∀ s, (d.levels s).Proper

/-- Market depth stays proper with proper levels. -/
theorem Proper.withLevels {d : MarketDepth} {l : Levels} (h : d.Proper) (hl : l.Proper) :
    (d.withLevels l side).Proper := by
  intro s'
  rw [levels_withLevels]
  split
  · exact hl
  · exact h s'

/-- Market depth stays proper whatever is reported. -/
theorem proper_receive (h : s.state.Proper) (r : Report) :
    Ends (receive r) s (fun _ t => t.state.Proper) (fun _ _ => True) := by
  cases r with
  | add isMarket side p q =>
    show Ends (addOrder isMarket side p q) s _ _
    rw [ends_addOrder_iff]
    split
    · exact h
    · next hq =>
      exact (Levels.proper_add (h side) (not_passed_iff.1 hq).2).imp fun _ _ ht => h.withLevels ht
  | close isMarket side p q =>
    show Ends (closeOrder isMarket side p q) s _ _
    rw [ends_closeOrder_iff]
    split
    · exact h
    · exact (Levels.proper_remove (h side)).imp fun _ _ ht => h.withLevels ht
  | trade tick =>
    intro s'
    cases s' with
    | ask => exact h .ask
    | bid => exact h .bid

end Bourse.MarketDepth
