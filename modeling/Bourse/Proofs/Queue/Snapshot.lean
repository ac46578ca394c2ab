import Bourse.Proofs.Quantity
import Bourse.Proofs.Queue.Rank

/-!
# Items as snapshots of orders

An item shows the order as it was at one moment (`Item.Shows`), for one put into a queue the moment
at which that was done. `Order.Outranks` says by the orders themselves which of two is served
first, and the rank of two items is that of the orders which they show (`Item.rank_eq_gt_iff`).

Which of two prices is the better one depends on the queue: for resting orders it is
`Side.Favours`, for dormant stop-losses `Side.TriggersBefore`.
-/

namespace Bourse

/-- The item is a snapshot of the order: number, type, price and age are those of the order, the
quantity is what is left of it. -/
structure Item.Shows (i : Item) (o : Order) : Prop where
  id : i.id = o.id
  type : i.type = o.type
  price : i.price = o.price
  quantity : i.quantity = o.unfulfilled
  createdAt : i.createdAt = o.createdAt

/-- The item of an order shows it as it is now. -/
theorem Item.shows_ofOrder (r : OrderRef) (o : Order) : (Item.ofOrder r o).Shows o :=
  ⟨rfl, rfl, rfl, rfl, rfl⟩

/-! ## Prices -/

/-- Of two resting orders of the side the one with the first price is served first: the lower ask,
the higher bid. -/
def Side.Favours (s : Side) (p q : Price) : Prop :=
  match s with
  | .ask => p < q
  | .bid => q < p

/-- Prices come to the first trigger of the side before they come to the second: stop-losses that
sell are reached by falling prices, those that buy by rising ones. -/
def Side.TriggersBefore (s : Side) (p q : Price) : Prop :=
  match s with
  | .ask => q < p
  | .bid => p < q

/-- The first price is the better one in the direction of a queue. -/
def PriceDirection.Prefers (direction : PriceDirection) (p q : Price) : Prop :=
  direction.comparePrices p q = .gt

/-- The better price is worth more. -/
theorem PriceDirection.prefers_iff {direction : PriceDirection} {p q : Price} :
    direction.Prefers p q ↔ direction.worth q < direction.worth p := by
  unfold Prefers
  rw [← compare_worth, compare_gt_iff_gt]

/-- A queue of resting orders prefers the prices that its side favours. -/
theorem Side.prefers_ofResting (s : Side) : (PriceDirection.ofResting s).Prefers = s.Favours := by
  funext p q
  rw [PriceDirection.prefers_iff]
  cases s
  · exact propext Int.neg_lt_neg_iff
  · rfl

/-- A queue of dormant stop-losses prefers the triggers that prices come to first. -/
theorem Side.prefers_ofStopLoss (s : Side) :
    (PriceDirection.ofStopLoss s).Prefers = s.TriggersBefore := by
  funext p q
  rw [PriceDirection.prefers_iff]
  cases s
  · rfl
  · exact propext Int.neg_lt_neg_iff

/-- Prices that rank equal have the same value. -/
theorem PriceDirection.comparePrices_eq_eq {direction : PriceDirection} {p q : Price} :
    direction.comparePrices p q = .eq ↔ p.Same q := by
  rw [← compare_worth, compare_eq_iff_eq]
  cases direction
  · exact Int.neg_inj
  · exact Iff.rfl

/-! ## Orders -/

namespace Order

variable {better : Price → Price → Prop} {o o' : Order}

/-- The first order is the older one, or of one age the one with the lower number. -/
def Earlier (o o' : Order) : Prop :=
  o.createdAt < o'.createdAt ∨ o.createdAt = o'.createdAt ∧ o.id.number < o'.id.number

/-- The first order has the better price; or of prices of one value it has more left; or of as much
left it is the earlier one. -/
def Precedes (better : Price → Price → Prop) (o o' : Order) : Prop :=
  better o.price o'.price ∨ o.price.Same o'.price ∧
    (o'.unfulfilled < o.unfulfilled ∨ o.unfulfilled = o'.unfulfilled ∧ o.Earlier o')

/-- The first order is served before the second. Orders that take any price come before those with
a limit, the earlier first. Of two with a limit that is first which precedes the other by its
terms. -/
def Outranks (better : Price → Price → Prop) (o o' : Order) : Prop :=
  (o.isMarket = true ∧ o'.isMarket = false) ∨
    (o.isMarket = true ∧ o'.isMarket = true ∧ o.Earlier o') ∨
      (o.isMarket = false ∧ o'.isMarket = false ∧ o.Precedes better o')

/-- The earlier order is the one that the comparison of moments and numbers prefers. -/
theorem earlier_iff : o.Earlier o' ↔ compare o'.createdAt o.createdAt = .gt ∨
    compare o'.createdAt o.createdAt = .eq ∧
      compare o'.id.number.toNat o.id.number.toNat = .gt := by
  have hage : o.createdAt = o'.createdAt ↔ o'.createdAt.millis.toInt = o.createdAt.millis.toInt :=
    ⟨fun h => h ▸ rfl, fun h => congrArg Timestamp.mk (Int64.toInt_inj.1 h).symm⟩
  rw [Timestamp.compare_def, compare_gt_iff_gt, compare_eq_iff_eq, compare_gt_iff_gt, ← hage]
  exact or_congr Int64.lt_iff_toInt_lt (and_congr_right fun _ => UInt64.lt_iff_toNat_lt)

end Order

namespace Item

variable {direction : PriceDirection} {i j : Item} {o o' : Order}

/-- An item of a market order shows a market order. -/
theorem Shows.isMarket (h : i.Shows o) : i.isMarket = o.isMarket :=
  congrArg OrderType.isMarket h.type

/-- Two items with a price rank as the orders that they show. -/
theorem rankLimits_then_eq_gt_iff (h : i.Shows o) (h' : j.Shows o') :
    (rankLimits direction i j).then (compare j.id.number.toNat i.id.number.toNat) = .gt ↔
      o.Precedes direction.Prefers o' := by
  have hquantity : compare o.unfulfilled o'.unfulfilled = .gt ↔ o'.unfulfilled < o.unfulfilled :=
    compare_gt_iff_gt.trans Quantity.lt_def.symm
  have hsame : compare o.unfulfilled o'.unfulfilled = .eq ↔ o.unfulfilled = o'.unfulfilled :=
    compare_eq_iff_eq.trans Quantity.toNat_inj
  unfold rankLimits Order.Precedes
  rw [h.price, h'.price, h.quantity, h'.quantity, h.createdAt, h'.createdAt, h.id, h'.id]
  simp only [Ordering.then_assoc, Ordering.then_eq_gt, hquantity, hsame, ← Order.earlier_iff,
    PriceDirection.comparePrices_eq_eq]
  rfl

/-- An item outranks another if the order that it shows outranks that of the other. -/
theorem rank_eq_gt_iff (h : i.Shows o) (h' : j.Shows o') :
    rank direction i j = .gt ↔ o.Outranks direction.Prefers o' := by
  have hearlier : (compare j.createdAt i.createdAt).then
      (compare j.id.number.toNat i.id.number.toNat) = .gt ↔ o.Earlier o' := by
    rw [Ordering.then_eq_gt, Order.earlier_iff, h.createdAt, h'.createdAt, h.id, h'.id]
  have hlimits : (rankLimits direction i j).then (compare j.id.number.toNat i.id.number.toNat) =
      .gt ↔ o.Precedes direction.Prefers o' := rankLimits_then_eq_gt_iff h h'
  unfold rank Order.Outranks
  rw [← h.isMarket, ← h'.isMarket]
  cases i.isMarket <;> cases j.isMarket <;> simp [hearlier, hlimits]

/-- What another item does not outrank shows an order that the other's order does not outrank. -/
theorem isLE_iff_not_outranks (h : i.Shows o) (h' : j.Shows o') :
    (rank direction i j).isLE ↔ ¬ o.Outranks direction.Prefers o' := by
  rw [← rank_eq_gt_iff h h', Ordering.isLE_iff_ne_gt]

/-- An item with a price that another one does not outrank shows the order that precedes. -/
theorem precedes_of_isLE (h : i.Shows o) (h' : j.Shows o') (hlimit : o.isMarket = false)
    (hid : i.id ≠ j.id) (hle : (rank direction j i).isLE) :
    o.Precedes direction.Prefers o' := by
  have hgt : rank direction i j = .gt := by
    rw [Std.OrientedCmp.gt_iff_lt]
    exact Ordering.isLE_iff_eq_lt_or_eq_eq.1 hle |>.resolve_right (rank_ne_eq hid.symm)
  rcases (rank_eq_gt_iff h h').1 hgt with ⟨hmarket, -⟩ | ⟨hmarket, -⟩ | ⟨-, -, hprecedes⟩
  · exact absurd (hmarket.symm.trans hlimit) (by decide)
  · exact absurd (hmarket.symm.trans hlimit) (by decide)
  · exact hprecedes

end Item

end Bourse
