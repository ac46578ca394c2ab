import Bourse.Order

/-!
# Terms of a match

Two orders of opposite sides match when either takes any price or the bid reaches the ask
(`crosses`). They trade as much as both have left, at the price of `tradeTerms`.
-/

namespace Bourse

/-- The ask and the bid can trade. -/
def crosses (ask bid : Order) : Bool :=
  ask.isMarket || bid.isMarket || decide (ask.price ≤ bid.price)

/-- The price of a match. Two orders that take any price trade at the last price, and one of them
at the limit of the other. Of two limits that of the earlier order counts, and the bid's if both
are of one moment. -/
def tradePrice (ask bid : Order) (last : Price) : Price :=
  match ask.isMarket, bid.isMarket with
  | true, true => last
  | true, false => bid.price
  | false, true => ask.price
  | false, false => if ask.createdAt < bid.createdAt then ask.price else bid.price

/-- The price and the quantity of a match. -/
def tradeTerms (ask bid : Order) (last : Price) : Price × Quantity :=
  (tradePrice ask bid last, min ask.unfulfilled bid.unfulfilled)

end Bourse
