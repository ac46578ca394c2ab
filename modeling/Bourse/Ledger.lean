import Bourse.Depth.Market
import Bourse.Orders

/-!
# The ledger of shown orders

The `Ledger` of a book records what each of its resting orders contributes to market depth, and
every report to market depth comes from this record. An order is shown once with what it has left
(`Ledger.add`), a trade takes off what it traded (`Ledger.reduce`), and closing or cancelling takes
off the rest (`Ledger.withdraw`).

Withdrawing an order that is not shown does nothing, so a cancellation and a settlement may both
withdraw the same order and it counts once.
-/

namespace Bourse

/-- What one order contributes to market depth. -/
structure Shown where
  id : OrderId
  side : Side
  isMarket : Bool
  price : Price
  quantity : Quantity
deriving DecidableEq

/-- What an order contributes when it comes into the book. -/
def Shown.ofOrder (o : Order) : Shown where
  id := o.id
  side := o.side
  isMarket := o.isMarket
  price := o.price
  quantity := o.unfulfilled

/-- The shown orders of a book, with the market depth they make up. -/
structure Ledger where
  /-- The shown orders, at most one of each number. -/
  shown : List Shown
  depth : MarketDepth
  /-- The reports made so far, the oldest first. -/
  reports : Array Report

namespace Ledger

/-- A ledger that shows nothing. -/
def empty (instrument : InstrumentId) (history : Nat) : Ledger where
  shown := []
  depth := .empty instrument history
  reports := #[]

/-- What an order contributes. -/
def find? (l : Ledger) (id : OrderId) : Option Shown := l.shown.find? fun e => e.id = id

/-- The shown orders without one. -/
def without (id : OrderId) (shown : List Shown) : List Shown :=
  shown.filter fun e => e.id ≠ id

/-- The quantity an order shows. -/
def shownQuantity? (l : Ledger) (id : OrderId) : Option Quantity := (l.find? id).map (·.quantity)

/-- Makes a report to market depth. It counts as made also if market depth breaks off on it. -/
def report (r : Report) : Action Ledger Unit := do
  Action.change fun l => { l with reports := l.reports.push r }
  Action.within (·.depth) (fun d l => { l with depth := d }) (MarketDepth.receive r)

/-- Shows what an order has left. An order that is not open, or shown already, is passed over. -/
def add (o : Order) : Action Ledger Unit := do
  let l ← Action.current
  if o.isOpen && (l.find? o.id).isNone then
    let entry := Shown.ofOrder o
    Action.replace { l with shown := entry :: l.shown }
    report (.add entry.isMarket entry.side entry.price entry.quantity)

/-- Takes a traded quantity off a shown order, at most what it shows. The answer is the part of the
trade beyond that. -/
def reduce (id : OrderId) (q : Quantity) : Action Ledger Quantity := do
  let l ← Action.current
  match l.find? id with
  | none => return .zero
  | some entry =>
    let traded := min q entry.quantity
    let excess := q.monus traded
    if !excess.isZero then
      Action.log (.tradeExceedsShown id entry.side entry.price q entry.quantity)
    let left := entry.quantity.monus traded
    Action.replace
      { l with
        shown :=
          if left.isZero then without id l.shown
          else { entry with quantity := left } :: without id l.shown }
    report (.close entry.isMarket entry.side entry.price traded)
    return excess

/-- Takes off whatever an order still shows. -/
def withdraw (id : OrderId) : Action Ledger Unit := do
  let l ← Action.current
  if let some entry := l.find? id then
    Action.replace { l with shown := without id l.shown }
    report (.close entry.isMarket entry.side entry.price entry.quantity)

/-- Reports a trade. -/
def recordTrade (t : Trade) : Action Ledger Unit :=
  report (.trade ⟨t.price, t.quantity, t.createdAt⟩)

/-- The reports made since they were last taken, and the ledger with none pending. -/
def takeReports (l : Ledger) : List Report × Ledger :=
  (l.reports.toList, { l with reports := #[] })

/-- The number of shown orders in words. -/
def summary (l : Ledger) : String :=
  "DepthLedger \x7b shown: " ++ toString l.shown.length ++ " \x7d"

end Ledger

end Bourse
