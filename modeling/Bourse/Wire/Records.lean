import Bourse.Config.Basic
import Bourse.Depth.Market
import Bourse.Source
import Bourse.Wire.Values

/-!
# Wire forms of records

Orders, trades, instruments, the two views of market depth, and settings. Each record lists its
fields once, in the order they are written in; a map keyed by price is an object whose names are
the prices, by ascending value.
-/

namespace Bourse

open WireForm

instance : WireForm Order where
  encode o := .ofFields
    [("id", encode o.id), ("user_id", encode o.user), ("instrument_id", encode o.instrument),
      ("side", encode o.side), ("order_type", encode o.type), ("price", encode o.price),
      ("quantity", encode o.quantity), ("quantity_fulfilled", encode o.fulfilled),
      ("is_closed", encode o.closed), ("created_at", encode o.createdAt)]
  decode? j := do
    let [id, user, instrument, side, type, price, quantity, fulfilled, closed, createdAt] ←
      j.record? ["id", "user_id", "instrument_id", "side", "order_type", "price", "quantity",
        "quantity_fulfilled", "is_closed", "created_at"] | none
    return {
      id := ← decode? id
      user := ← decode? user
      instrument := ← decode? instrument
      side := ← decode? side
      type := ← decode? type
      price := ← decode? price
      quantity := ← decode? quantity
      fulfilled := ← decode? fulfilled
      closed := ← decode? closed
      createdAt := ← decode? createdAt }

instance : WireForm Trade where
  encode t := .ofFields
    [("ask_id", encode t.askId), ("bid_id", encode t.bidId), ("price", encode t.price),
      ("quantity", encode t.quantity), ("created_at", encode t.createdAt)]
  decode? j := do
    let [askId, bidId, price, quantity, createdAt] ←
      j.record? ["ask_id", "bid_id", "price", "quantity", "created_at"] | none
    return {
      askId := ← decode? askId
      bidId := ← decode? bidId
      price := ← decode? price
      quantity := ← decode? quantity
      createdAt := ← decode? createdAt }

instance : WireForm Instrument where
  encode i := .ofFields [("id", encode i.id), ("current_price", encode i.currentPrice)]
  decode? j := do
    let [id, currentPrice] ← j.record? ["id", "current_price"] | none
    return { id := ← decode? id, currentPrice := ← decode? currentPrice }

instance : WireForm TradeTick where
  encode t := .ofFields
    [("price", encode t.price), ("quantity", encode t.quantity), ("at", encode t.madeAt)]
  decode? j := do
    let [price, quantity, madeAt] ← j.record? ["price", "quantity", "at"] | none
    return {
      price := ← decode? price
      quantity := ← decode? quantity
      madeAt := ← decode? madeAt }

instance : WireForm DepthSnapshot where
  encode s := .ofFields
    [("instrument_id", encode s.instrument), ("asks", encode s.asks), ("bids", encode s.bids),
      ("latest_trades", encode s.latestTrades)]
  decode? j := do
    let [instrument, asks, bids, latestTrades] ←
      j.record? ["instrument_id", "asks", "bids", "latest_trades"] | none
    return {
      instrument := ← decode? instrument
      asks := ← decode? asks
      bids := ← decode? bids
      latestTrades := ← decode? latestTrades }

/-- Reads one field of an object whose names are prices. -/
def decodePriced? {α : Type} [WireForm α] (f : Option String × Json) : Option (Price × α) := do
  return (← decode? (.text f.1), ← decode? f.2)

instance {α : Type} [WireForm α] : WireForm (PriceMap α) where
  encode m := .ofFields (m.entries.map fun e => (e.1.text, encode e.2))
  decode?
    | .object fields => (fields.mapM decodePriced?).map PriceMap.ofList
    | _ => none

instance : WireForm DepthUpdate where
  encode u := .ofFields
    [("ask_diff", encode u.askDiff), ("bid_diff", encode u.bidDiff), ("trades", encode u.trades)]
  decode? j := do
    let [askDiff, bidDiff, trades] ← j.record? ["ask_diff", "bid_diff", "trades"] | none
    return {
      askDiff := ← decode? askDiff
      bidDiff := ← decode? bidDiff
      trades := ← decode? trades }

instance : WireForm EngineConfig where
  encode c := .ofFields
    [("recent_trade_count", encode c.recentTradeCount),
      ("submission_buffer", encode c.submissionBuffer)]
  decode? j := do
    let [recentTradeCount, submissionBuffer] ←
      j.record? ["recent_trade_count", "submission_buffer"] | none
    return {
      recentTradeCount := ← decode? recentTradeCount
      submissionBuffer := ← decode? submissionBuffer }

instance : WireForm ExchangeConfig where
  encode c := .ofFields
    [("engine", encode c.engine), ("depth_trade_history", encode c.depthTradeHistory),
      ("log_filter", encode c.logFilter)]
  decode? j := do
    let [engine, depthTradeHistory, logFilter] ←
      j.record? ["engine", "depth_trade_history", "log_filter"] | none
    return {
      engine := ← decode? engine
      depthTradeHistory := ← decode? depthTradeHistory
      logFilter := ← decode? logFilter }

/-- The name of an environment on the wire. -/
def Environment.wireName : Environment → String
  | .development => "development"
  | .test => "test"
  | .production => "production"

instance : WireForm Environment :=
  .ofNames Environment.wireName [.development, .test, .production]

end Bourse
