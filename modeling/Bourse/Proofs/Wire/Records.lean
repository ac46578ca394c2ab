import Bourse.Proofs.Wire.Values
import Bourse.Wire.Records

/-!
# Records on the wire

What is written for an order, a trade or a view of market depth is read as the same, but for the
minus signs of zero prices, which are lost; settings are read as they are. Values that differ are
written differently, and be it by such a sign (`records_round_trip`).

A record returns what its fields return, because each of its names is found once
(`Json.record?_ofFields`). The entries of a map keyed by price come back in their order, because
they are written in it (`PriceMap.entries_ofList`).

A zero has a minus sign if a price below zero was rounded to nothing by a power of ten. A trade at
such a price is not read as it was written (`trade_loses_sign`).
-/

namespace Bourse

open WireForm

/-! ## Fields -/

namespace Json

/-- A name that is there once is found with its value. -/
theorem filter_name {fields : List (String × Json)} (h : (fields.map (·.1)).Nodup)
    {f : String × Json} (hf : f ∈ fields) :
    (fields.map fun g => (some g.1, g.2)).filter
    (fun g => g.1 = some f.1) = [(some f.1, f.2)] := by
  induction fields with
  | nil => cases hf
  | cons g fields ih =>
    rw [List.map_cons, List.nodup_cons] at h
    rcases List.mem_cons.1 hf with rfl | hf
    · have hnone : (fields.map fun g => (some g.1, g.2)).filter
          (fun g => g.1 = some f.1) = [] := by
        refine List.filter_eq_nil_iff.2 fun g hg => ?_
        obtain ⟨g', hg', rfl⟩ := List.mem_map.1 hg
        simp only [Option.some.injEq, decide_eq_true_eq]
        exact fun heq => h.1 (heq ▸ List.mem_map_of_mem hg')
      rw [List.map_cons, List.filter_cons_of_pos (by simp), hnone]
    · have hne : g.1 ≠ f.1 := fun heq => h.1 (heq ▸ List.mem_map_of_mem hf)
      rw [List.map_cons, List.filter_cons_of_neg (by simpa using hne), ih h.2 hf]

/-- Looking up the names of fields gives their values, if each finds its own. -/
theorem mapM_names {look : String → Option Json} {fields : List (String × Json)}
    (h : ∀ f ∈ fields, look f.1 = some f.2) :
    (fields.map (·.1)).mapM look = some (fields.map (·.2)) := by
  induction fields with
  | nil => rfl
  | cons f fields ih =>
    simp only [List.map_cons, List.mapM_cons, h f List.mem_cons_self,
      ih fun g hg => h g (List.mem_cons_of_mem _ hg)]
    rfl

/-- In an object without repeated names each name is found, with its value. -/
theorem record?_ofFields (names : List String) (values : List Json)
    (hlength : names.length = values.length) (hnames : names.Nodup) :
    (ofFields (names.zip values)).record? names = some values := by
  have hfst : (names.zip values).map (·.1) = names := List.map_fst_zip (Nat.le_of_eq hlength)
  have hsnd : (names.zip values).map (·.2) = values := List.map_snd_zip (Nat.le_of_eq hlength.symm)
  generalize names.zip values = fields at hfst hsnd ⊢
  have hnamed : ((fields.map fun f => (some f.1, f.2)).all fun f => f.1.isSome) = true := by simp
  rw [ofFields, record?, if_pos hnamed, ← hfst, ← hsnd]
  refine mapM_names fun f hf => ?_
  simp only [filter_name (hfst ▸ hnames) hf]

/-- Fields of the same names are written alike only if their values are. -/
theorem ofFields_injective {names : List String} {values values' : List Json}
    (hlength : names.length = values.length) (hlength' : names.length = values'.length)
    (h : ofFields (names.zip values) = ofFields (names.zip values')) : values = values' := by
  have hsnd := List.map_snd_zip (Nat.le_of_eq hlength.symm)
  have hsnd' := List.map_snd_zip (Nat.le_of_eq hlength'.symm)
  have hfields := congrArg (List.map Prod.snd) (Json.object.inj h)
  rw [List.map_map, List.map_map] at hfields
  exact hsnd.symm.trans (Eq.trans hfields hsnd')

end Json

/-! ## Maps keyed by price -/

namespace PriceMap

variable {α : Type}

/-- An entry above all others is put last. -/
theorem insertEntry_of_above {p : Price} {v : α} {l : List (Price × α)} (h : ∀ e ∈ l, e.1 < p) :
    insertEntry p v l = l ++ [(p, v)] := by
  induction l with
  | nil => rfl
  | cons e l ih =>
    have he : e.1 < p := h e List.mem_cons_self
    have hnot : ¬ p < e.1 := Int.lt_asymm he
    rw [insertEntry, if_neg hnot, if_pos he, ih fun e' he' => h e' (List.mem_cons_of_mem _ he')]
    rfl

/-- Ascending entries make up a map as they are. -/
theorem entries_ofList {l : List (Price × α)} (h : l.Pairwise fun a b => a.1 < b.1) :
    (ofList l).entries = l := by
  have hfold : ∀ (l : List (Price × α)) (m : PriceMap α),
      (m.entries ++ l).Pairwise (fun a b => a.1 < b.1) →
      (l.foldl (fun m e => m.insert e.1 e.2) m).entries = m.entries ++ l := by
    intro l
    induction l with
    | nil => exact fun m _ => (List.append_nil _).symm
    | cons e l ih =>
      intro m hm
      have habove : ∀ e' ∈ m.entries, e'.1 < e.1 := fun e' he' =>
        (List.pairwise_append.1 hm).2.2 e' he' e List.mem_cons_self
      have hinsert : (m.insert e.1 e.2).entries = m.entries ++ [e] := insertEntry_of_above habove
      rw [List.foldl_cons, ih _ (by rw [hinsert, List.append_assoc]; exact hm), hinsert,
        List.append_assoc]
      rfl
  exact hfold l empty h

/-- Plain prices ascend as the prices do. -/
theorem ascending_map_plain {l : List (Price × α)} (h : l.Pairwise fun a b => a.1 < b.1) :
    (l.map (Prod.map Price.plain id)).Pairwise fun a b => a.1 < b.1 := by
  refine List.pairwise_map.2 (h.imp fun {a b} hab => ?_)
  rw [Price.lt_def] at hab ⊢
  simpa using hab

/-- The map, without the signs of zero prices. -/
def plain (m : PriceMap α) : PriceMap α :=
  ⟨m.entries.map (Prod.map Price.plain id), ascending_map_plain m.ascending⟩

/-- Maps with the same entries are the same. -/
theorem ext_entries {m m' : PriceMap α} (h : m.entries = m'.entries) : m = m' := by
  cases m
  cases h
  rfl

/-- A map of prices returns with plain prices, if its values return as they are. -/
theorem returns_priceMap [WireForm α] (h : Returns (id : α → α)) :
    Returns (plain : PriceMap α → PriceMap α) where
  decode_encode m := by
    have hfields : ∀ l : List (Price × α),
        ((l.map fun e => (e.1.text, encode e.2)).map fun f => (some f.1, f.2)).mapM
            (decodePriced? (α := α)) =
          some (l.map (Prod.map Price.plain id)) := by
      intro l
      induction l with
      | nil => rfl
      | cons e l ih =>
        have he : decodePriced? (some e.1.text, encode e.2) = some (e.1.plain, e.2) := by
          show (do return (← decode? (encode e.1), ← decode? (encode e.2))) = _
          rw [returns_price.decode_encode, h.decode_encode]
          rfl
        simp only [List.map_cons, List.mapM_cons, he, ih]
        rfl
    show (List.mapM decodePriced? _).map ofList = some m.plain
    rw [hfields m.entries, Option.map_some]
    exact congrArg some (ext_entries (entries_ofList m.plain.ascending))
  encode_injective m m' heq := by
    have hfields := Json.object.inj heq
    rw [List.map_map, List.map_map] at hfields
    refine ext_entries ((List.map_inj_right ?_).1 hfields)
    intro e e' he
    have hprice : e.1.text = e'.1.text := Option.some.inj (congrArg Prod.fst he)
    have hvalue : encode e.2 = encode e'.2 := congrArg Prod.snd he
    exact Prod.ext (Price.text_injective hprice) (h.encode_injective hvalue)

end PriceMap

/-! ## Records -/

/-- The order, without the sign of a zero price. -/
def Order.plain (o : Order) : Order := { o with price := o.price.plain }

/-- The trade, without the sign of a zero price. -/
def Trade.plain (t : Trade) : Trade := { t with price := t.price.plain }

/-- The trade as depth shows it, without the sign of a zero price. -/
def TradeTick.plain (t : TradeTick) : TradeTick := { t with price := t.price.plain }

/-- The view of depth, without the signs of zero prices. -/
def DepthSnapshot.plain (s : DepthSnapshot) : DepthSnapshot where
  instrument := s.instrument
  asks := s.asks.map (Prod.map Price.plain id)
  bids := s.bids.map (Prod.map Price.plain id)
  latestTrades := s.latestTrades.map TradeTick.plain

/-- The changes of depth, without the signs of zero prices. -/
def DepthUpdate.plain (u : DepthUpdate) : DepthUpdate where
  askDiff := u.askDiff.plain
  bidDiff := u.bidDiff.plain
  trades := u.trades.map TradeTick.plain

/-- A record is returned as its fields are, if it is written by them and read from them. -/
theorem returns_record {α : Type} [WireForm α] {plain : α → α} {next : List Json → Option α}
    (names : List String) (values : α → List Json) (hnames : names.Nodup)
    (hlength : ∀ a, names.length = (values a).length)
    (hencode : ∀ a, encode a = Json.ofFields (names.zip (values a)))
    (hdecode : ∀ j, decode? j = j.record? names >>= next)
    (hnext : ∀ a, next (values a) = some (plain a))
    (hinj : ∀ a b, values a = values b → a = b) : Returns plain where
  decode_encode a := by
    rw [hdecode, hencode, Json.record?_ofFields names (values a) (hlength a) hnames]
    exact hnext a
  encode_injective a b heq := by
    rw [hencode, hencode] at heq
    exact hinj a b (Json.ofFields_injective (hlength a) (hlength b) heq)

/-- An order returns with plain prices. -/
theorem returns_order : Returns Order.plain :=
  returns_record
    ["id", "user_id", "instrument_id", "side", "order_type", "price", "quantity",
      "quantity_fulfilled", "is_closed", "created_at"]
    (fun o => [encode o.id, encode o.user, encode o.instrument, encode o.side, encode o.type,
      encode o.price, encode o.quantity, encode o.fulfilled, encode o.closed, encode o.createdAt])
    (by decide) (fun _ => rfl) (fun _ => rfl) (fun _ => rfl)
    (fun o => by
      simp only [returns_orderId.decode_encode, returns_userId.decode_encode,
        returns_instrumentId.decode_encode, returns_side.decode_encode,
        returns_orderType.decode_encode, returns_price.decode_encode,
        returns_quantity.decode_encode, returns_bool.decode_encode,
        returns_timestamp.decode_encode]
      rfl)
    (fun o o' h => by
      simp only [List.cons.injEq, and_true] at h
      obtain ⟨hid, huser, hinstrument, hside, htype, hprice, hquantity, hfulfilled, hclosed,
        hcreated⟩ := h
      cases o
      cases o'
      simp only [Order.mk.injEq]
      exact ⟨returns_orderId.encode_injective hid, returns_userId.encode_injective huser,
        returns_instrumentId.encode_injective hinstrument, returns_side.encode_injective hside,
        returns_orderType.encode_injective htype, returns_price.encode_injective hprice,
        returns_quantity.encode_injective hquantity, returns_quantity.encode_injective hfulfilled,
        returns_bool.encode_injective hclosed, returns_timestamp.encode_injective hcreated⟩)

/-- A trade returns with a plain price. -/
theorem returns_trade : Returns Trade.plain :=
  returns_record ["ask_id", "bid_id", "price", "quantity", "created_at"]
    (fun t => [encode t.askId, encode t.bidId, encode t.price, encode t.quantity,
      encode t.createdAt]) (by decide) (fun _ => rfl) (fun _ => rfl) (fun _ => rfl)
    (fun t => by
      simp only [returns_orderId.decode_encode, returns_price.decode_encode,
        returns_quantity.decode_encode, returns_timestamp.decode_encode]
      rfl)
    (fun t t' h => by
      simp only [List.cons.injEq, and_true] at h
      obtain ⟨hask, hbid, hprice, hquantity, hcreated⟩ := h
      cases t
      cases t'
      simp only [Trade.mk.injEq]
      exact ⟨returns_orderId.encode_injective hask, returns_orderId.encode_injective hbid,
        returns_price.encode_injective hprice, returns_quantity.encode_injective hquantity,
        returns_timestamp.encode_injective hcreated⟩)

/-- A tick returns with a plain price. -/
theorem returns_tradeTick : Returns TradeTick.plain :=
  returns_record ["price", "quantity", "at"]
    (fun t => [encode t.price, encode t.quantity, encode t.madeAt])
    (by decide) (fun _ => rfl) (fun _ => rfl) (fun _ => rfl)
    (fun t => by
      simp only [returns_price.decode_encode, returns_quantity.decode_encode,
        returns_timestamp.decode_encode]
      rfl)
    (fun t t' h => by
      simp only [List.cons.injEq, and_true] at h
      obtain ⟨hprice, hquantity, hmadeAt⟩ := h
      cases t
      cases t'
      simp only [TradeTick.mk.injEq]
      exact ⟨returns_price.encode_injective hprice, returns_quantity.encode_injective hquantity,
        returns_timestamp.encode_injective hmadeAt⟩)

/-- The levels of a side. -/
theorem returns_levels : Returns (List.map (Prod.map Price.plain (id : Quantity → Quantity))) :=
  returns_list (returns_prod returns_price returns_quantity)

/-- A snapshot of depth returns with plain prices. -/
theorem returns_depthSnapshot : Returns DepthSnapshot.plain :=
  returns_record ["instrument_id", "asks", "bids", "latest_trades"]
    (fun s => [encode s.instrument, encode s.asks, encode s.bids, encode s.latestTrades])
    (by decide) (fun _ => rfl) (fun _ => rfl) (fun _ => rfl)
    (fun s => by
      simp only [returns_instrumentId.decode_encode, returns_levels.decode_encode,
        (returns_list returns_tradeTick).decode_encode]
      rfl)
    (fun s s' h => by
      simp only [List.cons.injEq, and_true] at h
      obtain ⟨hinstrument, hasks, hbids, htrades⟩ := h
      cases s
      cases s'
      simp only [DepthSnapshot.mk.injEq]
      exact ⟨returns_instrumentId.encode_injective hinstrument,
        returns_levels.encode_injective hasks, returns_levels.encode_injective hbids,
        (returns_list returns_tradeTick).encode_injective htrades⟩)

/-- The changes of a side. -/
theorem returns_diffs : Returns (PriceMap.plain : PriceMap Int64 → PriceMap Int64) :=
  PriceMap.returns_priceMap returns_int64

/-- An update of depth returns with plain prices. -/
theorem returns_depthUpdate : Returns DepthUpdate.plain :=
  returns_record ["ask_diff", "bid_diff", "trades"]
    (fun u => [encode u.askDiff, encode u.bidDiff, encode u.trades])
    (by decide) (fun _ => rfl) (fun _ => rfl) (fun _ => rfl)
    (fun u => by
      simp only [returns_diffs.decode_encode, (returns_list returns_tradeTick).decode_encode]
      rfl)
    (fun u u' h => by
      simp only [List.cons.injEq, and_true] at h
      obtain ⟨haskDiff, hbidDiff, htrades⟩ := h
      cases u
      cases u'
      simp only [DepthUpdate.mk.injEq]
      exact ⟨returns_diffs.encode_injective haskDiff, returns_diffs.encode_injective hbidDiff,
        (returns_list returns_tradeTick).encode_injective htrades⟩)

/-- The settings of an engine return as they are. -/
theorem returns_engineConfig : Returns (id : EngineConfig → EngineConfig) :=
  returns_record ["recent_trade_count", "submission_buffer"]
    (fun c => [encode c.recentTradeCount, encode c.submissionBuffer])
    (by decide) (fun _ => rfl) (fun _ => rfl) (fun _ => rfl)
    (fun c => by
      simp only [returns_uint64.decode_encode]
      rfl)
    (fun c c' h => by
      simp only [List.cons.injEq, and_true] at h
      obtain ⟨hcount, hbuffer⟩ := h
      cases c
      cases c'
      simp only [EngineConfig.mk.injEq]
      exact ⟨returns_uint64.encode_injective hcount, returns_uint64.encode_injective hbuffer⟩)

/-- The settings of an exchange return as they are. -/
theorem returns_exchangeConfig : Returns (id : ExchangeConfig → ExchangeConfig) :=
  returns_record ["engine", "depth_trade_history", "log_filter"]
    (fun c => [encode c.engine, encode c.depthTradeHistory, encode c.logFilter])
    (by decide) (fun _ => rfl) (fun _ => rfl) (fun _ => rfl)
    (fun c => by
      simp only [returns_engineConfig.decode_encode, returns_uint64.decode_encode,
        returns_string.decode_encode]
      rfl)
    (fun c c' h => by
      simp only [List.cons.injEq, and_true] at h
      obtain ⟨hengine, hhistory, hfilter⟩ := h
      cases c
      cases c'
      simp only [ExchangeConfig.mk.injEq]
      exact ⟨returns_engineConfig.encode_injective hengine,
        returns_uint64.encode_injective hhistory, returns_string.encode_injective hfilter⟩)

/-! ## What is returned as it is -/

/-- The prices of an order. -/
def Order.prices (o : Order) : List Price := [o.price]

/-- The prices of a trade. -/
def Trade.prices (t : Trade) : List Price := [t.price]

/-- The prices of a view of depth. -/
def DepthSnapshot.prices (s : DepthSnapshot) : List Price :=
  s.asks.map (·.1) ++ s.bids.map (·.1) ++ s.latestTrades.map (·.price)

/-- The prices of changes of depth. -/
def DepthUpdate.prices (u : DepthUpdate) : List Price :=
  u.askDiff.entries.map (·.1) ++ u.bidDiff.entries.map (·.1) ++ u.trades.map (·.price)

/-- Every value is written as a text of its own, which is read as the plain form of the value, and
so as the value itself just in case no price of it is a zero with a minus sign. -/
structure RoundTrips {α : Type} [WireForm α] (plain : α → α) (prices : α → List Price) : Prop where
  read?_write : ∀ a : α, read? (write a) = some (plain a)
  plain_iff : ∀ a, plain a = a ↔ ∀ p ∈ prices a, p.isNegativeZero = false
  write_injective : Function.Injective (write : α → String)

/-- A list stays as it is if each of its elements does. -/
theorem map_eq_self_iff {α : Type} {f : α → α} {l : List α} : l.map f = l ↔ ∀ a ∈ l, f a = a := by
  have h := List.map_inj_left (f := f) (g := id) (l := l)
  rwa [List.map_id] at h

/-- Entries stay as they are if no price is a negative zero. -/
theorem map_fst_eq_self_iff {α : Type} {l : List (Price × α)} :
    l.map (Prod.map Price.plain id) = l ↔ ∀ p ∈ l.map (·.1), p.isNegativeZero = false := by
  rw [map_eq_self_iff, List.forall_mem_map]
  refine forall₂_congr fun e _ => ?_
  rw [← Price.plain_eq_self_iff]
  exact ⟨congrArg Prod.fst, fun h => Prod.ext h rfl⟩

/-- Ticks stay as they are if no price is a negative zero. -/
theorem map_price_eq_self_iff {l : List TradeTick} :
    l.map TradeTick.plain = l ↔ ∀ p ∈ l.map (·.price), p.isNegativeZero = false := by
  rw [map_eq_self_iff, List.forall_mem_map]
  refine forall₂_congr fun t _ => ?_
  rw [← Price.plain_eq_self_iff]
  exact ⟨congrArg TradeTick.price, fun h => by rw [TradeTick.plain, h]⟩

/-- A map stays as it is if no price is a negative zero. -/
theorem PriceMap.plain_eq_self_iff {α : Type} {m : PriceMap α} :
    m.plain = m ↔ ∀ p ∈ m.entries.map (·.1), p.isNegativeZero = false := by
  rw [← map_fst_eq_self_iff]
  exact ⟨congrArg PriceMap.entries, fun h => PriceMap.ext_entries h⟩

/-- An order returns as it is unless a price of it is a negative zero. -/
theorem roundTrips_order : RoundTrips Order.plain Order.prices where
  read?_write := returns_order.read?_write
  plain_iff o := by
    rw [Order.prices, List.forall_mem_singleton, ← Price.plain_eq_self_iff]
    exact ⟨congrArg Order.price, fun h => by rw [Order.plain, h]⟩
  write_injective := returns_order.write_injective

/-- A trade returns as it is unless its price is a negative zero. -/
theorem roundTrips_trade : RoundTrips Trade.plain Trade.prices where
  read?_write := returns_trade.read?_write
  plain_iff t := by
    rw [Trade.prices, List.forall_mem_singleton, ← Price.plain_eq_self_iff]
    exact ⟨congrArg Trade.price, fun h => by rw [Trade.plain, h]⟩
  write_injective := returns_trade.write_injective

/-- A snapshot of depth returns as it is unless a price in it is a negative zero. -/
theorem roundTrips_depthSnapshot : RoundTrips DepthSnapshot.plain DepthSnapshot.prices where
  read?_write := returns_depthSnapshot.read?_write
  plain_iff s := by
    rw [DepthSnapshot.prices, List.forall_mem_append, List.forall_mem_append,
      ← map_fst_eq_self_iff, ← map_fst_eq_self_iff, ← map_price_eq_self_iff]
    constructor
    · intro h
      exact ⟨⟨congrArg DepthSnapshot.asks h, congrArg DepthSnapshot.bids h⟩,
        congrArg DepthSnapshot.latestTrades h⟩
    · rintro ⟨⟨hasks, hbids⟩, htrades⟩
      rw [DepthSnapshot.plain, hasks, hbids, htrades]
  write_injective := returns_depthSnapshot.write_injective

/-- An update of depth returns as it is unless a price in it is a negative zero. -/
theorem roundTrips_depthUpdate : RoundTrips DepthUpdate.plain DepthUpdate.prices where
  read?_write := returns_depthUpdate.read?_write
  plain_iff u := by
    rw [DepthUpdate.prices, List.forall_mem_append, List.forall_mem_append,
      ← PriceMap.plain_eq_self_iff, ← PriceMap.plain_eq_self_iff, ← map_price_eq_self_iff]
    constructor
    · intro h
      exact ⟨⟨congrArg DepthUpdate.askDiff h, congrArg DepthUpdate.bidDiff h⟩,
        congrArg DepthUpdate.trades h⟩
    · rintro ⟨⟨haskDiff, hbidDiff⟩, htrades⟩
      rw [DepthUpdate.plain, haskDiff, hbidDiff, htrades]
  write_injective := returns_depthUpdate.write_injective

/-- Settings have no price and return as they are. -/
theorem roundTrips_exchangeConfig :
    RoundTrips (id : ExchangeConfig → ExchangeConfig) fun _ => [] where
  read?_write := returns_exchangeConfig.read?_write
  plain_iff _ := iff_of_true rfl nofun
  write_injective := returns_exchangeConfig.write_injective

/-- Orders, trades, both views of market depth and settings are written as texts that are read as
the same values, but for the minus signs of zero prices; such a price keeps its value and its
places. No two values are written as one text. -/
theorem records_round_trip :
    (∀ p : Price, p.plain.units = p.units ∧ p.plain.value.scale = p.value.scale) ∧
    RoundTrips Order.plain Order.prices ∧ RoundTrips Trade.plain Trade.prices ∧
    RoundTrips DepthSnapshot.plain DepthSnapshot.prices ∧
    RoundTrips DepthUpdate.plain DepthUpdate.prices ∧
    RoundTrips (id : ExchangeConfig → ExchangeConfig) fun _ => [] :=
  ⟨fun p => ⟨p.units_plain, rfl⟩, roundTrips_order, roundTrips_trade, roundTrips_depthSnapshot,
    roundTrips_depthUpdate, roundTrips_exchangeConfig⟩

/-- A trade is read whose price was rounded to zero from below. Written again, it is not read as
the same. -/
theorem trade_loses_sign :
    let text :=
      "\x7b\"ask_id\":1,\"bid_id\":2,\"price\":\"-0.4e-28\",\"quantity\":1,\"created_at\":5\x7d"
    ∃ t : Trade, read? text = some t ∧ read? (write t) ≠ some t := by
  refine ⟨⟨⟨1⟩, ⟨2⟩, ⟨⟨true, 0, 28, by decide, by decide⟩⟩, ⟨1⟩, ⟨5⟩⟩, by decide +kernel, ?_⟩
  rw [roundTrips_trade.read?_write]
  decide

end Bourse
