import Bourse.Proofs.Book.Rules
import Bourse.Proofs.Settlement.Settling
import Mathlib.Data.List.Induction

/-!
# Prices of trades

The price of a trade keeps to the limits of both orders, and is set by them or by the last price
(`FairPrice`). A pair that crosses trades at such a price (`fairPrice_tradePrice`).

The last price comes from what was traded and replayed before: these `Mark`s make a tape, and
`quote` reads the last price off a tape. Everything that a book does keeps its last price up with
the tape (`Desk.rules_quoted`).
-/

namespace Bourse

open Bourse.Action

/-! ## Fair prices -/

/-- A price for an ask and a bid: it keeps to their limits. Two limit orders trade at the limit of
the earlier one, and the bid's if both are of one moment. One that is not a limit order takes any
price and trades at the limit of the other, and two of these trade at the last price. -/
structure FairPrice (ask bid : Order) (last price : Price) : Prop where
  askLimit : ask.type = .limit → ask.price ≤ price
  bidLimit : bid.type = .limit → price ≤ bid.price
  limits : ask.type = .limit → bid.type = .limit →
    price = if ask.createdAt < bid.createdAt then ask.price else bid.price
  marketAsk : ask.type ≠ .limit → bid.type = .limit → price = bid.price
  marketBid : ask.type = .limit → bid.type ≠ .limit → price = ask.price
  markets : ask.type ≠ .limit → bid.type ≠ .limit → price = last

section

variable {ask bid ask' bid' : Order} {last price : Price}

/-- An order that is not dormant has a limit or takes any price. -/
theorem Order.limit_or_market {o : Order} (h : o.type ≠ .stopLoss) :
    o.type = .limit ∧ o.isMarket = false ∨ o.type ≠ .limit ∧ o.isMarket = true := by
  unfold Order.isMarket
  cases ht : o.type with
  | limit => exact .inl ⟨rfl, rfl⟩
  | market => exact .inr ⟨nofun, rfl⟩
  | stopLoss => exact absurd ht h
  | stopLossActive => exact .inr ⟨nofun, rfl⟩

/-- Two limit orders that cross trade at one of the limits, which both take. -/
theorem fairPrice_limits (hta : ask.type = .limit) (htb : bid.type = .limit)
    (hle : ask.price ≤ bid.price) :
    FairPrice ask bid last (if ask.createdAt < bid.createdAt then ask.price else bid.price) := by
  have hprice : ask.price ≤ (if ask.createdAt < bid.createdAt then ask.price else bid.price) ∧
      (if ask.createdAt < bid.createdAt then ask.price else bid.price) ≤ bid.price := by
    split
    · exact ⟨Price.le_def.2 le_rfl, hle⟩
    · exact ⟨hle, Price.le_def.2 le_rfl⟩
  exact ⟨fun _ => hprice.1, fun _ => hprice.2, fun _ _ => rfl, fun h => absurd hta h,
    fun _ h => absurd htb h, fun h => absurd hta h⟩

/-- A pair that crosses trades at a fair price. -/
theorem fairPrice_tradePrice (ha : ask.type ≠ .stopLoss) (hb : bid.type ≠ .stopLoss)
    (hc : crosses ask bid = true) (last : Price) :
    FairPrice ask bid last (tradePrice ask bid last) := by
  unfold crosses at hc
  unfold tradePrice
  rcases ask.limit_or_market ha with ⟨hta, hma⟩ | ⟨hta, hma⟩ <;>
    rcases bid.limit_or_market hb with ⟨htb, hmb⟩ | ⟨htb, hmb⟩ <;> rw [hma, hmb]
  · rw [hma, hmb, Bool.false_or, Bool.false_or, decide_eq_true_eq] at hc
    exact fairPrice_limits hta htb hc
  · exact ⟨fun _ => Price.le_def.2 le_rfl, fun h => absurd h htb, fun _ h => absurd h htb,
      fun _ h => absurd h htb, fun _ _ => rfl, fun h => absurd hta h⟩
  · exact ⟨fun h => absurd h hta, fun _ => Price.le_def.2 le_rfl, fun h => absurd h hta,
      fun _ _ => rfl, fun h => absurd h hta, fun _ h => absurd htb h⟩
  · exact ⟨fun h => absurd h hta, fun h => absurd h htb, fun h => absurd h hta,
      fun _ h => absurd h htb, fun h => absurd h hta, fun _ _ => rfl⟩

/-- An order goes on being a limit order, or not being one. -/
theorem Order.Follows.limit_iff {o o' : Order} (h : o.Follows o') :
    o'.type = .limit ↔ o.type = .limit := by
  rcases h.type with ht | ⟨ht, ht'⟩
  · rw [ht]
  · rw [ht, ht']
    exact iff_of_false nofun nofun

/-- A price that is fair for orders was fair for them before. -/
theorem FairPrice.of_follows (h : FairPrice ask' bid' last price) (ha : ask.Follows ask')
    (hb : bid.Follows bid') : FairPrice ask bid last price where
  askLimit hta := ha.price ▸ h.askLimit (ha.limit_iff.2 hta)
  bidLimit htb := hb.price ▸ h.bidLimit (hb.limit_iff.2 htb)
  limits hta htb := by
    rw [← ha.price, ← hb.price, ← ha.createdAt, ← hb.createdAt]
    exact h.limits (ha.limit_iff.2 hta) (hb.limit_iff.2 htb)
  marketAsk hta htb := hb.price ▸ h.marketAsk (fun h => hta (ha.limit_iff.1 h))
    (hb.limit_iff.2 htb)
  marketBid hta htb := ha.price ▸ h.marketBid (ha.limit_iff.2 hta) fun h => htb (hb.limit_iff.1 h)
  markets hta htb := h.markets (fun h => hta (ha.limit_iff.1 h)) fun h => htb (hb.limit_iff.1 h)

/-- A fair price is the limit of a limit order of the pair, or the last price. -/
theorem FairPrice.eq_limit_or_last (h : FairPrice ask bid last price) :
    (ask.type = .limit ∧ price = ask.price) ∨ (bid.type = .limit ∧ price = bid.price) ∨
      price = last := by
  by_cases hta : ask.type = .limit <;> by_cases htb : bid.type = .limit
  · have hprice := h.limits hta htb
    split at hprice
    · exact .inl ⟨hta, hprice⟩
    · exact .inr (.inl ⟨htb, hprice⟩)
  · exact .inl ⟨hta, h.marketBid hta htb⟩
  · exact .inr (.inl ⟨htb, h.marketAsk hta htb⟩)
  · exact .inr (.inr (h.markets hta htb))

end

/-- The trade is one of a known ask and a known bid, at a fair price for them. -/
def FairTrade (known : OrderRef → Prop) (os : Orders) (last : Price) (t : Trade) : Prop :=
  ∃ ask bid, known ask ∧ known bid ∧ (os.get ask).side = .ask ∧ (os.get bid).side = .bid ∧
    t.askId = (os.get ask).id ∧ t.bidId = (os.get bid).id ∧
    FairPrice (os.get ask) (os.get bid) last t.price

/-- A trade that is fair was fair before. -/
theorem FairTrade.of_follow {known : OrderRef → Prop} {os os' : Orders} {last : Price} {t : Trade}
    (h : FairTrade known os' last t) (hf : os.Follow os') : FairTrade known os last t := by
  obtain ⟨ask, bid, hka, hkb, hsa, hsb, hask, hbid, hprice⟩ := h
  exact ⟨ask, bid, hka, hkb, (hf ask).side.symm.trans hsa, (hf bid).side.symm.trans hsb,
    hask.trans (hf ask).id, hbid.trans (hf bid).id, hprice.of_follows (hf ask) (hf bid)⟩

/-! ## The tape -/

/-- What can set the last price. -/
inductive Mark where
  /-- Trades of a previous run were replayed. -/
  | replayed (trades : List Trade)
  | traded (t : Trade)

/-- The trade of the latest time, and of several the one that comes last in the list. -/
def latest? : List Trade → Option Trade
  | [] => none
  | t :: rest =>
    match latest? rest with
    | some u => if t.createdAt ≤ u.createdAt then some u else some t
    | none => some t

/-- The latest of some trades is one of them. -/
theorem mem_of_latest? {trades : List Trade} {t : Trade} (h : latest? trades = some t) :
    t ∈ trades := by
  induction trades generalizing t with
  | nil => cases h
  | cons u rest ih =>
    rw [latest?] at h
    cases hrest : latest? rest with
    | none =>
      rw [hrest] at h
      cases h
      exact List.mem_cons_self
    | some v =>
      rw [hrest] at h
      dsimp only at h
      split at h
      · cases h
        exact List.mem_cons_of_mem _ (ih hrest)
      · cases h
        exact List.mem_cons_self

/-- The latest trade comes last if they are sorted by time, as long as equals stay in place. -/
theorem getLast?_mergeSort (trades : List Trade) :
    (trades.mergeSort fun a b => a.createdAt ≤ b.createdAt).getLast? = latest? trades := by
  have htrans : ∀ a b c : Trade, decide (a.createdAt ≤ b.createdAt) = true →
      decide (b.createdAt ≤ c.createdAt) = true → decide (a.createdAt ≤ c.createdAt) = true := by
    intro a b c hab hbc
    rw [decide_eq_true_eq] at *
    exact Int64.le_trans hab hbc
  have htotal : ∀ a b : Trade,
      (decide (a.createdAt ≤ b.createdAt) || decide (b.createdAt ≤ a.createdAt)) = true := by
    intro a b
    rw [Bool.or_eq_true, decide_eq_true_eq, decide_eq_true_eq]
    exact Int64.le_total a.createdAt.millis b.createdAt.millis
  induction trades with
  | nil => rw [List.mergeSort_nil, List.getLast?_nil, latest?]
  | cons t rest ih =>
    obtain ⟨front, back, hsorted, hrest, hfront⟩ := List.mergeSort_cons htrans htotal t rest
    have hpairwise := List.pairwise_mergeSort htrans htotal (t :: rest)
    rw [hrest] at ih
    rw [hsorted] at hpairwise ⊢
    rw [latest?, ← ih]
    rcases List.eq_nil_or_concat' back with rfl | ⟨back, last, rfl⟩
    · rw [List.append_nil, List.getLast?_concat]
      cases hlast : front.getLast? with
      | none => rfl
      | some u =>
        have hu := hfront u (List.mem_of_getLast? hlast)
        rw [Bool.not_eq_true', decide_eq_false_iff_not] at hu
        exact (if_neg hu).symm
    · have hle := (List.pairwise_cons.1 (List.pairwise_append.1 hpairwise).2.1).1 last
        (List.mem_append_right _ List.mem_cons_self)
      rw [← List.cons_append, ← List.append_assoc, ← List.append_assoc, List.getLast?_concat,
        List.getLast?_concat]
      exact (if_pos (of_decide_eq_true hle)).symm

namespace Mark

/-- The trade that was made. -/
def trade? : Mark → Option Trade
  | replayed _ => none
  | traded t => some t

/-- The last price after a mark. -/
def price (last : Price) : Mark → Price
  | replayed trades => (latest? trades).elim last (·.price)
  | traded t => t.price

end Mark

/-- The last price after the marks of a tape: that of the trade which was made last, or of the
latest one that was replayed since; the first price if there is none. -/
def quote (first : Price) (tape : List Mark) : Price := tape.foldl Mark.price first

/-- Each trade on the tape is fair, with the last price that the tape quotes before it. -/
def FairTape (known : OrderRef → Prop) (os : Orders) (first : Price) (tape : List Mark) : Prop :=
  ∀ past t later, tape = past ++ .traded t :: later → FairTrade known os (quote first past) t

section

variable {known : OrderRef → Prop} {os : Orders} {first : Price} {tape tape' : List Mark}

/-- The price after two parts of a tape is the one after the second, from the one after the
first. -/
theorem quote_append : quote first (tape ++ tape') = quote (quote first tape) tape' :=
  List.foldl_append

/-- A fair tape may be continued by one that is fair from its last price. -/
theorem FairTape.append (h : FairTape known os first tape)
    (h' : FairTape known os (quote first tape) tape') :
    FairTape known os first (tape ++ tape') := by
  intro past t later heq
  rcases List.append_eq_append_iff.1 heq with ⟨rest, rfl, htape'⟩ | ⟨rest, htape, htape'⟩
  · rw [quote_append]
    exact h' rest t later htape'
  · cases rest with
    | nil =>
      rw [List.append_nil] at htape
      exact htape ▸ h' [] t later htape'.symm
    | cons m rest =>
      obtain ⟨rfl, -⟩ := List.cons.inj htape'
      exact h past t rest htape

/-- A tape without entries is fair. -/
theorem fairTape_nil : FairTape known os first [] := fun past _ _ h => by
  cases past <;> cases h

/-- A tape on which trades are only replayed is fair. -/
theorem fairTape_replayed (trades : List Trade) : FairTape known os first [.replayed trades] := by
  intro past t later heq
  rcases past with _ | ⟨m, past⟩
  · cases heq
  · rw [List.cons_append, List.cons.injEq] at heq
    exact absurd heq.2 (by simp)

/-- What is said of the first price, of what is replayed and of the limits of known orders is said
of each price of a trade and of the last price. -/
theorem FairTape.forall_price {P : Price → Prop} (h : FairTape known os first tape)
    (hfirst : P first) (hreplayed : ∀ trades, .replayed trades ∈ tape → ∀ t ∈ trades, P t.price)
    (hlimit : ∀ r, known r → (os.get r).type = .limit → P (os.get r).price) :
    (∀ t, .traded t ∈ tape → P t.price) ∧ P (quote first tape) := by
  induction tape using List.reverseRecOn with
  | nil => exact ⟨fun _ ht => absurd ht List.not_mem_nil, hfirst⟩
  | append_singleton tape m ih =>
    have hpast : FairTape known os first tape := fun past t later heq =>
      h past t (later ++ [m]) (by rw [heq, List.append_assoc, List.cons_append])
    obtain ⟨htrades, hquote⟩ := ih hpast fun trades hmem =>
      hreplayed trades (List.mem_append_left _ hmem)
    rw [quote_append]
    cases m with
    | replayed trades =>
      refine ⟨fun t ht => htrades t (by simpa using ht), ?_⟩
      show P ((latest? trades).elim (quote first tape) (·.price))
      cases hlatest : latest? trades with
      | none => exact hquote
      | some t =>
        exact hreplayed trades (List.mem_append_right _ List.mem_cons_self) t
          (mem_of_latest? hlatest)
    | traded t =>
      obtain ⟨ask, bid, hka, hkb, -, -, -, -, hfair⟩ := h tape t [] rfl
      have hprice : P t.price := by
        rcases hfair.eq_limit_or_last with ⟨hta, hp⟩ | ⟨htb, hp⟩ | hp
        · exact hp ▸ hlimit ask hka hta
        · exact hp ▸ hlimit bid hkb htb
        · exact hp ▸ hquote
      refine ⟨fun u hu => ?_, hprice⟩
      rcases List.mem_append.1 hu with hu | hu
      · exact htrades u hu
      · cases List.mem_singleton.1 hu
        exact hprice

end

/-! ## The last price -/

namespace Simulated

/-- Settlement keeps a trade just if it answers with it. -/
theorem Settling.trades {ask bid : OrderRef} {price : Price} {o o' : Office Simulated}
    {answer : Option FillOutcome} (h : Settling ask bid price o answer o') :
    o'.backend.trades.toList = o.backend.trades.toList ++ (answer.bind (·.trade)).toList := by
  cases h with
  | gone _ _ _ trade => simp [trade]
  | refused _ _ _ _ trade => simp [trade]
  | traded _ _ _ _ _ _ _ _ _ trade => simp [trade]
  | overfilled => simp

end Simulated

namespace Desk

variable {d d' : Desk Simulated}

/-- The last price follows the trades. -/
def Quoted (d d' : Desk Simulated) : Prop :=
  ∃ new : List Trade, d'.trades = d.trades ++ new ∧
    d'.book.lastPrice = quote d.book.lastPrice (new.map .traded)

/-- If neither trades nor last price changed then the price is accounted for. -/
theorem quoted_of_same (ht : d'.trades = d.trades) (hp : d'.book.lastPrice = d.book.lastPrice) :
    Quoted d d' := ⟨[], ht.trans (List.append_nil _).symm, hp⟩

/-- Whatever a book does, its last price follows the trades. -/
theorem rules_quoted : Rules Simulated.settlement Quoted where
  refl _ := quoted_of_same rfl rfl
  trans := by
    rintro d d' d'' ⟨new, htrades, hlast⟩ ⟨new', htrades', hlast'⟩
    refine ⟨new ++ new', by rw [htrades', htrades, List.append_assoc], ?_⟩
    rw [hlast', hlast, List.map_append, quote_append]
  queue _ _ _ := quoted_of_same rfl (Book.lastPrice_withQueue ..)
  dormant _ _ _ := quoted_of_same rfl (Book.lastPrice_withStopLossQueue ..)
  ledger _ _ := quoted_of_same rfl rfl
  phase _ _ := quoted_of_same rfl rfl
  activate _ _ := quoted_of_same rfl rfl
  note {d _ _ _} hl := quoted_of_same
    (hl.of_ends (P := fun _ (o : Office Simulated) => o.backend.trades.toList = d.trades) fun j =>
      Simulated.ends_noteStopLoss.mono (fun _ t ht => by rw [ht]; rfl) fun _ _ hf => hf.elim) rfl
  fill {d _ _ _ out _} hl := by
    refine ⟨out.trade.toList, (Simulated.Settling.of_leads hl).trades, ?_⟩
    cases out.trade <;> rfl
  breakOff hl := quoted_of_same
    ((Simulated.Settling.of_leads hl).trades.trans (List.append_nil _)) rfl

end Desk

end Bourse
