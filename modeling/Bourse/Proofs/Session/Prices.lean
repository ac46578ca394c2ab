import Bourse.Proofs.Session.Priority

/-!
# Prices in sessions

`Session.tape` is what a session put on the tape: its trades, and the trades that were replayed. At
every moment the last price of the book is the one that the tape quotes, and every trade on the
tape is fair (`Session.priced_run`). So what is said of the first price, of what was replayed and
of all limits is said of every price that a session makes (`Session.prices_fair`).
-/

namespace Bourse

open Bourse.Action

namespace Session

open Desk

variable {s : Session} {c : Call} {known : OrderRef → Prop}

/-- What a call puts on the tape. -/
def marks (s : Session) : Call → List Mark
  | .loadTrades trades => [.replayed trades]
  | c => ((s.apply c).state.trades.drop s.state.trades.length).map .traded

/-- What calls put on the tape, the first first. -/
def tape (s : Session) : List Call → List Mark
  | [] => []
  | c :: rest => s.marks c ++ (s.apply c).tape rest

/-- The tape of two lists of calls is that of the one and then that of the other. -/
theorem tape_append (s : Session) (calls calls' : List Call) :
    s.tape (calls ++ calls') = s.tape calls ++ (s.run calls).tape calls' := by
  induction calls generalizing s with
  | nil => rfl
  | cons c rest ih =>
    rw [List.cons_append, tape, tape, ih, List.append_assoc]
    rfl

/-- What was replayed is on the tape since a call replayed it. -/
theorem replayed_of_mem_tape {calls : List Call} {trades : List Trade}
    (h : .replayed trades ∈ s.tape calls) : .loadTrades trades ∈ calls := by
  induction calls generalizing s with
  | nil => cases h
  | cons c rest ih =>
    rcases List.mem_append.1 h with h | h
    · cases c with
      | loadTrades trades' =>
        cases List.mem_singleton.1 h
        exact List.mem_cons_self
      | _ =>
        obtain ⟨t, -, ht⟩ := List.mem_map.1 h
        cases ht
    · exact List.mem_cons_of_mem _ (ih h)

/-! ## Calls -/

/-- What an action leads to is related to the session before it. -/
theorem perform_of_respects {α : Type} {act : Action (Desk Simulated) α}
    {note : α → Register → Register} {R : Desk Simulated → Desk Simulated → Prop}
    (h : Respects R act) : R s.state (s.perform act note).state :=
  perform_of_ends (R := fun s' => R s.state s'.state) (h s.desk)
    (fun _ _ ht => ht) fun _ _ ht => ht

/-- The last price follows the trades, unless trades are replayed. -/
theorem quoted_apply (hc : ∀ trades, c ≠ .loadTrades trades) :
    Quoted s.state (s.apply c).state := by
  have hoffice : ∀ act : Action (Office Simulated) Unit,
      Respects (fun o o' => o'.backend.trades = o.backend.trades) act →
        Respects Quoted (onOffice act) := fun act h => .within fun t =>
    (h ⟨t.state.office, t.journal⟩).mono
      (fun _ _ ho => quoted_of_same (congrArg Array.toList ho) rfl)
      fun _ _ ho => quoted_of_same (congrArg Array.toList ho) rfl
  cases c with
  | load side r => exact perform_of_respects rules_quoted.load
  | loadTrades trades => exact absurd rfl (hc trades)
  | start => exact perform_of_respects rules_quoted.start
  | submit side r => exact perform_of_respects rules_quoted.submit
  | reject u => exact perform_of_respects (hoffice _ fun _ => rfl)
  | cancel r =>
    refine perform_of_respects (.within fun t => ?_)
    simp only [Office.onOrders, ends_within, Orders.cancel, ends_bind, ends_current]
    split
    · exact quoted_of_same rfl rfl
    · exact quoted_of_same rfl rfl
  | withdraw side r => exact perform_of_respects rules_quoted.withdraw
  | abandon => exact perform_of_respects rules_quoted.abandon
  | shutdown => exact perform_of_respects rules_quoted.shutdown
  | tick now => exact perform_of_respects (hoffice _ fun _ => rfl)

/-- The latest of the trades that are replayed sets the last price. -/
theorem ends_replay {s : Logged (Desk Simulated)} (trades : List Trade) :
    Ends (loadTrades trades) s
      (fun _ t => t.state.trades = s.state.trades ∧
        t.state.book.lastPrice = (latest? trades).elim s.state.book.lastPrice (·.price))
      (fun _ _ => False) := by
  have hreplay : ∀ (l : List Trade) (t : Logged (Desk Simulated)),
      Ends (l.forM fun trade => onLedger (Ledger.recordTrade trade)) t
        (fun _ u => u.state.trades = t.state.trades ∧
          u.state.book.lastPrice = t.state.book.lastPrice) (fun _ _ => False) := by
    intro l t
    refine Ends.forM (P := fun _ (u : Logged (Desk Simulated)) => u.state.trades = t.state.trades ∧
      u.state.book.lastPrice = t.state.book.lastPrice) ?_ ⟨rfl, rfl⟩
    intro _ _ u hu
    exact hu
  simp only [loadTrades, replayTrades, ends_bind, ends_current, ends_log]
  refine (hreplay _ _).mono ?_ fun _ _ hf => hf
  rintro _ t ⟨htrades, hlast⟩
  rw [getLast?_mergeSort]
  cases latest? trades with
  | none => exact ⟨htrades, hlast⟩
  | some latest => exact ⟨htrades, rfl⟩

/-- Between two states of a session: these marks were made, each trade among them a fair one for
the orders as they were handed in, and the last price was kept up. -/
structure Priced (known : OrderRef → Prop) (os : Orders) (marks : List Mark) (s s' : Session) :
    Prop where
  trades : s'.state.trades = s.state.trades ++ marks.filterMap Mark.trade?
  fair : FairTape known os s.state.book.lastPrice marks
  lastPrice : s'.state.book.lastPrice = quote s.state.book.lastPrice marks

theorem Priced.trans {os : Orders} {marks marks' : List Mark} {s s' s'' : Session}
    (h : Priced known os marks s s') (h' : Priced known os marks' s' s'') :
    Priced known os (marks ++ marks') s s'' where
  trades := by rw [h'.trades, h.trades, List.filterMap_append, List.append_assoc]
  fair := h.fair.append (h.lastPrice ▸ h'.fair)
  lastPrice := by rw [h'.lastPrice, h.lastPrice, quote_append]

/-- The trades of a call are fair. -/
theorem fairTape_of_came {os : Orders} {s' : Session} {new : List Trade}
    (h : CameBy known s c s')
    (hos : os.Follow s.state.office.orders) (hnew : s'.state.trades = s.state.trades ++ new) :
    FairTape known os s.state.book.lastPrice (new.map .traded) := by
  intro past t later heq
  obtain ⟨before, after, rfl, rfl, hafter⟩ := List.map_eq_append_iff.1 heq
  obtain ⟨u, after, rfl, hu, -⟩ := List.map_eq_cons_iff.1 hafter
  cases hu
  rw [← List.append_assoc] at hnew
  obtain ⟨k, m, ⟨-, hready⟩, hmakes⟩ := h.made.exists_makes_after hnew
  obtain ⟨new, hnew', hlast⟩ := hready.quoted
  obtain rfl : before = new := List.append_cancel_left (hmakes.start.symm.trans hnew')
  have hfair := hready.fairTrade hmakes
  rw [hlast] at hfair
  exact hfair.of_follow (hos.trans hready.orders)

/-- Every call makes fair trades, and keeps the last price up with the tape. -/
theorem priced_apply {os : Orders} (hos : os.Follow s.state.office.orders)
    (h : CameBy known s c (s.apply c)) :
    Priced known os (s.marks c) s (s.apply c) := by
  have hmarks : ∀ {new : List Trade}, (s.apply c).state.trades = s.state.trades ++ new →
      ((s.apply c).state.trades.drop s.state.trades.length).map Mark.traded = new.map .traded := by
    intro new hnew
    rw [hnew, List.drop_left]
  have htrades : ∀ new : List Trade, (new.map Mark.traded).filterMap Mark.trade? = new := by
    intro new
    rw [List.filterMap_map]
    exact List.filterMap_some
  by_cases hc : ∃ trades, c = .loadTrades trades
  · obtain ⟨trades, rfl⟩ := hc
    have hreplay : (s.apply (.loadTrades trades)).state.trades = s.state.trades ∧
        (s.apply (.loadTrades trades)).state.book.lastPrice =
          (latest? trades).elim s.state.book.lastPrice (·.price) :=
      perform_of_ends (R := fun s' => s'.state.trades = s.state.trades ∧ s'.state.book.lastPrice =
        (latest? trades).elim s.state.book.lastPrice (·.price))
        (ends_replay (s := s.desk) trades) (fun _ _ ht => ht) fun _ _ hf => hf.elim
    exact ⟨hreplay.1.trans (List.append_nil _).symm, fairTape_replayed trades, hreplay.2⟩
  · have hc : ∀ trades, c ≠ .loadTrades trades := fun trades heq => hc ⟨trades, heq⟩
    obtain ⟨new, hnew, hlast⟩ := quoted_apply (s := s) hc
    have heq : s.marks c = new.map .traded := by
      cases c with
      | loadTrades trades => exact absurd rfl (hc trades)
      | _ => exact hmarks hnew
    rw [heq]
    exact ⟨by rw [hnew, htrades], fairTape_of_came h hos hnew, hlast⟩

/-- Throughout a session that hands in known orders, trades are fair, and the last price is the one
that the tape quotes. -/
theorem priced_run (i : Instrument) (history buffer : Nat) (os : Orders) (calls : List Call)
    (hknown : ∀ r ∈ handed calls, known r) :
    Priced known os ((opening i history buffer os).tape calls) (opening i history buffer os)
      ((opening i history buffer os).run calls) := by
  induction calls using List.reverseRecOn with
  | nil => exact ⟨rfl, fairTape_nil, rfl⟩
  | append_singleton calls c ih =>
    rw [handed_append] at hknown
    have hbefore : ∀ r ∈ handed calls, known r := fun r hr => hknown r (List.mem_append_left _ hr)
    have hcame := came_calls i history buffer os calls hbefore
    have hlast := priced_apply hcame.orders (came_apply hcame.sound hcame.waiting c fun r hr =>
      hknown r (List.mem_append_right _ (by rw [hr]; simp)))
    rw [tape_append, run_append]
    show Priced known os (_ ++ (marks _ c ++ [])) _ _
    rw [List.append_nil]
    exact (ih hbefore).trans hlast

/-! ## What prices are made of -/

/-- The prices that a session is given: that of the instrument, those of replayed trades, and the
limits of the limit orders that are handed in. -/
inductive Given (i : Instrument) (os : Orders) (calls : List Call) : Price → Prop
  | instrument : Given i os calls i.currentPrice
  | replayed {trades : List Trade} {t : Trade} (replayed : .loadTrades trades ∈ calls)
    (mem : t ∈ trades) : Given i os calls t.price
  | limit {r : OrderRef} (mem : r ∈ handed calls) (type : (os.get r).type = .limit) :
    Given i os calls (os.get r).price

/-- What the prices of a session are. -/
structure PricesFair (i : Instrument) (os : Orders) (calls : List Call) (tape : List Mark)
    (s : Session) : Prop where
  /-- The terms of orders, by which prices are judged, are those with which they are handed in. -/
  orders : os.Follow s.state.office.orders
  /-- All trades are on the tape. -/
  trades : s.state.trades = tape.filterMap Mark.trade?
  /-- Every trade is one of an ask and a bid that were handed in. It keeps to their limits, and its
  price is that of the earlier of two limit orders, that of the one limit order, or else what the
  tape quotes before it. -/
  fair : FairTape (· ∈ handed calls) os i.currentPrice tape
  /-- The last price is what the tape quotes now. -/
  lastPrice : s.state.book.lastPrice = quote i.currentPrice tape
  /-- No price comes from a market order or a stop-loss. -/
  given : (∀ t ∈ s.state.trades, Given i os calls t.price) ∧
    Given i os calls s.state.book.lastPrice
  /-- All prices are positive if those that are given are. -/
  positive : (∀ p, Given i os calls p → Price.market < p) →
    (∀ t ∈ s.state.trades, Price.market < t.price) ∧ Price.market < s.state.book.lastPrice

/-- In every session, whatever is called, each trade keeps to the limits of its orders, at the
price that is set by them or by the last price; and the last price is that of the trade before, or
of the latest trade that was replayed since, or of the instrument. -/
theorem prices_fair (i : Instrument) (history buffer : Nat) (os : Orders) (calls : List Call) :
    PricesFair i os calls ((opening i history buffer os).tape calls)
      ((opening i history buffer os).run calls) := by
  have h : Priced (· ∈ handed calls) os ((opening i history buffer os).tape calls) _ _ :=
    priced_run i history buffer os calls fun _ hr => hr
  have hall : ∀ P : Price → Prop, (∀ p, Given i os calls p → P p) →
      (∀ t ∈ ((opening i history buffer os).run calls).state.trades, P t.price) ∧
        P ((opening i history buffer os).run calls).state.book.lastPrice := by
    intro P hP
    obtain ⟨htrades, hlast⟩ := h.fair.forall_price (P := P) (hP _ .instrument)
      (fun trades hmem t ht => hP _ (.replayed (replayed_of_mem_tape hmem) ht))
      fun r hr ht => hP _ (.limit hr ht)
    refine ⟨fun t ht => htrades t ?_, h.lastPrice ▸ hlast⟩
    rw [h.trades] at ht
    obtain ⟨m, hm, hmark⟩ := List.mem_filterMap.1 ((List.nil_append _).symm ▸ ht)
    cases m with
    | replayed trades => cases hmark
    | traded u => cases hmark; exact hm
  exact ⟨(came_run i history buffer os calls).orders, h.trades, h.fair, h.lastPrice,
    hall _ fun _ hp => hp, hall _⟩

end Session

end Bourse
