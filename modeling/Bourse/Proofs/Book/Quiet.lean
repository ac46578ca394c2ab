import Bourse.Proofs.Book.Process
import Bourse.Proofs.Book.Replay
import Bourse.Proofs.Book.Room

/-!
# Books that start without a match

A book is loaded with open orders, replays trades and is started. If no ask and bid of different
users that were loaded cross (`Orders.Apart`) then the start matches nothing, whatever the
settlement (`Desk.ends_start_of_uncrossed`), and the book goes on with what the replayed trades
left.

`Desk.Stocked` is what such a book is like on the way: its queues hold loaded orders of its
instrument only, nothing waits for its start, and depth tells the replayed trades. Nothing but an
overflow of depth breaks it off, and that only without room for all orders (`Ledger.Told`).
-/

namespace Bourse

open Bourse.Action

/-- The trade as market depth shows it. -/
def Trade.tick (t : Trade) : TradeTick := ⟨t.price, t.quantity, t.createdAt⟩

/-! ## What depth tells -/

namespace Ledger

/-- Depth keeps so many trades and tells these; and if there is room for everything then there is
room for so many shares more. -/
structure Told (roomy : Prop) (n history : Nat) (latest : List TradeTick) (l : Ledger) : Prop where
  history : l.depth.history = history
  latest : l.depth.latest = latest
  room : roomy → HasRoom n l

variable {roomy : Prop} {p q history : Nat} {latest : List TradeTick} {l : Ledger} {id : OrderId}
  {o : Order} {j : Array Event}

/-- An empty ledger tells no trades. -/
theorem told_empty {i : InstrumentId} (h : roomy → q < 2 ^ 63) :
    Told roomy q history [] (.empty i history) :=
  ⟨rfl, rfl, fun hroomy => hasRoom_empty (h hroomy)⟩

/-- A call that tells nothing of trades breaks off only by an overflow, and not if there is
room. -/
theorem Told.ends (h : Told roomy q history latest l) {act : Action Ledger Unit}
    (hfeed : Ends act ⟨l, j⟩ (fun _ t => t.state.depth.feed = l.depth.feed)
      (fun _ t => t.state.depth.feed = l.depth.feed))
    (hbreaks : Ends act ⟨l, j⟩ (fun _ _ => True) (fun f _ => f.IsOverflow))
    (hroom : HasRoom q l → Ends act ⟨l, j⟩ (fun _ t => HasRoom p t.state) (fun _ _ => False)) :
    Ends act ⟨l, j⟩ (fun _ t => Told roomy p history latest t.state)
    (fun f _ => f.IsOverflow ∧ ¬ roomy) := by
  refine (ends_roomy (P := fun l' => l'.depth.feed = l.depth.feed) hfeed hbreaks
    fun hroomy => hroom (h.room hroomy)).imp ?_
  exact fun _ t ht => ⟨(congrArg (·.2.1) ht.1).trans h.history,
    (congrArg (·.2.2.1) ht.1).trans h.latest, ht.2⟩

/-- Depth tells the same trades when an order is shown. -/
theorem Told.ends_add (h : Told roomy q history latest l) (hle : p + o.unfulfilled.toNat ≤ q) :
    Ends (add o) ⟨l, j⟩ (fun _ t => Told roomy p history latest t.state)
      (fun f _ => f.IsOverflow ∧ ¬ roomy) :=
  h.ends feed_add breaks_add fun hroom => hroom.ends_add hle

/-- Depth tells the same trades when an order is withdrawn. -/
theorem Told.ends_withdraw (h : Told roomy q history latest l) :
    Ends (withdraw id) ⟨l, j⟩ (fun _ t => Told roomy q history latest t.state)
      (fun f _ => f.IsOverflow ∧ ¬ roomy) :=
  h.ends feed_withdraw breaks_withdraw fun hroom => hroom.ends_withdraw

/-- A trade that is recorded comes first, and the oldest leave. -/
theorem Told.ends_recordTrade {t : Trade} (h : Told roomy q history latest l) :
    Ends (recordTrade t) ⟨l, j⟩
    (fun _ u => Told roomy q history ((t.tick :: latest).take history) u.state)
      (fun _ _ => False) := by
  have hdepth : Ends (recordTrade t) ⟨l, j⟩ (fun _ u => u.state.depth.history = l.depth.history ∧
      u.state.depth.latest = (t.tick :: l.depth.latest).take l.depth.history)
      (fun _ _ => False) := ⟨rfl, rfl⟩
  have hroom : Ends (recordTrade t) ⟨l, j⟩ _ _ :=
    .assuming fun hroomy => (h.room hroomy).ends_recordTrade
  refine (hdepth.and hroom).mono ?_ fun _ _ hf => hf.1
  rintro _ u ⟨⟨hhistory, hlatest⟩, hroom⟩
  rw [h.history] at hhistory hlatest
  exact ⟨hhistory, hlatest.trans (by rw [h.latest]), hroom⟩

end Ledger

namespace Desk

variable {σ : Type} {S : Settlement σ} {s : Logged (Desk σ)} {d d' d'' : Desk σ} {r : OrderRef}
  {rs : List OrderRef} {roomy : Prop} {p q history : Nat} {latest : List TradeTick}

/-! ## Reconciliation without a match -/

/-- No open ask and open bid of different users cross. -/
def Uncrossed (d : Desk σ) : Prop :=
  ∀ a ∈ (d.book.queue .ask).bag, ∀ b ∈ (d.book.queue .bid).bag, (d.order a.order).isOpen = true →
    (d.order b.order).isOpen = true → (d.order a.order).user ≠ (d.order b.order).user →
      crosses (d.order a.order) (d.order b.order) = false

/-- Nothing changed but queues and what is shown. -/
structure Stays (d d' : Desk σ) : Prop where
  office : d'.office = d.office
  header : d'.book.header = d.book.header

theorem Stays.trans (h : Stays d d') (h' : Stays d' d'') : Stays d d'' :=
  ⟨h'.office.trans h.office, h'.header.trans h.header⟩

/-- A search leaves all but queues and depth. -/
theorem Searched.stays {side : Side} {exclude : Option UserId} {dropped : Multiset Item}
    {aside : List Item} (h : Searched side exclude d d' dropped aside) : Stays d d' where
  office := h.office
  header := by
    rw [h.book]
    exact Book.header_withQueue ..

/-- Putting orders back leaves all but queues. -/
theorem stays_withItems (d : Desk σ) (side : Side) (items : List Item) :
    Stays d (d.withItems side items) :=
  ⟨rfl, Book.header_withQueue ..⟩

section

variable {P : Ledger → Prop} {B : Prop} (hun : Uncrossed s.state)
  (hdrop : ∀ id l j, P l → Ends (Ledger.withdraw id) ⟨l, j⟩ (fun _ t => P t.state)
    (fun f _ => f.IsOverflow ∧ B))
  (hP : P s.state.book.ledger)

include hun hdrop hP

/-- The first round finds no pair that crosses, and settlement is not asked. -/
theorem ends_reconcileRound_of_uncrossed : Ends (reconcileRound S) s
    (fun result t => result.goesOn = false ∧ Stays s.state t.state ∧ P t.state.book.ledger)
    (fun f t => f.IsOverflow ∧ B ∧ Stays s.state t.state) := by
  simp only [reconcileRound, ends_bind]
  refine Ends.mono (ends_findTop (fun i _ _ l j hl => hdrop _ l j hl) hP) ?_ ?_
  · rintro ⟨top, aside⟩ t ⟨dropped, hasks, htop, hP'⟩
    obtain rfl : aside = [] := hasks.aside_eq_nil
    cases top with
    | none => exact ⟨rfl, hasks.stays, hP'⟩
    | some ask =>
      obtain ⟨i, hi, rfl, hopen, -⟩ := htop
      simp only [ends_bind, ends_current]
      refine Ends.mono (ends_findTop (fun i _ _ l j hl => hdrop _ l j hl) hP') ?_ ?_
      · rintro ⟨top, aside⟩ u ⟨dropped', hbids, htop, hP''⟩
        have hstays := (hasks.stays.trans hbids.stays).trans (stays_withItems u.state .bid aside)
        have hledger : P (u.state.withItems .bid aside).book.ledger := by rwa [ledger_withItems]
        cases top with
        | none => exact ⟨rfl, hstays, hledger⟩
        | some bid =>
          obtain ⟨k, hk, rfl, hopen', huser⟩ := htop
          -- both were queued from the beginning
          have hask : i ∈ (s.state.book.queue .ask).bag :=
            hasks.mem_bag.2 (.inr (.inr (Queue.mem_bag_of_headItem? hi)))
          have hbid : k ∈ (s.state.book.queue .bid).bag := by
            rw [← hasks.queue_of_ne (by decide)]
            exact hbids.mem_bag.2 (.inr (.inr (Queue.mem_bag_of_headItem? hk)))
          have horder : ∀ r, u.state.order r = s.state.order r := fun r =>
            (hbids.order r).trans (hasks.order r)
          have hcross : crosses (u.state.order i.order) (u.state.order k.order) = false := by
            rw [hasks.order] at hopen huser
            rw [horder] at hopen' huser
            rw [horder, horder]
            exact hun i hask k hbid hopen hopen' fun heq => huser (congrArg some heq)
          simp only [ends_bind, ends_current, hcross, Bool.not_false, if_true]
          exact ⟨rfl, hstays, hledger⟩
      · rintro f u ⟨hf, hB, dropped', new, hbids⟩
        exact ⟨hf, hB, hasks.stays.trans hbids.stays⟩
  · rintro f t ⟨hf, hB, dropped, new, hasks⟩
    exact ⟨hf, hB, hasks.stays⟩

/-- Nothing is matched. -/
theorem ends_reconcile_of_uncrossed : Ends (reconcile S) s
    (fun _ t => Stays s.state t.state ∧ P t.state.book.ledger)
    (fun f t => f.IsOverflow ∧ B ∧ Stays s.state t.state) := by
  simp only [reconcile, ends_bind, ends_current, reconcileSteps_succ]
  refine (ends_reconcileRound_of_uncrossed hun hdrop hP).imp ?_
  rintro result t ⟨hgo, hstays, hledger⟩
  rw [hgo]
  exact ⟨hstays, hledger⟩

/-- A book that nobody waits for is running after its start. -/
theorem ends_start_of_uncrossed (hphase : s.state.book.phase = .waiting []) : Ends (start S) s
    (fun report t => report.result = .started ∧ t.state.office = s.state.office ∧
        t.state.book.instrument = s.state.book.instrument ∧
        t.state.book.lastPrice = s.state.book.lastPrice ∧ t.state.book.phase = .running ∧
        P t.state.book.ledger ∨
      (∃ cause, report.result = .broken cause) ∧ B)
    (fun _ _ => False) := by
  simp only [start, ends_bind, ends_current, hphase, enter, ends_changeBook, ends_attempt]
  refine (ends_reconcile_of_uncrossed (S := S) (P := P) (B := B)
    (s := ⟨⟨s.state.office, { s.state.book with phase := .stopped }⟩, s.journal⟩) ?_ hdrop hP).mono
    ?_ ?_
  · exact hun
  · rintro _ t ⟨hstays, hledger⟩
    have hheader := hstays.header
    exact .inl ⟨rfl, hstays.office, congrArg (·.1) hheader, congrArg (·.2.1) hheader, rfl, hledger⟩
  · rintro f t ⟨-, hB, -⟩
    exact .inr ⟨⟨f, rfl⟩, hB⟩

end

/-! ## Loading -/

/-- A book that has not been started, to which nothing was submitted, was loaded with some of these
orders and has replayed these trades. -/
structure Stocked (rs : List OrderRef) (roomy : Prop) (n history : Nat) (latest : List TradeTick)
    (d : Desk σ) : Prop where
  sound : Sound (fun r => r ∈ rs ∧ (d.order r).instrument = d.book.instrument) d
  phase : d.book.phase = .waiting []
  told : d.book.ledger.Told roomy n history latest

/-- A book that was just made. -/
theorem stocked_new (o : Office σ) (i : Instrument) (buffer : Nat) (h : roomy → q < 2 ^ 63) :
    Stocked rs roomy q history [] ⟨o, .new i history buffer⟩ :=
  ⟨sound_new _ o i history buffer, rfl, Ledger.told_empty h⟩

namespace Stocked

theorem mono (h : Stocked rs roomy q history latest d) (hle : p ≤ q) :
    Stocked rs roomy p history latest d :=
  ⟨h.sound, h.phase, ⟨h.told.history, h.told.latest, fun hroomy => (h.told.room hroomy).mono hle⟩⟩

/-- An order of the instrument is loaded. -/
theorem ends_load (h : Stocked rs roomy q history latest s.state) (hr : r ∈ rs)
    (hi : (s.state.order r).instrument = s.state.book.instrument)
    (hle : p + (s.state.order r).unfulfilled.toNat ≤ q) :
    Ends (load (s.state.order r).side r) s
      (fun answer t => answer = .ok () ∧ t.state.office = s.state.office ∧
        t.state.book.instrument = s.state.book.instrument ∧
        Stocked rs roomy p history latest t.state)
      (fun f _ => f.IsOverflow ∧ ¬ roomy) := by
  have hless : Stocked rs roomy p history latest s.state := h.mono (by omega)
  simp only [load, checkSide, ends_bind, ends_current, ends_pure, if_true]
  split
  · simp only [ends_bind, ends_log, ends_pure]
    exact ⟨trivial, trivial, trivial, hless⟩
  · simp only [loadOld, ends_bind, ends_current]
    split
    · refine ends_parkStopLoss fun j => ?_
      simp only [ends_pure]
      have hheader : (s.state.parked r).book.header = s.state.book.header :=
        Book.header_withStopLossQueue ..
      have hinstrument : (s.state.parked r).book.instrument = s.state.book.instrument :=
        congrArg (·.1) hheader
      refine ⟨trivial, rfl, hinstrument, ?_, (congrArg (·.2.2.2) hheader).trans h.phase, ?_⟩
      · rw [hinstrument]
        exact hless.sound.parked ⟨hr, hi⟩
      · exact (Book.ledger_withStopLossQueue ..).symm ▸ hless.told
    · next ht =>
      refine (ends_rest (P := Ledger.Told roomy p history latest) (B := ¬ roomy) fun j =>
        h.told.ends_add hle).mono ?_ fun _ _ hf => ⟨hf.1, hf.2.1⟩
      rintro _ ⟨t, j⟩ ⟨l, hl, rfl⟩
      have hheader :
          (s.state.rested (s.state.order r).side r l).book.header = s.state.book.header :=
        Book.header_withQueue ..
      have hinstrument : (s.state.rested (s.state.order r).side r l).book.instrument =
          s.state.book.instrument := congrArg (·.1) hheader
      refine ⟨rfl, rfl, hinstrument, ?_, (congrArg (·.2.2.2) hheader).trans h.phase, hl⟩
      rw [hinstrument]
      exact hless.sound.rested ⟨hr, hi⟩ rfl ht l

end Stocked

/-- The trades that a book replayed, as depth tells them: the newest first, and no more than are
kept. -/
def ticks (history : Nat) (trades : List Trade) : List TradeTick :=
  (trades.map Trade.tick).reverse.take history

/-- Of no trades there are no ticks. -/
theorem ticks_nil (history : Nat) : ticks history [] = [] := List.take_nil

/-- The tick of a further trade comes first, and the oldest may drop out. -/
theorem ticks_concat (history : Nat) (trades : List Trade) (t : Trade) :
    (t.tick :: ticks history trades).take history = ticks history (trades ++ [t]) := by
  unfold ticks
  rw [List.map_append, List.reverse_append]
  cases history with
  | zero => rfl
  | succ n => simp [List.take_take]

/-- Trades are replayed in order of time. The last sets the last price. -/
theorem Stocked.ends_loadTrades (h : Stocked rs roomy q history [] s.state) (trades : List Trade) :
    Ends (loadTrades trades) s
      (fun _ t => t.state.office = s.state.office ∧
        t.state.book.instrument = s.state.book.instrument ∧
        (∀ last, (replayed trades).getLast? = some last → t.state.book.lastPrice = last.price) ∧
        Stocked rs roomy q history (ticks history (replayed trades)) t.state)
      (fun _ _ => False) := by
  -- what was replayed so far, and what is still to come
  have hreplay : ∀ (j : Array Event) (sorted : List Trade),
      Ends (sorted.forM fun t => onLedger (Ledger.recordTrade t)) ⟨s.state, j⟩
        (fun _ t => ∃ l, l.Told roomy q history (ticks history sorted) ∧
          t.state = { s.state with book := { s.state.book with ledger := l } })
        (fun _ _ => False) := by
    intro j sorted
    refine (Ends.forM (P := fun rest t => ∃ done l, done ++ rest = sorted ∧
      l.Told roomy q history (ticks history done) ∧
      t.state = { s.state with book := { s.state.book with ledger := l } }) ?_ ?_).imp ?_
    · rintro t rest ⟨u, j⟩ ⟨done, l, hsorted, hl, rfl⟩
      refine ends_onLedger.2 (hl.ends_recordTrade.imp fun _ v hv => ?_)
      refine ⟨done ++ [t], v.state, by simpa using hsorted, ?_, rfl⟩
      rwa [ticks_concat] at hv
    · exact ⟨[], s.state.book.ledger, rfl, (ticks_nil history).symm ▸ h.told, rfl⟩
    · rintro _ t ⟨done, l, hsorted, hl, ht⟩
      rw [List.append_nil] at hsorted
      exact ⟨l, hsorted ▸ hl, ht⟩
  have hsorted : (trades.mergeSort fun a b => a.createdAt ≤ b.createdAt) = replayed trades := rfl
  simp only [loadTrades, replayTrades, ends_bind, ends_current, ends_log, hsorted]
  refine (hreplay _ (replayed trades)).imp ?_
  rintro _ ⟨t, j⟩ ⟨l, hl, rfl⟩
  have hsound := h.sound.withLedger l
  cases (replayed trades).getLast? with
  | none => exact ⟨rfl, rfl, fun _ hnone => absurd hnone.symm (Option.some_ne_none _),
      hsound, h.phase, hl⟩
  | some last =>
    refine ⟨rfl, rfl, ?_, hsound.priced last.price, h.phase, hl⟩
    rintro _ ⟨⟩
    rfl

/-! ## Orders that do not cross -/

end Desk

/-- No ask and bid of these orders that are of different users and of one instrument cross, unless
one of them is a dormant stop-loss. -/
def Orders.Apart (os : Orders) (rs : List OrderRef) : Prop :=
  ∀ a ∈ rs, ∀ b ∈ rs, (os.get a).side = .ask → (os.get b).side = .bid →
    (os.get a).isOpen = true → (os.get b).isOpen = true →
    (os.get a).type ≠ .stopLoss → (os.get b).type ≠ .stopLoss →
    (os.get a).instrument = (os.get b).instrument → (os.get a).user ≠ (os.get b).user →
      crosses (os.get a) (os.get b) = false

/-- A book is uncrossed if no two open orders of it cross. -/
theorem Desk.Stocked.uncrossed {σ : Type} {d : Desk σ} {rs : List OrderRef} {roomy : Prop}
    {n history : Nat} {latest : List TradeTick} (h : Stocked rs roomy n history latest d)
    (hapart : d.office.orders.Apart rs) :
    Uncrossed d := by
  intro a ha b hb hopen hopen' huser
  have hra := h.sound.resting .ask a ha
  have hrb := h.sound.resting .bid b hb
  exact hapart a.order hra.known.1 b.order hrb.known.1 hra.side hrb.side hopen hopen'
    (hra.type ▸ hra.active) (hrb.type ▸ hrb.active) (hra.known.2.trans hrb.known.2.symm) huser

end Bourse
