import Bourse.Proofs.Book.Quiet
import Bourse.Proofs.Engine.Shutdown
import Bourse.Proofs.Engine.Visits

/-!
# An engine that goes on from recorded trades

An engine is brought up from data in memory, and no open orders of different users cross. Each of
its books then goes on from what is left of the recorded trades of its instrument (`Book.Resumes`):
the last of these sets the last price, and depth tells the newest of them.

What is left are the trades recorded last, unless several were made at the moment at which the list
of recent trades is cut off (`Whole`): of these the list keeps those that were recorded first. So
the last trade is lost if it is one of them (`Exchange.tiedTrades_lose_last`).

The stages of a bootstrap take the books one after the other, and what each stage makes of all
books is what it makes of one (`Exchange.Became`).
-/

namespace Bourse

open Bourse.Action

/-- What is loaded into the books: the open orders. -/
def MemorySource.openOrders (source : MemorySource) (os : Orders) : List OrderRef :=
  openOnly os source.asks ++ openOnly os source.bids

/-- What orders of an instrument have left together. -/
def Orders.left (os : Orders) (rs : List OrderRef) (i : InstrumentId) : Nat :=
  ((rs.filter fun r => (os.get r).instrument = i).map fun r => (os.get r).unfulfilled.toNat).sum

/-- What a further order has left counts if it is of the instrument. -/
theorem Orders.left_cons (os : Orders) (r : OrderRef) (rs : List OrderRef) (i : InstrumentId) :
    os.left (r :: rs) i =
      (if (os.get r).instrument = i then (os.get r).unfulfilled.toNat else 0) + os.left rs i := by
  unfold left
  rw [List.filter_cons]
  by_cases hi : (os.get r).instrument = i
  · rw [if_pos (decide_eq_true hi), if_pos hi, List.map_cons, List.sum_cons]
  · rw [if_neg (by simpa using hi), if_neg hi, Nat.zero_add]

/-- Depth has room for the open orders of each instrument. -/
def Roomy (os : Orders) (source : MemorySource) : Prop :=
  ∀ i, os.left (source.openOrders os) i < 2 ^ 63

/-! ## What a book goes on with -/

/-- The book goes on from what is left of these trades. If the cut does not fall between trades of
one moment then the last trade recorded has set the last price, and depth tells the last trades
recorded. -/
structure Book.Resumes (count history : Nat) (trades : List Trade) (b : Book) : Prop where
  kept : ∃ kept, Remembered count trades kept ∧ kept.getLast?.map (·.price) = some b.lastPrice ∧
    b.ledger.depth.latest = Desk.ticks history kept
  whole : Whole count trades → trades.getLast?.map (·.price) = some b.lastPrice ∧
    b.ledger.depth.latest = (trades.reverse.take (min count history)).map Trade.tick

/-- If any trades are kept then some are left. -/
theorem Remembered.ne_nil {count : Nat} {trades kept : List Trade}
    (h : Remembered count trades kept) (hcount : 0 < count) (hne : trades ≠ []) : kept ≠ [] := by
  cases h with
  | all fits => exact hne
  | cut before moment after length =>
    intro hnil
    rw [hnil, List.length_nil] at length
    omega

/-- A book that replayed what is left of the trades goes on from it. -/
theorem Remembered.resumes {count history : Nat} {trades kept : List Trade} {b : Book}
    (h : Remembered count trades kept) (hcount : 0 < count) (hne : trades ≠ [])
    (hlast : ∀ last, kept.getLast? = some last → b.lastPrice = last.price)
    (hlatest : b.ledger.depth.latest = Desk.ticks history kept) :
    b.Resumes count history trades := by
  have hprice : kept.getLast?.map (·.price) = some b.lastPrice := by
    have hkept := List.getLast?_eq_some_getLast (h.ne_nil hcount hne)
    rw [hkept, hlast _ hkept]
    rfl
  refine ⟨⟨kept, h, hprice, hlatest⟩, fun hwhole => ?_⟩
  have heq := h.eq_drop hwhole
  have hlength : 0 < trades.length := List.length_pos_of_ne_nil hne
  constructor
  · rw [← hprice, heq, List.getLast?_drop, if_neg (by omega)]
  · have hreverse : trades.reverse.take count = (trades.drop (trades.length - count)).reverse :=
      List.take_reverse
    rw [hlatest, heq, Desk.ticks, ← List.map_reverse, ← List.map_take, Nat.min_comm,
      ← List.take_take, hreverse]

namespace Exchange

variable {σ α : Type} {S : Settlement σ} {x y : Exchange σ} {b : Book} {done rest : List Book}
  {j : Array Event} {P P' : Desk σ → Prop} {rs todo : List OrderRef} {roomy : Prop} {history : Nat}

/-! ## One book after the other -/

/-- Nothing changed but the books, and each of them is like this now. -/
structure Became (P : Desk σ → Prop) (x y : Exchange σ) : Prop where
  office : y.office = x.office
  config : y.config = x.config
  instruments : y.books.map (·.instrument) = x.books.map (·.instrument)
  all : ∀ b ∈ y.books, P ⟨x.office, b⟩

/-- The books that were visited are like this, and those to come like that. -/
structure Midway (P' P : Desk σ → Prop) (done rest : List Book) (x : Exchange σ) : Prop where
  books : x.books = done ++ rest
  distinct : (x.books.map (·.instrument)).Nodup
  done : ∀ b ∈ done, P' ⟨x.office, b⟩
  rest : ∀ b ∈ rest, P ⟨x.office, b⟩

/-- A book that keeps its instrument is put back where it was. -/
theorem put_eq (hbooks : x.books = done ++ b :: rest)
    (hdistinct : (x.books.map (·.instrument)).Nodup) {o : Office σ} {c : Book} (ho : o = x.office)
    (hc : c.instrument = b.instrument) :
    ({ x with office := o, books := putBook c x.books } : Exchange σ) =
      { x with books := done ++ c :: rest } := by
  have hdone : b.instrument ∉ done.map (·.instrument) := by
    rw [hbooks, List.map_append, List.map_cons] at hdistinct
    exact fun hmem => (List.nodup_append.1 hdistinct).2.2 _ hmem _ List.mem_cons_self rfl
  rw [ho, hbooks, putBook_append hc hdone]

/-- After a visit there is one book less to come. -/
theorem Midway.next (h : Midway P' P done (b :: rest) x) {c : Book}
    (hc : c.instrument = b.instrument) (hP : P' ⟨x.office, c⟩) : Midway P' P (done ++ [c]) rest
    { x with books := done ++ c :: rest } where
  books := by simp
  distinct := by
    have := h.distinct
    rw [h.books] at this
    simpa [hc] using this
  done d hd := by
    rcases List.mem_append.1 hd with hd | hd
    · exact h.done d hd
    · exact List.mem_singleton.1 hd ▸ hP
  rest d hd := h.rest d (List.mem_cons_of_mem _ hd)

/-- Once all books are visited the engine has become so. -/
theorem Midway.became (h : Midway P' P done [] x) : Became P' x x :=
  ⟨rfl, rfl, rfl, fun b hb => h.done b (by rwa [h.books, List.append_nil] at hb)⟩

/-- What the rest of a round makes of the books is what the round makes of them. -/
theorem Became.of_visit {c : Book} (h : Became P { x with books := done ++ c :: rest } y)
    (hbooks : x.books = done ++ b :: rest) (hc : c.instrument = b.instrument) : Became P x y :=
  ⟨h.office, h.config, h.instruments.trans (by simp [hbooks, hc]), h.all⟩

/-! ## Loading orders -/

/-- The orders that are to come are loaded into the books of their instruments. -/
theorem ends_loadOrders_stocked (hdistinct : (x.books.map (·.instrument)).Nodup)
    (htodo : ∀ r ∈ todo, r ∈ rs) (h : ∀ b ∈ x.books,
      Desk.Stocked rs roomy (x.office.orders.left todo b.instrument) history [] ⟨x.office, b⟩) :
    Ends (loadOrders todo) ⟨x, j⟩
      (fun answer t => answer = .ok () ∧ Became (Desk.Stocked rs roomy 0 history []) x t.state)
      (fun f _ => f.IsOverflow ∧ ¬ roomy) := by
  induction todo generalizing x j with
  | nil => exact ⟨rfl, rfl, rfl, rfl, h⟩
  | cons r todo ih =>
    have htodo' : ∀ r' ∈ todo, r' ∈ rs := fun r' hr' => htodo r' (List.mem_cons_of_mem _ hr')
    have hless : ∀ i, x.office.orders.left todo i ≤ x.office.orders.left (r :: todo) i :=
      fun i => by
      rw [Orders.left_cons]
      exact Nat.le_add_left _ _
    simp only [loadOrders, ends_bind, ends_current]
    cases hbook : x.book? (x.office.orders.get r).instrument with
    | none =>
      simp only [ends_bind, ends_log]
      exact ih hdistinct htodo' fun b hb => (h b hb).mono (hless _)
    | some b =>
      have hb : b ∈ x.books := List.mem_of_find?_eq_some hbook
      have hi : b.instrument = (x.office.orders.get r).instrument := by
        simpa using List.find?_some hbook
      obtain ⟨done, rest, hbooks⟩ := List.append_of_mem hb
      have hload := (h b hb).ends_load (p := x.office.orders.left todo b.instrument)
        (s := ⟨⟨x.office, b⟩, j⟩) (htodo r List.mem_cons_self) hi.symm (by
          rw [Orders.left_cons, if_pos hi.symm, Nat.add_comm]
          exact le_rfl)
      simp only [onBook, ends_bind, ends_within]
      refine hload.mono ?_ fun _ _ hf => hf
      rintro _ ⟨⟨o, c⟩, k⟩ ⟨rfl, rfl, hc, hstocked⟩
      have hc : c.instrument = b.instrument := hc
      rw [put_eq hbooks hdistinct rfl hc]
      refine (ih (x := { x with books := done ++ c :: rest }) ?_ htodo' ?_).imp fun _ t ht =>
        ⟨ht.1, ht.2.of_visit hbooks hc⟩
      · rw [hbooks] at hdistinct
        simpa [hc] using hdistinct
      · intro d hd
        rcases List.mem_append.1 hd with hd | hd
        · exact (h d (hbooks ▸ List.mem_append_left _ hd)).mono (hless _)
        · rcases List.mem_cons.1 hd with rfl | hd
          · exact hc ▸ hstocked
          · exact (h d (hbooks ▸ List.mem_append_right _ (List.mem_cons_of_mem _ hd))).mono
              (hless _)

/-! ## Replaying trades -/

/-- The books to come replay their trades until those of one cannot be loaded. -/
theorem ends_loadTrades_became {source : OrderSource} {count : Nat}
    (hcount : x.config.recentTradeCount.toNat = count)
    (hone : ∀ b trades j, source.recentTrades b.instrument count = .ok trades → P ⟨x.office, b⟩ →
      Ends (Desk.loadTrades trades) ⟨⟨x.office, b⟩, j⟩ (fun _ t => t.state.office = x.office ∧
        t.state.book.instrument = b.instrument ∧ P' t.state) (fun _ _ => False))
    (h : Midway P' P done rest x) :
    Ends (loadTrades source rest) ⟨x, j⟩
      (fun answer t =>
        (answer = .ok () ↔ ∀ b ∈ rest,
          ∃ trades, source.recentTrades b.instrument count = .ok trades) ∧
        (answer = .ok () → Became P' x t.state) ∧ Became (fun d => P' d ∨ P d) x t.state)
      (fun _ _ => False) := by
  induction rest generalizing done x j with
  | nil =>
    have hbecame := h.became
    exact ⟨iff_of_true rfl (List.forall_mem_nil _), fun _ => hbecame, rfl, rfl, rfl,
      fun b hb => .inl (hbecame.all b hb)⟩
  | cons b rest ih =>
    simp only [loadTrades, ends_bind, ends_current, hcount]
    cases htrades : source.recentTrades b.instrument count with
    | error e =>
      refine ⟨⟨(by cases ·), fun hserved => ?_⟩, (by cases ·), rfl, rfl, rfl, fun c hc => ?_⟩
      · obtain ⟨trades, heq⟩ := hserved b List.mem_cons_self
        cases htrades.symm.trans heq
      · exact (List.mem_append.1 (h.books ▸ hc)).imp (h.done c) (h.rest c)
    | ok trades =>
      simp only [onBook, ends_bind, ends_within]
      refine (hone b trades j htrades (h.rest b List.mem_cons_self)).imp ?_
      rintro _ ⟨⟨o, c⟩, k⟩ ⟨rfl, hc, hP⟩
      have hc : c.instrument = b.instrument := hc
      rw [put_eq h.books h.distinct rfl hc]
      refine (ih (x := { x with books := done ++ c :: rest }) hcount hone (h.next hc hP)).imp ?_
      rintro answer t ⟨hserved, hall, hsome⟩
      refine ⟨?_, fun ha => (hall ha).of_visit h.books hc, hsome.of_visit h.books hc⟩
      rw [hserved, List.forall_mem_cons]
      exact ⟨fun hrest => ⟨⟨trades, htrades⟩, hrest⟩, fun hall => hall.2⟩

variable {source : MemorySource} {count : Nat}

/-- The book tells the trades that the source has for its instrument. -/
structure Tells (source : MemorySource) (count history : Nat) (b : Book) : Prop where
  lastPrice : ∀ last, (replayed (source.recentTrades b.instrument count)).getLast? = some last →
    b.lastPrice = last.price
  latest : b.ledger.depth.latest =
    Desk.ticks history (replayed (source.recentTrades b.instrument count))

/-- The book has replayed its trades and is to be started. -/
structure Replayed (rs : List OrderRef) (roomy : Prop) (source : MemorySource)
    (count history : Nat) (d : Desk σ) : Prop where
  tells : Tells source count history d.book
  stocked : ∃ latest, Desk.Stocked rs roomy 0 history latest d

/-- The books to come replay their trades. -/
theorem ends_loadTrades_replayed (hcount : x.config.recentTradeCount.toNat = count)
    (h : Midway (Replayed rs roomy source count history) (Desk.Stocked rs roomy 0 history []) done
        rest x) :
    Ends (loadTrades source.toSource rest) ⟨x, j⟩
      (fun answer t => answer = .ok () ∧ Became (Replayed rs roomy source count history) x t.state)
      (fun _ _ => False) := by
  refine (ends_loadTrades_became hcount ?_ h).imp ?_
  · rintro b trades k htrades hb
    obtain rfl : source.recentTrades b.instrument count = trades := Except.ok.inj htrades
    refine (hb.ends_loadTrades _).imp ?_
    rintro _ ⟨⟨o, c⟩, k⟩ ⟨rfl, hc, hlast, hstocked⟩
    have hc : c.instrument = b.instrument := hc
    exact ⟨rfl, hc, ⟨hc.symm ▸ hlast, hc.symm ▸ hstocked.told.latest⟩, _, hstocked⟩
  · rintro answer t ⟨hserved, hall, -⟩
    have hanswer : answer = .ok () := hserved.2 fun b _ => ⟨_, rfl⟩
    exact ⟨hanswer, hall hanswer⟩

/-! ## Starting -/

/-- The book is running and tells its trades. -/
def Up (source : MemorySource) (count history : Nat) (d : Desk σ) : Prop :=
  d.book.isRunning = true ∧ Tells source count history d.book

/-- Starting books always answers. -/
theorem ends_startBooks_any (books : List Book) (s : Logged (Exchange σ)) :
    Ends (startBooks S books) s (fun _ _ => True) (fun _ _ => False) := by
  induction books generalizing s with
  | nil => trivial
  | cons b rest ih =>
    simp only [startBooks, ends_bind]
    refine (ends_within.2 (Desk.ends_start_any.imp fun _ _ _ => ?_))
    exact (ih _).imp fun _ _ _ => trivial

/-- The books to come are started. One whose orders do not cross starts, unless there is no
room. -/
theorem ends_startBooks_up (hapart : x.office.orders.Apart rs)
    (h : Midway (Up source count history) (Replayed rs roomy source count history) done rest x) :
    Ends (startBooks S rest) ⟨x, j⟩
      (fun error t => (error = none → Became (Up source count history) x t.state) ∧
        (error ≠ none → ¬ roomy))
      (fun _ _ => False) := by
  induction rest generalizing done x j with
  | nil => exact ⟨fun _ => h.became, fun hne => absurd rfl hne⟩
  | cons b rest ih =>
    obtain ⟨htells, latest, hstocked⟩ := h.rest b List.mem_cons_self
    have hstart := Desk.ends_start_of_uncrossed (S := S) (s := ⟨⟨x.office, b⟩, j⟩)
      (P := Ledger.Told roomy 0 history latest) (B := ¬ roomy) (hstocked.uncrossed hapart)
      (fun _ _ _ hl => hl.ends_withdraw) hstocked.told hstocked.phase
    simp only [startBooks, onBook, ends_bind, ends_within, ends_pure]
    refine hstart.imp ?_
    rintro report ⟨⟨o, c⟩, k⟩
      (⟨hstarted, rfl, hc, hlast, hphase, htold⟩ | ⟨⟨cause, hbroken⟩, hnot⟩)
    · have hc : c.instrument = b.instrument := hc
      have hup : Up source count history (⟨x.office, c⟩ : Desk σ) := by
        refine ⟨decide_eq_true hphase, ?_, ?_⟩
        · rw [hc, hlast]
          exact htells.lastPrice
        · rw [hc, htold.latest, ← hstocked.told.latest]
          exact htells.latest
      rw [put_eq h.books h.distinct rfl hc, hstarted]
      refine (ih (x := { x with books := done ++ c :: rest }) hapart (h.next hc hup)).imp
        fun error t ht => ?_
      exact ⟨fun hnone => (ht.1 hnone).of_visit h.books hc, ht.2⟩
    · rw [hbroken]
      exact (ends_startBooks_any _ _).imp fun _ _ _ =>
        ⟨fun hnone => absurd hnone (Option.some_ne_none _), fun _ => hnot⟩

/-- Stopping all books always answers. -/
theorem ends_shutdown_any (s : Logged (Exchange σ)) :
    Ends shutdown s (fun _ _ => True) (fun _ _ => False) := by
  have hvisit : ∀ (books : List Book) (s : Logged (Exchange σ)),
      Ends (visitBooks Desk.shutdown books) s (fun _ _ => True) (fun _ _ => False) := by
    intro books
    induction books with
    | nil => exact fun _ => trivial
    | cons b rest ih =>
      intro s
      simp only [visitBooks, onBook, ends_bind, ends_within]
      refine (Desk.ends_shutdown_stopped _).imp ?_
      rintro (e | ⟨⟩) t -
      · trivial
      · exact ih _
  simp only [shutdown, ends_bind, ends_current]
  refine (hvisit _ _).imp ?_
  rintro (e | ⟨⟩) t -
  · trivial
  · trivial

/-- All books are started, unless there is no room. -/
theorem ends_startAll_up (hapart : x.office.orders.Apart rs)
    (hdistinct : (x.books.map (·.instrument)).Nodup)
    (h : ∀ b ∈ x.books, Replayed rs roomy source count history ⟨x.office, b⟩) :
    Ends (startAll S) ⟨x, j⟩
      (fun answer t => (answer = .ok () → Became (Up source count history) x t.state) ∧
        (answer ≠ .ok () → ¬ roomy))
      (fun _ _ => False) := by
  simp only [startAll, ends_bind, ends_current]
  have hmidway : Midway (Up source count history) (Replayed rs roomy source count history)
      [] x.books x :=
    ⟨rfl, hdistinct, List.forall_mem_nil _, h⟩
  refine (ends_startBooks_up hapart hmidway).imp ?_
  rintro (_ | e) t ⟨hup, hnot⟩
  · exact ⟨fun _ => hup rfl, fun hne => absurd rfl hne⟩
  · simp only [ends_bind, ends_log]
    refine (ends_shutdown_any _).imp ?_
    rintro (e' | ⟨⟩) u -
    · exact ⟨(by cases ·), fun _ => hnot (Option.some_ne_none e)⟩
    · exact ⟨(by cases ·), fun _ => hnot (Option.some_ne_none e)⟩

/-! ## Bringing up -/

/-- Each instrument has a book. -/
theorem exists_makeBooks {config : EngineConfig} {instruments : List Instrument} {i : Instrument}
    (hi : i ∈ instruments) : i.id ∈ (makeBooks config history instruments).map (·.instrument) := by
  cases hfind : instruments.reverse.find? (·.id = i.id) with
  | none =>
    exact absurd (decide_eq_true rfl) (List.find?_eq_none.1 hfind i (List.mem_reverse.2 hi))
  | some a =>
    have hbook : (makeBooks config history instruments).find? (·.instrument = i.id) = _ :=
      find?_makeBooks i.id
    rw [hfind] at hbook
    exact List.mem_map.2 ⟨_, List.mem_of_find?_eq_some hbook, by simpa using List.find?_some hbook⟩

/-- Engines whose books are up go on from the trades of each instrument. -/
theorem Became.resumes {config : EngineConfig} (h : Became (Up source count history) x y)
    (hbooks : x.books.map (·.instrument) =
      (makeBooks config history source.instruments).map (·.instrument)) (hcount : 0 < count) :
    ∀ i ∈ source.instruments, source.tradesOf i.id ≠ [] → InTime (source.tradesOf i.id) →
      ∃ b, y.book? i.id = some b ∧ b.isRunning = true ∧
      b.Resumes count history (source.tradesOf i.id) := by
  intro i hi hne htime
  have hinstruments := h.instruments.trans hbooks
  obtain ⟨b, hb, hbi⟩ : ∃ b ∈ y.books, b.instrument = i.id := by
    rw [← List.mem_map, hinstruments]
    exact exists_makeBooks hi
  obtain ⟨hrunning, htells⟩ := h.all b hb
  refine ⟨b, hbi ▸ find?_of_mem (hinstruments ▸ nodup_makeBooks) hb, hrunning, ?_⟩
  have hkept := kept_replayed source i.id htime hcount
  rw [← hbi] at hkept hne ⊢
  exact hkept.resumes hcount hne htells.lastPrice htells.latest

/-- An engine that was brought up from data in memory: if the bootstrap succeeds then the book of
each instrument is running and goes on from the trades of the instrument that were recorded in
order of time, and it fails only if depth has no room for the open orders. -/
structure Restarted (os : Orders) (source : MemorySource) (count history : Nat)
    (answer : Except EngineError Unit) (y : Exchange σ) : Prop where
  resumes : answer = .ok () → ∀ i ∈ source.instruments, source.tradesOf i.id ≠ [] →
    InTime (source.tradesOf i.id) → ∃ b, y.book? i.id = some b ∧ b.isRunning = true ∧
      b.Resumes count history (source.tradesOf i.id)
  fails : answer ≠ .ok () → ¬ Roomy os source

/-- Whatever the settlement, an engine that is brought up from data in memory, with open orders
that do not cross, goes on from the recorded trades. Nothing but an overflow of depth breaks the
bootstrap off, and that only if there is no room for the open orders. -/
theorem bootstrap_resumes (S : Settlement σ) (x : Exchange σ) (source : MemorySource)
    (history : Nat) (j : Array Event) (hcount : 0 < x.config.recentTradeCount.toNat)
    (hapart : x.office.orders.Apart (source.openOrders x.office.orders)) :
    Ends (bootstrap S source.toSource history) ⟨x, j⟩
      (fun answer t => Restarted x.office.orders source x.config.recentTradeCount.toNat history
        answer t.state)
      (fun f _ => f.IsOverflow ∧ ¬ Roomy x.office.orders source) := by
  have hdistinct : ((makeBooks x.config history source.instruments).map (·.instrument)).Nodup :=
    nodup_makeBooks
  have hnew : ∀ b ∈ makeBooks x.config history source.instruments,
      Desk.Stocked (source.openOrders x.office.orders) (Roomy x.office.orders source)
        (x.office.orders.left (source.openOrders x.office.orders) b.instrument) history []
        ⟨x.office, b⟩ := by
    intro b hb
    obtain ⟨i, -, rfl⟩ := mem_makeBooks hb
    exact Desk.stocked_new _ i _ fun hroomy => hroomy _
  simp only [bootstrap, MemorySource.toSource, ends_bind, ends_change, ends_current, ends_log]
  refine (ends_loadOrders_stocked
    (x := { x with books := makeBooks x.config history source.instruments })
    hdistinct (fun _ hr => hr) hnew).mono ?_ fun _ _ hf => hf
  rintro _ ⟨y, k⟩ ⟨rfl, hloaded⟩
  have hloadedDistinct : (y.books.map (·.instrument)).Nodup := hloaded.instruments ▸ hdistinct
  have hcount' : y.config.recentTradeCount.toNat = x.config.recentTradeCount.toNat :=
    congrArg (·.recentTradeCount.toNat) hloaded.config
  have hmidway :
      Midway (Replayed (source.openOrders x.office.orders) (Roomy x.office.orders source) source
        x.config.recentTradeCount.toNat history) (Desk.Stocked (source.openOrders x.office.orders)
        (Roomy x.office.orders source) 0 history []) [] y.books y :=
    ⟨rfl, hloadedDistinct, List.forall_mem_nil _, hloaded.office ▸ hloaded.all⟩
  simp only [ends_bind, ends_current]
  refine (ends_loadTrades_replayed hcount' hmidway).mono ?_ fun _ _ hf => hf.elim
  rintro _ ⟨z, k⟩ ⟨rfl, hreplayed⟩
  have hapart' : z.office.orders.Apart (source.openOrders x.office.orders) := by
    rwa [hreplayed.office, hloaded.office]
  refine (ends_startAll_up (S := S) hapart' (hreplayed.instruments ▸ hloadedDistinct)
    (hreplayed.office ▸ hreplayed.all)).mono ?_ fun _ _ hf => hf.elim
  rintro answer ⟨w, k⟩ ⟨hup, hfails⟩
  have hinstruments := hreplayed.instruments.trans hloaded.instruments
  exact ⟨fun hanswer => (hup hanswer).resumes hinstruments hcount, hfails⟩

/-! ## Two trades of one moment -/

/-- An instrument whose last trades are of one moment. -/
def tiedTrades : MemorySource :=
  let trade (price : UInt64) : Trade := ⟨⟨0⟩, ⟨1⟩, .ofUInt64 price, ⟨1⟩, .ofNat 5⟩
  ((MemorySource.empty.addInstrument ⟨⟨0⟩, .ofUInt64 100⟩).addTrade ⟨0⟩ (trade 101)).addTrade
    ⟨0⟩ (trade 102)

/-- An engine without orders that replays one trade for each instrument. -/
def oneTrade : Exchange Simulated := .empty ⟨.empty, .empty⟩ ⟨1, 1⟩

/-- Sorting leaves the trades of `tiedTrades` as they were recorded. -/
theorem tiedTrades_toSource : tiedTrades.toSource =
    { tiedTrades.toSource with
      recentTrades := fun i count => .ok ((tiedTrades.tradesOf i).take count) } := by
  have hsorted : (tiedTrades.trades.map (·.2)).Pairwise fun a b => b.createdAt ≤ a.createdAt := by
    decide
  have hrecent : ∀ i count,
      tiedTrades.recentTrades i count = (tiedTrades.tradesOf i).take count := fun i count => by
    have hpart : (tiedTrades.tradesOf i).Pairwise fun a b => b.createdAt ≤ a.createdAt :=
      hsorted.sublist (List.filter_sublist.map _)
    rw [MemorySource.recentTrades, List.mergeSort_of_pairwise (hpart.imp decide_eq_true)]
  simp only [MemorySource.toSource, hrecent]

/-- Of `tiedTrades` the last one recorded is lost: the book goes on from the one before. -/
theorem tiedTrades_lose_last :
    let b := (perform (bootstrap Simulated.settlement tiedTrades.toSource 10)
      ⟨oneTrade, #[]⟩).state.book? ⟨0⟩
    (tiedTrades.tradesOf ⟨0⟩).getLast?.map (·.price) = some (.ofUInt64 102) ∧
      b.map (·.lastPrice) = some (.ofUInt64 101) ∧
      b.map (·.ledger.depth.latest) = some [⟨.ofUInt64 101, ⟨1⟩, .ofNat 5⟩] := by
  rw [tiedTrades_toSource]
  refine ⟨by decide, ?_, ?_⟩
  · decide +kernel
  · decide +kernel

/-- The instrument of `tiedTrades` with an open ask at 105 and an open bid of another user at 100,
which do not cross, and a bid of the user of the ask at 110. -/
def tiedSpread : MemorySource := { tiedTrades with asks := [⟨0⟩], bids := [⟨1⟩, ⟨2⟩] }

/-- An engine on the orders of `tiedSpread` that replays one trade for each instrument. -/
def oneTradeOfSpread : Exchange Simulated := .empty ⟨Session.spread, .empty⟩ ⟨1, 1⟩

/-- An engine is brought up from `tiedSpread`. -/
theorem bootstrap_tiedSpread :
    (0 < oneTradeOfSpread.config.recentTradeCount.toNat ∧
      oneTradeOfSpread.office.orders.Apart
      (tiedSpread.openOrders oneTradeOfSpread.office.orders)) ∧
      tiedSpread.openOrders oneTradeOfSpread.office.orders = [⟨0⟩, ⟨1⟩, ⟨2⟩] ∧
      Ends (bootstrap Simulated.settlement tiedSpread.toSource 10) ⟨oneTradeOfSpread, #[]⟩
        (fun answer t => Restarted oneTradeOfSpread.office.orders tiedSpread
          oneTradeOfSpread.config.recentTradeCount.toNat 10 answer t.state)
        (fun f _ => f.IsOverflow ∧ ¬ Roomy oneTradeOfSpread.office.orders tiedSpread) := by
  have hcount : 0 < oneTradeOfSpread.config.recentTradeCount.toNat := by decide
  have hopen : tiedSpread.openOrders oneTradeOfSpread.office.orders = [⟨0⟩, ⟨1⟩, ⟨2⟩] := by
    decide +kernel
  have hapart : oneTradeOfSpread.office.orders.Apart
      (tiedSpread.openOrders oneTradeOfSpread.office.orders) := by
    rw [hopen]
    unfold Orders.Apart
    decide +kernel
  -- with the orders in sight the bootstrap would be carried out to check the types
  generalize oneTradeOfSpread = x at hcount hopen hapart ⊢
  exact ⟨⟨hcount, hapart⟩, hopen, bootstrap_resumes _ _ _ _ _ hcount hapart⟩

end Exchange

end Bourse
