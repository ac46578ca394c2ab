import Bourse.Proofs.Engine.Restart
import Bourse.Proofs.Settlement.Recorded

/-!
# Bringing up all books or none

A bootstrap loads everything and then starts the books. It succeeds just in case every load
succeeds (`OrderSource.Serves`) and the reconciliation of every book finishes (`Exchange.passes`),
and then every book is running. Otherwise none is: a load fails before any book is started, and if
a start breaks off then the books are stopped, none of which answers with an error
(`Exchange.bootstrap_all_or_none`).

The books are started one after the other, in any order (`Exchange.bootstrapIn`).
`Exchange.bootstrap` is the case in which they are started in the order in which the engine visits
them (`Exchange.bootstrapIn_id`).
-/

namespace Bourse

open Bourse.Action

/-- No load fails of a bootstrap that begins with these orders and replays so many trades of each
instrument. -/
def OrderSource.Serves (source : OrderSource) (os : Orders) (count : Nat) : Prop :=
  ∃ instruments asks bids, source.instruments = .ok instruments ∧ source.openAsks os = .ok asks ∧
    source.openBids os = .ok bids ∧ ∀ i ∈ instruments, ∃ trades,
    source.recentTrades i.id count = .ok trades

/-- Depth has room for the open orders of each instrument, if they are served. -/
def OrderSource.Fits (source : OrderSource) (os : Orders) : Prop :=
  ∀ asks bids, source.openAsks os = .ok asks → source.openBids os = .ok bids →
    ∀ i, os.left (asks ++ bids) i < 2 ^ 63

/-- The orders of one instrument have no more left than all orders together. -/
theorem Orders.left_le (os : Orders) (rs : List OrderRef) (i : InstrumentId) :
    os.left rs i ≤ (rs.map fun r => (os.get r).unfulfilled.toNat).sum :=
  (List.filter_sublist.map _).sum_le_sum fun _ _ => Nat.zero_le _

/-- There is room if what the open orders have left together can be told. -/
theorem OrderSource.fits_of_total {source : OrderSource} {os : Orders}
    (h : ∀ asks bids, source.openAsks os = .ok asks → source.openBids os = .ok bids →
      ((asks ++ bids).map fun r => (os.get r).unfulfilled.toNat).sum < 2 ^ 63) : source.Fits os :=
  fun asks bids hasks hbids i => (os.left_le _ i).trans_lt (h asks bids hasks hbids)

/-- If all other loads succeed then what matters is the trades. -/
theorem OrderSource.serves_iff {source : OrderSource} {os : Orders} {count : Nat}
    {instruments : List Instrument} {asks bids : List OrderRef}
    (hinstruments : source.instruments = .ok instruments) (hasks : source.openAsks os = .ok asks)
    (hbids : source.openBids os = .ok bids) :
    source.Serves os count ↔ ∀ i ∈ instruments, ∃ trades,
    source.recentTrades i.id count = .ok trades := by
  constructor
  · rintro ⟨instruments', _, _, heq, -, -, htrades⟩
    obtain rfl : instruments = instruments' := Except.ok.inj (hinstruments.symm.trans heq)
    exact htrades
  · exact fun htrades => ⟨instruments, asks, bids, hinstruments, hasks, hbids, htrades⟩

/-! ## The start of one book -/

namespace Desk

variable {σ : Type} {S : Settlement σ} {s : Logged (Desk σ)}

/-- What breaks off the reconciliation with which a book starts, if anything does. -/
def breach (S : Settlement σ) (s : Logged (Desk σ)) : Option Failure :=
  match reconcile S { s with state.book.phase := .stopped } with
  | .ok _ _ => none
  | .error cause _ => some cause

/-- A book that nobody waits for is running after its start, unless reconciliation broke off: then
it has ended. -/
theorem ends_start_breach (hphase : s.state.book.phase = .waiting []) : Ends (start S) s
    (fun report t => t.state.book.instrument = s.state.book.instrument ∧
      (Exchange.startError? report.result = none ↔ breach S s = none) ∧
      (t.state.book.phase = .running ∨
        t.state.book.phase = .stopped ∧ Exchange.startError? report.result ≠ none))
    (fun _ _ => False) := by
  have hpass := (matching_phase (S := S)).reconcile { s with state.book.phase := .stopped }
  refine ((rules_instrument.start s).and ?_).mono (fun _ _ ht => ht) fun _ _ hf => hf.2
  simp only [start, ends_bind, ends_current, hphase, enter, ends_changeBook, ends_attempt]
  refine hpass.actual.mono ?_ ?_
  · rintro _ t ⟨hends, -⟩
    have hnone : breach S s = none := by rw [breach, hends]
    exact ⟨iff_of_true rfl hnone, .inl rfl⟩
  · rintro cause t ⟨hends, ht⟩
    have hsome : breach S s = some cause := by rw [breach, hends]
    have herror : some (EngineError.task cause.message) ≠ none := Option.some_ne_none _
    exact ⟨iff_of_false herror (hsome ▸ Option.some_ne_none cause), .inr ⟨ht, herror⟩⟩

end Desk

namespace Exchange

variable {σ : Type} {S : Settlement σ} {x y z : Exchange σ} {b : Book} {books todo : List Book}
  {j : Array Event} {source : OrderSource} {history : Nat} {office : Office σ}
  {config : EngineConfig}

/-! ## A bootstrap in two parts -/

/-- Loads everything from a source into new books. -/
def loadAll (source : OrderSource) (history : Nat) :
    Action (Exchange σ) (Except EngineError Unit) := do
  match source.instruments with
  | .error e => return .error (.source e)
  | .ok instruments =>
    Action.change fun x => { x with books := makeBooks x.config history instruments }
    let x ← Action.current
    match source.openAsks x.office.orders, source.openBids x.office.orders with
    | .error e, _ => return .error (.source e)
    | .ok _, .error e => return .error (.source e)
    | .ok asks, .ok bids =>
      Action.log (.loadingOpenOrders x.books.length asks.length bids.length)
      match ← loadOrders (asks ++ bids) with
      | .error e => return .error e
      | .ok () => loadTrades source (← Action.current).books

/-- Ends a bootstrap after the books were started. If one did not start then all are stopped. -/
def conclude : Option EngineError → Action (Exchange σ) (Except EngineError Unit)
  | none => do
    Action.log (.engineReady (← Action.current).books.length)
    return .ok ()
  | some e => do
    Action.log (.bootstrapFailed e)
    match ← shutdown with
    | .ok () => return .error e
    | .error e' => return .error e'

/-- Brings an exchange up. The books are started in some order. What the other books do while one
of them waits for settlement may be thought of as done by settlement, of which nothing is
assumed. -/
def bootstrapIn (S : Settlement σ) (order : List Book → List Book) (source : OrderSource)
    (history : Nat) : Action (Exchange σ) (Except EngineError Unit) := do
  match ← loadAll source history with
  | .error e => return .error e
  | .ok () => conclude (← startBooks S (order (← Action.current).books))

/-- All books are started and then the start is concluded. -/
theorem startAll_eq (S : Settlement σ) :
    startAll S = (do conclude (← startBooks S (← Action.current).books)) := rfl

/-- A bootstrap starts the books in the order in which the engine visits them. -/
theorem bootstrapIn_id (S : Settlement σ) (source : OrderSource) (history : Nat) :
    bootstrapIn S id source history = bootstrap S source history := by
  unfold bootstrapIn bootstrap loadAll
  simp only [id, startAll_eq]
  cases source.instruments with
  | error e => simp only [pure_bind]
  | ok instruments =>
    simp only [bind_assoc]
    congr
    funext _
    congr
    funext x
    cases source.openAsks x.office.orders with
    | error e => simp only [pure_bind]
    | ok asks =>
      cases source.openBids x.office.orders with
      | error e => simp only [pure_bind]
      | ok bids =>
        simp only [bind_assoc]
        congr
        funext _
        congr
        funext loaded
        cases loaded with
        | error e => simp only [pure_bind]
        | ok _ => exact bind_assoc _ _ _

/-! ## Loading -/

/-- What is said of the instrument of each book is said of each instrument. -/
theorem forall_instrument_iff {instruments : List Instrument} (p : InstrumentId → Prop)
    (hbooks : books.map (·.instrument) = (makeBooks config history instruments).map
      (·.instrument)) : (∀ b ∈ books, p b.instrument) ↔ ∀ i ∈ instruments, p i.id := by
  have hmap : (∀ i ∈ books.map (·.instrument), p i) ↔ ∀ b ∈ books, p b.instrument :=
    List.forall_mem_map
  rw [← hmap, hbooks]
  constructor
  · exact fun h i hi => h i.id (exists_makeBooks hi)
  · rintro h i hi
    obtain ⟨b, hb, rfl⟩ := List.mem_map.1 hi
    obtain ⟨a, ha, rfl⟩ := mem_makeBooks hb
    exact h a ha

/-- What the loads of a bootstrap have made of an engine without books. Settlement has no part in
it. -/
structure Loaded (source : OrderSource) (office : Office σ) (config : EngineConfig) (history : Nat)
    (answer : Except EngineError Unit) (y : Exchange σ) : Prop where
  served : answer = .ok () ↔ source.Serves office.orders config.recentTradeCount.toNat
  office : y.office = office
  instruments : ∀ instruments, source.instruments = .ok instruments →
    y.books.map (·.instrument) = (makeBooks config history instruments).map (·.instrument)
  distinct : (y.books.map (·.instrument)).Nodup
  waiting : ∀ b ∈ y.books, b.phase = .waiting []

/-- The instruments were loaded, and there is a book for each. -/
theorem Loaded.of_instruments {instruments : List Instrument} {answer : Except EngineError Unit}
    (hinstruments : source.instruments = .ok instruments)
    (hserved : answer = .ok () ↔ source.Serves office.orders config.recentTradeCount.toNat)
    (hoffice : y.office = office)
    (hbooks : y.books.map (·.instrument) = (makeBooks config history instruments).map
      (·.instrument)) (hwaiting : ∀ b ∈ y.books, b.phase = .waiting []) :
    Loaded source office config history answer y where
  served := hserved
  office := hoffice
  instruments instruments' heq := by
    obtain rfl : instruments = instruments' := Except.ok.inj (hinstruments.symm.trans heq)
    exact hbooks
  distinct := hbooks ▸ nodup_makeBooks
  waiting := hwaiting

/-- The loads answer, also if one of them fails. -/
theorem ends_loadAll (hfits : source.Fits office.orders) :
    Ends (loadAll source history) ⟨.empty office config, j⟩
      (fun answer t => Loaded source office config history answer t.state) (fun _ _ => False) := by
  unfold loadAll
  cases hinstruments : source.instruments with
  | error e =>
    refine ⟨⟨(by cases ·), ?_⟩, rfl, fun _ heq => ?_, List.nodup_nil, List.forall_mem_nil _⟩
    · rintro ⟨_, _, _, heq, -⟩
      cases hinstruments.symm.trans heq
    · cases hinstruments.symm.trans heq
  | ok instruments =>
    have hmade : ∀ b ∈ makeBooks config history instruments, b.phase = .waiting [] := by
      intro b hb
      obtain ⟨i, -, rfl⟩ := mem_makeBooks hb
      rfl
    simp only [ends_bind, ends_change, ends_current, empty]
    cases hasks : source.openAsks office.orders with
    | error e =>
      refine .of_instruments hinstruments ⟨(by cases ·), ?_⟩ rfl rfl hmade
      rintro ⟨_, _, _, -, heq, -⟩
      cases hasks.symm.trans heq
    | ok asks =>
      cases hbids : source.openBids office.orders with
      | error e =>
        refine .of_instruments hinstruments ⟨(by cases ·), ?_⟩ rfl rfl hmade
        rintro ⟨_, _, _, -, -, heq, -⟩
        cases hbids.symm.trans heq
      | ok bids =>
        let made : Exchange σ := ⟨office, config, makeBooks config history instruments⟩
        have hnew : ∀ b ∈ made.books, Desk.Stocked (asks ++ bids) True
            (office.orders.left (asks ++ bids) b.instrument) history [] ⟨office, b⟩ := by
          intro b hb
          obtain ⟨i, -, rfl⟩ := mem_makeBooks hb
          exact Desk.stocked_new _ i _ fun _ => hfits asks bids hasks hbids _
        simp only [ends_bind, ends_log]
        refine (ends_loadOrders_stocked (x := made) nodup_makeBooks (fun _ hr => hr) hnew).mono ?_
          fun _ _ hf => hf.2 trivial
        rintro _ ⟨y, k⟩ ⟨rfl, hloaded⟩
        have hmidway :
            Midway (fun d => ∃ latest, Desk.Stocked (asks ++ bids) True 0 history latest d)
              (Desk.Stocked (asks ++ bids) True 0 history []) [] y.books y :=
          ⟨rfl, hloaded.instruments ▸ nodup_makeBooks, List.forall_mem_nil _,
            hloaded.office ▸ hloaded.all⟩
        have hcount : y.config.recentTradeCount.toNat = config.recentTradeCount.toNat :=
          congrArg (·.recentTradeCount.toNat) hloaded.config
        simp only [ends_bind, ends_current]
        refine (ends_loadTrades_became hcount ?_ hmidway).imp ?_
        · intro b trades k _ hb
          exact (hb.ends_loadTrades trades).imp fun _ _ ht => ⟨ht.1, ht.2.1, _, ht.2.2.2⟩
        · rintro answer t ⟨hserved, -, hbecame⟩
          have hinst := hbecame.instruments.trans hloaded.instruments
          refine .of_instruments hinstruments (hserved.trans ?_)
            (hbecame.office.trans hloaded.office) hinst ?_
          · rw [OrderSource.serves_iff hinstruments hasks hbids]
            exact forall_instrument_iff
              (fun i => ∃ trades, source.recentTrades i config.recentTradeCount.toNat = .ok trades)
              hloaded.instruments
          · intro b hb
            rcases hbecame.all b hb with ⟨latest, hstocked⟩ | hstocked
            · exact hstocked.phase
            · exact hstocked.phase

/-! ## Starting -/

/-- What breaks off the reconciliation of each book, if anything does, where these books are
started one after the other. Each pass begins with what those before it have left. -/
def passes (S : Settlement σ) : List Book → Logged (Exchange σ) → List (Option Failure)
  | [], _ => []
  | b :: rest, s =>
    Desk.breach S ⟨⟨s.state.office, b⟩, s.journal⟩ :: passes S rest
      (endState (onBook b (Desk.start S)) s)

/-- Some books were started, and the others are as they were. -/
structure Started (todo : List Book) (error : Option EngineError) (x y : Exchange σ) : Prop where
  instruments : y.books.map (·.instrument) = x.books.map (·.instrument)
  /-- One that is not running has ended, and that is an error. -/
  started : ∀ b ∈ y.books, b.instrument ∈ todo.map (·.instrument) →
    b.phase = .running ∨ b.phase = .stopped ∧ error ≠ none
  others : ∀ b ∈ y.books, b.instrument ∉ todo.map (·.instrument) → b ∈ x.books

/-- A book that was started is put back, and then others are started. -/
theorem Started.cons {c : Book} {o : Office σ} {error later : Option EngineError}
    (h : Started todo later { x with office := o, books := putBook c x.books } y)
    (hdistinct : (x.books.map (·.instrument)).Nodup)
    (hb : b.instrument ∈ x.books.map (·.instrument)) (hc : c.instrument = b.instrument)
    (hphase : c.phase = .running ∨ c.phase = .stopped ∧ error ≠ none) :
    Started (b :: todo) (error.or later) x y where
  instruments := h.instruments.trans (map_instrument_putBook_of_mem (hc ▸ hb))
  started d hd hi := by
    by_cases hlater : d.instrument ∈ todo.map (·.instrument)
    · refine (h.started d hd hlater).imp_right (.imp_right fun hne heq => ?_)
      exact hne (Option.or_eq_none_iff.1 heq).2
    · have hput : d ∈ putBook c x.books := h.others d hd hlater
      have hdb : d.instrument = b.instrument := (List.mem_cons.1 hi).resolve_right hlater
      obtain rfl : d = c := List.inj_on_of_nodup_map (nodup_putBook hdistinct) hput
        (mem_putBook_self c _) (hdb.trans hc.symm)
      exact hphase.imp_right (.imp_right fun hne heq => hne (Option.or_eq_none_iff.1 heq).1)
  others d hd hi := by
    rw [List.map_cons, List.mem_cons, not_or] at hi
    rcases mem_putBook (h.others d hd hi.2) with rfl | hmem
    · exact absurd hc hi.1
    · exact hmem

/-- A book that nobody waits for is started, and put back. -/
theorem ends_onBook_start (hphase : b.phase = .waiting []) : Ends (onBook b (Desk.start S)) ⟨x, j⟩
    (fun report t => ∃ o c, t.state = { x with office := o, books := putBook c x.books } ∧
      c.instrument = b.instrument ∧
      (startError? report.result = none ↔ Desk.breach S ⟨⟨x.office, b⟩, j⟩ = none) ∧
      (c.phase = .running ∨ c.phase = .stopped ∧ startError? report.result ≠ none))
    (fun _ _ => False) :=
  ends_within.2 ((Desk.ends_start_breach hphase).imp fun _ _ ht => ⟨_, _, rfl, ht⟩)

/-- Books that nobody waits for are started. There is no error just in case every pass finishes. -/
theorem ends_startBooks_passes (hdistinct : (x.books.map (·.instrument)).Nodup)
    (htodo : ∀ b ∈ todo, b.instrument ∈ x.books.map (·.instrument) ∧ b.phase = .waiting []) :
    Ends (startBooks S todo) ⟨x, j⟩
      (fun error t => (error = none ↔ ∀ pass ∈ passes S todo ⟨x, j⟩, pass = none) ∧
        Started todo error x t.state)
      (fun _ _ => False) := by
  induction todo generalizing x j with
  | nil =>
    refine ⟨iff_of_true rfl (List.forall_mem_nil _), rfl, fun b _ hi => ?_, fun _ hb _ => hb⟩
    exact absurd hi List.not_mem_nil
  | cons b rest ih =>
    obtain ⟨hb, hphase⟩ := htodo b List.mem_cons_self
    simp only [startBooks, ends_bind, ends_pure]
    refine (ends_onBook_start hphase).actual.mono ?_ fun _ _ hf => hf.2
    rintro report ⟨_, k⟩ ⟨hends, o, c, rfl, hc, hfinished, hc'⟩
    let next : Exchange σ := { x with office := o, books := putBook c x.books }
    have hpasses : passes S (b :: rest) ⟨x, j⟩ =
        Desk.breach S ⟨⟨x.office, b⟩, j⟩ :: passes S rest ⟨next, k⟩ := by
        rw [passes, endState, hends]
    refine (ih (x := next) (nodup_putBook hdistinct) ?_).imp ?_
    · intro d hd
      rw [map_instrument_putBook_of_mem (hc ▸ hb)]
      exact htodo d (List.mem_cons_of_mem _ hd)
    · rintro later t ⟨hlater, hstarted⟩
      refine ⟨?_, hstarted.cons hdistinct hb hc hc'⟩
      rw [Option.or_eq_none_iff, hlater, hpasses, List.forall_mem_cons, hfinished]

/-! ## All or none -/

/-- If no book has broken off then all are visited. -/
theorem stopInTurn_of_intact (h : ∀ b ∈ books, b.phase.isCrashed = false) :
    stopInTurn books = books.map Book.stopped ∧ farewell books = .ok () := by
  induction books with
  | nil => exact ⟨rfl, rfl⟩
  | cons b rest ih =>
    rw [List.forall_mem_cons] at h
    obtain ⟨hstop, hfarewell⟩ := ih h.2
    rw [stopInTurn, farewell_cons, h.1, hstop, hfarewell]
    exact ⟨rfl, rfl⟩

/-- A bootstrap whose books were started succeeds if there was no error, and otherwise leaves none
running. -/
theorem ends_conclude {error : Option EngineError} (hdistinct : (x.books.map (·.instrument)).Nodup)
    (hphase : ∀ b ∈ x.books, b.phase = .running ∨ b.phase = .stopped ∧ error ≠ none) :
    Ends (conclude error) ⟨x, j⟩
      (fun answer t => (answer = .ok () ↔ error = none) ∧
        t.state.books.map (·.instrument) = x.books.map (·.instrument) ∧
        (∀ b ∈ t.state.books, b.isRunning = true ↔ answer = .ok ()))
      (fun _ _ => False) := by
  cases error with
  | none =>
    refine ⟨iff_of_true rfl rfl, rfl, fun b hb => iff_of_true ?_ rfl⟩
    exact decide_eq_true ((hphase b hb).resolve_right fun h => h.2 rfl)
  | some e =>
    have hintact : ∀ b ∈ x.books, b.phase.isCrashed = false := by
      intro b hb
      rcases hphase b hb with h | ⟨h, -⟩ <;> rw [h] <;> rfl
    obtain ⟨hstop, hfarewell⟩ := stopInTurn_of_intact hintact
    simp only [conclude, ends_bind, ends_log]
    refine (ends_shutdown hdistinct).imp ?_
    rintro _ ⟨_, k⟩ ⟨rfl, rfl⟩
    rw [hfarewell]
    refine ⟨iff_of_false (by cases ·) (Option.some_ne_none e),
      map_instrument_stopInTurn _, fun b hb =>
      iff_of_false ?_ (by cases ·)⟩
    obtain ⟨c, hc, rfl⟩ := List.mem_map.1 (hstop ▸ hb)
    have hstarted : 1 ≤ c.phase.stage := by
      rcases hphase c hc with h | ⟨h, -⟩ <;> rw [h]
      · exact le_rfl
      · exact Nat.le_succ 1
    rw [Book.isRunning_of_isEnded (Phase.isEnded_afterShutdown hstarted)]
    exact Bool.false_ne_true

/-- What the bootstrap of an engine without books comes to, with settlement that keeps a record of
its calls. -/
structure AllOrNone (S : Settlement σ) (order : List Book → List Book) (source : OrderSource)
    (history : Nat) (s : Logged (Exchange (Recorded σ))) (answer : Except EngineError Unit)
    (y : Exchange (Recorded σ)) : Prop where
  /-- It succeeds just in case every load succeeds and every reconciliation pass finishes. -/
  succeeds : answer = .ok () ↔
    source.Serves s.state.office.orders s.state.config.recentTradeCount.toNat ∧
      let loaded := endState (loadAll source history) s
      ∀ pass ∈ passes S.recorded (order loaded.state.books) loaded, pass = none
  /-- Then the book of each instrument is running. -/
  up : answer = .ok () → ∀ instruments, source.instruments = .ok instruments → ∀ i ∈ instruments,
    ∃ b, y.book? i.id = some b ∧ b.isRunning = true
  /-- All books are running then, and otherwise none is. -/
  running : ∀ b ∈ y.books, b.isRunning = true ↔ answer = .ok ()
  /-- If a load failed then settlement has not been called, and nothing of what it works on has
  changed. -/
  unasked : ¬ source.Serves s.state.office.orders s.state.config.recentTradeCount.toNat →
    y.office.backend.transcript = s.state.office.backend.transcript ∧ y.office = s.state.office

/-- A bootstrap in which depth has room for the open orders comes to what `AllOrNone` says, in
whatever order the books are started. -/
theorem ends_bootstrapIn {order : List Book → List Book} {source : OrderSource} {history : Nat}
    {office : Office (Recorded σ)} {config : EngineConfig} {j : Array Event}
    (horder : ∀ books, (order books).Perm books) (hfits : source.Fits office.orders) :
    Ends (bootstrapIn S.recorded order source history) ⟨.empty office config, j⟩
      (fun answer t => AllOrNone S order source history ⟨.empty office config, j⟩ answer t.state)
      (fun _ _ => False) := by
  simp only [bootstrapIn, ends_bind]
  refine (ends_loadAll hfits).actual.mono ?_ fun _ _ hf => hf.2
  rintro (e | ⟨⟩) loaded ⟨hends, hloaded⟩
  · have herror : (.error e : Except EngineError Unit) ≠ .ok () := (by cases ·)
    refine ⟨iff_of_false herror fun h => herror (hloaded.served.2 h.1),
      fun hok => absurd hok herror, fun b hb => iff_of_false ?_ herror,
      fun _ => ⟨congrArg (·.backend.transcript) hloaded.office, hloaded.office⟩⟩
    rw [Book.isRunning, hloaded.waiting b hb]
    exact Bool.false_ne_true
  · have hserves : source.Serves office.orders config.recentTradeCount.toNat :=
      hloaded.served.1 rfl
    have hmap : ((order loaded.state.books).map (·.instrument)).Perm
        (loaded.state.books.map (·.instrument)) :=
      (horder _).map _
    have hloadedEnd : endState (loadAll source history) ⟨.empty office config, j⟩ = loaded := by
      rw [endState, hends]
    simp only [ends_bind, ends_current]
    refine (ends_startBooks_passes (x := loaded.state) hloaded.distinct ?_).imp ?_
    · exact fun b hb => ⟨hmap.subset (List.mem_map_of_mem hb), hloaded.waiting b
        ((horder _).subset hb)⟩
    · rintro error started ⟨hpasses, hstarted⟩
      have hdistinct : (started.state.books.map (·.instrument)).Nodup :=
        hstarted.instruments ▸ hloaded.distinct
      refine (ends_conclude hdistinct fun b hb => hstarted.started b hb ?_).imp ?_
      · exact hmap.symm.subset (hstarted.instruments ▸ List.mem_map_of_mem hb)
      · rintro answer t ⟨hanswer, hinstruments, hrunning⟩
        refine ⟨?_, fun hok instruments heq i hi => ?_, hrunning, fun hnot => absurd hserves hnot⟩
        · rw [hanswer, hpasses, hloadedEnd]
          exact (and_iff_right hserves).symm
        · have hbooks := (hinstruments.trans hstarted.instruments).trans
            (hloaded.instruments instruments heq)
          obtain ⟨b, hb, hbi⟩ := List.mem_map.1 (hbooks ▸ exists_makeBooks hi)
          refine ⟨b, hbi ▸ find?_of_mem (hbooks ▸ nodup_makeBooks) hb, (hrunning b hb).2 hok⟩

/-- Whatever fails to load and whatever settlement does, a bootstrap in which depth has room for
the open orders answers, and all books are running after it or none is. This holds of the order in
which the books were made, and in whatever other order they are started. -/
theorem bootstrap_all_or_none (S : Settlement σ) (order : List Book → List Book)
    (source : OrderSource) (history : Nat) (office : Office (Recorded σ)) (config : EngineConfig)
    (j : Array Event) (horder : ∀ books, (order books).Perm books)
    (hfits : source.Fits office.orders) :
    Ends (bootstrap S.recorded source history) ⟨.empty office config, j⟩
        (fun answer t => AllOrNone S id source history ⟨.empty office config, j⟩ answer t.state)
        (fun _ _ => False) ∧
      Ends (bootstrapIn S.recorded order source history) ⟨.empty office config, j⟩
        (fun answer t => AllOrNone S order source history ⟨.empty office config, j⟩ answer t.state)
        (fun _ _ => False) := by
  refine ⟨?_, ends_bootstrapIn horder hfits⟩
  rw [← bootstrapIn_id]
  exact ends_bootstrapIn (fun books => .refl books) hfits

/-- Each of two instruments with its ask and its bid, which cross. -/
def crossedTwice : OrderSource :=
  MemorySource.toSource ⟨[⟨⟨0⟩, .ofUInt64 90⟩, ⟨⟨1⟩, .ofUInt64 20⟩], [⟨0⟩, ⟨2⟩], [⟨1⟩, ⟨3⟩], []⟩

/-- Settlement is to crash on the pair of the second instrument. -/
def crashingSecond : Office (Recorded Scripted) :=
  ⟨twoInstruments, ⟨Scripted.empty.extend ⟨1⟩ [.crash], []⟩⟩

/-- The books of `crossedTwice` are brought up all or none, also the last one first. -/
theorem bootstrap_crashingSecond :
    ((∀ books : List Book, books.reverse.Perm books) ∧ crossedTwice.Fits crashingSecond.orders) ∧
      Ends (bootstrap Scripted.settlement.recorded crossedTwice 10)
          ⟨.empty crashingSecond .default, #[]⟩
          (fun answer t => AllOrNone Scripted.settlement id crossedTwice 10
            ⟨.empty crashingSecond .default, #[]⟩ answer t.state)
          (fun _ _ => False) ∧
        Ends (bootstrapIn Scripted.settlement.recorded List.reverse crossedTwice 10)
          ⟨.empty crashingSecond .default, #[]⟩
          (fun answer t => AllOrNone Scripted.settlement List.reverse crossedTwice 10
            ⟨.empty crashingSecond .default, #[]⟩ answer t.state)
          (fun _ _ => False) := by
  have hfits : crossedTwice.Fits crashingSecond.orders := by
    refine OrderSource.fits_of_total fun asks bids hasks hbids => ?_
    obtain rfl : _ = asks := Except.ok.inj hasks
    obtain rfl : _ = bids := Except.ok.inj hbids
    decide
  have horder : ∀ books : List Book, books.reverse.Perm books := fun _ => List.reverse_perm _
  -- with the orders in sight the bootstrap would be carried out to check the types
  generalize crashingSecond = office at hfits ⊢
  exact ⟨⟨horder, hfits⟩, bootstrap_all_or_none _ _ _ _ _ _ _ horder hfits⟩

/-- The last book is started first: reconciliation of the second instrument breaks off and that of
the first finishes, and no book is running. -/
example :
    let x : Logged (Exchange (Recorded Scripted)) := ⟨.empty crashingSecond .default, #[]⟩
    let loaded := endState (loadAll crossedTwice 10) x
    let act := bootstrapIn Scripted.settlement.recorded List.reverse crossedTwice 10
    passes Scripted.settlement.recorded loaded.state.books.reverse loaded =
      [some .backendCrash, none] ∧
      (endState act x).state.books.map (·.phase) = [.stopped, .stopped] := by
  decide +kernel

end Exchange

end Bourse
