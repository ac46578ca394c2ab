import Bourse.Proofs.Book.Ended
import Bourse.Proofs.Engine.Independence
import Bourse.Settlement.Scripted

/-!
# Shutting down an engine

The engine stops its books in turn and ends at the first that answers with an error, which is one
whose matching had broken off. So the books up to that one have ended, and those behind it are as
they were (`Exchange.ends_shutdown`): one of them may still be running (`Exchange.Spared`).

Whatever is done to the engine later, a book that has ended stays so (`Exchange.Advances`), and
refuses every open order that is not a stop-loss (`Exchange.shutdown_ends_books`).
-/

namespace Bourse

open Bourse.Action

/-! ## Calls to a book -/

/-- A call to a book leads from one desk to another, whether or not it breaks off. -/
inductive Desk.Called {σ : Type} (S : Settlement σ) (d d' : Desk σ) : Prop
  | load {side r answer} (leads : (load side r).Leads d answer d')
  | loadTrades {trades answer} (leads : (loadTrades trades).Leads d answer d')
  | start {answer} (leads : (start S).Leads d answer d')
  | submit {side r answer} (leads : (submit S side r).Leads d answer d')
  | withdraw {side r answer} (leads : (withdraw side r).Leads d answer d')
  | abandon {answer} (leads : abandon.Leads d answer d')
  | flush {answer} (leads : flush.Leads d answer d')
  | shutdown {answer} (leads : shutdown.Leads d answer d')

namespace Desk

variable {σ α : Type} {S : Settlement σ} {d d' : Desk σ}

/-- What all ends of an action are related to, where it leads is related to. -/
theorem Leads.respected {R : Desk σ → Desk σ → Prop} {act : Action (Desk σ) α} {answer : Option α}
    (h : act.Leads d answer d') (hact : Action.Respects R act) : R d d' :=
  h.of_ends (P := fun _ e => R d e) fun j => hact ⟨d, j⟩

/-- A call takes no book back, and leaves it its instrument. -/
theorem Called.advances (h : Called S d d') : Advances d d' := by
  cases h with
  | load leads => exact Leads.respected leads (respects_advances (matching_phase (S := S)).load)
  | loadTrades leads =>
    exact Leads.respected leads
      (respects_advances ((matching_phase (S := S)).loadTrades (fun _ _ => rfl) _))
  | start leads =>
    exact Leads.respected leads fun s => (ends_start_stage s).mono
      (fun _ _ ht => ht.1) fun _ _ ht => ht.1
  | submit leads => exact Leads.respected leads respects_submit
  | withdraw leads =>
    exact Leads.respected leads (respects_advances (matching_phase (S := S)).withdraw)
  | abandon leads => exact Leads.respected leads respects_abandon
  | flush leads => exact Leads.respected leads (respects_advances (matching_phase (S := S)).flush)
  | shutdown leads => exact Leads.respected leads respects_shutdown

theorem Called.instrument (h : Called S d d') : d'.book.instrument = d.book.instrument := by
  have hrules := rules_instrument (S := S)
  cases h with
  | load leads => exact Leads.respected leads hrules.load
  | loadTrades leads => exact Leads.respected leads (hrules.loadTrades (fun _ _ => rfl) _)
  | start leads => exact Leads.respected leads hrules.start
  | submit leads => exact Leads.respected leads hrules.submit
  | withdraw leads => exact Leads.respected leads hrules.withdraw
  | abandon leads => exact Leads.respected leads hrules.abandon
  | flush leads => exact Leads.respected leads hrules.flush
  | shutdown leads => exact Leads.respected leads hrules.shutdown

end Desk

namespace Exchange

variable {σ α : Type} {S : Settlement σ} {x y z : Exchange σ} {b : Book} {books : List Book}
  {r : OrderRef} {side : Side}

/-! ## Shutting down -/

/-- The books after they were shut down in turn. The first that had broken off is the last to be
visited. -/
def stopInTurn : List Book → List Book
  | [] => []
  | b :: rest => b.stopped :: if b.phase.isCrashed then rest else stopInTurn rest

/-- The answer to the engine's shutdown: what the first book that had broken off answers. -/
def farewell (books : List Book) : Except EngineError Unit :=
  ((books.find? (·.phase.isCrashed)).map (·.phase.farewell)).getD (.ok ())

/-- The book is running, and one that had broken off is visited before it. -/
def Spared (books : List Book) (b : Book) : Prop :=
  b.isRunning = true ∧
    ∃ before crashed after, books = before ++ crashed :: after ∧
    crashed.phase.isCrashed = true ∧ b ∈ after

/-- A book is spared by those visited before it. -/
theorem spared_cons {c : Book} : Spared (c :: books) b ↔
    b.isRunning = true ∧ c.phase.isCrashed = true ∧ b ∈ books ∨ Spared books b := by
  constructor
  · rintro ⟨hrun, before, crashed, after, heq, hcrashed, hb⟩
    cases before with
    | nil =>
      obtain ⟨rfl, rfl⟩ := List.cons.inj heq
      exact .inl ⟨hrun, hcrashed, hb⟩
    | cons d before =>
      exact .inr ⟨hrun, before, crashed, after, (List.cons.inj heq).2, hcrashed, hb⟩
  · rintro (⟨hrun, hcrashed, hb⟩ | ⟨hrun, before, crashed, after, rfl, hcrashed, hb⟩)
    · exact ⟨hrun, [], c, books, rfl, hcrashed, hb⟩
    · exact ⟨hrun, c :: before, crashed, after, rfl, hcrashed, hb⟩

/-- A spared book is one of those visited. -/
theorem Spared.mem (h : Spared books b) : b ∈ books := by
  obtain ⟨-, before, crashed, after, rfl, -, hb⟩ := h
  exact List.mem_append_right _ (List.mem_cons_of_mem _ hb)

/-- The farewell is that of the first book that had broken off. -/
theorem farewell_cons (b : Book) (rest : List Book) : farewell (b :: rest) =
    if b.phase.isCrashed then b.phase.farewell else farewell rest := by
  unfold farewell
  rw [List.find?_cons]
  cases b.phase.isCrashed <;> rfl

/-- A book is put back where it was. -/
theorem putBook_append {done rest : List Book} {c : Book} (h : c.instrument = b.instrument)
    (hdone : b.instrument ∉ done.map (·.instrument)) :
    putBook c (done ++ b :: rest) = done ++ c :: rest := by
  induction done with
  | nil => exact if_pos h.symm
  | cons d done ih =>
    rw [List.map_cons, List.mem_cons, not_or] at hdone
    rw [List.cons_append, putBook, if_neg fun heq => hdone.1 (h.symm.trans heq.symm), ih hdone.2,
      List.cons_append]

/-- Shutting down the books from one on: those before have been visited. -/
theorem ends_visitBooks_shutdown (done : List Book) {rest : List Book} {x : Exchange σ}
    {j : Array Event} (hx : x.books = done ++ rest)
    (hdistinct : (x.books.map (·.instrument)).Nodup) : Ends (visitBooks Desk.shutdown rest) ⟨x, j⟩
      (fun answer t => answer = farewell rest ∧
        t.state = { x with books := done ++ stopInTurn rest })
      (fun _ _ => False) := by
  induction rest generalizing done x j with
  | nil => exact ⟨rfl, congrArg (Exchange.mk x.office x.config) hx⟩
  | cons b rest ih =>
    have hdone : b.instrument ∉ done.map (·.instrument) := by
      rw [hx, List.map_append, List.map_cons] at hdistinct
      exact fun hmem => (List.nodup_append.1 hdistinct).2.2 _ hmem _ List.mem_cons_self rfl
    simp only [visitBooks, onBook, ends_bind, ends_within]
    refine (Desk.ends_shutdown_stopped _).imp ?_
    rintro answer ⟨d, k⟩ ⟨rfl, rfl⟩
    simp only [hx, stopInTurn, farewell_cons]
    rw [putBook_append (Book.instrument_stopped b) hdone]
    cases hp : b.phase with
    | crashed cause => exact ⟨rfl, rfl⟩
    | waiting submissions | running | stopped =>
      have happend : done ++ b.stopped :: rest = done ++ [b.stopped] ++ rest := by simp
      refine (ih (done ++ [b.stopped]) happend ?_).imp ?_
      · rw [hx] at hdistinct
        simpa using hdistinct
      · rintro _ t ⟨rfl, ht⟩
        exact ⟨rfl, ht.trans (by simp [Phase.isCrashed])⟩

/-- Shutting down an engine ends the books in turn, up to the first that had broken off, and
answers with what that one answers. -/
theorem ends_shutdown {j : Array Event} (hdistinct : (x.books.map (·.instrument)).Nodup) :
    Ends shutdown ⟨x, j⟩
      (fun answer t => answer = farewell x.books ∧
        t.state = { x with books := stopInTurn x.books })
      (fun _ _ => False) := by
  simp only [shutdown, ends_bind, ends_current]
  refine (ends_visitBooks_shutdown [] rfl hdistinct).imp ?_
  rintro (e | ⟨⟩) t ⟨hanswer, ht⟩
  · exact ⟨hanswer, ht⟩
  · exact ⟨hanswer, ht⟩

/-- Stopping books leaves their instruments. -/
theorem map_instrument_stopInTurn (books : List Book) :
    (stopInTurn books).map (·.instrument) = books.map (·.instrument) := by
  induction books with
  | nil => rfl
  | cons b rest ih =>
    rw [stopInTurn, List.map_cons, List.map_cons, Book.instrument_stopped]
    split
    · rfl
    · rw [ih]

/-- The book of an instrument is left as it was if it is spared, and otherwise has ended, or was
not running and has not been visited. -/
theorem find?_stopInTurn {i : InstrumentId} (hdistinct : (books.map (·.instrument)).Nodup)
    (h : books.find? (·.instrument = i) = some b) :
    ∃ b', (stopInTurn books).find? (·.instrument = i) = some b' ∧
      (b' = b ∧ (Spared books b ∨ b.isRunning = false) ∨
        b' = b.stopped ∧ ¬ Spared books b) := by
  induction books with
  | nil => cases h
  | cons c rest ih =>
    rw [List.map_cons, List.nodup_cons] at hdistinct
    by_cases hc : c.instrument = i
    · rw [List.find?_cons_of_pos (by simpa using hc), Option.some.injEq] at h
      subst h
      have hnot : c ∉ rest := fun hmem => hdistinct.1 (List.mem_map_of_mem hmem)
      refine ⟨c.stopped, List.find?_cons_of_pos (decide_eq_true hc), .inr ⟨rfl, fun hs => ?_⟩⟩
      rcases spared_cons.1 hs with ⟨-, -, hmem⟩ | hs
      · exact hnot hmem
      · exact hnot hs.mem
    · rw [List.find?_cons_of_neg (by simpa using hc)] at h
      rw [stopInTurn, List.find?_cons_of_neg (a := c.stopped) fun heq => hc
        (of_decide_eq_true heq)]
      split
      · next hcrashed =>
        refine ⟨b, h, .inl ⟨rfl, ?_⟩⟩
        cases hrun : b.isRunning with
        | false => exact .inr rfl
        | true => exact .inl (spared_cons.2 (.inl ⟨hrun, hcrashed, List.mem_of_find?_eq_some h⟩))
      · next hcrashed =>
        obtain ⟨b', hb', hcases⟩ := ih hdistinct.2 h
        refine ⟨b', hb', hcases.imp ?_ ?_⟩
        · exact And.imp_right (.imp_left fun hs => spared_cons.2 (.inr hs))
        · exact And.imp_right fun hs hs' => (spared_cons.1 hs').elim (fun hc => hcrashed hc.2.1) hs

/-! ## What is done to an engine later -/

/-- Something is done to an engine: a call to it or to one of its books, whether or not it breaks
off, or a change of what it shares with settlement. -/
inductive Goes (S : Settlement σ) (x y : Exchange σ) : Prop
  | submit {side r answer} (leads : (submit S side r).Leads x answer y)
  | withdraw {side r answer} (leads : (withdraw side r).Leads x answer y)
  | flush {answer} (leads : flush.Leads x answer y)
  | shutdown {answer} (leads : shutdown.Leads x answer y)
  | book {b d} (found : x.book? b.instrument = some b) (called : Desk.Called S ⟨x.office, b⟩ d)
    (eq : y = { x with office := d.office, books := putBook d.book x.books })
  | office {o} (eq : y = { x with office := o })

/-- The second engine is what the first has become. -/
abbrev Later (S : Settlement σ) : Exchange σ → Exchange σ → Prop := Relation.ReflTransGen (Goes S)

/-- The engine has one book for each instrument, and that of this instrument has ended. -/
structure HasEnded (i : InstrumentId) (x : Exchange σ) : Prop where
  distinct : (x.books.map (·.instrument)).Nodup
  book : ∃ b, x.book? i = some b ∧ b.phase.isEnded = true

namespace HasEnded

variable {i : InstrumentId}

/-- A book is put in place that has come as far as the one that is there. -/
theorem putBook (h : HasEnded i x) {c : Book} (hb : x.book? b.instrument = some b)
    (hinstrument : c.instrument = b.instrument) (hstage : b.phase.stage ≤ c.phase.stage)
    (o : Office σ) : HasEnded i { x with office := o, books := Exchange.putBook c x.books } := by
  refine ⟨nodup_putBook h.distinct, ?_⟩
  obtain ⟨b', hb', hended⟩ := h.book
  have hfind : ({ x with office := o, books := Exchange.putBook c x.books } : Exchange σ).book? i =
      if c.instrument = i then some c else x.book? i := find?_putBook c x.books i
  rw [hfind]
  split
  · next hc =>
    obtain rfl : b = b' := Option.some.inj (hb.symm.trans ((hinstrument.symm.trans hc) ▸ hb'))
    exact ⟨c, rfl, Phase.isEnded_iff.2 ((Phase.isEnded_iff.1 hended).trans hstage)⟩
  · exact ⟨b', hb', hended⟩

/-- A call to one of the books. -/
theorem called (h : HasEnded i x) {d : Desk σ} (hb : x.book? b.instrument = some b)
    (hd : Desk.Called S ⟨x.office, b⟩ d) :
    HasEnded i { x with office := d.office, books := Exchange.putBook d.book x.books } :=
  h.putBook hb hd.instrument hd.advances d.office

/-- A call for an order goes to the book of its instrument, if there is one. -/
theorem route (h : HasEnded i x) {act : Action (Desk σ) (Except EngineError α)} {j : Array Event}
    (hact : ∀ {d d' answer}, act.Leads d answer d' → Desk.Called S d d') :
    Ends (route r act) ⟨x, j⟩ (fun _ t => HasEnded i t.state) (fun _ t => HasEnded i t.state) := by
  simp only [Exchange.route, ends_bind, ends_current]
  split
  · next b hb =>
    have hinstrument : b.instrument = (x.office.orders.get r).instrument := by
      simpa using List.find?_some hb
    rw [← hinstrument] at hb
    refine ends_within.2 ((ends_leads act _).mono ?_ ?_)
    · exact fun _ _ hl => h.called hb (hact hl)
    · exact fun _ _ hl => h.called hb (hact hl)
  · exact h

/-- Shutting down the engine. -/
theorem stopInTurn (h : HasEnded i x) :
    HasEnded i { x with books := Exchange.stopInTurn x.books } := by
  obtain ⟨b, hb, hended⟩ := h.book
  obtain ⟨b', hb', hcases⟩ := find?_stopInTurn h.distinct hb
  refine ⟨(map_instrument_stopInTurn x.books).symm ▸ h.distinct, b', hb', ?_⟩
  rcases hcases with ⟨rfl, -⟩ | ⟨rfl, -⟩
  · exact hended
  · exact Phase.isEnded_afterShutdown ((Nat.le_succ 1).trans (Phase.isEnded_iff.1 hended))

/-- Waiting for what was submitted changes nothing. -/
theorem flush (hdistinct : (x.books.map (·.instrument)).Nodup) {j : Array Event} :
    Ends flush ⟨x, j⟩ (fun _ t => t = ⟨x, j⟩) (fun _ _ => False) := by
  have hvisit : ∀ l, (∀ b ∈ l, b ∈ x.books) → Ends (visitBooks Desk.flush l) ⟨x, j⟩
      (fun _ t => t = ⟨x, j⟩) (fun _ _ => False) := by
    intro l hl
    induction l with
    | nil => exact rfl
    | cons b rest ih =>
      have hflush : Ends Desk.flush (⟨⟨x.office, b⟩, j⟩ : Logged (Desk σ))
          (fun _ t => t = ⟨⟨x.office, b⟩, j⟩) (fun _ _ => False) := by
        simp only [Desk.flush, ends_bind, ends_current]
        cases b.phase <;> exact rfl
      simp only [visitBooks, onBook, ends_bind, ends_within]
      refine hflush.imp ?_
      rintro answer _ rfl
      dsimp only
      rw [putBook_of_mem hdistinct (hl b List.mem_cons_self)]
      cases answer with
      | ok _ => exact ih fun c hc => hl c (List.mem_cons_of_mem _ hc)
      | error e => exact rfl
  simp only [Exchange.flush, ends_bind, ends_current]
  exact hvisit x.books fun _ hb => hb

/-- Whatever is done to the engine, the book has ended. -/
theorem goes (h : HasEnded i x) (hg : Goes S x y) : HasEnded i y := by
  cases hg with
  | submit leads =>
    exact leads.of_ends (P := fun _ z => HasEnded i z) fun j => h.route (S := S) .submit
  | withdraw leads =>
    exact leads.of_ends (P := fun _ z => HasEnded i z) fun j => h.route (S := S) .withdraw
  | flush leads =>
    refine leads.of_ends (P := fun _ z => HasEnded i z) fun j => ?_
    exact (HasEnded.flush h.distinct).mono (fun _ _ ht => ht ▸ h) fun _ _ hf => hf.elim
  | shutdown leads =>
    refine leads.of_ends (P := fun _ z => HasEnded i z) fun j => ?_
    exact (ends_shutdown h.distinct).mono (fun _ _ ht => ht.2 ▸ h.stopInTurn) fun _ _ hf => hf.elim
  | book found called eq => exact eq ▸ h.called found called
  | office eq => exact eq ▸ ⟨h.distinct, h.book⟩

/-- A book that has ended has so later. -/
theorem later (h : HasEnded i x) (hl : Later S x y) : HasEnded i y := by
  induction hl with
  | refl => exact h
  | tail _ hg ih => exact ih.goes hg

/-- The book refuses every open order of its instrument that is not a stop-loss, and nothing
changes. -/
theorem submit (h : HasEnded (x.order r).instrument x) {j : Array Event}
    (hside : (x.order r).side = side) (hopen : (x.order r).closed = false)
    (htype : (x.order r).type ≠ .stopLoss) :
    Exchange.submit S side r ⟨x, j⟩ = .ok (.error (.bookStopped (x.order r).instrument))
    ⟨x, j⟩ := by
  obtain ⟨b, hb, hended⟩ := h.book
  have hinstrument : b.instrument = (x.order r).instrument := by simpa using List.find?_some hb
  have hbook : x.book? (x.office.orders.get r).instrument = some b := hb
  refine ends_eq_ok.1 ?_
  simp only [Exchange.submit, Exchange.route, ends_bind, ends_current, hbook, onBook, ends_within]
  refine (Desk.ends_submit_of_ended (s := ⟨⟨x.office, b⟩, j⟩) hended hside hopen htype).imp ?_
  rintro answer t ⟨rfl, rfl⟩
  exact ⟨by rw [hinstrument], by rw [putBook_of_mem h.distinct (List.mem_of_find?_eq_some hb)]⟩

end HasEnded

/-! ## Shutting down an engine that was started -/

/-- What shutting down an engine comes to. -/
structure ShutDown (S : Settlement σ) (x : Exchange σ) (answer : Except EngineError Unit)
    (y : Exchange σ) : Prop where
  /-- It is answered with an error just in case a book had broken off. -/
  answer : answer = farewell x.books
  office : y.office = x.office
  /-- A book runs on just in case it is spared. -/
  runs : ∀ b ∈ x.books, ∃ b', y.book? b.instrument = some b' ∧
    (b'.isRunning = true ↔ Spared x.books b)
  /-- Any other book refuses every open order that is not a stop-loss, whatever is done in
  between. -/
  refuses : ∀ b ∈ x.books, ¬ Spared x.books b → ∀ z, Later S y z → ∀ side r j,
    (z.order r).instrument = b.instrument → (z.order r).side = side → (z.order r).closed = false →
    (z.order r).type ≠ .stopLoss →
      submit S side r ⟨z, j⟩ = .ok (.error (.bookStopped b.instrument)) ⟨z, j⟩
  /-- A book that is spared takes them in. -/
  accepts : ∀ b ∈ x.books, Spared x.books b → ∀ side r j,
    (y.order r).instrument = b.instrument → (y.order r).side = side → (y.order r).closed = false →
      Ends (submit S side r) ⟨y, j⟩ (fun answer _ => answer = .ok .done) (fun _ _ => False)

/-- An engine whose books were all started is shut down, in whatever order the books are visited: a
book has ended after that, and refuses orders for good, just in case it was not both running and
behind one that had broken off. -/
theorem shutdown_ends_books (S : Settlement σ) (x : Exchange σ) (j : Array Event)
    (hdistinct : (x.books.map (·.instrument)).Nodup)
    (hstarted : ∀ b ∈ x.books, 1 ≤ b.phase.stage) :
    ∃ answer y k, shutdown ⟨x, j⟩ = .ok answer ⟨y, k⟩ ∧ ShutDown S x answer y := by
  obtain ⟨answer, ⟨y, k⟩, hshutdown, hanswer, hy⟩ := (ends_shutdown (j := j) hdistinct).exists_ok
  obtain rfl : y = { x with books := stopInTurn x.books } := hy
  have hfind : ∀ b ∈ x.books, ∃ b', (stopInTurn x.books).find?
    (·.instrument = b.instrument) = some b' ∧
      (b' = b ∧ (Spared x.books b ∨ b.isRunning = false) ∨ b' = b.stopped ∧ ¬ Spared x.books b) :=
    fun b hb => find?_stopInTurn hdistinct (find?_of_mem hdistinct hb)
  refine ⟨answer, _, k, hshutdown, ⟨hanswer, rfl, ?_, ?_, ?_⟩⟩
  · intro b hb
    obtain ⟨b', hb', hcases⟩ := hfind b hb
    refine ⟨b', hb', ?_⟩
    rcases hcases with ⟨rfl, hspared | hrunning⟩ | ⟨rfl, hspared⟩
    · exact ⟨fun _ => hspared, fun h => h.1⟩
    · exact ⟨fun h => absurd (hrunning.symm.trans h) nofun, fun h => h.1⟩
    · have hended := Phase.isEnded_afterShutdown (hstarted b hb)
      exact ⟨fun h => absurd ((Book.isRunning_of_isEnded hended).symm.trans h) nofun,
        fun h => absurd h hspared⟩
  · intro b hb hspared z hlater side r j hi hside hopen htype
    have hended : HasEnded b.instrument { x with books := stopInTurn x.books } := by
      obtain ⟨b', hb', hcases⟩ := hfind b hb
      refine ⟨(map_instrument_stopInTurn x.books).symm ▸ hdistinct, b', hb', ?_⟩
      rcases hcases with ⟨rfl, hspared' | hrunning⟩ | ⟨rfl, -⟩
      · exact absurd hspared' hspared
      · exact Book.isEnded_of_started (hstarted _ hb) hrunning
      · exact Phase.isEnded_afterShutdown (hstarted b hb)
    exact hi ▸ (hi ▸ hended.later hlater).submit hside hopen htype
  · intro b hb hspared side r j hi hside hopen
    obtain ⟨b', hb', hcases⟩ := hfind b hb
    obtain rfl : b' = b := hcases.elim (fun h => h.1) fun h => absurd hspared h.2
    have hbook :
        (stopInTurn x.books).find? (·.instrument = (x.office.orders.get r).instrument) = some b' :=
      hi ▸ hb'
    simp only [submit, route, book?, ends_bind, ends_current, hbook, onBook, ends_within]
    exact Desk.ends_submit_of_running hspared.1 hside hopen

/-! ## An engine with a book that broke off -/

/-- The engine of two instruments, brought up with settlement that crashes on the first pair of the
first instrument, after such a pair has come up. -/
def halfBroken : Logged (Exchange Scripted) :=
  let office : Office Scripted := ⟨twoInstruments, Scripted.empty.extend ⟨0⟩ [.crash]⟩
  let source := firstAsk [⟨⟨0⟩, .ofUInt64 90⟩, ⟨⟨1⟩, .ofUInt64 20⟩]
  endState (do
    let _ ← bootstrap Scripted.settlement source 10
    submit Scripted.settlement .bid ⟨1⟩) ⟨.empty office .default, #[]⟩

/-- The first book of `halfBroken` broke off, so its shutdown fails there and leaves the second one
running. -/
theorem halfBroken_keeps_running :
    let x := halfBroken
    (∀ b ∈ x.state.books, b.phase.isCrashed = true ∨ b.isRunning = true) ∧
      ((endState shutdown x).state.books.map (·.isRunning)) = [false, true] := by
  decide +kernel

/-- Shutting down `halfBroken` leaves the book of the second instrument running, and no other. -/
theorem shutDown_halfBroken :
    ((halfBroken.state.books.map (·.instrument)).Nodup ∧
        ∀ b ∈ halfBroken.state.books, 1 ≤ b.phase.stage) ∧
      ∃ answer y k, shutdown ⟨halfBroken.state, #[]⟩ = .ok answer ⟨y, k⟩ ∧
        ShutDown Scripted.settlement halfBroken.state answer y := by
  have hdistinct : (halfBroken.state.books.map (·.instrument)).Nodup := by decide +kernel
  have hstarted : ∀ b ∈ halfBroken.state.books, 1 ≤ b.phase.stage := by decide +kernel
  exact ⟨⟨hdistinct, hstarted⟩, shutdown_ends_books _ _ _ hdistinct hstarted⟩

end Exchange

end Bourse
