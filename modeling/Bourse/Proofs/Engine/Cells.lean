import Bourse.Proofs.Book.Local
import Bourse.Proofs.Book.Rules
import Bourse.Proofs.Engine.Basic

/-!
# What an engine has for an instrument

`Exchange.Sees` compares two engines for one instrument: they have the same book for it, its orders
are the same and so are its trades; and the users that cannot settle and the time, which all
instruments share, are the same too. In an engine that is `Exchange.Filed` each book holds orders
of its own instrument only.

What a book does is then told by what the engine has for its instrument, and it changes nothing of
what the engine has for another one (`Exchange.Together`, `Exchange.paired_onBook`).
-/

namespace Bourse

open Bourse.Action

variable {α : Type} {os : Orders} {i j : InstrumentId} {r : OrderRef} {b : Book}

/-- The order is one of the instrument. -/
def Orders.Lists (os : Orders) (i : InstrumentId) (r : OrderRef) : Prop :=
  (os.get r).instrument = i

/-- The trade names an order of the instrument. -/
def Trade.isOf (os : Orders) (i : InstrumentId) (t : Trade) : Bool :=
  os.rows.any fun o => o.instrument = i && (o.id = t.askId || o.id = t.bidId)

/-! ## The place of a book -/

namespace Exchange

variable {σ : Type} {books : List Book}

/-- The book that was put in place is found, and the others as before. -/
theorem find?_putBook (b : Book) (books : List Book) (i : InstrumentId) :
    (putBook b books).find? (·.instrument = i) =
      if b.instrument = i then some b else books.find? (·.instrument = i) := by
  induction books with
  | nil =>
    unfold putBook
    split
    · next hi => rw [List.find?_cons_of_pos (by simpa using hi)]
    · next hi => rw [List.find?_cons_of_neg (by simpa using hi)]
  | cons c rest ih =>
    unfold putBook
    split
    · next hc =>
      split
      · next hi => rw [List.find?_cons_of_pos (by simpa using hi)]
      · next hi =>
        rw [List.find?_cons_of_neg (by simpa using hi), List.find?_cons_of_neg
          (by simpa [hc] using hi)]
    · next hc =>
      by_cases hi : c.instrument = i
      · rw [List.find?_cons_of_pos (by simpa using hi), List.find?_cons_of_pos (by simpa using hi),
          if_neg fun heq => hc (hi.trans heq.symm)]
      · rw [List.find?_cons_of_neg (by simpa using hi), List.find?_cons_of_neg
          (by simpa using hi), ih]

/-- Putting a book in place brings in no other. -/
theorem mem_putBook {c : Book} (h : c ∈ putBook b books) : c = b ∨ c ∈ books := by
  induction books with
  | nil => exact .inl (List.mem_singleton.1 h)
  | cons d rest ih =>
    unfold putBook at h
    split at h
    · exact (List.mem_cons.1 h).imp_right (List.mem_cons_of_mem _)
    · rcases List.mem_cons.1 h with rfl | h
      · exact .inr List.mem_cons_self
      · exact (ih h).imp_right (List.mem_cons_of_mem _)

/-- The book that was put in place is there. -/
theorem mem_putBook_self (b : Book) (books : List Book) : b ∈ putBook b books := by
  have hfind := find?_putBook b books b.instrument
  rw [if_pos rfl] at hfind
  exact List.mem_of_find?_eq_some hfind

/-- A book keeps the place of its instrument, or comes last. -/
theorem map_instrument_putBook (b : Book) (books : List Book) :
    (putBook b books).map (·.instrument) = books.map (·.instrument) ∨
      b.instrument ∉ books.map (·.instrument) ∧
        (putBook b books).map (·.instrument) = books.map (·.instrument) ++ [b.instrument] := by
  induction books with
  | nil => exact .inr ⟨nofun, rfl⟩
  | cons c rest ih =>
    unfold putBook
    split
    · next hc => exact .inl (by rw [List.map_cons, List.map_cons, hc])
    · next hc =>
      rcases ih with ih | ⟨hnot, ih⟩
      · exact .inl (by rw [List.map_cons, List.map_cons, ih])
      · refine .inr ⟨fun hmem => ?_, by rw [List.map_cons, List.map_cons, ih, List.cons_append]⟩
        exact (List.mem_cons.1 hmem).elim (fun heq => hc heq.symm) hnot

/-- A book keeps the place of its instrument if there was one. -/
theorem map_instrument_putBook_of_mem (h : b.instrument ∈ books.map (·.instrument)) :
    (putBook b books).map (·.instrument) = books.map (·.instrument) :=
  (map_instrument_putBook b books).resolve_right fun hnot => hnot.1 h

/-- Instruments stay distinct. -/
theorem nodup_putBook (h : (books.map (·.instrument)).Nodup) :
    ((putBook b books).map (·.instrument)).Nodup := by
  rcases map_instrument_putBook b books with heq | ⟨hnot, heq⟩ <;> rw [heq]
  · exact h
  · refine List.nodup_append.2 ⟨h, List.nodup_singleton _, ?_⟩
    rintro a ha _ hc rfl
    exact hnot (List.mem_singleton.1 hc ▸ ha)

/-- A book that is in its place is put where it is. -/
theorem putBook_of_mem (h : (books.map (·.instrument)).Nodup) (hb : b ∈ books) :
    putBook b books = books := by
  induction books with
  | nil => cases hb
  | cons c rest ih =>
    rw [List.map_cons, List.nodup_cons] at h
    unfold putBook
    rcases List.mem_cons.1 hb with rfl | hb
    · rw [if_pos rfl]
    · have hne : c.instrument ≠ b.instrument := fun heq => h.1 (heq ▸ List.mem_map_of_mem hb)
      rw [if_neg hne, ih h.2 hb]

/-- A book is found by its instrument. -/
theorem find?_of_mem (h : (books.map (·.instrument)).Nodup) (hb : b ∈ books) :
    books.find? (·.instrument = b.instrument) = some b := by
  have hput := find?_putBook b books b.instrument
  rwa [putBook_of_mem h hb, if_pos rfl] at hput

/-! ## Engines seen from an instrument -/

/-- The trades of an instrument, the oldest first. -/
def tradesOf (os : Orders) (i : InstrumentId) (x : Exchange Simulated) : List Trade :=
  x.office.backend.trades.toList.filter (·.isOf os i)

/-- For the instrument the engines are the same: they have the same book, the same orders and the
same trades. -/
structure AgreeOn (os : Orders) (i : InstrumentId) (x x' : Exchange Simulated) : Prop where
  book : x'.book? i = x.book? i
  orders : ∀ r, (os.get r).instrument = i → x'.order r = x.order r
  trades : x'.tradesOf os i = x.tradesOf os i

/-- From the instrument the engines look the same, with what all instruments share. -/
structure Sees (os : Orders) (i : InstrumentId) (x x' : Exchange Simulated) : Prop where
  book : x'.book? i = x.book? i
  office : Office.Agree (os.Lists i) x.office x'.office
  trades : x'.tradesOf os i = x.tradesOf os i

namespace Sees

variable {x x' x'' : Exchange Simulated}

/-- Engines that look the same have the same book, orders and trades of the instrument. -/
theorem agreeOn (h : Sees os i x x') : AgreeOn os i x x' := ⟨h.book, h.office.orders, h.trades⟩

theorem refl (x : Exchange Simulated) : Sees os i x x := ⟨rfl, ⟨fun _ _ => rfl, rfl, rfl⟩, rfl⟩

theorem symm (h : Sees os i x x') : Sees os i x' x := ⟨h.book.symm, h.office.symm, h.trades.symm⟩

theorem trans (h : Sees os i x x') (h' : Sees os i x' x'') : Sees os i x x'' :=
  ⟨h'.book.trans h.book, h.office.trans h'.office, h'.trades.trans h.trades⟩

/-- Both engines put the same book of the instrument in place. -/
theorem putBook (h : Sees os i x x') (hb : b.instrument = i) :
    Sees os i { x with books := Exchange.putBook b x.books }
      { x' with books := Exchange.putBook b x'.books } :=
  ⟨(find?_putBook b x'.books i).trans (by rw [if_pos hb]; exact
    ((find?_putBook b x.books i).trans (if_pos hb)).symm), h.office, h.trades⟩

end Sees

/-- The orders in the table come after those handed in, and each instrument has at most one book,
with no orders of other instruments. -/
structure Filed (os : Orders) (x : Exchange Simulated) : Prop where
  follow : os.Follow x.office.orders
  holds : ∀ b ∈ x.books, b.Holds (os.Lists b.instrument)
  distinct : (x.books.map (·.instrument)).Nodup

/-- What was done to an engine concerned one instrument only. -/
structure Touched (os : Orders) (j : InstrumentId) (x y : Exchange Simulated) : Prop where
  filed : Filed os y
  config : y.config = x.config
  others : ∀ i, i ≠ j → Sees os i x y

/-- The same was done to two engines, and it concerned one instrument only. -/
structure Together (os : Orders) (j : InstrumentId) (x x' y y' : Exchange Simulated) : Prop where
  sees : Sees os j y y'
  left : Touched os j x y
  right : Touched os j x' y'

/-- A book of the engine is the one that is found for its instrument. -/
theorem Filed.book?_of_mem {x : Exchange Simulated} (h : Filed os x) (hb : b ∈ x.books) :
    x.book? b.instrument = some b := find?_of_mem h.distinct hb

/-- The book that is found holds only orders of its instrument. -/
theorem Filed.holds_of_book? {x : Exchange Simulated} (h : Filed os x) (hb : x.book? i = some b) :
    b.Holds (os.Lists b.instrument) ∧ b.instrument = i :=
  ⟨h.holds b (List.mem_of_find?_eq_some hb), by simpa using List.find?_some hb⟩

/-! ## What settlement does for an instrument -/

/-- An order that is not closed has been written. -/
theorem mem_rows_of_not_closed (h : (os.get r).closed = false) : os.get r ∈ os.rows.toList := by
  unfold Orders.get at *
  cases hrow : os.rows[r.row]? with
  | none =>
    rw [hrow] at h
    cases h
  | some o => exact Array.mem_toList_iff.2 (Array.mem_of_getElem? hrow)

/-- A trade between orders of an instrument is not one of another instrument. -/
theorem not_isOf_of_between (hids : (os.rows.toList.map (·.id)).Nodup) {p : Orders}
    (hp : os.Follow p) {t : Trade} (ht : Office.Between (os.Lists j) p t) (hij : i ≠ j) :
    t.isOf os i = false := by
  obtain ⟨ask, bid, ⟨ha, hac, hai⟩, hb, hbc, hbi⟩ := ht
  have hother : ∀ {r o}, os.Lists j r → (p.get r).closed = false → o ∈ os.rows.toList →
      o.id = (p.get r).id → o.instrument ≠ i := by
    intro r o hr hc ho hid hi
    have hmem := mem_rows_of_not_closed ((hp r).not_closed hc)
    have heq : o = os.get r := List.inj_on_of_nodup_map hids ho hmem (hid.trans (hp r).id)
    exact hij (hi.symm.trans ((congrArg Order.instrument heq).trans hr))
  refine Bool.eq_false_iff.2 fun htrue => ?_
  obtain ⟨k, hk, hmatch⟩ := Array.any_eq_true.1 htrue
  have ho : os.rows[k] ∈ os.rows.toList := Array.mem_toList_iff.2 (Array.getElem_mem hk)
  rw [Bool.and_eq_true, Bool.or_eq_true, decide_eq_true_eq, decide_eq_true_eq,
    decide_eq_true_eq] at hmatch
  rcases hmatch.2 with hid | hid
  · exact hother ha hac ho (hid.trans hai) hmatch.1
  · exact hother hb hbc ho (hid.trans hbi) hmatch.1

/-- Orders of one instrument were written, and trades made between them. -/
theorem Touched.of_wrote (hids : (os.rows.toList.map (·.id)).Nodup) {x : Exchange Simulated}
    (hx : Filed os x) {made : List Trade} {o : Office Simulated}
    (h : x.office.Wrote (os.Lists j) made o) : Touched os j x { x with office := o } where
  filed := ⟨hx.follow.trans h.follow, hx.holds, hx.distinct⟩
  config := rfl
  others i hij := by
    refine ⟨rfl, ⟨fun r hr => h.others r fun hj => hij (hr.symm.trans hj), h.rejected, h.now⟩, ?_⟩
    have hmade : made.filter (·.isOf os i) = [] := List.filter_eq_nil_iff.2 fun t ht => by
      rw [not_isOf_of_between hids hx.follow (h.between t ht) hij]
      exact Bool.false_ne_true
    show o.backend.trades.toList.filter (·.isOf os i) = x.office.backend.trades.toList.filter
      (·.isOf os i)
    rw [h.trades, List.filter_append, hmade, List.append_nil]

/-- The book of the instrument was put in place. -/
theorem Touched.putBook {x y : Exchange Simulated} (h : Touched os j x y)
    (hb : b.Holds (os.Lists b.instrument)) (hj : b.instrument = j) :
    Touched os j x { y with books := Exchange.putBook b y.books } where
  filed :=
    { follow := h.filed.follow
      holds := fun c hc => (mem_putBook hc).elim (fun heq => heq ▸ hb) (h.filed.holds c)
      distinct := nodup_putBook h.filed.distinct }
  config := h.config
  others i hij := by
    refine ⟨?_, (h.others i hij).office, (h.others i hij).trades⟩
    refine (find?_putBook b y.books i).trans ?_
    rw [if_neg fun heq => hij (heq.symm.trans hj)]
    exact (h.others i hij).book

/-- Two engines that look the same from the instrument, after their offices went on in step. -/
theorem Together.of_inStep (hids : (os.rows.toList.map (·.id)).Nodup) {x x' : Exchange Simulated}
    (hx : Filed os x) (hx' : Filed os x') (h : Sees os j x x') {o o' : Office Simulated}
    (ho : Office.InStep (os.Lists j) x.office x'.office o o') :
    Together os j x x' { x with office := o } { x' with office := o' } := by
  obtain ⟨made, hw, hw'⟩ := ho.wrote
  refine ⟨⟨h.book, ho.toAgree, ?_⟩, .of_wrote hids hx hw, .of_wrote hids hx' hw'⟩
  have htrades : x'.office.backend.trades.toList.filter (·.isOf os j) =
      x.office.backend.trades.toList.filter (·.isOf os j) := h.trades
  show o'.backend.trades.toList.filter (·.isOf os j) = o.backend.trades.toList.filter (·.isOf os j)
  rw [hw.trades, hw'.trades, List.filter_append, List.filter_append, htrades]

/-- Putting the same book into two engines concerns its instrument only. -/
theorem Together.putBook {x x' y y' : Exchange Simulated} (h : Together os j x x' y y')
    (hb : b.Holds (os.Lists b.instrument)) (hj : b.instrument = j) :
    Together os j x x' { y with books := Exchange.putBook b y.books }
      { y' with books := Exchange.putBook b y'.books } :=
  ⟨h.sees.putBook hj, h.left.putBook hb hj, h.right.putBook hb hj⟩

/-! ## What a book does for its instrument -/

end Exchange

/-- The action works on some orders only, and leaves the book its instrument. -/
structure Desk.Own (mine : OrderRef → Prop) (act : Action (Desk Simulated) α) : Prop where
  alike : ∀ p p', Local mine p p' (fun _ => True) act
  instrument : Respects (fun d d' => d'.book.instrument = d.book.instrument) act

namespace Desk

variable {mine : OrderRef → Prop} {side : Side}

/-- Whatever a book does, it stays the book of its instrument. -/
theorem rules_instrument {σ : Type} {S : Settlement σ} :
    Rules S fun d d' => d'.book.instrument = d.book.instrument where
  refl _ := rfl
  trans h h' := h'.trans h
  queue d q side := by cases side <;> rfl
  dormant d q side := by cases side <;> rfl
  ledger _ _ := rfl
  phase _ _ := rfl
  activate _ _ := rfl
  note _ := rfl
  fill _ := rfl
  breakOff _ := rfl

/-- Handing in one of these orders is the book's own matter. -/
theorem own_submit (hr : mine r) : Own mine (submit Simulated.settlement side r) :=
  ⟨fun _ _ => local_submit hr, rules_instrument.submit⟩

/-- Withdrawing one of these orders is the book's own matter. -/
theorem own_withdraw (hr : mine r) : Own mine (withdraw side r) :=
  ⟨fun _ _ => local_withdraw hr, (rules_instrument (S := Simulated.settlement)).withdraw⟩

/-- Loading one of these orders is the book's own matter. -/
theorem own_load (hr : mine r) : Own mine (load side r) :=
  ⟨fun _ _ => local_load hr, (rules_instrument (S := Simulated.settlement)).load⟩

/-- Replaying trades is the book's own matter. -/
theorem own_loadTrades (trades : List Trade) : Own mine (loadTrades trades) :=
  ⟨fun _ _ => local_loadTrades trades,
    (rules_instrument (S := Simulated.settlement)).loadTrades (fun _ _ => rfl) trades⟩

/-- Starting is the book's own matter. -/
theorem own_start : Own mine (start Simulated.settlement) :=
  ⟨fun _ _ => local_start, rules_instrument.start⟩

end Desk

namespace Exchange

variable {x x' : Logged (Exchange Simulated)}

/-- In engines that look the same from a book's instrument the book does the same, and what the
engines have for other instruments stays as it is. -/
theorem paired_onBook (hids : (os.rows.toList.map (·.id)).Nodup) {act : Action (Desk Simulated) α}
    (hact : Desk.Own (os.Lists b.instrument) act) (hb : b.Holds (os.Lists b.instrument))
    (hx : Filed os x.state) (hx' : Filed os x'.state) (h : Sees os b.instrument x.state x'.state) :
    Paired (onBook b act) (onBook b act) x x' (fun _ => Together os b.instrument x.state x'.state)
      (Together os b.instrument x.state x'.state) := by
  have hinstrument := hact.instrument ⟨⟨x.state.office, b⟩, x.journal⟩
  have hdesk := (hact.alike x.state.office x'.state.office ⟨⟨x.state.office, b⟩, x.journal⟩
    ⟨⟨x'.state.office, b⟩, x'.journal⟩ ⟨rfl, hb, h.office.inStep⟩).andLeft
    (P := fun _ d => d.book.instrument = b.instrument)
    (E := fun d => d.book.instrument = b.instrument) hinstrument
  have htogether : ∀ {d d' : Desk Simulated}, d.book.instrument = b.instrument →
      Desk.InStep (os.Lists b.instrument) x.state.office x'.state.office d d' →
      Together os b.instrument x.state x'.state
        { x.state with office := d.office, books := putBook d.book x.state.books }
        { x'.state with office := d'.office, books := putBook d'.book x'.state.books } := by
    intro d d' hd hstep
    have ht := (Together.of_inStep hids hx hx' h hstep.office).putBook (hd ▸ hstep.holds) hd
    rw [hstep.book]
    exact ht
  refine paired_within (hdesk.mono ?_ ?_)
  · rintro _ d d' ⟨⟨-, hstep⟩, hd⟩
    exact htogether hd hstep
  · rintro d d' ⟨hstep, hd⟩
    exact htogether hd hstep

/-- A call for an order goes to the book of its instrument. -/
theorem paired_route (hids : (os.rows.toList.map (·.id)).Nodup)
    {act : Action (Desk Simulated) (Except EngineError α)} (hr : os.Lists i r)
    (hact : Desk.Own (os.Lists i) act) (hx : Filed os x.state) (hx' : Filed os x'.state)
    (h : Sees os i x.state x'.state) :
    Paired (route r act) (route r act) x x' (fun _ => Together os i x.state x'.state)
      (Together os i x.state x'.state) := by
  have hi : (x.state.office.orders.get r).instrument = i := (hx.follow r).instrument.trans hr
  have hi' : (x'.state.office.orders.get r).instrument = i := (hx'.follow r).instrument.trans hr
  refine paired_current ?_
  simp only [hi, hi', h.book]
  cases hbook : x.state.book? i with
  | none => exact paired_pure ⟨h, ⟨hx, rfl, fun _ _ => .refl _⟩, hx', rfl, fun _ _ => .refl _⟩
  | some b =>
    obtain ⟨hb, rfl⟩ := hx.holds_of_book? hbook
    exact paired_onBook hids hact hb hx hx' h

end Exchange

end Bourse
