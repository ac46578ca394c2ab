import Bourse.Proofs.Engine.Cells
import Mathlib.Data.List.Induction

/-!
# Bringing up an engine, in any order of its books

When an engine is brought up it visits its books one after the other, first to replay their trades
and then to start them. `Exchange.Visited` is such a round of visits. For the instrument of a book
it leads to what the visit to that book alone leads to (`Exchange.Visited.effect`), so the order of
the books does not matter.

A source that names the instruments in another order therefore brings up an engine if the first one
does, and one that looks the same from each instrument (`Exchange.alike_bootstrap`).
-/

namespace Bourse

open Bourse.Action

/-! ## Visits do not break off -/

namespace Desk

variable {σ : Type} {S : Settlement σ} {s : Logged (Desk σ)}

/-- Matching the submissions that waited always answers. -/
theorem ends_takeSubmissions_any (submissions : List Submission) :
    Ends (takeSubmissions S submissions) s (fun _ _ => True) (fun _ _ => False) := by
  induction submissions generalizing s with
  | nil => trivial
  | cons sub rest ih =>
    have htask : ∀ t, Ends (runTask S sub.order) t (fun _ _ => True) (fun _ _ => False) := by
      intro t
      simp only [runTask, ends_bind, ends_attempt]
      exact (Ends.any _ _).mono (fun _ _ _ => trivial) fun _ _ _ => trivial
    have hone : Ends (takeOne S sub) s (fun _ _ => True) (fun _ _ => False) := by
      simp only [takeOne, ends_bind, ends_current]
      split
      · unfold announce
        split
        · exact htask _
        · exact htask _
      · trivial
    rw [takeSubmissions_cons]
    simp only [ends_bind, ends_current]
    exact hone.imp fun _ _ _ => ih.imp fun _ _ _ => trivial

/-- Starting a book always answers. -/
theorem ends_start_any : Ends (start S) s (fun _ _ => True) (fun _ _ => False) := by
  simp only [start, ends_bind, ends_current]
  cases s.state.book.phase with
  | waiting submissions =>
    simp only [enter, ends_bind, ends_changeBook, ends_attempt]
    refine (Ends.any _ _).mono (fun _ t _ => ?_) fun _ t _ => ?_
    · exact (ends_takeSubmissions_any _).imp fun _ _ _ => trivial
    · exact (ends_takeSubmissions_any _).imp fun _ _ _ => trivial
  | running => trivial
  | crashed cause => trivial
  | stopped => trivial

/-- Replaying trades always answers. -/
theorem ends_loadTrades_any (trades : List Trade) :
    Ends (loadTrades trades) s (fun _ _ => True) (fun _ _ => False) := by
  have hrecord : ∀ (t : Trade) (u : Logged (Desk σ)),
      Ends (onLedger (Ledger.recordTrade t)) u (fun _ _ => True) (fun _ _ => False) :=
    fun _ _ => trivial
  simp only [loadTrades, replayTrades, ends_bind, ends_current, ends_log]
  refine (Ends.forM (P := fun _ _ => True) (fun t _ u _ => hrecord t u) trivial).imp
    fun _ t _ => ?_
  cases (trades.mergeSort fun a b => a.createdAt ≤ b.createdAt).getLast? <;> trivial

end Desk

namespace Exchange

variable {α : Type} {os : Orders} {i : InstrumentId} {b : Book} {x x' z z' : Exchange Simulated}

/-! ## Visits to a book -/

section

variable {act : Action (Desk Simulated) α} {y y' : Exchange Simulated} {a a' : α}
  (hids : (os.rows.toList.map (·.id)).Nodup) (hact : Desk.Own (os.Lists b.instrument) act)
  (hb : b.Holds (os.Lists b.instrument)) (hx : Filed os x) (hx' : Filed os x')
  (h : Sees os b.instrument x x')

include hids hact hb hx hx' h

/-- A visit to the same book of two engines concerns its instrument only. -/
theorem paired_visit (j j' : Array Event) : Paired (onBook b act) (onBook b act) ⟨x, j⟩ ⟨x', j'⟩
    (fun _ => Together os b.instrument x x') (Together os b.instrument x x') :=
  paired_onBook hids hact hb hx hx' h

/-- A visit leads from engines that look the same with the same answer. -/
theorem leads_onBook (hl : (onBook b act).Leads x (some a) y) :
    ∃ y', (onBook b act).Leads x' (some a) y' ∧ Together os b.instrument x x' y y' :=
  Paired.leads (paired_visit hids hact hb hx hx' h) hl

/-- A visit answers alike on engines that look the same. -/
theorem leads_onBook_both (hl : (onBook b act).Leads x (some a) y)
    (hl' : (onBook b act).Leads x' (some a') y') : a = a' ∧ Together os b.instrument x x' y y' :=
  Paired.leads_both (paired_visit hids hact hb hx hx' h) hl hl'

end

/-! ## Rounds of visits -/

/-- The books are visited one after the other, each for an answer. -/
inductive Visited (act : Book → Action (Desk Simulated) α) :
    List (Book × α) → Exchange Simulated → Exchange Simulated → Prop
  | nil {x : Exchange Simulated} : Visited act [] x x
  | cons {b : Book} {a : α} {rest : List (Book × α)} {x y z : Exchange Simulated}
    (visit : (onBook b (act b)).Leads x (some a) y) (later : Visited act rest y z) :
    Visited act ((b, a) :: rest) x z

/-- For the instrument of the book, the visits led to what a visit to this book alone leads to. -/
def Outcome (os : Orders) (act : Book → Action (Desk Simulated) α) (x z : Exchange Simulated)
    (visit : Book × α) : Prop :=
  ∃ y, (onBook visit.1 (act visit.1)).Leads x (some visit.2) y ∧ Sees os visit.1.instrument y z

section

variable {act : Book → Action (Desk Simulated) α} {done : List (Book × α)}

/-- What a round of visits does for each instrument. -/
structure Visited.Effect (os : Orders) (act : Book → Action (Desk Simulated) α)
    (done : List (Book × α)) (x z : Exchange Simulated) : Prop where
  filed : Filed os z
  config : z.config = x.config
  others : ∀ i, i ∉ done.map (·.1.instrument) → Sees os i x z
  outcome : ∀ visit ∈ done, Outcome os act x z visit

variable (hids : (os.rows.toList.map (·.id)).Nodup)
  (hact : ∀ b : Book, Desk.Own (os.Lists b.instrument) (act b))

include hids hact

/-- Visits to distinct books have their effects beside each other. -/
theorem Visited.effect (h : Visited act done x z) (hx : Filed os x)
    (hdone : ∀ visit ∈ done, visit.1.Holds (os.Lists visit.1.instrument))
    (hdistinct : (done.map (·.1.instrument)).Nodup) : Visited.Effect os act done x z := by
  induction h with
  | nil => exact ⟨hx, rfl, fun _ _ => .refl _, List.forall_mem_nil _⟩
  | @cons b a rest x y z visit later ih =>
    rw [List.map_cons, List.nodup_cons] at hdistinct
    have hb := hdone (b, a) List.mem_cons_self
    have hlater : ∀ visit ∈ rest,
      visit.1.Holds (os.Lists visit.1.instrument) := fun visit hvisit =>
      hdone visit (List.mem_cons_of_mem _ hvisit)
    have htogether := (leads_onBook_both hids (hact b) hb hx hx (.refl x) visit visit).2
    have heffect := ih htogether.left.filed hlater hdistinct.2
    refine ⟨heffect.filed, heffect.config.trans htogether.left.config, fun i hi => ?_,
      fun e he => ?_⟩
    · rw [List.map_cons, List.mem_cons, not_or] at hi
      exact (htogether.left.others i hi.1).trans (heffect.others i hi.2)
    · rcases List.mem_cons.1 he with rfl | he
      · exact ⟨y, visit, heffect.others _ hdistinct.1⟩
      · -- a later visit, had it been the only one
        have hne : e.1.instrument ≠ b.instrument := fun heq =>
          hdistinct.1 (heq ▸ List.mem_map_of_mem he)
        obtain ⟨y', hlead, hsees⟩ := heffect.outcome e he
        obtain ⟨x₁, hlead, hsame⟩ :=
          leads_onBook hids (hact e.1) (hlater e he) htogether.left.filed hx
          (htogether.left.others _ hne).symm hlead
        exact ⟨x₁, hlead, hsame.sees.symm.trans hsees⟩

end

/-! ## Engines that look the same from each instrument -/

/-- The engines look the same from each instrument. -/
structure Alike (os : Orders) (x x' : Exchange Simulated) : Prop where
  left : Filed os x
  right : Filed os x'
  config : x'.config = x.config
  sees : ∀ i, Sees os i x x'

namespace Alike

variable {y y' : Exchange Simulated}

/-- Engines stay alike if the same is done to both. -/
theorem together (h : Alike os x x') (ht : Together os i x x' y y') : Alike os y y' where
  left := ht.left.filed
  right := ht.right.filed
  config := ht.right.config.trans (h.config.trans ht.left.config.symm)
  sees j := by
    by_cases hj : j = i
    · exact hj ▸ ht.sees
    · exact (ht.left.others j hj).symm.trans ((h.sees j).trans (ht.right.others j hj))

/-- Engines that are alike have the same books. -/
theorem mem_iff (h : Alike os x x') : b ∈ x'.books ↔ b ∈ x.books := by
  refine ⟨fun hb => ?_, fun hb => ?_⟩
  · exact List.mem_of_find?_eq_some ((h.sees b.instrument).book.symm.trans
      (h.right.book?_of_mem hb))
  · exact List.mem_of_find?_eq_some ((h.sees b.instrument).book.trans (h.left.book?_of_mem hb))

/-- Visiting all books, the engines come to look the same again, whatever the order of the
visits. -/
theorem visited (hids : (os.rows.toList.map (·.id)).Nodup)
    {act : Book → Action (Desk Simulated) α}
    (hact : ∀ b : Book, Desk.Own (os.Lists b.instrument) (act b))
    (h : Alike os x x') {done done' : List (Book × α)} (hdone : done.map (·.1) = x.books)
    (hdone' : done'.map (·.1) = x'.books) (hv : Visited act done x z)
    (hv' : Visited act done' x' z') :
    Alike os z z' ∧ ∀ visit ∈ done', ∃ visit' ∈ done, visit'.2 = visit.2 := by
  have hinstruments : ∀ {d : List (Book × α)}, d.map (·.1.instrument) = (d.map (·.1)).map
      (·.instrument) :=
    fun {d} => (List.map_map (l := d)).symm
  have hholds : ∀ {e : Exchange Simulated} {d : List (Book × α)}, Filed os e →
    d.map (·.1) = e.books →
      ∀ visit ∈ d, visit.1.Holds (os.Lists visit.1.instrument) := fun he hd visit hvisit =>
    he.holds visit.1 (hd ▸ List.mem_map_of_mem hvisit)
  have heffect := hv.effect hids hact h.left (hholds h.left hdone)
    (by rw [hinstruments, hdone]; exact h.left.distinct)
  have heffect' := hv'.effect hids hact h.right (hholds h.right hdone')
    (by rw [hinstruments, hdone']; exact h.right.distinct)
  -- both rounds visit the same books, and each book answers the same
  have hpair : ∀ visit ∈ done', ∃ visit' ∈ done, visit'.1 = visit.1 ∧ visit'.2 = visit.2 ∧
      Sees os visit.1.instrument z z' := by
    intro visit hvisit
    have hb : visit.1 ∈ x.books := h.mem_iff.1 (hdone' ▸ List.mem_map_of_mem hvisit)
    rw [← hdone] at hb
    obtain ⟨visit', hvisit', heq⟩ := List.mem_map.1 hb
    obtain ⟨y, hlead, hsees⟩ := heffect.outcome visit' hvisit'
    obtain ⟨y', hlead', hsees'⟩ := heffect'.outcome visit hvisit
    rw [heq] at hlead hsees
    obtain ⟨ha, hsame⟩ :=
      leads_onBook_both hids (hact visit.1) (hholds h.right hdone' visit hvisit)
      h.left h.right (h.sees _) hlead hlead'
    exact ⟨visit', hvisit', heq, ha, hsees.symm.trans (hsame.sees.trans hsees')⟩
  refine ⟨⟨heffect.filed, heffect'.filed, ?_, fun i => ?_⟩, fun visit hvisit => ?_⟩
  · exact heffect'.config.trans (h.config.trans heffect.config.symm)
  · by_cases hi : i ∈ done'.map (·.1.instrument)
    · obtain ⟨visit, hvisit, rfl⟩ := List.mem_map.1 hi
      obtain ⟨-, -, -, -, hsees⟩ := hpair visit hvisit
      exact hsees
    · have hi' : i ∉ done.map (·.1.instrument) := by
        rw [hinstruments, hdone]
        rw [hinstruments, hdone'] at hi
        refine fun hmem => hi ?_
        obtain ⟨b, hb, rfl⟩ := List.mem_map.1 hmem
        exact List.mem_map_of_mem (h.mem_iff.2 hb)
      exact (heffect.others i hi').symm.trans ((h.sees i).trans (heffect'.others i hi))
  · obtain ⟨visit', hvisit', -, ha, -⟩ := hpair visit hvisit
    exact ⟨visit', hvisit', ha⟩

end Alike

/-! ## The stages of a bootstrap -/

variable {s s' : Logged (Exchange Simulated)}

/-- Starting all books is a round of visits, and it succeeds if every book starts. -/
theorem ends_startBooks (books : List Book) (s : Logged (Exchange Simulated)) :
    Ends (startBooks Simulated.settlement books) s
      (fun error t => ∃ done, done.map (·.1) = books ∧
        Visited (fun _ => Desk.start Simulated.settlement) done s.state t.state ∧
        (error = none ↔ ∀ visit ∈ done, startError? visit.2.result = none))
      (fun _ _ => False) := by
  induction books generalizing s with
  | nil =>
    simp only [startBooks, ends_pure]
    exact ⟨[], rfl, .nil, iff_of_true trivial (List.forall_mem_nil _)⟩
  | cons b rest ih =>
    simp only [startBooks, ends_bind]
    have hvisit : Ends (onBook b (Desk.start Simulated.settlement)) s (fun _ _ => True)
        (fun _ _ => False) := ends_within.2 Desk.ends_start_any
    refine ((ends_leads _ s).and hvisit).mono ?_ fun _ _ hf => hf.2
    rintro report t ⟨hlead, -⟩
    refine (ih t).imp ?_
    rintro error u ⟨done, rfl, hv, herror⟩
    refine ⟨(b, report) :: done, rfl, .cons hlead hv, ?_⟩
    rw [Option.or_eq_none_iff, herror, List.forall_mem_cons]

/-- What is replayed for a book. -/
def replay (source : OrderSource) (count : Nat) (b : Book) : Action (Desk Simulated) Unit :=
  Desk.loadTrades ((source.recentTrades b.instrument count).toOption.getD [])

/-- If the trades of all books can be loaded then replaying them is a round of visits. -/
theorem ends_loadTrades (source : OrderSource) {books : List Book} {count : Nat}
    {s : Logged (Exchange Simulated)} (hcount : s.state.config.recentTradeCount.toNat = count) :
    Ends (loadTrades source books : Action (Exchange Simulated) _) s
      (fun answer t =>
        (answer = .ok () ↔ ∀ b ∈ books,
          ∃ trades, source.recentTrades b.instrument count = .ok trades) ∧
        (answer = .ok () → ∃ done, done.map (·.1) = books ∧
          Visited (replay source count) done s.state t.state))
      (fun _ _ => False) := by
  induction books generalizing s with
  | nil =>
    simp only [loadTrades, ends_pure]
    exact ⟨iff_of_true trivial (List.forall_mem_nil _), fun _ => ⟨[], rfl, .nil⟩⟩
  | cons b rest ih =>
    simp only [loadTrades, ends_bind, ends_current, hcount]
    cases htrades : source.recentTrades b.instrument count with
    | error e =>
      refine ⟨⟨nofun, fun h => ?_⟩, nofun⟩
      obtain ⟨trades, heq⟩ := h b List.mem_cons_self
      rw [htrades] at heq
      cases heq
    | ok trades =>
      have hreplay : replay source count b = Desk.loadTrades trades := by
        unfold replay
        rw [htrades]
        rfl
      have hvisit : Ends (onBook b (replay source count b)) s
          (fun _ t => t.state.config = s.state.config) (fun _ _ => False) := by
        rw [hreplay]
        exact ends_within.2 ((Desk.ends_loadTrades_any trades).imp fun _ _ _ => rfl)
      simp only [ends_bind, ← hreplay]
      refine ((ends_leads _ s).and hvisit).mono ?_ fun _ _ hf => hf.2
      rintro _ t ⟨hlead, hconfig⟩
      refine (ih (by rw [hconfig, hcount])).imp ?_
      rintro answer u ⟨hanswer, hlater⟩
      refine ⟨?_, fun ha => ?_⟩
      · rw [hanswer, List.forall_mem_cons]
        exact ⟨fun h => ⟨⟨trades, htrades⟩, h⟩, fun h => h.2⟩
      · obtain ⟨done, rfl, hv⟩ := hlater ha
        exact ⟨(b, ()) :: done, rfl, .cons hlead hv⟩

/-- Open orders are loaded alike into engines that look the same. -/
theorem paired_loadOrders (hids : (os.rows.toList.map (·.id)).Nodup) (rs : List OrderRef)
    (h : Alike os s.state s'.state) :
    Paired (loadOrders rs) (loadOrders rs) s s' (fun _ => Alike os) (Alike os) := by
  induction rs generalizing s s' with
  | nil => exact paired_pure h
  | cons r rest ih =>
    refine paired_current ?_
    have hsees := h.sees (s.state.office.orders.get r).instrument
    have hr : (os.get r).instrument = (s.state.office.orders.get r).instrument :=
      (h.left.follow r).instrument.symm
    simp only [hsees.office.orders r hr, hsees.book]
    cases hbook : s.state.book? (s.state.office.orders.get r).instrument with
    | none => exact paired_log_bind fun t t' ht ht' => ih (ht ▸ ht' ▸ h)
    | some b =>
      obtain ⟨hb, hi⟩ := h.left.holds_of_book? hbook
      have hown : Desk.Own (os.Lists b.instrument)
          (Desk.load (s.state.office.orders.get r).side r) :=
        Desk.own_load (hr.trans hi.symm)
      have hload := paired_onBook hids hown hb h.left h.right (h.sees _)
      refine (hload.mono (fun _ _ _ => h.together) fun _ _ => h.together).bind ?_
      rintro (error | ⟨⟩) t t' ht
      · exact paired_pure ht
      · exact ih ht

/-! ## New books -/

/-- Of each number the two lists name the same instrument, the last one. -/
def SameInstruments (instruments instruments' : List Instrument) : Prop :=
  ∀ i : InstrumentId, instruments'.reverse.find? (·.id = i) = instruments.reverse.find? (·.id = i)

/-- Lists of instruments of different numbers that differ in their order only. -/
theorem SameInstruments.of_perm {instruments instruments' : List Instrument}
    (h : instruments.Perm instruments') (hids : (instruments.map (·.id)).Nodup) :
    SameInstruments instruments instruments' := by
  have hreverse :=
    (List.reverse_perm instruments).trans (h.trans (List.reverse_perm instruments').symm)
  refine fun i => Ledger.find?_key_perm hreverse ?_ i
  rwa [List.map_reverse, List.nodup_reverse]

variable {config : EngineConfig} {history : Nat} {instruments instruments' : List Instrument}

/-- The book of a further instrument is put into place last. -/
theorem makeBooks_concat (instruments : List Instrument) (a : Instrument) :
    makeBooks config history (instruments ++ [a]) =
      putBook (.new a history config.submissionBuffer.toNat)
      (makeBooks config history instruments) := by
  unfold makeBooks
  rw [List.foldl_append]
  rfl

/-- The book of an instrument is made for the last of its number. -/
theorem find?_makeBooks (i : InstrumentId) :
    (makeBooks config history instruments).find? (·.instrument = i) =
      (instruments.reverse.find? (·.id = i)).map
      (Book.new · history config.submissionBuffer.toNat) := by
  induction instruments using List.reverseRecOn with
  | nil => rfl
  | append_singleton instruments a ih =>
    rw [makeBooks_concat, find?_putBook, List.reverse_concat, ih]
    show (if a.id = i then _ else _) = _
    by_cases hi : a.id = i
    · rw [if_pos hi, List.find?_cons_of_pos (by simpa using hi)]
      rfl
    · rw [if_neg hi, List.find?_cons_of_neg (by simpa using hi)]

/-- Books are made for the instruments, and no others. -/
theorem mem_makeBooks (h : b ∈ makeBooks config history instruments) :
    ∃ a ∈ instruments, b = .new a history config.submissionBuffer.toNat := by
  induction instruments using List.reverseRecOn with
  | nil => cases h
  | append_singleton instruments a ih =>
    rw [makeBooks_concat] at h
    rcases mem_putBook h with rfl | h
    · exact ⟨a, List.mem_append_right _ (List.mem_singleton_self a), rfl⟩
    · obtain ⟨a', ha', rfl⟩ := ih h
      exact ⟨a', List.mem_append_left _ ha', rfl⟩

/-- No two books are of one instrument. -/
theorem nodup_makeBooks : ((makeBooks config history instruments).map (·.instrument)).Nodup := by
  induction instruments using List.reverseRecOn with
  | nil => exact List.nodup_nil
  | append_singleton instruments a ih =>
    rw [makeBooks_concat]
    exact nodup_putBook ih

/-- New books hold no orders, and there is one for each instrument. -/
theorem filed_makeBooks (hx : Filed os x) :
    Filed os { x with books := makeBooks config history instruments } := by
  refine ⟨hx.follow, fun b hb => ?_, nodup_makeBooks⟩
  obtain ⟨a, -, rfl⟩ := mem_makeBooks hb
  exact .new a history _

/-- The order in which books are made makes no difference that an instrument sees. -/
theorem alike_makeBooks (hx : Filed os x) (h : SameInstruments instruments instruments') :
    Alike os { x with books := makeBooks config history instruments }
      { x with books := makeBooks config history instruments' } where
  left := filed_makeBooks hx
  right := filed_makeBooks hx
  config := rfl
  sees i := ⟨by
    show (makeBooks config history instruments').find? _ =
      (makeBooks config history instruments).find? _
    rw [find?_makeBooks, find?_makeBooks, h i], ⟨fun _ _ => rfl, rfl, rfl⟩, rfl⟩

/-! ## Bringing up -/

/-- The source brings up an engine: its bootstrap succeeds. -/
def BringsUp (source : OrderSource) (history : Nat) (x : Logged (Exchange Simulated)) : Prop :=
  ∃ y, bootstrap Simulated.settlement source history x = .ok (.ok ()) y

instance (source : OrderSource) (history : Nat) (x : Logged (Exchange Simulated)) :
    Decidable (BringsUp source history x) :=
  match h : bootstrap Simulated.settlement source history x with
  | .ok (.ok ()) y => isTrue ⟨y, h⟩
  | .ok (.error _) _ => isFalse fun ⟨_, hy⟩ => by cases h.symm.trans hy
  | .error _ _ => isFalse fun ⟨_, hy⟩ => by cases h.symm.trans hy

/-- Trades that are loaded into one of two engines that look the same are loaded into the other, in
whatever order the books are visited. -/
theorem ends_loadTrades_alike (hids : (os.rows.toList.map (·.id)).Nodup)
    {source source' : OrderSource} (hsource : source'.recentTrades = source.recentTrades)
    (h : Alike os s.state s'.state) {t : Logged (Exchange Simulated)}
    (ht : loadTrades source s.state.books s = .ok (.ok ()) t) :
    Ends (loadTrades source' s'.state.books) s'
      (fun answer t' => answer = .ok () ∧ Alike os t.state t'.state) (fun _ _ => False) := by
  obtain ⟨hloaded, hvisits⟩ := (ends_loadTrades source rfl).answered ht
  have hcount : s'.state.config.recentTradeCount.toNat = s.state.config.recentTradeCount.toNat :=
    congrArg (·.recentTradeCount.toNat) h.config
  refine (ends_loadTrades source' hcount).imp ?_
  rintro answer t' ⟨hloaded', hvisits'⟩
  obtain rfl : answer = .ok () := hloaded'.2 fun b hb =>
    hsource ▸ hloaded.1 rfl b (h.mem_iff.1 hb)
  obtain ⟨done, hdone, hv⟩ := hvisits rfl
  obtain ⟨done', hdone', hv'⟩ := hvisits' rfl
  have hreplay : ∀ count, replay source' count = replay source count := fun count => by
    unfold replay
    rw [hsource]
  rw [hreplay] at hv'
  exact ⟨rfl, (h.visited hids (fun b => Desk.own_loadTrades _) hdone hdone' hv hv').1⟩

/-- If the books of one of two engines that look the same all start, then so do those of the other,
in whatever order they are visited. -/
theorem ends_startAll_alike (hids : (os.rows.toList.map (·.id)).Nodup)
    (h : Alike os s.state s'.state) {t : Logged (Exchange Simulated)}
    (ht : startAll Simulated.settlement s = .ok (.ok ()) t) :
    Ends (startAll Simulated.settlement) s'
      (fun answer t' => answer = .ok () ∧ Alike os t.state t'.state) (fun _ _ => False) := by
  have hends := ends_eq_ok.2 ht
  simp only [startAll, ends_bind, ends_current] at hends ⊢
  obtain ⟨error, u, hstart, hu⟩ := hends.exists_ok
  obtain ⟨started, hstarted, hv, hnone⟩ := (ends_startBooks _ s).answered hstart
  cases error with
  | some e =>
    simp only [ends_bind, ends_log] at hu
    obtain ⟨answer, _, -, hu⟩ := hu.exists_ok
    cases answer <;> cases (ends_pure.1 hu).1
  | none =>
    refine (ends_startBooks _ s').imp ?_
    rintro error' u' ⟨started', hstarted', hv', hnone'⟩
    obtain ⟨hready, hsame⟩ := h.visited hids (fun b => Desk.own_start) hstarted hstarted' hv hv'
    obtain rfl : error' = none := hnone'.2 fun visit hvisit => by
      obtain ⟨visit', hvisit', heq⟩ := hsame visit hvisit
      exact heq ▸ hnone.1 rfl visit' hvisit'
    simp only [ends_bind, ends_current, ends_log, ends_pure] at hu ⊢
    exact ⟨trivial, hu.2 ▸ hready⟩

/-- A source that names the same instruments in another order brings up an engine that looks the
same. -/
theorem alike_bootstrap (hids : (os.rows.toList.map (·.id)).Nodup) {source : OrderSource}
    (hx : Filed os s.state) (hsource : source.instruments = .ok instruments)
    (hsame : SameInstruments instruments instruments') (h : BringsUp source history s) :
    BringsUp { source with instruments := .ok instruments' } history s ∧
      Alike os (apply s (.bootstrap source history)).state
        (apply s (.bootstrap { source with instruments := .ok instruments' } history)).state := by
  obtain ⟨y, hy⟩ := h
  suffices hother : Ends (bootstrap Simulated.settlement
      { source with instruments := .ok instruments' } history) s
      (fun answer t => answer = .ok () ∧ Alike os y.state t.state) (fun _ _ => False) by
    obtain ⟨_, t, ht, rfl, halike⟩ := hother.exists_ok
    refine ⟨⟨t, ht⟩, ?_⟩
    show Alike os (perform (bootstrap _ source history) s).state
      (perform (bootstrap _ _ history) s).state
    unfold perform
    rw [hy, ht]
    exact halike
  have hends := ends_eq_ok.2 hy
  simp only [bootstrap, hsource, ends_bind, ends_change, ends_current] at hends ⊢
  cases hasks : source.openAsks s.state.office.orders with
  | error e =>
    simp only [hasks, ends_pure] at hends
    cases hends.1
  | ok asks =>
  cases hbids : source.openBids s.state.office.orders with
  | error e =>
    simp only [hasks, hbids, ends_pure] at hends
    cases hends.1
  | ok bids =>
  simp only [hasks, hbids, ends_bind, ends_log] at hends ⊢
  refine ((paired_loadOrders hids _ (alike_makeBooks hx hsame)).ends hends).mono ?_
    fun _ _ hf => hf
  rintro (error | ⟨⟩) t' ⟨t, ht, halike⟩
  · cases (ends_pure.1 ht).1
  simp only [ends_bind, ends_current] at ht ⊢
  obtain ⟨answer, u, hload, hu⟩ := ht.exists_ok
  cases answer with
  | error e => cases (ends_pure.1 hu).1
  | ok _ =>
  have hrecent : { source with instruments := .ok instruments' }.recentTrades =
    source.recentTrades := rfl
  refine (ends_loadTrades_alike hids hrecent halike hload).mono ?_ fun _ _ hf => hf
  rintro _ u' ⟨rfl, hreplayed⟩
  obtain ⟨answer, w, hstart, rfl, rfl⟩ := hu.exists_ok
  exact ends_startAll_alike hids hreplayed hstart

end Exchange

end Bourse
