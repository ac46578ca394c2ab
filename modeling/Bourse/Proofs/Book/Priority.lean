import Bourse.Proofs.Book.Prices
import Bourse.Proofs.Book.Process
import Bourse.Proofs.Session.Basic

/-!
# Who trades with whom

A book works in pieces (`Round`): an incoming order is matched, resting orders are matched, or an
order comes to rest. `Round.Best` says which pairs a round may settle: an incoming order with the
best of the other users on the other side, or the best ask with the best bid of another user.
`Round.Makes` says that a round made a trade, and that it was one of such a pair as the desk was
when the round began.

What is queued was put in by such a piece of work: it came to rest, or it was a dormant stop-loss
that a trade activated. The item shows the order as it was then (`Desk.PutIn`). So what ranks best
by the items ranks best by what the orders were when they came in (`Round.Best.foremost`).

`Desk.Led` is what every piece of matching has: each trade it made was made in one of its rounds,
and what it queued was put in by one of them (`Desk.led_process`). Which rounds these are is said
piece by piece after the code: `Round.Begins` for a loop, `Desk.ProcessBegins` for an order that is
processed.
-/

namespace Bourse

open Bourse.Action

/-- What a piece of work is about. -/
inductive Round where
  /-- An order of a side and user that comes in. -/
  | incoming (side : Side) (user : UserId) (r : OrderRef)
  /-- Resting orders. -/
  | resting
  /-- An order that comes to rest: what is left of it after it was matched, or one of a previous
  run. -/
  | entering (side : Side) (r : OrderRef)

/-- Of the orders of a side that are open and not of the excluded user it is the first, by the
states of the orders that `was` tells for their items. -/
structure Desk.Foremost (was : Item → Order) (side : Side) (exclude : Option UserId)
    (d : Desk Simulated) (i : Item) : Prop where
  mem : i ∈ (d.book.queue side).bag
  eligible : Desk.Eligible exclude (d.order i.order)
  first : ∀ j ∈ (d.book.queue side).bag, Desk.Eligible exclude (d.order j.order) →
    ¬ (was j).Outranks side.Favours (was i)

/-- What is best by the items is foremost by the orders that these show. -/
theorem Desk.Best.foremost {was : Item → Order} {side : Side} {exclude : Option UserId}
    {d : Desk Simulated} {i : Item} (h : Desk.Best side exclude d i)
    (hshows : ∀ j ∈ (d.book.queue side).bag, j.Shows (was j)) :
    Desk.Foremost was side exclude d i where
  mem := h.mem
  eligible := h.eligible
  first j hj hej := by
    rw [← side.prefers_ofResting]
    exact (Item.isLE_iff_not_outranks (hshows j hj) (hshows i h.mem)).1 (h.isLE j hj hej)

namespace Round

/-- The work itself. -/
def act : Round → Action (Desk Simulated) Desk.RoundResult
  | incoming side user r => Desk.matchRound Simulated.settlement side user r
  | resting => Desk.reconcileRound Simulated.settlement
  | entering side r => do
    Desk.rest side r
    return ⟨false, false⟩

/-- The pair is the best that the round can choose: an incoming order meets the best open one of
another user on the other side, the best open ask the best open bid of another user. -/
def Best : Round → Desk Simulated → (ask bid : OrderRef) → Prop
  | incoming _ _ r, d, ask, bid => ∃ i,
    Desk.Best (d.order r).side.opposite (some (d.order r).user) d i ∧
      (ask, bid) = Desk.pair (d.order r).side r i.order
  | resting, d, ask, bid => ∃ i j, Desk.BestPair d i j ∧ (ask, bid) = (i.order, j.order)
  | entering _ _, _, _, _ => False

/-- The same by the orders: `was` tells what they were when they were put into the queues. -/
def Foremost (was : Item → Order) : Round → Desk Simulated → (ask bid : OrderRef) → Prop
  | incoming _ _ r, d, ask, bid => ∃ i,
    Desk.Foremost was (d.order r).side.opposite (some (d.order r).user) d i ∧
      (ask, bid) = Desk.pair (d.order r).side r i.order
  | resting, d, ask, bid => ∃ i j, Desk.Foremost was .ask none d i ∧
    Desk.Foremost was .bid (some (d.order i.order).user) d j ∧ (ask, bid) = (i.order, j.order)
  | entering _ _, _, _, _ => False

/-- The best pair by the items is the foremost by the orders that these show. -/
theorem Best.foremost {was : Item → Order} {k : Round} {d : Desk Simulated} {ask bid : OrderRef}
    (h : k.Best d ask bid)
    (hshows : ∀ side, ∀ i ∈ (d.book.queue side).bag, i.Shows (was i)) :
    k.Foremost was d ask bid := by
  cases k with
  | incoming side user r =>
    obtain ⟨i, hi, heq⟩ := h
    exact ⟨i, hi.foremost (hshows _), heq⟩
  | resting =>
    obtain ⟨i, j, hij, heq⟩ := h
    exact ⟨i, j, hij.ask.foremost (hshows _), hij.bid.foremost (hshows _), heq⟩
  | entering side r => exact h.elim

/-- What the work can put into the queue of a side: the order that comes to rest, or else a dormant
stop-loss, which a trade activates. -/
def Brings : Round → Desk Simulated → Side → OrderRef → Prop
  | incoming _ _ _, d, _, r | resting, d, _, r => d.Waits r
  | entering side r, _, side', r' => side' = side ∧ r' = r

/-- All that came into a queue was brought by the work, and is shown as it is now. -/
def Brought (k : Round) (d d' : Desk Simulated) : Prop :=
  ∀ side, ∀ i ∈ (d'.book.queue side).bag,
    i ∈ (d.book.queue side).bag ∨ k.Brings d side i.order ∧ i.Shows (d'.order i.order)

/-- What the work needs to be told of the desk: the side and user are those of the order. -/
def Fits (known : OrderRef → Prop) : Round → Desk Simulated → Prop
  | incoming side user r, d => Desk.Incoming known side user r d
  | resting, _ => True
  | entering side r, d => known r ∧ (d.order r).side = side ∧ (d.order r).type ≠ .stopLoss

/-- A round that begins at `m` makes one trade after those before: the deal of a pair that may be
chosen as the desk is then. -/
structure Makes (k : Round) (chosen : Desk Simulated → (ask bid : OrderRef) → Prop)
    (m : Logged (Desk Simulated)) (before : List Trade) (t : Trade) : Prop where
  start : m.state.trades = before
  pair : ∃ ask bid, chosen m.state ask bid ∧ m.state.deal? ask bid = some t
  finish : Ends k.act m (fun _ u => u.state.trades = before ++ [t])
    (fun _ u => u.state.trades = before ++ [t])

/-- A round of this kind begins at `m` if a loop with this limit is entered at `s`. -/
def Begins (k : Round) : (limit : Nat) → (s m : Logged (Desk Simulated)) → Prop
  | 0, _, _ => False
  | limit + 1, s, m => m = s ∨
    ∃ result t, k.act s = .ok result t ∧ result.goesOn = true ∧ k.Begins limit t m

end Round

/-- The first trades became the second, one after the other, each made in a round that began at one
of these moments. -/
inductive MadeIn (moments : Round → Logged (Desk Simulated) → Prop) :
    List Trade → List Trade → Prop
  | refl (ts : List Trade) : MadeIn moments ts ts
  | trade {ts us : List Trade} {t : Trade} {k : Round} {m : Logged (Desk Simulated)}
    (made : MadeIn moments ts us) (moment : moments k m) (makes : k.Makes k.Best m us t) :
    MadeIn moments ts (us ++ [t])

namespace MadeIn

variable {moments moments' : Round → Logged (Desk Simulated) → Prop} {ts us vs : List Trade}

theorem trans (h : MadeIn moments ts us) (h' : MadeIn moments us vs) : MadeIn moments ts vs := by
  induction h' with
  | refl => exact h
  | trade made moment makes ih => exact .trade ih moment makes

theorem mono (h : MadeIn moments ts us) (hm : ∀ k m, moments k m → moments' k m) :
    MadeIn moments' ts us := by
  induction h with
  | refl => exact .refl _
  | trade made moment makes ih => exact .trade ih (hm _ _ moment) makes

/-- No trade is lost. -/
theorem isPrefix (h : MadeIn moments ts us) : ts <+: us := by
  induction h with
  | refl => exact List.prefix_rfl
  | trade made moment makes ih => exact ih.trans (List.prefix_append ..)

/-- Each new trade was made at one of the moments. -/
theorem exists_makes_after {past after : List Trade} {t : Trade} (h : MadeIn moments ts us)
    (heq : us = ts ++ past ++ t :: after) :
    ∃ k m, moments k m ∧ k.Makes k.Best m (ts ++ past) t := by
  induction h generalizing after with
  | refl =>
    have hlength := congrArg List.length heq
    simp only [List.length_append, List.length_cons] at hlength
    omega
  | @trade us t' k m made moment makes ih =>
    rcases List.eq_nil_or_concat' after with rfl | ⟨after, last, rfl⟩
    · obtain ⟨rfl, hlast⟩ := List.append_inj' heq rfl
      cases hlast
      exact ⟨k, m, moment, makes⟩
    · rw [← List.cons_append, ← List.append_assoc] at heq
      exact ih (List.append_inj' heq rfl).1

/-- Each trade was made at one of the moments. -/
theorem exists_makes (h : MadeIn moments [] us) {before after : List Trade} {t : Trade}
    (heq : us = before ++ t :: after) : ∃ k m, moments k m ∧ k.Makes k.Best m before t :=
  h.exists_makes_after heq

end MadeIn

namespace Desk

variable {s t u : Logged (Desk Simulated)} {d : Desk Simulated} {side : Side} {user : UserId}
  {r : OrderRef} {known : OrderRef → Prop}
  {moments moments' : Round → Logged (Desk Simulated) → Prop}

/-! ## What came into the queues -/

/-- No order was taken back and no trade lost. -/
structure Later (d d' : Desk Simulated) : Prop where
  orders : d.office.orders.Follow d'.office.orders
  trades : d.trades <+: d'.trades

theorem Later.refl (d : Desk Simulated) : Later d d := ⟨.refl _, List.prefix_rfl⟩

theorem Later.trans {d d' d'' : Desk Simulated} (h : Later d d') (h' : Later d' d'') :
    Later d d'' := ⟨h.orders.trans h'.orders, h.trades.trans h'.trades⟩

/-- A desk is later if orders were filled and closed and trades were added. -/
theorem Later.of_quoted {d d' : Desk Simulated} (horders : d.office.orders.Follow d'.office.orders)
    (hquoted : Quoted d d') : Later d d' :=
  ⟨horders, let ⟨new, hnew, _⟩ := hquoted; ⟨new, hnew.symm⟩⟩

/-- The item was put into the queue of a side by a piece of work that began at one of these moments
and was done before now. It shows the order as it was when that was done. -/
structure PutIn (moments : Round → Logged (Desk Simulated) → Prop) (d : Desk Simulated)
    (side : Side) (i : Item) (o : Order) : Prop where
  shows : i.Shows o
  work : ∃ k m, moments k m ∧ k.Brings m.state side i.order ∧
    Ends k.act m
      (fun _ u => i ∈ (u.state.book.queue side).bag ∧ u.state.order i.order = o ∧ Later u.state d)
      (fun _ u => i ∈ (u.state.book.queue side).bag ∧ u.state.order i.order = o ∧ Later u.state d)

/-- What was put in before is put in before what comes later. -/
theorem PutIn.later {d d' : Desk Simulated} {i : Item} {o : Order} (h : PutIn moments d side i o)
    (hlater : Later d d') : PutIn moments d' side i o := by
  obtain ⟨k, m, hm, hbrings, hends⟩ := h.work
  have hafter : ∀ u : Logged (Desk Simulated), (i ∈ (u.state.book.queue side).bag ∧
      u.state.order i.order = o ∧ Later u.state d) → i ∈ (u.state.book.queue side).bag ∧
        u.state.order i.order = o ∧ Later u.state d' :=
    fun u hu => ⟨hu.1, hu.2.1, hu.2.2.trans hlater⟩
  exact ⟨h.shows, k, m, hm, hbrings, hends.mono (fun _ => hafter) fun _ => hafter⟩

theorem PutIn.mono {d : Desk Simulated} {i : Item} {o : Order} (h : PutIn moments d side i o)
    (hm : ∀ k m, moments k m → moments' k m) : PutIn moments' d side i o :=
  ⟨h.shows, let ⟨k, m, hk, hwork⟩ := h.work; ⟨k, m, hm k m hk, hwork⟩⟩

/-- From one desk to the other, all that came into the queues was put in by pieces of work that
began at these moments. -/
def Supplied (moments : Round → Logged (Desk Simulated) → Prop) (d d' : Desk Simulated) : Prop :=
  ∀ side, ∀ i ∈ (d'.book.queue side).bag,
    i ∈ (d.book.queue side).bag ∨ ∃ o, PutIn moments d' side i o

namespace Supplied

variable {d' d'' : Desk Simulated}

/-- Nothing came in. -/
theorem of_queue (h : ∀ side, d'.book.queue side = d.book.queue side) : Supplied moments d d' :=
  fun side _ hi => .inl (h side ▸ hi)

theorem trans (h : Supplied moments d d') (h' : Supplied moments d' d'') (hlater : Later d' d'') :
    Supplied moments d d'' := by
  intro side i hi
  rcases h' side i hi with hi | hput
  · exact (h side i hi).imp_right fun ⟨o, hput⟩ => ⟨o, hput.later hlater⟩
  · exact .inr hput

theorem mono (h : Supplied moments d d') (hm : ∀ k m, moments k m → moments' k m) :
    Supplied moments' d d' :=
  fun side i hi => (h side i hi).imp_right fun ⟨o, hput⟩ => ⟨o, hput.mono hm⟩

end Supplied

/-! ## What matching leads to -/

/-- A piece of work can begin at `m`, which comes after `s`. -/
structure Ready (known : OrderRef → Prop) (moments : Round → Logged (Desk Simulated) → Prop)
    (s : Logged (Desk Simulated)) (k : Round) (m : Logged (Desk Simulated)) : Prop where
  orders : s.state.office.orders.Follow m.state.office.orders
  sound : Sound known m.state
  fits : k.Fits known m.state
  quoted : Quoted s.state m.state
  supplied : Supplied moments s.state m.state

/-- From one desk to the other no order was taken back, the queues are sound, the last price
followed the trades, these were made in rounds that could begin and did at these moments, and so
was put in what came into the queues. -/
structure Led (known : OrderRef → Prop) (moments : Round → Logged (Desk Simulated) → Prop)
    (s t : Logged (Desk Simulated)) : Prop where
  orders : s.state.office.orders.Follow t.state.office.orders
  sound : Sound known t.state
  waiting : t.state.book.phase.orders ⊆ s.state.book.phase.orders
  quoted : Quoted s.state t.state
  supplied : Supplied moments s.state t.state
  made : MadeIn (fun k m => moments k m ∧ Ready known moments s k m) s.state.trades t.state.trades

/-- Where a round begins is later than where the work began. -/
theorem Ready.later {k : Round} {m : Logged (Desk Simulated)} (h : Ready known moments s k m) :
    Later s.state m.state := .of_quoted h.orders h.quoted

theorem Ready.mono {k : Round} {m : Logged (Desk Simulated)} (h : Ready known moments s k m)
    (hm : ∀ k m, moments k m → moments' k m) : Ready known moments' s k m :=
  { h with supplied := h.supplied.mono hm }

/-- What can begin later can begin after what comes before, too. -/
theorem Ready.after {k : Round} {m : Logged (Desk Simulated)} (h : Led known moments s t)
    (hready : Ready known moments t k m) : Ready known moments s k m where
  orders := h.orders.trans hready.orders
  sound := hready.sound
  fits := hready.fits
  quoted := rules_quoted.trans h.quoted hready.quoted
  supplied := h.supplied.trans hready.supplied hready.later

namespace Led

/-- Where the work leads is later. -/
theorem later (h : Led known moments s t) : Later s.state t.state := .of_quoted h.orders h.quoted

theorem trans (h : Led known moments s t) (h' : Led known moments t u) :
    Led known moments s u where
  orders := h.orders.trans h'.orders
  sound := h'.sound
  waiting := List.Subset.trans h'.waiting h.waiting
  quoted := rules_quoted.trans h.quoted h'.quoted
  supplied := h.supplied.trans h'.supplied h'.later
  made := h.made.trans (h'.made.mono fun _ _ hm => ⟨hm.1, hm.2.after h⟩)

theorem mono (h : Led known moments s t) (hm : ∀ k m, moments k m → moments' k m) :
    Led known moments' s t :=
  { h with
    supplied := h.supplied.mono hm
    made := h.made.mono fun k m hk => ⟨hm k m hk.1, hk.2.mono hm⟩ }

/-- Nothing was traded and nothing queued. -/
theorem of_same (hon : Onward s.state t.state) (hd : Sound known t.state)
    (ht : t.state.trades = s.state.trades) (hp : t.state.book.lastPrice = s.state.book.lastPrice)
    (hqueue : ∀ side, t.state.book.queue side = s.state.book.queue side) :
    Led known moments s t where
  orders := hon.orders
  sound := hd
  waiting := hon.phase ▸ List.Subset.refl _
  quoted := quoted_of_same ht hp
  supplied := .of_queue hqueue
  made := ht ▸ .refl _

theorem refl (hd : Sound known s.state) : Led known moments s s :=
  .of_same (.refl _) hd rfl rfl fun _ => rfl

/-- The book in another phase, in which no others wait. -/
theorem enter (h : Led known moments s t) {p : Phase} (hp : p.orders ⊆ t.state.book.phase.orders)
    (j : Array Event) :
    Led known moments s ⟨{ t.state with book := { t.state.book with phase := p } }, j⟩ where
  orders := h.orders
  sound := h.sound.enter p
  waiting := List.Subset.trans hp h.waiting
  quoted := h.quoted
  supplied := h.supplied.trans (.of_queue fun side => by cases side <;> rfl)
    ⟨.refl _, List.prefix_rfl⟩
  made := h.made

end Led

/-- The best pair of a round crossed and made its deal, or nothing was traded. -/
def DealsOf (k : Round) (d d' : Desk Simulated) : Prop :=
  d'.trades = d.trades ∨ ∃ ask bid, k.Best d ask bid ∧ crosses (d.order ask) (d.order bid) = true ∧
    d.Deals ask bid d'

/-- A deal with the incoming order is one of its rounds. -/
theorem dealsOf_incoming {d' : Desk Simulated} (hr : (Round.incoming side user r).Fits known d)
    (h : DealsBest side user r d d') : DealsOf (.incoming side user r) d d' := by
  obtain ⟨i, hbest, hcross, hdeals⟩ := h
  unfold Crosses at hcross
  rw [← hr.side, ← hr.user] at hbest
  rw [← hr.side] at hdeals hcross
  exact .inr ⟨_, _, ⟨i, hbest, rfl⟩, hcross, hdeals⟩

/-- A deal between resting orders is one of a round of reconciling. -/
theorem dealsOf_resting {d' : Desk Simulated} (h : DealsPair d d') :
    DealsOf .resting d d' := by
  obtain ⟨i, j, hbest, hcross, hdeals⟩ := h
  exact .inr ⟨_, _, ⟨i, j, hbest, rfl⟩, hcross.crosses, hdeals⟩

/-- What a piece of work does: it makes at most one deal, that of its best pair, and puts in what
it brings. -/
structure Worked (known : OrderRef → Prop) (k : Round) (d d' : Desk Simulated) : Prop where
  onward : Onward d d'
  sound : Sound known d'
  deals : DealsOf k d d'
  brought : k.Brought d d'

/-- An order that comes to rest is brought by that. -/
theorem worked_rested (hd : Sound known d) (hk : (Round.entering side r).Fits known d)
    (l : Ledger) : Worked known (.entering side r) d (d.rested side r l) where
  onward := onward_rested l
  sound := hd.rested hk.1 hk.2.1 hk.2.2 l
  deals := .inl rfl
  brought s i hi := by
    rw [queue_rested] at hi
    split at hi
    · next hs =>
      rw [Queue.push, Queue.bag_pushItem, Multiset.mem_cons] at hi
      rcases hi with rfl | hi
      · exact .inr ⟨⟨hs.symm, rfl⟩, Item.shows_ofOrder r _⟩
      · exact .inl (hs ▸ hi)
    · exact .inl hi

/-- All work is done so, also if it breaks off. -/
theorem ends_act (k : Round) (hd : Sound known s.state) (hk : k.Fits known s.state) :
    Ends k.act s (fun _ t => Worked known k s.state t.state)
      (fun _ t => Worked known k s.state t.state) := by
  cases k with
  | incoming side user r =>
    refine ends_matchRound (upkeep_true known) hd hk trivial ?_ ?_ ?_ ?_
    · exact fun _ => ⟨.refl _, hd, .inl rfl, fun _ _ => .inl⟩
    · intro t hround hsound _
      exact ⟨hround.onward, hsound, .inl (congrArg (·.backend.trades.toList) hround.office),
        fun _ _ hi => .inl (hround.sheds.mem_bag_of hi)⟩
    · intro i d fired t _ hround _ htriggered _
      refine ⟨hround.onward.trans htriggered.onward, htriggered.sound, dealsOf_incoming hk ?_,
        htriggered.takesIn.after (fun _ _ => hround.sheds.mem_bag_of)
          fun s _ hi => hround.dormant s ▸ hi⟩
      exact ⟨i, hround.best, hround.crosses,
        htriggered.trades.trans (deals_of_office hround.office)⟩
    · intro f t hf hthinned hdeals
      exact ⟨hf.onward, hf.sound, hdeals.elim .inl fun h => dealsOf_incoming hk h,
        fun s _ hi => .inl (Multiset.mem_of_le (hthinned.queue s) hi)⟩
  | resting =>
    refine ends_reconcileRound (upkeep_true known) hd trivial ?_ ?_ ?_
    · exact fun t hon hsound _ htrades hthinned _ => ⟨hon, hsound, .inl htrades,
        fun s _ hi => .inl (Multiset.mem_of_le (hthinned.queue s) hi)⟩
    · exact fun fired t hon hsound _ _ hdeals htakes =>
        ⟨hon, hsound, dealsOf_resting hdeals, htakes⟩
    · intro f t hf hthinned hdeals
      exact ⟨hf.onward, hf.sound, hdeals.elim .inl fun h => dealsOf_resting h,
        fun s _ hi => .inl (Multiset.mem_of_le (hthinned.queue s) hi)⟩
  | entering side r =>
    simp only [Round.act, ends_bind, ends_pure]
    refine (ends_rest (P := fun _ => True) (B := True) fun j => ?_).mono ?_ ?_
    · exact Ledger.breaks_add.mono (fun _ _ _ => trivial) fun _ _ hf => ⟨hf, trivial⟩
    · rintro _ ⟨t, j⟩ ⟨l, -, rfl⟩
      exact worked_rested hd hk l
    · rintro f ⟨t, j⟩ ⟨-, -, l, rfl⟩
      exact worked_rested hd hk l

/-- All work keeps the last price up with the trades. -/
theorem quoted_act (k : Round) : Respects Quoted k.act := by
  cases k with
  | incoming side user r => exact rules_quoted.matchRound
  | resting => exact rules_quoted.reconcileRound
  | entering side r =>
    exact rules_quoted.rest.bind rules_quoted.toChains fun _ => .pure rules_quoted.toChains _

/-! ## Fair trades -/

/-- The pair of a round is one of a known ask and a known bid that are not dormant. -/
theorem active_of_best {k : Round} {ask bid : OrderRef} (hd : Sound known d) (hk : k.Fits known d)
    (hbest : k.Best d ask bid) :
    (known ask ∧ (d.order ask).side = .ask ∧ (d.order ask).type ≠ .stopLoss) ∧
      (known bid ∧ (d.order bid).side = .bid ∧ (d.order bid).type ≠ .stopLoss) := by
  have hresting : ∀ {side : Side} {i : Item}, i ∈ (d.book.queue side).bag →
      known i.order ∧ (d.order i.order).side = side ∧ (d.order i.order).type ≠ .stopLoss := by
    intro side i hi
    have hrests := hd.resting side i hi
    exact ⟨hrests.known, hrests.side, hrests.type ▸ hrests.active⟩
  cases k with
  | incoming side user r =>
    obtain ⟨i, hi, heq⟩ := hbest
    obtain ⟨rfl, rfl⟩ := Prod.mk.inj heq
    exact forall_pair (d.order r).side r i.order
      (P := fun s x => known x ∧ (d.order x).side = s ∧ (d.order x).type ≠ .stopLoss)
      ⟨hk.known, rfl, hk.type⟩ (hresting hi.mem)
  | resting =>
    obtain ⟨i, j, hij, heq⟩ := hbest
    obtain ⟨rfl, rfl⟩ := Prod.mk.inj heq
    exact ⟨hresting hij.ask.mem, hresting hij.bid.mem⟩
  | entering side r => exact hbest.elim

/-- The trade that a round makes is fair, with the last price when it begins. -/
theorem Ready.fairTrade {k : Round} {m : Logged (Desk Simulated)} {before : List Trade} {t : Trade}
    (h : Ready known moments s k m) (hmakes : k.Makes k.Best m before t) :
    FairTrade known m.state.office.orders m.state.book.lastPrice t := by
  obtain ⟨u, hworked, htrades⟩ := ((ends_act k h.sound h.fits).and hmakes.finish).exists_end
  rcases hworked.deals with hsame | ⟨ask, bid, hbest, hcross, hdeals⟩
  · rw [htrades, hmakes.start] at hsame
    exact absurd hsame (by simp)
  · unfold Deals at hdeals
    rw [htrades, hmakes.start, List.append_cancel_left_eq] at hdeals
    have hdeal : m.state.deal? ask bid = some t := by
      cases hdeal : m.state.deal? ask bid with
      | none => rw [hdeal] at hdeals; cases hdeals
      | some u => rw [hdeal] at hdeals; cases hdeals; rfl
    obtain ⟨-, -, rfl⟩ := Office.deal?_eq_some hdeal
    obtain ⟨⟨hka, hsa, hta⟩, hkb, hsb, htb⟩ := active_of_best h.sound h.fits hbest
    exact ⟨ask, bid, hka, hkb, hsa, hsb, rfl, rfl, fairPrice_tradePrice hta htb hcross _⟩

/-! ## Loops -/

/-- The moments at which the rounds of a loop begin. -/
def LoopBegins (k : Round) (limit : Nat) (s : Logged (Desk Simulated)) (k' : Round)
    (m : Logged (Desk Simulated)) : Prop := k' = k ∧ k.Begins limit s m

/-- The deal of a piece of work is made at the moment at which it begins. -/
theorem madeIn_of_dealsOf {k : Round} (hdeals : DealsOf k s.state t.state) (limit : Nat)
    (hready : Ready known (LoopBegins k (limit + 1) s) s k s)
    (hfinish : ∀ ts, t.state.trades = ts →
      Ends k.act s (fun _ u => u.state.trades = ts) (fun _ u => u.state.trades = ts)) :
    MadeIn (fun k' m => LoopBegins k (limit + 1) s k' m ∧
      Ready known (LoopBegins k (limit + 1) s) s k' m) s.state.trades t.state.trades := by
  rcases hdeals with htrades | ⟨ask, bid, hbest, -, hdeals⟩
  · exact htrades ▸ .refl _
  · unfold Deals at hdeals
    cases htrade : s.state.deal? ask bid with
    | none =>
      rw [htrade, Option.toList_none, List.append_nil] at hdeals
      exact hdeals ▸ .refl _
    | some trade =>
      rw [htrade, Option.toList_some] at hdeals
      exact hdeals ▸ .trade (.refl _) ⟨⟨rfl, .inl rfl⟩, hready⟩
        ⟨rfl, ⟨ask, bid, hbest, htrade⟩, hfinish _ hdeals⟩

/-- What a piece of work brings is put in by it. -/
theorem supplied_of_brought {k : Round} (hbrought : k.Brought s.state t.state) (limit : Nat)
    (hfinish : ∀ P : Desk Simulated → Prop, P t.state →
      Ends k.act s (fun _ u => P u.state) (fun _ u => P u.state)) :
    Supplied (LoopBegins k (limit + 1) s) s.state t.state := by
  intro side i hi
  rcases hbrought side i hi with hqueued | ⟨hbrings, hshows⟩
  · exact .inl hqueued
  · refine .inr ⟨_, hshows, k, s, ⟨rfl, .inl rfl⟩, hbrings, ?_⟩
    exact hfinish (fun d => i ∈ (d.book.queue side).bag ∧ d.order i.order = t.state.order i.order ∧
      Later d t.state) ⟨hi, rfl, .refl _⟩

/-- A piece of work makes its trade, and puts in what it brings, at the moment at which it
begins. -/
theorem led_act (k : Round) (limit : Nat) (hd : Sound known s.state) (hk : k.Fits known s.state) :
    Ends k.act s
      (fun result t => k.act s = .ok result t ∧ Onward s.state t.state ∧
        Led known (LoopBegins k (limit + 1) s) s t)
      (fun _ t => Led known (LoopBegins k (limit + 1) s) s t) := by
  have hready : Ready known (LoopBegins k (limit + 1) s) s k s :=
    ⟨.refl _, hd, hk, rules_quoted.refl _, .of_queue fun _ => rfl⟩
  have hled : ∀ t, Worked known k s.state t.state → Quoted s.state t.state →
      (∀ P : Desk Simulated → Prop, P t.state →
        Ends k.act s (fun _ u => P u.state) (fun _ u => P u.state)) →
      Led known (LoopBegins k (limit + 1) s) s t := fun t hworked hquoted hfinish =>
    { orders := hworked.onward.orders
      sound := hworked.sound
      waiting := hworked.onward.phase ▸ List.Subset.refl _
      quoted := hquoted
      supplied := supplied_of_brought hworked.brought limit hfinish
      made := madeIn_of_dealsOf hworked.deals limit hready fun ts hts =>
        hfinish (fun d => d.trades = ts) hts }
  refine ((ends_act k hd hk).and (quoted_act k s)).actual.mono ?_ ?_
  · rintro result t ⟨heq, hworked, hquoted⟩
    exact ⟨heq, hworked.onward, hled t hworked hquoted fun _ hP => .of_ok heq hP⟩
  · rintro f t ⟨heq, hworked, hquoted⟩
    exact hled t hworked hquoted fun _ hP => .of_error heq hP

/-- The rounds of the rest of a loop are rounds of the whole of it. -/
theorem LoopBegins.later {k k' : Round} {limit : Nat} {result : RoundResult}
    {m : Logged (Desk Simulated)} (hact : k.act s = .ok result t) (hgo : result.goesOn = true)
    (h : LoopBegins k limit t k' m) : LoopBegins k (limit + 1) s k' m :=
  ⟨h.1, .inr ⟨result, t, hact, hgo, h.2⟩⟩

/-- What a loop does after a round makes its trades at later moments of the loop. -/
theorem led_loop {α : Type} (k : Round) {limit : Nat}
    {next : RoundResult → Action (Desk Simulated) α} (hd : Sound known s.state)
    (hk : k.Fits known s.state) (hstop : ∀ result t, result.goesOn = false → Sound known t.state →
      Ends (next result) t (fun _ u => u = t) (fun _ _ => False))
    (hgo : ∀ result t, result.goesOn = true → Onward s.state t.state →
      Sound known t.state →
      Ends (next result) t (fun _ u => Led known (LoopBegins k limit t) t u)
        (fun _ u => Led known (LoopBegins k limit t) t u)) :
    Ends (k.act >>= next) s (fun _ t => Led known (LoopBegins k (limit + 1) s) s t)
      (fun _ t => Led known (LoopBegins k (limit + 1) s) s t) := by
  refine (led_act k limit hd hk).bind ?_
  rintro result t ⟨hact, hon, hled⟩
  cases hgoes : result.goesOn with
  | false =>
    refine (hstop result t hgoes hled.sound).mono ?_ fun _ _ hf => hf.elim
    rintro _ u rfl
    exact hled
  | true =>
    have hlater : ∀ u, Led known (LoopBegins k limit t) t u →
        Led known (LoopBegins k (limit + 1) s) s u :=
      fun u hu => hled.trans (hu.mono fun _ _ hm => hm.later hact hgoes)
    exact (hgo result t hgoes hon hled.sound).mono (fun _ => hlater) fun _ => hlater

/-- Matching an order makes its trades in its rounds, by induction on the limit. -/
theorem led_matchIncoming (limit : Nat) {activated : Bool} (hd : Sound known s.state)
    (hk : (Round.incoming side user r).Fits known s.state) :
    Ends (matchIncoming Simulated.settlement side user r limit activated) s
      (fun _ t => Led known (LoopBegins (.incoming side user r) limit s) s t)
      (fun _ t => Led known (LoopBegins (.incoming side user r) limit s) s t) := by
  induction limit generalizing s activated with
  | zero => exact .refl hd
  | succ limit ih =>
    rw [matchIncoming_succ]
    refine led_loop (.incoming side user r) hd hk ?_ ?_
    · intro result t hstop _
      rw [hstop]
      exact rfl
    · intro result t hgo hon hsound
      rw [hgo]
      exact ih hsound (hk.onward hon)

/-- Reconciling makes its trades in its rounds, by induction on the limit. -/
theorem led_reconcileSteps (limit : Nat) (hd : Sound known s.state) :
    Ends (reconcileSteps Simulated.settlement limit) s
      (fun _ t => Led known (LoopBegins .resting limit s) s t)
      (fun _ t => Led known (LoopBegins .resting limit s) s t) := by
  induction limit generalizing s with
  | zero => exact .refl hd
  | succ limit ih =>
    rw [reconcileSteps_succ]
    refine led_loop .resting hd trivial ?_ ?_
    · intro result t hstop _
      rw [hstop]
      exact rfl
    · intro result t hgo _ hsound
      rw [hgo]
      exact ih hsound

/-! ## Processing an order -/

/-- A round of matching resting orders begins while the book is reconciled. -/
def ReconcileBegins (s : Logged (Desk Simulated)) (k : Round) (m : Logged (Desk Simulated)) :
    Prop :=
  LoopBegins .resting (s.state.book.itemCount + 1) s k m

/-- Reconciling the whole book makes its trades in the rounds that it begins. -/
theorem led_reconcile (hd : Sound known s.state) :
    Ends (reconcile Simulated.settlement) s (fun _ t => Led known (ReconcileBegins s) s t)
      (fun _ t => Led known (ReconcileBegins s) s t) := by
  simp only [reconcile, ends_bind, ends_current]
  exact led_reconcileSteps _ hd

/-- A piece of work begins while an order is processed: while it is matched, when what is left of
it comes to rest, or while the book is reconciled after it. -/
inductive ProcessBegins (r : OrderRef) (s : Logged (Desk Simulated)) :
    Round → Logged (Desk Simulated) → Prop
  | matching {k : Round} {m : Logged (Desk Simulated)}
    (begins : LoopBegins (.incoming (s.state.order r).side (s.state.order r).user r)
      (processLimit Simulated.settlement s.state) s k m) : ProcessBegins r s k m
  | entering {activated : Bool} {t : Logged (Desk Simulated)}
    (matched : matchIncoming Simulated.settlement (s.state.order r).side (s.state.order r).user r
      (processLimit Simulated.settlement s.state) false s = .ok activated t)
    (isOpen : (t.state.order r).isOpen = true) :
    ProcessBegins r s (.entering (s.state.order r).side r) t
  | reconciling {k : Round} {t u m : Logged (Desk Simulated)}
    (matched : matchIncoming Simulated.settlement (s.state.order r).side (s.state.order r).user r
      (processLimit Simulated.settlement s.state) false s = .ok true t)
    (rested : restLeft (s.state.order r).side r t = .ok () u)
    (begins : ReconcileBegins u k m) : ProcessBegins r s k m

/-- An order comes to rest at one moment. -/
theorem led_rest (hd : Sound known s.state) (hk : (Round.entering side r).Fits known s.state)
    (hm : moments (.entering side r) s) :
    Ends (rest side r) s (fun _ t => Led known moments s t)
    (fun _ t => Led known moments s t) := by
  have hled := led_act (.entering side r) 0 hd hk
  simp only [Round.act, ends_bind, ends_pure] at hled
  have hmoments : ∀ k m, LoopBegins (.entering side r) (0 + 1) s k m → moments k m := by
    rintro _ m ⟨rfl, rfl | ⟨_, _, _, _, hf⟩⟩
    · exact hm
    · exact hf.elim
  exact hled.mono (fun _ _ h => h.2.2.mono hmoments) fun _ _ h => h.mono hmoments

/-- What is left of an order comes to rest. -/
theorem led_restLeft (hd : Sound known s.state) (hk : (Round.entering side r).Fits known s.state)
    (hm : (s.state.order r).isOpen = true → moments (.entering side r) s) :
    Ends (restLeft side r) s (fun _ t => Led known moments s t)
    (fun _ t => Led known moments s t) := by
  simp only [restLeft, ends_bind, ends_current]
  split
  · next hopen => exact led_rest hd hk (hm hopen)
  · exact .refl hd

/-- Each trade that processing an order makes is made in one of its rounds, also if it breaks
off. -/
theorem led_process (hd : Sound known s.state) (hr : known r)
    (ht : (s.state.order r).type ≠ .stopLoss) :
    Ends (process Simulated.settlement r) s (fun _ t => Led known (ProcessBegins r s) s t)
      (fun _ t => Led known (ProcessBegins r s) s t) := by
  have hin : (Round.incoming (s.state.order r).side (s.state.order r).user r).Fits known s.state :=
    ⟨hr, rfl, rfl, ht⟩
  rw [process_eq, ends_bind, ends_current]
  refine Ends.bind ((led_matchIncoming _ hd hin).actual.mono (fun _ _ h => h) ?_) ?_
  · exact fun _ t h => h.2.mono fun _ _ => .matching
  rintro activated t ⟨hmatch, hled⟩
  have hled : Led known (ProcessBegins r s) s t := hled.mono fun _ _ => .matching
  have ho := hled.orders r
  have hrest : Ends (restLeft (s.state.order r).side r) t
      (fun _ u => Led known (ProcessBegins r s) t u)
      (fun _ u => Led known (ProcessBegins r s) t u) :=
    led_restLeft hled.sound ⟨hr, ho.side, ho.type_ne ht⟩ (.entering hmatch)
  refine Ends.bind (hrest.actual.mono (fun _ _ h => h) fun _ _ h => hled.trans h.2) ?_
  rintro _ u ⟨hrest, hled'⟩
  have hled := hled.trans hled'
  cases activated with
  | false => exact hled
  | true =>
    have hlast : ∀ v, Led known (ReconcileBegins u) u v → Led known (ProcessBegins r s) s v :=
      fun v hv => hled.trans (hv.mono fun _ _ => .reconciling hmatch hrest)
    exact (led_reconcile hled.sound).mono (fun _ => hlast) fun _ => hlast

end Desk

end Bourse
