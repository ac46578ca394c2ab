import Bourse.Proofs.Twin.Desk

/-!
# What loaded orders bring

Orders that are loaded bring their items to the queues and their entries to the ledger, and change
nothing else (`Desk.Loaded`). What the ledger shows then is told by the entries themselves and by
sums over them (`Ledger.Shows`), so it does not depend on the order of loading, and neither does
what is queued: the desks are twins (`Desk.Loaded.twin`).

A difference of depth counts a quantity with a sign that may wrap, so sums of quantities do not
give it; it has a sum of its own (`Ledger.signedAt`).
-/

namespace Bourse

open Bourse.Action

/-! ## Levels -/

namespace Levels

variable {s : Logged Levels} {p : Price} {q : Quantity} {l l₁ l₂ : Levels}
  {more : Price → Nat} {signed : Price → Int}

/-- So much more is held at each price, and the differences are so much higher. A level where
nothing came is as it was. -/
structure Raised (l : Levels) (more : Price → Nat) (signed : Price → Int)
    (l' : Levels) : Prop where
  depth : ∀ p, (l'.depth.find? p).map (·.toNat) =
    if more p = 0 then (l.depth.find? p).map (·.toNat) else some (l.held p + more p)
  change : ∀ p, l'.change p = l.change p + signed p

theorem Raised.refl (l : Levels) : Raised l (fun _ => 0) (fun _ => 0) l :=
  ⟨fun _ => (if_pos rfl).symm, fun _ => (add_zero _).symm⟩

/-- The quantity held is the entry of the price, or none. -/
theorem held_eq (l : Levels) (p : Price) :
    l.held p = ((l.depth.find? p).map (·.toNat)).getD 0 := by
  unfold held quantityAt
  cases l.depth.find? p <;> rfl

/-- Raised levels hold as much more as they were raised by. -/
theorem Raised.held (h : Raised l more signed l₁) (p : Price) : l₁.held p = l.held p + more p := by
  rw [held_eq l₁, h.depth]
  split
  · next hmore => rw [hmore, add_zero, held_eq]
  · rfl

/-- Levels that were raised by the same are alike. -/
theorem Raised.alike (h : Raised l more signed l₁) (h' : Raised l more signed l₂) :
    Alike l₁ l₂ where
  depth p := Option.map_injective (fun _ _ hq => Quantity.toNat_inj.1 hq)
    ((h'.depth p).trans (h.depth p).symm)
  diff p := Int64.toInt_inj.1 ((h'.change p).trans (h.change p).symm)

/-- Quantity that is added raises the level at its price. -/
theorem Raised.ends_add (h : Raised l more signed s.state) (hq : q.isZero = false) :
    Ends (add p q) s
      (fun _ t => Raised l (fun r => (if p.Same r then q.toNat else 0) + more r)
        (fun r => (if p.Same r then q.signed.toInt else 0) + signed r) t.state)
      (fun _ _ => True) := by
  have hpos := Quantity.isZero_eq_false_iff.1 hq
  by_cases hsum : (s.state.quantityAt p).toNat + q.toNat < 2 ^ 64
  · obtain ⟨sum, hadd, hn⟩ := Quantity.add_eq hsum
    simp only [add, ends_bind, ends_current, ends_ofExcept, hadd, ends_replace]
    refine ends_recordDiff_of_ok.imp (fun _ t ht => ⟨fun r => ?_, fun r => ?_⟩)
    · rw [ht.1, PriceMap.find?_insert]
      by_cases hr : p.Same r
      · have hheld : (s.state.quantityAt p).toNat = l.held r + more r :=
          (held_congr s.state hr).trans (h.held r)
        rw [if_pos hr, if_pos hr, if_neg (by omega), Option.map_some, hn, hheld]
        congr 1
        omega
      · rw [if_neg hr, if_neg hr, zero_add]
        exact h.depth r
    · have hchange : s.state.change r = l.change r + signed r := h.change r
      rw [ht.2 r]
      show s.state.change r + _ = _
      rw [hchange, add_assoc, add_comm (signed r)]
  · simp only [add, ends_bind, ends_current, ends_ofExcept, Quantity.add_eq_error hsum]

end Levels

/-! ## Ledgers -/

/-- What a shown order adds to the difference at a price of a side. -/
def Shown.signedAt (e : Shown) (s : Side) (p : Price) : Int :=
  if e.isMarket = false ∧ e.side = s ∧ e.price.Same p then e.quantity.signed.toInt else 0

namespace Ledger

variable {s : Logged Ledger} {l l₁ l₂ : Ledger} {es es' : List Shown} {o : Order}

/-- What shown orders add to the difference at a price of a side. -/
def signedAt (shown : List Shown) (s : Side) (p : Price) : Int :=
  (shown.map (·.signedAt s p)).sum

/-- What entries raise does not depend on their order. -/
theorem signedAt_perm (h : es.Perm es') (s : Side) (p : Price) :
    signedAt es s p = signedAt es' s p := (h.map _).sum_eq

/-- What a further entry raises comes on top. -/
theorem signedAt_cons (e : Shown) (es : List Shown) (s : Side) (p : Price) :
    signedAt (e :: es) s p = e.signedAt s p + signedAt es s p := rfl

/-- Some entries came to a ledger. Depth was raised by what they contribute. -/
structure Shows (l : Ledger) (es : List Shown) (l' : Ledger) : Prop where
  find? : ∀ id, l'.find? id = (es.find? fun e => e.id = id).or (l.find? id)
  feed : l'.depth.feed = l.depth.feed
  levels : ∀ s, (l.depth.levels s).Raised (shownAt es s) (signedAt es s) (l'.depth.levels s)

theorem Shows.refl (l : Ledger) : Shows l [] l := ⟨fun _ => rfl, rfl, fun _ => .refl _⟩

/-- In whatever order entries came to a ledger, the results are alike. -/
theorem Shows.alike (h : Shows l es l₁) (h' : Shows l es' l₂) (hperm : es.Perm es')
    (hd : (es.map (·.id)).Nodup) : Alike l₁ l₂ := by
  have hfeed := h'.feed.trans h.feed.symm
  refine ⟨fun id => ?_, congrArg (·.1) hfeed, congrArg (·.2.1) hfeed, congrArg (·.2.2.1) hfeed,
    congrArg (·.2.2.2) hfeed, fun s => (h.levels s).alike ?_⟩
  · rw [h.find?, h'.find?, find?_key_perm hperm hd]
  · have hshown : shownAt es s = shownAt es' s := funext (shownAt_perm hperm s)
    have hsigned : signedAt es s = signedAt es' s := funext (signedAt_perm hperm s)
    rw [hshown, hsigned]
    exact h'.levels s

/-- Depth is raised by what an entry contributes. -/
theorem Shows.raised_addOrder {s : Logged MarketDepth} {e : Shown} (h : Shows l es l₁)
    (hs : s.state = l₁.depth) (he : e.quantity.isZero = false) :
    Ends (MarketDepth.addOrder e.isMarket e.side e.price e.quantity) s
      (fun _ t => t.state.feed = l.depth.feed ∧ ∀ s,
        (l.depth.levels s).Raised (shownAt (e :: es) s) (signedAt (e :: es) s) (t.state.levels s))
      (fun _ _ => True) := by
  -- on the other side, or of an order that takes any price, nothing comes to a level
  have hother : ∀ s, (e.isMarket = false → e.side ≠ s) →
      (l.depth.levels s).Raised (shownAt (e :: es) s) (signedAt (e :: es) s)
      (l₁.depth.levels s) := by
    intro s hne
    have hshown : shownAt (e :: es) s = shownAt es s := funext fun p => by
      rw [shownAt_cons, Shown.showsAt, if_neg fun hat => hne hat.1 hat.2.1, zero_add]
    have hsigned : signedAt (e :: es) s = signedAt es s := funext fun p => by
      rw [signedAt_cons, Shown.signedAt, if_neg fun hat => hne hat.1 hat.2.1, zero_add]
    rw [hshown, hsigned]
    exact h.levels s
  rw [MarketDepth.addOrder, he, Bool.or_false]
  cases hm : e.isMarket
  · rw [if_neg Bool.false_ne_true, MarketDepth.onLevels, ends_within, hs]
    refine ((h.levels e.side).ends_add (s := ⟨l₁.depth.levels e.side, s.journal⟩) he).imp
      (fun _ t ht => ⟨(MarketDepth.feed_withLevels ..).trans h.feed, fun s' => ?_⟩)
    rw [MarketDepth.levels_withLevels]
    split
    · next hside =>
      have hshown : shownAt (e :: es) s' =
          fun p => (if e.price.Same p then e.quantity.toNat else 0) + shownAt es e.side p :=
        funext fun p => by simp [Shown.showsAt, hm, hside]
      have hsigned : signedAt (e :: es) s' =
          fun p => (if e.price.Same p then e.quantity.signed.toInt else 0) +
            signedAt es e.side p :=
        funext fun p => by simp [signedAt_cons, Shown.signedAt, hm, hside]
      rw [hshown, hsigned, ← hside]
      exact ht
    · next hside => exact hother s' fun _ => hside
  · rw [if_pos rfl, ends_pure, hs]
    exact ⟨h.feed, fun s' => hother s' fun hf => Bool.noConfusion (hm.symm.trans hf)⟩

/-- Showing an order brings its entry. -/
theorem Shows.ends_add (h : Shows l es s.state) :
    Ends (add o) s
      (fun _ t => Shows l
        (if o.isOpen && (s.state.find? o.id).isNone then .ofOrder o :: es else es) t.state)
      (fun _ _ => True) := by
  simp only [add, ends_bind, ends_current]
  by_cases hnew : (o.isOpen && (s.state.find? o.id).isNone) = true
  · have hopen : (Shown.ofOrder o).quantity.isZero = false :=
      Quantity.isZero_eq_false_iff.2 (Order.isOpen_iff.1 (Bool.and_eq_true_iff.1 hnew).1).2
    have hfind : ∀ id, Ledger.find? { s.state with shown := .ofOrder o :: s.state.shown } id =
        ((Shown.ofOrder o :: es).find? fun e => e.id = id).or (l.find? id) := by
      intro id
      rw [find?_cons, List.find?_cons]
      by_cases hid : (Shown.ofOrder o).id = id
      · rw [if_pos hid, decide_eq_true hid]
        rfl
      · rw [if_neg hid, decide_eq_false hid]
        exact h.find? id
    simp only [hnew, if_true, report, ends_bind, ends_replace, ends_change, ends_within,
      MarketDepth.receive]
    refine (h.raised_addOrder (s := ⟨s.state.depth, s.journal⟩) rfl hopen).imp ?_
    exact fun _ t ht => ⟨hfind, ht.1, ht.2⟩
  · simp only [hnew]
    exact h

end Ledger

/-! ## Desks -/

namespace Desk

variable {lax : Bool} {hand : Multiset OrderId} {s : Logged (Desk Simulated)} {r : OrderRef}
  {rs rs' : List OrderRef} {d d₁ d₂ : Desk Simulated}

/-- The order is open and no stop-loss, so it is shown when it is loaded, unless it is already. -/
def Appears (d : Desk Simulated) (r : OrderRef) : Bool :=
  (d.order r).isOpen && (d.order r).type ≠ .stopLoss &&
    (d.book.ledger.find? (d.order r).id).isNone

/-- The order rests on a side when it is loaded. -/
def Joins (d : Desk Simulated) (s : Side) (r : OrderRef) : Bool :=
  !(d.order r).closed && (d.order r).type ≠ .stopLoss && (d.order r).side = s

/-- The order is a dormant stop-loss of a side when it is loaded. -/
def Sleeps (d : Desk Simulated) (s : Side) (r : OrderRef) : Bool :=
  !(d.order r).closed && (d.order r).type = .stopLoss && (d.order r).side = s

/-- The items of orders as they are. -/
def items (d : Desk Simulated) (rs : List OrderRef) : List Item :=
  rs.map fun r => .ofOrder r (d.order r)

/-- Some orders were loaded, the last first. -/
structure Loaded (d : Desk Simulated) (rs : List OrderRef) (d' : Desk Simulated) : Prop where
  office : d'.office = d.office
  header : d'.book.header = d.book.header
  ledger : d.book.ledger.Shows ((rs.filter d.Appears).map fun r => .ofOrder (d.order r))
    d'.book.ledger
  ordered : ∀ s, (d'.book.queue s).Ordered (.ofResting s)
  dormant : ∀ s, (d'.book.stopLossQueue s).Ordered (.ofStopLoss s)
  resting_bag : ∀ s, (d'.book.queue s).bag = d.items (rs.filter (d.Joins s)) + (d.book.queue s).bag
  dormant_bag : ∀ s, (d'.book.stopLossQueue s).bag =
    d.items (rs.filter (d.Sleeps s)) + (d.book.stopLossQueue s).bag
  stock : ∃ taken, taken.Sublist rs ∧ d'.book.stock = d.items taken + d.book.stock

namespace Loaded

theorem refl (h : Twin lax 0 hand d d) : Loaded d [] d where
  office := rfl
  header := rfl
  ledger := .refl _
  ordered s := (h.queue s).ordered
  dormant s := (h.dormant s).ordered
  resting_bag _ := (zero_add _).symm
  dormant_bag _ := (zero_add _).symm
  stock := ⟨[], .refl _, (zero_add _).symm⟩

/-- Loading changes no order. -/
theorem order (h : Loaded d rs d₁) : d₁.order = d.order := by
  unfold Desk.order
  rw [h.office]

/-- A closed order is passed over. -/
theorem skip (h : Loaded d rs d₁) (hr : (d.order r).closed = true) : Loaded d (r :: rs) d₁ where
  office := h.office
  header := h.header
  ledger := by
    rw [List.filter_cons_of_neg (by simp [Appears, Order.isOpen, hr])]
    exact h.ledger
  ordered := h.ordered
  dormant := h.dormant
  resting_bag s := by
    rw [List.filter_cons_of_neg (by simp [Joins, hr])]
    exact h.resting_bag s
  dormant_bag s := by
    rw [List.filter_cons_of_neg (by simp [Sleeps, hr])]
    exact h.dormant_bag s
  stock := by
    obtain ⟨taken, hsub, hstock⟩ := h.stock
    exact ⟨taken, hsub.cons _, hstock⟩

/-- A further order that is taken comes into the stock. -/
theorem stock_cons (h : Loaded d rs d₁) (hstock : d₂.book.stock =
    {.ofOrder r (d₁.order r)} + d₁.book.stock) :
    ∃ taken, taken.Sublist (r :: rs) ∧ d₂.book.stock = d.items taken + d.book.stock := by
  obtain ⟨taken, hsub, htaken⟩ := h.stock
  refine ⟨r :: taken, hsub.cons_cons _, ?_⟩
  rw [hstock, htaken, h.order, ← add_assoc]
  rfl

/-- A stop-loss is put aside. -/
theorem park (h : Loaded d rs d₁) (hr : (d.order r).closed = false)
    (ht : (d.order r).type = .stopLoss) : Loaded d (r :: rs) (d₁.parked r) where
  office := h.office
  header := (Book.header_withStopLossQueue ..).trans h.header
  ledger := by
    rw [List.filter_cons_of_neg (by simp [Appears, ht])]
    exact (Book.ledger_withStopLossQueue ..).symm ▸ h.ledger
  ordered s := (Book.queue_withStopLossQueue ..).symm ▸ h.ordered s
  dormant s := by
    rw [stopLossQueue_parked]
    split
    · exact (h.dormant s).pushItem _
    · exact h.dormant s
  resting_bag s := by
    rw [List.filter_cons_of_neg (by simp [Joins, ht])]
    exact (Book.queue_withStopLossQueue ..).symm ▸ h.resting_bag s
  dormant_bag s := by
    rw [stopLossQueue_parked, h.order, List.filter_cons]
    by_cases hs : (d.order r).side = s
    · rw [if_pos hs, if_pos (by simp [Sleeps, hr, ht, hs]), Queue.push, Queue.bag_pushItem,
        h.dormant_bag]
      rfl
    · rw [if_neg hs, if_neg (by simp [Sleeps, hs])]
      exact h.dormant_bag s
  stock := h.stock_cons (stock_parked d₁ r)

/-- Any other order rests, and is shown if it is open. -/
theorem rest (h : Loaded d rs d₁) (hr : (d.order r).closed = false)
    (ht : (d.order r).type ≠ .stopLoss) {l : Ledger}
    (hl : d.book.ledger.Shows (((r :: rs).filter d.Appears).map fun r => .ofOrder (d.order r)) l) :
    Loaded d (r :: rs) (d₁.rested (d.order r).side r l) where
  office := h.office
  header := (Book.header_withQueue ..).trans h.header
  ledger := hl
  ordered s := by
    rw [queue_rested]
    split
    · next hs => exact hs ▸ (h.ordered _).pushItem _
    · exact h.ordered s
  dormant s := by
    rw [stopLossQueue_rested]
    exact h.dormant s
  resting_bag s := by
    rw [queue_rested, List.filter_cons, h.order]
    by_cases hs : (d.order r).side = s
    · rw [if_pos hs, if_pos (by simp [Joins, hr, ht, hs]), Queue.push, Queue.bag_pushItem, hs,
        h.resting_bag]
      rfl
    · rw [if_neg hs, if_neg (by simp [Joins, hs])]
      exact h.resting_bag s
  dormant_bag s := by
    rw [List.filter_cons_of_neg (by simp [Sleeps, ht]), stopLossQueue_rested]
    exact h.dormant_bag s
  stock := h.stock_cons (stock_rested d₁ _ r l)

/-- An order is loaded whose number no other loaded order has. -/
theorem ends_load (h : Loaded d rs s.state) (hid : ∀ r' ∈ rs, (d.order r').id ≠ (d.order r).id) :
    Ends (load (d.order r).side r) s (fun answer t => answer = .ok () ∧ Loaded d (r :: rs) t.state)
      (fun _ _ => True) := by
  simp only [load, checkSide, ends_bind, ends_current, ends_pure, h.order, if_true]
  cases hclosed : (d.order r).closed with
  | true =>
    simp only [if_true, ends_bind, ends_log, ends_pure]
    exact ⟨trivial, h.skip hclosed⟩
  | false =>
    simp only [Bool.false_eq_true, if_false, loadOld, ends_bind, ends_current, ends_pure, h.order]
    split
    · next ht => exact ends_parkStopLoss fun _ => ⟨trivial, h.park hclosed ht⟩
    · next ht =>
      have hnone : s.state.book.ledger.find? (d.order r).id =
          d.book.ledger.find? (d.order r).id := by
        rw [h.ledger.find?, List.find?_eq_none.2, Option.none_or]
        intro e he
        obtain ⟨r', hr', rfl⟩ := List.mem_map.1 he
        exact fun heq => hid r' (List.mem_of_mem_filter hr') (of_decide_eq_true heq)
      simp only [Desk.rest, ends_bind, ends_current, ends_changeQueue, ends_onLedger,
        Book.ledger_withQueue, h.order]
      refine (h.ledger.ends_add (s := ⟨s.state.book.ledger, s.journal⟩)).imp
        (fun _ t hl => ⟨trivial, ?_⟩)
      have hfilter : (if (d.order r).isOpen && (s.state.book.ledger.find? (d.order r).id).isNone
          then Shown.ofOrder (d.order r) :: (rs.filter d.Appears).map fun r => .ofOrder (d.order r)
          else (rs.filter d.Appears).map fun r => .ofOrder (d.order r)) =
          ((r :: rs).filter d.Appears).map fun r => .ofOrder (d.order r) := by
        rw [List.filter_cons, hnone]
        have hap : d.Appears r = ((d.order r).isOpen &&
            (d.book.ledger.find? (d.order r).id).isNone) := by simp [Appears, ht]
        rw [hap]
        split <;> rfl
      have hrest := h.rest hclosed ht (hfilter ▸ hl)
      rw [rested, h.order] at hrest
      exact hrest

/-- In whatever order they were loaded, the desks are twins. -/
theorem twin (h : Loaded d rs d₁) (h' : Loaded d rs' d₂) (hperm : rs.Perm rs')
    (ht : Twin lax 0 ((rs.map fun r => (d.order r).id : List OrderId) + hand) d d) :
    Twin lax 0 hand d₁ d₂ where
  office := h'.office.trans h.office.symm
  header := h'.header.trans h.header.symm
  ledger := by
    refine h.ledger.alike h'.ledger ((hperm.filter _).map _) ?_
    rw [List.map_map]
    have hnumbers := (Multiset.nodup_of_le (Multiset.le_add_left _ _)
      (Multiset.nodup_of_le (Multiset.le_add_right _ _) (add_assoc _ _ hand ▸ ht.distinct)))
    exact (Multiset.coe_nodup.1 hnumbers).sublist (List.filter_sublist.map _)
  queue s := by
    refine ⟨h.ordered s, h'.ordered s, 0, ?_, fun i hi => absurd hi (Multiset.notMem_zero i)⟩
    rw [zero_add, h.resting_bag, h'.resting_bag]
    exact congrArg (· + _) (Multiset.coe_eq_coe.2 ((hperm.filter _).map _))
  dormant s := by
    refine ⟨h.dormant s, h'.dormant s, 0, ?_, fun i hi => absurd hi (Multiset.notMem_zero i)⟩
    rw [zero_add, h.dormant_bag, h'.dormant_bag]
    exact congrArg (· + _) (Multiset.coe_eq_coe.2 ((hperm.filter _).map _))
  ids i hi := by
    obtain ⟨taken, -, hstock⟩ := h.stock
    rw [add_zero, hstock, Multiset.mem_add] at hi
    rw [h.order]
    rcases hi with hi | hi
    · obtain ⟨r, -, rfl⟩ := List.mem_map.1 hi
      rfl
    · exact ht.ids i ((add_zero d.book.stock).symm ▸ hi)
  distinct := by
    obtain ⟨taken, hsub, hstock⟩ := h.stock
    refine Multiset.nodup_of_le ?_ ht.distinct
    rw [add_zero, add_zero, hstock, Multiset.map_add, ← add_assoc, add_comm (Multiset.map _ _)]
    refine add_le_add_left (add_le_add_right (Multiset.coe_le.2 ?_) _) _
    rw [items, List.map_map]
    exact (hsub.map _).subperm

end Loaded

end Desk

end Bourse
