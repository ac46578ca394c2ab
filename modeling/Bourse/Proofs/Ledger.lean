import Bourse.Ledger
import Bourse.Proofs.Depth.Market
import Mathlib.Algebra.Order.BigOperators.Group.List
import Mathlib.Algebra.Order.Group.Nat
import Mathlib.Data.List.Nodup

/-!
# The ledger and its market depth

A ledger is `Balanced` when market depth holds at each price what the shown orders contribute there
(`Ledger.shownAt`), each number is shown once, and the pending differences are those from levels of
an earlier reading. As long as what is shown at each price fits in 63 bits, showing, reducing and
withdrawing an order keep the balance and break nothing off; what they do to the shown orders is
said by `ends_add`, `ends_reduce` and `ends_withdraw`.

Whatever a ledger holds, nothing but an overflow of depth breaks it off (`breaks_add` and so on).
-/

namespace Bourse

/-- What a shown order contributes to the level at a price of a side. -/
def Shown.showsAt (e : Shown) (s : Side) (p : Price) : Nat :=
  if e.isMarket = false ∧ e.side = s ∧ e.price.Same p then e.quantity.toNat else 0

/-- An entry shows no more at a price than it shows. -/
theorem Shown.showsAt_le (e : Shown) (s : Side) (p : Price) :
    e.showsAt s p ≤ e.quantity.toNat := by
  unfold showsAt
  split <;> omega

namespace Ledger

open Bourse.Action

variable {s : Logged Ledger} {id : OrderId} {q : Quantity} {o : Order} {e : Shown}

/-- What the shown orders contribute to the level at a price of a side. -/
def shownAt (shown : List Shown) (s : Side) (p : Price) : Nat := (shown.map (·.showsAt s p)).sum

/-- What the shown orders have left together. -/
def total (shown : List Shown) : Nat := (shown.map (·.quantity.toNat)).sum

/-- No more is shown at a price than in all. -/
theorem shownAt_le_total (shown : List Shown) (s : Side) (p : Price) :
    shownAt shown s p ≤ total shown := by
  unfold shownAt total
  induction shown with
  | nil => exact le_rfl
  | cons e rest ih =>
    rw [List.map_cons, List.sum_cons, List.map_cons, List.sum_cons]
    exact Nat.add_le_add (e.showsAt_le s p) ih

/-- If all that is shown fits with so much more, so does every level. -/
theorem fits_of_total {shown : List Shown} {n m : Nat} (h : total shown + n < m)
    (s : Side) (p : Price) : shownAt shown s p + n < m :=
  Nat.lt_of_le_of_lt (Nat.add_le_add_right (shownAt_le_total shown s p) n) h

/-- What is shown at a price does not depend on the order of the entries. -/
theorem shownAt_perm {l l' : List Shown} (h : l.Perm l') (s : Side) (p : Price) :
    shownAt l s p = shownAt l' s p := (h.map _).sum_eq

/-- What is shown in all does not depend on the order of the entries. -/
theorem total_perm {l l' : List Shown} (h : l.Perm l') : total l = total l' := (h.map _).sum_eq

@[simp] theorem shownAt_cons (e : Shown) (l : List Shown) (s : Side) (p : Price) :
    shownAt (e :: l) s p = e.showsAt s p + shownAt l s p := rfl

@[simp] theorem total_cons (e : Shown) (l : List Shown) :
    total (e :: l) = e.quantity.toNat + total l := rfl

/-- A level holds what the orders at its price show. -/
theorem shownAt_eq_total (shown : List Shown) (s : Side) (p : Price) :
    shownAt shown s p =
      total (shown.filter fun e => e.isMarket = false ∧ e.side = s ∧ e.price.Same p) := by
  induction shown with
  | nil => rfl
  | cons e rest ih =>
    rw [shownAt_cons, ih, Shown.showsAt, List.filter_cons]
    split
    · next h => rw [if_pos (by simpa using h), total_cons]
    · next h => rw [if_neg (by simpa using h), Nat.zero_add]

/-- Market depth holds what the shown orders contribute, and the pending differences lead there
from the levels of an earlier reading. -/
structure Balanced (l : Ledger) : Prop where
  distinct : (l.shown.map (·.id)).Nodup
  held : ∀ s p, l.depth.held s p = shownAt l.shown s p
  change : ∃ base : Side → Price → Nat, ∀ s p, base s p < 2 ^ 63 ∧
    l.depth.change s p = shownAt l.shown s p - base s p

/-- A ledger that shows nothing is balanced. -/
theorem balanced_empty (i : InstrumentId) (history : Nat) : (empty i history).Balanced := by
  have hzero : ∀ s p, (MarketDepth.empty i history).held s p = 0 ∧
      (MarketDepth.empty i history).change s p = 0 := fun s p => by cases s <;> exact ⟨rfl, rfl⟩
  exact ⟨List.nodup_nil, fun s p => (hzero s p).1, fun _ _ => 0,
    fun s p => ⟨Nat.two_pow_pos 63, (hzero s p).2⟩⟩

/-! ## Entries -/

/-- Of elements with different keys the one with a key is found in whatever order they are. -/
theorem find?_key_perm {α κ : Type} [DecidableEq κ] {key : α → κ} {l l' : List α} (h : l.Perm l')
    (hd : (l.map key).Nodup) (k : κ) :
    (l'.find? fun a => key a = k) = l.find? fun a => key a = k := by
  have hd' : (l'.map key).Nodup := (h.map _).nodup_iff.1 hd
  cases ha : l.find? fun a => key a = k with
  | none =>
    rw [List.find?_eq_none] at ha ⊢
    exact fun a hmem => ha a (h.mem_iff.2 hmem)
  | some a =>
    have hmem := h.mem_iff.1 (List.mem_of_find?_eq_some ha)
    have hkey := List.find?_some ha
    cases ha' : l'.find? fun a => key a = k with
    | none => exact absurd hkey (List.find?_eq_none.1 ha' a hmem)
    | some a' =>
      have hkey' := List.find?_some ha'
      rw [decide_eq_true_eq] at hkey hkey'
      rw [List.inj_on_of_nodup_map hd' (List.mem_of_find?_eq_some ha') hmem
        (hkey'.trans hkey.symm)]

/-- What is found is an entry of the number. -/
theorem mem_of_find? {l : Ledger} (h : l.find? id = some e) : e ∈ l.shown ∧ e.id = id :=
  ⟨List.mem_of_find?_eq_some h, by simpa using List.find?_some h⟩

/-- Nothing is found of a number that no entry has. -/
theorem find?_eq_none {l : Ledger} : l.find? id = none ↔ ∀ e ∈ l.shown, e.id ≠ id := by
  unfold find?
  rw [List.find?_eq_none]
  simp

/-- Without a number the entries of other numbers stay. -/
theorem mem_without {shown : List Shown} : e ∈ without id shown ↔ e ∈ shown ∧ e.id ≠ id := by
  unfold without
  rw [List.mem_filter]
  simp

/-- Without a number that no entry has all entries stay. -/
theorem without_eq_self {l : Ledger} (h : l.find? id = none) : without id l.shown = l.shown :=
  List.filter_eq_self.2 fun e he => by simpa using find?_eq_none.1 h e he

/-- A ledger is an entry and the others. -/
theorem perm_cons_without {l : Ledger} (hd : (l.shown.map (·.id)).Nodup)
    (h : l.find? id = some e) : l.shown.Perm (e :: without id l.shown) := by
  obtain ⟨he, rfl⟩ := mem_of_find? h
  have herase : without e.id l.shown = l.shown.erase e := by
    rw [List.Nodup.erase_eq_filter (List.Nodup.of_map _ hd)]
    refine List.filter_congr ?_
    intro e' he'
    have hinj := List.inj_on_of_nodup_map hd he' he
    by_cases heq : e' = e
    · simp [heq]
    · have hid : e'.id ≠ e.id := fun hid => heq (hinj hid)
      simp [heq, hid]
  rw [herase]
  exact List.perm_cons_erase he

/-- Numbers stay distinct without one of them. -/
theorem nodup_without {shown : List Shown} (h : (shown.map (·.id)).Nodup) (id : OrderId) :
    ((without id shown).map (·.id)).Nodup :=
  h.sublist (List.filter_sublist.map _)

/-- A new entry is found under its number, and the others as before. -/
theorem find?_cons (l : Ledger) (e : Shown) (shown : List Shown) (id : OrderId) :
    Ledger.find? { l with shown := e :: shown } id =
      if e.id = id then some e else Ledger.find? { l with shown } id := by
  unfold find?
  rw [List.find?_cons]
  by_cases h : e.id = id <;> simp [h]

/-- Without a number nothing is found under it, and the others as before. -/
theorem find?_without (l : Ledger) (id id' : OrderId) :
    Ledger.find? { l with shown := without id l.shown } id' =
      if id = id' then none else l.find? id' := by
  unfold find? without
  rw [List.find?_filter]
  split
  · next h =>
    rw [List.find?_eq_none]
    intro e _ he
    simp only [decide_eq_true_eq] at he
    exact he.1 (he.2.trans h.symm)
  · next h =>
    congr 1
    funext e
    by_cases he : e.id = id'
    · simp [he, Ne.symm h]
    · simp [he]

/-- What is shown after an order was shown. -/
def added (o : Order) (l : Ledger) : List Shown :=
  if o.isOpen && (l.find? o.id).isNone then .ofOrder o :: l.shown else l.shown

/-- An open order that is not shown is shown first from now on. -/
theorem added_of_new {l : Ledger} (ho : o.isOpen = true) (h : l.find? o.id = none) :
    added o l = .ofOrder o :: l.shown := by
  rw [added, ho, h]
  rfl

/-- What is shown after a traded quantity was taken off an order. -/
def reduced (id : OrderId) (q : Quantity) (l : Ledger) : List Shown :=
  match l.find? id with
  | none => l.shown
  | some e =>
    if e.quantity.toNat ≤ q.toNat then without id l.shown
    else { e with quantity := e.quantity.monus q } :: without id l.shown

/-- An entry that is reduced shows the rest, and goes if there is none. -/
theorem mem_reduced {l : Ledger} (hd : (l.shown.map (·.id)).Nodup) : e ∈ reduced id q l ↔
    (e ∈ l.shown ∧ e.id ≠ id) ∨ ∃ e' ∈ l.shown, e'.id = id ∧ q.toNat < e'.quantity.toNat ∧
      e = { e' with quantity := e'.quantity.monus q } := by
  unfold reduced
  cases he : l.find? id with
  | none =>
    have hnone := find?_eq_none.1 he
    exact ⟨fun hmem => .inl ⟨hmem, hnone e hmem⟩,
      fun hmem => hmem.elim (·.1) fun ⟨e', he', hid, _⟩ => absurd hid (hnone e' he')⟩
  | some e₀ =>
    obtain ⟨hmem₀, hid₀⟩ := mem_of_find? he
    -- the entry is the only one of its number
    have honly : ∀ e' ∈ l.shown, e'.id = id → e' = e₀ := fun e' he' hid =>
      List.inj_on_of_nodup_map hd he' hmem₀ (hid.trans hid₀.symm)
    dsimp only
    split
    · next hle =>
      rw [mem_without, or_iff_left]
      rintro ⟨e', he', hid, hlt, -⟩
      rw [honly e' he' hid] at hlt
      omega
    · next hlt =>
      rw [List.mem_cons, mem_without, or_comm]
      refine or_congr_right ⟨fun heq => ⟨e₀, hmem₀, hid₀, by omega, heq⟩, ?_⟩
      rintro ⟨e', he', hid, -, rfl⟩
      rw [honly e' he' hid]

/-- What is found after a traded quantity was taken off a shown order. -/
theorem find?_reduced {l l' : Ledger} (he : l.find? id = some e) (h : l'.shown = reduced id q l)
    (id' : OrderId) : l'.find? id' = if id = id' then
      if e.quantity.toNat ≤ q.toNat then none else some { e with quantity := e.quantity.monus q }
      else l.find? id' := by
  have hfind : l'.find? id' = Ledger.find? { l with shown := reduced id q l } id' := by
    unfold find?
    rw [h]
  have hid : e.id = id := (mem_of_find? he).2
  rw [hfind, reduced, he]
  dsimp only
  by_cases hle : e.quantity.toNat ≤ q.toNat
  · rw [if_pos hle, if_pos hle, find?_without]
  · rw [if_neg hle, if_neg hle, find?_cons, find?_without, hid]
    split <;> rfl

/-- What is found of any order after a traded quantity was taken off one. -/
theorem find?_of_reduced {l l' : Ledger} (h : l'.shown = reduced id q l) (id' : OrderId) :
    l'.find? id' = if id = id' then (l.find? id).bind fun e =>
      if e.quantity.toNat ≤ q.toNat then none else some { e with quantity := e.quantity.monus q }
      else l.find? id' := by
  cases he : l.find? id with
  | some e => exact find?_reduced he h id'
  | none =>
    have hsame : l'.find? id' = l.find? id' := by
      unfold find?
      rw [h, reduced, he]
    rw [hsame]
    split
    · next hid => exact hid ▸ he
    · rfl

/-- Reducing an entry shows no more in all. -/
theorem total_reduced_le {l : Ledger} (hd : (l.shown.map (·.id)).Nodup) (id : OrderId)
    (q : Quantity) : total (reduced id q l) ≤ total l.shown := by
  unfold reduced
  cases he : l.find? id with
  | none => exact le_rfl
  | some e =>
    have htotal := total_perm (perm_cons_without hd he)
    rw [total_cons] at htotal
    dsimp only
    split
    · omega
    · rw [total_cons, Quantity.toNat_monus]
      omega

/-- Without an entry no more is shown in all. -/
theorem total_without_le (shown : List Shown) (id : OrderId) :
    total (without id shown) ≤ total shown :=
  (List.filter_sublist.map _).sum_le_sum fun _ _ => Nat.zero_le _

/-! ## Balance -/

/-- A report is about what is shown, and does not change it. -/
theorem shown_report (r : Report) : Ends (report r) s (fun _ t => t.state.shown = s.state.shown)
    (fun _ t => t.state.shown = s.state.shown) := by
  simp only [report, ends_bind, ends_change, ends_within]
  exact Ends.any _ _

/-- A report that moves depth as the shown orders moved keeps the balance. -/
theorem Balanced.of_moved {l : Ledger} {d : MarketDepth} {shown : List Shown} {r : Array Report}
    {side : Side} {p : Price} {n : Int} (h : l.Balanced) (hd : (shown.map (·.id)).Nodup)
    (hm : MarketDepth.Moved l.depth d side p n)
    (hn : ∀ s' p', (shownAt shown s' p' : Int) =
      shownAt l.shown s' p' + if side = s' ∧ p.Same p' then n else 0) :
    Balanced ⟨shown, d, r⟩ := by
  obtain ⟨base, hbase⟩ := h.change
  refine ⟨hd, ?_, base, fun s' p' => ⟨(hbase s' p').1, ?_⟩⟩
  · intro s' p'
    have := hm.held s' p'
    have := hn s' p'
    have := h.held s' p'
    show d.held s' p' = shownAt shown s' p'
    omega
  · have := hm.change s' p'
    have := hn s' p'
    have := (hbase s' p').2
    show d.change s' p' = shownAt shown s' p' - base s' p'
    omega

/-- Showing an order keeps the balance, as long as its level has room. -/
theorem ends_add (h : s.state.Balanced)
    (hfit : o.isOpen = true → s.state.find? o.id = none → o.isMarket = false →
      shownAt s.state.shown o.side o.price + o.unfulfilled.toNat < 2 ^ 63) :
    Ends (add o) s
      (fun _ t => t.state.Balanced ∧ t.state.shown = added o s.state ∧ t.journal = s.journal)
      (fun _ _ => False) := by
  simp only [add, added, ends_bind, ends_current]
  split
  · next hnew =>
    rw [Bool.and_eq_true, Option.isNone_iff_eq_none] at hnew
    have hroom := hfit hnew.1 hnew.2
    obtain ⟨base, hbase⟩ := h.change
    have hfrom := hbase o.side o.price
    simp only [report, ends_bind, ends_replace, ends_change, ends_within]
    refine (MarketDepth.ends_addOrder (s := ⟨s.state.depth, s.journal⟩) (fun hm => ?_)
      (fun hm => ?_) (fun hm => ?_)).imp (fun _ t ht => ⟨?_, trivial, ht.2⟩)
    · rw [h.held]
      exact Nat.lt_trans (hroom hm) (by decide)
    · exact Nat.lt_of_le_of_lt (Nat.le_add_left _ _) (hroom hm)
    · have := hroom hm
      unfold Delta.Fits
      show _ ≤ s.state.depth.change o.side o.price + (o.unfulfilled.toNat : Int) ∧
        s.state.depth.change o.side o.price + (o.unfulfilled.toNat : Int) < _
      omega
    · refine h.of_moved (List.nodup_cons.2 ⟨?_, h.distinct⟩) ht.1 ?_
      · intro hmem
        obtain ⟨e, he, hid⟩ := List.mem_map.1 hmem
        exact find?_eq_none.1 hnew.2 e he hid
      · intro s' p'
        rw [shownAt_cons]
        unfold Shown.showsAt Shown.ofOrder
        cases o.isMarket
        · by_cases hsp : o.side = s' ∧ o.price.Same p' <;> simp [hsp]; omega
        · simp
  · exact ⟨h, rfl, rfl⟩

/-- A shown order contributes at its own price, unless it takes any price. -/
theorem shownAt_of_find? {l : Ledger} (hd : (l.shown.map (·.id)).Nodup) (h : l.find? id = some e)
    (s : Side) (p : Price) :
    shownAt l.shown s p = e.showsAt s p + shownAt (without id l.shown) s p :=
  shownAt_perm (perm_cons_without hd h) s p

/-- A report of quantity that a shown order contributes is taken off its level. -/
theorem ends_report_close (h : s.state.Balanced)
    (hfit : ∀ side p, shownAt s.state.shown side p < 2 ^ 63)
    (he : s.state.find? id = some e) (hq : q.toNat ≤ e.quantity.toNat) {shown : List Shown}
    (hd : (shown.map (·.id)).Nodup)
    (hshown : ∀ s' p', shownAt shown s' p' + (if e.isMarket = false ∧ e.side = s' ∧ e.price.Same p'
      then q.toNat else 0) = shownAt s.state.shown s' p') :
    Ends (report (.close e.isMarket e.side e.price q)) ⟨{ s.state with shown }, s.journal⟩
      (fun _ t => t.state.Balanced ∧ t.state.shown = shown ∧ t.journal = s.journal)
      (fun _ _ => False) := by
  obtain ⟨base, hbase⟩ := h.change
  have hat := shownAt_of_find? h.distinct he e.side e.price
  have hroom := hfit e.side e.price
  have hfrom := hbase e.side e.price
  have hself : e.isMarket = false → e.showsAt e.side e.price = e.quantity.toNat :=
    fun hm => if_pos ⟨hm, rfl, rfl⟩
  -- the level holds what is taken off, so the close is not beyond it
  have hle : e.isMarket = false → q.toNat ≤ s.state.depth.held e.side e.price := by
    intro hm
    have := hself hm
    rw [h.held]
    omega
  simp only [report, ends_bind, ends_change, ends_within]
  refine (MarketDepth.ends_closeOrder (s := ⟨s.state.depth, s.journal⟩) (fun hm => ?_)
    (fun hm => ?_)).imp (fun _ t ht => ⟨h.of_moved hd ht.1 ?_, trivial, ht.2 hle⟩)
  · have := h.held e.side e.price
    exact Nat.lt_of_le_of_lt (Nat.min_le_right _ _) (this ▸ hroom)
  · have := hself hm
    rw [Nat.min_eq_left (hle hm)]
    unfold Delta.Fits
    show _ ≤ s.state.depth.change e.side e.price - (q.toNat : Int) ∧
      s.state.depth.change e.side e.price - (q.toNat : Int) < _
    omega
  · intro s' p'
    have hoff := hshown s' p'
    cases hm : e.isMarket with
    | false =>
      rw [Nat.min_eq_left (hle hm)]
      simp only [hm, true_and] at hoff
      by_cases hsp : e.side = s' ∧ e.price.Same p' <;> simp [hsp] at hoff ⊢ <;> omega
    | true => simp_all

/-- A traded quantity is taken off what its order contributes, up to all of it. -/
theorem shownAt_reduced {l : Ledger} (hd : (l.shown.map (·.id)).Nodup) (he : l.find? id = some e)
    (s : Side) (p : Price) : shownAt (reduced id q l) s p +
      (if e.isMarket = false ∧ e.side = s ∧
        e.price.Same p then min q.toNat e.quantity.toNat else 0) = shownAt l.shown s p := by
  rw [shownAt_of_find? hd he]
  unfold reduced Shown.showsAt
  rw [he]
  dsimp only
  split
  · split <;> omega
  · simp only [shownAt_cons, Shown.showsAt, Quantity.toNat_monus]
    split <;> omega

/-- Numbers stay distinct as an entry is reduced. -/
theorem nodup_reduced {l : Ledger} (hd : (l.shown.map (·.id)).Nodup) :
    ((reduced id q l).map (·.id)).Nodup := by
  have hw := nodup_without hd id
  unfold reduced
  split
  · exact hd
  · next e he =>
    split
    · exact hw
    · refine List.nodup_cons.2 ⟨?_, hw⟩
      intro hmem
      obtain ⟨e', he', hid⟩ := List.mem_map.1 hmem
      exact (mem_without.1 he').2 (hid.trans (mem_of_find? he).2)

/-- What is in the journal after a traded quantity was taken off. -/
def reducedJournal (id : OrderId) (q : Quantity) (l : Ledger) (journal : Array Event) :
    Array Event :=
  match l.find? id with
  | none => journal
  | some e =>
    if q.toNat ≤ e.quantity.toNat then journal
    else journal.push (.tradeExceedsShown id e.side e.price q e.quantity)

/-- An order that shows as much as was traded gives no event. -/
theorem reducedJournal_eq_self {l : Ledger} {journal : Array Event}
    (h : ∀ e, l.find? id = some e → q.toNat ≤ e.quantity.toNat) :
    reducedJournal id q l journal = journal := by
  unfold reducedJournal
  split
  · rfl
  · next e he => exact if_pos (h e he)

/-- Taking a traded quantity off a shown order keeps the balance. The answer is what the order does
not show of it, and there is an event just in case that is something. -/
theorem ends_reduce (h : s.state.Balanced)
    (hfit : ∀ side p, shownAt s.state.shown side p < 2 ^ 63) : Ends (reduce id q) s
      (fun excess t => t.state.Balanced ∧ t.state.shown = reduced id q s.state ∧
        t.journal = reducedJournal id q s.state s.journal ∧
        ∀ e, s.state.find? id = some e → excess.toNat = q.toNat - e.quantity.toNat)
      (fun _ _ => False) := by
  simp only [reduce, ends_bind, ends_current]
  cases he : s.state.find? id with
  | none => exact ⟨h, by rw [reduced, he], by rw [reducedJournal, he], nofun⟩
  | some e =>
    have hleft := Quantity.monus_min e.quantity q
    have hzero : (e.quantity.monus q).isZero = true ↔ e.quantity.toNat ≤ q.toNat := by
      rw [Quantity.isZero_iff, Quantity.toNat_monus]
      omega
    have hexcess : (q.monus (min q e.quantity)).toNat = q.toNat - e.quantity.toNat := by
      rw [Quantity.toNat_monus, Quantity.toNat_min]
      omega
    have hreduced : reduced id q s.state = if e.quantity.toNat ≤ q.toNat then
        without id s.state.shown
        else { e with quantity := e.quantity.monus q } :: without id s.state.shown := by
      rw [reduced, he]
    have hreport : ∀ j, Ends (report (.close e.isMarket e.side e.price (min q e.quantity)))
        ⟨{ s.state with shown := reduced id q s.state }, j⟩
        (fun _ t => t.state.Balanced ∧ t.state.shown = reduced id q s.state ∧ t.journal = j)
        (fun _ _ => False) := fun j =>
      ends_report_close (s := ⟨s.state, j⟩) h hfit he (by simp) (nodup_reduced h.distinct)
        fun s' p' => Quantity.toNat_min q e.quantity ▸ shownAt_reduced h.distinct he s' p'
    simp only [hleft, hzero, ← hreduced]
    split
    · next hsome =>
      rw [Bool.not_eq_true', Quantity.isZero_eq_false_iff, hexcess] at hsome
      simp only [ends_log, ends_bind, ends_replace]
      refine (hreport _).imp (fun _ t ht => ⟨ht.1, ht.2.1, ht.2.2.trans ?_, ?_⟩)
      · rw [reducedJournal, he]
        exact (if_neg (by omega)).symm
      · rintro _ ⟨⟩
        exact hexcess
    · next hnone =>
      rw [Bool.not_eq_true, Bool.not_eq_false', Quantity.isZero_iff, hexcess] at hnone
      simp only [ends_bind, ends_replace]
      refine (hreport _).imp (fun _ t ht => ⟨ht.1, ht.2.1, ht.2.2.trans ?_, ?_⟩)
      · rw [reducedJournal, he]
        exact (if_pos (by omega)).symm
      · rintro _ ⟨⟩
        exact hexcess

/-- Taking off what an order still shows keeps the balance. -/
theorem ends_withdraw (h : s.state.Balanced)
    (hfit : ∀ side p, shownAt s.state.shown side p < 2 ^ 63) :
    Ends (withdraw id) s
      (fun _ t => t.state.Balanced ∧ t.state.shown = without id s.state.shown ∧
        t.journal = s.journal)
      (fun _ _ => False) := by
  simp only [withdraw, ends_bind, ends_current]
  cases he : s.state.find? id with
  | none => exact ⟨h, (without_eq_self he).symm, rfl⟩
  | some e =>
    simp only [ends_bind, ends_replace]
    refine ends_report_close h hfit he le_rfl (nodup_without h.distinct id) ?_
    intro s' p'
    rw [shownAt_of_find? h.distinct he, Nat.add_comm]
    rfl

/-- Reporting a trade keeps the balance. -/
theorem ends_recordTrade {tr : Trade} (h : s.state.Balanced) :
    Ends (recordTrade tr) s
      (fun _ t => t.state.Balanced ∧ t.state.shown = s.state.shown ∧ t.journal = s.journal)
      (fun _ _ => False) := by
  simp only [recordTrade, report, ends_bind, ends_change, ends_within]
  refine (MarketDepth.ends_addTrade (s := ⟨s.state.depth, s.journal⟩) .ask tr.price).imp
    (fun _ t ht => ⟨h.of_moved h.distinct ht.1 ?_, trivial, ht.2⟩)
  intro s' p'
  simp

/-! ## What is shown -/

/-- An order is shown even if market depth breaks off on it. -/
theorem shown_add (o : Order) : Ends (add o) s (fun _ t => t.state.shown = added o s.state)
    (fun _ t => t.state.shown = added o s.state) := by
  simp only [add, added, ends_bind, ends_current]
  split
  · exact shown_report _
  · exact rfl

/-- Withdrawing an order takes it off, even if market depth breaks off on it. -/
theorem shown_withdraw : Ends (withdraw id) s (fun _ t => t.state.shown = without id s.state.shown)
    (fun _ t => t.state.shown = without id s.state.shown) := by
  simp only [withdraw, ends_bind, ends_current]
  cases he : s.state.find? id with
  | none => exact (without_eq_self he).symm
  | some e =>
    simp only [ends_bind, ends_replace]
    exact shown_report (s := ⟨{ s.state with shown := without id s.state.shown }, s.journal⟩) _

/-- A traded quantity is taken off what is shown, even if market depth breaks off on it. -/
theorem shown_reduce : Ends (reduce id q) s (fun _ t => t.state.shown = reduced id q s.state)
    (fun _ t => t.state.shown = reduced id q s.state) := by
  simp only [reduce, ends_bind, ends_current]
  cases he : s.state.find? id with
  | none => exact (show s.state.shown = reduced id q s.state by rw [reduced, he])
  | some e =>
    have hshown :
        (if (e.quantity.monus (min q e.quantity)).isZero = true then without id s.state.shown
          else { e with quantity := e.quantity.monus (min q e.quantity) } ::
            without id s.state.shown) = reduced id q s.state := by
      rw [Quantity.monus_min, reduced, he]
      refine if_congr ?_ rfl rfl
      rw [Quantity.isZero_iff, Quantity.toNat_monus]
      omega
    simp only [hshown]
    split
    · simp only [ends_log, ends_bind, ends_replace]
      exact shown_report (s := ⟨{ s.state with shown := reduced id q s.state }, _⟩) _
    · simp only [ends_bind, ends_replace]
      exact shown_report (s := ⟨{ s.state with shown := reduced id q s.state }, _⟩) _

/-- Reporting a trade shows nothing else than before. -/
theorem shown_recordTrade {tr : Trade} : Ends (recordTrade tr) s
    (fun _ t => t.state.shown = s.state.shown) (fun _ t => t.state.shown = s.state.shown) :=
  shown_report _

/-! ## What is told of trades -/

/-- What is no trade is not told. -/
theorem feed_report {r : Report} (hr : ∀ tick, r ≠ .trade tick) :
    Ends (report r) s (fun _ t => t.state.depth.feed = s.state.depth.feed)
      (fun _ t => t.state.depth.feed = s.state.depth.feed) := by
  simp only [report, ends_bind, ends_change, ends_within]
  exact MarketDepth.feed_receive (s := ⟨s.state.depth, s.journal⟩) hr

/-- Showing an order tells nothing of trades. -/
theorem feed_add : Ends (add o) s (fun _ t => t.state.depth.feed = s.state.depth.feed)
    (fun _ t => t.state.depth.feed = s.state.depth.feed) := by
  simp only [add, ends_bind, ends_current]
  split
  · simp only [ends_bind, ends_replace]
    exact feed_report (s := ⟨{ s.state with shown := _ }, s.journal⟩) fun _ => nofun
  · rfl

/-- Withdrawing an order tells nothing of trades. -/
theorem feed_withdraw : Ends (withdraw id) s (fun _ t => t.state.depth.feed = s.state.depth.feed)
    (fun _ t => t.state.depth.feed = s.state.depth.feed) := by
  simp only [withdraw, ends_bind, ends_current]
  cases s.state.find? id with
  | none => exact rfl
  | some e =>
    simp only [ends_bind, ends_replace]
    exact feed_report (s := ⟨{ s.state with shown := _ }, s.journal⟩) fun _ => nofun

/-! ## Failures -/

/-- A report breaks off only by an overflow. -/
theorem breaks_report (r : Report) :
    Ends (report r) s (fun _ _ => True) (fun f _ => f.IsOverflow) := by
  simp only [report, ends_bind, ends_change, ends_within]
  exact MarketDepth.breaks_receive r

/-- Showing an order breaks off only by an overflow. -/
theorem breaks_add : Ends (add o) s (fun _ _ => True) (fun f _ => f.IsOverflow) := by
  simp only [add, ends_bind, ends_current]
  split
  · exact breaks_report _
  · trivial

/-- Taking a traded quantity off breaks off only by an overflow. -/
theorem breaks_reduce : Ends (reduce id q) s (fun _ _ => True) (fun f _ => f.IsOverflow) := by
  simp only [reduce, ends_bind, ends_current]
  split
  · trivial
  · split <;> simp only [ends_bind, ends_log, ends_replace] <;> exact breaks_report _

/-- Withdrawing an order breaks off only by an overflow. -/
theorem breaks_withdraw : Ends (withdraw id) s (fun _ _ => True) (fun f _ => f.IsOverflow) := by
  simp only [withdraw, ends_bind, ends_current]
  split
  · exact breaks_report _
  · trivial

/-- Reporting a trade breaks off only by an overflow. -/
theorem breaks_recordTrade {tr : Trade} :
    Ends (recordTrade tr) s (fun _ _ => True) (fun f _ => f.IsOverflow) :=
  breaks_report _

end Ledger

end Bourse
