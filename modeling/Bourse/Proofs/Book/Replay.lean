import Bourse.Source
import Mathlib.Algebra.Order.Ring.Int
import Mathlib.Data.List.Sort
import Mathlib.Data.Int.Order.Basic

/-!
# The trades that a restart replays

A source hands over up to so many most recent trades of an instrument, the newest first, and a book
sorts them by time again before it replays them. Sorting leaves trades of one moment in the order
they were recorded in (`filter_mergeSort`), and cutting off the end of the first list therefore
drops the trades recorded *last* of the moment at which the cut falls. What is left of a record in
order of time is said by `Remembered`.
-/

namespace Bourse

/-! ## Sorting by a key -/

section

variable {α : Type} (key : α → Int)

/-- Sorting by a key leaves elements of one key as they were. -/
theorem filter_mergeSort (l : List α) (k : Int) :
    (l.mergeSort fun a b => key a ≤ key b).filter (key · = k) = l.filter (key · = k) := by
  have htrans : ∀ a b c : α, decide (key a ≤ key b) = true → decide (key b ≤ key c) = true →
      decide (key a ≤ key c) = true := by
    simp only [decide_eq_true_eq]
    exact fun _ _ _ => Int.le_trans
  have htotal : ∀ a b : α, (decide (key a ≤ key b) || decide (key b ≤ key a)) = true := by
    simp only [Bool.or_eq_true, decide_eq_true_eq]
    exact fun a b => Int.le_total _ _
  have hsame : (l.filter (key · = k)).Pairwise fun a b => decide (key a ≤ key b) = true := by
    refine List.pairwise_of_forall_mem_list fun a ha b hb => ?_
    have ha := of_decide_eq_true (List.mem_filter.1 ha).2
    have hb := of_decide_eq_true (List.mem_filter.1 hb).2
    exact decide_eq_true (ha.trans hb.symm).le
  have hsub := List.sublist_mergeSort htrans htotal hsame List.filter_sublist
  have hfilter : (l.filter (key · = k)).Sublist
      ((l.mergeSort fun a b => key a ≤ key b).filter (key · = k)) := by
    simpa using hsub.filter (key · = k)
  exact (hfilter.eq_of_length ((List.mergeSort_perm l _).symm.filter _).length_eq).symm

/-- Of two lists sorted by a key, with the same elements of each key in the same order, the first
is the second. -/
theorem eq_of_filter_eq {l l' : List α} (h : l.Pairwise fun a b => key a ≤ key b)
    (h' : l'.Pairwise fun a b => key a ≤ key b)
    (hf : ∀ k, l.filter (key · = k) = l'.filter (key · = k)) : l = l' := by
  have hkey : ∀ {l l' : List α} {b : α}, (∀ k, l.filter (key · = k) = l'.filter (key · = k)) →
      b ∈ l' → b ∈ l := by
    intro l l' b hf hb
    have hmem : b ∈ l'.filter (key · = key b) := List.mem_filter.2 ⟨hb, decide_eq_true rfl⟩
    exact (List.mem_filter.1 (hf (key b) ▸ hmem)).1
  induction l generalizing l' with
  | nil => exact (List.eq_nil_iff_forall_not_mem.2 fun b hb => List.not_mem_nil (hkey hf hb)).symm
  | cons a l ih =>
    cases l' with
    | nil => exact absurd (hkey (fun k => (hf k).symm) List.mem_cons_self) List.not_mem_nil
    | cons b l' =>
      have hle : ∀ {a b : α} {l : List α}, (a :: l).Pairwise (fun a b => key a ≤ key b) →
          b ∈ a :: l → key a ≤ key b := by
        intro a b l hl hb
        rcases List.mem_cons.1 hb with rfl | hb
        · exact le_rfl
        · exact (List.pairwise_cons.1 hl).1 b hb
      have hab : key a = key b := le_antisymm (hle h (hkey hf List.mem_cons_self))
        (hle h' (hkey (fun k => (hf k).symm) List.mem_cons_self))
      have hhead : a = b := by
        have := hf (key a)
        rw [List.filter_cons, List.filter_cons, if_pos (decide_eq_true rfl),
          if_pos (decide_eq_true hab.symm)] at this
        exact (List.cons.inj this).1
      subst hhead
      refine congrArg (a :: ·)
        (ih (List.pairwise_cons.1 h).2 (List.pairwise_cons.1 h').2 fun k => ?_)
      have := hf k
      rw [List.filter_cons, List.filter_cons] at this
      split at this
      · exact (List.cons.inj this).2
      · exact this

/-- What sorting by a key gives. -/
theorem mergeSort_eq_of_filter_eq {l l' : List α} (h : l'.Pairwise fun a b => key a ≤ key b)
    (hf : ∀ k, l.filter (key · = k) = l'.filter (key · = k)) :
    (l.mergeSort fun a b => key a ≤ key b) = l' := by
  refine eq_of_filter_eq key ?_ h fun k => (filter_mergeSort key l k).trans (hf k)
  refine (List.pairwise_mergeSort ?_ ?_ l).imp of_decide_eq_true
  · simp only [decide_eq_true_eq]
    exact fun _ _ _ => Int.le_trans
  · simp only [Bool.or_eq_true, decide_eq_true_eq]
    exact fun a b => Int.le_total _ _

end

/-! ## Trades in order of time -/

/-- When the trade was made. -/
def Trade.moment (t : Trade) : Int := t.createdAt.millis.toInt

/-- Trades are made in the order of their moments. -/
theorem Trade.createdAt_le_iff {a b : Trade} : a.createdAt ≤ b.createdAt ↔ a.moment ≤ b.moment :=
  Int64.le_iff_toInt_le

/-- The trades were recorded in order of time. Several may be of one moment. -/
def InTime (trades : List Trade) : Prop := trades.Pairwise fun a b => a.moment ≤ b.moment

/-- What is left of recorded trades if all but so many are left out: the latest, but of the moment
at which the cut falls those that were recorded first. -/
inductive Remembered (count : Nat) : (trades kept : List Trade) → Prop
  | all {trades : List Trade} (fits : trades.length ≤ count) : Remembered count trades trades
  | cut {old tied lost new : List Trade} {m : Int} (before : ∀ t ∈ old, t.moment < m)
    (moment : ∀ t ∈ tied ++ lost, t.moment = m) (after : ∀ t ∈ new, m < t.moment)
    (length : (tied ++ new).length = count) :
    Remembered count (old ++ (tied ++ lost) ++ new) (tied ++ new)

/-- The cut does not fall between trades of one moment. -/
def Whole (count : Nat) (trades : List Trade) : Prop :=
  ∀ a ∈ trades.take (trades.length - count), ∀ b ∈ trades.drop (trades.length - count),
    a.moment < b.moment

variable {count : Nat} {trades kept : List Trade}

/-- If the cut falls between moments, what is kept are the last trades recorded. -/
theorem Remembered.eq_drop (h : Remembered count trades kept) (hwhole : Whole count trades) :
    kept = trades.drop (trades.length - count) := by
  cases h with
  | all fits => rw [Nat.sub_eq_zero_of_le fits, List.drop_zero]
  | @cut old tied lost new m before moment after length =>
    have hcut : (old ++ (tied ++ lost) ++ new).length - count = old.length + lost.length := by
      simp only [List.length_append] at length ⊢
      omega
    unfold Whole at hwhole
    rw [hcut, List.append_assoc old, List.take_length_add_append,
      List.drop_length_add_append] at hwhole
    rw [hcut, List.append_assoc old, List.drop_length_add_append]
    cases lost with
    | nil => simp
    | cons x lost =>
      cases tied with
      | nil => simp
      | cons y tied =>
        -- of the trades of the moment there are some on either side of the cut
        have hfirst : y ∈ old ++ ((y :: tied ++ x :: lost) ++ new).take (x :: lost).length := by
          simp
        have hne : (y :: tied ++ x :: lost).drop (x :: lost).length ≠ [] := by
          simp only [ne_eq, List.drop_eq_nil_iff, List.length_append, List.length_cons]
          omega
        obtain ⟨b, hb⟩ := List.exists_mem_of_ne_nil _ hne
        have hlast : b ∈ ((y :: tied ++ x :: lost) ++ new).drop (x :: lost).length := by
          rw [List.drop_append_of_le_length
            (by simp only [List.length_append, List.length_cons]; omega)]
          exact List.mem_append_left _ hb
        have hsame : y.moment = b.moment :=
          (moment y List.mem_cons_self).trans (moment b (List.mem_of_mem_drop hb)).symm
        exact absurd hsame (hwhole y hfirst b hlast).ne

/-- A record in order of time is what came before a moment, what came at it and what came after. -/
theorem InTime.split (h : InTime trades) (m : Int) : trades =
    trades.filter (·.moment < m) ++ trades.filter (·.moment = m) ++
      trades.filter (m < ·.moment) := by
  induction trades with
  | nil => rfl
  | cons t rest ih =>
    obtain ⟨hle, hrest⟩ := List.pairwise_cons.1 h
    have ih := ih hrest
    have hnone : ∀ p : Trade → Bool, (∀ u, t.moment ≤ u.moment → p u = false) →
        rest.filter p = [] :=
      fun p hp => List.filter_eq_nil_iff.2 fun u hu => Bool.eq_false_iff.1 (hp u (hle u hu))
    simp only [List.filter_cons]
    rcases lt_trichotomy t.moment m with hlt | heq | hgt
    · rw [if_pos (decide_eq_true hlt), if_neg (by simp; omega), if_neg (by simp; omega),
        List.cons_append, List.cons_append, ← ih]
    · have hbefore := hnone (·.moment < m) fun u hu => by simp; omega
      rw [hbefore, List.nil_append] at ih
      rw [if_neg (by simp; omega), if_pos (decide_eq_true heq), if_neg (by simp; omega), hbefore,
        List.nil_append, List.cons_append, ← ih]
    · have hbefore := hnone (·.moment < m) fun u hu => by simp; omega
      have hat := hnone (·.moment = m) fun u hu => by simp; omega
      rw [hbefore, hat, List.nil_append, List.nil_append] at ih
      rw [if_neg (by simp; omega), if_neg (by simp; omega), if_pos (decide_eq_true hgt), hbefore,
        hat, List.nil_append, List.nil_append, ← ih]

/-! ## The list of recent trades -/

/-- The newest trades first, those of one moment as recorded. -/
theorem recentTrades_eq (s : MemorySource) (i : InstrumentId) (count : Nat) :
    s.recentTrades i count =
      ((s.tradesOf i).mergeSort fun a b => -a.moment ≤ -b.moment).take count := by
  unfold MemorySource.recentTrades
  congr 2
  funext a b
  rw [decide_eq_decide, Trade.createdAt_le_iff]
  omega

/-- The trades as a book replays them. -/
def replayed (recent : List Trade) : List Trade :=
  recent.mergeSort fun a b => a.createdAt ≤ b.createdAt

/-- Replaying brings trades back into the order in which they were made. -/
theorem replayed_eq {recent l : List Trade} (h : InTime l)
    (hf : ∀ k, recent.filter (·.moment = k) = l.filter (·.moment = k)) : replayed recent = l := by
  have hle : (fun a b : Trade => decide (a.createdAt ≤ b.createdAt)) =
      fun a b => decide (a.moment ≤ b.moment) := by
    funext a b
    rw [decide_eq_decide, Trade.createdAt_le_iff]
  rw [replayed, hle]
  exact mergeSort_eq_of_filter_eq Trade.moment h hf

/-- The elements of a moment are in the order they were recorded in, whichever way they are
sorted. -/
theorem filter_mergeSort_neg (trades : List Trade) (k : Int) :
    (trades.mergeSort fun a b => -a.moment ≤ -b.moment).filter (·.moment = k) =
      trades.filter (·.moment = k) := by
  have := filter_mergeSort (fun t : Trade => -t.moment) trades (-k)
  simpa only [neg_inj] using this

/-- A record that fits is replayed as a whole. -/
theorem replayed_of_fits (h : InTime trades) (hfits : trades.length ≤ count) :
    replayed ((trades.mergeSort fun a b => -a.moment ≤ -b.moment).take count) = trades := by
  rw [List.take_of_length_le (by rwa [List.length_mergeSort])]
  exact replayed_eq h (filter_mergeSort_neg trades)

/-- Of two lists without a common moment, the trades of a moment are the same in either order. -/
theorem filter_append_comm {l l' : List Trade} (h : ∀ a ∈ l, ∀ b ∈ l', a.moment ≠ b.moment)
    (k : Int) : (l ++ l').filter (·.moment = k) = (l' ++ l).filter (·.moment = k) := by
  rw [List.filter_append, List.filter_append]
  cases hl : l.filter (·.moment = k) with
  | nil => rw [List.append_nil, List.nil_append]
  | cons a rest =>
    have ha := List.mem_filter.1 (hl ▸ List.mem_cons_self : a ∈ l.filter (·.moment = k))
    have hnone : l'.filter (·.moment = k) = [] := List.filter_eq_nil_iff.2 fun b hb hk =>
      h a ha.1 b hb ((of_decide_eq_true ha.2).trans (of_decide_eq_true hk).symm)
    rw [hnone, List.append_nil, List.nil_append]

section

variable {old tied lost new : List Trade} {m : Int} (before : ∀ t ∈ old, t.moment < m)
  (moment : ∀ t ∈ tied ++ lost, t.moment = m) (after : ∀ t ∈ new, m < t.moment)

include before moment after

/-- Newest first, the moments change places and what is of one moment stays in order. -/
theorem mergeSort_neg_of_cut :
    ((old ++ (tied ++ lost) ++ new).mergeSort fun a b => -a.moment ≤ -b.moment) =
      (new.mergeSort fun a b => -a.moment ≤ -b.moment) ++ tied ++
        (lost ++ old.mergeSort fun a b => -a.moment ≤ -b.moment) := by
  have hnewest : ∀ l : List Trade,
      (l.mergeSort fun a b => -a.moment ≤ -b.moment).Pairwise fun a b =>
      -a.moment ≤ -b.moment := by
    intro l
    refine (List.pairwise_mergeSort ?_ ?_ l).imp of_decide_eq_true
    · simp only [decide_eq_true_eq]
      exact fun _ _ _ => Int.le_trans
    · simp only [Bool.or_eq_true, decide_eq_true_eq]
      exact fun a b => Int.le_total _ _
  have hmiddle : (tied ++ lost).Pairwise fun a b => -a.moment ≤ -b.moment :=
    List.pairwise_of_forall_mem_list fun a ha b hb => by rw [moment a ha, moment b hb]
  rw [← List.append_assoc (_ ++ tied), List.append_assoc _ tied lost]
  refine mergeSort_eq_of_filter_eq (fun t : Trade => -t.moment) ?_ fun k => ?_
  · refine List.pairwise_append.2 ⟨List.pairwise_append.2 ⟨hnewest new, hmiddle, ?_⟩,
      hnewest old, ?_⟩
    · intro a ha b hb
      have := after a (List.mem_mergeSort.1 ha)
      have := moment b hb
      omega
    · intro a ha b hb
      have := before b (List.mem_mergeSort.1 hb)
      rcases List.mem_append.1 ha with ha | ha
      · have := after a (List.mem_mergeSort.1 ha)
        omega
      · have := moment a ha
        omega
  · obtain ⟨k, rfl⟩ : ∃ k', k = -k' := ⟨-k, (Int.neg_neg k).symm⟩
    simp only [neg_inj]
    have hnew : ∀ a ∈ old ++ (tied ++ lost), ∀ b ∈ new, a.moment ≠ b.moment := by
      intro a ha b hb
      have := after b hb
      rcases List.mem_append.1 ha with ha | ha
      · have := before a ha
        omega
      · have := moment a ha
        omega
    have hold : ∀ a ∈ old, ∀ b ∈ tied ++ lost, a.moment ≠ b.moment := by
      intro a ha b hb
      have := before a ha
      have := moment b hb
      omega
    rw [filter_append_comm hnew, List.filter_append, filter_append_comm hold]
    simp only [List.filter_append, filter_mergeSort_neg, List.append_assoc]

/-- Of a record that does not fit, what is replayed was kept. -/
theorem replayed_of_cut (h : InTime new) (length : (tied ++ new).length = count) :
    replayed (((old ++ (tied ++ lost) ++ new).mergeSort
      fun a b => -a.moment ≤ -b.moment).take count) = tied ++ new := by
  have htied : ∀ t ∈ tied, t.moment = m := fun t ht => moment t (List.mem_append_left _ ht)
  rw [mergeSort_neg_of_cut before moment after, List.take_left' (by
    rw [List.length_append, List.length_mergeSort, ← length, List.length_append, Nat.add_comm])]
  refine replayed_eq ?_ fun k => ?_
  · refine List.pairwise_append.2 ⟨?_, h, ?_⟩
    · exact List.pairwise_of_forall_mem_list fun a ha b hb => by rw [htied a ha, htied b hb]
    · intro a ha b hb
      have := htied a ha
      have := after b hb
      omega
  · rw [List.filter_append, filter_mergeSort_neg, ← List.filter_append]
    refine filter_append_comm (fun a ha b hb => ?_) k
    have := after a ha
    have := htied b hb
    omega

end

/-- What is replayed of a record in order of time. -/
theorem kept_replayed (s : MemorySource) (i : InstrumentId) (h : InTime (s.tradesOf i))
    (hcount : 0 < count) :
    Remembered count (s.tradesOf i) (replayed (s.recentTrades i count)) := by
  rw [recentTrades_eq]
  generalize s.tradesOf i = trades at h ⊢
  by_cases hfits : trades.length ≤ count
  · rw [replayed_of_fits h hfits]
    exact .all hfits
  -- the first trade behind the cut, and its moment
  obtain ⟨front, x, back, rfl, hback⟩ : ∃ front x back, trades = front ++ x :: back ∧
      back.length + 1 = count := by
    have hlt : trades.length - count < trades.length := by omega
    refine ⟨trades.take (trades.length - count), trades[trades.length - count],
      trades.drop (trades.length - count + 1), ?_, ?_⟩
    · rw [← List.drop_eq_getElem_cons hlt, List.take_append_drop]
    · rw [List.length_drop]
      omega
  obtain ⟨hfront, hx, hle⟩ := List.pairwise_append.1 h
  have hsplit := h.split x.moment
  generalize hold : (front ++ x :: back).filter (·.moment < x.moment) = old at hsplit
  generalize hmid : (front ++ x :: back).filter (·.moment = x.moment) = middle at hsplit
  generalize hnew : (front ++ x :: back).filter (x.moment < ·.moment) = new at hsplit
  have hnewlen : new.length ≤ back.length := by
    have hnone : front.filter (x.moment < ·.moment) = [] :=
      List.filter_eq_nil_iff.2 fun t ht hlt =>
      absurd (of_decide_eq_true hlt) (hle t ht x List.mem_cons_self).not_gt
    rw [← hnew, List.filter_append, hnone, List.nil_append,
      List.filter_cons_of_neg (by rw [decide_eq_true_eq]; exact lt_irrefl _)]
    exact List.length_filter_le _ _
  have holdlen : old.length ≤ front.length := by
    have hnone : (x :: back).filter (·.moment < x.moment) = [] := by
      refine List.filter_eq_nil_iff.2 fun t ht hlt => absurd (of_decide_eq_true hlt) (not_lt.2 ?_)
      rcases List.mem_cons.1 ht with rfl | ht
      · exact le_rfl
      · exact (List.pairwise_cons.1 hx).1 t ht
    rw [← hold, List.filter_append, hnone, List.append_nil]
    exact List.length_filter_le _ _
  have hlen := congrArg List.length hsplit
  simp only [List.length_append, List.length_cons] at hlen
  rw [hsplit, ← List.take_append_drop (count - new.length) middle]
  have hmoment : ∀ t ∈ middle.take (count - new.length) ++ middle.drop (count - new.length),
      t.moment = x.moment := by
    rw [List.take_append_drop, ← hmid]
    exact fun t ht => of_decide_eq_true (List.mem_filter.1 ht).2
  have hbefore : ∀ t ∈ old, t.moment < x.moment := hold ▸ fun t ht =>
    of_decide_eq_true (List.mem_filter.1 ht).2
  have hafter : ∀ t ∈ new, x.moment < t.moment := hnew ▸ fun t ht =>
    of_decide_eq_true (List.mem_filter.1 ht).2
  have hlength : (middle.take (count - new.length) ++ new).length = count := by
    rw [List.length_append, List.length_take]
    omega
  have hin : InTime new := hnew ▸ List.Pairwise.filter _ h
  rw [replayed_of_cut hbefore hmoment hafter hin hlength]
  exact .cut hbefore hmoment hafter hlength

end Bourse
