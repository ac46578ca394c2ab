import Bourse.Depth.Levels
import Bourse.Proofs.Ends
import Bourse.Proofs.Quantity
import Mathlib.Data.List.Nodup

/-!
# What the levels of a side hold

A price map is looked at through `PriceMap.find?`: writing and removing an entry change what is
found at prices of the same value, and nothing else. `Levels.held` and `Levels.change` are the
quantity and the pending difference at a price, as numbers without bounds.

Adding to a level and taking off it move both by the same number (`Levels.Moved`), as long as the
results fit (`Levels.ends_add`, `Levels.ends_remove`). Whatever the levels hold, the difference
moves by a quantity read with a sign (`Levels.records_add`, `Levels.records_remove`), no entry of
zero is left (`Levels.Proper`), and nothing but an overflow can break these off
(`Levels.breaks_add`, `Levels.breaks_remove`).
-/

namespace Bourse

namespace PriceMap

variable {α : Type}

/-- What is inserted is found at its price, and the rest as before. -/
theorem find?_insert (m : PriceMap α) (p q : Price) (v : α) :
    (m.insert p v).find? q = if p.Same q then some v else m.find? q := by
  have h : ∀ l : List (Price × α), ((insertEntry p v l).find? fun e => e.1.Same q).map (·.2) =
      if p.Same q then some v else (l.find? fun e => e.1.Same q).map (·.2) := by
    intro l
    induction l with
    | nil => by_cases hp : p.Same q <;> simp [insertEntry, hp]
    | cons e rest ih =>
      unfold insertEntry
      split
      · by_cases hp : p.Same q <;> simp [hp]
      · next hlt =>
        split
        · next hlt' =>
          by_cases he : e.1.Same q
          · have hp : ¬ p.Same q := by
              intro hp
              rw [Price.lt_def] at hlt'
              unfold Price.Same at he hp
              omega
            simp [he, hp]
          · simp [he, ih]
        · next hge =>
          have heq : e.1.Same q ↔ p.Same q := by
            rw [Price.lt_def] at hlt hge
            unfold Price.Same
            omega
          by_cases hp : p.Same q <;> simp [hp, heq]
  exact h m.entries

/-- What is erased is found no more, and the rest as before. -/
theorem find?_erase (m : PriceMap α) (p q : Price) :
    (m.erase p).find? q = if p.Same q then none else m.find? q := by
  unfold erase find?
  rw [List.find?_filter]
  by_cases hp : p.Same q
  · rw [if_pos hp, Option.map_eq_none_iff, List.find?_eq_none]
    intro e _ he
    simp only [decide_eq_true_eq, Bool.not_eq_true', decide_eq_false_iff_not] at he
    exact he.1 (he.2.trans hp.symm)
  · rw [if_neg hp]
    congr 2
    funext e
    by_cases he : e.1.Same q
    · have : ¬ e.1.Same p := fun h => hp (h.symm.trans he)
      simp [he, this]
    · simp [he]

/-- The same price finds the same. -/
theorem find?_congr (m : PriceMap α) {p q : Price} (h : p.Same q) : m.find? p = m.find? q := by
  have : (fun e : Price × α => decide (e.1.Same p)) = fun e => decide (e.1.Same q) := by
    funext e
    exact decide_eq_decide.2 ⟨fun he => he.trans h, fun he => he.trans h.symm⟩
  unfold find?
  rw [this]

/-- No two entries have prices of the same value. -/
theorem nodup_units (m : PriceMap α) : ((m.entries.map (·.1)).map Price.units).Nodup := by
  rw [List.map_map, List.Nodup, List.pairwise_map]
  exact m.ascending.imp fun hlt => Int.ne_of_lt hlt

/-- What is found is an entry of the price. -/
theorem mem_of_find? {m : PriceMap α} {p : Price} {v : α} (h : m.find? p = some v) :
    ∃ e ∈ m.entries, e.1.Same p ∧ e.2 = v := by
  obtain ⟨e, he, rfl⟩ := Option.map_eq_some_iff.1 h
  exact ⟨e, List.mem_of_find?_eq_some he, by simpa using List.find?_some he, rfl⟩

/-- An entry is what is found at the prices of its value. -/
theorem find?_of_mem {m : PriceMap α} {e : Price × α} {p : Price} (he : e ∈ m.entries)
    (hp : e.1.Same p) : m.find? p = some e.2 := by
  have hnodup : (m.entries.map (Price.units ∘ (·.1))).Nodup := List.map_map ▸ m.nodup_units
  cases hfind : m.find? p with
  | none =>
    unfold find? at hfind
    rw [Option.map_eq_none_iff, List.find?_eq_none] at hfind
    exact absurd (decide_eq_true hp) (hfind e he)
  | some v =>
    obtain ⟨e', he', hp', rfl⟩ := mem_of_find? hfind
    rw [List.inj_on_of_nodup_map hnodup he' he (hp'.trans hp.symm)]

end PriceMap

/-- A sum or a difference of depth left its range. -/
def Failure.IsOverflow (f : Failure) : Prop := f = .additionOverflow ∨ f = .negationOverflow

/-- An overflow is not the limit of a loop. -/
theorem Failure.IsOverflow.ne_stepLimit {f : Failure} (h : f.IsOverflow) : f ≠ .stepLimit := by
  rcases h with rfl | rfl <;> exact Failure.noConfusion

/-- Adding quantities fails by an overflow only. -/
theorem Quantity.isOverflow_of_add {a b : Quantity} {f : Failure} (h : a.add b = .error f) :
    f.IsOverflow := by
  unfold Quantity.add at h
  split at h
  · cases h
  · cases h; exact .inl rfl

/-- Adding differences fails by an overflow only. -/
theorem Delta.isOverflow_of_add {a b : Int64} {f : Failure} (h : Delta.add a b = .error f) :
    f.IsOverflow := by
  unfold Delta.add at h
  split at h
  · cases h
  · cases h; exact .inl rfl

/-- Negating a difference fails by an overflow only. -/
theorem Delta.isOverflow_of_neg {a : Int64} {f : Failure} (h : Delta.neg a = .error f) :
    f.IsOverflow := by
  unfold Delta.neg at h
  split at h
  · cases h
  · cases h; exact .inr rfl

namespace Levels

open Bourse.Action

variable {s : Logged Levels} {p : Price} {q : Quantity} {d : Int64}

/-- The quantity at a price, without the bound. -/
def held (l : Levels) (p : Price) : Nat := (l.quantityAt p).toNat

/-- The difference at a price since the differences were last taken. -/
def change (l : Levels) (p : Price) : Int := ((l.diff.find? p).getD 0).toInt

/-- The quantity and the difference at a price moved by a number, and nothing else did. -/
structure Moved (l l' : Levels) (p : Price) (n : Int) : Prop where
  held : ∀ r, (l'.held r : Int) = l.held r + if p.Same r then n else 0
  change : ∀ r, l'.change r = l.change r + if p.Same r then n else 0

/-- The quantity held where a level is set. -/
theorem held_insert (l : Levels) (v : Quantity) (r : Price) :
    Levels.held { l with depth := l.depth.insert p v } r =
      if p.Same r then v.toNat else l.held r := by
  unfold held quantityAt
  rw [PriceMap.find?_insert]
  split <;> rfl

/-- The quantity held where a level is erased. -/
theorem held_erase (l : Levels) (r : Price) :
    Levels.held { l with depth := l.depth.erase p } r = if p.Same r then 0 else l.held r := by
  unfold held quantityAt
  rw [PriceMap.find?_erase]
  split <;> rfl

/-- A level that is written back with nothing left has no entry. -/
theorem held_written (l : Levels) (rest : Quantity) (r : Price) :
    Levels.held { l with
      depth := if rest.isZero then l.depth.erase p else l.depth.insert p rest } r =
        if p.Same r then rest.toNat else l.held r := by
  split
  · next hz => rw [held_erase, Quantity.isZero_iff.1 hz]
  · rw [held_insert]

/-- The same price holds the same quantity. -/
theorem held_congr (l : Levels) {r : Price} (h : p.Same r) : l.held p = l.held r := by
  unfold held quantityAt
  rw [PriceMap.find?_congr _ h]

/-- The same price has the same difference. -/
theorem change_congr (l : Levels) {r : Price} (h : p.Same r) : l.change p = l.change r := by
  unfold change
  rw [PriceMap.find?_congr _ h]

/-- The entries are the quantities at their prices. -/
theorem map_entries (l : Levels) :
    l.depth.entries.map (·.2.toNat) = (l.depth.entries.map (·.1)).map l.held := by
  rw [List.map_map]
  refine List.map_congr_left fun e he => ?_
  unfold Function.comp held quantityAt
  rw [PriceMap.find?_of_mem he rfl]
  rfl

/-- Quantities that fit together are added up. -/
theorem total_eq {l : Levels} (h : (l.depth.entries.map (·.2.toNat)).sum < 2 ^ 64) :
    ∃ q, l.total = .ok q ∧ q.toNat = (l.depth.entries.map (·.2.toNat)).sum := by
  have hfold : ∀ (es : List (Price × Quantity)) (sum : Quantity),
      sum.toNat + (es.map (·.2.toNat)).sum < 2 ^ 64 →
        ∃ q, es.foldlM (fun sum e => sum.add e.2) sum = .ok q ∧
          q.toNat = sum.toNat + (es.map (·.2.toNat)).sum := by
    intro es
    induction es with
    | nil => exact fun sum _ => ⟨sum, rfl, rfl⟩
    | cons e rest ih =>
      intro sum hfit
      rw [List.map_cons, List.sum_cons] at hfit ⊢
      obtain ⟨next, hnext, hn⟩ := Quantity.add_eq (a := sum) (b := e.2) (by omega)
      obtain ⟨q, hq, hqn⟩ := ih next (by omega)
      refine ⟨q, ?_, by omega⟩
      rw [List.foldlM_cons, hnext]
      exact hq
  obtain ⟨q, hq, hn⟩ := hfold l.depth.entries .zero (by rw [Quantity.toNat_zero]; omega)
  exact ⟨q, hq, by rw [hn, Quantity.toNat_zero, Nat.zero_add]⟩

/-- A difference that fits is added to the one at its price. -/
theorem ends_recordDiff (h : Delta.Fits (s.state.change p + d.toInt)) :
    Ends (recordDiff p d) s
      (fun _ t => t.state.depth = s.state.depth ∧
        (∀ r, t.state.change r = s.state.change r + if p.Same r then d.toInt else 0) ∧
        t.journal = s.journal)
      (fun _ _ => False) := by
  obtain ⟨sum, hsum, hn⟩ := Delta.add_eq h
  simp only [recordDiff, ends_bind, ends_current, ends_ofExcept, hsum, ends_replace]
  refine ⟨trivial, ?_, trivial⟩
  intro r
  have hat : ∀ r, p.Same r → sum.toInt = s.state.change r + d.toInt := by
    intro r hr
    rw [hn, ← change_congr s.state hr]
    rfl
  unfold change at *
  by_cases hz : sum = 0
  · rw [if_pos hz, PriceMap.find?_erase]
    split
    · next hr => rw [← hat r hr, hz]; rfl
    · omega
  · rw [if_neg hz, PriceMap.find?_insert]
    split
    · next hr => exact hat r hr
    · omega

/-- A difference that is recorded is added to the one at its price. -/
theorem ends_recordDiff_of_ok : Ends (recordDiff p d) s
    (fun _ t => t.state.depth = s.state.depth ∧
      ∀ r, t.state.change r = s.state.change r + if p.Same r then d.toInt else 0)
    (fun _ _ => True) := by
  by_cases h : Delta.Fits (s.state.change p + d.toInt)
  · exact (ends_recordDiff h).mono (fun _ _ ht => ⟨ht.1, ht.2.1⟩) fun _ _ hf => hf.elim
  · have hadd : Delta.add ((s.state.diff.find? p).getD 0) d = .error .additionOverflow :=
      Delta.add_eq_error h
    simp only [recordDiff, ends_bind, ends_current, ends_ofExcept, hadd]

/-- Quantity that fits is added to its level. -/
theorem ends_add (hsum : s.state.held p + q.toNat < 2 ^ 64) (hq : q.toNat < 2 ^ 63)
    (hfits : Delta.Fits (s.state.change p + q.toNat)) :
    Ends (add p q) s
      (fun _ t => Moved s.state t.state p q.toNat ∧ t.journal = s.journal) (fun _ _ => False) := by
  obtain ⟨sum, hadd, hn⟩ := Quantity.add_eq (a := s.state.quantityAt p) (b := q) hsum
  have hsigned := Quantity.toInt_signed hq
  simp only [add, ends_bind, ends_current, ends_ofExcept, hadd, ends_replace]
  refine (ends_recordDiff ?_).imp (fun _ t ht => ⟨⟨?_, ?_⟩, ht.2.2⟩)
  · rw [hsigned]
    exact hfits
  · intro r
    have : t.state.held r =
        Levels.held { s.state with depth := s.state.depth.insert p sum } r := by
      unfold held quantityAt
      rw [ht.1]
    rw [this, held_insert]
    split
    · next hr =>
      rw [hn, ← held_congr s.state hr]
      exact Int.natCast_add _ _
    · omega
  · intro r
    rw [ht.2.1 r, hsigned]
    rfl

/-- A quantity that fits is taken off the difference at its price. -/
theorem ends_recordOff (hq : q.toNat < 2 ^ 63) (hfits : Delta.Fits (s.state.change p - q.toNat)) :
    Ends (Action.ofExcept (Delta.neg q.signed) >>= recordDiff p) s
      (fun _ t => t.state.depth = s.state.depth ∧
        (∀ r, t.state.change r = s.state.change r + if p.Same r then -(q.toNat : Int) else 0) ∧
        t.journal = s.journal)
      (fun _ _ => False) := by
  have hsigned := Quantity.toInt_signed hq
  obtain ⟨neg, hneg, hnegInt⟩ := Delta.neg_eq (a := q.signed)
    (by rw [hsigned]; unfold Delta.Fits; omega)
  rw [hsigned] at hnegInt
  simp only [ends_bind, ends_ofExcept, hneg]
  rw [← hnegInt]
  exact ends_recordDiff (by rwa [hnegInt, ← Int.sub_eq_add_neg])

/-- A quantity that was taken off its level is taken off the difference. -/
theorem ends_writeOff {depth : PriceMap Quantity} (hle : q.toNat ≤ s.state.held p)
    (hdepth : ∀ r, Levels.held { s.state with depth } r =
      if p.Same r then s.state.held p - q.toNat else s.state.held r)
    (hq : q.toNat < 2 ^ 63) (hfits : Delta.Fits (s.state.change p - q.toNat)) :
    Ends (Action.ofExcept (Delta.neg q.signed) >>= recordDiff p)
    ⟨{ s.state with depth }, s.journal⟩
      (fun _ t => Moved s.state t.state p (-(q.toNat : Int)) ∧ t.journal = s.journal)
      (fun _ _ => False) := by
  refine (ends_recordOff (s := ⟨{ s.state with depth }, s.journal⟩) hq hfits).imp
    fun _ t ht => ⟨⟨fun r => ?_, ht.2.1⟩, ht.2.2⟩
  have hheld : t.state.held r = Levels.held { s.state with depth } r := by
    unfold held quantityAt
    rw [ht.1]
  rw [hheld, hdepth]
  split
  · next hr =>
    rw [← held_congr s.state hr]
    omega
  · omega

/-- Quantity is taken off its level, up to what the level holds. If it holds less it is dropped,
and the answer says so. -/
theorem ends_remove (hq : min q.toNat (s.state.held p) < 2 ^ 63)
    (hfits : Delta.Fits (s.state.change p - (min q.toNat (s.state.held p) : Nat))) :
    Ends (remove p q) s
      (fun held t => (held = if q.toNat ≤ s.state.held p then none else some
        (s.state.quantityAt p)) ∧
        Moved s.state t.state p (-(min q.toNat (s.state.held p) : Nat)) ∧ t.journal = s.journal)
      (fun _ _ => False) := by
  by_cases hle : q.toNat ≤ s.state.held p
  · rw [Nat.min_eq_left hle] at hq hfits ⊢
    obtain ⟨rest, hsub, hn⟩ := Quantity.sub?_eq (a := s.state.quantityAt p) (b := q) hle
    have hoff := ends_writeOff hle (fun r => hn ▸ held_written s.state rest r) hq hfits
    rw [ends_bind] at hoff
    simp only [remove, ends_bind, ends_current, hsub, ends_replace]
    exact hoff.imp fun _ _ h => h.imp fun _ _ ht => ⟨(if_pos hle).symm, ht⟩
  · have hlt := Nat.not_le.1 hle
    rw [Nat.min_eq_right (Nat.le_of_lt hlt)] at hq hfits ⊢
    have hdropped : ∀ r, Levels.held { s.state with depth := s.state.depth.erase p } r =
        if p.Same r then s.state.held p - (s.state.quantityAt p).toNat else s.state.held r := by
      intro r
      rw [held_erase]
      exact if_congr Iff.rfl (Nat.sub_self _).symm rfl
    simp only [remove, ends_bind, ends_current, Quantity.sub?_eq_none hlt, ends_replace]
    split
    · have hoff := ends_writeOff le_rfl hdropped hq hfits
      rw [ends_bind] at hoff
      simp only [ends_bind]
      exact hoff.imp fun _ _ h => h.imp fun _ _ ht => ⟨rfl, ht⟩
    · next hz =>
      rw [Bool.not_eq_true, Bool.not_eq_false', Quantity.isZero_iff] at hz
      have hzero : s.state.held p = 0 := hz
      refine ⟨rfl, ⟨fun r => ?_, fun r => ?_⟩, rfl⟩
      · rw [hdropped, hz, hzero]
        split
        · next hr => rw [← held_congr s.state hr, hzero]; rfl
        · exact (Int.add_zero _).symm
      · rw [hzero, Int.natCast_zero, neg_zero, ite_self, add_zero]
        rfl

/-- Whatever is added, the difference moves by the quantity read with a sign. -/
theorem records_add : Ends (add p q) s
    (fun _ t => ∀ r, t.state.change r = s.state.change r + if p.Same r then q.signed.toInt else 0)
    (fun _ _ => True) := by
  simp only [add, ends_bind, ends_current, ends_ofExcept, ends_replace]
  split
  · exact ends_recordDiff_of_ok.imp fun _ _ ht => ht.2
  · trivial

/-- Whatever is taken off, the difference moves by the quantity read with a sign. -/
theorem records_recordOff : Ends (Action.ofExcept (Delta.neg q.signed) >>= recordDiff p) s
    (fun _ t => ∀ r, t.state.change r = s.state.change r - if p.Same r then q.signed.toInt else 0)
    (fun _ _ => True) := by
  simp only [ends_bind, ends_ofExcept]
  split
  · next n hn =>
    refine ends_recordDiff_of_ok.imp fun _ t ht r => ?_
    rw [ht.2, Delta.toInt_of_neg hn]
    split <;> omega
  · trivial

/-- Whatever a close takes off, the difference moves by that quantity read with a sign. -/
theorem records_remove : Ends (remove p q) s
    (fun _ t => ∀ r, t.state.change r = s.state.change r -
      if p.Same r then (min q (s.state.quantityAt p)).signed.toInt else 0)
    (fun _ _ => True) := by
  simp only [remove, ends_bind, ends_current]
  by_cases hle : q.toNat ≤ (s.state.quantityAt p).toNat
  · obtain ⟨rest, hsub, -⟩ := Quantity.sub?_eq hle
    rw [Quantity.min_eq_left hle]
    simp only [hsub, ends_bind, ends_replace]
    have hoff := records_recordOff (p := p) (q := q) (s := ⟨{ s.state with
      depth := if rest.isZero then s.state.depth.erase p else s.state.depth.insert p rest },
        s.journal⟩)
    rw [ends_bind] at hoff
    exact hoff
  · have hlt := Nat.not_le.1 hle
    rw [Quantity.min_eq_right (Nat.le_of_lt hlt)]
    simp only [Quantity.sub?_eq_none hlt, ends_bind, ends_replace]
    split
    · have hoff := records_recordOff (p := p) (q := s.state.quantityAt p)
        (s := ⟨{ s.state with depth := s.state.depth.erase p }, s.journal⟩)
      rw [ends_bind] at hoff
      simp only [ends_bind]
      exact hoff.imp fun _ _ h => h.imp fun _ _ h => h
    · next hz =>
      rw [Bool.not_eq_true, Bool.not_eq_false', Quantity.isZero_iff] at hz
      intro r
      rw [Quantity.toInt_signed (by omega), hz, Int.natCast_zero, ite_self, sub_zero]
      rfl

/-- Levels of one depth hold the same. -/
theorem held_of_depth {l l' : Levels} (h : l'.depth = l.depth) (r : Price) :
    l'.held r = l.held r := by
  unfold held quantityAt
  rw [h]

/-- Whatever is added, the level holds so much more. -/
theorem holds_add : Ends (add p q) s
    (fun _ t => ∀ r, t.state.held r = s.state.held r + if p.Same r then q.toNat else 0)
    (fun _ _ => True) := by
  by_cases hsum : s.state.held p + q.toNat < 2 ^ 64
  · obtain ⟨sum, hadd, hn⟩ := Quantity.add_eq (a := s.state.quantityAt p) (b := q) hsum
    simp only [add, ends_bind, ends_current, ends_ofExcept, hadd, ends_replace]
    refine ends_recordDiff_of_ok.imp fun _ t ht r => ?_
    rw [held_of_depth ht.1, held_insert]
    split
    · next hr => rw [hn, ← held_congr s.state hr, held]
    · rfl
  · have hadd : (s.state.quantityAt p).add q = .error .additionOverflow := if_neg hsum
    simp only [add, ends_bind, ends_current, ends_ofExcept, hadd]

/-- Whatever is taken off, the level holds so much less, or nothing. -/
theorem holds_remove : Ends (remove p q) s
    (fun _ t => ∀ r, t.state.held r = s.state.held r - if p.Same r then q.toNat else 0)
    (fun _ _ => True) := by
  have hrecord : ∀ {q' : Quantity} {l : Levels} {j : Array Event},
      Ends (Action.ofExcept (Delta.neg q'.signed)) ⟨l, j⟩
        (fun delta t => Ends (recordDiff p delta) t (fun _ u => ∀ r, u.state.held r = l.held r)
          fun _ _ => True)
        fun _ _ => True := by
    intro q' l j
    rw [ends_ofExcept]
    split
    · exact ends_recordDiff_of_ok.imp fun _ t ht r => held_of_depth ht.1 r
    · trivial
  simp only [remove, ends_bind, ends_current]
  by_cases hle : q.toNat ≤ (s.state.quantityAt p).toNat
  · obtain ⟨rest, hsub, hn⟩ := Quantity.sub?_eq hle
    simp only [hsub, ends_bind, ends_replace, ends_pure]
    refine hrecord.imp fun _ _ ht => ht.imp fun _ u hu r => ?_
    rw [hu, held_written, hn]
    split
    · next hr => rw [← held_congr s.state hr, held]
    · rfl
  · have hlt := Nat.not_le.1 hle
    have herase : ∀ r, Levels.held { s.state with depth := s.state.depth.erase p } r =
        s.state.held r - if p.Same r then q.toNat else 0 := by
      intro r
      rw [held_erase]
      split
      · next hr =>
        rw [← held_congr s.state hr]
        exact (Nat.sub_eq_zero_of_le hlt.le).symm
      · rfl
    simp only [Quantity.sub?_eq_none hlt, ends_bind, ends_replace]
    split
    · simp only [ends_bind, ends_pure]
      exact hrecord.imp fun _ _ ht => ht.imp fun _ u hu r => (hu r).trans (herase r)
    · exact herase

/-- No level and no difference has an entry of zero. -/
structure Proper (l : Levels) : Prop where
  positive : ∀ r v, l.depth.find? r = some v → 0 < v.toNat
  nonzero : ∀ r v, l.diff.find? r = some v → v ≠ 0

/-- Empty levels are proper. -/
theorem proper_empty : Proper empty := ⟨nofun, nofun⟩

/-- Levels stay proper when one is erased. -/
theorem Proper.erase {l : Levels} (h : l.Proper) (p : Price) :
    Proper { l with depth := l.depth.erase p } := by
  refine ⟨fun r v hv => ?_, h.nonzero⟩
  rw [PriceMap.find?_erase] at hv
  split at hv
  · cases hv
  · exact h.positive r v hv

/-- Levels stay proper when one that is not zero is set. -/
theorem Proper.insert {l : Levels} (h : l.Proper) (p : Price) {v : Quantity} (hv : 0 < v.toNat) :
    Proper { l with depth := l.depth.insert p v } := by
  refine ⟨fun r w hw => ?_, h.nonzero⟩
  rw [PriceMap.find?_insert] at hw
  split at hw
  · exact Option.some.inj hw ▸ hv
  · exact h.positive r w hw

/-- Recording a difference keeps levels proper. -/
theorem proper_recordDiff (h : s.state.Proper) :
    Ends (recordDiff p d) s (fun _ t => t.state.Proper) (fun _ _ => True) := by
  simp only [recordDiff, ends_bind, ends_current, ends_ofExcept, ends_replace]
  split
  · refine ⟨h.positive, fun r v hv => ?_⟩
    split at hv
    · rw [PriceMap.find?_erase] at hv
      split at hv
      · cases hv
      · exact h.nonzero r v hv
    · next hsum =>
      rw [PriceMap.find?_insert] at hv
      split at hv
      · exact Option.some.inj hv ▸ hsum
      · exact h.nonzero r v hv
  · trivial

/-- Adding a quantity that is not zero keeps levels proper. -/
theorem proper_add (h : s.state.Proper) (hq : 0 < q.toNat) :
    Ends (add p q) s (fun _ t => t.state.Proper) (fun _ _ => True) := by
  simp only [add, ends_bind, ends_current, ends_ofExcept, ends_replace]
  split
  · next sum hsum =>
    exact proper_recordDiff (h.insert p (by have := Quantity.toNat_of_add hsum; omega))
  · trivial

/-- Removing a quantity keeps levels proper. -/
theorem proper_remove (h : s.state.Proper) :
    Ends (remove p q) s (fun _ t => t.state.Proper) (fun _ _ => True) := by
  simp only [remove, ends_bind, ends_current]
  split
  · next rest _ =>
    have hrest : Proper { s.state with
        depth := if rest.isZero then s.state.depth.erase p else s.state.depth.insert p rest } := by
      split
      · exact h.erase p
      · next hz => exact h.insert p (Quantity.isZero_eq_false_iff.1 (Bool.not_eq_true _ ▸ hz))
    simp only [ends_bind, ends_replace, ends_ofExcept]
    split
    · exact proper_recordDiff hrest
    · trivial
  · simp only [ends_bind, ends_replace]
    split
    · simp only [ends_bind, ends_ofExcept]
      split
      · exact proper_recordDiff (h.erase p)
      · trivial
    · exact h.erase p

/-- Recording a difference breaks off only by an overflow. -/
theorem breaks_recordDiff :
    Ends (recordDiff p d) s (fun _ _ => True) (fun f _ => f.IsOverflow) := by
  simp only [recordDiff, ends_bind, ends_current, ends_ofExcept, ends_replace]
  split
  · trivial
  · next h => exact Delta.isOverflow_of_add h

/-- Adding to a level breaks off only by an overflow. -/
theorem breaks_add : Ends (add p q) s (fun _ _ => True) (fun f _ => f.IsOverflow) := by
  simp only [add, ends_bind, ends_current, ends_ofExcept, ends_replace]
  split
  · exact breaks_recordDiff
  · next h => exact Quantity.isOverflow_of_add h

/-- Taking off a level breaks off only by an overflow. -/
theorem breaks_remove : Ends (remove p q) s (fun _ _ => True) (fun f _ => f.IsOverflow) := by
  simp only [remove, ends_bind, ends_current]
  split
  · simp only [ends_bind, ends_replace, ends_ofExcept]
    split
    · exact breaks_recordDiff.imp (fun _ _ _ => trivial)
    · next h => exact Delta.isOverflow_of_neg h
  · simp only [ends_bind, ends_replace]
    split
    · simp only [ends_bind, ends_ofExcept]
      split
      · exact breaks_recordDiff.imp (fun _ _ _ => trivial)
      · next h => exact Delta.isOverflow_of_neg h
    · trivial

end Levels

end Bourse
