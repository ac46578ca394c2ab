import Bourse.Price

/-!
# Maps keyed by price

A `PriceMap` lists its entries by strictly ascending value of the price, so prices of the same
value share one entry. Writing to an entry that is there keeps the price it was made with, scale
included, until the entry is removed (`PriceMap.insert`, `PriceMap.erase`).
-/

namespace Bourse

/-- A map from prices, by value, to `α`. -/
structure PriceMap (α : Type) where
  entries : List (Price × α)
  ascending : entries.Pairwise fun a b => a.1 < b.1

namespace PriceMap

variable {α : Type}

/-- A map without entries. -/
def empty : PriceMap α := ⟨[], .nil⟩

/-- There are no entries. -/
def isEmpty (m : PriceMap α) : Bool := m.entries.isEmpty

/-- The value at a price. -/
def find? (m : PriceMap α) (p : Price) : Option α :=
  (m.entries.find? fun e => e.1.Same p).map (·.2)

/-- The lowest price with an entry. -/
def lowest? (m : PriceMap α) : Option Price := m.entries.head?.map (·.1)

/-- The highest price with an entry. -/
def highest? (m : PriceMap α) : Option Price := m.entries.getLast?.map (·.1)

/-- Puts a value at its place in a list of ascending entries. -/
def insertEntry (p : Price) (v : α) : List (Price × α) → List (Price × α)
  | [] => [(p, v)]
  | e :: rest =>
    if p < e.1 then (p, v) :: e :: rest
    else if e.1 < p then e :: insertEntry p v rest
    else (e.1, v) :: rest

/-- An entry that is put in brings in no price but its own. -/
theorem key_of_mem_insertEntry {p : Price} {v : α} {l : List (Price × α)} {e : Price × α}
    (h : e ∈ insertEntry p v l) : e.1 = p ∨ ∃ e' ∈ l, e'.1 = e.1 := by
  induction l with
  | nil => simp_all [insertEntry]
  | cons a rest ih =>
    unfold insertEntry at h
    split at h
    · rcases List.mem_cons.1 h with rfl | h
      · exact .inl rfl
      · exact .inr ⟨e, h, rfl⟩
    · split at h
      · rcases List.mem_cons.1 h with rfl | h
        · exact .inr ⟨e, List.mem_cons_self, rfl⟩
        · exact (ih h).imp_right fun ⟨e', he', heq⟩ => ⟨e', List.mem_cons_of_mem _ he', heq⟩
      · rcases List.mem_cons.1 h with rfl | h
        · exact .inr ⟨a, List.mem_cons_self, rfl⟩
        · exact .inr ⟨e, List.mem_cons_of_mem _ h, rfl⟩

/-- Putting an entry in keeps the prices ascending. -/
theorem pairwise_insertEntry {p : Price} {v : α} {l : List (Price × α)}
    (h : l.Pairwise fun a b => a.1 < b.1) : (insertEntry p v l).Pairwise fun a b => a.1 < b.1 := by
  induction h with
  | nil => exact List.pairwise_singleton _ _
  | @cons a rest hall hrest ih =>
    unfold insertEntry
    split
    · rename_i hp
      refine .cons (fun b hb => ?_) (.cons hall hrest)
      rcases List.mem_cons.1 hb with rfl | hb
      · exact hp
      · exact Int.lt_trans hp (hall b hb)
    · split
      · rename_i hp
        refine .cons (fun b hb => ?_) ih
        rcases key_of_mem_insertEntry hb with hb | ⟨b', hb', heq⟩
        · rw [hb]; exact hp
        · rw [← heq]; exact hall b' hb'
      · exact .cons hall hrest

/-- Writes the value at a price. -/
def insert (m : PriceMap α) (p : Price) (v : α) : PriceMap α :=
  ⟨insertEntry p v m.entries, pairwise_insertEntry m.ascending⟩

/-- Removes the entry of a price. -/
def erase (m : PriceMap α) (p : Price) : PriceMap α :=
  ⟨m.entries.filter fun e => !decide (e.1.Same p), m.ascending.filter _⟩

/-- The map of a list of entries. Of entries with the same value the first gives the price and the
last the value. -/
def ofList (l : List (Price × α)) : PriceMap α := l.foldl (fun m e => m.insert e.1 e.2) empty

end PriceMap

end Bourse
