import Bourse.Order

/-!
# The table of orders

An order is shared: queues, the matching loop and settlement all see the same one. So orders live
in a table, `Orders`, and everybody else holds an `OrderRef` to a row. Reading a row and writing it
are related by one law, `Orders.get_set`, for all references.
-/

namespace Bourse

/-- A reference to a row of the table of orders. -/
structure OrderRef where
  row : Nat
deriving DecidableEq

/-- What an unwritten row reads as: a closed order of nobody. -/
def Order.blank : Order where
  id := ⟨0⟩
  user := ⟨0⟩
  instrument := ⟨0⟩
  side := .ask
  type := .limit
  price := .market
  quantity := .zero
  fulfilled := .zero
  closed := true
  createdAt := ⟨0⟩

/-- The table of orders. -/
structure Orders where
  rows : Array Order

namespace Orders

/-- A table without orders. -/
def empty : Orders := ⟨#[]⟩

/-- The order of a row. -/
def get (os : Orders) (r : OrderRef) : Order := os.rows[r.row]?.getD Order.blank

/-- Writes a row; rows in between are left blank. -/
def set (os : Orders) (r : OrderRef) (o : Order) : Orders :=
  ⟨(os.rows.rightpad (r.row + 1) Order.blank).setIfInBounds r.row o⟩

/-- Changes the order of a row. -/
def modify (os : Orders) (r : OrderRef) (f : Order → Order) : Orders := os.set r (f (os.get r))

/-- Adds an order in a row of its own. -/
def add (os : Orders) (o : Order) : OrderRef × Orders := (⟨os.rows.size⟩, ⟨os.rows.push o⟩)

/-- Putting an order in place changes the order of that reference alone. -/
@[simp] theorem get_set (os : Orders) (r r' : OrderRef) (o : Order) :
    (os.set r o).get r' = if r = r' then o else os.get r' := by
  obtain ⟨r⟩ := r
  obtain ⟨r'⟩ := r'
  simp only [get, set, Array.getElem?_setIfInBounds, OrderRef.mk.injEq]
  by_cases h : r = r'
  · subst h
    have h : r < os.rows.size + (r + 1 - os.rows.size) := by omega
    simp [h]
  · simp only [h, if_false]
    rw [Array.rightpad, Array.getElem?_append]
    split
    · rfl
    · rename_i h'
      rw [Array.getElem?_eq_none (Nat.not_lt.1 h'), Array.getElem?_replicate]
      split <;> rfl

end Orders

end Bourse
