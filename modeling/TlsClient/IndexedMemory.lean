import Mathlib.Data.List.Basic

/-!
# Memory addressed by integers

A buffer is read and written through pointers that the program moves, so cells
before and after the buffer have to exist for a wrong pointer to be visible.
-/

namespace IndexedMemory

variable {α : Type*}

/-- Write `cells` from address `start` on. -/
def store (memory : Int → α) (start : Int) (cells : List α) : Int → α :=
  fun address =>
    if start ≤ address then cells[(address - start).toNat]?.getD (memory address)
    else memory address

/-- Read `count` cells from address `start` on. -/
def load (memory : Int → α) (start : Int) (count : Nat) : List α :=
  (List.range count).map fun index : Nat => memory (start + (index : Int))

@[simp]
theorem load_length (memory : Int → α) (start : Int) (count : Nat) :
    (load memory start count).length = count := by
  simp [load]

theorem load_add (memory : Int → α) (start : Int) (first second : Nat) :
    load memory start (first + second) =
      load memory start first ++ load memory (start + first) second := by
  simp [load, List.range_add, Function.comp_def, Int.add_assoc]

@[simp]
theorem store_nil (memory : Int → α) (start : Int) : store memory start [] = memory := by
  funext address
  simp [store]

theorem store_of_outside (memory : Int → α) {start address : Int} {cells : List α}
    (outside : address < start ∨ start + cells.length ≤ address) :
    store memory start cells address = memory address := by
  unfold store
  split
  · rw [List.getElem?_eq_none (by omega), Option.getD_none]
  · rfl

theorem load_store_self (memory : Int → α) (start : Int) (cells : List α) :
    load (store memory start cells) start cells.length = cells := by
  apply List.ext_getElem
  · simp
  · intro index _ inside
    have written : start ≤ start + (index : Int) := by omega
    have distance : (start + (index : Int) - start).toNat = index := by omega
    simp only [load, store, List.getElem_map, List.getElem_range, if_pos written, distance,
      List.getElem?_eq_getElem inside, Option.getD_some]

theorem load_store_below (memory : Int → α) {start address : Int} (cells : List α)
    {count : Nat} (below : address + count ≤ start) :
    load (store memory start cells) address count = load memory address count := by
  apply List.ext_getElem
  · simp
  · intro index inside _
    have outside : ¬ start ≤ address + (index : Int) := by
      have := load_length (store memory start cells) address count
      omega
    simp [load, store, outside]

theorem load_store_append (memory : Int → α) (start : Int) (count : Nat) (cells : List α) :
    load (store memory (start + count) cells) start (count + cells.length) =
      load memory start count ++ cells := by
  rw [load_add, load_store_below memory cells (Int.le_refl _), load_store_self]

end IndexedMemory
