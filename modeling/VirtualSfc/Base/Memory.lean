import Mathlib.Data.List.Basic

/-! Flat memory with stores and loads of lists of cells. A load after a store
sees the stored cells where it lies inside the store, and the old memory where it
lies beside it. -/
namespace VirtualSfc.Base.Memory

universe u

variable {Cell : Type u}

def store (memory : Nat → Cell) (offset : Nat) (cells : List Cell) : Nat → Cell :=
  fun address =>
    if offset ≤ address then cells[address - offset]?.getD (memory address) else memory address

def load (memory : Nat → Cell) (offset length : Nat) : List Cell :=
  (List.range length).map fun index => memory (offset + index)

@[simp] theorem length_load (memory : Nat → Cell) (offset length : Nat) :
    (load memory offset length).length = length := by
  simp [load]

theorem load_congr {memory other : Nat → Cell} {offset length : Nat}
    (h : ∀ address, offset ≤ address → address < offset + length →
      memory address = other address) :
    load memory offset length = load other offset length := by
  apply List.map_congr_left
  intro index hindex
  rw [List.mem_range] at hindex
  exact h _ (by omega) (by omega)

theorem getElem?_load (memory : Nat → Cell) (offset length index : Nat) :
    (load memory offset length)[index]? =
      if index < length then some (memory (offset + index)) else none := by
  by_cases h : index < length
  · simp [load, h]
  · simp [load, h]

theorem apply_eq_of_load_eq {memory other : Nat → Cell} {offset length address : Nat}
    (h : load memory offset length = load other offset length) (hlow : offset ≤ address)
    (hhigh : address < offset + length) : memory address = other address := by
  have hindex := congrArg (·[address - offset]?) h
  simp only [getElem?_load] at hindex
  rw [if_pos (by omega), if_pos (by omega), Nat.add_sub_cancel' hlow] at hindex
  exact Option.some.inj hindex

theorem load_append (memory : Nat → Cell) (offset left right : Nat) :
    load memory offset (left + right) =
      load memory offset left ++ load memory (offset + left) right := by
  simp [load, List.range_add, Nat.add_assoc]

theorem load_succ (memory : Nat → Cell) (offset length : Nat) :
    load memory offset (length + 1) = memory offset :: load memory (offset + 1) length := by
  rw [Nat.add_comm, load_append]
  rfl

theorem drop_load (memory : Nat → Cell) (offset length count : Nat) :
    (load memory offset length).drop count = load memory (offset + count) (length - count) := by
  apply List.ext_getElem
  · simp
  · intro index hindex _
    simp [load, Nat.add_assoc]

theorem take_load (memory : Nat → Cell) (offset length count : Nat) :
    (load memory offset length).take count = load memory offset (min count length) := by
  apply List.ext_getElem
  · simp
  · intro index hindex _
    simp [load]

theorem store_beside (memory : Nat → Cell) {offset address : Nat} {cells : List Cell}
    (h : address < offset ∨ offset + cells.length ≤ address) :
    store memory offset cells address = memory address := by
  unfold store
  split
  · rw [List.getElem?_eq_none (by omega), Option.getD_none]
  · rfl

theorem load_store_inside (memory : Nat → Cell) (offset start length : Nat)
    (cells : List Cell) (h : start + length ≤ cells.length) :
    load (store memory offset cells) (offset + start) length =
      (cells.drop start).take length := by
  apply List.ext_getElem
  · simp only [length_load, List.length_take, List.length_drop]
    omega
  · intro index hindex _
    rw [length_load] at hindex
    have hbound : start + index < cells.length := by omega
    simp [load, store, Nat.add_assoc, hbound]

theorem load_store_self (memory : Nat → Cell) (offset : Nat) (cells : List Cell) :
    load (store memory offset cells) offset cells.length = cells := by
  simpa using load_store_inside memory offset 0 cells.length cells (by omega)

theorem load_store_beside (memory : Nat → Cell) {offset start length : Nat}
    {cells : List Cell} (h : start + length ≤ offset ∨ offset + cells.length ≤ start) :
    load (store memory offset cells) start length = load memory start length := by
  apply load_congr
  intro address hlow hhigh
  exact store_beside memory (by omega)

end VirtualSfc.Base.Memory
