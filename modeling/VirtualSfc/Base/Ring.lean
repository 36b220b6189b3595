import Mathlib.Data.List.Basic
import Mathlib.Data.Nat.ModEq
import Mathlib.Logic.Function.Basic

/-! Descriptor rings with `2 ^ bits` slots and free-running 32-bit counters. One
slot stays unused, so a ring of this size holds at most `2 ^ bits - 1` values.
The counters wrap and the slots are their low bits; seen from outside the ring is
a queue. -/
namespace VirtualSfc.Base

universe u

structure Ring (α : Type u) (bits : Fin 32) where
  slots : Nat → α
  added : UInt32
  removed : UInt32
  bounded : (added - removed).toNat ≤ 2 ^ bits.val - 1

namespace Ring

variable {α : Type u} {bits : Fin 32}

def level (ring : Ring α bits) : Nat := (ring.added - ring.removed).toNat

def slot (bits : Fin 32) (counter : UInt32) : Nat :=
  (counter &&& UInt32.ofNat (2 ^ bits.val - 1)).toNat

/-- The queue that the ring represents, oldest value first. -/
def toList (ring : Ring α bits) : List α :=
  (List.range ring.level).map fun i => ring.slots (slot bits (ring.removed + UInt32.ofNat i))

def empty (value : α) : Ring α bits := ⟨fun _ => value, 0, 0, by simp⟩

theorem two_pow_le (bits : Fin 32) : 2 ^ bits.val ≤ 2 ^ 31 :=
  Nat.pow_le_pow_right (by decide) (by omega)

theorem succ_level (added removed : UInt32) (h : (added - removed).toNat + 1 < 2 ^ 32) :
    (added + 1 - removed).toNat = (added - removed).toNat + 1 := by
  have hadded := added.toNat_lt
  have hremoved := removed.toNat_lt
  simp only [UInt32.toNat_sub, UInt32.toNat_add, UInt32.toNat_one] at h ⊢
  omega

theorem pred_level (added removed : UInt32) (h : 0 < (added - removed).toNat) :
    (added - (removed + 1)).toNat + 1 = (added - removed).toNat := by
  have hadded := added.toNat_lt
  have hremoved := removed.toNat_lt
  simp only [UInt32.toNat_sub, UInt32.toNat_add, UInt32.toNat_one] at h ⊢
  omega

def push (ring : Ring α bits) (value : α) : Option (Ring α bits) :=
  if h : ring.level < 2 ^ bits.val - 1 then
    some {
      slots := Function.update ring.slots (slot bits ring.added) value
      added := ring.added + 1
      removed := ring.removed
      bounded := by
        have hbits := two_pow_le bits
        unfold level at h
        rw [succ_level _ _ (by omega)]
        omega }
  else none

def pop (ring : Ring α bits) : Option (α × Ring α bits) :=
  if h : 0 < ring.level then
    some (ring.slots (slot bits ring.removed), {
      slots := ring.slots
      added := ring.added
      removed := ring.removed + 1
      bounded := by
        have hbound := ring.bounded
        have hlevel := pred_level _ _ h
        omega })
  else none

theorem slot_eq (bits : Fin 32) (counter : UInt32) :
    slot bits counter = counter.toNat % 2 ^ bits.val := by
  have hbits := two_pow_le bits
  rw [slot, UInt32.toNat_and, UInt32.toNat_ofNat', Nat.mod_eq_of_lt (by omega),
    Nat.and_two_pow_sub_one_eq_mod]

theorem slot_add (bits : Fin 32) (counter : UInt32) (i : Nat) :
    slot bits (counter + UInt32.ofNat i) = (counter.toNat + i) % 2 ^ bits.val := by
  have hdvd : 2 ^ bits.val ∣ 2 ^ 32 := Nat.pow_dvd_pow 2 (by omega)
  rw [slot_eq, UInt32.toNat_add, UInt32.toNat_ofNat', Nat.mod_mod_of_dvd _ hdvd,
    Nat.add_mod, Nat.mod_mod_of_dvd _ hdvd, ← Nat.add_mod]

theorem slot_ne (bits : Fin 32) (counter : UInt32) {i level : Nat} (hi : i < level)
    (hlevel : level < 2 ^ bits.val) :
    slot bits (counter + UInt32.ofNat i) ≠ slot bits (counter + UInt32.ofNat level) := by
  rw [slot_add, slot_add]
  intro hsame
  have hmod : i ≡ level [MOD 2 ^ bits.val] := Nat.ModEq.add_left_cancel' _ hsame
  have hequal := Nat.ModEq.eq_of_lt_of_lt hmod (Nat.lt_trans hi hlevel) hlevel
  omega

theorem removed_add_level (ring : Ring α bits) :
    ring.removed + UInt32.ofNat ring.level = ring.added := by
  apply UInt32.toNat_inj.mp
  have hadded := ring.added.toNat_lt
  have hremoved := ring.removed.toNat_lt
  simp only [level, UInt32.toNat_add, UInt32.toNat_sub, UInt32.toNat_ofNat']
  omega

theorem length_toList (ring : Ring α bits) : ring.toList.length = ring.level := by
  simp [toList]

theorem push_eq_none {ring : Ring α bits} {value : α} (h : ring.push value = none) :
    ring.level = 2 ^ bits.val - 1 := by
  have hbound : ring.level ≤ 2 ^ bits.val - 1 := ring.bounded
  unfold push at h
  split at h
  · contradiction
  · omega

theorem push_eq_some {ring next : Ring α bits} {value : α} (h : ring.push value = some next) :
    next.added = ring.added + 1 ∧ next.removed = ring.removed ∧
      next.toList = ring.toList ++ [value] := by
  unfold push at h
  split at h
  · rename_i hspace
    have hbits := two_pow_le bits
    have hnext := Option.some.inj h
    have hroom : (ring.added - ring.removed).toNat + 1 < 2 ^ 32 := by
      change ring.level + 1 < 2 ^ 32
      omega
    have hlevel : next.level = ring.level + 1 := by
      rw [← hnext]
      exact succ_level _ _ hroom
    refine ⟨by rw [← hnext], by rw [← hnext], ?_⟩
    rw [toList, hlevel, List.range_succ, List.map_append, List.map_singleton, ← hnext]
    congr 1
    · apply List.map_congr_left
      intro i hi
      have hne := slot_ne bits ring.removed (List.mem_range.mp hi)
        (by omega : ring.level < 2 ^ bits.val)
      rw [removed_add_level] at hne
      simp [Function.update_of_ne hne]
    · simp [removed_add_level]
  · contradiction

theorem pop_eq_some {ring next : Ring α bits} {value : α}
    (h : ring.pop = some (value, next)) :
    next.added = ring.added ∧ next.removed = ring.removed + 1 ∧
      ring.toList = value :: next.toList := by
  unfold pop at h
  split at h
  · rename_i hlevel
    have hpair := Prod.mk.inj (Option.some.inj h)
    have hnext : ring.level = next.level + 1 := by
      rw [← hpair.2]
      exact (pred_level _ _ hlevel).symm
    refine ⟨by rw [← hpair.2], by rw [← hpair.2], ?_⟩
    rw [toList, hnext, List.range_succ_eq_map, List.map_cons, List.map_map, ← hpair.1,
      toList, ← hpair.2]
    congr 1
    · simp
    · apply List.map_congr_left
      intro i _
      change ring.slots (slot bits (ring.removed + UInt32.ofNat (i + 1))) =
        ring.slots (slot bits (ring.removed + 1 + UInt32.ofNat i))
      rw [UInt32.ofNat_add, UInt32.add_assoc, UInt32.add_comm (UInt32.ofNat i)]
      rfl
  · contradiction

theorem pop_ne_none {ring : Ring α bits} (h : ring.toList ≠ []) : ring.pop ≠ none := by
  have hlevel : 0 < ring.level := by
    rw [← length_toList]
    exact List.length_pos_of_ne_nil h
  simp [pop, hlevel]

end Ring

end VirtualSfc.Base
