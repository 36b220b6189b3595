import Mathlib.Data.BitVec
import Mathlib.Data.Nat.Bitwise

/-! Masks, and words of 64 bits made of fields. A word is populated by shifting each
value to the place of its field, without a mask: fields that do not overlap are read
back as long as every value fits. -/
namespace VirtualSfc.Base

theorem and_shifted_mask (value width shift : Nat) :
    value &&& (2 ^ width - 1) <<< shift = value / 2 ^ shift % 2 ^ width * 2 ^ shift := by
  rw [← Nat.and_two_pow_sub_one_eq_mod, ← Nat.shiftLeft_eq, ← Nat.shiftRight_eq_div_pow]
  apply Nat.eq_of_testBit_eq
  intro i
  simp only [Nat.testBit_and, Nat.testBit_shiftLeft, Nat.testBit_shiftRight]
  by_cases hlow : shift ≤ i
  · simp [hlow, Nat.add_sub_cancel' hlow]
  · simp [hlow]

theorem and_eq_left_iff (value mask : UInt32) : value &&& mask = value ↔ value &&& ~~~mask = 0 := by
  simp only [← UInt32.toBitVec_inj, UInt32.toBitVec_and, UInt32.toBitVec_not,
    BitVec.eq_of_getLsbD_eq_iff, BitVec.getLsbD_and, BitVec.getLsbD_not]
  refine forall₂_congr fun i hi => ?_
  simp [hi]

theorem or_and_eq_iff {flags mark mask : UInt32} (hmark : mark &&& mask = mark) :
    (flags ||| mark) &&& mask = flags ||| mark ↔ flags &&& ~~~mask = 0 := by
  have hdistrib : (flags ||| mark) &&& ~~~mask = (flags &&& ~~~mask) ||| (mark &&& ~~~mask) := by
    apply UInt32.toBitVec_inj.mp
    simp only [UInt32.toBitVec_and, UInt32.toBitVec_or, BitVec.and_or_distrib_right]
  rw [and_eq_left_iff] at hmark ⊢
  rw [hdistrib, hmark, UInt32.or_zero]

structure Field where
  lbn : Nat
  width : Nat
deriving DecidableEq, Repr

namespace Field

def extract (field : Field) (word : BitVec 64) : BitVec 64 :=
  (word >>> field.lbn) &&& BitVec.ofNat 64 (2 ^ field.width - 1)

def populate : List (Field × BitVec 64) → BitVec 64
  | [] => 0#64
  | (field, value) :: rest => (value <<< field.lbn) ||| populate rest

def Apart (first second : Field) : Prop :=
  first.lbn + first.width ≤ second.lbn ∨ second.lbn + second.width ≤ first.lbn

instance (first second : Field) : Decidable (Apart first second) :=
  inferInstanceAs (Decidable (_ ∨ _))

def Fits (field : Field) (value : BitVec 64) : Prop :=
  field.lbn + field.width ≤ 64 ∧ value.toNat < 2 ^ field.width

theorem Fits.getLsbD {field : Field} {value : BitVec 64} (h : field.Fits value) {i : Nat}
    (hi : field.width ≤ i) : value.getLsbD i = false := by
  rw [← BitVec.testBit_toNat]
  apply Nat.testBit_lt_two_pow
  exact Nat.lt_of_lt_of_le h.2 (Nat.pow_le_pow_right (by decide) hi)

theorem getLsbD_extract (field : Field) (word : BitVec 64) (i : Nat) (hi : i < 64) :
    (field.extract word).getLsbD i =
      (word.getLsbD (field.lbn + i) && decide (i < field.width)) := by
  rw [extract, BitVec.getLsbD_and, BitVec.getLsbD_ushiftRight, BitVec.getLsbD_ofNat,
    Nat.testBit_two_pow_sub_one]
  simp [hi]

theorem getLsbD_populate_outside {fields : List (Field × BitVec 64)}
    (hfits : ∀ entry ∈ fields, entry.1.Fits entry.2) {i : Nat}
    (hout : ∀ entry ∈ fields, i < entry.1.lbn ∨ entry.1.lbn + entry.1.width ≤ i) :
    (populate fields).getLsbD i = false := by
  induction fields with
  | nil => simp [populate]
  | cons entry rest ih =>
      rw [List.forall_mem_cons] at hfits hout
      rw [populate, BitVec.getLsbD_or, ih hfits.2 hout.2, Bool.or_false, BitVec.getLsbD_shiftLeft]
      cases hout.1 with
      | inl hbefore => simp [hbefore]
      | inr hafter =>
          rw [hfits.1.getLsbD (by omega), Bool.and_false]

theorem extract_populate_apart {field : Field} {fields : List (Field × BitVec 64)}
    (hfits : ∀ entry ∈ fields, entry.1.Fits entry.2)
    (hapart : ∀ entry ∈ fields, field.Apart entry.1) : field.extract (populate fields) = 0 := by
  apply BitVec.eq_of_getLsbD_eq
  intro i hi
  rw [getLsbD_extract _ _ _ hi]
  by_cases hwidth : i < field.width
  · rw [getLsbD_populate_outside hfits fun entry hentry => ?_]
    · simp
    · have hentry := hapart entry hentry
      rw [Apart] at hentry
      omega
  · simp [hwidth]

theorem extract_and (field : Field) (first second : BitVec 64) :
    field.extract (first &&& second) = field.extract first &&& field.extract second := by
  apply BitVec.eq_of_getLsbD_eq
  intro i hi
  rw [BitVec.getLsbD_and, getLsbD_extract _ _ _ hi, getLsbD_extract _ _ _ hi,
    getLsbD_extract _ _ _ hi, BitVec.getLsbD_and]
  cases decide (i < field.width) <;> simp

theorem extract_or (field : Field) (first second : BitVec 64) :
    field.extract (first ||| second) = field.extract first ||| field.extract second := by
  simp only [extract, BitVec.ushiftRight_or_distrib, BitVec.and_comm _ (BitVec.ofNat _ _),
    BitVec.and_or_distrib_left]

theorem extract_shiftLeft {field : Field} {value : BitVec 64} (h : field.Fits value) :
    field.extract (value <<< field.lbn) = value := by
  apply BitVec.eq_of_getLsbD_eq
  intro i hi
  rw [getLsbD_extract _ _ _ hi, BitVec.getLsbD_shiftLeft]
  by_cases hwidth : i < field.width
  · have hplace : field.lbn + i < 64 := by
      have := h.1
      omega
    simp [hwidth, hplace]
  · simp [hwidth, h.getLsbD (Nat.le_of_not_lt hwidth)]

theorem extract_populate {fields : List (Field × BitVec 64)}
    (hfits : ∀ entry ∈ fields, entry.1.Fits entry.2)
    (hapart : fields.Pairwise fun first second => first.1.Apart second.1)
    {field : Field} {value : BitVec 64} (hmem : (field, value) ∈ fields) :
    field.extract (populate fields) = value := by
  induction fields with
  | nil => contradiction
  | cons entry rest ih =>
      rw [List.forall_mem_cons] at hfits
      rw [List.pairwise_cons] at hapart
      rw [populate, extract_or]
      cases List.mem_cons.mp hmem with
      | inl hfirst =>
          rw [← hfirst] at hfits hapart ⊢
          rw [extract_shiftLeft hfits.1, extract_populate_apart hfits.2 hapart.1]
          simp
      | inr hrest =>
          have hother : field.Apart entry.1 := (hapart.1 _ hrest).symm
          have hzero := extract_populate_apart (List.forall_mem_singleton.mpr hfits.1)
            (List.forall_mem_singleton.mpr hother)
          rw [populate, populate, BitVec.or_zero] at hzero
          rw [hzero, ih hfits.2 hapart.2 hrest]
          simp

end Field

end VirtualSfc.Base
