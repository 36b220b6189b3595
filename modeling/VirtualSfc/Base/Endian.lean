import Mathlib

/-! Numbers as bytes, the lowest byte first. -/
namespace VirtualSfc.Base.Endian

def fromLe (bytes : List UInt8) : Nat := Nat.ofDigits 256 (bytes.map UInt8.toNat)

def toLe : Nat → Nat → List UInt8
  | 0, _ => []
  | count + 1, value => UInt8.ofNat value :: toLe count (value / 256)

theorem fromLe_nil : fromLe [] = 0 := rfl

theorem fromLe_cons (byte : UInt8) (bytes : List UInt8) :
    fromLe (byte :: bytes) = byte.toNat + 256 * fromLe bytes := by
  simp [fromLe, Nat.ofDigits_cons]

theorem fromLe_lt (bytes : List UInt8) : fromLe bytes < 256 ^ bytes.length := by
  induction bytes with
  | nil => decide
  | cons byte bytes ih =>
      have hbyte := byte.toNat_lt
      rw [fromLe_cons, List.length_cons, Nat.pow_succ]
      omega

@[simp] theorem length_toLe (count value : Nat) : (toLe count value).length = count := by
  induction count generalizing value with
  | zero => rfl
  | succ count ih => simp [toLe, ih]

theorem fromLe_toLe (count value : Nat) : fromLe (toLe count value) = value % 256 ^ count := by
  induction count generalizing value with
  | zero => rw [toLe, fromLe_nil, Nat.pow_zero, Nat.mod_one]
  | succ count ih =>
      have hsplit : value % 256 ^ (count + 1) =
          value % 256 + 256 * (value / 256 % 256 ^ count) := by
        rw [Nat.pow_succ', Nat.mod_mul]
      rw [toLe, fromLe_cons, ih, UInt8.toNat_ofNat', hsplit]

end VirtualSfc.Base.Endian
