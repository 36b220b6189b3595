import Mathlib

/-! The Internet checksum: sixteen-bit words added with the carry taken round, and
the complement of their sum. A receiver that adds up the words together with the
checksum gets all ones. -/
namespace VirtualSfc.Base.Checksum

/-- The words of a byte string in network order, an odd last byte padded with zero. -/
def words : List UInt8 → List Nat
  | [] => []
  | [high] => [high.toNat * 256]
  | high :: low :: rest => (high.toNat * 256 + low.toNat) :: words rest

theorem words_append {left : List UInt8} (h : left.length % 2 = 0) (right : List UInt8) :
    words (left ++ right) = words left ++ words right := by
  induction left using words.induct with
  | case1 => rfl
  | case2 high => simp at h
  | case3 high low rest ih =>
      have hrest : rest.length % 2 = 0 := by
        simp only [List.length_cons] at h
        omega
      simp [words, ih hrest]

theorem words_le {bytes : List UInt8} {word : Nat} (h : word ∈ words bytes) : word ≤ 65535 := by
  induction bytes using words.induct with
  | case1 => simp [words] at h
  | case2 high =>
      have hhigh := high.toNat_lt
      simp only [words, List.mem_singleton] at h
      omega
  | case3 high low rest ih =>
      have hhigh := high.toNat_lt
      have hlow := low.toNat_lt
      simp only [words, List.mem_cons] at h
      cases h with
      | inl hword => omega
      | inr hrest => exact ih hrest

def add (left right : Nat) : Nat :=
  if left + right < 65536 then left + right else left + right - 65535

def sum (values : List Nat) : Nat := values.foldl add 0

def checksum (values : List Nat) : Nat := 65535 - sum values

/-- What a total of any size comes to: its remainder, with 65535 for a multiple. -/
def reduce (total : Nat) : Nat :=
  if total = 0 then 0 else (total - 1) % 65535 + 1

theorem reduce_spec (total : Nat) :
    reduce total ≤ 65535 ∧ reduce total % 65535 = total % 65535 ∧
      (reduce total = 0 ↔ total = 0) := by
  unfold reduce
  split
  · omega
  · omega

theorem add_reduce (total : Nat) {word : Nat} (h : word ≤ 65535) :
    add (reduce total) word = reduce (total + word) := by
  have htotal := reduce_spec total
  have hsum := reduce_spec (total + word)
  unfold add
  split
  · omega
  · omega

theorem foldl_add {values : List Nat} (h : ∀ word ∈ values, word ≤ 65535) (total : Nat) :
    values.foldl add (reduce total) = reduce (total + values.sum) := by
  induction values generalizing total with
  | nil => rfl
  | cons word values ih =>
      rw [List.foldl_cons, add_reduce total (h word List.mem_cons_self),
        ih (fun other hother => h other (List.mem_cons_of_mem _ hother)), List.sum_cons,
        Nat.add_assoc]

theorem sum_eq_reduce {values : List Nat} (h : ∀ word ∈ values, word ≤ 65535) :
    sum values = reduce values.sum := by
  simpa [sum, reduce] using foldl_add h 0

theorem sum_insert {before after : List Nat} (hbefore : ∀ word ∈ before, word ≤ 65535)
    (hafter : ∀ word ∈ after, word ≤ 65535) {word : Nat} (hword : word ≤ 65535)
    (hpos : 0 < word + sum (before ++ after))
    (h : (word + sum (before ++ after)) % 65535 = 0) :
    sum (before ++ word :: after) = 65535 := by
  have hothers := List.forall_mem_append.mpr ⟨hbefore, hafter⟩
  have hall := List.forall_mem_append.mpr ⟨hbefore, List.forall_mem_cons.mpr ⟨hword, hafter⟩⟩
  rw [sum_eq_reduce hothers, List.sum_append] at hpos h
  rw [sum_eq_reduce hall, List.sum_append, List.sum_cons]
  have hwithout := reduce_spec (before.sum + after.sum)
  have hwith := reduce_spec (before.sum + (word + after.sum))
  omega

/-- A checksum verifies, and so does all ones in the place of zero. -/
theorem sum_checksum {before after : List Nat} (hbefore : ∀ word ∈ before, word ≤ 65535)
    (hafter : ∀ word ∈ after, word ≤ 65535) {word : Nat}
    (h : word = checksum (before ++ after) ∨ (checksum (before ++ after) = 0 ∧ word = 65535)) :
    sum (before ++ word :: after) = 65535 := by
  have hothers := List.forall_mem_append.mpr ⟨hbefore, hafter⟩
  have hle : sum (before ++ after) ≤ 65535 := by
    rw [sum_eq_reduce hothers]
    exact (reduce_spec _).1
  unfold checksum at h
  apply sum_insert hbefore hafter
  · omega
  · omega
  · omega

/-! Totals that the checksum does not tell apart, and words in the other byte order. -/

structure Alike (left right : Nat) : Prop where
  residue : left % 65535 = right % 65535
  zero : left = 0 ↔ right = 0

namespace Alike

theorem refl (total : Nat) : Alike total total := ⟨rfl, Iff.rfl⟩

theorem trans {left middle right : Nat} (h : Alike left middle) (hright : Alike middle right) :
    Alike left right :=
  ⟨h.residue.trans hright.residue, h.zero.trans hright.zero⟩

theorem add {left right left' right' : Nat} (h : Alike left right) (h' : Alike left' right') :
    Alike (left + left') (right + right') := by
  have := h.residue
  have := h.zero
  have := h'.residue
  have := h'.zero
  constructor
  · omega
  · omega

theorem scale {left right : Nat} (h : Alike left right) (factor : Nat) :
    Alike (factor * left) (factor * right) := by
  constructor
  · rw [Nat.mul_mod, h.residue, ← Nat.mul_mod]
  · rw [Nat.mul_eq_zero, Nat.mul_eq_zero, h.zero]

theorem eq_reduce {left right : Nat} (h : Alike left right) (hle : left ≤ 65535) :
    left = reduce right := by
  have := h.residue
  have := h.zero
  have := reduce_spec right
  omega

end Alike

theorem reduce_alike (total : Nat) : Alike (reduce total) total :=
  ⟨(reduce_spec total).2.1, (reduce_spec total).2.2⟩

theorem Alike.reduce_eq {left right : Nat} (h : Alike left right) : reduce left = reduce right :=
  Alike.eq_reduce ((reduce_alike left).trans h) (reduce_spec left).1

theorem fold_alike (low high : Nat) : Alike (low + high) (low + 65536 * high) := by
  constructor
  · omega
  · omega

theorem fold_twice {low high : Nat} (hlow : low < 65536) (hhigh : high < 65536) :
    (low + high + (low + high) / 65536) % 65536 = reduce (low + 65536 * high) := by
  apply Alike.eq_reduce _ (by omega)
  apply Alike.trans _ (fold_alike low high)
  by_cases hcarry : low + high < 65536
  · rw [Nat.div_eq_of_lt hcarry, Nat.add_zero, Nat.mod_eq_of_lt hcarry]
    exact Alike.refl _
  · rw [show (low + high) / 65536 = 1 by omega, Nat.mod_eq_sub_mod (by omega),
      Nat.mod_eq_of_lt (by omega)]
    constructor
    · omega
    · omega

def leWords : List UInt8 → List Nat
  | [] => []
  | [low] => [low.toNat]
  | low :: high :: rest => (low.toNat + 256 * high.toNat) :: leWords rest

theorem leWords_append {left : List UInt8} (h : left.length % 2 = 0) (right : List UInt8) :
    leWords (left ++ right) = leWords left ++ leWords right := by
  induction left using leWords.induct with
  | case1 => rfl
  | case2 low => simp at h
  | case3 low high rest ih =>
      have hrest : rest.length % 2 = 0 := by
        simp only [List.length_cons] at h
        omega
      simp [leWords, ih hrest]

theorem sum_leWords_le (bytes : List UInt8) : (leWords bytes).sum ≤ 65535 * bytes.length := by
  induction bytes using leWords.induct with
  | case1 => exact Nat.le_refl 0
  | case2 low =>
      have hlow := low.toNat_lt
      simp only [leWords, List.sum_singleton, List.length_singleton]
      omega
  | case3 low high rest ih =>
      have hlow := low.toNat_lt
      have hhigh := high.toNat_lt
      simp only [leWords, List.sum_cons, List.length_cons]
      omega

theorem leWords_alike (bytes : List UInt8) :
    Alike (256 * (leWords bytes).sum) (words bytes).sum := by
  induction bytes using leWords.induct with
  | case1 => exact Alike.refl 0
  | case2 low =>
      simp only [leWords, words, List.sum_singleton, Nat.mul_comm]
      exact Alike.refl _
  | case3 low high rest ih =>
      simp only [leWords, words, List.sum_cons, Nat.mul_add]
      apply Alike.add _ ih
      constructor
      · omega
      · omega

def swap (word : Nat) : Nat := word % 256 * 256 + word / 256

theorem swap_alike (word : Nat) : Alike (swap word) (256 * word) := by
  unfold swap
  constructor
  · omega
  · omega

theorem swap_le {word : Nat} (h : word ≤ 65535) : swap word ≤ 65535 := by
  unfold swap
  omega

/-- The sum does not depend on the byte order in which it is taken. -/
theorem swap_reduce (bytes : List UInt8) :
    swap (reduce (leWords bytes).sum) = sum (words bytes) := by
  rw [sum_eq_reduce fun _ => words_le]
  apply Alike.eq_reduce _ (swap_le (reduce_spec _).1)
  exact (swap_alike _).trans (((reduce_alike _).scale 256).trans (leWords_alike bytes))

theorem swap_complement {word : Nat} (h : word ≤ 65535) :
    swap (65535 - word) = 65535 - swap word := by
  unfold swap
  omega

end VirtualSfc.Base.Checksum
