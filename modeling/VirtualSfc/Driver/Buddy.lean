import Mathlib
import VirtualSfc.Base.Dyadic

/-! The buddy allocator of the resource driver. Its free lists always hold the largest blocks of
the set of free units, so that it refuses a request only if no block of that size is free. -/
namespace VirtualSfc.Driver.Buddy
open Base.Dyadic

/-- `linked` says that `links[addr].next` is not `NULL`. -/
structure BuddyAllocator where
  freeLists : Nat → List Nat
  linked : Nat → Bool
  orders : Nat → UInt8
  order : Nat

namespace BuddyAllocator

def freeListAdd (b : BuddyAllocator) (order addr : Nat) : BuddyAllocator :=
  { b with
    freeLists := Function.update b.freeLists order (addr :: b.freeLists order)
    linked := Function.update b.linked addr true
    orders := Function.update b.orders addr (UInt8.ofNat order) }

def freeListDel (b : BuddyAllocator) (addr : Nat) : BuddyAllocator :=
  { b with
    freeLists := fun order => (b.freeLists order).erase addr
    linked := Function.update b.linked addr false }

def freeListPop (b : BuddyAllocator) (order addr : Nat) : BuddyAllocator :=
  { b with
    freeLists := Function.update b.freeLists order (b.freeLists order).tail
    linked := Function.update b.linked addr false }

def ctor (order : Nat) : BuddyAllocator :=
  freeListAdd ⟨fun _ => [], fun _ => false, fun _ => 0, order⟩ order 0

/-- The first loop of `efrm_buddy_alloc`, which ends after the highest order. -/
def findSmallest (b : BuddyAllocator) : Nat → Nat → Nat
  | 0, smallest => smallest
  | left + 1, smallest =>
      if (b.freeLists smallest).isEmpty then b.findSmallest left (smallest + 1) else smallest

def split (b : BuddyAllocator) (order addr : Nat) : Nat → BuddyAllocator
  | 0 => b
  | n + 1 => (b.freeListAdd (order + n) (addr + 2 ^ (order + n))).split order addr n

/-- The result `none` is `-ENOMEM`. -/
def alloc (b : BuddyAllocator) (order : Nat) : Option Nat × BuddyAllocator :=
  let smallest := b.findSmallest (b.order + 1 - order) order
  if b.order < smallest then (none, b)
  else
    match b.freeLists smallest with
    | [] => (none, b)
    | addr :: _ => (some addr, (b.freeListPop smallest addr).split order addr (smallest - order))

/-- The loop of `efrm_buddy_free`, which ends at the highest order. -/
def merge (b : BuddyAllocator) : Nat → Nat → Nat → BuddyAllocator × Nat × Nat
  | 0, order, addr => (b, order, addr)
  | left + 1, order, addr =>
      let buddyAddr := addr ^^^ 1 <<< order
      if b.linked buddyAddr = false ∨ (b.orders buddyAddr).toNat ≠ order then (b, order, addr)
      else
        (b.freeListDel buddyAddr).merge left (order + 1)
          (if buddyAddr < addr then buddyAddr else addr)

def free (b : BuddyAllocator) (addr order : Nat) : BuddyAllocator :=
  let merged := b.merge (b.order - order) order addr
  merged.1.freeListAdd merged.2.1 merged.2.2

/-- The blocks that `accept_fn` rejects are kept until the end. Without fuel there is no
result. -/
def allocUntil (b : BuddyAllocator) (order : Nat) (acceptFn : Nat → Nat → Bool) :
    Nat → List Nat → Option (Option Nat × List Nat × BuddyAllocator)
  | 0, _ => none
  | fuel + 1, rejects =>
      match b.alloc order with
      | (none, b) => some (none, rejects, b)
      | (some addr, b) =>
          if acceptFn addr order then some (some addr, rejects, b)
          else b.allocUntil order acceptFn fuel (addr :: rejects)

def freeAll (b : BuddyAllocator) (order : Nat) (addrs : List Nat) : BuddyAllocator :=
  addrs.foldl (fun b addr => b.free addr order) b

def allocSpecial (b : BuddyAllocator) (order : Nat) (acceptFn : Nat → Nat → Bool) :
    Option (Option Nat × BuddyAllocator) :=
  (b.allocUntil order acceptFn (2 ^ b.order + 1) []).map fun (addr, rejects, b) =>
    (addr, b.freeAll order rejects)

def fls (value : Nat) : Nat := value.size

/-- Everything is allocated, and the units of the range are freed. -/
def rangeCtor (low high : Nat) : BuddyAllocator :=
  let log2N := fls (high - 1)
  let taken := (List.range (2 ^ log2N)).foldl (fun b _ => (b.alloc 0).2) (ctor log2N)
  taken.freeAll 0 (List.range' low (high - low))

end BuddyAllocator

/-! The free lists as a set of units. -/

/-- The free units are these, and the free lists hold their largest blocks. -/
structure Represents (top : Nat) (b : BuddyAllocator) (units : Set Nat) : Prop where
  top_lt : top < 32
  order_eq : b.order = top
  within : units ⊆ block top 0
  listed : ∀ order addr, addr ∈ b.freeLists order ↔
    2 ^ order ∣ addr ∧ Largest units top order (addr / 2 ^ order)
  nodup : ∀ order, (b.freeLists order).Nodup
  linked : ∀ addr, b.linked addr = true ↔ ∃ order, addr ∈ b.freeLists order
  orders : ∀ order addr, addr ∈ b.freeLists order → (b.orders addr).toNat = order

def unitsAt (order addr : Nat) : Set Nat := block order (addr / 2 ^ order)

theorem mem_unitsAt (order addr : Nat) : addr ∈ unitsAt order addr := rfl

section Addresses

variable {order addr : Nat}

theorem addr_eq (hdvd : 2 ^ order ∣ addr) {other : Nat} (hother : 2 ^ order ∣ other) :
    other / 2 ^ order = addr / 2 ^ order ↔ other = addr := by
  constructor
  · intro hindex
    rw [← Nat.div_mul_cancel hdvd, ← Nat.div_mul_cancel hother, hindex]
  · rintro rfl
    rfl

theorem unitsAt_eq (hdvd : 2 ^ order ∣ addr) :
    unitsAt order addr = Set.Ico addr (addr + 2 ^ order) := by
  ext unit
  have hpos := Nat.two_pow_pos order
  rw [unitsAt, mem_block, Set.mem_Ico, Nat.div_eq_iff hpos, Nat.div_mul_cancel hdvd]
  omega

theorem upper_half (hdvd : 2 ^ (order + 1) ∣ addr) :
    (addr + 2 ^ order) / 2 ^ order = buddy (addr / 2 ^ order) := by
  have heven : addr / 2 ^ order % 2 = 0 := by
    obtain ⟨index, rfl⟩ := hdvd
    rw [Nat.pow_succ, Nat.mul_assoc, Nat.mul_div_cancel_left _ (Nat.two_pow_pos order)]
    exact Nat.mul_mod_right 2 index
  rw [Nat.add_div_right _ (Nat.two_pow_pos order), buddy_of_even heven]

theorem unitsAt_succ (order addr : Nat) :
    unitsAt (order + 1) addr = unitsAt order addr ∪ block order (buddy (addr / 2 ^ order)) := by
  rw [unitsAt, Nat.pow_succ, ← Nat.div_div_eq_div_mul, block_parent]
  rfl

theorem unitsAt_within {top : Nat} (horder : order ≤ top) (haddr : addr < 2 ^ top) :
    unitsAt order addr ⊆ block top 0 := by
  obtain ⟨above, rfl⟩ := Nat.exists_eq_add_of_le horder
  apply block_subset (mem_unitsAt order addr)
  rwa [mem_block_zero]

theorem buddyAddr_eq (hdvd : 2 ^ order ∣ addr) :
    addr ^^^ 1 <<< order = buddy (addr / 2 ^ order) * 2 ^ order := by
  conv => lhs; rw [← Nat.div_mul_cancel hdvd]
  rw [← Nat.shiftLeft_eq, ← Nat.shiftLeft_xor_distrib, Nat.shiftLeft_eq]
  rfl

theorem unitsAt_buddyAddr (hdvd : 2 ^ order ∣ addr) :
    unitsAt order (addr ^^^ 1 <<< order) = block order (buddy (addr / 2 ^ order)) := by
  rw [unitsAt, buddyAddr_eq hdvd, Nat.mul_div_cancel _ (Nat.two_pow_pos order)]

theorem lower_half (hdvd : 2 ^ order ∣ addr) :
    (if addr ^^^ 1 <<< order < addr then addr ^^^ 1 <<< order else addr) =
      addr / 2 ^ (order + 1) * 2 ^ (order + 1) := by
  have hdiv := buddy_div (addr / 2 ^ order)
  have hmod := buddy_mod (addr / 2 ^ order)
  have hparent : addr / 2 ^ (order + 1) = addr / 2 ^ order / 2 := by
    rw [Nat.pow_succ, Nat.div_div_eq_div_mul]
  rw [buddyAddr_eq hdvd, hparent, Nat.pow_succ, Nat.mul_comm (2 ^ order) 2, ← Nat.mul_assoc]
  conv => lhs; rw [← Nat.div_mul_cancel hdvd, Nat.mul_div_cancel _ (Nat.two_pow_pos order)]
  split
  · rename_i hlt
    have hless := Nat.lt_of_mul_lt_mul_right hlt
    congr 1
    omega
  · rename_i hge
    have hnot : ¬buddy (addr / 2 ^ order) < addr / 2 ^ order := fun hlt =>
      hge (Nat.mul_lt_mul_of_pos_right hlt (Nat.two_pow_pos order))
    congr 1
    omega

end Addresses

section Lists

variable {top : Nat} {b : BuddyAllocator} {units : Set Nat} {order addr : Nat}

theorem Represents.unitsAt_subset (h : Represents top b units)
    (hlisted : addr ∈ b.freeLists order) : unitsAt order addr ⊆ units :=
  ((h.listed order addr).mp hlisted).2.whole

theorem Represents.order_unique (h : Represents top b units) {other : Nat}
    (hlisted : addr ∈ b.freeLists order) (hother : addr ∈ b.freeLists other) : other = order :=
  (((h.listed order addr).mp hlisted).2.unique ((h.listed other addr).mp hother).2
    (mem_unitsAt order addr) (mem_unitsAt other addr)).1

theorem Represents.freeListAdd (h : Represents top b units) (horder : order ≤ top)
    (hdvd : 2 ^ order ∣ addr) (haddr : addr < 2 ^ top)
    (hfree : Disjoint (unitsAt order addr) units)
    (hbuddy : order < top → ¬Whole units order (buddy (addr / 2 ^ order))) :
    Represents top (b.freeListAdd order addr) (units ∪ unitsAt order addr) := by
  have hnew (other : Nat) : addr ∉ b.freeLists other := by
    intro hlisted
    exact Set.disjoint_left.mp hfree (mem_unitsAt order addr)
      (h.unitsAt_subset hlisted (mem_unitsAt other addr))
  have hlists (other place : Nat) : place ∈ (b.freeListAdd order addr).freeLists other ↔
      place ∈ b.freeLists other ∨ other = order ∧ place = addr := by
    by_cases hother : other = order
    · subst hother
      simp [BuddyAllocator.freeListAdd, or_comm]
    · simp [BuddyAllocator.freeListAdd, hother]
  refine ⟨h.top_lt, h.order_eq, ?_, ?_, ?_, ?_, ?_⟩
  · exact Set.union_subset h.within (unitsAt_within horder haddr)
  · intro other place
    rw [hlists, h.listed, unitsAt, largest_add horder hfree hbuddy]
    constructor
    · rintro (⟨hplace, hlargest⟩ | ⟨rfl, rfl⟩)
      · exact ⟨hplace, .inl hlargest⟩
      · exact ⟨hdvd, .inr ⟨rfl, rfl⟩⟩
    · rintro ⟨hplace, hlargest | ⟨rfl, hindex⟩⟩
      · exact .inl ⟨hplace, hlargest⟩
      · exact .inr ⟨rfl, (addr_eq hdvd hplace).mp hindex⟩
  · intro other
    by_cases hother : other = order
    · subst hother
      simp [BuddyAllocator.freeListAdd, h.nodup, hnew]
    · simp [BuddyAllocator.freeListAdd, hother, h.nodup]
  · intro place
    simp only [hlists]
    by_cases hplace : place = addr
    · subst hplace
      simp [BuddyAllocator.freeListAdd]
    · simp [BuddyAllocator.freeListAdd, hplace, h.linked]
  · intro other place hplace
    rw [hlists] at hplace
    cases hplace with
    | inl hplace =>
        have hne : place ≠ addr := by
          rintro rfl
          exact hnew other hplace
        simp [BuddyAllocator.freeListAdd, hne, h.orders other place hplace]
    | inr hplace =>
        have hbyte : order < 256 :=
          Nat.lt_of_le_of_lt horder (Nat.lt_trans h.top_lt (by decide))
        simp [BuddyAllocator.freeListAdd, hplace, hbyte]

theorem Represents.freeListDel (h : Represents top b units)
    (hlisted : addr ∈ b.freeLists order) :
    Represents top (b.freeListDel addr) (units \ unitsAt order addr) := by
  obtain ⟨hdvd, hlargest⟩ := (h.listed order addr).mp hlisted
  have hlists (other place : Nat) : place ∈ (b.freeListDel addr).freeLists other ↔
      place ∈ b.freeLists other ∧ place ≠ addr := by
    rw [BuddyAllocator.freeListDel, (h.nodup other).mem_erase_iff, and_comm]
  refine ⟨h.top_lt, h.order_eq, Set.sdiff_subset.trans h.within, ?_, ?_, ?_, ?_⟩
  · intro other place
    rw [hlists, h.listed, unitsAt, largest_remove hlargest, and_assoc]
    refine and_congr_right fun hplace => and_congr_right fun hother => not_congr ?_
    constructor
    · rintro rfl
      exact hlargest.unique hother (mem_unitsAt order place) (mem_unitsAt other place)
    · rintro ⟨rfl, hindex⟩
      exact (addr_eq hdvd hplace).mp hindex
  · exact fun other => (h.nodup other).erase addr
  · intro place
    simp only [hlists]
    by_cases hplace : place = addr
    · subst hplace
      simp [BuddyAllocator.freeListDel]
    · simp [BuddyAllocator.freeListDel, hplace, h.linked]
  · intro other place hplace
    exact h.orders other place ((hlists other place).mp hplace).1

theorem Represents.freeListPop_eq (h : Represents top b units) {rest : List Nat}
    (hlist : b.freeLists order = addr :: rest) : b.freeListPop order addr = b.freeListDel addr := by
  have hlists : Function.update b.freeLists order (b.freeLists order).tail =
      fun other => (b.freeLists other).erase addr := by
    funext other
    by_cases hother : other = order
    · subst hother
      simp [hlist]
    · have hnot : addr ∉ b.freeLists other := fun hlisted =>
        hother (h.order_unique (by simp [hlist]) hlisted)
      rw [Function.update_of_ne hother, List.erase_of_not_mem hnot]
  rw [BuddyAllocator.freeListPop, hlists, BuddyAllocator.freeListDel]

end Lists

section Calls

variable {top : Nat} {b : BuddyAllocator} {units : Set Nat} {order addr : Nat}

theorem Represents.splitOnce (h : Represents top b (units \ unitsAt (order + 1) addr))
    (horder : order < top) (hdvd : 2 ^ (order + 1) ∣ addr) (haddr : addr < 2 ^ top)
    (hwhole : unitsAt (order + 1) addr ⊆ units) :
    Represents top (b.freeListAdd order (addr + 2 ^ order)) (units \ unitsAt order addr) := by
  have hupper : unitsAt order (addr + 2 ^ order) = block order (buddy (addr / 2 ^ order)) := by
    rw [unitsAt, upper_half hdvd]
  have hlower : 2 ^ order ∣ addr := Nat.dvd_trans (Nat.pow_dvd_pow 2 (Nat.le_succ order)) hdvd
  have hapart : Disjoint (unitsAt order addr) (unitsAt order (addr + 2 ^ order)) := by
    rw [hupper]
    exact disjoint_buddy order _
  rw [unitsAt_succ, ← hupper] at h hwhole
  have hplace : addr + 2 ^ order < 2 ^ top := by
    apply mem_block_zero.mp
    apply unitsAt_within horder haddr
    rw [unitsAt_succ, ← hupper]
    exact .inr (mem_unitsAt order _)
  have hadd := h.freeListAdd (Nat.le_of_lt horder) (Nat.dvd_add hlower (Nat.dvd_refl _)) hplace
    (Set.disjoint_sdiff_right.mono_left Set.subset_union_right)
    (fun _ hbuddy => by
      rw [upper_half hdvd, buddy_buddy] at hbuddy
      exact (hbuddy (mem_unitsAt order addr)).2 (.inl (mem_unitsAt order addr)))
  rwa [← Set.sdiff_sdiff, Set.sdiff_union_of_subset] at hadd
  intro unit hunit
  exact ⟨hwhole (.inr hunit), fun hmem => Set.disjoint_left.mp hapart hmem hunit⟩

theorem Represents.split (n : Nat) (h : Represents top b (units \ unitsAt (order + n) addr))
    (horder : order + n ≤ top) (hdvd : 2 ^ (order + n) ∣ addr) (haddr : addr < 2 ^ top)
    (hwhole : unitsAt (order + n) addr ⊆ units) :
    Represents top (b.split order addr n) (units \ unitsAt order addr) := by
  induction n generalizing b with
  | zero => exact h
  | succ n ih =>
      have hlower : 2 ^ (order + n) ∣ addr := Nat.dvd_trans (Nat.pow_dvd_pow 2 (by omega)) hdvd
      have hhalf : unitsAt (order + n) addr ⊆ units := by
        apply Set.Subset.trans _ hwhole
        rw [← Nat.add_assoc, unitsAt_succ]
        exact Set.subset_union_left
      have hnext := @Represents.splitOnce top b units (order + n) addr h (by omega) hdvd haddr
        hwhole
      exact ih hnext (by omega) hlower hhalf

theorem findSmallest_spec (b : BuddyAllocator) (left smallest : Nat) :
    let found := b.findSmallest left smallest
    smallest ≤ found ∧ found ≤ smallest + left ∧
      (∀ order, smallest ≤ order → order < found → b.freeLists order = []) ∧
      (found < smallest + left → b.freeLists found ≠ []) := by
  induction left generalizing smallest with
  | zero =>
      exact ⟨Nat.le_refl _, Nat.le_refl _, fun order hge hlt => absurd hge (Nat.not_le.mpr hlt),
        fun hlt => absurd hlt (Nat.lt_irrefl _)⟩
  | succ left ih =>
      dsimp only
      rw [BuddyAllocator.findSmallest]
      split
      · rename_i hempty
        obtain ⟨hle, hbound, hbelow, hfound⟩ := ih (smallest + 1)
        refine ⟨by omega, by omega, fun order hge hlt => ?_, fun hlt => hfound (by omega)⟩
        cases Nat.lt_or_eq_of_le hge with
        | inl habove => exact hbelow order habove hlt
        | inr hsame => exact hsame ▸ List.isEmpty_iff.mp hempty
      · rename_i hsome
        refine ⟨Nat.le_refl _, Nat.le_add_right _ _, by omega, fun _ hempty => hsome ?_⟩
        exact List.isEmpty_iff.mpr hempty

theorem Represents.listed_above (h : Represents top b units) {index : Nat}
    (hwhole : Whole units order index) :
    ∃ found, order ≤ found ∧ found ≤ top ∧ b.freeLists found ≠ [] := by
  obtain ⟨above, hlargest⟩ := hwhole.largest (hwhole.order_le h.within)
  refine ⟨order + above, Nat.le_add_right _ _, hlargest.order_le, ?_⟩
  apply List.ne_nil_of_mem
  rw [h.listed _ (index / 2 ^ above * 2 ^ (order + above)),
    Nat.mul_div_cancel _ (Nat.two_pow_pos _)]
  exact ⟨Nat.dvd_mul_left _ _, hlargest⟩

/-- What `efrm_buddy_alloc` answers: a whole block, or nothing if there is none. -/
theorem Represents.alloc (h : Represents top b units) (order : Nat) :
    (b.alloc order = (none, b) ∧ ∀ index, ¬Whole units order index) ∨
      ∃ addr b', b.alloc order = (some addr, b') ∧ 2 ^ order ∣ addr ∧
        unitsAt order addr ⊆ units ∧ Represents top b' (units \ unitsAt order addr) := by
  obtain ⟨hle, hbound, hbelow, hfound⟩ := findSmallest_spec b (b.order + 1 - order) order
  rw [BuddyAllocator.alloc]
  generalize b.findSmallest (b.order + 1 - order) order = smallest at hle hbound hbelow hfound ⊢
  rw [h.order_eq] at hbound hfound ⊢
  split
  · rename_i hlt
    refine .inl ⟨rfl, fun index hwhole => ?_⟩
    obtain ⟨found, hge, hle, hlist⟩ := h.listed_above hwhole
    exact hlist (hbelow found hge (Nat.lt_of_le_of_lt hle hlt))
  · rename_i hnot
    cases hlist : b.freeLists smallest with
    | nil => exact absurd hlist (hfound (by omega))
    | cons addr rest =>
        right
        obtain ⟨n, rfl⟩ := Nat.exists_eq_add_of_le hle
        have hlisted : addr ∈ b.freeLists (order + n) := by
          rw [hlist]
          exact List.mem_cons_self
        have hpop := h.freeListDel hlisted
        rw [← h.freeListPop_eq hlist] at hpop
        have hwhole := h.unitsAt_subset hlisted
        have hdvd := ((h.listed _ addr).mp hlisted).1
        have haddr := mem_block_zero.mp (h.within (hwhole (mem_unitsAt _ addr)))
        refine ⟨addr, _, rfl, Nat.dvd_trans (Nat.pow_dvd_pow 2 hle) hdvd, ?_, ?_⟩
        · exact (block_subset (mem_unitsAt order addr) (mem_unitsAt _ addr)).trans hwhole
        · rw [Nat.add_sub_cancel_left]
          exact hpop.split n (by omega) hdvd haddr hwhole

theorem Represents.mem_freeLists (h : Represents top b units) :
    ¬(b.linked addr = false ∨ (b.orders addr).toNat ≠ order) ↔ addr ∈ b.freeLists order := by
  rw [not_or, Bool.not_eq_false, not_not]
  constructor
  · rintro ⟨hlinked, horders⟩
    obtain ⟨other, hlisted⟩ := (h.linked addr).mp hlinked
    rwa [← h.orders other addr hlisted, horders] at hlisted
  · intro hlisted
    exact ⟨(h.linked addr).mpr ⟨order, hlisted⟩, h.orders order addr hlisted⟩

theorem Represents.buddy_listed (h : Represents top b units) (horder : order < top)
    (hdvd : 2 ^ order ∣ addr) (hfree : Disjoint (unitsAt order addr) units)
    (hwhole : Whole units order (buddy (addr / 2 ^ order))) :
    addr ^^^ 1 <<< order ∈ b.freeLists order := by
  rw [h.listed, buddyAddr_eq hdvd, Nat.mul_div_cancel _ (Nat.two_pow_pos order)]
  refine ⟨Nat.dvd_mul_left _ _, Nat.le_of_lt horder, hwhole, fun _ hparent => ?_⟩
  have hself := (whole_parent.mp hparent).2
  rw [buddy_buddy] at hself
  exact Set.disjoint_left.mp hfree (mem_unitsAt order addr) (hself (mem_unitsAt order addr))

theorem Represents.merge (left : Nat) (h : Represents top b units) (horder : order + left = top)
    (hdvd : 2 ^ order ∣ addr) (haddr : addr < 2 ^ top)
    (hfree : Disjoint (unitsAt order addr) units) :
    let merged := b.merge left order addr
    Represents top (merged.1.freeListAdd merged.2.1 merged.2.2) (units ∪ unitsAt order addr) := by
  induction left generalizing b units order addr with
  | zero =>
      have hle : order ≤ top := by omega
      exact h.freeListAdd hle hdvd haddr hfree fun hlt : order < top => absurd hlt (by omega)
  | succ left ih =>
      dsimp only
      rw [BuddyAllocator.merge]
      by_cases hnot : b.linked (addr ^^^ 1 <<< order) = false ∨
          (b.orders (addr ^^^ 1 <<< order)).toNat ≠ order
      · rw [if_pos hnot]
        apply h.freeListAdd (by omega) hdvd haddr hfree
        intro hlt hwhole
        exact h.mem_freeLists.mpr (h.buddy_listed hlt hdvd hfree hwhole) hnot
      · have hlisted := h.mem_freeLists.mp hnot
        have hwhole := h.unitsAt_subset hlisted
        rw [if_neg hnot, lower_half hdvd]
        have hparent : unitsAt (order + 1) (addr / 2 ^ (order + 1) * 2 ^ (order + 1)) =
            unitsAt order addr ∪ unitsAt order (addr ^^^ 1 <<< order) := by
          rw [unitsAt, Nat.mul_div_cancel _ (Nat.two_pow_pos _), unitsAt_buddyAddr hdvd]
          exact unitsAt_succ order addr
        have hnext := ih (h.freeListDel hlisted) (show order + 1 + left = top by omega)
          (Nat.dvd_mul_left _ _)
          (Nat.lt_of_le_of_lt (Nat.div_mul_le_self _ _) haddr)
          (by
            rw [hparent, Set.disjoint_union_left]
            exact ⟨hfree.mono_right Set.sdiff_subset, Set.disjoint_sdiff_right⟩)
        rwa [hparent, Set.union_comm (unitsAt order addr), ← Set.union_assoc,
          Set.sdiff_union_of_subset hwhole] at hnext

theorem Represents.free (h : Represents top b units) (horder : order ≤ top)
    (hdvd : 2 ^ order ∣ addr) (haddr : addr < 2 ^ top)
    (hfree : Disjoint (unitsAt order addr) units) :
    Represents top (b.free addr order) (units ∪ unitsAt order addr) := by
  rw [BuddyAllocator.free, h.order_eq]
  exact h.merge (top - order) (by omega) hdvd haddr hfree

def granted (order : Nat) : Option Nat → Set Nat
  | none => ∅
  | some addr => unitsAt order addr

/-- What a request with a condition is to answer. -/
def Answers (units : Set Nat) (order : Nat) (acceptFn : Nat → Nat → Bool) : Option Nat → Prop
  | none => ∀ addr, 2 ^ order ∣ addr → unitsAt order addr ⊆ units → acceptFn addr order = false
  | some addr => 2 ^ order ∣ addr ∧ unitsAt order addr ⊆ units ∧ acceptFn addr order = true

theorem Answers.granted_subset {acceptFn : Nat → Nat → Bool} {answer : Option Nat}
    (h : Answers units order acceptFn answer) : granted order answer ⊆ units := by
  cases answer with
  | none => exact Set.empty_subset units
  | some addr => exact h.2.1

theorem disjoint_unitsAt (hdvd : 2 ^ order ∣ addr) {other : Nat} (hother : 2 ^ order ∣ other)
    (hne : other ≠ addr) : Disjoint (unitsAt order other) (unitsAt order addr) := by
  rw [Set.disjoint_left]
  intro unit hunit hmem
  exact hne ((addr_eq hdvd hother).mp (hunit.symm.trans hmem))

theorem Answers.of_reject {acceptFn : Nat → Nat → Bool} {answer : Option Nat}
    (h : Answers (units \ unitsAt order addr) order acceptFn answer) (hdvd : 2 ^ order ∣ addr)
    (hreject : acceptFn addr order = false) : Answers units order acceptFn answer := by
  cases answer with
  | some other => exact ⟨h.1, h.2.1.trans Set.sdiff_subset, h.2.2⟩
  | none =>
      intro other hother hwhole
      by_cases hsame : other = addr
      · exact hsame ▸ hreject
      · apply h other hother
        exact fun unit hunit =>
          ⟨hwhole hunit, Set.disjoint_left.mp (disjoint_unitsAt hdvd hother hsame) hunit⟩

theorem Represents.subset_range (h : Represents top b units) :
    units ⊆ (Finset.range (2 ^ top) : Set Nat) := by
  intro unit hunit
  rw [Finset.coe_range]
  exact mem_block_zero.mp (h.within hunit)

theorem Represents.finite (h : Represents top b units) : units.Finite :=
  (Finset.finite_toSet _).subset h.subset_range

theorem Represents.ncard_le (h : Represents top b units) : units.ncard ≤ 2 ^ top := by
  have hcard := Set.ncard_le_ncard h.subset_range (Finset.finite_toSet _)
  rwa [Set.ncard_coe_finset, Finset.card_range] at hcard

theorem freeAll_append (b : BuddyAllocator) (order : Nat) (first second : List Nat) :
    b.freeAll order (first ++ second) = (b.freeAll order first).freeAll order second :=
  List.foldl_append

theorem Represents.allocUntil (order : Nat) (acceptFn : Nat → Nat → Bool) (fuel : Nat)
    (rejects : List Nat) (h : Represents top b units) (hfuel : units.ncard < fuel) :
    ∃ addr rejected b', b.allocUntil order acceptFn fuel rejects =
        some (addr, rejected ++ rejects, b') ∧
      Represents top (b'.freeAll order rejected) (units \ granted order addr) ∧
      Answers units order acceptFn addr := by
  induction fuel generalizing b units rejects with
  | zero => exact absurd hfuel (Nat.not_lt_zero _)
  | succ fuel ih =>
      rw [BuddyAllocator.allocUntil]
      rcases h.alloc order with ⟨halloc, hnone⟩ | ⟨addr, b', halloc, hdvd, hwhole, hnext⟩
      · rw [halloc]
        refine ⟨none, [], b, rfl, ?_, ?_⟩
        · rw [granted, Set.sdiff_empty]
          exact h
        · exact fun addr _ hwhole => absurd hwhole (hnone (addr / 2 ^ order))
      · rw [halloc]
        dsimp only
        by_cases haccept : acceptFn addr order = true
        · rw [if_pos haccept]
          exact ⟨some addr, [], b', rfl, hnext, hdvd, hwhole, haccept⟩
        · rw [if_neg haccept]
          have hless : (units \ unitsAt order addr).ncard < fuel := by
            have htaken : units \ unitsAt order addr ⊂ units :=
              Set.sdiff_ssubset_left_iff.mpr
                ⟨addr, hwhole (mem_unitsAt order addr), mem_unitsAt order addr⟩
            have hcard := Set.ncard_lt_ncard htaken h.finite
            omega
          obtain ⟨answer, rejected, last, hloop, hfreed, hanswer⟩ :=
            ih (addr :: rejects) hnext hless
          refine ⟨answer, rejected ++ [addr], last, ?_, ?_, ?_⟩
          · rw [hloop, List.append_assoc]
            rfl
          · have hfree := hfreed.free (Whole.order_le hwhole h.within) hdvd
              (mem_block_zero.mp (h.within (hwhole (mem_unitsAt order addr))))
              (Set.disjoint_sdiff_right.mono_right Set.sdiff_subset)
            rw [sdiff_right_comm, Set.sdiff_union_of_subset] at hfree
            · rw [freeAll_append]
              exact hfree
            · exact fun unit hunit =>
                ⟨hwhole hunit, fun hgranted => hanswer.granted_subset hgranted |>.2 hunit⟩
          · exact hanswer.of_reject hdvd (Bool.not_eq_true _ ▸ haccept)

/-- `efrm_buddy_alloc_special` returns a block that is accepted if there is one, and takes
nothing else. -/
theorem Represents.allocSpecial (h : Represents top b units) (order : Nat)
    (acceptFn : Nat → Nat → Bool) :
    ∃ answer b', b.allocSpecial order acceptFn = some (answer, b') ∧
      Represents top b' (units \ granted order answer) ∧ Answers units order acceptFn answer := by
  have hfuel : units.ncard < 2 ^ b.order + 1 := by
    rw [h.order_eq]
    exact Nat.lt_succ_of_le h.ncard_le
  obtain ⟨answer, rejected, last, hloop, hrest⟩ := h.allocUntil order acceptFn _ [] hfuel
  refine ⟨answer, last.freeAll order rejected, ?_, hrest⟩
  rw [BuddyAllocator.allocSpecial, hloop, List.append_nil]
  rfl

theorem unitsAt_zero (addr : Nat) : unitsAt 0 addr = {addr} := by
  ext unit
  simp [unitsAt, block]

theorem ctor_represents (htop : top < 32) :
    Represents top (BuddyAllocator.ctor top) (block top 0) := by
  have hnone (order index : Nat) : ¬Largest ∅ top order index := fun h =>
    first_mem_whole h.whole
  have hempty : Represents top ⟨fun _ => [], fun _ => false, fun _ => 0, top⟩ ∅ := by
    refine ⟨htop, rfl, Set.empty_subset _, ?_, ?_, ?_, ?_⟩
    · simp [hnone]
    · simp
    · simp
    · simp
  have hadd := hempty.freeListAdd (Nat.le_refl top) (Nat.dvd_zero _) (Nat.two_pow_pos top)
    (Set.disjoint_empty _) fun hlt => absurd hlt (Nat.lt_irrefl top)
  rwa [Set.empty_union, unitsAt, Nat.zero_div] at hadd

theorem Represents.takeAll (h : Represents top b units) {requests : List Nat}
    (hlength : units.ncard ≤ requests.length) :
    Represents top (requests.foldl (fun b _ => (b.alloc 0).2) b) ∅ := by
  induction requests generalizing b units with
  | nil =>
      have hempty := (Set.ncard_eq_zero h.finite).mp (Nat.le_zero.mp hlength)
      rwa [hempty] at h
  | cons request rest ih =>
      rw [List.foldl_cons]
      rcases h.alloc 0 with ⟨halloc, hnone⟩ | ⟨addr, b', halloc, hdvd, hwhole, hnext⟩
      · have hempty : units = ∅ := by
          rw [Set.eq_empty_iff_forall_notMem]
          intro unit hunit
          apply hnone unit
          intro other hother
          rw [mem_block, Nat.pow_zero, Nat.div_one] at hother
          exact hother ▸ hunit
        rw [halloc]
        subst hempty
        exact ih h (by simp)
      · rw [halloc]
        apply ih hnext
        rw [unitsAt_zero] at hwhole ⊢
        have hcard := Set.ncard_sdiff_singleton_add_one (hwhole rfl) h.finite
        rw [List.length_cons] at hlength
        omega

theorem Represents.freeUnits (h : Represents top b units) {addrs : List Nat}
    (hnodup : addrs.Nodup) (haddrs : ∀ addr ∈ addrs, addr < 2 ^ top ∧ addr ∉ units) :
    Represents top (b.freeAll 0 addrs) (units ∪ {addr | addr ∈ addrs}) := by
  induction addrs generalizing b units with
  | nil => simpa [BuddyAllocator.freeAll] using h
  | cons addr rest ih =>
      rw [List.nodup_cons] at hnodup
      rw [List.forall_mem_cons] at haddrs
      have hfree := h.free (Nat.zero_le top) (one_dvd addr) haddrs.1.1
        (by
          rw [unitsAt_zero, Set.disjoint_singleton_left]
          exact haddrs.1.2)
      rw [unitsAt_zero] at hfree
      have hall : units ∪ {unit | unit ∈ addr :: rest} =
          units ∪ {addr} ∪ {unit | unit ∈ rest} := by
        ext unit
        simp [or_assoc, or_left_comm]
      rw [hall]
      apply ih hfree hnodup.2
      intro other hother
      refine ⟨(haddrs.2 other hother).1, ?_⟩
      rintro (hunits | rfl)
      · exact (haddrs.2 other hother).2 hunits
      · exact hnodup.1 hother

theorem rangeCtor_represents {low high : Nat} (hlow : low < high) (hhigh : high ≤ 2 ^ 31) :
    Represents (BuddyAllocator.fls (high - 1)) (BuddyAllocator.rangeCtor low high)
      (Set.Ico low high) := by
  have hsize : high - 1 < 2 ^ BuddyAllocator.fls (high - 1) := Nat.lt_size_self _
  have htop : BuddyAllocator.fls (high - 1) < 32 := by
    apply Nat.lt_succ_of_le
    rw [BuddyAllocator.fls, Nat.size_le]
    omega
  have hctor := ctor_represents htop
  have hlength : (block (BuddyAllocator.fls (high - 1)) 0).ncard ≤
      (List.range (2 ^ BuddyAllocator.fls (high - 1))).length := by
    rw [List.length_range]
    exact hctor.ncard_le
  have htaken := hctor.takeAll hlength
  have hfreed := htaken.freeUnits (List.nodup_range' (s := low) (n := high - low))
    fun addr haddr => by
      rw [List.mem_range'_1] at haddr
      exact ⟨by omega, Set.notMem_empty addr⟩
  have hrange : {addr | addr ∈ List.range' low (high - low)} = Set.Ico low high := by
    ext addr
    rw [Set.mem_ofPred_eq, List.mem_range'_1, Set.mem_Ico]
    omega
  rwa [Set.empty_union, hrange] at hfreed

end Calls

end VirtualSfc.Driver.Buddy
