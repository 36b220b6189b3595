import Mathlib

/-! The memory of a virtual interface as three parties see it: the driver that
chooses the queue sizes and maps the rings, `__ef_vi_alloc` in the allocator
process, and `remap_kernel_mem` in a client. NICs are EF10, pages have 4096
bytes, and the flags are those that `VirtualInterface` asks for. -/
namespace VirtualSfc.Efvi.Layout

def ciPageSize : Nat := 4096

def pageRound (bytes : Nat) : Nat := (bytes + ciPageSize - 1) / ciPageSize * ciPageSize

def sizeofEfViState : Nat := 68

def sizeofEntry : Nat := 8

/-! The driver. -/

inductive QueueType where
  | txq
  | rxq
  | evq
deriving DecidableEq, Repr

def qSizes : QueueType → UInt32
  | .evq => 512 ||| 1024 ||| 2048 ||| 4096 ||| 8192 ||| 16384 ||| 32768
  | .txq => 512 ||| 1024 ||| 2048
  | .rxq => 512 ||| 1024 ||| 2048 ||| 4096

def chooseSizeFrom (sizeRq : Int) (sizes : UInt32) : Nat → UInt32 → Int
  | 0, _ => -1
  | fuel + 1, size =>
      if size &&& sizes ≠ 0 ∧ sizeRq ≤ size.toNat then size.toNat
      else if sizes &&& ~~~((size - 1) ||| size) = 0 then -1
      else chooseSizeFrom sizeRq sizes fuel (size <<< 1)

def chooseSize (sizeRq : Int) (sizes : UInt32) : Int := chooseSizeFrom sizeRq sizes 24 256

/-- `efrm_vi_q_alloc_sanitize_size`, and the capacity `efrm_vi_q_alloc` gives a
queue: none for 0, the smallest for a negative number. -/
def sanitizeSize (queue : QueueType) (entries : Int) : Except Int Nat :=
  if entries = 0 then .ok 0
  else
    let size := chooseSize (if entries < 0 then 1 else entries) (qSizes queue)
    if size ≤ 0 then .error (-22) else .ok size.toNat

structure Capacities where
  evq : Nat
  rxq : Nat
  txq : Nat
deriving DecidableEq, Repr

structure Request where
  evq : Int
  rxq : Int
  txq : Int
deriving DecidableEq, Repr

/-- The event queue that fits both rings, with the spare entries that a negative
request stands for. -/
def evqFor (request : Request) (rxq txq : Nat) : Int :=
  if request.evq < 0 then
    let capacity : Int := (rxq + txq - request.evq - 1).bmod (2 ^ 32)
    if capacity = 0 then -1 else capacity
  else request.evq

def viResourceAlloc (request : Request) : Except Int Capacities :=
  match sanitizeSize .txq request.txq with
  | .error rc => .error rc
  | .ok txq =>
      match sanitizeSize .rxq request.rxq with
      | .error rc => .error rc
      | .ok rxq =>
          match sanitizeSize .evq (evqFor request rxq txq) with
          | .error rc => .error rc
          | .ok evq =>
              match sanitizeSize .txq txq with
              | .error rc => .error rc
              | .ok txq =>
                  match sanitizeSize .rxq rxq with
                  | .error rc => .error rc
                  | .ok rxq => .ok ⟨evq, rxq, txq⟩

/-- `efhw_iopages_size`: a ring has `PAGE_SIZE << get_order(bytes)` bytes. -/
def iopagesSize (capacity : Nat) : Nat :=
  ciPageSize * 2 ^ Nat.clog 2 (pageRound (capacity * sizeofEntry) / ciPageSize)

/-- Pointers as offsets: rings in the memory mapping, ids in the state mapping.
A queue that does not exist has none. -/
structure Offsets where
  evqBase : Option Nat
  rxDescriptors : Option Nat
  txDescriptors : Option Nat
  rxIds : Option Nat
  txIds : Option Nat
deriving DecidableEq, Repr

/-- `efab_vi_rm_mmap_mem` maps the event queue, the RX ring and the TX ring one
after the other. -/
def mmapMem (caps : Capacities) : Option Nat × Option Nat × Option Nat :=
  let afterEvq := if caps.evq ≠ 0 then iopagesSize caps.evq else 0
  let afterRxq := if caps.rxq ≠ 0 then afterEvq + iopagesSize caps.rxq else afterEvq
  (if caps.evq ≠ 0 then some 0 else none, if caps.rxq ≠ 0 then some afterEvq else none,
    if caps.txq ≠ 0 then some afterRxq else none)

/-! The allocator process. -/

def isSpace (char : Char) : Bool := char = ' ' || ('\t' ≤ char && char ≤ '\r')

/-- `atoi`, through `long` into 32 bits. -/
def atoi (s : String) : Int :=
  let text := s.toList.dropWhile isSpace
  let (negative, digits) := match text with
    | '-' :: rest => (true, rest)
    | '+' :: rest => (false, rest)
    | _ => (false, text)
  let magnitude : Int := (digits.takeWhile Char.isDigit).foldl
    (fun value digit => value * 10 + (digit.toNat - 48)) 0
  let value := if negative then max (-magnitude) (-2 ^ 63) else min magnitude (2 ^ 63 - 1)
  value.bmod (2 ^ 32)

example : atoi " 1024x" = 1024 ∧ atoi "-1" = -1 ∧ atoi "big" = 0 := by
  decide

structure Host where
  numa : Bool
  clearStride : Option String
  evqSize : Option String
  rxqSize : Option String
  txqSize : Option String
deriving DecidableEq, Repr

def Host.evqClearStride (host : Host) : Int :=
  match host.clearStride with
  | some s => atoi s
  | none => if host.numa then 8 else 0

/-- A capacity below 0 is read from the environment if the variable is set. -/
def sizeFrom (value : Option String) (capacity : Int) : Int :=
  if capacity < 0 then
    match value with
    | some s => atoi s
    | none => capacity
  else capacity

def Host.request (host : Host) (evqCapacity rxqCapacity txqCapacity : Int) : Request :=
  let evq :=
    if evqCapacity < 0 then (-1 - host.evqClearStride).bmod (2 ^ 32)
    else if 0 < evqCapacity then (evqCapacity + host.evqClearStride).bmod (2 ^ 32)
    else evqCapacity
  ⟨sizeFrom host.evqSize evq, sizeFrom host.rxqSize rxqCapacity,
    sizeFrom host.txqSize txqCapacity⟩

structure EfVi where
  rxqMask : Nat
  offsets : Offsets
deriving DecidableEq, Repr

def efViInit (caps : Capacities) : EfVi :=
  let afterEvq := if caps.evq ≠ 0 then pageRound (caps.evq * sizeofEntry) else 0
  let afterRxq :=
    if caps.rxq ≠ 0 then afterEvq + pageRound ((caps.rxq - 1 + 1) * sizeofEntry) else afterEvq
  let ids := sizeofEfViState
  { rxqMask := caps.rxq - 1
    offsets := {
      evqBase := if caps.evq ≠ 0 then some 0 else none
      rxDescriptors := if caps.rxq ≠ 0 then some afterEvq else none
      txDescriptors := if caps.txq ≠ 0 then some afterRxq else none
      rxIds := if caps.rxq ≠ 0 then some ids else none
      txIds := if caps.txq ≠ 0 then some (ids + caps.rxq * 4) else none } }

def efViAllocFromPd (host : Host) : Except Int Capacities :=
  viResourceAlloc (host.request (-1) (-1) (-1))

/-! The client. -/

/-- The pointers `remap_kernel_mem` computes. The event queue is taken to have
1024 entries and the RX ring 512 ids. -/
def remapKernelMem (vi : EfVi) : Offsets :=
  let afterEvq := pageRound (1024 * sizeofEntry)
  let afterRxq := afterEvq + pageRound ((vi.rxqMask + 1) * sizeofEntry)
  let ids := sizeofEfViState
  { evqBase := some 0
    rxDescriptors := some afterEvq
    txDescriptors := some afterRxq
    rxIds := some ids
    txIds := some (ids + 512 * 4) }

/-! The sizes. -/

def sizesFrom (sizes : UInt32) : Nat → UInt32 → List Nat
  | 0, _ => []
  | fuel + 1, size =>
      (if size &&& sizes ≠ 0 then [size.toNat] else []) ++
        if sizes &&& ~~~((size - 1) ||| size) = 0 then [] else sizesFrom sizes fuel (size <<< 1)

theorem chooseSizeFrom_eq (sizeRq : Int) (sizes : UInt32) (fuel : Nat) (size : UInt32) :
    chooseSizeFrom sizeRq sizes fuel size =
      (((sizesFrom sizes fuel size).find? fun entry : Nat => sizeRq ≤ entry).elim (-1)
        fun entry : Nat => (entry : Int)) := by
  induction fuel generalizing size with
  | zero => rfl
  | succ fuel ih =>
      simp only [chooseSizeFrom, sizesFrom, ih]
      by_cases hbit : size &&& sizes = 0 <;>
        by_cases hlast : sizes &&& ~~~((size - 1) ||| size) = 0 <;>
        by_cases hfits : sizeRq ≤ size.toNat <;>
        simp [hbit, hlast, hfits]

def supported : QueueType → List Nat
  | .evq => [512, 1024, 2048, 4096, 8192, 16384, 32768]
  | .txq => [512, 1024, 2048]
  | .rxq => [512, 1024, 2048, 4096]

theorem sizesFrom_qSizes (queue : QueueType) :
    sizesFrom (qSizes queue) 24 256 = supported queue := by
  cases queue <;> decide +kernel

theorem chooseSize_qSizes (queue : QueueType) (sizeRq : Int) :
    chooseSize sizeRq (qSizes queue) =
      (((supported queue).find? fun size : Nat => sizeRq ≤ size).elim (-1)
        fun size : Nat => (size : Int)) := by
  rw [chooseSize, chooseSizeFrom_eq, sizesFrom_qSizes]

theorem find?_least {sizes : List Nat} {request : Int} {first found : Nat}
    (hchain : (first :: sizes).IsChain fun size next => next ≤ 2 * size)
    (h : (first :: sizes).find? (fun size : Nat => request ≤ size) = some found) :
    found = first ∨ (found : Int) < 2 * request := by
  induction sizes generalizing first with
  | nil => simp_all
  | cons next sizes ih =>
      rw [List.find?_cons] at h
      rw [List.isChain_cons_cons] at hchain
      by_cases hfits : request ≤ first
      · simp only [hfits, decide_true, Option.some.injEq] at h
        exact .inl h.symm
      · simp only [hfits, decide_false] at h
        rcases ih hchain.2 h with rfl | hless
        · omega
        · exact .inr hless

theorem supported_chain (queue : QueueType) :
    ∃ sizes, supported queue = 512 :: sizes ∧
      (512 :: sizes).IsChain fun size next => next ≤ 2 * size := by
  cases queue <;> exact ⟨_, rfl, by decide⟩

theorem supported_cases {queue : QueueType} {size : Nat} (h : size ∈ supported queue) :
    size = 512 ∨ size = 1024 ∨ 2048 ≤ size := by
  revert size
  cases queue <;> decide

theorem find?_supported {queue : QueueType} {request : Int} {found : Nat}
    (h : (supported queue).find? (fun size : Nat => request ≤ size) = some found) :
    found ∈ supported queue ∧ request ≤ found ∧ (found = 512 ∨ (found : Int) < 2 * request) := by
  refine ⟨List.mem_of_find?_eq_some h, by simpa using List.find?_some h, ?_⟩
  rcases supported_chain queue with ⟨sizes, hsizes, hchain⟩
  rw [hsizes] at h
  exact find?_least hchain h

theorem sanitizeSize_ok {queue : QueueType} {entries : Int} {capacity : Nat}
    (h : sanitizeSize queue entries = .ok capacity) :
    (entries = 0 ∧ capacity = 0) ∨
      (entries ≠ 0 ∧ capacity ∈ supported queue ∧ entries ≤ capacity ∧
        (capacity = 512 ∨ (capacity : Int) < 2 * entries)) := by
  unfold sanitizeSize at h
  rw [chooseSize_qSizes] at h
  split at h
  · exact .inl ⟨‹_›, (Except.ok.inj h).symm⟩
  · rename_i hentries
    refine .inr ⟨hentries, ?_⟩
    cases hfound : (supported queue).find? fun size : Nat =>
        (if entries < 0 then 1 else entries) ≤ size with
    | none => simp [hfound] at h
    | some found =>
        rcases find?_supported hfound with ⟨hmem, hfits, hleast⟩
        simp only [hfound, Option.elim_some, Int.toNat_natCast] at h
        split at h
        · contradiction
        · obtain rfl := Except.ok.inj h
          have hcases := supported_cases hmem
          refine ⟨hmem, ?_⟩
          split at hfits <;> omega

theorem mem_supported {queue : QueueType} {entries : Int} {capacity : Nat}
    (h : sanitizeSize queue entries = .ok capacity) (hpos : 0 < capacity) :
    capacity ∈ supported queue := by
  rcases sanitizeSize_ok h with ⟨_, hzero⟩ | ⟨_, hmem, _⟩
  · omega
  · exact hmem

theorem sanitizeSize_eq_512 {queue : QueueType} {entries : Int} {capacity : Nat}
    (h : sanitizeSize queue entries = .ok capacity) (hpos : 0 < capacity) :
    capacity = 512 ↔ entries ≤ 512 := by
  have hcases := supported_cases (mem_supported h hpos)
  have hok := sanitizeSize_ok h
  omega

theorem sanitizeSize_le_1024 {queue : QueueType} {entries : Int} {capacity : Nat}
    (h : sanitizeSize queue entries = .ok capacity) (hpos : 0 < capacity) :
    (512 < capacity ∧ capacity ≤ 1024) ↔ (512 < entries ∧ entries ≤ 1024) := by
  have hcases := supported_cases (mem_supported h hpos)
  have hok := sanitizeSize_ok h
  omega

theorem sanitizeSize_supported {queue : QueueType} {capacity : Nat}
    (h : capacity ∈ supported queue) : sanitizeSize queue capacity = .ok capacity := by
  revert capacity
  cases queue <;> decide +kernel

theorem sanitizeSize_again {queue : QueueType} {entries : Int} {capacity : Nat}
    (h : sanitizeSize queue entries = .ok capacity) :
    sanitizeSize queue capacity = .ok capacity := by
  rcases sanitizeSize_ok h with ⟨_, rfl⟩ | ⟨_, hmem, _⟩
  · rfl
  · exact sanitizeSize_supported hmem

theorem viResourceAlloc_ok {request : Request} {caps : Capacities}
    (h : viResourceAlloc request = .ok caps) :
    sanitizeSize .txq request.txq = .ok caps.txq ∧
      sanitizeSize .rxq request.rxq = .ok caps.rxq ∧
      sanitizeSize .evq (evqFor request caps.rxq caps.txq) = .ok caps.evq := by
  unfold viResourceAlloc at h
  split at h
  · contradiction
  · rename_i txq htxq
    split at h
    · contradiction
    · rename_i rxq hrxq
      split at h
      · contradiction
      · rename_i evq hevq
        rw [sanitizeSize_again htxq, sanitizeSize_again hrxq] at h
        obtain rfl := Except.ok.inj h
        exact ⟨htxq, hrxq, hevq⟩

/-! The layouts. -/

theorem iopagesSize_supported {queue : QueueType} {capacity : Nat}
    (h : capacity ∈ supported queue) :
    iopagesSize capacity = pageRound (capacity * sizeofEntry) := by
  revert capacity
  cases queue <;> decide +kernel

/-- The rings that `__ef_vi_alloc` computes are those that the driver mapped. -/
theorem efViInit_mmapMem {request : Request} {caps : Capacities}
    (h : viResourceAlloc request = .ok caps) :
    ((efViInit caps).offsets.evqBase, (efViInit caps).offsets.rxDescriptors,
      (efViInit caps).offsets.txDescriptors) = mmapMem caps := by
  rcases viResourceAlloc_ok h with ⟨_, hrx, hev⟩
  have hmapped {queue : QueueType} {entries : Int} {capacity : Nat}
      (hok : sanitizeSize queue entries = .ok capacity) (hne : capacity ≠ 0) :
      iopagesSize capacity = pageRound (capacity * sizeofEntry) :=
    iopagesSize_supported (mem_supported hok (Nat.pos_of_ne_zero hne))
  by_cases hevq : caps.evq = 0 <;> by_cases hrxq : caps.rxq = 0
  · simp [efViInit, mmapMem, hevq, hrxq]
  · simp [efViInit, mmapMem, hevq, hrxq, hmapped hrx, Nat.sub_add_cancel (Nat.pos_of_ne_zero hrxq)]
  · simp [efViInit, mmapMem, hevq, hrxq, hmapped hev]
  · simp [efViInit, mmapMem, hevq, hrxq, hmapped hev, hmapped hrx,
      Nat.sub_add_cancel (Nat.pos_of_ne_zero hrxq)]

def Capacities.PowersOfTwo (caps : Capacities) : Prop :=
  (∃ n, caps.evq = 2 ^ n) ∧ (∃ n, caps.rxq = 2 ^ n) ∧ ∃ n, caps.txq = 2 ^ n

theorem Capacities.PowersOfTwo.pos {caps : Capacities} (h : caps.PowersOfTwo) :
    0 < caps.evq ∧ 0 < caps.rxq ∧ 0 < caps.txq := by
  rcases h with ⟨⟨_, hevq⟩, ⟨_, hrxq⟩, _, htxq⟩
  rw [hevq, hrxq, htxq]
  exact ⟨Nat.two_pow_pos _, Nat.two_pow_pos _, Nat.two_pow_pos _⟩

theorem remapKernelMem_offsets {caps : Capacities}
    (hevq : 0 < caps.evq) (hrxq : 0 < caps.rxq) (htxq : 0 < caps.txq) :
    remapKernelMem (efViInit caps) = (efViInit caps).offsets ↔
      (512 < caps.evq ∧ caps.evq ≤ 1024) ∧ caps.rxq = 512 := by
  simp only [remapKernelMem, efViInit, pageRound, ciPageSize, sizeofEntry, ne_eq, hevq.ne',
    hrxq.ne', htxq.ne', not_false_eq_true, if_true, Offsets.mk.injEq, Option.some.injEq]
  constructor
  · rintro ⟨_, hrx, _, _, hids⟩
    omega
  · rintro ⟨⟨hlow, hhigh⟩, hrx⟩
    refine ⟨trivial, ?_, ?_, trivial, ?_⟩ <;> omega

theorem bmod_range (value : Int) :
    -2 ^ 31 ≤ value.bmod (2 ^ 32) ∧ value.bmod (2 ^ 32) < 2 ^ 31 := by
  rw [Int.bmod_def]
  split <;> omega

theorem sizeFrom_range {capacity : Int} (value : Option String) (h : -2 ^ 31 ≤ capacity) :
    -2 ^ 31 ≤ sizeFrom value capacity := by
  unfold sizeFrom
  split
  · split
    · exact (bmod_range _).1
    · exact h
  · exact h

theorem evqFor_iff {request : Request} {txq : Nat} (hrange : -2 ^ 31 ≤ request.evq)
    (htxq : txq ∈ supported .txq) :
    (512 < evqFor request 512 txq ∧ evqFor request 512 txq ≤ 1024) ↔
      (512 < request.evq ∧ request.evq ≤ 1024 ∨ request.evq = -1 ∧ txq = 512) := by
  simp only [supported, List.mem_cons, List.not_mem_nil, or_false] at htxq
  simp only [evqFor, Int.bmod_def]
  split
  · split <;> split <;> omega
  · omega

/-- The event queue has 1024 entries and the RX ring 512: the event queue was
asked for with 513 to 1024 entries, or it was left to the driver with no spare
entries beside a TX ring of at most 512. -/
def Host.fits (host : Host) : Prop :=
  let request := host.request (-1) (-1) (-1)
  request.rxq ≤ 512 ∧
    (512 < request.evq ∧ request.evq ≤ 1024 ∨ request.evq = -1 ∧ request.txq ≤ 512)

instance (host : Host) : Decidable host.fits :=
  inferInstanceAs (Decidable (_ ∧ _))

theorem remapKernelMem_eq_iff (host : Host) (caps : Capacities)
    (h : efViAllocFromPd host = .ok caps) (hpowers : caps.PowersOfTwo) :
    remapKernelMem (efViInit caps) = (efViInit caps).offsets ↔ host.fits := by
  rcases hpowers.pos with ⟨hevq, hrxq, htxq⟩
  rcases viResourceAlloc_ok h with ⟨htx, hrx, hev⟩
  have hrange : -2 ^ 31 ≤ (host.request (-1) (-1) (-1)).evq :=
    sizeFrom_range _ (bmod_range _).1
  rw [remapKernelMem_offsets hevq hrxq htxq, and_comm, sanitizeSize_eq_512 hrx hrxq]
  refine and_congr_right fun hsmall => ?_
  rw [(sanitizeSize_eq_512 hrx hrxq).mpr hsmall] at hev
  rw [sanitizeSize_le_1024 hev hevq, evqFor_iff hrange (mem_supported htx htxq),
    sanitizeSize_eq_512 htx htxq]

theorem remapKernelMem_eq_defaults :
    remapKernelMem (efViInit ⟨1024, 512, 512⟩) = (efViInit ⟨1024, 512, 512⟩).offsets :=
  (remapKernelMem_eq_iff ⟨false, none, none, none, none⟩ ⟨1024, 512, 512⟩ (by decide +kernel)
    ⟨⟨10, rfl⟩, ⟨9, rfl⟩, ⟨9, rfl⟩⟩).mpr (by decide)

/-- On a NUMA host the driver adds the clear stride to the event queue, which
then has 2048 entries, and the client looks for the RX ring inside it. -/
theorem remapKernelMem_ne_numa :
    efViAllocFromPd ⟨true, none, none, none, none⟩ = .ok ⟨2048, 512, 512⟩ ∧
      (⟨2048, 512, 512⟩ : Capacities).PowersOfTwo ∧
      remapKernelMem (efViInit ⟨2048, 512, 512⟩) ≠ (efViInit ⟨2048, 512, 512⟩).offsets :=
  ⟨by decide +kernel, ⟨⟨11, rfl⟩, ⟨9, rfl⟩, ⟨9, rfl⟩⟩, by decide⟩

end VirtualSfc.Efvi.Layout
