import Mathlib
import VirtualSfc.Base.Run
import VirtualSfc.Base.Window

/-! The event ring between the adapter and `ef10_ef_eventq_poll`. The adapter writes the
two dwords of an event in any order; software takes an event once both have changed from
all ones, and clears slots a stride behind the one it reads. The loads of the poller and
the writes of the adapter interleave freely. -/
namespace VirtualSfc.Efvi
open Base

inductive Half
  | lo
  | hi
deriving DecidableEq, Repr

def Half.of : Half → BitVec 64 → BitVec 32
  | .lo, event => event.extractLsb' 0 32
  | .hi, event => event.extractLsb' 32 32

/-- The value of a dword that the adapter has not written yet. -/
def blank : BitVec 32 := BitVec.allOnes 32

def isEvent (lo hi : BitVec 32) : Bool := !(lo == blank || hi == blank)

/-- An event the adapter may write: neither dword of it looks unwritten. -/
def WellFormed (event : BitVec 64) : Prop := ∀ half : Half, half.of event ≠ blank

instance (event : BitVec 64) : Decidable (WellFormed event) :=
  if hlo : Half.lo.of event = blank then isFalse fun h => h .lo hlo
  else if hhi : Half.hi.of event = blank then isFalse fun h => h .hi hhi
  else isTrue fun
    | .lo => hlo
    | .hi => hhi

theorem isEvent_iff (lo hi : BitVec 32) : isEvent lo hi = true ↔ lo ≠ blank ∧ hi ≠ blank := by
  simp [isEvent]

theorem append_halves (event : BitVec 64) : Half.hi.of event ++ Half.lo.of event = event := by
  have happend := @BitVec.extractLsb'_append_extractLsb'_eq_extractLsb' 64 32 0 32 32 event rfl
  rwa [BitVec.extractLsb'_eq_self] at happend

/-- The size of the ring and the stride of `ef_vi_evq_clear_stride`, which leaves room for
more than the slots that are consumed and not yet cleared. -/
structure EvqShape where
  bits : Fin 30
  stride : Nat
  roomy : stride + 2 ≤ 2 ^ bits.val

namespace EvqShape

variable (shape : EvqShape)

def size : Nat := 2 ^ shape.bits.val

/-- `evq_mask` counts bytes. -/
def mask : UInt32 := UInt32.ofNat (shape.size * 8 - 1)

def clearStride : Int := -shape.stride

def capacity : Int := (shape.mask.toNat / 8 : Nat) - 1 + shape.clearStride

/-- `EF_VI_EVENT_OFFSET`, computed in 64 bits from the 32-bit pointer. -/
def eventOffset (evqPtr : UInt32) (i : Int) : Nat :=
  ((evqPtr.toUInt64 + UInt64.ofInt i * 8) &&& shape.mask.toUInt64).toNat

theorem size_le : shape.size ≤ 2 ^ 29 := Nat.pow_le_pow_right (by decide) (by omega)

theorem toNat_mask : shape.mask.toNat = 2 ^ (shape.bits.val + 3) - 1 := by
  have hsize := shape.size_le
  rw [mask, UInt32.toNat_ofNat', Nat.mod_eq_of_lt (by omega), pow_add]
  rfl

theorem capacity_eq : shape.capacity = (shape.size - shape.stride : Nat) - 2 := by
  have hroomy := shape.roomy
  have hpow : 2 ^ (shape.bits.val + 3) = shape.size * 8 := pow_add ..
  have hsize : shape.size = 2 ^ shape.bits.val := rfl
  rw [capacity, clearStride, toNat_mask, hpow]
  omega

def layout : Layout Nat shape.size where
  place position := 8 * (position % shape.size)
  periodic position := by rw [Nat.add_mod_right]
  separated position distance hpos hlt hsame := by
    have hmod : position + distance ≡ position + 0 [MOD shape.size] := by
      change (position + distance) % shape.size = position % shape.size
      omega
    have hzero := Nat.ModEq.add_left_cancel' _ hmod
    rw [Nat.ModEq, Nat.mod_eq_of_lt hlt, Nat.zero_mod] at hzero
    omega

theorem eventOffset_eq (evqPtr : UInt32) (i : Int) :
    shape.eventOffset evqPtr i =
      (evqPtr.toNat + (UInt64.ofInt i).toNat * 8) % (shape.size * 8) := by
  have hmask : shape.mask.toUInt64.toNat = 2 ^ (shape.bits.val + 3) - 1 := by
    rw [UInt32.toNat_toUInt64, toNat_mask]
  have hdvd : 2 ^ (shape.bits.val + 3) ∣ 2 ^ 64 := Nat.pow_dvd_pow 2 (by omega)
  have hpow : 2 ^ (shape.bits.val + 3) = shape.size * 8 := pow_add ..
  rw [eventOffset, UInt64.toNat_and, hmask, Nat.and_two_pow_sub_one_eq_mod, UInt64.toNat_add,
    Nat.mod_mod_of_dvd _ hdvd, UInt64.toNat_mul, UInt32.toNat_toUInt64, ← hpow]
  change (_ + _ * 8 % 2 ^ 64) % _ = _
  rw [Nat.add_mod, Nat.mod_mod_of_dvd _ hdvd, ← Nat.add_mod]

theorem toNat_ofInt (i : Int) : (UInt64.ofInt i).toNat = (i % 2 ^ 64).toNat := by
  rw [UInt64.ofInt, UInt64.toNat_ofNat']
  omega

theorem toNat_evqPtr_mod (position : Nat) :
    (UInt32.ofNat (8 * position)).toNat ≡ position * 8 [MOD shape.size * 8] := by
  have hdvd : shape.size * 8 ∣ 2 ^ 32 := by
    have hpow : 2 ^ (shape.bits.val + 3) = shape.size * 8 := pow_add ..
    rw [← hpow]
    exact Nat.pow_dvd_pow 2 (by omega)
  rw [UInt32.toNat_ofNat', Nat.mul_comm 8]
  exact Nat.mod_mod_of_dvd _ hdvd

theorem layout_place (position : Nat) :
    shape.layout.place position = position * 8 % (shape.size * 8) := by
  rw [Nat.mul_mod_mul_right, Nat.mul_comm]
  rfl

theorem eventOffset_ahead (position distance : Nat) (hsmall : distance < 2 ^ 64) :
    shape.eventOffset (UInt32.ofNat (8 * position)) distance =
      shape.layout.place (position + distance) := by
  have hint : (UInt64.ofInt distance).toNat = distance := by
    rw [toNat_ofInt]
    omega
  rw [eventOffset_eq, hint, layout_place, Nat.add_mul]
  exact (shape.toNat_evqPtr_mod position).add_right _

theorem eventOffset_behind (position : Nat) {distance : Nat} (hsize : distance ≤ shape.size) :
    shape.eventOffset (UInt32.ofNat (8 * position)) (-distance) =
      shape.layout.place (position + (shape.size - distance)) := by
  have hle := shape.size_le
  have hint : (UInt64.ofInt (-distance)).toNat = (2 ^ 64 - distance) % 2 ^ 64 := by
    rw [toNat_ofInt]
    omega
  have hround : 2 ^ 64 ≡ shape.size [MOD shape.size] := by
    have hdvd : shape.size ∣ 2 ^ 64 := Nat.pow_dvd_pow 2 (by omega)
    rw [Nat.ModEq, Nat.mod_self, Nat.mod_eq_zero_of_dvd hdvd]
  have hback : (2 ^ 64 - distance) % 2 ^ 64 ≡ shape.size - distance [MOD shape.size] := by
    have hdvd : shape.size ∣ 2 ^ 64 := Nat.pow_dvd_pow 2 (by omega)
    rw [Nat.ModEq, Nat.mod_mod_of_dvd _ hdvd]
    apply Nat.ModEq.add_right_cancel' distance
    rwa [Nat.sub_add_cancel hsize, Nat.sub_add_cancel (by omega)]
  rw [eventOffset_eq, hint, layout_place, Nat.add_mul]
  exact (shape.toNat_evqPtr_mod position).add (hback.mul_right' 8)

end EvqShape

/-- What the poll does with one event: it is given to `ef10_rx_event`, `ef10_tx_event` or
`ef10_mcdi_event`, or only logged. The caller gets at most one event for it. -/
structure Dispatch (σ ε : Type) where
  isMcdi : BitVec 64 → Bool
  handle : σ → BitVec 64 → σ × Option ε

inductive Answer (ε : Type)
  | oflow
  | events (evs : List ε)
deriving DecidableEq, Repr

def Answer.evs {ε : Type} : Answer ε → List ε
  | .oflow => []
  | .events evs => evs

inductive Site
  | overflow
  | first
  | next
  | probe
  | recheck
deriving DecidableEq, Repr

def Site.index (shape : EvqShape) : Site → Int
  | .overflow => shape.clearStride - 1
  | .first => 0
  | .next => 0
  | .probe => 1
  | .recheck => 0

inductive Pc
  | idle
  | reading (site : Site) (got : Half → Option (BitVec 32))

instance (pc : Pc) : Decidable (pc = .idle) :=
  match pc with
  | .idle => isTrue rfl
  | .reading _ _ => isFalse nofun

structure EventSystem (σ ε : Type) where
  memory : Half → Nat → BitVec 32
  evqPtr : UInt32
  /-- The error counter `evq_gap`. -/
  evqGap : Nat
  vi : σ
  pc : Pc
  evs : List ε
  evsLen : Int
  evsLenOrig : Int
  answers : List (Answer ε)
  /-- The events given to their handlers so far. -/
  handled : List (BitVec 64)
  /-- What the handlers have made for the callers so far. -/
  outputs : List ε
  /-- The number of events that were complete in the ring when the poll was called. -/
  target : Nat
  /-- The events the adapter has made so far. -/
  events : List (BitVec 64)
  /-- How many of them have reached the ring, dword by dword. -/
  written : Half → Nat

inductive EventInput (σ : Type)
  | raise (event : BitVec 64)
  | write (half : Half)
  | call (evsLen : Int)
  | load (half : Half)
  | act
  | client (change : σ → σ)

namespace EventSystem

variable {σ ε : Type}

def reset (vi : σ) : EventSystem σ ε where
  memory := fun _ _ => blank
  evqPtr := 0
  evqGap := 0
  vi := vi
  pc := .idle
  evs := []
  evsLen := 0
  evsLenOrig := 0
  answers := []
  handled := []
  outputs := []
  target := 0
  events := []
  written := fun _ => 0

def read (system : EventSystem σ ε) (site : Site) : EventSystem σ ε :=
  { system with pc := .reading site fun _ => none }

def leave (system : EventSystem σ ε) (answer : Answer ε) : EventSystem σ ε :=
  { system with pc := .idle, answers := system.answers ++ [answer] }

/-- `CI_SET_QWORD` of the slot a stride behind, and the pointer moved on. -/
def consume (shape : EvqShape) (system : EventSystem σ ε) (event : BitVec 64)
    (result : σ × Option ε) : EventSystem σ ε :=
  { system with
    memory := fun half => Function.update (system.memory half)
      (shape.eventOffset system.evqPtr shape.clearStride) blank
    evqPtr := system.evqPtr + 8
    vi := result.1
    evs := system.evs ++ result.2.toList
    evsLen := system.evsLen - result.2.toList.length
    handled := system.handled ++ [event]
    outputs := system.outputs ++ result.2.toList }

/-- The body of the loop. An MCDI event waits for the next poll if this one has delivered
something. -/
def body (shape : EvqShape) (dispatch : Dispatch σ ε) (system : EventSystem σ ε)
    (event : BitVec 64) : EventSystem σ ε :=
  if dispatch.isMcdi event ∧ system.evsLen ≠ system.evsLenOrig then
    system.leave (.events system.evs)
  else
    let next := system.consume shape event (dispatch.handle system.vi event)
    if next.evsLen = 0 then next.leave (.events next.evs) else next.read .next

def act (shape : EvqShape) (dispatch : Dispatch σ ε) (system : EventSystem σ ε) (site : Site)
    (lo hi : BitVec 32) : EventSystem σ ε :=
  match site, isEvent lo hi with
  | .overflow, true => system.leave .oflow
  | .overflow, false => system.read .first
  | .first, true => system.body shape dispatch (hi ++ lo)
  | .first, false => system.read .probe
  | .next, true => system.body shape dispatch (hi ++ lo)
  | .next, false => system.leave (.events system.evs)
  | .probe, true => system.read .recheck
  | .probe, false => system.leave (.events [])
  | .recheck, true => system.leave (.events [])
  | .recheck, false =>
      -- a misplaced event: the slot of the pointer is given up
      { system with evqPtr := system.evqPtr + 8, evqGap := system.evqGap + 1 }.read .first

def returned (system : EventSystem σ ε) : List ε := system.answers.flatMap Answer.evs

def visible (system : EventSystem σ ε) : Nat := min (system.written .lo) (system.written .hi)

def load (shape : EvqShape) (system : EventSystem σ ε) (site : Site)
    (got : Half → Option (BitVec 32)) (half : Half) : EventSystem σ ε :=
  { system with
    pc := .reading site (Function.update got half
      (some (system.memory half (shape.eventOffset system.evqPtr (site.index shape))))) }

def write (shape : EvqShape) (system : EventSystem σ ε) (half : Half) (event : BitVec 64) :
    EventSystem σ ε :=
  { system with
    memory := Function.update system.memory half
      (Function.update (system.memory half) (shape.layout.place (system.written half))
        (half.of event))
    written := Function.update system.written half (system.written half + 1) }

def call (system : EventSystem σ ε) (evsLen : Int) : EventSystem σ ε :=
  { system with
    evs := []
    evsLen := evsLen
    evsLenOrig := evsLen
    target := system.visible }.read .overflow

def step (shape : EvqShape) (dispatch : Dispatch σ ε) (system : EventSystem σ ε) :
    EventInput σ → EventSystem σ ε
  | .raise event => { system with events := system.events ++ [event] }
  | .write half =>
      match system.events[system.written half]? with
      | some event => system.write shape half event
      | none => system
  | .call evsLen =>
      match system.pc with
      | .idle => system.call evsLen
      | .reading _ _ => system
  | .load half =>
      match system.pc with
      | .idle => system
      | .reading site got => if got half = none then system.load shape site got half else system
  | .act =>
      match system.pc with
      | .idle => system
      | .reading site got =>
          match got .lo, got .hi with
          | some lo, some hi => system.act shape dispatch site lo hi
          | _, _ => system
  | .client change =>
      match system.pc with
      | .idle => { system with vi := change system.vi }
      | .reading _ _ => system

/-- The adapter makes well-formed events and stops writing when one event more than
`ef_eventq_capacity` waits in the ring. The caller has room for an event. -/
def Lawful (shape : EvqShape) (system : EventSystem σ ε) : EventInput σ → Prop
  | .raise event => WellFormed event
  | .write half => (system.written half : Int) ≤ system.handled.length + shape.capacity
  | .call evsLen => 0 < evsLen
  | _ => True

instance (shape : EvqShape) (system : EventSystem σ ε) (input : EventInput σ) :
    Decidable (system.Lawful shape input) :=
  match input with
  | .raise event => inferInstanceAs (Decidable (WellFormed event))
  | .write _ => inferInstanceAs (Decidable (_ ≤ _))
  | .call _ => inferInstanceAs (Decidable (_ < _))
  | .load _ => isTrue trivial
  | .act => isTrue trivial
  | .client _ => isTrue trivial

def after (shape : EvqShape) (dispatch : Dispatch σ ε) (vi : σ) (inputs : List (EventInput σ)) :
    EventSystem σ ε := Run.final (step shape dispatch) (reset vi) inputs

def LawfulRun (shape : EvqShape) (dispatch : Dispatch σ ε) (vi : σ)
    (inputs : List (EventInput σ)) : Prop :=
  ∀ move ∈ Run.moves (step shape dispatch) (reset vi) inputs, move.1.Lawful shape move.2

instance (shape : EvqShape) (dispatch : Dispatch σ ε) (vi : σ) (inputs : List (EventInput σ)) :
    Decidable (LawfulRun shape dispatch vi inputs) :=
  inferInstanceAs (Decidable (∀ move ∈ _, _))

end EventSystem

end VirtualSfc.Efvi
