import VirtualSfc.Efvi.Ef10Event

/-! The receive ring as a window on the list of all buffers given to
`ef_vi_receive_init`, and what the handlers do to it. -/
namespace VirtualSfc.Efvi
open Base

structure RxBuffer where
  addr : UInt64
  id : UInt32
deriving DecidableEq, Repr

def bufferAt (given : List RxBuffer) (position : Nat) : RxBuffer := given.getD position ⟨0, 0⟩

theorem bufferAt_append {given : List RxBuffer} {position : Nat} (h : position < given.length)
    (more : List RxBuffer) : bufferAt (given ++ more) position = bufferAt given position :=
  List.getD_append _ _ _ _ h

theorem bufferAt_concat (given : List RxBuffer) (buffer : RxBuffer) :
    bufferAt (given ++ [buffer]) given.length = buffer := by
  rw [bufferAt, List.getD_append_right _ _ _ _ (Nat.le_refl _), Nat.sub_self]
  rfl

theorem take_succ_bufferAt {given : List RxBuffer} {count : Nat} (h : count < given.length) :
    given.take (count + 1) = given.take count ++ [bufferAt given count] := by
  rw [bufferAt, List.getD_eq_getElem _ _ h, List.take_succ_eq_append_getElem h]

namespace RxVi

variable {bits : Fin 32}

/-- The ring holds the buffers from a position of the list on. -/
structure Holds (vi : RxVi bits) (given : List RxBuffer) (position : Nat) : Prop where
  added : vi.added = UInt32.ofNat given.length
  removed : vi.removed = UInt32.ofNat position
  taken : position ≤ given.length
  bounded : given.length < position + 2 ^ bits.val
  words : (Ring.layout bits).Shows vi.descriptors
    (fun place => RxDesc.dmaRxCalcIpBuf (bufferAt given place).addr) position
    (given.length - position)
  ids : (Ring.layout bits).Shows vi.ids (fun place => (bufferAt given place).id) position
    (given.length - position)

theorem reset_holds (bits : Fin 32) (descriptors : Nat → BitVec 64) :
    (reset bits descriptors).Holds [] 0 where
  added := rfl
  removed := rfl
  taken := Nat.le_refl 0
  bounded := Nat.lt_add_left 0 (Nat.two_pow_pos _)
  words := fun i hi => absurd hi (Nat.not_lt_zero i)
  ids := fun i hi => absurd hi (Nat.not_lt_zero i)

variable {vi : RxVi bits} {given : List RxBuffer} {position : Nat}

theorem Holds.level (h : vi.Holds given position) :
    (vi.added - vi.removed).toNat = given.length - position := by
  have hbits := Ring.two_pow_le bits
  have htaken := h.taken
  have hbounded := h.bounded
  rw [h.added, h.removed, UInt32.toNat_sub, UInt32.toNat_ofNat', UInt32.toNat_ofNat']
  omega

theorem Holds.space_iff (h : vi.Holds given position) :
    vi.receiveSpace ≠ 0 ↔ given.length + 1 < position + 2 ^ bits.val := by
  have hbits := Ring.two_pow_le bits
  have htaken := h.taken
  have hbounded := h.bounded
  have hlevel := h.level
  rw [receiveSpace, ne_eq, ← UInt32.toNat_inj, UInt32.toNat_sub, Txq.toNat_mask, hlevel]
  change ¬ _ = 0 ↔ _
  omega

theorem Holds.slot_added (h : vi.Holds given position) :
    Ring.slot bits vi.added =
      (Ring.layout bits).place (position + (given.length - position)) := by
  rw [h.added, Nat.add_sub_cancel' h.taken]
  rfl

theorem Holds.receiveInit_room (h : vi.Holds given position) (buffer : RxBuffer)
    (hroom : given.length + 1 < position + 2 ^ bits.val) :
    (vi.receiveInit buffer.addr buffer.id).2 = true ∧
      (vi.receiveInit buffer.addr buffer.id).1.Holds (given ++ [buffer]) position := by
  have htaken := h.taken
  have hlength : (given ++ [buffer]).length = given.length + 1 := by simp
  have hspan : (given ++ [buffer]).length - position = given.length - position + 1 := by omega
  have hlast : bufferAt (given ++ [buffer]) (position + (given.length - position)) = buffer := by
    rw [Nat.add_sub_cancel' htaken, bufferAt_concat]
  have hother {α : Type} (value : RxBuffer → α) :
      ∀ place < position + (given.length - position),
        value (bufferAt (given ++ [buffer]) place) = value (bufferAt given place) := by
    intro place hplace
    rw [bufferAt_append (by omega)]
  rw [receiveInit, if_pos (h.space_iff.mpr hroom)]
  refine ⟨rfl, ?_, h.removed, ?_, ?_, ?_, ?_⟩
  · rw [hlength, UInt32.ofNat_add, ← h.added]
    rfl
  · omega
  · omega
  · have hextend := h.words.extend (by omega)
      (hother fun buffer => RxDesc.dmaRxCalcIpBuf buffer.addr)
    rw [hlast] at hextend
    rw [hspan, h.slot_added]
    exact hextend
  · have hextend := h.ids.extend (by omega) (hother RxBuffer.id)
    rw [hlast] at hextend
    rw [hspan, h.slot_added]
    exact hextend

theorem Holds.receiveInit_full (h : vi.Holds given position) (buffer : RxBuffer)
    (hfull : position + 2 ^ bits.val ≤ given.length + 1) :
    vi.receiveInit buffer.addr buffer.id = (vi, false) := by
  rw [receiveInit, if_neg]
  rw [h.space_iff]
  omega

theorem Holds.slot_removed (h : vi.Holds given position) :
    Ring.slot bits vi.removed = (Ring.layout bits).place position := by
  rw [h.removed]
  rfl

theorem Holds.first_id (h : vi.Holds given position) (hlive : position < given.length) :
    vi.ids (Ring.slot bits vi.removed) = (bufferAt given position).id := by
  rw [h.slot_removed]
  exact h.ids.read (Nat.le_refl _) (by omega)

theorem Holds.remove (h : vi.Holds given position) (hlive : position < given.length)
    (inJumbo : Bool) (bytesAcc : UInt32) :
    ({ vi with
      ids := Function.update vi.ids (Ring.slot bits vi.removed) requestIdMask
      inJumbo := inJumbo
      bytesAcc := bytesAcc
      removed := vi.removed + 1 } : RxVi bits).Holds given (position + 1) := by
  have hbounded := h.bounded
  have hspan : given.length - position = given.length - (position + 1) + 1 := by omega
  refine ⟨h.added, ?_, hlive, by omega, ?_, ?_⟩
  · change vi.removed + 1 = _
    rw [h.removed, UInt32.ofNat_add]
    rfl
  · have hwords := h.words
    rw [hspan] at hwords
    exact hwords.rest
  · have hids := h.ids
    rw [hspan] at hids
    rw [h.slot_removed]
    exact hids.tail requestIdMask (by omega)

theorem Holds.receiveUnbundle {count : Nat} (h : vi.Holds given position)
    (hlive : position + count ≤ given.length)
    (hids : ∀ buffer ∈ given, buffer.id ≠ requestIdMask) :
    (RxVi.receiveUnbundle count vi).2 = ((given.drop position).take count).map RxBuffer.id ∧
      (RxVi.receiveUnbundle count vi).1.Holds given (position + count) ∧
      (RxVi.receiveUnbundle count vi).1.inJumbo = vi.inJumbo ∧
      (RxVi.receiveUnbundle count vi).1.lastDescI = vi.lastDescI ∧
      (RxVi.receiveUnbundle count vi).1.posted = vi.posted := by
  induction count generalizing vi position with
  | zero => exact ⟨by simp [RxVi.receiveUnbundle], h, rfl, rfl, rfl⟩
  | succ count ih =>
      have hlt : position < given.length := by omega
      have hfirst := h.first_id hlt
      have hne : vi.ids (Ring.slot bits vi.removed) ≠ requestIdMask := by
        rw [hfirst, bufferAt, List.getD_eq_getElem _ _ hlt]
        exact hids _ (List.getElem_mem hlt)
      have hrest := ih (h.remove hlt vi.inJumbo vi.bytesAcc) (by omega)
      rw [RxVi.receiveUnbundle, if_pos hne]
      have hdrop : given.drop position = bufferAt given position :: given.drop (position + 1) := by
        rw [bufferAt, List.getD_eq_getElem _ _ hlt, List.drop_eq_getElem_cons hlt]
      refine ⟨?_, ?_, hrest.2.2⟩
      · rw [hdrop, List.take_succ_cons, List.map_cons, ← hrest.1, hfirst]
      · rw [Nat.add_comm count 1, ← Nat.add_assoc]
        exact hrest.2.1

/-- The four bits of the ring index in an event tell how many descriptors it completes. -/
theorem short_count (hbits : 4 ≤ bits.val) {base : UInt32} {start count : Nat}
    (hbase : base.toNat % 16 = start % 16) (hcount : count < 16) :
    (UInt32.ofNat ((start + count) % 2 ^ bits.val % 16) - base) &&& 15 = UInt32.ofNat count := by
  have hdvd : 16 ∣ 2 ^ bits.val := Nat.pow_dvd_pow 2 hbits
  have hbound := base.toNat_lt
  have hmask : (15 : UInt32).toNat = 2 ^ 4 - 1 := rfl
  rw [Nat.mod_mod_of_dvd _ hdvd]
  apply UInt32.toNat_inj.mp
  rw [UInt32.toNat_and, hmask, Nat.and_two_pow_sub_one_eq_mod, UInt32.toNat_sub,
    UInt32.toNat_ofNat', UInt32.toNat_ofNat']
  omega

end RxVi

/-- What software has been told: how many buffers are complete, and the length so far of a
packet that goes on. -/
structure RxProgress where
  next : Nat
  jumbo : Option Nat
deriving DecidableEq, Repr

namespace RxProgress

def flags (progress : RxProgress) (completion : RxCompletion) : RxFlags :=
  ⟨progress.jumbo.isNone, completion.cont, completion.multicast⟩

def length (progress : RxProgress) (completion : RxCompletion) : Nat :=
  progress.jumbo.getD 0 + completion.bytes

def tellOne (progress : RxProgress) (buffer : RxBuffer) (completion : RxCompletion) : EfViEvent :=
  if completion.errors = 0 then
    .rx 0 buffer.id (UInt16.ofNat (progress.length completion)) (progress.flags completion)
  else
    .rxDiscard 0 buffer.id (UInt16.ofNat (progress.length completion))
      (progress.flags completion) (Ef10.discardType completion.errors)

def tellMany (progress : RxProgress) (completion : RxCompletion) : EfViEvent :=
  if completion.errors = 0 then
    .rxMulti 0 (UInt32.ofNat completion.count) (progress.flags completion)
  else
    .rxMultiDiscard 0 (UInt32.ofNat completion.count) (progress.flags completion)
      (Ef10.discardType completion.errors)

/-- The event that a completion should lead to. One without a buffer ends a packet for which
the buffers did not suffice. -/
def tell (merge : Bool) (given : List RxBuffer) (progress : RxProgress)
    (completion : RxCompletion) : EfViEvent :=
  if completion.count = 0 then .rxNoDescTrunc 0
  else if merge then progress.tellMany completion
  else progress.tellOne (bufferAt given progress.next) completion

def advance (progress : RxProgress) (completion : RxCompletion) : RxProgress where
  next := progress.next + completion.count
  jumbo :=
    if completion.count ≠ 0 ∧ completion.cont then some (progress.length completion) else none

/-- The state of the handlers, without the ring. The length of a packet is only kept by
those with one event for each buffer. -/
structure Follows (merge : Bool) {bits : Fin 32} (vi : RxVi bits) (progress : RxProgress) :
    Prop where
  inJumbo : vi.inJumbo = progress.jumbo.isSome
  bytesAcc : merge = false → ∀ length, progress.jumbo = some length →
    vi.bytesAcc = UInt32.ofNat length
  lastDescI : merge = true → vi.lastDescI = UInt16.ofNat (progress.next % 16)

variable {bits : Fin 32} {vi : RxVi bits} {given : List RxBuffer} {progress : RxProgress}
  {completion : RxCompletion}

theorem Follows.flags {merge : Bool} (h : Follows merge vi progress) (hvalid : completion.Valid)
    (index : Nat) : vi.rxFlags (completion.word index) = progress.flags completion := by
  rw [RxCompletion.rxFlags_word hvalid, h.inJumbo, RxProgress.flags, Option.not_isSome]

theorem Follows.length (h : Follows false vi progress) (hvalid : completion.Valid) (index : Nat) :
    (if vi.inJumbo then
        vi.bytesAcc + Ef10.get Ef10.rxBytes (completion.word index)
      else Ef10.get Ef10.rxBytes (completion.word index)) =
      UInt32.ofNat (progress.length completion) := by
  rw [RxCompletion.get_rxBytes hvalid, h.inJumbo, RxProgress.length]
  cases hjumbo : progress.jumbo with
  | none => simp
  | some length =>
      rw [h.bytesAcc rfl length hjumbo, Option.getD_some, UInt32.ofNat_add]
      rfl

theorem toUInt16_ofNat (value : Nat) : (UInt32.ofNat value).toUInt16 = UInt16.ofNat value := by
  apply UInt16.toNat_inj.mp
  rw [UInt32.toNat_toUInt16, UInt32.toNat_ofNat', UInt16.toNat_ofNat']
  omega

theorem handle_one (hbits : 4 ≤ bits.val) (hholds : vi.Holds given progress.next)
    (hfollows : Follows false vi progress) (hvalid : completion.Valid)
    (hcount : completion.count ≤ 1) (hlive : progress.next + completion.count ≤ given.length) :
    ∃ next, Ef10.handle false vi
        (completion.word ((progress.next + completion.count) % 2 ^ bits.val)) =
        (next, some (progress.tell false given completion)) ∧
      next.Holds given (progress.next + completion.count) ∧
      Follows false next (progress.advance completion) ∧ next.posted = vi.posted := by
  have hbase : vi.removed.toNat % 16 = progress.next % 16 := by
    rw [hholds.removed, UInt32.toNat_ofNat']
    omega
  have hshort := RxVi.short_count hbits hbase (Nat.lt_of_le_of_lt hcount (by decide))
  simp only [Ef10.handle, RxVi.rxEvent, RxCompletion.get_evCode hvalid,
    RxCompletion.get_rxQlabel hvalid, RxCompletion.get_rxDscPtrLbits hvalid, hshort, if_true,
    Bool.false_eq_true, if_false]
  cases Nat.eq_zero_or_pos completion.count with
  | inl hzero =>
      refine ⟨{ vi with inJumbo := false }, ?_, ?_, ?_, rfl⟩
      · rw [tell, if_pos hzero, hzero]
        rfl
      · rw [hzero]
        exact ⟨hholds.added, hholds.removed, hholds.taken, hholds.bounded, hholds.words,
          hholds.ids⟩
      · refine ⟨?_, ?_, fun hmerge => by contradiction⟩
        · simp [advance, hzero]
        · intro _ length hlength
          simp [advance, hzero] at hlength
  | inr hpos =>
      have hone : completion.count = 1 := by omega
      have hlt : progress.next < given.length := by omega
      have htell : progress.tell false given completion =
          progress.tellOne (bufferAt given progress.next) completion := by
        rw [tell, hone]
        rfl
      rw [hone]
      refine ⟨(vi.rxDescConsumed (completion.word ((progress.next + 1) % 2 ^ bits.val)) 0).1,
        ?_, ?_, ?_, rfl⟩
      · have hfirst : UInt32.ofNat 1 = 1 := rfl
        rw [htell, tellOne, if_pos hfirst]
        simp only [RxVi.rxDescConsumed, hfollows.flags hvalid, hfollows.length hvalid,
          RxCompletion.errorBits_word hvalid, hholds.first_id hlt, toUInt16_ofNat]
      · exact hholds.remove hlt _ _
      · refine ⟨?_, ?_, fun hmerge => by contradiction⟩
        · simp only [RxVi.rxDescConsumed, hfollows.flags hvalid, advance, hone]
          cases hcont : completion.cont <;> simp [RxProgress.flags, hcont]
        · intro _ length hlength
          simp only [RxVi.rxDescConsumed, hfollows.length hvalid]
          simp only [advance, hone] at hlength
          split at hlength
          · rw [Option.some.inj hlength]
          · contradiction

theorem handle_many (hbits : 4 ≤ bits.val) {position : Nat} (hholds : vi.Holds given position)
    (hfollows : Follows true vi progress) (hvalid : completion.Valid)
    (hcount : completion.count < 16) :
    ∃ next, Ef10.handle true vi
        (completion.word ((progress.next + completion.count) % 2 ^ bits.val)) =
        (next, some (progress.tell true given completion)) ∧
      next.Holds given position ∧
      Follows true next (progress.advance completion) ∧ next.posted = vi.posted := by
  have hdvd : 16 ∣ 2 ^ bits.val := Nat.pow_dvd_pow 2 hbits
  have hbase : vi.lastDescI.toUInt32.toNat % 16 = progress.next % 16 := by
    rw [hfollows.lastDescI rfl, UInt16.toNat_toUInt32, UInt16.toNat_ofNat']
    omega
  have hshort := RxVi.short_count hbits hbase hcount
  have hlast : (UInt32.ofNat ((progress.next + completion.count) % 2 ^ bits.val % 16)).toUInt16 =
      UInt16.ofNat ((progress.next + completion.count) % 16) := by
    rw [toUInt16_ofNat, Nat.mod_mod_of_dvd _ hdvd]
  simp only [Ef10.handle, RxVi.rxEvent, RxCompletion.get_evCode hvalid,
    RxCompletion.get_rxQlabel hvalid, RxCompletion.get_rxDscPtrLbits hvalid, hshort, hlast,
    if_true]
  cases Nat.eq_zero_or_pos completion.count with
  | inl hzero =>
      refine ⟨{ vi with
        inJumbo := false, lastDescI := UInt16.ofNat ((progress.next + completion.count) % 16) },
        ?_, ?_, ?_, rfl⟩
      · rw [tell, if_pos hzero, hzero]
        rfl
      · exact ⟨hholds.added, hholds.removed, hholds.taken, hholds.bounded, hholds.words,
          hholds.ids⟩
      · refine ⟨?_, fun hmerge => by contradiction, fun _ => rfl⟩
        simp [advance, hzero]
  | inr hpos =>
      have hne : UInt32.ofNat completion.count ≠ 0 := by
        intro hsame
        have hvalue := congrArg UInt32.toNat hsame
        rw [UInt32.toNat_ofNat'] at hvalue
        change _ = 0 at hvalue
        omega
      refine ⟨{ vi with
        inJumbo := completion.cont,
        lastDescI := UInt16.ofNat ((progress.next + completion.count) % 16) }, ?_, ?_, ?_, rfl⟩
      · have hflags : RxVi.rxFlags ({ vi with
              lastDescI := UInt16.ofNat ((progress.next + completion.count) % 16) } : RxVi bits)
            (completion.word ((progress.next + completion.count) % 2 ^ bits.val)) =
            progress.flags completion := hfollows.flags hvalid _
        have htell : progress.tell true given completion = progress.tellMany completion := by
          rw [tell, if_neg (by omega), if_pos rfl]
        rw [htell, tellMany]
        simp only [RxVi.rxDescsConsumed, if_pos hne, hflags, RxCompletion.errorBits_word hvalid]
        rfl
      · exact ⟨hholds.added, hholds.removed, hholds.taken, hholds.bounded, hholds.words,
          hholds.ids⟩
      · refine ⟨?_, fun hmerge => by contradiction, fun _ => rfl⟩
        have hcount : completion.count ≠ 0 := by omega
        simp only [advance]
        cases hcont : completion.cont <;> simp [hcount]

end RxProgress

end VirtualSfc.Efvi
