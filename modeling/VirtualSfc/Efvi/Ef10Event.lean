import VirtualSfc.Efvi.EventPoll
import VirtualSfc.Efvi.Txq

/-! The handlers of `ef10_event.c`, for interfaces with one event for each descriptor and
for those with `EF_VI_RX_EVENT_MERGE`, and the receive queue they work on. -/
namespace VirtualSfc.Efvi
open Base

inductive DiscardType
  | crcBad
  | csumBad
  | innerCsumBad
deriving DecidableEq, Repr

structure RxFlags where
  sop : Bool
  cont : Bool
  multicast : Bool
deriving DecidableEq, Repr

inductive EfViEvent
  | rx (qId rqId : UInt32) (len : UInt16) (flags : RxFlags)
  | rxDiscard (qId rqId : UInt32) (len : UInt16) (flags : RxFlags) (subtype : DiscardType)
  | rxNoDescTrunc (qId : UInt32)
  | rxMulti (qId nDescs : UInt32) (flags : RxFlags)
  | rxMultiDiscard (qId nDescs : UInt32) (flags : RxFlags) (subtype : DiscardType)
  | tx (qId : UInt32) (descId : UInt16) (ctpio : Bool)
  | sw (data : UInt32)
  | reset
deriving DecidableEq, Repr

namespace Ef10

-- `ESF_DZ_*` fields of events
def evCode : Field := ⟨60, 4⟩
def rxBytes : Field := ⟨0, 14⟩
def rxCont : Field := ⟨14, 1⟩
def rxQlabel : Field := ⟨16, 5⟩
def rxMacClass : Field := ⟨35, 1⟩
def rxDscPtrLbits : Field := ⟨48, 4⟩
def txDescrIndx : Field := ⟨0, 16⟩
def txQlabel : Field := ⟨16, 5⟩
def txSoft1 : Field := ⟨24, 7⟩
def mcdiEventCode : Field := ⟨44, 8⟩

def get (field : Field) (event : BitVec 64) : UInt32 := ⟨(field.extract event).setWidth 32⟩

-- error bits of receive events
def eccErr : BitVec 64 := 1 <<< 29
def ecrcErr : BitVec 64 := 1 <<< 24
def tcpudpCksumErr : BitVec 64 := 1 <<< 26
def ipcksumErr : BitVec 64 := 1 <<< 25
def innerTcpudpCksumErr : BitVec 64 := 1 <<< 57
def innerIpcksumErr : BitVec 64 := 1 <<< 56

def rxDiscardMask : BitVec 64 :=
  eccErr ||| tcpudpCksumErr ||| ipcksumErr ||| innerTcpudpCksumErr ||| innerIpcksumErr ||| ecrcErr

def discardType (errorBits : BitVec 64) : DiscardType :=
  if errorBits &&& (eccErr ||| ecrcErr) ≠ 0 then .crcBad
  else if errorBits &&& (tcpudpCksumErr ||| ipcksumErr) ≠ 0 then .csumBad
  else .innerCsumBad

end Ef10

namespace RxDesc

-- `ESF_DZ_RX_USR_*`
def usrBufIdOffset : Field := ⟨0, 44⟩
def usrBufPageSize : Field := ⟨44, 4⟩
def usrByteCnt : Field := ⟨48, 14⟩

def rxBufferLen : BitVec 64 := 2048 - 256

def usrFields (bufVaddr : UInt64) : List (Field × BitVec 64) := [
  (usrBufIdOffset, TxDesc.bufVaddr2IdOffset bufVaddr),
  (usrBufPageSize, TxDesc.bufVaddr2Order bufVaddr),
  (usrByteCnt, rxBufferLen)]

def dmaRxCalcIpBuf (bufVaddr : UInt64) : BitVec 64 := Field.populate (usrFields bufVaddr)

def target (word : BitVec 64) : UInt64 :=
  ⟨(usrBufPageSize.extract word <<< 48) ||| usrBufIdOffset.extract word⟩

theorem target_dmaRxCalcIpBuf {vaddr : UInt64} (hmapped : TxDesc.Mapped vaddr) :
    target (dmaRxCalcIpBuf vaddr) = vaddr := by
  have hfits : ∀ entry ∈ usrFields vaddr, entry.1.Fits entry.2 := by
    simp only [usrFields, List.forall_mem_cons, Field.Fits, TxDesc.toNat_bufVaddr2IdOffset,
      TxDesc.toNat_bufVaddr2Order]
    exact ⟨⟨by decide, hmapped.1⟩, ⟨by decide, hmapped.2⟩, ⟨by decide, by decide⟩, by simp⟩
  have hapart : (usrFields vaddr).Pairwise fun first second => first.1.Apart second.1 := by
    simp [usrFields, Field.Apart, usrBufIdOffset, usrBufPageSize, usrByteCnt]
  have horder : usrBufPageSize.extract (dmaRxCalcIpBuf vaddr) = TxDesc.bufVaddr2Order vaddr :=
    Field.extract_populate hfits hapart (by simp [usrFields])
  have hoffset : usrBufIdOffset.extract (dmaRxCalcIpBuf vaddr) = TxDesc.bufVaddr2IdOffset vaddr :=
    Field.extract_populate hfits hapart (by simp [usrFields])
  rw [target, horder, hoffset, TxDesc.order_or_idOffset]

end RxDesc

structure RxVi (bits : Fin 32) where
  descriptors : Nat → BitVec 64
  ids : Nat → UInt32
  added : UInt32
  posted : UInt32
  removed : UInt32
  inJumbo : Bool
  bytesAcc : UInt32
  lastDescI : UInt16

namespace RxVi

variable {bits : Fin 32}

def reset (bits : Fin 32) (descriptors : Nat → BitVec 64) : RxVi bits :=
  ⟨descriptors, fun _ => requestIdMask, 0, 0, 0, false, 0, 0⟩

def receiveSpace (vi : RxVi bits) : UInt32 := Txq.mask bits - (vi.added - vi.removed)

/-- `ef10_ef_vi_receive_init`: `false` is `-EAGAIN`. -/
def receiveInit (vi : RxVi bits) (addr : UInt64) (dmaId : UInt32) : RxVi bits × Bool :=
  if vi.receiveSpace ≠ 0 then
    let di := Ring.slot bits vi.added
    ({ vi with
      added := vi.added + 1
      ids := Function.update vi.ids di dmaId
      descriptors := Function.update vi.descriptors di (RxDesc.dmaRxCalcIpBuf addr) }, true)
  else (vi, false)

def receivePush (vi : RxVi bits) : RxVi bits × Option Nat :=
  let posted := vi.added &&& ~~~7
  if posted ≠ vi.posted then ({ vi with posted := posted }, some (Ring.slot bits posted))
  else (vi, none)

def receiveUnbundle : Nat → RxVi bits → RxVi bits × List UInt32
  | 0, vi => (vi, [])
  | count + 1, vi =>
      let di := Ring.slot bits vi.removed
      if vi.ids di ≠ requestIdMask then
        let rest := receiveUnbundle count { vi with
          removed := vi.removed + 1
          ids := Function.update vi.ids di requestIdMask }
        (rest.1, vi.ids di :: rest.2)
      else receiveUnbundle count { vi with removed := vi.removed + 1 }

def noDescTrunc (vi : RxVi bits) (qLabel : UInt32) : RxVi bits × EfViEvent :=
  ({ vi with inJumbo := false }, .rxNoDescTrunc qLabel)

def rxFlags (vi : RxVi bits) (event : BitVec 64) : RxFlags where
  sop := !vi.inJumbo
  cont := Ef10.get Ef10.rxCont event ≠ 0
  multicast := Ef10.get Ef10.rxMacClass event = 1

def rxDescConsumed (vi : RxVi bits) (event : BitVec 64) (qLabel : UInt32) :
    RxVi bits × EfViEvent :=
  let descI := Ring.slot bits vi.removed
  let rxBytes := Ef10.get Ef10.rxBytes event
  let len := if vi.inJumbo then vi.bytesAcc + rxBytes else rxBytes
  let flags := vi.rxFlags event
  let errorBits := event &&& Ef10.rxDiscardMask
  ({ vi with
    ids := Function.update vi.ids descI requestIdMask
    inJumbo := flags.cont
    bytesAcc := len
    removed := vi.removed + 1 },
    if errorBits = 0 then .rx qLabel (vi.ids descI) len.toUInt16 flags
    else .rxDiscard qLabel (vi.ids descI) len.toUInt16 flags (Ef10.discardType errorBits))

def rxDescsConsumed (vi : RxVi bits) (event : BitVec 64) (qLabel nDescs : UInt32) :
    RxVi bits × EfViEvent :=
  if nDescs ≠ 0 then
    let flags := vi.rxFlags event
    let errorBits := event &&& Ef10.rxDiscardMask
    ({ vi with inJumbo := flags.cont },
      if errorBits = 0 then .rxMulti qLabel nDescs flags
      else .rxMultiDiscard qLabel nDescs flags (Ef10.discardType errorBits))
  else vi.noDescTrunc qLabel

/-- `ef10_rx_event`. The interface has its own event queue, so that its label is 0 and no
other label is in use. -/
def rxEvent (merge : Bool) (vi : RxVi bits) (event : BitVec 64) : RxVi bits × Option EfViEvent :=
  let qLabel := Ef10.get Ef10.rxQlabel event
  if qLabel = 0 then
    let shortDi := Ef10.get Ef10.rxDscPtrLbits event
    if merge then
      let nDescs := (shortDi - vi.lastDescI.toUInt32) &&& 15
      let result :=
        { vi with lastDescI := shortDi.toUInt16 }.rxDescsConsumed event qLabel nDescs
      (result.1, some result.2)
    else
      let nDescs := (shortDi - vi.removed) &&& 15
      if nDescs = 1 then
        let result := vi.rxDescConsumed event qLabel
        (result.1, some result.2)
      else if nDescs = 0 then
        let result := vi.noDescTrunc qLabel
        (result.1, some result.2)
      else (vi, none)
  else (vi, none)

end RxVi

namespace Ef10

def txEventCompletion (event : BitVec 64) : EfViEvent :=
  .tx (get txQlabel event) ((get txDescrIndx event + 1).toUInt16) (get txSoft1 event = 0x11)

/-- `ef10_mcdi_event`: a software event, the reboot of the controller, or nothing for the
caller. -/
def mcdiEvent (event : BitVec 64) : Option EfViEvent :=
  if get mcdiEventCode event = 0 then some (.sw ⟨event.setWidth 32⟩)
  else if get mcdiEventCode event = 0x15 then some .reset
  else none

/-- The events that have nothing to do with receive buffers. Those of the driver and the
unknown ones are at most logged. -/
def otherEvent (event : BitVec 64) : Option EfViEvent :=
  if get evCode event = 2 then some (txEventCompletion event)
  else if get evCode event = 12 then mcdiEvent event
  else none

def handle {bits : Fin 32} (merge : Bool) (vi : RxVi bits) (event : BitVec 64) :
    RxVi bits × Option EfViEvent :=
  if get evCode event = 0 then vi.rxEvent merge event else (vi, otherEvent event)

def isMcdi (event : BitVec 64) : Bool := get evCode event = 12

end Ef10

/-- A receive event as the adapter makes it: the descriptors it completes, the bytes in the
last of them, and whether the packet goes on. `rest` has the bits outside the fields below:
the error bits, the classes of the packet, and others that are not read. -/
structure RxCompletion where
  count : Nat
  bytes : Nat
  cont : Bool
  multicast : Bool
  rest : BitVec 64
deriving DecidableEq, Repr

namespace RxCompletion

def fields (completion : RxCompletion) (index : Nat) : List (Field × BitVec 64) := [
  (Ef10.rxBytes, BitVec.ofNat 64 completion.bytes),
  (Ef10.rxCont, TxDesc.flag completion.cont),
  (Ef10.rxQlabel, 0),
  (Ef10.rxMacClass, TxDesc.flag completion.multicast),
  (Ef10.rxDscPtrLbits, BitVec.ofNat 64 (index % 16)),
  (Ef10.evCode, 0)]

def outside : BitVec 64 := ~~~0xf00f0008001f7fff

def word (completion : RxCompletion) (index : Nat) : BitVec 64 :=
  Field.populate (completion.fields index) ||| (completion.rest &&& outside)

def errors (completion : RxCompletion) : BitVec 64 := completion.rest &&& Ef10.rxDiscardMask

def Valid (completion : RxCompletion) : Prop := completion.bytes < 2 ^ 14

instance (completion : RxCompletion) : Decidable completion.Valid :=
  inferInstanceAs (Decidable (_ < _))

variable {completion : RxCompletion}

theorem fields_fit (h : completion.Valid) (index : Nat) :
    ∀ entry ∈ completion.fields index, entry.1.Fits entry.2 := by
  have hflag (value : Bool) : (TxDesc.flag value).toNat < 2 ^ 1 := by cases value <;> decide
  have hbytes : completion.bytes < 2 ^ 14 := h
  have hindex := Nat.mod_lt index (by decide : 16 > 0)
  simp only [fields, List.forall_mem_cons, Field.Fits, BitVec.toNat_ofNat]
  refine ⟨⟨by decide, ?_⟩, ⟨by decide, hflag _⟩, ⟨by decide, by decide⟩, ⟨by decide, hflag _⟩,
    ⟨by decide, ?_⟩, ⟨by decide, by decide⟩, by simp⟩
  · exact Nat.lt_of_le_of_lt (Nat.mod_le _ _) hbytes
  · exact Nat.lt_of_le_of_lt (Nat.mod_le _ _) hindex

theorem fields_apart (completion : RxCompletion) (index : Nat) :
    (completion.fields index).Pairwise fun first second => first.1.Apart second.1 := by
  simp [fields, Field.Apart, Ef10.rxBytes, Ef10.rxCont, Ef10.rxQlabel, Ef10.rxMacClass,
    Ef10.rxDscPtrLbits, Ef10.evCode]

theorem extract_word (h : completion.Valid) (index : Nat) {field : Field} {value : BitVec 64}
    (hmem : (field, value) ∈ completion.fields index)
    (houtside : field.extract outside = 0#64) :
    field.extract (completion.word index) = value := by
  rw [word, Field.extract_or, Field.extract_and, houtside, BitVec.and_zero, BitVec.or_zero]
  exact Field.extract_populate (fields_fit h index) (completion.fields_apart index) hmem

theorem errorBits_word (h : completion.Valid) (index : Nat) :
    completion.word index &&& Ef10.rxDiscardMask = completion.errors := by
  have hzero : Field.populate (completion.fields index) &&& Ef10.rxDiscardMask = 0#64 := by
    apply BitVec.eq_of_getLsbD_eq
    intro i hi
    rw [BitVec.getLsbD_and]
    cases hmask : Ef10.rxDiscardMask.getLsbD i with
    | false => simp
    | true =>
        rw [Field.getLsbD_populate_outside (fields_fit h index)]
        · simp
        · have hbits : ∀ i < 64, Ef10.rxDiscardMask.getLsbD i = true →
              i = 24 ∨ i = 25 ∨ i = 26 ∨ i = 29 ∨ i = 56 ∨ i = 57 := by decide
          have hplace := hbits i hi hmask
          simp only [fields, List.forall_mem_cons, Ef10.rxBytes, Ef10.rxCont, Ef10.rxQlabel,
            Ef10.rxMacClass, Ef10.rxDscPtrLbits, Ef10.evCode]
          refine ⟨?_, ?_, ?_, ?_, ?_, ?_, by simp⟩ <;> omega
  have hmask : outside &&& Ef10.rxDiscardMask = Ef10.rxDiscardMask := by decide
  rw [word, BitVec.and_or_distrib_right, hzero, BitVec.and_assoc, hmask, BitVec.zero_or, errors]

/-- An event for receive cannot be taken for a slot that is not written yet: in each dword it
has a field of zeros. -/
theorem word_wellFormed (h : completion.Valid) (index : Nat) :
    WellFormed (completion.word index) := by
  have hclear {field : Field} (hwidth : 0 < field.width)
      (hzero : field.extract (completion.word index) = 0#64) :
      (completion.word index).getLsbD field.lbn = false := by
    have hbit := field.getLsbD_extract (completion.word index) 0 (by decide)
    rw [hzero] at hbit
    simpa [hwidth] using hbit.symm
  intro half hblank
  cases half with
  | lo =>
      have hbit := congrArg (fun dword => dword.getLsbD 16) hblank
      have hqlabel : Ef10.rxQlabel.extract (completion.word index) = 0#64 :=
        extract_word h index (by simp [fields]) (by decide)
      rw [Half.of, BitVec.getLsbD_extractLsb',
        show 0 + 16 = Ef10.rxQlabel.lbn from rfl, hclear (by decide) hqlabel] at hbit
      contradiction
  | hi =>
      have hbit := congrArg (fun dword => dword.getLsbD 28) hblank
      have hcode : Ef10.evCode.extract (completion.word index) = 0#64 :=
        extract_word h index (by simp [fields]) (by decide)
      rw [Half.of, BitVec.getLsbD_extractLsb',
        show 32 + 28 = Ef10.evCode.lbn from rfl, hclear (by decide) hcode] at hbit
      contradiction

theorem dword_ofNat (value : Nat) :
    (⟨(BitVec.ofNat 64 value).setWidth 32⟩ : UInt32) = UInt32.ofNat value := by
  apply UInt32.toNat_inj.mp
  change ((BitVec.ofNat 64 value).setWidth 32).toNat = _
  rw [BitVec.toNat_setWidth, BitVec.toNat_ofNat, UInt32.toNat_ofNat']
  omega

section Fields

variable (h : completion.Valid) (index : Nat)
include h

theorem get_evCode : Ef10.get Ef10.evCode (completion.word index) = 0 := by
  have hfield : Ef10.evCode.extract (completion.word index) = 0 :=
    extract_word h index (by simp [fields]) (by decide)
  rw [Ef10.get, hfield]
  rfl

theorem get_rxQlabel : Ef10.get Ef10.rxQlabel (completion.word index) = 0 := by
  have hfield : Ef10.rxQlabel.extract (completion.word index) = 0 :=
    extract_word h index (by simp [fields]) (by decide)
  rw [Ef10.get, hfield]
  rfl

theorem get_rxBytes :
    Ef10.get Ef10.rxBytes (completion.word index) = UInt32.ofNat completion.bytes := by
  have hfield : Ef10.rxBytes.extract (completion.word index) = BitVec.ofNat 64 completion.bytes :=
    extract_word h index (by simp [fields]) (by decide)
  rw [Ef10.get, hfield]
  exact dword_ofNat _

theorem get_rxDscPtrLbits :
    Ef10.get Ef10.rxDscPtrLbits (completion.word index) = UInt32.ofNat (index % 16) := by
  have hfield :
      Ef10.rxDscPtrLbits.extract (completion.word index) = BitVec.ofNat 64 (index % 16) :=
    extract_word h index (by simp [fields]) (by decide)
  rw [Ef10.get, hfield]
  exact dword_ofNat _

theorem rxFlags_word {bits : Fin 32} (vi : RxVi bits) :
    vi.rxFlags (completion.word index) =
      ⟨!vi.inJumbo, completion.cont, completion.multicast⟩ := by
  have hcont : Ef10.rxCont.extract (completion.word index) = TxDesc.flag completion.cont :=
    extract_word h index (by simp [fields]) (by decide)
  have hclass :
      Ef10.rxMacClass.extract (completion.word index) = TxDesc.flag completion.multicast :=
    extract_word h index (by simp [fields]) (by decide)
  rw [RxVi.rxFlags, Ef10.get, Ef10.get, hcont, hclass]
  congr 1
  · cases completion.cont <;> rfl
  · cases completion.multicast <;> rfl

end Fields

end RxCompletion

end VirtualSfc.Efvi
