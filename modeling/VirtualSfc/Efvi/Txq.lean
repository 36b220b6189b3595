import VirtualSfc.Base.Window
import VirtualSfc.Efvi.TxDescriptor

/-! The transmit queue of a virtual interface and the adapter that serves it. Software
writes descriptors, announces them through the doorbell, sometimes with the first
descriptor beside it, and takes ids back when completion events arrive. The ring with
its three 32-bit counters and the adapter's indices are compared with a pipeline of
plain lists. -/
namespace VirtualSfc.Efvi
open Base

/-- `EF_REQUEST_ID_MASK`, in the slots of descriptors that end no packet. -/
def requestIdMask : UInt32 := 0xffffffff

structure Txq (bits : Fin 32) where
  descriptors : Nat → BitVec 64
  ids : Nat → UInt32
  previous : UInt32
  added : UInt32
  removed : UInt32

/-- A write to `ER_DZ_TX_DESC_UPD_REG`: the ring index, and the descriptor if one is
pushed with it. -/
structure Doorbell where
  index : Nat
  pushed : Option (BitVec 64)
deriving DecidableEq, Repr

structure TxFlags where
  physAddr : Bool
  txPushThresh : UInt32

namespace TxDesc

-- `ESF_DZ_TX_PIO_*`
def pioType : Field := ⟨63, 1⟩
def pioOpt : Field := ⟨60, 3⟩
def pioByteCnt : Field := ⟨32, 12⟩
def pioBufAddr : Field := ⟨0, 12⟩

def pioWord (offset len : UInt32) : BitVec 64 :=
  Field.populate [
    (pioType, 1),
    (pioOpt, 1),
    (pioByteCnt, len.toBitVec.setWidth 64),
    (pioBufAddr, offset.toBitVec.setWidth 64)]

def canPush (word : BitVec 64) : Bool :=
  let isOpt : BitVec 64 := 1 <<< 63
  let isCont : BitVec 64 := 1 <<< 62
  let isPio : BitVec 64 := 1 <<< 60
  word &&& (isOpt ||| isCont) == 0 || word &&& (isOpt ||| isPio) == isOpt ||| isPio

end TxDesc

inductive TxError
  | eagain
  | einval
deriving DecidableEq, Repr

namespace Txq

variable {bits : Fin 32}

def mask (bits : Fin 32) : UInt32 := UInt32.ofNat (2 ^ bits.val - 1)

def reset (bits : Fin 32) (descriptors : Nat → BitVec 64) : Txq bits :=
  ⟨descriptors, fun _ => requestIdMask, 0, 0, 0⟩

def write (txq : Txq bits) (word : BitVec 64) : Txq bits :=
  { txq with
    descriptors := Function.update txq.descriptors (Ring.slot bits txq.added) word
    added := txq.added + 1 }

def writeWords (txq : Txq bits) : List (BitVec 64) → Txq bits × Bool
  | [] => (txq, true)
  | word :: rest =>
      if txq.added - txq.removed ≥ mask bits then (txq, false)
      else writeWords (txq.write word) rest

/-- `ef10_ef_vi_transmitv_init`: `false` is `-EAGAIN`. -/
def transmitvInit (physAddr : Bool) (txq : Txq bits) (iovs : List Iovec) (dmaId : UInt32) :
    Txq bits × Bool :=
  let written := txq.writeWords (txWords physAddr iovs)
  if written.2 then
    ({ written.1 with
      ids := Function.update written.1.ids (Ring.slot bits (written.1.added - 1)) dmaId }, true)
  else ({ written.1 with added := txq.added }, false)

def transmitPush (txPushThresh : UInt32) (txq : Txq bits) : Txq bits × Doorbell :=
  let word := txq.descriptors (Ring.slot bits txq.previous)
  let index := Ring.slot bits txq.added
  let doorbell : Doorbell :=
    if txq.previous - txq.removed < txPushThresh ∧ TxDesc.canPush word then ⟨index, some word⟩
    else ⟨index, none⟩
  ({ txq with previous := txq.added }, doorbell)

def transmitv (flags : TxFlags) (txq : Txq bits) (iovs : List Iovec) (dmaId : UInt32) :
    Txq bits × Except TxError Doorbell :=
  let init := txq.transmitvInit flags.physAddr iovs dmaId
  if init.2 then
    let pushed := init.1.transmitPush flags.txPushThresh
    (pushed.1, .ok pushed.2)
  else (init.1, .error .eagain)

def undoLoop : Nat → Txq bits → Txq bits
  | 0, txq => txq
  | fuel + 1, txq =>
      if txq.added = txq.previous then txq
      else
        undoLoop fuel { txq with
          added := txq.added - 1
          ids := Function.update txq.ids (Ring.slot bits (txq.added - 1)) requestIdMask }

/-- `ef_vi_transmit_init_undo`. The loop takes one step for each descriptor that was
not pushed. -/
def transmitInitUndo (txq : Txq bits) : Txq bits :=
  undoLoop (txq.added - txq.previous).toNat txq

def pioSetDesc (txq : Txq bits) (offset len dmaId : UInt32) : Txq bits :=
  let di := Ring.slot bits txq.added
  { txq with
    descriptors := Function.update txq.descriptors di (TxDesc.pioWord offset len)
    ids := Function.update txq.ids di dmaId }

def transmitPio (txPushThresh : UInt32) (txq : Txq bits) (offset len dmaId : UInt32) :
    Txq bits × Except TxError Doorbell :=
  if offset &&& 63 ≠ 0 then (txq, .error .einval)
  else
    let set := txq.pioSetDesc offset len dmaId
    if set.added - set.removed < mask bits then
      let pushed := { set with added := set.added + 1 }.transmitPush txPushThresh
      (pushed.1, .ok pushed.2)
    else
      ({ set with ids := Function.update set.ids (Ring.slot bits set.added) requestIdMask },
        .error .eagain)

def unbundleLoop (stop : Nat) : Nat → Txq bits → List UInt32 → Txq bits × List UInt32
  | 0, txq, ids => (txq, ids)
  | fuel + 1, txq, ids =>
      let i := Ring.slot bits txq.removed
      if i = stop then (txq, ids)
      else if txq.ids i ≠ requestIdMask then
        unbundleLoop stop fuel { txq with
          ids := Function.update txq.ids i requestIdMask
          removed := txq.removed + 1 } (ids ++ [txq.ids i])
      else unbundleLoop stop fuel { txq with removed := txq.removed + 1 } ids

/-- `ef_vi_transmit_unbundle`: the ids of the packets completed by the event. The loop
stops within one turn of the ring. -/
def transmitUnbundle (txq : Txq bits) (descId : UInt32) : Txq bits × List UInt32 :=
  unbundleLoop (Ring.slot bits descId) (2 ^ bits.val) txq []

end Txq

structure Entry where
  word : BitVec 64
  id : UInt32
deriving DecidableEq, Repr

def Entry.inner (word : BitVec 64) : Entry := ⟨word, requestIdMask⟩

def entries (id : UInt32) : List (BitVec 64) → List Entry
  | [] => []
  | [word] => [⟨word, id⟩]
  | word :: rest => .inner word :: entries id rest

@[simp] theorem length_entries (id : UInt32) (words : List (BitVec 64)) :
    (entries id words).length = words.length := by
  fun_induction entries id words with
  | case1 => rfl
  | case2 => rfl
  | case3 word rest hrest ih => simp [ih]

theorem entries_concat (id : UInt32) (words : List (BitVec 64)) (last : BitVec 64) :
    entries id (words ++ [last]) = words.map .inner ++ [⟨last, id⟩] := by
  induction words with
  | nil => rfl
  | cons word rest ih =>
      rw [List.cons_append, entries, ih]
      · rfl
      · simp

namespace Txq

variable {bits : Fin 32}

/-- The ring at an unbounded position: the descriptors in it, the first `sent` of them
announced to the adapter. Slots without a packet's last descriptor have no id. -/
structure Holds (txq : Txq bits) (position sent : Nat) (live : List Entry) : Prop where
  removed : txq.removed = UInt32.ofNat position
  previous : txq.previous = UInt32.ofNat (position + sent)
  added : txq.added = UInt32.ofNat (position + live.length)
  announced : sent ≤ live.length
  bounded : live.length < 2 ^ bits.val
  words : (Ring.layout bits).Stored txq.descriptors position (live.map Entry.word)
  ids : (Ring.layout bits).Stored txq.ids position
    (live.map Entry.id ++ List.replicate (2 ^ bits.val - live.length) requestIdMask)

theorem toNat_ofNat_sub (position count : Nat) (h : count < 2 ^ 32) :
    (UInt32.ofNat (position + count) - UInt32.ofNat position).toNat = count := by
  rw [UInt32.toNat_sub, UInt32.toNat_ofNat', UInt32.toNat_ofNat']
  omega

theorem ofNat_succ_sub_one (count : Nat) :
    UInt32.ofNat (count + 1) - 1 = UInt32.ofNat count := by
  rw [UInt32.ofNat_add]
  exact UInt32.add_sub_cancel _ _

theorem reset_holds (bits : Fin 32) (descriptors : Nat → BitVec 64) :
    (reset bits descriptors).Holds 0 0 [] := by
  have hblank (count start : Nat) : (Ring.layout bits).Stored (fun _ => requestIdMask) start
      (List.replicate count requestIdMask) := by
    induction count generalizing start with
    | zero => trivial
    | succ count ih => exact ⟨rfl, ih _⟩
  exact ⟨rfl, rfl, rfl, Nat.le_refl _, Nat.two_pow_pos _, trivial, hblank (2 ^ bits.val) 0⟩

variable {txq : Txq bits} {position sent : Nat} {live : List Entry}

theorem Holds.level (h : txq.Holds position sent live) :
    (txq.added - txq.removed).toNat = live.length := by
  have hbits := Ring.two_pow_le bits
  have hbounded := h.bounded
  rw [h.added, h.removed, toNat_ofNat_sub _ _ (by omega)]

theorem toNat_mask (bits : Fin 32) : (mask bits).toNat = 2 ^ bits.val - 1 := by
  have hbits := Ring.two_pow_le bits
  rw [mask, UInt32.toNat_ofNat']
  omega

theorem Holds.full_iff (h : txq.Holds position sent live) :
    txq.added - txq.removed ≥ mask bits ↔ live.length + 1 = 2 ^ bits.val := by
  have hbounded := h.bounded
  rw [ge_iff_le, UInt32.le_iff_toNat_le, h.level, toNat_mask]
  omega

theorem Holds.write (h : txq.Holds position sent live) (hroom : live.length + 1 < 2 ^ bits.val)
    (word : BitVec 64) : (txq.write word).Holds position sent (live ++ [.inner word]) where
  removed := h.removed
  previous := h.previous
  added := by
    rw [Txq.write, h.added, List.length_append, List.length_singleton, ← Nat.add_assoc,
      @UInt32.ofNat_add _ 1]
    rfl
  announced := by
    rw [List.length_append]
    exact Nat.le_add_right_of_le h.announced
  bounded := by
    rw [List.length_append, List.length_singleton]
    exact hroom
  words := by
    have hpush := h.words.push word (by rw [List.length_map]; exact h.bounded)
    rw [List.length_map] at hpush
    rw [Txq.write, List.map_append, h.added]
    exact hpush
  ids := by
    have hids := h.ids
    have hsplit : 2 ^ bits.val - live.length = 2 ^ bits.val - (live.length + 1) + 1 := by omega
    rw [hsplit, List.replicate_succ] at hids
    rw [List.map_append, List.length_append, List.length_singleton, List.append_assoc]
    exact hids

theorem Holds.truncate {words : List (BitVec 64)}
    (h : txq.Holds position sent (live ++ words.map .inner)) (hsent : sent ≤ live.length) :
    ({ txq with added := UInt32.ofNat (position + live.length) } : Txq bits).Holds
      position sent live where
  removed := h.removed
  previous := h.previous
  added := rfl
  announced := hsent
  bounded := by
    have hbounded := h.bounded
    rw [List.length_append] at hbounded
    omega
  words := by
    have hwords := h.words
    rw [List.map_append] at hwords
    exact (Layout.stored_append.mp hwords).1
  ids := by
    have hids := h.ids
    have hbounded := h.bounded
    have hblank : (words.map Entry.inner).map Entry.id =
        List.replicate words.length requestIdMask := by
      rw [List.map_map]
      exact List.map_const'
    rw [List.length_append, List.length_map] at hbounded
    rw [List.map_append, hblank, List.append_assoc, List.replicate_append_replicate,
      List.length_append, List.length_map] at hids
    have hcount : words.length + (2 ^ bits.val - (live.length + words.length)) =
        2 ^ bits.val - live.length := by omega
    rwa [hcount] at hids

theorem writeWords_room (words : List (BitVec 64)) (h : txq.Holds position sent live)
    (hroom : live.length + words.length < 2 ^ bits.val) :
    ∃ next, txq.writeWords words = (next, true) ∧
      next.Holds position sent (live ++ words.map .inner) := by
  induction words generalizing txq live with
  | nil => exact ⟨txq, rfl, by simpa using h⟩
  | cons word rest ih =>
      rw [List.length_cons] at hroom
      obtain ⟨next, hnext, hholds⟩ := ih (h.write (by omega) word) (by
        rw [List.length_append, List.length_singleton]
        omega)
      have hfull : ¬ txq.added - txq.removed ≥ mask bits := by
        rw [h.full_iff]
        omega
      refine ⟨next, ?_, ?_⟩
      · rw [writeWords, if_neg hfull, hnext]
      · rw [List.append_assoc] at hholds
        exact hholds

theorem writeWords_full (words : List (BitVec 64)) (h : txq.Holds position sent live)
    (hroom : 2 ^ bits.val ≤ live.length + words.length) :
    ∃ next written, txq.writeWords words = (next, false) ∧
      next.Holds position sent (live ++ List.map .inner written) := by
  induction words generalizing txq live with
  | nil =>
      have hbounded := h.bounded
      rw [List.length_nil] at hroom
      omega
  | cons word rest ih =>
      by_cases hfull : txq.added - txq.removed ≥ mask bits
      · refine ⟨txq, [], ?_, by simpa using h⟩
        rw [writeWords, if_pos hfull]
      · have hspace := hfull
        have hbounded := h.bounded
        rw [h.full_iff] at hspace
        rw [List.length_cons] at hroom
        obtain ⟨next, written, hnext, hholds⟩ := ih (h.write (by omega) word) (by
          rw [List.length_append, List.length_singleton]
          omega)
        refine ⟨next, word :: written, ?_, ?_⟩
        · rw [writeWords, if_neg hfull, hnext]
        · rw [List.append_assoc] at hholds
          exact hholds

theorem Holds.added_sub_one {entry : Entry} (h : txq.Holds position sent (live ++ [entry])) :
    txq.added - 1 = UInt32.ofNat (position + live.length) := by
  rw [h.added, List.length_append, List.length_singleton, ← Nat.add_assoc, ofNat_succ_sub_one]

theorem Holds.setId {word : BitVec 64} {old : UInt32}
    (h : txq.Holds position sent (live ++ [⟨word, old⟩])) (id : UInt32) :
    ({ txq with
      ids := Function.update txq.ids (Ring.slot bits (txq.added - 1)) id } : Txq bits).Holds
        position sent (live ++ [⟨word, id⟩]) where
  removed := h.removed
  previous := h.previous
  added := by
    rw [h.added, List.length_append, List.length_append]
    rfl
  announced := by
    have hannounced := h.announced
    rwa [List.length_append] at hannounced ⊢
  bounded := by
    have hbounded := h.bounded
    rwa [List.length_append] at hbounded ⊢
  words := by
    have hwords := h.words
    rwa [List.map_append] at hwords ⊢
  ids := by
    have hids := h.ids
    have hbounded := h.bounded
    rw [List.length_append, List.length_singleton] at hbounded
    rw [List.map_append, List.append_assoc, List.length_append, List.length_singleton] at hids
    have hset := Layout.Stored.set id hids (by
      change (live.map Entry.id).length +
        (List.replicate (2 ^ bits.val - (live.length + 1)) requestIdMask).length < 2 ^ bits.val
      rw [List.length_map, List.length_replicate]
      omega)
    rw [List.length_map] at hset
    rw [h.added_sub_one, List.map_append, List.append_assoc, List.length_append,
      List.length_singleton]
    exact hset

theorem transmitvInit_room {physAddr : Bool} {iovs : List Iovec} (dmaId : UInt32)
    (h : txq.Holds position sent live) (hne : txWords physAddr iovs ≠ [])
    (hroom : live.length + (txWords physAddr iovs).length < 2 ^ bits.val) :
    ∃ next, txq.transmitvInit physAddr iovs dmaId = (next, true) ∧
      next.Holds position sent (live ++ entries dmaId (txWords physAddr iovs)) := by
  obtain ⟨written, hwritten, hholds⟩ := writeWords_room _ h hroom
  rw [← List.dropLast_concat_getLast hne, List.map_append, ← List.append_assoc] at hholds
  refine ⟨_, by rw [transmitvInit, hwritten]; rfl, ?_⟩
  rw [← List.dropLast_concat_getLast hne, entries_concat, ← List.append_assoc]
  exact Holds.setId hholds dmaId

theorem transmitvInit_full {physAddr : Bool} {iovs : List Iovec} (dmaId : UInt32)
    (h : txq.Holds position sent live)
    (hroom : 2 ^ bits.val ≤ live.length + (txWords physAddr iovs).length) :
    ∃ next, txq.transmitvInit physAddr iovs dmaId = (next, false) ∧
      next.Holds position sent live := by
  obtain ⟨next, written, hwritten, hholds⟩ := writeWords_full _ h hroom
  refine ⟨{ next with added := txq.added }, by rw [transmitvInit, hwritten]; rfl, ?_⟩
  rw [h.added]
  exact hholds.truncate h.announced

/-- Everything is announced, by the ring index of the next descriptor to come. A
descriptor beside the index is the first one that was not announced before. -/
theorem transmitPush_spec {entry : Entry} {rest : List Entry} (txPushThresh : UInt32)
    (h : txq.Holds position sent live) (hqueued : live.drop sent = entry :: rest) :
    (txq.transmitPush txPushThresh).1.Holds position live.length live ∧
      (txq.transmitPush txPushThresh).2 =
        ⟨(Ring.layout bits).place (position + live.length),
          if UInt32.ofNat sent < txPushThresh ∧ TxDesc.canPush entry.word then some entry.word
          else none⟩ := by
  have hlevel : txq.previous - txq.removed = UInt32.ofNat sent := by
    rw [h.previous, h.removed, UInt32.ofNat_add, UInt32.add_comm, UInt32.add_sub_cancel]
  have hword : txq.descriptors (Ring.slot bits txq.previous) = entry.word := by
    have hwords := h.words
    rw [← List.take_append_drop sent live, hqueued, List.map_append, List.map_cons] at hwords
    have hread := hwords.read
    rw [List.length_map, List.length_take_of_le h.announced] at hread
    rw [h.previous]
    exact hread
  refine ⟨⟨h.removed, h.added, h.added, Nat.le_refl _, h.bounded, h.words, h.ids⟩, ?_⟩
  simp only [transmitPush, hlevel, hword]
  rw [h.added]
  split <;> rfl

theorem undoLoop_holds {extra : List Entry} {fuel : Nat}
    (h : txq.Holds position live.length (live ++ extra)) (hfuel : extra.length ≤ fuel) :
    (undoLoop fuel txq).Holds position live.length live := by
  induction extra using List.reverseRecOn generalizing txq fuel with
  | nil =>
      rw [List.append_nil] at h
      cases fuel with
      | zero => exact h
      | succ fuel =>
          rw [undoLoop, if_pos (by rw [h.added, h.previous])]
          exact h
  | append_singleton extra last ih =>
      rw [List.length_append, List.length_singleton] at hfuel
      obtain ⟨fuel, rfl⟩ : ∃ less, fuel = less + 1 := ⟨fuel - 1, by omega⟩
      rw [← List.append_assoc] at h
      have hbounded := h.bounded
      have hbits := Ring.two_pow_le bits
      have hne : txq.added ≠ txq.previous := by
        intro hsame
        have hcount := toNat_ofNat_sub (position + live.length) (extra.length + 1) (by
          rw [List.length_append, List.length_append, List.length_singleton] at hbounded
          omega)
        rw [h.added, h.previous, List.length_append, List.length_append,
          List.length_singleton] at hsame
        rw [← Nat.add_assoc position, ← Nat.add_assoc position, Nat.add_assoc] at hsame
        rw [hsame, UInt32.sub_self] at hcount
        exact absurd hcount (by simp)
      have hreset := @Holds.truncate _ _ _ _ (live ++ extra) [last.word]
        (Holds.setId h requestIdMask) (by rw [List.length_append]; omega)
      rw [undoLoop, if_neg hne, h.added_sub_one]
      rw [h.added_sub_one] at hreset
      exact ih hreset (by omega)

theorem transmitInitUndo_holds {extra : List Entry}
    (h : txq.Holds position live.length (live ++ extra)) :
    txq.transmitInitUndo.Holds position live.length live := by
  apply undoLoop_holds h
  have hbounded := h.bounded
  have hbits := Ring.two_pow_le bits
  rw [List.length_append] at hbounded
  rw [h.added, h.previous, List.length_append, ← Nat.add_assoc, toNat_ofNat_sub _ _ (by omega)]

/-- The PIO path writes the id before it looks for room, and the counter last. -/
theorem pioSetDesc_holds (h : txq.Holds position sent live)
    (hroom : live.length + 1 < 2 ^ bits.val) (offset len dmaId : UInt32) :
    ({ txq.pioSetDesc offset len dmaId with
      added := (txq.pioSetDesc offset len dmaId).added + 1 } : Txq bits).Holds position sent
        (live ++ [⟨TxDesc.pioWord offset len, dmaId⟩]) := by
  have hset := Holds.setId (h.write hroom (TxDesc.pioWord offset len)) dmaId
  rw [Txq.write] at hset
  simp only [UInt32.add_sub_cancel] at hset
  exact hset

theorem pioSetDesc_undone (h : txq.Holds position sent live) (offset len dmaId : UInt32) :
    ({ txq.pioSetDesc offset len dmaId with
      ids := Function.update (txq.pioSetDesc offset len dmaId).ids
        (Ring.slot bits (txq.pioSetDesc offset len dmaId).added) requestIdMask } : Txq bits).Holds
        position sent live := by
  have hids := h.ids
  have hbounded := h.bounded
  have hsplit : 2 ^ bits.val - live.length = 2 ^ bits.val - (live.length + 1) + 1 := by omega
  rw [hsplit, List.replicate_succ] at hids
  have hfree : txq.ids (Ring.slot bits txq.added) = requestIdMask := by
    have hread := hids.read
    rw [List.length_map] at hread
    rw [h.added]
    exact hread
  have hsame : Function.update (txq.pioSetDesc offset len dmaId).ids
      (Ring.slot bits (txq.pioSetDesc offset len dmaId).added) requestIdMask = txq.ids := by
    simp only [pioSetDesc, Function.update_idem]
    rw [← hfree, Function.update_eq_self]
  rw [hsame]
  refine ⟨h.removed, h.previous, h.added, h.announced, h.bounded, ?_, h.ids⟩
  rw [pioSetDesc, h.added]
  exact h.words.update_after (by rw [List.length_map]) hbounded

theorem Holds.take {entry : Entry} {ids : Nat → UInt32}
    (h : txq.Holds position (sent + 1) (entry :: live))
    (hids : ids = if entry.id ≠ requestIdMask then
      Function.update txq.ids (Ring.slot bits txq.removed) requestIdMask else txq.ids) :
    ({ txq with ids := ids, removed := txq.removed + 1 } : Txq bits).Holds
      (position + 1) sent live where
  removed := by
    rw [h.removed, UInt32.ofNat_add]
    rfl
  previous := by
    rw [h.previous]
    congr 1
    omega
  added := by
    rw [h.added, List.length_cons]
    congr 1
    omega
  announced := Nat.le_of_succ_le_succ h.announced
  bounded := Nat.lt_of_succ_lt h.bounded
  words := h.words.2
  ids := by
    have hbounded := h.bounded
    have hstored := h.ids
    rw [List.length_cons] at hbounded hstored
    rw [List.map_cons, List.cons_append] at hstored
    have hsize : (live.map Entry.id ++
        List.replicate (2 ^ bits.val - (live.length + 1)) requestIdMask).length + 1 =
          2 ^ bits.val := by
      rw [List.length_append, List.length_map, List.length_replicate]
      omega
    have hcount : 2 ^ bits.val - live.length = 2 ^ bits.val - (live.length + 1) + 1 := by omega
    rw [hcount, List.replicate_succ', ← List.append_assoc, hids]
    split
    · rw [h.removed]
      exact hstored.overwrite requestIdMask hsize
    · rename_i hnone
      rw [not_not] at hnone
      rw [hnone] at hstored
      exact hstored.rotate hsize

def idsOf (batch : List Entry) : List UInt32 :=
  (batch.map Entry.id).filter fun id => id ≠ requestIdMask

theorem unbundleLoop_spec {batch : List Entry} {fuel : Nat} {before : List UInt32}
    (h : txq.Holds position (batch.length + sent) (batch ++ live)) (hfuel : batch.length < fuel) :
    ∃ next, unbundleLoop ((Ring.layout bits).place (position + batch.length)) fuel txq before =
        (next, before ++ idsOf batch) ∧
      next.Holds (position + batch.length) sent live := by
  obtain ⟨fuel, rfl⟩ : ∃ less, fuel = less + 1 := ⟨fuel - 1, by omega⟩
  induction batch generalizing txq position fuel before with
  | nil =>
      rw [List.length_nil, Nat.zero_add] at h
      refine ⟨txq, ?_, h⟩
      rw [unbundleLoop, h.removed]
      simp [idsOf, Ring.layout]
  | cons entry rest ih =>
      rw [List.length_cons] at hfuel
      obtain ⟨fuel, rfl⟩ : ∃ less, fuel = less + 1 := ⟨fuel - 1, by omega⟩
      have hbounded := h.bounded
      rw [List.cons_append, List.length_cons, List.length_append] at hbounded
      have hne : Ring.slot bits txq.removed ≠
          (Ring.layout bits).place (position + (rest.length + 1)) := by
        rw [h.removed]
        exact Ne.symm ((Ring.layout bits).separated position (rest.length + 1) (by omega)
          (by omega))
      have hid : txq.ids (Ring.slot bits txq.removed) = entry.id := by
        rw [h.removed]
        exact h.ids.1
      have hsent : (entry :: rest).length + sent = rest.length + sent + 1 := by
        rw [List.length_cons]
        omega
      rw [hsent, List.cons_append] at h
      have htake := Holds.take h rfl
      have hshift : position + (entry :: rest).length = position + 1 + rest.length := by
        rw [List.length_cons]
        omega
      rw [hshift]
      have hstop : ¬ Ring.slot bits txq.removed =
          (Ring.layout bits).place (position + 1 + rest.length) := by
        rw [← hshift]
        exact hne
      rw [unbundleLoop, if_neg hstop, hid]
      by_cases hnone : entry.id = requestIdMask
      · obtain ⟨next, hnext, hholds⟩ := @ih _ _ before htake fuel (by omega)
        refine ⟨next, ?_, hholds⟩
        rw [if_neg (not_not.mpr hnone)] at hnext ⊢
        simpa [idsOf, hnone] using hnext
      · obtain ⟨next, hnext, hholds⟩ := @ih _ _ (before ++ [entry.id]) htake fuel (by omega)
        refine ⟨next, ?_, hholds⟩
        rw [if_pos hnone] at hnext ⊢
        simpa [idsOf, hnone] using hnext

end Txq

end VirtualSfc.Efvi
