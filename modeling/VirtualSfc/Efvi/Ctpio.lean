import Mathlib
import VirtualSfc.Base.BitField
import VirtualSfc.Base.Endian
import VirtualSfc.Base.Memory
import VirtualSfc.Efvi.Citools

/-! Cut-through sends. `memcpy_iov_to_ctpio` writes a control word and the frame into
the aperture of the adapter, in whole qwords that are put together from a scatter list
of any lengths, and can keep a copy of the frame for the fallback. -/
namespace VirtualSfc.Efvi.Ctpio
open Base Base.Memory Base.Endian

/-- The local variables of the copy. `dst` and `fallback` are what has been written
through these pointers, from an aligned start; `inBounds` is false once `copy_local` has
been written past its end. -/
structure Copy where
  dst : List UInt8
  inHand : Nat → UInt8
  inHandLen : Nat
  first : Bool
  copyLocal : List UInt8
  fallback : List UInt8
  inBounds : Bool

def writeBufferSize : Nat := 64

def wbAligned (dst : List UInt8) : Bool := dst.length % writeBufferSize == 0

namespace Copy

section Emit

variable (copy : Bool)

def copyFlush (state : Copy) : Copy :=
  if copy then { state with fallback := state.fallback ++ state.copyLocal, copyLocal := [] }
  else state

@[simp] theorem copyFlush_dst (state : Copy) : (state.copyFlush copy).dst = state.dst := by
  cases copy <;> rfl

@[simp] theorem copyFlush_inBounds (state : Copy) :
    (state.copyFlush copy).inBounds = state.inBounds := by
  cases copy <;> rfl

@[simp] theorem copyFlush_fallback (state : Copy) : (state.copyFlush copy).fallback =
    if copy then state.fallback ++ state.copyLocal else state.fallback := by
  cases copy <;> rfl

def keep (bytes : List UInt8) (state : Copy) : Copy :=
  if copy then
    { state with
      copyLocal := state.copyLocal ++ bytes
      inBounds := state.inBounds && decide ((state.copyLocal ++ bytes).length ≤ writeBufferSize) }
  else state

/-- `CTPIO_EMIT_WORD`, without the barrier and the pacing between write buffers. -/
def emitWord (word : List UInt8) (state : Copy) : Copy :=
  let state := if wbAligned state.dst then state.copyFlush copy else state
  keep copy word { state with dst := state.dst ++ word }

/-- `CTPIO_EMIT_IN_HAND`: of the first word only the second half belongs to the frame. -/
def emitInHand (state : Copy) : Copy :=
  if state.first then
    let state := { state with dst := state.dst ++ load state.inHand 0 8 }
    { keep copy (load state.inHand 4 4) state with first := false }
  else state.emitWord copy (load state.inHand 0 8)

/-- From `nothing_in_hand` on: whole qwords, and the rest of the vector into the hand. -/
def qwords (state : Copy) : List UInt8 → Copy
  | b0 :: b1 :: b2 :: b3 :: b4 :: b5 :: b6 :: b7 :: rest =>
      qwords (state.emitWord copy [b0, b1, b2, b3, b4, b5, b6, b7]) rest
  | rest => { state with inHand := store state.inHand 0 rest, inHandLen := rest.length }

def iov (state : Copy) (src : List UInt8) : Copy :=
  if state.inHandLen = 0 then state.qwords copy src
  else
    let n := min (8 - state.inHandLen) src.length
    let merged := { state with
      inHand := store state.inHand state.inHandLen (src.take n)
      inHandLen := state.inHandLen + n }
    if merged.inHandLen < 8 then merged else (merged.emitInHand copy).qwords copy (src.drop n)

end Emit

end Copy

def padToWriteBuffer : Nat → List UInt8 → List UInt8
  | 0, dst => dst
  | left + 1, dst =>
      if wbAligned dst then dst else padToWriteBuffer left (dst ++ List.replicate 8 0)

/-- `in_hand` is not initialised but for the control word. The first vector is read before
`iovcnt` is looked at, so there has to be one. -/
def memcpyIovToCtpio (stale : Nat → UInt8) (ctpioControl : UInt32) (first : List UInt8)
    (rest : List (List UInt8)) (copy : Bool) : Copy :=
  let start : Copy := ⟨[], store stale 0 (toLe 4 ctpioControl.toNat), 4, true, [], [], true⟩
  let state := (first :: rest).foldl (Copy.iov copy) start
  let state := if state.inHandLen ≠ 0 then state.emitInHand copy else state
  { state with dst := padToWriteBuffer 8 state.dst }.copyFlush copy

-- `ES_CTPIO_HEADER`
def userThreshold : Field := ⟨16, 12⟩
def timeStampReq : Field := ⟨12, 1⟩
def frameLength : Field := ⟨0, 12⟩

def headerFields (threshold : UInt32) (timestamps : Bool) (frameLen : Nat) :
    List (Field × BitVec 64) := [
  (userThreshold, threshold.toBitVec.setWidth 64),
  (timeStampReq, if timestamps then 1 else 0),
  (frameLength, BitVec.ofNat 64 frameLen)]

def header (threshold : UInt32) (timestamps : Bool) (frameLen : Nat) : UInt32 :=
  ⟨(Field.populate (headerFields threshold timestamps frameLen)).setWidth 32⟩

def transmitvCtpio (stale : Nat → UInt8) (threshold : UInt32) (timestamps : Bool)
    (first : List UInt8) (rest : List (List UInt8)) (copy : Bool) : Copy :=
  memcpyIovToCtpio stale (header threshold timestamps (first :: rest).flatten.length) first rest
    copy

structure Arrival where
  threshold : Nat
  timestamps : Bool
  frame : List UInt8
deriving DecidableEq, Repr

def arrival (aperture : List UInt8) : Arrival :=
  let header := BitVec.ofNat 64 (fromLe (aperture.take 4))
  ⟨(userThreshold.extract header).toNat, timeStampReq.extract header == 1,
    (aperture.drop 4).take (frameLength.extract header).toNat⟩

/-! What has been written. -/

structure Copy.Wrote (copy : Bool) (state : Copy) (out : List UInt8) : Prop where
  dst : state.dst = out
  aligned : out.length % 8 = 0
  first : state.first = out.isEmpty
  kept : state.fallback ++ state.copyLocal = if copy then out.drop 4 else []
  room : state.copyLocal.length ≤ (out.length + 63) % 64 + 1
  inBounds : state.inBounds = true

section Writing

variable {copy : Bool} {state : Copy} {out : List UInt8}

theorem Copy.Wrote.copyFlush (h : state.Wrote copy out) :
    (state.copyFlush copy).Wrote copy out := by
  cases copy with
  | false => exact h
  | true =>
      exact ⟨h.dst, h.aligned, h.first, by simpa [Copy.copyFlush] using h.kept,
        by simp [Copy.copyFlush], h.inBounds⟩

theorem Copy.Wrote.hold (h : state.Wrote copy out) (inHand : Nat → UInt8) (inHandLen : Nat) :
    Copy.Wrote copy { state with inHand := inHand, inHandLen := inHandLen } out :=
  ⟨h.dst, h.aligned, h.first, h.kept, h.room, h.inBounds⟩

theorem Copy.Wrote.keep (h : state.Wrote copy out) {word kept : List UInt8}
    (hword : word.length = 8) (hkept : (out ++ word).drop 4 = out.drop 4 ++ kept)
    (hroom : state.copyLocal.length + kept.length ≤ (out.length + 7) % 64 + 1) :
    (Copy.keep copy kept { state with dst := state.dst ++ word, first := false }).Wrote copy
      (out ++ word) := by
  have haligned : (out ++ word).length % 8 = 0 := by
    rw [List.length_append, hword, Nat.add_mod_right, h.aligned]
  have hfirst : false = (out ++ word).isEmpty := by
    cases word with
    | nil => simp at hword
    | cons byte rest => simp
  have hkeeps := h.kept
  cases copy with
  | false =>
      rw [if_neg Bool.false_ne_true, List.append_eq_nil_iff] at hkeeps
      refine ⟨by rw [← h.dst]; rfl, haligned, hfirst, ?_, ?_, h.inBounds⟩
      · simp [Copy.keep, hkeeps]
      · simp [Copy.keep, hkeeps]
  | true =>
      rw [if_pos rfl] at hkeeps
      refine ⟨by rw [← h.dst]; rfl, haligned, hfirst, ?_, ?_, ?_⟩
      · rw [if_pos rfl, hkept, ← hkeeps, List.append_assoc]
        rfl
      · simp only [Copy.keep, if_true, List.length_append, hword]
        omega
      · simp only [Copy.keep, if_true, List.length_append, h.inBounds, Bool.true_and,
          writeBufferSize]
        exact decide_eq_true (by omega)

theorem Copy.Wrote.flushed (h : state.Wrote copy out) :
    (if wbAligned state.dst then state.copyFlush copy else state).Wrote copy out ∧
      (if wbAligned state.dst then state.copyFlush copy else state).copyLocal.length ≤
        out.length % 64 := by
  have hkept := h.kept
  have hroom := h.room
  rw [h.dst]
  split
  · refine ⟨h.copyFlush, ?_⟩
    cases copy with
    | false =>
        rw [if_neg Bool.false_ne_true, List.append_eq_nil_iff] at hkept
        simp [Copy.copyFlush, hkept]
    | true => simp [Copy.copyFlush]
  · rename_i hwithin
    simp only [wbAligned, writeBufferSize, beq_iff_eq] at hwithin
    exact ⟨h, by omega⟩

theorem Copy.Wrote.emitWord (h : state.Wrote copy out) (hne : out ≠ []) {word : List UInt8}
    (hword : word.length = 8) : (state.emitWord copy word).Wrote copy (out ++ word) := by
  obtain ⟨hflushed, hlocal⟩ := h.flushed
  have haligned := h.aligned
  have hlength : 0 < out.length := List.length_pos_iff.mpr hne
  rw [Copy.emitWord]
  generalize (if wbAligned state.dst then state.copyFlush copy else state) = flushed at *
  have hfirst : flushed.first = false := by simp [hflushed.first, hne]
  have hnext := hflushed.keep hword (List.drop_append_of_le_length (by omega)) (by omega)
  rwa [← hfirst] at hnext

theorem Copy.Wrote.emitInHand (h : state.Wrote copy out) :
    (state.emitInHand copy).Wrote copy (out ++ load state.inHand 0 8) := by
  have hfirst := h.first
  rw [Copy.emitInHand]
  split
  · rename_i hstart
    rw [hstart, eq_comm, List.isEmpty_iff] at hfirst
    subst hfirst
    have hlocal : state.copyLocal = [] := by
      have hkept := h.kept
      simp only [List.drop_nil, ite_self, List.append_eq_nil_iff] at hkept
      exact hkept.2
    have hkept : ([] ++ load state.inHand 0 8).drop 4 = [].drop 4 ++ load state.inHand 4 4 := rfl
    have hnext := h.keep (length_load state.inHand 0 8) hkept (by simp [hlocal])
    cases copy with
    | false => exact hnext
    | true => exact hnext
  · rename_i hlater
    apply h.emitWord _ (length_load _ _ _)
    rintro rfl
    exact hlater hfirst

/-! What has been taken from the vectors. -/

structure Copy.Took (copy : Bool) (state : Copy) (bytes : List UInt8) : Prop where
  wrote : ∃ out, state.Wrote copy out ∧ bytes = out ++ load state.inHand 0 state.inHandLen
  inHandLen : state.inHandLen < 8
  control : state.first → 4 ≤ state.inHandLen

theorem Copy.Wrote.qwords (h : state.Wrote copy out) (hne : out ≠ []) (src : List UInt8) :
    (state.qwords copy src).Took copy (out ++ src) := by
  induction state, src using Copy.qwords.induct copy generalizing out with
  | case1 state b0 b1 b2 b3 b4 b5 b6 b7 rest ih =>
      rw [Copy.qwords]
      have hnext := ih (h.emitWord hne (show [b0, b1, b2, b3, b4, b5, b6, b7].length = 8 from rfl))
        (by simp)
      rwa [List.append_assoc] at hnext
  | case2 state rest hlong =>
      have hshort : rest.length < 8 := by
        match rest with
        | [] | [_] | [_, _] | [_, _, _] | [_, _, _, _] | [_, _, _, _, _] | [_, _, _, _, _, _]
        | [_, _, _, _, _, _, _] => simp
        | b0 :: b1 :: b2 :: b3 :: b4 :: b5 :: b6 :: b7 :: rest =>
            exact (hlong b0 b1 b2 b3 b4 b5 b6 b7 rest rfl).elim
      rw [Copy.qwords]
      · refine ⟨⟨out, h.hold _ _, ?_⟩, hshort, ?_⟩
        · rw [load_store_self]
        · intro hfirst
          rw [h.first] at hfirst
          simp [hne] at hfirst
      · exact hlong

theorem load_merge (memory : Nat → UInt8) (length : Nat) (bytes : List UInt8) :
    load (store memory length bytes) 0 (length + bytes.length) =
      load memory 0 length ++ bytes := by
  rw [load_append, Nat.zero_add, load_store_self, load_store_beside _ (.inl (by omega))]

theorem Copy.Took.iov {bytes : List UInt8} (h : state.Took copy bytes) (src : List UInt8) :
    (state.iov copy src).Took copy (bytes ++ src) := by
  obtain ⟨out, hwrote, rfl⟩ := h.wrote
  have hlt := h.inHandLen
  rw [Copy.iov]
  split
  · rename_i hempty
    have hne : out ≠ [] := by
      rintro rfl
      have hcontrol := h.control hwrote.first
      omega
    rw [hempty]
    simpa [load] using hwrote.qwords hne src
  · rename_i hfull
    have hmerged := load_merge state.inHand state.inHandLen
      (src.take (min (8 - state.inHandLen) src.length))
    have hlength : (src.take (min (8 - state.inHandLen) src.length)).length =
        min (8 - state.inHandLen) src.length := by simp
    rw [hlength] at hmerged
    dsimp only
    split
    · rename_i hshort
      refine ⟨⟨out, hwrote.hold _ _, ?_⟩, hshort, fun hfirst => ?_⟩
      · have hall : min (8 - state.inHandLen) src.length = src.length := by omega
        rw [hmerged, hall, List.take_length, List.append_assoc]
      · exact Nat.le_trans (h.control hfirst) (Nat.le_add_right _ _)
    · rename_i hwhole
      have hfill : state.inHandLen + min (8 - state.inHandLen) src.length = 8 := by omega
      have hword := (hwrote.hold (store state.inHand state.inHandLen
        (src.take (min (8 - state.inHandLen) src.length)))
          (state.inHandLen + min (8 - state.inHandLen) src.length)).emitInHand
      rw [hfill] at hmerged
      rw [hmerged] at hword
      have hrest := hword.qwords
        (List.ne_nil_of_length_pos
          (by rw [List.length_append, List.length_append, length_load]; omega))
        (src.drop (min (8 - state.inHandLen) src.length))
      rwa [List.append_assoc, List.append_assoc, List.take_append_drop,
        ← List.append_assoc] at hrest

theorem Copy.Took.run {bytes : List UInt8} (h : state.Took copy bytes)
    (iov : List (List UInt8)) :
    (iov.foldl (Copy.iov copy) state).Took copy (bytes ++ iov.flatten) := by
  induction iov generalizing state bytes with
  | nil => simpa using h
  | cons src iov ih =>
      rw [List.flatten_cons, ← List.append_assoc]
      exact ih (h.iov src)

theorem Copy.Took.finish {bytes : List UInt8} (h : state.Took copy bytes) :
    ∃ rest : List UInt8, rest.length < 8 ∧
      (if state.inHandLen ≠ 0 then state.emitInHand copy else state).Wrote copy
        (bytes ++ rest) := by
  obtain ⟨out, hwrote, rfl⟩ := h.wrote
  have hlt := h.inHandLen
  split
  · rename_i hhand
    refine ⟨load state.inHand state.inHandLen (8 - state.inHandLen), ?_, ?_⟩
    · rw [length_load]
      omega
    · have hword := hwrote.emitInHand
      have hsplit := load_append state.inHand 0 state.inHandLen (8 - state.inHandLen)
      rw [Nat.add_sub_cancel' (by omega), Nat.zero_add] at hsplit
      rwa [hsplit, ← List.append_assoc] at hword
  · rename_i hempty
    rw [not_not] at hempty
    refine ⟨[], by decide, ?_⟩
    rw [hempty]
    simpa [load] using hwrote

theorem padToWriteBuffer_eq (left : Nat) {dst : List UInt8} (haligned : dst.length % 8 = 0)
    (hleft : (64 - dst.length % 64) % 64 ≤ 8 * left) :
    padToWriteBuffer left dst = dst ++ List.replicate ((64 - dst.length % 64) % 64) 0 := by
  induction left generalizing dst with
  | zero =>
      rw [padToWriteBuffer, Nat.le_zero.mp hleft, List.replicate_zero, List.append_nil]
  | succ left ih =>
      rw [padToWriteBuffer]
      split
      · rename_i hend
        simp only [wbAligned, writeBufferSize, beq_iff_eq] at hend
        simp [hend]
      · rename_i hwithin
        simp only [wbAligned, writeBufferSize, beq_iff_eq] at hwithin
        have hlength : (dst ++ List.replicate 8 (0 : UInt8)).length = dst.length + 8 := by simp
        rw [ih (by omega) (by omega), List.append_assoc, List.replicate_append_replicate, hlength]
        congr 2
        omega

end Writing

/-- The aperture gets the control word, the frame, less than a qword of what was in the hand
before, and zeros up to the end of a write buffer. A copy gets the frame and the same rest
of a qword, and `copy_local` is never overrun. -/
theorem memcpyIovToCtpio_spec (stale : Nat → UInt8) (ctpioControl : UInt32)
    (first : List UInt8) (others : List (List UInt8)) (copy : Bool) :
    ∃ rest : List UInt8, rest.length < 8 ∧ ∃ zeros < 64,
      (memcpyIovToCtpio stale ctpioControl first others copy).dst =
        toLe 4 ctpioControl.toNat ++ (first :: others).flatten ++ rest ++
          List.replicate zeros 0 ∧
      (memcpyIovToCtpio stale ctpioControl first others copy).dst.length % 64 = 0 ∧
      (memcpyIovToCtpio stale ctpioControl first others copy).fallback =
        (if copy then (first :: others).flatten ++ rest else []) ∧
      (memcpyIovToCtpio stale ctpioControl first others copy).inBounds = true := by
  have hstart : Copy.Took copy
      ⟨[], store stale 0 (toLe 4 ctpioControl.toNat), 4, true, [], [], true⟩
      (toLe 4 ctpioControl.toNat) := by
    refine ⟨⟨[], ⟨rfl, rfl, rfl, by simp, by simp, rfl⟩, ?_⟩, by simp, fun _ => Nat.le_refl 4⟩
    exact (load_store_self stale 0 (toLe 4 ctpioControl.toNat)).symm
  obtain ⟨rest, hrest, hwrote⟩ := (hstart.run (first :: others)).finish
  have haligned := hwrote.aligned
  have hkept := hwrote.kept
  have hpad := padToWriteBuffer_eq 8 hwrote.aligned (by omega)
  rw [List.append_assoc _ (first :: others).flatten rest, List.drop_append_of_le_length (by simp),
    List.drop_of_length_le (by simp), List.nil_append] at hkept
  simp only [memcpyIovToCtpio, Copy.copyFlush_dst, Copy.copyFlush_fallback, Copy.copyFlush_inBounds,
    hwrote.dst, hpad]
  refine ⟨rest, hrest, _, Nat.mod_lt _ (by decide), rfl, ?_, ?_, hwrote.inBounds⟩
  · rw [List.length_append, List.length_replicate]
    omega
  · cases copy with
    | true => exact hkept
    | false => exact (List.append_eq_nil_iff.mp hkept).1

/-! What arrives. -/

section Header

variable {threshold : UInt32} {frameLen : Nat} (timestamps : Bool)

theorem headerFields_fit (hthreshold : threshold.toNat < 4096) (hlength : frameLen < 4096) :
    ∀ entry ∈ headerFields threshold timestamps frameLen, entry.1.Fits entry.2 := by
  have hcount : (threshold.toBitVec.setWidth 64).toNat < 2 ^ 12 := by
    rw [BitVec.toNat_setWidth]
    exact Nat.lt_of_le_of_lt (Nat.mod_le _ _) hthreshold
  have hflag : (if timestamps then (1 : BitVec 64) else 0).toNat < 2 ^ 1 := by
    cases timestamps <;> decide
  have hframe : (BitVec.ofNat 64 frameLen).toNat < 2 ^ 12 := by
    rw [BitVec.toNat_ofNat]
    exact Nat.lt_of_le_of_lt (Nat.mod_le _ _) hlength
  simp only [headerFields, List.forall_mem_cons, Field.Fits, userThreshold, timeStampReq,
    frameLength]
  exact ⟨⟨by decide, hcount⟩, ⟨by decide, hflag⟩, ⟨by decide, hframe⟩, by simp⟩

theorem headerFields_apart :
    (headerFields threshold timestamps frameLen).Pairwise
      fun first second => first.1.Apart second.1 := by
  simp [headerFields, Field.Apart, userThreshold, timeStampReq, frameLength]

theorem header_toNat (hthreshold : threshold.toNat < 4096) (hlength : frameLen < 4096) :
    BitVec.ofNat 64 (header threshold timestamps frameLen).toNat =
      Field.populate (headerFields threshold timestamps frameLen) := by
  apply BitVec.eq_of_getLsbD_eq
  intro i hi
  have hword : BitVec.ofNat 64 (header threshold timestamps frameLen).toNat =
      ((Field.populate (headerFields threshold timestamps frameLen)).setWidth 32).setWidth 64 := by
    apply BitVec.eq_of_toNat_eq
    simp [header]
  rw [hword, BitVec.getLsbD_setWidth, BitVec.getLsbD_setWidth]
  by_cases hlow : i < 32
  · simp [hi, hlow]
  · rw [Field.getLsbD_populate_outside (headerFields_fit timestamps hthreshold hlength)]
    · simp
    · simp only [headerFields, List.forall_mem_cons, userThreshold, timeStampReq, frameLength]
      exact ⟨.inr (by omega), .inr (by omega), .inr (by omega), by simp⟩

end Header

theorem extract_header_mod {field : Field} (hfield : field.lbn + field.width ≤ 28)
    (threshold : UInt32) (timestamps : Bool) (frameLen : Nat) :
    field.extract (BitVec.ofNat 64 (header threshold timestamps frameLen).toNat) =
      field.extract (BitVec.ofNat 64 (header (threshold % 4096) timestamps frameLen).toNat) := by
  have hbit (value : UInt32) {i : Nat} (hi : i < 28) :
      (BitVec.ofNat 64 (header value timestamps frameLen).toNat).getLsbD i =
        (Field.populate (headerFields value timestamps frameLen)).getLsbD i := by
    have hword : BitVec.ofNat 64 (header value timestamps frameLen).toNat =
        ((Field.populate (headerFields value timestamps frameLen)).setWidth 32).setWidth 64 := by
      apply BitVec.eq_of_toNat_eq
      simp [header]
    rw [hword, BitVec.getLsbD_setWidth, BitVec.getLsbD_setWidth]
    simp [show i < 64 by omega, show i < 32 by omega]
  have hvalue {i : Nat} (hi : i < 12) : (threshold % 4096).toBitVec.getLsbD i =
      threshold.toBitVec.getLsbD i := by
    rw [← BitVec.testBit_toNat, ← BitVec.testBit_toNat, UInt32.toNat_toBitVec,
      UInt32.toNat_toBitVec, UInt32.toNat_mod, show (4096 : UInt32).toNat = 2 ^ 12 from rfl,
      Nat.testBit_mod_two_pow]
    simp [hi]
  apply BitVec.eq_of_getLsbD_eq
  intro i hi
  rw [Field.getLsbD_extract _ _ _ hi, Field.getLsbD_extract _ _ _ hi]
  by_cases hwidth : i < field.width
  · rw [hbit _ (by omega), hbit _ (by omega)]
    simp only [headerFields, Field.populate, BitVec.getLsbD_or, BitVec.getLsbD_shiftLeft,
      BitVec.getLsbD_setWidth, userThreshold]
    by_cases hlow : field.lbn + i < 16
    · simp [hlow]
    · rw [hvalue (by omega)]
  · simp [hwidth]

theorem arrival_eq (threshold : UInt32) (timestamps : Bool) {frame : List UInt8}
    (hlength : frame.length < 4096) (tail : List UInt8) :
    arrival (toLe 4 (header threshold timestamps frame.length).toNat ++ frame ++ tail) =
      ⟨threshold.toNat % 4096, timestamps, frame⟩ := by
  have hsmall : (threshold % 4096).toNat < 4096 := by
    rw [UInt32.toNat_mod]
    exact Nat.mod_lt _ (by decide)
  have hfits := headerFields_fit timestamps hsmall hlength
  have hapart := @headerFields_apart (threshold % 4096) frame.length timestamps
  have hheader := header_toNat timestamps hsmall hlength
  have hcount := Field.extract_populate hfits hapart
    (show (userThreshold, (threshold % 4096).toBitVec.setWidth 64) ∈ _ by simp [headerFields])
  have hflag := Field.extract_populate hfits hapart
    (show (timeStampReq, if timestamps then 1 else 0) ∈ _ by simp [headerFields])
  have hframe := Field.extract_populate hfits hapart
    (show (frameLength, BitVec.ofNat 64 frame.length) ∈ _ by simp [headerFields])
  have hword : fromLe (toLe 4 (header threshold timestamps frame.length).toNat) =
      (header threshold timestamps frame.length).toNat := by
    rw [fromLe_toLe]
    exact Nat.mod_eq_of_lt (UInt32.toNat_lt _)
  have htake : (toLe 4 (header threshold timestamps frame.length).toNat ++ frame ++ tail).take 4 =
      toLe 4 (header threshold timestamps frame.length).toNat := by
    rw [List.append_assoc]
    exact List.take_left' (length_toLe _ _)
  have hdrop : (toLe 4 (header threshold timestamps frame.length).toNat ++ frame ++ tail).drop 4 =
      frame ++ tail := by
    rw [List.append_assoc]
    exact List.drop_left' (length_toLe _ _)
  rw [arrival, htake, hdrop, hword, @extract_header_mod userThreshold (by decide),
    @extract_header_mod timeStampReq (by decide), @extract_header_mod frameLength (by decide),
    hheader, hcount, hflag, hframe]
  congr 1
  · cases timestamps <;> rfl
  · rw [BitVec.toNat_ofNat, Nat.mod_eq_of_lt (by omega)]
    exact List.take_left

theorem arrival_transmitvCtpio (stale : Nat → UInt8) (threshold : UInt32) (timestamps : Bool)
    (first : List UInt8) (others : List (List UInt8)) (copy : Bool)
    (hlength : (first :: others).flatten.length < 4096) :
    arrival (transmitvCtpio stale threshold timestamps first others copy).dst =
      ⟨threshold.toNat % 4096, timestamps, (first :: others).flatten⟩ := by
  obtain ⟨rest, -, zeros, -, hdst, -⟩ := memcpyIovToCtpio_spec stale
    (header threshold timestamps (first :: others).flatten.length) first others copy
  rw [transmitvCtpio, hdst, List.append_assoc _ rest]
  exact arrival_eq threshold timestamps hlength _

/-- The adapter takes the frame of the scatter list from the aperture, with the low bits of the
threshold. Whole write buffers are written, and the copy for the fallback begins with the
frame. -/
theorem transmitvCtpio_arrives (stale : Nat → UInt8) (threshold : UInt32) (timestamps : Bool)
    (first : List UInt8) (others : List (List UInt8)) (copy : Bool)
    (hlength : (first :: others).flatten.length < 4096) :
    let sent := transmitvCtpio stale threshold timestamps first others copy
    arrival sent.dst = ⟨threshold.toNat % 4096, timestamps, (first :: others).flatten⟩ ∧
      sent.dst.length % 64 = 0 ∧ sent.inBounds = true ∧
      ∃ rest : List UInt8, rest.length < 8 ∧
        sent.fallback = if copy then (first :: others).flatten ++ rest else [] := by
  intro sent
  obtain ⟨rest, hrest, zeros, -, -, haligned, hfallback, hbounds⟩ := memcpyIovToCtpio_spec stale
    (header threshold timestamps (first :: others).flatten.length) first others copy
  exact ⟨arrival_transmitvCtpio stale threshold timestamps first others copy hlength, haligned,
    hbounds, rest, hrest, hfallback⟩

theorem transmitvCtpio_arrives_three_parts :
    arrival (transmitvCtpio (fun _ => 0xaa) 0xffff false [1, 2, 3] [[], [4, 5, 6, 7, 8, 9]]
        true).dst =
      ⟨4095, false, [1, 2, 3, 4, 5, 6, 7, 8, 9]⟩ :=
  (transmitvCtpio_arrives (fun _ => 0xaa) 0xffff false [1, 2, 3] [[], [4, 5, 6, 7, 8, 9]] true
    (by decide)).1

/-! The sends of the socket. -/

section Sends
open Connect Send Datagram

def ctpioThresh : UInt32 := 64

/-- `compound_send` in CTPIO mode up to the fallback: the TX buffer, and what `ctpio_send` writes
of it. -/
def compoundSend (stale : Nat → UInt8) (buf : Nat → UInt8) (payload : List UInt8) :
    (Nat → UInt8) × Copy :=
  let buf := fill true Citools.checksums buf payload
  (buf, transmitvCtpio stale ctpioThresh false (load buf 0 (payload.length + headerSize)) []
    false)

def txBufAfter (buf : Nat → UInt8) (sends : List Datagram.Call) : Nat → UInt8 :=
  sends.foldl (fun buf send => fill send.ctpio Citools.checksums buf send.payload) buf

def Fits (payload : List UInt8) : Prop := payload.length + headerSize ≤ txBufSize

instance (payload : List UInt8) : Decidable (Fits payload) :=
  inferInstanceAs (Decidable (_ ≤ _))

theorem Fits.le {payload : List UInt8} (h : Fits payload) : payload.length ≤ 65535 := by
  simp only [Fits, headerSize, txBufSize] at h
  omega

theorem txBufAfter_eq {endpoint : Endpoint} {length : Nat} {buf : Nat → UInt8}
    (h : Headers endpoint length buf) {sends : List Datagram.Call}
    (hfits : ∀ send ∈ sends, Fits send.payload) : txBufAfter buf sends = afterSends buf sends := by
  induction sends generalizing buf length with
  | nil => rfl
  | cons send sends ih =>
      rw [List.forall_mem_cons] at hfits
      have hfill := Citools.fill_checksums h send.ctpio hfits.1.le
      rw [txBufAfter, List.foldl_cons, hfill]
      exact ih (fill_headers h rfc1071 send) hfits.2

/-- After `connect` and any sends in either mode, the adapter takes a well-formed datagram
from the aperture, with the checksums that the host has computed. -/
theorem compoundSend_arrives (endpoints : Nat → Endpoint) (viMac : Vector UInt8 6) (world : World)
    (i : Nat) (answer : Except Int Nat) (stale : Nat → UInt8) {earlier : List Datagram.Call}
    (hearlier : ∀ send ∈ earlier, Fits send.payload) {payload : List UInt8}
    (hfits : Fits payload) :
    let buf := txBufAfter (world.connect endpoints viMac i answer).1.txBuf earlier
    let arrived := arrival (compoundSend stale buf payload).2.dst
    Datagram.WellFormed (endpoints i) true payload arrived.frame ∧ arrived.threshold = 64 ∧
      arrived.timestamps = false := by
  intro buf arrived
  have hconnect := writeHeaders_headers (endpoints i) viMac world.txBuf
  rw [← connect_txBuf endpoints viMac world i answer] at hconnect
  have hbuf : buf = afterSends (world.connect endpoints viMac i answer).1.txBuf earlier :=
    txBufAfter_eq hconnect hearlier
  have hheaders := afterSends_headers hconnect earlier
  rw [← hbuf] at hheaders
  have hframe : arrived = ⟨64, false, frame true buf payload⟩ := by
    have hlength : [load (fill true Citools.checksums buf payload) 0
        (payload.length + headerSize)].flatten.length < 4096 := by
      rw [List.flatten_singleton, length_load]
      exact Nat.lt_of_le_of_lt hfits (by decide)
    have hread := arrival_transmitvCtpio stale ctpioThresh false _ _ false hlength
    rw [List.flatten_singleton, Citools.fill_checksums hheaders true hfits.le] at hread
    simp only [arrived, compoundSend, Citools.fill_checksums hheaders true hfits.le]
    exact hread
  rw [hframe]
  exact ⟨(frame_wellFormed hheaders true hfits).mpr (.inl rfl), rfl, rfl⟩

theorem compoundSend_arrives_greeting :
    Datagram.WellFormed (twins 0) true [104, 105] (arrival (compoundSend (fun _ => 0)
      (txBufAfter ((World.start fun _ => 0).connect twins (Vector.replicate 6 0) 0 (.ok 1)).1.txBuf
        [⟨true, [1, 2, 3]⟩, ⟨false, [4]⟩]) [104, 105]).2.dst).frame :=
  (compoundSend_arrives twins (Vector.replicate 6 0) (World.start fun _ => 0) 0 (.ok 1)
    (fun _ => 0) (by decide) (by decide)).1

end Sends

end VirtualSfc.Efvi.Ctpio
