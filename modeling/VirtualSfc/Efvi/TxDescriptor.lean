import Mathlib.Tactic.IntervalCases
import VirtualSfc.Base.BitField
import VirtualSfc.Efvi.Rxq

/-! The descriptors that `ef10_ef_vi_transmitv_init` makes of a packet. A buffer
address carries the order of its buffer-table page above bit 48, and no descriptor
may cross a page of 4096 bytes, so that one I/O vector can take many descriptors. -/
namespace VirtualSfc.Efvi
open Base

structure Iovec where
  base : UInt64
  len : UInt32
deriving DecidableEq, Repr

/-- What one descriptor asks the adapter to read, and whether the packet goes on. -/
structure Piece where
  addr : UInt64
  len : UInt32
  more : Bool
deriving DecidableEq, Repr

namespace TxDesc

-- `ESF_DZ_TX_USR_*`
def usrBufIdOffset : Field := ⟨0, 44⟩
def usrBufPageSize : Field := ⟨44, 4⟩
def usrByteCnt : Field := ⟨48, 14⟩
def usrCont : Field := ⟨62, 1⟩

-- `ESF_DZ_TX_KER_*`
def kerBufAddr : Field := ⟨0, 48⟩
def kerByteCnt : Field := ⟨48, 14⟩
def kerCont : Field := ⟨62, 1⟩

def flag (value : Bool) : BitVec 64 := if value then 1 else 0

def bufVaddr2IdOffset (vaddr : UInt64) : BitVec 64 := vaddr.toBitVec &&& 0xffffffffffff#64

def bufVaddr2Order (vaddr : UInt64) : BitVec 64 := vaddr.toBitVec >>> 48

def usrFields (bufVaddr : UInt64) (bytes : UInt32) (frag : Bool) : List (Field × BitVec 64) := [
  (usrBufIdOffset, bufVaddr2IdOffset bufVaddr),
  (usrBufPageSize, bufVaddr2Order bufVaddr),
  (usrByteCnt, bytes.toBitVec.setWidth 64),
  (usrCont, flag frag)]

def dmaTxCalcIpBuf (bufVaddr : UInt64) (bytes : UInt32) (frag : Bool) : BitVec 64 :=
  Field.populate (usrFields bufVaddr bytes frag)

def dmaTxCalcIpPhys (srcDmaAddr : UInt64) (bytes : UInt32) (frag : Bool) : BitVec 64 :=
  Field.populate [
    (kerCont, flag frag),
    (kerByteCnt, bytes.toBitVec.setWidth 64),
    (kerBufAddr, srcDmaAddr.toBitVec)]

def read (word : BitVec 64) : Piece where
  addr := ⟨(usrBufPageSize.extract word <<< 48) ||| usrBufIdOffset.extract word⟩
  len := ⟨(usrByteCnt.extract word).setWidth 32⟩
  more := usrCont.extract word == 1

/-- The addresses of the buffer table: 44 bits of page and offset, 4 bits of order. -/
def Mapped (vaddr : UInt64) : Prop := vaddr.toNat % 2 ^ 48 < 2 ^ 44 ∧ vaddr.toNat / 2 ^ 48 < 2 ^ 4

theorem toNat_bufVaddr2IdOffset (vaddr : UInt64) :
    (bufVaddr2IdOffset vaddr).toNat = vaddr.toNat % 2 ^ 48 := by
  rw [bufVaddr2IdOffset, BitVec.toNat_and, ← Nat.and_two_pow_sub_one_eq_mod]
  rfl

theorem toNat_bufVaddr2Order (vaddr : UInt64) :
    (bufVaddr2Order vaddr).toNat = vaddr.toNat / 2 ^ 48 := by
  rw [bufVaddr2Order, BitVec.toNat_ushiftRight, Nat.shiftRight_eq_div_pow]
  rfl

theorem order_or_idOffset (vaddr : UInt64) :
    (bufVaddr2Order vaddr <<< 48) ||| bufVaddr2IdOffset vaddr = vaddr.toBitVec := by
  apply BitVec.eq_of_getLsbD_eq
  intro i hi
  have hmask : (0xffffffffffff#64).getLsbD i = decide (i < 48) := by
    interval_cases i <;> rfl
  rw [bufVaddr2Order, bufVaddr2IdOffset, BitVec.getLsbD_or, BitVec.getLsbD_shiftLeft,
    BitVec.getLsbD_ushiftRight, BitVec.getLsbD_and, hmask]
  by_cases hlow : i < 48
  · simp [hlow]
  · simp [hlow, hi, show 48 + (i - 48) = i by omega]

theorem usrFields_fit {vaddr : UInt64} {bytes : UInt32} (hmapped : Mapped vaddr)
    (hbytes : bytes.toNat < 2 ^ 14) (frag : Bool) :
    ∀ entry ∈ usrFields vaddr bytes frag, entry.1.Fits entry.2 := by
  have hlen : (bytes.toBitVec.setWidth 64).toNat < 2 ^ 14 := by
    rw [BitVec.toNat_setWidth]
    exact Nat.lt_of_le_of_lt (Nat.mod_le _ _) hbytes
  have hflag : (flag frag).toNat < 2 ^ 1 := by cases frag <;> decide
  simp only [usrFields, List.forall_mem_cons, Field.Fits, toNat_bufVaddr2IdOffset,
    toNat_bufVaddr2Order, usrBufIdOffset, usrBufPageSize, usrByteCnt, usrCont]
  exact ⟨⟨by decide, hmapped.1⟩, ⟨by decide, hmapped.2⟩, ⟨by decide, hlen⟩, ⟨by decide, hflag⟩,
    by simp⟩

theorem usrFields_apart (vaddr : UInt64) (bytes : UInt32) (frag : Bool) :
    (usrFields vaddr bytes frag).Pairwise fun first second => first.1.Apart second.1 := by
  simp [usrFields, Field.Apart, usrBufIdOffset, usrBufPageSize, usrByteCnt, usrCont]

theorem read_dmaTxCalcIpBuf {vaddr : UInt64} {bytes : UInt32} (hmapped : Mapped vaddr)
    (hbytes : bytes.toNat < 2 ^ 14) (frag : Bool) :
    read (dmaTxCalcIpBuf vaddr bytes frag) = ⟨vaddr, bytes, frag⟩ := by
  have hfits := usrFields_fit hmapped hbytes frag
  have hapart := usrFields_apart vaddr bytes frag
  have horder : usrBufPageSize.extract (dmaTxCalcIpBuf vaddr bytes frag) = bufVaddr2Order vaddr :=
    Field.extract_populate hfits hapart (by simp [usrFields])
  have hoffset :
      usrBufIdOffset.extract (dmaTxCalcIpBuf vaddr bytes frag) = bufVaddr2IdOffset vaddr :=
    Field.extract_populate hfits hapart (by simp [usrFields])
  have hlen :
      usrByteCnt.extract (dmaTxCalcIpBuf vaddr bytes frag) = bytes.toBitVec.setWidth 64 :=
    Field.extract_populate hfits hapart (by simp [usrFields])
  have hmore : usrCont.extract (dmaTxCalcIpBuf vaddr bytes frag) = flag frag :=
    Field.extract_populate hfits hapart (by simp [usrFields])
  rw [read, horder, hoffset, hlen, hmore, order_or_idOffset]
  congr 1
  · apply UInt32.toNat_inj.mp
    simp
  · cases frag <;> rfl

end TxDesc

open TxDesc

def dmaLen (dmaAddr : UInt64) (len : UInt32) : UInt32 :=
  let room := ((~~~dmaAddr &&& 0xfff) + 1).toUInt32
  if room > len then len else room

theorem toNat_dmaLen (dmaAddr : UInt64) (len : UInt32) :
    (dmaLen dmaAddr len).toNat = min len.toNat (4096 - dmaAddr.toNat % 4096) := by
  have hnot : (~~~dmaAddr &&& 0xfff).toNat = 4095 - dmaAddr.toNat % 4096 := by
    have hlt := dmaAddr.toNat_lt
    have hmask : (0xfff : UInt64).toNat = 2 ^ 12 - 1 := rfl
    rw [UInt64.toNat_and, UInt64.toNat_not, hmask, Nat.and_two_pow_sub_one_eq_mod]
    have hsize : UInt64.size = 2 ^ 64 := rfl
    omega
  have hroom : ((~~~dmaAddr &&& 0xfff) + 1).toUInt32.toNat = 4096 - dmaAddr.toNat % 4096 := by
    have hmod := Nat.mod_lt dmaAddr.toNat (by decide : 0 < 4096)
    rw [UInt64.toNat_toUInt32, UInt64.toNat_add, hnot, UInt64.toNat_one]
    omega
  simp only [dmaLen]
  split
  · rename_i hgreater
    rw [gt_iff_lt, UInt32.lt_iff_toNat_lt, hroom] at hgreater
    omega
  · rename_i hgreater
    rw [gt_iff_lt, UInt32.lt_iff_toNat_lt, hroom] at hgreater
    rw [hroom]
    omega

theorem toNat_sub_dmaLen (dmaAddr : UInt64) (len : UInt32) :
    (len - dmaLen dmaAddr len).toNat = len.toNat - (4096 - dmaAddr.toNat % 4096) := by
  have hdma := toNat_dmaLen dmaAddr len
  rw [UInt32.toNat_sub_of_le _ _ (UInt32.le_iff_toNat_le.mpr (by omega)), hdma]
  omega

/-- The descriptors for one I/O vector through the buffer table; `last` says that no
other vector follows. -/
def pieces (last : Bool) (dmaAddr : UInt64) (len : UInt32) : List Piece :=
  let dma := dmaLen dmaAddr len
  let first : Piece := ⟨dmaAddr, dma, !(last && dma == len)⟩
  if len - dma > 0 then first :: pieces last (dmaAddr + dma.toUInt64) (len - dma) else [first]
termination_by len.toNat
decreasing_by
  rename_i hmore
  have hrest := toNat_sub_dmaLen dmaAddr len
  have hmod := Nat.mod_lt dmaAddr.toNat (by decide : 0 < 4096)
  rw [gt_iff_lt, UInt32.lt_iff_toNat_lt, UInt32.toNat_zero, hrest] at hmore
  rw [hrest]
  omega

def txWords (physAddr : Bool) : List Iovec → List (BitVec 64)
  | [] => []
  | iov :: rest =>
      (if physAddr then [dmaTxCalcIpPhys iov.base iov.len (!rest.isEmpty)]
      else (pieces rest.isEmpty iov.base iov.len).map fun piece =>
        dmaTxCalcIpBuf piece.addr piece.len piece.more) ++ txWords physAddr rest

def addresses (base : UInt64) (len : UInt32) : List UInt64 :=
  (List.range len.toNat).map fun i => base + UInt64.ofNat i

def Iovec.addresses (iov : Iovec) : List UInt64 := Efvi.addresses iov.base iov.len

def Piece.addresses (piece : Piece) : List UInt64 := Efvi.addresses piece.addr piece.len

def Iovec.Mapped (iov : Iovec) : Prop :=
  iov.base.toNat % 2 ^ 48 + iov.len.toNat ≤ 2 ^ 44 ∧ iov.base.toNat / 2 ^ 48 < 2 ^ 4 ∧
    iov.base.toNat % 2 ^ 48 < 2 ^ 44

def Piece.InPage (piece : Piece) : Prop := piece.addr.toNat % 4096 + piece.len.toNat ≤ 4096

def Chained (pieces : List Piece) : Prop :=
  ∃ first last, pieces = first ++ [last] ∧ (∀ piece ∈ first, piece.more = true) ∧
    last.more = false

theorem addresses_append {base : UInt64} {len dma : UInt32} (hdma : dma.toNat ≤ len.toNat) :
    addresses base dma ++ addresses (base + dma.toUInt64) (len - dma) = addresses base len := by
  have hsub : (len - dma).toNat = len.toNat - dma.toNat :=
    UInt32.toNat_sub_of_le _ _ (UInt32.le_iff_toNat_le.mpr hdma)
  have hlen : len.toNat = dma.toNat + (len.toNat - dma.toNat) := by omega
  rw [addresses, addresses, addresses, hsub]
  conv => rhs; rw [hlen, List.range_add, List.map_append, List.map_map]
  congr 1
  apply List.map_congr_left
  intro i _
  rw [Function.comp_apply, UInt64.ofNat_add, UInt64.add_assoc]
  congr 2
  apply UInt64.toNat_inj.mp
  simp

theorem dmaLen_eq_of_not_more {dmaAddr : UInt64} {len : UInt32}
    (h : ¬ len - dmaLen dmaAddr len > 0) : dmaLen dmaAddr len = len := by
  have hrest := toNat_sub_dmaLen dmaAddr len
  have hdma := toNat_dmaLen dmaAddr len
  rw [gt_iff_lt, UInt32.lt_iff_toNat_lt, UInt32.toNat_zero, hrest] at h
  apply UInt32.toNat_inj.mp
  omega

theorem pieces_addresses (last : Bool) (base : UInt64) (len : UInt32) :
    (pieces last base len).flatMap Piece.addresses = addresses base len := by
  fun_induction pieces last base len with
  | case1 base len dma first hmore ih =>
      have hdma := toNat_dmaLen base len
      have hle : (dmaLen base len).toNat ≤ len.toNat := by omega
      rw [List.flatMap_cons, ih]
      exact addresses_append hle
  | case2 base len dma first hmore =>
      simp only [List.flatMap_cons, List.flatMap_nil, List.append_nil]
      change addresses base (dmaLen base len) = addresses base len
      rw [dmaLen_eq_of_not_more hmore]

theorem pieces_inPage (last : Bool) (base : UInt64) (len : UInt32) :
    ∀ piece ∈ pieces last base len, piece.InPage := by
  have hfirst (base : UInt64) (len : UInt32) (more : Bool) :
      Piece.InPage ⟨base, dmaLen base len, more⟩ := by
    have hdma := toNat_dmaLen base len
    have hmod := Nat.mod_lt base.toNat (by decide : 0 < 4096)
    change base.toNat % 4096 + (dmaLen base len).toNat ≤ 4096
    omega
  fun_induction pieces last base len with
  | case1 base len dma first hmore ih =>
      rw [List.forall_mem_cons]
      exact ⟨hfirst base len _, ih⟩
  | case2 base len dma first hmore =>
      rw [List.forall_mem_singleton]
      exact hfirst base len _

theorem pieces_chained (last : Bool) (base : UInt64) (len : UInt32) :
    ∃ first final, pieces last base len = first ++ [final] ∧
      (∀ piece ∈ first, piece.more = true) ∧ final.more = !last := by
  fun_induction pieces last base len with
  | case1 base len dma first hmore ih =>
      obtain ⟨rest, final, hpieces, hrest, hfinal⟩ := ih
      refine ⟨first :: rest, final, by rw [hpieces, List.cons_append], ?_, hfinal⟩
      rw [List.forall_mem_cons]
      have hne : (dma == len) = false := by
        apply beq_eq_false_iff_ne.mpr
        intro hsame
        rw [hsame] at hmore
        simp at hmore
      exact ⟨by simp [first, hne], hrest⟩
  | case2 base len dma first hmore =>
      refine ⟨[], first, rfl, by simp, ?_⟩
      simp [first, dma, dmaLen_eq_of_not_more hmore]

theorem txWords_ne_nil (physAddr : Bool) {iovs : List Iovec} (hne : iovs ≠ []) :
    txWords physAddr iovs ≠ [] := by
  cases iovs with
  | nil => contradiction
  | cons iov rest =>
      obtain ⟨first, final, hpieces, -⟩ := pieces_chained rest.isEmpty iov.base iov.len
      cases physAddr with
      | true => simp [txWords]
      | false => simp [txWords, hpieces]

theorem length_txWords_singleton (physAddr : Bool) {iov : Iovec}
    (h : iov.base.toNat % 4096 + iov.len.toNat ≤ 4096) :
    (txWords physAddr [iov]).length = 1 := by
  have hrest := toNat_sub_dmaLen iov.base iov.len
  have hlast : ¬ iov.len - dmaLen iov.base iov.len > 0 := by
    rw [gt_iff_lt, UInt32.lt_iff_toNat_lt, UInt32.toNat_zero, hrest]
    omega
  cases physAddr with
  | true => rfl
  | false =>
      rw [txWords, txWords, pieces]
      simp [hlast]

theorem pieces_mapped (last : Bool) {base : UInt64} {len : UInt32}
    (h : Iovec.Mapped ⟨base, len⟩) : ∀ piece ∈ pieces last base len, Mapped piece.addr := by
  fun_induction pieces last base len with
  | case1 base len dma first hmore ih =>
      rw [List.forall_mem_cons]
      refine ⟨⟨h.2.2, h.2.1⟩, ih ?_⟩
      have hdma := toNat_dmaLen base len
      have hrest := toNat_sub_dmaLen base len
      have hlt := base.toNat_lt
      rw [gt_iff_lt, UInt32.lt_iff_toNat_lt, UInt32.toNat_zero, hrest] at hmore
      simp only [Iovec.Mapped, UInt64.toNat_add, UInt32.toNat_toUInt64] at h ⊢
      simp only [dma, hdma, hrest]
      omega
  | case2 base len dma first hmore =>
      rw [List.forall_mem_singleton]
      exact ⟨h.2.2, h.2.1⟩

theorem map_read_pieces (last : Bool) {iov : Iovec} (h : iov.Mapped) :
    ((pieces last iov.base iov.len).map fun piece =>
      dmaTxCalcIpBuf piece.addr piece.len piece.more).map read =
        pieces last iov.base iov.len := by
  rw [List.map_map]
  conv => rhs; rw [← List.map_id (pieces last iov.base iov.len)]
  apply List.map_congr_left
  intro piece hpiece
  have hpage : piece.addr.toNat % 4096 + piece.len.toNat ≤ 4096 :=
    pieces_inPage last _ _ piece hpiece
  exact read_dmaTxCalcIpBuf (pieces_mapped last h piece hpiece) (by omega) piece.more

def packetOf : List Iovec → List Piece
  | [] => []
  | iov :: rest => pieces rest.isEmpty iov.base iov.len ++ packetOf rest

theorem map_read_txWords {iovs : List Iovec} (h : ∀ iov ∈ iovs, iov.Mapped) :
    (txWords false iovs).map read = packetOf iovs := by
  induction iovs with
  | nil => rfl
  | cons iov rest ih =>
      rw [List.forall_mem_cons] at h
      rw [txWords, if_neg Bool.false_ne_true, List.map_append, map_read_pieces _ h.1, ih h.2,
        packetOf]

theorem packetOf_addresses (iovs : List Iovec) :
    (packetOf iovs).flatMap Piece.addresses = iovs.flatMap Iovec.addresses := by
  induction iovs with
  | nil => rfl
  | cons iov rest ih =>
      rw [packetOf, List.flatMap_append, pieces_addresses, ih, List.flatMap_cons]
      rfl

theorem packetOf_inPage (iovs : List Iovec) : ∀ piece ∈ packetOf iovs, piece.InPage := by
  induction iovs with
  | nil => simp [packetOf]
  | cons iov rest ih =>
      intro piece hpiece
      cases List.mem_append.mp hpiece with
      | inl hfirst => exact pieces_inPage _ _ _ piece hfirst
      | inr hrest => exact ih piece hrest

theorem packetOf_chained {iovs : List Iovec} (hne : iovs ≠ []) : Chained (packetOf iovs) := by
  induction iovs with
  | nil => contradiction
  | cons iov rest ih =>
      obtain ⟨first, final, hpieces, hfirst, hfinal⟩ :=
        pieces_chained rest.isEmpty iov.base iov.len
      rw [packetOf, hpieces]
      cases rest with
      | nil => exact ⟨first, final, by rw [packetOf, List.append_nil], hfirst, hfinal⟩
      | cons next others =>
          obtain ⟨before, last, hrest, hbefore, hlast⟩ := ih (by simp)
          refine ⟨first ++ [final] ++ before, last, by rw [hrest, ← List.append_assoc], ?_, hlast⟩
          simp only [List.forall_mem_append, List.forall_mem_singleton]
          exact ⟨⟨hfirst, hfinal⟩, hbefore⟩

/-- The adapter reads, from the descriptors of a packet, exactly the bytes of the I/O
vectors in their order. No descriptor crosses a page, and only the last one ends the
packet. -/
theorem txWords_packet {iovs : List Iovec} (hne : iovs ≠ [])
    (hmapped : ∀ iov ∈ iovs, iov.Mapped) :
    ((txWords false iovs).map read).flatMap Piece.addresses = iovs.flatMap Iovec.addresses ∧
      (∀ word ∈ txWords false iovs, (read word).InPage) ∧
      Chained ((txWords false iovs).map read) := by
  have hread := map_read_txWords hmapped
  refine ⟨?_, ?_, ?_⟩
  · rw [hread, packetOf_addresses]
  · intro word hword
    apply packetOf_inPage iovs
    rw [← hread]
    exact List.mem_map_of_mem hword
  · rw [hread]
    exact packetOf_chained hne

theorem txWords_packet_two_pages :
    Chained ((txWords false [⟨0x2ff0, 0x20⟩, ⟨0x1000000005000, 0x10⟩]).map read) :=
  (txWords_packet (by simp) (by
    rw [List.forall_mem_cons, List.forall_mem_singleton]
    exact ⟨⟨by decide, by decide, by decide⟩, ⟨by decide, by decide, by decide⟩⟩)).2.2

end VirtualSfc.Efvi
