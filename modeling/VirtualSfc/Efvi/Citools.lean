import Mathlib
import VirtualSfc.Base.Checksum
import VirtualSfc.Base.Endian
import VirtualSfc.Base.Memory
import VirtualSfc.Efvi.Datagram

/-! The checksums as the library computes them: loads in the host's byte order, a
wide accumulator that is folded at the end, and a scatter list whose parts may be of
odd length. What is stored in the packet is the checksum of RFC 1071. -/
namespace VirtualSfc.Efvi.Citools
open Base.Memory Base.Endian Base.Checksum Connect Send Datagram

/-- The assertion of the source: an even number of bytes. -/
def ipCsum64Partial (csum64 : UInt64) : List UInt8 → UInt64
  | b0 :: b1 :: b2 :: b3 :: rest =>
      ipCsum64Partial (csum64 + UInt64.ofNat (fromLe [b0, b1, b2, b3])) rest
  | [] => csum64
  | bytes => csum64 + UInt64.ofNat (fromLe (bytes.take 2))

/-- `csum64`, and `carried.u8[0]` if `carry` is set. -/
structure Carry where
  csum64 : UInt64
  carried : Option UInt8
deriving DecidableEq, Repr

def Carry.iov (state : Carry) : List UInt8 → Carry
  | [] => state
  | first :: rest =>
      let (csum64, data) := match state.carried with
        | some low => (state.csum64 + UInt64.ofNat (fromLe [low, first]), rest)
        | none => (state.csum64, first :: rest)
      ⟨ipCsum64Partial csum64 (data.take (data.length - data.length % 2)),
        if data.length % 2 = 0 then none else data.getLast?⟩

def ipCsum64Partialv (csum64 : UInt64) (iov : List (List UInt8)) : UInt64 :=
  let state := iov.foldl Carry.iov ⟨csum64, none⟩
  match state.carried with
  | some low => state.csum64 + low.toUInt64
  | none => state.csum64

def ciIpHdrCsumFinish (sum : UInt32) : UInt32 :=
  let sum := (sum >>> 16) + (sum &&& 0xffff)
  let sum := sum + (sum >>> 16)
  ~~~sum &&& 0xffff

def ipProtoCsum64Finish (csum64 : UInt64) : UInt32 :=
  let low16 (word : UInt64) : UInt64 := word &&& 0xffff
  let sum := (low16 (csum64 >>> 32) + low16 (csum64 >>> 16) + low16 csum64).toUInt32
  let sum := (sum >>> 16) + (sum &&& 0xffff)
  let sum := sum + (sum >>> 16)
  ~~~sum &&& 0xffff

def half (buf : Nat → UInt8) (ip index : Nat) : UInt32 :=
  UInt32.ofNat (fromLe (load buf (ip + 2 * index) 2))

def csumOptions (buf : Nat → UInt8) (ip : Nat) : Nat → Nat → UInt32 → UInt32
  | 0, _, csum => csum
  | left + 1, index, csum => csumOptions buf ip left (index + 1) (csum + half buf ip index)

def ihl (buf : Nat → UInt8) (ip : Nat) : Nat := (buf ip).toNat % 16 * 4

/-- The fixed part of the header, without `ip_check_be16`. -/
def csumFixed (buf : Nat → UInt8) (ip : Nat) : UInt32 :=
  half buf ip 0 + half buf ip 1 + half buf ip 2 + half buf ip 3 + half buf ip 4 +
    half buf ip 6 + half buf ip 7 + half buf ip 8 + half buf ip 9

def ciIpChecksum (buf : Nat → UInt8) (ip : Nat) : UInt32 :=
  let csum := csumFixed buf ip
  let bytes := ihl buf ip
  ciIpHdrCsumFinish (if 20 < bytes then csumOptions buf ip ((bytes - 20) / 2) 10 csum else csum)

structure Iovec where
  base : Nat
  len : Nat
deriving DecidableEq, Repr

def Iovec.data (buf : Nat → UInt8) (iov : Iovec) : List UInt8 := load buf iov.base iov.len

/-- The pseudo-header, where `htons(IPPROTO_UDP)` is `0x1100`, the header and the data. -/
def udpCsum64 (buf : Nat → UInt8) (ip udp : Nat) (iov : List Iovec) : UInt64 :=
  let csum64 := UInt64.ofNat (fromLe (load buf (ip + 12) 4)) +
    UInt64.ofNat (fromLe (load buf (ip + 16) 4)) + 0x1100 +
    UInt64.ofNat (fromLe (load buf (udp + 4) 2))
  let csum64 := ipCsum64Partial csum64 (load buf udp 6)
  ipCsum64Partialv csum64 (iov.map (Iovec.data buf))

def ciUdpChecksum (buf : Nat → UInt8) (ip udp : Nat) (iov : List Iovec) : UInt32 :=
  let csum := ipProtoCsum64Finish (udpCsum64 buf ip udp iov)
  if csum ≠ 0 then csum else 0xffff

def toLe16 (csum : UInt32) : Vector UInt8 2 := ⟨(toLe 2 csum.toNat).toArray, rfl⟩

/-- The two fields that `checksum_udp_pkt` sets, one iovec for the payload. -/
def checksums : Checksums where
  ip buf := toLe16 (ciIpChecksum buf 14)
  udp buf length := toLe16 (ciUdpChecksum buf 14 34 [⟨headerSize, length⟩])

/-! The folding at the end. -/

theorem and_ffff (value : Nat) : value &&& 65535 = value % 65536 :=
  Nat.and_two_pow_sub_one_eq_mod value 16

theorem ciIpHdrCsumFinish_toNat (sum : UInt32) :
    (ciIpHdrCsumFinish sum).toNat = 65535 - reduce sum.toNat := by
  have hsum := sum.toNat_lt
  have hfold := @fold_twice (sum.toNat % 65536) (sum.toNat / 65536) (by omega) (by omega)
  rw [Nat.mod_add_div] at hfold
  rw [← hfold]
  simp only [ciIpHdrCsumFinish, UInt32.toNat_and, UInt32.toNat_not, UInt32.toNat_add,
    UInt32.toNat_shiftRight, UInt32.toNat_ofNat, Nat.shiftRight_eq_div_pow, Nat.reduceMod,
    Nat.reducePow, and_ffff, UInt32.size]
  generalize hlow : sum.toNat % 65536 = low
  generalize hhigh : sum.toNat / 65536 = high
  have hinner : (high + low) % 4294967296 = low + high := by omega
  have hlt : low + high + (low + high) / 65536 < 4294967296 := by omega
  rw [hinner, Nat.mod_eq_of_lt hlt]
  generalize low + high + (low + high) / 65536 = total at hlt ⊢
  omega

theorem ipProtoCsum64Finish_toNat {csum64 : UInt64} (h : csum64.toNat < 2 ^ 48) :
    (ipProtoCsum64Finish csum64).toNat = 65535 - reduce csum64.toNat := by
  obtain ⟨low, middle, high, hlow, hmiddle, hhigh, heq⟩ : ∃ low middle high,
      low < 65536 ∧ middle < 65536 ∧ high < 65536 ∧
        csum64.toNat = low + 65536 * (middle + 65536 * high) :=
    ⟨csum64.toNat % 65536, csum64.toNat / 65536 % 65536, csum64.toNat / 65536 / 65536,
      by omega, by omega, by omega, by omega⟩
  have hparts : csum64.toNat / 4294967296 % 65536 = high ∧ csum64.toNat / 65536 % 65536 = middle ∧
      csum64.toNat % 65536 = low := by omega
  rw [show ipProtoCsum64Finish csum64 = ciIpHdrCsumFinish _ from rfl, ciIpHdrCsumFinish_toNat]
  congr 1
  apply Alike.eq_reduce _ (reduce_spec _).1
  apply Alike.trans (reduce_alike _)
  simp only [UInt64.toNat_toUInt32, UInt64.toNat_and, UInt64.toNat_add, UInt64.toNat_shiftRight,
    UInt64.toNat_ofNat, Nat.shiftRight_eq_div_pow, Nat.reduceMod, Nat.reducePow, and_ffff, hparts]
  rw [show (high + middle) % 18446744073709551616 = middle + high by omega,
    show (middle + high + low) % 18446744073709551616 = low + (middle + high) by omega,
    Nat.mod_eq_of_lt (by omega), heq]
  exact ((Alike.refl low).add (fold_alike middle high)).trans (fold_alike low _)

/-! The accumulator. -/

theorem fromLe_two (low high : UInt8) : fromLe [low, high] = (leWords [low, high]).sum := by
  simp [fromLe_cons, fromLe_nil, leWords]

theorem fromLe_four (b0 b1 b2 b3 : UInt8) :
    Alike (fromLe [b0, b1, b2, b3]) (leWords [b0, b1, b2, b3]).sum := by
  simp only [fromLe_cons, fromLe_nil, leWords, List.sum_cons, List.sum_nil]
  constructor
  · omega
  · omega

/-- The accumulator after so many bytes with this sum of words. It has room for four
times the length of a datagram. -/
structure Holds (csum64 : UInt64) (total bytes : Nat) : Prop where
  alike : Alike csum64.toNat total
  bound : csum64.toNat ≤ 2 ^ 30 * bytes

theorem Holds.start : Holds 0 0 0 := ⟨Alike.refl 0, Nat.le_refl 0⟩

theorem Holds.lt {csum64 : UInt64} {total bytes : Nat} (h : Holds csum64 total bytes)
    (hroom : bytes < 2 ^ 18) : csum64.toNat < 2 ^ 48 := by
  have := h.bound
  omega

theorem Holds.add {csum64 : UInt64} {total bytes : Nat} (h : Holds csum64 total bytes)
    {value word size : Nat} (hword : Alike value word) (hvalue : value ≤ 2 ^ 30 * size)
    (hroom : bytes + size < 2 ^ 18) :
    Holds (csum64 + UInt64.ofNat value) (total + word) (bytes + size) := by
  have hbound := h.bound
  have hsum : (csum64 + UInt64.ofNat value).toNat = csum64.toNat + value := by
    rw [UInt64.toNat_add, UInt64.toNat_ofNat', Nat.mod_eq_of_lt (a := value) (by omega),
      Nat.mod_eq_of_lt (by omega)]
  constructor
  · rw [hsum]
    exact h.alike.add hword
  · rw [hsum]
    omega

theorem Holds.two {csum64 : UInt64} {total bytes : Nat} (h : Holds csum64 total bytes)
    {data : List UInt8} (hlength : data.length = 2) (hroom : bytes + 2 < 2 ^ 18) :
    Holds (csum64 + UInt64.ofNat (fromLe data)) (total + (leWords data).sum) (bytes + 2) := by
  have hlt := fromLe_lt data
  rw [hlength] at hlt
  obtain ⟨low, high, rfl⟩ := List.length_eq_two.mp hlength
  apply h.add _ (by omega) hroom
  rw [fromLe_two]
  exact Alike.refl _

theorem Holds.four {csum64 : UInt64} {total bytes : Nat} (h : Holds csum64 total bytes)
    {data : List UInt8} (hlength : data.length = 4) (hroom : bytes + 4 < 2 ^ 18) :
    Holds (csum64 + UInt64.ofNat (fromLe data)) (total + (leWords data).sum) (bytes + 4) := by
  have hlt := fromLe_lt data
  rw [hlength] at hlt
  apply h.add _ (by omega) hroom
  match data, hlength with
  | [b0, b1, b2, b3], _ => exact fromLe_four b0 b1 b2 b3

theorem Holds.words {csum64 : UInt64} {total bytes : Nat} (h : Holds csum64 total bytes)
    (data : List UInt8) (heven : data.length % 2 = 0) (hroom : bytes + data.length < 2 ^ 18) :
    Holds (ipCsum64Partial csum64 data) (total + (leWords data).sum) (bytes + data.length) := by
  induction csum64, data using ipCsum64Partial.induct generalizing total bytes with
  | case1 csum64 b0 b1 b2 b3 rest ih =>
      simp only [List.length_cons] at heven hroom
      have hnext := ih (h.four (show [b0, b1, b2, b3].length = 4 from rfl) (by omega))
        (by omega) (by omega)
      simp only [leWords, List.sum_cons, List.sum_nil, Nat.add_zero] at hnext
      simp only [ipCsum64Partial, leWords, List.sum_cons, List.length_cons]
      rwa [← Nat.add_assoc, ← Nat.add_assoc, Nat.add_assoc total,
        show bytes + (rest.length + 1 + 1 + 1 + 1) = bytes + 4 + rest.length by omega]
  | case2 csum64 => simpa [ipCsum64Partial, leWords] using h
  | case3 csum64 data hfour hempty =>
      -- an even rest of less than four bytes
      rcases data with _ | ⟨low, _ | ⟨high, _ | ⟨third, _ | ⟨fourth, rest⟩⟩⟩⟩
      · exact absurd rfl hempty
      · simp at heven
      · exact h.two rfl hroom
      · simp at heven
      · exact (hfour low high third fourth rest rfl).elim

/-! Scatter lists. -/

/-- What the state stands for after these bytes: their words are in the accumulator, but
for an odd last byte. -/
def Carry.After (state : Carry) (total before : Nat) (bytes : List UInt8) : Prop :=
  ∃ even : List UInt8, bytes = even ++ state.carried.toList ∧ even.length % 2 = 0 ∧
    Holds state.csum64 (total + (leWords even).sum) (before + even.length)

theorem take_even (data : List UInt8) :
    data.take (data.length - data.length % 2) ++
      (if data.length % 2 = 0 then none else data.getLast?).toList = data := by
  split
  · rename_i heven
    simp [heven]
  · rename_i hodd
    have hne : data ≠ [] := by
      rintro rfl
      simp at hodd
    rw [show data.length % 2 = 1 by omega, ← List.dropLast_eq_take,
      List.getLast?_eq_some_getLast hne]
    exact List.dropLast_append_getLast hne

section Scatter

variable {csum64 : UInt64} {total before : Nat} {bytes : List UInt8}

theorem Carry.After.rest (h : Carry.After ⟨csum64, none⟩ total before bytes) (data : List UInt8)
    (hroom : before + (bytes ++ data).length < 2 ^ 18) :
    Carry.After ⟨ipCsum64Partial csum64 (data.take (data.length - data.length % 2)),
      if data.length % 2 = 0 then none else data.getLast?⟩ total before (bytes ++ data) := by
  obtain ⟨even, rfl, heven, hholds⟩ := h
  simp only [Option.toList_none, List.append_nil, List.length_append] at *
  have htake : (data.take (data.length - data.length % 2)).length =
      data.length - data.length % 2 := by simp
  refine ⟨even ++ data.take (data.length - data.length % 2), ?_, ?_, ?_⟩
  · rw [List.append_assoc, take_even]
  · rw [List.length_append, htake]
    omega
  · rw [leWords_append heven, List.sum_append, List.length_append, ← Nat.add_assoc,
      ← Nat.add_assoc]
    exact hholds.words _ (by rw [htake]; omega) (by rw [htake]; omega)

theorem Carry.After.pair {low : UInt8} (h : Carry.After ⟨csum64, some low⟩ total before bytes)
    (first : UInt8) (hroom : before + (bytes ++ [first]).length < 2 ^ 18) :
    Carry.After ⟨csum64 + UInt64.ofNat (fromLe [low, first]), none⟩ total before
      (bytes ++ [first]) := by
  obtain ⟨even, rfl, heven, hholds⟩ := h
  simp only [Option.toList_some, List.length_append, List.length_singleton] at *
  refine ⟨even ++ [low, first], by simp, by simp [heven], ?_⟩
  rw [leWords_append heven, List.sum_append, List.length_append, ← Nat.add_assoc, ← Nat.add_assoc]
  exact hholds.two rfl (by omega)

theorem Carry.After.iov {state : Carry} (h : state.After total before bytes) (data : List UInt8)
    (hroom : before + (bytes ++ data).length < 2 ^ 18) :
    (state.iov data).After total before (bytes ++ data) := by
  cases data with
  | nil => simpa [Carry.iov] using h
  | cons first rest =>
      obtain ⟨csum64, carried⟩ := state
      cases carried with
      | none => exact h.rest (first :: rest) hroom
      | some low =>
          have hsplit : bytes ++ first :: rest = bytes ++ [first] ++ rest := by simp
          rw [hsplit] at hroom ⊢
          exact (h.pair first (by simp only [List.length_append] at *; omega)).rest rest hroom

theorem Carry.After.run {state : Carry} (h : state.After total before bytes)
    (iov : List (List UInt8)) (hroom : before + (bytes ++ iov.flatten).length < 2 ^ 18) :
    (iov.foldl Carry.iov state).After total before (bytes ++ iov.flatten) := by
  induction iov generalizing state bytes with
  | nil => simpa using h
  | cons data iov ih =>
      rw [List.flatten_cons, ← List.append_assoc] at hroom ⊢
      exact ih (h.iov data (by simp only [List.length_append] at *; omega)) hroom

theorem Holds.scatter (h : Holds csum64 total before) (iov : List (List UInt8))
    (hroom : before + iov.flatten.length < 2 ^ 18) :
    Holds (ipCsum64Partialv csum64 iov) (total + (leWords iov.flatten).sum)
      (before + iov.flatten.length) := by
  have hstart : Carry.After ⟨csum64, none⟩ total before [] := ⟨[], rfl, rfl, h⟩
  have hrun := hstart.run iov (by rwa [List.nil_append])
  unfold ipCsum64Partialv
  generalize iov.foldl Carry.iov ⟨csum64, none⟩ = state at hrun ⊢
  obtain ⟨csum64', carried⟩ := state
  obtain ⟨even, hbytes, heven, hholds⟩ := hrun
  rw [List.nil_append] at hbytes
  cases carried with
  | none =>
      rw [Option.toList_none, List.append_nil] at hbytes
      rwa [hbytes]
  | some low =>
      have hlow := low.toNat_lt
      have hlength : iov.flatten.length = even.length + 1 := by simp [hbytes]
      have hword : low.toUInt64 = UInt64.ofNat low.toNat := UInt64.toNat_inj.mp (by simp)
      have hbyte := hholds.add (Alike.refl low.toNat) (show low.toNat ≤ 2 ^ 30 * 1 by omega)
        (by omega)
      rw [hlength, hbytes, Option.toList_some, leWords_append heven, List.sum_append,
        ← Nat.add_assoc, ← Nat.add_assoc]
      simp only [hword]
      exact hbyte

end Scatter

/-! The fields of the packet. -/

/-- The host stores a sum of little-endian words as the sum of the words in network
order. -/
theorem toLe16_eq {csum : UInt32} {value : Nat} (hvalue : csum.toNat = value)
    (hle : value ≤ 65535) : (toLe16 csum).toList = be16 (swap value) := by
  have hlow : swap value / 256 = value % 256 := by
    unfold swap
    omega
  have hhigh : swap value % 256 = value / 256 % 256 := by
    unfold swap
    omega
  simp only [toLe16, toLe, be16, hvalue, hlow, Vector.toList_mk, List.cons.injEq, and_true,
    ← UInt8.toNat_inj, UInt8.toNat_ofNat', hhigh, Nat.mod_mod]

theorem swap_checksum (bytes : List UInt8) :
    swap (65535 - reduce (leWords bytes).sum) = checksum (words bytes) := by
  rw [swap_complement (reduce_spec _).1, swap_reduce, checksum]

def udpBytes (buf : Nat → UInt8) (ip udp : Nat) (iov : List Iovec) : List UInt8 :=
  load buf (ip + 12) 8 ++ [0, 17] ++ load buf (udp + 4) 2 ++ load buf udp 6 ++
    (iov.map (Iovec.data buf)).flatten

theorem length_data (buf : Nat → UInt8) (iov : List Iovec) :
    (iov.map (Iovec.data buf)).flatten.length = (iov.map Iovec.len).sum := by
  rw [List.length_flatten, List.map_map]
  congr 2
  funext part
  simp [Iovec.data]

theorem udpCsum64_holds (buf : Nat → UInt8) (ip udp : Nat) {iov : List Iovec}
    (hlength : (iov.map Iovec.len).sum ≤ 65535) :
    Holds (udpCsum64 buf ip udp iov) (leWords (udpBytes buf ip udp iov)).sum
      (18 + (iov.map Iovec.len).sum) := by
  have hudpProto : UInt64.ofNat (fromLe [0, 17]) = 0x1100 := rfl
  have hsaddr := Holds.start.four (length_load buf (ip + 12) 4) (by omega)
  have hdaddr := hsaddr.four (length_load buf (ip + 16) 4) (by omega)
  have hproto := hdaddr.two (show [0, 17].length = 2 from rfl) (by omega)
  have hlen := hproto.two (length_load buf (udp + 4) 2) (by omega)
  have hudp := hlen.words (load buf udp 6) (by rw [length_load]) (by rw [length_load]; omega)
  have hsum := hudp.scatter (iov.map (Iovec.data buf)) (by rw [length_load, length_data]; omega)
  have hwords : leWords (udpBytes buf ip udp iov) =
      leWords (load buf (ip + 12) 4) ++ (leWords (load buf (ip + 16) 4) ++ (leWords [0, 17] ++
        (leWords (load buf (udp + 4) 2) ++ (leWords (load buf udp 6) ++
          leWords (iov.map (Iovec.data buf)).flatten)))) := by
    rw [udpBytes, load_append buf (ip + 12) 4 4]
    simp only [List.append_assoc]
    rw [leWords_append (by simp), leWords_append (by simp), leWords_append (by simp),
      leWords_append (by simp), leWords_append (by simp)]
  rw [length_load, length_data] at hsum
  rw [hwords]
  simp only [List.sum_append, ← Nat.add_assoc]
  simp only [UInt64.zero_add, Nat.zero_add, hudpProto] at hsum
  exact hsum

theorem ciUdpChecksum_field (buf : Nat → UInt8) (ip udp : Nat) {iov : List Iovec}
    (hlength : (iov.map Iovec.len).sum ≤ 65535) :
    (toLe16 (ciUdpChecksum buf ip udp iov)).toList =
      be16 (if checksum (words (udpBytes buf ip udp iov)) = 0 then 65535
        else checksum (words (udpBytes buf ip udp iov))) := by
  have hholds := udpCsum64_holds buf ip udp hlength
  have hfinish := ipProtoCsum64Finish_toNat (hholds.lt (by omega))
  rw [hholds.alike.reduce_eq] at hfinish
  have hvalue : 65535 - reduce (leWords (udpBytes buf ip udp iov)).sum ≤ 65535 := Nat.sub_le _ _
  rw [← swap_checksum]
  generalize 65535 - reduce (leWords (udpBytes buf ip udp iov)).sum = value at hfinish hvalue ⊢
  by_cases hzero : value = 0
  · have hcsum : ipProtoCsum64Finish (udpCsum64 buf ip udp iov) = 0 := by
      rw [← UInt32.toNat_inj, hfinish, hzero]
      rfl
    rw [ciUdpChecksum, hcsum, hzero]
    rfl
  · have hcsum : ipProtoCsum64Finish (udpCsum64 buf ip udp iov) ≠ 0 := by
      rw [← UInt32.toNat_inj.ne, hfinish]
      exact hzero
    have hswap : swap value ≠ 0 := by
      unfold swap
      omega
    simp only [ciUdpChecksum, if_pos hcsum, if_neg hswap]
    exact toLe16_eq hfinish hvalue

/-! The IP header. -/

theorem half_toNat (buf : Nat → UInt8) (ip index : Nat) :
    (half buf ip index).toNat =
      (buf (ip + 2 * index)).toNat + 256 * (buf (ip + 2 * index + 1)).toNat := by
  have hload : load buf (ip + 2 * index) 2 = [buf (ip + 2 * index), buf (ip + 2 * index + 1)] := rfl
  have hlt := fromLe_lt (load buf (ip + 2 * index) 2)
  rw [length_load] at hlt
  rw [half, UInt32.toNat_ofNat', Nat.mod_eq_of_lt (by omega), hload, fromLe_two]
  rfl

theorem half_le (buf : Nat → UInt8) (ip index : Nat) : (half buf ip index).toNat ≤ 65535 := by
  have hlow := (buf (ip + 2 * index)).toNat_lt
  have hhigh := (buf (ip + 2 * index + 1)).toNat_lt
  rw [half_toNat]
  omega

theorem leWords_load (buf : Nat → UInt8) (ip index count : Nat) :
    leWords (load buf (ip + 2 * index) (2 * count)) =
      (List.range' index count).map fun index => (half buf ip index).toNat := by
  induction count generalizing index with
  | zero => rfl
  | succ count ih =>
      rw [show 2 * (count + 1) = 2 * count + 1 + 1 by omega, load_succ, load_succ,
        List.range'_succ, List.map_cons, half_toNat, ← ih (index + 1)]
      rfl

theorem csumOptions_toNat (buf : Nat → UInt8) (ip left index : Nat) {csum : UInt32}
    (hroom : csum.toNat + 65535 * left < 2 ^ 32) :
    (csumOptions buf ip left index csum).toNat =
      csum.toNat + (leWords (load buf (ip + 2 * index) (2 * left))).sum := by
  rw [leWords_load]
  induction left generalizing index csum with
  | zero => rfl
  | succ left ih =>
      have hle := half_le buf ip index
      have hadd : (csum + half buf ip index).toNat = csum.toNat + (half buf ip index).toNat := by
        rw [UInt32.toNat_add, Nat.mod_eq_of_lt (by omega)]
      rw [csumOptions, ih (index + 1) (by rw [hadd]; omega), hadd, List.range'_succ, List.map_cons,
        List.sum_cons, Nat.add_assoc]

theorem csumFixed_eq (buf : Nat → UInt8) (ip : Nat) :
    csumFixed buf ip = csumOptions buf ip 4 6 (csumOptions buf ip 5 0 0) := by
  simp only [csumFixed, csumOptions, UInt32.zero_add]

theorem csumFixed_toNat (buf : Nat → UInt8) (ip : Nat) :
    (csumFixed buf ip).toNat =
      (leWords (load buf ip 10)).sum + (leWords (load buf (ip + 12) 8)).sum := by
  have hle := sum_leWords_le (load buf ip 10)
  have hfirst : (csumOptions buf ip 5 0 0).toNat = (leWords (load buf ip 10)).sum :=
    (csumOptions_toNat buf ip 5 0 (by decide)).trans (Nat.zero_add _)
  rw [length_load] at hle
  rw [csumFixed_eq, csumOptions_toNat _ _ _ _ (by omega), hfirst]

def ipBytes (buf : Nat → UInt8) (ip : Nat) : List UInt8 :=
  load buf ip 10 ++ load buf (ip + 12) (max 20 (ihl buf ip) - 12)

theorem ciIpChecksum_field (buf : Nat → UInt8) (ip : Nat) :
    (toLe16 (ciIpChecksum buf ip)).toList = be16 (checksum (words (ipBytes buf ip))) := by
  have hfixed := csumFixed_toNat buf ip
  have hfirst := sum_leWords_le (load buf ip 10)
  have hsecond := sum_leWords_le (load buf (ip + 12) 8)
  have hihl : ihl buf ip ≤ 60 ∧ ihl buf ip % 4 = 0 := by
    unfold ihl
    omega
  rw [length_load] at hfirst hsecond
  rw [← swap_checksum]
  apply toLe16_eq _ (Nat.sub_le _ _)
  rw [ciIpChecksum, ciIpHdrCsumFinish_toNat]
  congr 2
  rw [ipBytes, leWords_append (by rw [length_load]), List.sum_append]
  split
  · rename_i hoptions
    rw [csumOptions_toNat _ _ _ _ (by omega), hfixed, Nat.max_eq_right (by omega),
      show ihl buf ip - 12 = 8 + 2 * ((ihl buf ip - 20) / 2) by omega, load_append,
      leWords_append (by rw [length_load]), List.sum_append, Nat.add_assoc]
  · rename_i hplain
    rw [hfixed, Nat.max_eq_left (by omega)]

/-! The packets of the socket. -/

theorem checksums_ip {buf : Nat → UInt8} (hversion : load buf 14 1 = [0x45]) :
    checksums.ip buf = rfc1071.ip buf := by
  have hbyte : buf 14 = 0x45 := List.head_eq_of_cons_eq hversion
  have hihl : ihl buf 14 = 20 := by
    rw [ihl, hbyte]
    rfl
  apply Vector.toList_inj.mp
  refine (ciIpChecksum_field buf 14).trans ?_
  rw [ipBytes, hihl]
  rfl

theorem checksums_udp (buf : Nat → UInt8) {length : Nat} (hlength : length ≤ 65535) :
    checksums.udp buf length = rfc1071.udp buf length := by
  apply Vector.toList_inj.mp
  refine (ciUdpChecksum_field buf 14 34 (by simpa using hlength)).trans ?_
  rw [udpBytes, List.map_singleton, List.flatten_singleton]
  rfl

/-- The library puts the same bytes into the TX buffer as the specification that the
datagrams are judged by. -/
theorem fill_checksums {endpoint : Endpoint} {length : Nat} {buf : Nat → UInt8}
    (h : Headers endpoint length buf) (ctpio : Bool) {payload : List UInt8}
    (hfits : payload.length ≤ 65535) :
    fill ctpio checksums buf payload = fill ctpio rfc1071 buf payload := by
  have hversion : load (withLengths buf payload) 14 1 = [0x45] := by
    rw [load_withLengths _ _ (by omega) (by omega), h.version]
  cases ctpio with
  | false => rfl
  | true =>
      have hip : checksums.ip (withLengths buf payload) = rfc1071.ip (withLengths buf payload) :=
        checksums_ip hversion
      rw [withLengths] at hip
      simp only [fill, if_true, fillCtpio, hip, checksums_udp _ hfits]

/-- For every header and every scatter list, the bytes that the host stores into the two
checksum fields are those of RFC 1071 over the bytes in network order. -/
theorem checksums_stored (buf : Nat → UInt8) (ip udp : Nat) {iov : List Iovec}
    (hlength : (iov.map Iovec.len).sum ≤ 65535) :
    (toLe16 (ciIpChecksum buf ip)).toList = be16 (checksum (words (ipBytes buf ip))) ∧
      (toLe16 (ciUdpChecksum buf ip udp iov)).toList =
        be16 (if checksum (words (udpBytes buf ip udp iov)) = 0 then 65535
          else checksum (words (udpBytes buf ip udp iov))) :=
  ⟨ciIpChecksum_field buf ip, ciUdpChecksum_field buf ip udp hlength⟩

theorem checksums_stored_three_parts :
    (toLe16 (ciUdpChecksum (fun address => UInt8.ofNat address) 14 34
        [⟨42, 3⟩, ⟨50, 0⟩, ⟨60, 4⟩])).toList =
      be16 (if checksum (words (udpBytes (fun address => UInt8.ofNat address) 14 34
          [⟨42, 3⟩, ⟨50, 0⟩, ⟨60, 4⟩])) = 0 then 65535
        else checksum (words (udpBytes (fun address => UInt8.ofNat address) 14 34
          [⟨42, 3⟩, ⟨50, 0⟩, ⟨60, 4⟩]))) :=
  (checksums_stored (fun address => UInt8.ofNat address) 14 34 (by decide)).2

end VirtualSfc.Efvi.Citools
