import VirtualSfc.Base.Checksum
import VirtualSfc.Efvi.Send

/-! The frames that leave the NIC. `connect` writes the headers of an empty
datagram. A send by CTPIO sets both lengths and both checksums; one by DMA copies
the payload only and leaves with the lengths that it finds in the buffer. -/
namespace VirtualSfc.Efvi.Datagram
open Base.Memory Base.Checksum Connect Send

def toField (value : Nat) : Vector UInt8 2 := ⟨(be16 value).toArray, rfl⟩

def ipWords (buf : Nat → UInt8) : List Nat :=
  words (load buf 14 10 ++ load buf 26 8)

def udpWords (buf : Nat → UInt8) (length : Nat) : List Nat :=
  words (load buf 26 8 ++ [0, 17] ++ load buf 38 2 ++ load buf 34 6 ++
    load buf headerSize length)

/-- `ci_ip_checksum` and `ci_udp_checksum`. A UDP checksum of zero is sent as all
ones. -/
def rfc1071 : Checksums where
  ip buf := toField (checksum (ipWords buf))
  udp buf length :=
    let csum := checksum (udpWords buf length)
    toField (if csum = 0 then 65535 else csum)

def frame (ctpio : Bool) (buf : Nat → UInt8) (payload : List UInt8) : List UInt8 :=
  load (fill ctpio rfc1071 buf payload) 0 (payload.length + headerSize)

/-- `BUF_SIZE` without what stands before `dma_buf`. -/
def txBufSize : Nat := 2048 - 64

structure Call where
  ctpio : Bool
  payload : List UInt8
deriving DecidableEq, Repr

def afterSends (buf : Nat → UInt8) (sends : List Call) : Nat → UInt8 :=
  sends.foldl (fun buf send => fill send.ctpio rfc1071 buf send.payload) buf

/-- The payload that the lengths in the buffer belong to: that of the last send by
CTPIO, or none. -/
def announced (sends : List Call) : Nat :=
  sends.foldl (fun length send => if send.ctpio then send.payload.length else length) 0

def field (bytes : List UInt8) (offset length : Nat) : List UInt8 :=
  (bytes.drop offset).take length

/-- The datagram of a socket, with checksums that verify if the NIC does not fill
them in. -/
structure WellFormed (endpoint : Endpoint) (ctpio : Bool) (payload bytes : List UInt8) :
    Prop where
  version : field bytes 14 1 = [0x45]
  totalLength : field bytes 16 2 = be16 (28 + payload.length)
  protocol : field bytes 23 1 = [17]
  addresses : field bytes 26 8 = endpoint.localAddr.bytes ++ endpoint.remoteAddr.bytes
  ports : field bytes 34 4 = be16 endpoint.localPort.toNat ++ be16 endpoint.remotePort.toNat
  udpLength : field bytes 38 2 = be16 (8 + payload.length)
  data : bytes.drop headerSize = payload
  ipChecksum : ctpio → sum (words (field bytes 14 20)) = 0xffff
  udpChecksum : ctpio → sum (words (field bytes 26 8 ++ [0, 17] ++
    be16 (8 + payload.length) ++ bytes.drop 34)) = 0xffff

def SameFields (left right : List UInt8) : Prop :=
  ∀ index, index ∉ [24, 25, 40, 41] → left[index]? = right[index]?

/-! Fields. -/

theorem be16_inj (left right : Nat) : be16 left = be16 right ↔ left % 65536 = right % 65536 := by
  simp only [be16, List.cons.injEq, and_true, ← UInt8.toNat_inj, UInt8.toNat_ofNat']
  omega

theorem be16_add (base : Nat) {left right : Nat} (h : left % 65536 = right % 65536) :
    be16 (base + left) = be16 (base + right) := by
  rw [be16_inj]
  omega

theorem words_be16 {value : Nat} (h : value ≤ 65535) : words (be16 value) = [value] := by
  simp only [be16, words, UInt8.toNat_ofNat', List.cons.injEq, and_true]
  omega

theorem sum_words {left right : List UInt8} (hleft : left.length % 2 = 0) {value : Nat}
    (h : value = checksum (words (left ++ right)) ∨
      (checksum (words (left ++ right)) = 0 ∧ value = 65535)) :
    sum (words (left ++ (be16 value ++ right))) = 0xffff := by
  have hvalue : value ≤ 65535 := by
    unfold checksum at h
    omega
  rw [words_append hleft] at h ⊢
  rw [words_append (by simp [be16]), words_be16 hvalue, List.singleton_append]
  exact sum_checksum (fun _ => words_le) (fun _ => words_le) h

theorem field_load (buf : Nat → UInt8) {offset length total : Nat} (h : offset + length ≤ total) :
    field (load buf 0 total) offset length = load buf offset length := by
  rw [field, drop_load, take_load, Nat.zero_add, Nat.min_eq_left (by omega)]

structure Headers (endpoint : Endpoint) (length : Nat) (buf : Nat → UInt8) : Prop where
  version : load buf 14 1 = [0x45]
  totalLength : load buf 16 2 = be16 (28 + length)
  protocol : load buf 23 1 = [17]
  addresses : load buf 26 8 = endpoint.localAddr.bytes ++ endpoint.remoteAddr.bytes
  ports : load buf 34 4 = be16 endpoint.localPort.toNat ++ be16 endpoint.remotePort.toNat
  udpLength : load buf 38 2 = be16 (8 + length)

theorem writeHeaders_headers (endpoint : Endpoint) (viMac : Vector UInt8 6)
    (buf : Nat → UInt8) : Headers endpoint 0 (endpoint.writeHeaders viMac buf) := by
  have hip : ∀ start length, start + length ≤ 20 → load (endpoint.writeHeaders viMac buf)
      (14 + start) length = (([0x45, 0] ++ be16 28 ++ [0, 0, 0, 0, 64, 17, 0, 0] ++
        endpoint.localAddr.bytes ++ endpoint.remoteAddr.bytes).drop start).take length := by
    intro start length hbound
    simp only [Endpoint.writeHeaders, initUdpPkt]
    rw [load_store_beside _ (.inl (by omega)), load_store_beside _ (.inl (by omega))]
    exact load_store_inside _ 14 start length _ (by simpa [be16, Ipv4.bytes] using hbound)
  have hudp : ∀ start length, start + length ≤ 8 → load (endpoint.writeHeaders viMac buf)
      (34 + start) length = ((be16 endpoint.localPort.toNat ++ be16 endpoint.remotePort.toNat ++
        be16 8 ++ [0, 0]).drop start).take length := by
    intro start length hbound
    simp only [Endpoint.writeHeaders, initUdpPkt]
    rw [load_store_beside _ (.inl (by omega))]
    exact load_store_inside _ 34 start length _ (by simpa [be16] using hbound)
  exact ⟨hip 0 1 (by omega), hip 2 2 (by omega), hip 9 1 (by omega), hip 12 8 (by omega),
    hudp 0 4 (by omega), hudp 4 2 (by omega)⟩

def withLengths (buf : Nat → UInt8) (payload : List UInt8) : Nat → UInt8 :=
  store (store (store buf headerSize payload) 16 (be16 (28 + payload.length))) 38
    (be16 (8 + payload.length))

theorem load_fillCtpio (checksums : Checksums) (buf : Nat → UInt8) (payload : List UInt8)
    {start length : Nat} (hip : start + length ≤ 24 ∨ 26 ≤ start)
    (hudp : start + length ≤ 40 ∨ 42 ≤ start) :
    load (fillCtpio checksums buf payload) start length =
      load (withLengths buf payload) start length := by
  simp only [fillCtpio]
  rw [load_store_beside _ (by rw [Vector.length_toList]; omega),
    load_store_beside _ (by rw [Vector.length_toList]; omega)]
  rfl

theorem load_withLengths (buf : Nat → UInt8) (payload : List UInt8) {start length : Nat}
    (htotal : start + length ≤ 16 ∨ 18 ≤ start) (hudp : start + length ≤ 38) :
    load (withLengths buf payload) start length = load buf start length := by
  rw [withLengths, load_store_beside _ (.inl hudp),
    load_store_beside _ (by simpa [be16] using htotal),
    load_store_beside _ (.inl (by simp only [headerSize]; omega))]

theorem withLengths_totalLength (buf : Nat → UInt8) (payload : List UInt8) :
    load (withLengths buf payload) 16 2 = be16 (28 + payload.length) := by
  rw [withLengths, load_store_beside _ (.inl (by decide))]
  exact load_store_self _ 16 (be16 _)

theorem withLengths_udpLength (buf : Nat → UInt8) (payload : List UInt8) :
    load (withLengths buf payload) 38 2 = be16 (8 + payload.length) :=
  load_store_self _ 38 (be16 _)

theorem load_fill (ctpio : Bool) (checksums : Checksums) (buf : Nat → UInt8)
    (payload : List UInt8) {start length : Nat} (htotal : start + length ≤ 16 ∨ 18 ≤ start)
    (hip : start + length ≤ 24 ∨ 26 ≤ start) (hudp : start + length ≤ 38) :
    load (fill ctpio checksums buf payload) start length = load buf start length := by
  unfold fill
  split
  · rw [load_fillCtpio _ _ _ hip (by omega), load_withLengths _ _ htotal hudp]
  · exact load_store_beside _ (.inl (by simp only [headerSize]; omega))

theorem fill_headers {endpoint : Endpoint} {length : Nat} {buf : Nat → UInt8}
    (h : Headers endpoint length buf) (checksums : Checksums) (send : Call) :
    Headers endpoint (if send.ctpio then send.payload.length else length)
      (fill send.ctpio checksums buf send.payload) := by
  refine ⟨?_, ?_, ?_, ?_, ?_, ?_⟩
  · rw [load_fill _ _ _ _ (by omega) (by omega) (by omega), h.version]
  · unfold fill
    split
    · rw [load_fillCtpio _ _ _ (by omega) (by omega), withLengths_totalLength]
    · rw [fillDma, load_store_beside _ (.inl (by decide)), h.totalLength]
  · rw [load_fill _ _ _ _ (by omega) (by omega) (by omega), h.protocol]
  · rw [load_fill _ _ _ _ (by omega) (by omega) (by omega), h.addresses]
  · rw [load_fill _ _ _ _ (by omega) (by omega) (by omega), h.ports]
  · unfold fill
    split
    · rw [load_fillCtpio _ _ _ (by omega) (by omega), withLengths_udpLength]
    · rw [fillDma, load_store_beside _ (.inl (by decide)), h.udpLength]

theorem afterSends_headers {endpoint : Endpoint} {buf : Nat → UInt8}
    (h : Headers endpoint 0 buf) (sends : List Call) :
    Headers endpoint (announced sends) (afterSends buf sends) := by
  induction sends using List.reverseRecOn with
  | nil => exact h
  | append_singleton sends send ih =>
      simp only [announced, afterSends, List.foldl_append, List.foldl_cons, List.foldl_nil]
      exact fill_headers ih rfc1071 send

/-! Checksums. -/

theorem fillCtpio_ip (buf : Nat → UInt8) (payload : List UInt8) :
    sum (words (load (fillCtpio rfc1071 buf payload) 14 20)) = 0xffff := by
  have hcheck : load (fillCtpio rfc1071 buf payload) 24 2 =
      be16 (checksum (ipWords (withLengths buf payload))) := by
    simp only [fillCtpio]
    rw [load_store_beside _ (.inl (by decide))]
    exact load_store_self _ 24 (be16 _)
  rw [load_append _ 14 10 10, load_append _ 24 2 8, hcheck,
    load_fillCtpio _ _ _ (by omega) (by omega), load_fillCtpio _ _ _ (by omega) (by omega)]
  exact sum_words (by rw [length_load]) (.inl rfl)

theorem fillCtpio_udp (buf : Nat → UInt8) (payload : List UInt8) :
    sum (words (load (fillCtpio rfc1071 buf payload) 26 8 ++ [0, 17] ++
      load (fillCtpio rfc1071 buf payload) 38 2 ++
      load (fillCtpio rfc1071 buf payload) 34 (8 + payload.length))) = 0xffff := by
  have hcheck : ∃ checked : Nat → UInt8, load (fillCtpio rfc1071 buf payload) 40 2 =
        be16 (if checksum (udpWords checked payload.length) = 0 then 65535
          else checksum (udpWords checked payload.length)) ∧
      ∀ start length, (start + length ≤ 40 ∨ 42 ≤ start) →
        load (fillCtpio rfc1071 buf payload) start length = load checked start length := by
    refine ⟨_, load_store_self _ 40 (be16 _), fun start length hbound => ?_⟩
    exact load_store_beside _ hbound
  obtain ⟨checked, hcheck, hsame⟩ := hcheck
  have hsplit : load (fillCtpio rfc1071 buf payload) 34 (8 + payload.length) =
      load checked 34 6 ++ (load (fillCtpio rfc1071 buf payload) 40 2 ++
        load checked headerSize payload.length) := by
    rw [show 8 + payload.length = 6 + (2 + payload.length) by omega, load_append, load_append,
      hsame 34 6 (by omega), hsame 42 _ (by omega)]
    rfl
  rw [hsplit, hcheck, hsame 26 8 (by omega), hsame 38 2 (by omega), ← List.append_assoc]
  apply sum_words
  · simp
  · split
    · rename_i hzero
      exact Or.inr ⟨hzero, rfl⟩
    · exact Or.inl rfl

/-! Frames. -/

section Frames

variable {endpoint : Endpoint} {buf : Nat → UInt8} {length : Nat}

theorem length_mod {payload : List UInt8} (hfits : payload.length + headerSize ≤ txBufSize) :
    payload.length % 65536 = payload.length := by
  simp only [headerSize, txBufSize] at hfits
  omega

theorem frame_wellFormed (h : Headers endpoint length buf) (ctpio : Bool)
    {payload : List UInt8} (hfits : payload.length + headerSize ≤ txBufSize) :
    WellFormed endpoint ctpio payload (frame ctpio buf payload) ↔
      ctpio = true ∨ length % 65536 = payload.length := by
  have hheaders := fill_headers h rfc1071 ⟨ctpio, payload⟩
  simp only at hheaders
  have hfield : ∀ offset size, offset + size ≤ headerSize →
      field (frame ctpio buf payload) offset size =
        load (fill ctpio rfc1071 buf payload) offset size :=
    fun offset size hbound => field_load _ (by omega)
  have hmod := length_mod hfits
  constructor
  · intro hformed
    have htotal := hformed.totalLength
    rw [hfield 16 2 (by decide), hheaders.totalLength, be16_inj] at htotal
    cases ctpio with
    | true => exact Or.inl rfl
    | false =>
        simp only [Bool.false_eq_true, if_false] at htotal
        omega
  · intro hlength
    have hset : (if ctpio then payload.length else length) % 65536 = payload.length % 65536 := by
      cases ctpio with
      | true => rfl
      | false => simpa [hmod] using hlength
    refine ⟨?_, ?_, ?_, ?_, ?_, ?_, ?_, ?_, ?_⟩
    · rw [hfield 14 1 (by decide), hheaders.version]
    · rw [hfield 16 2 (by decide), hheaders.totalLength, be16_add 28 hset]
    · rw [hfield 23 1 (by decide), hheaders.protocol]
    · rw [hfield 26 8 (by decide), hheaders.addresses]
    · rw [hfield 34 4 (by decide), hheaders.ports]
    · rw [hfield 38 2 (by decide), hheaders.udpLength, be16_add 8 hset]
    · rw [frame, drop_load, Nat.zero_add, Nat.add_sub_cancel, fill_payload]
    · intro hctpio
      rw [hfield 14 20 (by decide), fill, if_pos hctpio]
      exact fillCtpio_ip buf payload
    · intro hctpio
      have hrest : (frame ctpio buf payload).drop 34 =
          load (fill ctpio rfc1071 buf payload) 34 (8 + payload.length) := by
        rw [frame, drop_load, Nat.zero_add]
        congr 1
        simp only [headerSize]
        omega
      rw [hfield 26 8 (by decide), hrest, ← be16_add 8 hset, ← hheaders.udpLength, fill,
        if_pos hctpio]
      exact fillCtpio_udp buf payload

theorem fill_agree (h : Headers endpoint length buf) {payload : List UInt8}
    (hlength : length % 65536 = payload.length % 65536) {index : Nat}
    (hindex : index ∉ [24, 25, 40, 41]) (hlt : index < payload.length + headerSize) :
    fill false rfc1071 buf payload index = fill true rfc1071 buf payload index := by
  have hdma := fill_headers h rfc1071 ⟨false, payload⟩
  have hctpio := fill_headers h rfc1071 ⟨true, payload⟩
  have htotal : load (fill false rfc1071 buf payload) 16 2 =
      load (fill true rfc1071 buf payload) 16 2 :=
    hdma.totalLength.trans ((be16_add 28 hlength).trans hctpio.totalLength.symm)
  have hudp : load (fill false rfc1071 buf payload) 38 2 =
      load (fill true rfc1071 buf payload) 38 2 :=
    hdma.udpLength.trans ((be16_add 8 hlength).trans hctpio.udpLength.symm)
  have hpayload : load (fill false rfc1071 buf payload) headerSize payload.length =
      load (fill true rfc1071 buf payload) headerSize payload.length := by
    rw [fill_payload, fill_payload]
  have hkept : ∀ start size, (start + size ≤ 16 ∨ 18 ≤ start) →
      (start + size ≤ 24 ∨ 26 ≤ start) → start + size ≤ 38 →
      load (fill false rfc1071 buf payload) start size =
        load (fill true rfc1071 buf payload) start size := by
    intro start size htotal hip hudp
    rw [load_fill _ _ _ _ htotal hip hudp, load_fill _ _ _ _ htotal hip hudp]
  simp only [headerSize] at hlt hpayload
  simp only [List.mem_cons, List.not_mem_nil, or_false, not_or] at hindex
  -- the segments between the checksums
  rcases (by omega : index < 16 ∨ (16 ≤ index ∧ index < 18) ∨ (18 ≤ index ∧ index < 24) ∨
    (26 ≤ index ∧ index < 38) ∨ (38 ≤ index ∧ index < 40) ∨ 42 ≤ index) with
    hfirst | hsecond | hthird | hfourth | hfifth | hlast
  · exact apply_eq_of_load_eq (hkept 0 16 (by omega) (by omega) (by omega)) (by omega) (by omega)
  · exact apply_eq_of_load_eq htotal (by omega) (by omega)
  · exact apply_eq_of_load_eq (hkept 18 6 (by omega) (by omega) (by omega)) (by omega) (by omega)
  · exact apply_eq_of_load_eq (hkept 26 12 (by omega) (by omega) (by omega)) (by omega) (by omega)
  · exact apply_eq_of_load_eq hudp (by omega) (by omega)
  · exact apply_eq_of_load_eq hpayload (by omega) (by omega)

theorem frame_sameFields (h : Headers endpoint length buf) {payload : List UInt8}
    (hfits : payload.length + headerSize ≤ txBufSize) :
    SameFields (frame false buf payload) (frame true buf payload) ↔
      length % 65536 = payload.length := by
  have hmod := length_mod hfits
  constructor
  · intro hsame
    have hload : load (fill false rfc1071 buf payload) 16 2 =
        load (fill true rfc1071 buf payload) 16 2 := by
      apply load_congr
      intro address hlow hhigh
      have hindex := hsame address (by simp; omega)
      simp only [frame, getElem?_load, headerSize, Nat.zero_add] at hindex
      rw [if_pos (by omega), if_pos (by omega)] at hindex
      exact Option.some.inj hindex
    rw [(fill_headers h rfc1071 ⟨false, payload⟩).totalLength,
      (fill_headers h rfc1071 ⟨true, payload⟩).totalLength, be16_inj] at hload
    simp only [Bool.false_eq_true, if_false, if_true] at hload
    omega
  · intro hlength index hindex
    simp only [frame, getElem?_load, Nat.zero_add]
    split
    · rename_i hlt
      rw [fill_agree h (hlength.trans hmod.symm) hindex hlt]
    · rfl

/-- After `connect` and any sends, CTPIO sends a well-formed datagram always, and
DMA just when the lengths in the buffer happen to be those of its payload. -/
theorem compoundSend_iff (endpoints : Nat → Endpoint) (viMac : Vector UInt8 6) (world : World)
    (i : Nat) (answer : Except Int Nat) (earlier : List Call) (payload : List UInt8)
    (hfits : payload.length + headerSize ≤ txBufSize) :
    let buf := afterSends (world.connect endpoints viMac i answer).1.txBuf earlier
    (∀ ctpio, WellFormed (endpoints i) ctpio payload (frame ctpio buf payload) ↔
        ctpio = true ∨ announced earlier % 65536 = payload.length) ∧
      (SameFields (frame false buf payload) (frame true buf payload) ↔
        announced earlier % 65536 = payload.length) := by
  intro buf
  have hconnect := writeHeaders_headers (endpoints i) viMac world.txBuf
  rw [← connect_txBuf endpoints viMac world i answer] at hconnect
  have hheaders := afterSends_headers hconnect earlier
  exact ⟨fun ctpio => frame_wellFormed hheaders ctpio hfits, frame_sameFields hheaders hfits⟩

theorem compoundSend_greeting :
    [104, 105].length + headerSize ≤ txBufSize ∧
      let buf := afterSends
        ((World.start fun _ => 0).connect twins (Vector.replicate 6 0) 0 (.ok 1)).1.txBuf
        [⟨true, [1, 2]⟩, ⟨false, [3]⟩]
      (∀ ctpio, WellFormed (twins 0) ctpio [104, 105] (frame ctpio buf [104, 105]) ↔
          ctpio = true ∨ announced [⟨true, [1, 2]⟩, ⟨false, [3]⟩] % 65536 = 2) ∧
        (SameFields (frame false buf [104, 105]) (frame true buf [104, 105]) ↔
          announced [⟨true, [1, 2]⟩, ⟨false, [3]⟩] % 65536 = 2) :=
  ⟨by decide, compoundSend_iff twins (Vector.replicate 6 0) (World.start fun _ => 0) 0 (.ok 1)
    [⟨true, [1, 2]⟩, ⟨false, [3]⟩] [104, 105] (by decide)⟩

theorem compoundSend_stale :
    let buf := afterSends
      ((World.start fun _ => 0).connect twins (Vector.replicate 6 0) 0 (.ok 1)).1.txBuf []
    field (frame false buf [104, 105]) 16 2 = be16 28 ∧
      field (frame true buf [104, 105]) 16 2 = be16 30 ∧
      ¬ WellFormed (twins 0) false [104, 105] (frame false buf [104, 105]) ∧
      ¬ SameFields (frame false buf [104, 105]) (frame true buf [104, 105]) := by
  intro buf
  have hdma : field (frame false buf [104, 105]) 16 2 = be16 28 := by decide +kernel
  have hctpio : field (frame true buf [104, 105]) 16 2 = be16 30 := by decide +kernel
  refine ⟨hdma, hctpio, ?_, ?_⟩
  · intro h
    exact absurd (hdma.symm.trans h.totalLength) (by decide)
  · intro h
    exact absurd (h 17 (by decide)) (by decide +kernel)

end Frames

end VirtualSfc.Efvi.Datagram
