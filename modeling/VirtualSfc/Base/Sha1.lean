import Mathlib.Data.List.Basic

/-! The SHA-1 digest of FIPS 180-4, section 6.1, on byte lists. The message
schedule is kept as a window of the sixteen words still needed, so a round is a
structural recursion that the kernel can run. -/
namespace VirtualSfc.Base.Sha1

structure Working where
  a : UInt32
  b : UInt32
  c : UInt32
  d : UInt32
  e : UInt32
deriving DecidableEq, Repr

def rotateLeft (word count : UInt32) : UInt32 :=
  (word <<< count) ||| (word >>> (32 - count))

def lengthBytes (bits : Nat) : List UInt8 :=
  (List.range 8).map fun index => UInt8.ofNat (bits >>> (8 * (7 - index)))

def pad (message : List UInt8) : List UInt8 :=
  message ++ 0x80 :: List.replicate ((119 - message.length % 64) % 64) 0 ++
    lengthBytes (8 * message.length)

def words : List UInt8 → List UInt32
  | first :: second :: third :: fourth :: rest =>
      ((first.toUInt32 <<< 24) ||| (second.toUInt32 <<< 16) |||
        (third.toUInt32 <<< 8) ||| fourth.toUInt32) :: words rest
  | _ => []

def roundFunction (round : Nat) (b c d : UInt32) : UInt32 × UInt32 :=
  if round < 20 then ((b &&& c) ||| (~~~b &&& d), 0x5A827999)
  else if round < 40 then (b ^^^ c ^^^ d, 0x6ED9EBA1)
  else if round < 60 then ((b &&& c) ||| (b &&& d) ||| (c &&& d), 0x8F1BBCDC)
  else (b ^^^ c ^^^ d, 0xCA62C1D6)

def rounds : Nat → Nat → List UInt32 → Working → Working
  | 0, _, _, working => working
  | remaining + 1, round, window, working =>
      let current := window.headD 0
      let scheduled := rotateLeft
        (window.getD 13 0 ^^^ window.getD 8 0 ^^^ window.getD 2 0 ^^^ current) 1
      let (value, constant) := roundFunction round working.b working.c working.d
      let next := rotateLeft working.a 5 + value + working.e + constant + current
      rounds remaining (round + 1) (window.tail ++ [scheduled])
        ⟨next, working.a, rotateLeft working.b 30, working.c, working.d⟩

def compress (chain : Working) (block : List UInt32) : Working :=
  let working := rounds 80 0 block chain
  ⟨chain.a + working.a, chain.b + working.b, chain.c + working.c,
    chain.d + working.d, chain.e + working.e⟩

def compressBlocks : Nat → List UInt32 → Working → Working
  | 0, _, chain => chain
  | remaining + 1, message, chain =>
      compressBlocks remaining (message.drop 16) (compress chain (message.take 16))

def wordBytes (word : UInt32) : List UInt8 :=
  [(word >>> 24).toUInt8, (word >>> 16).toUInt8, (word >>> 8).toUInt8, word.toUInt8]

def sum (message : List UInt8) : List UInt8 :=
  let padded := words (pad message)
  let chain := compressBlocks (padded.length / 16) padded
    ⟨0x67452301, 0xEFCDAB89, 0x98BADCFE, 0x10325476, 0xC3D2E1F0⟩
  wordBytes chain.a ++ wordBytes chain.b ++ wordBytes chain.c ++
    wordBytes chain.d ++ wordBytes chain.e

@[simp] theorem sum_length (message : List UInt8) : (sum message).length = 20 := by
  simp [sum, wordBytes]

/-- The first test vector of the standard, the digest of `abc`. -/
example : sum [0x61, 0x62, 0x63] =
    [0xA9, 0x99, 0x3E, 0x36, 0x47, 0x06, 0x81, 0x6A, 0xBA, 0x3E,
      0x25, 0x71, 0x78, 0x50, 0xC2, 0x6C, 0x9C, 0xD0, 0xD8, 0x9D] := by
  decide +kernel

end VirtualSfc.Base.Sha1
