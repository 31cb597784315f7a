import Provenance.Digest.Bytes

/-!
# The XXH3 hash with 128 bits

The unseeded variant with the default secret. Short inputs up to 16 bytes, middle ones up to 240
and long ones each have a scheme of their own; all read little-endian words of the input, key
them with words of the secret, multiply, and end in a mixing step in which every bit of the input
reaches every bit of the result.
-/

namespace Provenance

/-- A hash of 128 bits, in two halves. -/
structure Digest where
  low : UInt64
  high : UInt64
deriving DecidableEq, Repr, Inhabited

namespace Xxh3

/-! ### Constants -/

def prime32a : UInt64 := 0x9E3779B1
def prime32b : UInt64 := 0x85EBCA77
def prime32c : UInt64 := 0xC2B2AE3D

def prime64a : UInt64 := 0x9E3779B185EBCA87
def prime64b : UInt64 := 0xC2B2AE3D27D4EB4F
def prime64c : UInt64 := 0x165667B19E3779F9
def prime64d : UInt64 := 0x85EBCA77C2B2AE63
def prime64e : UInt64 := 0x27D4EB2F165667C5

def mixPrimeA : UInt64 := 0x165667919E3779F9
def mixPrimeB : UInt64 := 0x9FB21C651E98DF25

/-- The default secret. -/
def secret : Array UInt8 := #[
  0xb8, 0xfe, 0x6c, 0x39, 0x23, 0xa4, 0x4b, 0xbe, 0x7c, 0x01, 0x81, 0x2c, 0xf7, 0x21, 0xad, 0x1c,
  0xde, 0xd4, 0x6d, 0xe9, 0x83, 0x90, 0x97, 0xdb, 0x72, 0x40, 0xa4, 0xa4, 0xb7, 0xb3, 0x67, 0x1f,
  0xcb, 0x79, 0xe6, 0x4e, 0xcc, 0xc0, 0xe5, 0x78, 0x82, 0x5a, 0xd0, 0x7d, 0xcc, 0xff, 0x72, 0x21,
  0xb8, 0x08, 0x46, 0x74, 0xf7, 0x43, 0x24, 0x8e, 0xe0, 0x35, 0x90, 0xe6, 0x81, 0x3a, 0x26, 0x4c,
  0x3c, 0x28, 0x52, 0xbb, 0x91, 0xc3, 0x00, 0xcb, 0x88, 0xd0, 0x65, 0x8b, 0x1b, 0x53, 0x2e, 0xa3,
  0x71, 0x64, 0x48, 0x97, 0xa2, 0x0d, 0xf9, 0x4e, 0x38, 0x19, 0xef, 0x46, 0xa9, 0xde, 0xac, 0xd8,
  0xa8, 0xfa, 0x76, 0x3f, 0xe3, 0x9c, 0x34, 0x3f, 0xf9, 0xdc, 0xbb, 0xc7, 0xc7, 0x0b, 0x4f, 0x1d,
  0x8a, 0x51, 0xe0, 0x4b, 0xcd, 0xb4, 0x59, 0x31, 0xc8, 0x9f, 0x7e, 0xc9, 0xd9, 0x78, 0x73, 0x64,
  0xea, 0xc5, 0xac, 0x83, 0x34, 0xd3, 0xeb, 0xc3, 0xc5, 0x81, 0xa0, 0xff, 0xfa, 0x13, 0x63, 0xeb,
  0x17, 0x0d, 0xdd, 0x51, 0xb7, 0xf0, 0xda, 0x49, 0xd3, 0x16, 0x55, 0x26, 0x29, 0xd4, 0x68, 0x9e,
  0x2b, 0x16, 0xbe, 0x58, 0x7d, 0x47, 0xa1, 0xfc, 0x8f, 0xf8, 0xb8, 0xd1, 0x7a, 0xd0, 0x31, 0xce,
  0x45, 0xcb, 0x3a, 0x8f, 0x95, 0x16, 0x04, 0x28, 0xaf, 0xd7, 0xfb, 0xca, 0xbb, 0x4b, 0x40, 0x7e]

/-- The word of the secret at a byte offset. -/
def key (offset : Nat) : UInt64 := word64At secret offset

/-! ### Mixing -/

/-- The full product of two words. -/
def wideMul (a b : UInt64) : Digest :=
  let p := a.toNat * b.toNat
  ⟨.ofNat p, .ofNat (p / UInt64.size)⟩

/-- The two halves of the full product, combined. -/
def foldMul (a b : UInt64) : UInt64 := (wideMul a b).low ^^^ (wideMul a b).high

/-- The product of the low and the high half of a word. -/
def halvesMul (w : UInt64) : UInt64 := w.toUInt32.toUInt64 * (w >>> 32)

def xorShift (w : UInt64) (n : UInt64) : UInt64 := w ^^^ (w >>> n)

/-- The final mix of the shortest inputs. -/
def avalancheShort (w : UInt64) : UInt64 :=
  xorShift (xorShift (xorShift w 33 * prime64b) 29 * prime64c) 32

def avalanche (w : UInt64) : UInt64 := xorShift (xorShift w 37 * mixPrimeA) 32

def swap32 (w : UInt32) : UInt32 :=
  (w <<< 24) ||| ((w <<< 8) &&& (0xFF0000 : UInt32)) ||| ((w >>> 8) &&& (0xFF00 : UInt32)) |||
    (w >>> 24)

def swap64 (w : UInt64) : UInt64 :=
  ((swap32 w.toUInt32).toUInt64 <<< 32) ||| (swap32 (w >>> 32).toUInt32).toUInt64

/-! ### Short inputs -/

def ofEmpty : Digest :=
  ⟨avalancheShort (key 64 ^^^ key 72), avalancheShort (key 80 ^^^ key 88)⟩

/-- One to three bytes. -/
def ofTiny (input : Array UInt8) : Digest :=
  let n := input.size
  let first := (input.getD 0 0).toUInt32
  let middle := (input.getD (n / 2) 0).toUInt32
  let last := (input.getD (n - 1) 0).toUInt32
  let low : UInt32 := (first <<< 16) ||| (middle <<< 24) ||| last ||| (n.toUInt32 <<< 8)
  let swapped := swap32 low
  let high : UInt32 := (swapped <<< 13) ||| (swapped >>> 19)
  ⟨avalancheShort (low.toUInt64 ^^^ (word32At secret 0 ^^^ word32At secret 4).toUInt64),
    avalancheShort (high.toUInt64 ^^^ (word32At secret 8 ^^^ word32At secret 12).toUInt64)⟩

/-- Four to eight bytes. -/
def ofSmall (input : Array UInt8) : Digest :=
  let n := input.size
  let word := (word32At input 0).toUInt64 + ((word32At input (n - 4)).toUInt64 <<< 32)
  let m := wideMul (word ^^^ (key 16 ^^^ key 24)) (prime64a + (n.toUInt64 <<< 2))
  let high := m.high + (m.low <<< 1)
  let low := xorShift (m.low ^^^ (high >>> 3)) 35 * mixPrimeB
  ⟨xorShift low 28, avalanche high⟩

/-- Nine to sixteen bytes. -/
def ofMedium (input : Array UInt8) : Digest :=
  let n := input.size
  let first := word64At input 0
  let last := word64At input (n - 8)
  let m := wideMul (first ^^^ last ^^^ (key 32 ^^^ key 40)) prime64a
  let low := m.low + ((n - 1).toUInt64 <<< 54)
  let keyed := last ^^^ (key 48 ^^^ key 56)
  let high := m.high + keyed + keyed.toUInt32.toUInt64 * (prime32b - 1)
  let h := wideMul (low ^^^ swap64 high) prime64b
  ⟨avalanche h.low, avalanche (h.high + high * prime64b)⟩

/-! ### Inputs of middle length -/

/-- Sixteen bytes keyed with the secret. -/
def mixBytes (input : Array UInt8) (offset keyOffset : Nat) : UInt64 :=
  foldMul (word64At input offset ^^^ key keyOffset)
    (word64At input (offset + 8) ^^^ key (keyOffset + 8))

/-- Two pieces of sixteen bytes mixed into the state, each half seeing both. -/
def mixPair (input : Array UInt8) (state : Digest) (a b keyOffset : Nat) : Digest :=
  ⟨(state.low + mixBytes input a keyOffset) ^^^ (word64At input b + word64At input (b + 8)),
    (state.high + mixBytes input b (keyOffset + 16)) ^^^
      (word64At input a + word64At input (a + 8))⟩

/-- The digest of a state and the length of the input. -/
def finish (state : Digest) (n : Nat) : Digest :=
  ⟨avalanche (state.low + state.high),
    0 - avalanche (state.low * prime64a + state.high * prime64d + n.toUInt64 * prime64b)⟩

/-- 17 to 128 bytes: pairs from both ends, the innermost first. -/
def ofLowMiddle (input : Array UInt8) : Digest :=
  let n := input.size
  let rounds := (n - 1) / 32
  let state := (List.range (rounds + 1)).foldr
    (fun i state => mixPair input state (16 * i) (n - 16 * (i + 1)) (32 * i))
    ⟨n.toUInt64 * prime64a, 0⟩
  finish state n

/-- 129 to 240 bytes: pairs of neighbours, with a mix after the first four, and the end. -/
def ofHighMiddle (input : Array UInt8) : Digest :=
  let n := input.size
  let first := (List.range 4).foldl
    (fun state i => mixPair input state (32 * i) (32 * i + 16) (32 * i)) ⟨n.toUInt64 * prime64a, 0⟩
  let state := (List.range (n / 32 - 4)).foldl
    (fun state i => mixPair input state (32 * (i + 4)) (32 * (i + 4) + 16) (32 * i + 3))
    ⟨avalanche first.low, avalanche first.high⟩
  finish (mixPair input state (n - 16) (n - 32) 103) n

/-! ### Long inputs -/

/-- A stripe of 64 bytes added to the eight lanes. -/
def addStripe (input : Array UInt8) (lanes : Array UInt64) (offset keyOffset : Nat) :
    Array UInt64 :=
  (List.range 8).foldl (fun lanes i =>
    let word := word64At input (offset + 8 * i)
    let lanes := lanes.modify (i ^^^ 1) (· + word)
    lanes.modify i (· + halvesMul (word ^^^ key (keyOffset + 8 * i)))) lanes

/-- The lanes stirred at the end of a block. -/
def scramble (lanes : Array UInt64) : Array UInt64 :=
  lanes.mapIdx fun i lane => (xorShift lane 47 ^^^ key (128 + 8 * i)) * prime32a

/-- The given number of stripes from an offset, each with its own part of the secret. -/
def addStripes (input : Array UInt8) (lanes : Array UInt64) (offset count : Nat) : Array UInt64 :=
  (List.range count).foldl (fun lanes i => addStripe input lanes (offset + 64 * i) (8 * i)) lanes

/-- The lanes merged into one word. -/
def merge (lanes : Array UInt64) (keyOffset : Nat) (start : UInt64) : UInt64 :=
  avalanche <| (List.range 4).foldl (fun sum i =>
    sum + foldMul (lanes.getD (2 * i) 0 ^^^ key (keyOffset + 16 * i))
      (lanes.getD (2 * i + 1) 0 ^^^ key (keyOffset + 16 * i + 8))) start

/-- More than 240 bytes, in blocks of sixteen stripes; the last stripe is the end of the input. -/
def ofLong (input : Array UInt8) : Digest :=
  let n := input.size
  let blocks := (n - 1) / 1024
  let lanes := (List.range blocks).foldl
    (fun lanes i => scramble (addStripes input lanes (1024 * i) 16))
    #[prime32c, prime64a, prime64b, prime64c, prime64d, prime32b, prime64e, prime32a]
  let lanes := addStripes input lanes (1024 * blocks) ((n - 1 - 1024 * blocks) / 64)
  let lanes := addStripe input lanes (n - 64) 121
  ⟨merge lanes 11 (n.toUInt64 * prime64a), merge lanes 117 (~~~(n.toUInt64 * prime64b))⟩

end Xxh3

namespace Digest

/-- The XXH3 hash of bytes. -/
def ofArray (input : Array UInt8) : Digest :=
  let n := input.size
  if n = 0 then Xxh3.ofEmpty
  else if n ≤ 3 then Xxh3.ofTiny input
  else if n ≤ 8 then Xxh3.ofSmall input
  else if n ≤ 16 then Xxh3.ofMedium input
  else if n ≤ 128 then Xxh3.ofLowMiddle input
  else if n ≤ 240 then Xxh3.ofHighMiddle input
  else Xxh3.ofLong input

def ofBytes (input : List UInt8) : Digest := ofArray input.toArray

/-- The digest as sixteen bytes, the least significant first. -/
def bytes (d : Digest) : List UInt8 := littleEndian 8 d.low.toNat ++ littleEndian 8 d.high.toNat

/-- The digest as 32 hexadecimal digits. -/
def text (d : Digest) : String := hexText d.bytes

/-- An abbreviation for logs: the first two bytes. -/
def shortText (d : Digest) : String := "ContentHash(" ++ hexText (d.bytes.take 2) ++ "..)"

end Digest

end Provenance
