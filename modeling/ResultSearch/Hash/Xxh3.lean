/-!
# A 64-bit hash of texts

XXH3 with 64 bits of result, seed zero and the standard secret. Short inputs, up to 3, 8, 16, 128
and 240 bytes, each have a formula of their own; longer ones run through eight lanes in stripes of
64 bytes, whose blocks of sixteen stripes end in a scramble.
-/

namespace ResultSearch.Hash

/-- The first prime of 32 bits. -/
def prime32₁ : UInt64 := 0x9E3779B1

/-- The second prime of 32 bits. -/
def prime32₂ : UInt64 := 0x85EBCA77

/-- The third prime of 32 bits. -/
def prime32₃ : UInt64 := 0xC2B2AE3D

/-- The first prime of 64 bits. -/
def prime64₁ : UInt64 := 0x9E3779B185EBCA87

/-- The second prime of 64 bits. -/
def prime64₂ : UInt64 := 0xC2B2AE3D27D4EB4F

/-- The third prime of 64 bits. -/
def prime64₃ : UInt64 := 0x165667B19E3779F9

/-- The fourth prime of 64 bits. -/
def prime64₄ : UInt64 := 0x85EBCA77C2B2AE63

/-- The fifth prime of 64 bits. -/
def prime64₅ : UInt64 := 0x27D4EB2F165667C5

/-- The factor of the last mixing step. -/
def primeMix₁ : UInt64 := 0x165667919E3779F9

/-- The factor that mixes inputs of four to eight bytes. -/
def primeMix₂ : UInt64 := 0x9FB21C651E98DF25

/-- The standard secret. -/
def secret : ByteArray := ⟨#[
    0xB8, 0xFE, 0x6C, 0x39, 0x23, 0xA4, 0x4B, 0xBE, 0x7C, 0x01, 0x81, 0x2C,
    0xF7, 0x21, 0xAD, 0x1C, 0xDE, 0xD4, 0x6D, 0xE9, 0x83, 0x90, 0x97, 0xDB,
    0x72, 0x40, 0xA4, 0xA4, 0xB7, 0xB3, 0x67, 0x1F, 0xCB, 0x79, 0xE6, 0x4E,
    0xCC, 0xC0, 0xE5, 0x78, 0x82, 0x5A, 0xD0, 0x7D, 0xCC, 0xFF, 0x72, 0x21,
    0xB8, 0x08, 0x46, 0x74, 0xF7, 0x43, 0x24, 0x8E, 0xE0, 0x35, 0x90, 0xE6,
    0x81, 0x3A, 0x26, 0x4C, 0x3C, 0x28, 0x52, 0xBB, 0x91, 0xC3, 0x00, 0xCB,
    0x88, 0xD0, 0x65, 0x8B, 0x1B, 0x53, 0x2E, 0xA3, 0x71, 0x64, 0x48, 0x97,
    0xA2, 0x0D, 0xF9, 0x4E, 0x38, 0x19, 0xEF, 0x46, 0xA9, 0xDE, 0xAC, 0xD8,
    0xA8, 0xFA, 0x76, 0x3F, 0xE3, 0x9C, 0x34, 0x3F, 0xF9, 0xDC, 0xBB, 0xC7,
    0xC7, 0x0B, 0x4F, 0x1D, 0x8A, 0x51, 0xE0, 0x4B, 0xCD, 0xB4, 0x59, 0x31,
    0xC8, 0x9F, 0x7E, 0xC9, 0xD9, 0x78, 0x73, 0x64, 0xEA, 0xC5, 0xAC, 0x83,
    0x34, 0xD3, 0xEB, 0xC3, 0xC5, 0x81, 0xA0, 0xFF, 0xFA, 0x13, 0x63, 0xEB,
    0x17, 0x0D, 0xDD, 0x51, 0xB7, 0xF0, 0xDA, 0x49, 0xD3, 0x16, 0x55, 0x26,
    0x29, 0xD4, 0x68, 0x9E, 0x2B, 0x16, 0xBE, 0x58, 0x7D, 0x47, 0xA1, 0xFC,
    0x8F, 0xF8, 0xB8, 0xD1, 0x7A, 0xD0, 0x31, 0xCE, 0x45, 0xCB, 0x3A, 0x8F,
    0x95, 0x16, 0x04, 0x28, 0xAF, 0xD7, 0xFB, 0xCA, 0xBB, 0x4B, 0x40, 0x7E]⟩

/-- The byte at a place, zero beyond the end. -/
def byteAt (bs : ByteArray) (i : Nat) : UInt64 :=
  if h : i < bs.size then bs[i].toUInt64 else 0

/-- Four bytes from a place on, lowest first. -/
def word32 (bs : ByteArray) (i : Nat) : UInt64 :=
  byteAt bs i ||| (byteAt bs (i + 1) <<< 8) ||| (byteAt bs (i + 2) <<< 16) |||
    (byteAt bs (i + 3) <<< 24)

/-- Eight bytes from a place on, lowest first. -/
def word64 (bs : ByteArray) (i : Nat) : UInt64 := word32 bs i ||| (word32 bs (i + 4) <<< 32)

/-- The two halves of a product of 128 bits, combined. -/
def mulFold (a b : UInt64) : UInt64 :=
  let p := a.toNat * b.toNat
  UInt64.ofNat p ^^^ UInt64.ofNat (p / 0x10000000000000000)

/-- Move the bits of a word up; those that fall out come back from below. -/
def rotateLeft (x : UInt64) (n : UInt64) : UInt64 := (x <<< n) ||| (x >>> (64 - n))

/-- The bytes of a word in the other order. -/
def swapBytes (x : UInt64) : UInt64 :=
  (List.range 8).foldl (fun acc i => (acc <<< 8) ||| ((x >>> (8 * UInt64.ofNat i)) &&& 0xFF)) 0

/-- The last mixing step of longer inputs. -/
def avalanche (h : UInt64) : UInt64 :=
  let h := (h ^^^ (h >>> 37)) * primeMix₁
  h ^^^ (h >>> 32)

/-- The last mixing step of very short inputs. -/
def avalancheShort (h : UInt64) : UInt64 :=
  let h := (h ^^^ (h >>> 33)) * prime64₂
  let h := (h ^^^ (h >>> 29)) * prime64₃
  h ^^^ (h >>> 32)

/-- One to three bytes: the first, the middle and the last of them, with the length. -/
def hashUpTo3 (bs : ByteArray) : UInt64 :=
  let n := bs.size
  let combined := (byteAt bs 0 <<< 16) ||| (byteAt bs (n / 2) <<< 24) ||| byteAt bs (n - 1) |||
    (UInt64.ofNat n <<< 8)
  avalancheShort (combined ^^^ (word32 secret 0 ^^^ word32 secret 4))

/-- Four to eight bytes: the first four and the last four, which may overlap. -/
def hashUpTo8 (bs : ByteArray) : UInt64 :=
  let n := bs.size
  let keyed := (word32 bs (n - 4) + (word32 bs 0 <<< 32)) ^^^ (word64 secret 8 ^^^ word64 secret 16)
  let h := (keyed ^^^ rotateLeft keyed 49 ^^^ rotateLeft keyed 24) * primeMix₂
  let h := (h ^^^ ((h >>> 35) + UInt64.ofNat n)) * primeMix₂
  h ^^^ (h >>> 28)

/-- Nine to sixteen bytes: the first eight and the last eight, which may overlap. -/
def hashUpTo16 (bs : ByteArray) : UInt64 :=
  let n := bs.size
  let low := word64 bs 0 ^^^ (word64 secret 24 ^^^ word64 secret 32)
  let high := word64 bs (n - 8) ^^^ (word64 secret 40 ^^^ word64 secret 48)
  avalanche (UInt64.ofNat n + swapBytes low + high + mulFold low high)

/-- Sixteen bytes of input mixed with sixteen of the secret. -/
def mix16 (bs : ByteArray) (i s : Nat) : UInt64 :=
  mulFold (word64 bs i ^^^ word64 secret s) (word64 bs (i + 8) ^^^ word64 secret (s + 8))

/-- Pairs of sixteen bytes from both ends, as many as the length fills. -/
def hashUpTo128 (bs : ByteArray) : UInt64 :=
  let n := bs.size
  let pair (k : Nat) : UInt64 := mix16 bs (16 * k) (32 * k) + mix16 bs (n - 16 * (k + 1)) (32 * k + 16)
  let pairs := (n - 1) / 32 + 1
  avalanche ((List.range pairs).foldl (fun acc k => acc + pair k) (UInt64.ofNat n * prime64₁))

/-- Blocks of sixteen bytes, of which the first eight are mixed apart, and the last sixteen bytes. -/
def hashUpTo240 (bs : ByteArray) : UInt64 :=
  let n := bs.size
  let first := (List.range 8).foldl (fun acc k => acc + mix16 bs (16 * k) (16 * k))
    (UInt64.ofNat n * prime64₁)
  let rest := (List.range (n / 16 - 8)).foldl
    (fun acc k => acc + mix16 bs (16 * (k + 8)) (16 * k + 3)) (avalanche first)
  avalanche (rest + mix16 bs (n - 16) 119)

/-! ## Long inputs -/

/-- The lanes before the first stripe. -/
def lanes : List UInt64 :=
  [prime32₃, prime64₁, prime64₂, prime64₃, prime64₄, prime32₂, prime64₅, prime32₁]

/-- Take in the 64 bytes at `i`, keyed with the secret at `s`. -/
def stripe (bs : ByteArray) (acc : List UInt64) (i s : Nat) : List UInt64 :=
  acc.mapIdx fun k (a : UInt64) =>
    let keyed : UInt64 := word64 bs (i + 8 * k) ^^^ word64 secret (s + 8 * k)
    let neighbour := if k % 2 = 0 then k + 1 else k - 1
    let low : UInt64 := keyed &&& (0xFFFFFFFF : UInt64)
    let high : UInt64 := keyed >>> (32 : UInt64)
    a + word64 bs (i + 8 * neighbour) + low * high

/-- Mix the lanes between two blocks of stripes. -/
def scramble (acc : List UInt64) : List UInt64 :=
  acc.mapIdx fun k (a : UInt64) => (a ^^^ (a >>> 47) ^^^ word64 secret (128 + 8 * k)) * prime32₁

/-- Take in `count` stripes from `i` on. -/
def stripes (bs : ByteArray) (acc : List UInt64) (i count : Nat) : List UInt64 :=
  (List.range count).foldl (fun acc k => stripe bs acc (i + 64 * k) (8 * k)) acc

/-- Fold pairs of lanes into one word. -/
def merge (acc : List UInt64) (start : UInt64) : UInt64 :=
  let lane (k : Nat) : UInt64 := acc.getD k 0
  avalanche ((List.range 4).foldl (fun h k =>
    h + mulFold (lane (2 * k) ^^^ word64 secret (11 + 16 * k))
      (lane (2 * k + 1) ^^^ word64 secret (19 + 16 * k))) start)

/-- Blocks of sixteen stripes with the lanes scrambled in between, and a last stripe for the end. -/
def hashLong (bs : ByteArray) : UInt64 :=
  let n := bs.size
  let blocks := (n - 1) / 1024
  let acc := (List.range blocks).foldl (fun acc b => scramble (stripes bs acc (1024 * b) 16)) lanes
  let acc := stripes bs acc (1024 * blocks) ((n - 1 - 1024 * blocks) / 64)
  merge (stripe bs acc (n - 64) 121) (UInt64.ofNat n * prime64₁)

/-- The hash of a sequence of bytes. -/
def hashBytes (bs : ByteArray) : UInt64 :=
  let n := bs.size
  if n = 0 then avalancheShort (word64 secret 56 ^^^ word64 secret 64)
  else if n ≤ 3 then hashUpTo3 bs
  else if n ≤ 8 then hashUpTo8 bs
  else if n ≤ 16 then hashUpTo16 bs
  else if n ≤ 128 then hashUpTo128 bs
  else if n ≤ 240 then hashUpTo240 bs
  else hashLong bs

/-- The hash of the UTF-8 bytes of a text. -/
def hashText (s : String) : UInt64 := hashBytes s.toUTF8

end ResultSearch.Hash
