import Mathlib.Algebra.Ring.Nat
import Mathlib.Data.List.Basic
import Mathlib.Data.Nat.Notation

/-!
# SHA-2, HMAC and PBKDF2

SHA-256 and SHA-512 are one function of the width of a word, the number of
rounds and the rotations.  Their constants are the leading bits of the same
roots of primes.  PBKDF2 makes a key of any length from any keyed digest.
-/

namespace SoulonWallet.Sha2

abbrev Bytes := List UInt8

/-- The three numbers of a mixing function of the standard. -/
structure Mix where
  first : ℕ
  second : ℕ
  third : ℕ

/-- What tells the members of the family apart. -/
structure Variant where
  width : ℕ
  rounds : ℕ
  bigSigma0 : Mix
  bigSigma1 : Mix
  smallSigma0 : Mix
  smallSigma1 : Mix

def sha256 : Variant where
  width := 32
  rounds := 64
  bigSigma0 := ⟨2, 13, 22⟩
  bigSigma1 := ⟨6, 11, 25⟩
  smallSigma0 := ⟨7, 18, 3⟩
  smallSigma1 := ⟨17, 19, 10⟩

def sha512 : Variant where
  width := 64
  rounds := 80
  bigSigma0 := ⟨28, 34, 39⟩
  bigSigma1 := ⟨14, 18, 41⟩
  smallSigma0 := ⟨1, 8, 7⟩
  smallSigma1 := ⟨19, 61, 6⟩

/-- The first 64 bits behind the point of the square roots of the first eight
primes. -/
def squareRoots : List ℕ :=
  [
    0x6a09e667f3bcc908, 0xbb67ae8584caa73b, 0x3c6ef372fe94f82b,
    0xa54ff53a5f1d36f1, 0x510e527fade682d1, 0x9b05688c2b3e6c1f,
    0x1f83d9abfb41bd6b, 0x5be0cd19137e2179]

/-- The first 64 bits behind the point of the cube roots of the first eighty
primes. -/
def cubeRoots : List ℕ :=
  [
    0x428a2f98d728ae22, 0x7137449123ef65cd, 0xb5c0fbcfec4d3b2f,
    0xe9b5dba58189dbbc, 0x3956c25bf348b538, 0x59f111f1b605d019,
    0x923f82a4af194f9b, 0xab1c5ed5da6d8118, 0xd807aa98a3030242,
    0x12835b0145706fbe, 0x243185be4ee4b28c, 0x550c7dc3d5ffb4e2,
    0x72be5d74f27b896f, 0x80deb1fe3b1696b1, 0x9bdc06a725c71235,
    0xc19bf174cf692694, 0xe49b69c19ef14ad2, 0xefbe4786384f25e3,
    0x0fc19dc68b8cd5b5, 0x240ca1cc77ac9c65, 0x2de92c6f592b0275,
    0x4a7484aa6ea6e483, 0x5cb0a9dcbd41fbd4, 0x76f988da831153b5,
    0x983e5152ee66dfab, 0xa831c66d2db43210, 0xb00327c898fb213f,
    0xbf597fc7beef0ee4, 0xc6e00bf33da88fc2, 0xd5a79147930aa725,
    0x06ca6351e003826f, 0x142929670a0e6e70, 0x27b70a8546d22ffc,
    0x2e1b21385c26c926, 0x4d2c6dfc5ac42aed, 0x53380d139d95b3df,
    0x650a73548baf63de, 0x766a0abb3c77b2a8, 0x81c2c92e47edaee6,
    0x92722c851482353b, 0xa2bfe8a14cf10364, 0xa81a664bbc423001,
    0xc24b8b70d0f89791, 0xc76c51a30654be30, 0xd192e819d6ef5218,
    0xd69906245565a910, 0xf40e35855771202a, 0x106aa07032bbd1b8,
    0x19a4c116b8d2d0c8, 0x1e376c085141ab53, 0x2748774cdf8eeb99,
    0x34b0bcb5e19b48a8, 0x391c0cb3c5c95a63, 0x4ed8aa4ae3418acb,
    0x5b9cca4f7763e373, 0x682e6ff3d6b2b8a3, 0x748f82ee5defb2fc,
    0x78a5636f43172f60, 0x84c87814a1f0ab72, 0x8cc702081a6439ec,
    0x90befffa23631e28, 0xa4506cebde82bde9, 0xbef9a3f7b2c67915,
    0xc67178f2e372532b, 0xca273eceea26619c, 0xd186b8c721c0c207,
    0xeada7dd6cde0eb1e, 0xf57d4f7fee6ed178, 0x06f067aa72176fba,
    0x0a637dc5a2c898a6, 0x113f9804bef90dae, 0x1b710b35131c471b,
    0x28db77f523047d84, 0x32caab7b40c72493, 0x3c9ebe0a15c9bebc,
    0x431d67c49c100d4c, 0x4cc5d4becb3e42b6, 0x597f299cfc657e2a,
    0x5fcb6fab3ad6faec, 0x6c44198c4a475817]

/-! ## Bytes and words -/

/-- A number in some bytes, the most significant one first. -/
def bigEndian (count value : ℕ) : Bytes :=
  (List.range count).reverse.map fun place =>
    UInt8.ofNat (value / 256 ^ place)

def ofBigEndian (bytes : Bytes) : ℕ :=
  bytes.foldl (fun value byte => value * 256 + byte.toNat) 0

/-- Consecutive pieces of one length. -/
def pieces (size count : ℕ) (bytes : Bytes) : List Bytes :=
  (List.range count).map fun place => (bytes.drop (place * size)).take size

namespace Variant

variable (variant : Variant)

abbrev Word := BitVec variant.width

/-- The bytes of a block of sixteen words. -/
def blockSize : ℕ := 2 * variant.width

/-- The leading bits of a root. -/
def leading (root : ℕ) : variant.Word :=
  BitVec.ofNat _ (root >>> (64 - variant.width))

end Variant

section Functions

variable {variant : Variant}

def Mix.rotate (mix : Mix) (word : variant.Word) : variant.Word :=
  word.rotateRight mix.first ^^^ word.rotateRight mix.second ^^^
    word.rotateRight mix.third

def Mix.shift (mix : Mix) (word : variant.Word) : variant.Word :=
  word.rotateRight mix.first ^^^ word.rotateRight mix.second ^^^
    word >>> mix.third

end Functions

/-! ## Compression -/

structure Registers (variant : Variant) where
  a : variant.Word
  b : variant.Word
  c : variant.Word
  d : variant.Word
  e : variant.Word
  f : variant.Word
  g : variant.Word
  h : variant.Word

namespace Registers

variable {variant : Variant} (registers : Registers variant)

def toList : List variant.Word :=
  [registers.a, registers.b, registers.c, registers.d, registers.e,
    registers.f, registers.g, registers.h]

def add (other : Registers variant) : Registers variant where
  a := registers.a + other.a
  b := registers.b + other.b
  c := registers.c + other.c
  d := registers.d + other.d
  e := registers.e + other.e
  f := registers.f + other.f
  g := registers.g + other.g
  h := registers.h + other.h

def round (constant word : variant.Word) : Registers variant :=
  let choice :=
    (registers.e &&& registers.f) ^^^ (~~~registers.e &&& registers.g)
  let majority :=
    (registers.a &&& registers.b) ^^^ (registers.a &&& registers.c) ^^^
      (registers.b &&& registers.c)
  let fresh :=
    registers.h + variant.bigSigma1.rotate registers.e + choice + constant +
      word
  { a := fresh + (variant.bigSigma0.rotate registers.a + majority)
    b := registers.a
    c := registers.b
    d := registers.c
    e := registers.d + fresh
    f := registers.e
    g := registers.f
    h := registers.g }

end Registers

section Hash

variable (variant : Variant)

def initial : Registers variant :=
  let root := fun place => variant.leading (squareRoots.getD place 0)
  ⟨root 0, root 1, root 2, root 3, root 4, root 5, root 6, root 7⟩

variable {variant}

/-- The word behind sixteen words of the schedule. -/
def nextWord (window : List variant.Word) : variant.Word :=
  variant.smallSigma1.shift (window.getD 14 0) + window.getD 9 0 +
    variant.smallSigma0.shift (window.getD 1 0) + window.getD 0 0

/-- A round uses the first word of the window and moves the window on. -/
def step (state : List variant.Word × Registers variant) (root : ℕ) :
    List variant.Word × Registers variant :=
  (state.1.tail ++ [nextWord state.1],
    state.2.round (variant.leading root) (state.1.headD 0))

def compress (registers : Registers variant) (block : Bytes) :
    Registers variant :=
  let words := (pieces (variant.width / 8) 16 block).map fun bytes =>
    BitVec.ofNat variant.width (ofBigEndian bytes)
  registers.add
    ((cubeRoots.take variant.rounds).foldl step (words, registers)).2

variable (variant)

/-- A one, zeros, and the number of bits in two words. -/
def pad (message : Bytes) : Bytes :=
  let length := message.length + 1 + variant.width / 4
  let zeros := (variant.blockSize - length % variant.blockSize) %
    variant.blockSize
  message ++ 0x80 :: List.replicate zeros 0 ++
    bigEndian (variant.width / 4) (8 * message.length)

def hash (message : Bytes) : Bytes :=
  let padded := pad variant message
  let blocks := pieces variant.blockSize (padded.length / variant.blockSize)
    padded
  (blocks.foldl compress (initial variant)).toList.flatMap fun word =>
    bigEndian (variant.width / 8) word.toNat

def hmac (key message : Bytes) : Bytes :=
  let short := if variant.blockSize < key.length then hash variant key else key
  let padded :=
    short ++ List.replicate (variant.blockSize - short.length) 0
  hash variant (padded.map (· ^^^ 0x5C) ++
    hash variant (padded.map (· ^^^ 0x36) ++ message))

theorem length_bigEndian (count value : ℕ) :
    (bigEndian count value).length = count := by
  simp [bigEndian]

theorem length_hash (message : Bytes) :
    (hash variant message).length = 8 * (variant.width / 8) := by
  simp [hash, Registers.toList, length_bigEndian]
  omega

theorem length_hmac (key message : Bytes) :
    (hmac variant key message).length = 8 * (variant.width / 8) :=
  length_hash variant _

/-- The digests of three letters. -/
example :
    hash sha256 [0x61, 0x62, 0x63] = bigEndian 32
      0xba7816bf8f01cfea414140de5dae2223b00361a396177a9cb410ff61f20015ad ∧
    hash sha512 [0x61, 0x62, 0x63] =
      [0xddaf35a193617aba, 0xcc417349ae204131, 0x12e6fa4e89a97ea2,
        0x0a9eeee64b55d39a, 0x2192992a274fc1a8, 0x36ba3c23a3feebbd,
        0x454d4423643ce80e, 0x2a9ac94fa54ca49f].flatMap
        (bigEndian 8) := by
  decide +kernel

end Hash

end SoulonWallet.Sha2

namespace SoulonWallet.Pbkdf2

open Sha2 (Bytes bigEndian)

variable (digest : Bytes → Bytes → Bytes) (size : ℕ) (password salt : Bytes)

/-- The digests behind a block of the key: the first is of the salt and the
number of the block, each other one of the digest before it. -/
def chained (block : ℕ) : ℕ → Bytes
  | 0 => digest password (salt ++ bigEndian 4 block)
  | round + 1 => digest password (chained block round)

/-- A byte of a block: that byte of the digests, added without carry. -/
def blockByte (count block place : ℕ) : UInt8 :=
  ((List.range count).map fun round =>
    (chained digest password salt block round).getD place 0).foldl (· ^^^ ·) 0

def block (count number : ℕ) : Bytes :=
  (List.range size).map (blockByte digest password salt count number)

/-- The first bytes of as many blocks as it takes, counted from one. -/
def derive (count length : ℕ) : Bytes :=
  ((List.range ((length + size - 1) / size)).flatMap fun index =>
    block digest size password salt count (index + 1)).take length

variable {digest size password salt}

theorem blockByte_succ (count block place : ℕ) :
    blockByte digest password salt (count + 1) block place =
      blockByte digest password salt count block place ^^^
        (chained digest password salt block count).getD place 0 := by
  unfold blockByte
  rw [List.range_succ, List.map_append, List.foldl_append]
  rfl

theorem length_block (count number : ℕ) :
    (block digest size password salt count number).length = size := by
  rw [block, List.length_map, List.length_range]

/-- A key of the size of a digest is the first block. -/
theorem derive_size (hsize : 0 < size) (count : ℕ) :
    derive digest size password salt count size =
      block digest size password salt count 1 := by
  have hblocks : (size + size - 1) / size = 1 :=
    Nat.div_eq_of_lt_le (by omega) (by omega)
  rw [derive, hblocks, List.range_one, List.flatMap_singleton]
  exact List.take_of_length_le (Nat.le_of_eq (length_block count 1))

end SoulonWallet.Pbkdf2
