import Mathlib.Data.List.Basic
import MxExchange.Text.Buffer

/-!
# SHA-256

The hash function of the standard: a byte string is padded to blocks of 64
bytes, and each block is compressed into a state of eight words of 32 bits,
in 64 rounds. Words are numbers below `2 ^ 32`.
-/

namespace MxExchange.Text.Sha256

/-- Addition of words. -/
def add32 (x y : ℕ) : ℕ := (x + y) % 2 ^ 32

def rotateRight (x n : ℕ) : ℕ := (x >>> n ||| x <<< (32 - n)) % 2 ^ 32

/-- The first 32 bits of the fractional parts of the cube roots of the first
64 primes. -/
def roundConstants : List ℕ :=
  [0x428a2f98, 0x71374491, 0xb5c0fbcf, 0xe9b5dba5, 0x3956c25b, 0x59f111f1,
    0x923f82a4, 0xab1c5ed5, 0xd807aa98, 0x12835b01, 0x243185be, 0x550c7dc3,
    0x72be5d74, 0x80deb1fe, 0x9bdc06a7, 0xc19bf174, 0xe49b69c1, 0xefbe4786,
    0x0fc19dc6, 0x240ca1cc, 0x2de92c6f, 0x4a7484aa, 0x5cb0a9dc, 0x76f988da,
    0x983e5152, 0xa831c66d, 0xb00327c8, 0xbf597fc7, 0xc6e00bf3, 0xd5a79147,
    0x06ca6351, 0x14292967, 0x27b70a85, 0x2e1b2138, 0x4d2c6dfc, 0x53380d13,
    0x650a7354, 0x766a0abb, 0x81c2c92e, 0x92722c85, 0xa2bfe8a1, 0xa81a664b,
    0xc24b8b70, 0xc76c51a3, 0xd192e819, 0xd6990624, 0xf40e3585, 0x106aa070,
    0x19a4c116, 0x1e376c08, 0x2748774c, 0x34b0bcb5, 0x391c0cb3, 0x4ed8aa4a,
    0x5b9cca4f, 0x682e6ff3, 0x748f82ee, 0x78a5636f, 0x84c87814, 0x8cc70208,
    0x90befffa, 0xa4506ceb, 0xbef9a3f7, 0xc67178f2]

/-- The eight words of the state. -/
structure Hash where
  a : ℕ
  b : ℕ
  c : ℕ
  d : ℕ
  e : ℕ
  f : ℕ
  g : ℕ
  h : ℕ
  deriving DecidableEq

/-- The first 32 bits of the fractional parts of the square roots of the first
eight primes. -/
def initialHash : Hash :=
  ⟨0x6a09e667, 0xbb67ae85, 0x3c6ef372, 0xa54ff53a, 0x510e527f, 0x9b05688c, 0x1f83d9ab, 0x5be0cd19⟩

/-- Four bytes to a word, the highest first. -/
def wordsOfBytes : List Byte → List ℕ
  | w :: x :: y :: z :: bytes => (((w * 256 + x) * 256 + y) * 256 + z) :: wordsOfBytes bytes
  | _ => []

def bytesOfWord (x : ℕ) : List Byte :=
  [x / 2 ^ 24 % 256, x / 2 ^ 16 % 256, x / 2 ^ 8 % 256, x % 256]

/-- A bit, zeros, and the length in bits as eight bytes. -/
def pad (bytes : List Byte) : List Byte :=
  let length := 8 * bytes.length
  bytes ++ 0x80 :: List.replicate ((119 - bytes.length % 64) % 64) 0 ++
    (bytesOfWord (length / 2 ^ 32) ++ bytesOfWord length)

/-- The next word of the message schedule, from the words so far, the latest
first. -/
def nextWord (words : List ℕ) : ℕ :=
  let x := words.getD 14 0
  let y := words.getD 1 0
  let s₀ := rotateRight x 7 ^^^ rotateRight x 18 ^^^ x >>> 3
  let s₁ := rotateRight y 17 ^^^ rotateRight y 19 ^^^ y >>> 10
  (words.getD 15 0 + s₀ + words.getD 6 0 + s₁) % 2 ^ 32

/-- The 64 words of a block. -/
def schedule (block : List Byte) : List ℕ :=
  let words := (wordsOfBytes block).reverse
  ((List.range 48).foldl (fun words _ => nextWord words :: words) words).reverse

/-- One of the 64 rounds. -/
def round (s : Hash) (input : ℕ × ℕ) : Hash :=
  let s₁ := rotateRight s.e 6 ^^^ rotateRight s.e 11 ^^^ rotateRight s.e 25
  let ch := (s.e &&& s.f) ^^^ ((2 ^ 32 - 1 - s.e) &&& s.g)
  let t₁ := s.h + s₁ + ch + input.1 + input.2
  let s₀ := rotateRight s.a 2 ^^^ rotateRight s.a 13 ^^^ rotateRight s.a 22
  let maj := (s.a &&& s.b) ^^^ (s.a &&& s.c) ^^^ (s.b &&& s.c)
  { a := (t₁ + (s₀ + maj)) % 2 ^ 32
    b := s.a
    c := s.b
    d := s.c
    e := add32 s.d t₁
    f := s.e
    g := s.f
    h := s.g }

/-- The rounds over a block, added to what was before. -/
def compress (s : Hash) (block : List Byte) : Hash :=
  let r := (roundConstants.zip (schedule block)).foldl round s
  ⟨add32 s.a r.a, add32 s.b r.b, add32 s.c r.c, add32 s.d r.d, add32 s.e r.e, add32 s.f r.f,
    add32 s.g r.g, add32 s.h r.h⟩

/-- The blocks of the padded text. -/
def blocks : ℕ → List Byte → List (List Byte)
  | 0, _ => []
  | n + 1, bytes => bytes.take 64 :: blocks n (bytes.drop 64)

def Hash.bytes (s : Hash) : List Byte :=
  [s.a, s.b, s.c, s.d, s.e, s.f, s.g, s.h].flatMap bytesOfWord

end MxExchange.Text.Sha256

namespace MxExchange.Text

open Sha256 in
/-- The digest of a byte string. -/
def sha256 (bytes : List Byte) : List Byte :=
  let padded := pad bytes
  ((blocks (padded.length / 64) padded).foldl compress initialHash).bytes

theorem length_sha256 (bytes : List Byte) : (sha256 bytes).length = 32 := rfl

/-- The text `abc`. -/
example : bufferToHex (sha256 [0x61, 0x62, 0x63]) =
    "ba7816bf8f01cfea414140de5dae2223b00361a396177a9cb410ff61f20015ad".toList := by
  decide +kernel

end MxExchange.Text
