import Mathlib.Algebra.Group.Nat.Defs
import Mathlib.Tactic.Common

/-! SHA-256, on lists of bytes. -/

namespace AgreementIntelligence.Lib.Sha256

abbrev Word := BitVec 32

/-- The fractional parts of the cube roots of the first 64 primes. -/
def roundConstants : List Word :=
  [0x428a2f98, 0x71374491, 0xb5c0fbcf, 0xe9b5dba5, 0x3956c25b, 0x59f111f1,
    0x923f82a4, 0xab1c5ed5, 0xd807aa98, 0x12835b01, 0x243185be, 0x550c7dc3,
    0x72be5d74, 0x80deb1fe, 0x9bdc06a7, 0xc19bf174, 0xe49b69c1, 0xefbe4786,
    0x0fc19dc6, 0x240ca1cc, 0x2de92c6f, 0x4a7484aa, 0x5cb0a9dc, 0x76f988da,
    0x983e5152, 0xa831c66d, 0xb00327c8, 0xbf597fc7, 0xc6e00bf3, 0xd5a79147,
    0x06ca6351, 0x14292967, 0x27b70a85, 0x2e1b2138, 0x4d2c6dfc, 0x53380d13,
    0x650a7354, 0x766a0abb, 0x81c2c92e, 0x92722c85, 0xa2bfe8a1, 0xa81a664b,
    0xc24b8b70, 0xc76c51a3, 0xd192e819, 0xd6990624, 0xf40e3585, 0x106aa070,
    0x19a4c116, 0x1e376c08, 0x2748774c, 0x34b0bcb5, 0x391c0cb3, 0x4ed8aa4a,
    0x5b9cca4f, 0x682e6ff3, 0x748f82ee, 0x78a5636f, 0x84c87814, 0x8cc70208,
    0x90befffa, 0xa4506ceb, 0xbef9a3f7, 0xc67178f2]

structure Chain where
  a : Word
  b : Word
  c : Word
  d : Word
  e : Word
  f : Word
  g : Word
  h : Word

/-- The fractional parts of the square roots of the first eight primes. -/
def initialChain : Chain :=
  ⟨0x6a09e667, 0xbb67ae85, 0x3c6ef372, 0xa54ff53a,
    0x510e527f, 0x9b05688c, 0x1f83d9ab, 0x5be0cd19⟩

/-- The words of the schedule, the latest first, extended by so many. -/
def extendSchedule : Nat → List Word → List Word
  | 0, schedule => schedule
  | n + 1, schedule =>
    let old := schedule.getD 14 0
    let recent := schedule.getD 1 0
    let small0 := old.rotateRight 7 ^^^ old.rotateRight 18 ^^^ (old >>> 3)
    let small1 := recent.rotateRight 17 ^^^ recent.rotateRight 19 ^^^ (recent >>> 10)
    extendSchedule n
      ((schedule.getD 15 0 + small0 + schedule.getD 6 0 + small1) :: schedule)

def round (s : Chain) (constant word : Word) : Chain :=
  let big1 := s.e.rotateRight 6 ^^^ s.e.rotateRight 11 ^^^ s.e.rotateRight 25
  let choice := (s.e &&& s.f) ^^^ (~~~s.e &&& s.g)
  let first := s.h + big1 + choice + constant + word
  let big0 := s.a.rotateRight 2 ^^^ s.a.rotateRight 13 ^^^ s.a.rotateRight 22
  let majority := (s.a &&& s.b) ^^^ (s.a &&& s.c) ^^^ (s.b &&& s.c)
  ⟨first + (big0 + majority), s.a, s.b, s.c, s.d + first, s.e, s.f, s.g⟩

def compress (chain : Chain) (block : List Word) : Chain :=
  let schedule := (extendSchedule 48 block.reverse).reverse
  let s := (roundConstants.zip schedule).foldl (fun s item => round s item.1 item.2) chain
  ⟨chain.a + s.a, chain.b + s.b, chain.c + s.c, chain.d + s.d, chain.e + s.e, chain.f + s.f,
    chain.g + s.g, chain.h + s.h⟩

/-- The message, a one bit, zeros up to whole blocks, and the length in bits. -/
def pad (message : List UInt8) : List UInt8 :=
  let zeros := (119 - message.length % 64) % 64
  let bits := message.length * 8
  message ++ 0x80 :: List.replicate zeros 0 ++
    [7, 6, 5, 4, 3, 2, 1, 0].map fun place => UInt8.ofNat (bits / 256 ^ place)

/-- The words of bytes in fours, the highest byte first. -/
def toWords : List UInt8 → List Word
  | a :: b :: c :: d :: rest =>
    BitVec.ofNat 32 (((a.toNat * 256 + b.toNat) * 256 + c.toNat) * 256 + d.toNat) :: toWords rest
  | _ => []

def compressAll : Nat → Chain → List Word → Chain
  | 0, chain, _ => chain
  | blocks + 1, chain, message =>
    compressAll blocks (compress chain (message.take 16)) (message.drop 16)

def hexDigits (digits n : Nat) : List Char :=
  (List.range digits).reverse.map fun place => "0123456789abcdef".toList.getD (n / 16 ^ place % 16) '0'

/-- `hashlib.sha256(message).hexdigest()` -/
def hexdigest (message : List UInt8) : String :=
  let padded := toWords (pad message)
  let s := compressAll (padded.length / 16) initialChain padded
  String.ofList ([s.a, s.b, s.c, s.d, s.e, s.f, s.g, s.h].flatMap fun word => hexDigits 8 word.toNat)

/-- `text.encode()` -/
def utf8 (text : String) : List UInt8 :=
  text.toList.flatMap String.utf8EncodeChar

example : hexdigest (utf8 "abc") =
    "ba7816bf8f01cfea414140de5dae2223b00361a396177a9cb410ff61f20015ad" := by
  decide +kernel

end AgreementIntelligence.Lib.Sha256
