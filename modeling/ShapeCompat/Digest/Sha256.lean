import ShapeCompat.Digest.Words

/-!
The SHA-256 digest of a byte sequence.
-/

namespace ShapeCompat.Digest.Sha256

def roundConstants : List UInt32 :=
  [0x428a2f98, 0x71374491, 0xb5c0fbcf, 0xe9b5dba5, 0x3956c25b, 0x59f111f1, 0x923f82a4, 0xab1c5ed5,
    0xd807aa98, 0x12835b01, 0x243185be, 0x550c7dc3, 0x72be5d74, 0x80deb1fe, 0x9bdc06a7, 0xc19bf174,
    0xe49b69c1, 0xefbe4786, 0x0fc19dc6, 0x240ca1cc, 0x2de92c6f, 0x4a7484aa, 0x5cb0a9dc, 0x76f988da,
    0x983e5152, 0xa831c66d, 0xb00327c8, 0xbf597fc7, 0xc6e00bf3, 0xd5a79147, 0x06ca6351, 0x14292967,
    0x27b70a85, 0x2e1b2138, 0x4d2c6dfc, 0x53380d13, 0x650a7354, 0x766a0abb, 0x81c2c92e, 0x92722c85,
    0xa2bfe8a1, 0xa81a664b, 0xc24b8b70, 0xc76c51a3, 0xd192e819, 0xd6990624, 0xf40e3585, 0x106aa070,
    0x19a4c116, 0x1e376c08, 0x2748774c, 0x34b0bcb5, 0x391c0cb3, 0x4ed8aa4a, 0x5b9cca4f, 0x682e6ff3,
    0x748f82ee, 0x78a5636f, 0x84c87814, 0x8cc70208, 0x90befffa, 0xa4506ceb, 0xbef9a3f7, 0xc67178f2]

structure State where
  a : UInt32
  b : UInt32
  c : UInt32
  d : UInt32
  e : UInt32
  f : UInt32
  g : UInt32
  h : UInt32

def initial : State :=
  ⟨0x6a09e667, 0xbb67ae85, 0x3c6ef372, 0xa54ff53a, 0x510e527f, 0x9b05688c, 0x1f83d9ab, 0x5be0cd19⟩

/-- The round words still to come, oldest first: the sixteen words of the window, each next one
computed from the window, `count` words in all. -/
def schedule : Nat → List UInt32 → List UInt32
  | 0, _ => []
  | count + 1, window =>
      match window with
      | [] => []
      | oldest :: rest =>
          let word (index : Nat) := window.getD index 0
          let early := word 1
          let late := word 14
          let sigma0 := rotateRight early 7 ^^^ rotateRight early 18 ^^^ (early >>> 3)
          let sigma1 := rotateRight late 17 ^^^ rotateRight late 19 ^^^ (late >>> 10)
          oldest :: schedule count (rest ++ [oldest + sigma0 + word 9 + sigma1])

def round (state : State) (input : UInt32 × UInt32) : State :=
  let sum1 := rotateRight state.e 6 ^^^ rotateRight state.e 11 ^^^ rotateRight state.e 25
  let chosen := (state.e &&& state.f) ^^^ (~~~state.e &&& state.g)
  let first := state.h + sum1 + chosen + input.1 + input.2
  let sum0 := rotateRight state.a 2 ^^^ rotateRight state.a 13 ^^^ rotateRight state.a 22
  let majority := (state.a &&& state.b) ^^^ (state.a &&& state.c) ^^^ (state.b &&& state.c)
  ⟨first + (sum0 + majority), state.a, state.b, state.c, state.d + first, state.e, state.f,
    state.g⟩

def compress (state : State) (block : List UInt32) : State :=
  let final := (roundConstants.zip (schedule 64 block)).foldl round state
  ⟨state.a + final.a, state.b + final.b, state.c + final.c, state.d + final.d,
    state.e + final.e, state.f + final.f, state.g + final.g, state.h + final.h⟩

def digest (message : List UInt8) : List UInt8 :=
  let input := words (padded message)
  let final := foldBlocks compress (input.length / 16) initial input
  [final.a, final.b, final.c, final.d, final.e, final.f, final.g, final.h].flatMap wordBytes

/-- The digest of a text's UTF-8 bytes, in 64 hexadecimal digits. -/
def hexOfText (text : String) : String :=
  String.ofList (hexChars (digest text.toUTF8.data.toList))

end ShapeCompat.Digest.Sha256
