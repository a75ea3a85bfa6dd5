import ShapeCompat.Digest.Words

/-!
Identifiers derived from a name: the version 5 form, in which the SHA-1 digest of a namespace and a
name fills 128 bits around the version and variant marks.
-/

namespace ShapeCompat.Digest.NameId

structure State where
  a : UInt32
  b : UInt32
  c : UInt32
  d : UInt32
  e : UInt32

def initial : State := ⟨0x67452301, 0xefcdab89, 0x98badcfe, 0x10325476, 0xc3d2e1f0⟩

/-- The round words still to come, oldest first, `count` words in all. -/
def schedule : Nat → List UInt32 → List UInt32
  | 0, _ => []
  | count + 1, window =>
      match window with
      | [] => []
      | oldest :: rest =>
          let word (index : Nat) := window.getD index 0
          oldest :: schedule count
            (rest ++ [rotateLeft (word 13 ^^^ word 8 ^^^ word 2 ^^^ oldest) 1])

def round (state : State) (input : Nat × UInt32) : State :=
  let (mixed, constant) :=
    if input.1 < 20 then ((state.b &&& state.c) ||| (~~~state.b &&& state.d), 0x5a827999)
    else if input.1 < 40 then (state.b ^^^ state.c ^^^ state.d, 0x6ed9eba1)
    else if input.1 < 60 then
      ((state.b &&& state.c) ||| (state.b &&& state.d) ||| (state.c &&& state.d), 0x8f1bbcdc)
    else (state.b ^^^ state.c ^^^ state.d, 0xca62c1d6)
  ⟨rotateLeft state.a 5 + mixed + state.e + constant + input.2, state.a, rotateLeft state.b 30,
    state.c, state.d⟩

def compress (state : State) (block : List UInt32) : State :=
  let final := ((List.range 80).zip (schedule 80 block)).foldl round state
  ⟨state.a + final.a, state.b + final.b, state.c + final.c, state.d + final.d, state.e + final.e⟩

def sha1 (message : List UInt8) : List UInt8 :=
  let input := words (padded message)
  let final := foldBlocks compress (input.length / 16) initial input
  [final.a, final.b, final.c, final.d, final.e].flatMap wordBytes

/-- The sixteen identifier bytes: version 5 in the upper half of the seventh, the variant in the
upper two bits of the ninth. -/
def bytes (space : List UInt8) (name : String) : List UInt8 :=
  let digest := (sha1 (space ++ name.toUTF8.data.toList)).take 16
  let marked := digest.modify 6 fun byte => (byte &&& 0x0F) ||| 0x50
  marked.modify 8 fun byte => (byte &&& 0x3F) ||| 0x80

/-- The usual text: groups of eight, four, four, four and twelve digits. -/
def text (identifier : List UInt8) : String :=
  let digits := hexChars identifier
  let group (start count : Nat) := String.ofList ((digits.drop start).take count)
  String.intercalate "-" [group 0 8, group 8 4, group 12 4, group 16 4, group 20 12]

end ShapeCompat.Digest.NameId
