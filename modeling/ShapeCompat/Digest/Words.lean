/-!
What the hash functions of this library share: messages padded to whole blocks, blocks cut into
big-endian 32-bit words, and results written as lower-case hexadecimal digits.
-/

namespace ShapeCompat.Digest

def wordBytes (word : UInt32) : List UInt8 :=
  [(word >>> 24).toUInt8, (word >>> 16).toUInt8, (word >>> 8).toUInt8, word.toUInt8]

def wordOf (first second third fourth : UInt8) : UInt32 :=
  (first.toUInt32 <<< 24) ||| (second.toUInt32 <<< 16) ||| (third.toUInt32 <<< 8) |||
    fourth.toUInt32

/-- The big-endian words of whole groups of four bytes. -/
def words : List UInt8 → List UInt32
  | first :: second :: third :: fourth :: rest => wordOf first second third fourth :: words rest
  | _ => []

def rotateLeft (word : UInt32) (count : UInt32) : UInt32 :=
  (word <<< count) ||| (word >>> (32 - count))

def rotateRight (word : UInt32) (count : UInt32) : UInt32 :=
  (word >>> count) ||| (word <<< (32 - count))

/-- The length in bits, as eight big-endian bytes. -/
def lengthBytes (byteCount : Nat) : List UInt8 :=
  let bits := 8 * byteCount
  wordBytes (.ofNat (bits / UInt32.size)) ++ wordBytes (.ofNat bits)

/-- One set bit, zeros up to eight bytes before a whole number of 64-byte blocks, the length. -/
def padded (message : List UInt8) : List UInt8 :=
  let zeros := (119 - message.length % 64) % 64
  message ++ 0x80 :: List.replicate zeros 0 ++ lengthBytes message.length

/-- Folds `step` over the 16-word blocks of a padded message. -/
def foldBlocks {State : Type} (step : State → List UInt32 → State) :
    Nat → State → List UInt32 → State
  | 0, state, _ => state
  | count + 1, state, rest => foldBlocks step count (step state (rest.take 16)) (rest.drop 16)

def hexDigit (value : UInt8) : Char :=
  if value < 10 then Char.ofNat (48 + value.toNat) else Char.ofNat (87 + value.toNat)

def hexChars (bytes : List UInt8) : List Char :=
  bytes.flatMap fun (byte : UInt8) => [hexDigit (byte >>> 4), hexDigit (byte &&& 15)]

end ShapeCompat.Digest
