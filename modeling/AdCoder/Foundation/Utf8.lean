import AdCoder.Foundation.Regex
import Mathlib.Algebra.Group.Nat.Defs

/-!
# Text and its bytes

`TextDecoder` reads every sequence of bytes: what is not UTF-8 becomes U+FFFD,
and one mark at the very start is dropped.
-/

namespace AdCoder.Foundation

namespace Utf8

def replacement : Char := Char.ofNat 0xfffd

/-- The rest of a character after its first byte, with the bounds of the next byte. A byte out of
bounds belongs to the next character. -/
def readTail : Nat → Nat → Nat → Nat → List Nat → Char × List Nat
  | 0, _, _, point, rest => (Char.ofNat point, rest)
  | _ + 1, _, _, _, [] => (replacement, [])
  | needed + 1, lower, upper, point, byte :: rest =>
      if lower ≤ byte ∧ byte ≤ upper then
        readTail needed 0x80 0xbf (point * 64 + (byte - 0x80)) rest
      else (replacement, byte :: rest)

/-- One character that starts with a byte that is not ASCII. -/
def readWide (byte : Nat) (rest : List Nat) : Char × List Nat :=
  if 0xc2 ≤ byte ∧ byte ≤ 0xdf then readTail 1 0x80 0xbf (byte - 0xc0) rest
  else if byte = 0xe0 then readTail 2 0xa0 0xbf 0 rest
  else if byte = 0xed then readTail 2 0x80 0x9f 0xd rest
  else if 0xe1 ≤ byte ∧ byte ≤ 0xef then readTail 2 0x80 0xbf (byte - 0xe0) rest
  else if byte = 0xf0 then readTail 3 0x90 0xbf 0 rest
  else if byte = 0xf4 then readTail 3 0x80 0x8f 4 rest
  else if 0xf1 ≤ byte ∧ byte ≤ 0xf3 then readTail 3 0x80 0xbf (byte - 0xf0) rest
  else (replacement, rest)

/-- Bytes read with replacements. Every round consumes a byte. -/
def readLossy : Nat → List Nat → List Char
  | 0, _ => []
  | _ + 1, [] => []
  | fuel + 1, byte :: rest =>
      if byte < 0x80 then Char.ofNat byte :: readLossy fuel rest
      else
        let (x, rest) := readWide byte rest
        x :: readLossy fuel rest

def dropMark : List Char → List Char
  | [] => []
  | x :: rest => if x.toNat = 0xfeff then rest else x :: rest

end Utf8

/-- `new TextDecoder().decode(bytes)`. -/
def decodeText (bytes : ByteArray) : List Char :=
  Utf8.dropMark (match bytes.utf8Decode? with
    | some text => text.toList
    | none => Utf8.readLossy bytes.size (bytes.data.toList.map UInt8.toNat))

/-- The bytes in which a text is written. -/
def encodeText (text : List Char) : ByteArray := (String.ofList text).toByteArray

theorem decodeText_encodeText (text : List Char) :
    decodeText (encodeText text) = Utf8.dropMark text := by
  simp [decodeText, encodeText]

end AdCoder.Foundation
