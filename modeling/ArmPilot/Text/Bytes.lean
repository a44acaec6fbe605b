/-!
# Texts as bytes

A text is stored as bytes, and bytes can be read as a text again.  What is no character is read as the replacement
character, which stands for the longest beginning of a character that there is, or else for a single byte.
-/

namespace ArmPilot
namespace Text

/-- The bytes of a text. -/
def bytesOf (s : String) : List UInt8 := s.toUTF8.data.toList

/-- The character that stands for bytes that are none. -/
def replacement : Char := '\ufffd'

/-- A character of which some bytes are read: its number so far, how many bytes are missing, and the bounds of the next
one. -/
structure Opened where
  number : Nat
  missing : Nat
  low : Nat
  high : Nat

/-- The character that a byte begins, if it needs more bytes. -/
def opened? (b : Nat) : Option Opened :=
  if b < 0xc2 then none
  else if b < 0xe0 then some ⟨b - 0xc0, 1, 0x80, 0xbf⟩
  else if b < 0xf0 then
    some ⟨b - 0xe0, 2, if b = 0xe0 then 0xa0 else 0x80, if b = 0xed then 0x9f else 0xbf⟩
  else if b < 0xf5 then
    some ⟨b - 0xf0, 3, if b = 0xf0 then 0x90 else 0x80, if b = 0xf4 then 0x8f else 0xbf⟩
  else none

/-- The characters of bytes, of which the first may go on with a character. -/
def charsFrom : Option Opened → List UInt8 → List Char
  | none, [] => []
  | some _, [] => [replacement]
  | o, byte :: rest =>
    let b := byte.toNat
    match o.filter fun o => o.low ≤ b && b ≤ o.high with
    | some o =>
      let number := o.number * 64 + (b - 0x80)
      if o.missing ≤ 1 then Char.ofNat number :: charsFrom none rest
      else charsFrom (some ⟨number, o.missing - 1, 0x80, 0xbf⟩) rest
    | none =>
      let broken := if o.isSome then [replacement] else []
      broken ++
        if b < 0x80 then Char.ofNat b :: charsFrom none rest
        else match opened? b with
          | some o => charsFrom (some o) rest
          | none => replacement :: charsFrom none rest

/-- Bytes read as a text. -/
def ofBytes (bs : List UInt8) : String := String.ofList (charsFrom none bs)

/-- An ASCII byte is a character of its own. -/
theorem charsFrom_ascii (b : UInt8) (rest : List UInt8) (h : b.toNat < 0x80) :
    charsFrom none (b :: rest) = Char.ofNat b.toNat :: charsFrom none rest := by
  simp [charsFrom, h]

example : charsFrom none [0xe6, 0x9c, 0x9d, 0xf0, 0x9f, 0x98, 0x80, 0x61] = ['朝', '😀', 'a'] := by decide
example : charsFrom none [0xed, 0xa0, 0xf0, 0x9f, 0xc3] =
    [replacement, replacement, replacement, replacement] := by decide

end Text
end ArmPilot
