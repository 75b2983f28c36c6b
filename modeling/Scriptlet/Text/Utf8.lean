import Scriptlet.Text.Quoted

/-!
# UTF-8

`decode` reads bytes as UTF-8. The first byte of a character determines how many bytes follow and
in which range each of them lies, so that there is one way to write each character and none to
write a surrogate. Decoding ends at the first byte that does not fit.
-/

namespace Scriptlet.Text.Utf8

/-- What can be wrong with a sequence of bytes. -/
inductive Reason where
  | invalidStart
  | invalidContinuation
  | unexpectedEnd
  deriving DecidableEq, Repr

/-- Bytes that are no character: the first of them, its position, and how many there are. -/
structure Fault where
  reason : Reason
  first : UInt8
  position : Nat
  length : Nat
  deriving DecidableEq, Repr

/-- How the reason of a fault is worded. -/
def Reason.text : Reason → String
  | invalidStart => "invalid start byte"
  | invalidContinuation => "invalid continuation byte"
  | unexpectedEnd => "unexpected end of data"

/-- The message of a fault. -/
def Fault.message (fault : Fault) : String :=
  let place :=
    if fault.length = 1 then
      "byte 0x" ++ String.ofList (hex 2 fault.first.toNat) ++ " in position " ++
        toString fault.position
    else
      "bytes in position " ++ toString fault.position ++ "-" ++
        toString (fault.position + fault.length - 1)
  "'utf-8' codec can't decode " ++ place ++ ": " ++ fault.reason.text

/-- A character of which some bytes have been read. -/
structure Partial where
  first : UInt8
  /-- The number that the bytes read so far stand for. -/
  code : Nat
  /-- How many bytes have been read. -/
  read : Nat
  /-- The range of the next byte. -/
  next : Nat × Nat
  /-- The ranges of the bytes after it. -/
  later : List (Nat × Nat)

/-- The range of a byte that goes on with a character, unless its first byte says otherwise. -/
def continuation : Nat × Nat := (0x80, 0xbf)

/-- A character of several bytes, begun with its first byte. -/
def begin? (first : UInt8) : Option Partial :=
  let byte := first.toNat
  let start (offset : Nat) (next : Nat × Nat) (more : Nat) : Option Partial :=
    some {
      first := first
      code := byte - offset
      read := 1
      next := next
      later := List.replicate more continuation }
  if byte < 0xc2 then none
  else if byte < 0xe0 then start 0xc0 continuation 0
  else if byte = 0xe0 then start 0xe0 (0xa0, 0xbf) 1
  else if byte = 0xed then start 0xe0 (0x80, 0x9f) 1
  else if byte < 0xf0 then start 0xe0 continuation 1
  else if byte = 0xf0 then start 0xf0 (0x90, 0xbf) 2
  else if byte < 0xf4 then start 0xf0 continuation 2
  else if byte = 0xf4 then start 0xf0 (0x80, 0x8f) 2
  else none

/--
Puts the characters of bytes after those already found. The first byte is at `position`, and goes
on with a character if one is begun.
-/
def decodeOnto (found : List Char) : Nat → Option Partial → List UInt8 → Except Fault (List Char)
  | _, none, [] => .ok found.reverse
  | position, some begun, [] =>
    .error ⟨.unexpectedEnd, begun.first, position - begun.read, begun.read⟩
  | position, none, byte :: rest =>
    if byte.toNat < 0x80 then
      decodeOnto (Char.ofNat byte.toNat :: found) (position + 1) none rest
    else
      match begin? byte with
      | some begun => decodeOnto found (position + 1) (some begun) rest
      | none => .error ⟨.invalidStart, byte, position, 1⟩
  | position, some begun, byte :: rest =>
    if begun.next.1 ≤ byte.toNat ∧ byte.toNat ≤ begun.next.2 then
      let code := begun.code * 0x40 + (byte.toNat - 0x80)
      match begun.later with
      | [] => decodeOnto (Char.ofNat code :: found) (position + 1) none rest
      | next :: later =>
        let begun :=
          { begun with code := code, read := begun.read + 1, next := next, later := later }
        decodeOnto found (position + 1) (some begun) rest
    else
      .error ⟨.invalidContinuation, begun.first, position - begun.read, begun.read⟩

/-- The characters that bytes stand for. -/
def decode (bytes : List UInt8) : Except Fault (List Char) :=
  decodeOnto [] 0 none bytes

end Scriptlet.Text.Utf8
