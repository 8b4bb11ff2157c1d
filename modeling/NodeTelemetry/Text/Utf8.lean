/-
This file reads bytes as UTF-8. Bytes that form no character do not stop the reading: each longest
run of bytes that could have begun a character, or else a single byte, stands for one unreadable
character, written `none`. `decode` keeps the unreadable characters apart from all readable ones,
and `decodeLossy` shows them as U+FFFD.
-/

namespace NodeTelemetry.Text.Utf8

/-- What the bytes read so far leave open: nothing, or a character that still lacks `missing`
bytes. The next of these must lie between `low` and `high`, and `value` holds the bits so far. -/
inductive Pending
  | nothing
  | character (missing : Nat) (low high : UInt8) (value : Nat)

/-- What a byte means where a character begins. The ranges for the second byte rule out long
forms, surrogates and numbers above U+10FFFF. -/
def lead (byte : UInt8) : Option Char × Pending :=
  if byte < 0x80 then (some (Char.ofNat byte.toNat), .nothing)
  else if byte < 0xC2 then (none, .nothing)
  else if byte < 0xE0 then (none, .character 1 0x80 0xBF (byte.toNat - 0xC0))
  else if byte = 0xE0 then (none, .character 2 0xA0 0xBF 0)
  else if byte = 0xED then (none, .character 2 0x80 0x9F 0xD)
  else if byte < 0xF0 then (none, .character 2 0x80 0xBF (byte.toNat - 0xE0))
  else if byte = 0xF0 then (none, .character 3 0x90 0xBF 0)
  else if byte < 0xF4 then (none, .character 3 0x80 0xBF (byte.toNat - 0xF0))
  else if byte = 0xF4 then (none, .character 3 0x80 0x8F 4)
  else (none, .nothing)

/-- Reads a byte where a character begins, in front of which `decoded` was read, latest first. -/
def begin (decoded : List (Option Char)) (byte : UInt8) : List (Option Char) × Pending :=
  match lead byte with
  | (character, .nothing) => (character :: decoded, .nothing)
  | (_, pending) => (decoded, pending)

/-- Reads one more byte. A byte that cannot continue the character at hand makes this character
unreadable and begins the next one. -/
def push (decoded : List (Option Char)) (pending : Pending) (byte : UInt8) :
    List (Option Char) × Pending :=
  match pending with
  | .nothing => begin decoded byte
  | .character missing low high value =>
    if low ≤ byte && byte ≤ high then
      let value := value * 64 + (byte.toNat - 0x80)
      if missing ≤ 1 then (some (Char.ofNat value) :: decoded, .nothing)
      else (decoded, .character (missing - 1) 0x80 0xBF value)
    else begin (none :: decoded) byte

/-- Reads all bytes that are left, after `decoded` was read, latest first. -/
def decodeFrom (decoded : List (Option Char)) (pending : Pending) :
    List UInt8 → List (Option Char)
  | [] =>
    match pending with
    | .nothing => decoded.reverse
    | .character .. => (none :: decoded).reverse
  | byte :: bytes =>
    let (decoded, pending) := push decoded pending byte
    decodeFrom decoded pending bytes

/-- The characters that bytes stand for, with `none` for each unreadable one. -/
def decode (bytes : List UInt8) : List (Option Char) :=
  decodeFrom [] .nothing bytes

/-- The text that bytes stand for, with U+FFFD for each unreadable character. -/
def decodeLossy (bytes : List UInt8) : String :=
  String.ofList ((decode bytes).map fun character => character.getD '\uFFFD')

/-- The bytes of a text. -/
def encode (text : String) : List UInt8 :=
  text.toUTF8.toList

end NodeTelemetry.Text.Utf8
