/-
This file writes a text between double quotes so that it can be told apart from every other text
in a message of one line: what cannot be seen is spelled out.
-/

import NodeTelemetry.Text.Shown

namespace NodeTelemetry.Text

/-- The number in base sixteen, in lower case. -/
def hex (number : Nat) : List Char :=
  Nat.toDigits 16 number

/-- A character as it stands inside a quotation. -/
def quotedCharacter (character : Char) : List Char :=
  match character with
  | '\x00' => ['\\', '0']
  | '\t' => ['\\', 't']
  | '\n' => ['\\', 'n']
  | '\r' => ['\\', 'r']
  | '"' => ['\\', '"']
  | '\\' => ['\\', '\\']
  | _ =>
    if isShown character then [character]
    else ['\\', 'u', '{'] ++ hex character.toNat ++ ['}']

/-- A text as a quotation. -/
def quoted (text : String) : String :=
  String.ofList ('"' :: text.toList.flatMap quotedCharacter ++ ['"'])

end NodeTelemetry.Text
