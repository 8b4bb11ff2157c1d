/-
This file reads the strings of JSON. `textFrom` decodes a string and `passText` only looks for its
end: passing over a string, an escape must be well formed but may name half of a surrogate pair, and
unreadable characters do no harm.
-/

import NodeTelemetry.Json.Reader

namespace NodeTelemetry.Json

/-! ### Escapes -/

def hexDigit? (character : Char) : Option Nat :=
  if '0' ≤ character && character ≤ '9' then some (character.toNat - '0'.toNat)
  else if 'a' ≤ character && character ≤ 'f' then some (character.toNat - 'a'.toNat + 10)
  else if 'A' ≤ character && character ≤ 'F' then some (character.toNat - 'A'.toNat + 10)
  else none

/-- How many bytes of UTF-8 an input has at least. -/
def byteCount (input : Input) : Nat :=
  input.foldl (fun count character => count + (character.map Char.utf8Size).getD 1) 0

/-- Takes four hexadecimal digits. Only an input with fewer than four bytes left is unfinished. -/
def takeFourDigits (input : Input) : Except Fault (Nat × Input) :=
  match input with
  | some first :: some second :: some third :: some fourth :: rest =>
    match hexDigit? first, hexDigit? second, hexDigit? third, hexDigit? fourth with
    | some a, some b, some c, some d => .ok (((a * 16 + b) * 16 + c) * 16 + d, rest)
    | _, _, _, _ => .error .malformed
  | _ => if byteCount (input.take 4) < 4 then .error .unfinished else .error .malformed

theorem length_lt_of_takeFourDigits {input rest : Input} {number : Nat}
    (taken : takeFourDigits input = .ok (number, rest)) : rest.length < input.length := by
  unfold takeFourDigits at taken
  split at taken
  · split at taken
    · simp only [Except.ok.injEq, Prod.mk.injEq] at taken
      simp only [← taken.2, List.length_cons]
      omega
    · cases taken
  · split at taken <;> cases taken

/-- The character that a letter behind a backslash stands for. -/
def shortEscape? : Char → Option Char
  | '"' => some '"'
  | '\\' => some '\\'
  | '/' => some '/'
  | 'b' => some '\x08'
  | 'f' => some '\x0c'
  | 'n' => some '\n'
  | 'r' => some '\r'
  | 't' => some '\t'
  | _ => none

def isLeadingSurrogate (unit : Nat) : Bool :=
  0xD800 ≤ unit && unit < 0xDC00

def isTrailingSurrogate (unit : Nat) : Bool :=
  0xDC00 ≤ unit && unit < 0xE000

/-- Takes the escape that must follow a leading surrogate, and gives the character of the pair. -/
def takeTrailing (leading : Nat) (input : Input) : Except Fault (Char × Input) :=
  match input with
  | some '\\' :: some 'u' :: rest =>
    match takeFourDigits rest with
    | .error fault => .error fault
    | .ok (trailing, rest) =>
      if isTrailingSurrogate trailing then
        .ok (Char.ofNat (0x10000 + (leading - 0xD800) * 0x400 + (trailing - 0xDC00)), rest)
      else .error .malformed
  | some '\\' :: rest => .error (stopAt rest)
  | _ => .error (stopAt input)

theorem length_lt_of_takeTrailing {leading : Nat} {input rest : Input} {character : Char}
    (taken : takeTrailing leading input = .ok (character, rest)) :
    rest.length < input.length := by
  unfold takeTrailing at taken
  split at taken
  · split at taken
    · cases taken
    · next digits =>
      split at taken
      · simp only [Except.ok.injEq, Prod.mk.injEq] at taken
        have shorter := length_lt_of_takeFourDigits digits
        simp only [← taken.2, List.length_cons]
        omega
      · cases taken
  · cases taken
  · cases taken

/-- Takes what follows a backslash and gives the character it stands for. -/
def takeEscape (input : Input) : Except Fault (Char × Input) :=
  match input with
  | some 'u' :: rest =>
    match takeFourDigits rest with
    | .error fault => .error fault
    | .ok (unit, rest) =>
      if isTrailingSurrogate unit then .error .malformed
      else if isLeadingSurrogate unit then takeTrailing unit rest
      else .ok (Char.ofNat unit, rest)
  | some letter :: rest =>
    match shortEscape? letter with
    | some character => .ok (character, rest)
    | none => .error .malformed
  | _ => .error (stopAt input)

theorem length_lt_of_takeEscape {input rest : Input} {character : Char}
    (taken : takeEscape input = .ok (character, rest)) : rest.length < input.length := by
  unfold takeEscape at taken
  split at taken
  · split at taken
    · cases taken
    · next digits =>
      have shorter := length_lt_of_takeFourDigits digits
      split at taken
      · cases taken
      · split at taken
        · have pair := length_lt_of_takeTrailing taken
          simp only [List.length_cons]
          omega
        · simp only [Except.ok.injEq, Prod.mk.injEq] at taken
          simp only [← taken.2, List.length_cons]
          omega
  · split at taken
    · simp only [Except.ok.injEq, Prod.mk.injEq] at taken
      simp [← taken.2]
    · cases taken
  · cases taken

/-- Passes over what follows a backslash. -/
def passEscape (input : Input) : Except Fault Input :=
  match input with
  | some 'u' :: rest =>
    match takeFourDigits rest with
    | .error fault => .error fault
    | .ok (_, rest) => .ok rest
  | some letter :: rest =>
    match shortEscape? letter with
    | some _ => .ok rest
    | none => .error .malformed
  | _ => .error (stopAt input)

theorem length_lt_of_passEscape {input rest : Input} (passed : passEscape input = .ok rest) :
    rest.length < input.length := by
  unfold passEscape at passed
  split at passed
  · split at passed
    · cases passed
    · next digits =>
      have shorter := length_lt_of_takeFourDigits digits
      simp only [Except.ok.injEq] at passed
      simp only [← passed, List.length_cons]
      omega
  · split at passed
    · simp only [Except.ok.injEq] at passed
      simp [← passed]
    · cases passed
  · cases passed

/-! ### Strings -/

/-- Control characters stand in a string only as escapes. -/
def isControl : Option Char → Bool
  | some character => character.toNat < 0x20
  | none => false

/-- Ends a string whose characters are given, the latest first. None of them may be unreadable. -/
def closeText (taken : List (Option Char)) (rest : Input) : Except Fault (String × Input) :=
  match taken.reverse.mapM id with
  | some characters => .ok (String.ofList characters, rest)
  | none => .error .malformed

theorem length_of_closeText {taken : List (Option Char)} {rest remaining : Input} {text : String}
    (success : closeText taken rest = .ok (text, remaining)) : remaining.length = rest.length := by
  unfold closeText at success
  split at success
  · simp only [Except.ok.injEq, Prod.mk.injEq] at success
    rw [success.2]
  · cases success

/-- Decodes a string up to its closing quote. The characters taken so far are given, the latest
first. -/
def textFrom (taken : List (Option Char)) (input : Input) : Except Fault (String × Input) :=
  match input with
  | [] => .error .unfinished
  | some '"' :: rest => closeText taken rest
  | some '\\' :: rest =>
    match _escape : takeEscape rest with
    | .error fault => .error fault
    | .ok (character, rest) => textFrom (some character :: taken) rest
  | character :: rest =>
    if isControl character then .error .malformed else textFrom (character :: taken) rest
termination_by input.length
decreasing_by
  · have shorter := length_lt_of_takeEscape _escape
    simp only [List.length_cons]
    omega
  · simp

theorem length_lt_of_textFrom {taken : List (Option Char)} {input rest : Input} {text : String}
    (success : textFrom taken input = .ok (text, rest)) : rest.length < input.length := by
  fun_induction textFrom taken input with
  | case1 => cases success
  | case2 =>
    have same := length_of_closeText success
    simp only [List.length_cons]
    omega
  | case3 => cases success
  | case4 taken rest character remaining escape inductionHypothesis =>
    have shorter := length_lt_of_takeEscape escape
    have further := inductionHypothesis success
    simp only [List.length_cons]
    omega
  | case5 => cases success
  | case6 taken character rest _ _ _ inductionHypothesis =>
    have further := inductionHypothesis success
    simp only [List.length_cons]
    omega

/-- Passes over a string up to its closing quote. -/
def passText (input : Input) : Except Fault Input :=
  match input with
  | [] => .error .unfinished
  | some '"' :: rest => .ok rest
  | some '\\' :: rest =>
    match _escape : passEscape rest with
    | .error fault => .error fault
    | .ok rest => passText rest
  | character :: rest =>
    if isControl character then .error .malformed else passText rest
termination_by input.length
decreasing_by
  · have shorter := length_lt_of_passEscape _escape
    simp only [List.length_cons]
    omega
  · simp

theorem length_lt_of_passText {input rest : Input} (success : passText input = .ok rest) :
    rest.length < input.length := by
  fun_induction passText input with
  | case1 => cases success
  | case2 =>
    simp only [Except.ok.injEq] at success
    simp [← success]
  | case3 => cases success
  | case4 rest remaining escape inductionHypothesis =>
    have shorter := length_lt_of_passEscape escape
    have further := inductionHypothesis success
    simp only [List.length_cons]
    omega
  | case5 => cases success
  | case6 character rest _ _ _ inductionHypothesis =>
    have further := inductionHypothesis success
    simp only [List.length_cons]
    omega

end NodeTelemetry.Json
