/-
This file says how a text may be written as a string, from the side of the writer: each character by
itself, as an escape of two characters, as the number of its one unit or as the numbers of the two
units that encode it. Whatever way is taken, the text is read again. And it says what a string may
be wrong with: a control character, an escape that is none, and half of a pair of units without the
other half. A string with any of these is refused, whatever follows it.

The two sides leave no gap. The inside of any string is a list of tokens, and what stands at its
front is one of three things: nothing, a character that is written in one of the four ways, or a
token with a fault, at which reading stops. `Front` says so for every list of tokens. With it either
direction is an induction on the number of tokens: a list with a fault is refused, since the
characters before the fault are taken one after the other, and a list without any is the writing of
some text.
-/

import NodeTelemetry.Proofs.Json.Answers

namespace NodeTelemetry.Json

/-! ### Units -/

/-- Whether a character is the digit of a value below sixteen, in either case. -/
def IsHexDigit (value : Nat) (character : Char) : Prop :=
  "0123456789abcdef".toList[value]? = some character ∨
    "0123456789ABCDEF".toList[value]? = some character

instance (value : Nat) (character : Char) : Decidable (IsHexDigit value character) :=
  inferInstanceAs (Decidable (_ ∨ _))

/-- Whether four digits write the number of a unit. -/
def WritesUnit (unit : Nat) (digits : List Char) : Prop :=
  List.Forall₂ IsHexDigit
    [unit / 0x1000, unit / 0x100 % 0x10, unit / 0x10 % 0x10, unit % 0x10] digits

/-- Whether a unit is the first half of a pair. -/
def IsLeading (unit : Nat) : Prop :=
  0xD800 ≤ unit ∧ unit < 0xDC00

/-- Whether a unit is the second half of a pair. -/
def IsTrailing (unit : Nat) : Prop :=
  0xDC00 ≤ unit ∧ unit < 0xE000

section

variable {character : Char} {value unit : Nat} {digits : List Char}

theorem IsHexDigit.lt (isDigit : IsHexDigit value character) : value < 16 := by
  rcases isDigit with lower | upper
  · exact (List.getElem?_eq_some_iff.mp lower).1
  · exact (List.getElem?_eq_some_iff.mp upper).1

/-- The digits are read by their values. -/
theorem hexDigit?_of_isHexDigit (isDigit : IsHexDigit value character) :
    hexDigit? character = some value := by
  have lower : ∀ value < 16, "0123456789abcdef".toList[value]?.bind hexDigit? = some value := by
    decide
  have upper : ∀ value < 16, "0123456789ABCDEF".toList[value]?.bind hexDigit? = some value := by
    decide
  rcases isDigit with found | found
  · have read := lower value (IsHexDigit.lt (.inl found))
    rwa [found] at read
  · have read := upper value (IsHexDigit.lt (.inr found))
    rwa [found] at read

set_option maxRecDepth 4000 in
/-- No other characters are read as digits. -/
theorem isHexDigit_of_hexDigit? (found : hexDigit? character = some value) :
    IsHexDigit value character := by
  have upToLast : ∀ number < 103, ∀ value ∈ hexDigit? (Char.ofNat number),
      IsHexDigit value (Char.ofNat number) := by
    decide
  have small : character.toNat < 103 := by
    by_contra large
    have beyond (last : Char) (small : last.toNat < 103) : ¬character ≤ last :=
      fun notAbove => large (Nat.lt_of_le_of_lt notAbove small)
    rw [hexDigit?, decide_eq_false (beyond '9' (by decide)), decide_eq_false (beyond 'f' (by decide)),
      decide_eq_false (beyond 'F' (by decide))] at found
    simp at found
  rw [← Char.ofNat_toNat character] at found ⊢
  exact upToLast _ small _ found

theorem isHex_of_writesUnit (writes : WritesUnit unit digits) : IsHex digits unit := by
  obtain _ | ⟨ofFirst, _ | ⟨ofSecond, _ | ⟨ofThird, _ | ⟨ofFourth, _ | _⟩⟩⟩⟩ := writes
  have isHex := IsHex.four (hexDigit?_of_isHexDigit ofFirst) (hexDigit?_of_isHexDigit ofSecond)
    (hexDigit?_of_isHexDigit ofThird) (hexDigit?_of_isHexDigit ofFourth)
  rwa [show ((unit / 0x1000 * 16 + unit / 0x100 % 0x10) * 16 + unit / 0x10 % 0x10) * 16 +
    unit % 0x10 = unit by omega] at isHex

/-- Four digits that are read write their number. -/
theorem writesUnit_of_isHex (isHex : IsHex digits unit) : WritesUnit unit digits := by
  obtain @⟨_, _, _, _, a, b, c, d, ofFirst, ofSecond, ofThird, ofFourth⟩ := isHex
  have first := isHexDigit_of_hexDigit? ofFirst
  have second := isHexDigit_of_hexDigit? ofSecond
  have third := isHexDigit_of_hexDigit? ofThird
  have fourth := isHexDigit_of_hexDigit? ofFourth
  have bounds := And.intro second.lt (And.intro third.lt fourth.lt)
  unfold WritesUnit
  rw [show (((a * 16 + b) * 16 + c) * 16 + d) / 0x1000 = a by omega,
    show (((a * 16 + b) * 16 + c) * 16 + d) / 0x100 % 0x10 = b by omega,
    show (((a * 16 + b) * 16 + c) * 16 + d) / 0x10 % 0x10 = c by omega,
    show (((a * 16 + b) * 16 + c) * 16 + d) % 0x10 = d by omega]
  exact .cons first (.cons second (.cons third (.cons fourth .nil)))

theorem isLeadingSurrogate_iff : isLeadingSurrogate unit = true ↔ IsLeading unit := by
  simp [isLeadingSurrogate, IsLeading]

theorem isTrailingSurrogate_iff : isTrailingSurrogate unit = true ↔ IsTrailing unit := by
  simp [isTrailingSurrogate, IsTrailing]

end

/-! ### Texts as they are written -/

/-- The escapes of two characters: what stands behind the backslash, and for which character. -/
def shortEscapes : List (Char × Char) :=
  [('"', '"'), ('\\', '\\'), ('/', '/'), ('b', '\x08'), ('f', '\x0c'), ('n', '\n'), ('r', '\r'),
    ('t', '\t')]

/-- The ways to write a character in a string. -/
inductive WritesCharacter (character : Char) : List Char → Prop
  | plain (isPlain : IsPlain character) : WritesCharacter character [character]
  | short {letter : Char} (escape : (letter, character) ∈ shortEscapes) :
      WritesCharacter character ['\\', letter]
  | unit {digits : List Char} (writes : WritesUnit character.toNat digits) :
      WritesCharacter character ('\\' :: 'u' :: digits)
  | pair {digits digitsToo : List Char} (beyond : 0x10000 ≤ character.toNat)
      (leading : WritesUnit (0xD800 + (character.toNat - 0x10000) / 0x400) digits)
      (trailing : WritesUnit (0xDC00 + (character.toNat - 0x10000) % 0x400) digitsToo) :
      WritesCharacter character ('\\' :: 'u' :: (digits ++ '\\' :: 'u' :: digitsToo))

/-- Whether a string denotes a text: character by character, each in one of the ways to write it. -/
def Denotes (literal : List Char) (text : String) : Prop :=
  ∃ parts, List.Forall₂ WritesCharacter text.toList parts ∧
    literal = '"' :: (parts.flatten ++ ['"'])

section

variable {letter character : Char}

/-- The escapes that are read are those of the table. -/
theorem shortEscape?_eq_some_iff :
    shortEscape? letter = some character ↔ (letter, character) ∈ shortEscapes := by
  constructor
  · intro escape
    unfold shortEscape? at escape
    split at escape
    all_goals cases escape
    all_goals decide
  · intro member
    simp only [shortEscapes, List.mem_cons, Prod.mk.injEq, List.not_mem_nil, or_false] at member
    rcases member with ⟨rfl, rfl⟩ | ⟨rfl, rfl⟩ | ⟨rfl, rfl⟩ | ⟨rfl, rfl⟩ | ⟨rfl, rfl⟩ |
      ⟨rfl, rfl⟩ | ⟨rfl, rfl⟩ | ⟨rfl, rfl⟩
    all_goals rfl

/-- Characters are no halves of pairs. -/
theorem toNat_valid (character : Char) : character.toNat < 0xD800 ∨
    0xE000 ≤ character.toNat ∧ character.toNat < 0x110000 :=
  character.valid.imp_right fun ⟨above, below⟩ => ⟨above, below⟩

/-- A character in any of the ways to write it may stand in front of a spelling. -/
theorem spells_of_writesCharacter {part raw characters : List Char}
    (writes : WritesCharacter character part) (others : Spells raw characters) :
    Spells (part ++ raw) (character :: characters) := by
  have valid := toNat_valid character
  cases writes with
  | plain isPlain => exact .plain isPlain others
  | short escape => exact .short (shortEscape?_eq_some_iff.mpr escape) others
  | unit writes =>
    have notLeading : isLeadingSurrogate character.toNat = false := by
      rw [Bool.eq_false_iff, ne_eq, isLeadingSurrogate_iff, IsLeading]
      omega
    have notTrailing : isTrailingSurrogate character.toNat = false := by
      rw [Bool.eq_false_iff, ne_eq, isTrailingSurrogate_iff, IsTrailing]
      omega
    have spells := Spells.unit (isHex_of_writesUnit writes) notLeading notTrailing others
    rwa [Char.ofNat_toNat] at spells
  | @pair digits digitsToo beyond leading trailing =>
    have isLeading : IsLeading (0xD800 + (character.toNat - 0x10000) / 0x400) := by
      unfold IsLeading
      omega
    have isTrailing : IsTrailing (0xDC00 + (character.toNat - 0x10000) % 0x400) := by
      unfold IsTrailing
      omega
    have spells := Spells.pair (isHex_of_writesUnit leading) (isLeadingSurrogate_iff.mpr isLeading)
      (isHex_of_writesUnit trailing) (isTrailingSurrogate_iff.mpr isTrailing) others
    rw [show 0x10000 + (0xD800 + (character.toNat - 0x10000) / 0x400 - 0xD800) * 0x400 +
      (0xDC00 + (character.toNat - 0x10000) % 0x400 - 0xDC00) = character.toNat by omega,
      Char.ofNat_toNat] at spells
    simpa only [List.cons_append, List.append_assoc] using spells

/-- A character is taken in whatever way it is written. -/
theorem textFrom_writesCharacter {part : List Char} (writes : WritesCharacter character part)
    (taken : List (Option Char)) (rest : Input) :
    textFrom taken (part.map some ++ rest) = textFrom (some character :: taken) rest := by
  have spells := spells_of_writesCharacter writes .nil
  rw [List.append_nil] at spells
  exact textFrom_append_of_spells spells taken rest

/-- A string that denotes a text is read as this text. -/
theorem isText_of_denotes {literal : List Char} {text : String} (denotes : Denotes literal text) :
    IsText literal text := by
  obtain ⟨parts, written, rfl⟩ := denotes
  refine ⟨parts.flatten, rfl, ?_⟩
  generalize text.toList = characters at written ⊢
  induction written with
  | nil => exact .nil
  | cons writes _ inductionHypothesis => exact spells_of_writesCharacter writes inductionHypothesis

end

/-! ### Strings that denote nothing -/

/-- What the inside of a string is made of. -/
inductive Token
  | character (character : Char)
  /-- A backslash and the character behind it. -/
  | escape (letter : Char)
  | unit (unit : Nat)

/-- The tokens of the inside of a string. A quote or a backslash stands behind a backslash only, and
the letter `u` behind it begins a unit if it can. -/
inductive Lexes : List Token → List Char → Prop
  | nil : Lexes [] []
  | character {character : Char} {tokens : List Token} {raw : List Char}
      (notQuote : character ≠ '"') (notBackslash : character ≠ '\\') (others : Lexes tokens raw) :
      Lexes (.character character :: tokens) (character :: raw)
  | escape {letter : Char} {tokens : List Token} {raw : List Char}
      (noUnit : letter = 'u' → ∀ unit digits behind, raw = digits ++ behind → ¬WritesUnit unit digits)
      (others : Lexes tokens raw) : Lexes (.escape letter :: tokens) ('\\' :: letter :: raw)
  | unit {unit : Nat} {digits : List Char} {tokens : List Token} {raw : List Char}
      (writes : WritesUnit unit digits) (others : Lexes tokens raw) :
      Lexes (.unit unit :: tokens) ('\\' :: 'u' :: (digits ++ raw))

/-- Whether a text is a string, be it one that denotes something or not. -/
def IsLiteral (tokens : List Token) (literal : List Char) : Prop :=
  ∃ inside, Lexes tokens inside ∧ literal = '"' :: (inside ++ ['"'])

/-- What may be wrong with a token between those before and behind it: it is a control character, an
escape that does not exist, or half of a pair of units without the other half. -/
inductive IsFault (before : List Token) : Token → List Token → Prop
  | control {character : Char} {behind : List Token} (isControl : character.toNat < 0x20) :
      IsFault before (.character character) behind
  | unknown {letter : Char} {behind : List Token}
      (unknown : ∀ character, (letter, character) ∉ shortEscapes) :
      IsFault before (.escape letter) behind
  | leading {unit : Nat} {behind : List Token} (isLeading : IsLeading unit)
      (unpaired : ∀ next others, behind = .unit next :: others → ¬IsTrailing next) :
      IsFault before (.unit unit) behind
  | trailing {unit : Nat} {behind : List Token} (isTrailing : IsTrailing unit)
      (unpaired : ∀ others last, before = others ++ [.unit last] → ¬IsLeading last) :
      IsFault before (.unit unit) behind

/-- Whether something is wrong with one of some tokens. -/
def Faulty (tokens : List Token) : Prop :=
  ∃ before token behind, tokens = before ++ token :: behind ∧ IsFault before token behind

section

variable {tokens : List Token} {raw : List Char} {taken : List (Option Char)}

/-- Whether something is wrong with one of some tokens behind others. -/
def FaultyBehind (earlier tokens : List Token) : Prop :=
  ∃ before token behind, tokens = before ++ token :: behind ∧
    IsFault (earlier ++ before) token behind

theorem not_faultyBehind_nil (earlier : List Token) : ¬FaultyBehind earlier [] := by
  rintro ⟨before, token, behind, same, _⟩
  exact List.append_ne_nil_of_right_ne_nil before (List.cons_ne_nil token behind) same.symm

/-- If nothing is wrong with the first token, something is with one behind it. -/
theorem FaultyBehind.behind {earlier : List Token} {token : Token}
    (faulty : FaultyBehind earlier (token :: tokens)) (noFault : ¬IsFault earlier token tokens) :
    FaultyBehind (earlier ++ [token]) tokens := by
  obtain ⟨_ | ⟨first, before⟩, other, behind, same, isFault⟩ := faulty
  · cases same
    rw [List.append_nil] at isFault
    exact absurd isFault noFault
  · cases same
    rw [List.append_cons] at isFault
    exact ⟨before, other, behind, rfl, isFault⟩

/-- A control character is refused where it stands. -/
theorem textFrom_control {character : Char} (isControl : character.toNat < 0x20) (rest : Input) :
    textFrom taken (some character :: rest) = .error .malformed := by
  have notQuote : character ≠ '"' := by
    rintro rfl
    exact absurd isControl (by decide)
  have notBackslash : character ≠ '\\' := by
    rintro rfl
    exact absurd isControl (by decide)
  have refused : NodeTelemetry.Json.isControl (some character) = true := decide_eq_true isControl
  rw [textFrom, refused, if_pos rfl] <;> simp [notQuote, notBackslash]

theorem textFrom_escape_error {input : Input} {fault : Fault}
    (escape : takeEscape input = .error fault) :
    textFrom taken (some '\\' :: input) = .error fault := by
  rw [textFrom, escape]

/-- Four digits that are taken off the inside of a string stand there, since a quote is no digit. -/
theorem exists_digits_of_takeFourDigits {unit : Nat} {rest remaining : Input}
    (digits : takeFourDigits (raw.map some ++ some '"' :: rest) = .ok (unit, remaining)) :
    ∃ digits behind, raw = digits ++ behind ∧ WritesUnit unit digits := by
  unfold takeFourDigits at digits
  split at digits
  · next first second third fourth others same =>
    split at digits
    · next a b c d ofFirst ofSecond ofThird ofFourth =>
      cases digits
      obtain _ | ⟨_, _ | ⟨_, _ | ⟨_, _ | ⟨_, behind⟩⟩⟩⟩ := raw
      · cases same
        cases ofFirst
      · cases same
        cases ofSecond
      · cases same
        cases ofThird
      · cases same
        cases ofFourth
      · cases same
        exact ⟨_, behind, rfl, writesUnit_of_isHex (.four ofFirst ofSecond ofThird ofFourth)⟩
    · cases digits
  · split at digits <;> cases digits

theorem takeFourDigits_error
    (noUnit : ∀ unit digits behind, raw = digits ++ behind → ¬WritesUnit unit digits)
    (rest : Input) : ∃ fault, takeFourDigits (raw.map some ++ some '"' :: rest) = .error fault := by
  cases read : takeFourDigits (raw.map some ++ some '"' :: rest) with
  | error fault => exact ⟨fault, rfl⟩
  | ok result =>
    obtain ⟨digits, behind, same, writes⟩ := exists_digits_of_takeFourDigits read
    exact absurd writes (noUnit _ _ _ same)

/-- An escape that is not in the table and is no unit is refused. -/
theorem takeEscape_unknown {letter : Char}
    (unknown : ∀ character, (letter, character) ∉ shortEscapes)
    (noUnit : letter = 'u' → ∀ unit digits behind, raw = digits ++ behind → ¬WritesUnit unit digits)
    (rest : Input) :
    ∃ fault, takeEscape (some letter :: (raw.map some ++ some '"' :: rest)) = .error fault := by
  by_cases isUnit : letter = 'u'
  · obtain ⟨fault, read⟩ := takeFourDigits_error (noUnit isUnit) rest
    exact ⟨fault, by simp [takeEscape, isUnit, read]⟩
  · have none : shortEscape? letter = none :=
      Option.eq_none_iff_forall_ne_some.mpr fun character escape =>
        unknown character (shortEscape?_eq_some_iff.mp escape)
    exact ⟨.malformed, by simp [takeEscape, none]⟩

/-- A trailing half that comes first is refused. -/
theorem takeEscape_trailing {unit : Nat} {digits : List Char} (writes : WritesUnit unit digits)
    (isTrailing : IsTrailing unit) (rest : Input) :
    takeEscape (some 'u' :: (digits.map some ++ rest)) = .error .malformed := by
  simp [takeEscape, takeFourDigits_of_isHex (isHex_of_writesUnit writes),
    isTrailingSurrogate_iff.mpr isTrailing]

/-- A leading half is refused if no trailing half follows. -/
theorem takeTrailing_unpaired {leading : Nat} (lexes : Lexes tokens raw)
    (unpaired : ∀ next others, tokens = .unit next :: others → ¬IsTrailing next) (rest : Input) :
    ∃ fault, takeTrailing leading (raw.map some ++ some '"' :: rest) = .error fault := by
  cases lexes with
  | nil => exact ⟨.malformed, by simp [takeTrailing, stopAt]⟩
  | character notQuote notBackslash =>
    exact ⟨.malformed, by simp [takeTrailing, stopAt, notBackslash]⟩
  | @escape letter tokens raw noUnit =>
    by_cases isUnit : letter = 'u'
    · obtain ⟨fault, read⟩ := takeFourDigits_error (noUnit isUnit) rest
      exact ⟨fault, by simp [takeTrailing, isUnit, read]⟩
    · exact ⟨.malformed, by simp [takeTrailing, stopAt, isUnit]⟩
  | @unit next digits tokens raw writes =>
    have notTrailing : isTrailingSurrogate next = false := by
      rw [Bool.eq_false_iff, ne_eq, isTrailingSurrogate_iff]
      exact unpaired next tokens rfl
    exact ⟨.malformed, by simp [takeTrailing, takeFourDigits_of_isHex (isHex_of_writesUnit writes),
      notTrailing]⟩

theorem takeEscape_leading {unit : Nat} {digits : List Char} {input : Input}
    (writes : WritesUnit unit digits) (isLeading : IsLeading unit) :
    takeEscape (some 'u' :: (digits.map some ++ input)) = takeTrailing unit input := by
  have leading := isLeadingSurrogate_iff.mpr isLeading
  simp [takeEscape, takeFourDigits_of_isHex (isHex_of_writesUnit writes), leading,
    not_isTrailingSurrogate leading]

theorem not_isTrailing {unit : Nat} (isLeading : IsLeading unit) : ¬IsTrailing unit :=
  fun isTrailing => Nat.not_le.mpr isLeading.2 isTrailing.1

/-- Nothing is wrong with either half of a pair. -/
theorem FaultyBehind.behind_pair {earlier : List Token} {leading trailing : Nat}
    (isLeading : IsLeading leading) (isTrailing : IsTrailing trailing)
    (faulty : FaultyBehind earlier (.unit leading :: .unit trailing :: tokens)) :
    FaultyBehind (earlier ++ [.unit leading, .unit trailing]) tokens := by
  have behind : FaultyBehind (earlier ++ [.unit leading] ++ [.unit trailing]) tokens := by
    refine (faulty.behind fun isFault => ?_).behind fun isFault => ?_
    · cases isFault with
      | leading _ unpaired => exact unpaired trailing tokens rfl isTrailing
      | trailing also => exact not_isTrailing isLeading also
    · cases isFault with
      | leading also => exact not_isTrailing also isTrailing
      | trailing _ unpaired => exact unpaired earlier leading rfl isLeading
  rwa [List.append_assoc] at behind

/-- Whether tokens end with half of a pair that waits for the other half. -/
def Pending (tokens : List Token) : Prop :=
  ∃ others unit, tokens = others ++ [.unit unit] ∧ IsLeading unit

/-- What stands at the front of the inside of a string: nothing, a character in one of the ways to
write it, or a token that is wrong. -/
inductive Front : List Token → List Char → Prop
  | ended : Front [] []
  | written {character : Char} {part left : List Char} {front others : List Token}
      (writes : WritesCharacter character part) (lexes : Lexes others left)
      (nonempty : 0 < front.length)
      (behind : ∀ earlier, FaultyBehind earlier (front ++ others) →
        FaultyBehind (earlier ++ front) others)
      (settled : ∀ earlier, ¬Pending (earlier ++ front)) :
      Front (front ++ others) (part ++ left)
  | wrong {tokens : List Token} {raw : List Char}
      (faulty : ∀ earlier, ¬Pending earlier → FaultyBehind earlier tokens)
      (refused : ∀ taken rest, ∃ fault,
        textFrom taken (raw.map some ++ some '"' :: rest) = .error fault) :
      Front tokens raw

theorem not_pending_concat {token : Token} (complete : ∀ unit, token = .unit unit → ¬IsLeading unit)
    (earlier : List Token) : ¬Pending (earlier ++ [token]) := by
  rintro ⟨others, unit, same, isLeading⟩
  exact complete unit (List.singleton_inj.mp (List.append_inj' same rfl).2) isLeading

theorem FaultyBehind.of_isFault {earlier : List Token} {token : Token}
    (isFault : IsFault earlier token tokens) : FaultyBehind earlier (token :: tokens) :=
  ⟨[], token, tokens, rfl, by rwa [List.append_nil]⟩

theorem exists_toNat_eq {number : Nat}
    (valid : number < 0xD800 ∨ 0xE000 ≤ number ∧ number < 0x110000) :
    ∃ character : Char, character.toNat = number :=
  ⟨Char.ofNatAux number (valid.imp_right fun ⟨above, below⟩ => ⟨above, below⟩), rfl⟩

theorem WritesUnit.lt {unit : Nat} {digits : List Char} (writes : WritesUnit unit digits) :
    unit < 0x10000 := by
  obtain _ | ⟨ofFirst, _⟩ := writes
  have small := ofFirst.lt
  omega

/-- Two units that are a pair write one character. -/
theorem exists_writesCharacter_pair {leading trailing : Nat} {digits digitsToo : List Char}
    (isLeading : IsLeading leading) (isTrailing : IsTrailing trailing)
    (writes : WritesUnit leading digits) (writesToo : WritesUnit trailing digitsToo) :
    ∃ character, WritesCharacter character ('\\' :: 'u' :: (digits ++ '\\' :: 'u' :: digitsToo)) := by
  unfold IsLeading at isLeading
  unfold IsTrailing at isTrailing
  obtain ⟨character, same⟩ :
      ∃ character : Char, character.toNat =
        0x10000 + (leading - 0xD800) * 0x400 + (trailing - 0xDC00) :=
    exists_toNat_eq (by omega)
  refine ⟨character, .pair (by omega) ?_ ?_⟩
  · rwa [show 0xD800 + (character.toNat - 0x10000) / 0x400 = leading by omega]
  · rwa [show 0xDC00 + (character.toNat - 0x10000) % 0x400 = trailing by omega]

/-- A unit is a character of its own, half of a pair that is complete, or wrong. -/
theorem front_of_unit {unit : Nat} {digits : List Char} (writes : WritesUnit unit digits)
    (lexes : Lexes tokens raw) :
    Front (.unit unit :: tokens) ('\\' :: 'u' :: (digits ++ raw)) := by
  by_cases isTrailing : IsTrailing unit
  · -- The first half of the pair would have taken this unit with it.
    refine .wrong (fun earlier settled => .of_isFault (.trailing isTrailing fun others last same
      isLeading => settled ⟨others, last, same, isLeading⟩)) fun taken rest => ⟨.malformed, ?_⟩
    simp only [List.map_cons, List.map_append, List.cons_append, List.append_assoc]
    exact textFrom_escape_error (takeEscape_trailing writes isTrailing _)
  by_cases isLeading : IsLeading unit
  · by_cases paired : ∃ next others, tokens = .unit next :: others ∧ IsTrailing next
    · obtain ⟨next, others, rfl, isTrailing⟩ := paired
      obtain _ | _ | _ | ⟨writesNext, others⟩ := lexes
      obtain ⟨character, writesBoth⟩ :=
        exists_writesCharacter_pair isLeading isTrailing writes writesNext
      have settled (earlier : List Token) : ¬Pending (earlier ++ [.unit unit, .unit next]) := by
        rw [List.append_cons]
        refine not_pending_concat ?_ _
        rintro _ ⟨⟩ also
        exact not_isTrailing also isTrailing
      have front : Front ([.unit unit, .unit next] ++ _) _ := .written writesBoth others Nat.two_pos
        (fun _ faulty => faulty.behind_pair isLeading isTrailing) settled
      simpa only [List.cons_append, List.append_assoc, List.nil_append] using front
    · have unpaired : ∀ next others, tokens = .unit next :: others → ¬IsTrailing next :=
        fun next others same also => paired ⟨next, others, same, also⟩
      refine .wrong (fun _ _ => .of_isFault (.leading isLeading unpaired)) fun taken rest => ?_
      obtain ⟨fault, refused⟩ := takeTrailing_unpaired lexes unpaired rest
      simp only [List.map_cons, List.map_append, List.cons_append, List.append_assoc]
      exact ⟨fault, textFrom_escape_error ((takeEscape_leading writes isLeading).trans refused)⟩
  · -- The unit is no half of a pair, so it is a character by itself.
    obtain ⟨character, rfl⟩ : ∃ character : Char, character.toNat = unit := by
      have few := writes.lt
      unfold IsLeading at isLeading
      unfold IsTrailing at isTrailing
      exact exists_toNat_eq (by omega)
    show Front ([.unit character.toNat] ++ tokens) (('\\' :: 'u' :: digits) ++ raw)
    refine .written (.unit writes) lexes Nat.one_pos
      (fun earlier faulty => faulty.behind ?_) (not_pending_concat ?_)
    · rintro (_ | _ | also | also)
      · exact isLeading also
      · exact isTrailing also
    · rintro _ ⟨⟩
      exact isLeading

/-- What stands at the front of the inside of a string is one of three things. -/
theorem front_of_lexes (lexes : Lexes tokens raw) : Front tokens raw := by
  cases lexes with
  | nil => exact .ended
  | @character character tokens raw notQuote notBackslash others =>
    by_cases isControl : character.toNat < 0x20
    · exact .wrong (fun _ _ => .of_isFault (.control isControl))
        fun _ _ => ⟨_, textFrom_control isControl _⟩
    · show Front ([.character character] ++ tokens) ([character] ++ raw)
      refine .written (.plain ⟨Nat.not_lt.mp isControl, notQuote, notBackslash⟩) others Nat.one_pos
        (fun earlier faulty => faulty.behind ?_) (not_pending_concat ?_)
      · rintro ⟨also⟩
        exact isControl also
      · intro unit same
        cases same
  | @escape letter tokens raw noUnit others =>
    by_cases known : ∃ character, (letter, character) ∈ shortEscapes
    · obtain ⟨character, escape⟩ := known
      show Front ([.escape letter] ++ tokens) (['\\', letter] ++ raw)
      refine .written (.short escape) others Nat.one_pos
        (fun earlier faulty => faulty.behind ?_) (not_pending_concat ?_)
      · rintro ⟨⟩
        next unknown => exact unknown character escape
      · intro unit same
        cases same
    · refine .wrong (fun _ _ => .of_isFault (.unknown (not_exists.mp known))) fun taken rest => ?_
      obtain ⟨fault, refused⟩ := takeEscape_unknown (not_exists.mp known) noUnit rest
      exact ⟨fault, textFrom_escape_error refused⟩
  | unit writes others => exact front_of_unit writes others

/-- Tokens with a fault are refused. The characters before the fault are taken one after the other.
-/
theorem textFrom_of_faultyBehind {earlier : List Token} (lexes : Lexes tokens raw)
    (faulty : FaultyBehind earlier tokens) (taken : List (Option Char)) (rest : Input) :
    ∃ fault, textFrom taken (raw.map some ++ some '"' :: rest) = .error fault := by
  induction length : tokens.length using Nat.strong_induction_on
    generalizing earlier tokens raw taken with
  | _ length inductionHypothesis =>
    subst length
    cases front_of_lexes lexes with
    | ended => exact absurd faulty (not_faultyBehind_nil earlier)
    | wrong _ refused => exact refused taken rest
    | written writes further nonempty behind _ =>
      rw [List.map_append, List.append_assoc, textFrom_writesCharacter writes]
      refine inductionHypothesis _ ?_ further (behind earlier faulty) _ rfl
      rw [List.length_append]
      exact Nat.lt_add_of_pos_left nonempty

/-- Tokens without a fault write some characters. -/
theorem exists_writes_of_not_faultyBehind {earlier : List Token} (lexes : Lexes tokens raw)
    (settled : ¬Pending earlier) (sound : ¬FaultyBehind earlier tokens) :
    ∃ characters parts, List.Forall₂ WritesCharacter characters parts ∧ raw = parts.flatten := by
  induction length : tokens.length using Nat.strong_induction_on
    generalizing earlier tokens raw with
  | _ length inductionHypothesis =>
    subst length
    cases front_of_lexes lexes with
    | ended => exact ⟨[], [], .nil, rfl⟩
    | wrong faulty _ => exact absurd (faulty earlier settled) sound
    | @written character part left front others writes further nonempty _ settledToo =>
      have fewer : others.length < (front ++ others).length := by
        rw [List.length_append]
        exact Nat.lt_add_of_pos_left nonempty
      have soundToo : ¬FaultyBehind (earlier ++ front) others := by
        rintro ⟨before, token, behind, rfl, isFault⟩
        refine sound ⟨front ++ before, token, behind, (List.append_assoc _ _ _).symm, ?_⟩
        rwa [← List.append_assoc]
      obtain ⟨characters, parts, written, rfl⟩ :=
        inductionHypothesis _ fewer further (settledToo earlier) soundToo rfl
      exact ⟨character :: characters, part :: parts, .cons writes written, rfl⟩

theorem textFrom_of_faulty (lexes : Lexes tokens raw) (faulty : Faulty tokens)
    (taken : List (Option Char)) (rest : Input) :
    ∃ fault, textFrom taken (raw.map some ++ some '"' :: rest) = .error fault :=
  textFrom_of_faultyBehind lexes (show FaultyBehind [] tokens from faulty) taken rest

/-- A string in which nothing is wrong denotes a text. -/
theorem exists_denotes_of_not_faulty {literal : List Char} (isLiteral : IsLiteral tokens literal)
    (sound : ¬Faulty tokens) : ∃ text, Denotes literal text := by
  obtain ⟨inside, lexes, rfl⟩ := isLiteral
  have settled : ¬Pending [] := by
    rintro ⟨others, unit, same, _⟩
    exact List.append_ne_nil_of_right_ne_nil others (List.cons_ne_nil _ []) same.symm
  obtain ⟨characters, parts, written, rfl⟩ := exists_writes_of_not_faultyBehind lexes settled
    (show ¬FaultyBehind [] tokens from sound)
  refine ⟨String.ofList characters, parts, ?_, rfl⟩
  rwa [String.toList_ofList]

end

end NodeTelemetry.Json
