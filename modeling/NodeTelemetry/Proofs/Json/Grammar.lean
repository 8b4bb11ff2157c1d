/-
This file says what is written in JSON, without saying how it is read. Texts are lists of
characters. `Spells` is the inside of a string that stands for some characters, `IsNumeral` a
number, and `Forms` any value at all, of which only the form matters. Objects and lists with given
members and elements are `IsObject` and `IsList`: gaps may stand anywhere between the tokens, and
keys may be spelled with any escapes.

Nothing here refers to a reader, so what is proved about readers with these definitions says how
they treat whatever is written in JSON and not only what they happen to accept. The values of
members are kept as texts, and what a text means is a relation that is chosen where it is used. So
one and the same grammar serves for all kinds of records.

There are two relations for the inside of a string. One gives the characters for which it stands,
and the other one allows escapes that stand for nothing, half of a surrogate pair, since such a
string may be passed over although it cannot be decoded.
-/

import Mathlib.Data.List.Forall2
import NodeTelemetry.Json.Numeral
import NodeTelemetry.Json.Skip
import NodeTelemetry.Json.Text

namespace NodeTelemetry.Json

/-- Whether a text may stand between tokens. -/
def IsGap (raw : List Char) : Prop :=
  ∀ character ∈ raw, character ∈ [' ', '\t', '\n', '\r']

instance (raw : List Char) : Decidable (IsGap raw) :=
  List.decidableBAll (· ∈ [' ', '\t', '\n', '\r']) raw

/-! ### Strings -/

/-- Four hexadecimal digits and the number they write. -/
inductive IsHex : List Char → Nat → Prop
  | four {first second third fourth : Char} {a b c d : Nat} (ofFirst : hexDigit? first = some a)
      (ofSecond : hexDigit? second = some b) (ofThird : hexDigit? third = some c)
      (ofFourth : hexDigit? fourth = some d) :
      IsHex [first, second, third, fourth] (((a * 16 + b) * 16 + c) * 16 + d)

/-- Whether a character may stand in a string for itself. -/
def IsPlain (character : Char) : Prop :=
  0x20 ≤ character.toNat ∧ character ≠ '"' ∧ character ≠ '\\'

instance (character : Char) : Decidable (IsPlain character) :=
  inferInstanceAs (Decidable (0x20 ≤ character.toNat ∧ character ≠ '"' ∧ character ≠ '\\'))

/-- The inside of a string and the characters it stands for. -/
inductive Spells : List Char → List Char → Prop
  | nil : Spells [] []
  | plain {character : Char} {raw characters : List Char} (isPlain : IsPlain character)
      (others : Spells raw characters) : Spells (character :: raw) (character :: characters)
  | short {letter character : Char} {raw characters : List Char}
      (escape : shortEscape? letter = some character) (others : Spells raw characters) :
      Spells ('\\' :: letter :: raw) (character :: characters)
  | unit {digits raw characters : List Char} {unit : Nat} (isHex : IsHex digits unit)
      (notLeading : isLeadingSurrogate unit = false)
      (notTrailing : isTrailingSurrogate unit = false) (others : Spells raw characters) :
      Spells ('\\' :: 'u' :: (digits ++ raw)) (Char.ofNat unit :: characters)
  | pair {digits digitsToo raw characters : List Char} {leading trailing : Nat}
      (isHex : IsHex digits leading) (isLeading : isLeadingSurrogate leading = true)
      (isHexToo : IsHex digitsToo trailing) (isTrailing : isTrailingSurrogate trailing = true)
      (others : Spells raw characters) :
      Spells ('\\' :: 'u' :: (digits ++ '\\' :: 'u' :: (digitsToo ++ raw)))
        (Char.ofNat (0x10000 + (leading - 0xD800) * 0x400 + (trailing - 0xDC00)) :: characters)

/-- The inside of a string of which only the form matters: escapes may name half of a surrogate
pair. -/
inductive IsLoose : List Char → Prop
  | nil : IsLoose []
  | plain {character : Char} {raw : List Char} (isPlain : IsPlain character)
      (others : IsLoose raw) : IsLoose (character :: raw)
  | short {letter character : Char} {raw : List Char}
      (escape : shortEscape? letter = some character) (others : IsLoose raw) :
      IsLoose ('\\' :: letter :: raw)
  | unit {digits raw : List Char} {unit : Nat} (isHex : IsHex digits unit)
      (others : IsLoose raw) : IsLoose ('\\' :: 'u' :: (digits ++ raw))

/-- A string and the text it stands for. -/
def IsText (raw : List Char) (text : String) : Prop :=
  ∃ inside, raw = '"' :: (inside ++ ['"']) ∧ Spells inside text.toList

/-! ### Numbers -/

/-- One digit or more, and their values. -/
def IsDigits (raw : List Char) (digits : List Nat) : Prop :=
  raw ≠ [] ∧ (∀ character ∈ raw, isDigit (some character) = true) ∧
    digits = raw.map fun character => character.toNat - '0'.toNat

/-- The part of a number from the point on, if there is one. -/
inductive IsFraction : List Char → List Nat → Prop
  | absent : IsFraction [] []
  | present {raw : List Char} {digits : List Nat} (isDigits : IsDigits raw digits) :
      IsFraction ('.' :: raw) digits

/-- The sign of an exponent, `true` for a negative one. -/
inductive IsSign : List Char → Bool → Prop
  | absent : IsSign [] false
  | plus : IsSign ['+'] false
  | minus : IsSign ['-'] true

/-- The exponent of a number, if there is one. -/
inductive IsExponent : List Char → Option (Bool × List Nat) → Prop
  | absent : IsExponent [] none
  | present {mark : Char} {sign raw : List Char} {down : Bool} {digits : List Nat}
      (isMark : mark = 'e' ∨ mark = 'E') (isSign : IsSign sign down)
      (isDigits : IsDigits raw digits) :
      IsExponent (mark :: (sign ++ raw)) (some (down, digits))

/-- A number and its digits. In front of the point a zero stands alone. -/
structure IsNumeral (raw : List Char) (numeral : Numeral) : Prop where
  parts : ∃ whole fraction exponent,
    raw = (if numeral.negative then ['-'] else []) ++ (whole ++ (fraction ++ exponent)) ∧
      IsDigits whole numeral.whole ∧ IsFraction fraction numeral.fraction ∧
      IsExponent exponent numeral.exponent
  zeroAlone : ∀ others, numeral.whole = 0 :: others → others = []

/-- A number that fits into an unsigned word: its digits, without a sign, a point or an exponent. -/
def IsWord (raw : List Char) (word : UInt64) : Prop :=
  ∃ numeral, IsNumeral raw numeral ∧ numeral.negative = false ∧ numeral.fraction = [] ∧
    numeral.exponent = none ∧ numberOfDigits numeral.whole = word.toNat

/-- A number in range and the binary64 number that it is read as. -/
def IsReal (raw : List Char) (value : Binary64) : Prop :=
  ∃ numeral number, IsNumeral raw numeral ∧ numeral.number = .ok number ∧
    value = match number with
      | .whole whole => Binary64.ofInt whole
      | .real real => real

/-! ### Values of any kind -/

def Nest.opener : Nest → Char
  | .list => '['
  | .object => '{'

def Nest.closer : Nest → Char
  | .list => ']'
  | .object => '}'

/-- What stands in front of a value inside a list or an object whose form alone matters. -/
inductive IsLead : Nest → List Char → Prop
  | item {gap : List Char} (isGap : IsGap gap) : IsLead .list gap
  | member {before key between after : List Char} (isGap : IsGap before) (isLoose : IsLoose key)
      (isGapToo : IsGap between) (isGapBehind : IsGap after) :
      IsLead .object (before ++ '"' :: (key ++ '"' :: (between ++ ':' :: after)))

/-- The form of a value, or, with `some nest`, of what stands between the brackets of a list or an
object that is not empty. -/
inductive Forms : Option Nest → List Char → Prop
  | word {raw : List Char}
      (isWord : raw ∈ [['n', 'u', 'l', 'l'], ['t', 'r', 'u', 'e'], ['f', 'a', 'l', 's', 'e']]) :
      Forms none raw
  | text {inside : List Char} (isLoose : IsLoose inside) : Forms none ('"' :: (inside ++ ['"']))
  | number {raw : List Char} {numeral : Numeral} (isNumeral : IsNumeral raw numeral) :
      Forms none raw
  | empty {nest : Nest} {gap : List Char} (isGap : IsGap gap) :
      Forms none (nest.opener :: (gap ++ [nest.closer]))
  | nested {nest : Nest} {inside : List Char} (forms : Forms (some nest) inside) :
      Forms none (nest.opener :: (inside ++ [nest.closer]))
  | last {nest : Nest} {lead value gap : List Char} (isLead : IsLead nest lead)
      (forms : Forms none value) (isGap : IsGap gap) : Forms (some nest) (lead ++ (value ++ gap))
  | more {nest : Nest} {lead value gap others : List Char} (isLead : IsLead nest lead)
      (forms : Forms none value) (isGap : IsGap gap) (formsToo : Forms (some nest) others) :
      Forms (some nest) (lead ++ (value ++ (gap ++ ',' :: others)))

/-- Whether a text is a value of JSON, nested to any depth. -/
def IsValue (raw : List Char) : Prop :=
  Forms none raw

/-! ### Objects and lists -/

/-- Texts with commas between them. -/
inductive Separated {Item : Type} (Writes : Item → List Char → Prop) :
    List Item → List Char → Prop
  | last {item : Item} {raw : List Char} (writes : Writes item raw) :
      Separated Writes [item] raw
  | more {item : Item} {items : List Item} {raw others : List Char} (writes : Writes item raw)
      (separated : Separated Writes items others) :
      Separated Writes (item :: items) (raw ++ ',' :: others)

/-- A member of an object with its key and the text of its value. -/
inductive IsMember : String × List Char → List Char → Prop
  | written {before spelled between after value behind : List Char} {key : String}
      (gapBefore : IsGap before) (spells : Spells spelled key.toList) (gapBetween : IsGap between)
      (gapAfter : IsGap after) (gapBehind : IsGap behind) :
      IsMember (key, value)
        (before ++ '"' :: (spelled ++ '"' :: (between ++ ':' :: (after ++ (value ++ behind)))))

/-- An object whose members have these keys and texts. -/
def IsObject (members : List (String × List Char)) (raw : List Char) : Prop :=
  (∃ gap, IsGap gap ∧ members = [] ∧ raw = '{' :: (gap ++ ['}'])) ∨
    ∃ inside, Separated IsMember members inside ∧ raw = '{' :: (inside ++ ['}'])

/-- An element of a list with gaps around it. -/
def IsElement (value raw : List Char) : Prop :=
  ∃ before behind, IsGap before ∧ IsGap behind ∧ raw = before ++ (value ++ behind)

/-- A list whose elements have these texts, at least one of them. -/
def IsList (values : List (List Char)) (raw : List Char) : Prop :=
  ∃ inside, Separated IsElement values inside ∧ raw = '[' :: (inside ++ [']'])

/-- A value of some type or `null`. -/
def OrNull {Value : Type} (Means : List Char → Value → Prop) (raw : List Char) :
    Option Value → Prop
  | none => raw = ['n', 'u', 'l', 'l']
  | some value => Means raw value

/-! ### Records -/

/-- What a field says that may be missing or hold `null` instead of a value. -/
def Holds {Value : Type} (Means : List Char → Value → Prop) :
    Option (List Char) → Option Value → Prop
  | none, held => held = none
  | some raw, held => OrNull Means raw held

/-- A record with fields of the given names, each of which says what it should, be it by the text of
its value or by being missing. It is an object that holds no field twice and may hold any other
members, or a list of the values in the order of the fields. -/
inductive WritesRecord (names : List String) (Says : String → Option (List Char) → Prop) :
    List Char → Prop
  | object {members : List (String × List Char)} {raw : List Char}
      (isObject : IsObject members raw)
      (once : ∀ name ∈ names, (members.map Prod.fst).count name ≤ 1)
      (written : ∀ key value, (key, value) ∈ members →
        if key ∈ names then Says key (some value) else IsValue value)
      (missing : ∀ name ∈ names, name ∉ members.map Prod.fst → Says name none) :
      WritesRecord names Says raw
  | list {values : List (List Char)} {raw : List Char} (isList : IsList values raw)
      (written : List.Forall₂ (fun name value => Says name (some value)) names values) :
      WritesRecord names Says raw

/-- A record in which a field is held twice, be it of this record or of one inside the value of a
field, and in which nothing else is wrong. -/
inductive RepeatsField (names : List String) (Fits Repeats : String → List Char → Prop) :
    List Char → Prop
  | object {members : List (String × List Char)} {raw : List Char}
      (isObject : IsObject members raw)
      (written : ∀ key value, (key, value) ∈ members →
        if key ∈ names then Fits key value ∨ Repeats key value else IsValue value)
      (repeats : (∃ name ∈ names, 2 ≤ (members.map Prod.fst).count name) ∨
        ∃ key value, (key, value) ∈ members ∧ key ∈ names ∧ Repeats key value) :
      RepeatsField names Fits Repeats raw
  | list {values : List (List Char)} {raw : List Char} (isList : IsList values raw)
      (written : List.Forall₂ (fun name value => Fits name value ∨ Repeats name value) names values)
      (repeats : ∃ name value, (name, value) ∈ names.zip values ∧ Repeats name value) :
      RepeatsField names Fits Repeats raw

end NodeTelemetry.Json
