/-
This file shows that a value that is passed over is left behind exactly, whatever it is and however
deep it is nested. The values that are open around it are what the skipper keeps in a list, so the
sentence proved by induction is about any such list: behind a value it goes on as if the value had
not been there.

The skipper does not call itself for a value inside another one. It passes over one token, then over
all closing brackets that follow, and goes to the next item of what is still open. So there is no
call that ends with the value, and it must be said in other words that a value is left behind:
whatever is open around it, the skipper comes to the state in which it would be if a single token
had stood there. For what stands between brackets the sentence is another one, namely that the items
are passed over together with the closing bracket, and both are proved in one induction over the
form of a value.

A list or an object that is open closes with its own bracket only, and behind an item only a comma
leads to another item. A gap may stand before each of these.
-/

import Mathlib.Data.List.DropRight
import NodeTelemetry.Proofs.Json.Numbers
import NodeTelemetry.Proofs.Json.Strings

namespace NodeTelemetry.Json

variable {raw gap : List Char} {rest : Input} {nest : Nest}

/-! ### Gaps -/

theorem skipGap_append (isGap : IsGap gap) (rest : Input) :
    skipGap (gap.map some ++ rest) = skipGap rest := by
  refine List.dropWhile_append_of_pos fun character member => ?_
  obtain ⟨blank, among, rfl⟩ := List.mem_map.mp member
  have blanks := isGap blank among
  simp only [List.mem_cons, List.not_mem_nil, or_false] at blanks
  rcases blanks with rfl | rfl | rfl | rfl <;> rfl

theorem skipGap_cons {character : Option Char} (solid : isGap character = false) (rest : Input) :
    skipGap (character :: rest) = character :: rest := by
  rw [skipGap, List.dropWhile_cons, solid]
  rfl

theorem skipGap_append_cons (isGap : IsGap gap) (character : Option Char)
    (solid : Json.isGap character = false) (rest : Input) :
    skipGap (gap.map some ++ character :: rest) = character :: rest :=
  (skipGap_append isGap _).trans (skipGap_cons solid rest)

theorem skipGap_skipGap (input : Input) : skipGap (skipGap input) = skipGap input :=
  List.dropWhile_idempotent ..

/-! ### Where a value begins -/

/-- Whether a value may begin with a character. -/
def IsFirst (character : Char) : Prop :=
  character ∈ ['[', '{', '"', '-', 'n', 't', 'f'] ∨ isDigit (some character) = true

/-- A value does not begin with any other character. -/
theorem IsFirst.ne {character other : Char} (isFirst : IsFirst character)
    (unlike : other ∉ ['[', '{', '"', '-', 'n', 't', 'f'])
    (noDigit : isDigit (some other) = false) : character ≠ other := by
  rintro rfl
  rcases isFirst with among | digit
  · exact unlike among
  · exact Bool.false_ne_true (noDigit.symm.trans digit)

theorem IsFirst.solid {character : Char} (isFirst : IsFirst character) :
    isGap (some character) = false := by
  unfold isGap
  split
  · next same => exact absurd (Option.some.inj same) (isFirst.ne (by decide) rfl)
  · next same => exact absurd (Option.some.inj same) (isFirst.ne (by decide) rfl)
  · next same => exact absurd (Option.some.inj same) (isFirst.ne (by decide) rfl)
  · next same => exact absurd (Option.some.inj same) (isFirst.ne (by decide) rfl)
  · rfl

/-- Whether a text begins as a value does. -/
def Starts (raw : List Char) : Prop :=
  ∃ first others, raw = first :: others ∧ IsFirst first

/-- A gap is skipped up to the value behind it. -/
theorem skipGap_of_starts (isGap : IsGap gap) (starts : Starts raw) (rest : Input) :
    skipGap (gap.map some ++ (raw.map some ++ rest)) = raw.map some ++ rest := by
  obtain ⟨first, others, rfl, isFirst⟩ := starts
  exact skipGap_append_cons isGap _ isFirst.solid _

/-- A number begins with its sign or with a digit. -/
theorem exists_cons_of_isNumeral {numeral : Numeral} (isNumeral : IsNumeral raw numeral) :
    ∃ first others, raw = first :: others ∧ (first = '-' ∨ isDigit (some first) = true) := by
  obtain ⟨⟨whole, fraction, exponent, rfl, ⟨present, areDigits, _⟩, _⟩, _⟩ := isNumeral
  cases numeral.negative with
  | true => exact ⟨'-', _, rfl, .inl rfl⟩
  | false =>
    obtain ⟨first, others, rfl⟩ := List.exists_cons_of_ne_nil present
    exact ⟨first, _, rfl, .inr (areDigits first List.mem_cons_self)⟩

theorem isFirst_opener (nest : Nest) : IsFirst nest.opener := by
  cases nest with
  | list => exact .inl (by decide)
  | object => exact .inl (by decide)

/-- Every value begins as a value may. -/
theorem starts_of_isValue (isValue : IsValue raw) : Starts raw := by
  cases isValue with
  | word isWord =>
    simp only [List.mem_cons, List.not_mem_nil, or_false] at isWord
    rcases isWord with rfl | rfl | rfl <;> exact ⟨_, _, rfl, .inl (by decide)⟩
  | text => exact ⟨'"', _, rfl, .inl (by decide)⟩
  | number isNumeral =>
    obtain ⟨first, others, rfl, rfl | digit⟩ := exists_cons_of_isNumeral isNumeral
    · exact ⟨'-', others, rfl, .inl (by decide)⟩
    · exact ⟨first, others, rfl, .inr digit⟩
  | empty => exact ⟨_, _, rfl, isFirst_opener _⟩
  | nested => exact ⟨_, _, rfl, isFirst_opener _⟩

/-! ### The first token -/

/-- A value that is one token is passed over with it. -/
theorem passToken_word {word : List Char}
    (isWord : word ∈ [['n', 'u', 'l', 'l'], ['t', 'r', 'u', 'e'], ['f', 'a', 'l', 's', 'e']])
    (isGap : IsGap gap) (rest : Input) :
    passToken (gap.map some ++ (word.map some ++ rest)) = .ok (.complete, rest) := by
  have skipped := skipGap_of_starts isGap (starts_of_isValue (.word isWord)) rest
  simp only [List.mem_cons, List.not_mem_nil, or_false] at isWord
  rcases isWord with rfl | rfl | rfl <;> (rw [passToken, skipped]; rfl)

/-- A string is one token, from quote to quote. -/
theorem passToken_text {inside : List Char} (isLoose : IsLoose inside) (isGap : IsGap gap)
    (rest : Input) :
    passToken (gap.map some ++ (('"' :: (inside ++ ['"'])).map some ++ rest)) =
      .ok (.complete, rest) := by
  have skipped := skipGap_of_starts isGap (starts_of_isValue (.text isLoose)) rest
  have passed := passText_of_isLoose isLoose rest
  rw [passToken, skipped]
  simp only [List.map_cons, List.map_append, List.map_nil, List.cons_append, List.append_assoc,
    List.nil_append, passed]
  rfl

/-- A number is one token, which ends where it is not gone on with. -/
theorem passToken_number {numeral : Numeral} (isNumeral : IsNumeral raw numeral)
    (isGap : IsGap gap) (ends : Ends rest) :
    passToken (gap.map some ++ (raw.map some ++ rest)) = .ok (.complete, rest) := by
  have skipped := skipGap_of_starts isGap (starts_of_isValue (.number isNumeral)) rest
  have taken := take_of_isNumeral isNumeral ends
  obtain ⟨first, others, rfl, begins⟩ := exists_cons_of_isNumeral isNumeral
  have unlike {other : Char} {following : Input}
      (same : (first :: others).map some ++ rest = some other :: following) :
      other = '-' ∨ isDigit (some other) = true :=
    Option.some.inj (List.cons.inj same).1 ▸ begins
  unfold passToken
  rw [skipped]
  split
  · next empty => cases empty
  · next same => exact absurd (unlike same) (by decide)
  · next same => exact absurd (unlike same) (by decide)
  · next same => exact absurd (unlike same) (by decide)
  · next same => exact absurd (unlike same) (by decide)
  · next same => exact absurd (unlike same) (by decide)
  · next same => exact absurd (unlike same) (by decide)
  · rw [taken]

/-- An opening bracket is a token behind which something is open. -/
theorem passToken_opener (nest : Nest) (isGap : IsGap gap) (rest : Input) :
    passToken (gap.map some ++ some nest.opener :: rest) = .ok (.opens nest, rest) := by
  have skipped := skipGap_append_cons isGap _ (isFirst_opener nest).solid rest
  rw [passToken, skipped]
  cases nest with
  | list => rfl
  | object => rfl

/-! ### What is open around a value -/

/-- Goes on inside what is open, behind a value if that is `settled`. -/
def goOn (nests : List Nest) (settled : Bool) (input : Input) : Except Fault Input :=
  match passClosers nests settled input with
  | .error fault => .error fault
  | .ok ([], rest) => .ok rest
  | .ok (nests, rest) => passValueIn nests rest

/-- Goes to the next item of the innermost list or object and over its value. -/
def overItem (nest : Nest) (nests : List Nest) (input : Input) : Except Fault Input :=
  match passToItem nest input with
  | .error fault => .error fault
  | .ok rest => passValueIn (nest :: nests) rest

/-- Behind the first token of a value the skipper goes on inside what is open. -/
theorem passValueIn_of_passToken {nests : List Nest} {input : Input} {opening : Opening}
    (token : passToken input = .ok (opening, rest)) :
    passValueIn nests input = goOn (opening.inside nests) opening.isComplete rest := by
  rw [passValueIn, token, goOn]
  dsimp only
  split <;> simp_all only

/-- What is done about the first character behind a gap. -/
theorem passClosers_cons {nests : List Nest} {settled : Bool} {character : Option Char}
    {input following : Input} (skipped : skipGap input = character :: following) :
    passClosers (nest :: nests) settled input =
      if settled && character == some ',' then (passToItem nest following).map (nest :: nests, ·)
      else if closes nest character then passClosers nests true following
      else if settled then .error .malformed
      else (passToItem nest (character :: following)).map (nest :: nests, ·) := by
  rw [passClosers]
  split
  next empty => cases skipped.symm.trans empty
  next same =>
    obtain ⟨rfl, rfl⟩ := List.cons.inj (same.symm.trans skipped)
    rfl

/-- Without a bracket to close, the next item is gone to. -/
theorem goOn_of_passToItem {nests : List Nest} {settled : Bool} {input following : Input}
    (passed : passClosers (nest :: nests) settled input =
      (passToItem nest following).map (nest :: nests, ·)) :
    goOn (nest :: nests) settled input = overItem nest nests following := by
  rw [goOn, passed, overItem]
  cases passToItem nest following with
  | error fault => rfl
  | ok remaining => rfl

theorem closes_closer (nest : Nest) : closes nest (some nest.closer) = true := by
  cases nest with
  | list => rfl
  | object => rfl

theorem isGap_closer (nest : Nest) : isGap (some nest.closer) = false := by
  cases nest with
  | list => rfl
  | object => rfl

theorem closer_ne_comma (nest : Nest) : (some nest.closer == some ',') = false := by
  cases nest with
  | list => rfl
  | object => rfl

theorem ends_closer (nest : Nest) (rest : Input) : Ends (some nest.closer :: rest) := by
  intro character first
  obtain rfl := Option.some.inj first
  cases nest with
  | list => decide
  | object => decide

theorem ends_comma (rest : Input) : Ends (some ',' :: rest) := by
  intro character first
  obtain rfl := Option.some.inj first
  decide

/-- What may stand behind a value still may with a gap in front of it. -/
theorem Ends.behind_gap (isGap : IsGap gap) (ends : Ends rest) : Ends (gap.map some ++ rest) := by
  cases gap with
  | nil => exact ends
  | cons blank others =>
    intro character first
    obtain rfl := Option.some.inj first
    have blanks := isGap blank List.mem_cons_self
    simp only [List.mem_cons, List.not_mem_nil, or_false] at blanks
    rcases blanks with rfl | rfl | rfl | rfl <;> decide

/-- What is opened is closed by its own bracket. -/
theorem goOn_closer (nests : List Nest) (settled : Bool) (isGap : IsGap gap) (rest : Input) :
    goOn (nest :: nests) settled (gap.map some ++ some nest.closer :: rest) =
      goOn nests true rest := by
  have skipped := skipGap_append_cons isGap _ (isGap_closer nest) rest
  have closed : passClosers (nest :: nests) settled (gap.map some ++ some nest.closer :: rest) =
      passClosers nests true rest := by
    simp only [passClosers_cons skipped, closer_ne_comma, Bool.and_false, Bool.false_eq_true,
      if_false, closes_closer, if_true]
  rw [goOn, closed]
  rfl

/-- Behind a comma the next item is passed over. -/
theorem goOn_comma (nests : List Nest) (isGap : IsGap gap) (rest : Input) :
    goOn (nest :: nests) true (gap.map some ++ some ',' :: rest) = overItem nest nests rest := by
  have skipped := skipGap_append_cons isGap (some ',') rfl rest
  exact goOn_of_passToItem (passClosers_cons skipped)

/-! ### Items -/

/-- Where the value of an item begins, behind what stands in front of it. -/
theorem exists_passToItem {lead : List Char} (isLead : IsLead nest lead) :
    ∃ gap, IsGap gap ∧ ∀ rest : Input,
      passToItem nest (lead.map some ++ rest) = .ok (gap.map some ++ rest) := by
  cases isLead with
  | item isGap => exact ⟨lead, isGap, fun _ => rfl⟩
  | @member before key between after isGap isLoose isGapToo isGapBehind =>
    refine ⟨after, isGapBehind, fun rest => ?_⟩
    simp only [List.map_append, List.map_cons, List.append_assoc, List.cons_append, passToItem,
      passKey, skipGap_append_cons isGap (some '"') rfl, passText_of_isLoose isLoose,
      skipGap_append_cons isGapToo (some ':') rfl]

/-- What stands between brackets does not begin with the closing one. -/
theorem exists_skipGap_of_forms {inside : List Char} (forms : Forms (some nest) inside)
    (rest : Input) : ∃ first others, skipGap (inside.map some ++ rest) = some first :: others ∧
      closes nest (some first) = false := by
  have behindLead {lead value : List Char} (isLead : IsLead nest lead) (isValue : IsValue value)
      (others : Input) : ∃ first following,
        skipGap (lead.map some ++ (value.map some ++ others)) = some first :: following ∧
          closes nest (some first) = false := by
    cases isLead with
    | item isGap =>
      have starts := starts_of_isValue isValue
      rw [skipGap_of_starts isGap starts]
      obtain ⟨first, following, rfl, isFirst⟩ := starts
      refine ⟨first, _, rfl, ?_⟩
      unfold closes
      split
      · next same => exact absurd (Option.some.inj same) (isFirst.ne (by decide) rfl)
      · rfl
      · rfl
    | member isGap =>
      rw [List.map_append, List.append_assoc]
      exact ⟨'"', _, skipGap_append_cons isGap _ rfl _, rfl⟩
  cases forms with
  | last isLead isValue =>
    simp only [List.map_append, List.append_assoc]
    exact behindLead isLead isValue _
  | more isLead isValue =>
    simp only [List.map_append, List.append_assoc]
    exact behindLead isLead isValue _

theorem overItem_skipGap (nests : List Nest) (input : Input) :
    overItem nest nests (skipGap input) = overItem nest nests input := by
  cases nest with
  | list =>
    have token : passToken (skipGap input) = passToken input := by
      rw [passToken, skipGap_skipGap, ← passToken]
    simp only [overItem, passToItem]
    rw [passValueIn, token, ← passValueIn]
  | object => simp only [overItem, passToItem, passKey, skipGap_skipGap]

/-- What is opened and not closed at once has an item. -/
theorem goOn_item (nests : List Nest) {inside : List Char} (forms : Forms (some nest) inside)
    (rest : Input) : goOn (nest :: nests) false (inside.map some ++ rest) =
      overItem nest nests (inside.map some ++ rest) := by
  -- Behind an opening bracket the first character decides whether there is an item at all.
  obtain ⟨first, others, skipped, notClosed⟩ := exists_skipGap_of_forms forms rest
  rw [← overItem_skipGap]
  refine goOn_of_passToItem ?_
  rw [passClosers_cons skipped, skipped, notClosed]
  rfl

/-! ### Values -/

/-- What is passed over where a value is written, or, with `some nest`, where the items of a list or
an object are. -/
def PassesOver (raw : List Char) : Option Nest → Prop
  | none => ∀ (nests : List Nest) (gap : List Char) (rest : Input), IsGap gap → Ends rest →
      passValueIn nests (gap.map some ++ (raw.map some ++ rest)) = goOn nests true rest
  | some nest => ∀ (nests : List Nest) (rest : Input),
      overItem nest nests (raw.map some ++ some nest.closer :: rest) = goOn nests true rest

/-- The skipper stays in step with a value, whatever is open around it. -/
theorem passesOver_of_forms {scope : Option Nest} (forms : Forms scope raw) :
    PassesOver raw scope := by
  -- What is open stays general: between the brackets of a value there is one nest more.
  induction forms with
  | word isWord =>
    intro nests gap rest isGap _
    exact passValueIn_of_passToken (passToken_word isWord isGap rest)
  | text isLoose =>
    intro nests gap rest isGap _
    exact passValueIn_of_passToken (passToken_text isLoose isGap rest)
  | number isNumeral =>
    intro nests gap rest isGap ends
    exact passValueIn_of_passToken (passToken_number isNumeral isGap ends)
  | @empty nest inside isGapInside =>
    intro nests gap rest isGap _
    rw [List.map_cons, List.map_append, List.cons_append, List.append_assoc,
      passValueIn_of_passToken (passToken_opener nest isGap _)]
    exact goOn_closer nests false isGapInside rest
  | @nested nest inside forms inductionHypothesis =>
    intro nests gap rest isGap _
    rw [List.map_cons, List.map_append, List.cons_append, List.append_assoc,
      passValueIn_of_passToken (passToken_opener nest isGap _)]
    exact (goOn_item nests forms _).trans (inductionHypothesis nests rest)
  | @last nest lead value gap isLead _ isGap inductionHypothesis =>
    intro nests rest
    obtain ⟨gapBefore, isGapBefore, toItem⟩ := exists_passToItem isLead
    simp only [List.map_append, List.append_assoc]
    rw [overItem, toItem]
    exact (inductionHypothesis (nest :: nests) gapBefore _ isGapBefore
      ((ends_closer nest rest).behind_gap isGap)).trans (goOn_closer nests true isGap rest)
  | @more nest lead value gap others isLead _ isGap _ inductionHypothesis inductionHypothesisToo =>
    intro nests rest
    obtain ⟨gapBefore, isGapBefore, toItem⟩ := exists_passToItem isLead
    simp only [List.map_append, List.map_cons, List.append_assoc, List.cons_append]
    rw [overItem, toItem]
    calc passValueIn (nest :: nests) _
        = goOn (nest :: nests) true (gap.map some ++ some ',' ::
            (others.map some ++ some nest.closer :: rest)) :=
          inductionHypothesis (nest :: nests) gapBefore _ isGapBefore
            ((ends_comma _).behind_gap isGap)
      _ = overItem nest nests (others.map some ++ some nest.closer :: rest) :=
          goOn_comma nests isGap _
      _ = goOn nests true rest := inductionHypothesisToo nests rest

/-- A value is passed over to its end, wherever it ends. -/
theorem passValueIn_of_isValue (isValue : IsValue raw) (isGap : IsGap gap) (ends : Ends rest) :
    passValueIn [] (gap.map some ++ (raw.map some ++ rest)) = .ok rest := by
  refine (passesOver_of_forms isValue [] gap rest isGap ends).trans ?_
  rw [goOn, passClosers]

end NodeTelemetry.Json
