/-
This file shows how far the readers of strings, words and numbers look ahead. The first two stop at
a mark of their own and do not look at what follows; a number is known to be over by the one
character behind it. Hence what was taken off an input is taken off in the same way when something
else follows, as long as it begins alike.

`LeftUnseen` and `LeftAtSight` are relations between an input and what is left of it. A reader takes
its parts one after the other, so the relations are put together as the parts are: two parts that do
not look ahead make a whole that does not, and two that look at one character make a whole that
does, because the first one sees the same character again, be it in the second part or behind it if
that is empty.

With these rules each reader is taken apart along its own branches. A value that is passed over is
nothing more than tokens and items that are passed over until nothing is open any more, so the same
is shown of it by induction over the steps of the skipper.
-/

import Mathlib.Logic.Relation
import NodeTelemetry.Json.Record
import NodeTelemetry.Proofs.Json.Skipping

namespace NodeTelemetry.Json

/-! ### Looking ahead -/

section Looking

variable {leaves first second both : Input → Input → Prop} {input middle rest : Input}

/-- Whether something is left of an input, given how something is left of inputs, without a look at
it: the same is taken off whatever follows. -/
def LeftUnseen (leaves : Input → Input → Prop) (input rest : Input) : Prop :=
  ∃ taken, input = taken ++ rest ∧ ∀ others, leaves (taken ++ others) others

/-- Whether something is left of an input with a look at its first character at most. -/
def LeftAtSight (leaves : Input → Input → Prop) (input rest : Input) : Prop :=
  ∃ taken, input = taken ++ rest ∧
    ∀ others, others.head? = rest.head? → leaves (taken ++ others) others

theorem LeftUnseen.atSight (left : LeftUnseen leaves input rest) : LeftAtSight leaves input rest := by
  obtain ⟨taken, same, all⟩ := left
  exact ⟨taken, same, fun others _ => all others⟩

/-- What does not look ahead in two parts does not look ahead at all. -/
theorem LeftUnseen.followedBy (left : LeftUnseen first input middle)
    (leftToo : LeftUnseen second middle rest) :
    LeftUnseen (Relation.Comp first second) input rest := by
  obtain ⟨taken, rfl, all⟩ := left
  obtain ⟨further, rfl, allToo⟩ := leftToo
  refine ⟨taken ++ further, (List.append_assoc ..).symm, fun others => ?_⟩
  rw [List.append_assoc]
  exact ⟨_, all _, allToo others⟩

/-- What looks at one character in each of two parts looks at one character in the end. -/
theorem LeftAtSight.followedBy (left : LeftAtSight first input middle)
    (leftToo : LeftAtSight second middle rest) :
    LeftAtSight (Relation.Comp first second) input rest := by
  obtain ⟨taken, rfl, all⟩ := left
  obtain ⟨further, rfl, allToo⟩ := leftToo
  refine ⟨taken ++ further, (List.append_assoc ..).symm, fun others alike => ?_⟩
  rw [List.append_assoc]
  refine ⟨_, all _ ?_, allToo others alike⟩
  rw [List.head?_append, List.head?_append, alike]

theorem LeftUnseen.of_imp (left : LeftUnseen first input rest)
    (imp : ∀ {input rest}, first input rest → second input rest) : LeftUnseen second input rest := by
  obtain ⟨taken, same, all⟩ := left
  exact ⟨taken, same, fun others => imp (all others)⟩

theorem LeftAtSight.of_imp (left : LeftAtSight first input rest)
    (imp : ∀ {input rest}, first input rest → second input rest) : LeftAtSight second input rest := by
  obtain ⟨taken, same, all⟩ := left
  exact ⟨taken, same, fun others alike => imp (all others alike)⟩

/-- Characters that are taken first make no difference. -/
theorem LeftUnseen.behind (front : Input) (left : LeftUnseen first input rest)
    (combine : ∀ {input rest}, first input rest → both (front ++ input) rest) :
    LeftUnseen both (front ++ input) rest := by
  obtain ⟨taken, rfl, all⟩ := left
  refine ⟨front ++ taken, (List.append_assoc ..).symm, fun others => ?_⟩
  rw [List.append_assoc]
  exact combine (all others)

theorem LeftAtSight.behind (front : Input) (left : LeftAtSight first input rest)
    (combine : ∀ {input rest}, first input rest → both (front ++ input) rest) :
    LeftAtSight both (front ++ input) rest := by
  obtain ⟨taken, rfl, all⟩ := left
  refine ⟨front ++ taken, (List.append_assoc ..).symm, fun others alike => ?_⟩
  rw [List.append_assoc]
  exact combine (all others alike)

/-- If anything was taken, the input still begins alike when something else follows. -/
theorem LeftAtSight.head? (left : LeftAtSight leaves input rest)
    (shorter : rest.length < input.length) :
    LeftAtSight (fun other rest => other.head? = input.head? ∧ leaves other rest) input rest := by
  obtain ⟨taken, rfl, all⟩ := left
  refine ⟨taken, rfl, fun others alike => ⟨?_, all others alike⟩⟩
  cases taken with
  | nil => exact absurd shorter (Nat.lt_irrefl _)
  | cons character further => rfl

end Looking

variable {input rest following : Input}

/-! ### Gaps -/

/-- Behind a gap there is no gap. -/
theorem isGap_of_skipGap {character : Option Char} (skipped : skipGap input = character :: rest) :
    isGap character = false := by
  have solid := List.head?_dropWhile_not isGap input
  rw [← skipGap, skipped] at solid
  simpa using solid

/-- The gap in front of a character is over with this character. -/
theorem leftAtSight_skipGap (present : skipGap input ≠ []) :
    LeftAtSight (skipGap · = ·) input (skipGap input) := by
  obtain ⟨character, following, skipped⟩ := List.exists_cons_of_ne_nil present
  have solid := isGap_of_skipGap skipped
  refine ⟨input.takeWhile isGap, (List.takeWhile_append_dropWhile ..).symm, fun others alike => ?_⟩
  rw [skipped] at alike
  obtain ⟨further, rfl⟩ := List.head?_eq_some_iff.mp alike
  rw [skipGap, List.dropWhile_append_of_pos (fun blank member => List.mem_takeWhile_imp member),
    ← skipGap, skipGap_cons solid]

theorem leftAtSight_skipGap_cons {character : Option Char}
    (skipped : skipGap input = character :: following) :
    LeftAtSight (fun input rest => rest.head? = some character ∧ skipGap input = rest) input
      (character :: following) := by
  obtain ⟨gap, same, all⟩ := leftAtSight_skipGap (skipped ▸ List.cons_ne_nil _ _)
  rw [skipped] at same all
  exact ⟨gap, same, fun others alike => ⟨alike, all others alike⟩⟩

theorem leftUnseen_skipGap {character : Option Char} (skipped : skipGap input = character :: rest) :
    LeftUnseen (skipGap · = character :: ·) input rest := by
  obtain ⟨gap, same, all⟩ := leftAtSight_skipGap_cons skipped
  refine ⟨gap ++ [character], same.trans (List.append_cons ..), fun others => ?_⟩
  rw [← List.append_cons]
  exact (all (character :: others) rfl).2

/-- What is read behind a gap is read in the same way if it is not empty. -/
theorem LeftAtSight.behindGap {second both : Input → Input → Prop}
    (left : LeftAtSight second (skipGap input) rest)
    (shorter : rest.length < (skipGap input).length)
    (combine : ∀ {other rest}, (skipGap other).head? = (skipGap input).head? →
      second (skipGap other) rest → both other rest) :
    LeftAtSight both input rest := by
  have present : skipGap input ≠ [] := List.ne_nil_of_length_pos (Nat.zero_lt_of_lt shorter)
  refine ((leftAtSight_skipGap present).followedBy (left.head? shorter)).of_imp ?_
  rintro other rest ⟨_, rfl, alike, leaves⟩
  exact combine alike leaves

/-! ### Words and strings -/

/-- What is left by something that takes a value off inputs. -/
abbrev Takes {Value : Type} (take : Input → Except Fault (Value × Input)) (value : Value)
    (input rest : Input) : Prop :=
  take input = .ok (value, rest)

/-- What is left by something that passes over the front of inputs. -/
abbrev Passes (pass : Input → Except Fault Input) (input rest : Input) : Prop :=
  pass input = .ok rest

theorem leftUnseen_takeWord {word : List Char} (passed : takeWord word input = .ok rest) :
    LeftUnseen (Passes (takeWord word)) input rest := by
  induction word generalizing input with
  | nil =>
    obtain rfl := Except.ok.inj passed
    exact ⟨[], rfl, fun _ => rfl⟩
  | cons letter letters inductionHypothesis =>
    cases input with
    | nil => cases passed
    | cons character following =>
      rw [takeWord] at passed
      split at passed
      next same =>
        refine (inductionHypothesis passed).behind [character] fun further => ?_
        rw [Passes, List.singleton_append, takeWord, if_pos same, further]
      next => cases passed

theorem leftUnseen_takeFourDigits {number : Nat}
    (taken : takeFourDigits input = .ok (number, rest)) :
    LeftUnseen (Takes takeFourDigits number) input rest := by
  unfold takeFourDigits at taken
  split at taken
  next first second third fourth following =>
    split at taken
    next ofFirst ofSecond ofThird ofFourth =>
      obtain ⟨rfl, rfl⟩ := Prod.mk.inj (Except.ok.inj taken)
      refine ⟨[some first, some second, some third, some fourth], rfl, fun others => ?_⟩
      simp [Takes, takeFourDigits, ofFirst, ofSecond, ofThird, ofFourth]
    next => cases taken
  next => split at taken <;> cases taken

theorem leftUnseen_takeTrailing {leading : Nat} {character : Char}
    (taken : takeTrailing leading input = .ok (character, rest)) :
    LeftUnseen (Takes (takeTrailing leading) character) input rest := by
  unfold takeTrailing at taken
  split at taken
  next following =>
    split at taken
    next => cases taken
    next trailing behind digits =>
      split at taken
      next isTrailing =>
        obtain ⟨rfl, rfl⟩ := Prod.mk.inj (Except.ok.inj taken)
        refine (leftUnseen_takeFourDigits digits).behind [some '\\', some 'u'] fun digits => ?_
        simp [Takes, takeTrailing, digits, isTrailing]
      next => cases taken
  next => cases taken
  next => cases taken

/-- An escape is over with its last character, and a pair with its second half. -/
theorem leftUnseen_takeEscape {character : Char}
    (taken : takeEscape input = .ok (character, rest)) :
    LeftUnseen (Takes takeEscape character) input rest := by
  unfold takeEscape at taken
  split at taken
  next following =>
    split at taken
    next => cases taken
    next unit behind digits =>
      split at taken
      next => cases taken
      next notTrailing =>
        split at taken
        next isLeading =>
          refine ((leftUnseen_takeFourDigits digits).followedBy
            (leftUnseen_takeTrailing taken)).behind [some 'u'] ?_
          rintro other rest ⟨_, digits, trailing⟩
          simp [Takes, takeEscape, digits, notTrailing, isLeading, trailing]
        next notLeading =>
          obtain ⟨rfl, rfl⟩ := Prod.mk.inj (Except.ok.inj taken)
          refine (leftUnseen_takeFourDigits digits).behind [some 'u'] fun digits => ?_
          simp [Takes, takeEscape, digits, notTrailing, notLeading]
  next letter following _ =>
    split at taken
    next escape =>
      obtain ⟨rfl, rfl⟩ := Prod.mk.inj (Except.ok.inj taken)
      exact ⟨[some letter], rfl, takeEscape_short escape⟩
    next => cases taken
  next => cases taken

theorem leftUnseen_passEscape (passed : passEscape input = .ok rest) :
    LeftUnseen (Passes passEscape) input rest := by
  unfold passEscape at passed
  split at passed
  next following =>
    split at passed
    next => cases passed
    next unit behind digits =>
      obtain rfl := Except.ok.inj passed
      refine (leftUnseen_takeFourDigits digits).behind [some 'u'] fun digits => ?_
      simp [Passes, passEscape, digits]
  next letter following _ =>
    split at passed
    next escape =>
      obtain rfl := Except.ok.inj passed
      exact ⟨[some letter], rfl, passEscape_short escape⟩
    next => cases passed
  next => cases passed

theorem closeText_eq_ok {taken : List (Option Char)} {text : String}
    (closed : closeText taken input = .ok (text, rest)) :
    rest = input ∧ ∀ others, closeText taken others = .ok (text, others) := by
  unfold closeText at closed ⊢
  split at closed
  next characters readable =>
    obtain ⟨rfl, rfl⟩ := Prod.mk.inj (Except.ok.inj closed)
    exact ⟨rfl, fun others => rfl⟩
  next => cases closed

/-- A string ends with its closing quote. -/
theorem leftUnseen_textFrom {taken : List (Option Char)} {text : String}
    (read : textFrom taken input = .ok (text, rest)) :
    LeftUnseen (Takes (textFrom taken) text) input rest := by
  fun_induction textFrom taken input with
  | case1 => cases read
  | case2 taken following =>
    obtain ⟨rfl, closed⟩ := closeText_eq_ok read
    refine ⟨[some '"'], rfl, fun others => ?_⟩
    rw [Takes, List.singleton_append, textFrom, closed]
  | case3 => cases read
  | case4 taken following character remaining escape inductionHypothesis =>
    refine ((leftUnseen_takeEscape escape).followedBy (inductionHypothesis read)).behind
      [some '\\'] ?_
    rintro other rest ⟨_, escape, further⟩
    rw [Takes, List.singleton_append, textFrom_escape escape, further]
  | case5 => cases read
  | case6 taken character following notQuote notBackslash notControl inductionHypothesis =>
    refine (inductionHypothesis read).behind [character] fun further => ?_
    rw [Takes, List.singleton_append, textFrom, if_neg notControl, further]
    · exact notQuote
    · exact notBackslash

/-- A string that is passed over ends with its closing quote as well. -/
theorem leftUnseen_passText (passed : passText input = .ok rest) :
    LeftUnseen (Passes passText) input rest := by
  fun_induction passText input with
  | case1 => cases passed
  | case2 following =>
    obtain rfl := Except.ok.inj passed
    exact ⟨[some '"'], rfl, fun others => by rw [Passes, List.singleton_append, passText]⟩
  | case3 => cases passed
  | case4 following remaining escape inductionHypothesis =>
    refine ((leftUnseen_passEscape escape).followedBy (inductionHypothesis passed)).behind
      [some '\\'] ?_
    rintro other rest ⟨_, escape, further⟩
    rw [Passes, List.singleton_append, passText_escape escape, further]
  | case5 => cases passed
  | case6 character following notQuote notBackslash notControl inductionHypothesis =>
    refine (inductionHypothesis passed).behind [character] fun further => ?_
    rw [Passes, List.singleton_append, passText, if_neg notControl, further]
    · exact notQuote
    · exact notBackslash

/-! ### Numbers -/

/-- Digits are over where a character is none. -/
theorem leftAtSight_takeDigits {digits : List Nat}
    (taken : takeDigits input = .ok (digits, rest)) :
    LeftAtSight (Takes takeDigits digits) input rest := by
  unfold takeDigits at taken
  split at taken
  next => cases taken
  next present =>
    obtain ⟨rfl, rfl⟩ := Prod.mk.inj (Except.ok.inj taken)
    refine ⟨input.takeWhile isDigit, (List.takeWhile_append_dropWhile ..).symm,
      fun others alike => ?_⟩
    have areDigits : ∀ character ∈ input.takeWhile isDigit, isDigit character = true :=
      fun character member => List.mem_takeWhile_imp member
    have stops : others.takeWhile isDigit = [] ∧ others.dropWhile isDigit = others := by
      have solid := List.head?_dropWhile_not isDigit input
      rw [← alike] at solid
      cases others with
      | nil => exact ⟨rfl, rfl⟩
      | cons character further =>
        have noDigit : isDigit character = false := by simpa using solid
        simp [noDigit]
    unfold Takes takeDigits
    rw [List.takeWhile_append_of_pos areDigits, List.dropWhile_append_of_pos areDigits, stops.1,
      stops.2, List.append_nil]
    split
    next empty => exact absurd empty present
    next => rfl

theorem leftAtSight_takeWhole {digits : List Nat} (taken : takeWhole input = .ok (digits, rest)) :
    LeftAtSight (Takes takeWhole digits) input rest := by
  unfold takeWhole at taken
  split at taken
  next => cases taken
  next => cases taken
  next zeroAlone read =>
    obtain ⟨rfl, rfl⟩ := Prod.mk.inj (Except.ok.inj taken)
    refine (leftAtSight_takeDigits read).of_imp fun read => ?_
    unfold Takes takeWhole
    rw [read]
    split
    next failed => cases failed
    next same =>
      obtain ⟨rfl, _⟩ := Prod.mk.inj (Except.ok.inj same)
      exact (zeroAlone _ _ rfl).elim
    next same => rw [← same]

theorem leftAtSight_takeFraction {digits : List Nat}
    (taken : takeFraction input = .ok (digits, rest)) :
    LeftAtSight (Takes takeFraction digits) input rest := by
  unfold takeFraction at taken
  split at taken
  next following =>
    exact (leftAtSight_takeDigits taken).behind [some '.'] id
  next noPoint =>
    obtain ⟨rfl, rfl⟩ := Prod.mk.inj (Except.ok.inj taken)
    refine ⟨[], rfl, fun others alike => ?_⟩
    rw [List.nil_append, Takes, takeFraction]
    rintro further rfl
    obtain ⟨behind, same⟩ := List.head?_eq_some_iff.mp alike.symm
    exact noPoint behind same

/-- Whether there is a sign is seen at one character. -/
theorem leftAtSight_takeSign {down : Bool} (taken : takeSign input = (down, rest)) :
    LeftAtSight (fun input rest => takeSign input = (down, rest)) input rest := by
  unfold takeSign at taken
  split at taken
  next following =>
    obtain ⟨rfl, rfl⟩ := Prod.mk.inj taken
    exact ⟨[some '+'], rfl, fun others _ => rfl⟩
  next following =>
    obtain ⟨rfl, rfl⟩ := Prod.mk.inj taken
    exact ⟨[some '-'], rfl, fun others _ => rfl⟩
  next noPlus noMinus =>
    obtain ⟨rfl, rfl⟩ := Prod.mk.inj taken
    refine ⟨[], rfl, fun others alike => ?_⟩
    show takeSign others = (false, others)
    rw [takeSign]
    · rintro further rfl
      obtain ⟨behind, same⟩ := List.head?_eq_some_iff.mp alike.symm
      exact noPlus behind same
    · rintro further rfl
      obtain ⟨behind, same⟩ := List.head?_eq_some_iff.mp alike.symm
      exact noMinus behind same

theorem leftAtSight_takeExponent {exponent : Option (Bool × List Nat)}
    (taken : takeExponent input = .ok (exponent, rest)) :
    LeftAtSight (Takes takeExponent exponent) input rest := by
  unfold takeExponent at taken
  split at taken
  next =>
    obtain ⟨rfl, rfl⟩ := Prod.mk.inj (Except.ok.inj taken)
    refine ⟨[], rfl, fun others alike => ?_⟩
    obtain rfl := List.head?_eq_none_iff.mp alike
    rfl
  next mark following =>
    split at taken
    next marked =>
      split at taken
      next => cases taken
      next digits remaining read =>
        obtain ⟨rfl, rfl⟩ := Prod.mk.inj (Except.ok.inj taken)
        generalize signed : takeSign following = sign at read
        refine ((leftAtSight_takeSign signed).followedBy (leftAtSight_takeDigits read)).behind
          [mark] ?_
        rintro other rest ⟨_, sign, read⟩
        simp only [Takes, List.singleton_append, takeExponent, marked, if_true, sign, read]
    next unmarked =>
      obtain ⟨rfl, rfl⟩ := Prod.mk.inj (Except.ok.inj taken)
      refine ⟨[], rfl, fun others alike => ?_⟩
      obtain ⟨further, rfl⟩ := List.head?_eq_some_iff.mp alike
      rw [Takes, List.nil_append, takeExponent, if_neg unmarked]

theorem leftAtSight_takeUnsigned {negative : Bool} {numeral : Numeral}
    (taken : Numeral.takeUnsigned negative input = .ok (numeral, rest)) :
    LeftAtSight (Takes (Numeral.takeUnsigned negative) numeral) input rest := by
  unfold Numeral.takeUnsigned at taken
  split at taken
  next => cases taken
  next whole behindWhole takenWhole =>
    split at taken
    next => cases taken
    next fraction behindFraction takenFraction =>
      split at taken
      next => cases taken
      next exponent behind takenExponent =>
        obtain ⟨rfl, rfl⟩ := Prod.mk.inj (Except.ok.inj taken)
        refine ((leftAtSight_takeWhole takenWhole).followedBy
          ((leftAtSight_takeFraction takenFraction).followedBy
            (leftAtSight_takeExponent takenExponent))).of_imp ?_
        rintro other rest ⟨_, whole, _, fraction, exponent⟩
        simp only [Takes, Numeral.takeUnsigned, whole, fraction, exponent]

/-- The parts of a number are taken one after the other. -/
theorem leftAtSight_takeNumeral {numeral : Numeral}
    (taken : Numeral.take input = .ok (numeral, rest)) :
    LeftAtSight (Takes Numeral.take numeral) input rest := by
  have shorter := Numeral.length_lt_of_take taken
  unfold Numeral.take at taken
  split at taken
  next following =>
    exact (leftAtSight_takeUnsigned taken).behind [some '-'] id
  next unsigned =>
    refine ((leftAtSight_takeUnsigned taken).head? shorter).of_imp ?_
    rintro other rest ⟨alike, taken⟩
    unfold Takes Numeral.take
    split
    next further =>
      obtain ⟨behind, same⟩ := List.head?_eq_some_iff.mp alike.symm
      exact absurd same (unsigned behind)
    next => exact taken

theorem leftAtSight_takeNumber {number : Number} (taken : Number.take input = .ok (number, rest)) :
    LeftAtSight (Takes Number.take number) input rest := by
  unfold Number.take at taken
  split at taken
  next => cases taken
  next numeral behind takenNumeral =>
    split at taken
    next => cases taken
    next inRange =>
      obtain ⟨rfl, rfl⟩ := Prod.mk.inj (Except.ok.inj taken)
      refine (leftAtSight_takeNumeral takenNumeral).of_imp fun taken => ?_
      simp only [Takes, Number.take, taken, inRange]

/-! ### Values that are passed over -/

theorem exists_of_map_eq_ok {First Second : Type} {result : Except Fault First}
    {change : First → Second} {value : Second} (success : result.map change = .ok value) :
    ∃ first, result = .ok first ∧ change first = value := by
  cases result with
  | error fault => cases success
  | ok first => exact ⟨first, rfl, Except.ok.inj success⟩

/-- Inputs that begin alike begin with the same characters. -/
theorem not_cons_of_head? {other following : Input} {character : Option Char}
    (alike : other.head? = input.head?) (same : other = character :: following)
    (unlike : ∀ rest, input = character :: rest → False) : False := by
  rw [same] at alike
  obtain ⟨others, sameToo⟩ := List.head?_eq_some_iff.mp alike.symm
  exact unlike others sameToo

theorem leftAtSight_passWord {letter : Char} {word : List Char} {following : Input}
    {opening : Opening} (skipped : skipGap input = some letter :: following)
    (passed : (takeWord word following).map (Opening.complete, ·) = .ok (opening, rest))
    (goesOn : ∀ {input following : Input}, skipGap input = some letter :: following →
      passToken input = (takeWord word following).map (.complete, ·)) :
    LeftAtSight (Takes passToken opening) input rest := by
  obtain ⟨behind, taken, same⟩ := exists_of_map_eq_ok passed
  obtain ⟨rfl, rfl⟩ := Prod.mk.inj same
  refine ((leftUnseen_skipGap skipped).followedBy (leftUnseen_takeWord taken)).atSight.of_imp ?_
  rintro other rest ⟨_, skipped, taken⟩
  rw [Takes, goesOn skipped, taken, Except.map]

/-- The first token of a value is over at the next character, or before it. -/
theorem leftAtSight_passToken {opening : Opening} (passed : passToken input = .ok (opening, rest)) :
    LeftAtSight (Takes passToken opening) input rest := by
  unfold passToken at passed
  split at passed
  next => cases passed
  next following skipped =>
    obtain ⟨rfl, rfl⟩ := Prod.mk.inj (Except.ok.inj passed)
    refine ((leftUnseen_skipGap skipped).of_imp fun skipped => ?_).atSight
    simp only [Takes, passToken, skipped]
  next following skipped =>
    obtain ⟨rfl, rfl⟩ := Prod.mk.inj (Except.ok.inj passed)
    refine ((leftUnseen_skipGap skipped).of_imp fun skipped => ?_).atSight
    simp only [Takes, passToken, skipped]
  next following skipped =>
    obtain ⟨behind, text, same⟩ := exists_of_map_eq_ok passed
    obtain ⟨rfl, rfl⟩ := Prod.mk.inj same
    refine ((leftUnseen_skipGap skipped).followedBy (leftUnseen_passText text)).atSight.of_imp ?_
    rintro other rest ⟨_, skipped, text⟩
    simp only [Takes, passToken, skipped, text, Except.map]
  next skipped => exact leftAtSight_passWord skipped passed fun same => by simp only [passToken, same]
  next skipped => exact leftAtSight_passWord skipped passed fun same => by simp only [passToken, same]
  next skipped => exact leftAtSight_passWord skipped passed fun same => by simp only [passToken, same]
  next noList noObject noText noNull noTrue noFalse =>
    split at passed
    next => cases passed
    next numeral behind taken =>
      obtain ⟨rfl, rfl⟩ := Prod.mk.inj (Except.ok.inj passed)
      refine (leftAtSight_takeNumeral taken).behindGap (Numeral.length_lt_of_take taken)
        fun alike taken => ?_
      unfold Takes passToken
      split
      next empty =>
        rw [empty] at taken
        cases taken
      next same => exact (not_cons_of_head? alike same noList).elim
      next same => exact (not_cons_of_head? alike same noObject).elim
      next same => exact (not_cons_of_head? alike same noText).elim
      next same => exact (not_cons_of_head? alike same noNull).elim
      next same => exact (not_cons_of_head? alike same noTrue).elim
      next same => exact (not_cons_of_head? alike same noFalse).elim
      next => rw [taken]

theorem leftUnseen_passKey (passed : passKey input = .ok rest) :
    LeftUnseen (Passes passKey) input rest := by
  unfold passKey at passed
  split at passed
  next following opened =>
    split at passed
    next => cases passed
    next behind text =>
      split at passed
      next further colon =>
        obtain rfl := Except.ok.inj passed
        refine ((leftUnseen_skipGap opened).followedBy
          ((leftUnseen_passText text).followedBy (leftUnseen_skipGap colon))).of_imp ?_
        rintro other rest ⟨_, opened, _, text, colon⟩
        simp only [Passes, passKey, opened, text, colon]
      next => cases passed
  next => cases passed

theorem leftUnseen_passToItem {nest : Nest} (passed : passToItem nest input = .ok rest) :
    LeftUnseen (Passes (passToItem nest)) input rest := by
  cases nest with
  | list =>
    obtain rfl := Except.ok.inj passed
    exact ⟨[], rfl, fun _ => rfl⟩
  | object => exact leftUnseen_passKey passed

/-- What is closed behind a value is over where something else begins. -/
theorem leftAtSight_passClosers {nests remaining : List Nest} {settled : Bool}
    (passed : passClosers nests settled input = .ok (remaining, rest)) :
    LeftAtSight (Takes (passClosers nests settled) remaining) input rest := by
  fun_induction passClosers nests settled input with
  | case1 settled input =>
    obtain ⟨rfl, rfl⟩ := Prod.mk.inj (Except.ok.inj passed)
    exact ⟨[], rfl, fun others _ => by rw [Takes, List.nil_append, passClosers]⟩
  | case2 => cases passed
  | case3 settled input nest outer character following skipped comma =>
    obtain ⟨behind, item, same⟩ := exists_of_map_eq_ok passed
    obtain ⟨rfl, rfl⟩ := Prod.mk.inj same
    refine ((leftUnseen_skipGap skipped).followedBy (leftUnseen_passToItem item)).atSight.of_imp ?_
    rintro other rest ⟨_, skipped, item⟩
    rw [Takes, passClosers_cons skipped, if_pos comma, item, Except.map]
  | case4 settled input nest outer character following skipped noComma closer inductionHypothesis =>
    refine ((leftUnseen_skipGap skipped).atSight.followedBy (inductionHypothesis passed)).of_imp ?_
    rintro other rest ⟨_, skipped, passed⟩
    rw [Takes, passClosers_cons skipped, if_neg noComma, if_pos closer, passed]
  | case5 => cases passed
  | case6 settled input nest outer character following skipped noComma noCloser unsettled =>
    obtain ⟨behind, item, same⟩ := exists_of_map_eq_ok passed
    obtain ⟨rfl, rfl⟩ := Prod.mk.inj same
    have itemAtSight := (leftUnseen_passToItem item).atSight
    refine ((leftAtSight_skipGap_cons skipped).followedBy itemAtSight).of_imp ?_
    rintro other rest ⟨middle, ⟨alike, skipped⟩, item⟩
    obtain ⟨further, rfl⟩ := List.head?_eq_some_iff.mp alike
    rw [Takes, passClosers_cons skipped, if_neg noComma, if_neg noCloser, if_neg unsettled, item,
      Except.map]

/-- A value is over where its last token is. -/
theorem leftAtSight_passValueIn {nests : List Nest} (passed : passValueIn nests input = .ok rest) :
    LeftAtSight (Passes (passValueIn nests)) input rest := by
  fun_induction passValueIn nests input with
  | case1 => cases passed
  | case2 => cases passed
  | case3 nests input opening following token remaining closers =>
    obtain rfl := Except.ok.inj passed
    refine ((leftAtSight_passToken token).followedBy (leftAtSight_passClosers closers)).of_imp ?_
    rintro other rest ⟨_, token, closers⟩
    rw [Passes, passValueIn_of_passToken token, goOn, closers]
  | case4 nests input opening following token inner remaining opened closers inductionHypothesis =>
    refine ((leftAtSight_passToken token).followedBy
      ((leftAtSight_passClosers closers).followedBy (inductionHypothesis passed))).of_imp ?_
    rintro other rest ⟨_, token, _, closers, passed⟩
    rw [Passes, passValueIn_of_passToken token, goOn, closers]
    cases inner with
    | nil => exact absurd rfl opened
    | cons nest outer => exact passed

end NodeTelemetry.Json
