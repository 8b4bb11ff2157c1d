/-
This file shows that strings are read as they are written: a string that is decoded gives the
characters that it stands for, in whatever way they are spelled, and a string that is passed over is
left behind up to its closing quote.

A spelling is a list of pieces, each of which stands for one character: a plain character for
itself, an escape of one letter, an escape of four digits, or two of these for a character outside
the first 65536. Each piece is taken by one step of the decoder whatever follows it, so an induction
over the spelling gives the whole string. The decoder collects characters in front of those it has,
so they come out in reverse, which the statement takes into account.
-/

import NodeTelemetry.Proofs.Json.Grammar

namespace NodeTelemetry.Json

variable {raw characters digits : List Char} {rest : Input}

/-! ### Escapes -/

theorem takeFourDigits_of_isHex {unit : Nat} (isHex : IsHex digits unit) (rest : Input) :
    takeFourDigits (digits.map some ++ rest) = .ok (unit, rest) := by
  cases isHex with
  | four ofFirst ofSecond ofThird ofFourth =>
    simp [takeFourDigits, ofFirst, ofSecond, ofThird, ofFourth]

theorem ne_u_of_shortEscape? {letter character : Char}
    (escape : shortEscape? letter = some character) : letter ≠ 'u' := by
  rintro rfl
  cases escape

theorem takeEscape_short {letter character : Char}
    (escape : shortEscape? letter = some character) (rest : Input) :
    takeEscape (some letter :: rest) = .ok (character, rest) := by
  simp [takeEscape, ne_u_of_shortEscape? escape, escape]

/-- An escape of four digits gives the character with this number. -/
theorem takeEscape_unit {unit : Nat} (isHex : IsHex digits unit)
    (notLeading : isLeadingSurrogate unit = false)
    (notTrailing : isTrailingSurrogate unit = false) (rest : Input) :
    takeEscape (some 'u' :: (digits.map some ++ rest)) = .ok (Char.ofNat unit, rest) := by
  simp [takeEscape, takeFourDigits_of_isHex isHex, notLeading, notTrailing]

/-- What may begin a pair cannot end one. -/
theorem not_isTrailingSurrogate {unit : Nat} (isLeading : isLeadingSurrogate unit = true) :
    isTrailingSurrogate unit = false := by
  simp only [isLeadingSurrogate, Bool.and_eq_true, decide_eq_true_eq] at isLeading
  simp only [isTrailingSurrogate, Bool.and_eq_false_iff, decide_eq_false_iff_not]
  exact .inl (Nat.not_le.mpr isLeading.2)

/-- Two escapes that form a pair give one character. -/
theorem takeEscape_pair {digitsToo : List Char} {leading trailing : Nat}
    (isHex : IsHex digits leading) (isLeading : isLeadingSurrogate leading = true)
    (isHexToo : IsHex digitsToo trailing) (isTrailing : isTrailingSurrogate trailing = true)
    (rest : Input) :
    takeEscape (some 'u' :: (digits.map some ++
        some '\\' :: some 'u' :: (digitsToo.map some ++ rest))) =
      .ok (Char.ofNat (0x10000 + (leading - 0xD800) * 0x400 + (trailing - 0xDC00)), rest) := by
  simp [takeEscape, takeTrailing, takeFourDigits_of_isHex isHex, takeFourDigits_of_isHex isHexToo,
    not_isTrailingSurrogate isLeading, isLeading, isTrailing]

theorem passEscape_short {letter character : Char}
    (escape : shortEscape? letter = some character) (rest : Input) :
    passEscape (some letter :: rest) = .ok rest := by
  simp [passEscape, ne_u_of_shortEscape? escape, escape]

theorem passEscape_unit {unit : Nat} (isHex : IsHex digits unit) (rest : Input) :
    passEscape (some 'u' :: (digits.map some ++ rest)) = .ok rest := by
  simp [passEscape, takeFourDigits_of_isHex isHex]

/-! ### Decoding -/

/-- What needs no escape stands for itself. -/
theorem spells_self (plain : characters.all (IsPlain ·) = true) : Spells characters characters := by
  induction characters with
  | nil => exact .nil
  | cons character others inductionHypothesis =>
    obtain ⟨first, further⟩ := Bool.and_eq_true_iff.mp plain
    exact .plain (of_decide_eq_true first) (inductionHypothesis further)

theorem textFrom_escape {taken : List (Option Char)} {input : Input} {character : Char}
    (escape : takeEscape input = .ok (character, rest)) :
    textFrom taken (some '\\' :: input) = textFrom (some character :: taken) rest := by
  rw [textFrom, escape]

/-- A plain character is taken as it is. -/
theorem textFrom_plain {character : Char} (isPlain : IsPlain character)
    (taken : List (Option Char)) (rest : Input) :
    textFrom taken (some character :: rest) = textFrom (some character :: taken) rest := by
  obtain ⟨printable, notQuote, notBackslash⟩ := isPlain
  have notControl : isControl (some character) = false :=
    decide_eq_false (Nat.not_lt.mpr printable)
  rw [textFrom, notControl, if_neg Bool.false_ne_true] <;> simp [notQuote, notBackslash]

theorem mapM_id_map_some (characters : List Char) :
    (characters.map some).mapM id = some characters := by
  induction characters with
  | nil => rfl
  | cons character others inductionHypothesis =>
    rw [List.map_cons, List.mapM_cons, inductionHypothesis]
    rfl

/-- Characters that are spelled are taken one after the other. -/
theorem textFrom_append_of_spells (spells : Spells raw characters) (taken : List (Option Char))
    (rest : Input) :
    textFrom taken (raw.map some ++ rest) = textFrom (characters.reverse.map some ++ taken) rest := by
  induction spells generalizing taken with
  | nil => rfl
  | plain isPlain _ inductionHypothesis =>
    rw [List.map_cons, List.cons_append, textFrom_plain isPlain, inductionHypothesis]
    simp
  | short escape _ inductionHypothesis =>
    rw [List.map_cons, List.map_cons, List.cons_append, List.cons_append,
      textFrom_escape (takeEscape_short escape _), inductionHypothesis]
    simp
  | unit isHex notLeading notTrailing _ inductionHypothesis =>
    rw [List.map_cons, List.map_cons, List.map_append, List.cons_append, List.cons_append,
      List.append_assoc, textFrom_escape (takeEscape_unit isHex notLeading notTrailing _),
      inductionHypothesis]
    simp
  | pair isHex isLeading isHexToo isTrailing _ inductionHypothesis =>
    simp only [List.map_cons, List.map_append, List.cons_append, List.append_assoc]
    rw [textFrom_escape (takeEscape_pair isHex isLeading isHexToo isTrailing _),
      inductionHypothesis]
    simp

/-- A string gives the characters that it stands for, behind those taken already. -/
theorem textFrom_of_spells (spells : Spells raw characters) (earlier : List Char) (rest : Input) :
    textFrom (earlier.reverse.map some) (raw.map some ++ some '"' :: rest) =
      .ok (String.ofList (earlier ++ characters), rest) := by
  -- The characters are collected with the latest in front.
  have collected : characters.reverse.map some ++ earlier.reverse.map some =
      ((earlier ++ characters).map some).reverse := by
    rw [← List.map_append, ← List.reverse_append, List.map_reverse]
  rw [textFrom_append_of_spells spells, textFrom, closeText, collected, List.reverse_reverse,
    mapM_id_map_some]

/-! ### Passing over -/

theorem passText_escape {input : Input} (escape : passEscape input = .ok rest) :
    passText (some '\\' :: input) = passText rest := by
  rw [passText, escape]

theorem passText_plain {character : Char} (isPlain : IsPlain character) (rest : Input) :
    passText (some character :: rest) = passText rest := by
  obtain ⟨printable, notQuote, notBackslash⟩ := isPlain
  have notControl : isControl (some character) = false :=
    decide_eq_false (Nat.not_lt.mpr printable)
  rw [passText, notControl, if_neg Bool.false_ne_true] <;> simp [notQuote, notBackslash]

/-- A string is passed over up to its closing quote. -/
theorem passText_of_isLoose (isLoose : IsLoose raw) (rest : Input) :
    passText (raw.map some ++ some '"' :: rest) = .ok rest := by
  induction isLoose with
  | nil => rw [List.map_nil, List.nil_append, passText]
  | plain isPlain _ inductionHypothesis =>
    rw [List.map_cons, List.cons_append, passText_plain isPlain, inductionHypothesis]
  | short escape _ inductionHypothesis =>
    rw [List.map_cons, List.map_cons, List.cons_append, List.cons_append,
      passText_escape (passEscape_short escape _), inductionHypothesis]
  | unit isHex _ inductionHypothesis =>
    rw [List.map_cons, List.map_cons, List.map_append, List.cons_append, List.cons_append,
      List.append_assoc, passText_escape (passEscape_unit isHex _), inductionHypothesis]

end NodeTelemetry.Json
