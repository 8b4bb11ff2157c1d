/-
This file holds the powers of two that bound numbers of so many bits, and the powers of ten that
decimal numerals are scaled by.
-/

namespace NodeTelemetry

abbrev twoTo (exponent : Nat) : Nat :=
  Nat.pow 2 exponent

abbrev tenTo (exponent : Nat) : Nat :=
  Nat.pow 10 exponent

end NodeTelemetry
