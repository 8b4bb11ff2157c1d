/-
This file cuts bytes into lines. A line ends with a line feed, which belongs to it, so the lines and
the bytes behind them make up the bytes they were cut from. A line is delivered as text, without the
line feed and one carriage return before it, unless there is nothing in it but blanks.
-/

import NodeTelemetry.Files.Path
import NodeTelemetry.Text.Blank
import NodeTelemetry.Text.Utf8

namespace NodeTelemetry.Tail

def lineFeed : UInt8 :=
  10

def carriageReturn : UInt8 :=
  13

/-! ### Cutting -/

/-- The bytes up to the first line feed, this included, and the bytes behind it. -/
def splitLine? (bytes : List UInt8) : Option (List UInt8 × List UInt8) :=
  match bytes.span (· != lineFeed) with
  | (_, []) => none
  | (before, feed :: rest) => some (before ++ [feed], rest)

/-- The lines at the front of some bytes, at most `limit` of them, and the bytes behind them. -/
def takeLines (limit : Nat) (bytes : List UInt8) : List (List UInt8) × List UInt8 :=
  match limit with
  | 0 => ([], bytes)
  | limit + 1 =>
    match splitLine? bytes with
    | none => ([], bytes)
    | some (line, rest) =>
      let (lines, rest) := takeLines limit rest
      (line :: lines, rest)

/-! ### Segments -/

/-- Without a certain byte at the end, if it is there. -/
def dropEnd (byte : UInt8) (bytes : List UInt8) : List UInt8 :=
  if bytes.getLast? = some byte then bytes.dropLast else bytes

/-- Bytes that were consumed: a line, or what was left at the end of a file. -/
structure Segment where
  path : Path
  /-- Where in the file the bytes begin. -/
  start : Nat
  bytes : List UInt8
deriving DecidableEq

/-- The text of a segment. -/
def Segment.text (segment : Segment) : String :=
  Text.Utf8.decodeLossy (dropEnd carriageReturn (dropEnd lineFeed segment.bytes))

/-- What is delivered for a segment. -/
def Segment.delivered? (segment : Segment) : Option String :=
  if Text.isAllBlank segment.text then none else some segment.text

/-- Segments that lie one behind the other in a file. -/
def segmentsFrom (path : Path) (start : Nat) : List (List UInt8) → List Segment
  | [] => []
  | bytes :: others => ⟨path, start, bytes⟩ :: segmentsFrom path (start + bytes.length) others

end NodeTelemetry.Tail
