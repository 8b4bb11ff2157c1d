/-
This file holds the first line of an HTTP request: its method, its target and the path that the
target names. It is read from the text of the line, and whole requests are written.
-/

import NodeTelemetry.Text.Utf8

namespace NodeTelemetry.Http

structure RequestLine where
  method : String
  target : String
deriving DecidableEq

/-! ### Well-formed lines -/

/-- The marks that a method may hold besides letters and digits. -/
def methodMarks : List Char :=
  ['!', '#', '$', '%', '&', '\x27', '*', '+', '-', '.', '^', '_', '\x60', '|', '~']

def isMethodCharacter (character : Char) : Bool :=
  character.isAlphanum || methodMarks.contains character

/-- The characters of targets are visible, and some marks are kept out. -/
def isTargetCharacter (character : Char) : Bool :=
  '!' ≤ character && character ≤ '~' && character != '<' && character != '>' && character != '\x60'

def RequestLine.isWellFormed (line : RequestLine) : Bool :=
  !line.method.isEmpty && line.method.toList.all isMethodCharacter &&
    !line.target.isEmpty && line.target.toList.all isTargetCharacter

/-! ### The path of a target -/

/-- The characters in front of a query or a fragment. -/
def beforeQuery (target : List Char) : List Char :=
  target.takeWhile fun character => character != '?' && character != '#'

/-- What stands behind `://`, if this stands anywhere. -/
def behindScheme? (target : List Char) : Option (List Char) :=
  match target with
  | [] => none
  | ':' :: '/' :: '/' :: rest => some rest
  | _ :: rest => behindScheme? rest

/-- The path that a target names. An absolute target without a path names the top. -/
def pathOf (target : String) : String :=
  match target.toList with
  | '/' :: rest => String.ofList ('/' :: beforeQuery rest)
  | characters =>
    match behindScheme? characters with
    | none => String.ofList (beforeQuery characters)
    | some rest =>
      let path := (beforeQuery rest).dropWhile (· != '/')
      if path.isEmpty then "/" else String.ofList path

/-! ### Reading and writing -/

def versions : List String :=
  ["HTTP/1.0", "HTTP/1.1"]

/-- Reads the first line of a request. -/
def RequestLine.ofText? (text : String) : Option RequestLine :=
  match text.splitOn " " with
  | [method, target, version] =>
    let line : RequestLine := ⟨method, target⟩
    if versions.contains version && line.isWellFormed then some line else none
  | _ => none

/-- A request with a body, after which the connection ends. -/
structure Request where
  line : RequestLine
  host : String
  contentType : String
  body : String

def Request.text (request : Request) : String :=
  "\r\n".intercalate
    [request.line.method ++ " " ++ request.line.target ++ " HTTP/1.0",
      "host: " ++ request.host,
      "content-type: " ++ request.contentType,
      "content-length: " ++ toString (Text.Utf8.encode request.body).length,
      "",
      request.body]

end NodeTelemetry.Http
