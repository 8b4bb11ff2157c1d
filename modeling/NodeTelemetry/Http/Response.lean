/-
This file holds the responses to HTTP requests. They are written as text, and the bytes that came
over a connection are read as a response.
-/

import NodeTelemetry.Text.Utf8

namespace NodeTelemetry.Http

structure Response where
  status : Nat
  contentType : Option String
  body : String
deriving DecidableEq

/-! ### Writing -/

def reason (status : Nat) : String :=
  match status with
  | 200 => "OK"
  | 400 => "Bad Request"
  | 404 => "Not Found"
  | _ => ""

/-- The text of a response after which the connection ends. -/
def Response.text (response : Response) : String :=
  "\r\n".intercalate
    (["HTTP/1.1 " ++ toString response.status ++ " " ++ reason response.status] ++
      (response.contentType.map ("content-type: " ++ ·)).toList ++
      ["content-length: " ++ toString (Text.Utf8.encode response.body).length,
        "connection: close",
        "",
        response.body])

/-! ### Reading -/

/-- The bytes before the first empty line and those behind it. -/
def splitHead? (bytes : List UInt8) : Option (List UInt8 × List UInt8) :=
  match bytes with
  | [] => none
  | 13 :: 10 :: 13 :: 10 :: body => some ([], body)
  | byte :: rest => (splitHead? rest).map fun (head, body) => (byte :: head, body)

/-- The status that the first line of a response tells. -/
def statusOf? (line : String) : Option Nat :=
  match line.splitOn " " with
  | version :: code :: _ =>
    if version.startsWith "HTTP/1." && code.length == 3 && code.toList.all Char.isDigit then
      code.toNat?
    else none
  | _ => none

/-- The status and the body of a response that came with the whole connection. -/
def readResponse? (bytes : List UInt8) : Option (Nat × List UInt8) := do
  let (head, body) ← splitHead? bytes
  let line ← ((Text.Utf8.decodeLossy head).splitOn "\r\n").head?
  return (← statusOf? line, body)

end NodeTelemetry.Http
