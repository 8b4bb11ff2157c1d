/-
This file connects the exporter with the network: it listens for those who collect the published
values, and it asks the validator directory.
-/

import NodeTelemetry.Endpoint
import NodeTelemetry.Exporter
import NodeTelemetry.Http.Url
import NodeTelemetry.Startup
import Std.Async.DNS
import Std.Async.TCP
import Std.Async.Timer

namespace NodeTelemetry.Machine

open Std.Async

/-! ### Addresses -/

def ipv4 (address : Net.Ipv4) : Std.Net.IPv4Addr :=
  .ofParts address.first address.second address.third address.fourth

def ipv6 (address : Net.Ipv6) : Std.Net.IPv6Addr :=
  let group (index : Nat) : UInt16 := address.groups.getD index 0
  .ofParts (group 0) (group 1) (group 2) (group 3) (group 4) (group 5) (group 6) (group 7)

def socketAddress : Net.SocketAddress → Std.Net.SocketAddress
  | .v4 host port => .v4 ⟨ipv4 host, port⟩
  | .v6 host _ port => .v6 ⟨ipv6 host, port⟩

/-! ### Serving -/

/-- Why listening failed. -/
def listenFault (error : IO.Error) : Startup.ListenFault :=
  match error with
  | .permissionDenied .. => .permissionDenied
  | .resourceBusy .. => .addressInUse
  | .unsupportedOperation .. => .addressNotAvailable
  | other => .other (toString other)

/-- Listens on an address. -/
def listen (address : Net.SocketAddress) : IO (Except Startup.ListenFault TCP.Socket.Server) :=
  try
    let server ← TCP.Socket.Server.mk
    server.bind (socketAddress address)
    server.listen 128
    return .ok server
  catch error => return .error (listenFault error)

def chunkLength : UInt64 :=
  65536

/-- How long the head of a request can be, in bytes. -/
def headLimit : Nat :=
  65536

/-- Receives the head of a request. -/
def receiveHead (client : TCP.Socket.Client) : Async String := do
  let mut received := ByteArray.empty
  repeat
    let some chunk ← client.recv? chunkLength | break
    received := received ++ chunk
    if (Http.splitHead? received.toList).isSome || headLimit < received.size then break
  return Text.Utf8.decodeLossy received.toList

/-- Answers one request. -/
def serveOne (exporter : IO.Ref Exporter) (client : TCP.Socket.Client) : Async Unit := do
  let head ← receiveHead client
  let line := ((head.splitOn "\r\n").head?).getD ""
  let response := Endpoint.respondTo (← exporter.get).registry line
  client.send response.text.toUTF8
  client.shutdown

/-- Answers requests, each on its own. -/
def serve (exporter : IO.Ref Exporter) (server : TCP.Socket.Server) : Async Unit := do
  repeat
    let client ← server.accept
    background (serveOne exporter client)

/-! ### Asking the directory -/

/-- The request for all validators. -/
def directoryRequest (url : Http.Url) : Http.Request :=
  { line := ⟨Directory.requestMethod, url.target⟩
    host := url.host
    contentType := Directory.requestContentType
    body := Directory.requestBody }

/-- Sends the request and receives all that comes back. -/
def exchangeWith (url : Http.Url) : Async (List UInt8) := do
  let addresses ← DNS.getAddrInfo url.host ""
  let some address := addresses[0]? | throw (IO.userError "no address")
  let client ← TCP.Socket.Client.mk
  client.connect <|
    match address with
    | .v4 host => .v4 ⟨host, url.port⟩
    | .v6 host => .v6 ⟨host, url.port⟩
  client.send (directoryRequest url).text.toUTF8
  let mut received := ByteArray.empty
  repeat
    let some chunk ← client.recv? chunkLength | break
    received := received ++ chunk
  return received.toList

/-- Asks the directory. Whatever fails or takes too long is silence. -/
def ask (settings : Settings) : IO Directory.Exchange := do
  let some url := Http.Url.ofText? settings.directoryUrl | return .silence
  let limit : Std.Time.Millisecond.Offset := .ofNat settings.directoryTimeout
  let late : Async (List UInt8) := do
    sleep limit
    return []
  try
    let received ← (Async.race (exchangeWith url) late).block
    match Http.readResponse? received with
    | none => return .silence
    | some (status, body) => return .reply status body
  catch _ => return .silence

end NodeTelemetry.Machine
