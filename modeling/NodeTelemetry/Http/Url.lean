/-
This file reads the addresses of services on the web: a host, perhaps a port, and what is asked for.
Only services without encryption have such an address here.
-/

import NodeTelemetry.Net.Ipv4

namespace NodeTelemetry.Http

structure Url where
  host : String
  port : UInt16
  target : String
deriving DecidableEq

namespace Url

def scheme : List Char :=
  "http://".toList

def defaultPort : UInt16 :=
  80

/-- What stands in front of the target: a host and what comes behind it. A host in brackets may hold
colons. -/
def splitHost (authority : List Char) : List Char × List Char :=
  match authority with
  | '[' :: rest => (rest.takeWhile (· != ']'), (rest.dropWhile (· != ']')).drop 1)
  | _ => (authority.takeWhile (· != ':'), authority.dropWhile (· != ':'))

/-- The port behind a host, if a number is there. -/
def portOf? (text : List Char) : Option UInt16 :=
  match text with
  | [] => some defaultPort
  | ':' :: digits =>
    match Net.takeNumber (twoTo 16) digits with
    | some (number, []) => some (UInt16.ofNat number)
    | _ => none
  | _ => none

/-- The target without a fragment. It begins with a slash. -/
def targetOf (text : List Char) : List Char :=
  match text.takeWhile (· != '#') with
  | '/' :: rest => '/' :: rest
  | rest => '/' :: rest

def isOutsideTarget (character : Char) : Bool :=
  character != '/' && character != '?' && character != '#'

/-- Reads an address. -/
def ofText? (text : String) : Option Url :=
  if scheme.isPrefixOf text.toList then
    let rest := text.toList.drop scheme.length
    let (host, port) := splitHost (rest.takeWhile isOutsideTarget)
    if host.isEmpty then none
    else
      (portOf? port).map fun port =>
        { host := String.ofList host
          port := port
          target := String.ofList (targetOf (rest.dropWhile isOutsideTarget)) }
  else none

end Url

end NodeTelemetry.Http
