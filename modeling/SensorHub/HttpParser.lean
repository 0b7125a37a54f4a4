import Mathlib.Tactic

/-!
# The parser of HTTP requests

`Request_parser::consume` takes one character, changes the request and goes to
another state, or it ends the request as good or bad.  `parse` consumes the
characters it is given until there is a result, and a connection calls it with
every chunk that it reads while the result is indeterminate.

Characters are signed.  The last header of an empty list is undefined, there is
no next state then.
-/

namespace SensorHub.Http

/-- The type `char` -/
abbrev Char8 := Int8

/-- Code of a character constant. -/
def chr (constant : Char) : Char8 :=
  Int8.ofNat constant.toNat

structure Header where
  name : List Char8
  value : List Char8
  deriving DecidableEq, Repr

structure Request where
  method : List Char8
  uri : List Char8
  httpVersionMajor : ℤ
  httpVersionMinor : ℤ
  headers : List Header
  deriving DecidableEq, Repr

inductive ResultType where
  | good
  | bad
  | indeterminate
  deriving DecidableEq, Repr

inductive State where
  | methodStart
  | method
  | uri
  | httpVersionH
  | httpVersionT1
  | httpVersionT2
  | httpVersionP
  | httpVersionSlash
  | httpVersionMajorStart
  | httpVersionMajor
  | httpVersionMinorStart
  | httpVersionMinor
  | expectingNewline1
  | headerLineStart
  | headerLws
  | headerName
  | spaceBeforeHeaderValue
  | headerValue
  | expectingNewline2
  | expectingNewline3
  deriving DecidableEq, Repr

/-! ## Classes of characters -/

def isChar (c : Char8) : Bool :=
  0 ≤ c.toInt ∧ c.toInt ≤ 127

def isCtl (c : Char8) : Bool :=
  0 ≤ c.toInt ∧ c.toInt ≤ 31 ∨ c.toInt = 127

def isTspecial (c : Char8) : Bool :=
  c ∈ [ '(', ')', '<', '>', '@', ',', ';', ':', '\\', '"', '/', '[', ']', '?',
    '=', '{', '}', ' ', '\t'].map chr

def isDigit (c : Char8) : Bool :=
  (chr '0').toInt ≤ c.toInt ∧ c.toInt ≤ (chr '9').toInt

/-! ## Changes of the request -/

namespace Request

/-- A new request; the version is not initialised. -/
def fresh (major minor : ℤ) : Request :=
  ⟨[], [], major, minor, []⟩

def pushMethod (req : Request) (input : Char8) : Request :=
  { req with method := req.method ++ [input] }

def pushUri (req : Request) (input : Char8) : Request :=
  { req with uri := req.uri ++ [input] }

def clearVersion (req : Request) : Request :=
  { req with httpVersionMajor := 0, httpVersionMinor := 0 }

/-- The number with one more digit; overflow is left out. -/
def pushDigit (number : ℤ) (input : Char8) : ℤ :=
  number * 10 + input.toInt - (chr '0').toInt

def pushMajor (req : Request) (input : Char8) : Request :=
  { req with httpVersionMajor := pushDigit req.httpVersionMajor input }

def pushMinor (req : Request) (input : Char8) : Request :=
  { req with httpVersionMinor := pushDigit req.httpVersionMinor input }

def pushHeader (req : Request) (input : Char8) : Request :=
  { req with headers := req.headers ++ [⟨[input], []⟩] }

def modifyBack (change : Header → Header) (req : Request) : Request :=
  { req with headers := req.headers.modifyLast change }

def pushName (req : Request) (input : Char8) : Request :=
  req.modifyBack fun header => { header with name := header.name ++ [input] }

def pushValue (req : Request) (input : Char8) : Request :=
  req.modifyBack fun header => { header with value := header.value ++ [input] }

end Request

/-! ## The parser -/

structure Consumed where
  result : ResultType
  state : State
  request : Request

def Consumed.goOn (state : State) (req : Request) : Consumed :=
  ⟨.indeterminate, state, req⟩

/-- Access to `headers.back()`. -/
def withBack (req : Request) (consumed : Consumed) : Option Consumed :=
  if req.headers = [] then none else some consumed

open Consumed in
def consume (state : State) (req : Request) (input : Char8) :
    Option Consumed :=
  let bad : Option Consumed := some ⟨.bad, state, req⟩
  match state with
  | .methodStart =>
      if !isChar input || isCtl input || isTspecial input then bad
      else some (goOn .method (req.pushMethod input))
  | .method =>
      if input = chr ' ' then some (goOn .uri req)
      else if !isChar input || isCtl input || isTspecial input then bad
      else some (goOn .method (req.pushMethod input))
  | .uri =>
      if input = chr ' ' then some (goOn .httpVersionH req)
      else if isCtl input then bad
      else some (goOn .uri (req.pushUri input))
  | .httpVersionH =>
      if input = chr 'H' then some (goOn .httpVersionT1 req) else bad
  | .httpVersionT1 =>
      if input = chr 'T' then some (goOn .httpVersionT2 req) else bad
  | .httpVersionT2 =>
      if input = chr 'T' then some (goOn .httpVersionP req) else bad
  | .httpVersionP =>
      if input = chr 'P' then some (goOn .httpVersionSlash req) else bad
  | .httpVersionSlash =>
      if input = chr '/' then
        some (goOn .httpVersionMajorStart req.clearVersion)
      else bad
  | .httpVersionMajorStart =>
      if isDigit input then some (goOn .httpVersionMajor (req.pushMajor input))
      else bad
  | .httpVersionMajor =>
      if input = chr '.' then some (goOn .httpVersionMinorStart req)
      else if isDigit input then
        some (goOn .httpVersionMajor (req.pushMajor input))
      else bad
  | .httpVersionMinorStart =>
      if isDigit input then some (goOn .httpVersionMinor (req.pushMinor input))
      else bad
  | .httpVersionMinor =>
      if input = chr '\r' then some (goOn .expectingNewline1 req)
      else if isDigit input then
        some (goOn .httpVersionMinor (req.pushMinor input))
      else bad
  | .expectingNewline1 =>
      if input = chr '\n' then some (goOn .headerLineStart req) else bad
  | .headerLineStart =>
      if input = chr '\r' then some (goOn .expectingNewline3 req)
      else if req.headers ≠ [] ∧ (input = chr ' ' ∨ input = chr '\t') then
        some (goOn .headerLws req)
      else if !isChar input || isCtl input || isTspecial input then bad
      else some (goOn .headerName (req.pushHeader input))
  | .headerLws =>
      if input = chr '\r' then some (goOn .expectingNewline2 req)
      else if input = chr ' ' ∨ input = chr '\t' then some (goOn .headerLws req)
      else if isCtl input then bad
      else withBack req (goOn .headerValue (req.pushValue input))
  | .headerName =>
      if input = chr ':' then some (goOn .spaceBeforeHeaderValue req)
      else if !isChar input || isCtl input || isTspecial input then bad
      else withBack req (goOn .headerName (req.pushName input))
  | .spaceBeforeHeaderValue =>
      if input = chr ' ' then some (goOn .headerValue req) else bad
  | .headerValue =>
      if input = chr '\r' then some (goOn .expectingNewline2 req)
      else if isCtl input then bad
      else withBack req (goOn .headerValue (req.pushValue input))
  | .expectingNewline2 =>
      if input = chr '\n' then some (goOn .headerLineStart req) else bad
  | .expectingNewline3 =>
      if input = chr '\n' then some ⟨.good, state, req⟩ else bad

/-- Result of `parse`, with the characters that were not consumed. -/
structure Parsed where
  result : ResultType
  unread : List Char8
  state : State
  request : Request

def parse (state : State) (req : Request) : List Char8 → Option Parsed
  | [] => some ⟨.indeterminate, [], state, req⟩
  | input :: rest =>
      match consume state req input with
      | none => none
      | some consumed =>
          if consumed.result = .indeterminate then
            parse consumed.state consumed.request rest
          else
            some ⟨consumed.result, rest, consumed.state, consumed.request⟩

/-- The calls of a connection, with the chunks in the order in which they are
read. -/
def readChunks (state : State) (req : Request) :
    List (List Char8) → Option Parsed
  | [] => some ⟨.indeterminate, [], state, req⟩
  | chunk :: chunks =>
      match parse state req chunk with
      | none => none
      | some parsed =>
          if parsed.result = .indeterminate then
            readChunks parsed.state parsed.request chunks
          else
            some { parsed with unread := parsed.unread ++ chunks.flatten }

end SensorHub.Http
