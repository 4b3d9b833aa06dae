import TonTrace.Json.Token

/-! JSON values from text.

The reader takes one token at a time and holds the open containers, innermost
first, so no recursion is needed.
-/

set_option autoImplicit false

namespace TonTrace.Json

/-- An open container with what it holds so far, in reverse. -/
inductive Frame where
  | items (done : List Json)
  /-- `sound` turns false at a name that denotes no text. -/
  | members (done : List (String × Json)) (sound : Bool)
  | member (done : List (String × Json)) (sound : Bool) (name : String)

inductive Expecting where
  | value
  | valueOrEnd
  | nameOrEnd
  | name
  | colon
  | commaOrEnd
  | nothing (read : Json)

structure Reader where
  expecting : Expecting := .value
  stack : List Frame := []

namespace Reader

def put (value : Json) : List Frame → Option Reader
  | [] => some { expecting := .nothing value }
  | .items done :: rest => some { expecting := .commaOrEnd, stack := .items (value :: done) :: rest }
  | .member done sound name :: rest =>
    some { expecting := .commaOrEnd, stack := .members ((name, value) :: done) sound :: rest }
  | .members _ _ :: _ => none

def beginValue (stack : List Frame) : Token → Option Reader
  | .scalar value => put value stack
  | .beginArray => some { expecting := .valueOrEnd, stack := .items [] :: stack }
  | .beginObject => some { expecting := .nameOrEnd, stack := .members [] true :: stack }
  | _ => none

def endContainer : Token → List Frame → Option Reader
  | .endArray, .items done :: rest => put (.array done.reverse) rest
  | .endObject, .members done true :: rest => put (.object done.reverse) rest
  | .endObject, .members _ false :: rest => put .garbled rest
  | _, _ => none

def beginMember : Token → List Frame → Option Reader
  | .scalar (.string name), .members done sound :: rest =>
    some { expecting := .colon, stack := .member done sound name :: rest }
  | .scalar .garbled, .members done _ :: rest =>
    some { expecting := .colon, stack := .member done false "" :: rest }
  | _, _ => none

def step (reader : Reader) (token : Token) : Option Reader :=
  let stack := reader.stack
  match reader.expecting, token with
  | .value, token => beginValue stack token
  | .valueOrEnd, .endArray => endContainer .endArray stack
  | .valueOrEnd, token => beginValue stack token
  | .nameOrEnd, .endObject => endContainer .endObject stack
  | .nameOrEnd, token => beginMember token stack
  | .name, token => beginMember token stack
  | .colon, .colon => some { expecting := .value, stack }
  | .colon, _ => none
  | .commaOrEnd, .comma =>
    match stack with
    | .items _ :: _ => some { expecting := .value, stack }
    | .members _ _ :: _ => some { expecting := .name, stack }
    | _ => none
  | .commaOrEnd, token => endContainer token stack
  | .nothing _, _ => none

end Reader

def parse? (text : String) : Option Json := do
  match (← (← tokens? text).foldlM Reader.step {}).expecting with
  | .nothing value => some value
  | _ => none

end TonTrace.Json
