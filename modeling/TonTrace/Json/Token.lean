import TonTrace.Json
import TonTrace.Hex

/-! The tokens of JSON text.

The scanner reads one character at a time. Its mode says what the last
characters have begun; a word or a number ends at the first character that
cannot continue it.
-/

set_option autoImplicit false

namespace TonTrace.Json

inductive Token where
  | beginArray
  | endArray
  | beginObject
  | endObject
  | comma
  | colon
  | scalar (value : Json)

/-- Text from code points, where a high surrogate is joined with the low one
right behind it. Any other surrogate denotes no text. -/
def joinSurrogates : List Nat → Option (List Char)
  | [] => some []
  | high :: rest =>
    if 0xd800 ≤ high ∧ high < 0xdc00 then
      match rest with
      | low :: rest =>
        if 0xdc00 ≤ low ∧ low < 0xe000 then
          (joinSurrogates rest).map
            (Char.ofNat (0x10000 + (high - 0xd800) * 0x400 + (low - 0xdc00)) :: ·)
        else none
      | [] => none
    else if 0xdc00 ≤ high ∧ high < 0xe000 then none
    else (joinSurrogates rest).map (Char.ofNat high :: ·)

def ofCodePoints (points : List Nat) : Json :=
  match joinSurrogates points with
  | some cs => .string (String.ofList cs)
  | none => .garbled

def dropFraction? : List Char → Option (Bool × List Char)
  | '.' :: rest =>
    if (rest.takeWhile Char.isDigit).isEmpty then none
    else some (true, rest.dropWhile Char.isDigit)
  | rest => some (false, rest)

/-- Whether the rest of a number is empty or an exponent; true for an exponent. -/
def exponent? : List Char → Option Bool
  | [] => some false
  | mark :: rest =>
    let unsigned := match rest with
      | '+' :: digits => digits
      | '-' :: digits => digits
      | digits => digits
    if (mark = 'e' ∨ mark = 'E') ∧ unsigned ≠ [] ∧ unsigned.all Char.isDigit then some true else none

/-- The value of a number literal: digits without a leading zero, then perhaps
a fraction, then perhaps an exponent. Minus zero is not a whole number. -/
def ofNumeral? (literal : List Char) : Option Json := do
  let negative := literal.head? = some '-'
  let body := if negative then literal.tail else literal
  let whole := body.takeWhile Char.isDigit
  if whole.isEmpty ∨ (whole.head? = some '0' ∧ whole ≠ ['0']) then failure
  let (fractional, rest) ← dropFraction? (body.dropWhile Char.isDigit)
  let scaled ← exponent? rest
  let magnitude : Int := Nat.ofDigitChars 10 whole 0
  let value := if negative then -magnitude else magnitude
  if fractional ∨ scaled ∨ (negative ∧ magnitude = 0) ∨ ¬IsWhole value then
    return .decimal (String.ofList literal)
  return .integer value

def ofWord? (word : List Char) : Option Json :=
  if word = "null".toList then some .null
  else if word = "true".toList then some (.bool true)
  else if word = "false".toList then some (.bool false)
  else none

/-- What the last characters have begun; texts are held in reverse. -/
inductive Mode where
  | between
  | word (soFar : List Char)
  | number (soFar : List Char)
  | text (soFar : List Nat)
  | escape (soFar : List Nat)
  | codePoint (soFar : List Nat) (digits : List Char)

structure Scanner where
  mode : Mode := .between
  tokens : List Token := []

namespace Scanner

def start (tokens : List Token) (c : Char) : Option Scanner :=
  if c = ' ' ∨ c = '\n' ∨ c = '\t' ∨ c = '\r' then some { tokens }
  else if c = '[' then some { tokens := .beginArray :: tokens }
  else if c = ']' then some { tokens := .endArray :: tokens }
  else if c = '\x7b' then some { tokens := .beginObject :: tokens }
  else if c = '\x7d' then some { tokens := .endObject :: tokens }
  else if c = ',' then some { tokens := .comma :: tokens }
  else if c = ':' then some { tokens := .colon :: tokens }
  else if c = '"' then some { mode := .text [], tokens }
  else if c = '-' ∨ c.isDigit then some { mode := .number [c], tokens }
  else if c.isLower then some { mode := .word [c], tokens }
  else none

def escaped? (c : Char) : Option Nat :=
  if c = '"' ∨ c = '\\' ∨ c = '/' then some c.toNat
  else if c = 'b' then some 8
  else if c = 't' then some 9
  else if c = 'n' then some 10
  else if c = 'f' then some 12
  else if c = 'r' then some 13
  else none

def step (scanner : Scanner) (c : Char) : Option Scanner :=
  let tokens := scanner.tokens
  match scanner.mode with
  | .between => start tokens c
  | .word soFar =>
    if c.isLower then some { mode := .word (c :: soFar), tokens }
    else do start (.scalar (← ofWord? soFar.reverse) :: tokens) c
  | .number soFar =>
    if c.isDigit ∨ c = '+' ∨ c = '-' ∨ c = '.' ∨ c = 'e' ∨ c = 'E' then
      some { mode := .number (c :: soFar), tokens }
    else do start (.scalar (← ofNumeral? soFar.reverse) :: tokens) c
  | .text soFar =>
    if c = '"' then some { tokens := .scalar (ofCodePoints soFar.reverse) :: tokens }
    else if c = '\\' then some { mode := .escape soFar, tokens }
    else if c.toNat < 32 then none
    else some { mode := .text (c.toNat :: soFar), tokens }
  | .escape soFar =>
    if c = 'u' then some { mode := .codePoint soFar [], tokens }
    else do return { mode := .text ((← escaped? c) :: soFar), tokens }
  | .codePoint soFar digits =>
    let digits := c :: digits
    if digits.length < 4 then do
      let _ ← Hex.digit? c
      return { mode := .codePoint soFar digits, tokens }
    else do return { mode := .text ((← Hex.number? digits.reverse) :: soFar), tokens }

def finish? (scanner : Scanner) : Option (List Token) :=
  match scanner.mode with
  | .between => some scanner.tokens.reverse
  | .word soFar => do return (.scalar (← ofWord? soFar.reverse) :: scanner.tokens).reverse
  | .number soFar => do return (.scalar (← ofNumeral? soFar.reverse) :: scanner.tokens).reverse
  | _ => none

end Scanner

def tokens? (text : String) : Option (List Token) := do
  (← text.toList.foldlM Scanner.step {}).finish?

end TonTrace.Json
