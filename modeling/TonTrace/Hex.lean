/-! Hexadecimal text.

Either letter case is read and lower case is written. Bytes take two digits
each, and a fixed-width number keeps its leading zeros.
-/

set_option autoImplicit false

namespace TonTrace.Hex

def digit? (c : Char) : Option Nat :=
  if '0' ≤ c ∧ c ≤ '9' then some (c.toNat - '0'.toNat)
  else if 'a' ≤ c ∧ c ≤ 'f' then some (c.toNat - 'a'.toNat + 10)
  else if 'A' ≤ c ∧ c ≤ 'F' then some (c.toNat - 'A'.toNat + 10)
  else none

def isDigit (c : Char) : Bool := (digit? c).isSome

def isBlank (c : Char) : Bool := c = ' ' || c = '\t' || c = '\n' || c = '\r'

def digit (n : Nat) : Char := Nat.digitChar n

def number? (cs : List Char) : Option Nat :=
  cs.foldlM (fun sofar c => (digit? c).map (16 * sofar + ·)) 0

def fixed : Nat → Nat → List Char
  | 0, _ => []
  | width + 1, n => fixed width (n / 16) ++ [digit (n % 16)]

def bytes? : List Char → Option (List UInt8)
  | [] => some []
  | [_] => none
  | high :: low :: rest => do
    let h ← digit? high
    let l ← digit? low
    let tail ← bytes? rest
    return UInt8.ofNat (16 * h + l) :: tail

def ofBytes (bytes : List UInt8) : List Char :=
  bytes.flatMap fun b => fixed 2 b.toNat

def dropMarkers : List Char → List Char
  | '0' :: 'x' :: rest => dropMarkers rest
  | cs => cs

def dropMarker : List Char → List Char
  | '0' :: 'x' :: rest => rest
  | cs => cs

end TonTrace.Hex
