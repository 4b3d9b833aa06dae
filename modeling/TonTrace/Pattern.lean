import TonTrace.Reading

/-! Patterns of events.

A pattern asks for a node that passes its checks and has a matching child for
each of its parts. A part takes the first child that it matches; an optional
part may go without one. Parts choose on their own, so two parts may take the
same child.
-/

set_option autoImplicit false

namespace TonTrace

/-- How to recognise an interaction, and what to take from each of its nodes. -/
structure Pattern (Output : Type) where
  name : String := ""
  checks : List (Reading → Bool) := []
  /-- Take fields from the matched node, or refuse the match. -/
  build : Output → Reading → Except Error Output := fun output _ => .ok output
  /-- Correct the ledger once all fields are known. -/
  settle : Output → Flow → Flow := fun _ flow => flow
  parts : List (Pattern Output) := []
  optional : Bool := false

structure Site (Output : Type) where
  pattern : Pattern Output
  /-- From the node at which the whole pattern was tried. -/
  path : List Nat
  reading : Reading

variable {Output : Type}

def Site.below (index : Nat) (site : Site Output) : Site Output :=
  { site with path := index :: site.path }

namespace Pattern

def inFirstChild (find : Reading → Option (List (Site Output))) (children : List Reading) :
    Option (List (Site Output)) :=
  children.zipIdx.findSome? fun (child, index) => (find child).map (List.map (Site.below index))

mutual

/-- The sites of a match at the root, a part's after those of the pattern around it. -/
def sites? : Pattern Output → Reading → Option (List (Site Output))
  | .mk name checks build settle parts optional, reading =>
    if checks.all fun check => check reading then
      (partSites? parts reading).map
        ({ pattern := .mk name checks build settle parts optional, path := [], reading } :: ·)
    else none

def partSites? : List (Pattern Output) → Reading → Option (List (Site Output))
  | [], _ => some []
  | part :: rest, reading =>
    match inFirstChild (sites? part) reading.children with
    | some sites => (partSites? rest reading).map (sites ++ ·)
    | none => if part.optional then partSites? rest reading else none

end

end Pattern

end TonTrace
