/-! Trees with any number of ordered children.

A path lists child indices from the root downwards. `preorder` visits a node
before its children, and children from first to last.
-/

set_option autoImplicit false

namespace TonTrace

variable {α β : Type}

structure Tree (α : Type) where
  node ::
  value : α
  children : List (Tree α)

namespace Tree

def leaf (value : α) : Tree α := .node value []

mutual

def map (f : α → β) : Tree α → Tree β
  | .node value children => .node (f value) (mapAll f children)

def mapAll (f : α → β) : List (Tree α) → List (Tree β)
  | [] => []
  | child :: rest => child.map f :: mapAll f rest

end

mutual

/-- The values, a node's before those below it. -/
def preorder : Tree α → List α
  | .node value children => value :: preorderAll children

def preorderAll : List (Tree α) → List α
  | [] => []
  | child :: rest => child.preorder ++ preorderAll rest

end

mutual

def subtrees : Tree α → List (Tree α)
  | .node value children => .node value children :: subtreesAll children

def subtreesAll : List (Tree α) → List (Tree α)
  | [] => []
  | child :: rest => child.subtrees ++ subtreesAll rest

end

mutual

def size : Tree α → Nat
  | .node _ children => 1 + sizeAll children

def sizeAll : List (Tree α) → Nat
  | [] => 0
  | child :: rest => child.size + sizeAll rest

end

mutual

/-- The length of the longest path; a leaf has depth zero. -/
def depth : Tree α → Nat
  | .node _ children => depthAll children

def depthAll : List (Tree α) → Nat
  | [] => 0
  | child :: rest => max (child.depth + 1) (depthAll rest)

end

def descendant? : List Nat → Tree α → Option (Tree α)
  | [], tree => some tree
  | index :: path, tree => tree.children[index]?.bind (descendant? path)

end Tree

end TonTrace
