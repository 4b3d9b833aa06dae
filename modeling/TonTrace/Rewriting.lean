import TonTrace.Pattern

/-! Rewriting a reading with rules.

A rule reads the nodes of a match as one event. One step rewrites the first
node, in pre-order, at which the rule succeeds. Each rule runs until it fails
everywhere, one rule after the other, up to a limit on the number of steps.
-/

set_option autoImplicit false

namespace TonTrace

namespace Tree

variable {α : Type}

def pathsBelow (index : Nat) (paths : List (List Nat)) : List (List Nat) :=
  paths.filterMap fun
    | first :: rest => if first = index then some rest else none
    | [] => none

mutual

/-- Take the root and the nodes at `paths` out of a tree: their values in
pre-order, and the subtrees that are left over in the order of the tree. -/
def split (paths : List (List Nat)) : Tree α → List α × List (Tree α)
  | .node value children =>
    let below := splitAll paths 0 children
    (value :: below.1, below.2)

def splitAll (paths : List (List Nat)) (index : Nat) : List (Tree α) → List α × List (Tree α)
  | [] => ([], [])
  | child :: rest =>
    let inside := pathsBelow index paths
    let first := if [] ∈ inside then split inside child else ([], [child])
    let others := splitAll paths (index + 1) rest
    (first.1 ++ others.1, first.2 ++ others.2)

end

end Tree

structure Rule where
  Output : Type
  /-- The output before any node has been looked at. -/
  initial : Output
  event : Output → Event
  pattern : Pattern Output

namespace Rule

def name (rule : Rule) : String := rule.pattern.name

/-- The output of a match: the innermost sites give their fields first. -/
def build (rule : Rule) (sites : List (Site rule.Output)) : Except Error rule.Output :=
  sites.reverse.foldlM (fun output site => site.pattern.build output site.reading) rule.initial

def settle (rule : Rule) (sites : List (Site rule.Output)) (output : rule.Output) (flow : Flow) :
    Flow :=
  sites.reverse.foldl (fun flow site => site.pattern.settle output flow) flow

/-- The matched nodes as one event. The subtrees that are left over become the
children of the new node. -/
def fuse (rule : Rule) (sites : List (Site rule.Output)) (output : rule.Output)
    (reading : Reading) : Reading :=
  let parts := reading.split (sites.map (·.path))
  let joined := Cluster.join (rule.event output) parts.1
  .node { joined with flow := rule.settle sites output joined.flow } parts.2

def rewrite? (rule : Rule) (reading : Reading) : Option Reading := do
  let sites ← rule.pattern.sites? reading
  let output ← (rule.build sites).toOption
  return rule.fuse sites output reading

mutual

/-- Rewrite the first node, in pre-order, at which the rule succeeds. -/
def rewriteFirst? (rule : Rule) : Reading → Option Reading
  | .node cluster children =>
    match rule.rewrite? (.node cluster children) with
    | some rewritten => some rewritten
    | none => (rewriteFirstChild? rule children).map (.node cluster ·)

def rewriteFirstChild? (rule : Rule) : List Reading → Option (List Reading)
  | [] => none
  | child :: rest =>
    match rewriteFirst? rule child with
    | some rewritten => some (rewritten :: rest)
    | none => (rewriteFirstChild? rule rest).map (child :: ·)

end

/-- Rewrite until the rule fails everywhere, at most `limit` times. Gives the
reading and the number of steps. -/
def exhaust (rule : Rule) : Nat → Reading → Reading × Nat
  | 0, reading => (reading, 0)
  | limit + 1, reading =>
    match rule.rewriteFirst? reading with
    | none => (reading, 0)
    | some next =>
      let run := exhaust rule limit next
      (run.1, run.2 + 1)

end Rule

/-- Run the rules in order, at most `limit` steps in all. Gives the reading
and the number of steps. -/
def rewriteAll : List Rule → Nat → Reading → Reading × Nat
  | [], _, reading => (reading, 0)
  | rule :: rest, limit, reading =>
    let first := rule.exhaust limit reading
    let others := rewriteAll rest (limit - first.2) first.1
    (others.1, first.2 + others.2)

end TonTrace
