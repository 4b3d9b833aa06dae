import Mathlib.Data.List.Induction
import TonTrace.Proofs.Tree

/-! Nodes by path: which nodes `split` takes out of a tree and which subtrees it
leaves. A list of paths that has every path's parent takes all of its nodes. -/

set_option autoImplicit false

namespace TonTrace.Tree

variable {α : Type}

theorem mem_subtrees_trans {inner middle outer : Tree α} (first : inner ∈ middle.subtrees)
    (second : middle ∈ outer.subtrees) : inner ∈ outer.subtrees := by
  induction outer using induct with
  | node value children ih =>
    rw [subtrees_node, List.mem_cons] at second
    rcases second with rfl | second
    · exact first
    · obtain ⟨child, member, below⟩ := List.mem_flatMap.mp second
      rw [subtrees_node]
      exact List.mem_cons_of_mem _ (List.mem_flatMap_of_mem member (ih child member below))

theorem value_mem_preorder_of_mem_subtrees {inner tree : Tree α} (inside : inner ∈ tree.subtrees) :
    inner.value ∈ tree.preorder := by
  rw [← map_value_subtrees]
  exact List.mem_map_of_mem inside

theorem mem_subtrees_of_descendant? {path : List Nat} {tree node : Tree α}
    (found : tree.descendant? path = some node) : node ∈ tree.subtrees := by
  induction path generalizing tree with
  | nil =>
    cases found
    exact mem_subtrees_self _
  | cons index path ih =>
    obtain ⟨child, here, below⟩ := Option.bind_eq_some_iff.mp found
    exact mem_subtrees_trans (ih below) (mem_subtrees_of_child (List.mem_of_getElem? here))

theorem descendant?_append (path more : List Nat) (tree : Tree α) :
    tree.descendant? (path ++ more) = (tree.descendant? path).bind (descendant? more) := by
  induction path generalizing tree with
  | nil => rfl
  | cons index path ih =>
    rw [List.cons_append, descendant?, descendant?, Option.bind_assoc]
    exact congrArg _ (funext ih)

/-- With a path the list has the path to the parent. -/
def Closed (paths : List (List Nat)) : Prop := ∀ path index, path ++ [index] ∈ paths → path ∈ paths

theorem mem_pathsBelow {index : Nat} {path : List Nat} {paths : List (List Nat)} :
    path ∈ pathsBelow index paths ↔ index :: path ∈ paths := by
  simp only [pathsBelow, List.mem_filterMap]
  constructor
  · rintro ⟨whole, member, found⟩
    cases whole with
    | nil => cases found
    | cons first rest =>
      split at found
      · simp_all
      · simp_all
  · intro member
    exact ⟨index :: path, member, by simp⟩

theorem Closed.pathsBelow {paths : List (List Nat)} (closed : Closed paths) (index : Nat) :
    Closed (pathsBelow index paths) := by
  intro path next member
  rw [mem_pathsBelow] at member ⊢
  exact closed (index :: path) next member

theorem Closed.head {paths : List (List Nat)} (closed : Closed paths) {index : Nat} {path : List Nat}
    (member : index :: path ∈ paths) : [index] ∈ paths := by
  induction path using List.reverseRecOn with
  | nil => exact member
  | append_singleton path next ih => exact ih (closed (index :: path) next member)

mutual

theorem exists_path_of_mem_split : ∀ (paths : List (List Nat)) (tree : Tree α) {value : α},
    value ∈ (split paths tree).1 → value = tree.value ∨
      ∃ path ∈ paths, ∃ node, tree.descendant? path = some node ∧ node.value = value
  | paths, .node root children, value, member => by
    rw [split, List.mem_cons] at member
    rcases member with rfl | member
    · exact .inl rfl
    · obtain ⟨offset, path, inside, child, node, there, found, same⟩ :=
        exists_path_of_mem_splitAll paths 0 children member
      rw [Nat.zero_add] at inside
      refine .inr ⟨offset :: path, inside, node, ?_, same⟩
      rw [descendant?, there]
      exact found

theorem exists_path_of_mem_splitAll : ∀ (paths : List (List Nat)) (index : Nat)
    (trees : List (Tree α)) {value : α}, value ∈ (splitAll paths index trees).1 →
    ∃ offset path, (index + offset) :: path ∈ paths ∧ ∃ tree node, trees[offset]? = some tree ∧
      tree.descendant? path = some node ∧ node.value = value
  | _, _, [], _, member => by cases member
  | paths, index, tree :: rest, value, member => by
    rw [splitAll, List.mem_append] at member
    rcases member with member | member
    · split at member
      case isTrue here =>
        rcases exists_path_of_mem_split _ tree member with rfl | ⟨path, inside, node, found, same⟩
        · exact ⟨0, [], mem_pathsBelow.mp here, tree, tree, rfl, rfl, rfl⟩
        · exact ⟨0, path, mem_pathsBelow.mp inside, tree, node, rfl, found, same⟩
      case isFalse => cases member
    · obtain ⟨offset, path, inside, child, node, there, found, same⟩ :=
        exists_path_of_mem_splitAll paths (index + 1) rest member
      -- The rest is counted from the next index, so what it finds lies one further.
      refine ⟨offset + 1, path, ?_, child, node, there, found, same⟩
      rwa [show index + (offset + 1) = index + 1 + offset by omega]

end

theorem split_subset_splitAll {paths : List (List Nat)} {index offset : Nat}
    {trees : List (Tree α)} {tree : Tree α} (there : trees[offset]? = some tree)
    (listed : [index + offset] ∈ paths) :
    (split (pathsBelow (index + offset) paths) tree).1 ⊆ (splitAll paths index trees).1 := by
  induction trees generalizing index offset with
  | nil => cases there
  | cons first rest ih =>
    cases offset with
    | zero =>
      cases there
      rw [Nat.add_zero] at listed ⊢
      rw [splitAll, if_pos (mem_pathsBelow.mpr listed)]
      exact List.subset_append_left _ _
    | succ offset =>
      have further := @ih (index + 1) offset there
      rw [show index + 1 + offset = index + (offset + 1) by omega] at further
      rw [splitAll]
      exact List.Subset.trans (further listed) (List.subset_append_right _ _)

theorem mem_split_of_closed {paths : List (List Nat)} (closed : Closed paths) {path : List Nat}
    {tree node : Tree α} (member : path ∈ paths) (found : tree.descendant? path = some node) :
    node.value ∈ (split paths tree).1 := by
  induction path generalizing paths tree with
  | nil =>
    cases found
    cases node with
    | node value children => exact List.mem_cons_self
  | cons index path ih =>
    obtain ⟨child, here, below⟩ := Option.bind_eq_some_iff.mp found
    -- With a path into a child the list has the child, so the child is taken apart too.
    have inside := ih (closed.pathsBelow index) (mem_pathsBelow.mpr member) below
    have listed : [0 + index] ∈ paths := by
      rw [Nat.zero_add]
      exact closed.head member
    cases tree with
    | node value children =>
      rw [split]
      have part := split_subset_splitAll here listed
      rw [Nat.zero_add] at part
      exact List.mem_cons_of_mem _ (part inside)

mutual

theorem mem_subtrees_of_mem_split : ∀ (paths : List (List Nat)) (tree : Tree α) {left : Tree α},
    left ∈ (split paths tree).2 → left ∈ tree.subtrees
  | paths, .node value children, left, member => by
    rw [subtrees]
    exact List.mem_cons_of_mem _ (mem_subtreesAll_of_mem_splitAll paths 0 children member)

theorem mem_subtreesAll_of_mem_splitAll : ∀ (paths : List (List Nat)) (index : Nat)
    (trees : List (Tree α)) {left : Tree α}, left ∈ (splitAll paths index trees).2 →
    left ∈ subtreesAll trees
  | _, _, [], _, member => by cases member
  | paths, index, tree :: rest, left, member => by
    rw [splitAll, List.mem_append] at member
    rw [subtreesAll, List.mem_append]
    rcases member with member | member
    · left
      split at member
      case isTrue => exact mem_subtrees_of_mem_split _ tree member
      case isFalse =>
        rw [List.mem_singleton.mp member]
        exact mem_subtrees_self tree
    · exact .inr (mem_subtreesAll_of_mem_splitAll paths (index + 1) rest member)

end

theorem split_fst_eq_cons (paths : List (List Nat)) (tree : Tree α) :
    ∃ rest, (split paths tree).1 = tree.value :: rest := by
  cases tree with
  | node value children => exact ⟨_, rfl⟩

theorem splitAll_eq_of_pathsBelow {paths : List (List Nat)} {index : Nat} (trees : List (Tree α))
    (none : ∀ offset, pathsBelow (index + offset) paths = []) :
    splitAll paths index trees = ([], trees) := by
  induction trees generalizing index with
  | nil => rfl
  | cons tree rest ih =>
    have here : pathsBelow index paths = [] := none 0
    have others : splitAll paths (index + 1) rest = ([], rest) := ih fun offset => by
      rw [Nat.add_assoc]
      exact none (1 + offset)
    rw [splitAll, others, here]
    rfl

theorem split_root (tree : Tree α) : split [[]] tree = ([tree.value], tree.children) := by
  cases tree with
  | node value children => rw [split, splitAll_eq_of_pathsBelow children fun _ => rfl]

theorem splitAll_child {index offset : Nat} {trees : List (Tree α)} {child : Tree α}
    (here : trees[offset]? = some child) :
    (splitAll [[], [index + offset]] index trees).1 = [child.value] := by
  induction trees generalizing index offset with
  | nil => cases here
  | cons tree rest ih =>
    cases offset with
    | zero =>
      cases here
      have others : splitAll [[], [index]] (index + 1) rest = ([], rest) :=
        splitAll_eq_of_pathsBelow rest fun offset => by simp [pathsBelow]; omega
      have inside : pathsBelow index [[], [index]] = [[]] := by simp [pathsBelow]
      rw [Nat.add_zero, splitAll, others, inside, if_pos List.mem_cons_self, split_root]
      rfl
    | succ offset =>
      have others := @ih (index + 1) offset here
      rw [show index + 1 + offset = index + (offset + 1) by omega] at others
      have inside : pathsBelow index [[], [index + (offset + 1)]] = [] := by simp [pathsBelow]
      rw [splitAll, inside, others]
      rfl

theorem split_child {tree child : Tree α} {index : Nat} (here : tree.children[index]? = some child) :
    (split [[], [index]] tree).1 = [tree.value, child.value] := by
  have inside : (splitAll [[], [0 + index]] 0 tree.children).1 = [child.value] := splitAll_child here
  rw [Nat.zero_add] at inside
  cases tree with
  | node value children => rw [split, inside]

end TonTrace.Tree
