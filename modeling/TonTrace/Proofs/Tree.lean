import Mathlib.Algebra.Ring.Nat
import Mathlib.Data.List.Basic
import TonTrace.Rewriting

/-! Trees as lists of their values and of their subtrees, and what taking nodes
out of a tree leaves of both. -/

set_option autoImplicit false

namespace TonTrace.Tree

variable {α β : Type}

theorem preorderAll_eq_flatMap (trees : List (Tree α)) : preorderAll trees = trees.flatMap preorder := by
  induction trees with
  | nil => rfl
  | cons tree rest ih => rw [preorderAll, ih, List.flatMap_cons]

@[simp] theorem preorder_node (value : α) (children : List (Tree α)) :
    (node value children).preorder = value :: children.flatMap preorder := by
  rw [preorder, preorderAll_eq_flatMap]

theorem preorderAll_append (first rest : List (Tree α)) :
    preorderAll (first ++ rest) = preorderAll first ++ preorderAll rest := by
  simp only [preorderAll_eq_flatMap, List.flatMap_append]

theorem subtreesAll_eq_flatMap (trees : List (Tree α)) : subtreesAll trees = trees.flatMap subtrees := by
  induction trees with
  | nil => rfl
  | cons tree rest ih => rw [subtreesAll, ih, List.flatMap_cons]

@[simp] theorem subtrees_node (value : α) (children : List (Tree α)) :
    (node value children).subtrees = node value children :: children.flatMap subtrees := by
  rw [subtrees, subtreesAll_eq_flatMap]

theorem mapAll_eq_map (f : α → β) (trees : List (Tree α)) : mapAll f trees = trees.map (map f) := by
  induction trees with
  | nil => rfl
  | cons tree rest ih => rw [mapAll, ih, List.map_cons]

@[simp] theorem map_node (f : α → β) (value : α) (children : List (Tree α)) :
    (node value children).map f = node (f value) (children.map (map f)) := by
  rw [map, mapAll_eq_map]

theorem sizeAll_eq_sum (trees : List (Tree α)) : sizeAll trees = (trees.map size).sum := by
  induction trees with
  | nil => rfl
  | cons tree rest ih => rw [sizeAll, ih, List.map_cons, List.sum_cons]

@[simp] theorem size_node (value : α) (children : List (Tree α)) :
    (node value children).size = 1 + (children.map size).sum := by
  rw [size, sizeAll_eq_sum]

theorem depthAll_append (first rest : List (Tree α)) :
    depthAll (first ++ rest) = max (depthAll first) (depthAll rest) := by
  induction first with
  | nil => simp [depthAll]
  | cons tree first ih => rw [List.cons_append, depthAll, depthAll, ih, Nat.max_assoc]

/-- What holds of a node whenever it holds of its children holds of every tree. -/
@[elab_as_elim]
theorem induct {P : Tree α → Prop}
    (node : ∀ value children, (∀ child ∈ children, P child) → P (.node value children))
    (tree : Tree α) : P tree := by
  refine Tree.rec (motive_1 := P) (motive_2 := fun trees => ∀ tree ∈ trees, P tree)
    (fun value children ih => node value children ih) ?_ ?_ tree
  · intro tree member
    cases member
  · intro tree rest first others other member
    rcases List.mem_cons.mp member with rfl | member
    · exact first
    · exact others other member

theorem length_preorder (tree : Tree α) : tree.preorder.length = tree.size := by
  induction tree using induct with
  | node value children ih =>
    rw [preorder_node, size_node, List.length_cons, List.length_flatMap, Nat.add_comm,
      List.map_congr_left ih]

theorem preorder_map (f : α → β) (tree : Tree α) : (tree.map f).preorder = tree.preorder.map f := by
  induction tree using induct with
  | node value children ih =>
    rw [map_node, preorder_node, preorder_node, List.map_cons, List.flatMap_map, List.map_flatMap,
      List.flatMap_congr ih]

theorem map_value_subtrees (tree : Tree α) : tree.subtrees.map (·.value) = tree.preorder := by
  induction tree using induct with
  | node value children ih =>
    rw [subtrees_node, preorder_node, List.map_cons, List.map_flatMap, List.flatMap_congr ih]

theorem mem_subtrees_self (tree : Tree α) : tree ∈ tree.subtrees := by
  cases tree with
  | node value children => simp

theorem mem_subtrees_of_child {child tree : Tree α} (member : child ∈ tree.children) :
    child ∈ tree.subtrees := by
  cases tree with
  | node value children =>
    rw [subtrees_node]
    exact List.mem_cons_of_mem _ (List.mem_flatMap.mpr ⟨child, member, mem_subtrees_self child⟩)

theorem subtrees_map (f : α → β) (tree : Tree α) :
    (tree.map f).subtrees = tree.subtrees.map (map f) := by
  induction tree using induct with
  | node value children ih =>
    rw [map_node, subtrees_node, subtrees_node, List.map_cons, map_node, List.flatMap_map,
      List.map_flatMap, List.flatMap_congr ih]

theorem eq_or_mem_children_of_mem_subtrees {target tree : Tree α} (inside : target ∈ tree.subtrees) :
    target = tree ∨ ∃ parent ∈ tree.subtrees, target ∈ parent.children := by
  induction tree using induct with
  | node value children ih =>
    rw [subtrees_node] at inside ⊢
    rcases List.mem_cons.mp inside with rfl | inside
    · exact .inl rfl
    · obtain ⟨child, member, below⟩ := List.mem_flatMap.mp inside
      right
      rcases ih child member below with rfl | ⟨parent, above, listed⟩
      · exact ⟨_, List.mem_cons_self, member⟩
      · exact ⟨parent, List.mem_cons_of_mem _ (List.mem_flatMap_of_mem member above), listed⟩

theorem depthAll_le_iff {bound : Nat} {trees : List (Tree α)} :
    depthAll trees ≤ bound ↔ ∀ tree ∈ trees, tree.depth + 1 ≤ bound := by
  induction trees with
  | nil => simp [depthAll]
  | cons tree rest ih => rw [depthAll, Nat.max_le, ih, List.forall_mem_cons]

theorem infix_of_mem_subtrees {target tree : Tree α} (member : target ∈ tree.subtrees) :
    ∃ before after, tree.preorder = before ++ target.preorder ++ after := by
  induction tree using induct with
  | node value children ih =>
    rw [subtrees_node, List.mem_cons] at member
    rcases member with rfl | member
    · exact ⟨[], [], by simp⟩
    · obtain ⟨child, below, member⟩ := List.mem_flatMap.mp member
      obtain ⟨before, after, inside⟩ := ih child below member
      obtain ⟨left, right, rfl⟩ := List.append_of_mem below
      refine ⟨value :: left.flatMap preorder ++ before, after ++ right.flatMap preorder, ?_⟩
      simp only [preorder_node, List.flatMap_append, List.flatMap_cons, inside, List.cons_append,
        List.append_assoc]

mutual

theorem split_perm : ∀ (paths : List (List Nat)) (tree : Tree α),
    ((split paths tree).1 ++ preorderAll (split paths tree).2).Perm tree.preorder
  | paths, .node value children => by
    rw [split, preorder, List.cons_append]
    exact (splitAll_perm paths 0 children).cons value

theorem splitAll_perm : ∀ (paths : List (List Nat)) (index : Nat) (trees : List (Tree α)),
    ((splitAll paths index trees).1 ++ preorderAll (splitAll paths index trees).2).Perm
      (preorderAll trees)
  | _, _, [] => .refl _
  | paths, index, tree :: rest => by
    have others := splitAll_perm paths (index + 1) rest
    -- Whatever is taken from this tree comes before what is left of it and of the others.
    have first : ∀ part : List α × List (Tree α), (part.1 ++ preorderAll part.2).Perm tree.preorder →
        (part.1 ++ (splitAll paths (index + 1) rest).1 ++
          preorderAll (part.2 ++ (splitAll paths (index + 1) rest).2)).Perm
          (tree.preorder ++ preorderAll rest) := by
      intro part same
      rw [preorderAll_append, List.append_assoc]
      refine .trans ?_ (same.append others)
      rw [List.append_assoc]
      refine .append_left part.1 ?_
      rw [← List.append_assoc, ← List.append_assoc]
      exact .append_right _ List.perm_append_comm
    rw [splitAll, preorderAll]
    split
    · exact first _ (split_perm _ tree)
    · exact first ([], [tree]) (by simp [preorderAll])

end

mutual

theorem depthAll_split_le : ∀ (paths : List (List Nat)) (tree : Tree α),
    depthAll (split paths tree).2 ≤ tree.depth
  | paths, .node value children => by
    rw [split, depth]
    exact depthAll_splitAll_le paths 0 children

theorem depthAll_splitAll_le : ∀ (paths : List (List Nat)) (index : Nat) (trees : List (Tree α)),
    depthAll (splitAll paths index trees).2 ≤ depthAll trees
  | _, _, [] => Nat.le_refl _
  | paths, index, tree :: rest => by
    have others := depthAll_splitAll_le paths (index + 1) rest
    rw [splitAll, depthAll, depthAll_append]
    split
    · have first := depthAll_split_le (pathsBelow index paths) tree
      omega
    · simp only [depthAll]
      omega

end

mutual

theorem preorderAll_split_sublist : ∀ (paths : List (List Nat)) (tree : Tree α),
    (preorderAll (split paths tree).2).Sublist (preorderAll tree.children)
  | paths, .node value children => by
    rw [split]
    exact preorderAll_splitAll_sublist paths 0 children

theorem preorderAll_splitAll_sublist : ∀ (paths : List (List Nat)) (index : Nat)
    (trees : List (Tree α)), (preorderAll (splitAll paths index trees).2).Sublist (preorderAll trees)
  | _, _, [] => .refl _
  | paths, index, tree :: rest => by
    have others := preorderAll_splitAll_sublist paths (index + 1) rest
    rw [splitAll, preorderAll_append, preorderAll]
    refine .append ?_ others
    split
    · have below := preorderAll_split_sublist (pathsBelow index paths) tree
      cases tree with
      | node value children => exact below.cons value
    · simp [preorderAll]

end

theorem split_fst_ne_nil (paths : List (List Nat)) (tree : Tree α) : (split paths tree).1 ≠ [] := by
  cases tree with
  | node value children => simp [split]

end TonTrace.Tree
