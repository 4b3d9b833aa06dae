import Mathlib.Data.List.Dedup
import TonTrace.Catalog.Plain
import TonTrace.Proofs.Conservation
import TonTrace.Proofs.Ledger
import TonTrace.Proofs.Sites

/-! What a rewrite consumes. The nodes of a tree are listed with their paths in
the order of the tree, and a match picks its nodes from that list. A rewrite
joins the nodes that are picked, in this order and each of them once, however
many parts took the same one. It keeps what hangs below them and is not picked. -/

set_option autoImplicit false

namespace TonTrace

namespace Tree

variable {α : Type}

def under (index : Nat) (place : List Nat × Tree α) : List Nat × Tree α := (index :: place.1, place.2)

mutual

/-- The subtrees with the paths that lead to them, each before those inside it. -/
def located : Tree α → List (List Nat × Tree α)
  | .node value children => ([], .node value children) :: locatedAll 0 children

def locatedAll (index : Nat) : List (Tree α) → List (List Nat × Tree α)
  | [] => []
  | child :: rest => child.located.map (under index) ++ locatedAll (index + 1) rest

end

theorem located_eq_cons (tree : Tree α) :
    tree.located = ([], tree) :: locatedAll 0 tree.children := by
  cases tree
  rw [located]

mutual

theorem mem_located_iff : ∀ (tree : Tree α) {path : List Nat} {inner : Tree α},
    (path, inner) ∈ tree.located ↔ tree.descendant? path = some inner
  | .node value children, path, inner => by
    rw [located, List.mem_cons, mem_locatedAll_iff 0 children]
    cases path with
    | nil => simp [descendant?, eq_comm]
    | cons index path => simp [descendant?, Option.bind_eq_some_iff]

theorem mem_locatedAll_iff : ∀ (index : Nat) (trees : List (Tree α)) {path : List Nat}
    {inner : Tree α}, (path, inner) ∈ locatedAll index trees ↔ ∃ offset rest tree,
      path = (index + offset) :: rest ∧ trees[offset]? = some tree ∧
        tree.descendant? rest = some inner
  | _, [], _, _ => by simp [locatedAll]
  | index, tree :: others, path, inner => by
    have shift : ∀ offset, index + 1 + offset = index + (offset + 1) := by omega
    rw [locatedAll, List.mem_append, mem_locatedAll_iff (index + 1) others]
    constructor
    · rintro (member | ⟨offset, rest, other, rfl, there, found⟩)
      · obtain ⟨⟨rest, place⟩, listed, same⟩ := List.mem_map.mp member
        cases same
        exact ⟨0, rest, tree, rfl, rfl, (mem_located_iff tree).mp listed⟩
      · exact ⟨offset + 1, rest, other, by rw [shift], there, found⟩
    · rintro ⟨offset, rest, other, rfl, there, found⟩
      cases offset with
      | zero =>
        cases there
        exact .inl (List.mem_map.mpr ⟨(rest, inner), (mem_located_iff tree).mpr found, rfl⟩)
      | succ offset => exact .inr ⟨offset, rest, other, by rw [shift], there, found⟩

end

mutual

theorem nodup_located : ∀ tree : Tree α, (tree.located.map (·.1)).Nodup
  | .node value children => by
    rw [located, List.map_cons, List.nodup_cons]
    refine ⟨fun member => ?_, nodup_locatedAll 0 children⟩
    obtain ⟨⟨path, inner⟩, listed, same⟩ := List.mem_map.mp member
    obtain ⟨_, _, _, rfl, _⟩ := (mem_locatedAll_iff 0 children).mp listed
    cases same

theorem nodup_locatedAll : ∀ (index : Nat) (trees : List (Tree α)),
    ((locatedAll index trees).map (·.1)).Nodup
  | _, [] => .nil
  | index, tree :: rest => by
    rw [locatedAll, List.map_append, List.map_map]
    refine .append ?_ (nodup_locatedAll (index + 1) rest) ?_
    · have own := (nodup_located tree).map (List.cons_injective (a := index))
      rwa [List.map_map] at own
    · intro path first second
      obtain ⟨place, _, rfl⟩ := List.mem_map.mp first
      obtain ⟨⟨path, inner⟩, listed, same⟩ := List.mem_map.mp second
      obtain ⟨offset, _, _, rfl, _⟩ := (mem_locatedAll_iff (index + 1) rest).mp listed
      -- The other trees have larger indices.
      have equal := (List.cons.inj same).1
      omega

end

def isPicked (paths : List (List Nat)) (place : List Nat × Tree α) : Bool := paths.contains place.1

def isHanging (paths : List (List Nat)) (place : List Nat × Tree α) : Bool :=
  !paths.contains place.1 && paths.contains place.1.dropLast

def picked (paths : List (List Nat)) (tree : Tree α) : List (List Nat × Tree α) :=
  tree.located.filter (isPicked paths)

/-- The nodes below those at these paths that are not among them, in the order of the tree. -/
def hanging (paths : List (List Nat)) (tree : Tree α) : List (List Nat × Tree α) :=
  tree.located.filter (isHanging paths)

variable {paths : List (List Nat)} {tree : Tree α}

theorem Closed.of_prefix (closed : Closed paths) {path top : List Nat} (member : path ∈ paths)
    (above : top <+: path) : top ∈ paths := by
  obtain ⟨more, rfl⟩ := above
  induction more using List.reverseRecOn with
  | nil => rwa [List.append_nil] at member
  | append_singleton more index ih =>
    rw [← List.append_assoc] at member
    exact ih (closed _ index member)

theorem mem_picked_iff {path : List Nat} {inner : Tree α} :
    (path, inner) ∈ picked paths tree ↔ tree.descendant? path = some inner ∧ path ∈ paths := by
  simp [picked, isPicked, mem_located_iff]

theorem mem_hanging_iff {path : List Nat} {inner : Tree α} :
    (path, inner) ∈ hanging paths tree ↔
      tree.descendant? path = some inner ∧ path ∉ paths ∧ path.dropLast ∈ paths := by
  simp [hanging, isHanging, mem_located_iff]

theorem picked_perm (lead : ∀ path ∈ paths, ∃ inner, tree.descendant? path = some inner) :
    ((picked paths tree).map (·.1)).Perm paths.dedup := by
  have once : ((picked paths tree).map (·.1)).Nodup :=
    (nodup_located tree).sublist (List.filter_sublist.map _)
  refine (List.perm_ext_iff_of_nodup once paths.nodup_dedup).mpr fun path => ?_
  rw [List.mem_dedup, List.mem_map]
  constructor
  · rintro ⟨⟨path, inner⟩, member, rfl⟩
    exact (mem_picked_iff.mp member).2
  · intro member
    obtain ⟨inner, found⟩ := lead path member
    exact ⟨(path, inner), mem_picked_iff.mpr ⟨found, member⟩, rfl⟩

theorem exists_hanging (whole : [] ∈ paths) {path : List Nat} {inner : Tree α}
    (found : tree.descendant? path = some inner) (other : path ∉ paths) :
    ∃ top ∈ hanging paths tree, top.1 <+: path := by
  induction path using List.reverseRecOn generalizing inner with
  | nil => exact absurd whole other
  | append_singleton path index ih =>
    have steps := found
    rw [descendant?_append] at steps
    obtain ⟨parent, above, _⟩ := Option.bind_eq_some_iff.mp steps
    by_cases top : path ∈ paths
    · refine ⟨(path ++ [index], inner), mem_hanging_iff.mpr ⟨found, other, ?_⟩, List.prefix_refl _⟩
      rwa [List.dropLast_concat]
    · obtain ⟨top, hangs, start⟩ := ih above top
      exact ⟨top, hangs, start.trans (List.prefix_append _ _)⟩

theorem hanging_unique (closed : Closed paths) {path : List Nat} {first second : List Nat × Tree α}
    (one : first ∈ hanging paths tree) (two : second ∈ hanging paths tree)
    (left : first.1 <+: path) (right : second.1 <+: path) : first = second := by
  have outermost : ∀ {first second : List Nat × Tree α}, first ∈ hanging paths tree →
      second ∈ hanging paths tree → first.1 <+: second.1 → first = second := by
    rintro ⟨path, inner⟩ ⟨_, other⟩ one two ⟨more, rfl⟩
    obtain ⟨found, unpicked, _⟩ := mem_hanging_iff.mp one
    obtain ⟨there, _, parent⟩ := mem_hanging_iff.mp two
    cases more using List.reverseRecOn with
    | nil =>
      rw [List.append_nil, found] at there
      cases there
      rw [List.append_nil]
    | append_singleton more index =>
      -- The parent of the inner one would be picked, and with it the outer one.
      rw [← List.append_assoc, List.dropLast_concat] at parent
      exact absurd (closed.of_prefix parent (List.prefix_append _ _)) unpicked
  rcases List.prefix_or_prefix_of_prefix left right with start | start
  · exact outermost one two start
  · exact (outermost two one start).symm

/-- Every node is picked or stands inside one of the subtrees that hang below the picked ones. -/
theorem not_mem_iff_hanging (closed : Closed paths) (whole : [] ∈ paths) {path : List Nat}
    {inner : Tree α} (found : tree.descendant? path = some inner) :
    path ∉ paths ↔ ∃! top, top ∈ hanging paths tree ∧ top.1 <+: path := by
  constructor
  · intro other
    obtain ⟨top, hangs, start⟩ := exists_hanging whole found other
    refine ⟨top, ⟨hangs, start⟩, fun second inside => ?_⟩
    exact hanging_unique closed inside.1 hangs inside.2 start
  · rintro ⟨top, ⟨hangs, start⟩, _⟩ member
    exact (mem_hanging_iff.mp hangs).2.1 (closed.of_prefix member start)

theorem picked_under (index : Nat) :
    (tree.located.map (under index)).filter (isPicked paths) =
      (picked (pathsBelow index paths) tree).map (under index) := by
  rw [List.filter_map, picked]
  refine congrArg _ (List.filter_congr fun place _ => ?_)
  simp [under, isPicked, mem_pathsBelow]

theorem hanging_under {index : Nat} (entered : [] ∈ pathsBelow index paths) :
    (tree.located.map (under index)).filter (isHanging paths) =
      (hanging (pathsBelow index paths) tree).map (under index) := by
  rw [List.filter_map, hanging]
  refine congrArg _ (List.filter_congr fun place _ => ?_)
  obtain ⟨path, inner⟩ := place
  have child : [index] ∈ paths := mem_pathsBelow.mp entered
  cases path with
  | nil => simp [under, isHanging, mem_pathsBelow, child]
  | cons first path => simp [under, isHanging, mem_pathsBelow, List.dropLast_cons_of_ne_nil]

theorem pathsBelow_eq_nil (closed : Closed paths) {index : Nat}
    (missed : [] ∉ pathsBelow index paths) : pathsBelow index paths = [] := by
  refine List.eq_nil_iff_forall_not_mem.mpr fun path member => missed ?_
  rw [mem_pathsBelow] at member ⊢
  exact closed.head member

theorem hanging_missed (closed : Closed paths) (whole : [] ∈ paths) {index : Nat}
    (missed : [] ∉ pathsBelow index paths) :
    (tree.located.map (under index)).filter (isHanging paths) = [([index], tree)] := by
  have none : ∀ path, index :: path ∉ paths := fun path member => by
    have inside := mem_pathsBelow.mpr member
    rw [pathsBelow_eq_nil closed missed] at inside
    cases inside
  rw [located_eq_cons, List.map_cons,
    List.filter_cons_of_pos (by simpa [under, isHanging, none] using whole)]
  congr 1
  refine List.filter_eq_nil_iff.mpr fun place member => ?_
  obtain ⟨⟨path, inner⟩, listed, rfl⟩ := List.mem_map.mp member
  obtain ⟨offset, rest, _, rfl, _⟩ := (mem_locatedAll_iff 0 _).mp listed
  simp [under, isHanging, none]

mutual

/-- Taking nodes out of a tree gives the nodes that are picked and what hangs below them. -/
theorem split_eq : ∀ (paths : List (List Nat)) (tree : Tree α), Closed paths → [] ∈ paths →
    split paths tree = ((picked paths tree).map (·.2.value), (hanging paths tree).map (·.2))
  | paths, .node value children, closed, whole => by
    rw [split, splitAll_eq paths 0 children closed whole, picked, hanging, located,
      List.filter_cons_of_pos (by simpa [isPicked] using whole),
      List.filter_cons_of_neg (by simp [isHanging, whole])]
    rfl

theorem splitAll_eq : ∀ (paths : List (List Nat)) (index : Nat) (trees : List (Tree α)),
    Closed paths → [] ∈ paths → splitAll paths index trees =
      (((locatedAll index trees).filter (isPicked paths)).map (·.2.value),
        ((locatedAll index trees).filter (isHanging paths)).map (·.2))
  | _, _, [], _, _ => rfl
  | paths, index, tree :: rest, closed, whole => by
    rw [splitAll, locatedAll, splitAll_eq paths (index + 1) rest closed whole, List.filter_append,
      List.filter_append, List.map_append, List.map_append, picked_under]
    split
    case isTrue entered =>
      rw [split_eq _ tree (closed.pathsBelow index) entered, hanging_under entered, List.map_map,
        List.map_map]
      rfl
    case isFalse missed =>
      rw [hanging_missed closed whole missed, pathsBelow_eq_nil closed missed]
      simp [picked, isPicked]

end

theorem size_split (paths : List (List Nat)) (tree : Tree α) :
    (split paths tree).1.length + sizeAll (split paths tree).2 = tree.size := by
  have all := (split_perm paths tree).length_eq
  have left : (preorderAll (split paths tree).2).length = sizeAll (split paths tree).2 := by
    rw [preorderAll_eq_flatMap, List.length_flatMap, sizeAll_eq_sum]
    exact congrArg (fun size => (List.map size _).sum) (funext length_preorder)
  rw [List.length_append, left, length_preorder] at all
  exact all

end Tree

namespace Rule

variable {rule : Rule} {reading next : Reading} {sites : List (Site rule.Output)}

theorem root_mem_paths (matched : rule.pattern.sites? reading = some sites) :
    [] ∈ sites.map (·.path) := by
  obtain ⟨below, _, rfl⟩ := Pattern.sites?_eq_some matched
  exact List.mem_cons_self

theorem fuse_eq (matched : rule.pattern.sites? reading = some sites) (output : rule.Output) :
    rule.fuse sites output reading =
      .node (rule.fused sites output ((reading.picked (sites.map (·.path))).map (·.2.value)))
        ((reading.hanging (sites.map (·.path))).map (·.2)) := by
  have parts := Tree.split_eq _ reading (Pattern.closed_of_sites? rule.pattern matched)
    (root_mem_paths matched)
  rw [fuse, parts]
  rfl

/-- A rewrite joins the nodes of its match, each once and in the order of the tree: their hashes,
their accounts and, before anything is corrected, their ledgers. The new node has as children,
unchanged and in order, the subtrees that hang below those nodes, and every node outside the match
is in one of them. -/
theorem rewrite?_consumes (matched : rule.pattern.sites? reading = some sites)
    (merged : rule.rewrite? reading = some next) :
    let paths := sites.map (·.path)
    let taken := reading.picked paths
    (taken.map (·.1)).Perm paths.dedup ∧
    next.children = (reading.hanging paths).map (·.2) ∧
    (∀ path inner, reading.descendant? path = some inner →
      (path ∉ paths ↔ ∃! top, top ∈ reading.hanging paths ∧ top.1 <+: path)) ∧
    next.size + paths.dedup.length = reading.size + 1 ∧
    next.value.transactions = taken.flatMap (·.2.value.transactions) ∧
    (∀ account, next.value.accounts.contains account ↔
      ∃ place ∈ taken, place.2.value.accounts.contains account) ∧
    ∃ output, rule.build sites = .ok output ∧ next.value.event = rule.event output ∧
      next.value.flow = rule.settle sites output
        ((taken.map (·.2.value.flow)).foldl Flow.merge .empty) := by
  intro paths taken
  have closed : Tree.Closed paths := Pattern.closed_of_sites? rule.pattern matched
  have whole : [] ∈ paths := root_mem_paths matched
  have once : (taken.map (·.1)).Perm paths.dedup := by
    refine Tree.picked_perm fun path member => ?_
    obtain ⟨site, listed, rfl⟩ := List.mem_map.mp member
    exact ⟨_, (Pattern.standsIn_of_sites? rule.pattern matched site listed).found⟩
  obtain ⟨_, output, again, built, rfl⟩ := rewrite?_eq_some merged
  cases again.symm.trans matched
  have fused : rule.fuse sites output reading =
      .node (rule.fused sites output (taken.map (·.2.value))) ((reading.hanging paths).map (·.2)) :=
    fuse_eq matched output
  -- Taken nodes and what hangs below them are the whole tree; the taken ones come back as one node.
  have size : (rule.fuse sites output reading).size + paths.dedup.length = reading.size + 1 := by
    have all : taken.length + Tree.sizeAll ((reading.hanging paths).map (·.2)) = reading.size := by
      have parts := Tree.size_split paths reading
      rwa [Tree.split_eq paths reading closed whole, List.length_map] at parts
    rw [fused, Tree.size, ← once.length_eq, List.length_map]
    omega
  rw [fused] at size ⊢
  refine ⟨once, rfl, fun path inner => Tree.not_mem_iff_hanging closed whole, size, ?_, fun account => ?_,
    output, built, rfl, ?_⟩
  · rw [fused_transactions, List.flatMap_map]
  · rw [fused_accounts]
    simp only [List.mem_map, exists_exists_and_eq_and]
  · change rule.settle sites output (Cluster.join _ _).flow = _
    rw [Cluster.flow_join, List.map_map]
    rfl

def answeredCall : Rule :=
  let answer : Pattern (Outcome Detail.ContractCall) := { checks := [Check.hasOperation "answer"] }
  { Catalog.contractCall with pattern := { parts := [answer, answer] } }

/-- The answer stands between two other messages, and it sends a message on. -/
def answered : Reading :=
  .ofTrace <| .node { hash := ⟨1⟩, account := ⟨0, ⟨1⟩⟩, success := true } [
    .leaf { hash := ⟨2⟩, account := ⟨0, ⟨2⟩⟩, success := true },
    .node {
        hash := ⟨3⟩
        account := ⟨0, ⟨3⟩⟩
        success := true
        inMessage := some { body := some { operation := "answer", value := .null } } } [
      .leaf { hash := ⟨4⟩, account := ⟨0, ⟨4⟩⟩, success := true }],
    .leaf { hash := ⟨5⟩, account := ⟨0, ⟨5⟩⟩, success := true }]

/-- The answer is taken by two parts and joined once. -/
theorem rewrite?_consumes_answered : ∃ sites next,
    answeredCall.pattern.sites? answered = some sites ∧ sites.map (·.path) = [[], [1], [1]] ∧
      answeredCall.rewrite? answered = some next ∧ next.size = 4 ∧
      next.value.transactions = [⟨1⟩, ⟨3⟩] ∧
      next.children.map (·.value.transactions) = [[⟨2⟩], [⟨4⟩], [⟨5⟩]] := by
  have paths : (answeredCall.pattern.sites? answered).map (List.map (·.path)) =
      some [[], [1], [1]] := by
    decide +kernel
  have some : (answeredCall.rewrite? answered).isSome := by decide +kernel
  obtain ⟨sites, matched, paths⟩ := Option.map_eq_some_iff.mp paths
  obtain ⟨next, merged⟩ := Option.isSome_iff_exists.mp some
  obtain ⟨_, kept, _, size, joined, _⟩ := rewrite?_consumes matched merged
  rw [paths] at kept size joined
  have room : next.size + 2 = 5 + 1 := size
  refine ⟨sites, next, matched, paths, merged, by omega, ?_, ?_⟩
  · rw [joined]
    decide +kernel
  · rw [kept]
    decide +kernel

end Rule

end TonTrace
