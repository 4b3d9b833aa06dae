import Mathlib.Algebra.Order.Ring.Nat
import TonTrace.Proofs.Ranged
import TonTrace.Proofs.Report
import TonTrace.Proofs.Rewriting

/-! Figures of a ledger that merging adds up: how they go through folds of
merges, through rewrites and through the collection of a report. Clamping is
never met as long as the sizes of all parts stay within a bound together,
whatever the order of the merges. -/

set_option autoImplicit false

namespace TonTrace

theorem AccountFlow.merge_empty (entry : AccountFlow) : entry.merge {} = entry := by
  have same : entry.jettons.merge jettonBalance .empty = entry.jettons :=
    AddressMap.ext fun master => AddressMap.find?_merge _ _ _ master
  simp only [merge, Ranged.saturatingAdd_zero, same, Nat.add_zero]

namespace Flow

def entry (flow : Flow) (account : Address) : AccountFlow := (flow.get? account).getD {}

def ton (flow : Flow) (account : Address) : Int := (flow.entry account).ton.val

def fees (flow : Flow) (account : Address) : Int := (flow.entry account).fees.val

theorem entry_update (account other : Address) (change : AccountFlow → AccountFlow) (flow : Flow) :
    (flow.update account change).entry other =
      if account = other then change (flow.entry other) else flow.entry other := by
  rw [entry, get?, update, AddressMap.find?_alter]
  split
  · subst account; rfl
  · rfl

/-- Merging adds up entries; an account that is not listed counts as one with an empty entry. -/
theorem entry_merge (flow other : Flow) (account : Address) :
    (flow.merge other).entry account = (flow.entry account).merge (other.entry account) := by
  rw [entry, get?, merge, AddressMap.find?_merge]
  simp only [entry, get?]
  cases other.accounts.find? account with
  | none => exact (AccountFlow.merge_empty _).symm
  | some added => rfl

/-- A figure that is zero in the empty ledger, and that merging adds up as long as the sum is not
larger than the bound. -/
structure Additive (figure : Flow → Int) (bound : Nat) : Prop where
  empty : figure .empty = 0
  merge (flow other : Flow) (small : (figure flow + figure other).natAbs ≤ bound) :
    figure (flow.merge other) = figure flow + figure other

theorem additive_entry {lo hi : Int} [SpansZero lo hi] {bound : Nat}
    (fits : ∀ {x : Int}, x.natAbs ≤ bound → Ranged.Fits lo hi x) (part : AccountFlow → Ranged lo hi)
    (empty : part {} = 0)
    (merged : ∀ flow other, part (flow.merge other) = (part flow).saturatingAdd (part other))
    (account : Address) :
    Additive (fun flow => (part (flow.entry account)).val) bound where
  empty := congrArg Ranged.val empty
  merge flow other small := by
    rw [entry_merge, merged]
    exact (Ranged.val_saturatingAdd_iff _ _).mpr (fits small)

variable {figure : Flow → Int} {bound : Nat}

theorem Additive.foldl (additive : Additive figure bound) (flows : List Flow) (start : Flow)
    (small : (figure start).natAbs + (flows.map fun flow => (figure flow).natAbs).sum ≤ bound) :
    figure (flows.foldl Flow.merge start) = figure start + (flows.map figure).sum := by
  induction flows generalizing start with
  | nil => simp
  | cons flow rest ih =>
    rw [List.map_cons, List.sum_cons] at small ⊢
    have near : (figure start + figure flow).natAbs ≤ (figure start).natAbs + (figure flow).natAbs :=
      Int.natAbs_add_le _ _
    have merged := additive.merge start flow (by omega)
    rw [List.foldl_cons, ih (start.merge flow) (by omega), merged, add_assoc]

/-- Every partial sum of such a fold is as small as the bound. -/
theorem Additive.foldl_step (additive : Additive figure bound) {flows : List Flow}
    (small : (flows.map fun flow => (figure flow).natAbs).sum ≤ bound) {before after : List Flow}
    {next : Flow} (parts : flows = before ++ next :: after) :
    (figure (before.foldl Flow.merge .empty) + figure next).natAbs ≤ bound := by
  subst parts
  simp only [List.map_append, List.map_cons, List.sum_append, List.sum_cons] at small
  have sum := additive.foldl before .empty (by rw [additive.empty]; simp only [Int.natAbs_zero]; omega)
  have first := natAbs_sum_le (before.map figure)
  rw [List.map_map] at first
  rw [sum, additive.empty, zero_add]
  refine (Int.natAbs_add_le _ _).trans ?_
  simp only [Function.comp_def] at first
  omega

end Flow

namespace Cluster

variable {figure : Flow → Int} {bound : Nat}

def total (figure : Flow → Int) (clusters : List Cluster) : Int :=
  (clusters.map fun cluster => figure cluster.flow).sum

def spread (figure : Flow → Int) (clusters : List Cluster) : Nat :=
  (clusters.map fun cluster => (figure cluster.flow).natAbs).sum

@[simp] theorem total_cons (cluster : Cluster) (rest : List Cluster) :
    total figure (cluster :: rest) = figure cluster.flow + total figure rest := List.sum_cons

@[simp] theorem spread_cons (cluster : Cluster) (rest : List Cluster) :
    spread figure (cluster :: rest) = (figure cluster.flow).natAbs + spread figure rest := List.sum_cons

@[simp] theorem total_append (first rest : List Cluster) :
    total figure (first ++ rest) = total figure first + total figure rest := by
  simp [total]

@[simp] theorem spread_append (first rest : List Cluster) :
    spread figure (first ++ rest) = spread figure first + spread figure rest := by
  simp [spread]

theorem total_perm {first second : List Cluster} (same : first.Perm second) :
    total figure first = total figure second := (same.map _).sum_eq

theorem spread_perm {first second : List Cluster} (same : first.Perm second) :
    spread figure first = spread figure second := (same.map _).sum_nat

theorem total_flatMap {α : Type} (clusters : α → List Cluster) (xs : List α) :
    total figure (xs.flatMap clusters) = (xs.map fun x => total figure (clusters x)).sum := by
  induction xs with
  | nil => rfl
  | cons x rest ih => rw [List.flatMap_cons, total_append, ih, List.map_cons, List.sum_cons]

theorem spread_flatMap {α : Type} (clusters : α → List Cluster) (xs : List α) :
    spread figure (xs.flatMap clusters) = (xs.map fun x => spread figure (clusters x)).sum := by
  induction xs with
  | nil => rfl
  | cons x rest ih => rw [List.flatMap_cons, spread_append, ih, List.map_cons, List.sum_cons]

theorem natAbs_total_le (clusters : List Cluster) :
    (total figure clusters).natAbs ≤ spread figure clusters := by
  have bounded := natAbs_sum_le (clusters.map fun cluster => figure cluster.flow)
  rwa [List.map_map] at bounded

theorem spread_subtree_le {node reading : Reading} (inside : node ∈ reading.subtrees) :
    spread figure node.preorder ≤ spread figure reading.preorder := by
  obtain ⟨before, after, parts⟩ := Tree.infix_of_mem_subtrees inside
  rw [parts, spread_append, spread_append]
  omega

theorem flow_join (event : Event) (clusters : List Cluster) :
    (join event clusters).flow = (clusters.map (·.flow)).foldl Flow.merge .empty :=
  List.foldl_map.symm

theorem figure_join (additive : Flow.Additive figure bound) (event : Event) (clusters : List Cluster)
    (small : spread figure clusters ≤ bound) :
    figure (join event clusters).flow = total figure clusters := by
  have sum := additive.foldl (clusters.map (·.flow)) .empty (by
    rw [additive.empty, List.map_map]
    simpa [spread, Function.comp_def] using small)
  rw [List.map_map, additive.empty, zero_add] at sum
  rw [flow_join, sum]
  rfl

/-- A figure that adds up to a total over the clusters, and whose sizes add up to at most a bound. -/
structure Carries (figure : Flow → Int) (sum : Int) (bound : Nat) (clusters : List Cluster) :
    Prop where
  sum_eq : total figure clusters = sum
  spread_le : spread figure clusters ≤ bound

theorem Carries.mono {figure : Flow → Int} {sum : Int} {bound more : Nat} {clusters : List Cluster}
    (carries : Carries figure sum bound clusters) (le : bound ≤ more) :
    Carries figure sum more clusters := ⟨carries.sum_eq, carries.spread_le.trans le⟩

end Cluster

def Rule.Keeps (rule : Rule) (figure : Flow → Int) : Prop :=
  ∀ {reading sites}, rule.pattern.sites? reading = some sites →
    ∀ output flow, figure (rule.settle sites output flow) = figure flow

section

variable {figure : Flow → Int} {bound : Nat} {sum : Int}

/-- One step brings figures together without changing their sum, and never spreads them. -/
theorem Cluster.Carries.fuses {rule : Rule} {before after : List Cluster}
    (additive : Flow.Additive figure bound) (keeps : rule.Keeps figure)
    (carries : Carries figure sum bound before) (fuses : rule.Fuses before after) :
    Carries figure sum bound after := by
  obtain ⟨reading, sites, output, taken, kept, matched, _, beforePerm, afterPerm⟩ := fuses
  obtain ⟨whole, small⟩ := carries
  rw [total_perm beforePerm, total_append] at whole
  rw [spread_perm beforePerm, spread_append] at small
  -- The corrections do not count, so the new cluster has the sum of those it took.
  have joined : figure (rule.fused sites output taken).flow = total figure taken := by
    rw [Rule.fused, keeps matched]
    exact figure_join additive _ taken (by omega)
  have size : (total figure taken).natAbs ≤ spread figure taken := natAbs_total_le taken
  constructor
  · rw [total_perm afterPerm, total_cons, joined, whole]
  · rw [spread_perm afterPerm, spread_cons, joined]
    omega

theorem Cluster.Carries.reaches {rules : List Rule} {start reading : Reading}
    (additive : Flow.Additive figure bound) (keeps : ∀ rule ∈ rules, rule.Keeps figure)
    (carries : Carries figure sum bound start.preorder) (reached : Reaches rules start reading) :
    Carries figure sum bound reading.preorder := by
  induction reached with
  | start => exact carries
  | step member _ step ih => exact ih.fuses additive (keeps _ member) step.fuses

/-- No partial sum of the ledgers that a rewrite brings together exceeds the bound. -/
theorem Cluster.Carries.split_step (additive : Flow.Additive figure bound) {reading target : Reading}
    (carries : Carries figure sum bound reading.preorder) (inside : target ∈ reading.subtrees)
    (paths : List (List Nat)) {before after : List Flow} {next : Flow}
    (parts : (target.split paths).1.map (·.flow) = before ++ next :: after) :
    (figure (before.foldl Flow.merge .empty) + figure next).natAbs ≤ bound := by
  refine additive.foldl_step ?_ parts
  have near : spread figure target.preorder ≤ bound :=
    (spread_subtree_le inside).trans carries.spread_le
  rw [← spread_perm (Tree.split_perm paths target), spread_append] at near
  rw [List.map_map]
  change spread figure (target.split paths).1 ≤ bound
  omega

namespace Report

variable (keep : Action → Bool)

/-- What is merged at a node is no larger than the ledgers below it, when those of the children are exact. -/
theorem sum_mergedAt_le (reading : Reading)
    (exact : ∀ child ∈ reading.children,
      figure (collect keep child).flow = Cluster.total figure child.preorder) :
    ((mergedAt keep reading).map fun flow => (figure flow).natAbs).sum ≤
      Cluster.spread figure reading.preorder := by
  cases reading with
  | node cluster children =>
    have below : (children.map fun child => (figure (collect keep child).flow).natAbs).sum ≤
        (children.map fun child => Cluster.spread figure child.preorder).sum := by
      refine List.sum_le_sum fun child member => ?_
      rw [exact child member]
      exact Cluster.natAbs_total_le child.preorder
    rw [Tree.preorder_node, Cluster.spread_cons, Cluster.spread_flatMap]
    simp only [mergedAt, List.map_append, List.map_map, List.sum_append, List.map_cons, List.map_nil,
      List.sum_cons, List.sum_nil, Function.comp_def]
    omega

theorem figure_collect (additive : Flow.Additive figure bound) (reading : Reading)
    (small : Cluster.spread figure reading.preorder ≤ bound) :
    figure (collect keep reading).flow = Cluster.total figure reading.preorder := by
  induction reading using Tree.induct with
  | node cluster children ih =>
    -- No child is spread wider than the node, so the children's reports are exact.
    have exact : ∀ child ∈ children,
        figure (collect keep child).flow = Cluster.total figure child.preorder := fun child member =>
      ih child member ((Cluster.spread_subtree_le (Tree.mem_subtrees_of_child member)).trans small)
    have merged := sum_mergedAt_le keep (.node cluster children) exact
    rw [flow_collect, additive.foldl _ _ (by rw [additive.empty]; simp only [Int.natAbs_zero]; omega),
      additive.empty, Tree.preorder_node, Cluster.total_cons, Cluster.total_flatMap]
    simp only [mergedAt, List.map_append, List.map_map, List.sum_append, List.map_cons, List.map_nil,
      List.sum_cons, List.sum_nil, Function.comp_def, List.map_congr_left exact]
    omega

theorem collect_step (additive : Flow.Additive figure bound) {reading node : Reading}
    (small : Cluster.spread figure reading.preorder ≤ bound) (inside : node ∈ reading.subtrees)
    {before after : List Flow} {next : Flow} (parts : mergedAt keep node = before ++ next :: after) :
    (figure (before.foldl Flow.merge .empty) + figure next).natAbs ≤ bound := by
  have near := (Cluster.spread_subtree_le inside).trans small
  refine additive.foldl_step ((sum_mergedAt_le keep node fun child member => ?_).trans near) parts
  have below := Tree.mem_subtrees_of_child member
  exact figure_collect keep additive child ((Cluster.spread_subtree_le below).trans near)

end Report

end

end TonTrace
