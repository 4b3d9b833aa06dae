import TonTrace.Proofs.Report
import TonTrace.Proofs.Stuck
import TonTrace.Proofs.Termination

/-! Subtrees on their own. A rule that never applies at the root works on the
children from the first to the last, with the steps that are left over. Below
the limit nothing is cut short, so every child ends as it would alone, rule
after rule. A message from outside without a body sets off such a root. -/

set_option autoImplicit false

namespace TonTrace

namespace Rule

variable {rule : Rule} {cluster : Cluster}

/-- The rule does not apply at a node with this cluster, whatever stands below it. -/
def Skips (rule : Rule) (cluster : Cluster) : Prop :=
  ∀ children, rule.rewrite? (.node cluster children) = none

theorem Skips.of_check {check : Reading → Bool} (listed : check ∈ rule.pattern.checks)
    (fails : ∀ children, check (.node cluster children) = false) : rule.Skips cluster := by
  intro children
  rw [← Option.not_isSome_iff_eq_none, isSome_rewrite?_iff]
  rintro ⟨found⟩
  have passes := found.admits check listed
  rw [fails children] at passes
  cases passes

def exhaustEach (rule : Rule) : Nat → List Reading → List Reading × Nat
  | _, [] => ([], 0)
  | limit, child :: rest =>
    let first := rule.exhaust limit child
    let others := exhaustEach rule (limit - first.2) rest
    (first.1 :: others.1, first.2 + others.2)

theorem exhaustEach_zero (children : List Reading) : rule.exhaustEach 0 children = (children, 0) := by
  induction children with
  | nil => rfl
  | cons child rest ih => simp [exhaustEach, exhaust, ih]

theorem exhaustEach_of_none {children : List Reading}
    (stuck : rule.rewriteFirstChild? children = none) (limit : Nat) :
    rule.exhaustEach limit children = (children, 0) := by
  induction children generalizing limit with
  | nil => rfl
  | cons child rest ih =>
    rw [rewriteFirstChild?] at stuck
    cases here : rule.rewriteFirst? child with
    | some next => simp [here] at stuck
    | none =>
      simp only [here, Option.map_eq_none_iff] at stuck
      have first : rule.exhaust limit child = (child, 0) := (stuck_iff.mpr here).exhaust_eq limit
      simp [exhaustEach, first, ih stuck]

theorem exhaustEach_of_some {children next : List Reading}
    (found : rule.rewriteFirstChild? children = some next) (limit : Nat) :
    rule.exhaustEach (limit + 1) children =
      ((rule.exhaustEach limit next).1, (rule.exhaustEach limit next).2 + 1) := by
  induction children generalizing limit next with
  | nil => simp [rewriteFirstChild?] at found
  | cons child rest ih =>
    rw [rewriteFirstChild?] at found
    cases here : rule.rewriteFirst? child with
    | some rewritten =>
      simp only [here, Option.some.injEq] at found
      subst found
      simp only [exhaustEach, exhaust, here, Nat.add_sub_add_right, Nat.add_right_comm]
    | none =>
      simp only [here, Option.map_eq_some_iff] at found
      obtain ⟨others, further, rfl⟩ := found
      -- This tree has no step left under either limit.
      have first : ∀ limit, rule.exhaust limit child = (child, 0) := (stuck_iff.mpr here).exhaust_eq
      simp [exhaustEach, first, ih further]

theorem Skips.exhaust_node (skips : rule.Skips cluster) (limit : Nat) (children : List Reading) :
    rule.exhaust limit (.node cluster children) =
      (.node cluster (rule.exhaustEach limit children).1, (rule.exhaustEach limit children).2) := by
  induction limit generalizing children with
  | zero => rw [exhaust, exhaustEach_zero]
  | succ limit ih =>
    have root : rule.rewriteFirst? (.node cluster children) =
        (rule.rewriteFirstChild? children).map (.node cluster ·) := by
      rw [rewriteFirst?, skips children]
    cases found : rule.rewriteFirstChild? children with
    | none => simp [exhaust, root, found, exhaustEach_of_none found]
    | some next => simp [exhaust, root, found, exhaustEach_of_some found, ih]

theorem exhaustEach_eq_map {limit : Nat} {children : List Reading}
    (below : (rule.exhaustEach limit children).2 < limit) :
    rule.exhaustEach limit children =
      (children.map fun child => (rule.exhaust limit child).1,
        (children.map fun child => (rule.exhaust limit child).2).sum) := by
  induction children generalizing limit with
  | nil => rfl
  | cons child rest ih =>
    simp only [exhaustEach] at below ⊢
    generalize spent : (rule.exhaust limit child).2 = steps at below ⊢
    have others := @ih (limit - steps) (by omega)
    rw [others] at below
    -- What is left is enough for each of the others, so they could as well have had it all.
    have same : ∀ other ∈ rest, rule.exhaust (limit - steps) other = rule.exhaust limit other := by
      intro other member
      have part : (rule.exhaust (limit - steps) other).2 ≤
          (rest.map fun other => (rule.exhaust (limit - steps) other).2).sum :=
        List.le_sum_of_mem (List.mem_map_of_mem member)
      exact (exhaust_eq_of_lt (Nat.sub_le _ _) (by omega)).symm
    rw [others, List.map_cons, List.map_cons, List.sum_cons, spent,
      List.map_congr_left fun other member => congrArg Prod.fst (same other member),
      List.map_congr_left fun other member => congrArg Prod.snd (same other member)]

end Rule

theorem rewriteAll_node {rules : List Rule} {cluster : Cluster}
    (skips : ∀ rule ∈ rules, rule.Skips cluster) {limit : Nat} {children : List Reading}
    (below : (rewriteAll rules limit (.node cluster children)).2 < limit) :
    rewriteAll rules limit (.node cluster children) =
      (.node cluster (children.map fun child => (rewriteAll rules limit child).1),
        (children.map fun child => (rewriteAll rules limit child).2).sum) := by
  induction rules generalizing limit children with
  | nil => simp [rewriteAll]
  | cons rule rest ih =>
    rw [List.forall_mem_cons] at skips
    simp only [rewriteAll, skips.1.exhaust_node] at below ⊢
    have each := Rule.exhaustEach_eq_map (Nat.lt_of_le_of_lt (Nat.le_add_right _ _) below)
    simp only [each] at below ⊢
    generalize spent : (children.map fun child => (rule.exhaust limit child).2).sum = steps at below ⊢
    have others := ih skips.2 (Nat.lt_sub_of_add_lt (Nat.add_comm _ _ ▸ below))
    simp only [others, List.map_map, Function.comp_def] at below ⊢
    -- A child takes no more steps than all of them, so what it has left alone is as good.
    have same : ∀ child ∈ children,
        rewriteAll rest (limit - steps) (rule.exhaust limit child).1 =
          rewriteAll rest (limit - (rule.exhaust limit child).2) (rule.exhaust limit child).1 := by
      intro child member
      have first : (rule.exhaust limit child).2 ≤ steps :=
        spent ▸ List.le_sum_of_mem (List.mem_map_of_mem member)
      have part : (rewriteAll rest (limit - steps) (rule.exhaust limit child).1).2 ≤
          (children.map fun child =>
            (rewriteAll rest (limit - steps) (rule.exhaust limit child).1).2).sum :=
        List.le_sum_of_mem (List.mem_map_of_mem member)
      exact (rewriteAll_eq_of_lt (by omega) (by omega)).symm
    refine Prod.ext ?_ ?_
    · exact congrArg (Tree.node cluster)
        (List.map_congr_left fun child member => congrArg Prod.fst (same child member))
    · rw [List.sum_map_add, spent,
        List.map_congr_left fun child member => congrArg Prod.snd (same child member)]

namespace Catalog

open Check

/-- No rule applies to a message from outside without a body, but for the payments of a subscription
contract. -/
theorem skips_external (groups : PatternGroups) {root : Transaction} (external : root.external)
    (silent : root.body? = none) (other : root.implements .subscriptionV1 = false) :
    ∀ rule ∈ rules groups, rule.Skips (.ofTransaction root) := by
  have outside : ∀ children, isInternal (.node (.ofTransaction root) children) = false := by
    intro children
    rw [isInternal, onTransaction_of_event rfl, external, Bool.not_true]
  have bodiless : ∀ operation children,
      hasOperation operation (.node (.ofTransaction root) children) = false := by
    intro operation children
    rw [hasOperation, onTransaction_of_event rfl, Transaction.hasOperation, silent, Option.any_none]
  have wordless : ∀ text children,
      hasTextComment text (.node (.ofTransaction root) children) = false := by
    intro text children
    rw [hasTextComment, onTransaction_of_event rfl, Transaction.comment?, silent]
    rfl
  apply forall_rules
  -- Jetton transfers are recognised only later, and the native vault is asked by a body.
  case stonfiSwap | stonfiLiquidityDeposit | jettonInvoice =>
    exact .of_check List.mem_cons_self fun _ => rfl
  case dedustSwap =>
    refine .of_check List.mem_cons_self fun children => ?_
    rw [either, asksNativeVault, bodiless, Bool.and_false]
    rfl
  case subscription => exact .of_check List.mem_cons_self fun _ => other
  case contractCall =>
    refine .of_check List.mem_cons_self fun children => ?_
    rw [onTransaction_of_event rfl, external]
    rfl
  case tonTransfer | tonInvoice | gasRelay => exact .of_check List.mem_cons_self outside
  case fragmentBid | nftPurchase =>
    exact .of_check (List.mem_cons_of_mem _ List.mem_cons_self) outside
  case tfDeposit | tfWithdrawalRequest =>
    exact .of_check (List.mem_cons_of_mem _ List.mem_cons_self) (wordless _)
  case unsubscription => exact .of_check List.mem_cons_self (bodiless _)
  -- The other rules ask for an operation after an interface.
  all_goals exact .of_check (List.mem_cons_of_mem _ List.mem_cons_self) (bodiless _)

end Catalog

theorem Cluster.actions_ofTransaction {tx : Transaction} (external : tx.external) :
    (ofTransaction tx).actions =
      if tx.isDeployment then [⟨tx.success, .deployment (deploymentOf tx).detail⟩] else [] := by
  have silent : (ofTransaction tx).event.action? = none := by
    rw [ofTransaction, Event.action?, if_pos external]
  rw [actions, silent, ofTransaction]
  split <;> rfl

theorem Report.actions_node (cluster : Cluster) (children : List Reading) :
    (ofReading none (.node cluster children)).actions =
      cluster.actions ++ children.flatMap fun child => (ofReading none child).actions := by
  simp only [actions_ofReading, Tree.preorder_node, List.flatMap_cons, List.flatMap_assoc]

namespace Trace

/-- What a message from outside without a body sets off on an account that is no subscription: below
the limit each subtree is read as a trace of its own, in as many steps and with the same actions. -/
theorem children_apart (groups : PatternGroups) {limit : Nat} {root : Transaction}
    {children : List Trace} (external : root.external) (silent : root.body? = none)
    (other : root.implements .subscriptionV1 = false)
    (below : (rewriteAll (Catalog.rules groups) limit (.ofTrace (.node root children))).2 < limit) :
    let alone := fun child : Trace => rewriteAll (Catalog.rules groups) limit (.ofTrace child)
    rewriteAll (Catalog.rules groups) limit (.ofTrace (.node root children)) =
      (.node (.ofTransaction root) (children.map fun child => (alone child).1),
        (children.map fun child => (alone child).2).sum) ∧
    (Report.ofTrace (Catalog.rules groups) limit none (.node root children)).actions =
      (if root.isDeployment then [⟨root.success, .deployment (Cluster.deploymentOf root).detail⟩]
        else []) ++
      children.flatMap fun child =>
        (Report.ofTrace (Catalog.rules groups) limit none child).actions := by
  intro alone
  have reading : Reading.ofTrace (.node root children) =
      .node (.ofTransaction root) (children.map Reading.ofTrace) := Tree.map_node _ root children
  have run : rewriteAll (Catalog.rules groups) limit (.ofTrace (.node root children)) =
      (.node (.ofTransaction root) (children.map fun child => (alone child).1),
        (children.map fun child => (alone child).2).sum) := by
    rw [reading] at below ⊢
    rw [rewriteAll_node (Catalog.skips_external groups external silent other) below, List.map_map,
      List.map_map]
    rfl
  refine ⟨run, ?_⟩
  rw [Report.ofTrace, run, Report.actions_node, Cluster.actions_ofTransaction external,
    List.flatMap_map]
  rfl

def fanout : Trace :=
  .node {
      hash := ⟨1⟩
      account := ⟨0, ⟨1⟩⟩
      success := true
      inMessage := some { external := true } } [
    .leaf {
      hash := ⟨2⟩
      account := ⟨0, ⟨2⟩⟩
      success := true
      inMessage := some { source := some ⟨0, ⟨1⟩⟩, value := .clamp 5 } },
    .leaf {
      hash := ⟨3⟩
      account := ⟨0, ⟨3⟩⟩
      success := true
      inMessage := some { source := some ⟨0, ⟨1⟩⟩, value := .clamp 7 } }]

theorem children_apart_fanout :
    (rewriteAll (Catalog.rules {}) 10 (.ofTrace fanout)).2 = 2 ∧
      (rewriteAll (Catalog.rules {}) 10 (.ofTrace fanout)).1 =
        .node (.ofTransaction fanout.value)
          (fanout.children.map fun child => (rewriteAll (Catalog.rules {}) 10 (.ofTrace child)).1) := by
  have steps : (rewriteAll (Catalog.rules {}) 10 (.ofTrace fanout)).2 = 2 := by decide +kernel
  have below : (rewriteAll (Catalog.rules {}) 10 (.ofTrace fanout)).2 < 10 := by
    rw [steps]
    decide
  have apart := @children_apart {} 10 fanout.value fanout.children rfl rfl rfl below
  exact ⟨steps, congrArg Prod.fst apart.1⟩

end Trace

end TonTrace
