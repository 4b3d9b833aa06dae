import TonTrace.Proofs.Tree
import TonTrace.Report

/-! A report as a list: its actions in the order of the clusters, and the
ledgers that are merged at each node. Asking for one account leaves out actions
and nothing else. -/

set_option autoImplicit false

namespace TonTrace.Report

theorem actions_collectAll (keep : Action → Bool) (flow : Flow) (readings : List Reading) :
    (collectAll keep flow readings).actions =
      readings.flatMap fun reading => (collect keep reading).actions := by
  induction readings generalizing flow with
  | nil => rfl
  | cons reading rest ih => rw [collectAll, ih, List.flatMap_cons]

theorem flow_collectAll (keep : Action → Bool) (flow : Flow) (readings : List Reading) :
    (collectAll keep flow readings).flow =
      (readings.map fun reading => (collect keep reading).flow).foldl Flow.merge flow := by
  induction readings generalizing flow with
  | nil => rfl
  | cons reading rest ih => rw [collectAll, ih, List.map_cons, List.foldl_cons]

theorem actions_collect (keep : Action → Bool) (reading : Reading) :
    (collect keep reading).actions = (reading.preorder.flatMap (·.actions)).filter keep := by
  induction reading using Tree.induct with
  | node cluster children ih =>
    rw [collect, Tree.preorder_node, List.flatMap_cons, List.filter_append, actions_collectAll,
      List.flatMap_assoc, List.filter_flatMap, List.flatMap_congr ih]

theorem actions_ofReading (reading : Reading) :
    (ofReading none reading).actions = reading.preorder.flatMap (·.actions) := by
  simp only [ofReading, actions_collect, Option.all_none, List.filter_true]

/-- The ledgers that are merged, from an empty one, at a node. -/
def mergedAt (keep : Action → Bool) (reading : Reading) : List Flow :=
  (reading.children.map fun child => (collect keep child).flow) ++ [reading.value.flow]

theorem flow_collect (keep : Action → Bool) (reading : Reading) :
    (collect keep reading).flow = (mergedAt keep reading).foldl Flow.merge .empty := by
  cases reading with
  | node cluster children =>
    rw [collect, mergedAt, flow_collectAll, List.foldl_append]
    rfl

theorem flow_collect_eq (keep other : Action → Bool) (reading : Reading) :
    (collect keep reading).flow = (collect other reading).flow := by
  induction reading using Tree.induct with
  | node cluster children ih =>
    have merged : mergedAt keep (.node cluster children) = mergedAt other (.node cluster children) := by
      rw [mergedAt, mergedAt]
      exact congrArg (· ++ [cluster.flow]) (List.map_congr_left ih)
    rw [flow_collect, flow_collect, merged]

/-- The report for an account has the actions that it is a subject of, in their order, and the whole
ledger. Without an account a report lists cluster after cluster in pre-order, each with its
deployments in address order and then its own action. -/
theorem account_filter (reading : Reading) (account : Address) :
    (ofReading (some account) reading).actions =
      (ofReading none reading).actions.filter (·.isSubject account) ∧
    (ofReading (some account) reading).flow = (ofReading none reading).flow ∧
    (ofReading none reading).actions = reading.preorder.flatMap fun cluster =>
      cluster.deployments.values.map (fun d => (⟨d.success, .deployment d.detail⟩ : Action)) ++
        cluster.event.action?.toList := by
  refine ⟨?_, flow_collect_eq _ _ reading, actions_ofReading reading⟩
  rw [actions_ofReading, ofReading, actions_collect]
  rfl

end TonTrace.Report
