import TonTrace.Proofs.Conservation
import TonTrace.Proofs.Explained

/-! Every deployment is reported once. The deployments of a cluster are a map by
account, and where two clusters know the same account a join keeps only one of
them. As long as no account is deployed twice the maps that are joined have no
account in common, so a join is just both of them together. -/

set_option autoImplicit false

namespace TonTrace

namespace Cluster

def deployed (clusters : List Cluster) : List (Address × Outcome Detail.Deployment) :=
  clusters.flatMap (·.deployments.entries)

theorem deployed_append (clusters others : List Cluster) :
    deployed (clusters ++ others) = deployed clusters ++ deployed others := List.flatMap_append

theorem deployed_perm {clusters others : List Cluster} (perm : clusters.Perm others) :
    (deployed clusters).Perm (deployed others) := perm.flatMap_right _

theorem deployed_ofTransaction (txs : List Transaction) :
    deployed (txs.map ofTransaction) =
      (txs.filter (·.isDeployment)).map fun tx => (tx.account, deploymentOf tx) := by
  induction txs with
  | nil => rfl
  | cons tx rest ih =>
    have single : (ofTransaction tx).deployments.entries =
        if tx.isDeployment then [(tx.account, deploymentOf tx)] else [] := by
      rw [ofTransaction]
      split <;> rfl
    rw [deployed] at ih ⊢
    rw [List.map_cons, List.flatMap_cons, ih, single, List.filter_cons]
    split <;> rfl

theorem actions_filter_deployment (cluster : Cluster) :
    cluster.actions.filter (·.isDeployment) =
      cluster.deployments.entries.map fun entry => ⟨entry.2.success, .deployment entry.2.detail⟩ := by
  have told : cluster.event.action?.toList.filter (·.isDeployment) = [] := by
    rw [List.filter_eq_nil_iff]
    intro action member
    simp [Event.isDeployment_action? (Option.mem_toList.mp member)]
  have every : ∀ action ∈ cluster.deployments.values.map fun d =>
      (⟨d.success, .deployment d.detail⟩ : Action), action.isDeployment := by
    intro action member
    obtain ⟨deployment, _, rfl⟩ := List.mem_map.mp member
    rfl
  rw [actions, List.filter_append, told, List.filter_eq_self.mpr every, List.append_nil,
    AddressMap.values, List.map_map]
  rfl

end Cluster

/-- A rewrite keeps the deployments when no two are of one account. -/
theorem Rule.Fuses.deployed_perm {rule : Rule} {before after : List Cluster}
    (fuses : rule.Fuses before after) (apart : ((Cluster.deployed before).map (·.1)).Nodup) :
    (Cluster.deployed after).Perm (Cluster.deployed before) := by
  obtain ⟨_, sites, output, taken, kept, _, _, beforePerm, afterPerm⟩ := fuses
  have parts := Cluster.deployed_perm beforePerm
  rw [Cluster.deployed_append] at parts
  have taken_apart : ((Cluster.deployed taken).map (·.1)).Nodup := by
    have both := (parts.map (·.1)).nodup_iff.mp apart
    rw [List.map_append] at both
    exact both.of_append_left
  have fused : (rule.fused sites output taken).deployments.entries.Perm (Cluster.deployed taken) :=
    AddressMap.entries_foldl_overlay_perm Cluster.deployments taken .empty taken_apart
  exact (Cluster.deployed_perm afterPerm).trans ((fused.append_right _).trans parts.symm)

theorem deployed_rewriteAll (rules : List Rule) (limit : Nat) {trace : Trace}
    (once : ((trace.preorder.filter (·.isDeployment)).map (·.account)).Nodup) :
    (Cluster.deployed (rewriteAll rules limit (.ofTrace trace)).1.preorder).Perm
      ((trace.preorder.filter (·.isDeployment)).map fun tx => (tx.account, Cluster.deploymentOf tx)) := by
  refine rewriteAll_keeps (P := fun reading => (Cluster.deployed reading.preorder).Perm _)
    (fun rule _ _ _ step known => ?_) limit ?_
  · refine (step.fuses.deployed_perm ((known.map _).nodup_iff.mpr ?_)).trans known
    rw [List.map_map]
    exact once
  · rw [Reading.preorder_ofTrace, Cluster.deployed_ofTransaction]

namespace Trace

/-- As long as no account is deployed twice, the deployments that a report tells of are those of
the trace, each once, whatever the rules have made of its transactions. -/
theorem deployments_once (rules : List Rule) (limit : Nat) (trace : Trace)
    (once : ((trace.preorder.filter (·.isDeployment)).map (·.account)).Nodup) :
    ((Report.ofTrace rules limit none trace).actions.filter (·.isDeployment)).Perm
      ((trace.preorder.filter (·.isDeployment)).map fun tx =>
        ⟨tx.success, .deployment { address := tx.account, interfaces := tx.interfaces }⟩) := by
  have told := (deployed_rewriteAll rules limit once).map fun entry =>
    (⟨entry.2.success, .deployment entry.2.detail⟩ : Action)
  rw [List.map_map] at told
  rw [Report.ofTrace, Report.actions_ofReading, List.filter_flatMap]
  simp only [Cluster.actions_filter_deployment]
  rw [← List.map_flatMap]
  exact told

/-- A wallet is deployed with the request to burn its jettons. The jetton's contract, deployed by
the confirmation, fails. -/
def deploying : Trace :=
  .node {
      hash := ⟨1⟩
      account := ⟨0, ⟨1⟩⟩
      interfaces := [.jettonWallet]
      success := true
      statusAfter := .active
      inMessage := some {
        source := some ⟨0, ⟨2⟩⟩
        body := some { operation := Operation.jettonBurn, value := .object [("amount", .integer 5)] }
        init := [1] } } [
    .leaf {
      hash := ⟨2⟩
      account := ⟨0, ⟨3⟩⟩
      success := false
      statusAfter := .active
      inMessage := some {
        source := some ⟨0, ⟨1⟩⟩
        body := some { operation := Operation.jettonBurnNotification, value := .null }
        init := [2] } }]

/-- Both are told of, though they end in one cluster. -/
theorem deployments_once_deploying :
    ((deploying.preorder.filter (·.isDeployment)).map (·.account)).Nodup ∧
    (rewriteAll (Catalog.rules {}) 1000 (.ofTrace deploying)).1.size = 1 ∧
    ((Report.ofTrace (Catalog.rules {}) 1000 none deploying).actions.filter (·.isDeployment)).Perm
      [⟨true, .deployment { address := ⟨0, ⟨1⟩⟩, interfaces := [.jettonWallet] }⟩,
        ⟨false, .deployment { address := ⟨0, ⟨3⟩⟩ }⟩] := by
  have once : ((deploying.preorder.filter (·.isDeployment)).map (·.account)).Nodup := by
    decide +kernel
  exact ⟨once, by decide +kernel, deployments_once (Catalog.rules {}) 1000 deploying once⟩

end Trace

end TonTrace
