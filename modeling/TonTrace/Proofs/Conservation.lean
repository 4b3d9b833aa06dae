import TonTrace.Proofs.AddressMap
import TonTrace.Proofs.Rewriting

/-! No rule loses or repeats anything: whatever the rules are, the transactions,
the accounts and the deployments of a trace are those of any reading of it. -/

set_option autoImplicit false

namespace TonTrace

namespace Rule

variable {rule : Rule} {before after : List Cluster}

theorem fused_transactions (sites : List (Site rule.Output)) (output : rule.Output)
    (taken : List Cluster) :
    (rule.fused sites output taken).transactions = taken.flatMap (·.transactions) := rfl

theorem fused_accounts (sites : List (Site rule.Output)) (output : rule.Output)
    (taken : List Cluster) (account : Address) :
    (rule.fused sites output taken).accounts.contains account ↔
      ∃ cluster ∈ taken, cluster.accounts.contains account :=
  (AddressMap.contains_foldl_overlay Cluster.accounts taken .empty account).trans (by simp)

theorem fused_deployments (sites : List (Site rule.Output)) (output : rule.Output)
    (taken : List Cluster) (account : Address) :
    (rule.fused sites output taken).deployments.contains account ↔
      ∃ cluster ∈ taken, cluster.deployments.contains account :=
  (AddressMap.contains_foldl_overlay Cluster.deployments taken .empty account).trans (by simp)

/-- What holds of a fused cluster when it holds of one taken holds somewhere after a rewrite
exactly when it held somewhere before. -/
theorem Fuses.exists_iff {Holds : Cluster → Prop}
    (fused : ∀ sites output taken,
      Holds (rule.fused sites output taken) ↔ ∃ cluster ∈ taken, Holds cluster)
    (fuses : rule.Fuses before after) :
    (∃ cluster ∈ after, Holds cluster) ↔ ∃ cluster ∈ before, Holds cluster := by
  obtain ⟨_, sites, output, taken, kept, _, _, beforePerm, afterPerm⟩ := fuses
  have same := fused sites output taken
  simp only [beforePerm.mem_iff, afterPerm.mem_iff, List.mem_append, List.mem_cons, or_and_right,
    exists_or, exists_eq_left, same]

theorem Fuses.transactions_perm (fuses : rule.Fuses before after) :
    (after.flatMap (·.transactions)).Perm (before.flatMap (·.transactions)) := by
  obtain ⟨_, sites, output, taken, kept, _, _, beforePerm, afterPerm⟩ := fuses
  refine (afterPerm.flatMap_right _).trans (.trans ?_ (beforePerm.flatMap_right _).symm)
  rw [List.flatMap_cons, List.flatMap_append, fused_transactions]

end Rule

structure Cluster.Covers (clusters : List Cluster) (txs : List Transaction) : Prop where
  transactions : (clusters.flatMap (·.transactions)).Perm (txs.map (·.hash))
  accounts : ∀ account, (∃ cluster ∈ clusters, cluster.accounts.contains account) ↔
    ∃ tx ∈ txs, tx.account = account
  deployments : ∀ account, (∃ cluster ∈ clusters, cluster.deployments.contains account) ↔
    ∃ tx ∈ txs, tx.isDeployment ∧ tx.account = account

namespace Cluster

theorem covers_ofTransaction (txs : List Transaction) : Covers (txs.map ofTransaction) txs where
  transactions := by
    rw [List.flatMap_map]
    exact .of_eq List.map_eq_flatMap.symm
  accounts account := by simp [ofTransaction, AddressMap.contains_single]
  deployments account := by
    have single : ∀ tx, (ofTransaction tx).deployments.contains account ↔
        tx.isDeployment ∧ tx.account = account := by
      intro tx
      simp only [ofTransaction]
      split <;> simp [*, AddressMap.contains_single]
    simp [single]

theorem Covers.fuses {rule : Rule} {before after : List Cluster} {txs : List Transaction}
    (covers : Covers before txs) (fuses : rule.Fuses before after) : Covers after txs where
  transactions := fuses.transactions_perm.trans covers.transactions
  accounts account :=
    (fuses.exists_iff fun _ _ _ => Rule.fused_accounts _ _ _ account).trans (covers.accounts account)
  deployments account :=
    (fuses.exists_iff fun _ _ _ => Rule.fused_deployments _ _ _ account).trans
      (covers.deployments account)

end Cluster

theorem covers_rewriteAll (rules : List Rule) (limit : Nat) (trace : Trace) :
    Cluster.Covers (rewriteAll rules limit (.ofTrace trace)).1.preorder trace.preorder := by
  refine rewriteAll_keeps (P := fun reading => Cluster.Covers reading.preorder trace.preorder)
    (fun rule _ _ _ step covers => covers.fuses step.fuses) limit ?_
  rw [Reading.preorder_ofTrace]
  exact Cluster.covers_ofTransaction trace.preorder

/-- No rule can lose or repeat a transaction, an account or a deployment, nor make a reading
larger or deeper. The hashes are compared with their multiplicities. -/
theorem rewriteAll_conserves (rules : List Rule) (limit : Nat) (trace : Trace) :
    let reading := (rewriteAll rules limit (.ofTrace trace)).1
    (reading.preorder.flatMap (·.transactions)).Perm (trace.preorder.map (·.hash)) ∧
    (∀ account, (∃ cluster ∈ reading.preorder, cluster.accounts.contains account) ↔
      ∃ tx ∈ trace.preorder, tx.account = account) ∧
    (∀ account, (∃ cluster ∈ reading.preorder, cluster.deployments.contains account) ↔
      ∃ tx ∈ trace.preorder, tx.isDeployment ∧ tx.account = account) ∧
    reading.size ≤ (Reading.ofTrace trace).size ∧
    reading.depth ≤ (Reading.ofTrace trace).depth := by
  intro reading
  have covers := covers_rewriteAll rules limit trace
  refine ⟨covers.transactions, covers.accounts, covers.deployments, ?_, ?_⟩
  · refine rewriteAll_keeps (P := fun reading => reading.size ≤ (Reading.ofTrace trace).size)
      (fun rule _ before after step bound => ?_) limit (Nat.le_refl _)
    rw [← Tree.length_preorder] at bound ⊢
    exact Nat.le_trans step.fuses.length_le bound
  · exact rewriteAll_keeps (P := fun reading => reading.depth ≤ (Reading.ofTrace trace).depth)
      (fun rule _ _ _ step bound => Nat.le_trans step.depth_le bound) limit (Nat.le_refl _)

end TonTrace
