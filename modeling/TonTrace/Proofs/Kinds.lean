import TonTrace.Proofs.Catalog

/-! The kinds of events that the checks of a rule can hold of. The catalog only
looks at raw transactions and at recognised transfers of jettons and NFTs, so
what most rules make is never taken by another match. -/

set_option autoImplicit false

namespace TonTrace

namespace Check

def Sees (check : Reading → Bool) (kinds : List EventKind) : Prop :=
  ∀ reading : Reading, check reading → reading.event.kind ∈ kinds

variable {kinds : List EventKind}

theorem sees_onTransaction (holds : Transaction → Bool) (listed : .transaction ∈ kinds) :
    Sees (onTransaction holds) kinds := by
  intro reading checked
  obtain ⟨tx, raw, _⟩ := exists_transaction checked
  rwa [raw]

theorem sees_isJettonTransfer (listed : .jettonTransfer ∈ kinds) : Sees isJettonTransfer kinds := by
  intro reading checked
  unfold isJettonTransfer at checked
  split at checked
  case h_1 transfer event => rwa [event]
  case h_2 => cases checked

theorem sees_isNftTransfer (listed : .nftTransfer ∈ kinds) : Sees isNftTransfer kinds := by
  intro reading checked
  unfold isNftTransfer at checked
  split at checked
  case h_1 transfer event => rwa [event]
  case h_2 => cases checked

theorem sees_forwardsPayload (operation : String) (listed : .jettonTransfer ∈ kinds) :
    Sees (forwardsPayload operation) kinds := by
  intro reading checked
  obtain ⟨transfer, event, _⟩ := exists_jettonTransfer checked
  rwa [event]

theorem sees_either {first second : Reading → Bool} (left : Sees first kinds)
    (right : Sees second kinds) : Sees (either first second) kinds := by
  intro reading checked
  rcases Bool.or_eq_true_iff.mp checked with checked | checked
  · exact left reading checked
  · exact right reading checked

theorem sees_asksNativeVault (listed : .transaction ∈ kinds) :
    Sees Catalog.asksNativeVault kinds := by
  intro reading checked
  obtain ⟨tx, raw, _⟩ := exists_transaction (Bool.and_eq_true_iff.mp checked).1
  rwa [raw]

end Check

namespace Rule

/-- Each pattern of the rule has a check that holds of nodes of these kinds only. -/
def Sees (rule : Rule) (kinds : List EventKind) : Prop :=
  ∀ pattern ∈ rule.pattern.nested, ∃ check ∈ pattern.checks, Check.Sees check kinds

variable {rule : Rule} {kinds : List EventKind}

theorem Sees.kind_mem (sees : rule.Sees kinds) {pattern : Pattern rule.Output}
    (inside : pattern ∈ rule.pattern.nested) {reading : Reading} (admits : pattern.Admits reading) :
    reading.event.kind ∈ kinds := by
  obtain ⟨check, listed, sees⟩ := sees pattern inside
  exact sees reading (admits check listed)

theorem Sees.mono (sees : rule.Sees kinds) {more : List EventKind} (subset : kinds ⊆ more) :
    rule.Sees more := by
  intro pattern inside
  obtain ⟨check, listed, sees⟩ := sees pattern inside
  exact ⟨check, listed, fun reading checked => subset (sees reading checked)⟩

theorem Sees.taken (sees : rule.Sees kinds) {target : Reading} (found : rule.Match target)
    {cluster : Cluster} (member : cluster ∈ found.taken) : cluster.event.kind ∈ kinds := by
  obtain ⟨site, _, inside, admits, rfl⟩ := found.exists_site member
  exact sees.kind_mem inside admits

end Rule

namespace Catalog

open Check

def visible : List EventKind := [.transaction, .jettonTransfer, .nftTransfer]

theorem sees_nftPurchase : nftPurchase.Sees [.transaction, .nftTransfer] := by
  refine List.forall_mem_cons.mpr ⟨⟨_, List.mem_cons_self, ?_⟩, List.forall_mem_singleton.mpr
    ⟨_, List.mem_cons_self, sees_isNftTransfer (by decide)⟩⟩
  exact sees_onTransaction _ List.mem_cons_self

theorem sees_fungible (groups : PatternGroups) : ∀ rule ∈ rules groups, rule = nftPurchase ∨
    rule.Sees [.transaction, .jettonTransfer] := by
  have raw : ∀ holds, Sees (onTransaction holds) [.transaction, .jettonTransfer] := fun _ =>
    sees_onTransaction _ (by decide)
  have forwards : ∀ operation, Sees (forwardsPayload operation) [.transaction, .jettonTransfer] :=
    fun _ => sees_forwardsPayload _ (by decide)
  have jetton : Sees isJettonTransfer [.transaction, .jettonTransfer] :=
    sees_isJettonTransfer (by decide)
  have vault : Sees asksNativeVault [.transaction, .jettonTransfer] := sees_asksNativeVault (by decide)
  apply forall_rules
  case nftPurchase => exact .inl rfl
  all_goals refine .inr ?_
  case nftTransfer =>
    refine List.forall_mem_cons.mpr ⟨⟨_, List.mem_cons_of_mem _ List.mem_cons_self, raw _⟩, ?_⟩
    refine List.forall_mem_cons.mpr ⟨⟨_, List.mem_cons_self, raw _⟩, ?_⟩
    exact List.forall_mem_singleton.mpr ⟨_, List.mem_cons_self, raw _⟩
  case dedustSwap =>
    refine List.forall_mem_cons.mpr ⟨⟨_, List.mem_cons_self, sees_either vault (forwards _)⟩, ?_⟩
    refine List.forall_mem_cons.mpr ⟨⟨_, List.mem_cons_self, raw _⟩, ?_⟩
    refine List.forall_mem_cons.mpr ⟨⟨_, List.mem_cons_self, raw _⟩, ?_⟩
    exact List.forall_mem_singleton.mpr ⟨_, List.mem_cons_self, sees_either jetton (raw _)⟩
  case stonfiSwap =>
    refine List.forall_mem_cons.mpr ⟨⟨_, List.mem_cons_self, forwards _⟩, ?_⟩
    refine List.forall_mem_cons.mpr ⟨⟨_, List.mem_cons_self, raw _⟩, ?_⟩
    refine List.forall_mem_cons.mpr ⟨⟨_, List.mem_cons_self, raw _⟩, ?_⟩
    exact List.forall_mem_singleton.mpr ⟨_, List.mem_cons_self, sees_either jetton (raw _)⟩
  case stonfiLiquidityDeposit =>
    refine List.forall_mem_cons.mpr ⟨⟨_, List.mem_cons_self, forwards _⟩, ?_⟩
    refine List.forall_mem_cons.mpr ⟨⟨_, List.mem_cons_self, raw _⟩, ?_⟩
    exact List.forall_mem_singleton.mpr ⟨_, List.mem_cons_self, raw _⟩
  case jettonInvoice => exact List.forall_mem_singleton.mpr ⟨_, List.mem_cons_self, forwards _⟩
  -- The patterns of the other rules check the transaction first.
  all_goals
    repeat first
      | exact List.forall_mem_nil _
      | refine List.forall_mem_cons.mpr ⟨⟨_, List.mem_cons_self, raw _⟩, ?_⟩

theorem sees_visible (groups : PatternGroups) : ∀ rule ∈ rules groups, rule.Sees visible := by
  intro rule member
  rcases sees_fungible groups rule member with rfl | sees
  · exact sees_nftPurchase.mono (by decide)
  · exact sees.mono (by decide)

end Catalog

end TonTrace
