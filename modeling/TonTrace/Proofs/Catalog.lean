import Mathlib.Tactic.Tauto
import TonTrace.Catalog
import TonTrace.Proofs.Ledger
import TonTrace.Proofs.Making

/-! What all rules of the catalog have in common: each makes an event of what
it matches, only the root of its pattern corrects the ledger, and the
corrections move jettons and NFTs but no TON. -/

set_option autoImplicit false

namespace TonTrace

def Reading.EachRaw (holds : Transaction → Prop) (reading : Reading) : Prop :=
  ∀ cluster ∈ reading.preorder, ∀ tx, cluster.event = .transaction tx → holds tx

theorem Reading.EachRaw.mono {holds : Transaction → Prop} {inner reading : Reading}
    (each : reading.EachRaw holds) (inside : inner ∈ reading.subtrees) : inner.EachRaw holds := by
  obtain ⟨before, after, same⟩ := Tree.infix_of_mem_subtrees inside
  intro cluster member
  refine each cluster ?_
  rw [same]
  exact List.mem_append_left _ (List.mem_append_right _ member)

namespace Rule

def Recognises (rule : Rule) : Prop := ∀ output tx, rule.event output ≠ .transaction tx

theorem Step.eachRaw {rule : Rule} (recognises : rule.Recognises) {holds : Transaction → Prop}
    {reading next : Reading} (step : rule.Step reading next) (each : reading.EachRaw holds) :
    next.EachRaw holds := by
  obtain ⟨event, makes⟩ := step.makes
  obtain ⟨_, _, found, kept, _, beforePerm, afterPerm⟩ := makes.exists_match
  intro cluster member tx raw
  rcases List.mem_cons.mp (afterPerm.mem_iff.mp member) with rfl | member
  · exact absurd raw (recognises found.output tx)
  · exact each cluster (beforePerm.mem_iff.mpr (List.mem_append_right _ member)) tx raw

/-- Only the pattern of the rule itself corrects the ledger, none of its parts. -/
def SettlesAtRoot (rule : Rule) : Prop :=
  ∀ part ∈ Pattern.nestedAll rule.pattern.parts, part.settle = fun _ flow => flow

theorem SettlesAtRoot.settle_eq {rule : Rule} (atRoot : rule.SettlesAtRoot) {reading : Reading}
    {sites : List (Site rule.Output)} (matched : rule.pattern.sites? reading = some sites)
    (output : rule.Output) (flow : Flow) :
    rule.settle sites output flow = rule.pattern.settle output flow := by
  obtain ⟨below, inside, rfl⟩ := Pattern.sites?_eq_some matched
  have idle : ∀ site ∈ below, site.pattern.settle = fun _ flow => flow := fun site member =>
    atRoot _ (Pattern.mem_nestedAll_of_partSites? _ inside site member)
  have parts : below.foldr (fun site flow => site.pattern.settle output flow) flow = flow := by
    clear inside matched
    induction below with
    | nil => rfl
    | cons site rest ih =>
      rw [List.foldr_cons, ih fun site member => idle site (List.mem_cons_of_mem _ member),
        idle site List.mem_cons_self]
  rw [settle, List.foldl_reverse, List.foldr_cons, parts]

theorem SettlesAtRoot.flow_made {rule : Rule} (atRoot : rule.SettlesAtRoot) {target : Reading}
    (found : rule.Match target) : found.made.flow =
      rule.pattern.settle found.output ((found.taken.map (·.flow)).foldl Flow.merge .empty) := by
  rw [← Cluster.flow_join found.event]
  exact atRoot.settle_eq found.matched found.output _

end Rule

theorem Reaches.eachRaw {rules : List Rule} {holds : Transaction → Prop} {start reading : Reading}
    (recognises : ∀ rule ∈ rules, rule.Recognises) (reached : Reaches rules start reading)
    (each : start.EachRaw holds) : reading.EachRaw holds := by
  induction reached with
  | start => exact each
  | step member _ step ih => exact step.eachRaw (recognises _ member) ih

theorem Reading.eachRaw_ofTrace (trace : Trace) : (ofTrace trace).EachRaw (· ∈ trace.preorder) := by
  intro cluster member tx raw
  rw [preorder_ofTrace] at member
  obtain ⟨other, inside, rfl⟩ := List.mem_map.mp member
  cases raw
  exact inside

namespace Flow

def SameTon (flow other : Flow) : Prop :=
  ∀ account, flow.ton account = other.ton account ∧ flow.fees account = other.fees account

theorem SameTon.refl (flow : Flow) : SameTon flow flow := fun _ => ⟨rfl, rfl⟩

theorem SameTon.trans {first second third : Flow} (left : SameTon first second)
    (right : SameTon second third) : SameTon first third := fun account =>
  ⟨(left account).1.trans (right account).1, (left account).2.trans (right account).2⟩

theorem update_sameTon {account : Address} {change : AccountFlow → AccountFlow} (flow : Flow)
    (keeps : ∀ entry, (change entry).ton = entry.ton ∧ (change entry).fees = entry.fees) :
    SameTon (flow.update account change) flow := by
  intro other
  rw [ton, fees, entry_update]
  split
  · exact ⟨congrArg Ranged.val (keeps _).1, congrArg Ranged.val (keeps _).2⟩
  · exact ⟨rfl, rfl⟩

theorem addJettons_sameTon (account master : Address) (amount : JettonAmount) (flow : Flow) :
    SameTon (flow.addJettons account master amount) flow := update_sameTon flow fun _ => ⟨rfl, rfl⟩

theorem removeJettons_sameTon (account master : Address) (amount : JettonAmount) (flow : Flow) :
    SameTon (flow.removeJettons account master amount) flow :=
  update_sameTon flow fun _ => ⟨rfl, rfl⟩

theorem addNft_sameTon (account : Address) (flow : Flow) : SameTon (flow.addNft account) flow :=
  update_sameTon flow fun _ => ⟨rfl, rfl⟩

theorem removeNft_sameTon (account : Address) (flow : Flow) : SameTon (flow.removeNft account) flow :=
  update_sameTon flow fun _ => ⟨rfl, rfl⟩

end Flow

namespace Catalog

open TonTrace.Flow

theorem mem_rules_all {groups : PatternGroups} {rule : Rule} (member : rule ∈ rules groups) :
    rule ∈ rules {} := by
  simp only [rules, group, List.mem_append, List.mem_ite_nil_right] at member ⊢
  tauto

theorem forall_rules {P : Rule → Prop} (groups : PatternGroups) (fragmentBid : P fragmentBid)
    (nftTransfer : P nftTransfer) (nftPurchase : P nftPurchase) (jettonTransfer : P jettonTransfer)
    (abortedJettonTransfer : P abortedJettonTransfer) (jettonBurn : P jettonBurn)
    (whalesWithdrawal : P whalesWithdrawal) (whalesWithdrawalRequest : P whalesWithdrawalRequest)
    (whalesDeposit : P whalesDeposit) (tfDeposit : P tfDeposit)
    (tfWithdrawalRequest : P tfWithdrawalRequest) (tonstakersDeposit : P tonstakersDeposit)
    (electionDeposit : P electionDeposit) (electionRecovery : P electionRecovery)
    (domainRenewal : P domainRenewal) (stonfiSwap : P stonfiSwap) (dedustSwap : P dedustSwap)
    (stonfiLiquidityDeposit : P stonfiLiquidityDeposit) (subscription : P subscription)
    (unsubscription : P unsubscription) (tonInvoice : P tonInvoice) (jettonInvoice : P jettonInvoice)
    (gasRelay : P gasRelay) (contractCall : P contractCall) (tonTransfer : P tonTransfer) :
    ∀ rule ∈ rules groups, P rule := by
  intro rule member
  have named := mem_rules_all member
  simp only [rules, group, ↓reduceIte, List.cons_append, List.nil_append, List.mem_cons,
    List.not_mem_nil, or_false] at named
  rcases named with rfl | rfl | rfl | rfl | rfl | rfl | rfl | rfl | rfl | rfl | rfl | rfl | rfl |
    rfl | rfl | rfl | rfl | rfl | rfl | rfl | rfl | rfl | rfl | rfl | rfl <;> assumption

theorem recognises (groups : PatternGroups) : ∀ rule ∈ rules groups, rule.Recognises := by
  -- The event of each rule is a constructor of its own.
  apply forall_rules <;> (intro output tx same; cases same)

theorem settlesAtRoot (groups : PatternGroups) : ∀ rule ∈ rules groups, rule.SettlesAtRoot := by
  -- Part by part: none of them says what to settle.
  apply forall_rules <;>
    repeat first
      | exact List.forall_mem_nil _
      | refine List.forall_mem_cons.mpr ⟨rfl, ?_⟩

/-- What moving jettons keeps, the corrections of every rule but one keep. -/
theorem settle_keeps_or {P : Flow → Prop}
    (addJettons : ∀ account master amount {flow}, P flow → P (flow.addJettons account master amount))
    (removeJettons : ∀ account master amount {flow}, P flow →
      P (flow.removeJettons account master amount)) (groups : PatternGroups) :
    ∀ rule ∈ rules groups, rule = nftTransfer ∨
      ∀ output {flow}, P flow → P (rule.pattern.settle output flow) := by
  apply forall_rules
  case nftTransfer => exact .inl rfl
  all_goals
    right
    intro output flow holds
  case jettonTransfer =>
    change P (settleJettonTransfer output flow)
    unfold settleJettonTransfer
    cases output.success <;> cases output.master <;> cases output.sender <;>
      cases output.recipient <;> simp only [holds, addJettons, removeJettons]
  case jettonBurn =>
    change P (settleJettonBurn output flow)
    unfold settleJettonBurn
    split
    · exact removeJettons _ _ _ holds
    · exact holds
  case tonstakersDeposit =>
    change P (settleLiquidStake output flow)
    unfold settleLiquidStake
    split
    · exact addJettons _ _ _ holds
    · exact holds
  -- The other rules settle nothing.
  all_goals exact holds

theorem settle_keeps {P : Flow → Prop}
    (addJettons : ∀ account master amount {flow}, P flow → P (flow.addJettons account master amount))
    (removeJettons : ∀ account master amount {flow}, P flow →
      P (flow.removeJettons account master amount))
    (addNft : ∀ account {flow}, P flow → P (flow.addNft account))
    (removeNft : ∀ account {flow}, P flow → P (flow.removeNft account)) (groups : PatternGroups) :
    ∀ rule ∈ rules groups, ∀ output {flow}, P flow → P (rule.pattern.settle output flow) := by
  intro rule member
  rcases settle_keeps_or addJettons removeJettons groups rule member with rfl | keeps
  · intro output flow holds
    change P (settleNftTransfer output flow)
    unfold settleNftTransfer
    cases output.success <;> cases output.sender <;> cases output.recipient <;>
      simp only [holds, addNft, removeNft, ite_true, Bool.false_eq_true, ite_false]
  · exact keeps

theorem settle_sameTon (groups : PatternGroups) :
    ∀ rule ∈ rules groups, ∀ output flow, SameTon (rule.pattern.settle output flow) flow := by
  intro rule member output flow
  refine settle_keeps (P := fun settled => SameTon settled flow) ?_ ?_ ?_ ?_ groups rule member
    output (.refl flow)
  · exact fun _ _ _ _ same => (addJettons_sameTon _ _ _ _).trans same
  · exact fun _ _ _ _ same => (removeJettons_sameTon _ _ _ _).trans same
  · exact fun _ _ same => (addNft_sameTon _ _).trans same
  · exact fun _ _ same => (removeNft_sameTon _ _).trans same

theorem keeps {figure : Flow → Int}
    (same : ∀ {flow other : Flow}, SameTon flow other → figure flow = figure other)
    (groups : PatternGroups) : ∀ rule ∈ rules groups, rule.Keeps figure := by
  intro rule member reading sites matched output flow
  rw [(settlesAtRoot groups rule member).settle_eq matched]
  exact same (settle_sameTon groups rule member output flow)

end Catalog

end TonTrace
