import TonTrace.Proofs.Retelling

/-! Which transactions are reported as calls of contracts. Only the rule for calls
makes one, out of a raw transaction that is told as the same call without that
rule, so the calls of a report are transactions of its trace in their order. An
account that implements the plain wallet is never called. One that lists a
version of the wallet and not the plain one is. -/

set_option autoImplicit false

namespace TonTrace

namespace Action

def isCall (action : Action) : Bool :=
  match action.detail with
  | .contractCall _ => true
  | _ => false

end Action

namespace Interface

/-- The wallets by which users hold their accounts: of any kind, and of the versions known apart. -/
def wallets : List Interface := [.wallet, .walletV4, .walletV5]

end Interface

namespace Transaction

/-- A message inside the chain that is no encrypted comment brings an operation code other than
zero to an account that was active. -/
structure Calls (tx : Transaction) : Prop where
  internal : tx.external = false
  coded : ∃ code, tx.opCode? = some code ∧ code.val ≠ 0
  unencrypted : tx.hasOperation Operation.encryptedTextComment = false
  active : tx.wasActive

theorem isContractCall_iff {tx : Transaction} : (!tx.external && tx.isContractCall) = true ↔
    tx.Calls ∧ tx.implements .wallet = false := by
  have coded : tx.isPlain = false ↔ ∃ code, tx.opCode? = some code ∧ code.val ≠ 0 := by
    unfold isPlain
    cases tx.opCode? <;> simp
  simp only [isContractCall, Bool.and_eq_true, Bool.not_eq_true', coded]
  constructor
  · rintro ⟨internal, ⟨⟨coded, unencrypted⟩, active⟩, other⟩
    exact ⟨⟨internal, coded, unencrypted, active⟩, other⟩
  · rintro ⟨⟨internal, coded, unencrypted, active⟩, other⟩
    exact ⟨internal, ⟨⟨coded, unencrypted⟩, active⟩, other⟩

def callAction (tx : Transaction) : Action := ⟨tx.asCall.success, .contractCall tx.asCall.detail⟩

end Transaction

namespace Event

def calls (event : Event) : List Action := event.action?.toList.filter (·.isCall)

theorem calls_transaction (tx : Transaction) : (transaction tx).calls =
    if !tx.external && tx.isContractCall then [tx.callAction] else [] := by
  cases external : tx.external <;> cases call : tx.isContractCall <;>
    simp [calls, action?, external, call, Transaction.callAction, Action.isCall]

end Event

namespace Report

theorem filter_isCall_actions (reading : Reading) :
    (ofReading none reading).actions.filter (·.isCall) =
      reading.preorder.flatMap fun cluster => cluster.event.calls := by
  have each : ∀ cluster : Cluster, cluster.actions.filter (·.isCall) = cluster.event.calls := by
    intro cluster
    simp [Cluster.actions, Event.calls, Action.isCall]
  simp only [actions_ofReading, List.filter_flatMap, each]

end Report

namespace Catalog

variable {groups : PatternGroups} {rule : Rule}

theorem calls_event (groups : PatternGroups) : ∀ rule ∈ rules groups, rule = contractCall ∨
    ∀ output, (rule.event output).calls = [] := by
  apply forall_rules
  case contractCall => exact .inl rfl
  all_goals exact .inr fun _ => rfl

theorem calls_made (member : rule ∈ rules groups) {target : Reading} (found : rule.Match target) :
    found.event.calls.Sublist target.event.calls := by
  rcases calls_event groups rule member with rfl | silent
  · rw [Event.calls, action?_contractCall found]
    exact .refl _
  · have none : found.event.calls = [] := silent found.output
    rw [none]
    exact List.nil_sublist _

theorem calls_step (member : rule ∈ rules groups) {reading next : Reading}
    (step : rule.Step reading next) :
    (next.preorder.flatMap fun cluster => cluster.event.calls).Sublist
      (reading.preorder.flatMap fun cluster => cluster.event.calls) := by
  obtain ⟨event, makes⟩ := step.makes
  induction makes with
  | @here target found _ =>
    have made := calls_made member found
    have left := Tree.preorderAll_split_sublist found.paths target
    cases target with
    | node cluster children =>
      rw [Rule.Match.next, Tree.preorder, Tree.preorder, List.flatMap_cons, List.flatMap_cons]
      exact made.append (left.flatMap _)
  | @inside cluster before after child next makes ih =>
    simp only [Tree.preorder_node, List.flatMap_cons, List.flatMap_append]
    exact (List.Sublist.refl _).append ((List.Sublist.refl _).append ((ih makes.step).append (.refl _)))

/-- The calls that a run tells of are some of those that the trace's own transactions tell of. -/
theorem calls_rewriteAll (groups : PatternGroups) (limit : Nat) (trace : Trace) :
    ((rewriteAll (rules groups) limit (.ofTrace trace)).1.preorder.flatMap fun cluster =>
      cluster.event.calls).Sublist
      ((trace.preorder.filter fun tx => !tx.external && tx.isContractCall).map (·.callAction)) := by
  have own : (trace.preorder.map Cluster.ofTransaction).flatMap (fun cluster => cluster.event.calls) =
      (trace.preorder.filter fun tx => !tx.external && tx.isContractCall).map (·.callAction) := by
    rw [List.flatMap_map]
    induction trace.preorder with
    | nil => rfl
    | cons tx rest ih =>
      rw [List.flatMap_cons, ih, Cluster.ofTransaction, Event.calls_transaction, List.filter_cons]
      split <;> rfl
  rw [← own, ← Reading.preorder_ofTrace]
  exact rewriteAll_keeps
    (fun rule member _ _ step kept => (calls_step member step).trans kept) limit (.refl _)

end Catalog

namespace Trace

open Catalog

/-- Whatever the configuration and the limit, the calls of a report are some transactions of the
trace in their order, each a coded message inside the chain to an active account that does not
implement the plain wallet. It implements no wallet at all if every account that implements a
version of the wallet lists the plain one too. -/
theorem calls_spare_wallets (groups : PatternGroups) (limit : Nat) (trace : Trace) :
    ∃ called : List Transaction, called.Sublist trace.preorder ∧
      (Report.ofTrace (rules groups) limit none trace).actions.filter (·.isCall) =
        called.map (·.callAction) ∧
      (∀ tx ∈ called, tx.Calls ∧ tx.implements .wallet = false) ∧
      ((∀ tx ∈ trace.preorder, ∀ interface ∈ Interface.wallets, tx.implements interface →
          tx.implements .wallet) →
        ∀ tx ∈ called, ∀ interface ∈ Interface.wallets, tx.implements interface = false) := by
  obtain ⟨called, some, same⟩ := List.sublist_map_iff.mp (calls_rewriteAll groups limit trace)
  have within : called.Sublist trace.preorder := some.trans List.filter_sublist
  have each : ∀ tx ∈ called, tx.Calls ∧ tx.implements .wallet = false := fun tx member =>
    Transaction.isContractCall_iff.mp (List.mem_filter.mp (some.subset member)).2
  refine ⟨called, within, ?_, each, fun generic tx member interface listed => ?_⟩
  · rw [Report.ofTrace, Report.filter_isCall_actions, same]
  · by_contra implemented
    have plain := generic tx (within.subset member) interface listed (by simpa using implemented)
    rw [(each tx member).2] at plain
    cases plain

def twoCoded (interfaces : List Interface) : Trace :=
  .node { hash := ⟨1⟩, account := ⟨0, ⟨1⟩⟩, success := true, inMessage := some { external := true } } [
    .leaf {
      hash := ⟨2⟩
      account := ⟨0, ⟨2⟩⟩
      success := true
      statusBefore := .active
      inMessage := some { source := some ⟨0, ⟨1⟩⟩, opCode := some ⟨5, by decide, by decide⟩ } },
    .leaf {
      hash := ⟨3⟩
      account := ⟨0, ⟨3⟩⟩
      interfaces := interfaces
      success := true
      statusBefore := .active
      inMessage := some { source := some ⟨0, ⟨1⟩⟩, opCode := some ⟨7, by decide, by decide⟩ } }]

theorem calls_spare_wallets_listed :
    let trace := twoCoded [.wallet, .walletV4]
    (∀ tx ∈ trace.preorder, ∀ interface ∈ Interface.wallets, tx.implements interface →
      tx.implements .wallet) ∧
    ∃ called : List Transaction, called.length = 1 ∧
      (Report.ofTrace (rules {}) 1000 none trace).actions.filter (·.isCall) =
        called.map (·.callAction) ∧
      ∀ tx ∈ called, tx.Calls ∧
        ∀ interface ∈ Interface.wallets, tx.implements interface = false := by
  intro trace
  have generic : ∀ tx ∈ trace.preorder, ∀ interface ∈ Interface.wallets, tx.implements interface →
      tx.implements .wallet := by
    decide
  have one : ((Report.ofTrace (rules {}) 1000 none trace).actions.filter (·.isCall)).length = 1 := by
    decide +kernel
  obtain ⟨called, _, same, each, spared⟩ := calls_spare_wallets {} 1000 trace
  rw [same, List.length_map] at one
  exact ⟨generic, called, one, same, fun tx member => ⟨(each tx member).1, spared generic tx member⟩⟩

/-- An account that lists a version of the wallet and not the plain one is reported as called. -/
theorem calls_spare_wallets_versioned :
    let trace := twoCoded [.walletV4]
    ¬∃ called : List Transaction, called.Sublist trace.preorder ∧
      (Report.ofTrace (rules {}) 1000 none trace).actions.filter (·.isCall) =
        called.map (·.callAction) ∧
      ∀ tx ∈ called, ∀ interface ∈ Interface.wallets, tx.implements interface = false := by
  rintro trace ⟨called, within, same, spared⟩
  have told : ((Report.ofTrace (rules {}) 1000 none trace).actions.filter (·.isCall)).any
      (·.isSubject ⟨0, ⟨3⟩⟩) := by
    decide +kernel
  have wallet : ∀ tx ∈ trace.preorder, tx.callAction.isSubject ⟨0, ⟨3⟩⟩ → tx.implements .walletV4 := by
    decide
  rw [same, List.any_map, List.any_eq_true] at told
  obtain ⟨tx, member, subject⟩ := told
  have implemented := wallet tx (within.subset member) subject
  rw [spared tx member .walletV4 (by decide)] at implemented
  cases implemented

end Trace

end TonTrace
