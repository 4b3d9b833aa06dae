import Mathlib.Data.List.Flatten
import TonTrace.Proofs.Catalog
import TonTrace.Proofs.Conservation
import TonTrace.Proofs.Report

/-! Every transaction inside the chain is told by some action. A cluster that no
rule made is still one of the trace's own transactions, so all that stays
without an action are transactions from outside. -/

set_option autoImplicit false

namespace TonTrace

namespace Event

def raw? : Event → Option Transaction
  | .transaction tx => some tx
  | _ => none

def fromOutside (event : Event) : Bool := event.raw?.any (·.external)

theorem raw?_eq_some_iff {event : Event} {tx : Transaction} :
    event.raw? = some tx ↔ event = .transaction tx := by
  cases event <;> simp [raw?]

theorem isSome_action? (event : Event) : event.action?.isSome = !event.fromOutside := by
  cases event with
  | transaction tx =>
    simp only [action?, fromOutside, raw?, Option.any_some]
    cases tx.external with
    | true => rfl
    | false => cases tx.isContractCall <;> rfl
  -- What a rule made always has an action.
  | _ => rfl

end Event

namespace Action

def isDeployment (action : Action) : Bool :=
  match action.detail with
  | .deployment _ => true
  | _ => false

end Action

theorem Event.isDeployment_action? {event : Event} {action : Action}
    (told : event.action? = some action) : action.isDeployment = false := by
  cases event with
  | transaction tx =>
    simp only [action?] at told
    split at told
    · cases told
    · split at told <;> (cases told; rfl)
  | _ => cases told; rfl

theorem Cluster.filter_actions (cluster : Cluster) :
    cluster.actions.filter (!·.isDeployment) = cluster.event.action?.toList := by
  have deployed : (cluster.deployments.values.map fun d => (⟨d.success, .deployment d.detail⟩ : Action)).filter
      (!·.isDeployment) = [] := by
    simp [Action.isDeployment]
  rw [actions, List.filter_append, deployed, List.nil_append, List.filter_eq_self]
  intro action told
  rw [Event.isDeployment_action? (Option.mem_toList.mp told)]
  rfl

theorem Report.map_some_actions (reading : Reading) :
    ((ofReading none reading).actions.filter (!·.isDeployment)).map some =
      (reading.preorder.filter (!·.event.fromOutside)).map (·.event.action?) := by
  rw [actions_ofReading]
  induction reading.preorder with
  | nil => rfl
  | cons cluster rest ih =>
    have tells := Event.isSome_action? cluster.event
    rw [List.flatMap_cons, List.filter_append, List.map_append, ih, Cluster.filter_actions,
      List.filter_cons]
    cases action : cluster.event.action? with
    | none =>
      have outside : cluster.event.fromOutside = true := by simpa [action] using tells
      simp [outside]
    | some told =>
      have inside : cluster.event.fromOutside = false := by simpa [action] using tells
      simp [inside, action]

namespace Rule

variable {rule : Rule} {before after : List Cluster}

theorem Fuses.raw_subperm (recognises : rule.Recognises) (fuses : rule.Fuses before after) :
    (after.filter (·.event.raw?.isSome)).Subperm (before.filter (·.event.raw?.isSome)) := by
  obtain ⟨_, sites, output, taken, kept, _, _, beforePerm, afterPerm⟩ := fuses
  have made : (rule.fused sites output taken).event.raw? = none := by
    cases found : (rule.fused sites output taken).event.raw? with
    | none => rfl
    | some tx => exact absurd (Event.raw?_eq_some_iff.mp found) (recognises output tx)
  refine (afterPerm.filter _).subperm.trans (.trans ?_ (beforePerm.filter _).symm.subperm)
  rw [List.filter_cons_of_neg (by simp [made]), List.filter_append]
  exact (List.sublist_append_right _ _).subperm

end Rule

theorem Reaches.raw_subperm {rules : List Rule} {start reading : Reading}
    (recognises : ∀ rule ∈ rules, rule.Recognises) (reached : Reaches rules start reading) :
    (reading.preorder.filter (·.event.raw?.isSome)).Subperm start.preorder := by
  induction reached with
  | start => exact List.filter_sublist.subperm
  | step member _ step ih => exact (step.fuses.raw_subperm (recognises _ member)).trans ih

namespace Reading

variable {rules : List Rule} {trace : Trace} {reading : Reading}

theorem outside_subperm (recognises : ∀ rule ∈ rules, rule.Recognises)
    (reached : Reaches rules (.ofTrace trace) reading) :
    (reading.preorder.filter (·.event.fromOutside)).Subperm
      ((trace.preorder.filter (·.external)).map Cluster.ofTransaction) := by
  have raw := (reached.raw_subperm recognises).filter (·.event.fromOutside)
  have outside : reading.preorder.filter (·.event.fromOutside) =
      (reading.preorder.filter (·.event.raw?.isSome)).filter (·.event.fromOutside) := by
    rw [List.filter_filter]
    refine List.filter_congr fun cluster _ => ?_
    cases found : cluster.event.raw? <;> simp [Event.fromOutside, found]
  rw [preorder_ofTrace, List.filter_map] at raw
  rw [outside]
  exact raw

theorem count_internal_le (recognises : ∀ rule ∈ rules, rule.Recognises)
    (reached : Reaches rules (.ofTrace trace) reading)
    (same : (reading.preorder.flatMap (·.transactions)).Perm (trace.preorder.map (·.hash)))
    (hash : Hash) :
    ((trace.preorder.filter (!·.external)).map (·.hash)).count hash ≤
      ((reading.preorder.filter (·.event.action?.isSome)).flatMap (·.transactions)).count hash := by
  obtain ⟨outside, perm, sublist⟩ := outside_subperm recognises reached
  have fewer : ((reading.preorder.filter (·.event.fromOutside)).flatMap (·.transactions)).count hash ≤
      ((trace.preorder.filter (·.external)).map (·.hash)).count hash := by
    have singles : ((trace.preorder.filter (·.external)).map Cluster.ofTransaction).flatMap
        (·.transactions) = (trace.preorder.filter (·.external)).map (·.hash) := by
      rw [List.flatMap_map]
      exact List.map_eq_flatMap.symm
    rw [← (perm.flatMap_right _).count_eq, ← singles]
    exact (sublist.flatMap _).count_le hash
  -- Trace and reading have the same hashes in all, and the reading has fewer from outside.
  have clusters := ((List.filter_append_perm (·.event.fromOutside) reading.preorder).flatMap_right
    (·.transactions)).count_eq hash
  have txs := ((List.filter_append_perm (·.external) trace.preorder).map (·.hash)).count_eq hash
  simp only [List.flatMap_append, List.map_append, List.count_append] at clusters txs
  simp only [Event.isSome_action?]
  have whole := same.count_eq hash
  omega

end Reading

namespace Catalog

theorem build_tonTransfer {reading : Reading} {tx : Transaction} (raw : reading.event = .transaction tx)
    (output : tonTransfer.Output) : tonTransfer.pattern.build output reading = .ok tx.asTransfer := by
  simp only [tonTransfer, Reading.transaction_eq_ok_iff.mpr raw]
  rfl

theorem rewrite?_tonTransfer {reading : Reading} {tx : Transaction}
    (raw : reading.event = .transaction tx) (internal : tx.external = false) :
    (tonTransfer.rewrite? reading).isSome := by
  have admits : tonTransfer.pattern.Admits reading := by
    refine List.forall_mem_singleton.mpr ?_
    rw [Check.isInternal, Check.onTransaction_of_event raw, internal]
    rfl
  exact Rule.isSome_rewrite?_iff.mpr
    (Rule.nonempty_match_of_root rfl admits (build_tonTransfer raw tonTransfer.initial))

theorem rules_plain {groups : PatternGroups} (plain : groups.plain) :
    ∃ first, rules groups = first ++ [tonTransfer] := by
  rw [rules, plain]
  exact ⟨_, (List.append_assoc _ [contractCall] [tonTransfer]).symm⟩

/-- A run below its limit leaves nothing inside the chain that a plain transfer could tell. -/
theorem external_of_raw {groups : PatternGroups} (plain : groups.plain) {limit : Nat}
    {reading : Reading} (below : (rewriteAll (rules groups) limit reading).2 < limit)
    {cluster : Cluster} (member : cluster ∈ (rewriteAll (rules groups) limit reading).1.preorder)
    {tx : Transaction} (raw : cluster.event = .transaction tx) : tx.external := by
  obtain ⟨first, same⟩ := rules_plain plain
  rw [same] at below member
  have stuck := Rule.rewriteFirst?_eq_none_iff _ |>.mp (rewriteAll_stuck below)
  rw [← Tree.map_value_subtrees] at member
  obtain ⟨target, inside, rfl⟩ := List.mem_map.mp member
  cases external : tx.external with
  | true => rfl
  | false =>
    have applies : (tonTransfer.rewrite? target).isSome := rewrite?_tonTransfer raw external
    rw [stuck target inside] at applies
    cases applies

/-- Whatever the configuration and wherever the limit stops the run: every cluster has an action
unless it is a raw transaction from outside, every transaction inside the chain is in a cluster
with an action, and the report has that one action for each of these clusters, deployments apart.
Plain rules leave only transactions from outside raw when the limit is not reached. -/
theorem explained (groups : PatternGroups) (limit : Nat) (trace : Trace) :
    let run := rewriteAll (rules groups) limit (.ofTrace trace)
    (∀ cluster ∈ run.1.preorder, cluster.event.action?.isSome = !cluster.event.fromOutside) ∧
    (∀ hash, ((trace.preorder.filter (!·.external)).map (·.hash)).count hash ≤
      ((run.1.preorder.filter (·.event.action?.isSome)).flatMap (·.transactions)).count hash) ∧
    ((Report.ofReading none run.1).actions.filter (!·.isDeployment)).map some =
      (run.1.preorder.filter (!·.event.fromOutside)).map (·.event.action?) ∧
    (groups.plain → run.2 < limit → ∀ cluster ∈ run.1.preorder, ∀ tx,
      cluster.event = .transaction tx → tx.external) := by
  intro run
  have reached : Reaches (rules groups) (.ofTrace trace) run.1 := reaches_rewriteAll _ limit _
  refine ⟨fun cluster _ => Event.isSome_action? cluster.event, fun hash => ?_, ?_,
    fun plain below cluster member tx raw => external_of_raw plain below member raw⟩
  · exact Reading.count_internal_le (recognises groups) reached
      (covers_rewriteAll (rules groups) limit trace).transactions hash
  · exact Report.map_some_actions run.1

def outgoing : Trace :=
  .node {
      hash := ⟨1⟩
      account := ⟨0, ⟨1⟩⟩
      success := true
      inMessage := some { external := true } } [
    .node {
        hash := ⟨2⟩
        account := ⟨0, ⟨2⟩⟩
        interfaces := [.jettonWallet]
        success := true
        inMessage := some {
          source := some ⟨0, ⟨1⟩⟩
          body := some {
            operation := Operation.jettonTransfer
            value := .object [
              ("amount", .integer 5),
              ("destination", .string "0:0000000000000000000000000000000000000000000000000000000000000004")] } } } [
      .leaf {
        hash := ⟨3⟩
        account := ⟨0, ⟨3⟩⟩
        success := true
        inMessage := some {
          source := some ⟨0, ⟨2⟩⟩
          body := some { operation := Operation.jettonInternalTransfer, value := .null } } }],
    .leaf {
      hash := ⟨4⟩
      account := ⟨0, ⟨4⟩⟩
      success := true
      inMessage := some { source := some ⟨0, ⟨1⟩⟩, value := .clamp 7 } },
    .leaf {
      hash := ⟨5⟩
      account := ⟨0, ⟨5⟩⟩
      success := true
      statusBefore := .active
      inMessage := some { source := some ⟨0, ⟨1⟩⟩, opCode := some (.clamp 9) } }]

/-- Four transactions inside the chain make three events below the raw one. -/
theorem explained_outgoing :
    let run := rewriteAll (rules {}) 10 (.ofTrace outgoing)
    run.2 = 3 ∧
      run.1.preorder.map (·.event.kind) = [.transaction, .jettonTransfer, .tonTransfer, .contractCall] ∧
      (∀ cluster ∈ run.1.preorder, ∀ tx, cluster.event = .transaction tx → tx.external) ∧
      0 < ((run.1.preorder.filter (·.event.action?.isSome)).flatMap (·.transactions)).count ⟨3⟩ ∧
      ((Report.ofReading none run.1).actions.filter (!·.isDeployment)).length = 3 := by
  intro run
  have steps : run.2 = 3 := by decide +kernel
  have kinds : run.1.preorder.map (·.event.kind) =
      [.transaction, .jettonTransfer, .tonTransfer, .contractCall] := by
    decide +kernel
  have inner : ((outgoing.preorder.filter (!·.external)).map (·.hash)).count ⟨3⟩ = 1 := by decide
  have told : (run.1.preorder.filter (!·.event.fromOutside)).length = 3 := by decide +kernel
  obtain ⟨_, hashes, actions, raw⟩ := explained {} 10 outgoing
  refine ⟨steps, kinds, raw rfl ?_, ?_, ?_⟩
  · rw [steps]
    decide
  · exact Nat.lt_of_lt_of_le (by rw [inner]; decide) (hashes ⟨3⟩)
  · rw [← List.length_map some, actions, List.length_map, told]

end Catalog

end TonTrace
