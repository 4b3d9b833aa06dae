import TonTrace.Proofs.Explained
import TonTrace.Proofs.Making
import TonTrace.Proofs.Merging

/-! Rules for plain calls and transfers only tell what a report says without
them. Such a rule takes one raw transaction and leaves its ledger as it is,
since no ledger holds a jetton balance of zero, and the action of the new event
is the one by which the raw transaction is told. -/

set_option autoImplicit false

namespace TonTrace

namespace Catalog

theorem settle_trimmed (groups : PatternGroups) : ∀ rule ∈ rules groups, ∀ output {flow},
    Flow.Trimmed flow → (rule.pattern.settle output flow).Trimmed :=
  settle_keeps (fun account master amount _ trimmed => trimmed.addJettons account master amount)
    (fun account master amount _ trimmed => trimmed.removeJettons account master amount)
    (fun account _ trimmed => trimmed.addNft account)
    (fun account _ trimmed => trimmed.removeNft account) groups

theorem trimmed_reaches {groups : PatternGroups} {trace : Trace} {reading : Reading}
    (reached : Reaches (rules groups) (.ofTrace trace) reading) :
    ∀ cluster ∈ reading.preorder, cluster.flow.Trimmed := by
  induction reached with
  | start =>
    rw [Reading.preorder_ofTrace]
    intro cluster member
    obtain ⟨tx, _, rfl⟩ := List.mem_map.mp member
    exact Flow.trimmed_flowOf tx
  | @step rule reading next member _ step ih =>
    obtain ⟨event, makes⟩ := step.makes
    obtain ⟨target, _, found, kept, _, beforePerm, afterPerm⟩ := makes.exists_match
    intro cluster inside
    rcases List.mem_cons.mp (afterPerm.mem_iff.mp inside) with rfl | inside
    -- A merge into an empty ledger leaves no zero behind, whatever is merged.
    · rw [(settlesAtRoot groups rule member).flow_made found]
      exact settle_trimmed groups rule member _ (Flow.trimmed_empty.foldl_merge _)
    · exact ih cluster (beforePerm.mem_iff.mpr (List.mem_append_right _ inside))

end Catalog

namespace Report

variable {keep : Action → Bool}

theorem collect_congr_child {cluster : Cluster} {before after : List Reading} {child next : Reading}
    (same : collect keep next = collect keep child) :
    collect keep (.node cluster (before ++ next :: after)) =
      collect keep (.node cluster (before ++ child :: after)) := by
  have below : collectAll keep .empty (before ++ next :: after) =
      collectAll keep .empty (before ++ child :: after) := by
    -- The induction is on what stands before the child, from any ledger merged so far.
    generalize Flow.empty = flow
    induction before generalizing flow with
    | nil => simp only [List.nil_append, collectAll, same]
    | cons first rest ih => simp only [List.cons_append, collectAll, ih]
  simp only [collect, below]

end Report

namespace AddressMap

variable {α : Type}

theorem empty_overlay (map : AddressMap α) : empty.overlay map = map := by
  refine ext fun key => ?_
  rw [overlay, find?_merge]
  cases map.find? key <;> rfl

end AddressMap

namespace Rule

variable {rule : Rule}

structure Alone (rule : Rule) : Prop where
  parts : rule.pattern.parts = []
  settle : rule.pattern.settle = fun _ flow => flow

theorem Alone.next_eq (alone : rule.Alone) {target : Reading} (found : rule.Match target)
    (trimmed : target.value.flow.Trimmed) :
    found.next = .node { target.value with event := found.event } target.children := by
  obtain ⟨below, inside, sites⟩ := Pattern.sites?_eq_some found.matched
  rw [alone.parts] at inside
  cases inside
  -- Without parts the root is the only site, so nothing else is taken.
  have root : found.paths = [[]] := by rw [Match.paths, sites]; rfl
  have taken : found.taken = [target.value] := by rw [Match.taken, root, Tree.split_root]
  have left : found.left = target.children := by rw [Match.left, root, Tree.split_root]
  have joined : Cluster.join found.event [target.value] = { target.value with event := found.event } := by
    simp only [Cluster.join, List.foldl_cons, List.foldl_nil, trimmed.empty_merge, AddressSet.union,
      AddressMap.empty_overlay, List.flatMap_cons, List.flatMap_nil, List.append_nil]
  have made : found.made = Cluster.join found.event [target.value] := by
    rw [Match.made, fused, taken, sites]
    simp only [Rule.settle, List.reverse_singleton, List.foldl_cons, List.foldl_nil, alone.settle]
    rfl
  rw [Match.next, made, joined, left]

/-- What is told of a node does not change when a rule replaces its event by one with the same action. -/
theorem Alone.collect_next (alone : rule.Alone) {target : Reading} (found : rule.Match target)
    (trimmed : target.value.flow.Trimmed) (same : found.event.action? = target.event.action?)
    (keep : Action → Bool) :
    Report.collect keep found.next = Report.collect keep target := by
  rw [alone.next_eq found trimmed]
  obtain ⟨cluster, children⟩ := target
  have told : Cluster.actions { cluster with event := found.event } = cluster.actions := by
    rw [Cluster.actions, Cluster.actions, same]
    rfl
  simp only [Report.collect, told]

theorem Step.collect_eq {keep : Action → Bool} {reading next : Reading} (step : rule.Step reading next)
    (each : ∀ target ∈ reading.subtrees, ∀ found : rule.Match target,
      Report.collect keep found.next = Report.collect keep target) :
    Report.collect keep next = Report.collect keep reading := by
  obtain ⟨event, makes⟩ := step.makes
  induction makes with
  | @here target found _ => exact each target (Tree.mem_subtrees_self target) found
  | @inside cluster before after child next makes ih =>
    refine Report.collect_congr_child (ih makes.step fun target inside => each target ?_)
    refine Tree.mem_subtrees_trans inside (Tree.mem_subtrees_of_child ?_)
    exact List.mem_append_right _ List.mem_cons_self

end Rule

namespace Catalog

theorem alone_contractCall : contractCall.Alone := ⟨rfl, rfl⟩

theorem alone_tonTransfer : tonTransfer.Alone := ⟨rfl, rfl⟩

theorem build_contractCall {reading : Reading} {tx : Transaction} (raw : reading.event = .transaction tx)
    (output : contractCall.Output) : contractCall.pattern.build output reading = .ok tx.asCall := by
  simp only [contractCall, Reading.transaction_eq_ok_iff.mpr raw]
  rfl

theorem action?_contractCall {target : Reading} (found : contractCall.Match target) :
    found.event.action? = target.event.action? := by
  obtain ⟨tx, raw, called⟩ := Check.exists_transaction (found.admits _ List.mem_cons_self)
  obtain ⟨inner, built⟩ := found.exists_build_root
  rw [build_contractCall raw] at built
  have event : found.event = .contractCall tx.asCall :=
    congrArg Event.contractCall (Except.ok.inj built).symm
  simp only [Bool.and_eq_true, Bool.not_eq_true'] at called
  rw [event, raw, Event.action?, if_neg (by simp [called.1]), if_pos called.2]
  rfl

theorem action?_tonTransfer {target : Reading} (found : tonTransfer.Match target)
    (plain : ∀ tx, target.event = .transaction tx → tx.external ∨ tx.isContractCall = false) :
    found.event.action? = target.event.action? := by
  obtain ⟨tx, raw, internal⟩ := Check.exists_transaction (found.admits _ List.mem_cons_self)
  obtain ⟨inner, built⟩ := found.exists_build_root
  rw [build_tonTransfer raw] at built
  have event : found.event = .tonTransfer tx.asTransfer :=
    congrArg Event.tonTransfer (Except.ok.inj built).symm
  have internal : tx.external = false := by simpa using internal
  have transfer : tx.isContractCall = false := by simpa [internal] using plain tx raw
  rw [event, raw, Event.action?, if_neg (by simp [internal]), if_neg (by simp [transfer])]
  rfl

theorem eachRaw_of_stuck {reading : Reading} (stuck : contractCall.rewriteFirst? reading = none) :
    reading.EachRaw fun tx => tx.external ∨ tx.isContractCall = false := by
  intro cluster member tx raw
  rw [← Tree.map_value_subtrees] at member
  obtain ⟨target, inside, rfl⟩ := List.mem_map.mp member
  have fails := Rule.rewriteFirst?_eq_none_iff reading |>.mp stuck target inside
  by_contra neither
  obtain ⟨internal, call⟩ := not_or.mp neither
  have admits : contractCall.pattern.Admits target := by
    refine List.forall_mem_singleton.mpr ?_
    rw [Check.onTransaction_of_event raw]
    simp [internal, call]
  have applies := Rule.isSome_rewrite?_iff.mpr
    (Rule.nonempty_match_of_root rfl admits (build_contractCall raw contractCall.initial))
  rw [fails] at applies
  cases applies

variable {groups : PatternGroups} {trace : Trace} {reading : Reading}

theorem collect_exhaust {rule : Rule} (member : rule ∈ rules groups) (alone : rule.Alone)
    {holds : Transaction → Prop} (tells : ∀ {target} (found : rule.Match target),
      (∀ tx, target.event = .transaction tx → holds tx) → found.event.action? = target.event.action?)
    (reached : Reaches (rules groups) (.ofTrace trace) reading) (each : reading.EachRaw holds)
    (keep : Action → Bool) (limit : Nat) :
    Report.collect keep (rule.exhaust limit reading).1 = Report.collect keep reading := by
  suffices kept : Reaches (rules groups) (.ofTrace trace) (rule.exhaust limit reading).1 ∧
      (rule.exhaust limit reading).1.EachRaw holds ∧
      Report.collect keep (rule.exhaust limit reading).1 = Report.collect keep reading from kept.2.2
  refine rule.exhaust_keeps (P := fun between => Reaches (rules groups) (.ofTrace trace) between ∧
    between.EachRaw holds ∧ Report.collect keep between = Report.collect keep reading) ?_ limit
    ⟨reached, each, rfl⟩
  rintro between next step ⟨reached, each, same⟩
  refine ⟨reached.step member step, step.eachRaw (recognises groups rule member) each,
    (step.collect_eq fun target inside found => ?_).trans same⟩
  have value := Tree.value_mem_preorder_of_mem_subtrees inside
  exact alone.collect_next found (trimmed_reaches reached _ value)
    (tells found (each target.value value)) keep

theorem collect_rewriteAll_plain (plain : groups.plain)
    (reached : Reaches (rules groups) (.ofTrace trace) reading) (keep : Action → Bool) (limit : Nat) :
    Report.collect keep (rewriteAll [contractCall, tonTransfer] limit reading).1 =
      Report.collect keep reading := by
  have calls : contractCall ∈ rules groups := by simp [rules, group, plain]
  have transfers : tonTransfer ∈ rules groups := by simp [rules, group, plain]
  let called := contractCall.exhaust limit reading
  have any : reading.EachRaw fun _ => True := fun _ _ _ _ => trivial
  have first : Report.collect keep called.1 = Report.collect keep reading :=
    collect_exhaust calls alone_contractCall (fun found _ => action?_contractCall found) reached any
      keep limit
  have between : Reaches (rules groups) (.ofTrace trace) called.1 :=
    contractCall.exhaust_keeps (fun step reached => reached.step calls step) limit reached
  refine Eq.trans ?_ first
  change Report.collect keep (tonTransfer.exhaust (limit - called.2) called.1).1 = _
  -- Transfers come into play only when no call is left.
  rcases Nat.lt_or_ge called.2 limit with below | spent
  · exact collect_exhaust transfers alone_tonTransfer (fun found => action?_tonTransfer found) between
      (eachRaw_of_stuck (contractCall.exhaust_stuck below)) keep _
  · rw [Nat.sub_eq_zero_of_le spent]
    rfl

/-- The rules for plain calls and transfers change no report, whatever else is turned on and
wherever the limit stops the run: neither the actions, nor their order, nor the ledger. -/
theorem plain_retells (groups : PatternGroups) (limit : Nat) (account : Option Address)
    (trace : Trace) :
    Report.ofTrace (rules { groups with plain := true }) limit account trace =
      Report.ofTrace (rules { groups with plain := false }) limit account trace := by
  have plain : ({ groups with plain := true } : PatternGroups).plain := rfl
  have split : rules { groups with plain := true } =
      rules { groups with plain := false } ++ [contractCall, tonTransfer] := by
    simp [rules, group]
  generalize { groups with plain := true } = on at plain split
  generalize rules { groups with plain := false } = special at split
  have reached : Reaches (rules on) (.ofTrace trace) (rewriteAll special limit (.ofTrace trace)).1 := by
    refine rewriteAll_keeps (fun rule member _ _ step reached => reached.step ?_ step) limit .start
    rw [split]
    exact List.mem_append_left _ member
  simp only [Report.ofTrace, Report.ofReading]
  rw [split, rewriteAll_append]
  exact collect_rewriteAll_plain plain reached _ _

end Catalog

end TonTrace
