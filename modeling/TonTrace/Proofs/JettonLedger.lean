import TonTrace.Proofs.Kinds
import TonTrace.Proofs.Settling
import TonTrace.Proofs.Totals

/-! The jettons of a trace, from rewrite to rewrite. What the events of a run have
moved and what raw transactions can still be made to move stay within the amounts
that the bodies of the trace name. So no balance saturates, every rewrite changes
the ledger by what its event stands for, and the holders of a jetton together have
what was minted less what was burnt. -/

set_option autoImplicit false

namespace TonTrace

def Trace.jettonVolume (trace : Trace) : Nat := (trace.preorder.map (·.jettonAmount)).sum

def Flow.JettonsFit (flows : List Flow) : Prop :=
  ∀ before next after, flows = before ++ next :: after → ∀ account master,
    JettonDelta.Fits ((before.foldl Flow.merge .empty).jetton account master +
      next.jetton account master)

namespace Flow

theorem sum_filterMap_jetton (entries : List AccountFlow) (master : Address) :
    ((entries.filterMap fun entry => entry.jettons.find? master).map (·.val)).sum =
      (entries.map fun entry => (entry.jetton master).val).sum := by
  induction entries with
  | nil => rfl
  | cons entry rest ih =>
    rw [List.filterMap_cons, List.map_cons, List.sum_cons, AccountFlow.jetton]
    cases entry.jettons.find? master with
    | none => simp [ih]
    | some balance => simp [ih]

theorem exists_totalJettons? {flow : Flow} {master : Address} (small : ∀ accounts : Finset Address,
    (∑ account ∈ accounts, flow.jetton account master).natAbs ≤ JettonDelta.bound) :
    ∃ total, flow.totalJettons? master = some total ∧ ∀ accounts : Finset Address,
      flow.accounts.keys.toFinset ⊆ accounts →
        total.val = ∑ account ∈ accounts, flow.jetton account master := by
  let part := fun entry : AccountFlow => (entry.jetton master).val
  have fits : ∀ before after, (flow.accounts.values.filterMap fun entry => entry.jettons.find? master) =
      before ++ after → JettonDelta.Fits (before.map (·.val)).sum := by
    intro before after parts
    -- The balances that are met first are those of some set of accounts.
    obtain ⟨first, rest, values, rfl, _⟩ := List.filterMap_eq_append_iff.mp parts
    obtain ⟨accounts, same⟩ := exists_sum_eq part values
    rw [sum_filterMap_jetton, same]
    exact JettonDelta.fits_of_natAbs_le (small accounts)
  obtain ⟨total, sum, exact⟩ := Ranged.sum?_of_fits fits
  refine ⟨total, sum, fun accounts all => ?_⟩
  have empty : part {} = 0 := rfl
  rw [exact, sum_filterMap_jetton]
  exact sum_values_eq empty all

end Flow

namespace Rule.Match

variable {rule : Rule} {target : Reading} (found : rule.Match target)

def joined : Flow := (found.taken.map (·.flow)).foldl Flow.merge .empty

/-- There is room for what the event moves beside every balance, so no correction saturates. -/
def CorrectionFits : Prop := ∀ account master,
  (found.joined.jetton account master).natAbs + found.event.jettonMoved ≤ JettonDelta.bound

end Rule.Match

namespace Cluster

theorem pending_subtree_le {node reading : Reading} (inside : node ∈ reading.subtrees) :
    pending node.preorder ≤ pending reading.preorder := by
  obtain ⟨before, after, parts⟩ := Tree.infix_of_mem_subtrees inside
  rw [parts, pending_append, pending_append]
  omega

/-- The balances are what the events of a log add up to, and there is room for what the raw
transactions can still move. -/
structure Carried (log : List Event) (volume : Nat) (clusters : List Cluster) : Prop where
  carries (account master : Address) : Carries (Flow.jettonOf account master)
    (log.map (·.jettonChange account master)).sum (log.map (·.jettonMoved)).sum clusters
  within : (log.map (·.jettonMoved)).sum + pending clusters ≤ volume

variable {log : List Event} {volume : Nat} {reading : Reading}

/-- What a match takes is merged exactly and leaves room for what its event moves. -/
theorem Carried.joined (carried : Carried log volume reading.preorder)
    (small : volume ≤ JettonDelta.bound) {rule : Rule} (accounts : rule.Accounts)
    {target : Reading} (inside : target ∈ reading.subtrees) (found : rule.Match target) :
    (∀ account master, found.joined.jetton account master =
      total (Flow.jettonOf account master) found.taken) ∧ found.CorrectionFits := by
  have parts := found.preorder_perm
  have within := carried.within
  have backed := accounts.backed found
  have asked := pending_subtree_le inside
  rw [pending_perm parts, pending_append] at asked
  -- The clusters taken are some of those of the reading.
  have near : ∀ account master, spread (Flow.jettonOf account master) found.taken ≤
      (log.map (·.jettonMoved)).sum := by
    intro account master
    refine le_trans ?_ (carried.carries account master).spread_le
    refine le_trans ?_ (spread_subtree_le inside)
    rw [spread_perm parts, spread_append]
    exact Nat.le_add_right _ _
  have exact : ∀ account master, found.joined.jetton account master =
      total (Flow.jettonOf account master) found.taken := by
    intro account master
    have room := near account master
    have sum := figure_join (Flow.additive_jetton account master) found.event found.taken (by omega)
    rwa [flow_join] at sum
  refine ⟨exact, fun account master => ?_⟩
  have room := near account master
  have size : (total (Flow.jettonOf account master) found.taken).natAbs ≤ _ :=
    natAbs_total_le found.taken
  rw [exact]
  omega

theorem Carried.makes (carried : Carried log volume reading.preorder)
    (small : volume ≤ JettonDelta.bound) {rule : Rule} (accounts : rule.Accounts)
    (atRoot : rule.SettlesAtRoot) (recognises : rule.Recognises) {event : Event} {next : Reading}
    (makes : rule.Makes event reading next) : Carried (log ++ [event]) volume next.preorder := by
  obtain ⟨target, inside, found, kept, rfl, beforePerm, afterPerm⟩ := makes.exists_match
  obtain ⟨joined, fits⟩ := carried.joined small accounts inside found
  have made : ∀ account master, Flow.jettonOf account master found.made.flow =
      total (Flow.jettonOf account master) found.taken + found.event.jettonChange account master := by
    intro account master
    rw [atRoot.flow_made, ← joined]
    exact accounts.settled found fits account master
  constructor
  · intro account master
    obtain ⟨whole, spreads⟩ := carried.carries account master
    rw [total_perm beforePerm, total_append] at whole
    rw [spread_perm beforePerm, spread_append] at spreads
    have size : (total (Flow.jettonOf account master) found.taken).natAbs ≤ _ :=
      natAbs_total_le found.taken
    have change := found.event.natAbs_jettonChange_le account master
    constructor
    · rw [total_perm afterPerm, total_cons, made, List.map_append, List.sum_append, ← whole]
      simp only [List.map_cons, List.map_nil, List.sum_cons, List.sum_nil]
      omega
    · rw [spread_perm afterPerm, spread_cons, made, List.map_append, List.sum_append]
      simp only [List.map_cons, List.map_nil, List.sum_cons, List.sum_nil]
      omega
  · have within := carried.within
    have backed := accounts.backed found
    -- What the event moves is pending no more, since the new cluster is not raw.
    have recognised : found.made.event.jettonPending = 0 := by
      cases event : found.made.event with
      | transaction tx => exact absurd event (recognises found.output tx)
      | _ => rfl
    rw [pending_perm beforePerm, pending_append] at within
    rw [pending_perm afterPerm, pending_cons, recognised, List.map_append, List.sum_append]
    simp only [List.map_cons, List.map_nil, List.sum_cons, List.sum_nil]
    omega

theorem carried_ofTransaction (txs : List Transaction) :
    Carried [] (txs.map (·.jettonAmount)).sum (txs.map ofTransaction) where
  carries account master := by
    have none : ∀ tx, Flow.jettonOf account master (ofTransaction tx).flow = 0 := fun tx =>
      Flow.jetton_flowOf tx account master
    constructor <;> simp [total, spread, Function.comp_def, none]
  within := by
    simp only [pending, List.map_map, List.map_nil, List.sum_nil, Nat.zero_add]
    exact Nat.le_refl _

end Cluster

namespace Event

variable {log : List Event}

theorem sum_log_jettonChange (master : Address) (accounts : Finset Address) :
    ∑ account ∈ accounts, (log.map (jettonChange account master)).sum =
      (log.map fun event => ∑ account ∈ accounts, event.jettonChange account master).sum := by
  induction log with
  | nil => simp
  | cons event rest ih => simp only [List.map_cons, List.sum_cons, Finset.sum_add_distrib, ih]

theorem natAbs_sum_log_le (master : Address) (accounts : Finset Address) :
    (∑ account ∈ accounts, (log.map (jettonChange account master)).sum).natAbs ≤
      (log.map (·.jettonMoved)).sum := by
  rw [sum_log_jettonChange]
  induction log with
  | nil => rfl
  | cons event rest ih =>
    have first := event.natAbs_sum_jettonChange_le master accounts
    simp only [List.map_cons, List.sum_cons]
    omega

theorem sum_log_eq_supply (sides : ∀ event ∈ log, event.TwoSided) (master : Address)
    {accounts : Finset Address} (all : ∀ event ∈ log, event.jettonHolders ⊆ accounts) :
    ∑ account ∈ accounts, (log.map (jettonChange account master)).sum =
      (log.map (·.jettonSupply master)).sum := by
  rw [sum_log_jettonChange]
  exact congrArg List.sum (List.map_congr_left fun event member =>
    sum_jettonChange_eq (sides event member) master (all event member))

theorem exists_holders (keys : List Address) (log : List Event) :
    ∃ accounts : Finset Address, keys.toFinset ⊆ accounts ∧
      ∀ event ∈ log, event.jettonHolders ⊆ accounts := by
  induction log with
  | nil => exact ⟨keys.toFinset, subset_rfl, List.forall_mem_nil _⟩
  | cons event rest ih =>
    obtain ⟨accounts, first, others⟩ := ih
    refine ⟨event.jettonHolders ∪ accounts, first.trans Finset.subset_union_right,
      List.forall_mem_cons.mpr ⟨Finset.subset_union_left, fun event member =>
        (others event member).trans Finset.subset_union_right⟩⟩

end Event

namespace Trace

variable {trace : Trace} {groups : PatternGroups} {log : List Event} {reading : Reading}

theorem carried (small : trace.jettonVolume ≤ JettonDelta.bound)
    (run : Rewrites (Catalog.rules groups) (.ofTrace trace) log reading) :
    Cluster.Carried log trace.jettonVolume reading.preorder := by
  induction run with
  | start =>
    rw [Reading.preorder_ofTrace]
    exact Cluster.carried_ofTransaction trace.preorder
  | step member _ makes ih =>
    exact ih.makes small (Catalog.accounts groups _ member) (Catalog.settlesAtRoot groups _ member)
      (Catalog.recognises groups _ member) makes

theorem jetton_collect (small : trace.jettonVolume ≤ JettonDelta.bound)
    (run : Rewrites (Catalog.rules groups) (.ofTrace trace) log reading) (keep : Action → Bool)
    (account master : Address) : (Report.collect keep reading).flow.jetton account master =
      (log.map (·.jettonChange account master)).sum := by
  have carried := carried small run
  obtain ⟨whole, spreads⟩ := carried.carries account master
  have within := carried.within
  rw [← whole]
  exact Report.figure_collect keep (Flow.additive_jetton account master) reading (by omega)

/-- What is minted and burnt is told by the clusters that are left, since none of them is taken again. -/
theorem supply_eq (run : Rewrites (Catalog.rules groups) (.ofTrace trace) log reading)
    (master : Address) : (log.map (·.jettonSupply master)).sum =
      (reading.preorder.map (·.event.jettonSupply master)).sum := by
  induction run with
  | start =>
    rw [Reading.preorder_ofTrace, List.map_map]
    exact (List.sum_eq_zero fun supply member => by
      obtain ⟨tx, _, rfl⟩ := List.mem_map.mp member
      rfl).symm
  | @step rule log event reading next member _ makes ih =>
    obtain ⟨target, inside, found, kept, rfl, beforePerm, afterPerm⟩ := makes.exists_match
    have none : (found.taken.map (·.event.jettonSupply master)).sum = 0 := by
      refine List.sum_eq_zero fun supply listed => ?_
      obtain ⟨cluster, taken, rfl⟩ := List.mem_map.mp listed
      -- No kind of event that a match can take says anything of the supply.
      have kind := (Catalog.sees_visible groups rule member).taken found taken
      cases event : cluster.event <;> first
        | rfl
        | simp [event, Event.kind, Catalog.visible] at kind
    rw [(beforePerm.map _).sum_eq, List.map_append, List.sum_append, none, zero_add] at ih
    rw [(afterPerm.map _).sum_eq, List.map_append, List.sum_append, ih, List.map_cons, List.sum_cons,
      add_comm]
    simp

theorem jettonsFit_split (small : trace.jettonVolume ≤ JettonDelta.bound)
    (run : Rewrites (Catalog.rules groups) (.ofTrace trace) log reading) {target : Reading}
    (inside : target ∈ reading.subtrees) (paths : List (List Nat)) :
    Flow.JettonsFit ((target.split paths).1.map (·.flow)) := by
  intro before next after parts account master
  have carried := carried small run
  have within := carried.within
  have carries := (carried.carries account master).mono (show _ ≤ JettonDelta.bound by omega)
  exact JettonDelta.fits_of_natAbs_le
    (carries.split_step (Flow.additive_jetton account master) inside paths parts)

theorem jettonsFit_mergedAt (small : trace.jettonVolume ≤ JettonDelta.bound)
    (run : Rewrites (Catalog.rules groups) (.ofTrace trace) log reading) (keep : Action → Bool)
    {node : Reading} (inside : node ∈ reading.subtrees) :
    Flow.JettonsFit (Report.mergedAt keep node) := by
  intro before next after parts account master
  have carried := carried small run
  have within := carried.within
  have carries := (carried.carries account master).mono (show _ ≤ JettonDelta.bound by omega)
  exact JettonDelta.fits_of_natAbs_le
    (Report.collect_step keep (Flow.additive_jetton account master) carries.spread_le inside parts)

theorem twoSided (known : ∀ tx ∈ trace.preorder, tx.hasOperation Operation.jettonTransfer →
    tx.sender?.isSome) (run : Rewrites (Catalog.rules groups) (.ofTrace trace) log reading) :
    ∀ event ∈ log, event.TwoSided := by
  induction run with
  | start => exact List.forall_mem_nil _
  | step member run makes ih =>
    obtain ⟨target, inside, found, _, rfl, _⟩ := makes.exists_match
    refine List.forall_mem_append.mpr ⟨ih, List.forall_mem_singleton.mpr ?_⟩
    refine Catalog.twoSided groups _ member found fun tx raw => known tx ?_
    exact run.reaches.eachRaw (Catalog.recognises groups) (Reading.eachRaw_ofTrace trace) target.value
      (Tree.value_mem_preorder_of_mem_subtrees inside) tx raw

theorem total_collect_jetton (small : trace.jettonVolume ≤ JettonDelta.bound)
    (run : Rewrites (Catalog.rules groups) (.ofTrace trace) log reading) (keep : Action → Bool)
    (master : Address) :
    ∃ total, (Report.collect keep reading).flow.totalJettons? master = some total ∧
      ((∀ tx ∈ trace.preorder, tx.hasOperation Operation.jettonTransfer → tx.sender?.isSome) →
        total.val = (reading.preorder.map (·.event.jettonSupply master)).sum) := by
  have within := (carried small run).within
  have exact := fun account => jetton_collect small run keep account master
  -- Whichever accounts are added up, they hold no more than the events have moved.
  have near : ∀ accounts : Finset Address, (∑ account ∈ accounts,
      (Report.collect keep reading).flow.jetton account master).natAbs ≤ JettonDelta.bound := by
    intro accounts
    simp only [exact]
    exact (Event.natAbs_sum_log_le master accounts).trans (by omega)
  obtain ⟨total, sum, whole⟩ := Flow.exists_totalJettons? near
  refine ⟨total, sum, fun known => ?_⟩
  obtain ⟨accounts, keys, holders⟩ :=
    Event.exists_holders (Report.collect keep reading).flow.accounts.keys log
  rw [whole accounts keys, ← supply_eq run]
  simp only [exact]
  exact Event.sum_log_eq_supply (twoSided known run) master holders

/-- The jettons of a trace whose bodies name amounts within range together. On the way of a run
every rewrite changes each balance of the collected ledger by what its event stands for, and only
transfers, burns and Tonstakers deposits change any; neither the merges nor the corrections
saturate. At the end the ledger has what the events of the run add up to, its totals are in range,
and when every transfer has a sender they are what was minted less what was burnt. -/
theorem jettons_exact {trace : Trace} (small : trace.jettonVolume ≤ JettonDelta.bound)
    (groups : PatternGroups) (limit : Nat) (keep : Action → Bool) :
    (∀ between, Reaches (Catalog.rules groups) (.ofTrace trace) between →
      (∀ rule ∈ Catalog.rules groups, ∀ event next, rule.Makes event between next →
        (∀ account master, (Report.collect keep next).flow.jetton account master =
          (Report.collect keep between).flow.jetton account master +
            event.jettonChange account master) ∧
        (rule ≠ Catalog.jettonTransfer → rule ≠ Catalog.jettonBurn →
          rule ≠ Catalog.tonstakersDeposit →
          ∀ account master, event.jettonChange account master = 0)) ∧
      (∀ target ∈ between.subtrees,
        (∀ paths, Flow.JettonsFit ((target.split paths).1.map (·.flow))) ∧
        (∀ rule ∈ Catalog.rules groups, ∀ found : rule.Match target, found.CorrectionFits) ∧
        Flow.JettonsFit (Report.mergedAt keep target))) ∧
    let run := rewriteAll (Catalog.rules groups) limit (.ofTrace trace)
    let flow := (Report.collect keep run.1).flow
    (∃ log, Rewrites (Catalog.rules groups) (.ofTrace trace) log run.1 ∧ log.length = run.2 ∧
      ∀ account master, flow.jetton account master =
        (log.map (·.jettonChange account master)).sum) ∧
    ∀ master, ∃ total, flow.totalJettons? master = some total ∧
      ((∀ tx ∈ trace.preorder, tx.hasOperation Operation.jettonTransfer → tx.sender?.isSome) →
        total.val = (run.1.preorder.map (·.event.jettonSupply master)).sum) := by
  constructor
  · intro between reached
    obtain ⟨log, way⟩ := reached.exists_rewrites
    refine ⟨fun rule member event next makes => ⟨fun account master => ?_, ?_⟩,
      fun target inside => ⟨fun paths => ?_, fun rule member found => ?_, ?_⟩⟩
    · rw [jetton_collect small (way.step member makes), jetton_collect small way, List.map_append,
        List.sum_append, List.map_singleton, List.sum_singleton]
    · intro transfer burn stake account master
      obtain ⟨_, _, found, _, rfl, _⟩ := makes.exists_match
      exact Rule.Idle.jettonChange_eq (Catalog.idle groups rule member transfer burn stake) found
        account master
    · exact jettonsFit_split small way inside paths
    · exact ((carried small way).joined small (Catalog.accounts groups rule member) inside found).2
    · exact jettonsFit_mergedAt small way keep inside
  · intro run flow
    obtain ⟨log, way, count⟩ := rewrites_rewriteAll (Catalog.rules groups) limit (.ofTrace trace)
    exact ⟨⟨log, way, count, jetton_collect small way keep⟩, total_collect_jetton small way keep⟩

def burning : Trace :=
  .node {
      hash := ⟨1⟩
      account := ⟨0, ⟨1⟩⟩
      interfaces := [.jettonWallet]
      success := true
      inMessage := some {
        source := some ⟨0, ⟨2⟩⟩
        body := some { operation := Operation.jettonBurn, value := .object [("amount", .integer 5)] } } } [
    .leaf {
      hash := ⟨2⟩
      account := ⟨0, ⟨3⟩⟩
      success := true
      inMessage := some {
        source := some ⟨0, ⟨1⟩⟩
        body := some { operation := Operation.jettonBurnNotification, value := .null } } }]

theorem jettons_exact_burning : burning.jettonVolume ≤ JettonDelta.bound ∧
    ∃ total, (Report.ofTrace (Catalog.rules {}) 1000 none burning).flow.totalJettons? ⟨0, ⟨3⟩⟩ =
      some total ∧ total.val = -5 := by
  have small : burning.jettonVolume ≤ JettonDelta.bound := by decide +kernel
  obtain ⟨total, sum, exact⟩ := (jettons_exact small {} 1000 fun _ => true).2.2 ⟨0, ⟨3⟩⟩
  refine ⟨small, total, sum, (exact ?_).trans ?_⟩
  · decide +kernel
  · decide +kernel

end Trace

end TonTrace
