import Mathlib.Data.Nat.SuccPred
import TonTrace.Proofs.Checked
import TonTrace.Proofs.Explained
import TonTrace.Proofs.Limits

/-! No analysis overflows. The whole analysis is run with its plain arithmetic
checked: the ledgers that are merged, the corrections, the number of steps and
of nodes, and the text of each action. An NFT is only counted when a raw
transaction is taken for it, so no ledger ever counts more of them than the
trace has transactions, and neither do the merged ones on the way. -/

set_option autoImplicit false

namespace TonTrace

open Checked

def Cluster.raws (clusters : List Cluster) : Nat := clusters.countP (·.event.raw?.isSome)

/-- On either side the NFTs that are counted, with one more for each raw transaction, are at most this
many. -/
def Reading.CountsUpTo (most : Nat) (reading : Reading) : Prop :=
  ∀ side, reading.nfts side + Cluster.raws reading.preorder ≤ most

theorem Reading.CountsUpTo.mono {most : Nat} {inner reading : Reading} (counts : reading.CountsUpTo most)
    (inside : inner ∈ reading.subtrees) : inner.CountsUpTo most := by
  obtain ⟨before, after, same⟩ := Tree.infix_of_mem_subtrees inside
  intro side
  have whole := counts side
  simp only [nfts, Cluster.raws, same, List.map_append, List.sum_append, List.countP_append] at whole ⊢
  omega

/-- The root alone settles, it settles what the event corrects, and every NFT that it counts was asked
for by a raw transaction that the match takes. -/
structure Rule.Bookkeeping (rule : Rule) : Prop where
  recognises : rule.Recognises
  atRoot : rule.SettlesAtRoot
  corrects : rule.Corrects
  counts (side : NftSide) {target : Reading} (found : rule.Match target) (flow : Flow) :
    (rule.pattern.settle found.output flow).nfts side ≤ flow.nfts side + Cluster.raws found.taken

def Cluster.mergeChecked (clusters : List Cluster) : Checked Flow :=
  clusters.foldlM (fun flow cluster => flow.mergeChecked cluster.flow) .empty

theorem Cluster.nfts_flow_join (side : NftSide) (event : Event) (clusters : List Cluster) :
    (join event clusters).flow.nfts side = (clusters.map (·.flow.nfts side)).sum := by
  rw [flow_join, Flow.nfts_foldl_merge, List.map_map, Flow.nfts_empty, Nat.zero_add]
  rfl

theorem Cluster.mergeChecked_eq_ok {clusters : List Cluster}
    (small : ∀ side, (clusters.map (·.flow.nfts side)).sum ≤ maxInt64) (event : Event) :
    mergeChecked clusters = .ok (join event clusters).flow := by
  have guards := Guards.foldlM (fun cluster : Cluster => Flow.guards_merge cluster.flow) clusters
  have joined : (join event clusters).flow =
      clusters.foldl (fun flow cluster => flow.merge cluster.flow) .empty := by
    rw [flow_join, List.foldl_map]
  have fits : (join event clusters).flow.CountsFit := by
    apply Flow.countsFit_of_nfts
    intro side
    rw [nfts_flow_join]
    exact small side
  rw [joined] at fits ⊢
  exact guards.eq_ok fits

namespace Rule

variable {rule : Rule} {reading : Reading}

def fuseChecked (rule : Rule) (sites : List (Site rule.Output)) (output : rule.Output)
    (reading : Reading) : Checked Reading := do
  let parts := reading.split (sites.map (·.path))
  let merged ← Cluster.mergeChecked parts.1
  let corrected ← Posting.enterAllChecked (rule.event output).corrections merged
  return .node { Cluster.join (rule.event output) parts.1 with flow := corrected } parts.2

theorem fuseChecked_eq_ok (books : rule.Bookkeeping) (found : rule.Match reading) {most : Nat}
    (room : most + 2 ≤ maxInt64) (counts : reading.CountsUpTo most) :
    rule.fuseChecked found.sites found.output reading = .ok found.next := by
  have taken : ∀ side, (found.taken.map (·.flow.nfts side)).sum ≤ most := by
    intro side
    have whole := counts side
    rw [Reading.nfts, (found.preorder_perm.map _).sum_eq, List.map_append, List.sum_append] at whole
    omega
  have merged : Cluster.mergeChecked found.taken = .ok (Cluster.join found.event found.taken).flow :=
    Cluster.mergeChecked_eq_ok (fun side => (taken side).trans (Nat.le_of_add_right_le room)) _
  have corrected : Posting.enterAllChecked found.event.corrections
      (Cluster.join found.event found.taken).flow = .ok found.made.flow := by
    rw [books.atRoot.flow_made found, books.corrects found, ← Cluster.flow_join found.event]
    refine Posting.enterAllChecked_eq_ok fun side => ?_
    have few := found.event.length_corrections_le
    have part := taken side
    rw [Cluster.nfts_flow_join]
    omega
  exact bind_eq_ok_iff.mpr ⟨_, merged, bind_eq_ok_iff.mpr ⟨_, corrected, rfl⟩⟩

/-- Read a match at the root as one event. A node without one costs no arithmetic. -/
def rewriteChecked (rule : Rule) (reading : Reading) : Checked (Option Reading) :=
  match rule.pattern.sites? reading with
  | none => return none
  | some sites =>
    match rule.build sites with
    | .error _ => return none
    | .ok output => do return some (← rule.fuseChecked sites output reading)

theorem rewriteChecked_eq_ok (books : rule.Bookkeeping) {most : Nat} (room : most + 2 ≤ maxInt64)
    (counts : reading.CountsUpTo most) : rule.rewriteChecked reading = .ok (rule.rewrite? reading) := by
  rw [rewriteChecked, rewrite?]
  cases matched : rule.pattern.sites? reading with
  | none => rfl
  | some sites =>
    simp only
    cases built : rule.build sites with
    | error fault =>
      simp only [Option.bind_eq_bind, Option.bind_some, built]
      rfl
    | ok output =>
      have fused := fuseChecked_eq_ok books ⟨sites, output, matched, built⟩ room counts
      refine bind_eq_ok_iff.mpr ⟨_, fused, ?_⟩
      simp only [Option.bind_eq_bind, Option.bind_some, built]
      rfl

mutual

def rewriteFirstChecked (rule : Rule) : Reading → Checked (Option Reading)
  | .node cluster children => do
    match ← rule.rewriteChecked (.node cluster children) with
    | some rewritten => return some rewritten
    | none => return (← rewriteFirstChildChecked rule children).map (.node cluster ·)

def rewriteFirstChildChecked (rule : Rule) : List Reading → Checked (Option (List Reading))
  | [] => return none
  | child :: rest => do
    match ← rewriteFirstChecked rule child with
    | some rewritten => return some (rewritten :: rest)
    | none => return (← rewriteFirstChildChecked rule rest).map (child :: ·)

end

section

variable {most : Nat}

mutual

theorem rewriteFirstChecked_eq_ok (books : rule.Bookkeeping) (room : most + 2 ≤ maxInt64) :
    ∀ reading : Reading, reading.CountsUpTo most →
      rule.rewriteFirstChecked reading = .ok (rule.rewriteFirst? reading)
  | .node cluster children, counts => by
    have below := rewriteFirstChildChecked_eq_ok books room children fun child member =>
      counts.mono (Tree.mem_subtrees_of_child member)
    rw [rewriteFirstChecked, rewriteFirst?, rewriteChecked_eq_ok books room counts]
    cases rule.rewrite? (.node cluster children) with
    | some rewritten => rfl
    | none =>
      simp only [below]
      rfl

theorem rewriteFirstChildChecked_eq_ok (books : rule.Bookkeeping) (room : most + 2 ≤ maxInt64) :
    ∀ children : List Reading, (∀ child ∈ children, child.CountsUpTo most) →
      rule.rewriteFirstChildChecked children = .ok (rule.rewriteFirstChild? children)
  | [], _ => rfl
  | child :: rest, counts => by
    have first := rewriteFirstChecked_eq_ok books room child (counts child List.mem_cons_self)
    have others := rewriteFirstChildChecked_eq_ok books room rest fun child member =>
      counts child (List.mem_cons_of_mem _ member)
    rw [rewriteFirstChildChecked, rewriteFirstChild?, first]
    cases rule.rewriteFirst? child with
    | some rewritten => rfl
    | none =>
      simp only [others]
      rfl

end

end

/-- A match counts at most one NFT for each raw transaction that it takes, and those are gone. -/
theorem Step.countsUpTo (books : rule.Bookkeeping) {next : Reading} {most : Nat}
    (step : rule.Step reading next) (counts : reading.CountsUpTo most) : next.CountsUpTo most := by
  obtain ⟨event, makes⟩ := step.makes
  obtain ⟨target, _, found, kept, _, before, after⟩ := makes.exists_match
  intro side
  have made : found.made.flow.nfts side ≤
      (found.taken.map (·.flow.nfts side)).sum + Cluster.raws found.taken := by
    rw [books.atRoot.flow_made found, ← Cluster.flow_join found.event,
      ← Cluster.nfts_flow_join side found.event]
    exact books.counts side found _
  have recognised : found.event.raw? = none := Option.eq_none_iff_forall_ne_some.mpr fun tx raw =>
    books.recognises found.output tx (Event.raw?_eq_some_iff.mp raw)
  have whole := counts side
  rw [Reading.nfts, (before.map _).sum_eq, Cluster.raws, before.countP_eq, List.map_append,
    List.sum_append, List.countP_append] at whole
  rw [Reading.nfts, (after.map _).sum_eq, Cluster.raws, after.countP_eq, List.map_cons, List.sum_cons,
    List.countP_cons_of_neg (by simp [recognised])]
  simp only [Cluster.raws] at made
  omega

/-- Rewrite until the rule fails everywhere, at most `left` times, counting on from `done`. -/
def exhaustChecked (rule : Rule) : Nat → Nat → Reading → Checked (Reading × Nat)
  | 0, done, reading => return (reading, done)
  | left + 1, done, reading => do
    match ← rule.rewriteFirstChecked reading with
    | none => return (reading, done)
    | some next => exhaustChecked rule left (← upTo maxWord64 (done + 1)) next

theorem exhaustChecked_eq_ok (books : rule.Bookkeeping) {most : Nat} (room : most + 2 ≤ maxInt64)
    {left done : Nat} (small : done + left ≤ maxWord64) (counts : reading.CountsUpTo most) :
    rule.exhaustChecked left done reading =
      .ok ((rule.exhaust left reading).1, done + (rule.exhaust left reading).2) := by
  induction left generalizing done reading with
  | zero => rfl
  | succ left ih =>
    rw [exhaustChecked, exhaust, rewriteFirstChecked_eq_ok books room reading counts]
    cases found : rule.rewriteFirst? reading with
    | none => rfl
    | some next =>
      have count : upTo maxWord64 (done + 1) = .ok (done + 1) := upTo_eq_ok (by omega)
      have further : rule.exhaustChecked left (done + 1) next = _ :=
        ih (by omega) ((step_of_rewriteFirst? reading found).countsUpTo books counts)
      refine bind_eq_ok_iff.mpr ⟨_, rfl, bind_eq_ok_iff.mpr ⟨_, count, further.trans ?_⟩⟩
      rw [Nat.add_assoc, Nat.add_comm 1]

end Rule

def rewriteAllChecked (rules : List Rule) (limit : Nat) (reading : Reading) : Checked (Reading × Nat) :=
  rules.foldlM (fun run rule => rule.exhaustChecked (limit - run.2) run.2 run.1) (reading, 0)

theorem rewriteAllChecked_eq_ok {rules : List Rule} (books : ∀ rule ∈ rules, rule.Bookkeeping)
    {most limit : Nat} (room : most + 2 ≤ maxInt64) (small : limit ≤ maxWord64) {reading : Reading}
    (counts : reading.CountsUpTo most) :
    rewriteAllChecked rules limit reading = .ok (rewriteAll rules limit reading) := by
  suffices counting : ∀ done ≤ limit,
      rules.foldlM (fun run rule => rule.exhaustChecked (limit - run.2) run.2 run.1) (reading, done) =
        (.ok ((rewriteAll rules (limit - done) reading).1,
          done + (rewriteAll rules (limit - done) reading).2) : Checked (Reading × Nat)) by
    simpa [rewriteAllChecked] using counting 0 (Nat.zero_le _)
  induction rules generalizing reading with
  | nil => exact fun _ _ => rfl
  | cons rule rest ih =>
    intro done begun
    have own := books rule List.mem_cons_self
    have least := rule.exhaust_le (limit - done) reading
    have kept : (rule.exhaust (limit - done) reading).1.CountsUpTo most :=
      Rule.exhaust_keeps (fun step counts => step.countsUpTo own counts) _ counts
    have others := ih (fun rule member => books rule (List.mem_cons_of_mem _ member)) kept
      (done + (rule.exhaust (limit - done) reading).2) (by omega)
    rw [List.foldlM_cons, rule.exhaustChecked_eq_ok own room (by omega) counts]
    refine others.trans ?_
    rw [rewriteAll, Nat.sub_add_eq, Nat.add_assoc]

def Reading.countChecked (reading : Reading) : Checked Nat :=
  reading.preorder.foldlM (fun count _ => upTo maxWord64 (count + 1)) 0

theorem guards_succ : Guards (· ≤ maxWord64) (fun count => upTo maxWord64 (count + 1)) Nat.succ where
  eq_ok_iff _ := upTo_eq_ok_iff
  of_plain := Nat.le_of_succ_le

theorem Reading.countChecked_eq_ok {reading : Reading} (small : reading.size ≤ maxWord64) :
    reading.countChecked = .ok reading.size := by
  have counted : reading.preorder.foldl (fun count _ => count.succ) 0 = reading.size := by
    rw [List.foldl_const, Nat.succ_iterate, Nat.zero_add, Tree.length_preorder]
  rw [← counted] at small ⊢
  exact (Guards.foldlM (fun _ => guards_succ) reading.preorder).eq_ok small

namespace Report

mutual

def collectChecked (keep : Action → Bool) : Reading → Checked Report
  | .node cluster children => do
    let below ← collectAllChecked keep .empty children
    return {
      actions := cluster.actions.filter keep ++ below.actions
      flow := ← below.flow.mergeChecked cluster.flow }

def collectAllChecked (keep : Action → Bool) (flow : Flow) : List Reading → Checked Report
  | [] => return { actions := [], flow }
  | child :: rest => do
    let first ← collectChecked keep child
    let others ← collectAllChecked keep (← flow.mergeChecked first.flow) rest
    return { actions := first.actions ++ others.actions, flow := others.flow }

end

theorem nfts_flow_collectAll (side : NftSide) (keep : Action → Bool) (flow : Flow)
    (children : List Reading) : (collectAll keep flow children).flow.nfts side =
      flow.nfts side + (children.map (Reading.nfts side)).sum := by
  rw [flow_collectAll, Flow.nfts_foldl_merge, List.map_map]
  exact congrArg _ (congrArg _ (List.map_congr_left fun child _ => nfts_flow_collect side keep child))

theorem nfts_node (side : NftSide) (cluster : Cluster) (children : List Reading) :
    Reading.nfts side (.node cluster children) =
      cluster.flow.nfts side + (children.map (Reading.nfts side)).sum := by
  rw [Reading.nfts, Tree.preorder_node, List.map_cons, List.sum_cons, List.map_flatMap, List.flatMap_def,
    List.sum_flatten, List.map_map]
  rfl

mutual

theorem collectChecked_eq_ok (keep : Action → Bool) : ∀ reading : Reading,
    (∀ side, reading.nfts side ≤ maxInt64) → collectChecked keep reading = .ok (collect keep reading)
  | .node cluster children, small => by
    have room : ∀ side, (collectAll keep .empty children).flow.nfts side + cluster.flow.nfts side ≤
        maxInt64 := by
      intro side
      have whole := small side
      rw [nfts_node] at whole
      rw [nfts_flow_collectAll, Flow.nfts_empty]
      omega
    have below := collectAllChecked_eq_ok keep .empty children fun side => by
      have part := room side
      rw [nfts_flow_collectAll] at part
      omega
    rw [collectChecked]
    exact bind_eq_ok_iff.mpr ⟨_, below, bind_eq_ok_iff.mpr ⟨_, Flow.mergeChecked_eq_ok room, rfl⟩⟩

theorem collectAllChecked_eq_ok (keep : Action → Bool) (flow : Flow) : ∀ children : List Reading,
    (∀ side, flow.nfts side + (children.map (Reading.nfts side)).sum ≤ maxInt64) →
      collectAllChecked keep flow children = .ok (collectAll keep flow children)
  | [], _ => rfl
  | child :: rest, small => by
    simp only [List.map_cons, List.sum_cons] at small
    have first := collectChecked_eq_ok keep child fun side => by
      have whole := small side
      omega
    have merged : flow.mergeChecked (collect keep child).flow = .ok (flow.merge (collect keep child).flow) :=
      Flow.mergeChecked_eq_ok fun side => by
        have whole := small side
        rw [nfts_flow_collect]
        omega
    have others := collectAllChecked_eq_ok keep (flow.merge (collect keep child).flow) rest fun side => by
      have whole := small side
      rw [Flow.nfts_merge, nfts_flow_collect]
      omega
    rw [collectAllChecked]
    refine bind_eq_ok_iff.mpr ⟨_, first, bind_eq_ok_iff.mpr ⟨_, merged, ?_⟩⟩
    exact bind_eq_ok_iff.mpr ⟨_, others, rfl⟩

end

end Report

/-- What an analysis tells: the report with the text of each action, and how many steps and nodes it
took. -/
structure Findings where
  report : Report
  texts : List String
  steps : Nat
  nodes : Nat

namespace Trace

def analyzeChecked (groups : PatternGroups) (limit : Word64) (subject : Option Address) (trace : Trace) :
    Checked Findings := do
  let run ← rewriteAllChecked (Catalog.rules groups) limit.val.toNat (.ofTrace trace)
  let nodes ← Reading.countChecked run.1
  let report ← Report.collectChecked (fun action => subject.all action.isSubject) run.1
  let texts ← report.actions.mapM Action.summaryChecked
  return { report, texts, steps := run.2, nodes }

end Trace

namespace Catalog

theorem nfts_settleNftTransfer_le (side : NftSide) (transfer : Event.NftTransfer) (flow : Flow) :
    (settleNftTransfer transfer flow).nfts side ≤ flow.nfts side + 1 := by
  obtain ⟨sender, recipient, _, _, success⟩ := transfer
  cases success with
  | false => exact Nat.le_add_right _ 1
  | true => cases side <;> cases sender <;> cases recipient <;> simp [settleNftTransfer]

theorem bookkeeping (groups : PatternGroups) : ∀ rule ∈ rules groups, rule.Bookkeeping := by
  intro rule member
  refine ⟨recognises groups rule member, settlesAtRoot groups rule member, corrects groups rule member, ?_⟩
  intro side target found flow
  have keeps := settle_keeps_or (P := fun settled => settled.nfts side = flow.nfts side)
    (fun account master amount _ same => by simpa using same)
    (fun account master amount _ same => by simpa using same) groups rule member
  rcases keeps with rfl | keeps
  · -- The one rule that counts NFTs takes the request, which is raw.
    have raw : 1 ≤ Cluster.raws found.taken := by
      obtain ⟨rest, taken⟩ := found.taken_eq_cons
      obtain ⟨inner, built⟩ := found.exists_build_root
      obtain ⟨tx, request, _⟩ := takeNftTransfer_eq_ok built
      refine List.one_le_countP_iff.mpr ⟨target.value, taken ▸ List.mem_cons_self, ?_⟩
      rw [show target.value.event = .transaction tx from request]
      rfl
    exact (nfts_settleNftTransfer_le side found.output flow).trans (Nat.add_le_add_left raw _)
  · exact (keeps found.output rfl).le.trans (Nat.le_add_right _ _)

end Catalog

namespace Trace

variable {trace : Trace}

theorem countsUpTo_ofTrace (trace : Trace) : (Reading.ofTrace trace).CountsUpTo trace.size := by
  intro side
  have raws := List.countP_le_length (p := fun cluster : Cluster => cluster.event.raw?.isSome)
    (l := (Reading.ofTrace trace).preorder)
  have none : (Reading.ofTrace trace).nfts side = 0 := by
    rw [Reading.nfts, Reading.preorder_ofTrace, List.sum_eq_zero_iff]
    intro counted member
    simp only [List.map_map, List.mem_map, Function.comp_apply] at member
    obtain ⟨tx, _, rfl⟩ := member
    exact Flow.nfts_flowOf side tx
  rw [none, Nat.zero_add]
  exact raws.trans_eq (by rw [Reading.preorder_ofTrace, List.length_map, Tree.length_preorder])

/-- With fewer than 2 ^ 62 transactions, valid or not, no operation of an analysis leaves the range of
its type, and so the checked analysis tells what the unchecked one does. Nor does any credit lack an
opposite, or any TON amount a text. -/
theorem analyzeChecked_eq_ok (few : trace.size < 2 ^ 62) (groups : PatternGroups) (limit : Word64)
    (subject : Option Address) :
    let run := rewriteAll (Catalog.rules groups) limit.val.toNat (.ofTrace trace)
    let report := Report.ofTrace (Catalog.rules groups) limit.val.toNat subject trace
    trace.analyzeChecked groups limit subject = .ok {
      report
      texts := report.actions.map Action.summary
      steps := run.2
      nodes := run.1.size } ∧
    (∀ amount : JettonAmount, neg amount.credit = .ok amount.debit) ∧
    ∀ amount : Nanotons, Amount.tonTextChecked amount = .ok (Amount.tonText amount) := by
  intro run report
  -- A match counts two NFTs at most before the raw transactions that it takes are gone.
  have room : trace.size + 2 ≤ maxInt64 := by
    simp only [maxInt64]
    omega
  have rewritten : rewriteAllChecked (Catalog.rules groups) limit.val.toNat (.ofTrace trace) = .ok run := by
    have high := limit.le_hi
    refine rewriteAllChecked_eq_ok (Catalog.bookkeeping groups) room ?_ (countsUpTo_ofTrace trace)
    simp only [maxWord64]
    omega
  have counts : run.1.CountsUpTo trace.size :=
    rewriteAll_keeps (fun rule member _ _ step => step.countsUpTo (Catalog.bookkeeping groups rule member))
      _ (countsUpTo_ofTrace trace)
  have counted : Reading.countChecked run.1 = .ok run.1.size := by
    have fewer := length_rewriteAll_le (Catalog.rules groups) limit.val.toNat (.ofTrace trace)
    rw [Reading.preorder_ofTrace, List.length_map, Tree.length_preorder, Tree.length_preorder] at fewer
    refine Reading.countChecked_eq_ok (fewer.trans ?_)
    simp only [maxWord64]
    omega
  have collected := Report.collectChecked_eq_ok (fun action => subject.all action.isSubject) run.1
    fun side => by
      have own := counts side
      omega
  have told := mapM_eq_ok Action.summaryChecked_eq_ok report.actions
  refine ⟨?_, Posting.neg_credit_eq_ok, Amount.tonTextChecked_eq_ok⟩
  refine bind_eq_ok_iff.mpr ⟨run, rewritten, bind_eq_ok_iff.mpr ⟨_, counted, ?_⟩⟩
  exact bind_eq_ok_iff.mpr ⟨_, collected, bind_eq_ok_iff.mpr ⟨_, told, rfl⟩⟩

def lowest : Trace :=
  .leaf {
    hash := ⟨1⟩
    account := ⟨0, ⟨1⟩⟩
    success := true
    inMessage := some {
      source := some ⟨0, ⟨2⟩⟩
      value := ⟨-0x8000000000000000, by decide, by decide⟩ }
    fees := { compute := ⟨-0x8000000000000000, by decide, by decide⟩ } }

def mostSteps : Word64 := ⟨0xffffffffffffffff, by decide, by decide⟩

theorem analyzeChecked_eq_ok_lowest :
    lowest.size < 2 ^ 62 ∧ ∃ findings, lowest.analyzeChecked {} mostSteps none = .ok findings ∧
      findings.steps = 1 ∧ findings.texts = ["Transferência de -9223372036.854775808 TON de " ++
        Address.text ⟨0, ⟨2⟩⟩ ++ " para " ++ Address.text ⟨0, ⟨1⟩⟩] := by
  have few : lowest.size < 2 ^ 62 := by decide
  have steps : (rewriteAll (Catalog.rules {}) mostSteps.val.toNat (.ofTrace lowest)).2 = 1 := by
    decide +kernel
  have texts : (Report.ofTrace (Catalog.rules {}) mostSteps.val.toNat none lowest).actions.map
      Action.summary = ["Transferência de -9223372036.854775808 TON de " ++ Address.text ⟨0, ⟨2⟩⟩ ++
        " para " ++ Address.text ⟨0, ⟨1⟩⟩] := by
    decide +kernel
  have checked := (analyzeChecked_eq_ok few {} mostSteps none).1
  -- The run itself is not to be evaluated again.
  generalize rewriteAll (Catalog.rules {}) mostSteps.val.toNat (.ofTrace lowest) = run at checked steps
  generalize Report.ofTrace (Catalog.rules {}) mostSteps.val.toNat none lowest = report at checked texts
  exact ⟨few, _, checked, steps, texts⟩

end Trace

end TonTrace
