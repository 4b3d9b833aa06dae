import Mathlib.Algebra.BigOperators.Ring.Finset
import TonTrace.Proofs.Settling
import TonTrace.Proofs.Steadiness
import TonTrace.Proofs.Totals

/-! NFTs that change hands. The rule for transfers counts each one that
succeeds, once for either owner, and the rule for purchases takes over the
outcome of the one transfer that it takes. No other rule looks at a transfer or
counts one, so a ledger counts what the actions tell. -/

set_option autoImplicit false

namespace TonTrace

inductive NftSide where
  | received
  | sent

def NftCount.on (count : NftCount) : NftSide → Nat
  | .received => count.added
  | .sent => count.removed

namespace Flow

variable {flow : Flow}

def nfts (side : NftSide) (flow : Flow) : Nat := (flow.accounts.values.map (·.nfts.on side)).sum

theorem nfts_eq_sum (side : NftSide) {accounts : Finset Address}
    (all : flow.accounts.keys.toFinset ⊆ accounts) :
    flow.nfts side = ∑ account ∈ accounts, (flow.entry account).nfts.on side := by
  refine sum_values_eq (M := Nat) ?_ all
  cases side <;> rfl

theorem nfts_merge (side : NftSide) (flow other : Flow) :
    (flow.merge other).nfts side = flow.nfts side + other.nfts side := by
  -- The sums are compared over the accounts of all three ledgers.
  let accounts := (flow.merge other).accounts.keys.toFinset ∪
    (flow.accounts.keys.toFinset ∪ other.accounts.keys.toFinset)
  have whole : (flow.merge other).accounts.keys.toFinset ⊆ accounts := Finset.subset_union_left
  have left : flow.accounts.keys.toFinset ⊆ accounts :=
    Finset.subset_union_left.trans Finset.subset_union_right
  have right : other.accounts.keys.toFinset ⊆ accounts :=
    Finset.subset_union_right.trans Finset.subset_union_right
  rw [nfts_eq_sum side whole, nfts_eq_sum side left, nfts_eq_sum side right, ← Finset.sum_add_distrib]
  refine Finset.sum_congr rfl fun account _ => ?_
  rw [entry_merge]
  cases side <;> rfl

@[simp] theorem nfts_empty (side : NftSide) : empty.nfts side = 0 := rfl

theorem nfts_foldl_merge (side : NftSide) (flows : List Flow) (start : Flow) :
    (flows.foldl Flow.merge start).nfts side = start.nfts side + (flows.map (nfts side)).sum := by
  induction flows generalizing start with
  | nil => rfl
  | cons flow rest ih =>
    rw [List.foldl_cons, ih, nfts_merge, List.map_cons, List.sum_cons, Nat.add_assoc]

theorem additive_nfts (side : NftSide) (bound : Nat) :
    Additive (fun flow => (flow.nfts side : Int)) bound where
  empty := rfl
  merge flow other _ := by rw [nfts_merge, Nat.cast_add]

theorem nfts_update {side : NftSide} {change : AccountFlow → AccountFlow} {moved : Nat}
    (account : Address) (adds : ∀ entry, (change entry).nfts.on side = entry.nfts.on side + moved) :
    (flow.update account change).nfts side = flow.nfts side + moved := by
  let accounts := insert account
    ((flow.update account change).accounts.keys.toFinset ∪ flow.accounts.keys.toFinset)
  have new : (flow.update account change).accounts.keys.toFinset ⊆ accounts :=
    Finset.subset_union_left.trans (Finset.subset_insert _ _)
  have old : flow.accounts.keys.toFinset ⊆ accounts :=
    Finset.subset_union_right.trans (Finset.subset_insert _ _)
  have each : ∀ other, ((flow.update account change).entry other).nfts.on side =
      (flow.entry other).nfts.on side + if account = other then moved else 0 := by
    intro other
    rw [entry_update]
    split
    · exact adds _
    · rfl
  rw [nfts_eq_sum side new, nfts_eq_sum side old, Finset.sum_congr rfl fun other _ => each other,
    Finset.sum_add_distrib, Finset.sum_ite_eq, if_pos (Finset.mem_insert_self _ _)]

theorem nfts_update_of_keeps {side : NftSide} {change : AccountFlow → AccountFlow} (account : Address)
    (keeps : ∀ entry, (change entry).nfts.on side = entry.nfts.on side) :
    (flow.update account change).nfts side = flow.nfts side :=
  @nfts_update flow side change 0 account keeps

@[simp] theorem nfts_addTon (side : NftSide) (account : Address) (amount : Nanotons) :
    (flow.addTon account amount).nfts side = flow.nfts side :=
  nfts_update_of_keeps account fun _ => by rfl

@[simp] theorem nfts_addFee (side : NftSide) (account : Address) (fee : Nanotons) :
    (flow.addFee account fee).nfts side = flow.nfts side :=
  nfts_update_of_keeps account fun _ => by rfl

@[simp] theorem nfts_addJettons (side : NftSide) (account master : Address) (amount : JettonAmount) :
    (flow.addJettons account master amount).nfts side = flow.nfts side :=
  nfts_update_of_keeps account fun _ => by rfl

@[simp] theorem nfts_removeJettons (side : NftSide) (account master : Address)
    (amount : JettonAmount) : (flow.removeJettons account master amount).nfts side = flow.nfts side :=
  nfts_update_of_keeps account fun _ => by rfl

@[simp] theorem received_addNft (account : Address) :
    (flow.addNft account).nfts .received = flow.nfts .received + 1 :=
  nfts_update account fun _ => by rfl

@[simp] theorem sent_addNft (account : Address) :
    (flow.addNft account).nfts .sent = flow.nfts .sent :=
  nfts_update_of_keeps account fun _ => by rfl

@[simp] theorem received_removeNft (account : Address) :
    (flow.removeNft account).nfts .received = flow.nfts .received :=
  nfts_update_of_keeps account fun _ => by rfl

@[simp] theorem sent_removeNft (account : Address) :
    (flow.removeNft account).nfts .sent = flow.nfts .sent + 1 :=
  nfts_update account fun _ => by rfl

theorem nfts_flowOf (side : NftSide) (tx : Transaction) : (Cluster.flowOf tx).nfts side = 0 := by
  unfold Cluster.flowOf
  split
  · simp
  · split <;> simp

end Flow

def Event.nftsMoved : Event → Nat
  | .nftTransfer transfer => transfer.success.toNat
  | .nftPurchase purchase => purchase.success.toNat
  | _ => 0

def Action.movesNft (action : Action) : Bool :=
  action.success && (action.typeName = "NftItemTransfer" || action.typeName = "NftPurchase")

theorem Event.countP_movesNft (event : Event) :
    event.action?.toList.countP Action.movesNft = event.nftsMoved := by
  cases event with
  | transaction tx =>
    simp only [action?]
    split
    · rfl
    · split <;> simp [Action.movesNft, Action.typeName, nftsMoved]
  | nftTransfer transfer =>
    simp [action?, Action.movesNft, Action.typeName, nftsMoved, List.countP_cons, Bool.toNat]
  | nftPurchase purchase =>
    simp [action?, Action.movesNft, Action.typeName, nftsMoved, List.countP_cons, Bool.toNat]
  | _ => simp [action?, Action.movesNft, Action.typeName, nftsMoved]

theorem Event.nftsMoved_le (event : Event) : event.nftsMoved ≤ 1 := by
  cases event <;> simp [nftsMoved, Bool.toNat_le]

namespace Cluster

def nftsMoved (clusters : List Cluster) : Nat := (clusters.map (·.event.nftsMoved)).sum

theorem countP_actions (cluster : Cluster) :
    cluster.actions.countP Action.movesNft = cluster.event.nftsMoved := by
  have deployments : (cluster.deployments.values.map fun d =>
      (⟨d.success, .deployment d.detail⟩ : Action)).countP Action.movesNft = 0 := by
    simp [List.countP_eq_zero, Action.movesNft, Action.typeName]
  rw [actions, List.countP_append, deployments, Event.countP_movesNft, Nat.zero_add]

theorem countP_flatMap_actions (clusters : List Cluster) :
    (clusters.flatMap (·.actions)).countP Action.movesNft = nftsMoved clusters := by
  simp only [List.countP_flatMap, Function.comp_def, countP_actions, nftsMoved]

theorem nftsMoved_le (clusters : List Cluster) : nftsMoved clusters ≤ clusters.length := by
  have bound := List.sum_le_card_nsmul (clusters.map (·.event.nftsMoved)) 1 (by
    intro moved member
    obtain ⟨cluster, _, rfl⟩ := List.mem_map.mp member
    exact cluster.event.nftsMoved_le)
  simpa [nftsMoved] using bound

end Cluster

namespace Event.NftTransfer

def party (transfer : NftTransfer) : NftSide → Option Address
  | .received => transfer.recipient
  | .sent => transfer.sender

end Event.NftTransfer

/-- The accounts on this side are known wherever the transfer of an NFT is asked for. A request
names the new owner itself, so only the sender may be missing. -/
def NftSide.Known (side : NftSide) (tx : Transaction) : Prop :=
  match side with
  | .received => True
  | .sent => tx.hasOperation Operation.nftTransfer → tx.sender?.isSome

namespace Rule

variable {rule : Rule} {side : NftSide}

/-- When the clusters taken were counted, the event is counted after the corrections. -/
def Tallies (rule : Rule) (side : NftSide) : Prop :=
  ∀ {target : Reading} (found : rule.Match target),
    (∀ tx, target.event = .transaction tx → side.Known tx) →
    ∀ {flow : Flow}, flow.nfts side = Cluster.nftsMoved found.taken →
      (rule.pattern.settle found.output flow).nfts side = found.event.nftsMoved

theorem Sees.nftsMoved_taken (sees : rule.Sees [.transaction, .jettonTransfer]) {target : Reading}
    (found : rule.Match target) : Cluster.nftsMoved found.taken = 0 := by
  rw [Cluster.nftsMoved, List.sum_eq_zero_iff]
  intro moved member
  obtain ⟨cluster, taken, rfl⟩ := List.mem_map.mp member
  have kind := sees.taken found taken
  cases event : cluster.event with
  | nftTransfer | nftPurchase => rw [event] at kind; simp [Event.kind] at kind
  | _ => rfl

theorem Sees.tallies (sees : rule.Sees [.transaction, .jettonTransfer])
    (idle : ∀ output flow, (rule.pattern.settle output flow).nfts side = flow.nfts side)
    (unmoved : ∀ output, (rule.event output).nftsMoved = 0) : rule.Tallies side := by
  intro target found _ flow counted
  rw [idle, counted, sees.nftsMoved_taken found]
  exact (unmoved found.output).symm

end Rule

namespace Catalog

variable {side : NftSide}

theorem takeNftTransfer_eq_ok {transfer next : Event.NftTransfer} {reading : Reading}
    (built : takeNftTransfer transfer reading = .ok next) :
    ∃ tx, reading.event = .transaction tx ∧ tx.hasOperation Operation.nftTransfer ∧
      next.sender = tx.sender? ∧ next.recipient.isSome := by
  obtain ⟨tx, read, built⟩ := bind_eq_ok_iff.mp built
  obtain ⟨body, decoded, built⟩ := bind_eq_ok_iff.mp built
  cases built
  refine ⟨tx, Reading.transaction_eq_ok_iff.mp read, ?_, rfl, ?_⟩
  · exact Transaction.hasOperation_of_decodeBody decoded
  · cases transfer.recipient <;> rfl

theorem nfts_settleNftTransfer {transfer : Event.NftTransfer} {flow : Flow}
    (known : (transfer.party side).isSome) :
    (settleNftTransfer transfer flow).nfts side = flow.nfts side + transfer.success.toNat := by
  obtain ⟨sender, recipient, _, _, success⟩ := transfer
  cases success with
  | false => rfl
  | true =>
    cases side with
    | received =>
      obtain ⟨recipient, rfl⟩ := Option.isSome_iff_exists.mp known
      cases sender <;> simp [settleNftTransfer]
    | sent =>
      obtain ⟨sender, rfl⟩ := Option.isSome_iff_exists.mp known
      cases recipient <;> simp [settleNftTransfer]

theorem tallies_nftTransfer : nftTransfer.Tallies side := by
  intro target found known flow counted
  have sees : nftTransfer.Sees [.transaction, .jettonTransfer] :=
    (sees_transaction nftTransfer (by simp)).mono (by decide)
  rw [sees.nftsMoved_taken found] at counted
  -- The root is built last and says who sends the item, so both parties are known.
  obtain ⟨inner, built⟩ := found.exists_build_root
  obtain ⟨tx, raw, asks, sender, recipient⟩ := takeNftTransfer_eq_ok built
  have party : (Event.NftTransfer.party found.output side).isSome := by
    cases side with
    | received => exact recipient
    | sent =>
      have asked : tx.sender?.isSome := known tx raw asks
      rwa [← sender] at asked
  refine (nfts_settleNftTransfer party).trans ?_
  rw [counted, Nat.zero_add]
  rfl

theorem takePurchasedItem_eq_ok {purchase next : Outcome Detail.NftPurchase} {reading : Reading}
    (built : takePurchasedItem purchase reading = .ok next) :
    ∃ transfer, reading.event = .nftTransfer transfer ∧ next = { purchase with
      detail.nft := transfer.item
      success := transfer.success
      detail.buyer := transfer.recipient.getD purchase.detail.buyer } := by
  obtain ⟨transfer, read, built⟩ := bind_eq_ok_iff.mp built
  cases built
  exact ⟨transfer, Reading.nftTransfer_eq_ok_iff.mp read, rfl⟩

theorem takePurchase_eq_ok {purchase next : Outcome Detail.NftPurchase} {reading : Reading}
    (built : takePurchase purchase reading = .ok next) :
    ∃ tx sale, reading.event = .transaction tx ∧ tx.sale? = some sale ∧
      (∃ child ∈ reading.children, handsOver tx.account child) ∧ next = { purchase with
        detail.saleContract := tx.account
        detail.seller := sale.owner.getD default
        detail.marketplace := some sale.marketplace
        detail.price := sale.price
        detail.buyer :=
          if purchase.detail.buyer.isZero then tx.sender?.getD default else purchase.detail.buyer } := by
  obtain ⟨tx, read, built⟩ := bind_eq_ok_iff.mp built
  cases offer : tx.sale? with
  | none => simp [offer] at built
  | some sale =>
    simp only [offer] at built
    split at built
    case isTrue handed =>
      cases built
      exact ⟨tx, sale, Reading.transaction_eq_ok_iff.mp read, offer, List.any_eq_true.mp handed, rfl⟩
    case isFalse => cases built

theorem exists_purchased {target : Reading} (found : nftPurchase.Match target) :
    ∃ child transfer, Reading.event child = .nftTransfer transfer ∧
      found.taken = [target.value, child.value] ∧ found.event.nftsMoved = transfer.success.toNat := by
  obtain ⟨index, child, here, _, sites⟩ := Pattern.sites?_eq_pair rfl rfl rfl found.matched
  have taken : found.taken = [target.value, child.value] := by
    rw [Rule.Match.taken, Rule.Match.paths, sites]
    exact Tree.split_child here
  have built := found.built
  rw [Rule.build, sites] at built
  -- The item is built before the payment.
  obtain ⟨item, inner, last⟩ := bind_eq_ok_iff.mp built
  obtain ⟨purchase, outer, same⟩ := bind_eq_ok_iff.mp last
  cases same
  obtain ⟨transfer, event, rfl⟩ := takePurchasedItem_eq_ok inner
  obtain ⟨tx, sale, _, _, _, same⟩ := takePurchase_eq_ok outer
  exact ⟨child, transfer, event, taken, congrArg (·.success.toNat) same⟩

theorem tallies_nftPurchase : nftPurchase.Tallies side := by
  intro target found _ flow counted
  obtain ⟨child, transfer, event, taken, moved⟩ := exists_purchased found
  have root : target.value.event.nftsMoved = 0 := by
    obtain ⟨tx, raw, _⟩ := Check.exists_transaction (found.admits _ List.mem_cons_self)
    rw [show target.value.event = .transaction tx from raw]
    rfl
  have item : child.value.event.nftsMoved = transfer.success.toNat := by
    rw [show child.value.event = .nftTransfer transfer from event]
    rfl
  have counts : flow.nfts side = child.value.event.nftsMoved := by
    simpa [taken, Cluster.nftsMoved, root] using counted
  rw [moved, ← item, ← counts]
  rfl

theorem nftsMoved_event (groups : PatternGroups) : ∀ rule ∈ rules groups, rule = nftTransfer ∨
    rule = nftPurchase ∨ ∀ output, (rule.event output).nftsMoved = 0 := by
  apply forall_rules
  case nftTransfer => exact .inl rfl
  case nftPurchase => exact .inr (.inl rfl)
  all_goals exact .inr (.inr fun _ => rfl)

theorem tallies (groups : PatternGroups) : ∀ rule ∈ rules groups, rule.Tallies side := by
  intro rule member
  by_cases transfer : rule = nftTransfer
  · subst transfer
    exact tallies_nftTransfer
  by_cases purchase : rule = nftPurchase
  · subst purchase
    exact tallies_nftPurchase
  -- The other rules neither look at transfers nor count any.
  have sees := (sees_fungible groups rule member).resolve_left purchase
  have unmoved := ((nftsMoved_event groups rule member).resolve_left transfer).resolve_left purchase
  refine sees.tallies (fun output flow => ?_) unmoved
  have keeps := settle_keeps_or (P := fun settled => settled.nfts side = flow.nfts side)
    (fun account master amount _ same => by simpa using same)
    (fun account master amount _ same => by simpa using same) groups rule member
  exact keeps.resolve_left transfer output rfl

end Catalog

def Reading.nfts (side : NftSide) (reading : Reading) : Nat :=
  (reading.preorder.map (·.flow.nfts side)).sum

/-- Every cluster counts as many NFTs on this side as its event moves. -/
structure Reading.Tallied (side : NftSide) (reading : Reading) : Prop where
  known : reading.EachRaw side.Known
  counted : ∀ cluster ∈ reading.preorder, cluster.flow.nfts side = cluster.event.nftsMoved

variable {side : NftSide} {trace : Trace}

theorem Reading.tallied_ofTrace (known : ∀ tx ∈ trace.preorder, side.Known tx) :
    Tallied side (.ofTrace trace) where
  known cluster member tx raw := known tx (eachRaw_ofTrace trace cluster member tx raw)
  counted := by
    intro cluster member
    rw [preorder_ofTrace] at member
    obtain ⟨tx, _, rfl⟩ := List.mem_map.mp member
    exact Flow.nfts_flowOf side tx

theorem Rule.Step.tallied {rule : Rule} (recognises : rule.Recognises) (atRoot : rule.SettlesAtRoot)
    (tallies : rule.Tallies side) {reading next : Reading} (step : rule.Step reading next)
    (tallied : reading.Tallied side) : next.Tallied side where
  known := step.eachRaw recognises tallied.known
  counted := by
    obtain ⟨event, makes⟩ := step.makes
    obtain ⟨target, inside, found, kept, _, beforePerm, afterPerm⟩ := makes.exists_match
    have counted : ∀ cluster ∈ found.taken ++ kept,
        cluster.flow.nfts side = cluster.event.nftsMoved := fun cluster member =>
      tallied.counted cluster (beforePerm.mem_iff.mpr member)
    -- The ledgers of the clusters taken are merged before the corrections are made.
    have merged : ((found.taken.map (·.flow)).foldl Flow.merge .empty).nfts side =
        Cluster.nftsMoved found.taken := by
      rw [Flow.nfts_foldl_merge, List.map_map, Cluster.nftsMoved]
      refine (Nat.zero_add _).trans (congrArg List.sum (List.map_congr_left fun cluster member => ?_))
      exact counted cluster (List.mem_append_left _ member)
    intro cluster member
    rcases List.mem_cons.mp (afterPerm.mem_iff.mp member) with rfl | member
    · rw [atRoot.flow_made found]
      refine tallies found (fun tx raw => ?_) merged
      exact tallied.known.mono inside _ (Tree.value_mem_preorder_of_mem_subtrees
        (Tree.mem_subtrees_self target)) tx raw
    · exact counted cluster (List.mem_append_right _ member)

theorem Reading.tallied_rewriteAll (groups : PatternGroups) (limit : Nat)
    (known : ∀ tx ∈ trace.preorder, side.Known tx) :
    Tallied side (rewriteAll (Catalog.rules groups) limit (.ofTrace trace)).1 :=
  rewriteAll_keeps (fun rule member _ _ step => step.tallied (Catalog.recognises groups rule member)
    (Catalog.settlesAtRoot groups rule member) (Catalog.tallies groups rule member)) limit
    (tallied_ofTrace known)

namespace Report

theorem nfts_flow_collect (side : NftSide) (keep : Action → Bool) (reading : Reading) :
    (collect keep reading).flow.nfts side = reading.nfts side := by
  have sum := figure_collect keep (Flow.additive_nfts side _) reading (Nat.le_refl _)
  rw [Cluster.total, ← Function.comp_def Nat.cast, ← List.map_map, ← Nat.cast_list_sum] at sum
  exact Int.ofNat.inj sum

theorem nfts_collect (keep : Action → Bool) {reading : Reading} (tallied : reading.Tallied side) :
    (collect keep reading).flow.nfts side = Cluster.nftsMoved reading.preorder := by
  rw [nfts_flow_collect, Reading.nfts, Cluster.nftsMoved, List.map_congr_left tallied.counted]

theorem countP_ofReading (reading : Reading) :
    (ofReading none reading).actions.countP Action.movesNft = Cluster.nftsMoved reading.preorder := by
  rw [actions_ofReading, Cluster.countP_flatMap_actions]

end Report

namespace Trace

theorem countP_ofTrace (rules : List Rule) (limit : Nat) (trace : Trace) :
    (Report.ofTrace rules limit none trace).actions.countP Action.movesNft =
      Cluster.nftsMoved (rewriteAll rules limit (.ofTrace trace)).1.preorder :=
  Report.countP_ofReading _

theorem countP_ofTrace_le (rules : List Rule) (limit : Nat) (trace : Trace) :
    (Report.ofTrace rules limit none trace).actions.countP Action.movesNft ≤ trace.size := by
  have made := length_rewriteAll_le rules limit (.ofTrace trace)
  rw [Reading.preorder_ofTrace, List.length_map, Tree.length_preorder trace] at made
  exact (countP_ofTrace rules limit trace).trans_le ((Cluster.nftsMoved_le _).trans made)

theorem nfts_ofTrace (groups : PatternGroups) (limit : Nat)
    (known : ∀ tx ∈ trace.preorder, side.Known tx) :
    let report := Report.ofTrace (Catalog.rules groups) limit none trace
    report.flow.nfts side = report.actions.countP Action.movesNft := by
  have tallied := Reading.tallied_rewriteAll groups limit known
  exact (Report.nfts_collect _ tallied).trans (countP_ofTrace _ _ _).symm

/-- The NFTs that accounts received are as many as the actions tell of, and so are those that accounts
sent when every request for a transfer has a sender. There are no more than transactions. -/
theorem nfts_exact (groups : PatternGroups) (limit : Nat) (trace : Trace) :
    let report := Report.ofTrace (Catalog.rules groups) limit none trace
    let told := report.actions.countP Action.movesNft
    (report.flow.accounts.values.map (·.nfts.added)).sum = told ∧
    ((∀ tx ∈ trace.preorder, tx.hasOperation Operation.nftTransfer → tx.sender?.isSome) →
      (report.flow.accounts.values.map (·.nfts.removed)).sum = told) ∧
    told ≤ trace.size := by
  intro report told
  refine ⟨?_, fun known => ?_, ?_⟩
  · exact @nfts_ofTrace .received trace groups limit fun _ _ => trivial
  · exact @nfts_ofTrace .sent trace groups limit known
  · exact countP_ofTrace_le _ _ _

def sold : Trace :=
  .node {
      hash := ⟨1⟩
      account := ⟨0, ⟨1⟩⟩
      interfaces := [.nftSale]
      success := true
      inMessage := some { source := some ⟨0, ⟨2⟩⟩ }
      info := some {
        sale := some {
          nft := ⟨0, ⟨3⟩⟩
          owner := none
          marketplace := ⟨0, ⟨4⟩⟩
          price := 0 } } } [
    .leaf {
      hash := ⟨2⟩
      account := ⟨0, ⟨3⟩⟩
      interfaces := [.nftItem]
      success := true
      inMessage := some {
        source := some ⟨0, ⟨1⟩⟩
        body := some {
          operation := Operation.nftTransfer
          value := .object [("new_owner", .string
            "0:0000000000000000000000000000000000000000000000000000000000000002")] } } }]

theorem nfts_exact_sold :
    (Report.ofTrace (Catalog.rules {}) 1000 none sold).actions.countP Action.movesNft = 1 ∧
      ((Report.ofTrace (Catalog.rules {}) 1000 none sold).flow.accounts.values.map
        (·.nfts.removed)).sum = 1 := by
  have known : ∀ tx ∈ sold.preorder, tx.hasOperation Operation.nftTransfer → tx.sender?.isSome := by
    decide +kernel
  have told : (Report.ofTrace (Catalog.rules {}) 1000 none sold).actions.countP Action.movesNft = 1 := by
    decide +kernel
  have sent := (nfts_exact {} 1000 sold).2.1 known
  exact ⟨told, sent.trans told⟩

end Trace

end TonTrace
