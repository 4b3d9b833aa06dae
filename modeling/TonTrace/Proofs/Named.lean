import TonTrace.Proofs.AddressMap
import TonTrace.Proofs.Merging
import TonTrace.Proofs.Settling
import TonTrace.Proofs.Stuck

/-! A ledger only knows accounts that its trace names. Seeding lists the account
and the sender of each transaction, and what a rule corrects are parties that a
body or a message names. One rule fills in the zero account for a sender that it
does not know, so a burn that nobody asked for is charged to that account. -/

set_option autoImplicit false

namespace TonTrace

namespace Transaction

/-- The accounts that a transaction names: its own, the sender of its message and those in a body
that decodes. -/
inductive Names (tx : Transaction) : Address → Prop where
  | account : tx.Names tx.account
  | sender {sender : Address} : tx.sender? = some sender → tx.Names sender
  | destination {body : Payload.JettonTransfer} :
      tx.decodeBody Operation.jettonTransfer = .ok body → tx.Names body.destination
  | newOwner {body : Payload.NftTransfer} :
      tx.decodeBody Operation.nftTransfer = .ok body → tx.Names body.newOwner
  | minted {body : Payload.JettonMint} :
      tx.decodeBody Operation.jettonMint = .ok body → tx.Names body.toAddress

theorem Names.of_other {tx : Transaction} {account : Address} (names : tx.Names account)
    (others : ∀ operation ∈ [Operation.jettonTransfer, Operation.nftTransfer, Operation.jettonMint],
      tx.hasOperation operation = false) : tx.account = account ∨ tx.sender? = some account := by
  cases names with
  | account => exact .inl rfl
  | sender sent => exact .inr sent
  | destination decoded | newOwner decoded | minted decoded =>
    have has := hasOperation_of_decodeBody decoded
    rw [others _ (by simp)] at has
    cases has

/-- A jetton wallet is asked to burn by a message without a sender, and the notice of it arrives. -/
structure BurnsUnsent (tx notice : Transaction) : Prop where
  unsent : tx.sender? = none
  wallet : tx.implements .jettonWallet
  asks : ∃ body : Payload.JettonBurn, tx.decodeBody Operation.jettonBurn = .ok body
  notified : notice.hasOperation Operation.jettonBurnNotification
  confirmed : notice.success

end Transaction

namespace Flow

def Within (flow : Flow) (allowed : Address → Prop) : Prop :=
  ∀ account ∈ flow.accounts.keys, allowed account

variable {allowed : Address → Prop} {flow other : Flow}

theorem within_iff :
    flow.Within allowed ↔ ∀ account, flow.accounts.contains account → allowed account := by
  simp only [Within, AddressMap.mem_keys_iff]

theorem within_empty : empty.Within allowed := List.forall_mem_nil _

theorem Within.update (within : flow.Within allowed) {account : Address} (named : allowed account)
    (change : AccountFlow → AccountFlow) : (flow.update account change).Within allowed := by
  rw [within_iff] at within ⊢
  intro other listed
  rw [Flow.update, AddressMap.contains, AddressMap.find?_alter] at listed
  split at listed
  case isTrue same => exact same ▸ named
  case isFalse => exact within other listed

theorem Within.merge (within : flow.Within allowed) (also : other.Within allowed) :
    (flow.merge other).Within allowed := by
  rw [within_iff] at within also ⊢
  intro account listed
  rw [contains_merge, Bool.or_eq_true] at listed
  exact listed.elim (within account) (also account)

theorem Within.foldl_merge {flows : List Flow} (each : ∀ flow ∈ flows, flow.Within allowed) :
    (flows.foldl Flow.merge .empty).Within allowed :=
  List.foldlRecOn (motive := fun flow => flow.Within allowed) flows Flow.merge within_empty
    fun _ within _ member => within.merge (each _ member)

theorem within_flowOf {tx : Transaction} (named : ∀ account, tx.Names account → allowed account) :
    (Cluster.flowOf tx).Within allowed := by
  have account : allowed tx.account := named _ .account
  have paid := within_empty.update account
  unfold Cluster.flowOf
  split
  case h_1 => exact paid _
  case h_2 message found =>
    split
    case h_1 => exact (paid _).update account _
    case h_2 source sent =>
      have sender : tx.sender? = some source := by
        rw [Transaction.sender?, found, Option.bind_some, sent]
      exact ((paid _).update account _).update (named _ (.sender sender)) _

end Flow

/-- What holds of two raw transactions wherever one stands right above the other. -/
def Reading.EachRawPair (holds : Transaction → Transaction → Prop) (reading : Reading) : Prop :=
  ∀ node ∈ reading.subtrees, ∀ tx, node.value.event = .transaction tx →
    ∀ child ∈ node.children, ∀ below, child.value.event = .transaction below → holds tx below

namespace Reading

variable {holds : Transaction → Transaction → Prop} {inner reading next : Reading}

theorem EachRawPair.mono (each : reading.EachRawPair holds) (inside : inner ∈ reading.subtrees) :
    inner.EachRawPair holds := fun node below =>
  each node (Tree.mem_subtrees_trans below inside)

theorem eachRawPair_ofTrace (trace : Trace) : (ofTrace trace).EachRawPair fun tx below =>
    ∃ node ∈ trace.subtrees, ∃ child ∈ node.children, node.value = tx ∧ child.value = below := by
  intro node inside tx raw child member below set
  rw [ofTrace, Tree.subtrees_map] at inside
  obtain ⟨⟨value, children⟩, listed, rfl⟩ := List.mem_map.mp inside
  rw [Tree.map_node] at raw member
  obtain ⟨⟨other, grandchildren⟩, under, rfl⟩ := List.mem_map.mp member
  rw [Tree.map_node] at set
  cases raw
  cases set
  exact ⟨.node tx children, listed, .node below grandchildren, under, rfl, rfl⟩

end Reading

def Reading.EachBelowRaw (holds : Transaction → Event → Prop) (reading : Reading) : Prop :=
  ∀ node ∈ reading.subtrees, ∀ tx, node.value.event = .transaction tx →
    ∀ child ∈ node.children, holds tx child.value.event

theorem Reading.EachBelowRaw.mono {holds : Transaction → Event → Prop} {inner reading : Reading}
    (each : reading.EachBelowRaw holds) (inside : inner ∈ reading.subtrees) :
    inner.EachBelowRaw holds := fun node below => each node (Tree.mem_subtrees_trans below inside)

namespace Rule

variable {rule : Rule} {event : Event} {reading next : Reading}

theorem Makes.root_keeps {P : Event → Prop}
    (keeps : ∀ {target : Reading} (found : rule.Match target), P target.event → P found.event)
    (makes : rule.Makes event reading next) (holds : P reading.event) : P next.event := by
  cases makes with
  | here found _ => exact keeps found holds
  | inside => exact holds

/-- A raw transaction keeps the nodes right below it, so it is enough to keep what holds when one of
those is rewritten. -/
theorem Makes.eachBelowRaw (recognises : rule.Recognises) {holds : Transaction → Event → Prop}
    (keeps : ∀ tx {target : Reading} (found : rule.Match target),
      holds tx target.event → holds tx found.event)
    (makes : rule.Makes event reading next) (each : reading.EachBelowRaw holds) :
    next.EachBelowRaw holds := by
  induction makes with
  | @here target found same =>
    intro node inside tx raw
    rw [Match.next, Tree.subtrees_node] at inside
    rcases List.mem_cons.mp inside with rfl | inside
    · exact absurd raw (recognises found.output tx)
    · -- What stays below the new node stood below the old one, and keeps its children.
      obtain ⟨left, member, below⟩ := List.mem_flatMap.mp inside
      exact each node (Tree.mem_subtrees_trans below (Tree.mem_subtrees_of_mem_split _ _ member)) tx raw
  | @inside cluster before after child next makes ih =>
    have child_mem : child ∈ (Tree.node cluster (before ++ child :: after)).children :=
      List.mem_append_right _ List.mem_cons_self
    intro node inside tx raw
    rw [Tree.subtrees_node] at inside
    rcases List.mem_cons.mp inside with rfl | inside
    · have root := each _ (Tree.mem_subtrees_self _) tx raw
      intro other member
      rcases eq_or_mem_of_replaced member with rfl | member
      · exact makes.root_keeps (keeps tx) (root child child_mem)
      · exact root other member
    · obtain ⟨other, member, below⟩ := List.mem_flatMap.mp inside
      rcases eq_or_mem_of_replaced member with rfl | member
      · exact ih (each.mono (Tree.mem_subtrees_of_child child_mem)) node below tx raw
      · exact each.mono (Tree.mem_subtrees_of_child member) node below tx raw

theorem Makes.eachRawPair (recognises : rule.Recognises) {holds : Transaction → Transaction → Prop}
    (makes : rule.Makes event reading next) (each : reading.EachRawPair holds) :
    next.EachRawPair holds := by
  have kept : next.EachBelowRaw fun tx event => ∀ below, event = .transaction below → holds tx below :=
    makes.eachBelowRaw recognises
      (fun _ _ found _ below set => absurd set (recognises found.output below)) each
  exact kept

end Rule

/-- The accounts that the raw transactions name are allowed, and the zero account when one of them
is a burn without a sender. -/
structure Reading.Permits (reading : Reading) (allowed : Address → Prop) : Prop where
  names : reading.EachRaw fun tx => ∀ account, tx.Names account → allowed account
  unsent : reading.EachRawPair fun tx notice => tx.BurnsUnsent notice → allowed .zero

variable {allowed : Address → Prop}

theorem Reading.Permits.mono {inner reading : Reading} (permits : reading.Permits allowed)
    (inside : inner ∈ reading.subtrees) : inner.Permits allowed where
  names := permits.names.mono inside
  unsent := permits.unsent.mono inside

def Reading.PermitsRoot (reading : Reading) (allowed : Address → Prop) : Prop :=
  ∀ tx, reading.transaction = .ok tx → ∀ account, tx.Names account → allowed account

namespace Rule

variable {rule : Rule}

def StaysWithin (rule : Rule) (allowed : Address → Prop) : Prop :=
  ∀ {target : Reading} (found : rule.Match target), target.Permits allowed →
    ∀ {flow : Flow}, flow.Within allowed → (rule.pattern.settle found.output flow).Within allowed

theorem Match.permitsRoot {target : Reading} (found : rule.Match target)
    (permits : target.Permits allowed) {reading : Reading} (member : reading.value ∈ found.taken) :
    reading.PermitsRoot allowed := by
  intro tx read
  have inside := found.preorder_perm.mem_iff.mpr (List.mem_append_left _ member)
  exact permits.names _ inside tx (Reading.transaction_eq_ok_iff.mp read)

theorem Match.permitsRoot_self {target : Reading} (found : rule.Match target)
    (permits : target.Permits allowed) : target.PermitsRoot allowed := by
  obtain ⟨rest, same⟩ := found.taken_eq_cons
  exact found.permitsRoot permits (same ▸ List.mem_cons_self)

end Rule

namespace Catalog

structure Between (allowed : Address → Prop) (sender recipient : Option Address) : Prop where
  sender : ∀ account ∈ sender, allowed account
  recipient : ∀ account ∈ recipient, allowed account

theorem between_none : Between allowed none none where
  sender account known := (Option.not_mem_none account known).elim
  recipient account known := (Option.not_mem_none account known).elim

theorem Between.or {sender recipient : Option Address} (between : Between allowed sender recipient)
    {other : Option Address} (sent : ∀ account ∈ other, allowed account) {given : Address}
    (named : allowed given) : Between allowed other (recipient.or (some given)) where
  sender := sent
  recipient account known := by
    cases recipient with
    | none => exact Option.some.inj known ▸ named
    | some recipient => exact between.recipient account known

/-! ### Transfers -/

theorem within_settleJettonTransfer {transfer : Event.JettonTransfer} {flow : Flow}
    (between : Between allowed transfer.sender transfer.recipient) (within : flow.Within allowed) :
    (settleJettonTransfer transfer flow).Within allowed := by
  obtain ⟨sender, recipient, _, _, master, amount, _, success⟩ := transfer
  cases success with
  | false => exact within
  | true =>
    cases master with
    | none => exact within
    | some master =>
      have sent : (removeFrom sender master amount flow).Within allowed := by
        cases sender with
        | none => exact within
        | some sender => exact within.update (between.sender sender rfl) _
      cases recipient with
      | none => exact sent
      | some recipient => exact sent.update (between.recipient recipient rfl) _

theorem staysWithin_jettonTransfer : jettonTransfer.StaysWithin allowed := by
  intro target found permits flow within
  refine within_settleJettonTransfer (found.output_induct
    (P := fun transfer : Event.JettonTransfer => Between allowed transfer.sender transfer.recipient)
    between_none ?_) within
  refine List.forall_mem_cons.mpr ⟨?root, List.forall_mem_cons.mpr ⟨?arrival,
    List.forall_mem_cons.mpr ⟨?notice, List.forall_mem_singleton.mpr ?excess⟩⟩⟩
  -- The request names both parties, and the notification is for its own account.
  case root =>
    intro reading member inner outer between built
    obtain ⟨tx, read, built⟩ := bind_eq_ok_iff.mp built
    obtain ⟨body, decoded, built⟩ := bind_eq_ok_iff.mp built
    cases built
    have named := found.permitsRoot permits member tx read
    exact between.or (fun account known => named account (.sender known))
      (named _ (.destination decoded))
  case arrival =>
    intro reading _ inner outer between built
    obtain ⟨tx, _, built⟩ := bind_eq_ok_iff.mp built
    cases built
    exact between
  case notice =>
    intro reading member inner outer between built
    obtain ⟨tx, read, built⟩ := bind_eq_ok_iff.mp built
    obtain ⟨body, _, built⟩ := bind_eq_ok_iff.mp built
    cases built
    have named := found.permitsRoot permits member tx read
    exact ⟨between.sender, fun account known => Option.some.inj known ▸ named _ .account⟩
  case excess =>
    intro reading _ inner outer between built
    cases built
    exact between

theorem within_settleNftTransfer {transfer : Event.NftTransfer} {flow : Flow}
    (between : Between allowed transfer.sender transfer.recipient) (within : flow.Within allowed) :
    (settleNftTransfer transfer flow).Within allowed := by
  obtain ⟨sender, recipient, _, _, success⟩ := transfer
  cases success with
  | false => exact within
  | true =>
    rw [settleNftTransfer, if_pos rfl]
    cases sender with
    | none =>
      cases recipient with
      | none => exact within
      | some recipient => exact within.update (between.recipient recipient rfl) _
    | some sender =>
      have sent := within.update (between.sender sender rfl)
      cases recipient with
      | none => exact sent _
      | some recipient => exact (sent _).update (between.recipient recipient rfl) _

theorem staysWithin_nftTransfer : nftTransfer.StaysWithin allowed := by
  intro target found permits flow within
  refine within_settleNftTransfer (found.output_induct
    (P := fun transfer : Event.NftTransfer => Between allowed transfer.sender transfer.recipient)
    between_none ?_) within
  refine List.forall_mem_cons.mpr ⟨?root, List.forall_mem_cons.mpr ⟨?notice,
    List.forall_mem_singleton.mpr ?excess⟩⟩
  case root =>
    intro reading member inner outer between built
    obtain ⟨tx, read, built⟩ := bind_eq_ok_iff.mp built
    obtain ⟨body, decoded, built⟩ := bind_eq_ok_iff.mp built
    cases built
    have named := found.permitsRoot permits member tx read
    exact between.or (fun account known => named account (.sender known))
      (named _ (.newOwner decoded))
  case notice =>
    intro reading member inner outer between built
    obtain ⟨tx, read, built⟩ := bind_eq_ok_iff.mp built
    obtain ⟨body, _, built⟩ := bind_eq_ok_iff.mp built
    cases built
    have named := found.permitsRoot permits member tx read
    exact ⟨between.sender, fun account known => Option.some.inj known ▸ named _ .account⟩
  case excess =>
    intro reading _ inner outer between built
    cases built
    exact between

/-! ### Burns and stakes -/

theorem takeJettonBurn_sender {burn next : Outcome Detail.JettonBurn} {reading : Reading}
    (built : takeJettonBurn burn reading = .ok next) :
    ∃ tx, reading.transaction = .ok tx ∧
      (∃ body : Payload.JettonBurn, tx.decodeBody Operation.jettonBurn = .ok body) ∧
      next.detail.sender = tx.sender?.getD .zero ∧ next.success = burn.success := by
  obtain ⟨tx, read, built⟩ := bind_eq_ok_iff.mp built
  obtain ⟨body, decoded, built⟩ := bind_eq_ok_iff.mp built
  cases built
  exact ⟨tx, read, ⟨body, decoded⟩, rfl, rfl⟩

/-- A burn is charged to its sender. Without one it is charged to the zero account. -/
theorem staysWithin_jettonBurn : jettonBurn.StaysWithin allowed := by
  intro target found permits flow within
  change (settleJettonBurn found.output flow).Within allowed
  unfold settleJettonBurn
  split
  case h_2 => exact within
  case h_1 master success _ =>
    refine within.update ?_ _
    rcases found.exists_build_part rfl with
      ⟨_, built⟩ | ⟨_, child, first, _, admits, inner, next, noticed, built⟩
    · -- Nothing else says that a burn succeeded.
      obtain ⟨_, _, _, _, same⟩ := takeJettonBurn_sender built
      cases same.symm.trans success
    · obtain ⟨tx, read, asks, sender, same⟩ := takeJettonBurn_sender built
      rw [sender]
      cases sent : tx.sender? with
      | some account => exact found.permitsRoot_self permits tx read account (.sender sent)
      | none =>
        obtain ⟨notice, heard, noticed⟩ := bind_eq_ok_iff.mp noticed
        cases noticed
        have raw := Reading.transaction_eq_ok_iff.mp read
        have under := Reading.transaction_eq_ok_iff.mp heard
        have wallet := found.admits _ List.mem_cons_self
        have notified := admits _ List.mem_cons_self
        rw [Check.hasInterface, Check.onTransaction_of_event raw] at wallet
        rw [Check.hasOperation, Check.onTransaction_of_event under] at notified
        have listed := List.mem_of_getElem? first.here
        exact permits.unsent target (Tree.mem_subtrees_self target) tx raw child listed notice under
          ⟨sent, wallet, asks, notified, same.symm.trans success⟩

/-- Whenever a jetton was minted the mint says for whom, so the staker is never used. -/
theorem staysWithin_tonstakersDeposit : tonstakersDeposit.StaysWithin allowed := by
  intro target found permits flow within
  change (settleLiquidStake found.output flow).Within allowed
  unfold settleLiquidStake
  split
  case h_2 => exact within
  case h_1 master minted =>
    refine within.update ?_ _
    rcases found.exists_build_part rfl with
      ⟨_, built⟩ | ⟨_, child, _, member, _, inner, next, named, built⟩
    · obtain ⟨tx, _, built⟩ := bind_eq_ok_iff.mp built
      rw [← Except.ok.inj built] at minted
      cases minted
    · obtain ⟨tx, read, named⟩ := bind_eq_ok_iff.mp named
      obtain ⟨body, decoded, named⟩ := bind_eq_ok_iff.mp named
      cases named
      obtain ⟨_, _, built⟩ := bind_eq_ok_iff.mp built
      rw [← Except.ok.inj built]
      exact found.permitsRoot permits member tx read _ (.minted decoded)

theorem staysWithin (groups : PatternGroups) : ∀ rule ∈ rules groups, rule.StaysWithin allowed := by
  apply forall_rules
  case jettonTransfer => exact staysWithin_jettonTransfer
  case nftTransfer => exact staysWithin_nftTransfer
  case jettonBurn => exact staysWithin_jettonBurn
  case tonstakersDeposit => exact staysWithin_tonstakersDeposit
  -- The other rules settle nothing.
  all_goals exact fun _ _ _ within => within

end Catalog

structure Reading.Contained (reading : Reading) (allowed : Address → Prop) : Prop
    extends reading.Permits allowed where
  within : ∀ cluster ∈ reading.preorder, cluster.flow.Within allowed

theorem Rule.Step.contained {rule : Rule} (recognises : rule.Recognises) (atRoot : rule.SettlesAtRoot)
    (stays : rule.StaysWithin allowed) {reading next : Reading} (step : rule.Step reading next)
    (contained : reading.Contained allowed) : next.Contained allowed := by
  obtain ⟨event, makes⟩ := step.makes
  refine ⟨⟨step.eachRaw recognises contained.names, makes.eachRawPair recognises contained.unsent⟩, ?_⟩
  obtain ⟨target, inside, found, kept, _, beforePerm, afterPerm⟩ := makes.exists_match
  have within : ∀ cluster ∈ found.taken ++ kept, cluster.flow.Within allowed := fun cluster member =>
    contained.within cluster (beforePerm.mem_iff.mpr member)
  intro cluster member
  rcases List.mem_cons.mp (afterPerm.mem_iff.mp member) with rfl | member
  · rw [atRoot.flow_made found]
    refine stays found (contained.toPermits.mono inside) (Flow.Within.foldl_merge ?_)
    refine List.forall_mem_map.mpr fun cluster member => ?_
    exact within cluster (List.mem_append_left _ member)
  · exact within cluster (List.mem_append_right _ member)

theorem Reading.Contained.rewriteAll {reading : Reading} (contained : reading.Contained allowed)
    (groups : PatternGroups) (limit : Nat) :
    Contained (rewriteAll (Catalog.rules groups) limit reading).1 allowed :=
  rewriteAll_keeps (fun rule member _ _ step => step.contained (Catalog.recognises groups rule member)
    (Catalog.settlesAtRoot groups rule member) (Catalog.staysWithin groups rule member)) limit contained

theorem Report.within_collect (keep : Action → Bool) {reading : Reading}
    (within : ∀ cluster ∈ reading.preorder, cluster.flow.Within allowed) :
    (collect keep reading).flow.Within allowed := by
  induction reading using Tree.induct with
  | node cluster children ih =>
    rw [Tree.preorder_node, List.forall_mem_cons] at within
    rw [flow_collect]
    refine Flow.Within.foldl_merge (List.forall_mem_append.mpr
      ⟨List.forall_mem_map.mpr fun child member => ?_, List.forall_mem_singleton.mpr within.1⟩)
    exact ih child member fun inner inside => within.2 inner (List.mem_flatMap_of_mem member inside)

namespace Trace

variable {trace : Trace}

theorem contained_ofTrace
    (names : ∀ tx ∈ trace.preorder, ∀ account, tx.Names account → allowed account)
    (unsent : ∀ node ∈ trace.subtrees, ∀ child ∈ node.children,
      node.value.BurnsUnsent child.value → allowed .zero) :
    (Reading.ofTrace trace).Contained allowed where
  names cluster member tx raw := names tx (Reading.eachRaw_ofTrace trace cluster member tx raw)
  unsent node inside tx raw child member below set := by
    obtain ⟨node, inside, child, member, rfl, rfl⟩ :=
      Reading.eachRawPair_ofTrace trace node inside tx raw child member below set
    exact unsent node inside child member
  within := by
    rw [Reading.preorder_ofTrace]
    exact List.forall_mem_map.mpr fun tx member => Flow.within_flowOf (names tx member)

theorem Sound.eq_of_unsent {limit depth : Nat} (sound : Sound limit depth trace) {node : Trace}
    (inside : node ∈ trace.subtrees) (unsent : node.value.sender? = none) : node = trace := by
  rcases Tree.eq_or_mem_children_of_mem_subtrees inside with same | ⟨parent, above, child⟩
  · exact same
  · have sent := (sound.linked parent above node child).sender?_eq
    rw [unsent] at sent
    cases sent

/-- Whatever the configuration and the limit, the ledger of a valid trace only lists accounts that a
transaction of the trace names, unless the root is a confirmed burn that nobody sent. The ledger
then may list the zero account too. -/
theorem accounts_named {depth : Nat} (valid : trace.validate depth = .ok ()) (groups : PatternGroups)
    (limit : Nat) (subject : Option Address) :
    ∀ account ∈ (Report.ofTrace (Catalog.rules groups) limit subject trace).flow.accounts.keys,
      (∃ tx ∈ trace.preorder, tx.Names account) ∨
        account = .zero ∧ ∃ notice ∈ trace.children, trace.value.BurnsUnsent notice.value := by
  have sound := (sound_of_validate valid).1
  refine Report.within_collect _ (Reading.Contained.rewriteAll ?_ groups limit).within
  refine contained_ofTrace (fun tx member account named => .inl ⟨tx, member, named⟩) ?_
  intro node inside notice member burns
  cases sound.eq_of_unsent inside burns.unsent
  exact .inr ⟨rfl, notice, member, burns⟩

/-- A wallet burns five units of a jetton, as this account asks, or as a message from outside asks.
The jetton's contract confirms it. -/
def burned (sender : Option Address) : Trace :=
  .node {
      hash := ⟨1⟩
      account := ⟨0, ⟨1⟩⟩
      interfaces := [.jettonWallet]
      success := true
      inMessage := some {
        source := sender
        external := sender.isNone
        body := some { operation := Operation.jettonBurn, value := .object [("amount", .integer 5)] } } } [
    .leaf {
      hash := ⟨2⟩
      account := ⟨0, ⟨3⟩⟩
      success := true
      inMessage := some {
        source := some ⟨0, ⟨1⟩⟩
        body := some { operation := Operation.jettonBurnNotification, value := .null } } }]

theorem accounts_named_sent :
    let trace := burned (some ⟨0, ⟨2⟩⟩)
    let accounts := (Report.ofTrace (Catalog.rules {}) 1000 none trace).flow.accounts.keys
    trace.validate 10 = .ok () ∧ accounts = [⟨0, ⟨1⟩⟩, ⟨0, ⟨2⟩⟩, ⟨0, ⟨3⟩⟩] ∧
      ∀ account ∈ accounts, ∃ tx ∈ trace.preorder, tx.Names account := by
  intro trace accounts
  have valid : trace.validate 10 = .ok () := by rfl
  refine ⟨valid, by decide +kernel, fun account listed => ?_⟩
  rcases accounts_named valid {} 1000 none account listed with named | ⟨_, _, _, burns⟩
  · exact named
  · cases burns.unsent

/-- Nobody names the zero account, and the burn is charged to it. -/
theorem accounts_named_unsent :
    (burned none).validate 10 = .ok () ∧
    .zero ∈ (Report.ofTrace (Catalog.rules {}) 1000 none (burned none)).flow.accounts.keys ∧
    ∀ tx ∈ (burned none).preorder, ¬tx.Names .zero := by
  refine ⟨rfl, by decide +kernel, fun tx member names => ?_⟩
  have others : ∀ tx ∈ (burned none).preorder, ∀ operation ∈
      [Operation.jettonTransfer, Operation.nftTransfer, Operation.jettonMint],
      tx.hasOperation operation = false := by decide
  have apart : ∀ tx ∈ (burned none).preorder, tx.account ≠ .zero ∧ tx.sender? ≠ some .zero := by
    decide
  rcases names.of_other (others tx member) with same | same
  · exact (apart tx member).1 same
  · exact (apart tx member).2 same

end Trace

end TonTrace
