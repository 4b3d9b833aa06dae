import TonTrace.Proofs.Named
import TonTrace.Proofs.NftCounts

/-! Purchases of NFTs. The sale contract has to hand some item over itself, and
what is bought is the item of the first transfer below the payment. The two are
one transfer where every request for one below a sale contract comes from the
contract, as in every valid trace. Otherwise an item that somebody else sent may
be taken for the one that was bought. -/

set_option autoImplicit false

namespace TonTrace

/-- Of the nodes right below this transaction, what moves an NFT was sent by its account. -/
def Transaction.Sends (tx : Transaction) : Event → Prop
  | .transaction below => below.hasOperation Operation.nftTransfer → below.sender? = some tx.account
  | .nftTransfer transfer => transfer.sender = some tx.account
  | _ => True

def Event.Delivers : Event → Prop
  | .nftTransfer transfer => transfer.recipient.isSome
  | _ => True

/-- Every request for the transfer of an NFT right below a sale contract comes from the contract. -/
def Trace.SalesSend (trace : Trace) : Prop :=
  ∀ node ∈ trace.subtrees, node.value.implements .nftSale → ∀ child ∈ node.children,
    child.value.hasOperation Operation.nftTransfer → child.value.sender? = some node.value.account

theorem Trace.salesSend_of_validate {trace : Trace} {limit : Nat} (valid : trace.validate limit = .ok ()) :
    trace.SalesSend := fun node inside _ child member _ =>
  ((sound_of_validate valid).1.linked node inside child member).sender?_eq

namespace Catalog

variable {groups : PatternGroups}

theorem sends_of_nftTransfer {target : Reading} (found : nftTransfer.Match target) :
    found.event.Delivers ∧ ∀ tx : Transaction, tx.Sends target.event → tx.Sends found.event := by
  obtain ⟨inner, built⟩ := found.exists_build_root
  obtain ⟨request, raw, asks, sender, recipient⟩ := takeNftTransfer_eq_ok built
  refine ⟨recipient, fun tx sends => ?_⟩
  rw [raw] at sends
  exact sender.trans (sends asks)

theorem sends_event (groups : PatternGroups) : ∀ rule ∈ rules groups, ∀ {target : Reading}
    (found : rule.Match target),
    found.event.Delivers ∧ ∀ tx : Transaction, tx.Sends target.event → tx.Sends found.event := by
  apply forall_rules
  case nftTransfer => exact sends_of_nftTransfer
  all_goals exact fun _ => ⟨trivial, fun _ _ => trivial⟩

theorem eachBelowRaw_of_reaches {start reading : Reading} {holds : Transaction → Event → Prop}
    (keeps : ∀ rule ∈ rules groups, ∀ tx {target : Reading} (found : rule.Match target),
      holds tx target.event → holds tx found.event)
    (reached : Reaches (rules groups) start reading) (each : start.EachBelowRaw holds) :
    reading.EachBelowRaw holds := by
  induction reached with
  | start => exact each
  | @step rule _ _ member _ step ih =>
    obtain ⟨event, makes⟩ := step.makes
    exact makes.eachBelowRaw (recognises groups rule member) (keeps rule member) ih

theorem delivers_of_reaches {start reading : Reading} (reached : Reaches (rules groups) start reading)
    (each : start.EachBelowRaw fun _ event => event.Delivers) :
    reading.EachBelowRaw fun _ event => event.Delivers :=
  eachBelowRaw_of_reaches (fun rule member _ _ found _ => (sends_event groups rule member found).1)
    reached each

theorem sends_of_reaches {start reading : Reading} (reached : Reaches (rules groups) start reading)
    (each : start.EachBelowRaw fun tx event => tx.implements .nftSale → tx.Sends event) :
    reading.EachBelowRaw fun tx event => tx.implements .nftSale → tx.Sends event :=
  eachBelowRaw_of_reaches
    (fun rule member tx _ found sends sale => (sends_event groups rule member found).2 tx (sends sale))
    reached each

end Catalog

theorem Reading.eachBelowRaw_ofTrace {holds : Transaction → Event → Prop} {trace : Trace}
    (each : ∀ node ∈ trace.subtrees, ∀ child ∈ node.children,
      holds node.value (.transaction child.value)) : (ofTrace trace).EachBelowRaw holds := by
  intro node inside tx raw child member
  rw [ofTrace, Tree.subtrees_map] at inside
  obtain ⟨⟨value, children⟩, listed, rfl⟩ := List.mem_map.mp inside
  rw [Tree.map_node] at raw member
  obtain ⟨⟨other, grandchildren⟩, under, rfl⟩ := List.mem_map.mp member
  cases raw
  exact each _ listed _ under

namespace Catalog

/-- The contract hands over some item, and the first one that is transferred below the payment is taken. -/
theorem exists_nftPurchase {target : Reading} (found : nftPurchase.Match target) :
    ∃ (tx : Transaction) (child : Reading) (transfer : Event.NftTransfer)
      (purchase : Outcome Detail.NftPurchase),
      target.event = .transaction tx ∧ tx.implements .nftSale ∧
      target.children.find? Check.isNftTransfer = some child ∧ child.event = .nftTransfer transfer ∧
      (∃ other ∈ target.children, handsOver tx.account other) ∧ found.event = .nftPurchase purchase ∧
      purchase.detail.saleContract = tx.account ∧ purchase.detail.nft = transfer.item ∧
      purchase.success = transfer.success ∧ ∀ owner, transfer.recipient = some owner →
        purchase.detail.buyer = if owner.isZero then tx.sender?.getD default else owner := by
  obtain ⟨sale, raw, implements⟩ := Check.exists_transaction (found.admits _ List.mem_cons_self)
  rcases found.exists_build_part rfl with ⟨spare, _⟩ | ⟨place, child, first, _, _, inner, item, taken, built⟩
  · cases spare
  obtain ⟨transfer, event, taken⟩ := takePurchasedItem_eq_ok taken
  obtain ⟨tx, offer, paid, _, handed, made⟩ := takePurchase_eq_ok built
  cases raw.symm.trans paid
  have earliest := first.find?_eq (Pattern.matches_iff_check rfl (List.forall_mem_nil _))
  refine ⟨sale, child, transfer, found.output, raw, implements, earliest, event, handed, rfl, ?_⟩
  rw [made, taken]
  refine ⟨rfl, rfl, rfl, fun owner known => ?_⟩
  rw [known]
  rfl

/-- A purchase takes its item, buyer and outcome from the first transfer of an NFT below the payment,
and the payer is the buyer of what goes to the zero address. The contract sent some item itself, and
it sent this one where it sends every item whose transfer is asked for below it. -/
theorem purchase_takes_first {groups : PatternGroups} {trace : Trace} {reading target next : Reading}
    (reached : Reaches (rules groups) (.ofTrace trace) reading) (inside : target ∈ reading.subtrees)
    (merged : nftPurchase.rewrite? target = some next) :
    ∃ (tx : Transaction) (child : Reading) (transfer : Event.NftTransfer) (owner : Address)
      (purchase : Outcome Detail.NftPurchase),
      target.event = .transaction tx ∧ next.event = .nftPurchase purchase ∧
      purchase.detail.saleContract = tx.account ∧
      target.children.find? Check.isNftTransfer = some child ∧ child.event = .nftTransfer transfer ∧
      transfer.recipient = some owner ∧ purchase.detail.nft = transfer.item ∧
      purchase.detail.buyer = (if owner.isZero then tx.sender?.getD default else owner) ∧
      purchase.success = transfer.success ∧
      (∃ other ∈ target.children, handsOver tx.account other) ∧
      (trace.SalesSend → transfer.sender = some tx.account) := by
  obtain ⟨found, rfl⟩ := Rule.exists_match_of_rewrite? merged
  obtain ⟨tx, child, transfer, purchase, raw, sale, first, event, handed, made, contract, item, success,
    buyer⟩ := exists_nftPurchase found
  have member := List.mem_of_find?_eq_some first
  have delivers := delivers_of_reaches reached (Reading.eachBelowRaw_ofTrace fun _ _ _ _ => trivial)
    target inside tx raw child member
  rw [show child.value.event = .nftTransfer transfer from event] at delivers
  obtain ⟨owner, known⟩ := Option.isSome_iff_exists.mp delivers
  refine ⟨tx, child, transfer, owner, purchase, raw, made, contract, first, event, known, item,
    buyer owner known, success, handed, fun sells => ?_⟩
  have start : (Reading.ofTrace trace).EachBelowRaw fun tx event =>
      tx.implements .nftSale → tx.Sends event :=
    Reading.eachBelowRaw_ofTrace fun node inside child member sale => sells node inside sale child member
  have sends := sends_of_reaches reached start target inside tx raw child member sale
  rw [show child.value.event = .nftTransfer transfer from event] at sends
  exact sends

def transferred (trace : Trace) : Reading := (rewriteAll [nftTransfer] 10 (.ofTrace trace)).1

theorem purchase_takes_first_sold :
    ∃ (next child : Reading) (transfer : Event.NftTransfer) (purchase : Outcome Detail.NftPurchase),
      nftPurchase.rewrite? (transferred Trace.sold) = some next ∧ next.event = .nftPurchase purchase ∧
      child ∈ (transferred Trace.sold).children ∧ child.event = .nftTransfer transfer ∧
      transfer.sender = some ⟨0, ⟨1⟩⟩ ∧ purchase.detail.nft = transfer.item := by
  have merges : (nftPurchase.rewrite? (transferred Trace.sold)).isSome := by decide +kernel
  have sells : Trace.sold.SalesSend := by
    have sent : ∀ node ∈ Trace.sold.subtrees, ∀ child ∈ node.children,
        child.value.sender? = some node.value.account := by
      decide +kernel
    exact fun node inside _ child member _ => sent node inside child member
  have account : (transferred Trace.sold).transaction?.map (·.account) = some ⟨0, ⟨1⟩⟩ := by decide +kernel
  have reached : Reaches (rules {}) (.ofTrace Trace.sold) (transferred Trace.sold) := by
    refine rewriteAll_keeps (fun rule member _ _ step reached => ?_) 10 .start
    exact .step (by simp_all [rules, group]) reached step
  obtain ⟨next, merged⟩ := Option.isSome_iff_exists.mp merges
  obtain ⟨tx, child, transfer, owner, purchase, raw, made, _, first, event, _, item, _, _, _, sent⟩ :=
    purchase_takes_first reached (Tree.mem_subtrees_self _) merged
  have contract : tx.account = ⟨0, ⟨1⟩⟩ := by
    rw [Reading.transaction?, raw] at account
    exact Option.some.inj account
  exact ⟨next, child, transfer, purchase, merged, made, List.mem_of_find?_eq_some first, event,
    contract ▸ sent sells, item⟩

/-- The same sale, below which somebody else moves another item first. -/
def strayed : Trace :=
  .node Trace.sold.value (.leaf {
    hash := ⟨3⟩
    account := ⟨0, ⟨5⟩⟩
    interfaces := [.nftItem]
    success := true
    inMessage := some {
      source := some ⟨0, ⟨6⟩⟩
      body := some {
        operation := Operation.nftTransfer
        value := .object [("new_owner", .string (Address.text ⟨0, ⟨7⟩⟩))] } } } :: Trace.sold.children)

def transfersBelow (reading : Reading) : List (Address × Option Address × Option Address) :=
  reading.children.filterMap fun child => match Reading.event child with
    | .nftTransfer transfer => some (transfer.item, transfer.sender, transfer.recipient)
    | _ => none

def bought? (reading : Reading) : Option (Address × Address) :=
  match reading.event with
  | .nftPurchase purchase => some (purchase.detail.nft, purchase.detail.buyer)
  | _ => none

/-- The contract, account 1, sends item 3 to the payer. What is told as bought is item 5, which account 6
sent to account 7. -/
theorem purchase_takes_first_strayed :
    transfersBelow (transferred strayed) =
      [(⟨0, ⟨5⟩⟩, some ⟨0, ⟨6⟩⟩, some ⟨0, ⟨7⟩⟩), (⟨0, ⟨3⟩⟩, some ⟨0, ⟨1⟩⟩, some ⟨0, ⟨2⟩⟩)] ∧
    (nftPurchase.rewrite? (transferred strayed)).bind bought? = some (⟨0, ⟨5⟩⟩, ⟨0, ⟨7⟩⟩) := by
  decide +kernel

end Catalog

end TonTrace
