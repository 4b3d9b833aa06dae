import TonTrace.Proofs.Json
import TonTrace.Proofs.Text
import TonTrace.Proofs.Tree
import TonTrace.Trace.Codec

/-! A trace is read back from its JSON form. -/

set_option autoImplicit false

namespace TonTrace

open Json

def Transaction.bodies (tx : Transaction) : List Body :=
  (tx.inMessage.toList ++ tx.outMessages).filterMap (·.body)

section

variable {f : Json → Option Json} (order : Reorders f)
include order

theorem Hash.reads (hash : Hash) : Reads f ofJson? hash.toJson hash := by
  simp [Reads, toJson, order.string, ofJson?]

theorem Address.reads (address : Address) : Reads f ofJson? address.toJson address := by
  simp [Reads, toJson, order.string, ofJson?, Except.toOption]

theorem Json.Reorders.reads_bytes (bytes : List UInt8) : Reads f bytes? (ofBytes bytes) bytes := by
  simp [Reads, ofBytes, order.string, bytes?]

theorem Interface.reads (interface : Interface) : Reads f ofJson? interface.toJson interface := by
  rw [Reads, toJson, order.string]
  cases interface <;> rfl

theorem AccountStatus.reads (status : AccountStatus) : Reads f ofJson? status.toJson status := by
  rw [Reads, toJson, order.string]
  cases status <;> rfl

theorem Fees.reads (fees : Fees) : Reads f ofJson? fees.toJson fees := by
  have compute := order.reads_ranged fees.compute
  have storage := order.reads_ranged fees.storage
  have deposit := order.reads_ranged fees.deposit
  apply order.reads_record
  · simp
  · simp [compute.isSome, storage.isSome, deposit.isSome]
  · simp [lookup_cons, compute.defaulted, storage.defaulted, deposit.defaulted]

theorem Address.reads_option (address : Option Address) :
    Reads f (fun json => optional ofJson? (some json)) (ofOption toJson address) address :=
  order.reads_option address rfl fun _ _ => reads order _

theorem SaleInfo.reads (sale : SaleInfo) : Reads f ofJson? sale.toJson sale := by
  have nft := sale.nft.reads order
  have owner := Address.reads_option order sale.owner
  have marketplace := sale.marketplace.reads order
  have price := order.reads_ranged sale.price
  apply order.reads_record
  · simp
  · simp [nft.isSome, owner.isSome, marketplace.isSome, price.isSome]
  · simp [lookup_cons, nft.required, owner.optional, marketplace.required, price.required]

theorem AccountInfo.reads (info : AccountInfo) : Reads f ofJson? info.toJson info := by
  have master := Address.reads_option order info.jettonMaster
  have sale := order.reads_option info.sale rfl fun _ _ => SaleInfo.reads order _
  apply order.reads_record
  · simp
  · simp [master.isSome, sale.isSome]
  · simp [lookup_cons, master.optional, sale.optional]

theorem Body.reads (body : Body) (kept : f body.value = some body.value) :
    Reads f ofJson? body.toJson body := by
  have operation := order.reads_string body.operation
  apply order.reads_record
  · simp
  · simp [operation.isSome, kept]
  · simp [lookup_cons, operation.required, kept]

theorem Message.reads (message : Message)
    (kept : ∀ body ∈ message.body, f body.value = some body.value) :
    Reads f ofJson? message.toJson message := by
  have source := Address.reads_option order message.source
  have destination := Address.reads_option order message.destination
  have value := order.reads_ranged message.value
  have bounce := order.reads_bool message.bounce
  have bounced := order.reads_bool message.bounced
  have external := order.reads_bool message.external
  have opCode := order.reads_option message.opCode rfl fun _ _ => order.reads_ranged _
  have body := order.reads_option message.body rfl fun body here => Body.reads order body (kept body here)
  have init := order.reads_bytes message.init
  apply order.reads_record
  · simp
  · simp [source.isSome, destination.isSome, value.isSome, bounce.isSome, bounced.isSome,
      external.isSome, opCode.isSome, body.isSome, init.isSome]
  · simp [lookup_cons, source.optional, destination.optional, value.defaulted, bounce.defaulted,
      bounced.defaulted, external.defaulted, opCode.optional, body.optional, init.defaulted]

theorem Transaction.reads (tx : Transaction)
    (kept : ∀ body ∈ tx.bodies, f body.value = some body.value) :
    Reads f ofJson? tx.toJson tx := by
  -- Bodies are values of their own: what is read of them is assumed, and all else is proved.
  have message (message : Message) (inside : message ∈ tx.inMessage.toList ++ tx.outMessages) :
      Reads f Message.ofJson? message.toJson message :=
    message.reads order fun body here => kept body (List.mem_filterMap.mpr ⟨message, inside, here⟩)
  have hash := tx.hash.reads order
  have logicalTime := order.reads_ranged tx.logicalTime
  have time := order.reads_ranged tx.time
  have account := tx.account.reads order
  have interfaces := order.reads_list fun interface (_ : interface ∈ tx.interfaces) =>
    interface.reads order
  have success := order.reads_bool tx.success
  have before := tx.statusBefore.reads order
  have after := tx.statusAfter.reads order
  have inMessage := order.reads_option tx.inMessage rfl fun incoming here =>
    message incoming (List.mem_append_left _ (Option.mem_toList.mpr here))
  have outMessages := order.reads_list fun outgoing here =>
    message outgoing (List.mem_append_right _ here)
  have fees := tx.fees.reads order
  have info := order.reads_option tx.info rfl fun _ _ => AccountInfo.reads order _
  apply order.reads_record
  · simp
  · simp [hash.isSome, logicalTime.isSome, time.isSome, account.isSome, interfaces.isSome,
      success.isSome, before.isSome, after.isSome, inMessage.isSome, outMessages.isSome, fees.isSome,
      info.isSome]
  · simp [lookup_cons, hash.required, logicalTime.defaulted, time.defaulted, account.required,
      interfaces.defaulted, success.required, before.defaulted, after.defaulted, inMessage.optional,
      outMessages.defaulted, fees.defaulted, info.optional]

end

namespace Trace

variable {f : Json → Option Json}

theorem toJsonAll_eq_map (traces : List Trace) : toJsonAll traces = traces.map toJson := by
  induction traces with
  | nil => rfl
  | cons trace rest ih => rw [toJsonAll, ih, List.map_cons]

theorem ofJsonAll?_eq_mapM (items : List Json) : ofJsonAll? items = items.mapM ofJson? := by
  induction items with
  | nil => rfl
  | cons item rest ih => simp [ofJsonAll?, ih]

theorem children?_eq_list? : children? = list? ofJson? := by
  funext json
  cases json <;> simp [children?, list?, ofJsonAll?_eq_mapM]

theorem childrenMember?_eq_defaulted (members : List (String × Json)) :
    childrenMember? members = defaulted [] (list? ofJson?) (members.lookup "children") := by
  induction members with
  | nil => rfl
  | cons member rest ih =>
    obtain ⟨name, value⟩ := member
    rw [childrenMember?, lookup_cons, ih, children?_eq_list?]
    by_cases here : name = "children"
    · simp [here, defaulted]
    · simp [here, Ne.symm here]

theorem secondItem?_eq_defaulted (items : List Json) :
    secondItem? items =
      defaulted [] (list? ofJson?) ((["transaction", "children"].zip items).lookup "children") := by
  rcases items with _ | ⟨first, _ | ⟨second, rest⟩⟩
  · rfl
  · rfl
  · simp [secondItem?, firstItem?, lookup_cons, defaulted, children?_eq_list?]

/-- A trace is read like any other record; its children are a field with a default. -/
theorem ofJson?_eq_record : ofJson? = fun json =>
    (json.record? ["transaction", "children"]).bind fun field =>
      (required Transaction.ofJson? (field "transaction")).bind fun tx =>
        (defaulted [] (list? ofJson?) (field "children")).bind fun children =>
          some (.node tx children) := by
  funext json
  cases json with
  | object members =>
    by_cases once : namesOnce ["transaction", "children"] members = true
    · simp [ofJson?, record?, once, childrenMember?_eq_defaulted]
    · simp [ofJson?, record?, once]
  | array items =>
    by_cases fits : items.length ≤ 2
    · simp [ofJson?, record?, fits, secondItem?_eq_defaulted]
    · simp [ofJson?, record?, fits]
  | _ => simp [ofJson?, record?]

def bodies (trace : Trace) : List Body := trace.preorder.flatMap Transaction.bodies

theorem bodies_node (tx : Transaction) (children : List Trace) :
    bodies (.node tx children) = tx.bodies ++ children.flatMap bodies := by
  rw [bodies, Tree.preorder_node, List.flatMap_cons, List.flatMap_assoc]
  rfl

theorem reads (order : Reorders f) (trace : Trace)
    (kept : ∀ body ∈ trace.bodies, f body.value = some body.value) :
    Reads f ofJson? trace.toJson trace := by
  induction trace using Tree.induct with
  | node tx children ih =>
    rw [bodies_node, List.forall_mem_append] at kept
    have transaction := tx.reads order kept.1
    have below : ∀ child ∈ children, Reads f ofJson? (toJson child) child := fun child member =>
      ih child member fun body inside => kept.2 body (List.mem_flatMap_of_mem member inside)
    have list := order.reads_list below
    rw [toJson, toJsonAll_eq_map, ofJson?_eq_record]
    apply order.reads_record
    · simp
    · simp [transaction.isSome, list.isSome]
    · simp [lookup_cons, transaction.required, list.defaulted]

/-- A trace is read back from the JSON value that it is written as, and from that value with the
members of every object sorted, as long as the bodies, which are JSON values of their own, are. -/
theorem reads_back (trace : Trace) :
    ofJson? trace.toJson = some trace ∧
      ((∀ body ∈ trace.bodies, body.value.canonical? = some body.value) →
        ∃ sorted, trace.toJson.canonical? = some sorted ∧ ofJson? sorted = some trace) := by
  constructor
  · exact trace.reads reorders_some fun _ _ => rfl
  · intro kept
    exact Option.bind_eq_some_iff.mp (trace.reads reorders_canonical kept)

def offered : Trace :=
  .node {
    hash := ⟨1⟩
    account := ⟨⟨-1, by decide, by decide⟩, ⟨2⟩⟩
    interfaces := [.nftSale, .walletV4]
    success := true
    statusAfter := .active
    inMessage := some {
      source := some ⟨0, ⟨3⟩⟩
      value := ⟨5, by decide, by decide⟩
      opCode := some 0
      body := some ⟨"NftTransfer", .object [("amount", .integer 7), ("new_owner", .null)]⟩
      init := [0, 120] }
    info := some {
      jettonMaster := some ⟨0, ⟨4⟩⟩
      sale := some ⟨⟨0, ⟨5⟩⟩, none, ⟨0, ⟨6⟩⟩, 0⟩ } }
    [.leaf { hash := ⟨7⟩, account := ⟨0, ⟨8⟩⟩, success := false }]

theorem reads_back_offered :
    (∀ body ∈ offered.bodies, body.value.canonical? = some body.value) ∧
      ∃ sorted, offered.toJson.canonical? = some sorted ∧ ofJson? sorted = some offered := by
  have inOrder : ¬"new_owner" < "amount" := by decide
  have sorted : ∀ body ∈ offered.bodies, body.value.canonical? = some body.value := by
    simp [offered, bodies_node, Tree.leaf, Transaction.bodies, canonical?, canonicalMembers?,
      sortMembers, insertMember, inOrder]
  exact ⟨sorted, (reads_back offered).2 sorted⟩

end Trace

end TonTrace
