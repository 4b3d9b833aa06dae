import TonTrace.Event
import TonTrace.Flow
import TonTrace.Trace

/-! Readings: a trace with an event for each cluster of its transactions.

At first every transaction is a cluster of its own. Clusters are joined when a
pattern reads them as one event.
-/

set_option autoImplicit false

namespace TonTrace

/-- Transactions that are read as one event, with all they account for. -/
structure Cluster where
  event : Event
  accounts : AddressSet
  flow : Flow
  deployments : AddressMap (Outcome Detail.Deployment)
  /-- The hashes of the transactions, in the order in which they joined. -/
  transactions : List Hash

namespace Cluster

def flowOf (tx : Transaction) : Flow :=
  let paid := Flow.empty.addFee tx.account tx.fees.total
  match tx.inMessage with
  | none => paid
  | some message =>
    let received := paid.addTon tx.account message.value
    match message.source with
    | none => received
    | some source => received.addTon source message.value.saturatingNeg

def deploymentOf (tx : Transaction) : Outcome Detail.Deployment where
  success := tx.success
  detail := { address := tx.account, interfaces := tx.interfaces }

def ofTransaction (tx : Transaction) : Cluster where
  event := .transaction tx
  accounts := .single tx.account ()
  flow := flowOf tx
  deployments := if tx.isDeployment then .single tx.account (deploymentOf tx) else .empty
  transactions := [tx.hash]

/-- Several clusters as one event. Later deployments of an account replace earlier ones. -/
def join (event : Event) (clusters : List Cluster) : Cluster where
  event := event
  accounts := clusters.foldl (fun accounts c => accounts.union c.accounts) .empty
  flow := clusters.foldl (fun flow c => flow.merge c.flow) .empty
  deployments := clusters.foldl (fun deployments c => deployments.overlay c.deployments) .empty
  transactions := clusters.flatMap (·.transactions)

/-- The actions of a cluster: its deployments in address order, then its own event. -/
def actions (cluster : Cluster) : List Action :=
  cluster.deployments.values.map (fun d => ⟨d.success, .deployment d.detail⟩) ++
    cluster.event.action?.toList

end Cluster

/-- A tree of clusters; a child was set off by its parent. -/
abbrev Reading := Tree Cluster

namespace Reading

def ofTrace (trace : Trace) : Reading := trace.map Cluster.ofTransaction

def event (reading : Reading) : Event := reading.value.event

def transaction? (reading : Reading) : Option Transaction :=
  match reading.event with
  | .transaction tx => some tx
  | _ => none

def transaction (reading : Reading) : Except Error Transaction :=
  match reading.event with
  | .transaction tx => .ok tx
  | other => .error (.otherEvent .transaction other.kind)

def jettonTransfer (reading : Reading) : Except Error Event.JettonTransfer :=
  match reading.event with
  | .jettonTransfer transfer => .ok transfer
  | other => .error (.otherEvent .jettonTransfer other.kind)

def nftTransfer (reading : Reading) : Except Error Event.NftTransfer :=
  match reading.event with
  | .nftTransfer transfer => .ok transfer
  | other => .error (.otherEvent .nftTransfer other.kind)

end Reading

end TonTrace
