import TonTrace.Pattern.Check
import TonTrace.Payload
import TonTrace.Rewriting

/-! Transfers and burns of jettons, and transfers of NFTs.

A jetton moves from the sender's jetton wallet to the recipient's, which may
notify the new owner. What the recipient's side reports goes before what the
sender's message asks for.
-/

set_option autoImplicit false

namespace TonTrace.Catalog

open Check

/-- Gas that is sent back at the end, when there is any. -/
def excess {Output : Type} : Pattern Output where
  name := "excess"
  checks := [isTransaction, hasOperation Operation.excess]
  optional := true

def takeJettonTransfer (transfer : Event.JettonTransfer) (reading : Reading) :
    Except Error Event.JettonTransfer := do
  let tx ← reading.transaction
  let body : Payload.JettonTransfer ← tx.decodeBody Operation.jettonTransfer
  return { transfer with
    sender := tx.sender?
    sendersWallet := tx.account
    amount := body.amount
    recipient := transfer.recipient.or (some body.destination)
    payload := transfer.payload.or body.forwardPayload
    master := transfer.master.or tx.jettonMaster? }

def takeJettonArrival (transfer : Event.JettonTransfer) (reading : Reading) :
    Except Error Event.JettonTransfer := do
  let tx ← reading.transaction
  return { transfer with
    recipientsWallet := tx.account
    success := tx.success
    master := tx.jettonMaster? }

def takeJettonNotice (transfer : Event.JettonTransfer) (reading : Reading) :
    Except Error Event.JettonTransfer := do
  let tx ← reading.transaction
  let body : Payload.JettonNotify ← tx.decodeBody Operation.jettonNotify
  return { transfer with
    recipient := some tx.account
    payload := body.forwardPayload }

def settleJettonTransfer (transfer : Event.JettonTransfer) (flow : Flow) : Flow :=
  match transfer.success, transfer.master with
  | true, some master =>
    let sent := match transfer.sender with
      | some sender => flow.removeJettons sender master transfer.amount
      | none => flow
    match transfer.recipient with
    | some recipient => sent.addJettons recipient master transfer.amount
    | none => sent
  | _, _ => flow

/-- A transfer that reached the recipient's jetton wallet. -/
def jettonTransfer : Rule where
  Output := Event.JettonTransfer
  initial := {}
  event := .jettonTransfer
  pattern := {
    name := "jetton_transfer"
    checks := [hasInterface .jettonWallet, hasOperation Operation.jettonTransfer]
    build := takeJettonTransfer
    settle := settleJettonTransfer
    parts := [{
      name := "jetton_internal_transfer"
      checks := [hasOperation Operation.jettonInternalTransfer]
      build := takeJettonArrival
      parts := [{
          name := "jetton_notify"
          checks := [hasOperation Operation.jettonNotify]
          build := takeJettonNotice
          optional := true },
        excess] }] }

/-- A transfer that stopped before the recipient's jetton wallet. It stays
unsuccessful, and no jetton moves. -/
def abortedJettonTransfer : Rule where
  Output := Event.JettonTransfer
  initial := {}
  event := .jettonTransfer
  pattern := {
    name := "jetton_transfer_minimal"
    checks := [hasInterface .jettonWallet, hasOperation Operation.jettonTransfer]
    build := takeJettonTransfer }

def takeJettonBurn (burn : Outcome Detail.JettonBurn) (reading : Reading) :
    Except Error (Outcome Detail.JettonBurn) := do
  let tx ← reading.transaction
  let body : Payload.JettonBurn ← tx.decodeBody Operation.jettonBurn
  return { burn with
    detail.sender := tx.sender?.getD default
    detail.sendersWallet := tx.account
    detail.amount := body.amount
    detail.jetton := burn.detail.jetton.or tx.jettonMaster? }

/-- The master contract confirms a burn, and names the jetton. -/
def takeBurnNotice (burn : Outcome Detail.JettonBurn) (reading : Reading) :
    Except Error (Outcome Detail.JettonBurn) := do
  let tx ← reading.transaction
  return { burn with success := tx.success, detail.jetton := some tx.account }

def settleJettonBurn (burn : Outcome Detail.JettonBurn) (flow : Flow) : Flow :=
  match burn.success, burn.detail.jetton with
  | true, some master => flow.removeJettons burn.detail.sender master burn.detail.amount
  | _, _ => flow

def jettonBurn : Rule where
  Output := Outcome Detail.JettonBurn
  initial := { detail := {} }
  event := .jettonBurn
  pattern := {
    name := "jetton_burn"
    checks := [hasInterface .jettonWallet, hasOperation Operation.jettonBurn]
    build := takeJettonBurn
    settle := settleJettonBurn
    parts := [{
      name := "jetton_burn_notification"
      checks := [hasOperation Operation.jettonBurnNotification]
      build := takeBurnNotice
      parts := [excess]
      optional := true }] }

/-- Fragment items and `.ton` domains are NFT items too. -/
def isNftItem (reading : Reading) : Bool :=
  [Interface.nftItem, .teleitem, .dnsItem].any fun interface => hasInterface interface reading

def takeNftTransfer (transfer : Event.NftTransfer) (reading : Reading) :
    Except Error Event.NftTransfer := do
  let tx ← reading.transaction
  let body : Payload.NftTransfer ← tx.decodeBody Operation.nftTransfer
  return { transfer with
    sender := tx.sender?
    item := tx.account
    success := tx.success
    recipient := transfer.recipient.or (some body.newOwner)
    payload := transfer.payload.or body.forwardPayload }

def takeOwnershipNotice (transfer : Event.NftTransfer) (reading : Reading) :
    Except Error Event.NftTransfer := do
  let tx ← reading.transaction
  let body : Payload.NftOwnershipAssigned ← tx.decodeBody Operation.nftOwnershipAssigned
  return { transfer with
    recipient := some tx.account
    payload := body.forwardPayload }

def settleNftTransfer (transfer : Event.NftTransfer) (flow : Flow) : Flow :=
  if transfer.success then
    let sent := match transfer.sender with
      | some sender => flow.removeNft sender
      | none => flow
    match transfer.recipient with
    | some recipient => sent.addNft recipient
    | none => sent
  else flow

def nftTransfer : Rule where
  Output := Event.NftTransfer
  initial := {}
  event := .nftTransfer
  pattern := {
    name := "nft_transfer"
    checks := [isNftItem, hasOperation Operation.nftTransfer]
    build := takeNftTransfer
    settle := settleNftTransfer
    parts := [{
        name := "nft_ownership_assigned"
        checks := [hasOperation Operation.nftOwnershipAssigned]
        build := takeOwnershipNotice
        optional := true },
      excess] }

end TonTrace.Catalog
