import TonTrace.Catalog.Transfer

/-! Domains, subscriptions, invoices and gas relays. -/

set_option autoImplicit false

namespace TonTrace.Catalog

open Check

def asksForRenewal (tx : Transaction) : Bool :=
  let body : Except Error Payload.ChangeDnsRecord := tx.decodeBody Operation.changeDnsRecord
  match body with
  | .ok record => record.isRenewal
  | .error _ => false

def domainRenewal : Rule where
  Output := Outcome Detail.DomainRenewal
  initial := { detail := {} }
  event := .domainRenewal
  pattern := {
    name := "dns_renew"
    checks := [hasInterface .dnsItem, hasOperation Operation.changeDnsRecord,
      onTransaction asksForRenewal]
    build := fun renewal reading => do
      let tx ← reading.transaction
      return { renewal with
        detail.renewer := tx.sender?.getD default
        detail.item := tx.account
        success := tx.success } }

/-- A plugin charges a wallet, is paid, and passes the payment on. The wallet
itself deploys the plugin for the first charge. -/
def subscription : Rule where
  Output := Outcome Detail.Subscription
  initial := { detail := {} }
  event := .subscription
  pattern := {
    name := "subscription"
    checks := [hasInterface .subscriptionV1]
    build := fun charge reading => do
      let tx ← reading.transaction
      return { charge with detail.subscription := tx.account, detail.initial := tx.hasInit }
    parts := [{
      name := "subscription_payment_request"
      checks := [hasOperation Operation.paymentRequest]
      build := fun charge reading => do
        let tx ← reading.transaction
        return { charge with detail.subscriber := tx.account }
      parts := [{
        name := "subscription_payment"
        checks := [hasOperation Operation.paymentRequestResponse]
        build := fun charge reading => do
          let tx ← reading.transaction
          return { charge with detail.amount := tx.value, success := tx.success }
        parts := [{
          name := "subscription_beneficiary"
          checks := [hasOperation Operation.subscriptionPayment]
          build := fun charge reading => do
            let tx ← reading.transaction
            return { charge with detail.beneficiary := tx.account }
          optional := true }] }] }] }

def unsubscription : Rule where
  Output := Outcome Detail.Unsubscription
  initial := { detail := {} }
  event := .unsubscription
  pattern := {
    name := "unsubscribe"
    checks := [hasOperation Operation.walletPluginDestruct]
    build := fun cancellation reading => do
      let tx ← reading.transaction
      return { cancellation with
        detail.subscriber := tx.sender?.getD default
        detail.subscription := tx.account
        success := tx.success }
    parts := [{
      name := "unsubscribe_response"
      checks := [hasOperation Operation.walletPluginDestructResponse]
      optional := true }] }

/-- An invoice paid in TON. A message that cannot bounce pays in any case. -/
def tonInvoice : Rule where
  Output := Outcome Detail.InvoicePayment
  initial := { detail := {} }
  event := .invoicePayment
  pattern := {
    name := "invoice_ton"
    checks := [isInternal, hasOperation Operation.invoicePayload]
    build := fun payment reading => do
      let tx ← reading.transaction
      let invoice : Payload.Invoice ← tx.decodeBody Operation.invoicePayload
      return { payment with
        detail.sender := tx.sender?.getD default
        detail.recipient := tx.account
        detail.invoiceId := invoice.id
        detail.jetton := none
        detail.amount := tx.value.toAmount
        success := tx.success || !tx.bounce } }

def jettonInvoice : Rule where
  Output := Outcome Detail.InvoicePayment
  initial := { detail := {} }
  event := .invoicePayment
  pattern := {
    name := "invoice_jetton"
    checks := [forwardsPayload Operation.invoicePayload]
    build := fun payment reading => do
      let transfer ← reading.jettonTransfer
      match transfer.payload with
      | none => .error .noInvoicePayload
      | some body =>
        let invoice : Payload.Invoice ← body.decode
        return { payment with
          detail.sender := transfer.sender.getD default
          detail.recipient := transfer.recipient.getD default
          detail.invoiceId := invoice.id
          detail.jetton := transfer.master
          detail.amount := transfer.amount
          success := transfer.success } }

/-- A signed message that somebody else delivers to a wallet and pays the gas
for. What the wallet then does is not part of the relay. -/
def gasRelay : Rule where
  Output := Outcome Detail.GasRelay
  initial := { detail := {} }
  event := .gasRelay
  pattern := {
    name := "gas_relay"
    checks := [isInternal, hasOperation Operation.walletSignedInternal]
    build := fun relay reading => do
      let tx ← reading.transaction
      return { relay with
        detail.relayer := tx.sender?.getD default
        detail.target := tx.account
        detail.amount := tx.value
        success := tx.success } }

end TonTrace.Catalog
