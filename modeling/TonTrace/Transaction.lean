import TonTrace.Body

/-! Decoded transactions. -/

set_option autoImplicit false

namespace TonTrace

inductive Interface where
  | wallet
  | walletV4
  | walletV5
  | jettonWallet
  | jettonMaster
  | nftItem
  | nftCollection
  | nftSale
  | teleitem
  | dnsItem
  | stonfiPool
  | stonfiRouter
  | stonfiLpAccount
  | dedustVault
  | dedustPool
  | tonstakersPool
  | tfNominator
  | whalesNominators
  | elector
  | subscriptionV1
  deriving DecidableEq

inductive AccountStatus where
  | nonexist
  | uninit
  | active
  | frozen
  deriving DecidableEq, Inhabited

structure Message where
  /-- Absent for a message from outside the chain. -/
  source : Option Address := none
  destination : Option Address := none
  value : Nanotons := 0
  bounce : Bool := false
  bounced : Bool := false
  external : Bool := false
  opCode : Option Word32 := none
  body : Option Body := none
  /-- The code and data of a contract to deploy. -/
  init : List UInt8 := []

namespace Message

def hasInit (message : Message) : Bool := !message.init.isEmpty

def operation? (message : Message) : Option String := message.body.map (·.operation)

end Message

structure Fees where
  compute : Nanotons := 0
  storage : Nanotons := 0
  deposit : Nanotons := 0

namespace Fees

/-- The sum of the fees, clamped after each addition. -/
def total (fees : Fees) : Nanotons :=
  (fees.compute.saturatingAdd fees.storage).saturatingAdd fees.deposit

/-- The sum of the fees; absent when one is negative or the sum is too large. -/
def checkedTotal? (fees : Fees) : Option Nanotons :=
  if fees.compute.val < 0 ∨ fees.storage.val < 0 ∨ fees.deposit.val < 0 then none
  else (fees.compute.add? fees.storage).bind (·.add? fees.deposit)

end Fees

structure SaleInfo where
  nft : Address
  owner : Option Address
  marketplace : Address
  price : Nanotons

structure AccountInfo where
  jettonMaster : Option Address := none
  sale : Option SaleInfo := none

structure Transaction where
  hash : Hash
  logicalTime : Word64 := 0
  time : UnixTime := 0
  account : Address
  interfaces : List Interface := []
  success : Bool
  statusBefore : AccountStatus := .nonexist
  statusAfter : AccountStatus := .nonexist
  inMessage : Option Message := none
  outMessages : List Message := []
  fees : Fees := {}
  info : Option AccountInfo := none

namespace Transaction

def value (tx : Transaction) : Nanotons := (tx.inMessage.map (·.value)).getD 0

def sender? (tx : Transaction) : Option Address := tx.inMessage.bind (·.source)

def external (tx : Transaction) : Bool := tx.inMessage.any (·.external)

def bounce (tx : Transaction) : Bool := tx.inMessage.any (·.bounce)

def bounced (tx : Transaction) : Bool := tx.inMessage.any (·.bounced)

def hasInit (tx : Transaction) : Bool := tx.inMessage.any (·.hasInit)

def opCode? (tx : Transaction) : Option Word32 := tx.inMessage.bind (·.opCode)

def body? (tx : Transaction) : Option Body := tx.inMessage.bind (·.body)

def wasActive (tx : Transaction) : Bool := tx.statusBefore = .active

def implements (tx : Transaction) (interface : Interface) : Bool := interface ∈ tx.interfaces

def jettonMaster? (tx : Transaction) : Option Address := tx.info.bind (·.jettonMaster)

def sale? (tx : Transaction) : Option SaleInfo := tx.info.bind (·.sale)

def hasOperation (tx : Transaction) (operation : String) : Bool :=
  tx.body?.any fun body => body.operation = operation

def comment? (tx : Transaction) : Option String := tx.body?.bind (·.comment?)

/-- No operation code, or the code zero that marks a plain transfer. -/
def isPlain (tx : Transaction) : Bool := tx.opCode?.all fun code => code.val = 0

def decodeBody {α : Type} [Payload α] (tx : Transaction) (operation : String) : Except Error α :=
  match tx.body? with
  | none => .error (.noBody tx.hash)
  | some body =>
    if body.operation = operation then body.decode
    else .error (.otherBody operation body.operation)

/-- A nonzero operation code, sent to a contract that was active and is not a
plain wallet. An encrypted comment is not a call. -/
def isContractCall (tx : Transaction) : Bool :=
  !tx.isPlain && !tx.hasOperation Operation.encryptedTextComment && tx.wasActive &&
    !tx.implements .wallet

/-- The incoming message brings code, and it makes the account active. -/
def isDeployment (tx : Transaction) : Bool :=
  tx.hasInit && tx.statusBefore ≠ .active &&
    tx.statusAfter = .active

end Transaction

end TonTrace
