import TonTrace.Pattern

/-! Conditions on a node. All but the last three ask for a raw transaction. -/

set_option autoImplicit false

namespace TonTrace.Check

def onTransaction (holds : Transaction → Bool) (reading : Reading) : Bool :=
  reading.transaction?.any holds

def isTransaction : Reading → Bool := onTransaction fun _ => true

def isExternal : Reading → Bool := onTransaction (·.external)

def isInternal : Reading → Bool := onTransaction fun tx => !tx.external

def isBounced : Reading → Bool := onTransaction (·.bounced)

def isSuccess : Reading → Bool := onTransaction (·.success)

def hasEmptyBody : Reading → Bool := onTransaction fun tx => tx.opCode?.isNone && tx.body?.isNone

def isPlain : Reading → Bool := onTransaction (·.isPlain)

def hasOperation (operation : String) : Reading → Bool := onTransaction (·.hasOperation operation)

def hasOpCode (code : Word32) : Reading → Bool := onTransaction fun tx => tx.opCode? = some code

def hasInterface (interface : Interface) : Reading → Bool := onTransaction (·.implements interface)

def amountAtLeast (least : Nanotons) : Reading → Bool :=
  onTransaction fun tx => least.val ≤ tx.value.val

def amountInRange (least most : Nanotons) : Reading → Bool :=
  onTransaction fun tx => least.val ≤ tx.value.val && tx.value.val ≤ most.val

def hasTextComment (text : String) : Reading → Bool := onTransaction fun tx => tx.comment? = some text

def isJettonTransfer (reading : Reading) : Bool :=
  match reading.event with
  | .jettonTransfer _ => true
  | _ => false

def isNftTransfer (reading : Reading) : Bool :=
  match reading.event with
  | .nftTransfer _ => true
  | _ => false

def forwardsPayload (operation : String) (reading : Reading) : Bool :=
  match reading.event with
  | .jettonTransfer transfer => transfer.payload.any fun body => body.operation = operation
  | _ => false

def either (first second : Reading → Bool) (reading : Reading) : Bool := first reading || second reading

end TonTrace.Check
