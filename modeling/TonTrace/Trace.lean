import TonTrace.Transaction
import TonTrace.Tree

/-! Traces: the tree of transactions that one message sets off.

`Trace.validate` accepts a trace whose children were each triggered by an
internal message from their parent's account, and whose amounts are neither
negative nor too large to be added up.
-/

set_option autoImplicit false

namespace TonTrace

abbrev Trace := Tree Transaction

namespace Trace

/-- Add the amounts of a transaction to the volume so far. Its value counts
twice, as a debit and as a credit. -/
def addVolume (volume : Nanotons) (tx : Transaction) : Except Error Nanotons :=
  match tx.fees.checkedTotal? with
  | none => .error (.badFees tx.hash)
  | some fees =>
    if tx.value.val < 0 then .error (.negativeValue tx.hash)
    else
      match ((volume.add? tx.value).bind (·.add? tx.value)).bind (·.add? fees) with
      | none => .error (.volumeTooLarge tx.hash)
      | some volume => .ok volume

def checkLink (parent : Address) (child : Transaction) : Except Error Unit :=
  match child.inMessage with
  | none => .error (.noMessage child.hash)
  | some message =>
    if message.external then .error (.externalMessage child.hash)
    else if message.source ≠ some parent then .error (.otherSender child.hash parent)
    else .ok ()

mutual

/-- Check the nodes in pre-order, adding to the volume; the first fault is reported. -/
def validateFrom (limit depth : Nat) (volume : Nanotons) : Trace → Except Error Nanotons
  | .node tx children =>
    if depth > limit then .error (.tooDeep limit)
    else do validateAll limit (depth + 1) tx.account (← addVolume volume tx) children

def validateAll (limit depth : Nat) (parent : Address) (volume : Nanotons) :
    List Trace → Except Error Nanotons
  | [] => .ok volume
  | child :: rest => do
    checkLink parent child.value
    validateAll limit depth parent (← validateFrom limit depth volume child) rest

end

def validate (limit : Nat) (trace : Trace) : Except Error Unit :=
  (validateFrom limit 0 0 trace).map fun _ => ()

end Trace

end TonTrace
