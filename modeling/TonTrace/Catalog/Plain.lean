import TonTrace.Pattern.Check
import TonTrace.Rewriting

/-! What is left: calls of contracts and transfers of TON. -/

set_option autoImplicit false

namespace TonTrace.Catalog

open Check

def contractCall : Rule where
  Output := Outcome Detail.ContractCall
  initial := { detail := {} }
  event := .contractCall
  pattern := {
    name := "contract_call"
    checks := [onTransaction fun tx => !tx.external && tx.isContractCall]
    build := fun _ reading => do
      let tx ← reading.transaction
      return tx.asCall }

def tonTransfer : Rule where
  Output := Outcome Detail.TonTransfer
  initial := { detail := {} }
  event := .tonTransfer
  pattern := {
    name := "ton_transfer"
    checks := [isInternal]
    build := fun _ reading => do
      let tx ← reading.transaction
      return tx.asTransfer }

end TonTrace.Catalog
