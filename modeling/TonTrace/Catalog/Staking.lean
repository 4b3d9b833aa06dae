import TonTrace.Catalog.Transfer

/-! Staking with nominator pools and liquid pools, and deposits with the elector. -/

set_option autoImplicit false

namespace TonTrace.Catalog

open Check

def takeStake (implementation : Detail.StakingPool) (deposit : Event.StakeDeposit)
    (reading : Reading) : Except Error Event.StakeDeposit := do
  let tx ← reading.transaction
  return { deposit with
    detail.staker := tx.sender?.getD default
    detail.pool := tx.account
    detail.amount := tx.value
    detail.implementation := implementation
    success := tx.success }

def whalesDeposit : Rule where
  Output := Event.StakeDeposit
  initial := { detail := {} }
  event := .stakeDeposit
  pattern := {
    name := "whales_deposit"
    checks := [hasInterface .whalesNominators, hasOperation Operation.whalesNominatorsDeposit]
    build := takeStake .whales }

/-- A pool with enough liquidity returns the stake at once. -/
def whalesWithdrawal : Rule where
  Output := Outcome Detail.StakeWithdrawal
  initial := { detail := {} }
  event := .stakeWithdrawal
  pattern := {
    name := "whales_withdraw_immediately"
    checks := [hasInterface .whalesNominators, hasOperation Operation.whalesNominatorsWithdraw]
    build := fun withdrawal reading => do
      let tx ← reading.transaction
      return { withdrawal with
        detail.staker := tx.sender?.getD default
        detail.pool := tx.account
        detail.implementation := .whales }
    parts := [{
      name := "whales_withdraw_payout"
      checks := [hasOperation Operation.whalesNominatorsWithdrawResponse]
      build := fun withdrawal reading => do
        let tx ← reading.transaction
        return { withdrawal with detail.amount := tx.value, success := tx.success } }] }

/-- A request that waits for the end of the validation cycle. -/
def whalesWithdrawalRequest : Rule where
  Output := Outcome Detail.WithdrawalRequest
  initial := { detail := {} }
  event := .withdrawalRequest
  pattern := {
    name := "whales_withdraw_request"
    checks := [hasInterface .whalesNominators, hasOperation Operation.whalesNominatorsWithdraw]
    build := fun request reading => do
      let tx ← reading.transaction
      let body : Payload.WhalesWithdraw ← tx.decodeBody Operation.whalesNominatorsWithdraw
      return { request with
        detail.staker := tx.sender?.getD default
        detail.pool := tx.account
        detail.amount := if body.stake = 0 then none else some body.stake
        detail.implementation := .whales
        success := tx.success }
    parts := [{
      name := "whales_withdraw_ack"
      checks := [isTransaction, isPlain]
      optional := true }] }

def tfDeposit : Rule where
  Output := Event.StakeDeposit
  initial := { detail := {} }
  event := .stakeDeposit
  pattern := {
    name := "tf_deposit"
    checks := [hasInterface .tfNominator, hasTextComment "d"]
    build := takeStake .tf }

def tfWithdrawalRequest : Rule where
  Output := Outcome Detail.WithdrawalRequest
  initial := { detail := {} }
  event := .withdrawalRequest
  pattern := {
    name := "tf_withdraw_request"
    checks := [hasInterface .tfNominator, hasTextComment "w"]
    build := fun request reading => do
      let tx ← reading.transaction
      return { request with
        detail.staker := tx.sender?.getD default
        detail.pool := tx.account
        detail.amount := none
        detail.implementation := .tf
        success := tx.success } }

/-- A liquid jetton that was minted goes to the owner named by the mint. -/
def settleLiquidStake (deposit : Event.StakeDeposit) (flow : Flow) : Flow :=
  match deposit.liquidJetton with
  | some master =>
    flow.addJettons (deposit.liquidOwner.getD deposit.detail.staker) master deposit.liquidAmount
  | none => flow

def tonstakersDeposit : Rule where
  Output := Event.StakeDeposit
  initial := { detail := {} }
  event := .stakeDeposit
  pattern := {
    name := "tonstakers_deposit"
    checks := [hasInterface .tonstakersPool, hasOperation Operation.tonstakersPoolDeposit]
    build := takeStake .liquidTf
    settle := settleLiquidStake
    parts := [{
      name := "tonstakers_mint"
      checks := [hasOperation Operation.jettonMint]
      build := fun deposit reading => do
        let tx ← reading.transaction
        let body : Payload.JettonMint ← tx.decodeBody Operation.jettonMint
        return { deposit with liquidOwner := some body.toAddress }
      parts := [{
        name := "tonstakers_mint_transfer"
        checks := [hasOperation Operation.jettonInternalTransfer]
        build := fun deposit reading => do
          let tx ← reading.transaction
          let body : Payload.JettonInternalTransfer ←
            tx.decodeBody Operation.jettonInternalTransfer
          return if tx.success then
            { deposit with liquidJetton := tx.jettonMaster?, liquidAmount := body.amount }
          else deposit
        optional := true }]
      optional := true }] }

def electionDeposit : Rule where
  Output := Outcome Detail.ElectionDeposit
  initial := { detail := {} }
  event := .electionDeposit
  pattern := {
    name := "elections_deposit"
    checks := [hasInterface .elector, hasOperation Operation.electorNewStake]
    build := fun deposit reading => do
      let tx ← reading.transaction
      return { deposit with
        detail.staker := tx.sender?.getD default
        detail.elector := tx.account
        detail.amount := tx.value
        success := tx.success }
    parts := [{
      name := "elections_deposit_confirmation"
      checks := [hasOperation Operation.electorNewStakeConfirmation]
      optional := true }] }

/-- The elector's answer carries the stake and decides the outcome. -/
def electionRecovery : Rule where
  Output := Outcome Detail.ElectionRecovery
  initial := { detail := {} }
  event := .electionRecovery
  pattern := {
    name := "elections_recover"
    checks := [hasInterface .elector, hasOperation Operation.electorRecoverStakeRequest]
    build := fun recovery reading => do
      let tx ← reading.transaction
      return { recovery with
        detail.staker := tx.sender?.getD default
        detail.elector := tx.account }
    parts := [{
      name := "elections_recover_response"
      checks := [hasOperation Operation.electorRecoverStakeResponse]
      build := fun recovery reading => do
        let tx ← reading.transaction
        return { recovery with detail.amount := tx.value, success := tx.success } }] }

end TonTrace.Catalog
