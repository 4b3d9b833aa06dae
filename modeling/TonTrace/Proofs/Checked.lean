import Mathlib.Algebra.Order.BigOperators.Group.Finset
import TonTrace.Action.Summary
import TonTrace.Proofs.Journal
import TonTrace.Proofs.Validation

/-! Plain arithmetic, checked. Sums in TON and in jettons clamp, so they cannot
leave their types. What is plain in a ledger is the opposite of a jetton credit
and the counts of NFTs, and what is plain in a text is the places of a TON
amount. Here each such operation is refused when its exact result does not fit
its type. Nothing else is changed, so the checked functions agree with the
others wherever none is refused. Counters only grow: a step is refused exactly
when they do not fit after it, and so is a loop. -/

set_option autoImplicit false

namespace TonTrace

inductive ArithmeticFault where
  | outOfRange (result : Int)
  | divisionByZero

abbrev Checked := Except ArithmeticFault

namespace Checked

def maxInt64 : Nat := 0x7fffffffffffffff

def maxWord64 : Nat := 0xffffffffffffffff

def maxWord128 : Nat := 0xffffffffffffffffffffffffffffffff

/-- The number, which has to be one of a type with this maximum. -/
def upTo (most n : Nat) : Checked Nat := if n ≤ most then .ok n else .error (.outOfRange n)

theorem upTo_eq_ok {most n : Nat} (small : n ≤ most) : upTo most n = .ok n := if_pos small

theorem upTo_eq_ok_iff {most n m : Nat} : upTo most n = .ok m ↔ n ≤ most ∧ m = n := by
  unfold upTo
  split
  case isTrue small => simp [small, eq_comm]
  case isFalse large => simp [large]

def neg {lo hi : Int} (x : Ranged lo hi) : Checked (Ranged lo hi) :=
  match Ranged.ofInt? (-x.val) with
  | some opposite => .ok opposite
  | none => .error (.outOfRange (-x.val))

/-- The least balance change has no opposite. -/
example : neg (⟨-0x80000000000000000000000000000000, by decide, by decide⟩ : JettonDelta) =
    .error (.outOfRange 0x80000000000000000000000000000000) := rfl

def divMod (n divisor : Nat) : Checked (Nat × Nat) :=
  if divisor = 0 then .error .divisionByZero else .ok (n / divisor, n % divisor)

theorem mapM_eq_ok {α β : Type} {each : α → Checked β} {plain : α → β}
    (succeeds : ∀ item, each item = .ok (plain item)) (items : List α) :
    items.mapM each = .ok (items.map plain) := by
  rw [funext succeeds]
  exact List.mapM_pure

/-- From a state with the property, the step succeeds exactly when the plain step keeps the property,
and then it does the same. No plain step restores the property. -/
structure Guards {β : Type} (P : β → Prop) (step : β → Checked β) (plain : β → β) : Prop where
  eq_ok_iff {state next : β} : P state → (step state = .ok next ↔ P (plain state) ∧ next = plain state)
  of_plain {state : β} : P (plain state) → P state

namespace Guards

variable {α β : Type} {P : β → Prop}

theorem eq_ok {step : β → Checked β} {plain : β → β} (guards : Guards P step plain) {state : β}
    (holds : P (plain state)) : step state = .ok (plain state) :=
  (guards.eq_ok_iff (guards.of_plain holds)).mpr ⟨holds, rfl⟩

theorem of_ok {plain : β → β} (keeps : ∀ state, P (plain state) ↔ P state) :
    Guards P (fun state => .ok (plain state)) plain where
  eq_ok_iff := by
    intro state next ready
    rw [Except.ok.injEq, eq_comm]
    exact (and_iff_right ((keeps state).mpr ready)).symm
  of_plain holds := (keeps _).mp holds

theorem andThen {step further : β → Checked β} {plain after : β → β} (first : Guards P step plain)
    (rest : Guards P further after) :
    Guards P (fun state => step state >>= further) (fun state => after (plain state)) where
  eq_ok_iff := by
    intro state next ready
    rw [bind_eq_ok_iff]
    constructor
    · rintro ⟨middle, here, there⟩
      obtain ⟨holds, rfl⟩ := (first.eq_ok_iff ready).mp here
      exact (rest.eq_ok_iff holds).mp there
    · rintro ⟨holds, rfl⟩
      have between := rest.of_plain holds
      exact ⟨_, (first.eq_ok_iff ready).mpr ⟨between, rfl⟩, (rest.eq_ok_iff between).mpr ⟨holds, rfl⟩⟩
  of_plain holds := first.of_plain (rest.of_plain holds)

theorem foldlM {step : β → α → Checked β} {plain : β → α → β}
    (each : ∀ item, Guards P (step · item) (plain · item)) (items : List α) :
    Guards P (fun state => items.foldlM step state) (fun state => items.foldl plain state) := by
  induction items with
  | nil => exact of_ok fun _ => Iff.rfl
  | cons item rest ih =>
    simp only [List.foldlM_cons, List.foldl_cons]
    exact (each item).andThen ih

end Guards

end Checked

open Checked

namespace Amount

def tonTextChecked (value : Nanotons) : Checked String := do
  let size ← upTo maxWord64 value.val.natAbs
  let scale ← upTo maxWord128 (Nat.pow 10 9)
  let (whole, rest) ← divMod size scale
  let places := Decimal.fraction 9 rest
  return (if value.val < 0 then "-" else "") ++ String.ofList
    (if places.isEmpty then Decimal.digits whole else Decimal.digits whole ++ '.' :: places)

/-- The size of the least amount still fits an unsigned word. -/
theorem tonTextChecked_eq_ok (value : Nanotons) : tonTextChecked value = .ok (tonText value) := by
  have low := value.lo_le
  have high := value.le_hi
  have fits : value.val.natAbs ≤ maxWord64 := by
    simp only [maxWord64]
    omega
  rw [tonTextChecked, upTo_eq_ok fits]
  rfl

end Amount

def Detail.tonAmounts : Detail → List Nanotons
  | .tonTransfer d => [d.amount]
  | .nftPurchase d => [d.price]
  | .contractCall d => [d.attached]
  | .subscription d => [d.amount]
  | .stakeDeposit d => [d.amount]
  | .stakeWithdrawal d => [d.amount]
  | .withdrawalRequest d => d.amount.toList
  | .electionDeposit d => [d.amount]
  | .electionRecovery d => [d.amount]
  | .auctionBid d => [d.amount]
  | .gasRelay d => [d.amount]
  | _ => []

def Action.summaryChecked (action : Action) : Checked String := do
  let _ ← action.detail.tonAmounts.mapM Amount.tonTextChecked
  return action.summary

theorem Action.summaryChecked_eq_ok (action : Action) : action.summaryChecked = .ok action.summary := by
  rw [summaryChecked, mapM_eq_ok Amount.tonTextChecked_eq_ok]
  rfl

def AccountFlow.mergeChecked (flow other : AccountFlow) : Checked AccountFlow := do
  let added ← upTo maxInt64 (flow.nfts.added + other.nfts.added)
  let removed ← upTo maxInt64 (flow.nfts.removed + other.nfts.removed)
  return { flow.merge other with nfts := ⟨added, removed⟩ }

namespace AccountFlow

def CountsFit (entry : AccountFlow) : Prop := ∀ side, entry.nfts.on side ≤ maxInt64

theorem countsFit_iff {entry : AccountFlow} :
    entry.CountsFit ↔ entry.nfts.added ≤ maxInt64 ∧ entry.nfts.removed ≤ maxInt64 := by
  constructor
  · intro fits
    exact ⟨fits .received, fits .sent⟩
  · rintro ⟨added, removed⟩ (_ | _)
    · exact added
    · exact removed

theorem mergeChecked_eq_ok_iff {entry other merged : AccountFlow} :
    entry.mergeChecked other = .ok merged ↔
      (entry.merge other).CountsFit ∧ merged = entry.merge other := by
  rw [countsFit_iff, mergeChecked]
  simp only [bind_eq_ok_iff, upTo_eq_ok_iff]
  constructor
  · rintro ⟨_, ⟨added, rfl⟩, _, ⟨removed, rfl⟩, same⟩
    cases same
    exact ⟨⟨added, removed⟩, rfl⟩
  · rintro ⟨⟨added, removed⟩, rfl⟩
    exact ⟨_, ⟨added, rfl⟩, _, ⟨removed, rfl⟩, rfl⟩

theorem CountsFit.of_merge {entry other : AccountFlow} (fits : (entry.merge other).CountsFit) :
    entry.CountsFit ∧ other.CountsFit := by
  rw [countsFit_iff] at fits ⊢
  rw [countsFit_iff]
  simp only [merge] at fits
  omega

theorem guards_merge (other : AccountFlow) :
    Guards CountsFit (·.mergeChecked other) (·.merge other) where
  eq_ok_iff _ := mergeChecked_eq_ok_iff
  of_plain fits := fits.of_merge.1

end AccountFlow

namespace Flow

def updateChecked (account : Address) (change : AccountFlow → Checked AccountFlow) (flow : Flow) :
    Checked Flow := do
  let entry ← change (flow.entry account)
  return flow.update account fun _ => entry

def mergeChecked (flow other : Flow) : Checked Flow :=
  other.accounts.entries.foldlM (fun flow item =>
    flow.updateChecked item.1 (·.mergeChecked item.2)) flow

variable {flow other : Flow}

theorem update_congr {account : Address} {change same : AccountFlow → AccountFlow}
    (agree : change (flow.entry account) = same (flow.entry account)) :
    flow.update account change = flow.update account same := by
  refine congrArg Flow.mk (AddressMap.ext fun key => ?_)
  rw [AddressMap.find?_alter, AddressMap.find?_alter]
  exact if_congr Iff.rfl (congrArg some agree) rfl

theorem nfts_entry_le (side : NftSide) (flow : Flow) (account : Address) :
    (flow.entry account).nfts.on side ≤ flow.nfts side := by
  rw [nfts_eq_sum side (Finset.subset_insert account _)]
  exact Finset.single_le_sum (f := fun account => (flow.entry account).nfts.on side)
    (fun _ _ => Nat.zero_le _) (Finset.mem_insert_self account _)

theorem merge_eq_foldl (flow other : Flow) : flow.merge other =
    other.accounts.entries.foldl (fun flow item => flow.update item.1 (·.merge item.2)) flow := by
  rw [merge, AddressMap.merge_eq_foldl]
  exact (List.foldl_hom Flow.mk fun _ _ => rfl).symm

def CountsFit (flow : Flow) : Prop := ∀ account, (flow.entry account).CountsFit

theorem countsFit_empty : empty.CountsFit := fun _ side => by
  cases side <;> exact Nat.zero_le _

theorem CountsFit.of_merge {flow other : Flow} (fits : (flow.merge other).CountsFit) :
    flow.CountsFit ∧ other.CountsFit := by
  have each := fun account => (entry_merge flow other account ▸ fits account).of_merge
  exact ⟨fun account => (each account).1, fun account => (each account).2⟩

theorem guards_update (account : Address) {change : AccountFlow → Checked AccountFlow}
    {plain : AccountFlow → AccountFlow} (guards : Guards AccountFlow.CountsFit change plain) :
    Guards CountsFit (·.updateChecked account change) (·.update account plain) where
  eq_ok_iff := by
    intro flow next ready
    constructor
    · intro updated
      obtain ⟨entry, changed, same⟩ := bind_eq_ok_iff.mp updated
      obtain ⟨fits, rfl⟩ := (guards.eq_ok_iff (ready account)).mp changed
      -- Only the entry of the account is checked, and the others fit already.
      refine ⟨fun other => ?_, (Except.ok.inj same).symm.trans (update_congr rfl)⟩
      rw [entry_update]
      split
      case isTrue here => exact here ▸ fits
      case isFalse => exact ready other
    · rintro ⟨fits, rfl⟩
      have here := fits account
      rw [entry_update, if_pos rfl] at here
      rw [updateChecked, guards.eq_ok here]
      exact congrArg Except.ok (update_congr rfl)
  of_plain := by
    intro flow fits other
    have here := fits other
    rw [entry_update] at here
    split at here
    · exact guards.of_plain here
    · exact here

theorem guards_merge (other : Flow) : Guards CountsFit (·.mergeChecked other) (·.merge other) := by
  simp only [merge_eq_foldl]
  apply Guards.foldlM
  intro item
  exact guards_update item.1 (AccountFlow.guards_merge item.2)

/-- As long as the counts of all accounts together fit, each of them does. -/
theorem countsFit_of_nfts (small : ∀ side, flow.nfts side ≤ maxInt64) : flow.CountsFit :=
  fun account side => (flow.nfts_entry_le side account).trans (small side)

theorem mergeChecked_eq_ok (small : ∀ side, flow.nfts side + other.nfts side ≤ maxInt64) :
    flow.mergeChecked other = .ok (flow.merge other) := by
  have fits : (flow.merge other).CountsFit := by
    apply countsFit_of_nfts
    intro side
    rw [nfts_merge]
    exact small side
  exact (guards_merge other).eq_ok fits

end Flow

namespace Posting

def onEntryChecked : Posting → AccountFlow → Checked AccountFlow
  | .removeJettons _ master amount, entry => do
    let debit ← neg amount.credit
    return entry.addJetton master debit
  | .addNft _, entry => do
    let added ← upTo maxInt64 (entry.nfts.added + 1)
    return { entry with nfts.added := added }
  | .removeNft _, entry => do
    let removed ← upTo maxInt64 (entry.nfts.removed + 1)
    return { entry with nfts.removed := removed }
  | posting, entry => return posting.onEntry entry

def enterChecked (posting : Posting) (flow : Flow) : Checked Flow :=
  flow.updateChecked posting.account posting.onEntryChecked

/-- A credit is never negative, so it has an opposite of its type. -/
theorem neg_credit_eq_ok (amount : JettonAmount) : neg amount.credit = .ok amount.debit := by
  have low := amount.lo_le
  have credit : 0 ≤ amount.credit.val := by
    simp only [JettonAmount.credit, Ranged.clamp]
    omega
  have high := amount.credit.le_hi
  have exact : amount.debit.val = -amount.credit.val :=
    Ranged.val_clamp_of_mem (by omega) (by omega)
  rw [neg, Ranged.ofInt?_eq_some_iff.mpr exact]

theorem guards_onEntry (posting : Posting) :
    Guards AccountFlow.CountsFit posting.onEntryChecked posting.onEntry := by
  -- What clamps is never refused, nor is the opposite of a credit.
  cases posting with
  | addTon | addFee | addJettons => exact .of_ok fun _ => Iff.rfl
  | removeJettons account master amount =>
    have never : (removeJettons account master amount).onEntryChecked =
        fun entry => .ok (entry.addJetton master amount.debit) := by
      funext entry
      rw [onEntryChecked, neg_credit_eq_ok]
      rfl
    rw [never]
    exact .of_ok fun _ => Iff.rfl
  | addNft | removeNft =>
    constructor
    · intro entry next ready
      rw [AccountFlow.countsFit_iff] at ready ⊢
      simp only [onEntryChecked, onEntry, bind_eq_ok_iff, upTo_eq_ok_iff]
      constructor
      · rintro ⟨_, ⟨small, rfl⟩, same⟩
        cases same
        exact ⟨by simp [small, ready], rfl⟩
      · rintro ⟨small, rfl⟩
        exact ⟨_, ⟨by simp [small], rfl⟩, rfl⟩
    · intro entry fits
      rw [AccountFlow.countsFit_iff] at fits ⊢
      simp only [onEntry] at fits
      omega

theorem guards_enter (posting : Posting) : Guards Flow.CountsFit posting.enterChecked posting.enter := by
  rw [show posting.enter = _ from funext (enter_eq posting)]
  exact Flow.guards_update posting.account (guards_onEntry posting)

theorem nfts_enter_le (side : NftSide) (posting : Posting) (flow : Flow) :
    (posting.enter flow).nfts side ≤ flow.nfts side + 1 := by
  cases posting <;> cases side <;> simp [enter]

def enterAll (postings : List Posting) (flow : Flow) : Flow :=
  postings.foldl (fun flow posting => posting.enter flow) flow

def enterAllChecked (postings : List Posting) (flow : Flow) : Checked Flow :=
  postings.foldlM (fun flow posting => posting.enterChecked flow) flow

theorem guards_enterAll (postings : List Posting) :
    Guards Flow.CountsFit (enterAllChecked postings) (enterAll postings) :=
  Guards.foldlM guards_enter postings

theorem nfts_enterAll_le (side : NftSide) (postings : List Posting) (flow : Flow) :
    (enterAll postings flow).nfts side ≤ flow.nfts side + postings.length := by
  induction postings generalizing flow with
  | nil => exact Nat.le_refl _
  | cons posting rest ih =>
    have further := ih (posting.enter flow)
    have here := nfts_enter_le side posting flow
    rw [enterAll, List.foldl_cons, List.length_cons]
    rw [enterAll] at further
    omega

theorem enterAllChecked_eq_ok {postings : List Posting} {flow : Flow}
    (small : ∀ side, flow.nfts side + postings.length ≤ maxInt64) :
    enterAllChecked postings flow = .ok (enterAll postings flow) := by
  have fits : (enterAll postings flow).CountsFit := by
    apply Flow.countsFit_of_nfts
    intro side
    exact (nfts_enterAll_le side postings flow).trans (small side)
  exact (guards_enterAll postings).eq_ok fits

end Posting

def Event.corrections : Event → List Posting
  | .jettonTransfer transfer =>
    match transfer.success, transfer.master with
    | true, some master =>
      (transfer.sender.map (.removeJettons · master transfer.amount)).toList ++
        (transfer.recipient.map (.addJettons · master transfer.amount)).toList
    | _, _ => []
  | .jettonBurn burn =>
    match burn.success, burn.detail.jetton with
    | true, some master => [.removeJettons burn.detail.sender master burn.detail.amount]
    | _, _ => []
  | .nftTransfer transfer =>
    if transfer.success then
      (transfer.sender.map .removeNft).toList ++ (transfer.recipient.map .addNft).toList
    else []
  | .stakeDeposit deposit =>
    match deposit.liquidJetton with
    | some master =>
      [.addJettons (deposit.liquidOwner.getD deposit.detail.staker) master deposit.liquidAmount]
    | none => []
  | _ => []

theorem Event.length_corrections_le (event : Event) : event.corrections.length ≤ 2 := by
  have parties : ∀ (first second : Option Address) (give take : Address → Posting),
      ((first.map give).toList ++ (second.map take).toList).length ≤ 2 := by
    intro first second give take
    cases first <;> cases second <;> simp
  cases event with
  | jettonTransfer | nftTransfer =>
    simp only [corrections]
    split
    · exact parties _ _ _ _
    · exact Nat.zero_le 2
  | jettonBurn | stakeDeposit =>
    simp only [corrections]
    split <;> simp
  | _ => exact Nat.zero_le 2

def Rule.Corrects (rule : Rule) : Prop := ∀ {target : Reading} (found : rule.Match target) (flow : Flow),
  rule.pattern.settle found.output flow = Posting.enterAll found.event.corrections flow

namespace Catalog

variable {flow : Flow}

theorem settleJettonTransfer_eq (transfer : Event.JettonTransfer) :
    settleJettonTransfer transfer flow =
      Posting.enterAll (Event.jettonTransfer transfer).corrections flow := by
  obtain ⟨sender, recipient, _, _, master, _, _, success⟩ := transfer
  cases success with
  | false => rfl
  | true => cases master <;> cases sender <;> cases recipient <;> rfl

theorem settleJettonBurn_eq (burn : Outcome Detail.JettonBurn) :
    settleJettonBurn burn flow = Posting.enterAll (Event.jettonBurn burn).corrections flow := by
  obtain ⟨⟨_, _, jetton, _⟩, success⟩ := burn
  cases success <;> cases jetton <;> rfl

theorem settleNftTransfer_eq (transfer : Event.NftTransfer) :
    settleNftTransfer transfer flow = Posting.enterAll (Event.nftTransfer transfer).corrections flow := by
  obtain ⟨sender, recipient, _, _, success⟩ := transfer
  cases success with
  | false => rfl
  | true => cases sender <;> cases recipient <;> rfl

theorem settleLiquidStake_eq (deposit : Event.StakeDeposit) :
    settleLiquidStake deposit flow = Posting.enterAll (Event.stakeDeposit deposit).corrections flow := by
  obtain ⟨_, master, _, _⟩ := deposit
  cases master <;> rfl

theorem takeStake_liquidJetton {implementation : Detail.StakingPool} {deposit next : Event.StakeDeposit}
    {reading : Reading} (built : takeStake implementation deposit reading = .ok next) :
    next.liquidJetton = deposit.liquidJetton := by
  obtain ⟨tx, _, built⟩ := bind_eq_ok_iff.mp built
  cases built
  rfl

theorem whalesDeposit_liquidJetton {target : Reading} (found : whalesDeposit.Match target) :
    Event.StakeDeposit.liquidJetton found.output = none := by
  refine found.output_induct (P := fun deposit : Event.StakeDeposit => deposit.liquidJetton = none) rfl ?_
  exact List.forall_mem_singleton.mpr fun _ _ _ _ none built => (takeStake_liquidJetton built).trans none

theorem tfDeposit_liquidJetton {target : Reading} (found : tfDeposit.Match target) :
    Event.StakeDeposit.liquidJetton found.output = none := by
  refine found.output_induct (P := fun deposit : Event.StakeDeposit => deposit.liquidJetton = none) rfl ?_
  exact List.forall_mem_singleton.mpr fun _ _ _ _ none built => (takeStake_liquidJetton built).trans none

theorem settleLiquidStake_none {deposit : Event.StakeDeposit} (none : deposit.liquidJetton = none)
    (flow : Flow) : flow = settleLiquidStake deposit flow := by
  simp only [settleLiquidStake, none]

theorem corrects (groups : PatternGroups) : ∀ rule ∈ rules groups, rule.Corrects := by
  apply forall_rules
  case jettonTransfer => exact fun found flow => settleJettonTransfer_eq found.output
  case abortedJettonTransfer =>
    -- The rule settles nothing, as its transfers fail.
    intro target found flow
    refine Eq.trans ?_ (settleJettonTransfer_eq found.output)
    simp only [settleJettonTransfer, abortedJettonTransfer_success found]
    rfl
  case jettonBurn => exact fun found flow => settleJettonBurn_eq found.output
  case nftTransfer => exact fun found flow => settleNftTransfer_eq found.output
  case tonstakersDeposit => exact fun found flow => settleLiquidStake_eq found.output
  case whalesDeposit =>
    intro target found flow
    refine Eq.trans ?_ (settleLiquidStake_eq found.output)
    exact settleLiquidStake_none (whalesDeposit_liquidJetton found) flow
  case tfDeposit =>
    intro target found flow
    refine Eq.trans ?_ (settleLiquidStake_eq found.output)
    exact settleLiquidStake_none (tfDeposit_liquidJetton found) flow
  all_goals exact fun _ _ => rfl

end Catalog

end TonTrace
