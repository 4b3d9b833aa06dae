import TonTrace.Proofs.Jettons

/-! What the rules settle for jettons. Each correction is the change that the
event stands for, and every amount that is moved was asked for by the body of a
raw transaction that the match takes. -/

set_option autoImplicit false

namespace TonTrace

namespace Transaction

/-- The amount in the body of the transaction; zero when the body has another operation or does
not decode. -/
def carried {α : Type} [Payload α] (tx : Transaction) (operation : String) (amount : α → JettonAmount) :
    Nat :=
  match (tx.decodeBody operation : Except Error α) with
  | .ok body => (amount body).units
  | .error _ => 0

def jettonAmount (tx : Transaction) : Nat :=
  tx.carried Operation.jettonTransfer Payload.JettonTransfer.amount +
    tx.carried Operation.jettonBurn Payload.JettonBurn.amount +
    tx.carried Operation.jettonInternalTransfer Payload.JettonInternalTransfer.amount

theorem carried_eq {α : Type} [Payload α] {tx : Transaction} {operation : String} {body : α}
    (decoded : tx.decodeBody operation = .ok body) (amount : α → JettonAmount) :
    tx.carried operation amount = (amount body).units := by
  rw [carried, decoded]

theorem hasOperation_of_decodeBody {α : Type} [Payload α] {tx : Transaction} {operation : String}
    {body : α} (decoded : tx.decodeBody operation = .ok body) : tx.hasOperation operation := by
  unfold decodeBody at decoded
  unfold hasOperation
  cases found : tx.body? with
  | none => simp [found] at decoded
  | some raw =>
    simp only [found] at decoded
    split at decoded
    case isTrue same => simpa using same
    case isFalse => cases decoded

end Transaction

/-- How many units the event can still be made to move, while it is a raw transaction. -/
def Event.jettonPending : Event → Nat
  | .transaction tx => tx.jettonAmount
  | _ => 0

namespace Cluster

def pending (clusters : List Cluster) : Nat := (clusters.map (·.event.jettonPending)).sum

theorem pending_cons (cluster : Cluster) (rest : List Cluster) :
    pending (cluster :: rest) = cluster.event.jettonPending + pending rest := List.sum_cons

theorem pending_append (first rest : List Cluster) :
    pending (first ++ rest) = pending first + pending rest := by
  simp [pending]

theorem pending_perm {first second : List Cluster} (same : first.Perm second) :
    pending first = pending second := (same.map _).sum_nat

theorem le_pending {cluster : Cluster} {clusters : List Cluster} (member : cluster ∈ clusters) :
    cluster.event.jettonPending ≤ pending clusters :=
  List.le_sum_of_mem (List.mem_map_of_mem member)

end Cluster

namespace Rule

/-- How the rule deals with jettons: it moves no more than the raw transactions it takes ask for,
and corrects the ledger by what its event changes. -/
structure Accounts (rule : Rule) : Prop where
  backed {target : Reading} (found : rule.Match target) :
    found.event.jettonMoved ≤ Cluster.pending found.taken
  settled {target : Reading} (found : rule.Match target) {flow : Flow}
    (small : ∀ account master,
      (flow.jetton account master).natAbs + found.event.jettonMoved ≤ JettonDelta.bound)
    (account master : Address) : (rule.pattern.settle found.output flow).jetton account master =
      flow.jetton account master + found.event.jettonChange account master

def Idle (rule : Rule) : Prop := ∀ {target} (found : rule.Match target), found.event.jettonMoved = 0

variable {rule : Rule}

theorem Match.root_pending_le {target : Reading} (found : rule.Match target) {tx : Transaction}
    (raw : target.event = .transaction tx) : tx.jettonAmount ≤ Cluster.pending found.taken := by
  obtain ⟨rest, taken⟩ := found.taken_eq_cons
  have pending := Cluster.le_pending (taken ▸ List.mem_cons_self : target.value ∈ found.taken)
  rwa [show target.value.event = .transaction tx from raw] at pending

theorem Idle.jettonChange_eq (idle : rule.Idle) {target : Reading} (found : rule.Match target)
    (account master : Address) : found.event.jettonChange account master = 0 := by
  have small := found.event.natAbs_jettonChange_le account master
  rw [idle found] at small
  omega

theorem Accounts.of_idle (idle : rule.Idle) (untouched : ∀ output flow account master,
    (rule.pattern.settle output flow).jetton account master = flow.jetton account master) :
    rule.Accounts where
  backed found := by
    rw [idle found]
    exact Nat.zero_le _
  settled found flow _ account master := by
    rw [untouched, idle.jettonChange_eq found, Int.add_zero]

end Rule

namespace Catalog

/-! ### What the builders take from a transaction -/

theorem takeJettonTransfer_eq_ok {transfer next : Event.JettonTransfer} {reading : Reading}
    (built : takeJettonTransfer transfer reading = .ok next) :
    ∃ tx, reading.event = .transaction tx ∧ tx.hasOperation Operation.jettonTransfer ∧
      next.amount.units ≤ tx.jettonAmount ∧ next.success = transfer.success ∧
      next.sender = tx.sender? ∧ next.recipient.isSome := by
  obtain ⟨tx, read, built⟩ := bind_eq_ok_iff.mp built
  obtain ⟨body, decoded, built⟩ := bind_eq_ok_iff.mp built
  cases built
  refine ⟨tx, Reading.transaction_eq_ok_iff.mp read, ?_, ?_, rfl, rfl, ?_⟩
  · exact Transaction.hasOperation_of_decodeBody decoded
  · have carried := Transaction.carried_eq decoded Payload.JettonTransfer.amount
    simp only [Transaction.jettonAmount, carried]
    omega
  · cases transfer.recipient <;> rfl

theorem takeJettonBurn_eq_ok {burn next : Outcome Detail.JettonBurn} {reading : Reading}
    (built : takeJettonBurn burn reading = .ok next) :
    ∃ tx, reading.event = .transaction tx ∧ next.detail.amount.units ≤ tx.jettonAmount := by
  obtain ⟨tx, read, built⟩ := bind_eq_ok_iff.mp built
  obtain ⟨body, decoded, built⟩ := bind_eq_ok_iff.mp built
  cases built
  refine ⟨tx, Reading.transaction_eq_ok_iff.mp read, ?_⟩
  have carried := Transaction.carried_eq decoded Payload.JettonBurn.amount
  simp only [Transaction.jettonAmount, carried]
  omega

theorem takeStake_jettonMoved {implementation : Detail.StakingPool} {deposit next : Event.StakeDeposit}
    {reading : Reading} (built : takeStake implementation deposit reading = .ok next) :
    (Event.stakeDeposit next).jettonMoved = (Event.stakeDeposit deposit).jettonMoved := by
  obtain ⟨tx, _, built⟩ := bind_eq_ok_iff.mp built
  cases built
  rfl

/-! ### The rules that move jettons -/

def removeFrom (sender : Option Address) (master : Address) (amount : JettonAmount) (flow : Flow) : Flow :=
  match sender with
  | some sender => flow.removeJettons sender master amount
  | none => flow

def addTo (recipient : Option Address) (master : Address) (amount : JettonAmount) (flow : Flow) : Flow :=
  match recipient with
  | some recipient => flow.addJettons recipient master amount
  | none => flow

variable {flow : Flow} {master : Address} {amount : JettonAmount}

theorem jetton_removeFrom (sender : Option Address) (small : amount.units ≤ JettonDelta.bound)
    (fits : ∀ account, JettonDelta.Fits (flow.jetton account master - amount.units))
    (holder jetton : Address) : (removeFrom sender master amount flow).jetton holder jetton =
      flow.jetton holder jetton -
        if sender = some holder ∧ master = jetton then (amount.units : Int) else 0 := by
  cases sender with
  | none => simp [removeFrom]
  | some sender => simpa [removeFrom] using Flow.jetton_removeJettons small (fits sender) holder jetton

theorem jetton_addTo (recipient : Option Address) (small : amount.units ≤ JettonDelta.bound)
    (fits : ∀ account, JettonDelta.Fits (flow.jetton account master + amount.units))
    (holder jetton : Address) : (addTo recipient master amount flow).jetton holder jetton =
      flow.jetton holder jetton +
        if recipient = some holder ∧ master = jetton then (amount.units : Int) else 0 := by
  cases recipient with
  | none => simp [addTo]
  | some recipient => simpa [addTo] using Flow.jetton_addJettons small (fits recipient) holder jetton

theorem settleJettonTransfer_jetton {transfer : Event.JettonTransfer} {flow : Flow}
    (small : ∀ account master, (flow.jetton account master).natAbs +
      (Event.jettonTransfer transfer).jettonMoved ≤ JettonDelta.bound) (account master : Address) :
    (settleJettonTransfer transfer flow).jetton account master =
      flow.jetton account master + (Event.jettonTransfer transfer).jettonChange account master := by
  obtain ⟨sender, recipient, _, _, jetton, amount, _, success⟩ := transfer
  cases success with
  | false => simp [settleJettonTransfer, Event.jettonChange]
  | true =>
    cases jetton with
    | none => simp [settleJettonTransfer, Event.jettonChange]
    | some jetton =>
      have near : ∀ holder, (flow.jetton holder jetton).natAbs + amount.units ≤ JettonDelta.bound :=
        fun holder => small holder jetton
      have units : amount.units ≤ JettonDelta.bound := (Nat.le_add_left _ _).trans (near account)
      clear small
      have room : ∀ holder, JettonDelta.Fits (flow.jetton holder jetton - amount.units) := by
        intro holder
        have near := near holder
        exact JettonDelta.fits_of_natAbs_le (by omega)
      have sent := jetton_removeFrom sender units room
      -- The sender may be the recipient, whose balance is then the lower by what comes back.
      have fits : ∀ holder, JettonDelta.Fits
          ((removeFrom sender jetton amount flow).jetton holder jetton + amount.units) := by
        intro holder
        have near := near holder
        rw [sent]
        refine JettonDelta.fits_of_natAbs_le ?_
        split <;> omega
      change (addTo recipient jetton amount (removeFrom sender jetton amount flow)).jetton account master = _
      rw [jetton_addTo recipient units fits, sent]
      simp only [Event.jettonChange, true_and, Option.some.injEq]
      by_cases same : jetton = master
      · simp only [same, and_true, if_true]
        omega
      · simp [same]

theorem settleJettonBurn_jetton {burn : Outcome Detail.JettonBurn} {flow : Flow}
    (small : ∀ account master, (flow.jetton account master).natAbs +
      (Event.jettonBurn burn).jettonMoved ≤ JettonDelta.bound) (account master : Address) :
    (settleJettonBurn burn flow).jetton account master =
      flow.jetton account master + (Event.jettonBurn burn).jettonChange account master := by
  obtain ⟨⟨sender, _, jetton, amount⟩, success⟩ := burn
  cases success with
  | false => simp [settleJettonBurn, Event.jettonChange]
  | true =>
    cases jetton with
    | none => simp [settleJettonBurn, Event.jettonChange]
    | some jetton =>
      have near : (flow.jetton sender jetton).natAbs + amount.units ≤ JettonDelta.bound :=
        small sender jetton
      have fits : JettonDelta.Fits (flow.jetton sender jetton - amount.units) :=
        JettonDelta.fits_of_natAbs_le (by omega)
      change (flow.removeJettons sender jetton amount).jetton account master = _
      rw [Flow.jetton_removeJettons (by omega) fits]
      simp only [Event.jettonChange, true_and, Option.some.injEq, and_comm (a := sender = account)]
      split <;> omega

theorem settleLiquidStake_jetton {deposit : Event.StakeDeposit} {flow : Flow}
    (small : ∀ account master, (flow.jetton account master).natAbs +
      (Event.stakeDeposit deposit).jettonMoved ≤ JettonDelta.bound) (account master : Address) :
    (settleLiquidStake deposit flow).jetton account master =
      flow.jetton account master + (Event.stakeDeposit deposit).jettonChange account master := by
  obtain ⟨outcome, jetton, amount, owner⟩ := deposit
  cases jetton with
  | none => simp [settleLiquidStake, Event.jettonChange]
  | some jetton =>
    let holder := owner.getD outcome.detail.staker
    have near : (flow.jetton holder jetton).natAbs + amount.units ≤ JettonDelta.bound :=
      small holder jetton
    have fits : JettonDelta.Fits (flow.jetton holder jetton + amount.units) :=
      JettonDelta.fits_of_natAbs_le (by omega)
    change (flow.addJettons holder jetton amount).jetton account master = _
    rw [Flow.jetton_addJettons (by omega) fits]
    simp only [Event.jettonChange, Option.some.injEq, and_comm (a := holder = account)]
    rfl

theorem accounts_jettonTransfer : jettonTransfer.Accounts where
  backed {target} found := by
    obtain ⟨inner, built⟩ := found.exists_build_root
    -- The amount is the one that the body at the root asks to send.
    obtain ⟨tx, raw, _, small, _⟩ := takeJettonTransfer_eq_ok built
    have pending := found.root_pending_le raw
    change (if found.output.success then found.output.amount.units else 0) ≤ _
    split
    · exact small.trans pending
    · exact Nat.zero_le _
  settled found _ small := settleJettonTransfer_jetton small

theorem accounts_jettonBurn : jettonBurn.Accounts where
  backed {target} found := by
    obtain ⟨inner, built⟩ := found.exists_build_root
    -- The amount is the one that the body at the root asks to burn.
    obtain ⟨tx, raw, small⟩ := takeJettonBurn_eq_ok built
    have pending := found.root_pending_le raw
    change (if found.output.success then found.output.detail.amount.units else 0) ≤ _
    split
    · exact small.trans pending
    · exact Nat.zero_le _
  settled found _ small := settleJettonBurn_jetton small

theorem accounts_tonstakersDeposit : tonstakersDeposit.Accounts where
  backed {target} found := by
    change (Event.stakeDeposit found.output).jettonMoved ≤ _
    refine found.output_induct
      (P := fun deposit => (Event.stakeDeposit deposit).jettonMoved ≤ Cluster.pending found.taken)
      (Nat.zero_le _) ?_
    refine List.forall_mem_cons.mpr ⟨?root, List.forall_mem_cons.mpr ⟨?mint,
      List.forall_mem_singleton.mpr ?transfer⟩⟩
    case root =>
      intro reading _ inner outer backed built
      exact (takeStake_jettonMoved built).trans_le backed
    case mint =>
      intro reading _ inner outer backed built
      obtain ⟨tx, _, built⟩ := bind_eq_ok_iff.mp built
      obtain ⟨body, _, built⟩ := bind_eq_ok_iff.mp built
      cases built
      exact backed
    -- Only the transfer that a mint set off says how much was minted.
    case transfer =>
      intro reading inside (inner : Event.StakeDeposit) (outer : Event.StakeDeposit) backed built
      obtain ⟨tx, read, built⟩ := bind_eq_ok_iff.mp built
      obtain ⟨body, decoded, built⟩ := bind_eq_ok_iff.mp built
      have pending := Cluster.le_pending inside
      rw [show reading.value.event = _ from Reading.transaction_eq_ok_iff.mp read] at pending
      have carried := Transaction.carried_eq decoded Payload.JettonInternalTransfer.amount
      have amount : body.amount.units ≤ tx.jettonAmount := by
        simp only [Transaction.jettonAmount, carried]
        omega
      have next : (if tx.success then
          { inner with liquidJetton := tx.jettonMaster?, liquidAmount := body.amount }
          else inner) = outer := Except.ok.inj built
      rw [← next]
      split
      · refine Nat.le_trans ?_ (amount.trans pending)
        rw [Event.jettonMoved]
        split
        · exact Nat.le_refl _
        · exact Nat.zero_le _
      · exact backed
  settled found _ small := settleLiquidStake_jetton small

/-! ### The other rules -/

theorem abortedJettonTransfer_success {target : Reading} (found : abortedJettonTransfer.Match target) :
    Event.JettonTransfer.success found.output = false := by
  refine found.output_induct (P := fun transfer : Event.JettonTransfer => transfer.success = false)
    rfl ?_
  refine List.forall_mem_singleton.mpr fun reading _ inner outer failed built => ?_
  obtain ⟨tx, _, _, _, success, _⟩ := takeJettonTransfer_eq_ok built
  exact success.trans failed

theorem idle_abortedJettonTransfer : abortedJettonTransfer.Idle := by
  intro target found
  change (if Event.JettonTransfer.success found.output then _ else 0) = 0
  rw [abortedJettonTransfer_success found]
  rfl

theorem idle_whalesDeposit : whalesDeposit.Idle := by
  intro target found
  refine found.output_induct (P := fun deposit => (Event.stakeDeposit deposit).jettonMoved = 0) rfl ?_
  exact List.forall_mem_singleton.mpr fun _ _ _ _ idle built => (takeStake_jettonMoved built).trans idle

theorem idle_tfDeposit : tfDeposit.Idle := by
  intro target found
  refine found.output_induct (P := fun deposit => (Event.stakeDeposit deposit).jettonMoved = 0) rfl ?_
  exact List.forall_mem_singleton.mpr fun _ _ _ _ idle built => (takeStake_jettonMoved built).trans idle

theorem idle (groups : PatternGroups) : ∀ rule ∈ rules groups, rule ≠ jettonTransfer →
    rule ≠ jettonBurn → rule ≠ tonstakersDeposit → rule.Idle := by
  apply forall_rules
  case jettonTransfer => exact fun other _ _ => absurd rfl other
  case jettonBurn => exact fun _ other _ => absurd rfl other
  case tonstakersDeposit => exact fun _ _ other => absurd rfl other
  case abortedJettonTransfer => exact fun _ _ _ => idle_abortedJettonTransfer
  case whalesDeposit => exact fun _ _ _ => idle_whalesDeposit
  case tfDeposit => exact fun _ _ _ => idle_tfDeposit
  -- No event of the other rules says anything about jettons.
  all_goals exact fun _ _ _ _ _ => rfl

theorem settleNftTransfer_jetton (transfer : Event.NftTransfer) (flow : Flow)
    (account master : Address) :
    (settleNftTransfer transfer flow).jetton account master = flow.jetton account master := by
  unfold settleNftTransfer
  cases transfer.success <;> cases transfer.sender <;> cases transfer.recipient <;>
    simp only [Flow.jetton_addNft, Flow.jetton_removeNft, if_true, Bool.false_eq_true, if_false]

theorem accounts (groups : PatternGroups) : ∀ rule ∈ rules groups, rule.Accounts := by
  apply forall_rules
  case jettonTransfer => exact accounts_jettonTransfer
  case jettonBurn => exact accounts_jettonBurn
  case tonstakersDeposit => exact accounts_tonstakersDeposit
  case abortedJettonTransfer => exact Rule.Accounts.of_idle idle_abortedJettonTransfer fun _ _ _ _ => rfl
  case whalesDeposit => exact Rule.Accounts.of_idle idle_whalesDeposit fun _ _ _ _ => rfl
  case tfDeposit => exact Rule.Accounts.of_idle idle_tfDeposit fun _ _ _ _ => rfl
  case nftTransfer => exact .of_idle (fun _ => rfl) settleNftTransfer_jetton
  all_goals exact .of_idle (fun _ => rfl) fun _ _ _ _ => rfl

theorem twoSided (groups : PatternGroups) : ∀ rule ∈ rules groups, ∀ {target : Reading}
    (found : rule.Match target), (∀ tx, target.event = .transaction tx →
      tx.hasOperation Operation.jettonTransfer → tx.sender?.isSome) → found.event.TwoSided := by
  apply forall_rules <;> intro target found known transfer same success
  case jettonTransfer | abortedJettonTransfer =>
    cases same
    obtain ⟨inner, built⟩ := found.exists_build_root
    obtain ⟨tx, raw, asks, _, _, sender, recipient⟩ := takeJettonTransfer_eq_ok built
    exact ⟨sender ▸ known tx raw asks, recipient⟩
  -- The other rules make no transfer of a jetton.
  all_goals cases same

end Catalog

end TonTrace
