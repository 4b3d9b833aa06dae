import TonTrace.Proofs.Ledger
import TonTrace.Proofs.Validation

/-! The ledger of one transaction. When no amount is negative and its volume is
in range, every clamped operation that sets the ledger up is exact. -/

set_option autoImplicit false

namespace TonTrace

namespace Flow

def AddFits (flow : Flow) (account : Address) (amount : Nanotons) : Prop :=
  Nanotons.Fits (flow.ton account + amount.val)

structure FeeFits (flow : Flow) (account : Address) (fee : Nanotons) : Prop where
  ton : Nanotons.Fits (flow.ton account - fee.val)
  fees : Nanotons.Fits (flow.fees account + fee.val)

def MergeFits (flow other : Flow) : Prop :=
  ∀ account, Nanotons.Fits (flow.ton account + other.ton account) ∧
    Nanotons.Fits (flow.fees account + other.fees account)

def FoldFits (flows : List Flow) : Prop :=
  ∀ before next after, flows = before ++ next :: after →
    (before.foldl Flow.merge .empty).MergeFits next

theorem ton_empty (account : Address) : empty.ton account = 0 := rfl

theorem fees_empty (account : Address) : empty.fees account = 0 := rfl

theorem ton_addTon {flow : Flow} {account : Address} {amount : Nanotons}
    (fits : flow.AddFits account amount) (other : Address) :
    (flow.addTon account amount).ton other =
      flow.ton other + if account = other then amount.val else 0 := by
  rw [ton, addTon, entry_update]
  split
  case isTrue same =>
    subst same
    exact (Ranged.val_saturatingAdd_iff _ _).mpr fits
  case isFalse => rw [Int.add_zero, ton]

theorem fees_addTon (flow : Flow) (account : Address) (amount : Nanotons) (other : Address) :
    (flow.addTon account amount).fees other = flow.fees other := by
  rw [fees, addTon, entry_update]
  split
  · rfl
  · rfl

theorem ton_addFee {flow : Flow} {account : Address} {fee : Nanotons}
    (fits : flow.FeeFits account fee) (other : Address) :
    (flow.addFee account fee).ton other =
      flow.ton other - if account = other then fee.val else 0 := by
  rw [ton, addFee, entry_update]
  split
  case isTrue same =>
    subst same
    exact (Ranged.val_saturatingSub_iff _ _).mpr fits.ton
  case isFalse => rw [Int.sub_zero, ton]

theorem fees_addFee {flow : Flow} {account : Address} {fee : Nanotons}
    (fits : flow.FeeFits account fee) (other : Address) :
    (flow.addFee account fee).fees other =
      flow.fees other + if account = other then fee.val else 0 := by
  rw [fees, addFee, entry_update]
  split
  case isTrue same =>
    subst same
    exact (Ranged.val_saturatingAdd_iff _ _).mpr fits.fees
  case isFalse => rw [Int.add_zero, fees]

end Flow

namespace Transaction

/-- What the transaction changes in the balance of an account: its own account
gets the value and pays the fees, and the sender pays the value. -/
def tonChange (tx : Transaction) (account : Address) : Int :=
  (if tx.account = account then tx.value.val - tx.fees.exact else 0) -
    if tx.sender? = some account then tx.value.val else 0

def charge (tx : Transaction) (account : Address) : Int :=
  if tx.account = account then tx.fees.exact else 0

/-- Everything that is clamped while the ledger of a transaction is set up is exact. -/
structure SeedFits (tx : Transaction) : Prop where
  upkeep : Nanotons.Fits (tx.fees.compute.val + tx.fees.storage.val)
  total : Nanotons.Fits ((tx.fees.compute.saturatingAdd tx.fees.storage).val + tx.fees.deposit.val)
  fee : Flow.empty.FeeFits tx.account tx.fees.total
  credit : ∀ message, tx.inMessage = some message →
    (Flow.empty.addFee tx.account tx.fees.total).AddFits tx.account message.value
  opposite : ∀ message, tx.inMessage = some message → message.source.isSome →
    Nanotons.Fits (-message.value.val)
  debit : ∀ message source, tx.inMessage = some message → message.source = some source →
    ((Flow.empty.addFee tx.account tx.fees.total).addTon tx.account message.value).AddFits source
      message.value.saturatingNeg

variable {tx : Transaction}

theorem value_eq {message : Message} (found : tx.inMessage = some message) :
    tx.value = message.value := by
  rw [value, found]
  rfl

theorem total_val (upkeep : Nanotons.Fits (tx.fees.compute.val + tx.fees.storage.val))
    (total : Nanotons.Fits
      ((tx.fees.compute.saturatingAdd tx.fees.storage).val + tx.fees.deposit.val)) :
    tx.fees.total.val = tx.fees.exact := by
  rw [Fees.total, (Ranged.val_saturatingAdd_iff _ _).mpr total,
    (Ranged.val_saturatingAdd_iff _ _).mpr upkeep, Fees.exact]

theorem seedFits (payable : tx.Payable) (small : tx.volume ≤ Nanotons.bound) : tx.SeedFits := by
  have owed := payable.fees_nonneg
  obtain ⟨value, compute, storage, deposit⟩ := payable
  have fees : tx.fees.exact = tx.fees.compute.val + tx.fees.storage.val + tx.fees.deposit.val := rfl
  simp only [volume, Nanotons.bound] at small
  -- No summand is negative, so every partial sum is at most the volume.
  have upkeep : Nanotons.Fits (tx.fees.compute.val + tx.fees.storage.val) := ⟨by omega, by omega⟩
  have first := (Ranged.val_saturatingAdd_iff _ _).mpr upkeep
  have total : Nanotons.Fits
      ((tx.fees.compute.saturatingAdd tx.fees.storage).val + tx.fees.deposit.val) := by
    rw [first]
    exact ⟨by omega, by omega⟩
  have paid := total_val upkeep total
  have fee : Flow.empty.FeeFits tx.account tx.fees.total := by
    constructor
    · rw [paid, Flow.ton_empty]
      exact ⟨by omega, by omega⟩
    · rw [paid, Flow.fees_empty]
      exact ⟨by omega, by omega⟩
  have credit : ∀ message, tx.inMessage = some message →
      (Flow.empty.addFee tx.account tx.fees.total).AddFits tx.account message.value := by
    intro message found
    rw [Flow.AddFits, Flow.ton_addFee fee, if_pos rfl, paid, Flow.ton_empty,
      ← value_eq found]
    exact ⟨by omega, by omega⟩
  have opposite : ∀ message, tx.inMessage = some message → message.source.isSome →
      Nanotons.Fits (-message.value.val) := by
    intro message found _
    rw [← value_eq found]
    exact ⟨by omega, by omega⟩
  refine ⟨upkeep, total, fee, credit, opposite, ?_⟩
  intro message source found sender
  have negated := (Ranged.val_saturatingNeg_iff _).mpr (opposite message found (by simp [sender]))
  rw [Flow.AddFits, Flow.ton_addTon (credit message found), Flow.ton_addFee fee, paid, negated,
    Flow.ton_empty, ← value_eq found]
  constructor <;> split <;> omega

theorem ton_flowOf (fits : tx.SeedFits) (account : Address) :
    (Cluster.flowOf tx).ton account = tx.tonChange account := by
  have paid := total_val fits.upkeep fits.total
  unfold Cluster.flowOf tonChange
  cases found : tx.inMessage with
  | none =>
    simp only [Flow.ton_addFee fits.fee, paid, Flow.ton_empty, Transaction.value, sender?, found]
    split <;> simp
  | some message =>
    have credited := Flow.ton_addTon (fits.credit message found) account
    rw [Flow.ton_addFee fits.fee, paid, Flow.ton_empty] at credited
    simp only [sender?, found, value_eq found, Option.bind_some]
    cases source : message.source with
    | none =>
      simp only [credited]
      split <;> simp; omega
    | some sender =>
      have negated := (Ranged.val_saturatingNeg_iff _).mpr
        (fits.opposite message found (by simp [source]))
      -- The sender can be the account itself, so both changes may meet in one entry.
      simp only [Flow.ton_addTon (fits.debit message sender found source), credited, negated,
        Option.some.injEq]
      split <;> split <;> omega

theorem fees_flowOf (fits : tx.SeedFits) (account : Address) :
    (Cluster.flowOf tx).fees account = tx.charge account := by
  have charged : (Flow.empty.addFee tx.account tx.fees.total).fees account = tx.charge account := by
    rw [Flow.fees_addFee fits.fee, total_val fits.upkeep fits.total, Flow.fees_empty,
      Int.zero_add, charge]
  unfold Cluster.flowOf
  split
  · exact charged
  · split
    · rw [Flow.fees_addTon, charged]
    · rw [Flow.fees_addTon, Flow.fees_addTon, charged]

end Transaction

theorem Trace.seedFits_of_validate {limit : Nat} {trace : Trace}
    (valid : trace.validate limit = .ok ()) : ∀ tx ∈ trace.preorder, tx.SeedFits := by
  obtain ⟨sound, small⟩ := sound_of_validate valid
  intro tx member
  have part : tx.volume ≤ trace.volume := by
    refine List.single_le_sum (fun volume inside => ?_) _ (List.mem_map_of_mem member)
    obtain ⟨other, member, rfl⟩ := List.mem_map.mp inside
    exact (sound.payable other member).volume_nonneg
  exact Transaction.seedFits (sound.payable tx member) (part.trans small)

end TonTrace
