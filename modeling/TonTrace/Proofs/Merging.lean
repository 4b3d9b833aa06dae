import TonTrace.Proofs.Jettons

/-! The laws of merging. No ledger that is built from an empty one holds a jetton
balance of zero, so a ledger is what it says of each account, and merging adds
that up amount by amount. It does not matter which of two ledgers is merged into
the other. Three can be regrouped as long as no inner sum is clamped; at the
bounds of an amount they cannot. -/

set_option autoImplicit false

namespace TonTrace

namespace AccountFlow

/-- No jetton balance is zero. -/
def Trimmed (entry : AccountFlow) : Prop := ∀ master, entry.jettons.find? master ≠ some 0

theorem jettonBalance_ne_zero (balance : Option JettonDelta) (change : JettonDelta) :
    jettonBalance balance change ≠ some 0 := by
  simp only [jettonBalance]
  split
  · simp
  · simpa using ‹_›

variable {entry other third : AccountFlow}

theorem Trimmed.merge (trimmed : entry.Trimmed) (other : AccountFlow) : (entry.merge other).Trimmed := by
  intro master
  rw [AccountFlow.merge, AddressMap.find?_merge]
  split
  · exact trimmed master
  · exact jettonBalance_ne_zero _ _

theorem Trimmed.addJetton (trimmed : entry.Trimmed) (master : Address) (change : JettonDelta) :
    (entry.addJetton master change).Trimmed := by
  intro other
  rw [AccountFlow.addJetton, AddressMap.find?_alter]
  split
  · exact jettonBalance_ne_zero _ _
  · exact trimmed other

theorem trimmed_empty : ({} : AccountFlow).Trimmed := fun _ found => by cases found

theorem Trimmed.find?_eq (trimmed : entry.Trimmed) (master : Address) :
    entry.jettons.find? master =
      if entry.jetton master = 0 then none else some (entry.jetton master) := by
  have nonzero := trimmed master
  unfold jetton
  cases found : entry.jettons.find? master with
  | none => simp
  | some balance =>
    rw [found] at nonzero
    simpa using nonzero

theorem Trimmed.ext (trimmed : entry.Trimmed) (also : other.Trimmed) (ton : entry.ton = other.ton)
    (fees : entry.fees = other.fees) (jettons : ∀ master, entry.jetton master = other.jetton master)
    (nfts : entry.nfts = other.nfts) : entry = other := by
  have same : entry.jettons = other.jettons := by
    refine AddressMap.ext fun master => ?_
    rw [trimmed.find?_eq, also.find?_eq, jettons]
  cases entry
  cases other
  simp_all

theorem Trimmed.empty_merge (trimmed : entry.Trimmed) : AccountFlow.merge {} entry = entry := by
  refine (trimmed_empty.merge entry).ext trimmed (Ranged.zero_saturatingAdd _)
    (Ranged.zero_saturatingAdd _) (fun master => ?_) ?_
  · rw [jetton_merge]
    exact Ranged.zero_saturatingAdd _
  · simp only [AccountFlow.merge, Nat.zero_add]

theorem Trimmed.merge_comm (trimmed : entry.Trimmed) (also : other.Trimmed) :
    entry.merge other = other.merge entry := by
  refine (trimmed.merge other).ext (also.merge entry) (Ranged.saturatingAdd_comm _ _)
    (Ranged.saturatingAdd_comm _ _) (fun master => ?_) ?_
  · rw [jetton_merge, jetton_merge, Ranged.saturatingAdd_comm]
  · simp only [AccountFlow.merge, Nat.add_comm]

structure Unclamped (entry other : AccountFlow) : Prop where
  ton : Nanotons.Fits (entry.ton.val + other.ton.val)
  fees : Nanotons.Fits (entry.fees.val + other.fees.val)
  jettons (master : Address) : JettonDelta.Fits ((entry.jetton master).val + (other.jetton master).val)

theorem Trimmed.merge_assoc (trimmed : entry.Trimmed) (left : entry.Unclamped other)
    (right : other.Unclamped third) :
    entry.merge (other.merge third) = (entry.merge other).merge third := by
  refine (trimmed.merge _).ext ((trimmed.merge other).merge third)
    (Ranged.saturatingAdd_assoc left.ton right.ton) (Ranged.saturatingAdd_assoc left.fees right.fees)
    (fun master => ?_) ?_
  · simp only [jetton_merge]
    exact Ranged.saturatingAdd_assoc (left.jettons master) (right.jettons master)
  · simp only [AccountFlow.merge, Nat.add_assoc]

end AccountFlow

namespace Flow

def Trimmed (flow : Flow) : Prop := ∀ account, (flow.entry account).Trimmed

variable {flow other third : Flow}

theorem trimmed_empty : empty.Trimmed := fun _ => AccountFlow.trimmed_empty

theorem Trimmed.update (trimmed : flow.Trimmed) (account : Address)
    {change : AccountFlow → AccountFlow} (keeps : ∀ {entry}, entry.Trimmed → (change entry).Trimmed) :
    (flow.update account change).Trimmed := by
  intro other
  rw [entry_update]
  split
  · exact keeps (trimmed other)
  · exact trimmed other

theorem Trimmed.addTon (trimmed : flow.Trimmed) (account : Address) (amount : Nanotons) :
    (flow.addTon account amount).Trimmed := trimmed.update account id

theorem Trimmed.addFee (trimmed : flow.Trimmed) (account : Address) (fee : Nanotons) :
    (flow.addFee account fee).Trimmed := trimmed.update account id

theorem Trimmed.addJettons (trimmed : flow.Trimmed) (account master : Address)
    (amount : JettonAmount) : (flow.addJettons account master amount).Trimmed :=
  trimmed.update account (·.addJetton master _)

theorem Trimmed.removeJettons (trimmed : flow.Trimmed) (account master : Address)
    (amount : JettonAmount) : (flow.removeJettons account master amount).Trimmed :=
  trimmed.update account (·.addJetton master _)

theorem Trimmed.addNft (trimmed : flow.Trimmed) (account : Address) :
    (flow.addNft account).Trimmed := trimmed.update account id

theorem Trimmed.removeNft (trimmed : flow.Trimmed) (account : Address) :
    (flow.removeNft account).Trimmed := trimmed.update account id

theorem trimmed_flowOf (tx : Transaction) : (Cluster.flowOf tx).Trimmed := by
  have paid := trimmed_empty.addFee tx.account tx.fees.total
  unfold Cluster.flowOf
  split
  · exact paid
  · have received := paid.addTon tx.account
    split
    · exact received _
    · exact (received _).addTon _ _

theorem ext_of_entry
    (accounts : ∀ account, flow.accounts.contains account = other.accounts.contains account)
    (entries : ∀ account, flow.entry account = other.entry account) : flow = other := by
  obtain ⟨first⟩ := flow
  obtain ⟨second⟩ := other
  refine congrArg Flow.mk (AddressMap.ext fun account => ?_)
  have listed := accounts account
  have same := entries account
  simp only [AddressMap.contains, entry, get?] at listed same
  cases left : first.find? account <;> cases right : second.find? account <;> simp_all

theorem contains_merge (flow other : Flow) (account : Address) :
    (flow.merge other).accounts.contains account =
      (flow.accounts.contains account || other.accounts.contains account) := by
  rw [AddressMap.contains, merge, AddressMap.find?_merge]
  cases found : other.accounts.find? account <;> simp [AddressMap.contains, found]

theorem Trimmed.merge (trimmed : flow.Trimmed) (other : Flow) : (flow.merge other).Trimmed := by
  intro account
  rw [entry_merge]
  exact (trimmed account).merge _

theorem Trimmed.foldl_merge (trimmed : flow.Trimmed) (flows : List Flow) :
    (flows.foldl Flow.merge flow).Trimmed := by
  induction flows generalizing flow with
  | nil => exact trimmed
  | cons next rest ih => exact ih (trimmed.merge next)

theorem Trimmed.empty_merge (trimmed : flow.Trimmed) : empty.merge flow = flow := by
  refine ext_of_entry (fun account => contains_merge _ _ account) fun account => ?_
  rw [entry_merge]
  exact (trimmed account).empty_merge

theorem Trimmed.merge_comm (trimmed : flow.Trimmed) (also : other.Trimmed) :
    flow.merge other = other.merge flow := by
  refine ext_of_entry (fun account => ?_) fun account => ?_
  · rw [contains_merge, contains_merge, Bool.or_comm]
  · rw [entry_merge, entry_merge, (trimmed account).merge_comm (also account)]

/-- No amount of any account is clamped when the two ledgers are merged. -/
def Unclamped (flow other : Flow) : Prop :=
  ∀ account, (flow.entry account).Unclamped (other.entry account)

theorem Trimmed.merge_assoc (trimmed : flow.Trimmed) (left : flow.Unclamped other)
    (right : other.Unclamped third) :
    flow.merge (other.merge third) = (flow.merge other).merge third := by
  refine ext_of_entry (fun account => ?_) fun account => ?_
  · simp only [contains_merge, Bool.or_assoc]
  · simp only [entry_merge]
    exact (trimmed account).merge_assoc (left account) (right account)

inductive Built : Flow → Prop where
  | empty : Built .empty
  | addTon {flow : Flow} (account : Address) (amount : Nanotons) :
      Built flow → Built (flow.addTon account amount)
  | addFee {flow : Flow} (account : Address) (fee : Nanotons) :
      Built flow → Built (flow.addFee account fee)
  | addJettons {flow : Flow} (account master : Address) (amount : JettonAmount) :
      Built flow → Built (flow.addJettons account master amount)
  | removeJettons {flow : Flow} (account master : Address) (amount : JettonAmount) :
      Built flow → Built (flow.removeJettons account master amount)
  | addNft {flow : Flow} (account : Address) : Built flow → Built (flow.addNft account)
  | removeNft {flow : Flow} (account : Address) : Built flow → Built (flow.removeNft account)
  | merge {flow other : Flow} : Built flow → Built other → Built (flow.merge other)

theorem Built.trimmed (built : flow.Built) : flow.Trimmed := by
  induction built with
  | empty => exact trimmed_empty
  | addTon account amount _ ih => exact ih.addTon account amount
  | addFee account fee _ ih => exact ih.addFee account fee
  | addJettons account master amount _ ih => exact ih.addJettons account master amount
  | removeJettons account master amount _ ih => exact ih.removeJettons account master amount
  | addNft account _ ih => exact ih.addNft account
  | removeNft account _ ih => exact ih.removeNft account
  | merge _ _ ih _ => exact ih.merge _

/-- Merging two ledgers gives the same either way. Merging three gives the same in either grouping
when neither of the two inner merges clamps an amount, whatever the outer ones do. -/
theorem merge_laws {first second third : Flow} (one : first.Built) (two : second.Built) :
    first.merge second = second.merge first ∧
      (first.Unclamped second → second.Unclamped third →
        first.merge (second.merge third) = (first.merge second).merge third) :=
  ⟨one.trimmed.merge_comm two.trimmed, one.trimmed.merge_assoc⟩

def brimful : Flow := empty.addTon ⟨0, ⟨1⟩⟩ (.clamp 0x7fffffffffffffff)

def gain : Flow := empty.addTon ⟨0, ⟨1⟩⟩ (.clamp 1)

def loss : Flow := empty.addTon ⟨0, ⟨1⟩⟩ (.clamp (-1))

theorem unclamped_addTon {amount more : Nanotons} (fits : Nanotons.Fits (amount.val + more.val))
    (account : Address) :
    (empty.addTon account amount).Unclamped (empty.addTon account more) := by
  have none : ∀ holder, empty.entry holder = {} := fun _ => rfl
  intro holder
  rw [addTon, addTon, entry_update, entry_update, none]
  split
  · simp only [Ranged.zero_saturatingAdd]
    exact ⟨fits, Ranged.fits_val 0, fun _ => Ranged.fits_val 0⟩
  · exact ⟨Ranged.fits_val 0, Ranged.fits_val 0, fun _ => Ranged.fits_val 0⟩

theorem merge_laws_brimful : brimful.Built ∧ loss.Built ∧ brimful.Unclamped loss ∧
    loss.Unclamped gain ∧ brimful.merge (loss.merge gain) = (brimful.merge loss).merge gain := by
  have one : brimful.Built := .addTon _ _ .empty
  have two : loss.Built := .addTon _ _ .empty
  have left : brimful.Unclamped loss := unclamped_addTon ⟨by decide, by decide⟩ _
  have right : loss.Unclamped gain := unclamped_addTon ⟨by decide, by decide⟩ _
  exact ⟨one, two, left, right, (merge_laws one two).2 left right⟩

/-- A gain that is clamped away is lost, and a loss after it still counts. When gain and loss are
merged first they cancel out. -/
theorem merge_regrouped : brimful.Built ∧ gain.Built ∧ loss.Built ∧
    (brimful.merge (gain.merge loss)).ton ⟨0, ⟨1⟩⟩ = 0x7fffffffffffffff ∧
    ((brimful.merge gain).merge loss).ton ⟨0, ⟨1⟩⟩ = 0x7ffffffffffffffe ∧
    brimful.merge (gain.merge loss) ≠ (brimful.merge gain).merge loss := by
  have grouped : (brimful.merge (gain.merge loss)).ton ⟨0, ⟨1⟩⟩ = 0x7fffffffffffffff := by decide
  have turned : ((brimful.merge gain).merge loss).ton ⟨0, ⟨1⟩⟩ = 0x7ffffffffffffffe := by decide
  refine ⟨.addTon _ _ .empty, .addTon _ _ .empty, .addTon _ _ .empty, grouped, turned, ?_⟩
  intro same
  rw [same, turned] at grouped
  revert grouped
  decide

end Flow

end TonTrace
