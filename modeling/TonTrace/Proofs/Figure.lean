import Mathlib.Algebra.BigOperators.Group.Finset.Piecewise
import Mathlib.Algebra.Order.BigOperators.Group.List
import TonTrace.Proofs.Catalog
import TonTrace.Proofs.Seeding

/-! The two figures of a ledger that are kept for every account: its TON and its
fees. The volume that validation bounds counts every value as a debit and as a
credit. So it bounds the sizes of all changes together, for every set of
accounts, and a report of an accepted trace has each figure exactly. -/

set_option autoImplicit false

namespace TonTrace

namespace Transaction

variable {tx : Transaction}

theorem sum_tonChange (tx : Transaction) (accounts : Finset Address) :
    ∑ account ∈ accounts, tx.tonChange account =
      (if tx.account ∈ accounts then tx.value.val - tx.fees.exact else 0) -
        if tx.sender?.any (· ∈ accounts) then tx.value.val else 0 := by
  unfold tonChange
  rw [Finset.sum_sub_distrib, Finset.sum_ite_eq]
  cases tx.sender? with
  | none => simp
  | some sender => simp [Finset.sum_ite_eq]

theorem sum_charge (tx : Transaction) (accounts : Finset Address) :
    ∑ account ∈ accounts, tx.charge account = if tx.account ∈ accounts then tx.fees.exact else 0 := by
  unfold charge
  rw [Finset.sum_ite_eq]

theorem natAbs_sum_tonChange_le (payable : tx.Payable) (accounts : Finset Address) :
    (∑ account ∈ accounts, tx.tonChange account).natAbs ≤ tx.volume := by
  have owed := payable.fees_nonneg
  have value := payable.value
  rw [sum_tonChange, volume]
  split <;> split <;> omega

theorem natAbs_sum_charge_le (payable : tx.Payable) (accounts : Finset Address) :
    (∑ account ∈ accounts, tx.charge account).natAbs ≤ tx.volume := by
  have owed := payable.fees_nonneg
  have value := payable.value
  rw [sum_charge, volume]
  split <;> omega

end Transaction

/-- A part of the entries with what each transaction changes in it. Merging adds it up, the
corrections for jettons and NFTs leave it alone, and no transaction changes it by more than its
volume, whatever accounts are counted together. -/
structure Figure where
  part : AccountFlow → Nanotons
  change : Transaction → Address → Int
  empty : part {} = 0
  merged (flow other : AccountFlow) : part (flow.merge other) = (part flow).saturatingAdd (part other)
  same {flow other : Flow} (same : flow.SameTon other) (account : Address) :
    (part (flow.entry account)).val = (part (other.entry account)).val
  seeded {tx : Transaction} (fits : tx.SeedFits) (account : Address) :
    (part ((Cluster.flowOf tx).entry account)).val = change tx account
  within {tx : Transaction} (payable : tx.Payable) (accounts : Finset Address) :
    (∑ account ∈ accounts, change tx account).natAbs ≤ tx.volume

namespace Figure

def ton : Figure where
  part := (·.ton)
  change := Transaction.tonChange
  empty := rfl
  merged _ _ := rfl
  same same account := (same account).1
  seeded := Transaction.ton_flowOf
  within := Transaction.natAbs_sum_tonChange_le

def fees : Figure where
  part := (·.fees)
  change := Transaction.charge
  empty := rfl
  merged _ _ := rfl
  same same account := (same account).2
  seeded := Transaction.fees_flowOf
  within := Transaction.natAbs_sum_charge_le

variable (figure : Figure)

def of (account : Address) (flow : Flow) : Int := (figure.part (flow.entry account)).val

theorem of_ton (account : Address) (flow : Flow) : ton.of account flow = flow.ton account := rfl

theorem of_fees (account : Address) (flow : Flow) : fees.of account flow = flow.fees account := rfl

def sum (trace : Trace) (account : Address) : Int :=
  (trace.preorder.map fun tx => figure.change tx account).sum

theorem additive (account : Address) : Flow.Additive (figure.of account) Nanotons.bound :=
  Flow.additive_entry Nanotons.fits_of_natAbs_le figure.part figure.empty figure.merged account

theorem keeps (groups : PatternGroups) (account : Address) :
    ∀ rule ∈ Catalog.rules groups, rule.Keeps (figure.of account) :=
  Catalog.keeps (fun same => figure.same same account) groups

theorem sum_accounts (trace : Trace) (accounts : Finset Address) :
    ∑ account ∈ accounts, figure.sum trace account =
      (trace.preorder.map fun tx => ∑ account ∈ accounts, figure.change tx account).sum := by
  unfold sum
  induction trace.preorder with
  | nil => simp
  | cons tx rest ih => simp only [List.map_cons, List.sum_cons, Finset.sum_add_distrib, ih]

variable {limit : Nat} {trace : Trace} {groups : PatternGroups} {reading : Reading}

theorem natAbs_sum_accounts_le (valid : trace.validate limit = .ok ()) (accounts : Finset Address) :
    (∑ account ∈ accounts, figure.sum trace account).natAbs ≤ Nanotons.bound := by
  obtain ⟨sound, small⟩ := Trace.sound_of_validate valid
  have volumes := sum_natAbs_le fun tx member => figure.within (sound.payable tx member) accounts
  have parts := natAbs_sum_le
    (trace.preorder.map fun tx => ∑ account ∈ accounts, figure.change tx account)
  rw [List.map_map] at parts
  rw [sum_accounts]
  simp only [Function.comp_def] at parts
  unfold Trace.volume at small
  omega

theorem carries_ofTrace (valid : trace.validate limit = .ok ()) (account : Address) :
    Cluster.Carries (figure.of account) (figure.sum trace account) Nanotons.bound
      (Reading.ofTrace trace).preorder := by
  obtain ⟨sound, small⟩ := Trace.sound_of_validate valid
  have seeded : ∀ tx ∈ trace.preorder,
      figure.of account (Cluster.flowOf tx) = figure.change tx account := fun tx member =>
    figure.seeded (Trace.seedFits_of_validate valid tx member) account
  -- A single account is the smallest set of accounts that the volume bounds.
  have sizes : (trace.preorder.map fun tx => (figure.change tx account).natAbs).sum ≤
      trace.volume := sum_natAbs_le fun tx member => by
    have single := figure.within (sound.payable tx member) {account}
    rwa [Finset.sum_singleton] at single
  rw [Reading.preorder_ofTrace]
  constructor
  · rw [Cluster.total, List.map_map]
    exact congrArg List.sum (List.map_congr_left seeded)
  · have spread : Cluster.spread (figure.of account) (trace.preorder.map Cluster.ofTransaction) =
        (trace.preorder.map fun tx => (figure.change tx account).natAbs).sum := by
      rw [Cluster.spread, List.map_map]
      exact congrArg List.sum (List.map_congr_left fun tx member => congrArg _ (seeded tx member))
    omega

theorem carries (valid : trace.validate limit = .ok ())
    (reached : Reaches (Catalog.rules groups) (.ofTrace trace) reading) (account : Address) :
    Cluster.Carries (figure.of account) (figure.sum trace account) Nanotons.bound reading.preorder :=
  .reaches (figure.additive account) (figure.keeps groups account)
    (figure.carries_ofTrace valid account) reached

theorem collect (valid : trace.validate limit = .ok ())
    (reached : Reaches (Catalog.rules groups) (.ofTrace trace) reading) (keep : Action → Bool)
    (account : Address) :
    figure.of account (Report.collect keep reading).flow = figure.sum trace account := by
  obtain ⟨whole, small⟩ := figure.carries valid reached account
  rw [← whole]
  exact Report.figure_collect keep (figure.additive account) reading small

theorem ofTrace (valid : trace.validate limit = .ok ()) (groups : PatternGroups) (rewrites : Nat)
    (subject : Option Address) (account : Address) :
    figure.of account (Report.ofTrace (Catalog.rules groups) rewrites subject trace).flow =
      figure.sum trace account := by
  rw [Report.ofTrace, Report.ofReading]
  exact figure.collect valid (reaches_rewriteAll _ rewrites _) _ account

theorem fits_split (valid : trace.validate limit = .ok ())
    (reached : Reaches (Catalog.rules groups) (.ofTrace trace) reading) {target : Reading}
    (inside : target ∈ reading.subtrees) (paths : List (List Nat)) {before after : List Flow}
    {next : Flow} (parts : (target.split paths).1.map (·.flow) = before ++ next :: after)
    (account : Address) :
    Nanotons.Fits (figure.of account (before.foldl Flow.merge .empty) + figure.of account next) :=
  Nanotons.fits_of_natAbs_le <|
    (figure.carries valid reached account).split_step (figure.additive account) inside paths parts

theorem fits_mergedAt (valid : trace.validate limit = .ok ())
    (reached : Reaches (Catalog.rules groups) (.ofTrace trace) reading) (keep : Action → Bool)
    {node : Reading} (inside : node ∈ reading.subtrees) {before after : List Flow} {next : Flow}
    (parts : Report.mergedAt keep node = before ++ next :: after) (account : Address) :
    Nanotons.Fits (figure.of account (before.foldl Flow.merge .empty) + figure.of account next) :=
  Nanotons.fits_of_natAbs_le <|
    Report.collect_step keep (figure.additive account) (figure.carries valid reached account).spread_le
      inside parts

end Figure

end TonTrace
