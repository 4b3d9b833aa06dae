import TonTrace.Proofs.Merging
import TonTrace.Proofs.NftCounts

/-! Ledgers as records of what was posted. A journal posts amounts one by one and
merges ledgers that have journals of their own. As long as all amounts together
are in range no sum on the way is clamped, and the ledger is what the postings
come to for each account: neither their order nor their grouping matters. -/

set_option autoImplicit false

namespace TonTrace

inductive Posting where
  | addTon (account : Address) (amount : Nanotons)
  | addFee (account : Address) (fee : Nanotons)
  | addJettons (account master : Address) (amount : JettonAmount)
  | removeJettons (account master : Address) (amount : JettonAmount)
  | addNft (account : Address)
  | removeNft (account : Address)
  deriving DecidableEq

namespace Posting

def enter : Posting → Flow → Flow
  | .addTon account amount => Flow.addTon account amount
  | .addFee account fee => Flow.addFee account fee
  | .addJettons account master amount => Flow.addJettons account master amount
  | .removeJettons account master amount => Flow.removeJettons account master amount
  | .addNft account => Flow.addNft account
  | .removeNft account => Flow.removeNft account

def account : Posting → Address
  | .addTon account _ | .addFee account _ | .addJettons account _ _ | .removeJettons account _ _
  | .addNft account | .removeNft account => account

def credit : Posting → Int
  | .addTon _ amount => amount.val
  | _ => 0

def fee : Posting → Int
  | .addFee _ fee => fee.val
  | _ => 0

/-- The units of a jetton that the posting adds; negative when it removes them. -/
def jettons (master : Address) : Posting → Int
  | .addJettons _ jetton amount => if jetton = master then amount.units else 0
  | .removeJettons _ jetton amount => if jetton = master then -amount.units else 0
  | _ => 0

def nfts : NftSide → Posting → Int
  | .received, .addNft _ => 1
  | .sent, .removeNft _ => 1
  | _, _ => 0

def total (amount : Posting → Int) (account : Address) (postings : List Posting) : Int :=
  ((postings.filter fun posting => posting.account = account).map amount).sum

variable {amount : Posting → Int} {account : Address}

theorem total_cons (posting : Posting) (rest : List Posting) :
    total amount account (posting :: rest) =
      (if posting.account = account then amount posting else 0) + total amount account rest := by
  unfold total
  by_cases own : posting.account = account <;> simp [own]

theorem total_append (first rest : List Posting) :
    total amount account (first ++ rest) = total amount account first + total amount account rest := by
  simp [total]

theorem total_sub (amount other : Posting → Int) (account : Address) (postings : List Posting) :
    total (fun posting => amount posting - other posting) account postings =
      total amount account postings - total other account postings := by
  induction postings with
  | nil => rfl
  | cons posting rest ih =>
    simp only [total_cons, ih]
    split <;> omega

theorem total_perm {first second : List Posting} (same : first.Perm second) :
    total amount account first = total amount account second :=
  ((same.filter _).map _).sum_eq

theorem natAbs_total_le {volume : Posting → Nat}
    (within : ∀ posting, (amount posting).natAbs ≤ volume posting) (postings : List Posting) :
    (total amount account postings).natAbs ≤ (postings.map volume).sum := by
  induction postings with
  | nil => exact Nat.zero_le _
  | cons posting rest ih =>
    have here := within posting
    rw [total_cons, List.map_cons, List.sum_cons]
    split <;> omega

def onEntry : Posting → AccountFlow → AccountFlow
  | .addTon _ amount, entry => { entry with ton := entry.ton.saturatingAdd amount }
  | .addFee _ fee, entry =>
    { entry with ton := entry.ton.saturatingSub fee, fees := entry.fees.saturatingAdd fee }
  | .addJettons _ master amount, entry => entry.addJetton master amount.credit
  | .removeJettons _ master amount, entry => entry.addJetton master amount.debit
  | .addNft _, entry => { entry with nfts.added := entry.nfts.added + 1 }
  | .removeNft _, entry => { entry with nfts.removed := entry.nfts.removed + 1 }

theorem enter_eq (posting : Posting) (flow : Flow) :
    posting.enter flow = flow.update posting.account posting.onEntry := by
  cases posting <;> rfl

theorem entry_enter (posting : Posting) (flow : Flow) (account : Address) :
    (posting.enter flow).entry account =
      if posting.account = account then posting.onEntry (flow.entry account) else flow.entry account := by
  rw [enter_eq, Flow.entry_update]

theorem contains_enter (posting : Posting) (flow : Flow) (account : Address) :
    (posting.enter flow).accounts.contains account ↔
      posting.account = account ∨ flow.accounts.contains account := by
  rw [enter_eq, Flow.update, AddressMap.contains, AddressMap.find?_alter]
  split <;> simp [AddressMap.contains, *]

theorem trimmed_enter {flow : Flow} (trimmed : flow.Trimmed) (posting : Posting) :
    (posting.enter flow).Trimmed := by
  cases posting with
  | addTon account amount => exact trimmed.addTon account amount
  | addFee account fee => exact trimmed.addFee account fee
  | addJettons account master amount => exact trimmed.addJettons account master amount
  | removeJettons account master amount => exact trimmed.removeJettons account master amount
  | addNft account => exact trimmed.addNft account
  | removeNft account => exact trimmed.removeNft account

/-- A part of the entries that merging adds up, and that every posting changes by its amount, as long
as the result is within the bound. -/
structure AddsUp (part : AccountFlow → Int) (amount : Posting → Int) (volume : Posting → Nat)
    (bound : Nat) : Prop where
  empty : part {} = 0
  merge (entry other : AccountFlow) (small : (part entry + part other).natAbs ≤ bound) :
    part (entry.merge other) = part entry + part other
  onEntry (posting : Posting) (entry : AccountFlow)
    (small : (part entry).natAbs + volume posting ≤ bound) :
    part (posting.onEntry entry) = part entry + amount posting
  within (posting : Posting) : (amount posting).natAbs ≤ volume posting

/-- How much TON the posting moves, fees included. -/
def tonVolume (posting : Posting) : Nat := posting.credit.natAbs + posting.fee.natAbs

def jettonVolume (master : Address) (posting : Posting) : Nat := (posting.jettons master).natAbs

theorem addsUp_ton : AddsUp (·.ton.val) (fun posting => posting.credit - posting.fee) tonVolume
    Nanotons.bound where
  empty := rfl
  merge entry other small :=
    (Ranged.val_saturatingAdd_iff _ _).mpr (Nanotons.fits_of_natAbs_le small)
  onEntry posting entry small := by
    cases posting with
    | addTon account amount =>
      simp only [tonVolume, credit, fee] at small
      have exact := (Ranged.val_saturatingAdd_iff entry.ton amount).mpr
        (Nanotons.fits_of_natAbs_le (by omega))
      simpa [Posting.onEntry, credit, fee] using exact
    | addFee account paid =>
      simp only [tonVolume, credit, fee] at small
      have exact := (Ranged.val_saturatingSub_iff entry.ton paid).mpr
        (Nanotons.fits_of_natAbs_le (by omega))
      simpa [Posting.onEntry, credit, fee, Int.sub_eq_add_neg] using exact
    | _ => simp [Posting.onEntry, credit, fee, AccountFlow.addJetton]
  within posting := by
    simp only [tonVolume]
    omega

theorem addsUp_fees : AddsUp (·.fees.val) fee tonVolume Nanotons.bound where
  empty := rfl
  merge entry other small :=
    (Ranged.val_saturatingAdd_iff _ _).mpr (Nanotons.fits_of_natAbs_le small)
  onEntry posting entry small := by
    cases posting with
    | addFee account paid =>
      simp only [tonVolume, credit, fee] at small
      exact (Ranged.val_saturatingAdd_iff entry.fees paid).mpr (Nanotons.fits_of_natAbs_le (by omega))
    | _ => simp [Posting.onEntry, fee, AccountFlow.addJetton]
  within posting := by
    simp only [tonVolume]
    omega

theorem addsUp_jettons (master : Address) : AddsUp (fun entry => (entry.jetton master).val)
    (jettons master) (jettonVolume master) JettonDelta.bound where
  empty := rfl
  merge entry other small := by
    rw [AccountFlow.jetton_merge]
    exact (Ranged.val_saturatingAdd_iff _ _).mpr (JettonDelta.fits_of_natAbs_le small)
  onEntry posting entry small := by
    cases posting with
    | addJettons account jetton amount =>
      simp only [jettonVolume, jettons] at small ⊢
      rw [Posting.onEntry, AccountFlow.jetton_addJetton]
      split
      case isTrue same =>
        rw [if_pos same] at small
        -- An amount within the bound is credited in full.
        have credited : amount.credit.val = amount.units := JettonAmount.val_credit (by omega)
        rw [← credited] at small ⊢
        exact (Ranged.val_saturatingAdd_iff _ _).mpr (JettonDelta.fits_of_natAbs_le (by omega))
      case isFalse => rw [Int.add_zero]
    | removeJettons account jetton amount =>
      simp only [jettonVolume, jettons] at small ⊢
      rw [Posting.onEntry, AccountFlow.jetton_addJetton]
      split
      case isTrue same =>
        rw [if_pos same] at small
        have debited : amount.debit.val = -amount.units := JettonAmount.val_debit (by omega)
        rw [← debited] at small ⊢
        exact (Ranged.val_saturatingAdd_iff _ _).mpr (JettonDelta.fits_of_natAbs_le (by omega))
      case isFalse => rw [Int.add_zero]
    | _ => simp [Posting.onEntry, jettons, AccountFlow.jetton]
  within posting := Nat.le_refl _

theorem addsUp_nfts (side : NftSide) (bound : Nat) : AddsUp (fun entry => (entry.nfts.on side : Int))
    (nfts side) (fun posting => (posting.nfts side).natAbs) bound where
  empty := by cases side <;> rfl
  merge entry other _ := by cases side <;> simp [AccountFlow.merge, NftCount.on]
  onEntry posting entry _ := by
    cases side <;> cases posting <;>
      simp [Posting.onEntry, nfts, NftCount.on, AccountFlow.addJetton]
  within posting := Nat.le_refl _

end Posting

/-- What is done to a ledger, step by step. A ledger that is merged into it has a journal of its own,
and starts empty. -/
inductive Journal where
  | done
  | post (posting : Posting) (rest : Journal)
  | merge (other rest : Journal)

namespace Journal

open Posting

def run : Journal → Flow → Flow
  | .done, flow => flow
  | .post posting rest, flow => rest.run (posting.enter flow)
  | .merge other rest, flow => rest.run (flow.merge (other.run .empty))

def ledger (journal : Journal) : Flow := journal.run .empty

def postings : Journal → List Posting
  | .done => []
  | .post posting rest => posting :: rest.postings
  | .merge other rest => other.postings ++ rest.postings

theorem contains_run (journal : Journal) (flow : Flow) (account : Address) :
    (journal.run flow).accounts.contains account ↔
      flow.accounts.contains account ∨ ∃ posting ∈ journal.postings, posting.account = account := by
  induction journal generalizing flow with
  | done => simp [run, postings]
  | post posting rest ih =>
    rw [run, ih, contains_enter, postings]
    simp only [List.exists_mem_cons_iff]
    tauto
  | merge other rest inner ih =>
    rw [run, ih, Flow.contains_merge, Bool.or_eq_true, inner, postings]
    simp only [List.mem_append, or_and_right, exists_or]
    simp [Flow.empty, or_assoc]

theorem trimmed_run (journal : Journal) {flow : Flow} (trimmed : flow.Trimmed) :
    (journal.run flow).Trimmed := by
  induction journal generalizing flow with
  | done => exact trimmed
  | post posting rest ih => exact ih (trimmed_enter trimmed posting)
  | merge other rest _ ih => exact ih (trimmed.merge _)

/-- What adds up comes to the total of the postings, as long as their volume is within the bound
together with what was there before. -/
theorem part_run {part : AccountFlow → Int} {amount : Posting → Int} {volume : Posting → Nat}
    {bound : Nat} (adds : AddsUp part amount volume bound) (account : Address) (journal : Journal)
    {flow : Flow}
    (small : (part (flow.entry account)).natAbs + (journal.postings.map volume).sum ≤ bound) :
    part ((journal.run flow).entry account) =
      part (flow.entry account) + total amount account journal.postings := by
  induction journal generalizing flow with
  | done => exact (Int.add_zero _).symm
  | post posting rest ih =>
    rw [postings, List.map_cons, List.sum_cons] at small
    have within := adds.within posting
    have entered : part ((posting.enter flow).entry account) =
        part (flow.entry account) + if posting.account = account then amount posting else 0 := by
      rw [entry_enter]
      split
      · exact adds.onEntry posting _ (by omega)
      · rw [Int.add_zero]
    have next : (part ((posting.enter flow).entry account)).natAbs ≤
        (part (flow.entry account)).natAbs + volume posting := by
      rw [entered]
      split <;> omega
    rw [run, ih (by omega), entered, postings, total_cons, Int.add_assoc]
  | merge other rest inner ih =>
    rw [postings, List.map_append, List.sum_append] at small
    -- What is merged in starts from nothing, so only its own volume has to be in range.
    have start : part (Flow.empty.entry account) = 0 := adds.empty
    have made : part ((other.run .empty).entry account) = total amount account other.postings := by
      rw [inner (by rw [start, Int.natAbs_zero]; omega), start, Int.zero_add]
    have within : (total amount account other.postings).natAbs ≤ (other.postings.map volume).sum :=
      natAbs_total_le adds.within other.postings
    have merged : part ((flow.merge (other.run .empty)).entry account) =
        part (flow.entry account) + total amount account other.postings := by
      rw [Flow.entry_merge, adds.merge _ _ (by omega), made]
    rw [run, ih (by omega), merged, postings, total_append, Int.add_assoc]

theorem part_ledger {part : AccountFlow → Int} {amount : Posting → Int} {volume : Posting → Nat}
    {bound : Nat} (adds : AddsUp part amount volume bound) {journal : Journal}
    (small : (journal.postings.map volume).sum ≤ bound) (account : Address) :
    part (journal.ledger.entry account) = total amount account journal.postings := by
  have start : part (Flow.empty.entry account) = 0 := adds.empty
  have room : (part (Flow.empty.entry account)).natAbs + (journal.postings.map volume).sum ≤ bound := by
    rw [start, Int.natAbs_zero]
    omega
  have sum := part_run adds account journal room
  rwa [start, Int.zero_add] at sum

/-- All amounts of TON together are in range, and so are all amounts of each jetton. -/
structure Fits (journal : Journal) : Prop where
  ton : (journal.postings.map tonVolume).sum ≤ Nanotons.bound
  jettons (master : Address) : (journal.postings.map (jettonVolume master)).sum ≤ JettonDelta.bound

structure Sums (postings : List Posting) (account : Address) (entry : AccountFlow) : Prop where
  ton : entry.ton.val = total credit account postings - total fee account postings
  fees : entry.fees.val = total fee account postings
  jettons (master : Address) : (entry.jetton master).val = total (Posting.jettons master) account postings
  nfts (side : NftSide) : (entry.nfts.on side : Int) = total (Posting.nfts side) account postings

theorem Fits.sums {journal : Journal} (fits : journal.Fits) (account : Address) :
    Sums journal.postings account (journal.ledger.entry account) where
  ton := by rw [← total_sub, part_ledger addsUp_ton fits.ton]
  fees := part_ledger addsUp_fees fits.ton account
  jettons master := part_ledger (addsUp_jettons master) (fits.jettons master) account
  nfts side := part_ledger (addsUp_nfts side _) (Nat.le_refl _) account

theorem Sums.unique {postings others : List Posting} {account : Address} {entry other : AccountFlow}
    (sums : Sums postings account entry) (also : Sums others account other)
    (same : postings.Perm others) (trimmed : entry.Trimmed) (too : other.Trimmed) : entry = other := by
  refine trimmed.ext too (Ranged.ext ?_) (Ranged.ext ?_) (fun master => Ranged.ext ?_) ?_
  · rw [sums.ton, also.ton, total_perm same, total_perm same]
  · rw [sums.fees, also.fees, total_perm same]
  · rw [sums.jettons, also.jettons, total_perm same]
  · have sides : ∀ side, entry.nfts.on side = other.nfts.on side := fun side => by
      have counts := (sums.nfts side).trans ((total_perm same).trans (also.nfts side).symm)
      exact Int.ofNat_inj.mp counts
    have received := sides .received
    have sent := sides .sent
    revert received sent
    cases entry.nfts
    cases other.nfts
    rintro ⟨⟩ ⟨⟩
    rfl

theorem Fits.perm {journal other : Journal} (fits : journal.Fits)
    (same : other.postings.Perm journal.postings) : other.Fits where
  ton := by rw [(same.map _).sum_eq]; exact fits.ton
  jettons master := by rw [(same.map _).sum_eq]; exact fits.jettons master

theorem ledger_eq_of_perm {journal other : Journal} (fits : journal.Fits)
    (same : other.postings.Perm journal.postings) : other.ledger = journal.ledger := by
  have trimmed : ∀ journal : Journal, journal.ledger.Trimmed := fun journal =>
    trimmed_run journal Flow.trimmed_empty
  refine Flow.ext_of_entry (fun account => ?_) fun account => ?_
  · rw [Bool.eq_iff_iff, ledger, ledger, contains_run, contains_run]
    simp only [same.mem_iff]
  · exact ((fits.perm same).sums account).unique (fits.sums account) same (trimmed other account)
      (trimmed journal account)

end Journal

end TonTrace
