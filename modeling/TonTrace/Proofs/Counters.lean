import TonTrace.Proofs.Checked

/-! Journals whose NFT counters are words of 64 bits. A counter only grows, so a
run with checked counters is refused at some step exactly when some counter of
the whole ledger does not fit. The amounts have no say in it: they clamp. -/

set_option autoImplicit false

namespace TonTrace

open Checked

namespace Posting

theorem nfts_le_one (side : NftSide) (posting : Posting) : (posting.nfts side).natAbs ≤ 1 := by
  cases side <;> cases posting <;> simp [nfts]

end Posting

namespace Journal

open Posting

/-- Run the journal with checked counters, those of merged ledgers included. -/
def runChecked : Journal → Flow → Checked Flow
  | .done, flow => .ok flow
  | .post posting rest, flow => do
    let entered ← posting.enterChecked flow
    rest.runChecked entered
  | .merge other rest, flow => do
    let made ← other.runChecked .empty
    let merged ← flow.mergeChecked made
    rest.runChecked merged

def ledgerChecked (journal : Journal) : Checked Flow := journal.runChecked .empty

/-- No account is on one side of more NFTs than a word of 64 bits can count. -/
def CountsFit (journal : Journal) : Prop :=
  ∀ account side, total (Posting.nfts side) account journal.postings ≤ maxInt64

theorem guards_merged {other : Journal} (inner : Guards Flow.CountsFit other.runChecked other.run) :
    Guards Flow.CountsFit (fun flow => other.runChecked .empty >>= flow.mergeChecked)
      (fun flow => flow.merge (other.run .empty)) where
  eq_ok_iff := by
    intro flow next ready
    have merges := Flow.guards_merge (other.run .empty)
    rw [bind_eq_ok_iff]
    constructor
    · rintro ⟨made, here, there⟩
      obtain ⟨_, rfl⟩ := (inner.eq_ok_iff Flow.countsFit_empty).mp here
      exact (merges.eq_ok_iff ready).mp there
    · rintro ⟨fits, rfl⟩
      -- What is merged in counts no more than the whole, so its own run was not refused before.
      have made := inner.eq_ok fits.of_merge.2
      exact ⟨_, made, (merges.eq_ok_iff ready).mpr ⟨fits, rfl⟩⟩
  of_plain fits := fits.of_merge.1

theorem guards_run (journal : Journal) : Guards Flow.CountsFit journal.runChecked journal.run := by
  induction journal with
  | done => exact .of_ok fun _ => Iff.rfl
  | post posting rest ih => exact (guards_enter posting).andThen ih
  | merge other rest inner ih =>
    have both := (guards_merged inner).andThen ih
    simp only [bind_assoc] at both
    exact both

theorem countsFit_ledger_iff {journal : Journal} : journal.ledger.CountsFit ↔ journal.CountsFit := by
  apply forall_congr'
  intro account
  apply forall_congr'
  intro side
  rw [← part_ledger (addsUp_nfts side _) (Nat.le_refl _) account, Int.ofNat_le]

theorem ledgerChecked_eq_ok_iff {journal : Journal} {ledger : Flow} :
    journal.ledgerChecked = .ok ledger ↔ journal.CountsFit ∧ ledger = journal.ledger := by
  rw [← countsFit_ledger_iff]
  exact (guards_run journal).eq_ok_iff Flow.countsFit_empty

theorem CountsFit.of_length {journal : Journal} (few : journal.postings.length ≤ maxInt64) :
    journal.CountsFit := by
  intro account side
  have ones : (total (Posting.nfts side) account journal.postings).natAbs ≤
      (journal.postings.map fun _ => 1).sum :=
    natAbs_total_le (nfts_le_one side) journal.postings
  rw [List.map_const', List.sum_replicate_nat, Nat.mul_one] at ones
  omega

theorem CountsFit.perm {journal other : Journal} (fits : journal.CountsFit)
    (same : other.postings.Perm journal.postings) : other.CountsFit := by
  intro account side
  rw [total_perm same]
  exact fits account side

/-- No journal leaves a jetton balance of zero, after any of its steps, and it runs to the end exactly
when its NFTs can be counted. When all amounts are in range together, every figure of every account is
exactly what was posted, a jetton is listed just when its balance is not zero, and any other order or
grouping of the same postings gives the same ledger. -/
theorem ledger_adds_up (journal : Journal) :
    (∀ account entry, journal.ledger.get? account = some entry →
      ∀ master, entry.jettons.find? master ≠ some 0) ∧
    (∀ ledger, journal.ledgerChecked = .ok ledger ↔ journal.CountsFit ∧ ledger = journal.ledger) ∧
    (journal.Fits →
      (∀ account,
        let entry := journal.ledger.entry account
        let balance := fun master => total (Posting.jettons master) account journal.postings
        entry.ton.val = total credit account journal.postings - total fee account journal.postings ∧
        entry.fees.val = total fee account journal.postings ∧
        (∀ master, (entry.jettons.find? master).map (·.val) =
          if balance master = 0 then none else some (balance master)) ∧
        ∀ side, (entry.nfts.on side : Int) = total (Posting.nfts side) account journal.postings) ∧
      ∀ other : Journal, other.postings.Perm journal.postings → other.ledger = journal.ledger ∧
        (journal.CountsFit → other.ledgerChecked = .ok journal.ledger)) := by
  have trimmed : journal.ledger.Trimmed := trimmed_run journal Flow.trimmed_empty
  refine ⟨?balances, fun _ => ledgerChecked_eq_ok_iff, fun fits => ⟨?figures, ?order⟩⟩
  case balances =>
    intro account entry found
    have own := trimmed account
    rwa [Flow.entry, found] at own
  case figures =>
    intro account
    have sums := fits.sums account
    refine ⟨sums.ton, sums.fees, fun master => ?_, sums.nfts⟩
    have zero : (journal.ledger.entry account).jetton master = 0 ↔
        total (Posting.jettons master) account journal.postings = 0 := by
      rw [← sums.jettons]
      exact Ranged.val_inj.symm
    rw [(trimmed account).find?_eq, apply_ite (Option.map Ranged.val), Option.map_some, sums.jettons]
    simp only [zero, Option.map_none]
  case order =>
    intro other same
    have regrouped := ledger_eq_of_perm fits same
    refine ⟨regrouped, fun counts => ?_⟩
    exact ledgerChecked_eq_ok_iff.mpr ⟨counts.perm same, regrouped.symm⟩

def errand : Journal :=
  .post (.addTon ⟨0, ⟨1⟩⟩ (.clamp 10)) <|
  .merge (.post (.addJettons ⟨0, ⟨1⟩⟩ ⟨0, ⟨9⟩⟩ (.clamp 7)) <|
    .post (.removeJettons ⟨0, ⟨1⟩⟩ ⟨0, ⟨9⟩⟩ (.clamp 7)) <|
    .post (.addFee ⟨0, ⟨1⟩⟩ (.clamp 4)) .done) <|
  .post (.addNft ⟨0, ⟨1⟩⟩) .done

def reshuffled : Journal :=
  .merge (.post (.removeJettons ⟨0, ⟨1⟩⟩ ⟨0, ⟨9⟩⟩ (.clamp 7)) .done) <|
  .merge (.post (.addNft ⟨0, ⟨1⟩⟩) <| .merge (.post (.addFee ⟨0, ⟨1⟩⟩ (.clamp 4)) .done) <|
    .post (.addTon ⟨0, ⟨1⟩⟩ (.clamp 10)) .done) <|
  .post (.addJettons ⟨0, ⟨1⟩⟩ ⟨0, ⟨9⟩⟩ (.clamp 7)) .done

theorem ledger_adds_up_errand : errand.Fits ∧ errand.CountsFit ∧
    (errand.ledger.entry ⟨0, ⟨1⟩⟩).ton.val = 6 ∧
    (errand.ledger.entry ⟨0, ⟨1⟩⟩).jettons.find? ⟨0, ⟨9⟩⟩ = none ∧
    errand.ledgerChecked = .ok errand.ledger ∧ reshuffled.ledgerChecked = .ok errand.ledger := by
  have fits : errand.Fits := by
    refine ⟨by decide, fun master => ?_⟩
    simp only [errand, postings, jettonVolume, Posting.jettons, List.map_append, List.map_cons,
      List.map_nil]
    split
    · decide
    · decide
  have counts : errand.CountsFit := .of_length (by decide)
  obtain ⟨_, outcome, adds⟩ := ledger_adds_up errand
  obtain ⟨sums, order⟩ := adds fits
  obtain ⟨ton, _, jettons, _⟩ := sums ⟨0, ⟨1⟩⟩
  exact ⟨fits, counts, ton, Option.map_eq_none_iff.mp (jettons ⟨0, ⟨9⟩⟩),
    (outcome _).mpr ⟨counts, rfl⟩, (order reshuffled (by decide)).2 counts⟩

/-- One NFT, and a ledger merged with a copy of itself this many times. -/
def doubled (account : Address) : Nat → Journal
  | 0 => .post (.addNft account) .done
  | times + 1 => .merge (doubled account times) <| .merge (doubled account times) .done

theorem total_doubled (account : Address) (times : Nat) :
    total (Posting.nfts .received) account (doubled account times).postings = 2 ^ times := by
  induction times with
  | zero => simp [doubled, postings, total, Posting.account, Posting.nfts]
  | succ times ih =>
    simp only [doubled, postings, total_append, ih, List.append_nil]
    omega

theorem volume_doubled {volume : Posting → Nat} {account : Address}
    (free : volume (.addNft account) = 0) (times : Nat) :
    ((doubled account times).postings.map volume).sum = 0 := by
  induction times with
  | zero => simpa [doubled, postings] using free
  | succ times ih => simp [doubled, postings, ih]

/-- Amounts alone say nothing of the counters: without moving any TON or jettons, 63 doublings of one
NFT leave the counter's type. -/
theorem doubled_overflows : (doubled ⟨0, ⟨1⟩⟩ 63).Fits ∧
    total (Posting.nfts .received) ⟨0, ⟨1⟩⟩ (doubled ⟨0, ⟨1⟩⟩ 63).postings = 2 ^ 63 ∧
    ∀ ledger, (doubled ⟨0, ⟨1⟩⟩ 63).ledgerChecked ≠ .ok ledger := by
  have count := total_doubled ⟨0, ⟨1⟩⟩ 63
  refine ⟨⟨?_, fun master => ?_⟩, count, fun ledger ends => ?_⟩
  · rw [volume_doubled rfl]
    exact Nat.zero_le _
  · rw [volume_doubled rfl]
    exact Nat.zero_le _
  · have small := (ledgerChecked_eq_ok_iff.mp ends).1 ⟨0, ⟨1⟩⟩ .received
    rw [count] at small
    revert small
    decide

end Journal

end TonTrace
