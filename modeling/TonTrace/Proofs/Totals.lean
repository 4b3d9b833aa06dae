import TonTrace.Proofs.AddressMap
import TonTrace.Proofs.Balance

/-! The totals of a ledger, added up in address order. The accounts that are
met first are some set of accounts, and what a trace changes for a set of
accounts together is within its volume, so no partial sum leaves the range. -/

set_option autoImplicit false

namespace TonTrace

namespace Flow

theorem values_eq (flow : Flow) : flow.accounts.values = flow.accounts.keys.map flow.entry := by
  have found := congrArg (List.map fun entry => Option.getD entry {}) flow.accounts.map_find?_keys
  rw [List.map_map, List.map_map] at found
  exact (List.map_id _).symm.trans found.symm

variable {flow : Flow}

theorem exists_sum_eq (part : AccountFlow → Int) {before after : List AccountFlow}
    (parts : flow.accounts.values = before ++ after) :
    ∃ accounts : Finset Address,
      (before.map part).sum = ∑ account ∈ accounts, part (flow.entry account) := by
  rw [values_eq] at parts
  obtain ⟨first, rest, keys, rfl, _⟩ := List.map_eq_append_iff.mp parts
  have nodup := flow.accounts.nodup_keys
  rw [keys] at nodup
  refine ⟨first.toFinset, ?_⟩
  rw [List.sum_toFinset _ nodup.of_append_left, List.map_map]
  rfl

theorem sum_values_eq {M : Type} [AddCommMonoid M] {part : AccountFlow → M} (empty : part {} = 0)
    {accounts : Finset Address}
    (all : flow.accounts.keys.toFinset ⊆ accounts) :
    (flow.accounts.values.map part).sum = ∑ account ∈ accounts, part (flow.entry account) := by
  rw [values_eq, List.map_map, ← List.sum_toFinset _ flow.accounts.nodup_keys]
  apply Finset.sum_subset all
  intro account _ absent
  rw [List.mem_toFinset] at absent
  simp only [Function.comp_apply, entry, get?, AddressMap.find?_eq_none_of_not_mem absent,
    Option.getD_none, empty]

theorem sum?_values (part : AccountFlow → Nanotons)
    (small : ∀ accounts : Finset Address,
      (∑ account ∈ accounts, (part (flow.entry account)).val).natAbs ≤ Nanotons.bound) :
    (∀ before after, flow.accounts.values = before ++ after →
      Nanotons.Fits (before.map fun entry => (part entry).val).sum) ∧
    ∃ total, Ranged.sum? (flow.accounts.values.map part) = some total ∧
      total.val = (flow.accounts.values.map fun entry => (part entry).val).sum := by
  have fits : ∀ before after, flow.accounts.values = before ++ after →
      Nanotons.Fits (before.map fun entry => (part entry).val).sum := by
    intro before after parts
    -- The entries that are met first are those of some set of accounts.
    obtain ⟨accounts, same⟩ := exists_sum_eq (fun entry => (part entry).val) parts
    rw [same]
    exact Nanotons.fits_of_natAbs_le (small accounts)
  have sum : ∃ total, Ranged.sum? (flow.accounts.values.map part) = some total ∧
      total.val = ((flow.accounts.values.map part).map Ranged.val).sum := by
    refine Ranged.sum?_of_fits fun before after parts => ?_
    obtain ⟨first, rest, values, rfl, _⟩ := List.map_eq_append_iff.mp parts
    rw [List.map_map]
    exact fits first rest values
  rw [List.map_map] at sum
  exact ⟨fits, sum⟩

end Flow

namespace Transaction

/-- What comes from outside: the value of an incoming message without a source. -/
def inflow (tx : Transaction) : Int :=
  match tx.inMessage with
  | none => 0
  | some message => if message.source = none then message.value.val else 0

theorem inflow_eq (tx : Transaction) : tx.inflow = if tx.sender? = none then tx.value.val else 0 := by
  unfold inflow sender? value
  cases tx.inMessage with
  | none => simp
  | some message => simp

theorem sum_tonChange_all {tx : Transaction} {accounts : Finset Address}
    (own : tx.account ∈ accounts) (sender : ∀ account, tx.sender? = some account → account ∈ accounts) :
    ∑ account ∈ accounts, tx.tonChange account = tx.inflow - tx.fees.exact := by
  rw [sum_tonChange, if_pos own, inflow_eq]
  cases found : tx.sender? with
  | none => simp
  | some account => simp [sender account found]

theorem mapM_checkedTotal? {txs : List Transaction} (payable : ∀ tx ∈ txs, tx.Payable)
    (fits : ∀ tx ∈ txs, tx.SeedFits) :
    txs.mapM (·.fees.checkedTotal?) = some (txs.map (·.fees.total)) := by
  induction txs with
  | nil => rfl
  | cons tx rest ih =>
    obtain ⟨owed, others⟩ := List.forall_mem_cons.mp payable
    obtain ⟨seeded, further⟩ := List.forall_mem_cons.mp fits
    have accepted : tx.fees.checkedTotal? = some tx.fees.total :=
      Fees.checkedTotal?_eq_some_iff.mpr ⟨owed.fees, total_val seeded.upkeep seeded.total⟩
    rw [List.mapM_cons, accepted, ih others further]
    rfl

end Transaction

namespace Trace

variable {limit : Nat} {trace : Trace}

theorem sender?_isSome {limit depth : Nat} {trace : Trace} (sound : Sound limit depth trace) :
    ∀ tx ∈ trace.children.flatMap Tree.preorder, tx.sender?.isSome := by
  induction trace using Tree.induct generalizing depth with
  | node root children ih =>
    obtain ⟨_, _, each⟩ := sound_node_iff.mp sound
    intro tx member
    obtain ⟨child, inside, member⟩ := List.mem_flatMap.mp member
    obtain ⟨sent, below⟩ := each child inside
    cases child with
    | node value deeper =>
      rw [Tree.preorder_node, List.mem_cons] at member
      rcases member with rfl | member
      · rw [sent.sender?_eq]
        rfl
      · exact ih _ inside below tx member

/-- Some accounts that include those of a ledger and all that the transactions are about. -/
theorem exists_accounts (keys : List Address) (txs : List Transaction) :
    ∃ accounts : Finset Address, keys.toFinset ⊆ accounts ∧
      ∀ tx ∈ txs, tx.account ∈ accounts ∧ ∀ sender, tx.sender? = some sender → sender ∈ accounts := by
  refine ⟨(keys ++ txs.map (·.account) ++ txs.filterMap (·.sender?)).toFinset, ?_, ?_⟩
  · intro account member
    simp only [List.mem_toFinset, List.mem_append] at member ⊢
    exact .inl (.inl member)
  · intro tx member
    simp only [List.mem_toFinset, List.mem_append]
    exact ⟨.inl (.inr (List.mem_map_of_mem member)),
      fun sender found => .inr (List.mem_filterMap.mpr ⟨tx, member, found⟩)⟩

theorem sum_inflow {depth : Nat} (sound : Sound limit depth trace) :
    (trace.preorder.map (·.inflow)).sum = trace.value.inflow := by
  have sent := sender?_isSome sound
  cases trace with
  | node root children =>
    -- Below the root every message has a sender.
    have below : ((children.flatMap Tree.preorder).map (·.inflow)).sum = 0 := by
      refine List.sum_eq_zero fun amount member => ?_
      obtain ⟨tx, inside, rfl⟩ := List.mem_map.mp member
      rw [Transaction.inflow_eq, if_neg (Option.ne_none_iff_isSome.mpr (sent tx inside))]
    rw [Tree.preorder_node, List.map_cons, List.sum_cons, below, Int.add_zero]

theorem total_collect (figure : Figure) (valid : trace.validate limit = .ok ())
    {groups : PatternGroups} {reading : Reading}
    (reached : Reaches (Catalog.rules groups) (.ofTrace trace) reading) (keep : Action → Bool) :
    let flow := (Report.collect keep reading).flow
    (∀ before after, flow.accounts.values = before ++ after →
      Nanotons.Fits (before.map fun entry => (figure.part entry).val).sum) ∧
    ∃ total accounts, Ranged.sum? (flow.accounts.values.map figure.part) = some total ∧
      (∀ tx ∈ trace.preorder, tx.account ∈ accounts ∧
        ∀ sender, tx.sender? = some sender → sender ∈ accounts) ∧
      total.val =
        (trace.preorder.map fun tx => ∑ account ∈ accounts, figure.change tx account).sum := by
  intro flow
  have exact : ∀ account, (figure.part (flow.entry account)).val = figure.sum trace account :=
    figure.collect valid reached keep
  obtain ⟨fits, total, sum, same⟩ := flow.sum?_values figure.part fun accounts => by
    simp only [exact]
    exact figure.natAbs_sum_accounts_le valid accounts
  obtain ⟨accounts, all, about⟩ := exists_accounts flow.accounts.keys trace.preorder
  refine ⟨fits, total, accounts, sum, about, ?_⟩
  have empty : (figure.part {}).val = 0 := congrArg Ranged.val figure.empty
  rw [same, Flow.sum_values_eq empty all, ← figure.sum_accounts]
  exact Finset.sum_congr rfl fun account _ => exact account

/-- The totals of the ledger of an accepted trace: no partial sum in address order leaves the
range, the fees are those of all transactions, and the balances add up to what came from outside
less the fees. -/
theorem totals_exact {limit : Nat} {trace : Trace} (valid : trace.validate limit = .ok ())
    (groups : PatternGroups) (rewrites : Nat) (subject : Option Address) :
    let flow := (Report.ofTrace (Catalog.rules groups) rewrites subject trace).flow
    (∀ before after, flow.accounts.values = before ++ after →
      Nanotons.Fits (before.map (·.fees.val)).sum ∧ Nanotons.Fits (before.map (·.ton.val)).sum) ∧
    ∃ charged fees ton,
      trace.preorder.mapM (·.fees.checkedTotal?) = some charged ∧
      flow.totalFees? = some fees ∧ fees.val = (charged.map (·.val)).sum ∧
      flow.totalTon? = some ton ∧ ton.val = trace.value.inflow - fees.val := by
  intro flow
  obtain ⟨sound, _⟩ := sound_of_validate valid
  have seeded := seedFits_of_validate valid
  have charged := Transaction.mapM_checkedTotal? sound.payable seeded
  have reached : Reaches (Catalog.rules groups) (.ofTrace trace) _ := reaches_rewriteAll _ rewrites _
  obtain ⟨feesFit, fees, payers, feesTotal, paying, feesVal⟩ :=
    total_collect Figure.fees valid reached fun action => subject.all action.isSubject
  obtain ⟨tonFits, ton, holders, tonTotal, holding, tonVal⟩ :=
    total_collect Figure.ton valid reached fun action => subject.all action.isSubject
  -- The accounts that are summed over include every payer, so each fee counts once and in full.
  have owed : fees.val = (trace.preorder.map (·.fees.exact)).sum := by
    rw [feesVal]
    refine congrArg List.sum (List.map_congr_left fun tx member => ?_)
    exact (Transaction.sum_charge tx payers).trans (if_pos (paying tx member).1)
  -- What one account sends another one gets, so of the values only the inflow is left.
  have gained : ton.val + (trace.preorder.map (·.fees.exact)).sum = trace.value.inflow := by
    rw [tonVal, ← List.sum_map_add, ← sum_inflow sound]
    refine congrArg List.sum (List.map_congr_left fun tx member => ?_)
    have change := Transaction.sum_tonChange_all (holding tx member).1 (holding tx member).2
    exact (congrArg (· + tx.fees.exact) change).trans (Int.sub_add_cancel _ _)
  refine ⟨fun before after parts => ⟨feesFit before after parts, tonFits before after parts⟩,
    _, fees, ton, charged, feesTotal, ?_, tonTotal, by omega⟩
  rw [owed, List.map_map]
  refine congrArg List.sum (List.map_congr_left fun tx member => ?_)
  exact (Transaction.total_val (seeded tx member).upkeep (seeded tx member).total).symm

theorem totals_exact_forwarding : forwarding.validate 1 = .ok () ∧
    ∃ fees ton, (Report.ofTrace (Catalog.rules {}) 1000 none forwarding).flow.totalFees? = some fees ∧
      (Report.ofTrace (Catalog.rules {}) 1000 none forwarding).flow.totalTon? = some ton ∧
      ton.val = 0 - fees.val := by
  have valid : forwarding.validate 1 = .ok () := rfl
  obtain ⟨_, _, fees, ton, _, feesTotal, _, tonTotal, exact⟩ := totals_exact valid {} 1000 none
  exact ⟨valid, fees, ton, feesTotal, tonTotal, exact⟩

end Trace

end TonTrace
