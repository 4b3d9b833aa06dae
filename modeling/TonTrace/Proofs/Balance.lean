import TonTrace.Proofs.Figure

/-! The ledger of an accepted trace, account by account: every balance is what
the account received less what it sent and paid, however the trace was read. -/

set_option autoImplicit false

namespace TonTrace.Trace

def received (trace : Trace) (account : Address) : Int :=
  ((trace.preorder.filter fun tx => tx.account = account).map (·.value.val)).sum

def sent (trace : Trace) (account : Address) : Int :=
  ((trace.preorder.filter fun tx => tx.sender? = some account).map (·.value.val)).sum

def charged (trace : Trace) (account : Address) : Int :=
  ((trace.preorder.filter fun tx => tx.account = account).map (·.fees.exact)).sum

theorem sum_ton (trace : Trace) (account : Address) : Figure.ton.sum trace account =
    trace.received account - trace.sent account - trace.charged account := by
  change (trace.preorder.map (·.tonChange account)).sum = _
  unfold received sent charged
  induction trace.preorder with
  | nil => rfl
  | cons tx rest ih =>
    rw [List.map_cons, List.sum_cons, ih, Transaction.tonChange]
    by_cases own : tx.account = account <;> by_cases paid : tx.sender? = some account <;>
      simp [own, paid] <;> omega

theorem sum_fees (trace : Trace) (account : Address) :
    Figure.fees.sum trace account = trace.charged account := by
  change (trace.preorder.map (·.charge account)).sum = _
  unfold charged
  induction trace.preorder with
  | nil => rfl
  | cons tx rest ih =>
    rw [List.map_cons, List.sum_cons, ih, Transaction.charge]
    by_cases own : tx.account = account <;> simp [own]

theorem ton_ofTrace {limit : Nat} {trace : Trace} (valid : trace.validate limit = .ok ())
    (groups : PatternGroups) (rewrites : Nat) (subject : Option Address) (account : Address) :
    (Report.ofTrace (Catalog.rules groups) rewrites subject trace).flow.ton account =
      Figure.ton.sum trace account := by
  rw [← Figure.of_ton, Figure.ofTrace _ valid]

theorem fees_ofTrace {limit : Nat} {trace : Trace} (valid : trace.validate limit = .ok ())
    (groups : PatternGroups) (rewrites : Nat) (subject : Option Address) (account : Address) :
    (Report.ofTrace (Catalog.rules groups) rewrites subject trace).flow.fees account =
      Figure.fees.sum trace account := by
  rw [← Figure.of_fees, Figure.ofTrace _ valid]

/-- The ledger of an accepted trace is exact, and nothing that is clamped while it is made
is changed by that: neither when a transaction is read, nor when a rewrite brings clusters
together, nor when the report is collected. -/
theorem ledger_exact {limit : Nat} {trace : Trace} (valid : trace.validate limit = .ok ())
    (groups : PatternGroups) (rewrites : Nat) (subject : Option Address) :
    let reading := (rewriteAll (Catalog.rules groups) rewrites (.ofTrace trace)).1
    let flow := (Report.ofReading subject reading).flow
    (∀ account,
      flow.ton account = trace.received account - trace.sent account - trace.charged account ∧
      flow.fees account = trace.charged account) ∧
    (∀ tx ∈ trace.preorder, tx.SeedFits) ∧
    (∀ between, Reaches (Catalog.rules groups) (.ofTrace trace) between →
      ∀ target ∈ between.subtrees, ∀ paths, Flow.FoldFits ((target.split paths).1.map (·.flow))) ∧
    (∀ node ∈ reading.subtrees,
      Flow.FoldFits (Report.mergedAt (fun action => subject.all action.isSubject) node)) ∧
    ∀ others bound viewer,
      flow.SameTon (Report.ofTrace (Catalog.rules others) bound viewer trace).flow := by
  intro reading flow
  have reached : Reaches (Catalog.rules groups) (.ofTrace trace) reading :=
    reaches_rewriteAll _ rewrites _
  have made : flow = (Report.ofTrace (Catalog.rules groups) rewrites subject trace).flow := rfl
  refine ⟨fun account => ⟨?_, ?_⟩, seedFits_of_validate valid, ?_, ?_, ?_⟩
  · rw [made, ton_ofTrace valid, sum_ton]
  · rw [made, fees_ofTrace valid, sum_fees]
  · intro between reached target inside paths before next after parts account
    exact ⟨Figure.ton.fits_split valid reached inside paths parts account,
      Figure.fees.fits_split valid reached inside paths parts account⟩
  · intro node inside before next after parts account
    exact ⟨Figure.ton.fits_mergedAt valid reached _ inside parts account,
      Figure.fees.fits_mergedAt valid reached _ inside parts account⟩
  · intro others bound viewer account
    rw [made, ton_ofTrace valid, ton_ofTrace valid, fees_ofTrace valid, fees_ofTrace valid]
    exact ⟨rfl, rfl⟩

/-- A message from outside for which an account pays a fee of two and sends on five, of which
one is left as a fee. -/
def forwarding : Trace :=
  .node {
      hash := ⟨1⟩
      account := ⟨0, ⟨1⟩⟩
      success := true
      inMessage := some { external := true }
      fees := { compute := .clamp 2 } } [
    .leaf {
      hash := ⟨2⟩
      account := ⟨0, ⟨2⟩⟩
      success := true
      inMessage := some { source := some ⟨0, ⟨1⟩⟩, value := .clamp 5 }
      fees := { storage := .clamp 1 } }]

theorem ledger_exact_forwarding : forwarding.validate 1 = .ok () ∧
    (Report.ofTrace (Catalog.rules {}) 1000 none forwarding).flow.ton ⟨0, ⟨1⟩⟩ = -7 := by
  have valid : forwarding.validate 1 = .ok () := rfl
  refine ⟨valid, ((ledger_exact valid {} 1000 none).1 ⟨0, ⟨1⟩⟩).1.trans ?_⟩
  decide

end TonTrace.Trace
