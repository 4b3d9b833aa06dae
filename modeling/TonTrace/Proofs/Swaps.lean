import TonTrace.Catalog.Market
import TonTrace.Proofs.Making

/-! Swaps. A match of a swap is a line of four nodes, and it is built from the
payout upwards. STON.fi has its pool report what became of the swap, so that a
refund is told from an output. The outcome is that of every node that a rule
looks at, and either rule passes over some: a swap is successful even when one
of those failed. -/

set_option autoImplicit false

namespace TonTrace

namespace Reading

def succeeded (reading : Reading) : Bool :=
  match reading.event with
  | .transaction tx => tx.success
  | .jettonTransfer transfer => transfer.success
  | _ => false

/-- The jettons of a recognised transfer, or the value of a raw transaction. A negative value counts
as nothing. -/
def paid? (reading : Reading) : Option Detail.Asset :=
  match reading.event with
  | .jettonTransfer transfer => some { jetton := transfer.master, amount := transfer.amount }
  | .transaction tx => some { amount := .clamp (max 0 tx.value.val) }
  | _ => none

def swap? (reading : Reading) : Option Event.Swap :=
  match reading.event with
  | .swap swap => some swap
  | _ => none

def stonfiReport? (reading : Reading) : Option Payload.StonfiPaymentRequest := do
  let tx ← reading.transaction?
  (tx.decodeBody Operation.stonfiPaymentRequest).toOption

theorem jettonTransfer_eq_ok_iff {reading : Reading} {transfer : Event.JettonTransfer} :
    reading.jettonTransfer = .ok transfer ↔ reading.event = .jettonTransfer transfer := by
  unfold jettonTransfer
  cases event : reading.event <;> simp

end Reading

theorem tonAsset_eq (value : Nanotons) :
    Catalog.tonAsset value = { amount := .clamp (max 0 value.val) } := by
  have high := value.le_hi
  have same : value.toAmount = .clamp (max 0 value.val) := by
    apply Ranged.ext
    rw [Ranged.val_clamp_of_mem (Int.le_max_left ..) (by omega), Nanotons.toAmount]
    by_cases negative : value.val < 0
    · rw [Ranged.ofInt?, dif_neg (by omega)]
      exact (Int.max_eq_left (Int.le_of_lt negative)).symm
    · rw [Ranged.ofInt?, dif_pos (by omega)]
      exact (Int.max_eq_right (Int.not_lt.mp negative)).symm
  rw [Catalog.tonAsset, same]

def Site.role {Output : Type} (site : Site Output) : String × Reading := (site.pattern.name, site.reading)

/-- The nodes of a match, by the part that took each. -/
def Rule.roles? (rule : Rule) (reading : Reading) : Option (List (String × Reading)) :=
  (rule.pattern.sites? reading).map (List.map Site.role)

def Rule.outcomes? (rule : Rule) (reading : Reading) : Option (List (String × Bool)) :=
  (rule.roles? reading).map (List.map fun role => (role.1, role.2.succeeded))

/-- This is the one part of the pattern, and it is needed. -/
structure Pattern.Over {Output : Type} (pattern part : Pattern Output) : Prop where
  only : pattern.parts = [part]
  needed : part.optional = false

namespace Rule

variable {rule : Rule} {pattern part : Pattern rule.Output} {reading : Reading}
  {sites : List (Site rule.Output)} {output : rule.Output}

/-- What is built does not depend on where the sites are seen from. -/
theorem build_map_below (place : Nat) (sites : List (Site rule.Output)) :
    rule.build (sites.map (Site.below place)) = rule.build sites := by
  rw [build, ← List.map_reverse, List.foldlM_map]
  rfl

theorem exists_build_over (alone : pattern.Over part) (matched : pattern.sites? reading = some sites)
    (built : rule.build sites = .ok output) :
    ∃ child ∈ reading.children, ∃ inside inner, part.sites? child = some inside ∧
      rule.build inside = .ok inner ∧ pattern.build inner reading = .ok output ∧
      sites.map Site.role = (pattern.name, reading) :: inside.map Site.role := by
  obtain ⟨below, found, rfl⟩ := Pattern.sites?_eq_some matched
  rw [alone.only, Pattern.partSites?] at found
  split at found
  case h_1 here =>
    obtain ⟨place, child, inside, there, first, rfl⟩ := Pattern.inFirstChild_eq_some here
    obtain ⟨others, further, rfl⟩ := Option.map_eq_some_iff.mp found
    cases further
    rw [List.append_nil] at built ⊢
    obtain ⟨inner, before, root⟩ := build_cons_eq_ok_iff.mp built
    rw [build_map_below] at before
    refine ⟨child, List.mem_of_getElem? there, inside, inner, first, before, root, ?_⟩
    rw [List.map_cons, List.map_map]
    rfl
  case h_2 => simp [alone.needed] at found

theorem build_last (last : pattern.parts = []) (matched : pattern.sites? reading = some sites)
    (built : rule.build sites = .ok output) :
    pattern.build rule.initial reading = .ok output ∧ sites.map Site.role = [(pattern.name, reading)] := by
  obtain ⟨below, found, rfl⟩ := Pattern.sites?_eq_some matched
  rw [last] at found
  cases found
  obtain ⟨initial, start, root⟩ := build_cons_eq_ok_iff.mp built
  cases start
  exact ⟨root, rfl⟩

end Rule

/-- The nodes of a swap, each below the one before: the order, the pool, what the pool asks to be paid,
and the payout. -/
structure SwapNodes where
  order : Reading
  pool : Reading
  request : Reading
  payout : Reading
  pool_mem : pool ∈ order.children
  request_mem : request ∈ pool.children
  payout_mem : payout ∈ request.children

namespace SwapNodes

def toList (nodes : SwapNodes) : List Reading := [nodes.order, nodes.pool, nodes.request, nodes.payout]

def roles (nodes : SwapNodes) : Detail.Dex → List (String × Reading)
  | .stonfi => [("stonfi_swap", nodes.order), ("stonfi_swap_pool", nodes.pool),
      ("stonfi_payment_request", nodes.request), ("stonfi_payout", nodes.payout)]
  | .dedust => [("dedust_swap", nodes.order), ("dedust_pool", nodes.pool),
      ("dedust_vault_payout", nodes.request), ("dedust_payout", nodes.payout)]

/-- The nodes whose outcome the rule of an exchange looks at. -/
def heeded (nodes : SwapNodes) : Detail.Dex → List Reading
  | .stonfi => [nodes.order, nodes.request, nodes.payout]
  | .dedust =>
    if nodes.order.transaction?.isSome then [nodes.pool, nodes.payout]
    else [nodes.order, nodes.pool, nodes.payout]

/-- The nodes whose outcome it passes over. -/
def overlooked (nodes : SwapNodes) : Detail.Dex → List Reading
  | .stonfi => [nodes.pool]
  | .dedust => if nodes.order.transaction?.isSome then [nodes.order, nodes.request] else [nodes.request]

theorem heeded_or_overlooked {nodes : SwapNodes} {node : Reading} (dex : Detail.Dex)
    (member : node ∈ nodes.toList) : node ∈ nodes.heeded dex ∨ node ∈ nodes.overlooked dex := by
  unfold toList at member
  unfold heeded overlooked
  cases dex with
  | stonfi => grind
  | dedust => split <;> grind

end SwapNodes

namespace Rule

variable {rule : Rule} {target : Reading}

/-- Four patterns in a line take four nodes, and each is built from what those below it have given. -/
theorem Match.exists_line (found : rule.Match target) {second third last : Pattern rule.Output}
    (overSecond : rule.pattern.Over second) (overThird : second.Over third) (overLast : third.Over last)
    (ends : last.parts = []) :
    ∃ nodes : SwapNodes, nodes.order = target ∧
      rule.roles? target = some [(rule.pattern.name, nodes.order), (second.name, nodes.pool),
        (third.name, nodes.request), (last.name, nodes.payout)] ∧
      ∃ paid asked pooled, last.build rule.initial nodes.payout = .ok paid ∧
        third.build paid nodes.request = .ok asked ∧ second.build asked nodes.pool = .ok pooled ∧
        rule.pattern.build pooled target = .ok found.output := by
  obtain ⟨pool, poolMem, sites, pooled, matched, built, order, roles⟩ :=
    exists_build_over overSecond found.matched found.built
  obtain ⟨request, requestMem, sites, asked, matched, built, pooling, rolesBelow⟩ :=
    exists_build_over overThird matched built
  obtain ⟨payout, payoutMem, sites, paid, matched, built, asking, rolesLast⟩ :=
    exists_build_over overLast matched built
  obtain ⟨paying, roleLast⟩ := build_last ends matched built
  refine ⟨⟨target, pool, request, payout, poolMem, requestMem, payoutMem⟩, rfl, ?_,
    paid, asked, pooled, paying, asking, pooling, order⟩
  rw [roles?, found.matched, Option.map_some, roles, rolesBelow, rolesLast, roleLast]

end Rule

def Detail.Dex.rule : Detail.Dex → Rule
  | .stonfi => Catalog.stonfiSwap
  | .dedust => Catalog.dedustSwap

namespace Catalog

variable {swap next : Event.Swap} {reading : Reading}

theorem takePayout_eq_ok (built : takePayout swap reading = .ok next) :
    ∃ asset, reading.paid? = some asset ∧ next.detail.assetOut = asset ∧
      next.success = reading.succeeded := by
  unfold takePayout at built
  unfold Reading.paid? Reading.succeeded
  split at built
  case h_1 transfer event =>
    cases built
    rw [event]
    exact ⟨_, rfl, rfl, rfl⟩
  case h_2 tx event =>
    cases built
    rw [event]
    exact ⟨_, rfl, tonAsset_eq tx.value, rfl⟩
  case h_3 => cases built

theorem takeStonfiOrder_eq_ok (built : takeStonfiOrder swap reading = .ok next) :
    ∃ transfer, reading.event = .jettonTransfer transfer ∧
      next.detail.assetIn = { jetton := transfer.master, amount := transfer.amount } ∧
      next.detail.assetOut = swap.detail.assetOut ∧
      next.success = (swap.success && reading.succeeded) := by
  obtain ⟨transfer, read, built⟩ := bind_eq_ok_iff.mp built
  have event := Reading.jettonTransfer_eq_ok_iff.mp read
  split at built
  · cases built
  · obtain ⟨order, _, built⟩ := bind_eq_ok_iff.mp built
    cases built
    exact ⟨transfer, event, rfl, rfl, by simp only [Reading.succeeded, event]⟩

theorem takeStonfiResult_eq_ok (built : takeStonfiResult swap reading = .ok next) :
    ∃ report, reading.stonfiReport? = some report ∧
      next.success = (swap.success && report.completed && reading.succeeded) ∧
      next.detail.assetOut =
        if !report.completed then {}
        else if swap.detail.assetOut.amount = 0 then
          { swap.detail.assetOut with amount := report.amount0Out.max report.amount1Out }
        else swap.detail.assetOut := by
  obtain ⟨tx, read, built⟩ := bind_eq_ok_iff.mp built
  obtain ⟨report, decoded, built⟩ := bind_eq_ok_iff.mp built
  have event := Reading.transaction_eq_ok_iff.mp read
  cases built
  refine ⟨report, ?_, ?_, rfl⟩
  · simp [Reading.stonfiReport?, Reading.transaction?, event, decoded, Except.toOption]
  · simp only [Reading.succeeded, event]

theorem takeDedustOrder_eq_ok (built : takeDedustOrder swap reading = .ok next) :
    next.success =
      if reading.transaction?.isSome then swap.success else swap.success && reading.succeeded := by
  unfold takeDedustOrder at built
  unfold Reading.transaction? Reading.succeeded
  split at built
  case h_1 tx event =>
    obtain ⟨order, _, built⟩ := bind_eq_ok_iff.mp built
    cases built
    rw [event]
    rfl
  case h_2 transfer event =>
    cases built
    rw [event]
    rfl
  case h_3 => cases built

theorem takeDedustPool_eq_ok (built : takeDedustPool swap reading = .ok next) :
    next.success = (swap.success && reading.succeeded) := by
  obtain ⟨tx, read, built⟩ := bind_eq_ok_iff.mp built
  obtain ⟨body, _, built⟩ := bind_eq_ok_iff.mp built
  cases built
  simp only [Reading.succeeded, Reading.transaction_eq_ok_iff.mp read]

theorem takeDedustPayoutOrder_eq_ok (built : takeDedustPayoutOrder swap reading = .ok next) :
    next.success = swap.success := by
  obtain ⟨tx, _, built⟩ := bind_eq_ok_iff.mp built
  obtain ⟨body, _, built⟩ := bind_eq_ok_iff.mp built
  cases built
  rfl

theorem exists_stonfiSwap {target : Reading} (found : stonfiSwap.Match target) :
    ∃ (nodes : SwapNodes) (transfer : Event.JettonTransfer) (report : Payload.StonfiPaymentRequest)
      (paid : Detail.Asset) (swap : Event.Swap),
      stonfiSwap.roles? target = some (nodes.roles .stonfi) ∧
      target.event = .jettonTransfer transfer ∧ nodes.request.stonfiReport? = some report ∧
      nodes.payout.paid? = some paid ∧ found.event = .swap swap ∧
      swap.detail.assetIn = { jetton := transfer.master, amount := transfer.amount } ∧
      swap.detail.assetOut =
        (if !report.completed then {}
        else if paid.amount = 0 then { paid with amount := report.amount0Out.max report.amount1Out }
        else paid) ∧
      swap.success = (nodes.payout.succeeded && report.completed && nodes.request.succeeded &&
        nodes.order.succeeded) := by
  obtain ⟨nodes, rfl, roles, paid, asked, pooled, paying, asking, pooling, ordering⟩ :=
    found.exists_line ⟨rfl, rfl⟩ ⟨rfl, rfl⟩ ⟨rfl, rfl⟩ rfl
  -- From the payout upwards, as the nodes are built.
  obtain ⟨asset, isPaid, output, paidOutcome⟩ := takePayout_eq_ok paying
  obtain ⟨report, isReport, askedOutcome, kept⟩ := takeStonfiResult_eq_ok asking
  obtain ⟨tx, _, pooling⟩ := bind_eq_ok_iff.mp pooling
  cases pooling
  obtain ⟨transfer, event, input, same, outcome⟩ := takeStonfiOrder_eq_ok ordering
  refine ⟨nodes, transfer, report, asset, found.output, roles, event, isReport, isPaid, rfl, input, ?_, ?_⟩
  · rw [same, kept, output]
  · rw [outcome, askedOutcome, paidOutcome]

theorem exists_dedustSwap {target : Reading} (found : dedustSwap.Match target) :
    ∃ (nodes : SwapNodes) (swap : Event.Swap), dedustSwap.roles? target = some (nodes.roles .dedust) ∧
      found.event = .swap swap ∧
      swap.success = (nodes.payout.succeeded && nodes.pool.succeeded &&
        (nodes.order.transaction?.isSome || nodes.order.succeeded)) := by
  obtain ⟨nodes, rfl, roles, paid, asked, pooled, paying, asking, pooling, ordering⟩ :=
    found.exists_line ⟨rfl, rfl⟩ ⟨rfl, rfl⟩ ⟨rfl, rfl⟩ rfl
  obtain ⟨_, _, _, paidOutcome⟩ := takePayout_eq_ok paying
  have askedOutcome := takeDedustPayoutOrder_eq_ok asking
  have pooledOutcome := takeDedustPool_eq_ok pooling
  have outcome := takeDedustOrder_eq_ok ordering
  refine ⟨nodes, found.output, roles, rfl, ?_⟩
  rw [outcome, pooledOutcome, askedOutcome, paidOutcome]
  cases nodes.order.transaction?.isSome <;> simp

end Catalog

namespace Catalog

variable {reading next : Reading}

/-- A swap succeeds when the nodes that its rule looks at do, and on STON.fi only when the pool reports
it as completed. So every node of a successful swap succeeded, once those did that the rule passes
over. -/
theorem swap_success_iff_heeded (dex : Detail.Dex) (merged : dex.rule.rewrite? reading = some next) :
    ∃ (nodes : SwapNodes) (swap : Event.Swap),
      dex.rule.roles? reading = some (nodes.roles dex) ∧ next.event = .swap swap ∧
      (swap.success ↔ (∀ node ∈ nodes.heeded dex, node.succeeded) ∧
        (dex = .stonfi → nodes.request.stonfiReport?.any (·.completed))) ∧
      (swap.success → (∀ node ∈ nodes.overlooked dex, node.succeeded) →
        ∀ node ∈ nodes.toList, node.succeeded) := by
  suffices decided : ∃ (nodes : SwapNodes) (swap : Event.Swap),
      dex.rule.roles? reading = some (nodes.roles dex) ∧ next.event = .swap swap ∧
      (swap.success ↔ (∀ node ∈ nodes.heeded dex, node.succeeded) ∧
        (dex = .stonfi → nodes.request.stonfiReport?.any (·.completed))) by
    obtain ⟨nodes, swap, roles, event, outcome⟩ := decided
    refine ⟨nodes, swap, roles, event, outcome, fun success others node member => ?_⟩
    -- The rule looks at a node or passes over it, and there is no third case.
    rcases nodes.heeded_or_overlooked dex member with heeded | overlooked
    · exact (outcome.mp success).1 node heeded
    · exact others node overlooked
  obtain ⟨found, rfl⟩ := Rule.exists_match_of_rewrite? merged
  cases dex with
  | stonfi =>
    obtain ⟨nodes, _, report, _, swap, roles, _, isReport, _, event, _, _, outcome⟩ :=
      exists_stonfiSwap found
    refine ⟨nodes, swap, roles, event, ?_⟩
    simp only [outcome, isReport, SwapNodes.heeded, Bool.and_eq_true, List.forall_mem_cons,
      Option.any_some, forall_const]
    tauto
  | dedust =>
    obtain ⟨nodes, swap, roles, event, outcome⟩ := exists_dedustSwap found
    refine ⟨nodes, swap, roles, event, ?_⟩
    rw [outcome, SwapNodes.heeded]
    cases nodes.order.transaction?.isSome <;> simp <;> tauto

def user : String := "0:0000000000000000000000000000000000000000000000000000000000000002"

/-- An order for a swap on STON.fi, and what its pool and its router do. -/
def stonfiOrder (pool : Bool) (exitCode : Int) : Trace :=
  .node {
      hash := ⟨1⟩
      account := ⟨0, ⟨1⟩⟩
      interfaces := [.jettonWallet]
      success := true
      inMessage := some {
        external := true
        body := some {
          operation := Operation.jettonTransfer
          value := .object [
            ("amount", .integer 5),
            ("destination", .string user),
            ("forward_payload", .object [
              ("operation", .string Operation.stonfiSwap),
              ("value", .object [
                ("token_wallet", .string user),
                ("min_out", .integer 400),
                ("to_address", .string user)])])] } } } [
    .node {
        hash := ⟨2⟩
        account := ⟨0, ⟨2⟩⟩
        success := true
        inMessage := some {
          source := some ⟨0, ⟨1⟩⟩
          body := some { operation := Operation.jettonInternalTransfer, value := .null } } } [
      .node {
          hash := ⟨3⟩
          account := ⟨0, ⟨3⟩⟩
          success := pool
          inMessage := some {
            source := some ⟨0, ⟨2⟩⟩
            body := some { operation := Operation.stonfiSwap, value := .null } } } [
        .node {
            hash := ⟨4⟩
            account := ⟨0, ⟨4⟩⟩
            success := true
            inMessage := some {
              source := some ⟨0, ⟨3⟩⟩
              body := some {
                operation := Operation.stonfiPaymentRequest
                value := .object [
                  ("owner", .string user),
                  ("exit_code", .integer exitCode),
                  ("amount0_out", .integer 480),
                  ("token0_address", .string user),
                  ("amount1_out", .integer 0),
                  ("token1_address", .string user)] } } } [
          .leaf {
            hash := ⟨5⟩
            account := ⟨0, ⟨5⟩⟩
            success := true
            inMessage := some { source := some ⟨0, ⟨4⟩⟩, value := ⟨7, by decide, by decide⟩ } }]]]]

/-- An order to the native vault of DeDust, which pays out in turn. -/
def dedustOrder (vault payer : Bool) : Trace :=
  .node {
      hash := ⟨1⟩
      account := ⟨0, ⟨1⟩⟩
      interfaces := [.dedustVault]
      success := vault
      inMessage := some {
        source := some ⟨0, ⟨2⟩⟩
        body := some {
          operation := Operation.dedustSwap
          value := .object [("pool", .string user)] } } } [
    .node {
        hash := ⟨2⟩
        account := ⟨0, ⟨3⟩⟩
        success := true
        inMessage := some {
          source := some ⟨0, ⟨1⟩⟩
          body := some {
            operation := Operation.dedustSwapExternal
            value := .object [
              ("amount", .integer 5),
              ("sender", .string user)] } } } [
      .node {
          hash := ⟨3⟩
          account := ⟨0, ⟨4⟩⟩
          success := payer
          inMessage := some {
            source := some ⟨0, ⟨3⟩⟩
            body := some {
              operation := Operation.dedustPayoutFromPool
              value := .object [
                ("amount", .integer 7),
                ("recipient", .string user)] } } } [
        .leaf {
          hash := ⟨4⟩
          account := ⟨0, ⟨2⟩⟩
          success := true
          inMessage := some {
            source := some ⟨0, ⟨4⟩⟩
            value := ⟨7, by decide, by decide⟩
            body := some { operation := Operation.dedustPayout, value := .null } } }]]]

def afterTransfers (trace : Trace) : Reading := (rewriteAll [jettonTransfer] 10 (.ofTrace trace)).1

theorem swap_success_iff_heeded_completed :
    ∃ (nodes : SwapNodes) (swap : Event.Swap),
      stonfiSwap.roles? (afterTransfers (stonfiOrder true 0xc64370e5)) = some (nodes.roles .stonfi) ∧
      swap.success ∧ ∀ node ∈ nodes.toList, node.succeeded := by
  let reading := afterTransfers (stonfiOrder true 0xc64370e5)
  have merges : (stonfiSwap.rewrite? reading).isSome := by decide +kernel
  have told : ((stonfiSwap.rewrite? reading).bind Reading.swap?).map (·.success) = some true := by
    decide +kernel
  have outcomes : stonfiSwap.outcomes? reading = some [("stonfi_swap", true), ("stonfi_swap_pool", true),
      ("stonfi_payment_request", true), ("stonfi_payout", true)] := by
    decide +kernel
  obtain ⟨next, merged⟩ := Option.isSome_iff_exists.mp merges
  obtain ⟨nodes, swap, roles, event, outcome, whole⟩ := swap_success_iff_heeded .stonfi merged
  have success : swap.success := by simpa [merged, Reading.swap?, event] using told
  have pool : nodes.pool.succeeded := by
    rw [Rule.outcomes?, show stonfiSwap.roles? reading = _ from roles] at outcomes
    simp_all [SwapNodes.roles]
  exact ⟨nodes, swap, roles, success, whole success (List.forall_mem_singleton.mpr pool)⟩

def poolFailed : Reading := afterTransfers (stonfiOrder false 0xc64370e5)

def vaultsFailed : Reading := afterTransfers (dedustOrder false false)

/-- A node that a rule passes over may fail, and the swap is told as a success. -/
theorem swap_success_overlooked :
    (((stonfiSwap.rewrite? poolFailed).bind Reading.swap?).map (·.success) = some true ∧
      stonfiSwap.outcomes? poolFailed = some [("stonfi_swap", true), ("stonfi_swap_pool", false),
        ("stonfi_payment_request", true), ("stonfi_payout", true)]) ∧
    (((dedustSwap.rewrite? vaultsFailed).bind Reading.swap?).map (·.success) = some true ∧
      dedustSwap.outcomes? vaultsFailed = some [("dedust_swap", false), ("dedust_pool", true),
        ("dedust_vault_payout", false), ("dedust_payout", true)]) := by
  decide +kernel

/-- What a swap on STON.fi takes in is what the order transferred. Unless the pool reports it as
completed it has failed and gave nothing out, whatever was paid; otherwise it gave out what was
paid, or the larger of the two amounts reported when nothing was. -/
theorem stonfiSwap_assets (merged : stonfiSwap.rewrite? reading = some next) :
    ∃ (nodes : SwapNodes) (transfer : Event.JettonTransfer) (report : Payload.StonfiPaymentRequest)
      (paid : Detail.Asset) (swap : Event.Swap),
      stonfiSwap.roles? reading = some (nodes.roles .stonfi) ∧
      reading.event = .jettonTransfer transfer ∧ nodes.request.stonfiReport? = some report ∧
      nodes.payout.paid? = some paid ∧ next.event = .swap swap ∧
      swap.detail.assetIn = { jetton := transfer.master, amount := transfer.amount } ∧
      (report.exitCode.val ≠ 0xc64370e5 →
        swap.success = false ∧ swap.detail.assetOut = { jetton := none, amount := 0 }) ∧
      (report.exitCode.val = 0xc64370e5 → swap.detail.assetOut = {
        jetton := paid.jetton
        amount := if paid.amount = 0 then report.amount0Out.max report.amount1Out else paid.amount }) := by
  obtain ⟨found, rfl⟩ := Rule.exists_match_of_rewrite? merged
  obtain ⟨nodes, transfer, report, paid, swap, roles, order, isReport, isPaid, event, input, output,
    outcome⟩ := exists_stonfiSwap found
  refine ⟨nodes, transfer, report, paid, swap, roles, order, isReport, isPaid, event, input, ?_, ?_⟩
  · intro refused
    have incomplete : report.completed = false := decide_eq_false refused
    exact ⟨by simp [outcome, incomplete], by simp [output, incomplete]⟩
  · intro accepted
    have completed : report.completed = true := decide_eq_true accepted
    by_cases nothing : paid.amount = 0 <;> simp [output, completed, nothing]

/-- The pool refuses the order, and the router pays back what came in. -/
theorem stonfiSwap_assets_refunded :
    ∃ (nodes : SwapNodes) (swap : Event.Swap),
      stonfiSwap.roles? (afterTransfers (stonfiOrder true 1)) = some (nodes.roles .stonfi) ∧
      swap.detail.assetIn = { jetton := none, amount := ⟨5, by decide, by decide⟩ } ∧
      swap.success = false ∧ swap.detail.assetOut = { jetton := none, amount := 0 } := by
  let reading := afterTransfers (stonfiOrder true 1)
  have merges : (stonfiSwap.rewrite? reading).isSome := by decide +kernel
  have input : reading.paid? = some { jetton := none, amount := ⟨5, by decide, by decide⟩ } := by
    decide +kernel
  have exit : (((stonfiSwap.roles? reading).bind fun roles => roles[2]?).bind fun role =>
      role.2.stonfiReport?.map (·.exitCode.val)) = some 1 := by
    decide +kernel
  obtain ⟨next, merged⟩ := Option.isSome_iff_exists.mp merges
  obtain ⟨nodes, transfer, report, paid, swap, roles, order, isReport, _, _, taken, refused, _⟩ :=
    stonfiSwap_assets merged
  have code : report.exitCode.val = 1 := by simpa [reading, roles, SwapNodes.roles, isReport] using exit
  obtain ⟨failed, nothing⟩ := refused (by omega)
  rw [Reading.paid?, order] at input
  exact ⟨nodes, swap, roles, taken.trans (Option.some.inj input), failed, nothing⟩

end Catalog

end TonTrace
