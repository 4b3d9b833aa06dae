import TonTrace.Analysis
import TonTrace.Proofs.Catalog
import TonTrace.Proofs.Making
import TonTrace.Proofs.Swaps

/-! The catalog stops by itself. A match starts at a raw transaction or at a
recognised jetton transfer and makes something further read than that, so a
transaction is the root of two matches at most. A limit beyond twice the size of
the trace changes nothing. -/

set_option autoImplicit false

namespace TonTrace

/-- How many matches a cluster with this event can still be the root of. -/
def Event.weight : Event → Nat
  | .transaction _ => 2
  | .jettonTransfer _ => 1
  | _ => 0

def Reading.weight (reading : Reading) : Nat := (reading.preorder.map (·.event.weight)).sum

theorem Reading.weight_ofTrace (trace : Trace) : (ofTrace trace).weight = 2 * trace.size := by
  rw [weight, preorder_ofTrace, List.map_map]
  change (trace.preorder.map fun _ => 2).sum = _
  rw [List.map_const', List.sum_replicate_nat, Tree.length_preorder, Nat.mul_comm]

namespace Rule

variable {rule : Rule}

def Lowers (rule : Rule) : Prop :=
  ∀ {target : Reading}, rule.pattern.Admits target → ∀ output,
    (rule.event output).weight < target.event.weight

theorem Step.weight_lt (lowers : rule.Lowers) {reading next : Reading}
    (step : rule.Step reading next) : next.weight < reading.weight := by
  obtain ⟨event, makes⟩ := step.makes
  obtain ⟨target, _, found, kept, _, beforePerm, afterPerm⟩ := makes.exists_match
  obtain ⟨rest, taken⟩ := found.taken_eq_cons
  -- The new cluster weighs less than the root alone did.
  have less : found.made.event.weight < target.value.event.weight := lowers found.admits found.output
  rw [Reading.weight, Reading.weight, (beforePerm.map _).sum_eq, (afterPerm.map _).sum_eq, taken]
  simp only [List.cons_append, List.map_cons, List.map_append, List.sum_cons, List.sum_append]
  omega

/-- Each step of a run uses up some of what every step lowers. -/
theorem exhaust_add_measure_le {measure : Reading → Nat}
    (lowers : ∀ {reading next}, rule.Step reading next → measure next < measure reading)
    (limit : Nat) (reading : Reading) :
    (rule.exhaust limit reading).2 + measure (rule.exhaust limit reading).1 ≤ measure reading := by
  induction limit generalizing reading with
  | zero => simp [exhaust]
  | succ limit ih =>
    cases found : rule.rewriteFirst? reading with
    | none => simp [exhaust, found]
    | some next =>
      have less := lowers (step_of_rewriteFirst? reading found)
      have rest := ih next
      simp only [exhaust, found]
      omega

theorem exhaust_eq_of_le {limit more : Nat} {reading : Reading} (le : limit ≤ more)
    (within : (rule.exhaust more reading).2 ≤ limit) :
    rule.exhaust limit reading = rule.exhaust more reading := by
  induction limit generalizing more reading with
  | zero =>
    cases more with
    | zero => rfl
    | succ more =>
      cases found : rule.rewriteFirst? reading with
      | none => simp only [exhaust, found]
      | some next => simp [exhaust, found] at within
  | succ limit ih =>
    obtain ⟨more, rfl⟩ := Nat.exists_eq_add_of_le' (Nat.lt_of_lt_of_le (Nat.succ_pos limit) le)
    cases found : rule.rewriteFirst? reading with
    | none => simp only [exhaust, found]
    | some next =>
      simp only [exhaust, found] at within ⊢
      rw [ih (Nat.le_of_succ_le_succ le) (Nat.le_of_succ_le_succ within)]

theorem exhaust_eq_of_lt {limit more : Nat} {reading : Reading} (le : limit ≤ more)
    (below : (rule.exhaust limit reading).2 < limit) :
    rule.exhaust more reading = rule.exhaust limit reading := by
  induction limit generalizing more reading with
  | zero => cases below
  | succ limit ih =>
    obtain ⟨more, rfl⟩ := Nat.exists_eq_add_of_le' (Nat.lt_of_lt_of_le (Nat.succ_pos limit) le)
    cases found : rule.rewriteFirst? reading with
    | none => simp only [exhaust, found]
    | some next =>
      simp only [exhaust, found] at below ⊢
      rw [ih (Nat.le_of_succ_le_succ le) (Nat.lt_of_succ_lt_succ below)]

end Rule

theorem rewriteAll_add_measure_le {measure : Reading → Nat} {rules : List Rule}
    (lowers : ∀ rule ∈ rules, ∀ {reading next}, rule.Step reading next →
      measure next < measure reading) (limit : Nat) (reading : Reading) :
    (rewriteAll rules limit reading).2 + measure (rewriteAll rules limit reading).1 ≤
      measure reading := by
  induction rules generalizing limit reading with
  | nil => simp [rewriteAll]
  | cons rule rest ih =>
    have first := rule.exhaust_add_measure_le (lowers rule List.mem_cons_self) limit reading
    have others := ih (fun rule member => lowers rule (List.mem_cons_of_mem _ member))
      (limit - (rule.exhaust limit reading).2) (rule.exhaust limit reading).1
    simp only [rewriteAll]
    omega

theorem rewriteAll_eq_of_le {rules : List Rule} {limit more : Nat} {reading : Reading}
    (le : limit ≤ more) (within : (rewriteAll rules more reading).2 ≤ limit) :
    rewriteAll rules limit reading = rewriteAll rules more reading := by
  induction rules generalizing limit more reading with
  | nil => rfl
  | cons rule rest ih =>
    simp only [rewriteAll] at within ⊢
    have first := rule.exhaust_eq_of_le le (Nat.le_trans (Nat.le_add_right _ _) within)
    rw [first, ih (Nat.sub_le_sub_right le _) (by omega)]

theorem rewriteAll_eq_of_lt {rules : List Rule} {limit more : Nat} {reading : Reading}
    (le : limit ≤ more) (below : (rewriteAll rules limit reading).2 < limit) :
    rewriteAll rules more reading = rewriteAll rules limit reading := by
  induction rules generalizing limit more reading with
  | nil => rfl
  | cons rule rest ih =>
    simp only [rewriteAll] at below ⊢
    have first := rule.exhaust_eq_of_lt le (Nat.lt_of_le_of_lt (Nat.le_add_right _ _) below)
    rw [first, ih (Nat.sub_le_sub_right le _) (by omega)]

namespace Catalog

open Check

theorem lowers_of_onTransaction {rule : Rule} {holds : Transaction → Bool}
    (checked : onTransaction holds ∈ rule.pattern.checks) (recognises : rule.Recognises) :
    rule.Lowers := by
  intro target admits output
  obtain ⟨tx, raw, _⟩ := exists_transaction (admits _ checked)
  rw [raw]
  cases made : rule.event output with
  | transaction tx => exact absurd made (recognises output tx)
  | _ => simp [Event.weight]

theorem lowers_of_forwardsPayload {rule : Rule} {operation : String}
    (checked : forwardsPayload operation ∈ rule.pattern.checks)
    (made : ∀ output, (rule.event output).weight = 0) : rule.Lowers := by
  intro target admits output
  obtain ⟨transfer, recognised, _⟩ := exists_jettonTransfer (admits _ checked)
  rw [recognised, made]
  exact Nat.one_pos

theorem lowers_dedustSwap : dedustSwap.Lowers := by
  intro target admits output
  have checked := admits _ List.mem_cons_self
  rcases Bool.or_eq_true_iff.mp checked with native | forwarded
  · obtain ⟨tx, raw, _⟩ := exists_transaction (Bool.and_eq_true_iff.mp native).1
    rw [raw]
    exact Nat.two_pos
  · obtain ⟨transfer, recognised, _⟩ := exists_jettonTransfer forwarded
    rw [recognised]
    exact Nat.one_pos

theorem lowers (groups : PatternGroups) : ∀ rule ∈ rules groups, rule.Lowers := by
  apply forall_rules
  case dedustSwap => exact lowers_dedustSwap
  case stonfiSwap | stonfiLiquidityDeposit | jettonInvoice =>
    exact lowers_of_forwardsPayload List.mem_cons_self fun _ => rfl
  case nftTransfer =>
    exact lowers_of_onTransaction (List.mem_cons_of_mem _ List.mem_cons_self)
      fun output tx same => by cases same
  all_goals exact lowers_of_onTransaction List.mem_cons_self fun output tx same => by cases same

variable {trace : Trace}

theorem steps_le (groups : PatternGroups) (limit : Nat) :
    (rewriteAll (rules groups) limit (.ofTrace trace)).2 ≤ 2 * trace.size := by
  have spent := rewriteAll_add_measure_le
    (fun rule member _ _ step => Rule.Step.weight_lt (lowers groups rule member) step) limit
    (.ofTrace trace)
  rw [Reading.weight_ofTrace] at spent
  omega

theorem rewriteAll_eq_of_room (groups : PatternGroups) {limit : Nat} (room : 2 * trace.size ≤ limit) :
    rewriteAll (rules groups) limit (.ofTrace trace) =
      rewriteAll (rules groups) (2 * trace.size) (.ofTrace trace) :=
  (rewriteAll_eq_of_le room (steps_le groups limit)).symm

/-- No run takes more than two steps per transaction, so all limits that leave room for them end
in the same reading after as many steps. For a trace of 5000 transactions at most the default
limit leaves room, and an analysis under any such limit has the report that is made under it. -/
theorem terminates (groups : PatternGroups) (trace : Trace) :
    (∀ limit, (rewriteAll (rules groups) limit (.ofTrace trace)).2 ≤ 2 * trace.size) ∧
    (∀ first second, 2 * trace.size ≤ first → 2 * trace.size ≤ second →
      rewriteAll (rules groups) first (.ofTrace trace) =
        rewriteAll (rules groups) second (.ofTrace trace)) ∧
    ∀ config : Config, config.groups = groups → trace.size ≤ 5000 →
      2 * trace.size ≤ config.maxRewrites.val.toNat →
      trace.validate config.maxDepth.val.toNat = .ok () →
      config.analyze none trace =
        .ok (.ofTrace (rules groups) ({} : Config).maxRewrites.val.toNat none trace) := by
  refine ⟨steps_le groups, ?_, ?_⟩
  · intro first second roomFirst roomSecond
    rw [rewriteAll_eq_of_room groups roomFirst, rewriteAll_eq_of_room groups roomSecond]
  · rintro config rfl small room valid
    have standard : 2 * trace.size ≤ ({} : Config).maxRewrites.val.toNat := by
      change 2 * trace.size ≤ 10000
      omega
    rw [Config.analyze, valid]
    change Except.ok _ = _
    rw [Report.ofTrace, Report.ofTrace, rewriteAll_eq_of_room _ room, rewriteAll_eq_of_room _ standard]

/-- The order is read as a jetton transfer first and then, by a second step at the same node, as a
swap. -/
theorem terminates_swap :
    let trace := stonfiOrder true 0xc64370e5
    let config : Config := { maxRewrites := ⟨10, by decide, by decide⟩ }
    config.maxRewrites.val.toNat = 2 * trace.size ∧
      trace.validate config.maxDepth.val.toNat = .ok () ∧
      (rewriteAll (rules {}) 1 (.ofTrace trace)).1.event.kind = .jettonTransfer ∧
      (rewriteAll (rules {}) 10 (.ofTrace trace)).1.event.kind = .swap ∧
      rewriteAll (rules {}) 10 (.ofTrace trace) = rewriteAll (rules {}) 10000 (.ofTrace trace) ∧
      config.analyze none trace =
        .ok (.ofTrace (rules {}) ({} : Config).maxRewrites.val.toNat none trace) := by
  intro trace config
  have valid : trace.validate config.maxDepth.val.toNat = .ok () := by decide +kernel
  have size : trace.size = 5 := rfl
  have room : config.maxRewrites.val.toNat = 2 * trace.size := rfl
  obtain ⟨_, same, report⟩ := terminates {} trace
  refine ⟨room, valid, ?_, ?_, same 10 10000 (by omega) (by omega),
    report config rfl (by omega) (Nat.le_of_eq room.symm) valid⟩
  · decide +kernel
  · decide +kernel

end Catalog

end TonTrace
