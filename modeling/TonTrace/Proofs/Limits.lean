import TonTrace.Catalog.Plain
import TonTrace.Proofs.Termination

/-! Runs under a limit. A limit only cuts a run off: under a smaller one the same
steps are taken, as many as there is room for. The rules of a catalog can be run
in portions, each with the steps that the ones before it have left over. -/

set_option autoImplicit false

namespace TonTrace

namespace Rule

theorem exhaust_count (rule : Rule) {limit more : Nat} (le : limit ≤ more) (reading : Reading) :
    (rule.exhaust limit reading).2 = min limit (rule.exhaust more reading).2 := by
  induction limit generalizing more reading with
  | zero => rw [Nat.zero_min, exhaust]
  | succ limit ih =>
    obtain ⟨more, rfl⟩ := Nat.exists_eq_add_of_le' (Nat.lt_of_lt_of_le (Nat.succ_pos limit) le)
    cases found : rule.rewriteFirst? reading with
    | none => simp only [exhaust, found, Nat.min_zero]
    | some next =>
      simp only [exhaust, found]
      rw [ih (Nat.le_of_succ_le_succ le), Nat.succ_min_succ]

theorem exhaust_le (rule : Rule) (limit : Nat) (reading : Reading) :
    (rule.exhaust limit reading).2 ≤ limit := by
  rw [exhaust_count rule (Nat.le_refl limit)]
  exact Nat.min_le_left _ _

end Rule

theorem rewriteAll_le (rules : List Rule) (limit : Nat) (reading : Reading) :
    (rewriteAll rules limit reading).2 ≤ limit := by
  induction rules generalizing limit reading with
  | nil => exact Nat.zero_le limit
  | cons rule rest ih =>
    have first := rule.exhaust_le limit reading
    have others := ih (limit - (rule.exhaust limit reading).2) (rule.exhaust limit reading).1
    rw [rewriteAll]
    simp only
    omega

/-- Under a smaller limit a run takes as many of its steps as there is room for. -/
theorem rewriteAll_count (rules : List Rule) {limit more : Nat} (le : limit ≤ more)
    (reading : Reading) :
    (rewriteAll rules limit reading).2 = min limit (rewriteAll rules more reading).2 := by
  induction rules generalizing limit more reading with
  | nil => rw [rewriteAll, rewriteAll, Nat.min_zero]
  | cons rule rest ih =>
    simp only [rewriteAll]
    rcases Nat.le_total (rule.exhaust more reading).2 limit with within | beyond
    · -- The first rule gets by with the smaller limit, so the others start from the same reading.
      rw [rule.exhaust_eq_of_le le within, ih (Nat.sub_le_sub_right le _)]
      omega
    · -- The first rule uses up the smaller limit.
      have first := rule.exhaust_count le reading
      have others := rewriteAll_le rest (limit - (rule.exhaust limit reading).2)
        (rule.exhaust limit reading).1
      omega

/-- No run takes more steps than its limit. A run of two catalogs one after the other is a run of the
first and then, with the steps that are left, a run of the second. Of a run under a larger limit a
smaller one allows as many steps as it has room for, and changes nothing when that is all of them.
Below the limit the last rule is left with no node to apply to. -/
theorem rewriteAll_composes (rules others : List Rule) (limit : Nat) (reading : Reading) :
    let run := rewriteAll rules limit reading
    run.2 ≤ limit ∧
    rewriteAll (rules ++ others) limit reading =
      ((rewriteAll others (limit - run.2) run.1).1,
        run.2 + (rewriteAll others (limit - run.2) run.1).2) ∧
    (∀ more, limit ≤ more → run.2 = min limit (rewriteAll rules more reading).2 ∧
      ((rewriteAll rules more reading).2 ≤ limit → run.1 = (rewriteAll rules more reading).1)) ∧
    ∀ rule, rules.getLast? = some rule → run.2 < limit →
      ∀ target ∈ run.1.subtrees, rule.rewrite? target = none := by
  intro run
  refine ⟨rewriteAll_le rules limit reading, rewriteAll_append rules others limit reading,
    fun more le => ⟨rewriteAll_count rules le reading, fun within => ?_⟩, fun rule last below => ?_⟩
  · exact congrArg Prod.fst (rewriteAll_eq_of_le le within)
  · obtain ⟨before, rfl⟩ := List.getLast?_eq_some_iff.mp last
    exact (Rule.rewriteFirst?_eq_none_iff _).mp (rewriteAll_stuck below)

def restless : Rule := { Catalog.tonTransfer with pattern := { name := "restless" } }

theorem rewriteAll_composes_restless :
    let message : Transaction := { hash := ⟨1⟩, account := ⟨0, ⟨1⟩⟩, success := true }
    let reading : Reading := .ofTrace (.leaf message)
    (rewriteAll [restless] 5 reading).2 = 5 ∧ (rewriteAll [restless] 2 reading).2 = 2 ∧
      (rewriteAll [Catalog.tonTransfer] 2 reading).2 = 1 ∧
      ∀ target ∈ (rewriteAll [Catalog.tonTransfer] 2 reading).1.subtrees,
        Catalog.tonTransfer.rewrite? target = none := by
  intro message reading
  have endless : (rewriteAll [restless] 5 reading).2 = 5 := by decide +kernel
  have once : (rewriteAll [Catalog.tonTransfer] 2 reading).2 = 1 := by decide +kernel
  have below : (rewriteAll [Catalog.tonTransfer] 2 reading).2 < 2 := by omega
  obtain ⟨_, _, limits, _⟩ := rewriteAll_composes [restless] [] 2 reading
  obtain ⟨_, _, _, stuck⟩ := rewriteAll_composes [Catalog.tonTransfer] [] 2 reading
  refine ⟨endless, ?_, once, stuck Catalog.tonTransfer rfl below⟩
  rw [(limits 5 (by omega)).1, endless]
  rfl

end TonTrace
