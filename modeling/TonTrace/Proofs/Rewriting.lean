import Mathlib.Data.List.Perm.Basic
import TonTrace.Proofs.Matching
import TonTrace.Proofs.Tree

/-! What one rewrite does to the clusters of a reading, and what a run of
rewrites therefore keeps. A run that ends below its limit leaves the last rule
without a place to apply. -/

set_option autoImplicit false

namespace TonTrace

theorem Reading.preorder_ofTrace (trace : Trace) :
    (Reading.ofTrace trace).preorder = trace.preorder.map Cluster.ofTransaction :=
  Tree.preorder_map _ trace

namespace Rule

variable {rule : Rule}

inductive Step (rule : Rule) : Reading → Reading → Prop where
  | here {reading next : Reading} : rule.rewrite? reading = some next → Step rule reading next
  | inside {cluster : Cluster} {before after : List Reading} {child next : Reading} :
      Step rule child next →
      Step rule (.node cluster (before ++ child :: after)) (.node cluster (before ++ next :: after))

mutual

theorem step_of_rewriteFirst? : ∀ (reading : Reading) {next : Reading},
    rule.rewriteFirst? reading = some next → rule.Step reading next
  | .node cluster children, next, found => by
    rw [rewriteFirst?] at found
    split at found
    case h_1 rewritten here =>
      cases found
      exact .here here
    case h_2 =>
      obtain ⟨rewritten, further, rfl⟩ := Option.map_eq_some_iff.mp found
      obtain ⟨before, child, after, target, rfl, rfl, step⟩ :=
        step_of_rewriteFirstChild? children further
      exact .inside step

theorem step_of_rewriteFirstChild? : ∀ (children : List Reading) {rewritten : List Reading},
    rule.rewriteFirstChild? children = some rewritten →
    ∃ before child after next, children = before ++ child :: after ∧
      rewritten = before ++ next :: after ∧ rule.Step child next
  | [], _, found => by
    rw [rewriteFirstChild?] at found
    cases found
  | child :: rest, rewritten, found => by
    rw [rewriteFirstChild?] at found
    split at found
    case h_1 next here =>
      cases found
      exact ⟨[], child, rest, next, rfl, rfl, step_of_rewriteFirst? child here⟩
    case h_2 =>
      obtain ⟨others, further, rfl⟩ := Option.map_eq_some_iff.mp found
      obtain ⟨before, target, after, next, rfl, rfl, step⟩ := step_of_rewriteFirstChild? rest further
      exact ⟨child :: before, target, after, next, rfl, rfl, step⟩

end

mutual

theorem rewriteFirst?_eq_none_iff : ∀ (reading : Reading),
    rule.rewriteFirst? reading = none ↔ ∀ target ∈ reading.subtrees, rule.rewrite? target = none
  | .node cluster children => by
    rw [rewriteFirst?, Tree.subtrees, List.forall_mem_cons, ← rewriteFirstChild?_eq_none_iff children]
    split
    case h_1 rewritten here => simp [here]
    case h_2 stuck => simp [stuck]

theorem rewriteFirstChild?_eq_none_iff : ∀ (children : List Reading),
    rule.rewriteFirstChild? children = none ↔
      ∀ target ∈ Tree.subtreesAll children, rule.rewrite? target = none
  | [] => by simp [rewriteFirstChild?, Tree.subtreesAll]
  | child :: rest => by
    rw [rewriteFirstChild?, Tree.subtreesAll, List.forall_mem_append,
      ← rewriteFirst?_eq_none_iff child, ← rewriteFirstChild?_eq_none_iff rest]
    split
    case h_1 rewritten here => simp [here]
    case h_2 stuck => simp [stuck]

end

def fused (rule : Rule) (sites : List (Site rule.Output)) (output : rule.Output)
    (taken : List Cluster) : Cluster :=
  let joined := Cluster.join (rule.event output) taken
  { joined with flow := rule.settle sites output joined.flow }

/-- What a rewrite does to clusters, their place in the tree apart: some are
taken and come back as one, the others stay. -/
inductive Fuses (rule : Rule) : List Cluster → List Cluster → Prop where
  | intro {before after : List Cluster} (reading : Reading) (sites : List (Site rule.Output))
      (output : rule.Output) (taken kept : List Cluster) :
      rule.pattern.sites? reading = some sites → taken ≠ [] → before.Perm (taken ++ kept) →
      after.Perm (rule.fused sites output taken :: kept) → Fuses rule before after

theorem rewrite?_eq_some {reading next : Reading} (found : rule.rewrite? reading = some next) :
    ∃ sites output, rule.pattern.sites? reading = some sites ∧ rule.build sites = .ok output ∧
      next = rule.fuse sites output reading := by
  simp only [rewrite?, Option.bind_eq_bind, Option.bind_eq_some_iff, Option.pure_def,
    Option.some.injEq] at found
  obtain ⟨sites, matched, output, built, rfl⟩ := found
  refine ⟨sites, output, matched, ?_, rfl⟩
  cases result : rule.build sites with
  | error fault => simp [result, Except.toOption] at built
  | ok value =>
    rw [result] at built
    exact congrArg Except.ok (Option.some.inj built)

theorem fuses_of_rewrite? {reading next : Reading} (found : rule.rewrite? reading = some next) :
    rule.Fuses reading.preorder next.preorder := by
  obtain ⟨sites, output, matched, _, rfl⟩ := rewrite?_eq_some found
  let parts := reading.split (sites.map (·.path))
  refine .intro reading sites output parts.1 (Tree.preorderAll parts.2) matched
    (Tree.split_fst_ne_nil _ _) (Tree.split_perm _ reading).symm (.of_eq ?_)
  rw [fuse, Tree.preorder]
  rfl

theorem Fuses.frame {before after : List Cluster} (fuses : rule.Fuses before after)
    (left right : List Cluster) : rule.Fuses (left ++ before ++ right) (left ++ after ++ right) := by
  obtain ⟨reading, sites, output, taken, kept, matched, nonempty, beforePerm, afterPerm⟩ := fuses
  -- What stands around counts as kept, so it has to move behind the clusters taken.
  have move : ∀ xs ys : List Cluster, (left ++ (xs ++ ys) ++ right).Perm (xs ++ (left ++ ys ++ right)) := by
    intro xs ys
    simp only [← List.append_assoc]
    exact (List.perm_append_comm.append_right ys).append_right right
  refine .intro reading sites output taken (left ++ kept ++ right) matched nonempty ?_ ?_
  · exact ((beforePerm.append_left left).append_right right).trans (move taken kept)
  · exact ((afterPerm.append_left left).append_right right).trans (move [_] kept)

theorem Step.fuses {reading next : Reading} (step : rule.Step reading next) :
    rule.Fuses reading.preorder next.preorder := by
  induction step with
  | here found => exact fuses_of_rewrite? found
  | @inside cluster before after child next _ ih =>
    simpa [Tree.preorder_node] using
      ih.frame (cluster :: before.flatMap Tree.preorder) (after.flatMap Tree.preorder)

theorem Fuses.length_le {before after : List Cluster} (fuses : rule.Fuses before after) :
    after.length ≤ before.length := by
  obtain ⟨_, _, _, _, _, _, nonempty, beforePerm, afterPerm⟩ := fuses
  have some := List.length_pos_iff.mpr nonempty
  rw [beforePerm.length_eq, afterPerm.length_eq, List.length_append, List.length_cons]
  omega

theorem Step.depth_le {reading next : Reading} (step : rule.Step reading next) :
    next.depth ≤ reading.depth := by
  induction step with
  | @here reading _ found =>
    obtain ⟨sites, output, _, _, rfl⟩ := rewrite?_eq_some found
    rw [fuse, Tree.depth]
    exact Tree.depthAll_split_le _ reading
  | inside _ ih =>
    simp only [Tree.depth, Tree.depthAll_append, Tree.depthAll]
    omega

theorem exhaust_keeps {P : Reading → Prop}
    (keeps : ∀ {reading next}, rule.Step reading next → P reading → P next)
    (limit : Nat) {reading : Reading} (holds : P reading) : P (rule.exhaust limit reading).1 := by
  induction limit generalizing reading with
  | zero => exact holds
  | succ limit ih =>
    rw [exhaust]
    split
    · exact holds
    · exact ih (keeps (step_of_rewriteFirst? reading ‹_›) holds)

theorem exhaust_stuck {limit : Nat} {reading : Reading}
    (below : (rule.exhaust limit reading).2 < limit) :
    rule.rewriteFirst? (rule.exhaust limit reading).1 = none := by
  induction limit generalizing reading with
  | zero => exact absurd below (Nat.not_lt_zero _)
  | succ limit ih =>
    cases found : rule.rewriteFirst? reading with
    -- Only a run that stops of itself stays below its limit.
    | none => simp only [exhaust, found]
    | some next =>
      simp only [exhaust, found] at below ⊢
      exact ih (Nat.lt_of_succ_lt_succ below)

end Rule

/-- What every step of the rules keeps, a run of all rules keeps. -/
theorem rewriteAll_keeps {P : Reading → Prop} {rules : List Rule}
    (keeps : ∀ rule ∈ rules, ∀ {reading next}, rule.Step reading next → P reading → P next)
    (limit : Nat) {reading : Reading} (holds : P reading) :
    P (rewriteAll rules limit reading).1 := by
  induction rules generalizing limit reading with
  | nil => exact holds
  | cons rule rest ih =>
    rw [rewriteAll]
    refine ih (fun rule member => keeps rule (List.mem_cons_of_mem _ member)) _ ?_
    exact rule.exhaust_keeps (keeps rule List.mem_cons_self) limit holds

theorem length_rewriteAll_le (rules : List Rule) (limit : Nat) (reading : Reading) :
    (rewriteAll rules limit reading).1.preorder.length ≤ reading.preorder.length :=
  rewriteAll_keeps (P := fun next => next.preorder.length ≤ reading.preorder.length)
    (fun _ _ _ _ step bound => Nat.le_trans step.fuses.length_le bound) limit (Nat.le_refl _)

inductive Reaches (rules : List Rule) (start : Reading) : Reading → Prop where
  | start : Reaches rules start start
  | step {rule : Rule} {reading next : Reading} (member : rule ∈ rules) :
      Reaches rules start reading → rule.Step reading next → Reaches rules start next

theorem reaches_rewriteAll (rules : List Rule) (limit : Nat) (reading : Reading) :
    Reaches rules reading (rewriteAll rules limit reading).1 :=
  rewriteAll_keeps (fun _ member _ _ step reached => .step member reached step) limit .start

/-- The rules behind the first ones start where those end, with the steps that are left. -/
theorem rewriteAll_append (first rest : List Rule) (limit : Nat) (reading : Reading) :
    rewriteAll (first ++ rest) limit reading =
      let run := rewriteAll first limit reading
      let others := rewriteAll rest (limit - run.2) run.1
      (others.1, run.2 + others.2) := by
  induction first generalizing limit reading with
  | nil => simp [rewriteAll]
  | cons rule first ih => simp only [List.cons_append, rewriteAll, ih, Nat.sub_sub, Nat.add_assoc]

/-- A run below its limit ends where the last rule fails everywhere. -/
theorem rewriteAll_stuck {rules : List Rule} {rule : Rule} {limit : Nat} {reading : Reading}
    (below : (rewriteAll (rules ++ [rule]) limit reading).2 < limit) :
    rule.rewriteFirst? (rewriteAll (rules ++ [rule]) limit reading).1 = none := by
  rw [rewriteAll_append] at below ⊢
  simp only [rewriteAll, Nat.add_zero] at below ⊢
  exact rule.exhaust_stuck (by omega)

end TonTrace
