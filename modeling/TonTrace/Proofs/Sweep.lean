import TonTrace.Proofs.Consumption
import TonTrace.Proofs.InPlace

/-! One sweep of a rule over a reading.

A sweep tries the rule in place at one node after the other, each before those
below it, and stops where it succeeds. It comes to the same as looking the first
such node up and putting another subtree there: what has been tried before in
vain, the siblings and all that stands above are left as they were.
-/

set_option autoImplicit false

namespace TonTrace

namespace Tree

variable {α : Type}

def replaceAt : List Nat → Tree α → Tree α → Tree α
  | [], _, other => other
  | index :: path, .node value children, other =>
    .node value (children.modify index fun child => replaceAt path child other)

theorem replaceAt_child (value : α) (before : List (Tree α)) (child : Tree α) (rest : List (Tree α))
    (path : List Nat) (other : Tree α) :
    (node value (before ++ child :: rest)).replaceAt (before.length :: path) other =
      node value (before ++ child.replaceAt path other :: rest) := by
  rw [replaceAt]
  congr 1
  induction before with
  | nil => rfl
  | cons first before ih => simpa using ih

theorem value_descendant?_replaceAt {path place : List Nat} (outside : ¬path <+: place)
    (tree other : Tree α) :
    ((tree.replaceAt path other).descendant? place).map (·.value) =
      (tree.descendant? place).map (·.value) := by
  induction path generalizing place tree with
  | nil => exact absurd List.nil_prefix outside
  | cons index path ih =>
    cases tree with
    | node value children =>
      cases place with
      | nil => rfl
      | cons step place =>
        rw [replaceAt, descendant?, descendant?, List.getElem?_modify]
        by_cases here : index = step
        · subst here
          have below : ¬path <+: place := fun start => outside (List.cons_prefix_cons.mpr ⟨rfl, start⟩)
          cases found : children[index]? with
          | none => simp
          | some child => simpa using ih below child
        · simp [here]

end Tree

namespace Rule

variable {rule : Rule}

mutual

/-- `Sweeps rule reading hit left`: a sweep over the reading that is in place says whether a merge has
succeeded, and leaves `left` in place. Where a merge fails, the sweep goes on below what that merge
has left. -/
inductive Sweeps (rule : Rule) : Reading → Bool → Reading → Prop where
  | merges {reading left : Reading} : rule.mergeInPlace.on reading = (.ok (), some left) →
      Sweeps rule reading true left
  | descends {reading : Reading} {fault : Fault} {cluster : Cluster} {children left : List Reading}
      {hit : Bool} : rule.mergeInPlace.on reading = (.error fault, some (.node cluster children)) →
      SweepsEach rule children hit left → Sweeps rule reading hit (.node cluster left)

inductive SweepsEach (rule : Rule) : List Reading → Bool → List Reading → Prop where
  | done : SweepsEach rule [] false []
  | hit {child left : Reading} {rest : List Reading} :
      Sweeps rule child true left → SweepsEach rule (child :: rest) true (left :: rest)
  | miss {child left : Reading} {rest others : List Reading} {hit : Bool} :
      Sweeps rule child false left → SweepsEach rule rest hit others →
      SweepsEach rule (child :: rest) hit (left :: others)

end

theorem on_mergeInPlace_of_some {reading next : Reading} (found : rule.rewrite? reading = some next) :
    rule.mergeInPlace.on reading = (.ok (), some next) := by
  obtain ⟨sites, output, matched, built, rfl⟩ := rewrite?_eq_some found
  simp only [on_mergeInPlace, matched, built]

theorem on_mergeInPlace_of_none {reading : Reading} (stuck : rule.rewrite? reading = none) :
    ∃ fault, rule.mergeInPlace.on reading = (.error fault, some reading) := by
  cases matched : rule.pattern.sites? reading with
  | none => exact ⟨.noMatch, by simp only [on_mergeInPlace, matched]⟩
  | some sites =>
    cases built : rule.build sites with
    | error error => exact ⟨.refused error, by simp only [on_mergeInPlace, matched, built]⟩
    | ok output => simp [rewrite?, matched, built, Except.toOption] at stuck

mutual

/-- A sweep in place comes to the first rewrite, and to nothing when there is none. -/
theorem sweeps_iff : ∀ (reading : Reading) {hit : Bool} {left : Reading},
    rule.Sweeps reading hit left ↔
      hit = (rule.rewriteFirst? reading).isSome ∧ left = (rule.rewriteFirst? reading).getD reading
  | .node cluster children, hit, left => by
    -- A failed merge puts the same node back, so that the sweep goes on below the old children.
    rw [rewriteFirst?]
    cases found : rule.rewrite? (.node cluster children) with
    | some next =>
      have merged := on_mergeInPlace_of_some found
      constructor
      · intro swept
        cases swept with
        | merges done =>
          cases merged.symm.trans done
          exact ⟨rfl, rfl⟩
        | descends failed => cases merged.symm.trans failed
      · rintro ⟨rfl, rfl⟩
        exact .merges merged
    | none =>
      obtain ⟨fault, failed⟩ := on_mergeInPlace_of_none found
      simp only [Option.isSome_map, Option.getD_map]
      constructor
      · intro swept
        cases swept with
        | merges done => cases failed.symm.trans done
        | descends again each =>
          cases failed.symm.trans again
          obtain ⟨rfl, rfl⟩ := (sweepsEach_iff children).mp each
          exact ⟨rfl, rfl⟩
      · rintro ⟨rfl, rfl⟩
        exact .descends failed ((sweepsEach_iff children).mpr ⟨rfl, rfl⟩)

theorem sweepsEach_iff : ∀ (children : List Reading) {hit : Bool} {left : List Reading},
    rule.SweepsEach children hit left ↔
      hit = (rule.rewriteFirstChild? children).isSome ∧
        left = (rule.rewriteFirstChild? children).getD children
  | [], hit, left => by
    rw [rewriteFirstChild?]
    constructor
    · intro swept
      cases swept
      exact ⟨rfl, rfl⟩
    · rintro ⟨rfl, rfl⟩
      exact .done
  | child :: rest, hit, left => by
    rw [rewriteFirstChild?]
    -- In the first child the sweep either succeeds or leaves the child as it was.
    cases found : rule.rewriteFirst? child with
    | some next =>
      have first : rule.Sweeps child true next := (sweeps_iff child).mpr (by simp [found])
      constructor
      · intro swept
        cases swept with
        | hit again =>
          obtain ⟨_, rfl⟩ := (sweeps_iff child).mp again
          simp [found]
        | miss again =>
          obtain ⟨no, _⟩ := (sweeps_iff child).mp again
          simp [found] at no
      · rintro ⟨rfl, rfl⟩
        exact .hit first
    | none =>
      have first : rule.Sweeps child false child := (sweeps_iff child).mpr (by simp [found])
      simp only [Option.isSome_map, Option.getD_map]
      constructor
      · intro swept
        cases swept with
        | hit again =>
          obtain ⟨yes, _⟩ := (sweeps_iff child).mp again
          simp [found] at yes
        | miss again others =>
          obtain ⟨_, rfl⟩ := (sweeps_iff child).mp again
          obtain ⟨rfl, rfl⟩ := (sweepsEach_iff rest).mp others
          simp [found]
      · rintro ⟨rfl, rfl⟩
        exact .miss first ((sweepsEach_iff rest).mpr ⟨rfl, rfl⟩)

end

def rewriteAt? (rule : Rule) (reading : Reading) (place : List Nat × Reading) : Option Reading :=
  (rule.rewrite? place.2).map (reading.replaceAt place.1)

theorem rewriteAt?_under (cluster : Cluster) (before : List Reading) (child : Reading)
    (rest : List Reading) (place : List Nat × Reading) :
    rule.rewriteAt? (.node cluster (before ++ child :: rest)) (Tree.under before.length place) =
      (rule.rewriteAt? child place).map fun next => .node cluster (before ++ next :: rest) := by
  rw [rewriteAt?, rewriteAt?, Option.map_map]
  apply congrArg (Option.map · _)
  funext next
  exact Tree.replaceAt_child ..

theorem rewriteFirstChild?_eq_findSome? (cluster : Cluster) {children : List Reading}
    (each : ∀ child ∈ children,
      rule.rewriteFirst? child = child.located.findSome? (rule.rewriteAt? child))
    (before : List Reading) :
    (rule.rewriteFirstChild? children).map (fun others => Tree.node cluster (before ++ others)) =
      (Tree.locatedAll before.length children).findSome?
        (rule.rewriteAt? (.node cluster (before ++ children))) := by
  induction children generalizing before with
  | nil => rfl
  | cons child rest ih =>
    rw [List.forall_mem_cons] at each
    have further := ih each.2 (before ++ [child])
    simp only [List.length_append, List.length_singleton, List.append_assoc, List.singleton_append]
      at further
    have inside : rule.rewriteAt? (.node cluster (before ++ child :: rest)) ∘
          Tree.under before.length =
        Option.map (fun next => .node cluster (before ++ next :: rest)) ∘ rule.rewriteAt? child :=
      funext (rewriteAt?_under cluster before child rest)
    rw [rewriteFirstChild?, Tree.locatedAll, List.findSome?_append, ← further, List.findSome?_map,
      inside, ← List.map_findSome?, ← each.1]
    cases rule.rewriteFirst? child with
    | some next => rfl
    | none => simp [Function.comp_def]

theorem rewriteFirst?_eq_findSome? (reading : Reading) :
    rule.rewriteFirst? reading = reading.located.findSome? (rule.rewriteAt? reading) := by
  induction reading using Tree.induct with
  | node cluster children each =>
    have below := rewriteFirstChild?_eq_findSome? cluster each []
    rw [rewriteFirst?, Tree.located, List.findSome?_cons, rewriteAt?]
    cases found : rule.rewrite? (.node cluster children) with
    | some next => rfl
    | none => exact below

theorem merges_iff {target : Reading} :
    (rule.mergeInPlace.on target).1 = .ok () ↔ (rule.rewrite? target).isSome := by
  cases found : rule.rewrite? target with
  | some next => simp [on_mergeInPlace_of_some found]
  | none =>
    obtain ⟨fault, failed⟩ := on_mergeInPlace_of_none found
    simp [failed]

theorem isSome_rewriteFirst?_iff {reading : Reading} : (rule.rewriteFirst? reading).isSome ↔
    ∃ path target, reading.descendant? path = some target ∧ (rule.rewrite? target).isSome := by
  rw [rewriteFirst?_eq_findSome?, List.findSome?_isSome_iff]
  simp only [Prod.exists, Tree.mem_located_iff, rewriteAt?, Option.isSome_map]

theorem exists_of_rewriteFirst? {reading left : Reading}
    (found : rule.rewriteFirst? reading = some left) :
    ∃ before path target after next, reading.located = before ++ (path, target) :: after ∧
      (∀ place ∈ before, rule.rewrite? place.2 = none) ∧ rule.rewrite? target = some next ∧
      left = reading.replaceAt path next := by
  rw [rewriteFirst?_eq_findSome?, List.findSome?_eq_some_iff] at found
  obtain ⟨before, ⟨path, target⟩, after, listed, here, earlier⟩ := found
  obtain ⟨next, merged, rfl⟩ := Option.map_eq_some_iff.mp here
  exact ⟨before, path, target, after, next, listed,
    fun place member => Option.map_eq_none_iff.mp (earlier place member), merged, rfl⟩

/-- A sweep has one outcome. It succeeds exactly when a merge would at some node taken alone, and
then the first such node in the order of the tree has been merged: the reading that is left has
what the merge makes of that subtree in its place, and at every other place the cluster that was
there. A sweep that does not succeed leaves the reading as it was. -/
theorem sweeps_exactly (rule : Rule) (reading : Reading) :
    ∃ hit left,
      (∀ answer after, rule.Sweeps reading answer after ↔ answer = hit ∧ after = left) ∧
      rule.rewriteFirst? reading = (if hit then some left else none) ∧
      (hit = true ↔ ∃ path target, reading.descendant? path = some target ∧
        (rule.mergeInPlace.on target).1 = .ok ()) ∧
      (hit = false → left = reading) ∧
      (hit = true → ∃ before path target after next,
        reading.located = before ++ (path, target) :: after ∧
        (∀ place ∈ before, (rule.mergeInPlace.on place.2).1 ≠ .ok ()) ∧
        rule.mergeInPlace.on target = (.ok (), some next) ∧ left = reading.replaceAt path next ∧
        ∀ place, ¬path <+: place →
          (left.descendant? place).map (·.value) = (reading.descendant? place).map (·.value)) := by
  refine ⟨(rule.rewriteFirst? reading).isSome, (rule.rewriteFirst? reading).getD reading,
    fun _ _ => sweeps_iff reading, ?same, ?succeeds, ?misses, ?hits⟩
  case same => cases rule.rewriteFirst? reading <;> rfl
  case succeeds =>
    simp only [isSome_rewriteFirst?_iff, merges_iff]
  case misses =>
    intro miss
    rw [Option.isSome_eq_false_iff, Option.isNone_iff_eq_none] at miss
    rw [miss, Option.getD_none]
  case hits =>
    intro hit
    obtain ⟨left, found⟩ := Option.isSome_iff_exists.mp hit
    obtain ⟨before, path, target, after, next, listed, earlier, merged, rfl⟩ :=
      exists_of_rewriteFirst? found
    refine ⟨before, path, target, after, next, listed, fun place member => ?_,
      on_mergeInPlace_of_some merged, by rw [found, Option.getD_some], fun place outside => ?_⟩
    · rw [ne_eq, merges_iff, earlier place member]
      exact Bool.false_ne_true
    · rw [found, Option.getD_some]
      exact Tree.value_descendant?_replaceAt outside reading next

/-- Matches any message, and then refuses all but answers. -/
def answerOnly : Rule :=
  { Catalog.tonTransfer with
    pattern := {
      build := fun output reading =>
        if Check.hasOperation "answer" reading then .ok output else .error (.badBody "answer") } }

/-- The call and the message in front of the answer are refused before the answer is read. -/
theorem sweeps_exactly_answer : ∃ left, answerOnly.Sweeps answered true left ∧
    left.preorder.map (·.event.kind) =
      [.transaction, .transaction, .tonTransfer, .transaction, .transaction] := by
  have kinds : (answerOnly.rewriteFirst? answered).map (fun left => left.preorder.map (·.event.kind)) =
      some [.transaction, .transaction, .tonTransfer, .transaction, .transaction] := by
    decide +kernel
  obtain ⟨hit, left, outcome, same, _⟩ := sweeps_exactly answerOnly answered
  rw [same] at kinds
  cases hit with
  | false => cases kinds
  | true => exact ⟨left, (outcome true left).mpr ⟨rfl, rfl⟩, Option.some.inj kinds⟩

end Rule

end TonTrace
