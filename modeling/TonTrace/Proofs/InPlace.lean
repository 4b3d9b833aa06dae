import TonTrace.Proofs.Making

/-! Merging in place.

A merge looks its sites up in the reading that is in place, one after the other,
and gives what it reads to the builders. Only then it takes the reading out and
puts the new node there. What is done stays done when a merge fails, so that it
leaves the reading alone is a matter of the order of its steps.
-/

set_option autoImplicit false

namespace TonTrace

variable {α β : Type}

inductive Fault where
  | noMatch
  /-- Nothing stands where a site is looked up. -/
  | lost (path : List Nat)
  | refused (error : Error)

/-- Steps on the reading in place; there is none while it is taken out. -/
abbrev InPlace (α : Type) := ExceptT Fault (StateM (Option Reading)) α

namespace InPlace

def node (path : List Nat) : InPlace Reading := do
  match (← get).bind (Tree.descendant? path) with
  | some node => return node
  | none => throw (.lost path)

def takeOut : InPlace Reading := do
  let root ← node []
  set (none : Option Reading)
  return root

def putBack (reading : Reading) : InPlace Unit := set (some reading)

def accept : Except Error α → InPlace α
  | .ok value => return value
  | .error error => throw (.refused error)

/-- What the steps come to, and what is in place after them. -/
def on (steps : InPlace α) (reading : Reading) : Except Fault α × Option Reading :=
  steps.run.run (some reading)

theorem on_bind_of_ok {steps : InPlace α} {next : α → InPlace β} {reading other : Reading} {value : α}
    (done : steps.on reading = (.ok value, some other)) :
    (steps >>= next).on reading = (next value).on other := by
  unfold on at done ⊢
  rw [ExceptT.run_bind, StateT.run_bind, done]
  rfl

theorem on_bind_of_error {steps : InPlace α} {next : α → InPlace β} {reading : Reading}
    {left : Option Reading} {fault : Fault} (failed : steps.on reading = (.error fault, left)) :
    (steps >>= next).on reading = (.error fault, left) := by
  unfold on at failed ⊢
  rw [ExceptT.run_bind, StateT.run_bind, failed]
  rfl

theorem on_accept (result : Except Error α) (reading : Reading) :
    (accept result).on reading = (result.mapError .refused, some reading) := by
  cases result <;> rfl

theorem on_node {path : List Nat} {reading node : Reading}
    (found : reading.descendant? path = some node) :
    (InPlace.node path).on reading = (.ok node, some reading) := by
  have held : (get : InPlace (Option Reading)).on reading = (.ok (some reading), some reading) := rfl
  rw [InPlace.node, on_bind_of_ok held, Option.bind_some, found]
  rfl

theorem on_takeOut_putBack (change : Reading → Reading) (reading : Reading) :
    (takeOut >>= fun root => putBack (change root)).on reading =
      (.ok (), some (change reading)) := rfl

end InPlace

namespace Rule

variable (rule : Rule)

def buildInPlace (sites : List (Site rule.Output)) : InPlace rule.Output :=
  sites.reverse.foldlM (fun output site => do
    let node ← InPlace.node site.path
    InPlace.accept (site.pattern.build output node)) rule.initial

def mergeInPlace : InPlace Unit := do
  let reading ← InPlace.node []
  match rule.pattern.sites? reading with
  | none => throw .noMatch
  | some sites =>
    let output ← rule.buildInPlace sites
    let root ← InPlace.takeOut
    InPlace.putBack (rule.fuse sites output root)

theorem buildInPlace_cons (site : Site rule.Output) (below : List (Site rule.Output)) :
    rule.buildInPlace (site :: below) = (do
      let inner ← rule.buildInPlace below
      let node ← InPlace.node site.path
      InPlace.accept (site.pattern.build inner node)) := by
  simp [buildInPlace, List.foldlM_append]

theorem on_buildInPlace {sites : List (Site rule.Output)} {reading : Reading}
    (stands : ∀ site ∈ sites, reading.descendant? site.path = some site.reading) :
    (rule.buildInPlace sites).on reading = ((rule.build sites).mapError .refused, some reading) := by
  induction sites with
  | nil => rfl
  | cons site below ih =>
    rw [List.forall_mem_cons] at stands
    have inner := ih stands.2
    rw [buildInPlace_cons, build_cons]
    cases built : rule.build below with
    | error fault =>
      rw [built] at inner
      exact InPlace.on_bind_of_error inner
    | ok output =>
      rw [built] at inner
      rw [InPlace.on_bind_of_ok inner, InPlace.on_bind_of_ok (InPlace.on_node stands.1)]
      exact InPlace.on_accept _ reading

/-- What a merge comes to. It changes what is in place in its last step only. -/
theorem on_mergeInPlace (reading : Reading) :
    rule.mergeInPlace.on reading =
      match rule.pattern.sites? reading with
      | none => (.error .noMatch, some reading)
      | some sites =>
        match rule.build sites with
        | .error error => (.error (.refused error), some reading)
        | .ok output => (.ok (), some (rule.fuse sites output reading)) := by
  rw [mergeInPlace, InPlace.on_bind_of_ok (InPlace.on_node rfl)]
  cases matched : rule.pattern.sites? reading with
  | none => rfl
  | some sites =>
    -- Up to here the steps only read, so the builders see the nodes that the match found.
    have ran := rule.on_buildInPlace fun site member =>
      (Pattern.standsIn_of_sites? rule.pattern matched site member).found
    simp only
    cases built : rule.build sites with
    | error error =>
      rw [built] at ran
      exact InPlace.on_bind_of_error ran
    | ok output =>
      rw [built] at ran
      rw [InPlace.on_bind_of_ok ran]
      exact InPlace.on_takeOut_putBack _ reading

/-- The builders of these sites, run on the nodes of the reading from the last to the first, give
the output. -/
inductive Builds (reading : Reading) : List (Site rule.Output) → rule.Output → Prop where
  | initial : Builds reading [] rule.initial
  | site {site : Site rule.Output} {below : List (Site rule.Output)} {inner output : rule.Output}
      {node : Reading} : Builds reading below inner → reading.descendant? site.path = some node →
      site.pattern.build inner node = .ok output → Builds reading (site :: below) output

variable {rule}

theorem builds_iff {reading : Reading} {sites : List (Site rule.Output)} {output : rule.Output}
    (stands : ∀ site ∈ sites, reading.descendant? site.path = some site.reading) :
    rule.Builds reading sites output ↔ rule.build sites = .ok output := by
  induction sites generalizing output with
  | nil =>
    constructor
    · rintro ⟨⟩
      rfl
    · rintro ⟨⟩
      exact .initial
  | cons site below ih =>
    rw [List.forall_mem_cons] at stands
    rw [build_cons_eq_ok_iff]
    constructor
    · intro builds
      cases builds with
      | site built found given =>
        cases found.symm.trans stands.1
        exact ⟨_, (ih stands.2).mp built, given⟩
    · rintro ⟨inner, built, given⟩
      exact .site ((ih stands.2).mpr built) stands.1 given

/-- A merge succeeds exactly when the pattern matches and no builder refuses, it finds every site
of the match, and when it fails the reading is in place as it was. What it makes of the reading is
what the rule rewrites it to. -/
theorem mergeInPlace_atomic (rule : Rule) (reading : Reading) :
    ((rule.mergeInPlace.on reading).1 = .ok () ↔ ∃ sites output,
      rule.pattern.sites? reading = some sites ∧ rule.Builds reading sites output) ∧
      (∀ path, (rule.mergeInPlace.on reading).1 ≠ .error (.lost path)) ∧
      (∀ fault, (rule.mergeInPlace.on reading).1 = .error fault →
        (rule.mergeInPlace.on reading).2 = some reading) ∧
      rule.rewrite? reading =
        (rule.mergeInPlace.on reading).1.toOption.bind fun _ => (rule.mergeInPlace.on reading).2 := by
  rw [on_mergeInPlace, rewrite?]
  cases matched : rule.pattern.sites? reading with
  | none => simp [Except.toOption]
  | some sites =>
    have builds (output : rule.Output) :
        rule.Builds reading sites output ↔ rule.build sites = .ok output :=
      builds_iff fun site member =>
        (Pattern.standsIn_of_sites? rule.pattern matched site member).found
    cases built : rule.build sites with
    | error error => simp [Except.toOption, builds, built]
    | ok output => simp [Except.toOption, builds, built]

end Rule

end TonTrace
