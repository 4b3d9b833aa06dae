import TonTrace.Proofs.Catalog

/-! Rules that stay stuck. A rule that applies nowhere goes on to apply nowhere
while others make only what none of its patterns looks at, as long as its own
parts take whatever their checks admit. Otherwise a rewrite can clear away the
very node that made it fail. -/

set_option autoImplicit false

namespace TonTrace

/-- The check only looks at the node itself, not below it. -/
def Check.Local (check : Reading → Bool) : Prop :=
  ∀ cluster first second, check (.node cluster first) = check (.node cluster second)

/-- The same node as before a rewrite below it that makes this event. -/
structure Reading.Retold (event : Event) (old new : Reading) : Prop where
  value : new.value = old.value
  children : ∀ child ∈ new.children, Reading.event child = event ∨
    ∃ other ∈ old.children, Reading.event other = Reading.event child

namespace Pattern

variable {Output : Type} {pattern part : Pattern Output} {event : Event}

def Overlooks (pattern : Pattern Output) (event : Event) : Prop :=
  ∀ inner ∈ pattern.nested, ∀ reading : Reading, reading.event = event → ¬ inner.Admits reading

def Local (pattern : Pattern Output) : Prop :=
  ∀ inner ∈ pattern.nested, ∀ check ∈ inner.checks, Check.Local check

theorem Overlooks.of_mem (overlooks : pattern.Overlooks event) (member : part ∈ pattern.parts) :
    part.Overlooks event := fun inner inside =>
  overlooks inner (nested_subset_of_mem_parts member inside)

theorem Local.of_mem (alone : pattern.Local) (member : part ∈ pattern.parts) : part.Local :=
  fun inner inside => alone inner (nested_subset_of_mem_parts member inside)

theorem Local.admits (alone : pattern.Local) {old new : Reading} (admits : pattern.Admits new)
    (same : new.value = old.value) : pattern.Admits old := by
  intro check listed
  cases old with
  | node cluster first =>
    cases new with
    | node _ second =>
      cases same
      rw [alone pattern (mem_nested_self pattern) check listed cluster first second]
      exact admits check listed

/-- The pattern takes every node that it admits, when a transaction there is like this. -/
def Accepts (pattern : Pattern Output) (holds : Transaction → Prop) : Prop :=
  ∀ reading : Reading, pattern.Admits reading →
    (∀ tx, reading.event = .transaction tx → holds tx) →
    ∀ output, ∃ next, pattern.build output reading = .ok next

/-- A rewrite below a node that makes something the pattern overlooks is no reason for the root to
take the node now and not before, whatever the parts have given. -/
def Firm (pattern : Pattern Output) : Prop :=
  ∀ {event : Event} {old new : Reading}, pattern.Overlooks event → Reading.Retold event old new →
    ∀ {output next}, pattern.build output new = .ok next → ∀ other, ∃ next,
      pattern.build other old = .ok next

theorem firm_of_cluster (takes : ∀ {cluster : Cluster} {first second : List Reading} {output next},
    pattern.build output (.node cluster first) = .ok next →
    ∀ other, ∃ next, pattern.build other (.node cluster second) = .ok next) : pattern.Firm := by
  intro event old new _ retold output next built other
  cases old with
  | node cluster children =>
    cases new with
    | node same others =>
      cases retold.value
      exact takes built other

end Pattern

namespace Rule

variable {rule other : Rule} {event : Event} {reading next : Reading}

def Stuck (rule : Rule) (reading : Reading) : Prop :=
  ∀ target ∈ reading.subtrees, ¬ Nonempty (rule.Match target)

theorem stuck_iff : rule.Stuck reading ↔ rule.rewriteFirst? reading = none := by
  rw [rewriteFirst?_eq_none_iff]
  refine forall₂_congr fun target _ => ?_
  rw [← isSome_rewrite?_iff, Option.not_isSome_iff_eq_none]

theorem Stuck.mono (stuck : rule.Stuck reading) {inner : Reading} (inside : inner ∈ reading.subtrees) :
    rule.Stuck inner := fun target below => stuck target (Tree.mem_subtrees_trans below inside)

theorem Stuck.exhaust_eq (stuck : rule.Stuck reading) (limit : Nat) :
    rule.exhaust limit reading = (reading, 0) := by
  cases limit with
  | zero => rfl
  | succ limit => simp only [exhaust, stuck_iff.mp stuck]

theorem Makes.exists_output (makes : rule.Makes event reading next) :
    ∃ output, event = rule.event output := by
  obtain ⟨_, _, found, _, same, _, _⟩ := makes.exists_match
  exact ⟨found.output, same.symm⟩

theorem eq_or_mem_of_replaced {α : Type} {before after : List α} {old new item : α}
    (member : item ∈ before ++ new :: after) : item = new ∨ item ∈ before ++ old :: after := by
  simp only [List.mem_append, List.mem_cons] at member ⊢
  tauto

theorem Makes.root (makes : rule.Makes event reading next) :
    next.event = event ∨ next.event = reading.event := by
  cases makes with
  | here found same => exact .inl same
  | inside => exact .inr rfl

theorem Makes.retold {cluster : Cluster} {before after : List Reading} {child : Reading}
    (makes : rule.Makes event child next) :
    Reading.Retold event (.node cluster (before ++ child :: after))
      (.node cluster (before ++ next :: after)) where
  value := rfl
  children := by
    intro node member
    rcases eq_or_mem_of_replaced member with rfl | member
    · refine makes.root.imp_right fun same => ⟨child, ?_, same.symm⟩
      exact List.mem_append_right _ List.mem_cons_self
    · exact .inr ⟨node, member, rfl⟩

theorem Makes.isSome_sites? {Output : Type} {pattern : Pattern Output} (alone : pattern.Local)
    (overlooks : pattern.Overlooks event) (makes : rule.Makes event reading next)
    (found : (pattern.sites? next).isSome) : (pattern.sites? reading).isSome := by
  induction makes generalizing pattern with
  | @here target made same =>
    -- The pattern does not hold of the node that was made, so it has no site there.
    have admits := (Pattern.isSome_sites?.mp found).1
    exact absurd admits (overlooks pattern pattern.mem_nested_self _ same)
  | @inside cluster before after child next _ ih =>
    obtain ⟨admits, parts⟩ := Pattern.isSome_sites?.mp found
    refine Pattern.isSome_sites?.mpr ⟨alone.admits admits rfl, fun part listed => ?_⟩
    refine (parts part listed).imp_right ?_
    rintro ⟨node, member, matched⟩
    rcases eq_or_mem_of_replaced member with rfl | member
    · refine ⟨child, List.mem_append_right _ List.mem_cons_self, ?_⟩
      exact ih (alone.of_mem listed) (overlooks.of_mem listed) matched
    · exact ⟨node, member, matched⟩

/-- Nothing but its checks and its root decides whether the rule applies at a node, as long as the
raw transactions are like this. -/
structure Steady (rule : Rule) (holds : Transaction → Prop) : Prop where
  alone : rule.pattern.Local
  parts : ∀ part ∈ Pattern.nestedAll rule.pattern.parts, part.Accepts holds
  root : rule.pattern.Firm

theorem exists_build_ok {sites : List (Site rule.Output)}
    (takes : ∀ site ∈ sites, ∀ output, ∃ next, site.pattern.build output site.reading = .ok next) :
    ∃ output, rule.build sites = .ok output := by
  induction sites with
  | nil => exact ⟨rule.initial, rfl⟩
  | cons site below ih =>
    obtain ⟨inner, before⟩ := ih fun other member => takes other (List.mem_cons_of_mem _ member)
    obtain ⟨output, here⟩ := takes site List.mem_cons_self inner
    exact ⟨output, build_cons_eq_ok_iff.mpr ⟨inner, before, here⟩⟩

variable {holds : Transaction → Prop}

theorem Steady.nonempty_match (steady : rule.Steady holds) (each : reading.EachRaw holds)
    (found : (rule.pattern.sites? reading).isSome)
    (root : ∀ output, ∃ next, rule.pattern.build output reading = .ok next) :
    Nonempty (rule.Match reading) := by
  obtain ⟨sites, matched⟩ := Option.isSome_iff_exists.mp found
  have stands := Pattern.standsIn_of_sites? rule.pattern matched
  obtain ⟨below, inside, rfl⟩ := Pattern.sites?_eq_some matched
  have parts : ∀ site ∈ below, ∀ output, ∃ next,
      site.pattern.build output site.reading = .ok next := by
    intro site member
    have here := stands site (List.mem_cons_of_mem _ member)
    have inner := Pattern.mem_nestedAll_of_partSites? _ inside site member
    refine steady.parts _ inner _ here.admitted fun tx raw => each _ ?_ tx raw
    exact Tree.value_mem_preorder_of_mem_subtrees (Tree.mem_subtrees_of_descendant? here.found)
  -- Every part takes its node, so only the root is left to refuse.
  obtain ⟨inner, first⟩ := exists_build_ok parts
  obtain ⟨output, last⟩ := root inner
  exact ⟨⟨_, output, matched, build_cons_eq_ok_iff.mpr ⟨inner, first, last⟩⟩⟩

/-- A stuck rule stays stuck when something is made that it overlooks. -/
theorem Stuck.makes (steady : rule.Steady holds) (overlooks : rule.pattern.Overlooks event)
    (makes : other.Makes event reading next) (each : reading.EachRaw holds)
    (stuck : rule.Stuck reading) : rule.Stuck next := by
  induction makes with
  | @here target found same =>
    intro node inside
    rw [Match.next, Tree.subtrees_node] at inside
    rcases List.mem_cons.mp inside with rfl | inside
    · rintro ⟨again⟩
      exact overlooks _ (Pattern.mem_nested_self _) found.next same again.admits
    · -- The subtrees that are left over were there before.
      obtain ⟨left, member, inside⟩ := List.mem_flatMap.mp inside
      exact stuck.mono (Tree.mem_subtrees_of_mem_split _ target member) node inside
  | @inside cluster before after child next makes ih =>
    have outside : ∀ node ∈ before ++ child :: after,
        node ∈ (Tree.node cluster (before ++ child :: after)).subtrees := fun _ member =>
      Tree.mem_subtrees_of_child member
    have within := outside child (List.mem_append_right _ List.mem_cons_self)
    intro node inside
    rw [Tree.subtrees_node] at inside
    rcases List.mem_cons.mp inside with rfl | inside
    · rintro ⟨again⟩
      -- What matches after the rewrite would have matched before it.
      have sites : (rule.pattern.sites? (.node cluster (before ++ child :: after))).isSome :=
        (Makes.inside makes).isSome_sites? steady.alone overlooks
          (Option.isSome_iff_exists.mpr ⟨_, again.matched⟩)
      obtain ⟨inner, built⟩ := again.exists_build_root
      exact stuck _ (Tree.mem_subtrees_self _)
        (steady.nonempty_match each sites (steady.root overlooks makes.retold built))
    · obtain ⟨tree, member, below⟩ := List.mem_flatMap.mp inside
      rcases eq_or_mem_of_replaced member with rfl | member
      · exact ih (each.mono within) (stuck.mono within) node below
      · exact stuck.mono (outside tree member) node below

end Rule

theorem rewriteAll_eq_of_stuck {rules : List Rule} {reading : Reading}
    (stuck : ∀ rule ∈ rules, rule.Stuck reading) (limit : Nat) :
    rewriteAll rules limit reading = (reading, 0) := by
  induction rules with
  | nil => rfl
  | cons rule rest ih =>
    rw [List.forall_mem_cons] at stuck
    rw [rewriteAll, stuck.1.exhaust_eq]
    exact congrArg (fun run : Reading × Nat => (run.1, 0 + run.2)) (ih stuck.2)

/-- When no rule looks at what a later one makes, a run below its limit leaves all steady rules
stuck, not only the last one. -/
theorem stuck_rewriteAll {rules : List Rule} {holds : Transaction → Prop}
    (recognises : ∀ rule ∈ rules, rule.Recognises)
    (ordered : rules.Pairwise fun earlier later =>
      ∀ output, earlier.pattern.Overlooks (later.event output))
    {limit : Nat} {reading : Reading} (each : reading.EachRaw holds)
    (below : (rewriteAll rules limit reading).2 < limit) :
    ∀ rule ∈ rules, rule.Steady holds → rule.Stuck (rewriteAll rules limit reading).1 := by
  induction rules generalizing limit reading with
  | nil => exact List.forall_mem_nil _
  | cons first rest ih =>
    obtain ⟨overlooks, ordered⟩ := List.pairwise_cons.mp ordered
    rw [List.forall_mem_cons] at recognises
    simp only [rewriteAll] at below ⊢
    have kept : (first.exhaust limit reading).1.EachRaw holds :=
      first.exhaust_keeps (fun step => step.eachRaw recognises.1) limit each
    rw [List.forall_mem_cons]
    refine ⟨fun steady => ?_, ih recognises.2 ordered kept (by omega)⟩
    have stuck : first.Stuck (first.exhaust limit reading).1 :=
      Rule.stuck_iff.mpr (first.exhaust_stuck (by omega))
    -- The later rules keep it so, step by step.
    refine (rewriteAll_keeps (P := fun reading => reading.EachRaw holds ∧ first.Stuck reading) ?_ _
      ⟨kept, stuck⟩).2
    intro later member old new step holding
    obtain ⟨event, makes⟩ := step.makes
    obtain ⟨output, rfl⟩ := makes.exists_output
    exact ⟨step.eachRaw (recognises.2 later member) holding.1,
      Rule.Stuck.makes steady (overlooks later member output) makes holding.1 holding.2⟩

end TonTrace
