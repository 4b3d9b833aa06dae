import TonTrace.Proofs.Placement
import TonTrace.Proofs.Rewriting
import TonTrace.Proofs.Validation

/-! What a step makes: the event that comes out of a match, the clusters that
are taken for it and the nodes that stay. -/

set_option autoImplicit false

namespace TonTrace.Rule

structure Match (rule : Rule) (target : Reading) where
  sites : List (Site rule.Output)
  output : rule.Output
  matched : rule.pattern.sites? target = some sites
  built : rule.build sites = .ok output

variable {rule : Rule} {target : Reading}

theorem build_cons (site : Site rule.Output) (below : List (Site rule.Output)) :
    rule.build (site :: below) =
      rule.build below >>= fun inner => site.pattern.build inner site.reading := by
  simp [build, List.foldlM_append]

theorem build_cons_eq_ok_iff {site : Site rule.Output} {below : List (Site rule.Output)}
    {output : rule.Output} : rule.build (site :: below) = .ok output ↔
      ∃ inner, rule.build below = .ok inner ∧ site.pattern.build inner site.reading = .ok output := by
  rw [build_cons, bind_eq_ok_iff]

namespace Match

variable (found : rule.Match target)

def event : Event := rule.event found.output

def paths : List (List Nat) := found.sites.map (·.path)

def taken : List Cluster := (target.split found.paths).1

def left : List Reading := (target.split found.paths).2

def made : Cluster := rule.fused found.sites found.output found.taken

def next : Reading := .node found.made found.left

@[simp] theorem event_made : found.made.event = found.event := rfl

theorem admits (found : rule.Match target) : rule.pattern.Admits target :=
  Pattern.admits_of_sites? found.matched

theorem preorder_perm : target.preorder.Perm (found.taken ++ Tree.preorderAll found.left) :=
  (Tree.split_perm _ target).symm

theorem taken_eq_cons : ∃ rest, found.taken = target.value :: rest := Tree.split_fst_eq_cons _ target

theorem value_mem_taken {site : Site rule.Output} (member : site ∈ found.sites) :
    site.reading.value ∈ found.taken :=
  Tree.mem_split_of_closed (Pattern.closed_of_sites? rule.pattern found.matched)
    (List.mem_map_of_mem member) (Pattern.standsIn_of_sites? rule.pattern found.matched site member).found

theorem exists_site {cluster : Cluster} (member : cluster ∈ found.taken) :
    ∃ site ∈ found.sites, site.pattern ∈ rule.pattern.nested ∧
      site.pattern.Admits site.reading ∧ site.reading.value = cluster := by
  have stands := Pattern.standsIn_of_sites? rule.pattern found.matched
  have inner := Pattern.mem_nested_of_sites? rule.pattern found.matched
  rcases Tree.exists_path_of_mem_split found.paths target member with rfl | ⟨path, listed, node, here, rfl⟩
  · obtain ⟨below, _, same⟩ := Pattern.sites?_eq_some found.matched
    have root : { pattern := rule.pattern, path := [], reading := target } ∈ found.sites := by
      rw [same]
      exact List.mem_cons_self
    exact ⟨_, root, inner _ root, (stands _ root).admitted, rfl⟩
  · obtain ⟨site, member, rfl⟩ := List.mem_map.mp listed
    have same : site.reading = node := Option.some.inj ((stands site member).found.symm.trans here)
    exact ⟨site, member, inner site member, (stands site member).admitted, congrArg _ same⟩

theorem exists_build_root :
    ∃ inner, rule.pattern.build inner target = .ok found.output := by
  obtain ⟨below, _, same⟩ := Pattern.sites?_eq_some found.matched
  obtain ⟨inner, _, root⟩ := build_cons_eq_ok_iff.mp (same ▸ found.built)
  exact ⟨inner, root⟩

/-- Of a pattern with one part, the part is built first, at the first child that it matches, and then
the root. -/
theorem exists_build_part {part : Pattern rule.Output} (parts : rule.pattern.parts = [part]) :
    (part.optional ∧ rule.pattern.build rule.initial target = .ok found.output) ∨
      ∃ place child, part.FirstMatch target.children place child ∧ child.value ∈ found.taken ∧
        part.Admits child ∧ ∃ inner next, part.build inner child = .ok next ∧
          rule.pattern.build next target = .ok found.output := by
  obtain ⟨below, inside, same⟩ := Pattern.sites?_eq_some found.matched
  obtain ⟨next, before, root⟩ := build_cons_eq_ok_iff.mp (same ▸ found.built)
  rw [parts, Pattern.partSites?] at inside
  split at inside
  case h_1 sites here =>
    obtain ⟨place, child, inner, first, matched, rfl⟩ := Pattern.exists_first here
    obtain ⟨others, further, rfl⟩ := Option.map_eq_some_iff.mp inside
    cases further
    obtain ⟨deeper, _, rfl⟩ := Pattern.sites?_eq_some matched
    rw [List.append_nil, List.map_cons] at before same
    -- The part is the first site below the root, so it is built right before the root.
    obtain ⟨start, _, made⟩ := build_cons_eq_ok_iff.mp before
    have member : Site.below place { pattern := part, path := [], reading := child } ∈ found.sites := by
      rw [same]
      exact List.mem_cons_of_mem _ List.mem_cons_self
    exact .inr ⟨place, child, first, found.value_mem_taken member,
      Pattern.admits_of_sites? matched, start, next, made, root⟩
  case h_2 =>
    split at inside
    case isTrue spare =>
      cases inside
      cases before
      exact .inl ⟨spare, root⟩
    case isFalse => cases inside

end Match

theorem nonempty_match_of_root (parts : rule.pattern.parts = []) (admits : rule.pattern.Admits target)
    {output : rule.Output} (built : rule.pattern.build rule.initial target = .ok output) :
    Nonempty (rule.Match target) := by
  have some : (rule.pattern.sites? target).isSome := by
    rw [Pattern.isSome_sites?, parts]
    exact ⟨admits, List.forall_mem_nil _⟩
  obtain ⟨sites, matched⟩ := Option.isSome_iff_exists.mp some
  obtain ⟨below, inside, rfl⟩ := Pattern.sites?_eq_some matched
  rw [parts] at inside
  cases inside
  exact ⟨_, output, matched, build_cons_eq_ok_iff.mpr ⟨rule.initial, rfl, built⟩⟩

theorem build_induct {P : rule.Output → Prop} {sites : List (Site rule.Output)} {output : rule.Output}
    (built : rule.build sites = .ok output) (initial : P rule.initial)
    (keeps : ∀ site ∈ sites, ∀ inner outer, P inner →
      site.pattern.build inner site.reading = .ok outer → P outer) : P output := by
  induction sites generalizing output with
  | nil =>
    cases built
    exact initial
  | cons site below ih =>
    obtain ⟨inner, before, here⟩ := build_cons_eq_ok_iff.mp built
    have holds := ih before fun other member => keeps other (List.mem_cons_of_mem _ member)
    exact keeps site List.mem_cons_self inner output holds here

/-- What holds of the output at first, and what no pattern of the rule breaks at a node that is
taken, holds of what a match gives. -/
theorem Match.output_induct {P : rule.Output → Prop} (found : rule.Match target)
    (initial : P rule.initial)
    (keeps : ∀ pattern ∈ rule.pattern.nested, ∀ reading : Reading, reading.value ∈ found.taken →
      ∀ inner outer, P inner → pattern.build inner reading = .ok outer → P outer) : P found.output :=
  build_induct found.built initial fun site member =>
    keeps site.pattern (Pattern.mem_nested_of_sites? rule.pattern found.matched site member)
      site.reading (found.value_mem_taken member)

inductive Makes (rule : Rule) (event : Event) : Reading → Reading → Prop where
  | here {target : Reading} (found : rule.Match target) (same : found.event = event) :
      Makes rule event target found.next
  | inside {cluster : Cluster} {before after : List Reading} {child next : Reading} :
      Makes rule event child next →
      Makes rule event (.node cluster (before ++ child :: after))
        (.node cluster (before ++ next :: after))

variable {event : Event} {reading next : Reading}

theorem Step.makes (step : rule.Step reading next) : ∃ event, rule.Makes event reading next := by
  induction step with
  | here found =>
    obtain ⟨sites, output, matched, built, rfl⟩ := rewrite?_eq_some found
    exact ⟨_, .here ⟨sites, output, matched, built⟩ rfl⟩
  | inside _ ih =>
    obtain ⟨event, makes⟩ := ih
    exact ⟨event, .inside makes⟩

theorem isSome_rewrite?_iff : (rule.rewrite? target).isSome ↔ Nonempty (rule.Match target) := by
  constructor
  · intro found
    obtain ⟨next, found⟩ := Option.isSome_iff_exists.mp found
    obtain ⟨sites, output, matched, built, _⟩ := rewrite?_eq_some found
    exact ⟨⟨sites, output, matched, built⟩⟩
  · rintro ⟨sites, output, matched, built⟩
    rw [rewrite?, matched]
    simp only [Option.bind_eq_bind, Option.bind_some, built]
    rfl

theorem exists_match_of_rewrite? (merged : rule.rewrite? target = some next) :
    ∃ found : rule.Match target, next = found.next := by
  obtain ⟨sites, output, matched, built, rfl⟩ := rewrite?_eq_some merged
  exact ⟨⟨sites, output, matched, built⟩, rfl⟩

theorem Makes.step (makes : rule.Makes event reading next) : rule.Step reading next := by
  induction makes with
  | @here target found _ =>
    refine .here ?_
    rw [rewrite?, found.matched]
    simp only [Option.bind_eq_bind, Option.bind_some, found.built]
    rfl
  | inside _ ih => exact .inside ih

/-- Some match inside the reading gives the event: what it takes comes back as one cluster, and
the others stay. -/
theorem Makes.exists_match (makes : rule.Makes event reading next) :
    ∃ target ∈ reading.subtrees, ∃ found : rule.Match target, ∃ kept, found.event = event ∧
      reading.preorder.Perm (found.taken ++ kept) ∧ next.preorder.Perm (found.made :: kept) := by
  induction makes with
  | @here target found same =>
    refine ⟨target, Tree.mem_subtrees_self target, found, _, same, found.preorder_perm, ?_⟩
    rw [Match.next, Tree.preorder]
  | @inside cluster before after child next _ ih =>
    obtain ⟨target, inside, found, kept, same, beforePerm, afterPerm⟩ := ih
    have child_mem : child ∈ (Tree.node cluster (before ++ child :: after)).children :=
      List.mem_append_right _ List.mem_cons_self
    -- What stands around the child is kept.
    let around := cluster :: before.flatMap Tree.preorder ++ after.flatMap Tree.preorder
    have move : ∀ (tree : Reading) (xs : List Cluster), tree.preorder.Perm xs →
        (Tree.node cluster (before ++ tree :: after)).preorder.Perm (xs ++ around) := by
      intro tree xs same
      rw [Tree.preorder_node, List.flatMap_append, List.flatMap_cons, ← List.cons_append]
      exact List.perm_append_comm_assoc _ _ _ |>.trans (same.append_right _)
    refine ⟨target, Tree.mem_subtrees_trans inside (Tree.mem_subtrees_of_child child_mem), found,
      kept ++ around, same, ?_, ?_⟩
    · rw [← List.append_assoc]
      exact move child _ beforePerm
    · exact move next _ afterPerm

end TonTrace.Rule

namespace TonTrace

inductive Rewrites (rules : List Rule) (start : Reading) : List Event → Reading → Prop where
  | start : Rewrites rules start [] start
  | step {rule : Rule} {log : List Event} {event : Event} {reading next : Reading}
      (member : rule ∈ rules) : Rewrites rules start log reading → rule.Makes event reading next →
      Rewrites rules start (log ++ [event]) next

namespace Rewrites

variable {rules : List Rule} {start reading : Reading} {log : List Event}

theorem reaches (run : Rewrites rules start log reading) : Reaches rules start reading := by
  induction run with
  | start => exact .start
  | step member _ makes ih => exact .step member ih makes.step

theorem exists_exhaust (run : Rewrites rules start log reading) {rule : Rule} (member : rule ∈ rules)
    (limit : Nat) : ∃ more, Rewrites rules start (log ++ more) (rule.exhaust limit reading).1 ∧
      more.length = (rule.exhaust limit reading).2 := by
  induction limit generalizing log reading with
  | zero => exact ⟨[], by rwa [List.append_nil], rfl⟩
  | succ limit ih =>
    cases found : rule.rewriteFirst? reading with
    | none =>
      simp only [Rule.exhaust, found]
      exact ⟨[], by rwa [List.append_nil], rfl⟩
    | some next =>
      simp only [Rule.exhaust, found]
      obtain ⟨event, makes⟩ := (Rule.step_of_rewriteFirst? reading found).makes
      obtain ⟨more, further, count⟩ := ih (.step member run makes)
      refine ⟨event :: more, ?_, by rw [List.length_cons, count]⟩
      rwa [List.append_assoc] at further

theorem exists_rewriteAll (run : Rewrites rules start log reading) {rest : List Rule}
    (all : ∀ rule ∈ rest, rule ∈ rules) (limit : Nat) :
    ∃ more, Rewrites rules start (log ++ more) (rewriteAll rest limit reading).1 ∧
      more.length = (rewriteAll rest limit reading).2 := by
  induction rest generalizing log reading limit with
  | nil => exact ⟨[], by rwa [List.append_nil], rfl⟩
  | cons rule rest ih =>
    obtain ⟨first, next, count⟩ := run.exists_exhaust (all rule List.mem_cons_self) limit
    obtain ⟨others, last, further⟩ := ih next
      (fun rule member => all rule (List.mem_cons_of_mem _ member))
      (limit - (rule.exhaust limit reading).2)
    refine ⟨first ++ others, ?_, ?_⟩
    · rwa [List.append_assoc] at last
    · rw [List.length_append, count, further]
      rfl

end Rewrites

theorem Reaches.exists_rewrites {rules : List Rule} {start reading : Reading}
    (reached : Reaches rules start reading) : ∃ log, Rewrites rules start log reading := by
  induction reached with
  | start => exact ⟨[], .start⟩
  | step member _ step ih =>
    obtain ⟨log, run⟩ := ih
    obtain ⟨event, makes⟩ := step.makes
    exact ⟨log ++ [event], run.step member makes⟩

theorem rewrites_rewriteAll (rules : List Rule) (limit : Nat) (reading : Reading) :
    ∃ log, Rewrites rules reading log (rewriteAll rules limit reading).1 ∧
      log.length = (rewriteAll rules limit reading).2 :=
  Rewrites.start.exists_rewriteAll (fun _ member => member) limit

end TonTrace
