import TonTrace.Proofs.Settling
import TonTrace.Proofs.Steadiness

/-! How a request for a jetton transfer is read once its jettons have reached the
recipient's wallet. The transfer then succeeds as the arrival did, unless the
notification of the new owner cannot be read: it is no part that a transfer
needs, but one that refuses its node makes the whole match fail, and the
transfer is taken for one that was aborted on its way. -/

set_option autoImplicit false

namespace TonTrace

theorem Transaction.eq_of_hasOperation {tx : Transaction} {first second : String}
    (one : tx.hasOperation first) (other : tx.hasOperation second) : first = second := by
  unfold hasOperation at one other
  cases body : tx.body? with
  | none => simp [body] at one
  | some body => simp_all

theorem Reading.event_ofTrace (trace : Trace) : (ofTrace trace).event = .transaction trace.value := by
  cases trace
  rfl

/-- What is read at the end of a way down, on which each check picks the first child it holds of. -/
def Reading.eventAlong? : List (Reading → Bool) → Reading → Option Event
  | [], reading => some reading.event
  | check :: rest, reading => (reading.children.find? check).bind (eventAlong? rest)

namespace Rule

variable {rule : Rule} {event : Event} {reading next : Reading}

/-- The check holds of no node that the rule rewrites, and of none that it makes. -/
structure Spares (rule : Rule) (check : Reading → Bool) : Prop where
  alone : Check.Local check
  matched {target : Reading} (found : rule.Match target) : check target = false
  made {target : Reading} (found : rule.Match target) : check found.next = false

theorem Spares.check_eq {check : Reading → Bool} (spares : rule.Spares check)
    (makes : rule.Makes event reading next) : check next = check reading := by
  cases makes with
  | here found => rw [spares.made found, spares.matched found]
  | inside => exact spares.alone _ _ _

/-- Unless the root itself is rewritten, a step leaves alone what is found along checks that the rule
spares. -/
theorem Makes.eventAlong?_eq {checks : List (Reading → Bool)}
    (spares : ∀ check ∈ checks, rule.Spares check) (makes : rule.Makes event reading next)
    (apart : ¬ Nonempty (rule.Match reading)) :
    next.eventAlong? checks = reading.eventAlong? checks := by
  induction checks generalizing reading next with
  | nil =>
    cases makes with
    | here found => exact absurd ⟨found⟩ apart
    | inside => rfl
  | cons check rest ih =>
    obtain ⟨first, others⟩ := List.forall_mem_cons.mp spares
    cases makes with
    | here found => exact absurd ⟨found⟩ apart
    | @inside cluster before after child next makes =>
      simp only [Reading.eventAlong?, List.find?_append, List.find?_cons, first.check_eq makes]
      cases before.find? check with
      | some earlier => rfl
      | none =>
        -- Only the child that the check picks matters, and the rule does not match there.
        cases picked : check child with
        | false => rfl
        | true =>
          refine ih others makes ?_
          rintro ⟨found⟩
          cases picked.symm.trans (first.matched found)

theorem exists_build_of_mem {sites : List (Site rule.Output)} {output : rule.Output}
    (built : rule.build sites = .ok output) : ∀ site ∈ sites, ∃ inner next,
      site.pattern.build inner site.reading = .ok next := by
  induction sites generalizing output with
  | nil => exact List.forall_mem_nil _
  | cons site below ih =>
    obtain ⟨inner, before, here⟩ := build_cons_eq_ok_iff.mp built
    exact List.forall_mem_cons.mpr ⟨⟨inner, output, here⟩, ih before⟩

theorem Match.exists_build (found : rule.Match reading) {address : List Nat} {site : Site rule.Output}
    (placed : rule.pattern.Places reading address site) :
    ∃ inner next, site.pattern.build inner site.reading = .ok next :=
  exists_build_of_mem found.built site ((Pattern.mem_iff_places found.matched).mpr ⟨address, placed⟩)

theorem nonempty_match_of_places (whole : rule.pattern.Matches reading)
    (takes : ∀ address site, rule.pattern.Places reading address site →
      ∀ output, ∃ next, site.pattern.build output site.reading = .ok next) :
    Nonempty (rule.Match reading) := by
  obtain ⟨sites, matched⟩ :=
    Option.isSome_iff_exists.mp ((Pattern.isSome_iff_matches rule.pattern reading).mpr whole)
  obtain ⟨output, built⟩ := exists_build_ok fun site member =>
    let ⟨address, placed⟩ := (Pattern.mem_iff_places matched).mp member
    takes address site placed
  exact ⟨⟨sites, output, matched, built⟩⟩

/-- A match at the root is rewritten first, since the root comes first in pre-order. -/
theorem exhaust_of_match (matched : Nonempty (rule.Match reading)) (limit : Nat) :
    ∃ found : rule.Match reading,
      (rule.exhaust (limit + 1) reading).1 = (rule.exhaust limit found.next).1 := by
  obtain ⟨next, rewritten⟩ := Option.isSome_iff_exists.mp (isSome_rewrite?_iff.mpr matched)
  obtain ⟨sites, output, placed, built, rfl⟩ := rewrite?_eq_some rewritten
  refine ⟨⟨sites, output, placed, built⟩, ?_⟩
  have first : rule.rewriteFirst? reading = some (rule.fuse sites output reading) := by
    cases reading with
    | node cluster children => simp only [rewriteFirst?, rewritten]
  simp only [exhaust, first]
  rfl

theorem Step.event_eq (sees : rule.Sees [.transaction]) (step : rule.Step reading next)
    (recognised : reading.event.kind ≠ .transaction) : next.event = reading.event := by
  obtain ⟨event, makes⟩ := step.makes
  cases makes with
  | here found =>
    have kind := sees.kind_mem (Pattern.mem_nested_self _) found.admits
    exact absurd (List.mem_singleton.mp kind) recognised
  | inside => rfl

theorem exhaust_event (sees : rule.Sees [.transaction]) (recognised : reading.event.kind ≠ .transaction)
    (limit : Nat) : (rule.exhaust limit reading).1.event = reading.event := by
  refine rule.exhaust_keeps (P := fun next => next.event = reading.event) ?_ limit rfl
  intro old new step same
  exact (step.event_eq sees (same ▸ recognised)).trans same

end Rule

namespace Catalog

open Check Pattern

/-! ### The parts of a jetton transfer -/

def jettonArrival : Pattern Event.JettonTransfer :=
  Pattern.parts jettonTransfer.pattern |>.head (List.cons_ne_nil _ _)

def jettonNotice : Pattern Event.JettonTransfer := jettonArrival.parts.head (List.cons_ne_nil _ _)

theorem parts_jettonTransfer : jettonTransfer.pattern.parts = [jettonArrival] := rfl

theorem parts_jettonArrival : jettonArrival.parts = [jettonNotice, excess] := rfl

def arrivalChecks : List (Reading → Bool) := [hasOperation Operation.jettonInternalTransfer]

/-- The way to the notification, which is looked for below the arrival alone. -/
def noticeChecks : List (Reading → Bool) :=
  [hasOperation Operation.jettonInternalTransfer, hasOperation Operation.jettonNotify]

theorem matches_jettonArrival (reading : Reading) : jettonArrival.Matches reading ↔
    hasOperation Operation.jettonInternalTransfer reading := by
  have spare : ∀ part ∈ [jettonNotice, excess], part.optional :=
    List.forall_mem_cons.mpr ⟨rfl, List.forall_mem_singleton.mpr rfl⟩
  exact matches_iff_check rfl spare reading

theorem matches_jettonNotice (reading : Reading) : jettonNotice.Matches reading ↔
    hasOperation Operation.jettonNotify reading :=
  matches_iff_check rfl (List.forall_mem_nil _) reading

theorem eventAlong?_arrivalChecks (reading : Reading) : reading.eventAlong? arrivalChecks =
    (reading.children.find? (hasOperation Operation.jettonInternalTransfer)).map Reading.event :=
  Option.map_eq_bind.symm

theorem eventAlong?_noticeChecks {reading arrival : Reading} (arrived :
      reading.children.find? (hasOperation Operation.jettonInternalTransfer) = some arrival) :
    reading.eventAlong? noticeChecks =
      (arrival.children.find? (hasOperation Operation.jettonNotify)).map Reading.event := by
  rw [noticeChecks, Reading.eventAlong?, arrived]
  exact Option.map_eq_bind.symm

variable {reading : Reading} {address : List Nat} {site : Site Event.JettonTransfer}

theorem places_jettonTransfer (placed : Places jettonTransfer.pattern reading address site) :
    (site.pattern = jettonTransfer.pattern ∧ site.reading = reading) ∨
      (site.pattern = jettonArrival ∧
        reading.children.find? (hasOperation Operation.jettonInternalTransfer) = some site.reading) ∨
      (site.pattern = jettonNotice ∧ ∃ arrival,
        reading.children.find? (hasOperation Operation.jettonInternalTransfer) = some arrival ∧
        arrival.children.find? (hasOperation Operation.jettonNotify) = some site.reading) ∨
      site.pattern = excess := by
  induction placed with
  | root => exact .inl ⟨rfl, rfl⟩
  | part _ listed first ih =>
    have member := List.mem_of_getElem? listed
    rcases ih with ⟨whole, root⟩ | ⟨whole, arrived⟩ | ⟨whole, _⟩ | whole
    · rw [whole, parts_jettonTransfer, List.mem_singleton] at member
      cases member
      rw [root] at first
      exact .inr (.inl ⟨rfl, first.find?_eq matches_jettonArrival⟩)
    · rw [whole, parts_jettonArrival] at member
      rcases List.mem_cons.mp member with rfl | member
      · exact .inr (.inr (.inl ⟨rfl, _, arrived, first.find?_eq matches_jettonNotice⟩))
      · exact .inr (.inr (.inr (List.mem_singleton.mp member)))
    -- The notification and the gas sent back have no parts.
    · rw [whole] at member
      cases member
    · rw [whole] at member
      cases member

/-! ### When a request is read as a transfer -/

/-- At the root a jetton wallet is asked for a transfer, by a message that can be read. -/
structure Asks (reading : Reading) (tx : Transaction) : Prop where
  raw : reading.event = .transaction tx
  wallet : tx.implements .jettonWallet
  ordered : ∃ order : Payload.JettonTransfer, tx.decodeBody Operation.jettonTransfer = .ok order

def Notifies (event : Event) : Prop :=
  ∃ tx, event = .transaction tx ∧
    ∃ body : Payload.JettonNotify, tx.decodeBody Operation.jettonNotify = .ok body

variable {tx arrival : Transaction} {node : Reading}

theorem Asks.takes (asks : Asks reading tx) (transfer : Event.JettonTransfer) :
    ∃ next, takeJettonTransfer transfer reading = .ok next := by
  obtain ⟨order, decoded⟩ := asks.ordered
  exact exists_bind_eq_ok (Reading.transaction_eq_ok_iff.mpr asks.raw)
    (exists_bind_eq_ok decoded ⟨_, rfl⟩)

theorem Asks.admits (asks : Asks reading tx) : jettonTransfer.pattern.Admits reading := by
  obtain ⟨order, decoded⟩ := asks.ordered
  refine List.forall_mem_cons.mpr ⟨?_, List.forall_mem_singleton.mpr ?_⟩
  · rw [hasInterface, onTransaction_of_event asks.raw]
    exact asks.wallet
  · rw [hasOperation, onTransaction_of_event asks.raw]
    exact Transaction.hasOperation_of_decodeBody decoded

theorem exists_takeJettonNotice_iff {transfer : Event.JettonTransfer} :
    (∃ next, takeJettonNotice transfer node = .ok next) ↔ Notifies node.event := by
  constructor
  · rintro ⟨next, built⟩
    obtain ⟨tx, read, built⟩ := bind_eq_ok_iff.mp built
    obtain ⟨body, decoded, _⟩ := bind_eq_ok_iff.mp built
    exact ⟨tx, Reading.transaction_eq_ok_iff.mp read, body, decoded⟩
  · rintro ⟨tx, raw, body, decoded⟩
    exact exists_bind_eq_ok (Reading.transaction_eq_ok_iff.mpr raw)
      (exists_bind_eq_ok decoded ⟨_, rfl⟩)

theorem notifies_of_match (found : jettonTransfer.Match reading) {notice : Event}
    (noticed : reading.eventAlong? noticeChecks = some notice) : Notifies notice := by
  obtain ⟨arrival, arrived, _⟩ := Option.bind_eq_some_iff.mp noticed
  rw [eventAlong?_noticeChecks arrived] at noticed
  obtain ⟨node, below, rfl⟩ := Option.map_eq_some_iff.mp noticed
  obtain ⟨index, first⟩ := exists_firstMatch matches_jettonArrival arrived
  obtain ⟨place, second⟩ := exists_firstMatch matches_jettonNotice below
  have placed : Places jettonTransfer.pattern reading [0, 0] ⟨jettonNotice, [index, place], node⟩ :=
    .part (.part .root rfl first) rfl second
  obtain ⟨inner, next, built⟩ := found.exists_build placed
  exact exists_takeJettonNotice_iff.mp ⟨next, built⟩

/-- Only a notification that cannot be read keeps a transfer that arrived from being recognised. -/
theorem nonempty_match_jettonTransfer (asks : Asks reading tx)
    (arrived : (reading.eventAlong? arrivalChecks).isSome)
    (read : ∀ notice, reading.eventAlong? noticeChecks = some notice → Notifies notice) :
    Nonempty (jettonTransfer.Match reading) := by
  rw [eventAlong?_arrivalChecks, Option.isSome_map] at arrived
  obtain ⟨child, first⟩ := Option.isSome_iff_exists.mp arrived
  have there : ∃ child ∈ reading.children, jettonArrival.Matches child :=
    ⟨child, List.mem_of_find?_eq_some first, (matches_jettonArrival child).mpr (List.find?_some first)⟩
  have whole : jettonTransfer.pattern.Matches reading := by
    rw [Matches]
    exact ⟨asks.admits, List.forall_mem_singleton.mpr fun _ => there⟩
  refine Rule.nonempty_match_of_places whole ?_
  rintro address ⟨part, path, node⟩ placed transfer
  rcases places_jettonTransfer placed with
    ⟨rfl, rfl⟩ | ⟨rfl, first⟩ | ⟨rfl, child, first, noticed⟩ | rfl
  · exact asks.takes transfer
  · obtain ⟨tx, raw, _⟩ := exists_transaction (List.find?_some first)
    exact exists_bind_eq_ok (Reading.transaction_eq_ok_iff.mpr raw) ⟨_, rfl⟩
  · refine exists_takeJettonNotice_iff.mpr (read _ ?_)
    rw [eventAlong?_noticeChecks first, noticed]
    rfl
  · exact ⟨transfer, rfl⟩

theorem success_of_match (found : jettonTransfer.Match reading)
    (arrived : reading.eventAlong? arrivalChecks = some (.transaction arrival)) :
    Event.JettonTransfer.success found.output = arrival.success := by
  rcases found.exists_build_part parts_jettonTransfer with
    ⟨spare, _⟩ | ⟨_, child, first, _, _, inner, next, taken, built⟩
  · cases spare
  · rw [eventAlong?_arrivalChecks, first.find?_eq matches_jettonArrival] at arrived
    -- What the arrival says is built before the root, which does not change it.
    obtain ⟨tx, read, taken⟩ := bind_eq_ok_iff.mp taken
    cases (Reading.transaction_eq_ok_iff.mp read).symm.trans (Option.some.inj arrived)
    cases taken
    obtain ⟨_, _, _, _, kept, _⟩ := takeJettonTransfer_eq_ok built
    exact kept

/-! ### Runs of the two rules -/

theorem spares_hasOperation {operation : String} (other : operation ≠ Operation.jettonTransfer) :
    jettonTransfer.Spares (hasOperation operation) where
  alone _ _ _ := rfl
  matched {target} found := by
    have admits := found.admits _ (List.mem_cons_of_mem _ List.mem_cons_self)
    obtain ⟨tx, raw, asked⟩ := exists_transaction admits
    rw [hasOperation, onTransaction_of_event raw, ← Bool.not_eq_true]
    exact fun holds => other (Transaction.eq_of_hasOperation holds asked)
  made _ := rfl

theorem spares_noticeChecks : ∀ check ∈ noticeChecks, jettonTransfer.Spares check :=
  List.forall_mem_cons.mpr ⟨spares_hasOperation (by decide),
    List.forall_mem_singleton.mpr (spares_hasOperation (by decide))⟩

theorem exhaust_unread {notice : Event} (raw : reading.event = .transaction tx)
    (noticed : reading.eventAlong? noticeChecks = some notice) (unread : ¬ Notifies notice)
    (limit : Nat) : (jettonTransfer.exhaust limit reading).1.event = .transaction tx := by
  refine (jettonTransfer.exhaust_keeps (P := fun reading => reading.event = .transaction tx ∧
    reading.eventAlong? noticeChecks = some notice) ?_ limit ⟨raw, noticed⟩).1
  rintro old new step ⟨raw, noticed⟩
  obtain ⟨event, makes⟩ := step.makes
  have apart : ¬ Nonempty (jettonTransfer.Match old) := fun ⟨found⟩ =>
    unread (notifies_of_match found noticed)
  refine ⟨?_, (makes.eventAlong?_eq spares_noticeChecks apart).trans noticed⟩
  cases makes with
  | here found => exact absurd ⟨found⟩ apart
  | inside => exact raw

variable {limit : Nat}

theorem rewriteAll_read (asks : Asks reading tx) (arrived : (reading.eventAlong? arrivalChecks).isSome)
    (read : ∀ notice, reading.eventAlong? noticeChecks = some notice → Notifies notice)
    (room : 0 < limit) : ∃ found : jettonTransfer.Match reading,
      (rewriteAll [jettonTransfer, abortedJettonTransfer] limit reading).1.event = found.event := by
  obtain ⟨fewer, rfl⟩ := Nat.exists_eq_add_of_le' room
  have matched := nonempty_match_jettonTransfer asks arrived read
  obtain ⟨found, run⟩ := jettonTransfer.exhaust_of_match matched fewer
  refine ⟨found, ?_⟩
  have told : (jettonTransfer.exhaust (fewer + 1) reading).1.event = found.event := by
    rw [run]
    exact Rule.exhaust_event (sees_transaction _ (by simp)) EventKind.noConfusion fewer
  refine (Rule.exhaust_event (sees_transaction _ (by simp)) ?_ _).trans told
  rw [told]
  exact EventKind.noConfusion

theorem rewriteAll_unread (asks : Asks reading tx) {notice : Event}
    (noticed : reading.eventAlong? noticeChecks = some notice) (unread : ¬ Notifies notice)
    (below : (rewriteAll [jettonTransfer, abortedJettonTransfer] limit reading).2 < limit) :
    ∃ transfer, (rewriteAll [jettonTransfer, abortedJettonTransfer] limit reading).1.event =
      .jettonTransfer transfer ∧ transfer.success = false := by
  simp only [rewriteAll] at below ⊢
  have raw := exhaust_unread asks.raw noticed unread limit
  generalize jettonTransfer.exhaust limit reading = first at below raw ⊢
  obtain ⟨fewer, left⟩ : ∃ fewer, limit - first.2 = fewer + 1 := ⟨limit - first.2 - 1, by omega⟩
  -- The request is still there, and the rule for aborted transfers looks at nothing else.
  have again : Asks first.1 tx := { asks with raw }
  obtain ⟨output, built⟩ := again.takes {}
  have matched : Nonempty (abortedJettonTransfer.Match first.1) :=
    Rule.nonempty_match_of_root rfl again.admits built
  obtain ⟨found, run⟩ := abortedJettonTransfer.exhaust_of_match matched fewer
  refine ⟨found.output, ?_, abortedJettonTransfer_success found⟩
  rw [left, run]
  exact Rule.exhaust_event (sees_transaction _ (by simp)) EventKind.noConfusion fewer

/-! ### Requests in a trace -/

variable (trace : Trace)

theorem eventAlong?_ofTrace (operation : String) (rest : List (Reading → Bool)) :
    (Reading.ofTrace trace).eventAlong? (hasOperation operation :: rest) =
      (trace.children.find? (·.value.hasOperation operation)).bind fun child =>
        (Reading.ofTrace child).eventAlong? rest := by
  have asked : hasOperation operation ∘ Reading.ofTrace =
      fun child => child.value.hasOperation operation :=
    funext fun child => onTransaction_of_event (Reading.event_ofTrace child) _
  cases trace with
  | node tx children =>
    rw [Reading.eventAlong?, Reading.ofTrace, Tree.map_node, List.find?_map, Option.bind_map]
    exact congrArg (fun asks => (children.find? asks).bind _) asked

theorem eventAlong?_arrivalChecks_ofTrace {arrival : Trace} (arrived :
      trace.children.find? (·.value.hasOperation Operation.jettonInternalTransfer) = some arrival) :
    (Reading.ofTrace trace).eventAlong? arrivalChecks = some (.transaction arrival.value) := by
  rw [arrivalChecks, eventAlong?_ofTrace, arrived]
  exact congrArg some (Reading.event_ofTrace arrival)

theorem eventAlong?_noticeChecks_ofTrace {arrival : Trace} (arrived :
      trace.children.find? (·.value.hasOperation Operation.jettonInternalTransfer) = some arrival) :
    (Reading.ofTrace trace).eventAlong? noticeChecks =
      (arrival.children.find? (·.value.hasOperation Operation.jettonNotify)).map
        fun notice => .transaction notice.value := by
  rw [noticeChecks, eventAlong?_ofTrace, arrived, Option.bind_some, eventAlong?_ofTrace,
    Option.map_eq_bind]
  exact congrArg _ (funext fun notice => congrArg some (Reading.event_ofTrace notice))

theorem forall_notifies_iff {arrival : Trace} (arrived :
      trace.children.find? (·.value.hasOperation Operation.jettonInternalTransfer) = some arrival) :
    (∀ notice, (Reading.ofTrace trace).eventAlong? noticeChecks = some notice → Notifies notice) ↔
      ∀ notice, arrival.children.find? (·.value.hasOperation Operation.jettonNotify) = some notice →
        ∃ body : Payload.JettonNotify, notice.value.decodeBody Operation.jettonNotify = .ok body := by
  rw [eventAlong?_noticeChecks_ofTrace trace arrived]
  constructor
  · intro read notice first
    rw [first] at read
    obtain ⟨tx, same, body, decoded⟩ := read _ rfl
    cases same
    exact ⟨body, decoded⟩
  · intro read event noticed
    obtain ⟨notice, first, rfl⟩ := Option.map_eq_some_iff.mp noticed
    obtain ⟨body, decoded⟩ := read notice first
    exact ⟨notice.value, rfl, body, decoded⟩

/-- Where a request for a transfer has set off an arrival at the recipient's wallet, a run of both
rules for transfers reads it as a transfer. It succeeds when the first arrival did and the first
notification below that can be read, if there is one. -/
theorem jettonTransfer_outcome {root : Transaction} {children : List Trace} {arrival : Trace}
    {order : Payload.JettonTransfer} (wallet : root.implements .jettonWallet)
    (ordered : root.decodeBody Operation.jettonTransfer = .ok order)
    (arrived : children.find? (·.value.hasOperation Operation.jettonInternalTransfer) = some arrival)
    (below : (rewriteAll [jettonTransfer, abortedJettonTransfer] limit
      (.ofTrace (.node root children))).2 < limit) :
    ∃ transfer, (rewriteAll [jettonTransfer, abortedJettonTransfer] limit
        (.ofTrace (.node root children))).1.event = .jettonTransfer transfer ∧
      (transfer.success ↔ arrival.value.success ∧
        ∀ notice, arrival.children.find? (·.value.hasOperation Operation.jettonNotify) = some notice →
          ∃ body : Payload.JettonNotify, notice.value.decodeBody Operation.jettonNotify = .ok body) := by
  have asks : Asks (.ofTrace (.node root children)) root := ⟨rfl, wallet, order, ordered⟩
  have reached := eventAlong?_arrivalChecks_ofTrace (.node root children) arrived
  rw [← forall_notifies_iff (.node root children) arrived]
  by_cases read : ∀ notice,
      (Reading.ofTrace (.node root children)).eventAlong? noticeChecks = some notice → Notifies notice
  · have there := Option.isSome_of_eq_some reached
    obtain ⟨found, told⟩ := rewriteAll_read asks there read (Nat.zero_lt_of_lt below)
    refine ⟨found.output, told, ?_⟩
    rw [success_of_match found reached, and_iff_left read]
  -- A notification that cannot be read leaves the request to the rule for aborted transfers.
  · obtain ⟨notice, missed⟩ := Classical.not_forall.mp read
    obtain ⟨noticed, unread⟩ := Classical.not_imp.mp missed
    obtain ⟨transfer, told, failed⟩ := rewriteAll_unread asks noticed unread below
    refine ⟨transfer, told, ?_⟩
    rw [failed]
    exact iff_of_false Bool.false_ne_true fun outcome => read outcome.2

def request : Transaction where
  hash := ⟨1⟩
  account := ⟨0, ⟨1⟩⟩
  interfaces := [.jettonWallet]
  success := true
  inMessage := some {
    external := true
    body := some {
      operation := Operation.jettonTransfer
      value := .object [("amount", .string "5"), ("destination", .string
        "0:0000000000000000000000000000000000000000000000000000000000000002")] } }

def delivery (notice : Json) : Trace :=
  .node {
      hash := ⟨2⟩
      account := ⟨0, ⟨3⟩⟩
      success := true
      inMessage := some {
        source := some ⟨0, ⟨1⟩⟩
        body := some { operation := Operation.jettonInternalTransfer, value := .object [] } } } [
    .leaf {
      hash := ⟨3⟩
      account := ⟨0, ⟨2⟩⟩
      success := true
      inMessage := some {
        source := some ⟨0, ⟨3⟩⟩
        body := some { operation := Operation.jettonNotify, value := notice } } }]

theorem asks_request (children : List Trace) : Asks (.ofTrace (.node request children)) request :=
  ⟨rfl, rfl, _, rfl⟩

def legible : Json :=
  .object [("amount", .string "5"), ("sender", .string
    "0:0000000000000000000000000000000000000000000000000000000000000001")]

theorem jettonTransfer_outcome_delivery :
    let run := rewriteAll [jettonTransfer, abortedJettonTransfer] 10
      (.ofTrace (.node request [delivery legible]))
    run.2 < 10 ∧ ∃ transfer, run.1.event = .jettonTransfer transfer ∧ transfer.success := by
  intro run
  have below : run.2 < 10 := by decide +kernel
  obtain ⟨order, decoded⟩ := (asks_request [delivery legible]).ordered
  obtain ⟨transfer, told, outcome⟩ := jettonTransfer_outcome rfl decoded rfl below
  refine ⟨below, transfer, told, outcome.mpr ⟨rfl, ?_⟩⟩
  rintro notice ⟨⟩
  exact ⟨_, rfl⟩

/-- The arrival succeeds, but its notification cannot be read: the transfer is said to have failed. -/
theorem jettonTransfer_unread :
    let trace : Trace := .node request [delivery (.object [])]
    let run := rewriteAll [jettonTransfer, abortedJettonTransfer] 10 (.ofTrace trace)
    trace.validate 10 = .ok () ∧ request.implements .jettonWallet ∧
      (∃ order : Payload.JettonTransfer, request.decodeBody Operation.jettonTransfer = .ok order) ∧
      trace.children.find? (·.value.hasOperation Operation.jettonInternalTransfer) =
        some (delivery (.object [])) ∧
      run.2 < 10 ∧ (delivery (.object [])).value.success = true ∧
      ∃ transfer, run.1.event = .jettonTransfer transfer ∧ transfer.success = false := by
  intro trace run
  have valid : trace.validate 10 = .ok () := by decide +kernel
  have below : run.2 < 10 := by decide +kernel
  have asks := asks_request [delivery (.object [])]
  refine ⟨valid, asks.wallet, asks.ordered, rfl, below, rfl, rewriteAll_unread asks rfl ?_ below⟩
  rintro ⟨tx, ⟨⟩, body, decoded⟩
  cases decoded

end Catalog

end TonTrace
