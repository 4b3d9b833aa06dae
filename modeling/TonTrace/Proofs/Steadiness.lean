import TonTrace.Proofs.Kinds
import TonTrace.Proofs.Stuck

/-! The rules of the catalog stand in an order in which none looks at what a later
one makes, and each is steady where the parts of patterns can read the bodies
that they look into. Only the rule for jetton transfers is not: a notification
that cannot be read makes it fail, and the rule for aborted transfers takes over. -/

set_option autoImplicit false

namespace TonTrace

namespace Transaction

def Decodes (α : Type) [Payload α] (tx : Transaction) (operation : String) : Prop :=
  tx.hasOperation operation → ∃ body : α, tx.decodeBody operation = .ok body

/-- Parts of patterns can read the bodies that they look into. -/
structure Legible (tx : Transaction) : Prop where
  assignment : tx.Decodes Payload.NftOwnershipAssigned Operation.nftOwnershipAssigned
  mint : tx.Decodes Payload.JettonMint Operation.jettonMint
  arrival : tx.Decodes Payload.JettonInternalTransfer Operation.jettonInternalTransfer
  stonfiResult : tx.Decodes Payload.StonfiPaymentRequest Operation.stonfiPaymentRequest
  dedustPool : tx.Decodes Payload.DedustSwapExternal Operation.dedustSwapExternal
  dedustPayout : tx.Decodes Payload.DedustPayoutFromPool Operation.dedustPayoutFromPool

end Transaction

namespace Pattern

open Check

variable {Output : Type} {pattern part : Pattern Output} {holds : Transaction → Prop}

theorem accepts_of_raw {check : Transaction → Bool} (checked : onTransaction check ∈ pattern.checks)
    (takes : ∀ {reading : Reading} {tx}, Reading.transaction reading = .ok tx → check tx → holds tx →
      ∀ output, ∃ next, pattern.build output reading = .ok next) : pattern.Accepts holds := by
  intro reading admits each
  obtain ⟨tx, raw, passes⟩ := exists_transaction (admits _ checked)
  exact takes (Reading.transaction_eq_ok_iff.mpr raw) passes (each tx raw)

def NeedsRaw (pattern : Pattern Output) : Prop :=
  ∀ reading : Reading, (pattern.sites? reading).isSome →
    ∃ node ∈ reading.subtrees, ∃ tx, Reading.event node = .transaction tx

theorem needsRaw_of_check {check : Transaction → Bool} (checked : onTransaction check ∈ pattern.checks) :
    pattern.NeedsRaw := by
  intro reading found
  obtain ⟨tx, raw, _⟩ := exists_transaction ((isSome_sites?.mp found).1 _ checked)
  exact ⟨reading, Tree.mem_subtrees_self reading, tx, raw⟩

theorem NeedsRaw.of_part (needs : part.NeedsRaw) (listed : part ∈ pattern.parts)
    (needed : part.optional = false) : pattern.NeedsRaw := by
  intro reading found
  rcases (isSome_sites?.mp found).2 part listed with spare | ⟨child, member, found⟩
  · rw [needed] at spare
    cases spare
  · obtain ⟨node, inside, raw⟩ := needs child found
    exact ⟨node, Tree.mem_subtrees_trans inside (Tree.mem_subtrees_of_child member), raw⟩

end Pattern

namespace Rule

variable {rule : Rule} {kinds : List EventKind}

theorem Sees.overlooks (sees : rule.Sees kinds) {event : Event} (unseen : event.kind ∉ kinds) :
    rule.pattern.Overlooks event := by
  rintro pattern inside reading rfl admits
  exact unseen (sees.kind_mem inside admits)

theorem Sees.overlooks_of_recognises {other : Rule} (sees : rule.Sees [.transaction])
    (recognises : other.Recognises) (output : other.Output) :
    rule.pattern.Overlooks (other.event output) := by
  refine sees.overlooks fun listed => ?_
  have kind := List.mem_singleton.mp listed
  cases event : other.event output with
  | transaction tx => exact recognises output tx event
  | _ => rw [event] at kind; cases kind

theorem stuck_of_needsRaw (needs : rule.pattern.NeedsRaw) {reading : Reading}
    (none : reading.EachRaw fun _ => False) : rule.Stuck reading := by
  rintro target inside ⟨found⟩
  obtain ⟨node, below, tx, raw⟩ := needs target (Option.isSome_iff_exists.mpr ⟨_, found.matched⟩)
  exact none.mono inside _ (Tree.value_mem_preorder_of_mem_subtrees below) tx raw

end Rule

namespace Catalog

open Check Pattern

variable {groups : PatternGroups}

/-! ### No rule looks at what a later one makes -/

theorem sublist_rules (groups : PatternGroups) {jettons : Bool} (kept : groups.jettons → jettons) :
    (rules groups).Sublist (rules { jettons }) := by
  have group_sublist : ∀ {enabled other : Bool} (rules : List Rule), (enabled → other) →
      (group enabled rules).Sublist (group other rules) := by
    intro enabled other rules kept
    cases enabled with
    | false => exact List.nil_sublist _
    | true => rw [kept rfl]
  -- The list is a chain of appended groups, the last one outermost.
  unfold rules
  repeat refine List.Sublist.append ?_ (group_sublist _ (by first | exact kept | exact fun _ => rfl))
  exact group_sublist _ fun _ => rfl

/-- Only transfers, which the first rules recognise, are looked at once they are made. -/
theorem unseen : ∀ rule ∈ (rules {}).drop 5, ∀ output, (rule.event output).kind ∉ visible := by
  repeat first
    | exact List.forall_mem_nil _
    | refine List.forall_mem_cons.mpr ⟨fun _ => of_decide_eq_false rfl, ?_⟩

theorem sees_transaction : ∀ rule ∈ [fragmentBid, nftTransfer, jettonTransfer, abortedJettonTransfer],
    rule.Sees [.transaction] := by
  have raw : ∀ holds, Check.Sees (onTransaction holds) [.transaction] := fun _ =>
    sees_onTransaction _ List.mem_cons_self
  repeat' first
    | exact List.forall_mem_nil _
    | exact ⟨_, List.mem_cons_self, raw _⟩
    | exact ⟨_, List.mem_cons_of_mem _ List.mem_cons_self, raw _⟩
    | refine List.forall_mem_cons.mpr ⟨?_, ?_⟩

theorem ordered (groups : PatternGroups) : (rules groups).Pairwise fun earlier later =>
    ∀ output, earlier.pattern.Overlooks (later.event output) := by
  refine List.Pairwise.sublist (sublist_rules groups fun _ => rfl) ?_
  have late : ∀ earlier ∈ rules {}, ∀ later ∈ (rules {}).drop 5, ∀ output,
      earlier.pattern.Overlooks (later.event output) := fun earlier first later second output =>
    (sees_visible {} earlier first).overlooks (unseen later second output)
  have early : ((rules {}).take 5).Pairwise fun earlier later =>
      ∀ output, earlier.pattern.Overlooks (later.event output) := by
    have raw : ∀ {rule : Rule}, rule.Sees [.transaction] → ∀ later ∈ (rules {}).take 5, ∀ output,
        rule.pattern.Overlooks (later.event output) := fun sees later second output =>
      sees.overlooks_of_recognises (recognises {} later (List.mem_of_mem_take second)) output
    -- Purchases look at transfers of NFTs too, but those are recognised before them.
    have aside : ∀ later ∈ [jettonTransfer, abortedJettonTransfer], ∀ output,
        nftPurchase.pattern.Overlooks (later.event output) := by
      refine List.forall_mem_cons.mpr ⟨fun output => ?_, List.forall_mem_singleton.mpr fun output => ?_⟩
      all_goals exact sees_nftPurchase.overlooks (of_decide_eq_false rfl)
    refine .cons (fun later second => raw (sees_transaction _ (by simp)) later ?_) ?_
    · exact List.mem_cons_of_mem _ second
    refine .cons (fun later second => raw (sees_transaction _ (by simp)) later ?_) (.cons aside ?_)
    · exact List.mem_cons_of_mem _ (List.mem_cons_of_mem _ second)
    refine .cons (List.forall_mem_singleton.mpr ?_) (List.pairwise_singleton _ _)
    exact raw (sees_transaction _ (by simp)) abortedJettonTransfer (List.mem_of_getElem? (i := 4) rfl)
  rw [← List.take_append_drop 5 (rules {}), List.pairwise_append]
  refine ⟨early, ?_, ?_⟩
  · exact List.pairwise_of_forall_mem_list fun earlier first => late earlier (List.mem_of_mem_drop first)
  · exact fun earlier first => late earlier (List.mem_of_mem_take first)

/-! ### The rules are steady -/

theorem local_rules (groups : PatternGroups) : ∀ rule ∈ rules groups, rule.pattern.Local := by
  apply forall_rules
  -- Check by check: each is a function of the event alone.
  all_goals
    repeat' first
      | exact List.forall_mem_nil _
      | exact fun _ _ _ => rfl
      | refine List.forall_mem_cons.mpr ⟨?_, ?_⟩

theorem exists_takePurchase_iff {purchase : Outcome Detail.NftPurchase} {reading : Reading} :
    (∃ next, takePurchase purchase reading = .ok next) ↔ ∃ tx, reading.transaction = .ok tx ∧
      tx.sale?.isSome ∧ ∃ child ∈ reading.children, handsOver tx.account child := by
  constructor
  · rintro ⟨next, built⟩
    obtain ⟨tx, read, built⟩ := bind_eq_ok_iff.mp built
    refine ⟨tx, read, ?_⟩
    cases sale : tx.sale? with
    | none => simp [sale] at built
    | some offer =>
      simp only [sale] at built
      split at built
      case isTrue handed => exact ⟨rfl, List.any_eq_true.mp handed⟩
      case isFalse => cases built
  · rintro ⟨tx, read, offered, handed⟩
    obtain ⟨offer, sale⟩ := Option.isSome_iff_exists.mp offered
    refine exists_bind_eq_ok read ?_
    simp only [sale, if_pos (List.any_eq_true.mpr handed)]
    exact ⟨_, rfl⟩

theorem isNftTransfer_of_handsOver {sale : Address} {child : Reading} (handed : handsOver sale child) :
    isNftTransfer child := by
  unfold handsOver at handed
  split at handed
  case h_1 transfer event => simp only [isNftTransfer, event]
  case h_2 => cases handed

/-- A sale takes its payment when a child hands the item over, and nothing below it is made into
that later. -/
theorem firm_nftPurchase : nftPurchase.pattern.Firm := by
  intro event old new overlooks retold output next built other
  obtain ⟨tx, read, offered, child, member, handed⟩ := exists_takePurchase_iff.mp ⟨next, built⟩
  refine exists_takePurchase_iff.mpr ⟨tx, ?_, offered, ?_⟩
  · rw [Reading.transaction_eq_ok_iff] at read ⊢
    rw [← read, Reading.event, Reading.event, retold.value]
  · rcases retold.children child member with same | ⟨before, listed, same⟩
    · refine absurd ?_ (overlooks _ (List.mem_cons_of_mem _ List.mem_cons_self) child same)
      exact List.forall_mem_singleton.mpr (isNftTransfer_of_handsOver handed)
    · refine ⟨before, listed, ?_⟩
      rw [handsOver, same]
      exact handed

theorem firm_dedustSwap : dedustSwap.pattern.Firm := by
  refine firm_of_cluster fun {cluster first second output next} built other => ?_
  change takeDedustOrder output (.node cluster first) = .ok next at built
  change ∃ next, takeDedustOrder other (.node cluster second) = .ok next
  unfold takeDedustOrder at built
  split at built
  case h_1 tx raw =>
    obtain ⟨order, decoded, _⟩ := bind_eq_ok_iff.mp built
    have same : Reading.event (.node cluster second) = .transaction tx := raw
    simp only [takeDedustOrder, same]
    exact exists_bind_eq_ok decoded ⟨_, rfl⟩
  case h_2 transfer recognised =>
    have same : Reading.event (.node cluster second) = .jettonTransfer transfer := recognised
    simp only [takeDedustOrder, same]
    exact ⟨_, rfl⟩
  case h_3 => cases built

theorem firm_rules (groups : PatternGroups) : ∀ rule ∈ rules groups, rule.pattern.Firm := by
  apply forall_rules
  case nftPurchase => exact firm_nftPurchase
  case dedustSwap => exact firm_dedustSwap
  case stonfiSwap | jettonInvoice =>
    refine firm_of_cluster fun built other => ?_
    obtain ⟨transfer, read, built⟩ := bind_eq_ok_iff.mp built
    cases payload : transfer.payload with
    | none => simp [payload] at built
    | some body =>
      simp only [payload] at built
      obtain ⟨order, decoded, _⟩ := bind_eq_ok_iff.mp built
      refine exists_bind_eq_ok read ?_
      simp only [payload]
      exact exists_bind_eq_ok decoded ⟨_, rfl⟩
  case nftTransfer | jettonTransfer | abortedJettonTransfer | jettonBurn | whalesWithdrawalRequest |
      tonInvoice =>
    refine firm_of_cluster fun built other => ?_
    obtain ⟨tx, read, built⟩ := bind_eq_ok_iff.mp built
    obtain ⟨body, decoded, _⟩ := bind_eq_ok_iff.mp built
    exact exists_bind_eq_ok read (exists_bind_eq_ok decoded ⟨_, rfl⟩)
  -- The other roots only read which event stands at the node.
  all_goals
    refine firm_of_cluster fun built other => ?_
    obtain ⟨source, read, _⟩ := bind_eq_ok_iff.mp built
    exact exists_bind_eq_ok read ⟨_, rfl⟩

theorem accepts_payout {pattern : Pattern Event.Swap} {holds : Transaction → Prop}
    {check : Transaction → Bool} (built : pattern.build = takePayout)
    (checked : either isJettonTransfer (onTransaction check) ∈ pattern.checks) :
    pattern.Accepts holds := by
  intro reading admits _ output
  rw [built]
  rcases Bool.or_eq_true_iff.mp (admits _ checked) with recognised | raw
  · unfold isJettonTransfer at recognised
    split at recognised
    case h_1 transfer event => simp only [takePayout, event]; exact ⟨_, rfl⟩
    case h_2 => cases recognised
  · obtain ⟨tx, event, _⟩ := exists_transaction raw
    simp only [takePayout, event]
    exact ⟨_, rfl⟩

theorem accepts_decoding {Output α : Type} [Payload α] {pattern : Pattern Output}
    {holds : Transaction → Prop} {operation : String}
    (checked : hasOperation operation ∈ pattern.checks)
    (decodes : ∀ tx, holds tx → tx.Decodes α operation)
    (takes : ∀ output reading, ∃ build : Transaction → α → Output, pattern.build output reading =
      reading.transaction >>= fun tx => tx.decodeBody operation >>= fun body => .ok (build tx body)) :
    pattern.Accepts holds := by
  refine accepts_of_raw checked fun {reading tx} read asked each output => ?_
  obtain ⟨body, decoded⟩ := decodes tx each asked
  obtain ⟨build, same⟩ := takes output reading
  rw [same]
  exact exists_bind_eq_ok read (exists_bind_eq_ok decoded ⟨_, rfl⟩)

theorem accepts_parts (groups : PatternGroups) : ∀ rule ∈ rules groups, rule = jettonTransfer ∨
    ∀ part ∈ nestedAll rule.pattern.parts, part.Accepts Transaction.Legible := by
  apply forall_rules
  case jettonTransfer => exact .inl rfl
  case nftTransfer =>
    refine .inr (List.forall_mem_cons.mpr ⟨?_, ?_⟩)
    · exact accepts_decoding List.mem_cons_self (fun _ => (·.assignment)) fun _ _ => ⟨_, rfl⟩
    · exact List.forall_mem_singleton.mpr fun _ _ _ output => ⟨output, rfl⟩
  case nftPurchase =>
    refine .inr (List.forall_mem_singleton.mpr fun reading admits _ output => ?_)
    have recognised := admits _ List.mem_cons_self
    unfold isNftTransfer at recognised
    split at recognised
    case h_1 transfer event =>
      have read : reading.nftTransfer = .ok transfer := by simp only [Reading.nftTransfer, event]
      exact exists_bind_eq_ok read ⟨_, rfl⟩
    case h_2 => cases recognised
  case stonfiSwap =>
    refine .inr (List.forall_mem_cons.mpr ⟨?_, List.forall_mem_cons.mpr ⟨?_, ?_⟩⟩)
    · exact accepts_of_raw List.mem_cons_self fun read _ _ _ => exists_bind_eq_ok read ⟨_, rfl⟩
    · exact accepts_decoding List.mem_cons_self (fun _ => (·.stonfiResult)) fun _ _ => ⟨_, rfl⟩
    · exact List.forall_mem_singleton.mpr (accepts_payout rfl List.mem_cons_self)
  case dedustSwap =>
    refine .inr (List.forall_mem_cons.mpr ⟨?_, List.forall_mem_cons.mpr ⟨?_, ?_⟩⟩)
    · exact accepts_decoding List.mem_cons_self (fun _ => (·.dedustPool)) fun _ _ => ⟨_, rfl⟩
    · exact accepts_decoding List.mem_cons_self (fun _ => (·.dedustPayout)) fun _ _ => ⟨_, rfl⟩
    · exact List.forall_mem_singleton.mpr (accepts_payout rfl List.mem_cons_self)
  case tonstakersDeposit =>
    refine .inr (List.forall_mem_cons.mpr ⟨?_, List.forall_mem_singleton.mpr ?_⟩)
    · exact accepts_decoding List.mem_cons_self (fun _ => (·.mint)) fun _ _ => ⟨_, rfl⟩
    · exact accepts_decoding List.mem_cons_self (fun _ => (·.arrival)) fun _ _ => ⟨_, rfl⟩
  -- The other parts take a raw transaction as it is, or nothing.
  all_goals
    right
    repeat first
      | exact List.forall_mem_nil _
      | refine List.forall_mem_cons.mpr ⟨fun _ _ _ output => ⟨output, rfl⟩, ?_⟩
      | refine List.forall_mem_cons.mpr ⟨accepts_of_raw List.mem_cons_self fun read _ _ _ =>
          exists_bind_eq_ok read ⟨_, rfl⟩, ?_⟩

theorem jettons_of_mem (member : jettonTransfer ∈ rules groups) : groups.jettons := by
  by_contra off
  -- No rule of the other groups has its name.
  have listed : jettonTransfer ∈ rules { jettons := false } :=
    (sublist_rules groups fun on => absurd on off).subset member
  have named : jettonTransfer.name ∉ (rules { jettons := false }).map Rule.name := by decide
  exact named (List.mem_map_of_mem listed)

theorem needsRaw (groups : PatternGroups) : ∀ rule ∈ rules groups, rule = jettonInvoice ∨
    rule.pattern.NeedsRaw := by
  apply forall_rules
  case jettonInvoice => exact .inl rfl
  case nftTransfer => exact .inr (needsRaw_of_check (List.mem_cons_of_mem _ List.mem_cons_self))
  -- Both swaps and deposits may start at a jetton transfer, but the pool's transaction is raw.
  case stonfiSwap | dedustSwap | stonfiLiquidityDeposit =>
    exact .inr ((needsRaw_of_check List.mem_cons_self).of_part List.mem_cons_self rfl)
  all_goals exact .inr (needsRaw_of_check List.mem_cons_self)

end Catalog

end TonTrace
