import TonTrace.Pattern.Check
import TonTrace.Proofs.Matching
import TonTrace.Proofs.Paths

/-! What checks ask of a node, when a pattern matches, and where the sites of a
match stand: each is a node of the reading that the checks of its pattern hold
of, and with a site the match has one at the node's parent. -/

set_option autoImplicit false

namespace TonTrace

theorem Reading.transaction_eq_ok_iff {reading : Reading} {tx : Transaction} :
    Reading.transaction reading = .ok tx ↔ Reading.event reading = .transaction tx := by
  unfold Reading.transaction
  cases event : Reading.event reading <;> simp

theorem Reading.nftTransfer_eq_ok_iff {reading : Reading} {transfer : Event.NftTransfer} :
    Reading.nftTransfer reading = .ok transfer ↔ Reading.event reading = .nftTransfer transfer := by
  unfold Reading.nftTransfer
  cases event : Reading.event reading <;> simp

namespace Check

variable {reading : Reading}

theorem exists_transaction {holds : Transaction → Bool} (checked : onTransaction holds reading) :
    ∃ tx, reading.event = .transaction tx ∧ holds tx := by
  unfold onTransaction Reading.transaction? at checked
  split at checked
  case h_1 tx raw => exact ⟨tx, raw, checked⟩
  case h_2 => cases checked

theorem onTransaction_of_event {tx : Transaction} (raw : reading.event = .transaction tx)
    (holds : Transaction → Bool) : onTransaction holds reading = holds tx := by
  simp only [onTransaction, Reading.transaction?, raw, Option.any_some]

theorem exists_jettonTransfer {operation : String} (checked : forwardsPayload operation reading) :
    ∃ transfer, reading.event = .jettonTransfer transfer ∧
      transfer.payload.any fun body => body.operation = operation := by
  unfold forwardsPayload at checked
  split at checked
  case h_1 transfer recognised => exact ⟨transfer, recognised, checked⟩
  case h_2 => cases checked

end Check

end TonTrace

namespace TonTrace.Pattern

variable {Output : Type}

def Admits (pattern : Pattern Output) (reading : Reading) : Prop :=
  ∀ check ∈ pattern.checks, check reading

theorem isSome_inFirstChild {find : Reading → Option (List (Site Output))}
    {children : List Reading} :
    (inFirstChild find children).isSome ↔ ∃ child ∈ children, (find child).isSome := by
  rw [inFirstChild, List.findSome?_isSome_iff]
  simp only [Option.isSome_map, Prod.exists]
  constructor
  · rintro ⟨child, index, member, found⟩
    exact ⟨child, List.mem_of_getElem? (List.mk_mem_zipIdx_iff_getElem?.mp member), found⟩
  · rintro ⟨child, member, found⟩
    obtain ⟨index, here⟩ := List.getElem?_of_mem member
    exact ⟨child, index, List.mk_mem_zipIdx_iff_getElem?.mpr here, found⟩

theorem isSome_partSites? {parts : List (Pattern Output)} {reading : Reading} :
    (partSites? parts reading).isSome ↔ ∀ part ∈ parts, part.optional ∨
      ∃ child ∈ reading.children, (part.sites? child).isSome := by
  induction parts with
  | nil => simp [partSites?]
  | cons part rest ih =>
    rw [partSites?, List.forall_mem_cons, ← ih, ← isSome_inFirstChild]
    cases inFirstChild (sites? part) reading.children with
    | some sites => simp
    | none => cases optional : part.optional <;> simp

/-- A pattern matches a node that its checks hold of when each part that is not
optional matches a child. -/
theorem isSome_sites? {pattern : Pattern Output} {reading : Reading} :
    (pattern.sites? reading).isSome ↔ pattern.Admits reading ∧ ∀ part ∈ pattern.parts,
      part.optional ∨ ∃ child ∈ reading.children, (part.sites? child).isSome := by
  rw [← isSome_partSites?]
  cases pattern with
  | mk name checks build settle parts optional =>
    have admits : Admits (.mk name checks build settle parts optional) reading ↔
        (checks.all fun check => check reading) := by
      simp [Admits]
    rw [sites?, admits]
    split
    · simp [*]
    · simp [*]

theorem admits_of_sites? {pattern : Pattern Output} {reading : Reading} {sites : List (Site Output)}
    (found : pattern.sites? reading = some sites) : pattern.Admits reading :=
  (isSome_sites?.mp (Option.isSome_iff_exists.mpr ⟨sites, found⟩)).1

theorem sites?_eq_pair {pattern part : Pattern Output} {reading : Reading} {sites : List (Site Output)}
    (parts : pattern.parts = [part]) (needed : part.optional = false) (simple : part.parts = [])
    (found : pattern.sites? reading = some sites) :
    ∃ index child, reading.children[index]? = some child ∧ part.Admits child ∧
      sites = [⟨pattern, [], reading⟩, ⟨part, [index], child⟩] := by
  obtain ⟨below, inside, rfl⟩ := sites?_eq_some found
  rw [parts, partSites?] at inside
  split at inside
  case h_1 first here =>
    obtain ⟨index, child, inner, there, matched, rfl⟩ := inFirstChild_eq_some here
    obtain ⟨others, further, rfl⟩ := Option.map_eq_some_iff.mp inside
    have admits := admits_of_sites? matched
    obtain ⟨deeper, nothing, rfl⟩ := sites?_eq_some matched
    rw [simple] at nothing
    cases nothing
    cases further
    exact ⟨index, child, there, admits, rfl⟩
  case h_2 => simp [needed] at inside

theorem nestedAll_eq_flatMap (parts : List (Pattern Output)) :
    nestedAll parts = parts.flatMap nested := by
  induction parts with
  | nil => rfl
  | cons part rest ih => rw [nestedAll, ih, List.flatMap_cons]

theorem mem_nested_self (pattern : Pattern Output) : pattern ∈ pattern.nested := by
  rw [nested_eq]
  exact List.mem_cons_self

theorem nested_subset_of_mem_parts {pattern part : Pattern Output} (member : part ∈ pattern.parts) :
    part.nested ⊆ pattern.nested := by
  rw [nested_eq pattern, nestedAll_eq_flatMap]
  intro inner inside
  exact List.mem_cons_of_mem _ (List.mem_flatMap_of_mem member inside)

end Pattern

open Pattern

variable {Output : Type}

/-- The site stands in this reading, at a node that its pattern's checks hold of. -/
structure Site.StandsIn (site : Site Output) (reading : Reading) : Prop where
  found : reading.descendant? site.path = some site.reading
  admitted : site.pattern.Admits site.reading

theorem Site.StandsIn.below {site : Site Output} {child reading : Reading} {index : Nat}
    (stands : site.StandsIn child) (here : reading.children[index]? = some child) :
    (site.below index).StandsIn reading where
  found := by
    rw [Site.below, Tree.descendant?, here]
    exact stands.found
  admitted := stands.admitted

namespace Pattern

mutual

theorem standsIn_of_sites? : ∀ (pattern : Pattern Output) {reading : Reading}
    {sites : List (Site Output)}, pattern.sites? reading = some sites →
    ∀ site ∈ sites, site.StandsIn reading
  | .mk name checks build settle parts optional, reading, sites, found => by
    have admitted := admits_of_sites? found
    obtain ⟨below, inside, rfl⟩ := sites?_eq_some found
    intro site member
    rcases List.mem_cons.mp member with rfl | member
    · exact ⟨rfl, admitted⟩
    · exact standsIn_of_partSites? parts inside site member

theorem standsIn_of_partSites? : ∀ (parts : List (Pattern Output)) {reading : Reading}
    {sites : List (Site Output)}, partSites? parts reading = some sites →
    ∀ site ∈ sites, site.StandsIn reading
  | [], _, _, found => by
    cases found
    simp
  | part :: rest, reading, sites, found => by
    intro site member
    rw [partSites?] at found
    split at found
    case h_1 inside first =>
      obtain ⟨others, further, rfl⟩ := Option.map_eq_some_iff.mp found
      rcases List.mem_append.mp member with member | member
      · obtain ⟨index, child, sites, here, matched, rfl⟩ := inFirstChild_eq_some first
        obtain ⟨origin, inner, rfl⟩ := List.mem_map.mp member
        exact (standsIn_of_sites? part matched origin inner).below here
      · exact standsIn_of_partSites? rest further site member
    case h_2 =>
      split at found
      · exact standsIn_of_partSites? rest found site member
      · cases found

end

mutual

theorem closed_of_sites? : ∀ (pattern : Pattern Output) {reading : Reading}
    {sites : List (Site Output)}, pattern.sites? reading = some sites →
    Tree.Closed (sites.map (·.path))
  | .mk name checks build settle parts optional, reading, sites, found => by
    obtain ⟨below, inside, rfl⟩ := sites?_eq_some found
    intro path index member
    rw [List.map_cons, List.mem_cons] at member ⊢
    rcases member with same | member
    · simp at same
    · exact closed_of_partSites? parts inside path index member

/-- Only the node above the parts is missing from their sites. -/
theorem closed_of_partSites? : ∀ (parts : List (Pattern Output)) {reading : Reading}
    {sites : List (Site Output)}, partSites? parts reading = some sites →
    ∀ path index, path ++ [index] ∈ sites.map (·.path) → path = [] ∨ path ∈ sites.map (·.path)
  | [], _, _, found => by
    cases found
    simp
  | part :: rest, reading, sites, found => by
    intro path index member
    rw [partSites?] at found
    split at found
    case h_1 inside first =>
      obtain ⟨others, further, rfl⟩ := Option.map_eq_some_iff.mp found
      rw [List.map_append, List.mem_append] at member ⊢
      rcases member with member | member
      · obtain ⟨place, child, sites, _, matched, rfl⟩ := inFirstChild_eq_some first
        rw [List.map_map] at member ⊢
        obtain ⟨site, inner, same⟩ := List.mem_map.mp member
        -- A path of one step leads to a child of the node above; a longer one stays in its child.
        cases path with
        | nil => exact .inl rfl
        | cons first path =>
          simp only [Function.comp_apply, Site.below, List.cons_append, List.cons.injEq] at same
          obtain ⟨rfl, same⟩ := same
          have listed : path ++ [index] ∈ sites.map (·.path) := same ▸ List.mem_map_of_mem inner
          obtain ⟨parent, above, rfl⟩ := List.mem_map.mp (closed_of_sites? part matched path index listed)
          exact .inr (.inl (List.mem_map.mpr ⟨parent, above, rfl⟩))
      · rcases closed_of_partSites? rest further path index member with top | above
        · exact .inl top
        · exact .inr (.inr above)
    case h_2 =>
      split at found
      · exact closed_of_partSites? rest found path index member
      · cases found

end

end TonTrace.Pattern
