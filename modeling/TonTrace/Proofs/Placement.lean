import TonTrace.Catalog.Transfer
import TonTrace.Proofs.Sites

/-! What a pattern means, and where its parts go. A match is found exactly when
every part that is needed has a child to match, so taking the first such child
never costs a match. The sites of a match are its placements: a part stands
below the pattern around it, at the first child that it matches, and comes
after it. -/

set_option autoImplicit false

namespace TonTrace.Pattern

variable {Output : Type}

theorem sizeOf_lt_of_mem_parts {pattern part : Pattern Output} (member : part ∈ pattern.parts) :
    sizeOf part < sizeOf pattern := by
  cases pattern with
  | mk name checks build settle parts optional =>
    have smaller : sizeOf part < sizeOf parts := List.sizeOf_lt_of_mem member
    simp only [Pattern.mk.sizeOf_spec]
    omega

/-- The checks hold of the node, and every part that is not optional matches some child. -/
def Matches (pattern : Pattern Output) (reading : Reading) : Prop :=
  pattern.Admits reading ∧ ∀ part ∈ pattern.parts, part.optional = false →
    ∃ child ∈ reading.children, part.Matches child
termination_by sizeOf pattern
decreasing_by exact sizeOf_lt_of_mem_parts ‹_›

theorem isSome_iff_matches (pattern : Pattern Output) (reading : Reading) :
    (pattern.sites? reading).isSome ↔ pattern.Matches reading := by
  rw [isSome_sites?, Matches]
  refine and_congr_right fun _ => forall₂_congr fun part member => ?_
  have inner := isSome_iff_matches part
  cases part.optional <;> simp [inner]
termination_by sizeOf pattern
decreasing_by exact sizeOf_lt_of_mem_parts ‹_›

structure FirstMatch (pattern : Pattern Output) (children : List Reading) (index : Nat)
    (child : Reading) : Prop where
  here : children[index]? = some child
  matched : pattern.Matches child
  earliest : ∀ earlier < index, ∀ other, children[earlier]? = some other → ¬pattern.Matches other

/-- Where the parts of a pattern go when it matches. A part has the address of the pattern around
it and its own index there. It goes to the first child that it matches, if it matches any. -/
inductive Places (pattern : Pattern Output) (reading : Reading) : List Nat → Site Output → Prop where
  | root : Places pattern reading [] { pattern, path := [], reading }
  | part {address : List Nat} {outer : Site Output} {index place : Nat} {part : Pattern Output}
      {child : Reading} : Places pattern reading address outer →
      outer.pattern.parts[index]? = some part → part.FirstMatch outer.reading.children place child →
      Places pattern reading (address ++ [index])
        { pattern := part, path := outer.path ++ [place], reading := child }

variable {pattern part : Pattern Output} {reading child : Reading} {children : List Reading}
  {address : List Nat} {site : Site Output} {place : Nat}

theorem FirstMatch.unique {index : Nat} {other : Reading} (first : part.FirstMatch children place child)
    (second : part.FirstMatch children index other) : place = index ∧ child = other := by
  have same : place = index := by
    rcases Nat.lt_trichotomy place index with less | same | less
    · exact absurd first.matched (second.earliest place less child first.here)
    · exact same
    · exact absurd second.matched (first.earliest index less other second.here)
  subst same
  exact ⟨rfl, Option.some.inj (first.here.symm.trans second.here)⟩

theorem matches_iff_check {check : Reading → Bool} (checks : pattern.checks = [check])
    (spare : ∀ part ∈ pattern.parts, part.optional) (reading : Reading) :
    pattern.Matches reading ↔ check reading := by
  rw [Matches, Admits, checks, List.forall_mem_singleton]
  refine and_iff_left fun part member needed => ?_
  cases needed.symm.trans (spare part member)

/-- The first child that a pattern matches is the first one that passes a check, when the check is all
that the pattern asks for. -/
theorem FirstMatch.find?_eq {check : Reading → Bool} (asked : ∀ node, part.Matches node ↔ check node)
    (first : part.FirstMatch children place child) : children.find? check = some child := by
  obtain ⟨within, rfl⟩ := List.getElem?_eq_some_iff.mp first.here
  refine List.find?_eq_some_iff_getElem.mpr
    ⟨(asked _).mp first.matched, place, within, rfl, fun earlier less => ?_⟩
  have missed := first.earliest earlier less _ (List.getElem?_eq_getElem (Nat.lt_trans less within))
  simpa [asked] using missed

theorem exists_firstMatch {check : Reading → Bool} (asked : ∀ node, part.Matches node ↔ check node)
    (first : children.find? check = some child) : ∃ place, part.FirstMatch children place child := by
  obtain ⟨passes, place, within, rfl, missed⟩ := List.find?_eq_some_iff_getElem.mp first
  refine ⟨place, List.getElem?_eq_getElem within, (asked _).mpr passes, ?_⟩
  intro earlier less other listed
  obtain ⟨_, rfl⟩ := List.getElem?_eq_some_iff.mp listed
  simpa [asked] using missed earlier less

theorem exists_first {sites : List (Site Output)}
    (found : inFirstChild (sites? part) children = some sites) :
    ∃ place child inside, part.FirstMatch children place child ∧ part.sites? child = some inside ∧
      sites = inside.map (Site.below place) := by
  obtain ⟨place, child, inside, here, matched, rfl, missed⟩ := exists_earliest_of_inFirstChild found
  refine ⟨place, child, inside, ⟨here, ?_, fun earlier less other listed => ?_⟩, matched, rfl⟩
  · rw [← isSome_iff_matches, matched]
    rfl
  · rw [← isSome_iff_matches, missed earlier less other listed]
    simp

theorem not_first (missed : inFirstChild (sites? part) children = none) :
    ¬part.FirstMatch children place child := by
  intro first
  have found : (inFirstChild (sites? part) children).isSome := isSome_inFirstChild.mpr
    ⟨child, List.mem_of_getElem? first.here, (isSome_iff_matches part child).mpr first.matched⟩
  rw [missed] at found
  cases found

theorem Places.inside {index : Nat} (inner : part.Places child address site)
    (listed : pattern.parts[index]? = some part) (first : part.FirstMatch reading.children place child) :
    pattern.Places reading (index :: address) (site.below place) := by
  induction inner with
  | root => exact .part .root listed first
  | part _ listed first ih => exact .part ih listed first

inductive PlacesParts (parts : List (Pattern Output)) (start : Nat) (reading : Reading) :
    List Nat → Site Output → Prop where
  | intro {offset place : Nat} {part : Pattern Output} {child : Reading} {address : List Nat}
      {site : Site Output} : parts[offset]? = some part → part.FirstMatch reading.children place child →
      part.Places child address site →
      PlacesParts parts start reading ((start + offset) :: address) (site.below place)

theorem places_iff : pattern.Places reading address site ↔
    (address = [] ∧ site = { pattern, path := [], reading }) ∨
      PlacesParts pattern.parts 0 reading address site := by
  constructor
  · intro places
    induction places with
    | root => exact .inl ⟨rfl, rfl⟩
    | @part address outer index place part child _ listed first ih =>
      right
      rcases ih with ⟨rfl, rfl⟩ | @⟨offset, above, middle, node, address, inner, there, here, inside⟩
      · rw [List.nil_append, ← Nat.zero_add index]
        exact .intro listed first .root
      · exact .intro there here (.part inside listed first)
  · rintro (⟨rfl, rfl⟩ | ⟨listed, first, inner⟩)
    · exact .root
    · rw [Nat.zero_add]
      exact inner.inside listed first

theorem placesParts_cons_iff {rest : List (Pattern Output)} {start : Nat} :
    PlacesParts (part :: rest) start reading address site ↔
      (∃ place child inside inner, part.FirstMatch reading.children place child ∧
        part.Places child inside inner ∧ address = start :: inside ∧ site = inner.below place) ∨
      PlacesParts rest (start + 1) reading address site := by
  have shift : ∀ offset, start + 1 + offset = start + (offset + 1) := by omega
  constructor
  · intro places
    cases places with
    | @intro offset place other child inside inner listed first places =>
      -- The part at offset zero is the first one; the others are counted from the next.
      cases offset with
      | zero =>
        cases listed
        exact .inl ⟨place, child, inside, inner, first, places, rfl, rfl⟩
      | succ offset =>
        rw [← shift]
        exact .inr (.intro listed first places)
  · rintro (⟨place, child, inside, inner, first, places, rfl, rfl⟩ | places)
    · have here : (part :: rest)[0]? = some part := rfl
      exact .intro here first places
    · cases places with
      | @intro offset place other child inside inner listed first places =>
        have there : (part :: rest)[offset + 1]? = some other := listed
        rw [shift]
        exact .intro there first places

theorem PlacesParts.exists_cons {parts : List (Pattern Output)} {start : Nat}
    (places : PlacesParts parts start reading address site) :
    ∃ index inside, address = index :: inside ∧ start ≤ index := by
  cases places with
  | @intro offset place part child inside => exact ⟨start + offset, inside, rfl, Nat.le_add_right _ _⟩

/-- The list has an entry for each placement, an outer one before those inside it. -/
structure Enumerates (entries : List (List Nat × Site Output))
    (Holds : List Nat → Site Output → Prop) : Prop where
  mem_iff : ∀ address site, (address, site) ∈ entries ↔ Holds address site
  ordered : (entries.map (·.1)).Pairwise fun first second => ¬second <+: first

namespace Enumerates

variable {entries others : List (List Nat × Site Output)} {rest : List (Pattern Output)} {start : Nat}

theorem nil : Enumerates [] (PlacesParts ([] : List (Pattern Output)) start reading) where
  mem_iff address site := by
    refine iff_of_false List.not_mem_nil fun places => ?_
    obtain ⟨listed, _, _⟩ := places
    cases listed
  ordered := .nil

theorem root (inside : Enumerates entries (PlacesParts pattern.parts 0 reading)) :
    Enumerates (([], { pattern, path := [], reading }) :: entries) (pattern.Places reading) where
  mem_iff address site := by
    rw [List.mem_cons, Prod.mk.injEq, inside.mem_iff, places_iff]
  ordered := by
    refine List.pairwise_cons.mpr ⟨fun address member under => ?_, inside.ordered⟩
    obtain ⟨⟨address, site⟩, listed, rfl⟩ := List.mem_map.mp member
    obtain ⟨index, inner, same, _⟩ := ((inside.mem_iff address site).mp listed).exists_cons
    simp only [same] at under
    cases List.prefix_nil.mp under

theorem skipped (missed : ∀ place child, ¬part.FirstMatch reading.children place child)
    (behind : Enumerates entries (PlacesParts rest (start + 1) reading)) :
    Enumerates entries (PlacesParts (part :: rest) start reading) where
  mem_iff address site := by
    rw [behind.mem_iff, placesParts_cons_iff]
    refine ⟨.inr, ?_⟩
    rintro (⟨place, child, _, _, first, _⟩ | places)
    · exact absurd first (missed place child)
    · exact places
  ordered := behind.ordered

def lift (index place : Nat) (entry : List Nat × Site Output) : List Nat × Site Output :=
  (index :: entry.1, entry.2.below place)

theorem found (first : part.FirstMatch reading.children place child)
    (below : Enumerates entries (part.Places child))
    (behind : Enumerates others (PlacesParts rest (start + 1) reading)) :
    Enumerates (entries.map (lift start place) ++ others)
      (PlacesParts (part :: rest) start reading) where
  mem_iff address site := by
    rw [List.mem_append, behind.mem_iff, placesParts_cons_iff]
    refine or_congr_left ?_
    constructor
    · intro member
      obtain ⟨⟨inside, inner⟩, listed, same⟩ := List.mem_map.mp member
      cases same
      exact ⟨place, child, inside, inner, first, (below.mem_iff _ _).mp listed, rfl, rfl⟩
    · rintro ⟨other, node, inside, inner, second, places, rfl, rfl⟩
      -- The part has one first child only.
      obtain ⟨rfl, rfl⟩ := first.unique second
      exact List.mem_map.mpr ⟨(inside, inner), (below.mem_iff _ _).mpr places, rfl⟩
  ordered := by
    rw [List.map_append, List.pairwise_append]
    refine ⟨?_, behind.ordered, ?_⟩
    · have own := below.ordered
      rw [List.map_map, List.pairwise_map]
      refine (List.pairwise_map.mp own).imp fun {first second} apart under => apart ?_
      exact (List.cons_prefix_cons.mp under).2
    · rintro _ member _ other under
      obtain ⟨_, inner, rfl⟩ := List.mem_map.mp member
      obtain ⟨⟨inside, entry⟩, _, rfl⟩ := List.mem_map.mp inner
      obtain ⟨⟨address, site⟩, listed, rfl⟩ := List.mem_map.mp other
      obtain ⟨index, rest, same, later⟩ := ((behind.mem_iff address site).mp listed).exists_cons
      simp only [same, lift] at under
      have equal := (List.cons_prefix_cons.mp under).1
      omega

end Enumerates

mutual

theorem exists_entries : ∀ (pattern : Pattern Output) {reading : Reading}
    {sites : List (Site Output)}, pattern.sites? reading = some sites →
    ∃ entries, entries.map (·.2) = sites ∧ Enumerates entries (pattern.Places reading)
  | .mk name checks build settle parts optional, reading, sites, found => by
    obtain ⟨below, inside, rfl⟩ := sites?_eq_some found
    obtain ⟨entries, rfl, inner⟩ := exists_entries_parts parts 0 inside
    exact ⟨_, rfl, inner.root⟩

theorem exists_entries_parts : ∀ (parts : List (Pattern Output)) (start : Nat) {reading : Reading}
    {sites : List (Site Output)}, partSites? parts reading = some sites →
    ∃ entries, entries.map (·.2) = sites ∧ Enumerates entries (PlacesParts parts start reading)
  | [], start, reading, sites, found => by
    cases found
    exact ⟨[], rfl, .nil⟩
  | part :: rest, start, reading, sites, found => by
    rw [partSites?] at found
    split at found
    case h_1 inside here =>
      obtain ⟨others, further, rfl⟩ := Option.map_eq_some_iff.mp found
      obtain ⟨place, child, inner, first, matched, rfl⟩ := exists_first here
      obtain ⟨below, rfl, own⟩ := exists_entries part matched
      obtain ⟨behind, rfl, later⟩ := exists_entries_parts rest (start + 1) further
      refine ⟨_, ?_, own.found first later⟩
      rw [List.map_append, List.map_map, List.map_map]
      rfl
    case h_2 missed =>
      split at found
      · obtain ⟨entries, rfl, later⟩ := exists_entries_parts rest (start + 1) found
        exact ⟨entries, rfl, later.skipped fun _ _ => not_first missed⟩
      · cases found

end

theorem mem_iff_places {sites : List (Site Output)} (found : pattern.sites? reading = some sites) :
    site ∈ sites ↔ ∃ address, pattern.Places reading address site := by
  obtain ⟨entries, rfl, places⟩ := exists_entries pattern found
  simp only [← places.mem_iff, List.mem_map, Prod.exists, exists_eq_right]

theorem Places.stands (whole : pattern.Matches reading) (places : pattern.Places reading address site) :
    reading.descendant? site.path = some site.reading ∧ site.pattern.Matches site.reading := by
  induction places with
  | root => exact ⟨rfl, whole⟩
  | part _ _ first ih =>
    refine ⟨?_, first.matched⟩
    rw [Tree.descendant?_append, ih.1, Option.bind_some, Tree.descendant?, first.here]
    rfl

/-- A match is found exactly when the pattern means to match, and it says where each part goes: the
pattern itself at the root, every part below the pattern around it at the first child that it
matches, and outer ones before inner ones. -/
theorem sites?_exactly (pattern : Pattern Output) (reading : Reading) :
    ((pattern.sites? reading).isSome ↔ pattern.Matches reading) ∧
    ∀ sites, pattern.sites? reading = some sites →
      sites.head? = some { pattern, path := [], reading } ∧
      (∀ site ∈ sites, reading.descendant? site.path = some site.reading ∧
        site.pattern.Matches site.reading) ∧
      Tree.Closed (sites.map (·.path)) ∧
      ∃ entries : List (List Nat × Site Output), entries.map (·.2) = sites ∧
        (∀ address site, (address, site) ∈ entries ↔ pattern.Places reading address site) ∧
        (entries.map (·.1)).reverse.Pairwise fun inner outer => ¬inner <+: outer := by
  refine ⟨isSome_iff_matches pattern reading, fun sites found => ?_⟩
  have whole : pattern.Matches reading := by
    rw [← isSome_iff_matches, found]
    rfl
  obtain ⟨below, _, root⟩ := sites?_eq_some found
  obtain ⟨entries, same, places⟩ := exists_entries pattern found
  refine ⟨by rw [root, List.head?_cons], fun site member => ?_, closed_of_sites? pattern found,
    entries, same, places.mem_iff, List.pairwise_reverse.mpr places.ordered⟩
  rw [← same] at member
  obtain ⟨⟨address, site⟩, listed, rfl⟩ := List.mem_map.mp member
  exact ((places.mem_iff address site).mp listed).stands whole

/-- A jetton wallet sends gas back before it sends the jettons on, and so does the wallet that takes
them in before it notifies the owner. -/
def delivered : Reading :=
  .ofTrace <| .node {
      hash := ⟨1⟩
      account := ⟨0, ⟨1⟩⟩
      interfaces := [.jettonWallet]
      success := true
      inMessage := some { body := some { operation := Operation.jettonTransfer, value := .null } } } [
    .leaf {
      hash := ⟨2⟩
      account := ⟨0, ⟨2⟩⟩
      success := true
      inMessage := some { body := some { operation := Operation.excess, value := .null } } },
    .node {
        hash := ⟨3⟩
        account := ⟨0, ⟨3⟩⟩
        success := true
        inMessage := some {
          body := some { operation := Operation.jettonInternalTransfer, value := .null } } } [
      .leaf {
        hash := ⟨4⟩
        account := ⟨0, ⟨2⟩⟩
        success := true
        inMessage := some { body := some { operation := Operation.excess, value := .null } } },
      .leaf {
        hash := ⟨5⟩
        account := ⟨0, ⟨4⟩⟩
        success := true
        inMessage := some { body := some { operation := Operation.jettonNotify, value := .null } } }]]

theorem sites?_exactly_delivered :
    ∃ sites, Catalog.jettonTransfer.pattern.sites? delivered = some sites ∧
      sites.map (·.path) = [[], [1], [1, 1], [1, 0]] ∧
      Catalog.jettonTransfer.pattern.Matches delivered ∧ Tree.Closed (sites.map (·.path)) := by
  have paths : (Catalog.jettonTransfer.pattern.sites? delivered).map (List.map (·.path)) =
      some [[], [1], [1, 1], [1, 0]] := by
    decide +kernel
  obtain ⟨sites, found, paths⟩ := Option.map_eq_some_iff.mp paths
  obtain ⟨whole, placed⟩ := sites?_exactly Catalog.jettonTransfer.pattern delivered
  exact ⟨sites, found, paths, whole.mp (by rw [found]; rfl), (placed sites found).2.2.1⟩

end TonTrace.Pattern
