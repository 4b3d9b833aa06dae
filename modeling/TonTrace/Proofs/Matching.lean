import Mathlib.Data.List.Basic
import TonTrace.Pattern

/-! Where the sites of a match come from. -/

set_option autoImplicit false

namespace TonTrace.Pattern

variable {Output : Type}

mutual

def nested : Pattern Output → List (Pattern Output)
  | .mk name checks build settle parts optional =>
    .mk name checks build settle parts optional :: nestedAll parts

def nestedAll : List (Pattern Output) → List (Pattern Output)
  | [] => []
  | part :: rest => nested part ++ nestedAll rest

end

theorem nested_eq (pattern : Pattern Output) : pattern.nested = pattern :: nestedAll pattern.parts := by
  cases pattern
  rw [nested]

theorem exists_earliest_of_inFirstChild {find : Reading → Option (List (Site Output))}
    {children : List Reading} {sites : List (Site Output)}
    (found : inFirstChild find children = some sites) :
    ∃ index child inside, children[index]? = some child ∧ find child = some inside ∧
      sites = inside.map (Site.below index) ∧
      ∀ earlier < index, ∀ other, children[earlier]? = some other → find other = none := by
  obtain ⟨before, ⟨child, index⟩, after, split, found, missed⟩ := List.findSome?_eq_some_iff.mp found
  obtain ⟨inside, matched, rfl⟩ := Option.map_eq_some_iff.mp found
  have numbered : ∀ place : Nat, children.zipIdx[place]? = children[place]?.map fun child => (child, place) := by
    simp
  -- The pairs before the one found are those of the children before it.
  have here := numbered before.length
  rw [split, List.getElem?_append_right (Nat.le_refl _), Nat.sub_self, List.getElem?_cons_zero] at here
  obtain ⟨_, there, same⟩ := Option.map_eq_some_iff.mp here.symm
  cases same
  refine ⟨before.length, child, inside, there, matched, rfl, fun earlier below other listed => ?_⟩
  have pair := numbered earlier
  rw [split, List.getElem?_append_left below, listed, Option.map_some] at pair
  exact Option.map_eq_none_iff.mp (missed _ (List.mem_of_getElem? pair))

theorem inFirstChild_eq_some {find : Reading → Option (List (Site Output))}
    {children : List Reading} {sites : List (Site Output)}
    (found : inFirstChild find children = some sites) :
    ∃ index child inside, children[index]? = some child ∧ find child = some inside ∧
      sites = inside.map (Site.below index) := by
  obtain ⟨index, child, inside, here, matched, same, _⟩ := exists_earliest_of_inFirstChild found
  exact ⟨index, child, inside, here, matched, same⟩

theorem sites?_eq_some {pattern : Pattern Output} {reading : Reading} {sites : List (Site Output)}
    (found : pattern.sites? reading = some sites) :
    ∃ below, partSites? pattern.parts reading = some below ∧
      sites = { pattern, path := [], reading } :: below := by
  cases pattern with
  | mk name checks build settle parts optional =>
    rw [sites?] at found
    split at found
    · obtain ⟨below, inside, rfl⟩ := Option.map_eq_some_iff.mp found
      exact ⟨below, inside, rfl⟩
    · cases found

mutual

theorem mem_nested_of_sites? : ∀ (pattern : Pattern Output) {reading : Reading}
    {sites : List (Site Output)}, pattern.sites? reading = some sites →
    ∀ site ∈ sites, site.pattern ∈ pattern.nested
  | .mk name checks build settle parts optional, reading, sites, found => by
    obtain ⟨below, inside, rfl⟩ := sites?_eq_some found
    intro site member
    rw [nested_eq]
    rcases List.mem_cons.mp member with rfl | member
    · exact List.mem_cons_self
    · exact List.mem_cons_of_mem _ (mem_nestedAll_of_partSites? parts inside site member)

theorem mem_nestedAll_of_partSites? : ∀ (parts : List (Pattern Output)) {reading : Reading}
    {sites : List (Site Output)}, partSites? parts reading = some sites →
    ∀ site ∈ sites, site.pattern ∈ nestedAll parts
  | [], _, _, found => by
    cases found
    simp
  | part :: rest, reading, sites, found => by
    intro site member
    rw [nestedAll, List.mem_append]
    rw [partSites?] at found
    split at found
    case h_1 inside first =>
      obtain ⟨others, further, rfl⟩ := Option.map_eq_some_iff.mp found
      rcases List.mem_append.mp member with member | member
      · obtain ⟨index, child, sites, _, matched, rfl⟩ := inFirstChild_eq_some first
        obtain ⟨origin, inner, rfl⟩ := List.mem_map.mp member
        exact .inl (mem_nested_of_sites? part matched origin inner)
      · exact .inr (mem_nestedAll_of_partSites? rest further site member)
    case h_2 =>
      split at found
      · exact .inr (mem_nestedAll_of_partSites? rest found site member)
      · cases found

end

end TonTrace.Pattern
