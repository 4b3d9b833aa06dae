import Mathlib.Data.List.Nodup
import Mathlib.Data.List.Perm.Basic
import TonTrace.AddressMap

/-! The keys of address maps: what an overlay adds to them, and the values that
stand at them in order. Maps without a key in common keep all their entries. -/

set_option autoImplicit false

namespace TonTrace.AddressMap

variable {α β : Type}

@[simp] theorem contains_empty (key : Address) : (empty : AddressMap α).contains key = false := rfl

theorem contains_single (key other : Address) (value : α) :
    (single key value).contains other = decide (key = other) := by
  rw [contains, find?_single]
  split <;> simp [*]

theorem mem_keys_iff {map : AddressMap α} {key : Address} : key ∈ map.keys ↔ map.contains key := by
  rw [contains, Option.isSome_iff_exists, keys, List.mem_map]
  constructor
  · rintro ⟨⟨_, value⟩, member, rfl⟩
    exact ⟨value, find?_eq_some_iff.mpr member⟩
  · rintro ⟨value, found⟩
    exact ⟨_, find?_eq_some_iff.mp found, rfl⟩

theorem contains_overlay (map other : AddressMap α) (key : Address) :
    (map.overlay other).contains key = (map.contains key || other.contains key) := by
  rw [contains, overlay, find?_merge]
  cases found : other.find? key <;> simp [contains, found]

theorem contains_foldl_overlay (maps : β → AddressMap α) (xs : List β) (start : AddressMap α)
    (key : Address) :
    (xs.foldl (fun map x => map.overlay (maps x)) start).contains key ↔
      start.contains key ∨ ∃ x ∈ xs, (maps x).contains key := by
  induction xs generalizing start with
  | nil => simp
  | cons x rest ih => simp [ih, contains_overlay, or_assoc]

theorem nodup_keys (map : AddressMap α) : map.keys.Nodup := by
  rw [keys, List.Nodup, List.pairwise_map]
  refine map.sorted.imp fun {first second} below same => ?_
  rw [same] at below
  exact Address.lt_irrefl _ below

theorem map_find?_keys (map : AddressMap α) : map.keys.map map.find? = map.values.map some := by
  rw [keys, values, List.map_map, List.map_map]
  exact List.map_congr_left fun entry member => find?_eq_some_iff.mpr member

theorem find?_eq_none_of_not_mem {map : AddressMap α} {key : Address} (absent : key ∉ map.keys) :
    map.find? key = none := by
  rw [mem_keys_iff, contains] at absent
  simpa using absent

theorem nodup_entries (map : AddressMap α) : map.entries.Nodup :=
  map.nodup_keys.of_map _

theorem entries_overlay_perm {map other : AddressMap α} (apart : map.keys.Disjoint other.keys) :
    (map.overlay other).entries.Perm (map.entries ++ other.entries) := by
  have disjoint : map.entries.Disjoint other.entries := .of_map apart
  refine (List.perm_ext_iff_of_nodup (nodup_entries _)
    (map.nodup_entries.append other.nodup_entries disjoint)).mpr fun ⟨key, value⟩ => ?_
  rw [List.mem_append, ← find?_eq_some_iff, ← find?_eq_some_iff, ← find?_eq_some_iff, overlay,
    find?_merge]
  cases found : other.find? key with
  | none => simp
  | some given =>
    -- The other map has the key, so this one does not.
    have absent : map.find? key = none := find?_eq_none_of_not_mem fun member =>
      apart member (List.mem_map_of_mem (find?_eq_some_iff.mp found))
    simp [absent]

theorem entries_foldl_overlay_perm (maps : β → AddressMap α) (xs : List β) (start : AddressMap α)
    (apart : ((start.entries ++ xs.flatMap fun x => (maps x).entries).map (·.1)).Nodup) :
    (xs.foldl (fun map x => map.overlay (maps x)) start).entries.Perm
      (start.entries ++ xs.flatMap fun x => (maps x).entries) := by
  induction xs generalizing start with
  | nil => simp
  | cons x rest ih =>
    rw [List.flatMap_cons, ← List.append_assoc] at apart ⊢
    have first : (start.overlay (maps x)).entries.Perm (start.entries ++ (maps x).entries) := by
      rw [List.map_append, List.map_append] at apart
      exact entries_overlay_perm (List.disjoint_of_nodup_append apart.of_append_left)
    have together := first.append_right (rest.flatMap fun x => (maps x).entries)
    exact (ih _ ((together.map _).nodup_iff.mpr apart)).trans together

theorem merge_eq_foldl (combine : Option α → β → Option α) (map : AddressMap α) (other : AddressMap β) :
    map.merge combine other =
      other.entries.foldl (fun map item => map.alter item.1 fun value => combine value item.2) map := by
  obtain ⟨entries, sorted⟩ := other
  refine ext fun key => ?_
  rw [find?_merge, find?]
  induction entries generalizing map with
  | nil => rfl
  | cons item rest ih =>
    obtain ⟨above, behind⟩ := pairwise_cons_iff.mp sorted
    rw [List.foldl_cons, ← ih _ behind, lookup, find?_alter]
    by_cases same : item.1 = key
    · subst same
      rw [if_pos rfl, if_pos rfl, lookup_eq_none_of_above above]
    · rw [if_neg same, if_neg same]

end TonTrace.AddressMap
