import TonTrace.Address

/-! Finite maps from addresses.

Entries are kept in strictly increasing address order, so two maps with the
same look-ups are the same map. Every update is a merge with another map;
`find?_merge` says what a merge does to each look-up.
-/

set_option autoImplicit false

namespace TonTrace

variable {α β γ : Type}

/-- A finite map from addresses, its entries in strictly increasing order. -/
structure AddressMap (α : Type) where
  entries : List (Address × α)
  sorted : entries.Pairwise (fun a b => a.1 < b.1) := by simp

namespace AddressMap

def lookup (key : Address) : List (Address × α) → Option α
  | [] => none
  | (k, v) :: rest => if k = key then some v else lookup key rest

def Above (key : Address) (entries : List (Address × α)) : Prop := ∀ e ∈ entries, key < e.1

theorem lookup_eq_none_of_above {key : Address} {entries : List (Address × α)}
    (above : Above key entries) : lookup key entries = none := by
  induction entries with
  | nil => rfl
  | cons e rest ih =>
    have ne : e.1 ≠ key := fun same =>
      Address.lt_irrefl key (by simpa [same] using above e List.mem_cons_self)
    simp only [lookup, if_neg ne]
    exact ih fun e member => above e (List.mem_cons_of_mem _ member)

def push (key : Address) (value : Option α) (rest : List (Address × α)) : List (Address × α) :=
  match value with
  | some v => (key, v) :: rest
  | none => rest

def mergeNil (combine : Option α → β → Option α) : List (Address × β) → List (Address × α)
  | [] => []
  | (l, w) :: ys => push l (combine none w) (mergeNil combine ys)

def mergeCons (combine : Option α → β → Option α) (k : Address) (v : α)
    (rest : List (Address × β) → List (Address × α)) : List (Address × β) → List (Address × α)
  | [] => (k, v) :: rest []
  | (l, w) :: ys =>
    if k < l then (k, v) :: rest ((l, w) :: ys)
    else if l < k then push l (combine none w) (mergeCons combine k v rest ys)
    else push k (combine (some v) w) (rest ys)

/-- Bring the second list into the first. At each key of the second list the
new value is computed from the first list's value there and the second's; a
key whose new value is absent is dropped. -/
def mergeEntries (combine : Option α → β → Option α) :
    List (Address × α) → List (Address × β) → List (Address × α)
  | [] => mergeNil combine
  | (k, v) :: xs => mergeCons combine k v (mergeEntries combine xs)

theorem Above.nil (key : Address) : Above key ([] : List (Address × α)) :=
  fun _ member => absurd member List.not_mem_nil

theorem Above.cons {key k : Address} {v : α} {rest : List (Address × α)} (below : key < k)
    (sorted : ((k, v) :: rest).Pairwise (fun a b => a.1 < b.1)) : Above key ((k, v) :: rest) := by
  intro e member
  rcases List.mem_cons.mp member with rfl | member
  · exact below
  · exact Address.lt_trans below ((List.pairwise_cons.mp sorted).1 e member)

theorem Above.push {key k : Address} {value : Option α} {rest : List (Address × α)}
    (below : key < k) (above : Above key rest) : Above key (push k value rest) := by
  cases value with
  | none => exact above
  | some v =>
    intro e member
    rcases List.mem_cons.mp member with rfl | member
    · exact below
    · exact above e member

theorem pairwise_cons_iff {e : Address × α} {rest : List (Address × α)} :
    (e :: rest).Pairwise (fun a b => a.1 < b.1) ↔
      Above e.1 rest ∧ rest.Pairwise (fun a b => a.1 < b.1) := List.pairwise_cons

theorem Above.tail {key : Address} {e : Address × α} {rest : List (Address × α)}
    (above : Above key (e :: rest)) : Above key rest :=
  fun e member => above e (List.mem_cons_of_mem _ member)

theorem above_mergeNil (combine : Option α → β → Option α) {key : Address}
    {ys : List (Address × β)} (above : Above key ys) : Above key (mergeNil combine ys) := by
  induction ys with
  | nil => exact .nil key
  | cons e ys ih => exact .push (above e List.mem_cons_self) (ih above.tail)

theorem above_mergeCons (combine : Option α → β → Option α) {key k : Address} {v : α}
    {rest : List (Address × β) → List (Address × α)} (below : key < k)
    (behind : ∀ ys, Above key ys → Above key (rest ys)) {ys : List (Address × β)}
    (above : Above key ys) : Above key (mergeCons combine k v rest ys) := by
  have first : ∀ ys, Above key ys → Above key ((k, v) :: rest ys) := by
    intro ys above e member
    rcases List.mem_cons.mp member with rfl | member
    · exact below
    · exact behind ys above e member
  induction ys with
  | nil => exact first [] above
  | cons e ys ih =>
    obtain ⟨l, w⟩ := e
    rw [mergeCons]
    split
    · exact first _ above
    · split
      · exact .push (above _ List.mem_cons_self) (ih above.tail)
      · exact .push below (behind ys above.tail)

theorem above_mergeEntries (combine : Option α → β → Option α) {key : Address}
    {xs : List (Address × α)} {ys : List (Address × β)} (left : Above key xs)
    (right : Above key ys) : Above key (mergeEntries combine xs ys) := by
  induction xs generalizing ys with
  | nil => exact above_mergeNil combine right
  | cons e xs ih =>
    exact above_mergeCons combine (left e List.mem_cons_self) (fun _ above => ih left.tail above) right

theorem pairwise_push {key : Address} {value : Option α} {rest : List (Address × α)}
    (above : Above key rest) (sorted : rest.Pairwise (fun a b => a.1 < b.1)) :
    (push key value rest).Pairwise (fun a b => a.1 < b.1) := by
  cases value with
  | none => exact sorted
  | some v => exact pairwise_cons_iff.mpr ⟨above, sorted⟩

theorem pairwise_mergeNil (combine : Option α → β → Option α) {ys : List (Address × β)}
    (sorted : ys.Pairwise (fun a b => a.1 < b.1)) :
    (mergeNil combine ys).Pairwise (fun a b => a.1 < b.1) := by
  induction ys with
  | nil => exact .nil
  | cons e ys ih =>
    obtain ⟨above, sorted⟩ := pairwise_cons_iff.mp sorted
    exact pairwise_push (above_mergeNil combine above) (ih sorted)

theorem pairwise_mergeEntries (combine : Option α → β → Option α)
    (xs : List (Address × α)) (ys : List (Address × β))
    (left : xs.Pairwise (fun a b => a.1 < b.1)) (right : ys.Pairwise (fun a b => a.1 < b.1)) :
    (mergeEntries combine xs ys).Pairwise (fun a b => a.1 < b.1) := by
  induction xs generalizing ys with
  | nil => exact pairwise_mergeNil combine right
  | cons e xs ih =>
    obtain ⟨k, v⟩ := e
    obtain ⟨aboveLeft, sortedLeft⟩ := pairwise_cons_iff.mp left
    -- The merge goes on in either list, so the second is run through for each entry of the first.
    induction ys with
    | nil => exact pairwise_cons_iff.mpr ⟨above_mergeEntries combine aboveLeft (.nil k), ih [] sortedLeft right⟩
    | cons e ys ihRight =>
      obtain ⟨l, w⟩ := e
      obtain ⟨aboveRight, sortedRight⟩ := pairwise_cons_iff.mp right
      rw [mergeEntries, mergeCons]
      split
      case isTrue below =>
        exact pairwise_cons_iff.mpr
          ⟨above_mergeEntries combine aboveLeft (.cons below right), ih _ sortedLeft right⟩
      case isFalse notBelow =>
        split
        case isTrue below =>
          exact pairwise_push (above_mergeEntries combine (.cons below left) aboveRight)
            (ihRight sortedRight)
        case isFalse notAbove =>
          cases Address.eq_of_not_lt notBelow notAbove
          exact pairwise_push (above_mergeEntries combine aboveLeft aboveRight)
            (ih ys sortedLeft sortedRight)

def empty : AddressMap α := { entries := [] }

instance : Inhabited (AddressMap α) := ⟨empty⟩

def find? (map : AddressMap α) (key : Address) : Option α := lookup key map.entries

def contains (map : AddressMap α) (key : Address) : Bool := (map.find? key).isSome

def keys (map : AddressMap α) : List Address := map.entries.map (·.1)

def values (map : AddressMap α) : List α := map.entries.map (·.2)

def single (key : Address) (value : α) : AddressMap α := { entries := [(key, value)] }

def merge (combine : Option α → β → Option α) (map : AddressMap α) (other : AddressMap β) :
    AddressMap α where
  entries := mergeEntries combine map.entries other.entries
  sorted := pairwise_mergeEntries combine _ _ map.sorted other.sorted

def alter (key : Address) (change : Option α → Option α) (map : AddressMap α) : AddressMap α :=
  map.merge (fun value (_ : Unit) => change value) (single key ())

/-- Both maps together; where both have a value, the one of `other`. -/
def overlay (map other : AddressMap α) : AddressMap α := map.merge (fun _ value => some value) other

theorem lookup_push {key k : Address} {value : Option α} {rest : List (Address × α)}
    (above : Above k rest) :
    lookup key (push k value rest) = if k = key then value else lookup key rest := by
  by_cases same : k = key
  · subst same
    cases value with
    | none => simpa [push] using lookup_eq_none_of_above above
    | some v => simp [push, lookup]
  · cases value <;> simp [push, lookup, same]

theorem lookup_mergeNil (combine : Option α → β → Option α) (key : Address)
    {ys : List (Address × β)} (sorted : ys.Pairwise (fun a b => a.1 < b.1)) :
    lookup key (mergeNil combine ys) = (lookup key ys).bind (combine none) := by
  induction ys with
  | nil => rfl
  | cons e ys ih =>
    obtain ⟨l, w⟩ := e
    obtain ⟨above, sorted⟩ := pairwise_cons_iff.mp sorted
    rw [mergeNil, lookup_push (above_mergeNil combine above), ih sorted]
    by_cases same : l = key <;> simp [lookup, same]

theorem lookup_mergeEntries (combine : Option α → β → Option α) (key : Address)
    (xs : List (Address × α)) (ys : List (Address × β))
    (left : xs.Pairwise (fun a b => a.1 < b.1)) (right : ys.Pairwise (fun a b => a.1 < b.1)) :
    lookup key (mergeEntries combine xs ys) =
      match lookup key ys with
      | none => lookup key xs
      | some w => combine (lookup key xs) w := by
  induction xs generalizing ys with
  | nil =>
    rw [mergeEntries, lookup_mergeNil combine key right]
    cases lookup key ys <;> rfl
  | cons e xs ih =>
    obtain ⟨k, v⟩ := e
    obtain ⟨aboveLeft, sortedLeft⟩ := pairwise_cons_iff.mp left
    -- An entry of the first list stands in front of all keys above its own.
    have here : ∀ ys, ys.Pairwise (fun a b => a.1 < b.1) → Above k ys →
        lookup key ((k, v) :: mergeEntries combine xs ys) =
          match lookup key ys with
          | none => lookup key ((k, v) :: xs)
          | some w => combine (lookup key ((k, v) :: xs)) w := by
      intro ys sorted above
      by_cases same : k = key
      · subst same
        simp [lookup, lookup_eq_none_of_above above]
      · simp only [lookup, if_neg same]
        exact ih ys sortedLeft sorted
    induction ys with
    | nil => exact here [] right (.nil k)
    | cons e ys ihRight =>
      obtain ⟨l, w⟩ := e
      obtain ⟨aboveRight, sortedRight⟩ := pairwise_cons_iff.mp right
      rw [mergeEntries, mergeCons]
      split
      case isTrue below => exact here _ right (.cons below right)
      case isFalse notBelow =>
        split
        case isTrue below =>
          have higher : Above l ((k, v) :: xs) := .cons below left
          rw [← mergeEntries, lookup_push (above_mergeEntries combine higher aboveRight)]
          by_cases same : l = key
          · subst same
            rw [if_pos rfl, lookup_eq_none_of_above higher]
            simp [lookup]
          · rw [if_neg same, show lookup key ((l, w) :: ys) = lookup key ys by simp [lookup, same]]
            exact ihRight sortedRight
        case isFalse notAbove =>
          cases Address.eq_of_not_lt notBelow notAbove
          rw [lookup_push (above_mergeEntries combine aboveLeft aboveRight),
            ih ys sortedLeft sortedRight]
          by_cases same : k = key <;> simp [lookup, same]

theorem find?_merge (combine : Option α → β → Option α) (map : AddressMap α)
    (other : AddressMap β) (key : Address) :
    (map.merge combine other).find? key =
      match other.find? key with
      | none => map.find? key
      | some w => combine (map.find? key) w :=
  lookup_mergeEntries combine key _ _ map.sorted other.sorted

@[simp] theorem find?_empty (key : Address) : (empty : AddressMap α).find? key = none := rfl

theorem find?_single (key other : Address) (value : α) :
    (single key value).find? other = if key = other then some value else none := rfl

theorem find?_alter (key other : Address) (change : Option α → Option α) (map : AddressMap α) :
    (map.alter key change).find? other =
      if key = other then change (map.find? key) else map.find? other := by
  rw [alter, find?_merge, find?_single]
  by_cases same : key = other
  · subst same; simp
  · simp [same]

theorem find?_eq_some_iff {map : AddressMap α} {key : Address} {value : α} :
    map.find? key = some value ↔ (key, value) ∈ map.entries := by
  obtain ⟨entries, sorted⟩ := map
  simp only [find?]
  induction entries with
  | nil => simp [lookup]
  | cons e rest ih =>
    obtain ⟨k, v⟩ := e
    obtain ⟨above, sorted⟩ := pairwise_cons_iff.mp sorted
    by_cases same : k = key
    · subst same
      have absent : (k, value) ∉ rest := fun member => Address.lt_irrefl k (above _ member)
      simp [lookup, absent, eq_comm]
    · simp [lookup, same, ih sorted, Ne.symm same]

theorem ext {first second : AddressMap α} (same : ∀ key, first.find? key = second.find? key) :
    first = second := by
  obtain ⟨xs, left⟩ := first
  obtain ⟨ys, right⟩ := second
  congr 1
  simp only [find?] at same
  induction xs generalizing ys with
  | nil =>
    cases ys with
    | nil => rfl
    | cons e ys => simpa [lookup] using same e.1
  | cons e xs ih =>
    obtain ⟨k, v⟩ := e
    obtain ⟨aboveLeft, sortedLeft⟩ := pairwise_cons_iff.mp left
    cases ys with
    | nil => simpa [lookup] using same k
    | cons e ys =>
      obtain ⟨l, w⟩ := e
      obtain ⟨aboveRight, sortedRight⟩ := pairwise_cons_iff.mp right
      -- The lower of two first keys would be missing from the other map.
      have notBelow : ¬k < l := fun below => by
        have absent := lookup_eq_none_of_above (Above.cons below right)
        rw [← same k] at absent
        simp [lookup] at absent
      have notAbove : ¬l < k := fun below => by
        have absent := lookup_eq_none_of_above (Above.cons below left)
        rw [same l] at absent
        simp [lookup] at absent
      cases Address.eq_of_not_lt notBelow notAbove
      have sameValue := same k
      simp only [lookup, if_pos, Option.some.injEq] at sameValue
      subst sameValue
      congr 1
      refine ih sortedLeft ys sortedRight fun key => ?_
      have there := same key
      by_cases here : k = key
      · subst here
        rw [lookup_eq_none_of_above aboveLeft, lookup_eq_none_of_above aboveRight]
      · simpa [lookup, here] using there

end AddressMap

abbrev AddressSet := AddressMap Unit

namespace AddressSet

def insert (address : Address) (set : AddressSet) : AddressSet :=
  set.overlay (AddressMap.single address ())

def ofList (addresses : List Address) : AddressSet :=
  addresses.foldl (fun set address => set.insert address) .empty

def toList (set : AddressSet) : List Address := set.keys

def union (set other : AddressSet) : AddressSet := set.overlay other

end AddressSet

end TonTrace
