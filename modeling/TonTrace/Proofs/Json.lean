import Mathlib.Data.List.Nodup
import Mathlib.Data.String.Basic
import TonTrace.Json.Record

/-! JSON values up to the order of members.

A reader finds the fields of a record by name, so it makes no difference to it
whether the members stand as they were written or sorted. `Reorders` is what
the two have in common, and `Reads` is a value that is read back after it.
-/

set_option autoImplicit false

namespace TonTrace.Json

theorem lookup_cons (name key : String) (value : Json) (rest : List (String × Json)) :
    List.lookup name ((key, value) :: rest) = if name = key then some value else rest.lookup name := by
  by_cases here : name = key
  · simp [here]
  · simp [List.lookup_cons, beq_false_of_ne here, here]

theorem lookup_insertMember (name key : String) (value : Json) (members : List (String × Json)) :
    (insertMember key value members).lookup name =
      if name = key then some value else members.lookup name := by
  induction members with
  | nil => simp [insertMember, lookup_cons]
  | cons member rest ih =>
    obtain ⟨other, old⟩ := member
    simp only [insertMember]
    split
    · rw [lookup_cons]
    · split
      next same =>
        simp only [lookup_cons, same]
        split <;> rfl
      next apart =>
        simp only [lookup_cons, ih]
        by_cases here : name = other
        · simp [here, Ne.symm apart]
        · simp [here]

def Sorted (members : List (String × Json)) : Prop :=
  members.Pairwise fun earlier later => earlier.1 < later.1

theorem forall_names_insertMember {P : String → Prop} {key : String} {value : Json}
    {members : List (String × Json)} (here : P key) (others : ∀ m ∈ members, P m.1) :
    ∀ m ∈ insertMember key value members, P m.1 := by
  induction members with
  | nil => simpa [insertMember] using here
  | cons member rest ih =>
    rw [List.forall_mem_cons] at others
    simp only [insertMember]
    split
    · simpa [here] using others
    · split
      · simpa [here] using others.2
      · simpa [others.1] using ih others.2

theorem Sorted.insertMember {key : String} {value : Json} {members : List (String × Json)}
    (sorted : Sorted members) : Sorted (insertMember key value members) := by
  induction members with
  | nil => simp [Json.insertMember, Sorted]
  | cons member rest ih =>
    obtain ⟨above, others⟩ := List.pairwise_cons.mp sorted
    simp only [Json.insertMember]
    split
    next below =>
      refine List.pairwise_cons.mpr ⟨?_, sorted⟩
      rw [List.forall_mem_cons]
      exact ⟨below, fun m inside => below.trans (above m inside)⟩
    next notBelow =>
      split
      next same => exact List.pairwise_cons.mpr ⟨same ▸ above, others⟩
      next other =>
        have higher : member.1 < key := lt_of_le_of_ne (not_lt.mp notBelow) (Ne.symm other)
        exact List.pairwise_cons.mpr ⟨forall_names_insertMember higher above, ih others⟩

theorem Sorted.nodup {members : List (String × Json)} (sorted : Sorted members) :
    (members.map Prod.fst).Nodup :=
  List.pairwise_map.mpr (sorted.imp fun below => ne_of_lt below)

def insertMembers (start members : List (String × Json)) : List (String × Json) :=
  members.foldl (fun sorted member => insertMember member.1 member.2 sorted) start

theorem insertMembers_cons (start : List (String × Json)) (name : String) (value : Json)
    (rest : List (String × Json)) :
    insertMembers start ((name, value) :: rest) = insertMembers (insertMember name value start) rest :=
  rfl

theorem sortMembers_eq_insertMembers (members : List (String × Json)) :
    sortMembers members = insertMembers [] members := rfl

theorem Sorted.insertMembers {start : List (String × Json)} (sorted : Sorted start)
    (members : List (String × Json)) : Sorted (insertMembers start members) := by
  induction members generalizing start with
  | nil => exact sorted
  | cons member rest ih => exact ih sorted.insertMember

theorem lookup_eq_none_of_not_mem {name : String} {members : List (String × Json)}
    (absent : name ∉ members.map Prod.fst) : members.lookup name = none := by
  rw [List.lookup_eq_none_iff]
  intro member inside
  rw [bne_iff_ne]
  rintro rfl
  exact absent (List.mem_map_of_mem inside)

theorem lookup_insertMembers {members : List (String × Json)}
    (once : (members.map Prod.fst).Nodup) (start : List (String × Json)) (name : String) :
    (insertMembers start members).lookup name = (members.lookup name).or (start.lookup name) := by
  induction members generalizing start with
  | nil => rfl
  | cons member rest ih =>
    obtain ⟨key, value⟩ := member
    rw [List.map_cons, List.nodup_cons] at once
    rw [insertMembers_cons, ih once.2, lookup_insertMember]
    by_cases here : name = key
    · simp [here, lookup_eq_none_of_not_mem once.1]
    · simp [here, lookup_cons]

theorem nodup_sortMembers (members : List (String × Json)) :
    ((sortMembers members).map Prod.fst).Nodup := by
  rw [sortMembers_eq_insertMembers]
  exact (Sorted.insertMembers List.Pairwise.nil members).nodup

theorem lookup_sortMembers {members : List (String × Json)} (once : (members.map Prod.fst).Nodup)
    (name : String) : (sortMembers members).lookup name = members.lookup name := by
  rw [sortMembers_eq_insertMembers, lookup_insertMembers once, List.lookup_nil, Option.or_none]

theorem canonicalItems?_eq_mapM (items : List Json) :
    canonicalItems? items = items.mapM canonical? := by
  induction items with
  | nil => rfl
  | cons item rest ih => simp [canonicalItems?, ih]

theorem exists_canonicalMembers {members : List (String × Json)}
    (values : ∀ m ∈ members, (canonical? m.2).isSome = true) :
    ∃ others, canonicalMembers? members = some others ∧
      others.map Prod.fst = members.map Prod.fst ∧
      ∀ name, others.lookup name = (members.lookup name).bind canonical? := by
  induction members with
  | nil => exact ⟨[], rfl, rfl, fun _ => rfl⟩
  | cons member rest ih =>
    obtain ⟨name, value⟩ := member
    simp only [List.forall_mem_cons] at values
    obtain ⟨first, read⟩ := Option.isSome_iff_exists.mp values.1
    obtain ⟨others, readRest, names, lookups⟩ := ih values.2
    refine ⟨(name, first) :: others, by simp [canonicalMembers?, read, readRest], by simp [names], ?_⟩
    intro key
    by_cases here : key = name <;> simp [lookup_cons, here, read, lookups]

theorem namesOnce_of_nodup {members : List (String × Json)} (once : (members.map Prod.fst).Nodup)
    (names : List String) : namesOnce names members = true := by
  rw [namesOnce, List.all_eq_true]
  intro name _
  have single := List.nodup_iff_count_le_one.mp once name
  rw [List.count, List.countP_map, List.countP_eq_length_filter] at single
  simpa [Function.comp_def, beq_eq_decide] using single

/-- `f` may put the members of an object in another order, and changes nothing else. -/
structure Reorders (f : Json → Option Json) : Prop where
  null : f .null = some .null
  bool (value : Bool) : f (.bool value) = some (.bool value)
  integer (value : Int) : f (.integer value) = some (.integer value)
  string (value : String) : f (.string value) = some (.string value)
  array {items others : List Json} :
    items.mapM f = some others → f (.array items) = some (.array others)
  object {members : List (String × Json)} :
    (members.map Prod.fst).Nodup → (∀ m ∈ members, (f m.2).isSome = true) →
      ∃ others, f (.object members) = some (.object others) ∧ (others.map Prod.fst).Nodup ∧
        ∀ name, others.lookup name = (members.lookup name).bind f

theorem reorders_some : Reorders some where
  null := rfl
  bool _ := rfl
  integer _ := rfl
  string _ := rfl
  array {items others} same := by
    have kept : items.mapM some = some (items.map id) := List.mapM_pure (f := id)
    rw [kept, List.map_id, Option.some.injEq] at same
    rw [same]
  object once _ := ⟨_, rfl, once, fun _ => (Option.bind_fun_some _).symm⟩

theorem reorders_canonical : Reorders canonical? where
  null := rfl
  bool _ := rfl
  integer _ := rfl
  string _ := rfl
  array read := by simp [canonical?, canonicalItems?_eq_mapM, read]
  object once values := by
    obtain ⟨others, read, names, lookups⟩ := exists_canonicalMembers values
    have distinct : (others.map Prod.fst).Nodup := names ▸ once
    refine ⟨sortMembers others, by simp [canonical?, read], nodup_sortMembers others, ?_⟩
    intro name
    rw [lookup_sortMembers distinct, lookups]

section

variable {α : Type} {f : Json → Option Json} {read : Json → Option α} {json : Json} {x : α}

def Reads (f : Json → Option Json) (read : Json → Option α) (json : Json) (x : α) : Prop :=
  (f json).bind read = some x

theorem Reads.isSome (reads : Reads f read json x) : (f json).isSome = true := by
  obtain ⟨other, image, _⟩ := Option.bind_eq_some_iff.mp reads
  simp [image]

theorem Reads.required (reads : Reads f read json x) : required read (f json) = some x := reads

theorem Reads.defaulted (reads : Reads f read json x) (fallback : α) :
    defaulted fallback read (f json) = some x := by
  obtain ⟨other, image, result⟩ := Option.bind_eq_some_iff.mp reads
  rw [image, Json.defaulted, result]

theorem Reads.optional {value : Option α}
    (reads : Reads f (fun json => optional read (some json)) json value) :
    optional read (f json) = some value := by
  obtain ⟨other, image, result⟩ := Option.bind_eq_some_iff.mp reads
  rw [image, result]

namespace Reorders

variable (order : Reorders f)
include order

theorem reads_bool (value : Bool) : Reads f bool? (.bool value) value := by
  simp [Reads, order.bool, bool?]

theorem reads_string (value : String) : Reads f string? (.string value) value := by
  simp [Reads, order.string, string?]

theorem reads_ranged {lo hi : Int} (value : Ranged lo hi) : Reads f ranged? (ofRanged value) value := by
  simp [Reads, ofRanged, order.integer, ranged?]

theorem reads_list {write : α → Json} {xs : List α} (each : ∀ x ∈ xs, Reads f read (write x) x) :
    Reads f (list? read) (.array (xs.map write)) xs := by
  have items : ∃ others, (xs.map write).mapM f = some others ∧ others.mapM read = some xs := by
    induction xs with
    | nil => exact ⟨[], rfl, rfl⟩
    | cons x rest ih =>
      rw [List.forall_mem_cons] at each
      obtain ⟨other, image, result⟩ := Option.bind_eq_some_iff.mp each.1
      obtain ⟨others, images, results⟩ := ih each.2
      exact ⟨other :: others, by simp [image, images], by simp [result, results]⟩
  obtain ⟨others, images, results⟩ := items
  simp [Reads, order.array images, list?, results]

/-- An optional value, whose reader has to refuse `null`. -/
theorem reads_option {write : α → Json} (value : Option α) (noNull : read .null = none)
    (each : ∀ x ∈ value, Reads f read (write x) x) :
    Reads f (fun json => optional read (some json)) (ofOption write value) value := by
  cases value with
  | none => simp [Reads, ofOption, order.null, optional]
  | some x =>
    obtain ⟨other, image, result⟩ := Option.bind_eq_some_iff.mp (each x rfl)
    have present : other ≠ .null := by
      rintro rfl
      simp [noNull] at result
    rw [Reads, ofOption, image, Option.bind_some, optional, result, Option.map_some]
    rintro rfl
    exact present rfl

theorem reads_record {members : List (String × Json)} {names : List String}
    {build : Fields → Option α} (once : (members.map Prod.fst).Nodup)
    (values : ∀ m ∈ members, (f m.2).isSome = true)
    (built : build (fun name => (members.lookup name).bind f) = some x) :
    Reads f (fun json => (json.record? names).bind build) (.object members) x := by
  obtain ⟨others, image, distinct, lookups⟩ := order.object once values
  have fields : (fun name => others.lookup name) = fun name => (members.lookup name).bind f :=
    funext lookups
  have found : (Json.object others).record? names = some fun name => others.lookup name :=
    if_pos (namesOnce_of_nodup distinct names)
  rw [Reads, image, Option.bind_some, found, Option.bind_some, fields, built]

end Reorders

end

end TonTrace.Json
