import TonTrace.Analysis
import TonTrace.Proofs.Validation

/-! Batches: asking one after the other and asking all at once.

What comes of a request does not depend on when it starts. Asked in turn, the
results are therefore those of the single requests. Asked together, they arrive
in the order in which they finish, but each has a place of its own, so the order
of arrival is lost again.
-/

set_option autoImplicit false

namespace TonTrace

variable (config : Config) (source : TraceSource)

def Completion.place (places : List (Option (Except Error Analysis))) (arrived : Completion × Nat) :
    List (Option (Except Error Analysis)) :=
  places.set arrived.2 (some arrived.1.result)

/-- Results arrive in any order, as long as no two of them have the same place. -/
theorem Completion.foldl_place_of_perm {arrived others : List (Completion × Nat)}
    (same : arrived.Perm others)
    (apart : ∀ first ∈ arrived, ∀ second ∈ arrived, first.2 = second.2 → first = second)
    (places : List (Option (Except Error Analysis))) :
    arrived.foldl place places = others.foldl place places := by
  apply same.foldl_eq'
  intro first firstIn second secondIn places
  by_cases here : first.2 = second.2
  · rw [apart first firstIn second secondIn here]
  · exact List.set_comm _ _ here

namespace Config

/-- The time limit runs from the start of the request, so the result is the same at any time. -/
theorem result_request (start : Nat) (hash : Hash) :
    (config.request source start hash).result = config.analyzeTransaction source hash := by
  unfold analyzeTransaction request
  split
  · rfl
  · simp only
    split <;> rfl

theorem requestInTurn_eq_map (start : Nat) (hashes : List Hash) :
    config.requestInTurn source start hashes = hashes.map (config.analyzeTransaction source) := by
  induction hashes generalizing start with
  | nil => rfl
  | cons hash rest ih => simp only [requestInTurn, result_request, ih, List.map_cons]

def pending (start offset : Nat) (hashes : List Hash) : List (Completion × Nat) :=
  (hashes.zipIdx offset).map fun (hash, place) => (config.request source start hash, place)

theorem foldl_place_pending (start : Nat) (hashes : List Hash)
    (filled : List (Option (Except Error Analysis))) :
    (config.pending source start filled.length hashes).foldl Completion.place
        (filled ++ hashes.map fun _ => none) =
      filled ++ hashes.map fun hash => some (config.analyzeTransaction source hash) := by
  induction hashes generalizing filled with
  | nil => rfl
  | cons hash rest ih =>
    have further := ih (filled ++ [some (config.analyzeTransaction source hash)])
    rw [List.length_append, List.length_singleton] at further
    simpa [pending, Completion.place, result_request] using further

theorem pending_apart (start : Nat) (hashes : List Hash) :
    ∀ first ∈ config.pending source start 0 hashes, ∀ second ∈ config.pending source start 0 hashes,
      first.2 = second.2 → first = second := by
  intro first firstIn second secondIn here
  obtain ⟨⟨hash, place⟩, asked, rfl⟩ := List.mem_map.mp firstIn
  obtain ⟨⟨other, otherPlace⟩, alsoAsked, rfl⟩ := List.mem_map.mp secondIn
  have found : hashes[place]? = some hash := List.mem_zipIdx_iff_getElem?.mp asked
  have alsoFound : hashes[otherPlace]? = some other := List.mem_zipIdx_iff_getElem?.mp alsoAsked
  have samePlace : place = otherPlace := here
  rw [samePlace, alsoFound, Option.some.injEq] at found
  rw [samePlace, found]

theorem requestTogether_eq_foldl (start : Nat) (hashes : List Hash) :
    config.requestTogether source start hashes =
      (((config.pending source start 0 hashes).mergeSort
        fun first second => first.1.finished ≤ second.1.finished).foldl Completion.place
          (hashes.map fun _ => none)).filterMap id := rfl

theorem requestTogether_eq_map (start : Nat) (hashes : List Hash) :
    config.requestTogether source start hashes = hashes.map (config.analyzeTransaction source) := by
  have arrived := Completion.foldl_place_of_perm
    (List.mergeSort_perm (config.pending source start 0 hashes)
      fun first second => first.1.finished ≤ second.1.finished).symm
    (config.pending_apart source start hashes) (hashes.map fun _ => none)
  have inOrder := config.foldl_place_pending source start hashes []
  simp only [List.nil_append, List.length_nil] at inOrder
  rw [requestTogether_eq_foldl, ← arrived, inOrder]
  simp [List.filterMap_map]

def analyzed (hash : Hash) (trace : Trace) : Analysis where
  hash := hash
  transactions := trace.size
  report := .ofTrace (Catalog.rules config.groups) config.maxRewrites.val.toNat none trace

/-- The trace behind the hash arrives in time and is accepted, and this is what is told of it. -/
def Delivers (hash : Hash) (analysis : Analysis) : Prop :=
  ∃ reply trace, source hash = some reply ∧ reply.delay ≤ config.timeout.val.toNat ∧
    reply.outcome = .ok trace ∧ trace.validate config.maxDepth.val.toNat = .ok () ∧
      config.analyzed hash trace = analysis

theorem analysisOf_eq_ok_iff {hash : Hash} {trace : Trace} {analysis : Analysis} :
    config.analysisOf hash trace = .ok analysis ↔
      trace.validate config.maxDepth.val.toNat = .ok () ∧ config.analyzed hash trace = analysis := by
  simp only [analysisOf, analyze, bind_eq_ok_iff]
  constructor
  · rintro ⟨report, ⟨⟨⟩, valid, read⟩, told⟩
    cases read
    cases told
    exact ⟨valid, rfl⟩
  · rintro ⟨valid, rfl⟩
    exact ⟨_, ⟨(), valid, rfl⟩, rfl⟩

/-- A request fails exactly when its trace is not delivered: it is late or never comes, the source
reports an error, or validation refuses the trace. -/
theorem analyzeTransaction_eq_ok_iff {hash : Hash} {analysis : Analysis} :
    config.analyzeTransaction source hash = .ok analysis ↔ config.Delivers source hash analysis := by
  unfold analyzeTransaction request Delivers
  cases asked : source hash with
  | none => simp
  | some reply =>
    by_cases inTime : reply.delay ≤ config.timeout.val.toNat
    · cases answer : reply.outcome with
      | error fault => simp [inTime, answer, Except.bind]
      | ok trace => simp [inTime, answer, Except.bind, analysisOf_eq_ok_iff]
    · simp [inTime]

/-- Both ways of asking give the analyses of the single requests that succeed, in the order of the
hashes and as often as they are asked for. -/
theorem batches_agree (hashes : List Hash) :
    { config with parallel := true }.analyzeBatch source hashes =
        { config with parallel := false }.analyzeBatch source hashes ∧
      config.analyzeBatch source hashes =
        hashes.filterMap (fun hash => (config.analyzeTransaction source hash).toOption) ∧
      ∀ hash analysis, (config.analyzeTransaction source hash).toOption = some analysis ↔
        config.Delivers source hash analysis := by
  have alone (config : Config) : config.analyzeBatch source hashes =
      hashes.filterMap fun hash => (config.analyzeTransaction source hash).toOption := by
    unfold analyzeBatch
    rw [requestTogether_eq_map, requestInTurn_eq_map, ite_self, List.filterMap_map]
    rfl
  refine ⟨?_, alone config, ?_⟩
  · -- Nothing about a single request depends on how the batch asks.
    rw [alone, alone]
    rfl
  · intro hash analysis
    rw [← analyzeTransaction_eq_ok_iff]
    cases config.analyzeTransaction source hash <;> simp [Except.toOption]

end Config

end TonTrace
