import TonTrace.Proofs.Ranged
import TonTrace.Proofs.Tree
import TonTrace.Trace

/-! What validation accepts: no amount is negative, the amounts of the whole
trace add up within range, and every message comes from the parent. All that it
refuses, it refuses with a validation error. -/

set_option autoImplicit false

namespace TonTrace

theorem bind_eq_ok_iff {ε α β : Type} {first : Except ε α} {next : α → Except ε β}
    {result : β} : (first >>= next) = .ok result ↔ ∃ value, first = .ok value ∧ next value = .ok result := by
  cases first with
  | error fault => simp [bind, Except.bind]
  | ok value => simp [bind, Except.bind]

theorem exists_bind_eq_ok {ε α β : Type} {first : Except ε α} {next : α → Except ε β} {value : α}
    (read : first = .ok value) (further : ∃ result, next value = .ok result) :
    ∃ result, first >>= next = .ok result := by
  obtain ⟨result, built⟩ := further
  exact ⟨result, bind_eq_ok_iff.mpr ⟨value, read, built⟩⟩

def FailsAs {α : Type} (kind : ErrorKind) (result : Except Error α) : Prop :=
  ∀ fault, result = .error fault → fault.kind = kind

theorem FailsAs.bind {α β : Type} {kind : ErrorKind} {first : Except Error α}
    {next : α → Except Error β} (fails : FailsAs kind first)
    (further : ∀ value, FailsAs kind (next value)) : FailsAs kind (first >>= next) := by
  intro fault refused
  cases found : first with
  | error other =>
    rw [found] at refused
    cases refused
    exact fails fault found
  | ok value =>
    rw [found] at refused
    exact further value fault refused

namespace Fees

def exact (fees : Fees) : Int := fees.compute.val + fees.storage.val + fees.deposit.val

structure Nonneg (fees : Fees) : Prop where
  compute : 0 ≤ fees.compute.val
  storage : 0 ≤ fees.storage.val
  deposit : 0 ≤ fees.deposit.val

theorem checkedTotal?_eq_some_iff {fees : Fees} {total : Nanotons} :
    fees.checkedTotal? = some total ↔ fees.Nonneg ∧ total.val = fees.exact := by
  have high := total.le_hi
  constructor
  · intro accepted
    unfold checkedTotal? at accepted
    split at accepted
    · cases accepted
    · obtain ⟨sum, first, second⟩ := Option.bind_eq_some_iff.mp accepted
      rw [Ranged.add?_eq_some_iff] at first second
      rw [exact, second, first]
      exact ⟨⟨by omega, by omega, by omega⟩, rfl⟩
  · rintro ⟨⟨compute, storage, deposit⟩, same⟩
    unfold exact at same
    -- The last fee is not negative, so the sum of the first two is no larger than the total.
    obtain ⟨sum, first⟩ : ∃ sum : Nanotons, sum.val = fees.compute.val + fees.storage.val :=
      Ranged.fits_iff_exists.mp ⟨by omega, by omega⟩
    rw [checkedTotal?, if_neg (by omega), Ranged.add?_eq_some_iff.mpr first, Option.bind_some,
      Ranged.add?_eq_some_iff, same, first]

end Fees

namespace Transaction

structure Payable (tx : Transaction) : Prop where
  value : 0 ≤ tx.value.val
  fees : tx.fees.Nonneg

def volume (tx : Transaction) : Int := 2 * tx.value.val + tx.fees.exact

def SentBy (tx : Transaction) (account : Address) : Prop :=
  ∃ message, tx.inMessage = some message ∧ message.external = false ∧ message.source = some account

theorem SentBy.sender?_eq {tx : Transaction} {account : Address} (sent : tx.SentBy account) :
    tx.sender? = some account := by
  obtain ⟨message, found, _, source⟩ := sent
  rw [sender?, found, Option.bind_some, source]

theorem Payable.fees_nonneg {tx : Transaction} (payable : tx.Payable) : 0 ≤ tx.fees.exact := by
  obtain ⟨_, compute, storage, deposit⟩ := payable
  unfold Fees.exact
  omega

theorem Payable.volume_nonneg {tx : Transaction} (payable : tx.Payable) : 0 ≤ tx.volume := by
  have fees := payable.fees_nonneg
  have value := payable.value
  unfold volume
  omega

end Transaction

namespace Trace

/-- The volume starts at zero and never shrinks, so only the final sum has to be in range. -/
theorem addVolume_eq_ok_iff {volume total : Nanotons} {tx : Transaction} (nonneg : 0 ≤ volume.val) :
    addVolume volume tx = .ok total ↔ tx.Payable ∧ total.val = volume.val + tx.volume := by
  have high := total.le_hi
  constructor
  · intro accepted
    unfold addVolume at accepted
    split at accepted
    · cases accepted
    next fees found =>
      obtain ⟨owed, paid⟩ := Fees.checkedTotal?_eq_some_iff.mp found
      split at accepted
      · cases accepted
      · split at accepted
        · cases accepted
        next sum added =>
          cases accepted
          obtain ⟨twice, values, last⟩ := Option.bind_eq_some_iff.mp added
          obtain ⟨once, first, second⟩ := Option.bind_eq_some_iff.mp values
          rw [Ranged.add?_eq_some_iff] at first second last
          unfold Transaction.volume
          exact ⟨⟨by omega, owed⟩, by omega⟩
  · rintro ⟨payable, same⟩
    have value := payable.value
    have owed := payable.fees_nonneg
    unfold Transaction.volume at same
    -- Every sum on the way lies between the volume so far and the total.
    obtain ⟨fees, paid⟩ : ∃ fees : Nanotons, fees.val = tx.fees.exact :=
      Ranged.fits_iff_exists.mp ⟨by omega, by omega⟩
    obtain ⟨once, first⟩ : ∃ once : Nanotons, once.val = volume.val + tx.value.val :=
      Ranged.fits_iff_exists.mp ⟨by omega, by omega⟩
    obtain ⟨twice, second⟩ : ∃ twice : Nanotons, twice.val = once.val + tx.value.val :=
      Ranged.fits_iff_exists.mp ⟨by omega, by omega⟩
    have last : total.val = twice.val + fees.val := by omega
    rw [addVolume, Fees.checkedTotal?_eq_some_iff.mpr ⟨payable.fees, paid⟩]
    simp only [if_neg (show ¬tx.value.val < 0 by omega), Ranged.add?_eq_some_iff.mpr first,
      Ranged.add?_eq_some_iff.mpr second, Ranged.add?_eq_some_iff.mpr last, Option.bind_some]

theorem checkLink_eq_ok_iff {parent : Address} {child : Transaction} {done : Unit} :
    checkLink parent child = .ok done ↔ child.SentBy parent := by
  unfold checkLink Transaction.SentBy
  cases child.inMessage with
  | none => simp
  | some message =>
    simp only [Option.some.injEq, exists_eq_left']
    split
    case isTrue external => simp [external]
    case isFalse internal =>
      split
      case isTrue other => simp [other]
      case isFalse same => simpa [internal] using same

/-- The amounts that all transactions move and pay, values counted twice. -/
def volume (trace : Trace) : Int := (trace.preorder.map Transaction.volume).sum

/-- A trace whose root is at this depth, without its volume: it is not too deep, no amount is
negative and every child was sent by its parent. -/
structure Sound (limit depth : Nat) (trace : Trace) : Prop where
  depth_le : depth + trace.depth ≤ limit
  payable : ∀ tx ∈ trace.preorder, tx.Payable
  linked : ∀ node ∈ trace.subtrees, ∀ child ∈ node.children, child.value.SentBy node.value.account

@[simp] theorem volume_node (tx : Transaction) (children : List Trace) :
    volume (.node tx children) = tx.volume + (children.map volume).sum := by
  rw [volume, Tree.preorder_node, List.map_cons, List.sum_cons, List.map_flatMap]
  congr 1
  induction children with
  | nil => rfl
  | cons child rest ih => rw [List.flatMap_cons, List.sum_append, ih, List.map_cons, List.sum_cons, volume]

theorem Sound.volume_nonneg {limit depth : Nat} {trace : Trace} (sound : Sound limit depth trace) :
    0 ≤ trace.volume := by
  refine List.sum_nonneg fun volume member => ?_
  obtain ⟨tx, inside, rfl⟩ := List.mem_map.mp member
  exact (sound.payable tx inside).volume_nonneg

theorem sound_node_iff {limit depth : Nat} {tx : Transaction} {children : List Trace} :
    Sound limit depth (.node tx children) ↔ depth ≤ limit ∧ tx.Payable ∧
      ∀ child ∈ children, child.value.SentBy tx.account ∧ Sound limit (depth + 1) child := by
  have depths : Tree.depth (.node tx children) ≤ limit - depth ↔
      ∀ child ∈ children, child.depth + 1 ≤ limit - depth := Tree.depthAll_le_iff
  constructor
  · rintro ⟨near, payable, linked⟩
    rw [Tree.preorder_node, List.forall_mem_cons] at payable
    rw [Tree.subtrees_node, List.forall_mem_cons] at linked
    refine ⟨by omega, payable.1, fun child member => ⟨linked.1 child member, ?_, ?_, ?_⟩⟩
    · have below := depths.mp (by omega) child member
      omega
    · exact fun inner inside => payable.2 inner (List.mem_flatMap_of_mem member inside)
    · exact fun node inside => linked.2 node (List.mem_flatMap_of_mem member inside)
  · rintro ⟨near, payable, each⟩
    refine ⟨?_, ?_, ?_⟩
    · have below := depths.mpr fun child member => by
        have deeper := (each child member).2.depth_le
        omega
      omega
    · rw [Tree.preorder_node, List.forall_mem_cons]
      refine ⟨payable, fun inner inside => ?_⟩
      obtain ⟨child, member, inside⟩ := List.mem_flatMap.mp inside
      exact (each child member).2.payable inner inside
    · rw [Tree.subtrees_node, List.forall_mem_cons]
      refine ⟨fun child member => (each child member).1, fun node inside => ?_⟩
      obtain ⟨child, member, inside⟩ := List.mem_flatMap.mp inside
      exact (each child member).2.linked node inside

theorem volumes_nonneg {limit depth : Nat} {children : List Trace}
    (sound : ∀ child ∈ children, Sound limit depth child) : 0 ≤ (children.map volume).sum := by
  refine List.sum_nonneg fun volume member => ?_
  obtain ⟨child, inside, rfl⟩ := List.mem_map.mp member
  exact (sound child inside).volume_nonneg

mutual

/-- Validation goes through exactly on sound traces whose volume can still be added. -/
theorem validateFrom_eq_ok_iff (limit depth : Nat) :
    ∀ (trace : Trace) (volume total : Nanotons), 0 ≤ volume.val →
      (validateFrom limit depth volume trace = .ok total ↔
        Sound limit depth trace ∧ total.val = volume.val + trace.volume)
  | .node tx children, volume, total, nonneg => by
    have high := total.le_hi
    rw [sound_node_iff, volume_node, validateFrom]
    split
    case isTrue deep => simp [show ¬depth ≤ limit by omega]
    case isFalse near =>
      rw [bind_eq_ok_iff]
      constructor
      · rintro ⟨sum, added, below⟩
        obtain ⟨payable, same⟩ := (addVolume_eq_ok_iff nonneg).mp added
        have grown := payable.volume_nonneg
        obtain ⟨each, whole⟩ :=
          (validateAll_eq_ok_iff limit (depth + 1) tx.account children sum total (by omega)).mp below
        exact ⟨⟨by omega, payable, each⟩, by omega⟩
      · rintro ⟨⟨_, payable, each⟩, whole⟩
        have grown := payable.volume_nonneg
        -- What the children add is not negative, so the volume already fits before them.
        have below := volumes_nonneg fun child member => (each child member).2
        obtain ⟨sum, same⟩ : ∃ sum : Nanotons, sum.val = volume.val + tx.volume :=
          Ranged.fits_iff_exists.mp ⟨by omega, by omega⟩
        exact ⟨sum, (addVolume_eq_ok_iff nonneg).mpr ⟨payable, same⟩,
          (validateAll_eq_ok_iff limit (depth + 1) tx.account children sum total (by omega)).mpr
            ⟨each, by omega⟩⟩

theorem validateAll_eq_ok_iff (limit depth : Nat) (parent : Address) :
    ∀ (children : List Trace) (volume total : Nanotons), 0 ≤ volume.val →
      (validateAll limit depth parent volume children = .ok total ↔
        (∀ child ∈ children, child.value.SentBy parent ∧ Sound limit depth child) ∧
          total.val = volume.val + (children.map Trace.volume).sum)
  | [], volume, total, _ => by
    rw [validateAll, Except.ok.injEq, eq_comm, ← Ranged.val_inj]
    simp
  | child :: rest, volume, total, nonneg => by
    have high := total.le_hi
    rw [validateAll, bind_eq_ok_iff, List.forall_mem_cons, List.map_cons, List.sum_cons]
    constructor
    · rintro ⟨_, link, more⟩
      obtain ⟨sum, first, others⟩ := bind_eq_ok_iff.mp more
      obtain ⟨sound, same⟩ := (validateFrom_eq_ok_iff limit depth child volume sum nonneg).mp first
      have grown := sound.volume_nonneg
      obtain ⟨each, whole⟩ :=
        (validateAll_eq_ok_iff limit depth parent rest sum total (by omega)).mp others
      exact ⟨⟨⟨checkLink_eq_ok_iff.mp link, sound⟩, each⟩, by omega⟩
    · rintro ⟨⟨⟨link, sound⟩, each⟩, whole⟩
      have grown := sound.volume_nonneg
      have below := volumes_nonneg fun child member => (each child member).2
      -- The sum so far is in range because the whole one is, and no later volume is negative.
      obtain ⟨sum, same⟩ : ∃ sum : Nanotons, sum.val = volume.val + child.volume :=
        Ranged.fits_iff_exists.mp ⟨by omega, by omega⟩
      exact ⟨(), checkLink_eq_ok_iff.mpr link, bind_eq_ok_iff.mpr ⟨sum,
        (validateFrom_eq_ok_iff limit depth child volume sum nonneg).mpr ⟨sound, same⟩,
        (validateAll_eq_ok_iff limit depth parent rest sum total (by omega)).mpr ⟨each, by omega⟩⟩⟩

end

theorem validate_eq_ok_iff {limit : Nat} {trace : Trace} :
    trace.validate limit = .ok () ↔ Sound limit 0 trace ∧ trace.volume ≤ Nanotons.bound := by
  have exact := validateFrom_eq_ok_iff limit 0 trace 0
  simp only [Ranged.val_zero, Int.zero_add] at exact
  unfold validate
  constructor
  · intro valid
    cases checked : validateFrom limit 0 0 trace with
    | error fault => simp [checked, Except.map] at valid
    | ok total =>
      obtain ⟨sound, whole⟩ := (exact total (Int.le_refl 0)).mp checked
      have high := total.le_hi
      exact ⟨sound, by simp only [Nanotons.bound]; omega⟩
  · rintro ⟨sound, small⟩
    have grown := sound.volume_nonneg
    obtain ⟨total, whole⟩ : ∃ total : Nanotons, total.val = trace.volume :=
      Ranged.fits_iff_exists.mp ⟨by omega, small⟩
    rw [(exact total (Int.le_refl 0)).mpr ⟨sound, whole⟩]
    rfl

theorem sound_of_validate {limit : Nat} {trace : Trace} (valid : trace.validate limit = .ok ()) :
    Sound limit 0 trace ∧ trace.volume ≤ Nanotons.bound := validate_eq_ok_iff.mp valid

/-! ### What a refusal says -/

theorem failsAs_addVolume (volume : Nanotons) (tx : Transaction) :
    FailsAs .validation (addVolume volume tx) := by
  intro fault refused
  unfold addVolume at refused
  split at refused
  · cases refused; rfl
  · split at refused
    · cases refused; rfl
    · split at refused
      · cases refused; rfl
      · cases refused

theorem failsAs_checkLink (parent : Address) (child : Transaction) :
    FailsAs .validation (checkLink parent child) := by
  intro fault refused
  unfold checkLink at refused
  split at refused
  · cases refused; rfl
  · split at refused
    · cases refused; rfl
    · split at refused
      · cases refused; rfl
      · cases refused

mutual

theorem failsAs_validateFrom (limit depth : Nat) : ∀ (trace : Trace) (volume : Nanotons),
    FailsAs .validation (validateFrom limit depth volume trace)
  | .node tx children, volume => by
    rw [validateFrom]
    split
    case isTrue =>
      intro fault refused
      cases refused
      rfl
    case isFalse =>
      exact (failsAs_addVolume volume tx).bind fun sum =>
        failsAs_validateAll limit (depth + 1) tx.account children sum

theorem failsAs_validateAll (limit depth : Nat) (parent : Address) :
    ∀ (children : List Trace) (volume : Nanotons),
      FailsAs .validation (validateAll limit depth parent volume children)
  | [], _ => fun fault refused => by cases refused
  | child :: rest, volume => by
    rw [validateAll]
    refine (failsAs_checkLink parent child.value).bind fun _ => ?_
    exact (failsAs_validateFrom limit depth child volume).bind fun sum =>
      failsAs_validateAll limit depth parent rest sum

end

/-- Validation accepts a trace exactly when it is no deeper than the limit, no value and no fee is
negative, all values counted twice and all fees add up within range, and every transaction but the
first was set off by an internal message from its parent's account. What it refuses, it refuses
with a validation error. -/
theorem accepted_exactly (limit : Nat) (trace : Trace) :
    (trace.validate limit = .ok () ↔
      trace.depth ≤ limit ∧ (∀ tx ∈ trace.preorder, tx.Payable) ∧
      (trace.preorder.map fun tx => 2 * tx.value.val + tx.fees.exact).sum ≤ (Nanotons.bound : Int) ∧
      ∀ node ∈ trace.subtrees, ∀ child ∈ node.children,
        child.value.SentBy node.value.account) ∧
    ∀ fault, trace.validate limit = .error fault → fault.kind = .validation := by
  refine ⟨validate_eq_ok_iff.trans ⟨?_, ?_⟩, ?_⟩
  · rintro ⟨⟨near, payable, linked⟩, small⟩
    exact ⟨by omega, payable, small, linked⟩
  · rintro ⟨near, payable, small, linked⟩
    exact ⟨⟨by omega, payable, linked⟩, small⟩
  · intro fault refused
    unfold validate at refused
    cases checked : validateFrom limit 0 0 trace with
    | error first =>
      rw [checked] at refused
      cases refused
      exact failsAs_validateFrom limit 0 trace 0 fault checked
    | ok total => simp [checked, Except.map] at refused

end Trace

end TonTrace
