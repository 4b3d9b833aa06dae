import TonTrace.Proofs.Explained
import TonTrace.Proofs.Steadiness

/-! A second run finds nothing to do, since a rule that has failed everywhere goes
on to fail. The exception is a part whose body cannot be read: the whole match
fails, even where the part is optional, and when a later rule has taken the node
of that part, the same match succeeds without it. -/

set_option autoImplicit false

namespace TonTrace.Catalog

open Pattern

variable {groups : PatternGroups} {limit : Nat} {trace : Trace}

/-- The rule for transfers is not steady, but where it applies the one for aborted transfers does. -/
theorem stuck_jettonTransfer {reading : Reading} (stuck : abortedJettonTransfer.Stuck reading) :
    jettonTransfer.Stuck reading := by
  rintro target inside ⟨found⟩
  obtain ⟨inner, built⟩ := found.exists_build_root
  obtain ⟨tx, read, built⟩ := bind_eq_ok_iff.mp built
  obtain ⟨body, decoded, _⟩ := bind_eq_ok_iff.mp built
  have admits : abortedJettonTransfer.pattern.Admits target := found.admits
  obtain ⟨output, alone⟩ : ∃ output, takeJettonTransfer {} target = .ok output :=
    exists_bind_eq_ok read (exists_bind_eq_ok decoded ⟨_, rfl⟩)
  exact stuck target inside (Rule.nonempty_match_of_root rfl admits alone)

theorem stuck_of_accepts {holds : Transaction → Prop}
    (below : (rewriteAll (rules groups) limit (.ofTrace trace)).2 < limit)
    (each : ∀ tx ∈ trace.preorder, holds tx) {rule : Rule} (member : rule ∈ rules groups)
    (parts : ∀ part ∈ nestedAll rule.pattern.parts, part.Accepts holds) :
    rule.Stuck (rewriteAll (rules groups) limit (.ofTrace trace)).1 := by
  have raw : (Reading.ofTrace trace).EachRaw holds := fun cluster inside tx raw =>
    each tx (Reading.eachRaw_ofTrace trace cluster inside tx raw)
  exact stuck_rewriteAll (recognises groups) (ordered groups) raw below rule member
    ⟨local_rules groups rule member, parts, firm_rules groups rule member⟩

theorem stuck_of_legible (below : (rewriteAll (rules groups) limit (.ofTrace trace)).2 < limit)
    (legible : ∀ tx ∈ trace.preorder, tx.Legible) :
    ∀ rule ∈ rules groups, rule.Stuck (rewriteAll (rules groups) limit (.ofTrace trace)).1 := by
  intro rule member
  rcases accepts_parts groups rule member with rfl | parts
  · have jettons := jettons_of_mem member
    have aborted : abortedJettonTransfer ∈ rules groups := by simp [rules, group, jettons]
    exact stuck_jettonTransfer (stuck_of_accepts below legible aborted (List.forall_mem_nil _))
  · exact stuck_of_accepts below legible member parts

theorem stuck_of_internal (below : (rewriteAll (rules groups) limit (.ofTrace trace)).2 < limit)
    (plain : groups.plain) (internal : ∀ tx ∈ trace.preorder, tx.external = false) :
    ∀ rule ∈ rules groups, rule.Stuck (rewriteAll (rules groups) limit (.ofTrace trace)).1 := by
  -- A raw transaction in the end would be one from outside, and the trace has none.
  have none : (rewriteAll (rules groups) limit (.ofTrace trace)).1.EachRaw fun _ => False := by
    intro cluster member tx raw
    have outside := external_of_raw plain below member raw
    have own := (reaches_rewriteAll (rules groups) limit _).eachRaw (recognises groups)
      (Reading.eachRaw_ofTrace trace) cluster member tx raw
    rw [internal tx own] at outside
    cases outside
  intro rule member
  rcases needsRaw groups rule member with rfl | needs
  -- An invoice is read from a jetton transfer alone, and has no parts that could refuse.
  · exact stuck_of_accepts below internal member (List.forall_mem_nil _)
  · exact Rule.stuck_of_needsRaw needs none

/-- A second run over what a first one left below its limit takes no step, if parts of patterns can
read all bodies that they look into. The same holds without that when plain rules are on and no
message comes from outside, for then nothing is left raw. -/
theorem rewriteAll_again (groups : PatternGroups) {limit : Nat} {trace : Trace}
    (below : (rewriteAll (rules groups) limit (.ofTrace trace)).2 < limit)
    (read : (∀ tx ∈ trace.preorder, tx.Legible) ∨
      groups.plain ∧ ∀ tx ∈ trace.preorder, tx.external = false) (again : Nat) :
    let run := rewriteAll (rules groups) limit (.ofTrace trace)
    rewriteAll (rules groups) again run.1 = (run.1, 0) := by
  refine rewriteAll_eq_of_stuck ?_ again
  rcases read with legible | ⟨plain, internal⟩
  · exact stuck_of_legible below legible
  · exact stuck_of_internal below plain internal

/-- An NFT transfer that a message from outside asks for, with what the notification of the new
owner carries. -/
def noticed (notice : Json) : Trace :=
  .node {
      hash := ⟨1⟩
      account := ⟨0, ⟨1⟩⟩
      interfaces := [.nftItem]
      success := true
      inMessage := some {
        external := true
        body := some {
          operation := Operation.nftTransfer
          value := .object [("new_owner", .string
            "0:0000000000000000000000000000000000000000000000000000000000000002")] } } } [
    .leaf {
      hash := ⟨2⟩
      account := ⟨0, ⟨2⟩⟩
      success := true
      inMessage := some {
        source := some ⟨0, ⟨1⟩⟩
        body := some { operation := Operation.nftOwnershipAssigned, value := notice } } }]

theorem rewriteAll_again_noticed :
    let run := rewriteAll (rules {}) 10 (.ofTrace (noticed (.object [("prev_owner", .string
      "0:0000000000000000000000000000000000000000000000000000000000000001")])))
    run.2 = 1 ∧ rewriteAll (rules {}) 10 run.1 = (run.1, 0) := by
  intro run
  have once : run.2 = 1 := by decide +kernel
  have below : run.2 < 10 := by omega
  refine ⟨once, rewriteAll_again {} below (.inl ?_) 10⟩
  have other : ∀ {α : Type} [Payload α] {tx : Transaction} {operation : String},
      tx.hasOperation operation = false → tx.Decodes α operation := by
    intro α _ tx operation none asked
    rw [none] at asked
    cases asked
  refine List.forall_mem_cons.mpr ⟨?_, List.forall_mem_singleton.mpr ?_⟩
  · exact ⟨other rfl, other rfl, other rfl, other rfl, other rfl, other rfl⟩
  · exact ⟨fun _ => ⟨_, rfl⟩, other rfl, other rfl, other rfl, other rfl, other rfl⟩

/-- Where the notification cannot be read, the first run reads it as a transfer of TON and leaves the
NFT transfer raw. Then nothing is left to refuse it, and a second run recognises it. -/
theorem rewriteAll_again_unread :
    (noticed (.object [])).validate 10 = .ok () ∧
      let run := rewriteAll (rules {}) 10 (.ofTrace (noticed (.object [])))
      run.2 = 1 ∧ (rewriteAll (rules {}) 10 run.1).2 = 1 := by
  refine ⟨rfl, ?_⟩
  decide +kernel

end TonTrace.Catalog
