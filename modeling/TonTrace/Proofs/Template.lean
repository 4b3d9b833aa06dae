import Mathlib.Data.List.Forall2
import TonTrace.Proofs.Ranged
import TonTrace.Report

/-! What a template asks of an action, field by field.

The comparison is written out for each kind of action. Here the fields of all
kinds stand in one table, and what is asked of a field depends on its type
alone. The comparison agrees with the table except for three fields that it
passes over, and it is a preorder all the same.
-/

set_option autoImplicit false

namespace TonTrace

namespace Detail

inductive Field where
  | account (value : Address)
  | tons (value : Nanotons)
  | jettons (value : JettonAmount)
  | flag (value : Bool)
  | text (value : String)
  | optionalAccount (value : Option Address)
  | optionalTons (value : Option Nanotons)
  | optionalText (value : Option String)
  | optionalJson (value : Option Json)
  | exchange (value : Dex)
  | pool (value : StakingPool)
  | interfaces (values : List Interface)
  | assets (values : List Asset)

/-- The fields of a kind of action by name. The two assets of a swap have two fields each. -/
def fields : Detail → List (String × Field)
  | .tonTransfer d => [
      ("sender", .account d.sender),
      ("recipient", .account d.recipient),
      ("amount", .tons d.amount),
      ("comment", .optionalText d.comment),
      ("encrypted_comment", .flag d.encryptedComment),
      ("refund", .flag d.refund)]
  | .jettonTransfer d => [
      ("sender", .optionalAccount d.sender),
      ("recipient", .optionalAccount d.recipient),
      ("senders_wallet", .account d.sendersWallet),
      ("recipients_wallet", .account d.recipientsWallet),
      ("jetton", .optionalAccount d.jetton),
      ("amount", .jettons d.amount),
      ("comment", .optionalText d.comment),
      ("encrypted_comment", .flag d.encryptedComment)]
  | .jettonBurn d => [
      ("sender", .account d.sender),
      ("senders_wallet", .account d.sendersWallet),
      ("jetton", .optionalAccount d.jetton),
      ("amount", .jettons d.amount)]
  | .nftTransfer d => [
      ("sender", .optionalAccount d.sender),
      ("recipient", .optionalAccount d.recipient),
      ("nft", .account d.nft),
      ("comment", .optionalText d.comment),
      ("encrypted_comment", .flag d.encryptedComment)]
  | .nftPurchase d => [
      ("seller", .account d.seller),
      ("buyer", .account d.buyer),
      ("nft", .account d.nft),
      ("sale_contract", .account d.saleContract),
      ("marketplace", .optionalAccount d.marketplace),
      ("price", .tons d.price)]
  | .swap d => [
      ("dex", .exchange d.dex),
      ("user", .account d.user),
      ("router", .account d.router),
      ("asset_in.jetton", .optionalAccount d.assetIn.jetton),
      ("asset_in.amount", .jettons d.assetIn.amount),
      ("asset_out.jetton", .optionalAccount d.assetOut.jetton),
      ("asset_out.amount", .jettons d.assetOut.amount)]
  | .liquidityDeposit d => [
      ("dex", .exchange d.dex),
      ("from", .account d.provider),
      ("pool", .account d.pool),
      ("tokens", .assets d.tokens)]
  | .deployment d => [
      ("address", .account d.address),
      ("interfaces", .interfaces d.interfaces)]
  | .contractCall d => [
      ("executor", .optionalAccount d.executor),
      ("contract", .account d.contract),
      ("ton_attached", .tons d.attached),
      ("operation", .text d.operation),
      ("payload", .optionalJson d.payload)]
  | .subscription d => [
      ("subscriber", .account d.subscriber),
      ("subscription", .account d.subscription),
      ("beneficiary", .account d.beneficiary),
      ("amount", .tons d.amount),
      ("initial", .flag d.initial)]
  | .unsubscription d => [
      ("subscriber", .account d.subscriber),
      ("subscription", .account d.subscription),
      ("beneficiary", .optionalAccount d.beneficiary)]
  | .stakeDeposit d => [
      ("staker", .account d.staker),
      ("pool", .account d.pool),
      ("amount", .tons d.amount),
      ("implementation", .pool d.implementation)]
  | .stakeWithdrawal d => [
      ("staker", .account d.staker),
      ("pool", .account d.pool),
      ("amount", .tons d.amount),
      ("implementation", .pool d.implementation)]
  | .withdrawalRequest d => [
      ("staker", .account d.staker),
      ("pool", .account d.pool),
      ("amount", .optionalTons d.amount),
      ("implementation", .pool d.implementation)]
  | .electionDeposit d => [
      ("staker", .account d.staker),
      ("elector", .account d.elector),
      ("amount", .tons d.amount)]
  | .electionRecovery d => [
      ("staker", .account d.staker),
      ("elector", .account d.elector),
      ("amount", .tons d.amount)]
  | .auctionBid d => [
      ("bidder", .account d.bidder),
      ("nft", .account d.nft),
      ("amount", .tons d.amount),
      ("outbid", .optionalAccount d.outbid)]
  | .domainRenewal d => [
      ("renewer", .account d.renewer),
      ("item", .account d.item)]
  | .gasRelay d => [
      ("relayer", .account d.relayer),
      ("target", .account d.target),
      ("amount", .tons d.amount)]
  | .invoicePayment d => [
      ("sender", .account d.sender),
      ("recipient", .account d.recipient),
      ("invoice_id", .text d.invoiceId),
      ("jetton", .optionalAccount d.jetton),
      ("amount", .jettons d.amount)]

/-- The fields that the comparison passes over. -/
def unread : Detail → List String
  | .jettonTransfer _ | .nftTransfer _ => ["encrypted_comment"]
  | .contractCall _ => ["payload"]
  | _ => []

def Asset.Meets (asked found : Asset) : Prop :=
  (asked.jetton = none ∨ asked.jetton = found.jetton) ∧
    (asked.amount = 0 ∨ asked.amount = found.amount)

namespace Field

def Unset : Field → Prop
  | .account value => value = .zero
  | .tons value => value = 0
  | .jettons value => value = 0
  | .flag value => value = false
  | .text value => value = ""
  | .optionalAccount value => value = none
  | .optionalTons value => value = none
  | .optionalText value => value = none
  | .optionalJson value => value = none
  | .exchange _ | .pool _ | .interfaces _ | .assets _ => False

/-- The second field is what the first one asks for: a list has something for each item asked for,
and any other field is equal to one that is set. -/
def Meets : Field → Field → Prop
  | .interfaces asked, .interfaces found => ∀ interface ∈ asked, interface ∈ found
  | .assets asked, .assets found => ∀ wanted ∈ asked, ∃ asset ∈ found, wanted.Meets asset
  | asked, found => asked.Unset ∨ asked = found

theorem meets_of_unset {asked : Field} (unset : asked.Unset) (found : Field) :
    asked.Meets found := by
  cases asked with
  | interfaces | assets => cases unset
  | _ => exact .inl unset

theorem meets_refl (field : Field) : field.Meets field := by
  cases field with
  | interfaces asked => exact fun _ member => member
  | assets asked => exact fun wanted member => ⟨wanted, member, .inr rfl, .inr rfl⟩
  | _ => exact .inr rfl

end Field

theorem Asset.Meets.trans {asked middle found : Asset} (first : asked.Meets middle)
    (second : middle.Meets found) : asked.Meets found := by
  obtain ⟨firstJetton, firstAmount⟩ := first
  obtain ⟨secondJetton, secondAmount⟩ := second
  constructor
  · rcases firstJetton with unset | same
    · exact .inl unset
    · rwa [same]
  · rcases firstAmount with unset | same
    · exact .inl unset
    · rwa [same]

/-- A field in the middle that stands for any value was asked by one that does, too. -/
theorem Field.Meets.trans {asked middle found : Field} (first : asked.Meets middle)
    (second : middle.Meets found) : asked.Meets found := by
  -- Only lists are met item by item; a field of another kind never meets one.
  cases asked with
  | interfaces asked =>
    cases middle with
    | interfaces middle =>
      cases found with
      | interfaces found => exact fun interface member => second interface (first interface member)
      | _ => simp [Meets, Unset] at second
    | _ => simp [Meets, Unset] at first
  | assets asked =>
    cases middle with
    | assets middle =>
      cases found with
      | assets found =>
        intro wanted member
        obtain ⟨between, inside, nearer⟩ := first wanted member
        obtain ⟨asset, present, further⟩ := second between inside
        exact ⟨asset, present, nearer.trans further⟩
      | _ => simp [Meets, Unset] at second
    | _ => simp [Meets, Unset] at first
  | _ =>
    rcases first with unset | rfl
    · exact .inl unset
    · exact second

end Detail

theorem allows_address {template actual : Address} :
    allows template actual = true ↔ template = .zero ∨ template = actual := by
  simp [allows, Address.isZero]

theorem allows_ranged {lo hi : Int} [SpansZero lo hi] {template actual : Ranged lo hi} :
    allows template actual = true ↔ template = 0 ∨ template = actual := by
  rw [← Ranged.val_inj]
  simp [allows]

theorem allows_flag {template actual : Bool} :
    allows template actual = true ↔ template = false ∨ template = actual := by
  cases template <;> simp [allows, eq_comm]

theorem allows_string {template actual : String} :
    allows template actual = true ↔ template = "" ∨ template = actual := by
  simp [allows]

theorem allows_option {α : Type} [DecidableEq α] {template actual : Option α} :
    allows template actual = true ↔ template = none ∨ template = actual := by
  simp [allows]

theorem allows_interfaces {template actual : List Interface} :
    allows template actual = true ↔ ∀ interface ∈ template, interface ∈ actual := by
  simp [allows]

theorem allows_asset {template actual : Detail.Asset} :
    allows template actual = true ↔ template.Meets actual := by
  simp only [allows, Bool.and_eq_true]
  exact Iff.and allows_option allows_ranged

theorem allows_assets {template actual : List Detail.Asset} :
    allows template actual = true ↔ ∀ wanted ∈ template, ∃ asset ∈ actual, wanted.Meets asset := by
  simp only [← allows_asset]
  simp [allows]

namespace Detail

/-- The field has the name of the one asked for, and meets it unless that name is passed over. -/
def Field.Compared (passedOver : List String) (asked found : String × Field) : Prop :=
  asked.1 = found.1 ∧ (asked.1 ∈ passedOver ∨ asked.2.Meets found.2)

theorem Field.Compared.refl (passedOver : List String) (field : String × Field) :
    Compared passedOver field field := ⟨rfl, .inr (meets_refl field.2)⟩

theorem Field.Compared.trans {passedOver : List String} {asked middle found : String × Field}
    (first : Compared passedOver asked middle) (second : Compared passedOver middle found) :
    Compared passedOver asked found := by
  obtain ⟨firstName, first⟩ := first
  obtain ⟨secondName, second⟩ := second
  refine ⟨firstName.trans secondName, ?_⟩
  rcases first with skipped | first
  · exact .inl skipped
  rcases second with skipped | second
  · exact .inl (firstName ▸ skipped)
  · exact .inr (first.trans second)

inductive SameKind : Detail → Detail → Prop where
  | tonTransfer (asked found : TonTransfer) : SameKind (.tonTransfer asked) (.tonTransfer found)
  | jettonTransfer (asked found : JettonTransfer) :
    SameKind (.jettonTransfer asked) (.jettonTransfer found)
  | jettonBurn (asked found : JettonBurn) : SameKind (.jettonBurn asked) (.jettonBurn found)
  | nftTransfer (asked found : NftTransfer) : SameKind (.nftTransfer asked) (.nftTransfer found)
  | nftPurchase (asked found : NftPurchase) : SameKind (.nftPurchase asked) (.nftPurchase found)
  | swap (asked found : Swap) : SameKind (.swap asked) (.swap found)
  | liquidityDeposit (asked found : LiquidityDeposit) :
    SameKind (.liquidityDeposit asked) (.liquidityDeposit found)
  | deployment (asked found : Deployment) : SameKind (.deployment asked) (.deployment found)
  | contractCall (asked found : ContractCall) : SameKind (.contractCall asked) (.contractCall found)
  | subscription (asked found : Subscription) : SameKind (.subscription asked) (.subscription found)
  | unsubscription (asked found : Unsubscription) :
    SameKind (.unsubscription asked) (.unsubscription found)
  | stakeDeposit (asked found : StakeDeposit) : SameKind (.stakeDeposit asked) (.stakeDeposit found)
  | stakeWithdrawal (asked found : StakeWithdrawal) :
    SameKind (.stakeWithdrawal asked) (.stakeWithdrawal found)
  | withdrawalRequest (asked found : WithdrawalRequest) :
    SameKind (.withdrawalRequest asked) (.withdrawalRequest found)
  | electionDeposit (asked found : ElectionDeposit) :
    SameKind (.electionDeposit asked) (.electionDeposit found)
  | electionRecovery (asked found : ElectionRecovery) :
    SameKind (.electionRecovery asked) (.electionRecovery found)
  | auctionBid (asked found : AuctionBid) : SameKind (.auctionBid asked) (.auctionBid found)
  | domainRenewal (asked found : DomainRenewal) :
    SameKind (.domainRenewal asked) (.domainRenewal found)
  | gasRelay (asked found : GasRelay) : SameKind (.gasRelay asked) (.gasRelay found)
  | invoicePayment (asked found : InvoicePayment) :
    SameKind (.invoicePayment asked) (.invoicePayment found)

theorem SameKind.of_typeName {asked found : Action} (same : asked.typeName = found.typeName) :
    asked.detail.SameKind found.detail := by
  obtain ⟨_, asked⟩ := asked
  obtain ⟨_, found⟩ := found
  cases asked <;> cases found <;> simp [Action.typeName] at same <;> constructor

theorem SameKind.of_fits {asked found : Detail} (fits : asked.fits found = true) :
    asked.SameKind found := by
  unfold Detail.fits at fits
  split at fits
  case h_21 => cases fits
  all_goals constructor

theorem SameKind.typeName_eq {asked found : Action} (same : asked.detail.SameKind found.detail) :
    asked.typeName = found.typeName := by
  obtain ⟨_, asked⟩ := asked
  obtain ⟨_, found⟩ := found
  cases same <;> rfl

theorem SameKind.unread_eq {asked found : Detail} (same : asked.SameKind found) :
    asked.unread = found.unread := by
  cases same <;> rfl

/-- The table leaves no field out. -/
theorem SameKind.eq_of_fields {asked found : Detail} (same : asked.SameKind found)
    (fields : asked.fields = found.fields) : asked = found := by
  cases same with
  | swap asked found =>
    obtain ⟨_, _, _, ⟨_, _⟩, ⟨_, _⟩⟩ := asked
    obtain ⟨_, _, _, ⟨_, _⟩, ⟨_, _⟩⟩ := found
    simp_all [Detail.fields]
  | _ asked found =>
    cases asked
    cases found
    simp_all [Detail.fields]

theorem SameKind.fits_iff {asked found : Detail} (same : asked.SameKind found) :
    asked.fits found = true ↔
      List.Forall₂ (Field.Compared asked.unread) asked.fields found.fields := by
  cases same <;>
    simp [fits, fields, unread, Field.Compared, Field.Meets, Field.Unset, Asset.Meets, and_assoc,
      allows_address, allows_ranged, allows_flag, allows_string, allows_option, allows_interfaces,
      allows_asset, allows_assets]

theorem Field.forall₂_compared_trans {passedOver : List String}
    {asked middle found : List (String × Field)}
    (first : List.Forall₂ (Compared passedOver) asked middle)
    (second : List.Forall₂ (Compared passedOver) middle found) :
    List.Forall₂ (Compared passedOver) asked found := by
  induction first generalizing found with
  | nil => exact second
  | cons head tail ih =>
    cases second with
    | cons other rest => exact .cons (head.trans other) (ih rest)

end Detail

namespace Action

open Detail

/-- The action has the outcome, the kind and the fields that the template asks for, fields of the
given names passed over. -/
def MatchesBut (passedOver : List String) (template action : Action) : Prop :=
  (template.success = true → action.success = true) ∧ template.typeName = action.typeName ∧
    List.Forall₂ (Field.Compared passedOver) template.detail.fields action.detail.fields

def Matches (template action : Action) : Prop := template.MatchesBut [] action

theorem fits_iff {template action : Action} :
    template.fits action = true ↔ template.MatchesBut template.detail.unread action := by
  have outcome : allows template.success action.success = true ↔
      (template.success = true → action.success = true) := by
    simp [allows, imp_iff_not_or]
  rw [fits, Bool.and_eq_true, outcome, MatchesBut]
  constructor
  · rintro ⟨success, fits⟩
    have same := SameKind.of_fits fits
    exact ⟨success, same.typeName_eq, same.fits_iff.mp fits⟩
  · rintro ⟨success, kind, fields⟩
    exact ⟨success, (SameKind.of_typeName kind).fits_iff.mpr fields⟩

theorem Matches.but {template action : Action} (all : template.Matches action)
    (passedOver : List String) : template.MatchesBut passedOver action := by
  obtain ⟨success, kind, fields⟩ := all
  refine ⟨success, kind, fields.imp ?_⟩
  rintro asked found ⟨name, skipped | meets⟩
  · cases skipped
  · exact ⟨name, .inr meets⟩

theorem MatchesBut.all {passedOver : List String} {template action : Action}
    (others : template.MatchesBut passedOver action)
    (unset : ∀ field ∈ template.detail.fields, field.1 ∈ passedOver → field.2.Unset) :
    template.Matches action := by
  obtain ⟨success, kind, fields⟩ := others
  refine ⟨success, kind, ((List.forall₂_and_left _ _).mpr ⟨unset, fields⟩).imp ?_⟩
  rintro asked found ⟨unset, name, skipped | meets⟩
  · exact ⟨name, .inr (Field.meets_of_unset (unset skipped) found.2)⟩
  · exact ⟨name, .inr meets⟩

/-- An action fits a template exactly when it has the outcome, the kind and all the fields that the
template asks for, the unread fields apart. Where the template leaves those unset, it is the whole
of what it asks for. The fields are all that the details of an action consist of. -/
theorem fits_exactly (template action : Action) :
    (template.fits action = true ↔ template.MatchesBut template.detail.unread action) ∧
      ((∀ field ∈ template.detail.fields, field.1 ∈ template.detail.unread → field.2.Unset) →
        (template.fits action = true ↔ template.Matches action)) ∧
      (template.typeName = action.typeName → template.detail.fields = action.detail.fields →
        template.detail = action.detail) := by
  refine ⟨fits_iff, ?_, fun kind => (SameKind.of_typeName kind).eq_of_fields⟩
  intro unset
  rw [fits_iff]
  exact ⟨fun others => others.all unset, fun all => all.but _⟩

/-- A transfer with a comment, which the template names and which happens to be encrypted. -/
theorem fits_exactly_commented :
    let template : Action := ⟨false, .jettonTransfer { comment := some "rent" }⟩
    let action : Action :=
      ⟨true, .jettonTransfer { comment := some "rent", encryptedComment := true }⟩
    (∀ field ∈ template.detail.fields, field.1 ∈ template.detail.unread → field.2.Unset) ∧
      template.Matches action := by
  intro template action
  have unset : ∀ field ∈ template.detail.fields, field.1 ∈ template.detail.unread →
      field.2.Unset := by
    simp [template, fields, unread, Field.Unset]
  exact ⟨unset, ((fits_exactly template action).2.1 unset).mp (by decide)⟩

/-- For each unread field a template that asks for it and an action that does not have it. -/
def overlooked : List (Action × Action) := [
  (⟨true, .jettonTransfer { encryptedComment := true }⟩, ⟨true, .jettonTransfer {}⟩),
  (⟨true, .nftTransfer { encryptedComment := true }⟩, ⟨true, .nftTransfer {}⟩),
  (⟨true, .contractCall { payload := some (.integer 1) }⟩, ⟨true, .contractCall {}⟩)]

theorem fits_overlooked :
    overlooked.Forall fun (template, action) =>
      template.fits action = true ∧ ¬template.Matches action := by
  refine ⟨⟨by decide, ?jetton⟩, ⟨by decide, ?item⟩, by decide, ?payload⟩
  all_goals
    simp [Matches, MatchesBut, typeName, fields, Field.Compared, Field.Meets, Field.Unset]

theorem fits_self (action : Action) : action.fits action = true :=
  fits_iff.mpr ⟨id, rfl, List.forall₂_same.mpr fun _ _ => Field.Compared.refl _ _⟩

theorem fits_trans {first second third : Action} (narrower : first.fits second = true)
    (narrowest : second.fits third = true) : first.fits third = true := by
  rw [fits_iff] at narrower narrowest ⊢
  obtain ⟨success, kind, fields⟩ := narrower
  obtain ⟨otherSuccess, otherKind, otherFields⟩ := narrowest
  rw [← (SameKind.of_typeName kind).unread_eq] at otherFields
  exact ⟨otherSuccess ∘ success, kind.trans otherKind,
    Field.forall₂_compared_trans fields otherFields⟩

/-- Every action fits itself, and what fits a template that fits another one fits that one, too. So
a list with an action like the narrower template has one like the wider template. -/
theorem fits_preorder :
    (∀ action : Action, action.fits action = true) ∧
      (∀ first second third : Action, first.fits second = true → second.fits third = true →
        first.fits third = true) ∧
      ∀ (report : Report) (wider narrower : Action), wider.fits narrower = true →
        report.containsLike narrower = true → report.containsLike wider = true := by
  refine ⟨fits_self, fun _ _ _ => fits_trans, ?_⟩
  intro report wider narrower fits contains
  obtain ⟨action, member, like⟩ := List.any_eq_true.mp contains
  exact List.any_eq_true.mpr ⟨action, member, fits_trans fits like⟩

/-- A template for deposits to an exchange, one that also asks for a token, and a deposit of it. -/
theorem fits_preorder_deposited :
    let wider : Action := ⟨false, .liquidityDeposit { dex := .dedust }⟩
    let narrower : Action := ⟨false, .liquidityDeposit { dex := .dedust, tokens := [{}] }⟩
    let deposit : Action :=
      ⟨true, .liquidityDeposit { dex := .dedust, tokens := [{ jetton := some .zero }] }⟩
    wider.fits narrower = true ∧ narrower.fits deposit = true ∧ wider.fits deposit = true ∧
      Report.containsLike ⟨[deposit], .empty⟩ wider = true := by
  intro wider narrower deposit
  have first : wider.fits narrower = true := by decide
  have second : narrower.fits deposit = true := by decide
  have listed : Report.containsLike ⟨[deposit], .empty⟩ narrower = true := by decide
  exact ⟨first, second, fits_preorder.2.1 wider narrower deposit first second,
    fits_preorder.2.2 ⟨[deposit], .empty⟩ wider narrower first listed⟩

end Action

end TonTrace
