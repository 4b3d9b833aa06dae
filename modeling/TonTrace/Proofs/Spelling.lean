import Mathlib.Data.List.TakeWhile
import TonTrace.Error
import TonTrace.Flow.Codec
import TonTrace.Proofs.AddressMap
import TonTrace.Proofs.Numeral

/-! The spellings of an account.

A text is read as an account exactly when it is a workchain and a hash with a
colon between them. An account has many spellings, which differ in the sign
and the leading zeros of the workchain and in the letter case of the hash, and
one canonical spelling, which is how it is written.
-/

set_option autoImplicit false

namespace TonTrace

/-- A written form of the account: the workchain, a colon and the 64 digits of the hash. -/
structure Address.Spelling (a : Address) where
  workchain : Decimal.Numeral
  value_workchain : workchain.value = a.workchain.val
  hash : List Char
  length_hash : hash.length = 64
  isDigit_of_mem_hash : ∀ c ∈ hash, Hex.isDigit c = true
  value_hash : Hex.value hash = a.hash.bits.toNat

namespace Address.Spelling

variable {a : Address}

def chars (spelling : Spelling a) : List Char := spelling.workchain.chars ++ ':' :: spelling.hash

def text (spelling : Spelling a) : String := String.ofList spelling.chars

def canonical (spelling : Spelling a) : String :=
  String.ofList (spelling.workchain.canonical ++ ':' :: spelling.hash.map Char.toLower)

theorem canonical_eq_text (spelling : Spelling a) : spelling.canonical = a.text := by
  have workchain : Decimal.chars a.workchain.val = spelling.workchain.canonical := by
    rw [← spelling.value_workchain, Decimal.chars_value]
  have hash : a.hash.digits = spelling.hash.map Char.toLower := by
    rw [Hash.digits, ← spelling.value_hash, ← spelling.length_hash,
      Hex.fixed_value spelling.isDigit_of_mem_hash]
  rw [canonical, Address.text, Address.chars, workchain, hash]

end Address.Spelling

theorem Hash.value_lt {cs : List Char} (long : cs.length = 64)
    (digits : ∀ c ∈ cs, Hex.isDigit c = true) : Hex.value cs < 2 ^ 256 := by
  have bound := Hex.value_lt digits
  rwa [long, show (16 : ℕ) ^ 64 = 2 ^ 256 from rfl] at bound

theorem Hash.ofDigits?_eq_some_iff {cs : List Char} {hash : Hash} :
    ofDigits? cs = some hash ↔
      cs.length = 64 ∧ (∀ c ∈ cs, Hex.isDigit c = true) ∧ Hex.value cs = hash.bits.toNat := by
  obtain ⟨bits⟩ := hash
  constructor
  · intro read
    obtain ⟨long, read⟩ := Option.ite_none_right_eq_some.mp read
    obtain ⟨n, number, same⟩ := Option.map_eq_some_iff.mp read
    obtain ⟨digits, rfl⟩ := Hex.number?_eq_some_iff.mp number
    obtain rfl := (Hash.mk.inj same).symm
    exact ⟨long, digits, by rw [BitVec.toNat_ofNat, Nat.mod_eq_of_lt (value_lt long digits)]⟩
  · rintro ⟨long, digits, number⟩
    rw [ofDigits?, if_pos long, Hex.number?_eq_some_iff.mpr ⟨digits, number⟩]
    simp

namespace Address

theorem exists_spelling_iff {workchain : Decimal.Numeral} {hash : List Char} :
    (∃ a, ∃ spelling : Spelling a, spelling.workchain = workchain ∧ spelling.hash = hash) ↔
      (-0x80000000 ≤ workchain.value ∧ workchain.value ≤ 0x7fffffff) ∧
        hash.length = 64 ∧ ∀ c ∈ hash, Hex.isDigit c = true := by
  constructor
  · rintro ⟨a, spelling, rfl, rfl⟩
    rw [spelling.value_workchain]
    exact ⟨⟨a.workchain.lo_le, a.workchain.le_hi⟩, spelling.length_hash,
      spelling.isDigit_of_mem_hash⟩
  · rintro ⟨⟨low, high⟩, long, digits⟩
    have bits : Hex.value hash = (BitVec.ofNat 256 (Hex.value hash)).toNat := by
      rw [BitVec.toNat_ofNat, Nat.mod_eq_of_lt (Hash.value_lt long digits)]
    let a : Address := ⟨⟨workchain.value, low, high⟩, ⟨.ofNat 256 (Hex.value hash)⟩⟩
    exact ⟨a, ⟨workchain, rfl, hash, long, digits, bits⟩, rfl, rfl⟩

theorem readHash_eq_ok_iff {cs : List Char} {hash : Hash} :
    readHash cs = .ok hash ↔
      cs.length = 64 ∧ (∀ c ∈ cs, Hex.isDigit c = true) ∧ Hex.value cs = hash.bits.toNat := by
  rw [← Hash.ofDigits?_eq_some_iff]
  constructor
  · intro read
    unfold readHash at read
    split at read
    · cases read
    split at read
    · cases read
    next found => rw [found, Except.ok.inj read]
  · intro read
    obtain ⟨long, digits, _⟩ := Hash.ofDigits?_eq_some_iff.mp read
    obtain ⟨bytes, pairs⟩ := Option.isSome_iff_exists.mp
      (Hex.isSome_bytes? (by rw [long]) digits)
    rw [readHash, pairs, read]

theorem ofChars_of_not_mem {cs : List Char} (noColon : ':' ∉ cs) :
    ofChars cs = .error .noWorkchain := by
  have nothing : cs.dropWhile (· != ':') = [] := by
    rw [List.dropWhile_eq_nil_iff]
    intro c member
    exact bne_iff_ne.mpr fun colon => noColon (colon ▸ member)
  rw [ofChars, nothing]

theorem ofChars_eq_ok_iff {cs : List Char} {a : Address} :
    ofChars cs = .ok a ↔ ∃ spelling : Spelling a, spelling.chars = cs := by
  constructor
  · intro read
    -- Only the first colon counts: what stands before it has none.
    by_cases colon : ':' ∈ cs
    · obtain ⟨front, back, rfl, noColon⟩ := List.eq_append_cons_of_mem colon
      rw [ofChars_append noColon] at read
      split at read
      · cases read
      next workchain number =>
        obtain ⟨n, signed, inRange⟩ := Option.bind_eq_some_iff.mp number
        obtain ⟨numeral, rfl, value⟩ := Decimal.signed?_eq_some_iff.mp signed
        cases hash : readHash back with
        | error => rw [hash] at read; cases read
        | ok hash =>
          rw [hash] at read
          cases read
          obtain ⟨long, digits, number⟩ := readHash_eq_ok_iff.mp hash
          have same : numeral.value = workchain.val :=
            value.trans (Ranged.ofInt?_eq_some_iff.mp inRange).symm
          exact ⟨⟨numeral, same, back, long, digits, number⟩, rfl⟩
    · rw [ofChars_of_not_mem colon] at read
      cases read
  · rintro ⟨spelling, rfl⟩
    have noColon : ':' ∉ spelling.workchain.chars := fun member =>
      Decimal.Numeral.ne_colon_of_mem_chars member rfl
    have workchain : Decimal.signed? spelling.workchain.chars = some a.workchain.val :=
      Decimal.signed?_eq_some_iff.mpr ⟨_, rfl, spelling.value_workchain⟩
    have hash : readHash spelling.hash = .ok a.hash := readHash_eq_ok_iff.mpr
      ⟨spelling.length_hash, spelling.isDigit_of_mem_hash, spelling.value_hash⟩
    rw [Spelling.chars, ofChars_append noColon, workchain, Option.bind_some, Ranged.ofInt?_val,
      hash]
    rfl

theorem parse_eq_ok_iff {text : String} {a : Address} :
    parse text = .ok a ↔ ∃ spelling : Spelling a, spelling.text = text := by
  rw [parse, ofChars_eq_ok_iff]
  constructor
  · rintro ⟨spelling, same⟩
    exact ⟨spelling, by rw [Spelling.text, same, String.ofList_toList]⟩
  · rintro ⟨spelling, rfl⟩
    exact ⟨spelling, String.toList_ofList.symm⟩

theorem text_injective : Function.Injective text := by
  intro a b same
  have read := parse_text a
  rw [same, parse_text] at read
  exact (Except.ok.inj read).symm

theorem nodup_map_text {α : Type} (map : AddressMap α) :
    (map.entries.map fun entry => entry.1.text).Nodup := by
  have distinct := map.nodup_keys.map text_injective
  rwa [AddressMap.keys, List.map_map] at distinct

/-- An account is read back from its text. A text is read as an account exactly when it is a
spelling of it, and any other text is an error of decoding. Every numeral in the range of workchains
makes a spelling with any 64 digits. Two spellings are of the same account exactly when they have
the same canonical form. Accounts are told apart by their texts, so a map is written with a name of
its own for each. -/
theorem spellings_exact :
    (∀ a : Address, parse a.text = .ok a) ∧
      (∀ (text : String) (a : Address),
        parse text = .ok a ↔ ∃ spelling : Spelling a, spelling.text = text) ∧
      (∀ text : String, (∀ (a : Address) (spelling : Spelling a), spelling.text ≠ text) ↔
        ∃ fault, parse text = .error fault ∧ (Error.badAddress fault text).kind = .decode) ∧
      (∀ (workchain : Decimal.Numeral) (hash : List Char),
        (∃ a, ∃ spelling : Spelling a, spelling.workchain = workchain ∧ spelling.hash = hash) ↔
          (-0x80000000 ≤ workchain.value ∧ workchain.value ≤ 0x7fffffff) ∧
            hash.length = 64 ∧ ∀ c ∈ hash, Hex.isDigit c = true) ∧
      (∀ (a b : Address) (first : Spelling a) (second : Spelling b),
        a = b ↔ first.canonical = second.canonical) ∧
      Function.Injective Address.text ∧
      ∀ (α : Type) (write : α → Json) (map : AddressMap α), ∃ members,
        map.toJson write = .object members ∧ (members.map Prod.fst).Nodup := by
  refine ⟨parse_text, fun _ _ => parse_eq_ok_iff, ?refused, fun _ _ => exists_spelling_iff,
    ?canonical, text_injective, ?keys⟩
  case refused =>
    intro text
    cases read : parse text with
    | error fault =>
      refine iff_of_true ?_ ⟨fault, rfl, rfl⟩
      intro a spelling same
      rw [parse_eq_ok_iff.mpr ⟨spelling, same⟩] at read
      cases read
    | ok a =>
      obtain ⟨spelling, same⟩ := parse_eq_ok_iff.mp read
      refine iff_of_false (fun others => others a spelling same) ?_
      rintro ⟨fault, failed, _⟩
      cases failed
  case canonical =>
    intro a b first second
    rw [first.canonical_eq_text, second.canonical_eq_text]
    exact text_injective.eq_iff.symm
  case keys =>
    intro α write map
    refine ⟨_, rfl, ?_⟩
    rw [List.map_map]
    exact nodup_map_text map

end Address

end TonTrace
