import TenantVault.Proofs.Robustness
import TenantVault.Proofs.Tokens

/-! # Keys that are unwrapped

A secret is given back by exactly those strings that begin with a map which states it where a key of its type has it.
The type and the labels are compared by value, so a map may spell them as any number, but it cannot be of two types.
Every other string is refused as malformed, except for a type that cannot be compared or is too long to be shown.
Only that a wrapped secret comes back depends on the decoder.
-/

namespace TenantVault

/-! ## Numbers that are compared -/

namespace Decimal

theorem strip_spec (p : Nat) {n : Nat} (h : n ≠ 0) : p ^ (strip p n).1 * (strip p n).2 = n := by
  fun_induction strip p n with
  | case1 n hDivides count rest hStrip ih =>
    obtain ⟨hBase, hPositive, hMod⟩ := hDivides
    have hDvd : p ∣ n := Nat.dvd_of_mod_eq_zero hMod
    have hQuotient : n / p ≠ 0 := Nat.div_ne_zero_iff.mpr ⟨by omega, Nat.le_of_dvd hPositive hDvd⟩
    have hRest := ih hQuotient
    rw [hStrip] at hRest
    rw [Nat.pow_succ, Nat.mul_assoc, Nat.mul_left_comm, hRest, Nat.mul_div_cancel' hDvd]
  | case2 n hDivides => simp

namespace Exact

/-- The number that a normal form without a denominator stands for. -/
def integer (e : Exact) : Int :=
  let size : Nat := 2 ^ e.twos.toNat * (5 ^ e.fives.toNat * e.top)
  if e.negative then -(size : Int) else size

theorem integer_ofInt (n : Int) : (ofInt n).integer = n := by
  unfold ofInt normal
  split
  · next hZero =>
    rw [Int.natAbs_eq_zero.mp hZero]
    rfl
  · next hNonzero =>
    have hOne (p : Nat) (hPrime : 2 ≤ p) : strip p 1 = (0, 1) := by
      rw [strip, dif_neg]
      rintro ⟨-, -, hMod⟩
      rw [Nat.mod_eq_of_lt (by omega)] at hMod
      cases hMod
    have hTwos := strip_spec 2 hNonzero
    have hRest : (strip 2 n.natAbs).2 ≠ 0 := by
      intro hZero
      rw [hZero, Nat.mul_zero] at hTwos
      exact hNonzero hTwos.symm
    have hFives := strip_spec 5 hRest
    simp only [Nat.gcd_one_right, Nat.div_one, Nat.reduceLeDiff, hOne, integer, Int.zero_add, Int.add_zero,
      Int.natCast_zero, Int.sub_zero, Int.toNat_natCast, hFives, hTwos, decide_eq_true_eq]
    omega

theorem ofInt_inj {m n : Int} (h : ofInt m = ofInt n) : m = n := by
  rw [← integer_ofInt m, h, integer_ofInt]

end Exact

end Decimal

namespace Cbor.Value

variable {v : Value} {m n : Int}

/-- What equals an integer is a simple value with its number, or has its value. -/
theorem cases_of_isInt (h : v.isInt n = true) :
    (∃ code : Nat, v = .simple code ∧ (code : Int) = n) ∨ v.exactValue? = some (.ofInt n) := by
  unfold isInt at h
  cases v <;> simp_all [same, sameNumber, integer?, exactValue?]

theorem isInt_inj (h : v.isInt m = true) (h' : v.isInt n = true) : m = n := by
  rcases cases_of_isInt h with ⟨code, rfl, rfl⟩ | hValue
  · rcases cases_of_isInt h' with ⟨code', hSame, rfl⟩ | hValue'
    · rw [simple.inj hSame]
    · cases hValue'
  · rcases cases_of_isInt h' with ⟨code', rfl, -⟩ | hValue'
    · cases hValue
    · rw [hValue] at hValue'
      exact Decimal.Exact.ofInt_inj (Option.some.inj hValue')

end Cbor.Value

namespace Cose.SecretKey

variable {read : Cbor.Decoder} {bs rest secret : Bytes} {entries : Cbor.Entries} {type : Cbor.Value} {label : Int}

/-! ## Where a secret is -/

theorem secretLabel?_eq_some_iff : secretLabel? type = some label ↔
    (type.isInt 4 = true ∧ label = -1) ∨ ((type.isInt 1 = true ∨ type.isInt 2 = true) ∧ label = -4) := by
  have hApart (n : Int) (hOther : 4 ≠ n) (hFour : type.isInt 4 = true) : type.isInt n = false := by
    rw [← Bool.not_eq_true]
    exact fun hSame => hOther (Cbor.Value.isInt_inj hFour hSame)
  unfold secretLabel? symmetric octetKeyPair ellipticCurve symmetricLabel privateLabel
  by_cases hFour : type.isInt 4 = true
  · have hOne := hApart 1 (by decide) hFour
    have hTwo := hApart 2 (by decide) hFour
    simp [hFour, hOne, hTwo, eq_comm (a := label)]
  · simp [hFour, eq_comm (a := label)]

theorem typeOf_of_lookup (h : Cbor.Value.lookup (.int 1) entries = some type) : typeOf entries = type := by
  rw [typeOf, typeLabel, h, Option.getD_some]

/-- A map states a secret under the label that belongs to its type. -/
def States (entries : Cbor.Entries) (secret : Bytes) : Prop :=
  ∃ type, Cbor.Value.lookup (.int 1) entries = some type ∧
    ((type.isInt 4 = true ∧ Cbor.Value.lookup (.int (-1)) entries = some (.bytes secret)) ∨
      ((type.isInt 1 = true ∨ type.isInt 2 = true) ∧
        Cbor.Value.lookup (.int (-4)) entries = some (.bytes secret)))

theorem states_iff : States entries secret ↔
    ∃ label, secretLabel? (typeOf entries) = some label ∧
      Cbor.Value.lookup (.int label) entries = some (.bytes secret) := by
  simp only [secretLabel?_eq_some_iff]
  constructor
  · rintro ⟨type, hType, hSecret⟩
    rw [typeOf_of_lookup hType]
    rcases hSecret with ⟨hFour, hFound⟩ | ⟨hCurve, hFound⟩
    · exact ⟨-1, .inl ⟨hFour, rfl⟩, hFound⟩
    · exact ⟨-4, .inr ⟨hCurve, rfl⟩, hFound⟩
  · rintro ⟨label, hLabel, hFound⟩
    cases hType : Cbor.Value.lookup (.int 1) entries with
    | none =>
      have hTypeOf : typeOf entries = .null := by
        rw [typeOf, typeLabel, hType, Option.getD_none]
      simp [hTypeOf, Cbor.Value.isInt_null] at hLabel
    | some type =>
      rw [typeOf_of_lookup hType] at hLabel
      refine ⟨type, hType, ?_⟩
      rcases hLabel with ⟨hFour, rfl⟩ | ⟨hCurve, rfl⟩
      · exact .inl ⟨hFour, hFound⟩
      · exact .inr ⟨hCurve, hFound⟩

/-! ## What is unwrapped -/

/-- The octets begin with a map that states a secret of the right length. -/
def Holds (read : Cbor.Decoder) (bs secret : Bytes) : Prop :=
  secret.length = 32 ∧ ∃ entries rest, read bs = .ok (.map false entries, rest) ∧ States entries secret

theorem unwrap_eq_ok_iff : unwrap bs read = .ok secret ↔ Holds read bs secret := by
  unfold unwrap Holds
  simp only [bind_eq_ok_iff, decodeFirst_eq_ok_iff, states_iff]
  constructor
  · rintro ⟨v, ⟨rest, hDecoded⟩, hRead⟩
    split at hRead
    · next entries =>
      split at hRead
      · cases hRead
      · next label hLabel =>
        split at hRead
        · cases hRead
        · cases hRead
        · next found hFound =>
          split at hRead
          · next hLength =>
            cases hRead
            exact ⟨hLength, entries, rest, hDecoded, label, hLabel, hFound⟩
          · cases hRead
        · cases hRead
    · cases hRead
  · rintro ⟨hLength, entries, rest, hDecoded, label, hLabel, hFound⟩
    refine ⟨_, ⟨rest, hDecoded⟩, ?_⟩
    rw [typeOf] at hLabel
    dsimp only
    rw [hLabel]
    dsimp only
    rw [hFound]
    exact if_pos hLength

/-- A wrapped secret is unwrapped again, and the strings that are unwrapped are those that hold a secret, which has 32
octets. All others are refused as malformed, except those with a type that cannot be compared or shown. -/
theorem unwrapped_iff_held (read : Cbor.Decoder) (bs secret : Bytes) (keyId : Option Bytes) :
    (secret.length = 32 → (∀ id, keyId = some id → id.length < 2 ^ 63) →
      ∃ wrapped, wrap secret keyId = .ok wrapped ∧ unwrap wrapped = .ok secret) ∧
    (unwrap bs read = .ok secret ↔ Holds read bs secret) ∧
    ((∀ held, ¬ Holds read bs held) → (∀ fault, ¬ Breaks read bs fault) →
      ∃ fault, unwrap bs read = .error (.malformed fault)) ∧
    ∀ fault, Breaks read bs fault → unwrap bs read = .error (.breakdown fault) := by
  refine ⟨?_, unwrap_eq_ok_iff, ?_, fun fault => unwrap_of_breaks⟩
  · intro hLength hId
    obtain ⟨wrapped, hWrapped⟩ := exists_wrap hLength keyId
    exact ⟨wrapped, hWrapped, unwrap_wrap hWrapped fun id hSome => Nat.le_pred_of_lt (hId id hSome)⟩
  · intro hNone hSound
    cases hUnwrapped : unwrap bs read with
    | ok held => exact (hNone held (unwrap_eq_ok_iff.mp hUnwrapped)).elim
    | error why =>
      rcases failsAs_unwrap read bs why hUnwrapped with ⟨fault, rfl⟩ | ⟨fault, -, hBreaks⟩
      · exact ⟨fault, rfl⟩
      · exact (hSound fault hBreaks).elim

end Cose.SecretKey

namespace Server.Sample

open Cose.SecretKey

/-- The header of a hostile message, taken for a key, is of a type that cannot be shown. -/
theorem hostileHeader_breaks : Breaks Cbor.decode hostile.headerOctets .numberTooLong := by
  have hType : typeOf hostileHeader = .int Cbor.Value.unprintable := by
    rw [typeOf, typeLabel, hostileHeader, Cose.algorithmLabel, Cbor.Value.lookup_first, Option.getD_some]
  have hNumber (n : Int) (h : n < 5) : (Cbor.Value.int Cbor.Value.unprintable).isInt n = false := by
    rw [Cbor.Value.isInt, Cbor.Value.same_int, beq_eq_false_iff_ne]
    have hLong : 5 ≤ Cbor.Value.unprintable := by decide +kernel
    omega
  have hDecoded := (Cose.decodeFirst_eq_ok_iff .key hostile.headerOctets Cbor.decode _).mpr
    ⟨[], restorable_hostileHeader.decode_encode⟩
  refine .numberTooLong hDecoded ?_ ?_
  · rw [hType, secretLabel?, hNumber _ (by decide), hNumber _ (by decide), hNumber _ (by decide)]
    rfl
  · rw [hType, Cbor.Value.isPrintable, Int.natAbs_natCast]
    exact decide_eq_false (Nat.lt_irrefl _)

theorem signallingOctets_break : Breaks signallingReader signallingOctets .signalled := by
  refine @Breaks.signalled _ _ signallingHeader rfl ?_
  rw [typeOf, typeLabel, signallingHeader, Cbor.Value.lookup_first, Option.getD_some]
  rfl

/-- A wrapped secret, a key that is refused as malformed, and two that are neither unwrapped nor refused so. -/
theorem hostile_type_escapes :
    (List.replicate 32 (7 : UInt8)).length = 32 ∧ (∀ id, some [(1 : UInt8)] = some id → id.length < 2 ^ 63) ∧
      (∃ bs, wrap (List.replicate 32 7) (some [1]) = .ok bs ∧ unwrap bs = .ok (List.replicate 32 7)) ∧
      (∀ held, ¬ Holds Cbor.decode [] held) ∧ (∀ fault, ¬ Breaks Cbor.decode [] fault) ∧
      (∃ fault, unwrap [] = .error (.malformed fault)) ∧
      Breaks Cbor.decode hostile.headerOctets .numberTooLong ∧
      unwrap hostile.headerOctets = .error (.breakdown .numberTooLong) ∧
      Breaks signallingReader signallingOctets .signalled ∧
      unwrap signallingOctets signallingReader = .error (.breakdown .signalled) := by
  have hLength : (List.replicate 32 (7 : UInt8)).length = 32 := rfl
  have hId : ∀ id, some [(1 : UInt8)] = some id → id.length < 2 ^ 63 := by
    rintro id ⟨⟩
    decide
  have hNone : ∀ held, ¬ Holds Cbor.decode [] held := by
    rintro held ⟨-, entries, rest, hDecoded, -⟩
    cases hDecoded
  have hSound : ∀ fault, ¬ Breaks Cbor.decode [] fault := by
    rintro fault (⟨hDecoded, -⟩ | ⟨hDecoded, -, -⟩)
    · cases hDecoded
    · cases hDecoded
  obtain ⟨hReturned, -, hRefused, -⟩ := unwrapped_iff_held Cbor.decode [] (List.replicate 32 7) (some [1])
  obtain ⟨-, -, -, hShown⟩ := unwrapped_iff_held Cbor.decode hostile.headerOctets [] none
  obtain ⟨-, -, -, hCompared⟩ := unwrapped_iff_held signallingReader signallingOctets [] none
  exact ⟨hLength, hId, hReturned hLength hId, hNone, hSound, hRefused hNone hSound, hostileHeader_breaks,
    hShown _ hostileHeader_breaks, signallingOctets_break, hCompared _ signallingOctets_break⟩

end Server.Sample

end TenantVault
