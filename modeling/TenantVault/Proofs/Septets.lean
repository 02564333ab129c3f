import TenantVault.Proofs.Fingerprint
import TenantVault.Service.Signatures

/-! # Integers in groups of seven bits

The groups of an integer are written in turns, each of which shifts the number by seven bits and keeps its
sign. The turn that leaves zero is the last one. A natural number comes to its last turn and has then been
written as it is encoded; of a negative number something is left after every turn. A delegation is looked up
under a hash that covers its expiry, and so is found, or found missing, only if the expiry is not negative.
-/

namespace TenantVault

namespace Leb128

theorem length_encode_pos (n : Nat) : 0 < (encode n).length := by
  rw [encode]
  split
  · exact Nat.one_pos
  · exact Nat.succ_pos _

/-- What is left of a number, and the octets that have been written. -/
structure Writing where
  left : Int
  octets : Bytes

namespace Writing

variable {s : Writing} {octets : Bytes}

/-- Writes the lowest group, marked if a further one follows. -/
def turn (s : Writing) : Writing ⊕ Bytes :=
  let low := UInt8.ofNat (s.left % 128).toNat
  let left := s.left >>> (7 : Nat)
  if left = 0 then .inr (s.octets ++ [low]) else .inl ⟨left, s.octets ++ [low ||| 0x80]⟩

/-- The octets of the whole number, if as many turns are enough. -/
def run : Nat → Writing → Option Bytes
  | 0, _ => none
  | turns + 1, s => match s.turn with
    | .inl s => s.run turns
    | .inr octets => some octets

/-- The octets of a number, if its turns come to an end. -/
def Ends (n : Int) (octets : Bytes) : Prop := ∃ turns, run turns ⟨n, []⟩ = some octets

theorem shift_eq (n : Int) : n >>> (7 : Nat) = n / 128 := Int.shiftRight_eq_div_pow n 7

theorem turn_of_negative (h : s.left < 0) : ∃ s', s.turn = .inl s' ∧ s'.left < 0 := by
  have hLeft : s.left >>> (7 : Nat) < 0 := by
    rw [shift_eq]
    omega
  refine ⟨_, if_neg (by omega), hLeft⟩

theorem turn_of_small (hThere : 0 ≤ s.left) (hSmall : s.left < 128) :
    s.turn = .inr (s.octets ++ encode s.left.toNat) := by
  have hLeft : s.left >>> (7 : Nat) = 0 := by
    rw [shift_eq]
    omega
  have hLow : s.left % 128 = s.left := by omega
  unfold turn
  rw [encode_small (by omega)]
  dsimp only
  rw [if_pos hLeft, hLow]

theorem turn_of_large (h : 128 ≤ s.left) :
    s.turn = .inl ⟨s.left / 128, s.octets ++ [UInt8.ofNat (128 + s.left.toNat % 128)]⟩ := by
  have hMark : ∀ low < 128, UInt8.ofNat low ||| 0x80 = UInt8.ofNat (128 + low) := by decide
  have hLow : (s.left % 128).toNat = s.left.toNat % 128 := by omega
  unfold turn
  dsimp only
  rw [if_neg (by rw [shift_eq]; omega), shift_eq, hLow, hMark _ (Nat.mod_lt _ (by decide))]

theorem run_of_negative (turns : Nat) (h : s.left < 0) : s.run turns = none := by
  induction turns generalizing s with
  | zero => rfl
  | succ turns ih =>
    obtain ⟨s', hTurn, hLeft⟩ := turn_of_negative h
    rw [run, hTurn]
    exact ih hLeft

/-- As many turns are needed as octets are written. -/
theorem run_of_nonneg (turns : Nat) (h : 0 ≤ s.left) : s.run turns =
    if (encode s.left.toNat).length ≤ turns then some (s.octets ++ encode s.left.toNat) else none := by
  -- A turn leaves another number and more octets, so the claim is about all of them at once.
  induction turns generalizing s with
  | zero =>
    have hLength := length_encode_pos s.left.toNat
    rw [if_neg (by omega)]
    rfl
  | succ turns ih =>
    by_cases hSmall : s.left < 128
    · have hLength : (encode s.left.toNat).length = 1 := by
        rw [encode_small (by omega)]
        rfl
      rw [run, turn_of_small h hSmall, if_pos (by omega)]
    · have hRest : (s.left / 128).toNat = s.left.toNat / 128 := by omega
      have hMore : 0 ≤ s.left / 128 := by omega
      rw [run, turn_of_large (by omega)]
      dsimp only
      rw [ih hMore, encode_large (n := s.left.toNat) (by omega), hRest, List.length_cons, List.append_assoc,
        List.singleton_append]
      simp only [Nat.succ_le_succ_iff]

theorem ends_iff {n : Int} : Ends n octets ↔ 0 ≤ n ∧ octets = encode n.toNat := by
  by_cases h : 0 ≤ n
  · simp only [Ends, run_of_nonneg (s := ⟨n, []⟩) _ h, List.nil_append]
    constructor
    · rintro ⟨turns, hRun⟩
      split at hRun
      · cases hRun
        exact ⟨h, rfl⟩
      · cases hRun
    · rintro ⟨-, rfl⟩
      exact ⟨(encode n.toNat).length, if_pos (Nat.le_refl _)⟩
  · refine ⟨?_, fun hEnds => (h hEnds.1).elim⟩
    rintro ⟨turns, hRun⟩
    rw [run_of_negative turns (s := ⟨n, []⟩) (by simpa using h)] at hRun
    cases hRun

end Writing

end Leb128

namespace Identity

open Leb128

variable {sessionKey octets : Bytes} {expiration : Int}

/-- What is signed for a delegation whose expiry has been written. -/
def delegationMessageOf (sessionKey octets : Bytes) : Bytes :=
  let fields := [hashedField pubkeyName sessionKey, hashedField expirationName octets]
  let digest := Sha256.sha256 (fields.mergeSort fun a b => decide (a ≤ b)).flatten
  Sha256.sha256 (UInt8.ofNat delegationDomain.length :: delegationDomain ++ digest)

theorem delegationMessage_of_ends (h : Writing.Ends expiration octets) :
    delegationMessage sessionKey expiration none = .ok (delegationMessageOf sessionKey octets) := by
  obtain ⟨hThere, rfl⟩ := Writing.ends_iff.mp h
  rw [delegationMessage_none, if_neg (by omega)]
  rfl

end Identity

namespace Signatures

open Leb128

variable {seed sessionKey octets : Bytes} {expiration : Int} {w : World} {answer : Result SignedDelegation}

/-- What a caller is told about a delegation: its signature, or that there is none. -/
inductive Told (sessionKey : Bytes) (expiration : Int) : Result SignedDelegation → Prop where
  | signed (signature : Bytes) : Told sessionKey expiration (.ok ⟨sessionKey, expiration, signature⟩)
  | missing : Told sessionKey expiration (.error (.missing .delegation))

def kept (w : World) (seed sessionKey : Bytes) (expiration : Int) (message : Bytes) :
    Result SignedDelegation :=
  match w.signatures.get? (Sha256.sha256 seed, message) with
  | some (signature, _) => .ok ⟨sessionKey, expiration, signature⟩
  | none => .error (.missing .delegation)

theorem told_kept (message : Bytes) : Told sessionKey expiration (kept w seed sessionKey expiration message) := by
  unfold kept
  split
  · exact .signed _
  · exact .missing

/-- The answer to a caller, if as many turns are enough to write the expiry. -/
def answerWithin (turns : Nat) (seed sessionKey : Bytes) (expiration : Int) (w : World) :
    Option (Result SignedDelegation) :=
  (Writing.run turns ⟨expiration, []⟩).map fun octets =>
    kept w seed sessionKey expiration (Identity.delegationMessageOf sessionKey octets)

theorem getDelegation_of_ends (h : Writing.Ends expiration octets) :
    getDelegation seed sessionKey expiration w =
      .done w (kept w seed sessionKey expiration (Identity.delegationMessageOf sessionKey octets)) := by
  unfold getDelegation kept
  rw [Identity.delegationMessage_of_ends h]
  dsimp only [bind, Except.bind]
  cases w.signatures.get? (Sha256.sha256 seed, Identity.delegationMessageOf sessionKey octets) <;> rfl

theorem getDelegation_of_negative (h : expiration < 0) :
    getDelegation seed sessionKey expiration w = .fail w (.breakdown .endlessInteger) := by
  unfold getDelegation
  rw [Identity.delegationMessage_none, if_pos h]
  rfl

theorem answerWithin_of_negative (turns : Nat) (h : expiration < 0) :
    answerWithin turns seed sessionKey expiration w = none := by
  rw [answerWithin, Writing.run_of_negative (s := ⟨expiration, []⟩) turns h]
  rfl

theorem getDelegation_of_answerWithin {turns : Nat}
    (h : answerWithin turns seed sessionKey expiration w = some answer) :
    Told sessionKey expiration answer ∧ getDelegation seed sessionKey expiration w = .done w answer := by
  unfold answerWithin at h
  obtain ⟨octets, hRun, rfl⟩ := Option.map_eq_some_iff.mp h
  exact ⟨told_kept _, getDelegation_of_ends ⟨turns, hRun⟩⟩

/-- Whoever asks for a delegation is told about it if the expiry is not negative, after as many turns as the
expiry has octets, and otherwise waits for ever. -/
theorem answered_iff_nonneg (seed sessionKey : Bytes) (expiration : Int) (w : World) :
    (∀ turns, (answerWithin turns seed sessionKey expiration w).isSome ↔
      0 ≤ expiration ∧ (encode expiration.toNat).length ≤ turns) ∧
    (∀ turns answer, answerWithin turns seed sessionKey expiration w = some answer →
      Told sessionKey expiration answer ∧ getDelegation seed sessionKey expiration w = .done w answer) ∧
    (getDelegation seed sessionKey expiration w = .fail w (.breakdown .endlessInteger) ↔
      ∀ turns, answerWithin turns seed sessionKey expiration w = none) ∧
    ((∀ turns, answerWithin turns seed sessionKey expiration w = none) ↔ expiration < 0) := by
  have hTurns : ∀ turns, (answerWithin turns seed sessionKey expiration w).isSome ↔
      0 ≤ expiration ∧ (encode expiration.toNat).length ≤ turns := by
    intro turns
    by_cases hThere : 0 ≤ expiration
    · rw [answerWithin, Option.isSome_map, Writing.run_of_nonneg (s := ⟨expiration, []⟩) turns hThere]
      simp [hThere]
    · rw [answerWithin_of_negative turns (by omega)]
      simp [hThere]
  have hNever : (∀ turns, answerWithin turns seed sessionKey expiration w = none) ↔ expiration < 0 := by
    refine ⟨fun hNone => ?_, fun hNegative turns => answerWithin_of_negative turns hNegative⟩
    have hEnough := hTurns (encode expiration.toNat).length
    rw [hNone] at hEnough
    simpa using hEnough
  refine ⟨hTurns, fun turns answer => getDelegation_of_answerWithin, ?_, hNever⟩
  rw [hNever]
  refine ⟨fun hFailed => ?_, getDelegation_of_negative⟩
  by_contra hThere
  obtain ⟨answer, hAnswer⟩ := Option.isSome_iff_exists.mp ((hTurns _).mpr ⟨by omega, Nat.le_refl _⟩)
  obtain ⟨hTold, hDone⟩ := getDelegation_of_answerWithin hAnswer
  rw [hDone, Outcome.fail, Outcome.done.injEq] at hFailed
  rw [hFailed.2] at hTold
  cases hTold

namespace Sample

/-- A service that has signed nothing. -/
def unused : World := .ofTables (.ofGovernance {
  name := .text Config.defaultName
  signingKeyName := .text Config.defaultKeyName
  derivationKeyName := .text Config.defaultKeyName
  controllers := .empty
  managers := .empty
  auditors := .empty
  allowedApis := .empty })

/-- An expiry of three hundred is written in two turns, one of minus one is as it was after every turn. -/
theorem minus_one_unanswered :
    answerWithin 1 [] [] 300 unused = none ∧
    answerWithin 2 [] [] 300 unused = some (.error (.missing .delegation)) ∧
    getDelegation [] [] 300 unused = .fail unused (.missing .delegation) ∧
    Writing.turn ⟨-1, []⟩ = .inl ⟨-1, [0xFF]⟩ ∧ (∀ turns, answerWithin turns [] [] (-1) unused = none) ∧
    getDelegation [] [] (-1) unused = .fail unused (.breakdown .endlessInteger) := by
  have hMissing : answerWithin 2 [] [] 300 unused = some (.error (.missing .delegation)) := rfl
  obtain ⟨-, hAnswered, -, -⟩ := answered_iff_nonneg [] [] 300 unused
  obtain ⟨-, -, hEndless, hNever⟩ := answered_iff_nonneg [] [] (-1) unused
  have hWaits := hNever.mpr (by decide)
  exact ⟨rfl, hMissing, (hAnswered 2 _ hMissing).2, rfl, hWaits, hEndless.mpr hWaits⟩

end Sample

end Signatures

end TenantVault
