import TenantVault.Curve.Ed25519
import TenantVault.Curve.X25519
import TenantVault.Hash.Sha3

/-! # Loops that are worked out step by step

A loop over the bits of a scalar hands a point from turn to turn, and the permutation of a sponge hands its lanes
from round to round. If they are only expressions, the numbers of earlier turns are worked out again and again,
and an example with real keys takes its time. The loops here work out the numbers of each turn before the
next one begins, and come to the same.
-/

namespace TenantVault

/-- The value of a function at a number that is worked out first. -/
def forced {α : Type} (n : Nat) (f : Nat → α) : α := Nat.rec (f 0) (fun k _ => f (k + 1)) n

@[simp] theorem forced_eq {α : Type} (n : Nat) (f : Nat → α) : forced n f = f n := by
  cases n <;> rfl

def forcedWords {α : Type} : List UInt64 → (List UInt64 → α) → α
  | [], f => f []
  | x :: xs, f => forced x.toNat fun n => forcedWords xs fun xs => f (UInt64.ofNat n :: xs)

@[simp] theorem forcedWords_eq {α : Type} (words : List UInt64) (f : List UInt64 → α) :
    forcedWords words f = f words := by
  induction words generalizing f with
  | nil => rfl
  | cons x xs ih => simp [forcedWords, ih]

namespace X25519

open Field25519

def Ladder.forced {α : Type} (s : Ladder) (f : Ladder → α) : α :=
  TenantVault.forced s.x2 fun x2 => TenantVault.forced s.z2 fun z2 =>
    TenantVault.forced s.x3 fun x3 => TenantVault.forced s.z3 fun z3 => f ⟨x2, z2, x3, z3⟩

@[simp] theorem Ladder.forced_eq {α : Type} (s : Ladder) (f : Ladder → α) : s.forced f = f s := by
  simp [Ladder.forced]

def strictLadder (scalar u : Nat) : Nat → Ladder → Ladder
  | 0, s => s
  | bit + 1, s =>
    let flip := scalar.testBit bit
    (((s.swap flip).step u).swap flip).forced (strictLadder scalar u bit)

theorem strictLadder_eq (scalar u bits : Nat) (s : Ladder) :
    strictLadder scalar u bits s = ladder scalar u bits s := by
  induction bits generalizing s with
  | zero => rfl
  | succ bits ih => simp [strictLadder, ladder, ih]

def strictMultiply (scalar point : Bytes) : Bytes :=
  forced (clamp (Bytes.toNatLE scalar)) fun factor =>
    forced (Bytes.toNatLE point % 2 ^ 255 % prime) fun u =>
      (strictLadder factor u 255 ⟨1, 0, u, 1⟩).forced fun s =>
        forced (mul s.x2 (inverse s.z2)) (Bytes.ofNatLE keyLength)

theorem strictMultiply_eq (scalar point : Bytes) : strictMultiply scalar point = multiply scalar point := by
  rw [strictMultiply, forced_eq, forced_eq, Ladder.forced_eq, forced_eq, strictLadder_eq]
  rfl

end X25519

namespace Ed25519

open Field25519

namespace Point

def forced {α : Type} (p : Point) (f : Point → α) : α :=
  TenantVault.forced p.x fun x => TenantVault.forced p.y fun y =>
    TenantVault.forced p.z fun z => TenantVault.forced p.t fun t => f ⟨x, y, z, t⟩

@[simp] theorem forced_eq {α : Type} (p : Point) (f : Point → α) : p.forced f = f p := by
  simp [forced]

def strictMultiplyFrom (p : Point) (n : Nat) : Nat → Point → Point
  | 0, acc => acc
  | bit + 1, acc =>
    (acc.add acc).forced fun twice =>
      (if n.testBit bit then twice.add p else twice).forced (p.strictMultiplyFrom n bit)

theorem strictMultiplyFrom_eq (p : Point) (n bits : Nat) (acc : Point) :
    p.strictMultiplyFrom n bits acc = p.multiplyFrom n bits acc := by
  induction bits generalizing acc with
  | zero => rfl
  | succ bits ih => simp [strictMultiplyFrom, multiplyFrom, ih]

def strictMultiply (p : Point) (n : Nat) : Point :=
  p.forced fun p => TenantVault.forced n fun n => p.strictMultiplyFrom n 256 neutral

theorem strictMultiply_eq (p : Point) (n : Nat) : p.strictMultiply n = p.multiply n := by
  rw [strictMultiply, forced_eq, TenantVault.forced_eq, strictMultiplyFrom_eq, multiply]

end Point

/-- Verification with a way to work out multiples. -/
def verifyWith (multiply : Point → Nat → Point) (key message signature : Bytes) : Bool :=
  let commitment := signature.take 32
  let s := Bytes.toNatLE (signature.drop 32)
  match Point.decode? key with
  | none => false
  | some a =>
    signature.length == signatureLength && decide (s < order) &&
      ((multiply basePoint s).add (multiply a.neg (challenge commitment key message))).encode == commitment

theorem verifyWith_strictMultiply (key message signature : Bytes) :
    verifyWith Point.strictMultiply key message signature = verify key message signature := by
  have hSame : Point.strictMultiply = Point.multiply := funext fun p => funext p.strictMultiply_eq
  rw [hSame]
  rfl

end Ed25519

namespace Sha3

variable {α : Type}

def laneOf (words : List UInt64) (x y : Nat) : UInt64 := words.getD (x % 5 + 5 * (y % 5)) 0

def fromLanes (f : Nat → Nat → UInt64) : List UInt64 := (List.range 25).map fun i => f (i % 5) (i / 5)

theorem laneOf_toList (s : State) (x y : Nat) : laneOf s.toList x y = lane s x y := by
  have hBound : x % 5 + 5 * (y % 5) < 25 := by omega
  simp [laneOf, lane, List.getD, hBound]

theorem toList_ofLanes (f : Nat → Nat → UInt64) : (ofLanes f).toList = fromLanes f := by
  apply List.ext_getElem
  · simp [fromLanes]
  · intro i h h'
    simp [fromLanes, ofLanes]

def parityOf (words : List UInt64) : List UInt64 :=
  (List.range 5).map fun x =>
    laneOf words x 0 ^^^ laneOf words x 1 ^^^ laneOf words x 2 ^^^ laneOf words x 3 ^^^ laneOf words x 4

def strictRound (constant : UInt64) (words : List UInt64) (f : List UInt64 → α) : α :=
  forcedWords (parityOf words) fun parity =>
    forcedWords (fromLanes fun x y => laneOf words x y ^^^
      (parity.getD ((x + 4) % 5) 0 ^^^ rotate (parity.getD ((x + 1) % 5) 0) 1)) fun words =>
    forcedWords (fromLanes fun x y =>
      rotate (laneOf words (x + 3 * y) x) (laneOf offsets.toList (x + 3 * y) x)) fun words =>
    forcedWords (fromLanes fun x y =>
      laneOf words x y ^^^ (~~~(laneOf words (x + 1) y) &&& laneOf words (x + 2) y)) fun words =>
    forcedWords (words.set 0 (laneOf words 0 0 ^^^ constant)) f

theorem toList_theta (s : State) : (theta s).toList = fromLanes fun x y => laneOf s.toList x y ^^^
    ((parityOf s.toList).getD ((x + 4) % 5) 0 ^^^ rotate ((parityOf s.toList).getD ((x + 1) % 5) 0) 1) := by
  have hParity (x : Nat) (h : x < 5) : (parityOf s.toList).getD x 0 = columnParity s x := by
    simp [parityOf, List.getD, h, laneOf_toList, columnParity]
  rw [theta, toList_ofLanes]
  simp only [laneOf_toList, hParity _ (Nat.mod_lt _ (by decide : 5 > 0)), Vector.getElem_ofFn]

theorem toList_rhoPi (s : State) : (rhoPi s).toList = fromLanes fun x y =>
    rotate (laneOf s.toList (x + 3 * y) x) (laneOf offsets.toList (x + 3 * y) x) := by
  rw [rhoPi, toList_ofLanes]
  simp only [laneOf_toList]

theorem toList_chi (s : State) : (chi s).toList = fromLanes fun x y =>
    laneOf s.toList x y ^^^ (~~~(laneOf s.toList (x + 1) y) &&& laneOf s.toList (x + 2) y) := by
  rw [chi, toList_ofLanes]
  simp only [laneOf_toList]

theorem strictRound_eq (constant : UInt64) (s : State) (f : List UInt64 → α) :
    strictRound constant s.toList f = f (round s constant).toList := by
  rw [strictRound, forcedWords_eq, ← toList_theta, forcedWords_eq, ← toList_rhoPi, forcedWords_eq, ← toList_chi,
    forcedWords_eq, forcedWords_eq, laneOf_toList, ← Vector.toList_set (by decide : 0 < 25)]
  rfl

def strictPermute : List UInt64 → List UInt64 → (List UInt64 → α) → α
  | [], words, f => f words
  | constant :: constants, words, f => strictRound constant words fun words => strictPermute constants words f

theorem strictPermute_eq (constants : List UInt64) (s : State) (f : List UInt64 → α) :
    strictPermute constants s.toList f = f (constants.foldl round s).toList := by
  induction constants generalizing s with
  | nil => rfl
  | cons constant constants ih => rw [strictPermute, strictRound_eq, ih, List.foldl_cons]

def strictAbsorb : List Bytes → List UInt64 → (List UInt64 → α) → α
  | [], words, f => f words
  | block :: blocks, words, f =>
    forcedWords ((Bytes.chunks 8 block).map fun w => UInt64.ofNat (Bytes.toNatLE w)) fun input =>
      forcedWords (fromLanes fun x y => laneOf words x y ^^^ input.getD (x + 5 * y) 0) fun words =>
        strictPermute roundConstants words fun words => strictAbsorb blocks words f

theorem strictAbsorb_eq (blocks : List Bytes) (s : State) (f : List UInt64 → α) :
    strictAbsorb blocks s.toList f = f (blocks.foldl absorb s).toList := by
  induction blocks generalizing s with
  | nil => rfl
  | cons block blocks ih =>
    have hInput : (ofLanes fun x y => lane s x y ^^^
          ((Bytes.chunks 8 block).map fun w => UInt64.ofNat (Bytes.toNatLE w)).toArray.getD (x + 5 * y) 0).toList =
        fromLanes fun x y => laneOf s.toList x y ^^^
          ((Bytes.chunks 8 block).map fun w => UInt64.ofNat (Bytes.toNatLE w)).getD (x + 5 * y) 0 := by
      rw [toList_ofLanes]
      simp only [laneOf_toList, Array.getD_eq_getD_getElem?, List.getElem?_toArray, List.getD_eq_getElem?_getD]
    rw [strictAbsorb, forcedWords_eq, forcedWords_eq, ← hInput, strictPermute_eq, ih, List.foldl_cons]
    rfl

def strictSha3_256 (message : Bytes) : Bytes :=
  strictAbsorb (Bytes.chunks rate (pad message)) zero.toList fun words =>
    (words.take 4).flatMap fun w => Bytes.ofNatLE 8 w.toNat

theorem strictSha3_256_eq (message : Bytes) : strictSha3_256 message = sha3_256 message := by
  have hFirst (s : State) : s.toList.take 4 = [s[0], s[1], s[2], s[3]] := by
    apply List.ext_getElem
    · simp
    · intro i h h'
      rcases i with _ | _ | _ | _ | i
      · simp
      · simp
      · simp
      · simp
      · simp only [List.length_cons, List.length_nil] at h'
        omega
  rw [strictSha3_256, strictAbsorb_eq, hFirst]
  rfl

end Sha3

end TenantVault
