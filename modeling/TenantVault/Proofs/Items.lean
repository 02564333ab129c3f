import TenantVault.Cbor.Decode
import TenantVault.Cbor.Encode
import TenantVault.Proofs.Elements

/-! # Items that are read back

A number, a string, a list or a map with different keys is read as what was written, and what follows it
is left alone. How long the strings are that occur in it can be told from how long it is altogether.
-/

namespace TenantVault

theorem Bytes.toText?_ofText (s : String) : toText? (ofText s) = some s := by
  have hSame : ByteArray.mk s.toUTF8.data.toList.toArray = s.toByteArray := by simp
  rw [toText?, ofText, toList_byteArray, hSame, String.fromUTF8?, dif_pos s.isValidUTF8]
  rfl

namespace Cbor

/-- Items that are read as they were written, where they stand and as deep as they may stand. -/
inductive Restorable : Bool → Nat → Value → Prop
  | int {fixed : Bool} {depth : Nat} {n : Int} (least : -(2 ^ 64) ≤ n) (below : n < 2 ^ 64) :
    Restorable fixed depth (.int n)
  | wide {fixed : Bool} {depth n : Nat} (beyond : 2 ^ 64 ≤ n)
    (fits : (Der.minimal n).length ≤ maxLength) : Restorable fixed (depth + 1) (.int n)
  | wideNegative {fixed : Bool} {depth n : Nat} (beyond : 2 ^ 64 ≤ n)
    (fits : (Der.minimal n).length ≤ maxLength) : Restorable fixed (depth + 1) (.int (.negSucc n))
  | bytes {fixed : Bool} {depth : Nat} {bs : Bytes} (fits : bs.length ≤ maxLength) :
    Restorable fixed depth (.bytes bs)
  | text {fixed : Bool} {depth : Nat} {s : String} (fits : (Bytes.ofText s).length ≤ maxLength) :
    Restorable fixed depth (.text s)
  | list {fixed : Bool} {depth : Nat} {vs : List Value} (count : vs.length < 2 ^ 64)
    (each : ∀ v ∈ vs, Restorable fixed depth v) : Restorable fixed (depth + 1) (.list fixed vs)
  | map {fixed : Bool} {depth : Nat} {es : Entries} (count : es.length < 2 ^ 64)
    (distinct : (es.map Prod.fst).Pairwise fun k k' => Value.same k k' = false)
    (keys : ∀ e ∈ es, Restorable true depth e.1) (values : ∀ e ∈ es, Restorable fixed depth e.2) :
    Restorable fixed (depth + 1) (.map fixed es)

@[simp] theorem Value.same_int (m n : Int) : same (.int m) (.int n) = (m == n) := by
  simp [same, sameNumber, integer?]

@[simp] theorem Value.lookup_first (label : Int) (v : Value) (es : Entries) :
    lookup (.int label) ((.int label, v) :: es) = some v := by
  rw [lookup, same_int]
  simp

/-! ## Heads and strings -/

theorem splitFrom?_append (bs acc suffix : Bytes) :
    splitFrom? bs.length acc (bs ++ suffix) = some (acc.reverse ++ bs, suffix) := by
  induction bs generalizing acc with
  | nil => simp [splitFrom?]
  | cons b bs ih =>
    rw [List.length_cons, List.cons_append, splitFrom?, ih]
    simp

theorem take_append (bs suffix : Bytes) : take bs.length (bs ++ suffix) = .ok (bs, suffix) := by
  unfold take
  rw [splitFrom?_append]
  rfl

theorem argument_small {n : Nat} (h : n < 24) (suffix : Bytes) :
    argument n suffix = .ok (some n, suffix) := by
  unfold argument
  rw [if_pos h]

theorem argument_wide {info width n : Nat} (hInfo : 24 ≤ info) (hBelow : info < 28)
    (hWidth : 2 ^ (info - 24) = width) (h : n < 256 ^ width) (suffix : Bytes) :
    argument info (Bytes.ofNatBE width n ++ suffix) = .ok (some n, suffix) := by
  have hTake : take width (Bytes.ofNatBE width n ++ suffix) = .ok (Bytes.ofNatBE width n, suffix) := by
    have hLength := take_append (Bytes.ofNatBE width n) suffix
    rw [Bytes.length_ofNatBE] at hLength
    exact hLength
  unfold argument
  rw [if_neg (by omega), if_pos hBelow, hWidth, hTake]
  simp only [bind, Except.bind, pure, Except.pure, Bytes.foldBE_eq, Bytes.toNatBE_ofNatBE,
    Nat.mod_eq_of_lt h]

/-- A head is an octet that shows its major type and begins its argument. -/
theorem head_spec {major n : Nat} (hMajor : major < 8) (h : n < 2 ^ 64) (suffix : Bytes) :
    ∃ b rest, head major n ++ suffix = b :: rest ∧ b.toNat / 32 = major ∧
      argument (b.toNat % 32) rest = .ok (some n, suffix) := by
  have hOctet {info : Nat} (hInfo : info < 32) : (UInt8.ofNat (32 * major + info)).toNat / 32 = major ∧
      (UInt8.ofNat (32 * major + info)).toNat % 32 = info := by
    rw [UInt8.toNat_ofNat']
    omega
  have hWide {info width : Nat} (hInfo : 24 ≤ info) (hBelow : info < 28)
      (hWidth : 2 ^ (info - 24) = width) (hFits : n < 256 ^ width) :
      ∃ b rest, UInt8.ofNat (32 * major + info) :: Bytes.ofNatBE width n ++ suffix = b :: rest ∧
        b.toNat / 32 = major ∧ argument (b.toNat % 32) rest = .ok (some n, suffix) := by
    obtain ⟨hFirst, hSecond⟩ := hOctet (show info < 32 by omega)
    refine ⟨_, _, List.cons_append, hFirst, ?_⟩
    rw [hSecond]
    exact argument_wide hInfo hBelow hWidth hFits suffix
  unfold head
  split
  · next hSmall =>
    obtain ⟨hFirst, hSecond⟩ := hOctet (show n < 32 by omega)
    refine ⟨_, _, List.singleton_append, hFirst, ?_⟩
    rw [hSecond]
    exact argument_small hSmall suffix
  · split
    · next hFits => exact hWide (by decide) (by decide) rfl hFits
    · split
      · next hFits => exact hWide (by decide) (by decide) rfl hFits
      · split
        · next hFits => exact hWide (by decide) (by decide) rfl hFits
        · exact hWide (by decide) (by decide) rfl h

theorem length_head_le (major n : Nat) : (head major n).length ≤ 9 := by
  unfold head
  repeat' split
  all_goals simp

theorem piece_append {α : Type} {read? : Bytes → Option α} {bs : Bytes} {a : α}
    (hFits : bs.length ≤ maxLength) (hRead : read? bs = some a) (suffix : Bytes) :
    piece read? bs.length (bs ++ suffix) = .ok (a, suffix) := by
  unfold piece
  rw [if_neg (by omega)]
  simp only [take_append, bind, Except.bind, pure, Except.pure, hRead]

/-! ## Lists and maps -/

theorem items_encode {item : Bytes → Except Fault (Value × Bytes)} {vs : List Value}
    (hEach : ∀ v ∈ vs, ∀ suffix, item (encode v ++ suffix) = .ok (v, suffix)) (acc : List Value)
    (suffix : Bytes) :
    items item vs.length acc (encodeItems vs ++ suffix) = .ok (acc.reverse ++ vs, suffix) := by
  induction vs generalizing acc with
  | nil => simp [items, encodeItems_nil]
  | cons v vs ih =>
    obtain ⟨hFirst, hRest⟩ := List.forall_mem_cons.mp hEach
    simp only [List.length_cons, items, encodeItems_cons, List.append_assoc, hFirst, bind, Except.bind]
    rw [ih hRest]
    simp

theorem putEntry_of_new {k v : Value} {es : Entries}
    (h : ∀ e ∈ es, Value.same e.1 k = false) : Value.putEntry k v es = es ++ [(k, v)] := by
  induction es with
  | nil => rfl
  | cons e es ih =>
    obtain ⟨hFirst, hRest⟩ := List.forall_mem_cons.mp h
    rw [Value.putEntry, hFirst, if_neg Bool.false_ne_true, ih hRest]
    rfl

theorem entries_encode {nested : Reader} {fixed : Bool} {es : Entries}
    (hKeys : ∀ e ∈ es, ∀ suffix, nested true (encode e.1 ++ suffix) = .ok (e.1, suffix))
    (hValues : ∀ e ∈ es, ∀ suffix, nested fixed (encode e.2 ++ suffix) = .ok (e.2, suffix))
    (hDistinct : (es.map Prod.fst).Pairwise fun k k' => Value.same k k' = false) {acc : Entries}
    (hNew : ∀ old ∈ acc, ∀ e ∈ es, Value.same old.1 e.1 = false) (suffix : Bytes) :
    entries nested fixed es.length acc (encodeEntries es ++ suffix) = .ok (acc ++ es, suffix) := by
  induction es generalizing acc with
  | nil => simp [entries, encodeEntries_nil]
  | cons e es ih =>
    obtain ⟨k, v⟩ := e
    obtain ⟨hKey, hOtherKeys⟩ := List.forall_mem_cons.mp hKeys
    obtain ⟨hValue, hOtherValues⟩ := List.forall_mem_cons.mp hValues
    obtain ⟨hFirst, hRest⟩ := List.pairwise_cons.mp hDistinct
    have hPut : Value.putEntry k v acc = acc ++ [(k, v)] :=
      putEntry_of_new fun old hOld => hNew old hOld (k, v) List.mem_cons_self
    simp only [List.length_cons, entries, encodeEntries_cons, List.append_assoc, hKey, hValue, bind,
      Except.bind, hPut]
    rw [ih hOtherKeys hOtherValues hRest]
    · simp
    · intro old hOld e hMem
      rcases List.mem_append.mp hOld with hBefore | hLast
      · exact hNew old hBefore e (List.mem_cons_of_mem _ hMem)
      · rw [List.mem_singleton.mp hLast]
        exact hFirst e.1 (List.mem_map_of_mem hMem)

/-! ## Items -/

section Bodies

variable {nested : Option Reader} {fixed : Bool}

theorem body_int {n : Int} (hLeast : -(2 ^ 64) ≤ n) (hBelow : n < 2 ^ 64) (suffix : Bytes) :
    body nested fixed (encode (.int n) ++ suffix) = .ok (.int n, suffix) := by
  have hNumber {major m : Nat} (hMajor : major < 2) (hFits : m < 2 ^ 64)
      (hMeaning : (if major = 0 then (m : Int) else -1 - m) = n) :
      body nested fixed (encodeNat major m ++ suffix) = .ok (.int n, suffix) := by
    obtain ⟨b, rest, hHead, hType, hArgument⟩ :=
      head_spec (show major < 8 by omega) hFits suffix
    rw [encodeNat, if_pos hFits, hHead]
    unfold body definite
    dsimp only
    rw [hType, hArgument]
    rcases Nat.lt_or_ge major 1 with hZero | hOne
    · obtain rfl : major = 0 := by omega
      rw [← hMeaning]
      rfl
    · obtain rfl : major = 1 := by omega
      rw [← hMeaning]
      rfl
  rw [encode_int, encodeInt.eq_def]
  cases n with
  | ofNat m =>
    rw [Int.ofNat_eq_natCast] at hBelow
    exact hNumber (by decide) (by omega) rfl
  | negSucc m =>
    refine hNumber (by decide) (by omega) ?_
    rw [if_neg (by decide)]
    omega

theorem body_bytes {bs : Bytes} (hFits : bs.length ≤ maxLength) (suffix : Bytes) :
    body nested fixed (encode (.bytes bs) ++ suffix) = .ok (.bytes bs, suffix) := by
  have hCount : bs.length < 2 ^ 64 := by
    unfold maxLength at hFits
    omega
  obtain ⟨b, rest, hHead, hType, hArgument⟩ :=
    head_spec (show 2 < 8 by decide) hCount (bs ++ suffix)
  rw [encode_bytes, List.append_assoc, hHead]
  unfold body pieces
  dsimp only
  rw [hType, hArgument]
  simp only [bind, Except.bind, pure, Except.pure, piece_append hFits rfl, List.flatten_cons,
    List.flatten_nil, List.append_nil]

theorem body_text {s : String} (hFits : (Bytes.ofText s).length ≤ maxLength) (suffix : Bytes) :
    body nested fixed (encode (.text s) ++ suffix) = .ok (.text s, suffix) := by
  have hCount : (Bytes.ofText s).length < 2 ^ 64 := by
    unfold maxLength at hFits
    omega
  have hJoin : String.join [s] = s := by simp [String.join]
  obtain ⟨b, rest, hHead, hType, hArgument⟩ :=
    head_spec (show 3 < 8 by decide) hCount (Bytes.ofText s ++ suffix)
  rw [encode_text, List.append_assoc, hHead]
  unfold body pieces
  dsimp only
  rw [hType, hArgument]
  simp only [bind, Except.bind, pure, Except.pure, piece_append hFits (Bytes.toText?_ofText s), hJoin]

theorem encode_wide {n : Nat} (hBeyond : 2 ^ 64 ≤ n) :
    encode (.int n) = head 6 2 ++ encode (.bytes (Der.minimal n)) := by
  rw [encode_int]
  exact if_neg (Nat.not_lt.mpr hBeyond)

theorem encode_wideNegative {n : Nat} (hBeyond : 2 ^ 64 ≤ n) :
    encode (.int (.negSucc n)) = head 6 3 ++ encode (.bytes (Der.minimal n)) := by
  rw [encode_int]
  exact if_neg (Nat.not_lt.mpr hBeyond)

/-- A number of more than 64 bits is written as the octets that hold it, under one of two tags. -/
theorem body_wide {reader : Reader} {tag : Nat} {v : Value} {octets : Bytes} (hTag : tag = 2 ∨ tag = 3)
    (hMeaning : meaning? fixed tag (.bytes octets) = some v)
    (hOctets : ∀ suffix, reader true (encode (.bytes octets) ++ suffix) = .ok (.bytes octets, suffix))
    (suffix : Bytes) :
    body (some reader) fixed (head 6 tag ++ encode (.bytes octets) ++ suffix) = .ok (v, suffix) := by
  obtain ⟨b, rest, hHead, hType, hArgument⟩ := head_spec (show 6 < 8 by decide)
    (show tag < 2 ^ 64 by omega) (encode (.bytes octets) ++ suffix)
  have hOpaque : tag ≠ transparentTag := by
    unfold transparentTag
    omega
  rw [List.append_assoc, hHead]
  unfold body tagged definite
  dsimp only
  rw [hType, hArgument]
  simp only [bind, Except.bind, pure, Except.pure, within, if_neg hOpaque, hOctets, hMeaning]

theorem meaning?_minimal (n : Nat) :
    meaning? fixed 2 (.bytes (Der.minimal n)) = some (.int n) ∧
      meaning? fixed 3 (.bytes (Der.minimal n)) = some (.int (.negSucc n)) := by
  have hNegative : -1 - (n : Int) = .negSucc n := by omega
  simp [meaning?, Bytes.foldBE_eq, Der.toNatBE_minimal, hNegative]

theorem body_list {reader : Reader} {vs : List Value} (hCount : vs.length < 2 ^ 64)
    (hEach : ∀ v ∈ vs, ∀ suffix, reader fixed (encode v ++ suffix) = .ok (v, suffix))
    (suffix : Bytes) :
    body (some reader) fixed (encode (.list fixed vs) ++ suffix) = .ok (.list fixed vs, suffix) := by
  obtain ⟨b, rest, hHead, hType, hArgument⟩ :=
    head_spec (show 4 < 8 by decide) hCount (encodeItems vs ++ suffix)
  rw [encode_list, List.append_assoc, hHead]
  unfold body list
  dsimp only
  rw [hType, hArgument]
  cases vs with
  | nil => rfl
  | cons v vs =>
    have hItems := items_encode hEach [] suffix
    simp only [bind, Except.bind, pure, Except.pure, within, List.length_cons] at hItems ⊢
    rw [hItems]
    rfl

theorem body_map {reader : Reader} {es : Entries} (hCount : es.length < 2 ^ 64)
    (hKeys : ∀ e ∈ es, ∀ suffix, reader true (encode e.1 ++ suffix) = .ok (e.1, suffix))
    (hValues : ∀ e ∈ es, ∀ suffix, reader fixed (encode e.2 ++ suffix) = .ok (e.2, suffix))
    (hDistinct : (es.map Prod.fst).Pairwise fun k k' => Value.same k k' = false) (suffix : Bytes) :
    body (some reader) fixed (encode (.map fixed es) ++ suffix) = .ok (.map fixed es, suffix) := by
  obtain ⟨b, rest, hHead, hType, hArgument⟩ :=
    head_spec (show 5 < 8 by decide) hCount (encodeEntries es ++ suffix)
  rw [encode_map, List.append_assoc, hHead]
  unfold body map
  dsimp only
  rw [hType, hArgument]
  cases es with
  | nil => rfl
  | cons e es =>
    have hNew : ∀ old ∈ ([] : Entries), ∀ e' ∈ e :: es, Value.same old.1 e'.1 = false :=
      fun _ hNone => (List.not_mem_nil hNone).elim
    have hEntries := entries_encode hKeys hValues hDistinct hNew suffix
    simp only [bind, Except.bind, pure, Except.pure, within, List.length_cons] at hEntries ⊢
    rw [hEntries]
    rfl

end Bodies

theorem Restorable.itemWithin_encode {fixed : Bool} {depth : Nat} {v : Value}
    (h : Restorable fixed depth v) (suffix : Bytes) :
    itemWithin depth fixed (encode v ++ suffix) = .ok (v, suffix) := by
  induction h generalizing suffix with
  | @int fixed depth n least below => cases depth <;> exact body_int least below suffix
  | @wide fixed depth n beyond fits =>
    rw [encode_wide beyond]
    refine body_wide (.inl rfl) (meaning?_minimal n).1 ?_ suffix
    intro suffix
    cases depth <;> exact body_bytes fits suffix
  | @wideNegative fixed depth n beyond fits =>
    rw [encode_wideNegative beyond]
    refine body_wide (.inr rfl) (meaning?_minimal n).2 ?_ suffix
    intro suffix
    cases depth <;> exact body_bytes fits suffix
  | @bytes fixed depth bs fits => cases depth <;> exact body_bytes fits suffix
  | @text fixed depth s fits => cases depth <;> exact body_text fits suffix
  | list count each ih => exact body_list count ih suffix
  | map count distinct keys values ihKeys ihValues =>
    exact body_map count ihKeys ihValues distinct suffix

theorem Restorable.decode_encode {v : Value} (h : Restorable false maxNesting v) :
    decode (encode v) = .ok (v, []) := by
  have hRead := h.itemWithin_encode []
  rw [List.append_nil] at hRead
  exact hRead

/-! ## Lengths -/

/-- An item that is read back if all that is written for it fits into one string. -/
def Recoverable (fixed : Bool) (depth : Nat) (v : Value) : Prop :=
  (encode v).length ≤ maxLength → Restorable fixed depth v

theorem length_le_encodeItems {v : Value} {vs : List Value} (h : v ∈ vs) :
    (encode v).length ≤ (encodeItems vs).length := by
  induction vs with
  | nil => cases h
  | cons first vs ih =>
    rw [encodeItems_cons, List.length_append]
    rcases List.mem_cons.mp h with rfl | hLater
    · omega
    · have := ih hLater
      omega

theorem length_le_encodeEntries {e : Value × Value} {es : Entries} (h : e ∈ es) :
    (encode e.1).length + (encode e.2).length ≤ (encodeEntries es).length := by
  induction es with
  | nil => cases h
  | cons first es ih =>
    rw [encodeEntries_cons, List.length_append, List.length_append]
    rcases List.mem_cons.mp h with rfl | hLater
    · omega
    · have := ih hLater
      omega

namespace Recoverable

variable {fixed : Bool} {depth : Nat}

theorem int (n : Int) : Recoverable fixed (depth + 1) (.int n) := by
  intro h
  cases n with
  | ofNat m =>
    rw [Int.ofNat_eq_natCast] at h ⊢
    by_cases hNarrow : m < 2 ^ 64
    · exact .int (by omega) (by omega)
    · rw [encode_wide (by omega), encode_bytes] at h
      simp only [List.length_append] at h
      exact .wide (by omega) (by omega)
  | negSucc m =>
    by_cases hNarrow : m < 2 ^ 64
    · exact .int (by omega) (by omega)
    · rw [encode_wideNegative (by omega), encode_bytes] at h
      simp only [List.length_append] at h
      exact .wideNegative (by omega) (by omega)

theorem bytes (bs : Bytes) : Recoverable fixed depth (.bytes bs) := by
  intro h
  rw [encode_bytes, List.length_append] at h
  exact .bytes (by omega)

theorem text (s : String) : Recoverable fixed depth (.text s) := by
  intro h
  rw [encode_text, List.length_append] at h
  exact .text (by omega)

theorem list {vs : List Value} (count : vs.length < 2 ^ 64) (each : ∀ v ∈ vs, Recoverable fixed depth v) :
    Recoverable fixed (depth + 1) (.list fixed vs) := by
  intro h
  rw [encode_list, List.length_append] at h
  refine .list count fun v hMem => each v hMem ?_
  have := length_le_encodeItems hMem
  omega

theorem map {es : Entries} (count : es.length < 2 ^ 64)
    (distinct : (es.map Prod.fst).Pairwise fun k k' => Value.same k k' = false)
    (keys : ∀ e ∈ es, Recoverable true depth e.1) (values : ∀ e ∈ es, Recoverable fixed depth e.2) :
    Recoverable fixed (depth + 1) (.map fixed es) := by
  intro h
  rw [encode_map, List.length_append] at h
  have hParts : ∀ e ∈ es, (encode e.1).length ≤ maxLength ∧ (encode e.2).length ≤ maxLength := by
    intro e hMem
    have := length_le_encodeEntries hMem
    omega
  exact .map count distinct (fun e hMem => keys e hMem (hParts e hMem).1)
    fun e hMem => values e hMem (hParts e hMem).2

end Recoverable

end Cbor

end TenantVault
