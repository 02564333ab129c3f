import TenantVault.Proofs.Accepted
import TenantVault.Proofs.Writes

/-! # Payloads that are stored

What a setting holds has passed the checks of its kind when it was written: a payload beside a key is an
encrypted message, and so is the key; one without a key is a single data item, of the type that the
setting declares. An update can change the kind of a setting, and the limit of a namespace can be lowered,
but what has been stored stays well formed, in the archive too.
-/

namespace TenantVault

namespace Payload

/-- A payload and the key beside it are well formed for their kind. -/
structure Formed (contentType : Json) (payload dataKey : Option Bytes) : Prop where
  typed : contentType = .null ∨ ∃ major, contentType = .int major
  size : ∀ p, payload = some p → p.length ≤ maxPayloadSize
  keyed : ∀ d, dataKey = some d → ∃ m, Cose.Encrypted.parse d = .ok m
  encrypted : ∀ p, payload = some p → dataKey.isSome = true → ∃ m, Cose.Encrypted.parse p = .ok m
  plain : ∀ p, payload = some p → dataKey = none → ∃ v, Cbor.decode p = .ok (v, [])
  major : ∀ p major, payload = some p → dataKey = none → contentType = .int major →
    majorType p = major

/-! ## Checks -/

section Checks

variable {payload : Bytes} {limit : Int}

theorem decodeWhole_eq_ok_iff (what : Document) (v : Cbor.Value) :
    Cose.decodeWhole what payload = .ok v ↔ Cbor.decode payload = .ok (v, []) := by
  unfold Cose.decodeWhole
  cases Cbor.decode payload with
  | error fault => exact ⟨nofun, nofun⟩
  | ok parts =>
    obtain ⟨v', rest⟩ := parts
    cases rest <;> simp

theorem declaredType_int {major : Int} {declared : Option Int}
    (h : declaredType (.int major) = .ok declared) : declared = some major := by
  unfold declaredType at h
  dsimp only at h
  split at h
  · next found hFind =>
    have hSame := List.find?_some hFind
    rw [Json.isInt_int, decide_eq_true_iff] at hSame
    cases h
    rw [hSame]
  · cases h

theorem decodePlain_spec {contentType : Json} {v : Cbor.Value} (hLimit : 0 < limit)
    (h : decodePlain (.int limit) payload contentType = .ok v) :
    payload.length ≤ limit ∧ Cbor.decode payload = .ok (v, []) ∧
      ∀ major, contentType = .int major → majorType payload = major := by
  unfold decodePlain at h
  simp only [bind_eq_ok_iff, exists_unit_iff] at h
  obtain ⟨hSize, declared, hDeclared, h⟩ := h
  cases hEmpty : payload.isEmpty with
  | true =>
    simp only [hEmpty, ↓reduceIte] at h
    cases h
  | false =>
    simp only [hEmpty, Bool.false_eq_true, ↓reduceIte, bind_eq_ok_iff] at h
    obtain ⟨v', hDecoded, h⟩ := h
    rw [decodeWhole_eq_ok_iff] at hDecoded
    have hMajor : v' = v ∧ ∀ major, declared = some major → majorType payload = major := by
      cases declared with
      | none =>
        cases h
        exact ⟨rfl, nofun⟩
      | some major =>
        dsimp only at h
        split at h
        · cases h
        · next hSame =>
          cases h
          refine ⟨rfl, ?_⟩
          rintro _ ⟨⟩
          exact of_not_not hSame
    obtain ⟨rfl, hMajor⟩ := hMajor
    refine ⟨(checkSize_eq_ok_iff hLimit).mp hSize, hDecoded, ?_⟩
    rintro major rfl
    exact hMajor major (declaredType_int hDeclared)

theorem checkEncrypted_spec (hLimit : 0 < limit)
    (h : checkEncrypted (.int limit) payload = .ok ()) :
    payload.length ≤ limit ∧ ∃ m, Cose.Encrypted.parse payload = .ok m := by
  simp only [checkEncrypted, bind_eq_ok_iff, exists_unit_iff] at h
  obtain ⟨hSize, m, hParsed, -⟩ := h
  exact ⟨(checkSize_eq_ok_iff hLimit).mp hSize, m, hParsed⟩

theorem checkDataKey_spec {dataKey : Option Bytes} (h : Tables.checkDataKey dataKey = .ok ()) :
    ∀ d, dataKey = some d → ∃ m, Cose.Encrypted.parse d = .ok m := by
  rintro d rfl
  simp only [Tables.checkDataKey, bind_eq_ok_iff] at h
  obtain ⟨m, hParsed, -⟩ := h
  exact ⟨m, hParsed⟩

end Checks

section Formation

variable {contentType : Json} {dataKey : Option Bytes}

theorem formed_none (hTyped : contentType = .null ∨ ∃ major, contentType = .int major)
    (hKeyed : ∀ d, dataKey = some d → ∃ m, Cose.Encrypted.parse d = .ok m) :
    Formed contentType none dataKey where
  typed := hTyped
  size := nofun
  keyed := hKeyed
  encrypted := nofun
  plain := nofun
  major := nofun

theorem formed_some {payload : Bytes} {limit : Int}
    (hTyped : contentType = .null ∨ ∃ major, contentType = .int major)
    (hKeyed : ∀ d, dataKey = some d → ∃ m, Cose.Encrypted.parse d = .ok m)
    (hLimit : IsPayloadLimit limit)
    (hFits : Tables.checkPayload (.int limit) payload dataKey.isSome contentType = .ok ()) :
    Formed contentType (some payload) dataKey := by
  obtain ⟨hPositive, hLargest⟩ := hLimit
  cases dataKey with
  | none =>
    simp only [Tables.checkPayload, Option.isSome_none, Bool.false_eq_true, ↓reduceIte,
      bind_eq_ok_iff] at hFits
    obtain ⟨v, hDecoded, -⟩ := hFits
    obtain ⟨hSize, hItem, hMajor⟩ := decodePlain_spec hPositive hDecoded
    refine ⟨hTyped, ?_, hKeyed, ?_, ?_, ?_⟩
    · rintro _ ⟨⟩
      omega
    · rintro _ _ ⟨⟩
    · rintro _ ⟨⟩ -
      exact ⟨v, hItem⟩
    · rintro _ major ⟨⟩ - hDeclared
      exact hMajor major hDeclared
  | some d =>
    obtain ⟨hSize, hParsed⟩ := checkEncrypted_spec hPositive hFits
    refine ⟨hTyped, ?_, hKeyed, ?_, ?_, ?_⟩
    · rintro _ ⟨⟩
      omega
    · rintro _ ⟨⟩ -
      exact hParsed
    · rintro _ _ ⟨⟩
    · rintro _ _ _ ⟨⟩

/-- No item and no message is of no octets. -/
theorem Formed.ne_nil {payload : Option Bytes} {p : Bytes} (h : Formed contentType payload dataKey)
    (hPayload : payload = some p) : p ≠ [] := by
  rintro rfl
  cases dataKey with
  | none =>
    obtain ⟨v, hItem⟩ := h.plain [] hPayload rfl
    cases hItem
  | some d =>
    obtain ⟨m, hParsed⟩ := h.encrypted [] hPayload rfl
    cases hParsed

end Formation

end Payload

/-! ## Tables -/

/-- What the tables hold is well formed, and every namespace has a limit. -/
structure Tables.Formed (t : Tables) : Prop where
  limits : ∀ name ns, t.namespaces.get? name = some ns →
    ∃ limit, ns.maxPayloadSize = .int limit ∧ IsPayloadLimit limit
  live : ∀ k s, t.settings.get? k = some s → Payload.Formed s.contentType s.payload s.dataKey
  archived : ∀ k s a, t.settings.get? k.current = some s → t.archived.get? k = some a →
    Payload.Formed s.contentType a.payload a.dataKey

theorem World.formed_ofConfig (c : Config) : (World.ofConfig c).tables.Formed where
  limits := by
    intro name ns hFound
    cases hFound
  live := by
    intro k s hFound
    cases hFound
  archived := by
    intro k s a hFound
    cases hFound

section Preservation

variable {t t' : Tables} {now : Int} {o : Operation} {r : Result Answer} {k : StoredKey} {s s' : Setting}

theorem NamespaceWrite.limit {name : Scalar} {ns : Namespace} (h : NamespaceWrite now t name o ns)
    (hAccepted : o.Accepted)
    (hLimits : ∀ ns, t.namespaces.get? name = some ns →
      ∃ limit, ns.maxPayloadSize = .int limit ∧ IsPayloadLimit limit) :
    ∃ limit, ns.maxPayloadSize = .int limit ∧ IsPayloadLimit limit := by
  cases h with
  | @created caller input =>
    obtain ⟨fields, hRead⟩ := hAccepted
    refine ⟨_, rfl, ?_⟩
    cases hSize : input.maxPayloadSize with
    | none => exact ⟨by decide, le_rfl⟩
    | some n => exact (NewNamespace.fit_of_fields hRead).maxPayloadSize n hSize
  | @changed caller input ns found =>
    obtain ⟨fields, hRead⟩ := hAccepted
    unfold NamespaceChange.row
    cases hSize : input.maxPayloadSize with
    | none => exact hLimits ns found
    | some n => exact ⟨n, rfl, (NamespaceChange.fit_of_fields hRead).maxPayloadSize n hSize⟩
  | @regrouped caller text kind d ps ns proper found =>
    have hSame : (kind.row d ps ns now).maxPayloadSize = ns.maxPayloadSize := by cases kind <;> rfl
    rw [hSame]
    exact hLimits ns found
  | toppedUp _ found | joined found | left found | counted _ found =>
    have hBefore := hLimits _ found
    exact hBefore

theorem SettingWrite.contentType (h : SettingWrite now t k o s') (hFound : t.settings.get? k = some s) :
    s'.contentType = s.contentType := by
  cases h with
  | created at_ fresh =>
    rw [fresh] at hFound
    cases hFound
  | updated _ found | described found | regrouped _ found =>
    rw [found] at hFound
    cases hFound
    rfl

theorem SettingWrite.formed (h : SettingWrite now t k o s) (hFormed : t.Formed) :
    Payload.Formed s.contentType s.payload s.dataKey := by
  cases h with
  | @created caller path input ns at_ fresh housed keyFits payloadFits =>
    obtain ⟨limit, hLimit, hFits⟩ := hFormed.limits _ ns housed
    have hKeyed := Payload.checkDataKey_spec keyFits
    have hTyped : input.declaredType = .null ∨ ∃ major, input.declaredType = .int major := by
      unfold NewSetting.declaredType
      cases input.contentType with
      | none => exact Or.inl rfl
      | some major => exact Or.inr ⟨major, rfl⟩
    unfold NewSetting.row
    dsimp only
    cases hPayload : input.payload with
    | none => exact Payload.formed_none hTyped hKeyed
    | some payload =>
      have hChecked := payloadFits payload hPayload
      rw [hLimit] at hChecked
      exact Payload.formed_some hTyped hKeyed hFits hChecked
  | @updated caller path input ns s version at_ found housed next keyFits payloadFits =>
    obtain ⟨limit, hLimit, hFits⟩ := hFormed.limits _ ns housed
    have hBefore := hFormed.live k s found
    rw [hLimit] at payloadFits
    refine Payload.formed_some hBefore.typed ?_ hFits payloadFits
    -- A key that is not given is the one that the setting has had.
    intro d hKey
    rcases Option.or_eq_some_iff.mp hKey with hGiven | ⟨-, hKept⟩
    · exact Payload.checkDataKey_spec keyFits d hGiven
    · exact hBefore.keyed d hKept
  | described found | regrouped _ found =>
    have hBefore := hFormed.live k _ found
    exact hBefore

theorem Commit.formed (h : Commit now t o t' r) (hAccepted : o.Accepted) (hWhole : t.Whole)
    (hFormed : t.Formed) : t'.Formed where
  limits := by
    intro name ns hFound
    rcases h.namespace_cases hFound with hBefore | hWrite
    · exact hFormed.limits name ns hBefore
    · exact hWrite.limit hAccepted (hFormed.limits name)
  live := by
    intro k s hFound
    rcases h.setting_cases hFound with hBefore | hWrite
    · exact hFormed.live k s hBefore
    · exact hWrite.formed hFormed
  archived := by
    intro k s a hLive hFound
    -- Whatever was or becomes archived, its setting was live before and has kept its type.
    have hType {s' : Setting} (hBefore : t.settings.get? k.current = some s') :
        s.contentType = s'.contentType := by
      rcases h.setting_cases hLive with hSame | hWrite
      · rw [hBefore] at hSame
        cases hSame
        rfl
      · exact hWrite.contentType hBefore
    rcases h.archived_cases hFound with hArchived | hWrite
    · obtain ⟨s', hBefore⟩ := hWhole.live_of_archived hArchived
      rw [hType hBefore]
      exact hFormed.archived k s' a hBefore hArchived
    · obtain ⟨s', deprecated, hBefore, rfl⟩ := hWrite.superseded
      rw [hType hBefore]
      exact hFormed.live _ s' hBefore

theorem Snapshot.SameContents.formed (h : SameContents t t') (hFormed : t.Formed) : t'.Formed where
  limits := by
    rw [h.namespaces]
    exact hFormed.limits
  live := by
    intro k s hFound
    rw [Table.get?_of_perm h.settings] at hFound
    exact hFormed.live k s hFound
  archived := by
    intro k s a hLive hFound
    rw [Table.get?_of_perm h.settings] at hLive
    rw [Table.get?_of_perm h.archived] at hFound
    exact hFormed.archived k s a hLive hFound

end Preservation

/-! ## States of a service -/

namespace Server

theorem Lived.formed {service : Principal} {begun : Config → Prop} {asked : Int → Operation → Prop}
    {s : Server} (hAccepted : ∀ now o, asked now o → o.Accepted) (h : Lived service begun asked s) :
    s.world.tables.Formed := by
  refine h.holds (fun c _ => World.formed_ofConfig c) ?_ fun t t' hSame => hSame.formed
  intro now o t t' r hAsked hWhole commit
  exact commit.formed (hAccepted now o hAsked) hWhole

/-- Every live setting and every archived version of it is well formed for its kind, in every state that
a service gets into from empty tables. -/
theorem stored_data_well_formed {service : Principal} {begun : Config → Prop}
    {asked : Int → Operation → Prop} (hAccepted : ∀ now o, asked now o → o.Accepted) {s : Server}
    (h : Lived service begun asked s) :
    ∀ row ∈ s.world.tables.settings.rows,
      Payload.Formed row.2.contentType row.2.payload row.2.dataKey ∧
      ∀ old ∈ s.world.tables.archived.rows, (old.1.current == row.1) = true →
        Payload.Formed row.2.contentType old.2.payload old.2.dataKey := by
  have hFormed := h.formed hAccepted
  intro row hRow
  have hLive := Table.get?_of_mem hRow
  refine ⟨hFormed.live row.1 row.2 hLive, ?_⟩
  intro old hOld hCurrent
  rw [← Table.get?_congr _ hCurrent] at hLive
  exact hFormed.archived old.1 row.2 old.2 hLive (Table.get?_of_mem hOld)

namespace Sample

theorem configured_formed :
    (∀ now o, (fun _ o => Operation.Accepted o) (now : Int) o → o.Accepted) ∧
      Lived owner Config.Valid (fun _ o => o.Accepted) configured ∧
      ∀ row ∈ configured.world.tables.settings.rows,
        Payload.Formed row.2.contentType row.2.payload row.2.dataKey ∧
        ∀ old ∈ configured.world.tables.archived.rows, (old.1.current == row.1) = true →
          Payload.Formed row.2.contentType old.2.payload old.2.dataKey := by
  have hAccepted : ∀ now o, (fun _ o => Operation.Accepted o) (now : Int) o → o.Accepted :=
    fun _ _ h => h
  exact ⟨hAccepted, configured_lived, stored_data_well_formed hAccepted configured_lived⟩

end Sample

end Server

end TenantVault
