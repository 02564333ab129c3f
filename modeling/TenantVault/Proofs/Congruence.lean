import TenantVault.Proofs.Segments

/-! # Calls in related worlds

A call that waits depends on the worlds in which it runs only through what it looks up there. So if a
relation of worlds is one under which these looks give the same, and a relation of outcomes is closed
under asking and drawing, then the call in one world is related to the same call in another. This is shown
here of every call that waits and writes nothing.
-/

namespace TenantVault

open Access

namespace Outcome

variable {α β : Type} {R : World → World → Prop}

/-- A relation of outcomes that contains equal results in related worlds, and equal requests whose
continuations are related whenever they go on with the same reply in related worlds. -/
structure Congruence (R : World → World → Prop) (T : ∀ {α : Type}, Outcome α → Outcome α → Prop) :
    Prop where
  done {α : Type} {w w' : World} (hw : R w w') (r : Result α) : T (done w r) (done w' r)
  ask {α : Type} {q : Request} {resume resume' : World → Reply → Outcome α}
    (h : ∀ w w' reply, R w w' → T (resume w reply) (resume' w' reply)) : T (ask q resume) (ask q resume')
  draw {α : Type} {size : Nat} {resume resume' : World → Bytes → Outcome α}
    (h : ∀ w w' octets, R w w' → T (resume w octets) (resume' w' octets)) :
    T (draw size resume) (draw size resume')

/-- A look at the tables gives the same in related worlds. -/
def SameLook (R : World → World → Prop) (f : Tables → β) : Prop :=
  ∀ w w', R w w' → f w.tables = f w'.tables

namespace Congruence

variable {T : ∀ {α : Type}, Outcome α → Outcome α → Prop} (hT : Congruence R T) {w w' : World}

include hT

theorem after {r r' : Result β} (hw : R w w') (hr : r = r') {next next' : β → Outcome α}
    (hNext : ∀ b, T (next b) (next' b)) : T (Outcome.after w r next) (Outcome.after w' r' next') := by
  subst hr
  cases r with
  | error why => exact hT.done hw _
  | ok b => exact hNext b

theorem request {q : Request} {next next' : World → Bytes → Outcome α}
    (hNext : ∀ w w' octets, R w w' → T (next w octets) (next' w' octets)) :
    T (Outcome.request q next) (Outcome.request q next') := by
  refine hT.ask fun w w' reply hw => ?_
  cases reply with
  | error refusal => exact hT.done hw _
  | ok octets => exact hNext w w' octets hw

theorem query {f : Tables → Result α} (hw : R w w') (hf : f w.tables = f w'.tables) :
    T (Call.query f w) (Call.query f w') :=
  hT.after hw hf fun _ => hT.done hw _

end Congruence

end Outcome

section Calls

open Outcome

variable {α : Type} {R : World → World → Prop} {T : ∀ {α : Type}, Outcome α → Outcome α → Prop}
  (hT : Congruence R T) {w w' : World} {caller : Principal} {key : SettingKey} {name : String}

include hT

namespace Keys

theorem related_settingKey (key : SettingKey) (keyId : Bytes) (hw : R w w')
    {next next' : World → Bytes → Outcome α}
    (hNext : ∀ w w' secret, R w w' → T (next w secret) (next' w' secret)) :
    T (settingKey key keyId w next) (settingKey key keyId w' next') :=
  hT.after hw rfl fun _ => hT.after hw rfl fun _ => hT.request fun w w' _ hw => hNext w w' _ hw

theorem related_exchange (input : ExchangeRequest) (hw : R w w')
    {next next' : World → KeyExchange.Agreement → Outcome α}
    (hNext : ∀ w w' agreement, R w w' → T (next w agreement) (next' w' agreement)) :
    T (exchange input w next) (exchange input w' next') :=
  hT.after hw rfl fun _ => hT.draw fun w w' _ hw => hT.after hw rfl fun agreement => hNext w w' agreement hw

theorem related_encryptedKey (path : SettingPath) (input : ExchangeRequest)
    (hAllowed : SameLook R (allowed · caller "ecdh_cose_encrypted_key"))
    (hHolder : SameLook R (keyHolder · caller (path.toKey caller))) (hw : R w w') :
    T (encryptedKey caller path input w) (encryptedKey caller path input w') := by
  refine hT.after hw (hAllowed w w' hw) fun _ => hT.after hw (hHolder w w' hw) fun _ => ?_
  refine related_settingKey hT _ _ hw fun w w' secret hw => ?_
  refine related_exchange hT input hw fun w w' agreement hw => hT.after hw ?_ fun sealed => hT.done hw _
  have hAgain : keyHolder w.tables caller (path.toKey caller) =
      keyHolder w'.tables caller (path.toKey caller) := hHolder w w' hw
  rw [hAgain]

theorem related_plainPayload (hHolder : SameLook R (keyHolder · caller key)) (payload : Bytes)
    (dataKey : Option Bytes) (hw : R w w') {next next' : World → Bytes → Outcome α}
    (hNext : ∀ w w' plain, R w w' → T (next w plain) (next' w' plain)) :
    T (plainPayload caller key payload dataKey w next) (plainPayload caller key payload dataKey w' next') := by
  cases dataKey with
  | none => exact hNext w w' payload hw
  | some dataKey =>
    refine hT.after hw (hHolder w w' hw) fun _ => related_settingKey hT _ _ hw fun w w' secret hw => ?_
    refine hT.after hw ?_ fun plain => hNext w w' plain hw
    have hAgain : keyHolder w.tables caller key = keyHolder w'.tables caller key := hHolder w w' hw
    rw [hAgain]

/-- The setting is read as the call begins, and later only its version is looked at. -/
theorem related_encryptedSetting (path : SettingPath) (input : ExchangeRequest)
    (hAllowed : SameLook R (allowed · caller "ecdh_setting_get"))
    (hHolder : SameLook R (keyHolder · caller (path.toKey caller)))
    (hInfo : SameLook R (·.getSettingInfo caller (path.toKey caller))) (hw : R w w')
    (hRead : w.tables.readSetting caller (path.toKey caller) =
      w'.tables.readSetting caller (path.toKey caller)) :
    T (encryptedSetting caller path input w) (encryptedSetting caller path input w') := by
  refine hT.after hw (hAllowed w w' hw) fun _ => hT.after hw hRead fun info => ?_
  cases info.payload with
  | none => exact hT.done hw _
  | some payload =>
    refine related_plainPayload hT hHolder payload info.dataKey hw fun w w' plain hw => ?_
    refine related_exchange hT input hw fun w w' agreement hw => hT.after hw ?_ fun sealed => hT.done hw _
    have hCurrent : w.tables.getSettingInfo caller (path.toKey caller) =
        w'.tables.getSettingInfo caller (path.toKey caller) := hInfo w w' hw
    rw [hCurrent]

theorem related_servicePublicKey (path : SettingPath)
    (hReadable : SameLook R (readable · caller (path.toKey caller).ns)) (hw : R w w') :
    T (servicePublicKey caller path w) (servicePublicKey caller path w') :=
  hT.after hw (hReadable w w' hw) fun _ => hT.after hw rfl fun _ => hT.request fun _ _ _ hw => hT.done hw _

theorem related_serviceKey (path : SettingPath) (transportKey : Bytes)
    (hAllowed : SameLook R (allowed · caller "vetkd_encrypted_key"))
    (hHolder : SameLook R (keyHolder · caller (path.toKey caller))) (hw : R w w') :
    T (serviceKey caller path transportKey w) (serviceKey caller path transportKey w') := by
  refine hT.after hw (hAllowed w w' hw) fun _ => hT.after hw (hHolder w w' hw) fun _ => ?_
  refine hT.after hw rfl fun _ => hT.request fun w w' octets hw => ?_
  exact hT.after hw (hHolder w w' hw) fun _ => hT.done hw _

end Keys

namespace Signatures

theorem related_namespacePublicKey (path : List Bytes) (hReadable : SameLook R (readable · caller name))
    (hw : R w w') : T (namespacePublicKey caller name path w) (namespacePublicKey caller name path w') :=
  hT.after hw (hReadable w w' hw) fun _ => hT.request fun _ _ _ hw => hT.done hw _

theorem related_namespaceSign (path : List Bytes) (message : Bytes)
    (hSigning : SameLook R (signing · caller name)) (hw : R w w') :
    T (namespaceSign caller name path message w) (namespaceSign caller name path message w') := by
  refine hT.after hw ?_ fun _ => hT.request fun w w' signature hw => ?_
  · exact congrArg (authenticated caller >>= fun _ => ·) (hSigning w w' hw)
  · exact hT.after hw (hSigning w w' hw) fun _ => hT.done hw _

theorem related_identityPublicKey (w w' : World) : T (identityPublicKey w) (identityPublicKey w') :=
  hT.request fun _ _ _ hw => hT.done hw _

theorem related_signIdentity (service : Principal) (audience : String) (now : Int)
    (hScope : SameLook R (tokenScope · caller name)) (hw : R w w') :
    T (signIdentity service caller name audience now w) (signIdentity service caller name audience now w') := by
  refine hT.after hw ?_ fun scope => hT.draw fun _ _ id _ => hT.request fun w w' signature hw => ?_
  · have hBegun : tokenScope w.tables caller name = tokenScope w'.tables caller name := hScope w w' hw
    rw [hBegun]
  · refine hT.after hw ?_ fun _ => hT.done hw _
    have hEnded : tokenScope w.tables caller name = tokenScope w'.tables caller name := hScope w w' hw
    rw [hEnded]

end Signatures

end Calls

end TenantVault
