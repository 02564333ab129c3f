import TenantVault.Service.Operation

/-! # Segments of a call

A call that waits runs in segments, each in the world that it finds when it goes on. `Each` says of
all segments of a call that end it how the world before and after them and the result are related,
whatever the replies were and whatever others have done to the world in between. What a call does to
the world is stated in this form, so it holds of every interleaving.
-/

namespace TenantVault.Outcome

variable {α β : Type}

/-- How the segments that end a call change the world; a segment that ends in a request changes
nothing. The world is the one in which the current segment began. -/
def Each (P : World → World → Result α → Prop) : Outcome α → World → Prop
  | done w' r, w => P w w' r
  | ask _ resume, _ => ∀ w reply, (resume w reply).Each P w
  | draw _ resume, _ => ∀ w octets, (resume w octets).Each P w

variable {P Q : World → World → Result α → Prop}

theorem Each.mono (hPQ : ∀ w w' r, P w w' r → Q w w' r) {o : Outcome α} {w : World}
    (h : o.Each P w) :
    o.Each Q w := by
  induction o generalizing w with
  | done w' r => exact hPQ w w' r h
  | ask q resume ih => exact fun w reply => ih w reply (h w reply)
  | draw size resume ih => exact fun w octets => ih w octets (h w octets)

/-- A call that nothing interrupts ends with one of its segments. -/
theorem Each.run {o : Outcome α} {w : World} (h : o.Each P w) (answer : Request → Reply)
    (random : Nat → Bytes) : P w (o.run answer random w).1 (o.run answer random w).2 := by
  induction o with
  | done w' r => exact h
  | ask q resume ih => exact ih w (answer q) (h w (answer q))
  | draw size resume ih => exact ih w (random size) (h w (random size))

theorem each_map_iff (f : α → β) (P : World → World → Result β → Prop) (o : Outcome α) (w : World) :
    (o.map f).Each P w ↔ o.Each (fun w w' r => P w w' (r.map f)) w := by
  induction o generalizing w with
  | done w' r => cases r <;> rfl
  | ask q resume ih => exact forall_congr' fun w => forall_congr' fun reply => ih w reply w
  | draw size resume ih => exact forall_congr' fun w => forall_congr' fun octets => ih w octets w

theorem each_after {w : World} {r : Result β} {next : β → Outcome α}
    (hError : ∀ why, r = .error why → P w w (.error why))
    (hOk : ∀ b, r = .ok b → (next b).Each P w) :
    (after w r next).Each P w := by
  cases r with
  | error why => exact hError why rfl
  | ok b => exact hOk b rfl

theorem each_request {q : Request} {next : World → Bytes → Outcome α} {w : World}
    (hError : ∀ w why, P w w (.error why)) (hOk : ∀ w octets, (next w octets).Each P w) :
    (request q next).Each P w := by
  intro w reply
  cases reply with
  | error refusal => exact hError w _
  | ok octets => exact hOk w octets

/-- A change of the tables. -/
theorem each_update {f : Tables → Result (Tables × α)} {w : World}
    (hError : ∀ why, P w w (.error why))
    (hOk : ∀ t a, f w.tables = .ok (t, a) → P w (w.withTables t) (.ok a)) :
    (Call.update f w).Each P w :=
  each_after (fun why _ => hError why) fun (t, a) h => hOk t a h

/-- A change of the tables after which the call may still fail. -/
theorem each_settle {f : Tables → Result (Tables × Result α)} {w : World}
    (hError : ∀ why, P w w (.error why))
    (hOk : ∀ t r, f w.tables = .ok (t, r) → P w (w.withTables t) r) : (Call.settle f w).Each P w :=
  each_after (fun why _ => hError why) fun (t, r) h => hOk t r h

/-- A call no segment of which changes anything. -/
abbrev Quiet (o : Outcome α) (w : World) : Prop := o.Each (fun w w' _ => w' = w) w

theorem quiet_query (f : Tables → Result α) (w : World) : (Call.query f w).Quiet w :=
  each_after (fun _ _ => rfl) fun _ _ => rfl

theorem quiet_fail (w : World) (why : Failure) : (fail w why : Outcome α).Quiet w := rfl

theorem quiet_finish (w : World) (a : α) : (finish w a).Quiet w := rfl

theorem Quiet.after {w : World} {r : Result β} {next : β → Outcome α} (h : ∀ b, (next b).Quiet w) :
    (Outcome.after w r next).Quiet w := each_after (fun _ _ => rfl) fun b _ => h b

theorem Quiet.request {q : Request} {next : World → Bytes → Outcome α} {w : World}
    (h : ∀ w octets, (next w octets).Quiet w) : (Outcome.request q next).Quiet w :=
  each_request (fun _ _ => rfl) h

theorem Quiet.draw {size : Nat} {resume : World → Bytes → Outcome α} {w : World}
    (h : ∀ w octets, (resume w octets).Quiet w) : (Outcome.draw size resume).Quiet w := h

theorem Quiet.map {o : Outcome α} {w : World} (f : α → β) (h : o.Quiet w) : (o.map f).Quiet w :=
  (each_map_iff f _ o w).mpr h

end TenantVault.Outcome

/-! ## Calls that only look -/

namespace TenantVault

open Outcome

namespace Signatures

theorem quiet_namespacePublicKey (caller : Principal) (ns : String) (path : List Bytes)
    (w : World) :
    (namespacePublicKey caller ns path w).Quiet w :=
  Quiet.after fun _ => Quiet.request quiet_finish

theorem quiet_namespaceSign (caller : Principal) (ns : String) (path : List Bytes)
    (message : Bytes) (w : World) :
    (namespaceSign caller ns path message w).Quiet w :=
  Quiet.after fun _ => Quiet.request fun w signature => Quiet.after fun _ =>
    quiet_finish w signature

theorem quiet_identityPublicKey (w : World) : (identityPublicKey w).Quiet w :=
  Quiet.request quiet_finish

theorem quiet_signIdentity (service caller : Principal) (ns audience : String) (now : Int)
    (w : World) :
    (signIdentity service caller ns audience now w).Quiet w :=
  Quiet.after fun _ => Quiet.draw fun _ _ => Quiet.request fun w _ => Quiet.after fun _ =>
    quiet_finish w _

theorem quiet_getDelegation (seed sessionKey : Bytes) (expiration : Int) (w : World) :
    (getDelegation seed sessionKey expiration w).Quiet w := Quiet.after (quiet_finish w)

end Signatures

namespace Keys

theorem quiet_settingKey {α : Type} (key : SettingKey) (keyId : Bytes) (w : World)
    {next : World → Bytes → Outcome α} (h : ∀ w secret, (next w secret).Quiet w) :
    (settingKey key keyId w next).Quiet w :=
  Quiet.after fun _ => Quiet.after fun _ => Quiet.request fun w _ => h w _

theorem quiet_exchange {α : Type} (input : ExchangeRequest) (w : World)
    {next : World → KeyExchange.Agreement → Outcome α}
    (h : ∀ w agreement, (next w agreement).Quiet w) :
    (exchange input w next).Quiet w :=
  Quiet.after fun _ => Quiet.draw fun w _ => Quiet.after (h w)

theorem quiet_encryptedKey (caller : Principal) (path : SettingPath) (input : ExchangeRequest)
    (w : World) :
    (encryptedKey caller path input w).Quiet w :=
  Quiet.after fun _ => Quiet.after fun _ => quiet_settingKey _ _ w fun w _ =>
    quiet_exchange input w fun w _ => Quiet.after fun _ => quiet_finish w _

theorem quiet_plainPayload {α : Type} (caller : Principal) (key : SettingKey) (payload : Bytes)
    (dataKey : Option Bytes) (w : World) {next : World → Bytes → Outcome α}
    (h : ∀ w plain, (next w plain).Quiet w) :
    (plainPayload caller key payload dataKey w next).Quiet w := by
  cases dataKey with
  | none => exact h w payload
  | some dataKey => exact Quiet.after fun _ => quiet_settingKey _ _ w fun w _ => Quiet.after (h w)

theorem quiet_encryptedSetting (caller : Principal) (path : SettingPath) (input : ExchangeRequest)
    (w : World) :
    (encryptedSetting caller path input w).Quiet w := by
  refine Quiet.after fun _ => Quiet.after fun info => ?_
  cases info.payload with
  | none => exact quiet_fail w _
  | some payload =>
    exact quiet_plainPayload _ _ _ _ w fun w _ => quiet_exchange input w fun w _ =>
      Quiet.after fun _ => quiet_finish w _

theorem quiet_servicePublicKey (caller : Principal) (path : SettingPath) (w : World) :
    (servicePublicKey caller path w).Quiet w :=
  Quiet.after fun _ => Quiet.after fun _ => Quiet.request quiet_finish

theorem quiet_serviceKey (caller : Principal) (path : SettingPath) (transportKey : Bytes)
    (w : World) :
    (serviceKey caller path transportKey w).Quiet w :=
  Quiet.after fun _ => Quiet.after fun _ => Quiet.after fun _ => Quiet.request fun w octets =>
    Quiet.after fun _ => quiet_finish w octets

end Keys

end TenantVault
