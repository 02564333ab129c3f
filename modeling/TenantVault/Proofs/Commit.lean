import TenantVault.Proofs.Access
import TenantVault.Proofs.Segments

/-! # What operations write

`Commit` lists everything that an operation can do to the tables, one case for each operation that
writes, with the conditions under which it gets that far. `Segment` adds the calls that are refused,
those that only answer, and the recording of a delegation. All that is said about runs of the
service is a case analysis on these two.
-/

namespace TenantVault

open Access

/-! ## The rows that are written -/

def NewNamespace.row (input : NewNamespace) (now : Int) : Namespace where
  name := .text input.name
  desc := .text (input.desc.getD "")
  createdAt := .int now
  updatedAt := .int now
  maxPayloadSize := .int (input.maxPayloadSize.getD TenantVault.maxPayloadSize)
  payloadBytes := .int 0
  status := .int 0
  visibility := .int input.visibility
  managers := input.managers
  auditors := input.auditors
  users := input.users
  delegators := .empty
  sessionLifetime := .int (input.sessionLifetime.getD Namespace.defaultSessionLifetime)
  gasBalance := 0

def NamespaceChange.row (input : NamespaceChange) (ns : Namespace) (now : Int) : Namespace :=
  { ns with
    desc := (input.desc.map .text).getD ns.desc
    maxPayloadSize := (input.maxPayloadSize.map .int).getD ns.maxPayloadSize
    status := (input.status.map .int).getD ns.status
    visibility := (input.visibility.map .int).getD ns.visibility
    sessionLifetime := (input.sessionLifetime.map .int).getD ns.sessionLifetime
    updatedAt := .int now }

def MemberKind.row (kind : MemberKind) (d : Direction) (ps : Principals) (ns : Namespace)
    (now : Int) : Namespace :=
  { ns.withMembers kind (d.apply (ns.members kind) ps) with updatedAt := .int now }

/-- The delegators under every name after some have joined one. -/
def DelegatorChange.joined (input : DelegatorChange) (ns : Namespace) : Table String Principals :=
  ns.delegators.put input.name
    (((ns.delegators.get? input.name).getD .empty).union input.delegators)

/-- The delegators under every name after some have left one. -/
def DelegatorChange.left (input : DelegatorChange) (ns : Namespace) : Table String Principals :=
  match ns.delegators.get? input.name with
  | none => ns.delegators
  | some ps =>
    let left := ps.diff input.delegators
    if left.isEmpty then ns.delegators.erase input.name else ns.delegators.put input.name left

def NewSetting.declaredType (input : NewSetting) : Json :=
  (input.contentType.map Json.int).getD .null

def NewSetting.row (input : NewSetting) (now : Int) : Setting where
  desc := .text (input.desc.getD "")
  createdAt := .int now
  updatedAt := .int now
  status := .int (input.status.getD Setting.readWrite)
  version := .int 1
  readers := .empty
  tags := tagObject (input.tags.getD .empty)
  contentType := input.declaredType
  payload := input.payload
  dataKey := input.dataKey

def PayloadChange.row (input : PayloadChange) (s : Setting) (version : Json) (now : Int) :
    Setting :=
  { s with
    status := (input.status.map .int).getD s.status
    payload := some input.payload
    dataKey := input.dataKey.or s.dataKey
    version
    updatedAt := .int now }

/-- The octets that a payload update adds to the count of its namespace. -/
def PayloadChange.written (input : PayloadChange) : Nat :=
  input.payload.length + (input.dataKey.getD []).length

def SettingChange.row (input : SettingChange) (s : Setting) (now : Int) : Setting :=
  { s with
    status := (input.status.map .int).getD s.status
    desc := (input.desc.map .text).getD s.desc
    tags := (input.tags.map tagObject).getD s.tags
    updatedAt := .int now }

/-- A group of governors after a change. -/
def Governance.changed (g : Governance) (kind : GovernorKind) (d : Direction) (ps : Principals) :
    Governance :=
  match kind with
  | .manager => { g with managers := d.apply g.managers ps }
  | .auditor => { g with auditors := d.apply g.auditors ps }

/-! ## The cases -/

/-- The caller manages a namespace that is not frozen. -/
structure Manages (t : Tables) (caller : Principal) (name : String) (ns : Namespace) : Prop where
  found : t.namespaces.get? (.text name) = some ns
  permitted : ns.canWrite caller = .ok true

/-- The caller may write the settings under a key. -/
structure Writes (t : Tables) (caller : Principal) (key : SettingKey) (ns : Namespace) : Prop where
  found : t.namespaces.get? (.text key.ns) = some ns
  permitted : ns.canWriteSetting caller key = true

/-- A version that is given is the current one. -/
def FitsVersion (key : SettingKey) (s : Setting) : Prop :=
  key.version = 0 ∨ s.version.isInt key.version = true

inductive Commit (now : Int) (t : Tables) : Operation → Tables → Result Answer → Prop
  | changeGovernors {caller kind d ps} (controls : caller ∈ t.governance.controllers)
      (proper : ps.fault? = none) :
      Commit now t (.changeGovernors caller kind d ps)
        { t with governance := t.governance.changed kind d ps }
        (.ok .nothing)
  | setAllowedApis {caller apis} (controls : caller ∈ t.governance.controllers) :
      Commit now t (.setAllowedApis caller apis)
        { t with governance := { t.governance with allowedApis := apiSet apis } } (.ok .nothing)
  | createNamespace {caller input} (known : caller.isAnonymous = false)
      (governs : caller ∈ t.governance.managers)
      (fresh : t.namespaces.get? (.text input.name) = none) :
      Commit now t (.createNamespace caller input) (t.putNamespace input.name (input.row now))
        (.ok (.namespaceInfo
          ((t.putNamespace input.name (input.row now)).namespaceInfo (input.row now))))
  | updateNamespace {caller input ns} (admits : Admits t "namespace_update_info" caller)
      (manages : Manages t caller input.name ns) :
      Commit now t (.updateNamespace caller input) (t.putNamespace input.name (input.row ns now))
        (.ok .nothing)
  | deleteNamespace {caller name ns} (admits : Admits t "namespace_delete" caller)
      (manages : Manages t caller name ns) (bare : t.countSettings (.text name) none = 0) :
      Commit now t (.deleteNamespace caller name)
        { t with namespaces := t.namespaces.erase (.text name) }
        (.ok .nothing)
  | changeMembers {caller name kind d ps ns} (admits : Admits t (Operation.memberApi kind d) caller)
      (proper : ps.fault? = none) (manages : Manages t caller name ns) :
      Commit now t (.changeMembers caller name kind d ps)
        (t.putNamespace name (kind.row d ps ns now))
        (.ok .nothing)
  | topUp {caller name amount ns} (admits : Admits t "namespace_top_up" caller)
      (positive : 0 < amount) (found : t.namespaces.get? (.text name) = some ns) :
      Commit now t (.topUp caller name amount)
        (t.putNamespace name
          { ns with gasBalance := ns.gasBalance + amount, updatedAt := .int now })
        (.ok (.number amount))
  | addDelegators {caller input ns} (admits : Admits t "namespace_add_delegator" caller)
      (manages : Manages t caller input.ns ns) :
      Commit now t (.changeDelegators caller .add input)
        (t.putNamespace input.ns { ns with delegators := input.joined ns, updatedAt := .int now })
        (.ok (.principals (((ns.delegators.get? input.name).getD .empty).union input.delegators)))
  | removeDelegators {caller input ns} (admits : Admits t "namespace_remove_delegator" caller)
      (manages : Manages t caller input.ns ns) :
      Commit now t (.changeDelegators caller .remove input)
        (t.putNamespace input.ns { ns with delegators := input.left ns, updatedAt := .int now })
        (.ok .nothing)
  | createSetting {caller path input ns} (admits : Admits t "setting_create" caller)
      (writes : Writes t caller (path.toKey caller) ns) (live : path.version = 0)
      (fresh : t.getSetting? (path.toKey caller) = none)
      (keyFits : Tables.checkDataKey input.dataKey = .ok ())
      (payloadFits : ∀ payload, input.payload = some payload →
        Tables.checkPayload ns.maxPayloadSize payload input.dataKey.isSome input.declaredType =
          .ok ()) :
      Commit now t (.createSetting caller path input)
        ((t.putSetting (path.toKey caller) (input.row now)).settle path.ns ns
          (ns.payloadBytes.plus (input.row now).size) (input.row now).stamp).1
        (((t.putSetting (path.toKey caller) (input.row now)).settle path.ns ns
          (ns.payloadBytes.plus (input.row now).size) (input.row now).stamp).2.map .stamp)
  | updatePayload {caller path input ns s version}
      (admits : Admits t "setting_update_payload" caller)
      (writes : Writes t caller (path.toKey caller) ns)
      (found : t.getSetting? (path.toKey caller) = some s)
      (readWrite : s.isReadWrite = true) (expected : s.version.isInt input.version = true)
      (next : s.version.plus 1 = .ok version) (keyFits : Tables.checkDataKey input.dataKey = .ok ())
      (payloadFits : Tables.checkPayload ns.maxPayloadSize input.payload
        (input.dataKey.or s.dataKey).isSome s.contentType = .ok ()) :
      Commit now t (.updatePayload caller path input)
        (((t.archivePayload (path.toKey caller) s input.deprecateCurrent now).putSetting
          (path.toKey caller) (input.row s version now)).settle path.ns ns
          (ns.payloadBytes.plus input.written) (input.row s version now).stamp).1
        ((((t.archivePayload (path.toKey caller) s input.deprecateCurrent now).putSetting
          (path.toKey caller) (input.row s version now)).settle path.ns ns
          (ns.payloadBytes.plus input.written) (input.row s version now).stamp).2.map .stamp)
  | updateSetting {caller path input ns s} (admits : Admits t "setting_update_info" caller)
      (writes : Writes t caller (path.toKey caller) ns)
      (found : t.getSetting? (path.toKey caller) = some s)
      (fits : FitsVersion (path.toKey caller) s)
      (open_ : s.isReadOnly = true → ∀ status, input.status = some status →
        s.status.isInt status = true) :
      Commit now t (.updateSetting caller path input)
        (t.putSetting (path.toKey caller) (input.row s now)) (.ok (.stamp (input.row s now).stamp))
  | changeReaders {caller path d readers ns s} (admits : Admits t (Operation.readerApi d) caller)
      (proper : readers.fault? = none) (writes : Writes t caller (path.toKey caller) ns)
      (found : t.getSetting? (path.toKey caller) = some s)
      (fits : FitsVersion (path.toKey caller) s)
      (open_ : s.isReadOnly = false) :
      Commit now t (.changeReaders caller path d readers)
        (t.putSetting (path.toKey caller)
          { s with readers := d.apply s.readers readers, updatedAt := .int now }) (.ok .nothing)
  | deleteSetting {caller path ns s} (admits : Admits t "setting_delete" caller)
      (writes : Writes t caller (path.toKey caller) ns)
      (found : t.getSetting? (path.toKey caller) = some s)
      (open_ : s.isReadOnly = false) :
      Commit now t (.deleteSetting caller path)
        ((t.removeSetting (path.toKey caller)).settle path.ns ns
          ((ns.payloadBytes.plus (-s.size)).map Json.atLeastZero) ()).1
        (((t.removeSetting (path.toKey caller)).settle path.ns ns
          ((ns.payloadBytes.plus (-s.size)).map Json.atLeastZero) ()).2.map fun _ => .nothing)

/-! ## Every write is one of the cases -/

namespace Commit

variable {now : Int} {t t' : Tables} {caller : Principal}

theorem guarded_eq_ok_iff {α : Type} (api : String) (f : Tables → Result α) (a : α) :
    Operation.guarded caller api f t = .ok a ↔ Admits t api caller ∧ f t = .ok a := by
  simp only [Operation.guarded, bind_eq_ok_iff, exists_unit_iff, allowed_eq_ok_iff]

theorem of_changeGovernors {kind : GovernorKind} {d : Direction} {ps : Principals} {u : Unit}
    (h : Operation.changeGovernorsOf t caller kind d ps = .ok (t', u)) :
    Commit now t (.changeGovernors caller kind d ps) t' (.ok .nothing) := by
  simp only [Operation.changeGovernorsOf, bind_eq_ok_iff, exists_unit_iff, controller_eq_ok_iff,
    Principals.check_eq_ok_iff, pure_eq_ok_iff, Prod.mk.injEq] at h
  obtain ⟨hControls, hProper, rfl, -⟩ := h
  cases kind with
  | manager => exact .changeGovernors hControls hProper
  | auditor => exact .changeGovernors hControls hProper

theorem of_setAllowedApis {apis : SortedSet String} {u : Unit}
    (h : Operation.setAllowedApisOf t caller apis = .ok (t', u)) :
    Commit now t (.setAllowedApis caller apis) t' (.ok .nothing) := by
  simp only [Operation.setAllowedApisOf, bind_eq_ok_iff, exists_unit_iff, controller_eq_ok_iff,
    pure_eq_ok_iff, Prod.mk.injEq] at h
  obtain ⟨hControls, rfl, -⟩ := h
  exact .setAllowedApis hControls

theorem of_createNamespace {input : NewNamespace} {info : NamespaceInfo}
    (h : (do authenticated caller; t.createNamespace caller input now) = .ok (t', info)) :
    Commit now t (.createNamespace caller input) t' (.ok (.namespaceInfo info)) := by
  simp only [Tables.createNamespace, bind_eq_ok_iff, exists_unit_iff, authenticated_eq_ok_iff,
    demand_eq_ok_iff, pure_eq_ok_iff, Prod.mk.injEq, decide_eq_true_eq] at h
  obtain ⟨hKnown, hGoverns, hFresh, rfl, rfl⟩ := h
  refine .createNamespace hKnown hGoverns ?_
  simpa [Table.contains] using hFresh

theorem of_updateNamespace {input : NamespaceChange} {u : Unit}
    (h : Operation.guarded caller "namespace_update_info" (·.updateNamespace caller input now) t =
      .ok (t', u)) :
    Commit now t (.updateNamespace caller input) t' (.ok .nothing) := by
  simp only [guarded_eq_ok_iff, Tables.updateNamespace, bind_eq_ok_iff, writable_eq_ok_iff,
    pure_eq_ok_iff, Prod.mk.injEq] at h
  obtain ⟨hAdmits, ns, ⟨hFound, hWrite⟩, rfl, -⟩ := h
  exact .updateNamespace hAdmits ⟨hFound, hWrite⟩

theorem of_deleteNamespace {name : String} {u : Unit}
    (h : Operation.guarded caller "namespace_delete" (·.deleteNamespace caller name) t =
      .ok (t', u)) :
    Commit now t (.deleteNamespace caller name) t' (.ok .nothing) := by
  simp only [guarded_eq_ok_iff, Tables.deleteNamespace, bind_eq_ok_iff, exists_unit_iff,
    writable_eq_ok_iff, demand_eq_ok_iff, pure_eq_ok_iff, Prod.mk.injEq, beq_iff_eq] at h
  obtain ⟨hAdmits, ns, ⟨hFound, hWrite⟩, hBare, rfl, -⟩ := h
  exact .deleteNamespace hAdmits ⟨hFound, hWrite⟩ hBare

theorem of_changeMembers {name : String} {kind : MemberKind} {d : Direction} {ps : Principals}
    {u : Unit}
    (h : Operation.guarded caller (Operation.memberApi kind d)
      (·.changeMembers caller name kind d ps now) t = .ok (t', u)) :
    Commit now t (.changeMembers caller name kind d ps) t' (.ok .nothing) := by
  simp only [guarded_eq_ok_iff, Tables.changeMembers, bind_eq_ok_iff, exists_unit_iff,
    Principals.check_eq_ok_iff, writable_eq_ok_iff, pure_eq_ok_iff, Prod.mk.injEq] at h
  obtain ⟨hAdmits, hProper, ns, ⟨hFound, hWrite⟩, rfl, -⟩ := h
  exact .changeMembers hAdmits hProper ⟨hFound, hWrite⟩

theorem of_topUp {name : String} {amount n : Int}
    (h : Operation.guarded caller "namespace_top_up" (·.topUp name amount now) t = .ok (t', n)) :
    Commit now t (.topUp caller name amount) t' (.ok (.number n)) := by
  simp only [guarded_eq_ok_iff, Tables.topUp, bind_eq_ok_iff, exists_unit_iff, demand_eq_ok_iff,
    lookup_eq_ok_iff, pure_eq_ok_iff, Prod.mk.injEq, decide_eq_true_eq] at h
  obtain ⟨hAdmits, hPositive, ns, hFound, rfl, rfl⟩ := h
  exact .topUp hAdmits hPositive hFound

theorem of_addDelegators {input : DelegatorChange} {ps : Principals}
    (h : Operation.guarded caller "namespace_add_delegator" (·.addDelegators caller input now) t =
      .ok (t', ps)) :
    Commit now t (.changeDelegators caller .add input) t' (.ok (.principals ps)) := by
  simp only [guarded_eq_ok_iff, Tables.addDelegators, bind_eq_ok_iff, writable_eq_ok_iff,
    pure_eq_ok_iff, Prod.mk.injEq] at h
  obtain ⟨hAdmits, ns, ⟨hFound, hWrite⟩, rfl, rfl⟩ := h
  exact .addDelegators hAdmits ⟨hFound, hWrite⟩

theorem of_removeDelegators {input : DelegatorChange} {u : Unit}
    (h : Operation.guarded caller "namespace_remove_delegator" (·.removeDelegators caller input now)
      t = .ok (t', u)) :
    Commit now t (.changeDelegators caller .remove input) t' (.ok .nothing) := by
  simp only [guarded_eq_ok_iff, Tables.removeDelegators, bind_eq_ok_iff, writable_eq_ok_iff,
    pure_eq_ok_iff, Prod.mk.injEq] at h
  obtain ⟨hAdmits, ns, ⟨hFound, hWrite⟩, rfl, -⟩ := h
  exact .removeDelegators hAdmits ⟨hFound, hWrite⟩

theorem of_createSetting {path : SettingPath} {input : NewSetting}
    {out : Tables × Result SettingStamp}
    (h : Operation.guarded caller "setting_create"
      (·.createSetting caller (path.toKey caller) input now) t = .ok out) :
    Commit now t (.createSetting caller path input) out.1 (out.2.map .stamp) := by
  simp only [guarded_eq_ok_iff, Tables.createSetting, bind_eq_ok_iff, exists_unit_iff,
    settingNamespace_eq_ok_iff, demand_eq_ok_iff, Bool.and_eq_true, decide_eq_true_eq,
    Option.isNone_iff_eq_none] at h
  obtain ⟨hAdmits, ns, ⟨hFound, hWrite⟩, ⟨hVersion, hFresh⟩, hKey, hRest⟩ := h
  obtain ⟨payload, desc, status, tags, contentType, dataKey⟩ := input
  cases payload with
  | none =>
    cases hRest
    refine .createSetting hAdmits ⟨hFound, hWrite⟩ hVersion hFresh hKey ?_
    rintro _ ⟨⟩
  | some payload =>
    simp only [bind_eq_ok_iff, exists_unit_iff] at hRest
    obtain ⟨hPayload, hOut⟩ := hRest
    cases hOut
    refine .createSetting hAdmits ⟨hFound, hWrite⟩ hVersion hFresh hKey ?_
    rintro _ ⟨⟩
    exact hPayload

theorem of_updatePayload {path : SettingPath} {input : PayloadChange}
    {out : Tables × Result SettingStamp}
    (h : Operation.guarded caller "setting_update_payload"
      (·.updatePayload caller (path.toKey caller) input now) t = .ok out) :
    Commit now t (.updatePayload caller path input) out.1 (out.2.map .stamp) := by
  simp only [guarded_eq_ok_iff, Tables.updatePayload, bind_eq_ok_iff] at h
  obtain ⟨hAdmits, ⟨ns, s⟩, hWritable, h⟩ := h
  obtain ⟨hFound, hWrite, hSetting⟩ := (writableSetting_eq_ok_iff t caller _ ns s).mp hWritable
  simp only [exists_unit_iff, demand_eq_ok_iff, pure_eq_ok_iff] at h
  obtain ⟨hReadWrite, hExpected, hKey, hPayload, version, hNext, rfl⟩ := h
  exact .updatePayload hAdmits ⟨hFound, hWrite⟩ hSetting hReadWrite hExpected hNext hKey hPayload

theorem atVersion_eq_ok_iff (key : SettingKey) (s : Setting) :
    Tables.atVersion key s = .ok () ↔ FitsVersion key s := by
  simp [Tables.atVersion, FitsVersion]

theorem of_updateSetting {path : SettingPath} {input : SettingChange} {stamp : SettingStamp}
    (h : Operation.guarded caller "setting_update_info"
      (·.updateSetting caller (path.toKey caller) input now) t = .ok (t', stamp)) :
    Commit now t (.updateSetting caller path input) t' (.ok (.stamp stamp)) := by
  simp only [guarded_eq_ok_iff, Tables.updateSetting, bind_eq_ok_iff] at h
  obtain ⟨hAdmits, ⟨ns, s⟩, hWritable, h⟩ := h
  obtain ⟨hFound, hWrite, hSetting⟩ := (writableSetting_eq_ok_iff t caller _ ns s).mp hWritable
  simp only [exists_unit_iff, atVersion_eq_ok_iff, demand_eq_ok_iff, pure_eq_ok_iff,
    Prod.mk.injEq] at h
  obtain ⟨hFits, hOpen, rfl, rfl⟩ := h
  refine .updateSetting hAdmits ⟨hFound, hWrite⟩ hSetting hFits fun hReadOnly status hStatus => ?_
  simpa [hReadOnly, hStatus] using hOpen

theorem of_changeReaders {path : SettingPath} {d : Direction} {readers : Principals} {u : Unit}
    (h : Operation.guarded caller (Operation.readerApi d)
      (·.changeReaders caller (path.toKey caller) d readers now) t = .ok (t', u)) :
    Commit now t (.changeReaders caller path d readers) t' (.ok .nothing) := by
  simp only [guarded_eq_ok_iff, Tables.changeReaders, bind_eq_ok_iff, exists_unit_iff,
    Principals.check_eq_ok_iff] at h
  obtain ⟨hAdmits, hProper, ⟨ns, s⟩, hWritable, h⟩ := h
  obtain ⟨hFound, hWrite, hSetting⟩ := (writableSetting_eq_ok_iff t caller _ ns s).mp hWritable
  simp only [atVersion_eq_ok_iff, demand_eq_ok_iff, pure_eq_ok_iff, Prod.mk.injEq,
    Bool.not_eq_true'] at h
  obtain ⟨hFits, hOpen, rfl, -⟩ := h
  exact .changeReaders hAdmits hProper ⟨hFound, hWrite⟩ hSetting hFits hOpen

theorem of_deleteSetting {path : SettingPath} {out : Tables × Result Unit}
    (h : Operation.guarded caller "setting_delete"
      (·.deleteSetting caller (path.toKey caller)) t = .ok out) :
    Commit now t (.deleteSetting caller path) out.1 (out.2.map fun _ => .nothing) := by
  simp only [guarded_eq_ok_iff, Tables.deleteSetting, bind_eq_ok_iff] at h
  obtain ⟨hAdmits, ⟨ns, s⟩, hWritable, h⟩ := h
  obtain ⟨hFound, hWrite, hSetting⟩ := (writableSetting_eq_ok_iff t caller _ ns s).mp hWritable
  simp only [exists_unit_iff, demand_eq_ok_iff, pure_eq_ok_iff, Bool.not_eq_true'] at h
  obtain ⟨hOpen, rfl⟩ := h
  exact .deleteSetting hAdmits ⟨hFound, hWrite⟩ hSetting hOpen

end Commit

/-! ## Segments of operations -/

/-- Whether an operation can write to the tables. -/
def Operation.writesTables : Operation → Bool
  | changeGovernors .. | setAllowedApis .. | createNamespace .. | updateNamespace ..
  | deleteNamespace .. | changeMembers .. | topUp .. | changeDelegators .. | createSetting ..
  | updatePayload .. | updateSetting .. | changeReaders .. | deleteSetting .. => true
  | _ => false

/-- What the segment that ends an operation does to the world in which it begins. -/
inductive Segment (now : Int) (o : Operation) (w : World) : World → Result Answer → Prop
  | refused (why : Failure) : Segment now o w w (.error why)
  | answered (a : Answer) (quiet : o.writesTables = false) : Segment now o w w (.ok a)
  | committed {t : Tables} {r : Result Answer} (commit : Commit now w.tables o t r) :
      Segment now o w (w.withTables t) r
  | recorded {caller : Principal} {input : DelegationRequest} {signatures : TenantVault.Signatures}
      {key : Bytes × Bytes} {signature : Bytes} {expiration : Int} {signIn : Signatures.SignIn}
      (asked : o = .signDelegation caller input) (known : caller.isAnonymous = false)
      (kept : signatures =
        Signatures.record w.signatures (now * Signatures.nanosPerMilli) key signature expiration) :
      Segment now o w { w with signatures } (.ok (.signIn signIn))

theorem Segment.tables {now : Int} {o : Operation} {w w' : World} {r : Result Answer}
    (h : Segment now o w w' r) : w'.tables = w.tables ∨ Commit now w.tables o w'.tables r := by
  cases h with
  | committed commit => exact Or.inr commit
  | _ => exact Or.inl rfl

namespace Operation

open Outcome

variable {now : Int} {o : Operation} {w : World}

/-- An operation that never writes and whose segments change nothing. -/
theorem each_of_quiet {α : Type} {c : Outcome α} (f : α → Answer) (quiet : o.writesTables = false)
    (h : c.Quiet w) : (c.map f).Each (Segment now o) w := by
  refine (each_map_iff f _ c w).mpr (h.mono ?_)
  rintro w w' r rfl
  cases r with
  | error why => exact .refused why
  | ok a => exact .answered (f a) quiet

theorem each_of_update {α : Type} {f : Tables → Result (Tables × α)} (answer : α → Answer)
    (h : ∀ t a, f w.tables = .ok (t, a) → Commit now w.tables o t (.ok (answer a))) :
    ((Call.update f w).map answer).Each (Segment now o) w :=
  (each_map_iff answer _ _ w).mpr (each_update .refused fun t a ha => .committed (h t a ha))

theorem each_of_settle {α : Type} {f : Tables → Result (Tables × Result α)} (answer : α → Answer)
    (h : ∀ out, f w.tables = .ok out → Commit now w.tables o out.1 (out.2.map answer)) :
    ((Call.settle f w).map answer).Each (Segment now o) w :=
  (each_map_iff answer _ _ w).mpr (each_settle .refused fun t r hr => .committed (h (t, r) hr))

theorem each_signDelegation (service caller : Principal) (input : DelegationRequest) :
    ((Signatures.signDelegation service caller input now w).map Answer.signIn).Each
      (Segment now (.signDelegation caller input)) w := by
  refine (each_map_iff _ _ _ w).mpr (each_after (fun why _ => .refused why) ?_)
  rintro ⟨expiration, message⟩ hStart
  have hKnown : caller.isAnonymous = false := by
    simp only [bind_eq_ok_iff, exists_unit_iff, allowed_eq_ok_iff] at hStart
    exact hStart.1.known
  refine each_request (fun _ why => .refused why) fun w' signature => ?_
  refine each_after (fun why _ => .refused why) fun _ _ => ?_
  dsimp only
  split
  · exact .recorded rfl hKnown rfl
  · exact .answered _ rfl

/-- Every segment of every operation is one of the cases. -/
theorem each_perform (service : Principal) (now : Int) (o : Operation) (w : World) :
    (o.perform service now w).Each (Segment now o) w := by
  cases o with
  | changeGovernors caller kind d ps => exact each_of_update _ fun _ _ h => .of_changeGovernors h
  | setAllowedApis caller apis => exact each_of_update _ fun _ _ h => .of_setAllowedApis h
  | createNamespace caller input => exact each_of_update _ fun _ _ h => .of_createNamespace h
  | listNamespaces caller before count => exact each_of_quiet _ rfl (quiet_query _ w)
  | getGovernance caller => exact .answered _ rfl
  | getNamespace caller ns => exact each_of_quiet _ rfl (quiet_query _ w)
  | updateNamespace caller input => exact each_of_update _ fun _ _ h => .of_updateNamespace h
  | deleteNamespace caller ns => exact each_of_update _ fun _ _ h => .of_deleteNamespace h
  | changeMembers caller ns kind d ps => exact each_of_update _ fun _ _ h => .of_changeMembers h
  | isMember caller ns kind user => exact each_of_quiet _ rfl (quiet_query _ w)
  | topUp caller ns amount => exact each_of_update _ fun _ _ h => .of_topUp h
  | listSettings caller ns userOwned subject => exact each_of_quiet _ rfl (quiet_query _ w)
  | getDelegators caller ns name => exact each_of_quiet _ rfl (quiet_query _ w)
  | changeDelegators caller d input =>
    cases d with
    | add => exact each_of_update _ fun _ _ h => .of_addDelegators h
    | remove => exact each_of_update _ fun _ _ h => .of_removeDelegators h
  | fixedIdentity ns name => exact each_of_quiet _ rfl (quiet_query _ w)
  | signDelegation caller input => exact each_signDelegation service caller input
  | getDelegation seed sessionKey expiration =>
    exact each_of_quiet _ rfl (Signatures.quiet_getDelegation seed sessionKey expiration w)
  | namespacePublicKey caller ns path =>
    exact each_of_quiet _ rfl (Signatures.quiet_namespacePublicKey caller ns path w)
  | namespaceSign caller ns path message =>
    exact each_of_quiet _ rfl (Signatures.quiet_namespaceSign caller ns path message w)
  | identityPublicKey => exact each_of_quiet _ rfl (Signatures.quiet_identityPublicKey w)
  | signIdentity caller ns audience =>
    exact each_of_quiet _ rfl (Signatures.quiet_signIdentity service caller ns audience now w)
  | createSetting caller path input => exact each_of_settle _ fun _ h => .of_createSetting h
  | updatePayload caller path input => exact each_of_settle _ fun _ h => .of_updatePayload h
  | updateSetting caller path input => exact each_of_update _ fun _ _ h => .of_updateSetting h
  | getSetting caller path => exact each_of_quiet _ rfl (quiet_query _ w)
  | getSettingInfo caller path => exact each_of_quiet _ rfl (quiet_query _ w)
  | getArchived caller path => exact each_of_quiet _ rfl (quiet_query _ w)
  | changeReaders caller path d readers => exact each_of_update _ fun _ _ h => .of_changeReaders h
  | deleteSetting caller path => exact each_of_settle _ fun _ h => .of_deleteSetting h
  | encryptedKey caller path input =>
    exact each_of_quiet _ rfl (Keys.quiet_encryptedKey caller path input w)
  | encryptedSetting caller path input =>
    exact each_of_quiet _ rfl (Keys.quiet_encryptedSetting caller path input w)
  | servicePublicKey caller path =>
    exact each_of_quiet _ rfl (Keys.quiet_servicePublicKey caller path w)
  | serviceKey caller path transportKey =>
    exact each_of_quiet _ rfl (Keys.quiet_serviceKey caller path transportKey w)

end Operation

/-! ## Writes that are made -/

section Performing

open Access

variable {now : Int} {caller : Principal} {path : SettingPath} {w : World} {t : Tables}
  {r : Result Answer}

theorem Commit.perform_createSetting {input : NewSetting}
    (h : Commit now w.tables (.createSetting caller path input) t r) (service : Principal) :
    (Operation.createSetting caller path input).perform service now w = .done (w.withTables t) r := by
  cases h with
  | @createSetting _ _ _ ns admits writes live fresh keyFits payloadFits =>
    have hWritten : Operation.guarded caller "setting_create"
        (·.createSetting caller (path.toKey caller) input now) w.tables =
          .ok ((w.tables.putSetting (path.toKey caller) (input.row now)).settle path.ns ns
            (ns.payloadBytes.plus (input.row now).size) (input.row now).stamp) := by
      simp only [guarded_eq_ok_iff, Tables.createSetting, bind_eq_ok_iff, exists_unit_iff,
        settingNamespace_eq_ok_iff, demand_eq_ok_iff, Bool.and_eq_true, decide_eq_true_eq,
        Option.isNone_iff_eq_none]
      refine ⟨admits, ns, ⟨writes.found, writes.permitted⟩, ⟨live, fresh⟩, keyFits, ?_⟩
      obtain ⟨payload, desc, status, tags, contentType, dataKey⟩ := input
      cases payload with
      | none => rfl
      | some payload =>
        simp only [bind_eq_ok_iff, exists_unit_iff]
        exact ⟨payloadFits payload rfl, rfl⟩
    unfold Operation.perform Operation.write Call.settle
    dsimp only
    rw [hWritten]
    cases ns.payloadBytes.plus (input.row now).size <;> rfl

theorem Commit.perform_updatePayload {input : PayloadChange}
    (h : Commit now w.tables (.updatePayload caller path input) t r) (service : Principal) :
    (Operation.updatePayload caller path input).perform service now w = .done (w.withTables t) r := by
  cases h with
  | @updatePayload _ _ _ ns s version admits writes found readWrite expected next keyFits payloadFits =>
    have hWritten : Operation.guarded caller "setting_update_payload"
        (·.updatePayload caller (path.toKey caller) input now) w.tables =
          .ok (((w.tables.archivePayload (path.toKey caller) s input.deprecateCurrent now).putSetting
            (path.toKey caller) (input.row s version now)).settle path.ns ns
            (ns.payloadBytes.plus input.written) (input.row s version now).stamp) := by
      simp only [guarded_eq_ok_iff, Tables.updatePayload, bind_eq_ok_iff]
      refine ⟨admits, (ns, s), (writableSetting_eq_ok_iff ..).mpr
        ⟨writes.found, writes.permitted, found⟩, ?_⟩
      simp only [exists_unit_iff, demand_eq_ok_iff, pure_eq_ok_iff]
      exact ⟨readWrite, expected, keyFits, payloadFits, version, next, rfl⟩
    unfold Operation.perform Operation.write Call.settle
    dsimp only
    rw [hWritten]
    cases ns.payloadBytes.plus input.written <;> rfl

end Performing

end TenantVault
