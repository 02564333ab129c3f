import TenantVault.Config
import TenantVault.Store.Snapshot

/-! # The state of a service

The tables, the signatures of delegations that can still be fetched, and the tables that loads of snapshots
have replaced. A delegation that is being signed while a snapshot is loaded keeps to the tables with
which it began, so those are kept; nothing changes them any more.
-/

namespace TenantVault

/-- Signatures with their expiry, by the hash of the seed and the hash of the delegation. -/
abbrev Signatures := Table (Bytes × Bytes) (Bytes × Int)

structure World where
  tables : Tables
  signatures : Signatures
  retired : List Tables

namespace World

def ofTables (tables : Tables) : World := ⟨tables, .empty, []⟩

/-- The world that a service starts in. -/
def ofConfig (c : Config) : World :=
  ofTables (.ofGovernance {
    name := .text c.name
    signingKeyName := .text c.signingKeyName
    derivationKeyName := .text c.derivationKeyName
    controllers := c.controllers
    managers := c.managers
    auditors := c.auditors
    allowedApis := apiSet c.allowedApis })

/-- How many snapshots have been loaded. -/
def generation (w : World) : Nat := w.retired.length

/-- The tables of a generation: the current ones or retired ones. -/
def tablesOf (w : World) (generation : Nat) : Tables := (w.retired[generation]?).getD w.tables

@[simp] theorem tablesOf_generation (w : World) : w.tablesOf w.generation = w.tables := by
  simp [tablesOf, generation]

def withTables (w : World) (tables : Tables) : World := { w with tables }

/-- The world with the tables of a snapshot; signatures are not part of snapshots. -/
def replaceTables (w : World) (tables : Tables) : World := ⟨tables, .empty, w.retired ++ [w.tables]⟩

def load (w : World) (text : String) : Result World := do
  return w.replaceTables (← Snapshot.parse text)

end World

end TenantVault
