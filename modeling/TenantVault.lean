import TenantVault.Hash.Derivation
import TenantVault.Proofs.Atomicity
import TenantVault.Proofs.Authority
import TenantVault.Proofs.Delegations
import TenantVault.Proofs.Deletion
import TenantVault.Proofs.Finality
import TenantVault.Proofs.Freshness
import TenantVault.Proofs.Handover
import TenantVault.Proofs.History
import TenantVault.Proofs.Hollow
import TenantVault.Proofs.Isolation
import TenantVault.Proofs.KeySeparation
import TenantVault.Proofs.Membership
import TenantVault.Proofs.PrincipalText
import TenantVault.Proofs.Revalidation
import TenantVault.Proofs.Robustness
import TenantVault.Proofs.RoundTrip
import TenantVault.Proofs.Saving
import TenantVault.Proofs.Secrecy
import TenantVault.Proofs.Septets
import TenantVault.Proofs.SessionLimit
import TenantVault.Proofs.Tokens
import TenantVault.Proofs.Updates
import TenantVault.Proofs.Strings
import TenantVault.Proofs.CaseFolding
import TenantVault.Proofs.Contexts
import TenantVault.Proofs.FixedIdentities
import TenantVault.Proofs.RecordHash
import TenantVault.Proofs.TokenRoundTrip
import TenantVault.Proofs.SecretKeys
import TenantVault.Proofs.Listings
import TenantVault.Proofs.Delegators
import TenantVault.Proofs.FewestOctets
import TenantVault.Proofs.Pages
import TenantVault.Proofs.ElementRows
