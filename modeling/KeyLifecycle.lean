import KeyLifecycle.Main
import KeyLifecycle.Session
import KeyLifecycle.Proofs.Int64
import KeyLifecycle.Proofs.Vault.Exclusion
import KeyLifecycle.Proofs.Vault.Changes
import KeyLifecycle.Proofs.Vault.Poll
import KeyLifecycle.Proofs.Store.Asking
import KeyLifecycle.Proofs.Store.Rotation
import KeyLifecycle.Proofs.Vault.Sequential
import KeyLifecycle.Proofs.Vault.Serial
import KeyLifecycle.Proofs.Secrecy.Blind
import KeyLifecycle.Proofs.Secrecy.Vault
import KeyLifecycle.Proofs.Secrecy.Turn
import KeyLifecycle.Proofs.Secrecy.Session
import KeyLifecycle.Proofs.Service.Stages
import KeyLifecycle.Proofs.Secrecy.Scenario
import KeyLifecycle.Proofs.Session.Solo
import KeyLifecycle.Proofs.Vault.Ownership
import KeyLifecycle.Proofs.Service.Mediation
import KeyLifecycle.Proofs.Service.Probing
import KeyLifecycle.Proofs.Store.Transaction
import KeyLifecycle.Proofs.Session.Alone
import KeyLifecycle.Proofs.Session.Pursuit
import KeyLifecycle.Proofs.Store.History
import KeyLifecycle.Proofs.Store.Isolation
import KeyLifecycle.Proofs.Vault.Numbering
import KeyLifecycle.Proofs.Store.Retirement
import KeyLifecycle.Proofs.Store.Competition
import KeyLifecycle.Proofs.Database.Refinement
import KeyLifecycle.Proofs.Vault.Custody
import KeyLifecycle.Proofs.Vault.InTurn
import KeyLifecycle.Proofs.Database.Course
import KeyLifecycle.Proofs.Database.Protocol
import KeyLifecycle.Proofs.Database.Cancellation
import KeyLifecycle.Proofs.Session.Limits
import KeyLifecycle.Proofs.Generator.Stretches
import KeyLifecycle.Proofs.Vault.AuditTrail
import KeyLifecycle.Proofs.Database.Racing
import KeyLifecycle.Proofs.Slug
import KeyLifecycle.Proofs.Directory
import KeyLifecycle.Proofs.Service.Pipeline
import KeyLifecycle.Proofs.Generator.IssuedKeys
import KeyLifecycle.Proofs.Policy
import KeyLifecycle.Proofs.Database.Complaint
import KeyLifecycle.Proofs.Document
import KeyLifecycle.Proofs.Store.Lease
import KeyLifecycle.Proofs.Arguments
import KeyLifecycle.Proofs.Settings
