import CreationGate.Assembly.Builder
import CreationGate.Json.Governance
import CreationGate.Session
import CreationGate.Proofs.MemberKeys
import CreationGate.Proofs.PrefixScan
import CreationGate.Proofs.Membership
import CreationGate.Proofs.SharedStore
import CreationGate.Proofs.Steps
import CreationGate.Proofs.Admission
import CreationGate.Proofs.History
import CreationGate.Proofs.AdmissionPaths
import CreationGate.Proofs.AuditTrail
import CreationGate.Proofs.Conservative
import CreationGate.Proofs.Reading
import CreationGate.Proofs.Copies
import CreationGate.Proofs.Atomicity
import CreationGate.Proofs.CodeFree
import CreationGate.Proofs.InStep
import CreationGate.Proofs.Unobservable
import CreationGate.Proofs.Seeding
import CreationGate.Proofs.Independence
import CreationGate.Proofs.OwnEntries
import CreationGate.Proofs.Assembly.Programs
import CreationGate.Proofs.JournalView
import CreationGate.Proofs.Reachable
import CreationGate.Proofs.Creation
import CreationGate.Proofs.Deployment
import CreationGate.Proofs.Factory
import CreationGate.Proofs.ReadOnly
import CreationGate.Proofs.Looking
import CreationGate.Proofs.Reports
import CreationGate.Proofs.Assembly.Disassembly
import CreationGate.Proofs.Assembly.ShortestPush
import CreationGate.Proofs.Assembly.Filling
import CreationGate.Proofs.Json.RoundTrip
import CreationGate.Proofs.Json.Truncated
