import FusionIdentity.Foundation.Dict
import FusionIdentity.Foundation.Interleaving
import FusionIdentity.Foundation.Keyspace
import FusionIdentity.Auth.Ledger
import FusionIdentity.Auth.Backends
import FusionIdentity.Grpc.Leases
import FusionIdentity.Grpc.Window
import FusionIdentity.Grpc.Calls
import FusionIdentity.Grpc.Servicer
import FusionIdentity.Grpc.Lookup
import FusionIdentity.Grpc.Quota
import FusionIdentity.Grpc.Faults
import FusionIdentity.Routes.Configuration
import FusionIdentity.Store.ApiKeys
import FusionIdentity.Routes.Coherence
import FusionIdentity.Foundation.Json
import FusionIdentity.Keys.KeyRing
import FusionIdentity.Keys.History
import FusionIdentity.Audit.Chain
import FusionIdentity.Audit.InMemory
import FusionIdentity.Audit.Transactions
import FusionIdentity.Audit.Postgres
import FusionIdentity.Routes.Invites
import FusionIdentity.Routes.KeyRevocation
import FusionIdentity.Grpc.Release
import FusionIdentity.Foundation.Erasure
import FusionIdentity.Grpc.Isolation
import FusionIdentity.Keys.Authenticity
import FusionIdentity.Foundation.Base64
import FusionIdentity.Secrets.Crypto
import FusionIdentity.Secrets.Vault
import FusionIdentity.Secrets.Sweep
import FusionIdentity.Secrets.Coverage
import FusionIdentity.Secrets.Factors
import FusionIdentity.Accounts.Account
import FusionIdentity.Accounts.Gates
import FusionIdentity.Accounts.Lockout
import FusionIdentity.Foundation.Extension
import FusionIdentity.Routes.Members
import FusionIdentity.Accounts.Oracles
import FusionIdentity.Accounts.Counter
import FusionIdentity.Accounts.Passwords
import FusionIdentity.Accounts.Bearer
import FusionIdentity.Accounts.Sessions
import FusionIdentity.Routes.KeyExpiry
import FusionIdentity.Tenancy.Console
import FusionIdentity.Tenancy.Calls
import FusionIdentity.Tenancy.Members
import FusionIdentity.Tenancy.LastAdmin
import FusionIdentity.Tenancy.UsableAdmin
import FusionIdentity.Tenancy.Routes
import FusionIdentity.Tenancy.Permission
import FusionIdentity.Tenancy.Isolation
import FusionIdentity.Tenancy.Confinement
import FusionIdentity.Tenancy.Policy
import FusionIdentity.Tenancy.Issuance
import FusionIdentity.Tenancy.Operations
import FusionIdentity.Tenancy.Rbac
import FusionIdentity.Tenancy.TwoStores
import FusionIdentity.Secrets.Versions
import FusionIdentity.Tenancy.Verdicts
import FusionIdentity.Events.Outbox
import FusionIdentity.Events.Webhook
import FusionIdentity.Accounts.Disclosure
import FusionIdentity.Grpc.Budget
import FusionIdentity.Accounts.Mail
import FusionIdentity.Tenancy.Deletions
import FusionIdentity.Foundation.Tally
import FusionIdentity.Grpc.Usage
import FusionIdentity.Tenancy.ScimFilter
import FusionIdentity.Tenancy.KeyIndex
import FusionIdentity.Accounts.RateLimit
