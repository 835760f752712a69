import Warden.Association.Loading
import Warden.Config.Document
import Warden.Memory
import Warden.Policy.Document
import Warden.Policy.Installation
import Warden.Proofs.Assigning
import Warden.Proofs.Backends
import Warden.Proofs.Bindings
import Warden.Proofs.Counting
import Warden.Proofs.Derivations
import Warden.Proofs.Integers
import Warden.Proofs.Lineage
import Warden.Proofs.Memory.Batching
import Warden.Proofs.Memory.Confidentiality
import Warden.Proofs.Memory.Visibility
import Warden.Proofs.Merging
import Warden.Proofs.Planning
import Warden.Proofs.Policy.Renewal
import Warden.Proofs.Policy.Reread
import Warden.Proofs.Policy.Rows
import Warden.Proofs.Policy.Words
import Warden.Proofs.Policy.Wrapped
import Warden.Proofs.Remembering
import Warden.Proofs.Schemas
import Warden.Proofs.Sql.CountText
import Warden.Proofs.Sql.Integers
import Warden.Proofs.Sql.Meaning
import Warden.Proofs.Sql.Projection
import Warden.Proofs.Sql.Targets
import Warden.Proofs.Sql.Writing
import Warden.Proofs.Threads
import Warden.Proofs.Tracking
import Warden.Proofs.Unwinding
import Warden.Query.Journal
import Warden.Schema
import Warden.Sql.Statement
import Warden.Table.Document
