import ConstStore.Artifact
import ConstStore.FileSystem.Edit
import ConstStore.Main
import ConstStore.Proofs.Ledger
import ConstStore.Proofs.Race
import ConstStore.Proofs.Session.Consistent
import ConstStore.Proofs.Session.Owner
import ConstStore.Registry
import ConstStore.Tool.Run
import ConstStore.Proofs.Format
import ConstStore.Proofs.Session.Commit
import ConstStore.Proofs.Preservation
import ConstStore.Proofs.Isolation
import ConstStore.Proofs.Damage
import ConstStore.Proofs.Registry
import ConstStore.Proofs.Batches
import ConstStore.Proofs.Zstd.Damaged
import ConstStore.Proofs.Session.LocalDamage
import ConstStore.Proofs.Session.Additions
import ConstStore.Proofs.Index
import ConstStore.Proofs.ValueType
import ConstStore.Proofs.TypedAccess
import ConstStore.Proofs.Building
import ConstStore.Proofs.Growing
import ConstStore.Proofs.Header
import ConstStore.Proofs.Positional
import ConstStore.Proofs.Session.Steady
import ConstStore.Proofs.Extending
import ConstStore.Proofs.Tool
