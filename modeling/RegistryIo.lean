import RegistryIo.Registry
import RegistryIo.Snapshot.Linearization
import RegistryIo.Snapshot.Reclamation
import RegistryIo.Snapshot.OwnWait
import RegistryIo.Snapshot.Ownership
import RegistryIo.Snapshot.ReadBrackets
import RegistryIo.Snapshot.RecordBound
import RegistryIo.Snapshot.RecordList
import RegistryIo.Snapshot.RetiredBound
import RegistryIo.Snapshot.RetiredPartition
import RegistryIo.Isolation.Sync
import RegistryIo.Isolation.AsyncDispatch
import RegistryIo.Isolation.AsyncJoin
import RegistryIo.Reentrant.LockDiscipline
import RegistryIo.Reentrant.OneShot
import RegistryIo.Atomic.ListHistory
import RegistryIo.Snapshot.Progress
import RegistryIo.Snapshot.Retries
import RegistryIo.Guard.Machine
import RegistryIo.Guard.Steps
import RegistryIo.Guard.Lifetime
import RegistryIo.Guard.HandlerLaw
import RegistryIo.Isolation.Cancellation
