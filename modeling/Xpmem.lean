import Xpmem.Driver.System
import Xpmem.Foundation.Run
import Xpmem.Driver.Recorded
import Xpmem.Foundation.Registry
import Xpmem.Operations.Attaching
import Xpmem.Foundation.Threads
import Xpmem.Foundation.LockOrder
import Xpmem.Concurrent.Recall
import Xpmem.Concurrent.WaitQueues
import Xpmem.Concurrent.Paging
import Xpmem.Concurrent.ValidPTEs
import Xpmem.Concurrent.LockOrder
import Xpmem.Concurrent.Destroying
import Xpmem.Concurrent.Opening
import Xpmem.Concurrent.Attaching
import Xpmem.Concurrent.Identifiers
import Xpmem.Concurrent.ForkWindow
import Xpmem.Concurrent.ListWalks
import Xpmem.Library.Client
import Xpmem.Driver.Granting
import Xpmem.Driver.Ranges
import Xpmem.Driver.Faulting
import Xpmem.Driver.Unpinning
import Xpmem.Operations.Covering
import Xpmem.Operations.Rollback
import Xpmem.Runs.Dropping
import Xpmem.Runs.Pins
import Xpmem.Runs.Releasing
import Xpmem.Runs.Unmapping
