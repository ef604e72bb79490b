import Librf.Base.Transition
import Librf.Base.Circular
import Librf.Base.Pairing
import Librf.RingQueue.Runs
import Librf.Channel.Model
import Librf.Channel.Attempts
import Librf.Channel.Delivery
import Librf.Channel.Runs
import Librf.Future.State
import Librf.Future.Life
import Librf.Future.Completion
import Librf.Future.Soundness
import Librf.Future.Sharing
import Librf.Future.Readiness
import Librf.Future.Erasure
import Librf.Future.Storage
import Librf.Future.Reads
import Librf.When.Model
import Librf.When.Results
import Librf.When.Wakeup
import Librf.Mutex.Model
import Librf.Mutex.Ownership
import Librf.Mutex.Waiters
import Librf.Mutex.Pruning
import Librf.Mutex.Fairness
import Librf.Base.CountedTable
import Librf.Mutex.Lifetime
import Librf.Mutex.Lookup
import Librf.Event.Signals
import Librf.Event.Reset
import Librf.Batch.Parties
import Librf.Event.LockOrder
import Librf.Event.Termination
import Librf.Event.Unnoticed
import Librf.Event.Sizes
import Librf.Timer.Callbacks
import Librf.Runtime.Once
import Librf.Runtime.Loop
import Librf.Runtime.Registration
import Librf.Runtime.Switching
import Librf.Mutex.Roots
import Librf.Mutex.Conservation
import Librf.Runtime.Queues
import Librf.Runtime.Lockup
import Librf.Generator
import Librf.IntrusiveLinkQueue.Runs
import Librf.CountedPtr
import Librf.StopToken.Safety
import Librf.StopToken.Deletion
import Librf.Spinlock
import Librf.Runtime.Places
