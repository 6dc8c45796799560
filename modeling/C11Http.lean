import C11Http.Lib.Run
import C11Http.Lib.Outbox
import C11Http.Lib.Promise
import C11Http.Lib.Stream
import C11Http.Lib.Release
import C11Http.Lib.Rotation
import C11Http.Posix.Registry
import C11Http.Posix.Deletion
import C11Http.Posix.Loop
import C11Http.Posix.Calls
import C11Http.Posix.Branches
import C11Http.Posix.Frames
import C11Http.Posix.Live
import C11Http.Posix.ServerLife
import C11Http.Posix.Accept
import C11Http.Posix.WriteSet
import C11Http.Posix.Interest
import C11Http.Posix.SelectSets
import C11Http.Posix.Receive
import C11Http.Posix.Outgoing
import C11Http.Posix.Client
import C11Http.Posix.Order
import C11Http.Posix.Writes
import C11Http.Posix.Stranded
import C11Http.Posix.Lifetime
import C11Http.Posix.Provenance
import C11Http.Posix.Closing
import C11Http.Posix.Handshake
import C11Http.Posix.Handshaking
import C11Http.Posix.Acknowledgement
import C11Http.Posix.Identifier
import C11Http.Workers.Pool
import C11Http.Workers.Once
import C11Http.Lib.SelfPipe
import C11Http.Posix.Wakeup
import C11Http.Windows.Lookup
import C11Http.Windows.Server
import C11Http.Windows.Steps
import C11Http.Windows.Live
import C11Http.Windows.Stray
import C11Http.Windows.Known
import C11Http.Windows.Armed
import C11Http.Windows.Serving
import C11Http.Windows.Overlap
import C11Http.Windows.Targets
import C11Http.Windows.Client
import C11Http.Windows.Listening
import C11Http.Windows.Disconnect
import C11Http.Windows.Buffers
import C11Http.Windows.Shutdown
import C11Http.Windows.Turns
import C11Http.Workers.Destruction
import C11Http.Windows.Broadcast
import C11Http.Lib.RoundRobin
import C11Http.Workers.Dealing
import C11Http.Lib.DottedQuad
import C11Http.Lib.Memory
import C11Http.Posix.Address
import C11Http.Windows.Waiting
import C11Http.Windows.Connecting
import C11Http.Posix.Reporting
import C11Http.Lib.Batches
import C11Http.Posix.Filling
import C11Http.Posix.Sending
import C11Http.Lib.Entries
import C11Http.Workers.Refinement
import C11Http.Posix.Trace
import C11Http.Lib.Conversation
import C11Http.Posix.ClientTrace
import C11Http.Posix.Delivery
import C11Http.Posix.Protocol
import C11Http.Posix.Descriptors
import C11Http.Posix.Ending
import C11Http.Posix.Facade
import C11Http.Windows.Ending
import C11Http.Windows.Ledger
import C11Http.Windows.Reports
import C11Http.Windows.ServerLife
import C11Http.Workers.Capacity
import C11Http.Posix.Meeting
import C11Http.Windows.Hearing
