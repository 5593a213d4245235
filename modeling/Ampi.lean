import Ampi.Machine
import Ampi.Frames
import Ampi.Window
import Ampi.Bytes
import Ampi.Parties
import Ampi.Fifo
import Ampi.LinkedList
import Ampi.Loop
import Ampi.RoundRobin
import Ampi.Layout
import Ampi.Linux.Coroutine
import Ampi.Linux.Switching
import Ampi.Linux.Scheduler
import Ampi.Linux.Kthread
import Ampi.Linux.RwLock
import Ampi.Linux.Timer
import Ampi.Linux.TimerList
import Ampi.Linux.Completion
import Ampi.Vchiq.RemoteEvent
import Ampi.Vchiq.UseCount
import Ampi.Vchiq.Queue
import Ampi.Vchiq.Positions
import Ampi.Vchiq.Slots
import Ampi.Vchiq.Stream
import Ampi.Vchiq.Represents
import Ampi.Vchiq.Moves
import Ampi.Vchiq.Sending
import Ampi.Vchiq.Recycling
import Ampi.Vchiq.Receiving
import Ampi.Vchiq.Framing
import Ampi.Vchiq.Publishing
import Ampi.Vchiq.Conservation
import Ampi.Vchiq.Marks
import Ampi.Vchiq.Claiming
import Ampi.Vchiq.Walks
import Ampi.Vchiq.Ownership
import Ampi.Vchiq.Closing
import Ampi.Vchiq.Accounting
import Ampi.Vchiq.Quotas
import Ampi.Vchiq.Waiting
import Ampi.Vchiq.Polling
import Ampi.Vchiq.KeepAlive
import Ampi.Vchiq.Pausing
import Ampi.Sound.Message
import Ampi.Sound.Device
import Ampi.Sound.Rules
import Ampi.Sound.Uses
import Ampi.Sound.Trace
import Ampi.Sound.Outstanding
import Ampi.Sound.Cancel
import Ampi.Sound.EndOfStream
import Ampi.Sound.ErrorState
import Ampi.Sound.FlowControl
import Ampi.Sound.Contiguity
import Ampi.Sound.Progress
import Ampi.Sound.Packets
import Ampi.Sound.Activity
import Ampi.Vchiq.Turnover
import Ampi.Vchiq.Rotation
import Ampi.Vchiq.Recounting
import Ampi.References
import Ampi.Vchiq.RefCount
import Ampi.Vchiq.MessageSize
import Ampi.Vchiq.Services
import Ampi.Vchiq.Handles
import Ampi.Vchiq.Retrying
import Ampi.Vchiq.Queueing
import Ampi.Vchiq.AllOrNothing
import Ampi.Linux.CacheRange
import Ampi.Linux.Locks
import Ampi.Linux.Critical
import Ampi.Vchiq.SlotLayout
import Ampi.Vchiq.PageList
import Ampi.Linux.Timeout
import Ampi.Linux.Finishing
import Ampi.Vchiq.Permits
import Ampi.Vchiq.BulkQueues
import Ampi.Vchiq.BulkPages
import Ampi.Vchiq.HandshakeMessages
import Ampi.Vchiq.SuspendRuns
import Ampi.Vchiq.SyncRuns
import Ampi.Vchiq.Forgetting
import Ampi.Vchiq.Inbox
import Ampi.Vchiq.Stalling
import Ampi.Vchiq.Draining
import Ampi.Vchiq.Wakeups
import Ampi.Sound.Delivery
