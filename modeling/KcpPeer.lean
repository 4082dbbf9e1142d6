import KcpPeer.Addr
import KcpPeer.Adoption
import KcpPeer.Attempts
import KcpPeer.Backlog
import KcpPeer.Backoff
import KcpPeer.Calls
import KcpPeer.Cancellation
import KcpPeer.Coherence
import KcpPeer.Completion
import KcpPeer.Conduit
import KcpPeer.Config
import KcpPeer.ConvAgreement
import KcpPeer.Delivery
import KcpPeer.EarlyData
import KcpPeer.Effects
import KcpPeer.EndToEnd
import KcpPeer.EventLog
import KcpPeer.Evolution
import KcpPeer.FailedSend
import KcpPeer.FirstSends
import KcpPeer.HalfOpen
import KcpPeer.HandOver
import KcpPeer.Handshake
import KcpPeer.Histories
import KcpPeer.Idempotence
import KcpPeer.InOrder
import KcpPeer.Interleave
import KcpPeer.Isolation
import KcpPeer.Kcp
import KcpPeer.KcpSpec
import KcpPeer.Lib.Broadcast
import KcpPeer.Lib.Confluence
import KcpPeer.Lib.Locks
import KcpPeer.Lib.Machine
import KcpPeer.Lib.Spacing
import KcpPeer.Lib.Store
import KcpPeer.Lib.Transducer
import KcpPeer.Listing
import KcpPeer.Lives
import KcpPeer.LockOrder
import KcpPeer.Mailbox
import KcpPeer.Mesh
import KcpPeer.Moves
import KcpPeer.Network
import KcpPeer.OneSided
import KcpPeer.Orphan
import KcpPeer.Packet
import KcpPeer.Provenance
import KcpPeer.Pruning
import KcpPeer.Quiescence
import KcpPeer.Receivers
import KcpPeer.Recovery
import KcpPeer.Registry
import KcpPeer.RegistryStep
import KcpPeer.Rejection
import KcpPeer.Reliable
import KcpPeer.Removal
import KcpPeer.Restart
import KcpPeer.Returning
import KcpPeer.SampleKcp
import KcpPeer.Serial
import KcpPeer.Session
import KcpPeer.SessionOutput
import KcpPeer.SessionStep
import KcpPeer.Shutdown
import KcpPeer.Silence
import KcpPeer.Simulation
import KcpPeer.Solicited
import KcpPeer.Spelling
import KcpPeer.StaleSyn
import KcpPeer.Storm
import KcpPeer.Subscribers
import KcpPeer.SynSchedule
import KcpPeer.Tasks
import KcpPeer.TickOrder
import KcpPeer.TieBreak
import KcpPeer.Transport
import KcpPeer.Unanswered
import KcpPeer.Unread
import KcpPeer.Unsolicited
import KcpPeer.WakeUp
import KcpPeer.Wire
import KcpPeer.WireFormat
