import LibDht.Run.Ultimately
import LibDht.Run.Fairness
import LibDht.Run.Simulation
import LibDht.Circle.Distance
import LibDht.Circle.Climb
import LibDht.Circle.Chain
import LibDht.Circle.Halving
import LibDht.Node.Info
import LibDht.Node.Self
import LibDht.Node.Process
import LibDht.Node.Lookup
import LibDht.Node.Adopt
import LibDht.Node.Acts
import LibDht.Node.Outbox
import LibDht.Node.Bounds
import LibDht.Node.Locking
import LibDht.Node.Mirror
import LibDht.Node.Replay
import LibDht.Node.Probes
import LibDht.Node.Notify
import LibDht.Node.Stabilise
import LibDht.Ring.Stable
import LibDht.Ring.Progress
import LibDht.Ring.Fingers
import LibDht.Ring.UpdatePass
import LibDht.Ring.SuccList
import LibDht.Protocol.Step
import LibDht.Protocol.Invariant
import LibDht.Protocol.Handlers
import LibDht.Protocol.Ring
import LibDht.Protocol.Rest
import LibDht.Protocol.FingerRound
import LibDht.Protocol.Addresses
import LibDht.Protocol.Turns
import LibDht.Protocol.Fair
import LibDht.Protocol.Convergence
import LibDht.Protocol.Settling
import LibDht.Protocol.Tables
import LibDht.Protocol.Calm
import LibDht.Protocol.Failure
import LibDht.Protocol.Mending
import LibDht.Protocol.Spared
import LibDht.Wire.Codec
import LibDht.Wire.Header
import LibDht.Wire.Reply
import LibDht.Wire.Segments
import LibDht.Wire.Grammar
import LibDht.Net.Netio
import LibDht.Net.Message
import LibDht.Net.Callbacks
import LibDht.Net.NodeIo
import LibDht.Net.Advances
import LibDht.Net.Moves
import LibDht.Net.Operations
import LibDht.Net.Slots
import LibDht.Net.Reclaim
import LibDht.Net.Delivery
import LibDht.Net.Relay
import LibDht.Net.Framing
import LibDht.Net.Serving
import LibDht.Net.Arrivals
import LibDht.Net.Heirs
import LibDht.Net.Lookups
import LibDht.Net.AppMessages
import LibDht.Net.Replies
import LibDht.Net.Hops
import LibDht.Net.Erasure
import LibDht.Net.Written
import LibDht.Net.WrittenIo
import LibDht.Net.TwoRuns
import LibDht.Net.Encoding
import LibDht.Net.Ownership
import LibDht.Net.Wrapper
import LibDht.Net.HandlerTable
import LibDht.Net.Dispatch
import LibDht.Net.Exhaustion
import LibDht.Net.Malformed
import LibDht.Net.Joining
import LibDht.Net.ProbeResult
import LibDht.Loopback.Step
import LibDht.Loopback.Table
import LibDht.Loopback.Sending
import LibDht.Loopback.Arrival
import LibDht.Loopback.Wires
import LibDht.Loopback.Relaying
import LibDht.Loopback.Mirrored
import LibDht.Loopback.Requests
import LibDht.Loopback.Replies
import LibDht.Loopback.Refinement
import LibDht.Loopback.Consequences
