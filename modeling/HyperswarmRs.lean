import HyperswarmRs.Async.Exec
import HyperswarmRs.Async.Stream
import HyperswarmRs.Async.Run
import HyperswarmRs.Async.KeepFirst
import HyperswarmRs.Async.Trace
import HyperswarmRs.Net
import HyperswarmRs.Transport.Basic
import HyperswarmRs.Transport.Tcp
import HyperswarmRs.Transport.Utp
import HyperswarmRs.Transport.Combined
import HyperswarmRs.Transport.Served
import HyperswarmRs.Transport.Polling
import HyperswarmRs.Transport.Arrivals
import HyperswarmRs.Transport.Taking
import HyperswarmRs.Transport.Runs
import HyperswarmRs.Transport.TcpRuns
import HyperswarmRs.Transport.Wakeups
import HyperswarmRs.Transport.Reconnect
import HyperswarmRs.Transport.Draining
import HyperswarmRs.Discovery.Basic
import HyperswarmRs.Discovery.Dht
import HyperswarmRs.Discovery.Polling
import HyperswarmRs.Discovery.DhtRuns
import HyperswarmRs.Discovery.Mdns
import HyperswarmRs.Discovery.MdnsRuns
import HyperswarmRs.Discovery.MdnsWakeups
import HyperswarmRs.Discovery.Combined
import HyperswarmRs.Discovery.CombinedPolling
import HyperswarmRs.Discovery.CombinedRuns
import HyperswarmRs.Discovery.Draining
import HyperswarmRs.Config
import HyperswarmRs.Setters
import HyperswarmRs.Util
import HyperswarmRs.Swarm.Basic
import HyperswarmRs.Swarm.Polling
import HyperswarmRs.Swarm.Wakeups
import HyperswarmRs.Swarm.Conservation
import HyperswarmRs.Swarm.Commands
import HyperswarmRs.Swarm.Bind
import HyperswarmRs.Swarm.Topics
import HyperswarmRs.Swarm.DiscoveryRuns
import HyperswarmRs.Swarm.Handles
import HyperswarmRs.Swarm.Configures
import HyperswarmRs.Swarm.Dialling
import HyperswarmRs.Swarm.Taking
import HyperswarmRs.Swarm.Draining
import HyperswarmRs.Network.Basic
import HyperswarmRs.Network.Links
import HyperswarmRs.Network.WellLinked
import HyperswarmRs.Network.Agreement
import HyperswarmRs.Network.Nodes
import HyperswarmRs.Network.Topics
import HyperswarmRs.Network.Delivery
import HyperswarmRs.Chat.Settling
import HyperswarmRs.Chat.Tasks
import HyperswarmRs.Chat.Listeners
import HyperswarmRs.Chat.BroadcastRuns
import HyperswarmRs.Chat.Telling
import HyperswarmRs.Chat.Network
import HyperswarmRs.Chat.Ends
import HyperswarmRs.Chat.Joined
import HyperswarmRs.Chat.Hearing
import HyperswarmRs.Chat.Printing
