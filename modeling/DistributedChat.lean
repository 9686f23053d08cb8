import DistributedChat.Logic.Table
import DistributedChat.Logic.Prog
import DistributedChat.Logic.Runs
import DistributedChat.Protocol.MessageSerializer
import DistributedChat.Server.Managers
import DistributedChat.Server.ChatServer
import DistributedChat.Server.Sending
import DistributedChat.Server.Handlers
import DistributedChat.Server.Sessions
import DistributedChat.Server.Clients
import DistributedChat.Server.Registry
import DistributedChat.Server.Outputs
import DistributedChat.Server.Membership
import DistributedChat.Cluster.Model
import DistributedChat.Logic.Mirror
import DistributedChat.Cluster.Moves
import DistributedChat.Cluster.Traffic
import DistributedChat.Cluster.Mesh
import DistributedChat.Cluster.Start
import DistributedChat.Cluster.Moments
import DistributedChat.Cluster.Outages
import DistributedChat.Cluster.Authenticity
import DistributedChat.Cluster.Multicast
import DistributedChat.Cluster.Broadcast
import DistributedChat.Server.Replicas
import DistributedChat.Cluster.Replication
import DistributedChat.Cluster.Presence
import DistributedChat.Cluster.Rooms
import DistributedChat.Logic.Phases
import DistributedChat.Logic.Pool
import DistributedChat.Server.Threads
import DistributedChat.Server.Phases
import DistributedChat.Server.Views
import DistributedChat.Concurrency.Ghosts
import DistributedChat.Concurrency.Order
import DistributedChat.Concurrency.Purge
import DistributedChat.Concurrency.Winners
import DistributedChat.Concurrency.PeerSockets
import DistributedChat.Concurrency.Promotion
import DistributedChat.Core.Socket
import DistributedChat.Protocol.Framing
import DistributedChat.Logic.Writers
import DistributedChat.Concurrency.Frames
import DistributedChat.Concurrency.Backpressure
import DistributedChat.Server.FrameSizes
import DistributedChat.Server.Privates
import DistributedChat.Cluster.Privates
import DistributedChat.Client.ChatClient
import DistributedChat.Server.Announcements
import DistributedChat.Server.Acknowledgements
import DistributedChat.Concurrency.Arguments
import DistributedChat.Server.Promotions
import DistributedChat.Cluster.Namesakes
import DistributedChat.Client.Presence
import DistributedChat.Server.Wiring
import DistributedChat.Logic.Looping
import DistributedChat.Server.Listener
import DistributedChat.Logic.Tally
import DistributedChat.Logic.Traces
import DistributedChat.Core.ThreadPool
import DistributedChat.Concurrency.Tasks
import DistributedChat.Server.Failures
import DistributedChat.Concurrency.StaleFailures
import DistributedChat.Concurrency.RoomSync
import DistributedChat.Cluster.Contest
import DistributedChat.Client.CommandLine
import DistributedChat.Client.InputLoops
import DistributedChat.Core.SendLoop
import DistributedChat.Protocol.Lengths
import DistributedChat.Server.Purges
import DistributedChat.Concurrency.SessionFrames
import DistributedChat.Server.Isolation
import DistributedChat.Server.Malformed
import DistributedChat.Cluster.Storms
import DistributedChat.Concurrency.Connections
import DistributedChat.Concurrency.Dialing
import DistributedChat.Core.ConfigManager
import DistributedChat.Server.PeerIndex
import DistributedChat.Cluster.Homes
import DistributedChat.Cluster.Resync
import DistributedChat.Logic.Alike
import DistributedChat.Concurrency.Secrecy
import DistributedChat.Server.Heartbeats
import DistributedChat.Logic.Pace
import DistributedChat.Cluster.Heartbeats
import DistributedChat.Client.Lifecycle
import DistributedChat.Core.ConfigFile
import DistributedChat.Server.Startup
import DistributedChat.Client.Screen
import DistributedChat.Concurrency.Screens
import DistributedChat.Server.Closing
import DistributedChat.Concurrency.Shutdown
import DistributedChat.Logic.ChatService
import DistributedChat.Client.Service
import DistributedChat.Client.Typing
