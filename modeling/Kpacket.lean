import Kpacket.Asking
import Kpacket.Base64Ints
import Kpacket.Calling
import Kpacket.CommandRuns
import Kpacket.Drops
import Kpacket.Families
import Kpacket.Feeding
import Kpacket.Filtering
import Kpacket.FromJson
import Kpacket.Handlers
import Kpacket.Health
import Kpacket.InjectRuns
import Kpacket.Monitor
import Kpacket.MonitorStore
import Kpacket.MonitorThreads
import Kpacket.PacketJunk
import Kpacket.PacketMonitor
import Kpacket.QueueBounds
import Kpacket.Quiescence
import Kpacket.SessionIds
import Kpacket.Sessions
import Kpacket.StatsReplies
import Kpacket.TextCallbacks
import Kpacket.Topics
