import Kpacket.Wire

/-!
# The relay object

The members of `ZmqRelay`, its start-up and shut-down as lists of statements, and `PublishPacket`.
A worker thread is `some` program counter from its start to its join. `Initialize` and `shutdown`
run their lists in one go; `System` takes the same statements one by one.
-/

namespace Kpacket

inductive SocketOption
  | sndhwm
  | linger
deriving DecidableEq

/-- A socket: the endpoint it is bound to, the options set on it, and for a REP socket whether the
last request is still unanswered. -/
structure Socket where
  endpoint : Option Bytes := none
  options : List (SocketOption × Int) := []
  owesReply : Bool := false
deriving DecidableEq

/-- Where `PublisherThread` stands. In `woken` and `holding` it holds `publish_mutex_`; from
`building` on it has taken a packet off the queue. -/
inductive PublisherPc
  | loop
  | waiting
  | woken
  | holding
  | building (packet : PacketInfo)
  | sending (packet : PacketInfo) (messageId : UInt64)
  | counting (packet : PacketInfo) (messageId : UInt64)
  | exited
deriving DecidableEq

/-- Where `ReliableQueueThread` stands; in `holding` it holds `queue_mutex_`. -/
inductive ReliablePc
  | loop
  | locking
  | holding
  | sending (packet : PacketInfo)
  | exited
deriving DecidableEq

/-- Where `CommandThread` stands. -/
inductive CommandPc
  | loop
  | receiving
  | processing (request : Bytes)
  | replying (request response : Bytes)
  | counting (request response : Bytes)
  | exited
deriving DecidableEq

structure Stats where
  packetsPublished : UInt64 := 0
  commandsProcessed : UInt64 := 0
  packetsInjected : UInt64 := 0
  packetsFiltered : UInt64 := 0
  publishDropped : UInt64 := 0
  pubSendErrors : UInt64 := 0
deriving DecidableEq

/-- What `HandleStatsCommand` loads, in its order. -/
inductive StatsField
  | packetsPublished
  | commandsProcessed
  | packetsInjected
  | packetsFiltered
  | publishDropped
  | pubSendErrors
  | queueSize
deriving DecidableEq

def StatsField.all : List StatsField :=
  [packetsPublished, commandsProcessed, packetsInjected, packetsFiltered, publishDropped,
    pubSendErrors, queueSize]

/-- The numbers that `HandleStatsCommand` has loaded, and those that it has still to load. -/
structure StatsLoads extends Stats where
  queueSize : Nat := 0
  left : List StatsField := StatsField.all
deriving DecidableEq

/-- The injector of `SetPacketInjector`: what it returns, or the `what()` of what it throws. -/
abbrev PacketInjector := UInt16 → Bytes → Except Bytes Bool

/-- What the player name provider answers if it is asked now. -/
abbrev PlayerName := Except Bytes (Option Bytes)

/-- The members of `ZmqRelay` that change, and the numbers of a `stats` reply in the making. -/
structure ZmqRelay where
  context : Bool := false
  pubSocket : Option Socket := none
  repSocket : Option Socket := none
  pushSocket : Option Socket := none
  running : Bool := false
  pubThread : Option PublisherPc := none
  repThread : Option CommandPc := none
  pushThread : Option ReliablePc := none
  packetQueue : List PacketInfo := []
  publishQueue : List PacketInfo := []
  packetFilter : Option (PacketInfo → Bool) := none
  packetInjector : Option PacketInjector := none
  playerNameProvider : Option PlayerName := none
  nextMessageId : UInt64 := 1
  stats : Stats := {}
  statsLoads : StatsLoads := {}

/-! ### `HandleStatsCommand` -/

/-- One load; that of the queue's length is made without `queue_mutex_`. -/
def StatsLoads.load (loads : StatsLoads) (r : ZmqRelay) (field : StatsField) : StatsLoads :=
  let loads := { loads with left := loads.left.tail }
  match field with
  | .packetsPublished => { loads with packetsPublished := r.stats.packetsPublished }
  | .commandsProcessed => { loads with commandsProcessed := r.stats.commandsProcessed }
  | .packetsInjected => { loads with packetsInjected := r.stats.packetsInjected }
  | .packetsFiltered => { loads with packetsFiltered := r.stats.packetsFiltered }
  | .publishDropped => { loads with publishDropped := r.stats.publishDropped }
  | .pubSendErrors => { loads with pubSendErrors := r.stats.pubSendErrors }
  | .queueSize => { loads with queueSize := r.packetQueue.length }

@[simp] theorem StatsLoads.left_load (loads : StatsLoads) (r : ZmqRelay) (field : StatsField) :
    (loads.load r field).left = loads.left.tail := by
  cases field <;> rfl

/-- All loads, with nothing in between. -/
def ZmqRelay.loadStats (r : ZmqRelay) : ZmqRelay :=
  { r with statsLoads := StatsField.all.foldl (fun loads field => loads.load r field) {} }

/-! ### `Initialize` -/

/-- The statements of `Initialize`. -/
inductive InitPoint
  | newContext
  | newPub
  | bindPub
  | newRep
  | bindRep
  | newPush
  | bindPush
  | setRunning
  | applySocketOptions
  | startPub
  | startRep
  | startPush
deriving DecidableEq

namespace InitPoint

/-- The statements that a configuration runs through. -/
def points (config : Config) : List InitPoint :=
  [newContext] ++ (if config.enablePacketStreaming then [newPub, bindPub] else []) ++
    (if config.enableCommandInterface then [newRep, bindRep] else []) ++
    (if config.enableReliableQueue then [newPush, bindPush] else []) ++
    [setRunning, applySocketOptions] ++
    (if config.enablePacketStreaming then [startPub] else []) ++
    (if config.enableCommandInterface then [startRep] else []) ++
    (if config.enableReliableQueue then [startPush] else [])

/-- `ApplySocketOptions` swallows its exceptions. -/
def canThrow : InitPoint → Bool
  | setRunning | applySocketOptions => false
  | _ => true

end InitPoint

namespace ZmqRelay

/-- The `set` calls of `ApplySocketOptions` on one socket; `n` counts those that are reached before
one of them throws. -/
def setOptions (opts : List (SocketOption × Int)) (n : Nat) (s : Option Socket) : Option Socket :=
  s.map fun s => { s with options := s.options ++ opts.take n }

def applySocketOptions (config : Config) (n : Nat) (r : ZmqRelay) : ZmqRelay :=
  let pub := [(.sndhwm, config.pubSndHwm), (.linger, config.pubLingerMs)]
  let n' := n - (if r.pubSocket.isSome then 2 else 0)
  let n'' := n' - (if r.repSocket.isSome then 1 else 0)
  { r with
    pubSocket := setOptions pub n r.pubSocket
    repSocket := setOptions [(.linger, config.repLingerMs)] n' r.repSocket
    pushSocket := setOptions [(.linger, config.pushLingerMs)] n'' r.pushSocket }

/-- The effect of one statement that does not throw. -/
def initStep (config : Config) (n : Nat) (r : ZmqRelay) : InitPoint → ZmqRelay
  | .newContext => { r with context := true }
  | .newPub => { r with pubSocket := some {} }
  | .bindPub =>
    { r with pubSocket := r.pubSocket.map fun s => { s with endpoint := some config.pubEndpoint } }
  | .newRep => { r with repSocket := some {} }
  | .bindRep =>
    { r with repSocket := r.repSocket.map fun s => { s with endpoint := some config.repEndpoint } }
  | .newPush => { r with pushSocket := some {} }
  | .bindPush =>
    { r with
      pushSocket := r.pushSocket.map fun s => { s with endpoint := some config.pushEndpoint } }
  | .setRunning => { r with running := true }
  | .applySocketOptions => applySocketOptions config n r
  | .startPub => { r with pubThread := some .loop }
  | .startRep => { r with repThread := some .loop }
  | .startPush => { r with pushThread := some .loop }

/-- Run the statements; the first one that throws ends `Initialize` with `false`. -/
def initSteps (config : Config) (throws : InitPoint → Bool) (n : Nat) :
    List InitPoint → ZmqRelay → Bool × ZmqRelay
  | [], r => (true, r)
  | p :: ps, r =>
    if p.canThrow && throws p then (false, r)
    else initSteps config throws n ps (initStep config n r p)

/-- `Initialize`, where `throws` tells the statements that raise an exception and `n` how far
`ApplySocketOptions` gets. -/
def Initialize (config : Config) (throws : InitPoint → Bool) (n : Nat) (r : ZmqRelay) :
    Bool × ZmqRelay :=
  initSteps config throws n (InitPoint.points config) r

/-! ### `Shutdown` -/

end ZmqRelay

/-- The statements of `Shutdown`; the joins wait for their threads. -/
inductive ShutdownPoint
  | clearRunning
  | joinPub
  | joinRep
  | joinPush
  | resetSockets
deriving DecidableEq

namespace ShutdownPoint

def points : List ShutdownPoint := [clearRunning, joinPub, joinRep, joinPush, resetSockets]

end ShutdownPoint

namespace ZmqRelay

def shutdownStep (r : ZmqRelay) : ShutdownPoint → ZmqRelay
  | .clearRunning => { r with running := false }
  | .joinPub => { r with pubThread := none }
  | .joinRep => { r with repThread := none }
  | .joinPush => { r with pushThread := none }
  | .resetSockets =>
    { r with pubSocket := none, repSocket := none, pushSocket := none, context := false }

/-- `Shutdown`, once the threads have run to their end. -/
def shutdown (r : ZmqRelay) : ZmqRelay := ShutdownPoint.points.foldl shutdownStep r

/-! ### `PublishPacket` -/

/-- Admission to the reliable queue; a full queue drops the packet. -/
def admitPacket (config : Config) (r : ZmqRelay) (packet : PacketInfo) : ZmqRelay :=
  if r.packetQueue.length < config.maxQueueSize then
    { r with packetQueue := r.packetQueue ++ [packet] }
  else r

def enqueue (r : ZmqRelay) (packet : PacketInfo) : ZmqRelay :=
  { r with publishQueue := r.publishQueue ++ [packet] }

/-- `packet_filter_ && !packet_filter_(packet)` -/
def filtered (r : ZmqRelay) (packet : PacketInfo) : Bool :=
  match r.packetFilter with
  | some f => !f packet
  | none => false

def countFiltered (r : ZmqRelay) : ZmqRelay :=
  { r with stats := { r.stats with packetsFiltered := r.stats.packetsFiltered + 1 } }

def publishPacket (config : Config) (r : ZmqRelay) (packet : PacketInfo) : ZmqRelay :=
  if !r.running || r.pubSocket.isNone then r
  else if r.filtered packet then r.countFiltered
  else
    let r := if config.enableReliableQueue then r.admitPacket config packet else r
    r.enqueue packet

/-! ### Idle relays -/

/-- A relay that is not running: no socket, no thread. -/
structure Idle (r : ZmqRelay) : Prop where
  running : r.running = false
  pubSocket : r.pubSocket = none
  repSocket : r.repSocket = none
  pushSocket : r.pushSocket = none
  pubThread : r.pubThread = none
  repThread : r.repThread = none
  pushThread : r.pushThread = none

theorem idle_new : Idle {} := ⟨rfl, rfl, rfl, rfl, rfl, rfl, rfl⟩

theorem Idle.publishPacket {r : ZmqRelay} (h : Idle r) (config : Config) (packet : PacketInfo) :
    r.publishPacket config packet = r := by
  rw [ZmqRelay.publishPacket, h.running]
  rfl

end ZmqRelay

end Kpacket
