import Kpacket.Command
import Kpacket.Lts

/-!
# The relay and everything that runs in it

One transition system: any number of callers in `PublishPacket`, the three worker threads, and the
owner, who starts the relay, shuts it down and sets its callbacks. A step is one access to shared
memory or one critical section. Labels carry what a step moves, so that histories can be read off a
run; the outcome of a socket operation is part of the label. Memory allocation does not fail.
-/

namespace Kpacket

/-! ### `PublisherThread` -/

inductive PublisherEvent
  | loop
  | wake
  | check
  | empty
  | pop (packet : PacketInfo)
  | assign (packet : PacketInfo) (messageId : UInt64)
  | send (packet : PacketInfo) (messageId : UInt64) (frames : List Bytes)
  | count (packet : PacketInfo) (messageId : UInt64)
  | fail (packet : PacketInfo) (messageId : UInt64)

namespace ZmqRelay

/-- `wake` ends `wait_for`, after the timeout or a notification, with `publish_mutex_` held. `fail`
is an exception of `dump` or of the socket. -/
def publisherStep (env : Env) (r : ZmqRelay) : PublisherEvent → Option ZmqRelay
  | .loop =>
    if r.pubThread = some .loop then
      some { r with pubThread := some (if r.running then .waiting else .exited) }
    else none
  | .wake => if r.pubThread = some .waiting then some { r with pubThread := some .woken } else none
  | .check =>
    if r.pubThread = some .woken then
      some { r with pubThread := some (if r.running then .holding else .exited) }
    else none
  | .empty =>
    if r.pubThread = some .holding ∧ r.publishQueue = [] then
      some { r with pubThread := some .loop }
    else none
  | .pop packet =>
    if r.pubThread = some .holding ∧ r.publishQueue.head? = some packet then
      some { r with
        publishQueue := r.publishQueue.tail
        pubThread := some (.building packet) }
    else none
  | .assign packet messageId =>
    if r.pubThread = some (.building packet) ∧ messageId = r.nextMessageId then
      some { r with
        nextMessageId := r.nextMessageId + 1
        pubThread := some (.sending packet messageId) }
    else none
  | .send packet messageId frames =>
    if r.pubThread = some (.sending packet messageId) ∧
        (message env packet messageId).toOption = some frames then
      some { r with pubThread := some (.counting packet messageId) }
    else none
  | .count packet messageId =>
    if r.pubThread = some (.counting packet messageId) then
      some { r with
        stats := { r.stats with packetsPublished := r.stats.packetsPublished + 1 }
        pubThread := some .loop }
    else none
  | .fail packet messageId =>
    if r.pubThread = some (.sending packet messageId) then
      some { r with
        stats := { r.stats with pubSendErrors := r.stats.pubSendErrors + 1 }
        pubThread := some .loop }
    else none

end ZmqRelay

/-! ### `ReliableQueueThread` -/

/-- What becomes of a `dontwait` send: accepted, refused with `EAGAIN`, or an exception. -/
inductive SendOutcome
  | accepted (text : Bytes)
  | again
  | thrown
deriving DecidableEq

inductive ReliableEvent
  | loop
  | lock
  | empty
  | pop (packet : PacketInfo)
  | send (packet : PacketInfo) (outcome : SendOutcome)

/-- A message can only be accepted or refused if there is one. -/
def sendable (env : Env) (packet : PacketInfo) : SendOutcome → Bool
  | .accepted text => (env.json.dump (toJson packet)).toOption = some text
  | .again => (env.json.dump (toJson packet)).toOption.isSome
  | .thrown => true

namespace ZmqRelay

/-- The result of the send is not looked at. -/
def reliableStep (env : Env) (r : ZmqRelay) : ReliableEvent → Option ZmqRelay
  | .loop =>
    if r.pushThread = some .loop then
      some { r with pushThread := some (if r.running then .locking else .exited) }
    else none
  | .lock =>
    if r.pushThread = some .locking then some { r with pushThread := some .holding } else none
  | .empty =>
    if r.pushThread = some .holding ∧ r.packetQueue = [] then
      some { r with pushThread := some .loop }
    else none
  | .pop packet =>
    if r.pushThread = some .holding ∧ r.packetQueue.head? = some packet then
      some { r with
        packetQueue := r.packetQueue.tail
        pushThread := some (.sending packet) }
    else none
  | .send packet outcome =>
    if r.pushThread = some (.sending packet) ∧ sendable env packet outcome = true then
      some { r with pushThread := some .loop }
    else none

end ZmqRelay

/-! ### `CommandThread` -/

inductive CommandEvent
  | loop
  | receive (request : Option Bytes)
  | load (request : Bytes) (field : StatsField)
  | process (uptime : Int) (request response : Bytes)
  | undefinedLookup (uptime : Int) (request : Bytes)
  | reply (request response : Bytes)
  | count (request response : Bytes)

namespace ZmqRelay

/-- `receive none` is a `recv` without a message or with an exception, which is all that a REP
socket allows while a reply is owed; a reply that is owed is always accepted. A `stats` request is
processed by one load after the other, and its reply made of what they have found. -/
def commandStep (env : Env) (r : ZmqRelay) : CommandEvent → Option ZmqRelay
  | .loop =>
    if r.repThread = some .loop then
      some { r with repThread := some (if r.running then .receiving else .exited) }
    else none
  | .receive none =>
    if r.repThread = some .receiving then some { r with repThread := some .loop } else none
  | .receive (some request) =>
    if r.repThread = some .receiving ∧ (r.repSocket.map Socket.owesReply) = some false then
      some { r with
        repSocket := r.repSocket.map fun s => { s with owesReply := true }
        repThread := some (.processing request)
        statsLoads := {} }
    else none
  | .load request field =>
    if r.repThread = some (.processing request) ∧ commandOf env request = some (lit "stats") ∧
        r.statsLoads.left.head? = some field then
      some { r with statsLoads := r.statsLoads.load r field }
    else none
  | .process uptime request response =>
    match processCommand env r uptime request with
    | ⟨.done response', _, injected⟩ =>
      if r.repThread = some (.processing request) ∧ response = response' ∧
          (commandOf env request = some (lit "stats") → r.statsLoads.left = []) then
        some { r with
          stats :=
            if injected then { r.stats with packetsInjected := r.stats.packetsInjected + 1 }
            else r.stats
          repThread := some (.replying request response) }
      else none
    | _ => none
  | .undefinedLookup uptime request =>
    match (processCommand env r uptime request).outcome with
    | .undefined => if r.repThread = some (.processing request) then some r else none
    | _ => none
  | .reply request response =>
    if r.repThread = some (.replying request response) then
      some { r with
        repSocket := r.repSocket.map fun s => { s with owesReply := false }
        repThread := some (.counting request response) }
    else none
  | .count request response =>
    if r.repThread = some (.counting request response) then
      some { r with
        stats := { r.stats with commandsProcessed := r.stats.commandsProcessed + 1 }
        repThread := some .loop }
    else none

end ZmqRelay

/-! ### Callers and the owner -/

/-- Where a call of `PublishPacket` stands. -/
inductive CallerPc
  | idle
  | checkRunning (packet : PacketInfo)
  | checkSocket (packet : PacketInfo)
  | filtering (packet : PacketInfo)
  | admitting (packet : PacketInfo)
  | enqueueing (packet : PacketInfo)
deriving DecidableEq

inductive CallerEvent
  | call (packet : PacketInfo)
  | readRunning
  | readSocket
  | filter (packet : PacketInfo) (passed : Bool)
  | admitPacket (packet : PacketInfo) (admitted : Bool)
  | enqueue (packet : PacketInfo)

def CallerEvent.passed? : CallerEvent → Option PacketInfo
  | .filter packet true => some packet
  | _ => none

def CallerEvent.admitted? : CallerEvent → Option PacketInfo
  | .admitPacket packet true => some packet
  | _ => none

def CallerEvent.enqueued? : CallerEvent → Option PacketInfo
  | .enqueue packet => some packet
  | _ => none

/-- What the owner is in the middle of. -/
inductive OwnerPc
  | idle
  | initializing (points : List InitPoint)
  | shuttingDown (points : List ShutdownPoint)
deriving DecidableEq

inductive OwnerEvent
  | beginInitialize
  | init (point : InitPoint) (n : Nat)
  | initThrows (point : InitPoint)
  | endInitialize
  | beginShutdown
  | shut (point : ShutdownPoint)
  | endShutdown
  | setPacketFilter (filter : Option (PacketInfo → Bool))
  | setPacketInjector (injector : Option PacketInjector)
  | setPlayerNameProvider (name : Option PlayerName)

structure System where
  relay : ZmqRelay := {}
  callers : Nat → CallerPc := fun _ => .idle
  owner : OwnerPc := .idle
  crashed : Bool := false

namespace System

def setCaller (s : System) (i : Nat) (pc : CallerPc) : System :=
  { s with callers := fun j => if j = i then pc else s.callers j }

/-- `PublisherThread` does not hold `publish_mutex_`. -/
def publishMutexFree (r : ZmqRelay) : Bool :=
  r.pubThread ≠ some .woken ∧ r.pubThread ≠ some .holding

/-- `ReliableQueueThread` does not hold `queue_mutex_`. -/
def queueMutexFree (r : ZmqRelay) : Bool := r.pushThread ≠ some .holding

def callerStep (env : Env) (s : System) (i : Nat) : CallerEvent → Option System
  | .call packet =>
    if s.callers i = .idle then some (s.setCaller i (.checkRunning packet)) else none
  | .readRunning =>
    match s.callers i with
    | .checkRunning packet =>
      some (s.setCaller i (if s.relay.running then .checkSocket packet else .idle))
    | _ => none
  | .readSocket =>
    match s.callers i with
    | .checkSocket packet =>
      some (s.setCaller i (if s.relay.pubSocket.isSome then .filtering packet else .idle))
    | _ => none
  | .filter packet passed =>
    if s.callers i = .filtering packet ∧ passed = !s.relay.filtered packet then
      if passed then some (s.setCaller i (.admitting packet))
      else some ({ s with relay := s.relay.countFiltered }.setCaller i .idle)
    else none
  | .admitPacket packet admitted =>
    if s.callers i = .admitting packet then
      if env.config.enableReliableQueue then
        if queueMutexFree s.relay ∧
            admitted = decide (s.relay.packetQueue.length < env.config.maxQueueSize) then
          some ({ s with relay := s.relay.admitPacket env.config packet }.setCaller i
            (.enqueueing packet))
        else none
      else if admitted = false then some (s.setCaller i (.enqueueing packet))
      else none
    else none
  | .enqueue packet =>
    if s.callers i = .enqueueing packet ∧ publishMutexFree s.relay then
      some ({ s with relay := s.relay.enqueue packet }.setCaller i .idle)
    else none

/-- Replacing a context waits until its sockets are closed, and a thread object that is joinable
cannot be assigned to. -/
def canInit (r : ZmqRelay) : InitPoint → Bool
  | .newContext => !r.context || r.pubSocket.isNone && r.repSocket.isNone && r.pushSocket.isNone
  | .startPub => r.pubThread.isNone
  | .startRep => r.repThread.isNone
  | .startPush => r.pushThread.isNone
  | _ => true

/-- A join waits for its thread to end. -/
def canShut (r : ZmqRelay) : ShutdownPoint → Bool
  | .joinPub => r.pubThread = none ∨ r.pubThread = some .exited
  | .joinRep => r.repThread = none ∨ r.repThread = some .exited
  | .joinPush => r.pushThread = none ∨ r.pushThread = some .exited
  | _ => true

def ownerStep (env : Env) (s : System) : OwnerEvent → Option System
  | .beginInitialize =>
    if s.owner = .idle then some { s with owner := .initializing (InitPoint.points env.config) }
    else none
  | .init point n =>
    match s.owner with
    | .initializing (p :: ps) =>
      if point = p ∧ canInit s.relay p then
        some { s with relay := s.relay.initStep env.config n p, owner := .initializing ps }
      else none
    | _ => none
  | .initThrows point =>
    match s.owner with
    | .initializing (p :: _) =>
      if point = p ∧ p.canThrow then some { s with owner := .idle } else none
    | _ => none
  | .endInitialize =>
    if s.owner = .initializing [] then some { s with owner := .idle } else none
  | .beginShutdown =>
    if s.owner = .idle then some { s with owner := .shuttingDown ShutdownPoint.points } else none
  | .shut point =>
    match s.owner with
    | .shuttingDown (p :: ps) =>
      if point = p ∧ canShut s.relay p then
        some { s with relay := s.relay.shutdownStep p, owner := .shuttingDown ps }
      else none
    | _ => none
  | .endShutdown =>
    if s.owner = .shuttingDown [] then some { s with owner := .idle } else none
  | .setPacketFilter filter => some { s with relay := { s.relay with packetFilter := filter } }
  | .setPacketInjector injector =>
    some { s with relay := { s.relay with packetInjector := injector } }
  | .setPlayerNameProvider name =>
    some { s with relay := { s.relay with playerNameProvider := name } }

end System

/-! ### The system -/

inductive Label
  | caller (i : Nat) (e : CallerEvent)
  | publisher (e : PublisherEvent)
  | reliable (e : ReliableEvent)
  | command (e : CommandEvent)
  | owner (e : OwnerEvent)

namespace System

/-- An undefined lookup in the command thread takes the process down. -/
def step (env : Env) (s : System) (l : Label) : Option System :=
  if s.crashed then none
  else
    match l with
    | .caller i e => s.callerStep env i e
    | .publisher e => (s.relay.publisherStep env e).map fun r => { s with relay := r }
    | .reliable e => (s.relay.reliableStep env e).map fun r => { s with relay := r }
    | .command (.undefinedLookup uptime request) =>
      (s.relay.commandStep env (.undefinedLookup uptime request)).map fun r =>
        { s with relay := r, crashed := true }
    | .command e => (s.relay.commandStep env e).map fun r => { s with relay := r }
    | .owner e => s.ownerStep env e

end System

end Kpacket
