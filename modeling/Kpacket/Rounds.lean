import Kpacket.Moves
import Kpacket.WireModes

/-!
# Undisturbed executions

What the system does when one party runs alone for a while: a call of `PublishPacket` has the effect
of `ZmqRelay.publishPacket` (`exec_call`), start-up of an idle relay that of `ZmqRelay.Initialize`
(`exec_Initialize`), and a worker hands the packet at the front of its queue to its socket
(`exec_publish`, `exec_push`) or answers a request (`exec_command`).
-/

namespace Kpacket

open Lts

namespace System

variable (env : Env) {s : System}

/-! ### `PublishPacket` -/

/-- The steps of a call, by what they find. -/
def callEvents (config : Config) (r : ZmqRelay) (packet : PacketInfo) : List CallerEvent :=
  [.call packet, .readRunning] ++
    if !r.running then []
    else
      [.readSocket] ++
        if r.pubSocket.isNone then []
        else
          [.filter packet (!r.filtered packet)] ++
            if r.filtered packet then []
            else
              [.admitPacket packet
                (config.enableReliableQueue && decide (r.packetQueue.length < config.maxQueueSize)),
                .enqueue packet]

theorem setCaller_relay_setCaller (i : Nat) (pc pc' : CallerPc) (r : ZmqRelay) :
    { s.setCaller i pc with relay := r }.setCaller i pc' =
      { s with relay := r }.setCaller i pc' := by
  simp only [setCaller, System.mk.injEq, true_and, and_true]
  funext j
  split_ifs <;> rfl

theorem setCaller_setCaller (i : Nat) (pc pc' : CallerPc) :
    (s.setCaller i pc).setCaller i pc' = s.setCaller i pc' :=
  setCaller_relay_setCaller i pc pc' s.relay

theorem setCaller_eq_self {i : Nat} {pc : CallerPc} (h : s.callers i = pc) :
    s.setCaller i pc = s := by
  have hc : (fun j => if j = i then pc else s.callers j) = s.callers := by
    funext j
    split_ifs with hj
    · rw [hj, h]
    · rfl
  rw [setCaller, hc]

theorem step_setCaller (hc : s.crashed = false) (i : Nat) (pc : CallerPc) (e : CallerEvent) :
    step env (s.setCaller i pc) (.caller i e) = (s.setCaller i pc).callerStep env i e := by
  rw [step, if_neg (by simp [setCaller, hc])]

section Call

variable (hc : s.crashed = false) {i : Nat} (hi : s.callers i = .idle) (packet : PacketInfo)
include hc

theorem step_readRunning :
    step env (s.setCaller i (.checkRunning packet)) (.caller i .readRunning) =
      some (s.setCaller i (if s.relay.running then .checkSocket packet else .idle)) := by
  rw [step_setCaller env hc, callerStep, setCaller_callers_self]
  exact congrArg some (setCaller_setCaller ..)

theorem step_readSocket : step env (s.setCaller i (.checkSocket packet)) (.caller i .readSocket) =
    some (s.setCaller i (if s.relay.pubSocket.isSome then .filtering packet else .idle)) := by
  rw [step_setCaller env hc, callerStep, setCaller_callers_self]
  exact congrArg some (setCaller_setCaller ..)

theorem step_passes (hf : s.relay.filtered packet = false) :
    step env (s.setCaller i (.filtering packet)) (.caller i (.filter packet true)) =
      some (s.setCaller i (.admitting packet)) := by
  simp [step_setCaller env hc, callerStep, setCaller_setCaller, hf]

theorem step_admitPacket (hq : queueMutexFree s.relay = true) :
    step env (s.setCaller i (.admitting packet)) (.caller i (.admitPacket packet
        (env.config.enableReliableQueue &&
          decide (s.relay.packetQueue.length < env.config.maxQueueSize)))) =
      some ({ s with relay :=
        if env.config.enableReliableQueue then s.relay.admitPacket env.config packet
        else s.relay }.setCaller i (.enqueueing packet)) := by
  rw [step_setCaller env hc, callerStep, if_pos (setCaller_callers_self ..)]
  cases env.config.enableReliableQueue with
  | false => exact congrArg some (setCaller_setCaller ..)
  | true =>
    rw [if_pos rfl, if_pos ⟨hq, Bool.true_and _⟩, if_pos rfl]
    exact congrArg some (setCaller_relay_setCaller ..)

include hi

theorem step_call : step env s (.caller i (.call packet)) =
    some (s.setCaller i (.checkRunning packet)) := by
  rw [step, if_neg (by simp [hc])]
  exact if_pos hi

theorem step_stops (hf : s.relay.filtered packet = true) :
    step env (s.setCaller i (.filtering packet)) (.caller i (.filter packet false)) =
      some { s with relay := s.relay.countFiltered } := by
  have hidle : { s with relay := s.relay.countFiltered }.setCaller i .idle =
      { s with relay := s.relay.countFiltered } := setCaller_eq_self hi
  simp [step_setCaller env hc, callerStep, setCaller_relay_setCaller, hf, hidle]

theorem step_enqueue (hp : publishMutexFree s.relay = true) :
    step env (s.setCaller i (.enqueueing packet)) (.caller i (.enqueue packet)) =
      some { s with relay := s.relay.enqueue packet } := by
  have hidle : { s with relay := s.relay.enqueue packet }.setCaller i .idle =
      { s with relay := s.relay.enqueue packet } := setCaller_eq_self hi
  simp [step_setCaller env hc, callerStep, setCaller_relay_setCaller, hp, hidle]

/-- A call that nothing interrupts is `publishPacket`. -/
theorem exec_call (hq : queueMutexFree s.relay = true) (hp : publishMutexFree s.relay = true) :
    exec (step env) s ((callEvents env.config s.relay packet).map (.caller i)) =
      some { s with relay := s.relay.publishPacket env.config packet } := by
  unfold callEvents ZmqRelay.publishPacket
  cases hr : s.relay.running with
  | false =>
    simp [exec, step_call env hc hi, step_readRunning env hc, hr, setCaller_eq_self hi]
  | true =>
    cases hs : s.relay.pubSocket with
    | none =>
      simp [exec, step_call env hc hi, step_readRunning env hc, step_readSocket env hc, hr, hs,
        setCaller_eq_self hi]
    | some socket =>
      cases hf : s.relay.filtered packet with
      | true =>
        simp [exec, step_call env hc hi, step_readRunning env hc, step_readSocket env hc,
          step_stops env hc hi packet hf, hr, hs]
      | false =>
        have hp' : publishMutexFree (if env.config.enableReliableQueue = true then
            s.relay.admitPacket env.config packet else s.relay) = true := by
          split_ifs
          · rwa [ZmqRelay.admitPacket_eq]
          · exact hp
        have henq := step_enqueue env (s := { s with relay :=
          if env.config.enableReliableQueue then s.relay.admitPacket env.config packet
          else s.relay }) hc hi packet hp'
        simp [exec, step_call env hc hi, step_readRunning env hc, step_readSocket env hc,
          step_passes env hc packet hf, step_admitPacket env hc packet hq, henq, hr, hs]

end Call

theorem publishPacket_passes {r : ZmqRelay} (packet : PacketInfo) (hr : r.running = true)
    (hs : r.pubSocket.isSome = true) (hf : r.filtered packet = false) (config : Config) :
    ∃ packets, r.publishPacket config packet =
      { r with packetQueue := packets, publishQueue := r.publishQueue ++ [packet] } := by
  obtain ⟨socket, hs⟩ := Option.isSome_iff_exists.mp hs
  cases he : config.enableReliableQueue with
  | false => exact ⟨_, by simp [ZmqRelay.publishPacket, ZmqRelay.enqueue, hr, hs, hf, he]; rfl⟩
  | true =>
    exact ⟨_, by
      simp [ZmqRelay.publishPacket, ZmqRelay.enqueue, ZmqRelay.admitPacket_eq, hr, hs, hf, he]
      rfl⟩

/-! ### `Initialize` -/

/-- The rest of `Initialize` from the statements that are left. -/
def initEvents (throws : InitPoint → Bool) (n : Nat) : List InitPoint → List OwnerEvent
  | [] => [.endInitialize]
  | p :: ps =>
    if p.canThrow && throws p then [.initThrows p] else .init p n :: initEvents throws n ps

/-- No statement has to wait for anything. -/
def CanInit (config : Config) (n : Nat) : List InitPoint → ZmqRelay → Prop
  | [], _ => True
  | p :: ps, r => canInit r p = true ∧ CanInit config n ps (r.initStep config n p)

theorem step_owner_eq (hc : s.crashed = false) (e : OwnerEvent) :
    step env s (.owner e) = s.ownerStep env e := by
  rw [step, if_neg (by simp [hc])]

theorem exec_initSteps (throws : InitPoint → Bool) (n : Nat) : ∀ {ps : List InitPoint} {s : System},
    s.crashed = false → s.owner = .initializing ps → CanInit env.config n ps s.relay →
      exec (step env) s ((initEvents throws n ps).map .owner) =
        some { s with
          relay := (s.relay.initSteps env.config throws n ps).2
          owner := .idle }
  | [], s, hc, ho, _ => by
    simp [initEvents, exec, step_owner_eq env hc, ownerStep, ho, ZmqRelay.initSteps]
  | p :: ps, s, hc, ho, hp => by
    obtain ⟨hcan, hp⟩ := hp
    rw [initEvents, ZmqRelay.initSteps]
    split_ifs with ht
    · have hthrow : p.canThrow = true := (Bool.and_eq_true_iff.mp ht).1
      simp [exec, step_owner_eq env hc, ownerStep, ho, hthrow]
    · have hstep : step env s (.owner (.init p n)) = some { s with
          relay := s.relay.initStep env.config n p
          owner := .initializing ps } := by
        simp [step_owner_eq env hc, ownerStep, ho, hcan]
      rw [List.map_cons, exec, hstep, Option.bind_some]
      exact exec_initSteps throws n hc rfl hp

theorem canInit_points {r : ZmqRelay} (h : r.Idle) (hx : r.context = false) (config : Config)
    (n : Nat) : CanInit config n (InitPoint.points config) r := by
  obtain ⟨-, h1, h2, h3, h4, h5, h6⟩ := h
  unfold InitPoint.points
  cases config.enablePacketStreaming <;> cases config.enableCommandInterface <;>
    cases config.enableReliableQueue <;>
      simp [CanInit, canInit, ZmqRelay.initStep, ZmqRelay.applySocketOptions, hx, h4, h5, h6]

/-- Start-up of an idle relay, whatever throws, is `Initialize`. -/
theorem exec_Initialize (hc : s.crashed = false) (ho : s.owner = .idle) (h : s.relay.Idle)
    (hx : s.relay.context = false) (throws : InitPoint → Bool) (n : Nat) :
    exec (step env) s ((.beginInitialize ::
        initEvents throws n (InitPoint.points env.config)).map .owner) =
      some { s with relay := (s.relay.Initialize env.config throws n).2 } := by
  have hbegin : step env s (.owner .beginInitialize) =
      some { s with owner := .initializing (InitPoint.points env.config) } := by
    rw [step_owner_eq env hc, ownerStep, if_pos ho]
  have hsteps := exec_initSteps env throws n
    (s := { s with owner := .initializing (InitPoint.points env.config) }) hc rfl
    (canInit_points h hx env.config n)
  rw [List.map_cons, exec, hbegin, Option.bind_some, hsteps, ← ho]
  rfl

/-- A new relay of the default configuration, started. -/
def startedRelay : ZmqRelay := (({} : ZmqRelay).Initialize {} (fun _ => false) 4).2

def startEvents : List OwnerEvent :=
  .beginInitialize :: initEvents (fun _ => false) 4 (InitPoint.points {})

theorem exec_started (parseError : Bytes → Bytes) (packetInjector : Option PacketInjector) :
    exec (step (defaultEnv parseError)) { relay := { packetInjector := packetInjector } }
        (startEvents.map .owner) =
      some { relay := { startedRelay with packetInjector := packetInjector } } :=
  exec_Initialize _ rfl rfl ⟨rfl, rfl, rfl, rfl, rfl, rfl, rfl⟩ rfl (fun _ => false) 4

theorem run_started (parseError : Bytes → Bytes) :
    ∃ es : List OwnerEvent,
      Run (step (defaultEnv parseError)) {} (es.map .owner) { relay := startedRelay } :=
  ⟨startEvents, Run.of_exec (exec_started parseError none)⟩

/-! ### `PublisherThread` -/

def publishEvents (packet : PacketInfo) (messageId : UInt64) (frames : List Bytes) :
    List PublisherEvent :=
  [.loop, .wake, .check, .pop packet, .assign packet messageId, .send packet messageId frames,
    .count packet messageId]

theorem exec_publish (packet : PacketInfo) (rest : List PacketInfo) {frames : List Bytes}
    (hc : s.crashed = false) (ht : s.relay.pubThread = some .loop) (hr : s.relay.running = true)
    (hq : s.relay.publishQueue = packet :: rest)
    (hm : message env packet s.relay.nextMessageId = .ok frames) :
    exec (step env) s ((publishEvents packet s.relay.nextMessageId frames).map .publisher) =
      some { s with relay := { s.relay with
        publishQueue := rest
        pubThread := some .loop
        nextMessageId := s.relay.nextMessageId + 1
        stats := { s.relay.stats with
          packetsPublished := s.relay.stats.packetsPublished + 1 } } } := by
  simp [publishEvents, exec, step, ZmqRelay.publisherStep, hc, ht, hr, hq, hm, Except.toOption]

/-! ### `ReliableQueueThread` -/

def pushEvents (packet : PacketInfo) (outcome : SendOutcome) : List ReliableEvent :=
  [.loop, .lock, .pop packet, .send packet outcome]

theorem exec_push (packet : PacketInfo) (rest : List PacketInfo) {outcome : SendOutcome}
    (hc : s.crashed = false) (ht : s.relay.pushThread = some .loop) (hr : s.relay.running = true)
    (hq : s.relay.packetQueue = packet :: rest) (ho : sendable env packet outcome = true) :
    exec (step env) s ((pushEvents packet outcome).map .reliable) =
      some { s with relay := { s.relay with packetQueue := rest, pushThread := some .loop } } := by
  simp [pushEvents, exec, step, ZmqRelay.reliableStep, hc, ht, hr, hq, ho]

/-! ### `CommandThread` -/

/-- The loads that a request comes to. -/
def loadEvents (env : Env) (request : Bytes) : List CommandEvent :=
  if commandOf env request = some (lit "stats") then StatsField.all.map (.load request) else []

def commandEvents (env : Env) (uptime : Int) (request response : Bytes) : List CommandEvent :=
  [.loop, .receive (some request)] ++ loadEvents env request ++
    [.process uptime request response, .reply request response, .count request response]

/-- The relay that the handler of the request sees. -/
def handled (env : Env) (r : ZmqRelay) (request : Bytes) : ZmqRelay :=
  if commandOf env request = some (lit "stats") then r.loadStats else { r with statsLoads := {} }

theorem processCommand_rep (env : Env) (r : ZmqRelay) (socket : Option Socket)
    (thread : Option CommandPc) (uptime : Int) (request : Bytes) :
    processCommand env { r with repSocket := socket, repThread := thread } uptime request =
      processCommand env r uptime request := rfl

theorem load_statsLoads (loads loads' : StatsLoads) (r : ZmqRelay) (field : StatsField) :
    loads.load { r with statsLoads := loads' } field = loads.load r field := by
  cases field <;> rfl

theorem exec_loads {request : Bytes} (hcmd : commandOf env request = some (lit "stats")) :
    ∀ {fields left : List StatsField} {s : System}, s.crashed = false →
      s.relay.repThread = some (.processing request) → s.relay.statsLoads.left = fields ++ left →
        exec (step env) s (fields.map fun field => .command (.load request field)) =
          some { s with relay := { s.relay with
            statsLoads := fields.foldl (fun loads field => loads.load s.relay field)
              s.relay.statsLoads } }
  | [], _, _, _, _, _ => rfl
  | field :: fields, left, s, hc, ht, hl => by
    have hstep : step env s (.command (.load request field)) = some { s with relay := { s.relay with
        statsLoads := s.relay.statsLoads.load s.relay field } } := by
      simp [step, ZmqRelay.commandStep, hc, ht, hcmd, hl]
    have hrest := @exec_loads request hcmd fields left { s with relay := { s.relay with
      statsLoads := s.relay.statsLoads.load s.relay field } } hc ht (by simp [hl])
    rw [List.map_cons, exec, hstep, Option.bind_some, hrest]
    simp only [load_statsLoads, List.foldl_cons]

theorem exec_received {request : Bytes} {socket : Socket} (hc : s.crashed = false)
    (ht : s.relay.repThread = some .loop) (hr : s.relay.running = true)
    (hs : s.relay.repSocket = some socket) (hf : socket.owesReply = false) :
    exec (step env) s
        (([CommandEvent.loop, .receive (some request)] ++ loadEvents env request).map .command) =
      some { s with relay := { s.relay with
        repThread := some (.processing request)
        repSocket := some { socket with owesReply := true }
        statsLoads := (handled env s.relay request).statsLoads } } := by
  have htake : exec (step env) s ([CommandEvent.loop, .receive (some request)].map .command) =
      some { s with relay := { s.relay with
        repThread := some (.processing request)
        repSocket := some { socket with owesReply := true }
        statsLoads := {} } } := by
    simp [exec, step, ZmqRelay.commandStep, hc, ht, hr, hs, hf]
  rw [List.map_append, exec_append, htake, Option.bind_some]
  unfold loadEvents handled
  split_ifs with hcmd
  · have hloads := @exec_loads env request hcmd StatsField.all [] { s with relay := { s.relay with
        repThread := some (.processing request)
        repSocket := some { socket with owesReply := true }
        statsLoads := {} } } hc rfl rfl
    rw [List.map_map]
    exact hloads
  · rfl

theorem exec_command {uptime : Int} {request response : Bytes} {socket : Socket}
    {calls : List (UInt16 × Bytes)} {injected : Bool} (hc : s.crashed = false)
    (ht : s.relay.repThread = some .loop) (hr : s.relay.running = true)
    (hs : s.relay.repSocket = some socket) (hf : socket.owesReply = false)
    (hp : processCommand env (handled env s.relay request) uptime request =
      ⟨.done response, calls, injected⟩) :
    exec (step env) s ((commandEvents env uptime request response).map .command) =
      some { s with relay := { s.relay with
        repThread := some .loop
        repSocket := some { socket with owesReply := false }
        stats := { s.relay.stats with
          packetsInjected := s.relay.stats.packetsInjected + if injected then 1 else 0
          commandsProcessed := s.relay.stats.commandsProcessed + 1 }
        statsLoads := (handled env s.relay request).statsLoads } } := by
  have hleft : commandOf env request = some (lit "stats") →
      (handled env s.relay request).statsLoads.left = [] := by
    intro hcmd
    rw [handled, if_pos hcmd]
    rfl
  have hrelay : handled env s.relay request =
      { s.relay with statsLoads := (handled env s.relay request).statsLoads } := by
    unfold handled
    split_ifs <;> rfl
  rw [commandEvents, List.map_append, exec_append, exec_received env hc ht hr hs hf,
    Option.bind_some]
  generalize (handled env s.relay request).statsLoads = loads at hleft hrelay ⊢
  rw [hrelay] at hp
  obtain ⟨r, callers, owner, crashed⟩ := s
  obtain ⟨context, pub, rep, push, running, pubThread, repThread, pushThread, packets, publish,
    filter, injector, name, next, stats, _⟩ := r
  obtain rfl : crashed = false := hc
  -- the command does not see the thread or its socket
  have hp' := (processCommand_rep env _ (some { socket with owesReply := true })
    (some (.processing request)) uptime request).trans hp
  cases injected <;> simp [exec, step, ZmqRelay.commandStep, hp', eq_true hleft]

end System

end Kpacket
