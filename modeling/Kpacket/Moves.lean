import Kpacket.System

/-!
# What a step is

`CommandMove`, `CallerMove` and `OwnerMove` list the steps of the command thread, of a caller and of
the owner with their guards and their effects, so that their step functions are taken apart here
only. From them: what each party touches, and which party a step of the system belongs to.
-/

namespace Kpacket

/-! ### Moves -/

section Moves

variable (env : Env)

/-- A step of `CommandThread`, with the state after it. -/
inductive CommandMove (r : ZmqRelay) : CommandEvent → ZmqRelay → Prop
  | loop (ht : r.repThread = some .loop) :
    CommandMove r .loop { r with repThread := some (if r.running then .receiving else .exited) }
  | receiveNone (ht : r.repThread = some .receiving) :
    CommandMove r (.receive none) { r with repThread := some .loop }
  | receive (request : Bytes) (ht : r.repThread = some .receiving)
      (ho : r.repSocket.map Socket.owesReply = some false) :
    CommandMove r (.receive (some request)) { r with
      repSocket := r.repSocket.map fun s => { s with owesReply := true }
      repThread := some (.processing request)
      statsLoads := {} }
  | load (request : Bytes) (field : StatsField) (ht : r.repThread = some (.processing request))
      (hc : commandOf env request = some (lit "stats"))
      (hf : r.statsLoads.left.head? = some field) :
    CommandMove r (.load request field) { r with statsLoads := r.statsLoads.load r field }
  | process (uptime : Int) (request response : Bytes) (calls : List (UInt16 × Bytes))
      (injected : Bool) (ht : r.repThread = some (.processing request))
      (hp : processCommand env r uptime request = ⟨.done response, calls, injected⟩)
      (hl : commandOf env request = some (lit "stats") → r.statsLoads.left = []) :
    CommandMove r (.process uptime request response) { r with
      stats :=
        if injected then { r.stats with packetsInjected := r.stats.packetsInjected + 1 }
        else r.stats
      repThread := some (.replying request response) }
  | undefinedLookup (uptime : Int) (request : Bytes) (ht : r.repThread = some (.processing request))
      (hp : (processCommand env r uptime request).outcome = .undefined) :
    CommandMove r (.undefinedLookup uptime request) r
  | reply (request response : Bytes) (ht : r.repThread = some (.replying request response)) :
    CommandMove r (.reply request response) { r with
      repSocket := r.repSocket.map fun s => { s with owesReply := false }
      repThread := some (.counting request response) }
  | count (request response : Bytes) (ht : r.repThread = some (.counting request response)) :
    CommandMove r (.count request response) { r with
      stats := { r.stats with commandsProcessed := r.stats.commandsProcessed + 1 }
      repThread := some .loop }

/-- A step of caller `i`, with the relay and the place in the call after it. -/
inductive CallerMove (s : System) (i : Nat) : CallerEvent → ZmqRelay → CallerPc → Prop
  | call (packet : PacketInfo) (hpc : s.callers i = .idle) :
    CallerMove s i (.call packet) s.relay (.checkRunning packet)
  | readRunning (packet : PacketInfo) (hpc : s.callers i = .checkRunning packet) :
    CallerMove s i .readRunning s.relay (if s.relay.running then .checkSocket packet else .idle)
  | readSocket (packet : PacketInfo) (hpc : s.callers i = .checkSocket packet) :
    CallerMove s i .readSocket s.relay
      (if s.relay.pubSocket.isSome then .filtering packet else .idle)
  | pass (packet : PacketInfo) (hpc : s.callers i = .filtering packet)
      (hf : s.relay.filtered packet = false) :
    CallerMove s i (.filter packet true) s.relay (.admitting packet)
  | drop (packet : PacketInfo) (hpc : s.callers i = .filtering packet)
      (hf : s.relay.filtered packet = true) :
    CallerMove s i (.filter packet false) s.relay.countFiltered .idle
  | admitPacket (packet : PacketInfo) (admitted : Bool) (hpc : s.callers i = .admitting packet)
      (he : env.config.enableReliableQueue = true) (hm : System.queueMutexFree s.relay = true)
      (ha : admitted = decide (s.relay.packetQueue.length < env.config.maxQueueSize)) :
    CallerMove s i (.admitPacket packet admitted) (s.relay.admitPacket env.config packet)
      (.enqueueing packet)
  | bypass (packet : PacketInfo) (hpc : s.callers i = .admitting packet)
      (he : env.config.enableReliableQueue = false) :
    CallerMove s i (.admitPacket packet false) s.relay (.enqueueing packet)
  | enqueue (packet : PacketInfo) (hpc : s.callers i = .enqueueing packet)
      (hm : System.publishMutexFree s.relay = true) :
    CallerMove s i (.enqueue packet) (s.relay.enqueue packet) .idle

/-- A step of the owner, with the relay and what is left to do after it. -/
inductive OwnerMove (s : System) : OwnerEvent → ZmqRelay → OwnerPc → Prop
  | beginInitialize (ho : s.owner = .idle) :
    OwnerMove s .beginInitialize s.relay (.initializing (InitPoint.points env.config))
  | init (p : InitPoint) (ps : List InitPoint) (n : Nat) (ho : s.owner = .initializing (p :: ps))
      (hc : System.canInit s.relay p = true) :
    OwnerMove s (.init p n) (s.relay.initStep env.config n p) (.initializing ps)
  | initThrows (p : InitPoint) (ps : List InitPoint) (ho : s.owner = .initializing (p :: ps))
      (hp : p.canThrow = true) :
    OwnerMove s (.initThrows p) s.relay .idle
  | endInitialize (ho : s.owner = .initializing []) : OwnerMove s .endInitialize s.relay .idle
  | beginShutdown (ho : s.owner = .idle) :
    OwnerMove s .beginShutdown s.relay (.shuttingDown ShutdownPoint.points)
  | shut (p : ShutdownPoint) (ps : List ShutdownPoint) (ho : s.owner = .shuttingDown (p :: ps))
      (hc : System.canShut s.relay p = true) :
    OwnerMove s (.shut p) (s.relay.shutdownStep p) (.shuttingDown ps)
  | endShutdown (ho : s.owner = .shuttingDown []) : OwnerMove s .endShutdown s.relay .idle
  | setPacketFilter (filter : Option (PacketInfo → Bool)) :
    OwnerMove s (.setPacketFilter filter) { s.relay with packetFilter := filter } s.owner
  | setPacketInjector (injector : Option PacketInjector) :
    OwnerMove s (.setPacketInjector injector) { s.relay with packetInjector := injector } s.owner
  | setPlayerNameProvider (name : Option PlayerName) :
    OwnerMove s (.setPlayerNameProvider name) { s.relay with playerNameProvider := name } s.owner

end Moves

section

variable {env : Env} {r r' : ZmqRelay} {s s' : System}

theorem ZmqRelay.commandStep_move {e : CommandEvent} (h : r.commandStep env e = some r') :
    CommandMove env r e r' := by
  cases e with
  | loop =>
    simp only [commandStep, Option.ite_none_right_eq_some, Option.some.injEq] at h
    obtain ⟨ht, rfl⟩ := h
    exact .loop ht
  | receive request =>
    cases request <;>
      simp only [commandStep, Option.ite_none_right_eq_some, Option.some.injEq] at h
    · obtain ⟨ht, rfl⟩ := h
      exact .receiveNone ht
    · obtain ⟨⟨ht, ho⟩, rfl⟩ := h
      exact .receive _ ht ho
  | load request field =>
    simp only [commandStep, Option.ite_none_right_eq_some, Option.some.injEq] at h
    obtain ⟨⟨ht, hc, hf⟩, rfl⟩ := h
    exact .load _ _ ht hc hf
  | process uptime request response =>
    simp only [commandStep] at h
    split at h
    · next response' calls injected hp =>
      simp only [Option.ite_none_right_eq_some, Option.some.injEq] at h
      obtain ⟨⟨ht, rfl, hl⟩, rfl⟩ := h
      exact .process _ _ _ calls _ ht hp hl
    · cases h
  | undefinedLookup uptime request =>
    simp only [commandStep] at h
    split at h
    · next hp =>
      simp only [Option.ite_none_right_eq_some, Option.some.injEq] at h
      obtain ⟨ht, rfl⟩ := h
      exact .undefinedLookup _ _ ht hp
    · cases h
  | reply request response =>
    simp only [commandStep, Option.ite_none_right_eq_some, Option.some.injEq] at h
    obtain ⟨ht, rfl⟩ := h
    exact .reply _ _ ht
  | count request response =>
    simp only [commandStep, Option.ite_none_right_eq_some, Option.some.injEq] at h
    obtain ⟨ht, rfl⟩ := h
    exact .count _ _ ht

theorem System.callerStep_move {i : Nat} {e : CallerEvent} (h : s.callerStep env i e = some s') :
    ∃ r pc, CallerMove env s i e r pc ∧ s' = { s with relay := r }.setCaller i pc := by
  cases e with
  | call packet =>
    simp only [callerStep, Option.ite_none_right_eq_some, Option.some.injEq] at h
    obtain ⟨hpc, rfl⟩ := h
    exact ⟨_, _, .call _ hpc, rfl⟩
  | readRunning =>
    simp only [callerStep] at h
    split at h
    · next hpc =>
      cases h
      exact ⟨_, _, .readRunning _ hpc, rfl⟩
    · cases h
  | readSocket =>
    simp only [callerStep] at h
    split at h
    · next hpc =>
      cases h
      exact ⟨_, _, .readSocket _ hpc, rfl⟩
    · cases h
  | filter packet passed =>
    simp only [callerStep] at h
    split_ifs at h with hpc hp <;> obtain ⟨hpc, hf⟩ := hpc
    · subst hp
      cases h
      exact ⟨_, _, .pass _ hpc (by simpa using hf.symm), rfl⟩
    · obtain rfl := eq_false_of_ne_true hp
      cases h
      exact ⟨_, _, .drop _ hpc (by simpa using hf.symm), rfl⟩
  | admitPacket packet admitted =>
    simp only [callerStep] at h
    split_ifs at h with hpc he hm ha
    · cases h
      exact ⟨_, _, .admitPacket _ _ hpc he hm.1 hm.2, rfl⟩
    · subst ha
      cases h
      exact ⟨_, _, .bypass _ hpc (eq_false_of_ne_true he), rfl⟩
  | enqueue packet =>
    simp only [callerStep, Option.ite_none_right_eq_some, Option.some.injEq] at h
    obtain ⟨⟨hpc, hm⟩, rfl⟩ := h
    exact ⟨_, _, .enqueue _ hpc hm, rfl⟩

theorem System.ownerStep_move {e : OwnerEvent} (h : s.ownerStep env e = some s') :
    ∃ r pc, OwnerMove env s e r pc ∧ s' = { s with relay := r, owner := pc } := by
  cases e with
  | init point n =>
    simp only [ownerStep] at h
    split at h
    · next ho =>
      simp only [Option.ite_none_right_eq_some, Option.some.injEq] at h
      obtain ⟨⟨rfl, hc⟩, rfl⟩ := h
      exact ⟨_, _, .init _ _ n ho hc, rfl⟩
    · cases h
  | initThrows point =>
    simp only [ownerStep] at h
    split at h
    · next ho =>
      simp only [Option.ite_none_right_eq_some, Option.some.injEq] at h
      obtain ⟨⟨rfl, hp⟩, rfl⟩ := h
      exact ⟨_, _, .initThrows _ _ ho hp, rfl⟩
    · cases h
  | shut point =>
    simp only [ownerStep] at h
    split at h
    · next ho =>
      simp only [Option.ite_none_right_eq_some, Option.some.injEq] at h
      obtain ⟨⟨rfl, hc⟩, rfl⟩ := h
      exact ⟨_, _, .shut _ _ ho hc, rfl⟩
    · cases h
  | beginInitialize =>
    simp only [ownerStep, Option.ite_none_right_eq_some, Option.some.injEq] at h
    obtain ⟨ho, rfl⟩ := h
    exact ⟨_, _, .beginInitialize ho, rfl⟩
  | endInitialize =>
    simp only [ownerStep, Option.ite_none_right_eq_some, Option.some.injEq] at h
    obtain ⟨ho, rfl⟩ := h
    exact ⟨_, _, .endInitialize ho, rfl⟩
  | beginShutdown =>
    simp only [ownerStep, Option.ite_none_right_eq_some, Option.some.injEq] at h
    obtain ⟨ho, rfl⟩ := h
    exact ⟨_, _, .beginShutdown ho, rfl⟩
  | endShutdown =>
    simp only [ownerStep, Option.ite_none_right_eq_some, Option.some.injEq] at h
    obtain ⟨ho, rfl⟩ := h
    exact ⟨_, _, .endShutdown ho, rfl⟩
  | setPacketFilter filter =>
    cases h
    exact ⟨_, _, .setPacketFilter filter, rfl⟩
  | setPacketInjector injector =>
    cases h
    exact ⟨_, _, .setPacketInjector injector, rfl⟩
  | setPlayerNameProvider name =>
    cases h
    exact ⟨_, _, .setPlayerNameProvider name, rfl⟩

/-! ### What each party touches -/

theorem ZmqRelay.publisherStep_frame {e : PublisherEvent} (h : r.publisherStep env e = some r') :
    ∃ queue thread next published errors, r' = { r with
      publishQueue := queue
      pubThread := thread
      nextMessageId := next
      stats := { r.stats with packetsPublished := published, pubSendErrors := errors } } := by
  cases e <;>
    simp only [publisherStep, Option.ite_none_right_eq_some, Option.some.injEq] at h <;>
    obtain ⟨-, rfl⟩ := h <;> exact ⟨_, _, _, _, _, rfl⟩

theorem ZmqRelay.reliableStep_frame {e : ReliableEvent} (h : r.reliableStep env e = some r') :
    ∃ queue thread, r' = { r with packetQueue := queue, pushThread := thread } := by
  cases e <;>
    simp only [reliableStep, Option.ite_none_right_eq_some, Option.some.injEq] at h <;>
    obtain ⟨-, rfl⟩ := h <;> exact ⟨_, _, rfl⟩

theorem ZmqRelay.commandStep_frame {e : CommandEvent} (h : r.commandStep env e = some r') :
    ∃ socket thread processed injected loads, r' = { r with
      repSocket := socket
      repThread := thread
      stats := { r.stats with commandsProcessed := processed, packetsInjected := injected }
      statsLoads := loads } := by
  rcases commandStep_move h with _ | _ | _ | _ | ⟨_, _, _, _, injected⟩ | _ | _ | _
  case process => cases injected <;> exact ⟨_, _, _, _, _, rfl⟩
  all_goals exact ⟨_, _, _, _, _, rfl⟩

theorem ZmqRelay.admitPacket_eq (config : Config) (packet : PacketInfo) :
    r.admitPacket config packet = { r with
      packetQueue := r.packetQueue ++
        (if r.packetQueue.length < config.maxQueueSize then [packet] else []) } := by
  unfold admitPacket
  split_ifs
  · rfl
  · rw [List.append_nil]

theorem System.callerStep_frame {i : Nat} {e : CallerEvent} (h : s.callerStep env i e = some s') :
    ∃ packets publish filtered,
      s'.relay = { s.relay with
        packetQueue := packets
        publishQueue := publish
        stats := { s.relay.stats with packetsFiltered := filtered } } ∧
      packets = s.relay.packetQueue ++ e.admitted?.toList ∧
      publish = s.relay.publishQueue ++ e.enqueued?.toList := by
  obtain ⟨r, pc, hmove, rfl⟩ := callerStep_move h
  cases hmove with
  | admitPacket packet admitted _ _ _ ha =>
    refine ⟨_, _, _, ZmqRelay.admitPacket_eq env.config packet, ?_, (List.append_nil _).symm⟩
    subst ha
    by_cases hlt : s.relay.packetQueue.length < env.config.maxQueueSize <;>
      simp [CallerEvent.admitted?, hlt]
  | enqueue packet => exact ⟨_, _, _, rfl, (List.append_nil _).symm, rfl⟩
  | _ => exact ⟨_, _, _, rfl, (List.append_nil _).symm, (List.append_nil _).symm⟩

/-- The owner only takes over threads that have ended, and only puts new ones in their place. -/
def Restarted {pc : Type} (exited loop : pc) (old new : Option pc) : Prop :=
  new = old ∨ (old = none ∨ old = some exited) ∧ (new = none ∨ new = some loop)

theorem System.ownerStep_frame {e : OwnerEvent} (h : s.ownerStep env e = some s') :
    ∃ context pub rep push running pubThread repThread pushThread filter injector name,
      s'.relay = { s.relay with
        context := context, pubSocket := pub, repSocket := rep, pushSocket := push
        running := running, pubThread := pubThread, repThread := repThread
        pushThread := pushThread, packetFilter := filter, packetInjector := injector
        playerNameProvider := name } ∧
      Restarted .exited .loop s.relay.pubThread pubThread ∧
      Restarted .exited .loop s.relay.repThread repThread ∧
      Restarted .exited .loop s.relay.pushThread pushThread := by
  obtain ⟨r, pc, hmove, rfl⟩ := ownerStep_move h
  cases hmove with
  | init p ps n _ hc =>
    cases p
    case startPub =>
      exact ⟨_, _, _, _, _, _, _, _, _, _, _, rfl,
        .inr ⟨.inl (Option.isNone_iff_eq_none.mp hc), .inr rfl⟩, .inl rfl, .inl rfl⟩
    case startRep =>
      exact ⟨_, _, _, _, _, _, _, _, _, _, _, rfl, .inl rfl,
        .inr ⟨.inl (Option.isNone_iff_eq_none.mp hc), .inr rfl⟩, .inl rfl⟩
    case startPush =>
      exact ⟨_, _, _, _, _, _, _, _, _, _, _, rfl, .inl rfl, .inl rfl,
        .inr ⟨.inl (Option.isNone_iff_eq_none.mp hc), .inr rfl⟩⟩
    all_goals exact ⟨_, _, _, _, _, _, _, _, _, _, _, rfl, .inl rfl, .inl rfl, .inl rfl⟩
  | shut p ps _ hc =>
    cases p
    case joinPub =>
      exact ⟨_, _, _, _, _, _, _, _, _, _, _, rfl,
        .inr ⟨of_decide_eq_true hc, .inl rfl⟩, .inl rfl, .inl rfl⟩
    case joinRep =>
      exact ⟨_, _, _, _, _, _, _, _, _, _, _, rfl, .inl rfl,
        .inr ⟨of_decide_eq_true hc, .inl rfl⟩, .inl rfl⟩
    case joinPush =>
      exact ⟨_, _, _, _, _, _, _, _, _, _, _, rfl, .inl rfl, .inl rfl,
        .inr ⟨of_decide_eq_true hc, .inl rfl⟩⟩
    all_goals exact ⟨_, _, _, _, _, _, _, _, _, _, _, rfl, .inl rfl, .inl rfl, .inl rfl⟩
  | _ => exact ⟨_, _, _, _, _, _, _, _, _, _, _, rfl, .inl rfl, .inl rfl, .inl rfl⟩

end

namespace System

/-! ### Which party took the step -/

variable {env : Env} {s s' : System}

theorem step_caller {i : Nat} {e : CallerEvent} (h : step env s (.caller i e) = some s') :
    s.callerStep env i e = some s' := by
  unfold step at h
  split_ifs at h
  exact h

theorem step_owner {e : OwnerEvent} (h : step env s (.owner e) = some s') :
    s.ownerStep env e = some s' := by
  unfold step at h
  split_ifs at h
  exact h

theorem step_publisher {e : PublisherEvent} (h : step env s (.publisher e) = some s') :
    ∃ r, s.relay.publisherStep env e = some r ∧ s' = { s with relay := r } := by
  unfold step at h
  split_ifs at h
  obtain ⟨r, hr, rfl⟩ := Option.map_eq_some_iff.mp h
  exact ⟨r, hr, rfl⟩

theorem step_reliable {e : ReliableEvent} (h : step env s (.reliable e) = some s') :
    ∃ r, s.relay.reliableStep env e = some r ∧ s' = { s with relay := r } := by
  unfold step at h
  split_ifs at h
  obtain ⟨r, hr, rfl⟩ := Option.map_eq_some_iff.mp h
  exact ⟨r, hr, rfl⟩

theorem step_command {e : CommandEvent} (h : step env s (.command e) = some s') :
    ∃ r, s.relay.commandStep env e = some r ∧ s'.relay = r ∧ s'.callers = s.callers ∧
      s'.owner = s.owner := by
  unfold step at h
  split_ifs at h
  cases e
  all_goals
    obtain ⟨r, hr, rfl⟩ := Option.map_eq_some_iff.mp h
    exact ⟨r, hr, rfl, rfl, rfl⟩

@[simp] theorem setCaller_relay (i : Nat) (pc : CallerPc) : (s.setCaller i pc).relay = s.relay :=
  rfl

@[simp] theorem setCaller_callers_self (i : Nat) (pc : CallerPc) :
    (s.setCaller i pc).callers i = pc := if_pos rfl

theorem setCaller_callers_ne {i j : Nat} (hj : j ≠ i) (pc : CallerPc) :
    (s.setCaller i pc).callers j = s.callers j := if_neg hj

theorem callerStep_callers {i : Nat} {e : CallerEvent} (h : s.callerStep env i e = some s')
    {j : Nat} (hj : j ≠ i) : s'.callers j = s.callers j := by
  obtain ⟨_, _, -, rfl⟩ := callerStep_move h
  exact setCaller_callers_ne hj _

theorem callerStep_rest {i : Nat} {e : CallerEvent} (h : s.callerStep env i e = some s') :
    s'.owner = s.owner ∧ s'.crashed = s.crashed := by
  obtain ⟨_, _, -, rfl⟩ := callerStep_move h
  exact ⟨rfl, rfl⟩

theorem ownerStep_rest {e : OwnerEvent} (h : s.ownerStep env e = some s') :
    s'.callers = s.callers ∧ s'.crashed = s.crashed := by
  obtain ⟨_, _, -, rfl⟩ := ownerStep_move h
  exact ⟨rfl, rfl⟩

theorem step_callers {l : Label} (h : step env s l = some s') (hl : ∀ i e, l ≠ .caller i e) :
    s'.callers = s.callers := by
  cases l with
  | caller i e => exact absurd rfl (hl i e)
  | publisher e => obtain ⟨_, _, rfl⟩ := step_publisher h; rfl
  | reliable e => obtain ⟨_, _, rfl⟩ := step_reliable h; rfl
  | command e =>
    obtain ⟨_, _, -, hc, -⟩ := step_command h
    exact hc
  | owner e => exact (ownerStep_rest (step_owner h)).1

theorem step_worker {l : Label} (h : step env s l = some s') (hc : ∀ i e, l ≠ .caller i e)
    (ho : ∀ e, l ≠ .owner e) :
    s'.owner = s.owner ∧ s'.callers = s.callers ∧ s'.relay.running = s.relay.running ∧
      s'.relay.pubSocket = s.relay.pubSocket := by
  cases l with
  | caller i e => exact absurd rfl (hc i e)
  | owner e => exact absurd rfl (ho e)
  | publisher e =>
    obtain ⟨r, hr, rfl⟩ := step_publisher h
    obtain ⟨_, _, _, _, _, rfl⟩ := ZmqRelay.publisherStep_frame hr
    exact ⟨rfl, rfl, rfl, rfl⟩
  | reliable e =>
    obtain ⟨r, hr, rfl⟩ := step_reliable h
    obtain ⟨_, _, rfl⟩ := ZmqRelay.reliableStep_frame hr
    exact ⟨rfl, rfl, rfl, rfl⟩
  | command e =>
    obtain ⟨r, hr, hr', hcallers, howner⟩ := step_command h
    obtain ⟨_, _, _, _, _, rfl⟩ := ZmqRelay.commandStep_frame hr
    exact ⟨howner, hcallers, by rw [hr'], by rw [hr']⟩

theorem step_ownerPc {l : Label} (h : step env s l = some s') (ho : ∀ e, l ≠ .owner e) :
    s'.owner = s.owner ∧ s'.relay.running = s.relay.running := by
  by_cases hc : ∃ i e, l = .caller i e
  · obtain ⟨i, e, rfl⟩ := hc
    obtain ⟨_, _, _, hr, -, -⟩ := callerStep_frame (step_caller h)
    exact ⟨(callerStep_rest (step_caller h)).1, by rw [hr]⟩
  · obtain ⟨howner, -, hrun, -⟩ := step_worker h (fun i e hl => hc ⟨i, e, hl⟩) ho
    exact ⟨howner, hrun⟩

theorem step_notCommand {l : Label} (h : step env s l = some s') (hl : ∀ e, l ≠ .command e) :
    s'.relay.stats.packetsInjected = s.relay.stats.packetsInjected ∧
      s'.relay.stats.commandsProcessed = s.relay.stats.commandsProcessed ∧
      s'.relay.statsLoads = s.relay.statsLoads ∧
      Restarted .exited .loop s.relay.repThread s'.relay.repThread := by
  rcases l with ⟨i, e⟩ | e | e | e | e
  case command => exact absurd rfl (hl e)
  case caller =>
    obtain ⟨_, _, _, hr, -, -⟩ := callerStep_frame (step_caller h)
    rw [hr]
    exact ⟨rfl, rfl, rfl, .inl rfl⟩
  case publisher =>
    obtain ⟨r, hr, rfl⟩ := step_publisher h
    obtain ⟨_, _, _, _, _, rfl⟩ := ZmqRelay.publisherStep_frame hr
    exact ⟨rfl, rfl, rfl, .inl rfl⟩
  case reliable =>
    obtain ⟨r, hr, rfl⟩ := step_reliable h
    obtain ⟨_, _, rfl⟩ := ZmqRelay.reliableStep_frame hr
    exact ⟨rfl, rfl, rfl, .inl rfl⟩
  case owner =>
    obtain ⟨_, _, _, _, _, _, _, _, _, _, _, hr, -, hrep, -⟩ := ownerStep_frame (step_owner h)
    rw [hr]
    exact ⟨rfl, rfl, rfl, hrep⟩

theorem not_crashed_of_step {l : Label} (h : step env s l = some s') : s.crashed = false := by
  unfold step at h
  cases hc : s.crashed with
  | false => rfl
  | true => rw [hc] at h; cases h

theorem step_crashed {l : Label} (h : step env s l = some s')
    (hl : ∀ uptime request, l ≠ .command (.undefinedLookup uptime request)) :
    s'.crashed = false := by
  have hc := not_crashed_of_step h
  cases l with
  | caller i e => rw [(callerStep_rest (step_caller h)).2, hc]
  | publisher e => obtain ⟨_, _, rfl⟩ := step_publisher h; exact hc
  | reliable e => obtain ⟨_, _, rfl⟩ := step_reliable h; exact hc
  | command e =>
    unfold step at h
    rw [hc, if_neg Bool.false_ne_true] at h
    cases e
    case undefinedLookup uptime request => exact absurd rfl (hl uptime request)
    all_goals obtain ⟨_, _, rfl⟩ := Option.map_eq_some_iff.mp h; rfl
  | owner e => rw [(ownerStep_rest (step_owner h)).2, hc]

end System

end Kpacket
