import Kpacket.Rounds

/-!
# Which streams a started relay feeds

`PublishPacket` gives up if there is no PUB socket, before it gets to the reliable queue. `Fed` says
of one step that the call it decides pushes its packet to each queue exactly if that queue wants it;
after a successful `Initialize` it holds of all steps of a run exactly if no wanted packet is turned
away for want of a PUB socket (`fed_iff`). Configurations in which that cannot happen are those with
packet streaming, without the reliable queue, or with no room in it (`fed_always_iff`).
-/

namespace Kpacket

open Lts

/-! ### Decisions -/

namespace CallerPc

def packet : CallerPc → Option PacketInfo
  | .idle => none
  | .checkRunning packet | .checkSocket packet | .filtering packet | .admitting packet
  | .enqueueing packet => some packet

/-- The packet of a call that is not done with `packet_queue_`. -/
def undecided : CallerPc → Option PacketInfo
  | .enqueueing _ => none
  | pc => pc.packet

end CallerPc

namespace System

/-- The packet of caller `i` passes the filter, or has passed it. -/
def passes (s : System) (i : Nat) (packet : PacketInfo) : Bool :=
  match s.callers i with
  | .admitting _ | .enqueueing _ => true
  | _ => !s.relay.filtered packet

/-- `packet_queue_` is enabled and has room for a packet that passes the filter. -/
def wantedReliable (config : Config) (s : System) (i : Nat) (packet : PacketInfo) : Bool :=
  s.passes i packet && config.enableReliableQueue &&
    decide (s.relay.packetQueue.length < config.maxQueueSize)

/-- Streaming is enabled, and the packet passes the filter. -/
def wantedPublish (config : Config) (s : System) (i : Nat) (packet : PacketInfo) : Bool :=
  s.passes i packet && config.enablePacketStreaming

/-- With this step caller `i` is done with what `f` follows. -/
def Decides (f : CallerPc → Option PacketInfo) (s s' : System) (i : Nat) (packet : PacketInfo) :
    Prop :=
  f (s.callers i) = some packet ∧ f (s'.callers i) = none

end System

/-- The step pushes the packet it decides about if it is wanted, and nothing else. -/
structure Feeds (f : CallerPc → Option PacketInfo) (queue : ZmqRelay → List PacketInfo)
    (wanted : System → Nat → PacketInfo → Bool) (s s' : System) : Prop where
  decided : ∀ i packet, System.Decides f s s' i packet →
    queue s'.relay = queue s.relay ++ if wanted s i packet then [packet] else []
  others : (∀ i packet, ¬ System.Decides f s s' i packet) → queue s'.relay <:+ queue s.relay

/-- Both queues get what they want. -/
def Fed (config : Config) (s s' : System) : Prop :=
  Feeds CallerPc.undecided ZmqRelay.packetQueue (System.wantedReliable config) s s' ∧
    Feeds CallerPc.packet ZmqRelay.publishQueue (System.wantedPublish config) s s'

/-- A call is about to turn a packet away that the reliable queue wants. -/
def TurnsAway (config : Config) (s : System) (l : Label) : Prop :=
  ∃ i packet, l = .caller i .readSocket ∧ s.callers i = .checkSocket packet ∧
    s.relay.pubSocket = none ∧ System.wantedReliable config s i packet = true

/-! ### After a successful `Initialize` -/

/-- The owner starts neither a start-up nor a shut-down. -/
def Label.keepsRunning : Label → Bool
  | .owner .beginInitialize | .owner .beginShutdown => false
  | _ => true

/-- The relay stays as `Initialize` has left it. -/
structure Started (config : Config) (s : System) : Prop where
  owner : s.owner = .idle
  running : s.relay.running = true
  socket : s.relay.pubSocket.isSome = config.enablePacketStreaming
  /-- Who got past the look at the socket has found one. -/
  callers : ∀ i packet, s.callers i = .filtering packet ∨ s.callers i = .admitting packet ∨
    s.callers i = .enqueueing packet → config.enablePacketStreaming = true

theorem ZmqRelay.initSteps_true {config : Config} {throws : InitPoint → Bool} {n : Nat}
    {ps : List InitPoint} {r r' : ZmqRelay} (h : initSteps config throws n ps r = (true, r')) :
    r' = ps.foldl (initStep config n) r := by
  induction ps generalizing r with
  | nil => exact (Prod.mk.inj h).2.symm
  | cons p ps ih =>
    unfold initSteps at h
    split_ifs at h
    · exact absurd (Prod.mk.inj h).1 (by decide)
    · exact ih h

theorem started_Initialize {config : Config} {throws : InitPoint → Bool} {n : Nat}
    {r₀ r : ZmqRelay} (hi : r₀.Idle) (h : r₀.Initialize config throws n = (true, r)) :
    Started config { relay := r } := by
  have hr := ZmqRelay.initSteps_true h
  have hpub := hi.pubSocket
  refine ⟨rfl, ?_, ?_, ?_⟩
  · subst hr
    unfold InitPoint.points
    cases config.enablePacketStreaming <;> cases config.enableCommandInterface <;>
      cases config.enableReliableQueue <;> rfl
  · subst hr
    unfold InitPoint.points
    cases hs : config.enablePacketStreaming <;> cases config.enableCommandInterface <;>
      cases config.enableReliableQueue <;>
        simp [ZmqRelay.initStep, ZmqRelay.applySocketOptions, ZmqRelay.setOptions, hpub]
  · rintro i packet (h | h | h) <;> cases h

section

variable {env : Env} {s s' : System} {tr : List Label}

theorem Started.step {l : Label} (h : Started env.config s) (hl : l.keepsRunning = true)
    (hs : System.step env s l = some s') : Started env.config s' := by
  cases l with
  | caller i e =>
    have hc := System.step_caller hs
    obtain ⟨_, _, _, hr, -, -⟩ := System.callerStep_frame hc
    refine ⟨(System.callerStep_rest hc).1.trans h.owner, by rw [hr]; exact h.running,
      by rw [hr]; exact h.socket, fun j packet hj => ?_⟩
    by_cases hij : j = i
    · subst hij
      obtain ⟨r, pc, hmove, rfl⟩ := System.callerStep_move hc
      rw [System.setCaller_callers_self] at hj
      cases hmove with
      | readSocket packet' hpc =>
        rw [← h.socket]
        cases hsock : s.relay.pubSocket with
        | none => simp [hsock] at hj
        | some socket => rfl
      | readRunning => split_ifs at hj <;> simp at hj
      | pass packet' hpc => exact h.callers j packet' (.inl hpc)
      | admitPacket packet' _ hpc | bypass packet' hpc =>
        exact h.callers j packet' (.inr (.inl hpc))
      | call | drop | enqueue => simp at hj
    · rw [System.callerStep_callers hc hij] at hj
      exact h.callers j packet hj
  | owner e =>
    obtain ⟨r, pc, hmove, rfl⟩ := System.ownerStep_move (System.step_owner hs)
    have ho := h.owner
    cases hmove with
    | beginInitialize | beginShutdown => cases hl
    | setPacketFilter | setPacketInjector | setPlayerNameProvider =>
      exact ⟨h.owner, h.running, h.socket, h.callers⟩
    | init _ _ _ hp | initThrows _ _ hp | endInitialize hp | shut _ _ hp | endShutdown hp =>
      rw [ho] at hp; cases hp
  | _ =>
    obtain ⟨howner, hcallers, hrun, hsock⟩ := System.step_worker hs (by simp) (by simp)
    exact ⟨howner.trans h.owner, hrun.trans h.running, by rw [hsock]; exact h.socket,
      by rw [hcallers]; exact h.callers⟩

theorem Started.run {start : System} (h : Started env.config start)
    (hr : Run (System.step env) start tr s) (hl : ∀ l ∈ tr, l.keepsRunning = true) :
    Started env.config s := by
  refine hr.guarded (P := fun _ l => l.keepsRunning = true) (I := fun _ s => Started env.config s)
    ?_ h fun _ _ _ _ _ hi hl hs => hi.step hl hs
  rintro pre l post s' rfl -
  exact hl l (by simp)

end

/-! ### One step -/

namespace Feeds

variable {f : CallerPc → Option PacketInfo} {queue : ZmqRelay → List PacketInfo}
  {wanted : System → Nat → PacketInfo → Bool} {s s' : System} {r : ZmqRelay} {i : Nat}
  {pc : CallerPc}

theorem of_callers (hc : s'.callers = s.callers) (hq : queue s'.relay <:+ queue s.relay) :
    Feeds f queue wanted s s' := by
  refine ⟨fun i packet hd => ?_, fun _ => hq⟩
  obtain ⟨h1, h2⟩ := hd
  rw [hc, h1] at h2
  cases h2

theorem of_undecided (hf : f (s.callers i) = f pc ∨ f (s.callers i) = none)
    (hq : queue r <:+ queue s.relay) :
    Feeds f queue wanted s ({ s with relay := r }.setCaller i pc) := by
  refine ⟨fun j packet hd => ?_, fun _ => hq⟩
  obtain ⟨h1, h2⟩ := hd
  by_cases hj : j = i
  · subst hj
    rw [System.setCaller_callers_self] at h2
    rcases hf with hf | hf <;> rw [h1] at hf
    · rw [h2] at hf; cases hf
    · cases hf
  · rw [System.setCaller_callers_ne hj] at h2
    exact absurd (h1.symm.trans h2) (by simp)

theorem iff_of_decided {packet : PacketInfo} (h1 : f (s.callers i) = some packet)
    (h2 : f pc = none) :
    Feeds f queue wanted s ({ s with relay := r }.setCaller i pc) ↔
      queue r = queue s.relay ++ if wanted s i packet then [packet] else [] := by
  have hd : System.Decides f s ({ s with relay := r }.setCaller i pc) i packet :=
    ⟨h1, by rw [System.setCaller_callers_self]; exact h2⟩
  refine ⟨fun h => h.decided i packet hd, fun h => ⟨fun j packet' hd' => ?_, fun hn => ?_⟩⟩
  · obtain ⟨h3, h4⟩ := hd'
    by_cases hj : j = i
    · subst hj
      obtain rfl := Option.some.inj (h1.symm.trans h3)
      exact h
    · rw [System.setCaller_callers_ne hj] at h4
      exact absurd (h3.symm.trans h4) (by simp)
  · exact absurd hd (hn i packet)

end Feeds

section

variable {env : Env} {s s' : System} {tr : List Label}

theorem ZmqRelay.publisherStep_queue {r r' : ZmqRelay} {e : PublisherEvent}
    (h : r.publisherStep env e = some r') : r'.publishQueue <:+ r.publishQueue := by
  cases e
  case pop packet =>
    simp only [publisherStep, Option.ite_none_right_eq_some, Option.some.injEq] at h
    obtain ⟨-, rfl⟩ := h
    exact List.tail_suffix _
  all_goals
    simp only [publisherStep, Option.ite_none_right_eq_some, Option.some.injEq] at h
    obtain ⟨-, rfl⟩ := h
    exact List.suffix_refl _

theorem ZmqRelay.reliableStep_queue {r r' : ZmqRelay} {e : ReliableEvent}
    (h : r.reliableStep env e = some r') : r'.packetQueue <:+ r.packetQueue := by
  cases e
  case pop packet =>
    simp only [reliableStep, Option.ite_none_right_eq_some, Option.some.injEq] at h
    obtain ⟨-, rfl⟩ := h
    exact List.tail_suffix _
  all_goals
    simp only [reliableStep, Option.ite_none_right_eq_some, Option.some.injEq] at h
    obtain ⟨-, rfl⟩ := h
    exact List.suffix_refl _

theorem not_turnsAway {l : Label} (hl : ∀ i, l ≠ .caller i .readSocket) :
    ¬ TurnsAway env.config s l := fun ⟨i, _, h, _⟩ => hl i h

/-- What a step within a call does to the two queues. -/
theorem fed_of_move {i : Nat} {e : CallerEvent} {r : ZmqRelay} {pc : CallerPc}
    (h : Started env.config s) (hmove : CallerMove env s i e r pc) :
    Fed env.config s ({ s with relay := r }.setCaller i pc) ↔
      ¬ TurnsAway env.config s (.caller i e) := by
  cases hmove with
  | readSocket packet hpc =>
    cases hsock : s.relay.pubSocket with
    | some socket =>
      refine iff_of_true ⟨.of_undecided (.inl (by rw [hpc]; rfl)) (List.suffix_refl _),
        .of_undecided (.inl (by rw [hpc]; rfl)) (List.suffix_refl _)⟩ ?_
      rintro ⟨j, _, _, _, hn, _⟩
      rw [hsock] at hn
      cases hn
    | none =>
      -- the call ends here, for both queues
      have hoff : env.config.enablePacketStreaming = false := by rw [← h.socket, hsock]; rfl
      have hpub : System.wantedPublish env.config s i packet = false := by
        rw [System.wantedPublish, hoff, Bool.and_false]
      have hturn : TurnsAway env.config s (.caller i .readSocket) ↔
          System.wantedReliable env.config s i packet = true := by
        constructor
        · rintro ⟨j, packet', hl, hpc', -, hw⟩
          cases hl
          obtain rfl := CallerPc.checkSocket.inj (hpc.symm.trans hpc')
          exact hw
        · intro hw
          exact ⟨i, packet, rfl, hpc, hsock, hw⟩
      rw [hturn, Fed, Feeds.iff_of_decided (by rw [hpc]; rfl) rfl,
        Feeds.iff_of_decided (by rw [hpc]; rfl) rfl, hpub]
      cases System.wantedReliable env.config s i packet <;> simp
  | call packet hpc =>
    exact iff_of_true ⟨.of_undecided (.inr (by rw [hpc]; rfl)) (List.suffix_refl _),
      .of_undecided (.inr (by rw [hpc]; rfl)) (List.suffix_refl _)⟩ (not_turnsAway (by simp))
  | readRunning packet hpc =>
    rw [h.running, if_pos rfl]
    exact iff_of_true ⟨.of_undecided (.inl (by rw [hpc]; rfl)) (List.suffix_refl _),
      .of_undecided (.inl (by rw [hpc]; rfl)) (List.suffix_refl _)⟩ (not_turnsAway (by simp))
  | pass packet hpc hf =>
    exact iff_of_true ⟨.of_undecided (.inl (by rw [hpc]; rfl)) (List.suffix_refl _),
      .of_undecided (.inl (by rw [hpc]; rfl)) (List.suffix_refl _)⟩ (not_turnsAway (by simp))
  | drop packet hpc hf =>
    have hp : s.passes i packet = false := by
      rw [System.passes, hpc, hf]; rfl
    refine iff_of_true ⟨?_, ?_⟩ (not_turnsAway (by simp))
    · refine (Feeds.iff_of_decided (by rw [hpc]; rfl) rfl).mpr ?_
      rw [System.wantedReliable, hp]
      exact (List.append_nil _).symm
    · refine (Feeds.iff_of_decided (by rw [hpc]; rfl) rfl).mpr ?_
      rw [System.wantedPublish, hp]
      exact (List.append_nil _).symm
  | admitPacket packet admitted hpc he hm ha =>
    have hp : s.passes i packet = true := by rw [System.passes, hpc]
    rw [ZmqRelay.admitPacket_eq]
    refine iff_of_true ⟨?_, ?_⟩ (not_turnsAway (by simp))
    · refine (Feeds.iff_of_decided (by rw [hpc]; rfl) rfl).mpr ?_
      simp [System.wantedReliable, hp, he]
    · exact .of_undecided (.inl (by rw [hpc]; rfl)) (List.suffix_refl _)
  | bypass packet hpc he =>
    refine iff_of_true ⟨?_, ?_⟩ (not_turnsAway (by simp))
    · refine (Feeds.iff_of_decided (by rw [hpc]; rfl) rfl).mpr ?_
      simp [System.wantedReliable, he]
    · exact .of_undecided (.inl (by rw [hpc]; rfl)) (List.suffix_refl _)
  | enqueue packet hpc hm =>
    have hp : s.passes i packet = true := by rw [System.passes, hpc]
    have hon := h.callers i packet (.inr (.inr hpc))
    refine iff_of_true ⟨?_, ?_⟩ (not_turnsAway (by simp))
    · exact .of_undecided (.inr (by rw [hpc]; rfl)) (List.suffix_refl _)
    · refine (Feeds.iff_of_decided (by rw [hpc]; rfl) rfl).mpr ?_
      rw [System.wantedPublish, hp, hon]
      rfl

theorem Started.fed_iff_step {l : Label} (h : Started env.config s)
    (hs : System.step env s l = some s') : Fed env.config s s' ↔ ¬ TurnsAway env.config s l := by
  cases l with
  | caller i e =>
    obtain ⟨r, pc, hmove, rfl⟩ := System.callerStep_move (System.step_caller hs)
    exact fed_of_move h hmove
  | publisher e =>
    obtain ⟨r, hr, rfl⟩ := System.step_publisher hs
    have hq := ZmqRelay.publisherStep_queue hr
    obtain ⟨_, _, _, _, _, rfl⟩ := ZmqRelay.publisherStep_frame hr
    exact iff_of_true ⟨.of_callers rfl (List.suffix_refl _), .of_callers rfl hq⟩
      (not_turnsAway (by simp))
  | reliable e =>
    obtain ⟨r, hr, rfl⟩ := System.step_reliable hs
    have hq := ZmqRelay.reliableStep_queue hr
    obtain ⟨_, _, rfl⟩ := ZmqRelay.reliableStep_frame hr
    exact iff_of_true ⟨.of_callers rfl hq, .of_callers rfl (List.suffix_refl _)⟩
      (not_turnsAway (by simp))
  | command e =>
    obtain ⟨r, hr, hr', hcallers, -⟩ := System.step_command hs
    obtain ⟨_, _, _, _, _, rfl⟩ := ZmqRelay.commandStep_frame hr
    refine iff_of_true ⟨.of_callers hcallers ?_, .of_callers hcallers ?_⟩ (not_turnsAway (by simp))
    all_goals exact hr' ▸ List.suffix_refl _
  | owner e =>
    have ho := System.step_owner hs
    obtain ⟨_, _, _, _, _, _, _, _, _, _, _, hr, -⟩ := System.ownerStep_frame ho
    have hcallers := (System.ownerStep_rest ho).1
    refine iff_of_true ⟨.of_callers hcallers ?_, .of_callers hcallers ?_⟩ (not_turnsAway (by simp))
    all_goals exact hr ▸ List.suffix_refl _

/-! ### Runs -/

theorem Started.steps_iff {start : System} (h : Started env.config start)
    (hr : Run (System.step env) start tr s) (hl : ∀ l ∈ tr, l.keepsRunning = true) :
    Steps (System.step env) (fun s l => ∀ s', System.step env s l = some s' → Fed env.config s s')
        start tr ↔
      Steps (System.step env) (fun s l => ¬ TurnsAway env.config s l) start tr := by
  refine Steps.congr hr fun pre l post s s' ht hp hs => ?_
  have hi := h.run hp fun l hm => hl l (by rw [ht]; exact List.mem_append_left _ hm)
  rw [← hi.fed_iff_step hs]
  refine ⟨fun hfed => hfed s' hs, fun hfed s₂ hs₂ => ?_⟩
  obtain rfl := Option.some.inj (hs.symm.trans hs₂)
  exact hfed

variable {throws : InitPoint → Bool} {n : Nat} {r₀ r : ZmqRelay}

/-- After a successful `Initialize` every call feeds both queues as they want it exactly if none is
turned away at the look at the PUB socket while the reliable queue wants its packet. -/
theorem fed_iff (hi : r₀.Idle) (h : r₀.Initialize env.config throws n = (true, r))
    (hr : Run (System.step env) { relay := r } tr s) (hl : ∀ l ∈ tr, l.keepsRunning = true) :
    Steps (System.step env) (fun s l => ∀ s', System.step env s l = some s' → Fed env.config s s')
        { relay := r } tr ↔
      Steps (System.step env) (fun s l => ¬ TurnsAway env.config s l) { relay := r } tr :=
  (started_Initialize hi h).steps_iff hr hl

/-! ### Configurations -/

theorem ZmqRelay.initSteps_succeeds (config : Config) (n : Nat) (ps : List InitPoint)
    (r : ZmqRelay) : (initSteps config (fun _ => false) n ps r).1 = true := by
  induction ps generalizing r with
  | nil => rfl
  | cons p ps ih =>
    rw [initSteps, Bool.and_false, if_neg Bool.false_ne_true]
    exact ih _

theorem ZmqRelay.initSteps_frame (config : Config) (throws : InitPoint → Bool) (n : Nat)
    (ps : List InitPoint) (r : ZmqRelay) :
    (initSteps config throws n ps r).2.packetQueue = r.packetQueue ∧
      (initSteps config throws n ps r).2.packetFilter = r.packetFilter := by
  induction ps generalizing r with
  | nil => exact ⟨rfl, rfl⟩
  | cons p ps ih =>
    unfold initSteps
    split_ifs
    · exact ⟨rfl, rfl⟩
    · obtain ⟨h1, h2⟩ := ih (initStep config n r p)
      cases p <;> exact ⟨h1, h2⟩

theorem exists_started (config : Config) : ∃ r,
    ({} : ZmqRelay).Initialize config (fun _ => false) 4 = (true, r) ∧ r.packetQueue = [] ∧
      r.packetFilter = none := by
  obtain ⟨hqueue, hfilter⟩ := ZmqRelay.initSteps_frame config (fun _ => false) 4
    (InitPoint.points config) {}
  exact ⟨_, Prod.ext (ZmqRelay.initSteps_succeeds ..) rfl, hqueue, hfilter⟩

/-- Without streaming the first call turns its packet away. -/
theorem turnsAway_first (h : Started env.config { relay := r }) (hqueue : r.packetQueue = [])
    (hfilter : r.packetFilter = none) (hs : env.config.enablePacketStreaming = false)
    (hq : env.config.enableReliableQueue = true) (hm : 0 < env.config.maxQueueSize) :
    ∃ tr s, Run (System.step env) { relay := r } tr s ∧ (∀ l ∈ tr, l.keepsRunning = true) ∧
      ¬ Steps (System.step env) (fun s l => ¬ TurnsAway env.config s l) { relay := r } tr := by
  have hsocket : r.pubSocket = none := by
    have hsome := h.socket.trans hs
    rwa [Option.isSome_eq_false_iff, Option.isNone_iff_eq_none] at hsome
  have hfiltered : r.filtered loginPacket = false := by rw [ZmqRelay.filtered, hfilter]
  have hcall := System.step_call env (s := { relay := r }) rfl (i := 0) rfl loginPacket
  have hrunning := System.step_readRunning env (s := { relay := r }) rfl (i := 0) loginPacket
  have hsock := System.step_readSocket env (s := { relay := r }) rfl (i := 0) loginPacket
  rw [show ({ relay := r } : System).relay.running = true from h.running, if_pos rfl] at hrunning
  have hr := (Run.single hcall).snoc hrunning
  refine ⟨_, _, hr.snoc hsock, by simp [Label.keepsRunning], fun hsteps => ?_⟩
  refine hsteps.last hr ⟨0, loginPacket, rfl, System.setCaller_callers_self .., hsocket, ?_⟩
  have hpasses : System.passes (System.setCaller { relay := r } 0 (.checkSocket loginPacket)) 0
      loginPacket = true := by
    rw [System.passes, System.setCaller_callers_self, System.setCaller_relay, hfiltered]
    rfl
  rw [System.wantedReliable, hpasses, hq, System.setCaller_relay, hqueue]
  exact decide_eq_true hm

/-- Streams are fed after every start-up exactly in the configurations with packet streaming,
without the reliable queue, or without room in it. -/
theorem fed_always_iff (env : Env) :
    (∀ throws n r₀ r tr s, ZmqRelay.Idle r₀ → r₀.Initialize env.config throws n = (true, r) →
        Run (System.step env) { relay := r } tr s → (∀ l ∈ tr, l.keepsRunning = true) →
        Steps (System.step env)
          (fun s l => ∀ s', System.step env s l = some s' → Fed env.config s s')
          { relay := r } tr) ↔
      env.config.enablePacketStreaming = true ∨ env.config.enableReliableQueue = false ∨
        env.config.maxQueueSize = 0 := by
  constructor
  · intro hall
    obtain ⟨r, hinit, hqueue, hfilter⟩ := exists_started env.config
    have hstart := started_Initialize ZmqRelay.idle_new hinit
    by_contra hcon
    simp only [not_or, Bool.not_eq_true, Bool.not_eq_false] at hcon
    obtain ⟨hs, hq, hm⟩ := hcon
    obtain ⟨tr, s, hr, hl, hn⟩ :=
      turnsAway_first hstart hqueue hfilter hs hq (Nat.pos_of_ne_zero hm)
    exact hn ((hstart.steps_iff hr hl).mp (hall _ _ _ _ _ _ ZmqRelay.idle_new hinit hr hl))
  · intro hc throws n r₀ r tr s hi hinit hr hl
    have hstart := started_Initialize hi hinit
    refine (hstart.steps_iff hr hl).mpr ?_
    rintro pre l post s' ht hp ⟨i, packet, -, -, hsock, hw⟩
    have hstarted := hstart.run hp fun l hm => hl l (by rw [ht]; exact List.mem_append_left _ hm)
    rcases hc with hc | hc | hc
    · rw [← hstarted.socket, hsock] at hc
      cases hc
    · simp [System.wantedReliable, hc] at hw
    · simp [System.wantedReliable, hc] at hw

end

/-! ### Two relays -/

/-- With everything enabled a call feeds both queues. -/
theorem fed_login : ∃ r tr s, Run (System.step (defaultEnv id)) { relay := r } tr s ∧
    s.relay.packetQueue = [loginPacket] ∧ s.relay.publishQueue = [loginPacket] ∧
    Steps (System.step (defaultEnv id)) (fun s l => ∀ s',
      System.step (defaultEnv id) s l = some s' → Fed (defaultEnv id).config s s')
      { relay := r } tr := by
  have hinit : ({} : ZmqRelay).Initialize (defaultEnv id).config (fun _ => false) 4 =
      (true, System.startedRelay) := rfl
  have hr := Run.of_exec (System.exec_call (defaultEnv id) (s := { relay := System.startedRelay })
    rfl (i := 0) rfl loginPacket rfl rfl)
  have hl : ∀ l ∈ (System.callEvents (defaultEnv id).config System.startedRelay loginPacket).map
      (Label.caller 0), l.keepsRunning = true := by
    intro l hl
    obtain ⟨e, -, rfl⟩ := List.mem_map.mp hl
    rfl
  refine ⟨_, _, _, hr, rfl, rfl, (fed_iff ZmqRelay.idle_new hinit hr hl).mpr ?_⟩
  rintro pre l post s ht hp ⟨i, packet, -, -, hsock, -⟩
  have hstarted := (started_Initialize ZmqRelay.idle_new hinit).run hp fun l hm =>
    hl l (by rw [ht]; exact List.mem_append_left _ hm)
  have hsome : s.relay.pubSocket.isSome = true := hstarted.socket
  rw [hsock] at hsome
  cases hsome

/-- The default environment without the PUB stream. -/
def reliableOnlyEnv : Env := { defaultEnv id with config := { enablePacketStreaming := false } }

/-- Without the PUB stream the reliable queue gets nothing. -/
theorem not_fed_reliableOnly : ∃ r,
    ({} : ZmqRelay).Initialize reliableOnlyEnv.config (fun _ => false) 4 = (true, r) ∧
    ∃ tr s, Run (System.step reliableOnlyEnv) { relay := r } tr s ∧
      (∀ l ∈ tr, l.keepsRunning = true) ∧
      ¬ Steps (System.step reliableOnlyEnv) (fun s l => ∀ s',
        System.step reliableOnlyEnv s l = some s' → Fed reliableOnlyEnv.config s s')
        { relay := r } tr := by
  obtain ⟨r, hinit, hqueue, hfilter⟩ := exists_started reliableOnlyEnv.config
  have hstart : Started reliableOnlyEnv.config { relay := r } :=
    started_Initialize ZmqRelay.idle_new hinit
  obtain ⟨tr, s, hr, hl, hn⟩ := turnsAway_first hstart hqueue hfilter rfl rfl (by decide)
  exact ⟨r, hinit, tr, s, hr, hl, fun h => hn ((hstart.steps_iff hr hl).mp h)⟩

end Kpacket
