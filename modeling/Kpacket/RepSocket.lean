import Kpacket.Moves

/-!
# The REP socket and its thread

`RepInv`: while `CommandThread` runs, its socket is open and owes a reply exactly from the receipt
of a request to the reply. The owner keeps this up because `Initialize` opens the socket before it
starts the thread, on a context without sockets, and `Shutdown` joins the thread before it closes
the socket; both read off the lists of statements they still have to run.
-/

namespace Kpacket

open Lts

/-- A request has been received and its reply is not sent. -/
def CommandPc.owes : CommandPc → Bool
  | .processing _ | .replying _ _ => true
  | _ => false

namespace ZmqRelay

/-- `CommandThread` takes no more steps. -/
def RepIdle (r : ZmqRelay) : Prop := r.repThread = none ∨ r.repThread = some .exited

/-- The thread has its socket, in the state that it expects. -/
def Serves (r : ZmqRelay) : Prop :=
  ∀ pc, r.repThread = some pc → pc ≠ .exited →
    r.repSocket.map Socket.owesReply = some pc.owes

variable {env : Env} {r r' : ZmqRelay}

theorem RepIdle.serves (h : r.RepIdle) : r.Serves := by
  intro pc hpc hne
  rcases h with h | h <;> rw [h] at hpc <;> cases hpc
  exact absurd rfl hne

theorem Serves.repIdle (h : r.Serves) (hs : r.repSocket = none) : r.RepIdle := by
  cases ht : r.repThread with
  | none => exact .inl ht
  | some pc =>
    by_cases hpc : pc = .exited
    · exact .inr (by rw [ht, hpc])
    · have := h pc ht hpc
      rw [hs] at this
      cases this

theorem RepIdle.congr (h : r.RepIdle) (ht : r'.repThread = r.repThread) : r'.RepIdle := by
  rwa [RepIdle, ht]

theorem Serves.congr (h : r.Serves) (ht : r'.repThread = r.repThread)
    (hs : r'.repSocket.map Socket.owesReply = r.repSocket.map Socket.owesReply) : r'.Serves := by
  intro pc hpc hne
  rw [ht] at hpc
  rw [hs]
  exact h pc hpc hne

theorem not_repIdle_of_step {e : CommandEvent} (h : r.commandStep env e = some r') :
    ¬ r.RepIdle := by
  cases commandStep_move h with
  | loop ht | receiveNone ht | receive _ ht | load _ _ ht | process _ _ _ _ _ ht
  | undefinedLookup _ _ ht | reply _ _ ht | count _ _ ht => simp [RepIdle, ht]

theorem commandStep_context {e : CommandEvent} (h : r.commandStep env e = some r') :
    r'.context = r.context := by
  obtain ⟨_, _, _, _, _, rfl⟩ := commandStep_frame h
  rfl

theorem commandStep_isSome {e : CommandEvent} (h : r.commandStep env e = some r') :
    r'.repSocket.isSome = r.repSocket.isSome := by
  cases commandStep_move h with
  | receive | reply => exact Option.isSome_map
  | _ => rfl

theorem commandStep_serves {e : CommandEvent} (h : r.commandStep env e = some r')
    (hs : r.Serves) : r'.Serves := by
  cases commandStep_move h with
  | loop ht =>
    have hsock := hs _ ht (by simp)
    rintro pc hpc hne
    cases Option.some.inj hpc
    split_ifs at hne ⊢
    · exact hsock
    · exact absurd rfl hne
  | receiveNone ht | process _ _ _ _ _ ht | count _ _ ht =>
    have hsock := hs _ ht (by simp)
    rintro pc ⟨⟩ -
    exact hsock
  | receive request _ ho =>
    obtain ⟨socket, hsock, -⟩ := Option.map_eq_some_iff.mp ho
    rintro pc ⟨⟩ -
    simp [hsock, CommandPc.owes]
  | load | undefinedLookup => exact hs
  | reply request response ht =>
    obtain ⟨socket, hsock, -⟩ := Option.map_eq_some_iff.mp (hs _ ht (by simp))
    rintro pc ⟨⟩ -
    simp [hsock, CommandPc.owes]

end ZmqRelay

/-! ### The owner -/

/-- Statements are run in the order they are listed in. -/
def InitPoint.Sorted (ps : List InitPoint) : Prop := ps.Pairwise fun p q => p.ctorIdx < q.ctorIdx

theorem InitPoint.sorted_points (config : Config) : Sorted (points config) := by
  unfold Sorted points
  cases config.enablePacketStreaming <;> cases config.enableCommandInterface <;>
    cases config.enableReliableQueue <;> decide

theorem InitPoint.newRep_of_startRep {config : Config} (h : startRep ∈ points config) :
    newRep ∈ points config := by
  unfold points at h ⊢
  cases he : config.enableCommandInterface
  · rw [he] at h
    cases config.enablePacketStreaming <;> cases config.enableReliableQueue <;> simp at h
  · simp

/-- What start-up and shut-down rely on in the middle of their work. -/
def OwnerPc.RepReady (r : ZmqRelay) : OwnerPc → Prop
  | .idle => True
  | .initializing ps =>
    InitPoint.Sorted ps ∧
      (.newRep ∈ ps → .newContext ∈ ps ∨ r.RepIdle ∧ r.context = true) ∧
      (.startRep ∈ ps → .newRep ∈ ps ∨
        r.RepIdle ∧ r.repSocket.map Socket.owesReply = some false)
  | .shuttingDown ps =>
    ps.Pairwise (fun p q => p.ctorIdx < q.ctorIdx) ∧
      (.resetSockets ∈ ps → .joinRep ∈ ps ∨ r.repThread = none)

theorem OwnerPc.RepReady.congr {owner : OwnerPc} {r r' : ZmqRelay} (h : owner.RepReady r)
    (ht : r'.repThread = r.repThread)
    (hs : r'.repSocket.map Socket.owesReply = r.repSocket.map Socket.owesReply)
    (hc : r'.context = r.context) : owner.RepReady r' := by
  cases owner with
  | idle => trivial
  | initializing ps => simpa only [RepReady, ZmqRelay.RepIdle, ht, hs, hc] using h
  | shuttingDown ps => simpa only [RepReady, ht] using h

structure RepInv (s : System) : Prop where
  serves : s.relay.Serves
  context : s.relay.repSocket.isSome = true → s.relay.context = true
  owner : s.owner.RepReady s.relay

namespace RepInv

variable {env : Env} {s s' : System}

theorem congr (h : RepInv s) (ho : s'.owner.RepReady s.relay)
    (ht : s'.relay.repThread = s.relay.repThread)
    (hs : s'.relay.repSocket.map Socket.owesReply = s.relay.repSocket.map Socket.owesReply)
    (hc : s'.relay.context = s.relay.context) : RepInv s' := by
  refine ⟨h.serves.congr ht hs, ?_, ho.congr ht hs hc⟩
  rw [← Option.isSome_map (f := Socket.owesReply), hs, Option.isSome_map, hc]
  exact h.context

theorem command {e : CommandEvent} {r : ZmqRelay} (h : RepInv s)
    (hs : s.relay.commandStep env e = some r) (ho : s'.owner = s.owner) (hr : s'.relay = r) :
    RepInv s' := by
  subst hr
  have hbusy := ZmqRelay.not_repIdle_of_step hs
  refine ⟨ZmqRelay.commandStep_serves hs h.serves, ?_, ?_⟩
  · rw [ZmqRelay.commandStep_isSome hs, ZmqRelay.commandStep_context hs]
    exact h.context
  · have hready := h.owner
    rw [ho]
    generalize s.owner = owner at hready
    cases owner with
    | idle => trivial
    | initializing ps =>
      obtain ⟨hsort, hctx, hsock⟩ := hready
      exact ⟨hsort, fun hm => .inl ((hctx hm).resolve_right fun hi => hbusy hi.1),
        fun hm => .inl ((hsock hm).resolve_right fun hi => hbusy hi.1)⟩
    | shuttingDown ps =>
      obtain ⟨hsort, hjoin⟩ := hready
      exact ⟨hsort, fun hm => .inl ((hjoin hm).resolve_right fun hi => hbusy (.inl hi))⟩

/-! ### Start-up -/

theorem initStep_other {p : InitPoint} {ps : List InitPoint} {r : ZmqRelay} (h : RepInv s)
    (ho : s.owner = .initializing (p :: ps)) (h1 : p ≠ .newContext) (h2 : p ≠ .newRep)
    (ht : r.repThread = s.relay.repThread)
    (hs : r.repSocket.map Socket.owesReply = s.relay.repSocket.map Socket.owesReply)
    (hc : r.context = s.relay.context) :
    RepInv { s with relay := r, owner := .initializing ps } := by
  refine h.congr ?_ ht hs hc
  have hready := h.owner
  rw [ho] at hready
  obtain ⟨hsort, hctx, hsock⟩ := hready
  refine ⟨(List.pairwise_cons.mp hsort).2, fun hm => ?_, fun hm => ?_⟩
  · exact (hctx (.tail _ hm)).imp_left fun h => (List.mem_cons.mp h).resolve_left h1.symm
  · exact (hsock (.tail _ hm)).imp_left fun h => (List.mem_cons.mp h).resolve_left h2.symm

theorem initStep {p : InitPoint} {ps : List InitPoint} {n : Nat} (h : RepInv s)
    (ho : s.owner = .initializing (p :: ps)) (hcan : System.canInit s.relay p = true) :
    RepInv { s with relay := s.relay.initStep env.config n p, owner := .initializing ps } := by
  have hready := h.owner
  rw [ho] at hready
  obtain ⟨hsort, hctx, hsock⟩ := hready
  obtain ⟨hfirst, hrest⟩ := List.pairwise_cons.mp hsort
  -- statements that come earlier are not in the rest
  have hnot : ∀ q : InitPoint, q.ctorIdx ≤ p.ctorIdx → q ∉ ps := fun q hq hm =>
    absurd (hfirst q hm) (by omega)
  cases p
  case newContext =>
    have hnone : s.relay.repSocket = none := by
      cases hs : s.relay.repSocket with
      | none => rfl
      | some socket => simp [System.canInit, hs, h.context (by rw [hs]; rfl)] at hcan
    have hidle := h.serves.repIdle hnone
    refine ⟨h.serves, fun _ => rfl, hrest, fun _ => .inr ⟨hidle, rfl⟩, fun hm => ?_⟩
    exact (hsock (.tail _ hm)).imp_left fun h => (List.mem_cons.mp h).resolve_left (by simp)
  case newRep =>
    obtain ⟨hidle, hcontext⟩ := (hctx (.head _)).resolve_left fun hm =>
      hnot _ (by decide) ((List.mem_cons.mp hm).resolve_left (by simp))
    exact ⟨ZmqRelay.RepIdle.serves hidle, fun _ => hcontext, hrest,
      fun hm => absurd hm (hnot _ (by decide)), fun _ => .inr ⟨hidle, rfl⟩⟩
  case startRep =>
    obtain ⟨-, howes⟩ := (hsock (.head _)).resolve_left fun hm =>
      hnot _ (by decide) ((List.mem_cons.mp hm).resolve_left (by simp))
    refine ⟨?_, h.context, hrest, fun hm => absurd hm (hnot _ (by decide)),
      fun hm => absurd hm (hnot _ (by decide))⟩
    rintro pc ⟨⟩ -
    exact howes
  case bindRep | applySocketOptions =>
    refine h.initStep_other ho (by simp) (by simp) rfl ?_ rfl
    exact Option.map_map ..
  all_goals exact h.initStep_other ho (by simp) (by simp) rfl rfl rfl

/-! ### Shut-down -/

theorem shutdownStep {p : ShutdownPoint} {ps : List ShutdownPoint} (h : RepInv s)
    (ho : s.owner = .shuttingDown (p :: ps)) (hcan : System.canShut s.relay p = true) :
    RepInv { s with relay := s.relay.shutdownStep p, owner := .shuttingDown ps } := by
  have hready := h.owner
  rw [ho] at hready
  obtain ⟨hsort, hjoin⟩ := hready
  obtain ⟨hfirst, hrest⟩ := List.pairwise_cons.mp hsort
  have htail : p ≠ .joinRep → (.resetSockets ∈ ps → .joinRep ∈ ps ∨ s.relay.repThread = none) :=
    fun hp hm => (hjoin (.tail _ hm)).imp_left fun h => (List.mem_cons.mp h).resolve_left hp.symm
  cases p
  case joinRep =>
    exact ⟨fun pc hpc => (by cases hpc), h.context, hrest, fun _ => .inr rfl⟩
  case resetSockets =>
    have hnone := (hjoin (.head _)).resolve_left fun hm =>
      absurd (hfirst _ ((List.mem_cons.mp hm).resolve_left (by simp))) (by decide)
    have hidle : (s.relay.shutdownStep .resetSockets).RepIdle := .inl hnone
    exact ⟨hidle.serves, fun hs => (by cases hs), hrest, fun _ => .inr hnone⟩
  all_goals exact h.congr ⟨hrest, htail (by simp)⟩ rfl rfl rfl

theorem owner_step {e : OwnerEvent} (h : RepInv s) (hs : s.ownerStep env e = some s') :
    RepInv s' := by
  obtain ⟨r, pc, hmove, rfl⟩ := System.ownerStep_move hs
  cases hmove with
  | beginInitialize =>
    refine h.congr ⟨InitPoint.sorted_points _, fun _ => .inl ?_,
      fun hm => .inl (InitPoint.newRep_of_startRep hm)⟩ rfl rfl rfl
    simp [InitPoint.points]
  | init p ps n ho hc => exact h.initStep ho hc
  | beginShutdown => exact h.congr ⟨by decide, fun _ => .inl (by decide)⟩ rfl rfl rfl
  | shut p ps ho hc => exact h.shutdownStep ho hc
  | setPacketFilter | setPacketInjector | setPlayerNameProvider => exact h.congr h.owner rfl rfl rfl
  | initThrows | endInitialize | endShutdown => exact h.congr trivial rfl rfl rfl

/-! ### Runs -/

theorem step {l : Label} (h : RepInv s) (hs : System.step env s l = some s') : RepInv s' := by
  cases l with
  | caller i e =>
    have hc := System.step_caller hs
    obtain ⟨_, _, _, hr, -, -⟩ := System.callerStep_frame hc
    exact h.congr ((System.callerStep_rest hc).1 ▸ h.owner) (by rw [hr]) (by rw [hr]) (by rw [hr])
  | publisher e =>
    obtain ⟨r, hr, rfl⟩ := System.step_publisher hs
    obtain ⟨_, _, _, _, _, rfl⟩ := ZmqRelay.publisherStep_frame hr
    exact h.congr h.owner rfl rfl rfl
  | reliable e =>
    obtain ⟨r, hr, rfl⟩ := System.step_reliable hs
    obtain ⟨_, _, rfl⟩ := ZmqRelay.reliableStep_frame hr
    exact h.congr h.owner rfl rfl rfl
  | command e =>
    obtain ⟨r, hr, hr', -, ho⟩ := System.step_command hs
    exact h.command hr ho hr'
  | owner e => exact h.owner_step (System.step_owner hs)

theorem run {tr : List Label} (h : Run (System.step env) {} tr s) : RepInv s :=
  h.invariant_state ⟨fun pc hpc => (by cases hpc), fun hs => (by cases hs), trivial⟩
    fun _ _ _ hi hs => hi.step hs

end RepInv

end Kpacket
