import Kpacket.PubStream
import Kpacket.PushStream

/-!
# Packets refused by the reliable queue

`stats_.publish_dropped` is initialised, reported and never written (`publishDropped_eq`). So the
packets that pass the filter add up to those admitted and those reported as dropped only while none
is refused (`dropsCounted_iff`).
-/

namespace Kpacket

open Lts

/-- The packet of a call that has passed the filter and is not offered to `packet_queue_` yet. -/
def CallerPc.unoffered : CallerPc → Option PacketInfo
  | .admitting packet => some packet
  | _ => none

def CallerEvent.offered? : CallerEvent → Option PacketInfo
  | .admitPacket packet _ => some packet
  | _ => none

def CallerEvent.refused? : CallerEvent → Option PacketInfo
  | .admitPacket packet false => some packet
  | _ => none

def Label.offered? : Label → Option PacketInfo
  | .caller _ e => e.offered?
  | _ => none

def Label.refused? : Label → Option PacketInfo
  | .caller _ e => e.refused?
  | _ => none

namespace Drops

/-- The packets that came to the look at the length of `packet_queue_`. -/
def offered (tr : List Label) : List PacketInfo := tr.filterMap Label.offered?

def refused (tr : List Label) : List PacketInfo := tr.filterMap Label.refused?

/-- The field `publish_dropped` of a `stats` reply that loads its numbers now. -/
def reportedDrops (r : ZmqRelay) : Option Json :=
  ((statsResponse r.loadStats.statsLoads).lookup (lit "stats")).bind fun stats =>
    stats.lookup (lit "publish_dropped")

/-- Every packet that passed the filter was admitted or counted as dropped, or is still on its way
to the queue. -/
structure DropsCounted (tr : List Label) (s : System) : Prop where
  callers : ∀ i, tr.filterMap (Label.by? i CallerEvent.passed?) =
    tr.filterMap (Label.by? i CallerEvent.offered?) ++ (s.callers i).unoffered.toList
  counted : (offered tr).length =
    (PushStream.admitted tr).length + s.relay.stats.publishDropped.toNat
  reported : reportedDrops s.relay = some (.integer (refused tr).length)

variable {env : Env} {s s' : System} {tr : List Label}

/-! ### Offers -/

theorem callerStep_offered {i : Nat} {e : CallerEvent} (h : s.callerStep env i e = some s') :
    (s.callers i).unoffered.toList ++ e.passed?.toList =
      e.offered?.toList ++ (s'.callers i).unoffered.toList := by
  obtain ⟨r, pc, hmove, rfl⟩ := System.callerStep_move h
  rw [System.setCaller_callers_self]
  cases hmove with
  | readRunning _ hpc | readSocket _ hpc =>
    rw [hpc]
    split_ifs <;> rfl
  | call _ hpc | pass _ hpc | drop _ hpc | admitPacket _ _ hpc | bypass _ hpc | enqueue _ hpc =>
    rw [hpc]
    rfl

theorem length_offered (tr : List Label) :
    (offered tr).length = (PushStream.admitted tr).length + (refused tr).length := by
  induction tr with
  | nil => rfl
  | cons l tr ih =>
    simp only [offered, PushStream.admitted, refused, List.filterMap_cons] at ih ⊢
    rcases l with ⟨i, e⟩ | e | e | e | e
    · rcases e with _ | _ | _ | _ | ⟨packet, _ | _⟩ | _ <;>
        simp only [Label.offered?, Label.admitted?, Label.refused?, CallerEvent.offered?,
          CallerEvent.admitted?, CallerEvent.refused?, List.length_cons] <;> omega
    all_goals simpa only [Label.offered?, Label.admitted?, Label.refused?] using ih

theorem publishDropped_step {l : Label} (hs : System.step env s l = some s') :
    s'.relay.stats.publishDropped = s.relay.stats.publishDropped := by
  cases l with
  | caller i e =>
    obtain ⟨_, _, _, hr, -, -⟩ := System.callerStep_frame (System.step_caller hs)
    rw [hr]
  | publisher e =>
    obtain ⟨r, hr, rfl⟩ := System.step_publisher hs
    obtain ⟨_, _, _, _, _, rfl⟩ := ZmqRelay.publisherStep_frame hr
    rfl
  | reliable e =>
    obtain ⟨r, hr, rfl⟩ := System.step_reliable hs
    obtain ⟨_, _, rfl⟩ := ZmqRelay.reliableStep_frame hr
    rfl
  | command e =>
    obtain ⟨r, hr, rfl, -⟩ := System.step_command hs
    obtain ⟨_, _, _, _, _, hr⟩ := ZmqRelay.commandStep_frame hr
    rw [hr]
  | owner e =>
    obtain ⟨_, _, _, _, _, _, _, _, _, _, _, hr, -⟩ := System.ownerStep_frame (System.step_owner hs)
    rw [hr]

theorem publishDropped_eq (h : Run (System.step env) {} tr s) :
    s.relay.stats.publishDropped = 0 :=
  h.invariant_state (I := fun s => s.relay.stats.publishDropped = 0) rfl
    fun _ _ _ hi hs => (publishDropped_step hs).trans hi

/-! ### Drops -/

theorem reportedDrops_eq (r : ZmqRelay) :
    reportedDrops r = some (.integer r.stats.publishDropped.toNat) := rfl

/-- The books are right while nothing is refused. -/
theorem dropsCounted_iff_refused (h : Run (System.step env) {} tr s) :
    DropsCounted tr s ↔ refused tr = [] := by
  have hzero := publishDropped_eq h
  have hlen := length_offered tr
  constructor
  · intro hd
    have hc := hd.counted
    rw [hzero] at hc
    rw [← List.length_eq_zero_iff]
    simpa using hlen.symm.trans hc
  · intro hn
    rw [hn] at hlen
    refine ⟨PubStream.caller_account rfl callerStep_offered h, ?_, ?_⟩
    · rw [hzero]; exact hlen
    · rw [reportedDrops_eq, hzero, hn]; rfl

/-- With the reliable queue enabled an offer is refused exactly if there is no room. -/
theorem refused_iff (he : env.config.enableReliableQueue = true) {i : Nat} {packet : PacketInfo}
    {admitted : Bool}
    (hs : System.step env s (.caller i (.admitPacket packet admitted)) = some s') :
    admitted = true ↔ s.relay.packetQueue.length < env.config.maxQueueSize := by
  obtain ⟨r, pc, hmove, -⟩ := System.callerStep_move (System.step_caller hs)
  cases hmove with
  | admitPacket _ _ _ _ _ ha => rw [ha, decide_eq_true_iff]
  | bypass _ _ hoff => rw [he] at hoff; cases hoff

/-- With the reliable queue enabled the packets that passed the filter add up to those admitted and
those reported as dropped, in every state of a run, exactly if every offer finds room. -/
theorem dropsCounted_iff (he : env.config.enableReliableQueue = true)
    (h : Run (System.step env) {} tr s) :
    (∀ pre post s', tr = pre ++ post → Run (System.step env) {} pre s' → DropsCounted pre s') ↔
      Steps (System.step env) (fun s l => ∀ i packet admitted,
        l = .caller i (.admitPacket packet admitted) →
          s.relay.packetQueue.length < env.config.maxQueueSize) {} tr := by
  constructor
  · rintro hall pre _ post s' rfl hr i packet admitted rfl
    obtain ⟨s₁, hs⟩ := h.next hr
    rw [← refused_iff he hs]
    have hr₁ := hr.snoc hs
    have hn := (dropsCounted_iff_refused hr₁).mp (hall _ post s₁ (List.append_cons ..) hr₁)
    rw [refused, filterMap_snoc] at hn
    cases admitted with
    | true => rfl
    | false => exact absurd (List.append_eq_nil_iff.mp hn).2 (List.cons_ne_nil _ _)
  · rintro hsteps pre post s' rfl hr
    refine (dropsCounted_iff_refused hr).mpr ?_
    refine hr.guarded hsteps.of_append (I := fun tr _ => refused tr = []) rfl ?_
    intro tr s l s₁ _ ih hroom hs
    rw [refused, filterMap_snoc, ← refused, ih, List.nil_append]
    rcases l with ⟨i, e⟩ | e | e | e | e
    · rcases e with _ | _ | _ | _ | ⟨packet, _ | _⟩ | _
      case admitPacket.false =>
        exact absurd ((refused_iff he hs).mpr (hroom i packet false rfl)) Bool.false_ne_true
      all_goals rfl
    all_goals rfl

theorem room_of_few (h : Run (System.step env) {} tr s)
    (hn : (offered tr).length ≤ env.config.maxQueueSize) :
    Steps (System.step env) (fun s l => ∀ i packet admitted,
      l = .caller i (.admitPacket packet admitted) →
        s.relay.packetQueue.length < env.config.maxQueueSize) {} tr := by
  rintro pre _ post s' rfl hr i packet admitted rfl
  have hq := congrArg List.length (PushStream.admitted_eq hr)
  have hpre := length_offered pre
  rw [List.length_append] at hq
  rw [offered, List.filterMap_append, ← offered, List.length_append] at hn
  have hpost : ((Label.caller i (.admitPacket packet admitted) :: post).filterMap
      Label.offered?).length = (post.filterMap Label.offered?).length + 1 := rfl
  omega

/-! ### Two queues -/

/-- One packet finds room in a queue of the default size. -/
theorem dropsCounted_login : ∃ tr s, Run (System.step (defaultEnv id)) {} tr s ∧
    offered tr = [loginPacket] ∧
    ∀ pre post s', tr = pre ++ post → Run (System.step (defaultEnv id)) {} pre s' →
      DropsCounted pre s' := by
  obtain ⟨es, hstart⟩ := System.run_started id
  have hcall := System.exec_call (defaultEnv id) (s := { relay := System.startedRelay }) rfl
    (i := 0) rfl loginPacket rfl rfl
  have hr := hstart.append (Run.of_exec hcall)
  have ho : offered (es.map .owner ++ (System.callEvents (defaultEnv id).config
      System.startedRelay loginPacket).map (.caller 0)) = [loginPacket] := by
    rw [offered, List.filterMap_append, filterMap_map_of_none fun _ => rfl]
    rfl
  exact ⟨_, _, hr, ho, (dropsCounted_iff rfl hr).mpr (room_of_few hr (by rw [ho]; decide))⟩

/-- The default environment with room for one packet. -/
def smallQueueEnv : Env := { defaultEnv id with config := { maxQueueSize := 1 } }

/-- A relay with this queue, started. -/
def smallQueueRelay : ZmqRelay :=
  (({} : ZmqRelay).Initialize smallQueueEnv.config (fun _ => false) 4).2

/-- The second of two packets is refused, and a `stats` reply says that nothing was dropped. -/
theorem dropsCounted_overflow : ∃ tr s, Run (System.step smallQueueEnv) {} tr s ∧
    offered tr = [loginPacket, loginPacket] ∧ PushStream.admitted tr = [loginPacket] ∧
    reportedDrops s.relay = some (.integer 0) ∧ ¬ DropsCounted tr s := by
  have hstart : Run (System.step smallQueueEnv) {} _ { relay := smallQueueRelay } :=
    Run.of_exec (System.exec_Initialize smallQueueEnv (s := {}) rfl rfl ZmqRelay.idle_new rfl
      (fun _ => false) 4)
  have hfirst := Run.of_exec (System.exec_call smallQueueEnv (s := { relay := smallQueueRelay }) rfl
    (i := 0) rfl loginPacket rfl rfl)
  have hsecond := Run.of_exec (System.exec_call smallQueueEnv
    (s := { relay := smallQueueRelay.publishPacket smallQueueEnv.config loginPacket }) rfl (i := 0)
    rfl loginPacket rfl rfl)
  have hr := (hstart.append hfirst).append hsecond
  have hzero := publishDropped_eq hr
  refine ⟨_, _, hr, rfl, rfl, ?_, fun hd => ?_⟩
  · rw [reportedDrops_eq, hzero]; rfl
  · exact absurd ((dropsCounted_iff_refused hr).mp hd) (List.cons_ne_nil loginPacket [])

end Drops

end Kpacket
