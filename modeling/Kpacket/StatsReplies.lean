import Kpacket.CommandRuns
import Kpacket.Drops
import Kpacket.InjectRuns

/-!
# What the statistics say

A reply to `stats` is made of counters that three workers and any number of callers write while they
are loaded one after the other. Each of its numbers is that of the events of its kind up to its own
load (`stats_reply`); two counters get their books here, the others have theirs already.
-/

namespace Kpacket

open Lts

namespace StatsReplies

/-- The packets that the filter has turned away. -/
def Label.rejected? : Label → Option PacketInfo
  | .caller _ (.filter packet false) => some packet
  | _ => none

def rejected (tr : List Label) : List PacketInfo := tr.filterMap Label.rejected?

/-- The request of a step that has the injector called with success. -/
def injection (env : Env) (pre : List Label) : Label → Option Bytes
  | .command (.process uptime request _) =>
    (exec (System.step env) {} pre).bind fun s =>
      if (processCommand env s.relay uptime request).injected then some request else none
  | _ => none

/-- The requests that have injected a packet. -/
def injections (env : Env) (tr : List Label) : List Bytes := history (injection env) tr

variable {env : Env} {s s' : System} {tr : List Label}

theorem rejected_snoc (tr : List Label) (l : Label) :
    rejected (tr ++ [l]) = rejected tr ++ (Label.rejected? l).toList := filterMap_snoc ..

theorem packetsFiltered_step {l : Label} (h : System.step env s l = some s') :
    s'.relay.stats.packetsFiltered =
      s.relay.stats.packetsFiltered + .ofNat (Label.rejected? l).toList.length := by
  cases l with
  | caller i e =>
    obtain ⟨r, pc, hmove, rfl⟩ := System.callerStep_move (System.step_caller h)
    cases hmove with
    | drop packet => rfl
    | admitPacket packet =>
      rw [System.setCaller_relay, ZmqRelay.admitPacket_eq]
      exact (UInt64.add_zero _).symm
    | _ => exact (UInt64.add_zero _).symm
  | publisher e =>
    obtain ⟨r, hr, rfl⟩ := System.step_publisher h
    obtain ⟨_, _, _, _, _, rfl⟩ := ZmqRelay.publisherStep_frame hr
    exact (UInt64.add_zero _).symm
  | reliable e =>
    obtain ⟨r, hr, rfl⟩ := System.step_reliable h
    obtain ⟨_, _, rfl⟩ := ZmqRelay.reliableStep_frame hr
    exact (UInt64.add_zero _).symm
  | command e =>
    obtain ⟨r, hr, rfl, -⟩ := System.step_command h
    obtain ⟨_, _, _, _, _, hr⟩ := ZmqRelay.commandStep_frame hr
    rw [hr]
    exact (UInt64.add_zero _).symm
  | owner e =>
    obtain ⟨_, _, _, _, _, _, _, _, _, _, _, hr, -⟩ := System.ownerStep_frame (System.step_owner h)
    rw [hr]
    exact (UInt64.add_zero _).symm

theorem packetsFiltered_eq (h : Run (System.step env) {} tr s) :
    s.relay.stats.packetsFiltered = .ofNat (rejected tr).length := by
  refine h.invariant (I := fun tr s => s.relay.stats.packetsFiltered = .ofNat (rejected tr).length)
    rfl ?_
  intro tr s l s' _ hi hs
  rw [packetsFiltered_step hs, hi, rejected_snoc, List.length_append, UInt64.ofNat_add]

theorem packetsInjected_eq (h : Run (System.step env) {} tr s) :
    s.relay.stats.packetsInjected = .ofNat (injections env tr).length := by
  refine h.invariant
    (I := fun tr s => s.relay.stats.packetsInjected = .ofNat (injections env tr).length) rfl ?_
  intro tr s l s' hr hi hs
  have hsnoc : injections env (tr ++ [l]) = injections env tr ++ (injection env tr l).toList :=
    history_snoc ..
  have hnone : injection env tr l = none →
      s'.relay.stats.packetsInjected = s.relay.stats.packetsInjected →
      s'.relay.stats.packetsInjected = .ofNat (injections env (tr ++ [l])).length := by
    intro hl hs'
    rw [hs', hi, hsnoc, hl]
    simp
  by_cases hl : ∃ e, l = .command e
  · obtain ⟨e, rfl⟩ := hl
    obtain ⟨r, hr', hrelay, -⟩ := System.step_command hs
    rw [hrelay] at hnone ⊢
    cases ZmqRelay.commandStep_move hr' with
    | process uptime request response calls injected ht hp =>
      have hx : injection env tr (.command (.process uptime request response)) =
          if injected then some request else none := by
        rw [injection, hr.exec_eq, Option.bind_some, hp]
      rw [hsnoc, hx, List.length_append]
      cases injected with
      | false => exact hi
      | true =>
        show s.relay.stats.packetsInjected + 1 = _
        rw [hi, UInt64.ofNat_add]
        rfl
    | _ => exact hnone rfl rfl
  · obtain ⟨hcount, -, -, -⟩ := System.step_notCommand hs fun e he => hl ⟨e, he⟩
    refine hnone ?_ hcount
    rcases l with _ | _ | _ | e | _
    case command => exact absurd ⟨e, rfl⟩ hl
    all_goals rfl

/-- A counter after a run: modulo 2^64, except for the length of the queue. -/
def countOf (env : Env) (tr : List Label) : StatsField → Nat
  | .packetsPublished => (PubStream.succeeded tr).length % 2 ^ 64
  | .commandsProcessed => (CommandRuns.replied tr).length % 2 ^ 64
  | .packetsInjected => (injections env tr).length % 2 ^ 64
  | .packetsFiltered => (rejected tr).length % 2 ^ 64
  | .publishDropped => 0
  | .pubSendErrors => (PubStream.failed tr).length % 2 ^ 64
  | .queueSize => (PushStream.admitted tr).length - (PushStream.taken tr).length

/-- The counters, each after a part of the run of its own. -/
def countsOf (env : Env) (upTo : StatsField → List Label) : Json := Json.obj [
  (lit "packets_published", .integer (countOf env (upTo .packetsPublished) .packetsPublished)),
  (lit "commands_processed", .integer (countOf env (upTo .commandsProcessed) .commandsProcessed)),
  (lit "packets_injected", .integer (countOf env (upTo .packetsInjected) .packetsInjected)),
  (lit "packets_filtered", .integer (countOf env (upTo .packetsFiltered) .packetsFiltered)),
  (lit "publish_dropped", .integer (countOf env (upTo .publishDropped) .publishDropped)),
  (lit "pub_send_errors", .integer (countOf env (upTo .pubSendErrors) .pubSendErrors)),
  (lit "queue_size", .integer (countOf env (upTo .queueSize) .queueSize))]

/-- The request at the end of `tr` has come in and `fields` have been loaded for it, in this order,
each right after its part of the run. -/
structure Loading (request : Bytes) (tr : List Label) (fields : List StatsField)
    (upTo : StatsField → List Label) : Prop where
  received : ∃ before since, tr = before ++ .command (.receive (some request)) :: since ∧
    (∀ other, .command (.receive other) ∉ since) ∧
    ∀ field ∈ fields, before ++ [.command (.receive (some request))] <+: upTo field
  loaded : ∀ field ∈ fields, ∃ since, tr = upTo field ++ .command (.load request field) :: since
  order : fields.Pairwise fun field field' => upTo field <+: upTo field'

/-! ### Loads -/

/-- What is loaded as one of the counters. -/
def value (loads : StatsLoads) : StatsField → Nat
  | .packetsPublished => loads.packetsPublished.toNat
  | .commandsProcessed => loads.commandsProcessed.toNat
  | .packetsInjected => loads.packetsInjected.toNat
  | .packetsFiltered => loads.packetsFiltered.toNat
  | .publishDropped => loads.publishDropped.toNat
  | .pubSendErrors => loads.pubSendErrors.toNat
  | .queueSize => loads.queueSize

theorem value_load_ne (loads : StatsLoads) (r : ZmqRelay) {field field' : StatsField}
    (h : field' ≠ field) : value (loads.load r field) field' = value loads field' := by
  cases field <;> cases field' <;> first | rfl | exact absurd rfl h

/-- While a request is handled the counters are those of the run. -/
theorem value_load_self (h : Run (System.step env) {} tr s) {request : Bytes}
    (ht : s.relay.repThread = some (.processing request)) (loads : StatsLoads)
    (field : StatsField) : value (loads.load s.relay field) field = countOf env tr field := by
  cases field with
  | packetsPublished =>
    exact (congrArg UInt64.toNat (PubStream.accounted h).published).trans UInt64.toNat_ofNat
  | commandsProcessed =>
    have hcmd := CommandRuns.ledger h
    have hreplied : CommandRuns.replied tr = CommandRuns.counted tr := by
      rw [hcmd.sent, CommandRuns.inHand, ht]
      exact List.append_nil _
    rw [countOf, hreplied]
    exact (congrArg UInt64.toNat hcmd.processed).trans UInt64.toNat_ofNat
  | packetsInjected =>
    exact (congrArg UInt64.toNat (packetsInjected_eq h)).trans UInt64.toNat_ofNat
  | packetsFiltered =>
    exact (congrArg UInt64.toNat (packetsFiltered_eq h)).trans UInt64.toNat_ofNat
  | publishDropped => exact congrArg UInt64.toNat (Drops.publishDropped_eq h)
  | pubSendErrors =>
    exact (congrArg UInt64.toNat (PubStream.accounted h).errors).trans UInt64.toNat_ofNat
  | queueSize =>
    show s.relay.packetQueue.length = _
    rw [countOf, PushStream.admitted_eq_taken h, List.length_append]
    omega

section Steps

variable {request : Bytes} {fields : List StatsField} {upTo : StatsField → List Label}

theorem Loading.receive (tr : List Label) (request : Bytes) :
    Loading request (tr ++ [.command (.receive (some request))]) [] upTo :=
  ⟨⟨tr, [], rfl, fun _ => List.not_mem_nil, fun _ hf => absurd hf List.not_mem_nil⟩,
    fun _ hf => absurd hf List.not_mem_nil, .nil⟩

theorem Loading.snoc (h : Loading request tr fields upTo) {l : Label}
    (hl : ∀ other, l ≠ .command (.receive other)) : Loading request (tr ++ [l]) fields upTo := by
  obtain ⟨before, since, rfl, hno, hpre⟩ := h.received
  refine ⟨⟨before, since ++ [l], by simp, fun other hm => ?_, hpre⟩, fun field hf => ?_, h.order⟩
  · rcases List.mem_append.mp hm with hm | hm
    · exact hno other hm
    · exact hl other (List.mem_singleton.mp hm).symm
  · obtain ⟨since', hs⟩ := h.loaded field hf
    exact ⟨since' ++ [l], by rw [hs]; simp⟩

theorem Loading.congr (h : Loading request tr fields upTo) {upTo' : StatsField → List Label}
    (he : ∀ field ∈ fields, upTo' field = upTo field) : Loading request tr fields upTo' := by
  obtain ⟨before, since, ht, hno, hpre⟩ := h.received
  refine ⟨⟨before, since, ht, hno, fun field hf => ?_⟩, fun field hf => ?_, ?_⟩
  · rw [he field hf]
    exact hpre field hf
  · rw [he field hf]
    exact h.loaded field hf
  · refine h.order.imp_of_mem fun hf hf' hle => ?_
    rw [he _ hf, he _ hf']
    exact hle

theorem Loading.load (h : Loading request tr fields upTo) {field : StatsField}
    (hf : field ∉ fields) : Loading request (tr ++ [.command (.load request field)])
      (fields ++ [field]) (Function.update upTo field tr) := by
  have hne : ∀ field' ∈ fields, Function.update upTo field tr field' = upTo field' := by
    rintro field' hf'
    exact Function.update_of_ne (by rintro rfl; exact hf hf') _ _
  have hself : Function.update upTo field tr field = tr := Function.update_self ..
  have hold := h.congr hne
  have hmem : ∀ {field'}, field' ∈ fields ++ [field] → field' ∈ fields ∨ field' = field := by
    intro field' hm
    rcases List.mem_append.mp hm with hm | hm
    · exact .inl hm
    · exact .inr (List.mem_singleton.mp hm)
  have hlater := hold.snoc (l := .command (.load request field)) nofun
  obtain ⟨before, since, ht, hno, hpre⟩ := hold.received
  refine ⟨⟨before, since ++ [.command (.load request field)], by rw [ht]; simp, ?_, ?_⟩, ?_, ?_⟩
  · intro other hm
    rcases List.mem_append.mp hm with hm | hm
    · exact hno other hm
    · cases List.mem_singleton.mp hm
  · intro field' hm
    rcases hmem hm with hm | rfl
    · exact hpre field' hm
    · rw [hself, ht]
      exact ⟨since, by simp⟩
  · intro field' hm
    rcases hmem hm with hm | rfl
    · exact hlater.loaded field' hm
    · exact ⟨[], by rw [hself]⟩
  · refine List.pairwise_append.mpr
      ⟨hold.order, List.pairwise_singleton _ _, fun field' hm _ hs => ?_⟩
    rw [List.mem_singleton.mp hs, hself]
    obtain ⟨since', hs⟩ := hold.loaded field' hm
    exact ⟨_, hs.symm⟩

/-- What the thread has loaded for the request in hand. -/
def Loads (env : Env) (tr : List Label) (s : System) : Prop :=
  ∀ request, s.relay.repThread = some (.processing request) → ∃ fields upTo,
    StatsField.all = fields ++ s.relay.statsLoads.left ∧ Loading request tr fields upTo ∧
      ∀ field ∈ fields, value s.relay.statsLoads field = countOf env (upTo field) field

theorem Loads.other (h : Loads env tr s) {l : Label}
    (hl : ∀ other, l ≠ .command (.receive other))
    (ht : ∀ request, s'.relay.repThread = some (.processing request) →
      s.relay.repThread = some (.processing request))
    (hs : s'.relay.statsLoads = s.relay.statsLoads) : Loads env (tr ++ [l]) s' := by
  intro request hpc
  obtain ⟨fields, upTo, hall, hload, hval⟩ := h request (ht request hpc)
  rw [hs]
  exact ⟨fields, upTo, hall, hload.snoc hl, hval⟩

theorem loads_step {l : Label} (hr : Run (System.step env) {} tr s) (h : Loads env tr s)
    (hs : System.step env s l = some s') : Loads env (tr ++ [l]) s' := by
  by_cases hl : ∃ e, l = .command e
  · obtain ⟨e, rfl⟩ := hl
    obtain ⟨r, hr', hrelay, -⟩ := System.step_command hs
    cases ZmqRelay.commandStep_move hr' with
    | receive request ht ho =>
      intro request' hpc
      rw [hrelay] at hpc ⊢
      obtain rfl : request = request' := CommandPc.processing.inj (Option.some.inj hpc)
      exact ⟨[], fun _ => [], rfl, .receive tr request, fun _ hf => absurd hf List.not_mem_nil⟩
    | load request field ht hc hf =>
      intro request' hpc
      rw [hrelay] at hpc ⊢
      obtain rfl : request = request' :=
        CommandPc.processing.inj (Option.some.inj (ht.symm.trans hpc))
      obtain ⟨fields, upTo, hall, hload, hval⟩ := h request ht
      obtain ⟨left, hleft⟩ : ∃ left, s.relay.statsLoads.left = field :: left :=
        List.head?_eq_some_iff.mp hf
      have hnew : field ∉ fields := by
        have hnodup : StatsField.all.Nodup := by decide
        rw [hall, hleft] at hnodup
        exact fun hm => (List.nodup_append.mp hnodup).2.2 field hm field (List.mem_cons_self ..) rfl
      refine ⟨fields ++ [field], Function.update upTo field tr, ?_, hload.load hnew, ?_⟩
      · rw [StatsLoads.left_load, hleft, List.tail_cons, List.append_assoc, hall, hleft]
        rfl
      · intro field' hm
        rcases List.mem_append.mp hm with hold | hm
        · have hne : field' ≠ field := fun he => hnew (he ▸ hold)
          rw [Function.update_of_ne hne, value_load_ne _ _ hne]
          exact hval field' hold
        · rw [List.mem_singleton.mp hm, Function.update_self]
          exact value_load_self hr ht _ field
    | loop =>
      intro request hpc
      rw [hrelay] at hpc
      cases hrun : s.relay.running <;> simp [hrun] at hpc
    | receiveNone | process | reply | count =>
      intro request hpc
      rw [hrelay] at hpc
      cases hpc
    | undefinedLookup => exact h.other nofun (by rw [hrelay]; exact fun _ => id) (by rw [hrelay])
  · have hl' : ∀ e, l ≠ .command e := fun e he => hl ⟨e, he⟩
    obtain ⟨-, -, hloads, hrep⟩ := System.step_notCommand hs hl'
    refine h.other (fun _ => hl' _) (fun request hpc => ?_) hloads
    rcases hrep with hrep | ⟨-, hnew⟩
    · exact hrep ▸ hpc
    · rw [hpc] at hnew
      rcases hnew with hnew | hnew <;> cases hnew

theorem loads (h : Run (System.step env) {} tr s) : Loads env tr s :=
  h.invariant (I := Loads env) nofun fun _ _ _ _ hr hi hs => loads_step hr hi hs

end Steps

/-- Every reply to `stats`, at whatever time of a run, says how many packets were published, replies
sent, packets injected and turned away, and sends failed, and how long the queue was: each number
after the part of the run up to its own load. -/
theorem stats_reply (hd : LawfulDump env.json.dump) {pre post : List Label} {uptime : Int}
    {request response : Bytes} {params : Json}
    (h : Run (System.step env) {} (pre ++ .command (.process uptime request response) :: post) s)
    (hr : readCommand env request = .done (lit "stats", params)) :
    ∃ upTo, Loading request pre StatsField.all upTo ∧
      JsonText.read response = some (Json.obj [(lit "stats", countsOf env upTo)]) := by
  obtain ⟨s₁, h₁, -⟩ := h.of_append
  obtain ⟨s₂, hs⟩ := h.next h₁
  obtain ⟨r, hstep, -⟩ := System.step_command hs
  cases ZmqRelay.commandStep_move hstep with
  | process _ _ _ calls injected ht hp hl =>
    obtain ⟨fields, upTo, hall, hload, hval⟩ := loads h₁ request ht
    have hleft : s₁.relay.statsLoads.left = [] := hl (by rw [commandOf, hr])
    rw [hleft, List.append_nil] at hall
    subst hall
    refine ⟨upTo, hload, ?_⟩
    obtain ⟨text, htext⟩ := hd.ok (plain_statsResponse s₁.relay.statsLoads)
      (utf8_statsResponse s₁.relay.statsLoads)
    have hout : (processCommand env s₁.relay uptime request).outcome = .done text := by
      have hstats : (processCommand env s₁.relay uptime request).outcome =
          (dumpOutcome env (statsResponse s₁.relay.statsLoads)).catching errorReply := by
        simp only [processCommand, hr]
        rfl
      rw [hstats, dumpOutcome, htext]
      rfl
    rw [hp] at hout
    obtain rfl : response = text := Outcome.done.inj hout
    have hcounts : statsCounters s₁.relay.statsLoads = countsOf env upTo := by
      rw [countsOf, ← hval .packetsPublished (by decide), ← hval .commandsProcessed (by decide),
        ← hval .packetsInjected (by decide), ← hval .packetsFiltered (by decide),
        ← hval .publishDropped (by decide), ← hval .pubSendErrors (by decide),
        ← hval .queueSize (by decide)]
      rfl
    rw [hd.read (plain_statsResponse _) htext, statsResponse, hcounts]

/-- A packet is published between the loads of two numbers. -/
theorem stats_reply_called : ∃ pre response,
    CommandRuns.received pre = [CommandRuns.statsRequest] ∧
    PushStream.admitted pre = [loginPacket] ∧
    ∃ upTo, Loading CommandRuns.statsRequest pre StatsField.all upTo ∧
      JsonText.read response = some (Json.obj [(lit "stats", countsOf (defaultEnv id) upTo)]) := by
  have hread : readCommand (defaultEnv id) CommandRuns.statsRequest =
    .done (lit "stats", Json.obj []) := rfl
  have hcmd : commandOf (defaultEnv id) CommandRuns.statsRequest = some (lit "stats") := rfl
  -- the thread has a request in hand and has loaded the six counters of `stats_`
  let counters := StatsField.all.dropLast
  let taken : ZmqRelay := { System.startedRelay with
    repSocket := System.startedRelay.repSocket.map fun s => { s with owesReply := true }
    repThread := some (.processing CommandRuns.statsRequest)
    statsLoads := {} }
  let loaded : ZmqRelay := { taken with
    statsLoads := counters.foldl (fun loads field => loads.load taken field) {} }
  have htake : exec (System.step (defaultEnv id)) { relay := System.startedRelay }
      ([CommandEvent.loop, .receive (some CommandRuns.statsRequest)].map .command) =
        some { relay := taken } := rfl
  have hcounters := @System.exec_loads (defaultEnv id) _ hcmd counters [.queueSize]
    { relay := taken } rfl rfl rfl
  have hcall := System.exec_call (defaultEnv id) (s := { relay := loaded }) rfl (i := 0) rfl
    loginPacket rfl rfl
  have hqueue := @System.exec_loads (defaultEnv id) _ hcmd [.queueSize] []
    { relay := loaded.publishPacket (defaultEnv id).config loginPacket } rfl rfl rfl
  let ready : ZmqRelay := { loaded.publishPacket (defaultEnv id).config loginPacket with
    statsLoads := [StatsField.queueSize].foldl
      (fun loads field =>
        loads.load (loaded.publishPacket (defaultEnv id).config loginPacket) field)
      loaded.statsLoads }
  obtain ⟨response, hd, -⟩ := dumped_caught (lawfulDump_defaultEnv id)
    (plain_statsResponse ready.statsLoads) (utf8_statsResponse _)
  have hp : processCommand (defaultEnv id) ready 5 CommandRuns.statsRequest =
      ⟨.done response, [], false⟩ := by
    show (⟨(dumpOutcome (defaultEnv id) _).catching errorReply, [], false⟩ : Handled) = _
    rw [hd]
  have hprocess : exec (System.step (defaultEnv id)) { relay := ready }
      [.command (.process 5 CommandRuns.statsRequest response)] = some { relay := { ready with
        repThread := some (.replying CommandRuns.statsRequest response) } } := by
    have hstep : ready.commandStep (defaultEnv id)
        (.process 5 CommandRuns.statsRequest response) = some { ready with
          repThread := some (.replying CommandRuns.statsRequest response) } := by
      simp only [ZmqRelay.commandStep, hp]
      exact if_pos ⟨rfl, trivial, fun _ => rfl⟩
    simp [exec, System.step, hstep]
  have hr := ((((Run.of_exec (System.exec_started id none)).append (Run.of_exec htake)).append
    (Run.of_exec hcounters)).append (Run.of_exec hcall)).append (Run.of_exec hqueue)
  refine ⟨_, response, ?_, ?_, stats_reply (lawfulDump_defaultEnv id)
    (hr.append (Run.of_exec hprocess)) hread⟩
  · rfl
  · rfl

end StatsReplies

end Kpacket
