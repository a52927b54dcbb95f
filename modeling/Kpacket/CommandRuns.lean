import Kpacket.CommandReplies
import Kpacket.RepSocket
import Kpacket.Rounds

/-!
# Requests and replies

`Answered`: the process is up, every request that was received has been replied to, in order, or is
being worked on, and the counter has counted the replies. It holds throughout a run exactly if no
request comes to an undefined lookup (`answered_iff`).
-/

namespace Kpacket

open Lts

namespace CommandPc

/-- The request that is not replied to yet. -/
def pending : CommandPc → Option Bytes
  | .processing request | .replying request _ => some request
  | _ => none

/-- The reply that is not sent yet. -/
def outgoing : CommandPc → Option (Bytes × Bytes)
  | .replying request response => some (request, response)
  | _ => none

/-- The reply that is sent and not counted yet. -/
def uncounted : CommandPc → Option (Bytes × Bytes)
  | .counting request response => some (request, response)
  | _ => none

end CommandPc

namespace CommandEvent

def received? : CommandEvent → Option Bytes
  | .receive request => request
  | _ => none

def replied? : CommandEvent → Option (Bytes × Bytes)
  | .reply request response => some (request, response)
  | _ => none

def counted? : CommandEvent → Option (Bytes × Bytes)
  | .count request response => some (request, response)
  | _ => none

end CommandEvent

def Label.command? : Label → Option CommandEvent
  | .command e => some e
  | _ => none

namespace CommandRuns

/-- The history that commands contribute to by `g`. -/
def history {β : Type} (g : CommandEvent → Option β) (tr : List Label) : List β :=
  tr.filterMap fun l => l.command?.bind g

def received (tr : List Label) : List Bytes := history CommandEvent.received? tr

/-- The requests that were replied to, with their replies. -/
def replied (tr : List Label) : List (Bytes × Bytes) := history CommandEvent.replied? tr

def counted (tr : List Label) : List (Bytes × Bytes) := history CommandEvent.counted? tr

/-- `ProcessCommand` returns `response` on `request`. -/
def Returns (env : Env) (request response : Bytes) : Prop :=
  ∃ r uptime, (processCommand env r uptime request).outcome = .done response

/-- What the thread is at, as one of the three above. -/
def inHand {β : Type} (f : CommandPc → Option β) (r : ZmqRelay) : List β :=
  (r.repThread.bind f).toList

variable {env : Env} {s s' : System} {r r' : ZmqRelay} {tr : List Label}

/-! ### The books of the thread -/

structure Ledger (env : Env) (tr : List Label) (r : ZmqRelay) : Prop where
  order : received tr = (replied tr).map Prod.fst ++ inHand CommandPc.pending r
  returns : ∀ p ∈ replied tr ++ inHand CommandPc.outgoing r, Returns env p.1 p.2
  sent : replied tr = counted tr ++ inHand CommandPc.uncounted r
  processed : r.stats.commandsProcessed = .ofNat (counted tr).length

/-- What one step of the thread does to its books. -/
structure Entry (env : Env) (r r' : ZmqRelay) (e : CommandEvent) : Prop where
  order : inHand CommandPc.pending r ++ e.received?.toList =
    e.replied?.toList.map Prod.fst ++ inHand CommandPc.pending r'
  returns : ∀ p ∈ e.replied?.toList ++ inHand CommandPc.outgoing r',
    p ∈ inHand CommandPc.outgoing r ∨ Returns env p.1 p.2
  sent : inHand CommandPc.uncounted r ++ e.replied?.toList =
    e.counted?.toList ++ inHand CommandPc.uncounted r'
  processed : r'.stats.commandsProcessed =
    r.stats.commandsProcessed + .ofNat e.counted?.toList.length

theorem entry_of_step {e : CommandEvent} (h : r.commandStep env e = some r') :
    Entry env r r' e := by
  cases ZmqRelay.commandStep_move h with
  | loop ht =>
    cases hr : r.running <;> constructor <;>
      simp [inHand, ht, CommandPc.pending, CommandPc.outgoing, CommandPc.uncounted,
        CommandEvent.received?, CommandEvent.replied?, CommandEvent.counted?]
  | process uptime request response calls injected ht hp =>
    have hret : Returns env request response := ⟨r, uptime, by rw [hp]⟩
    constructor
    case returns => simpa [inHand, ht, CommandPc.outgoing, CommandEvent.replied?] using hret
    case processed => cases injected <;> simp [CommandEvent.counted?]
    all_goals simp [inHand, ht, CommandPc.pending, CommandPc.uncounted,
      CommandEvent.received?, CommandEvent.replied?, CommandEvent.counted?]
  | receiveNone ht | receive _ ht | load _ _ ht | undefinedLookup _ _ ht | reply _ _ ht
  | count _ _ ht =>
    constructor <;> simp [inHand, ht, CommandPc.pending, CommandPc.outgoing, CommandPc.uncounted,
      CommandEvent.received?, CommandEvent.replied?, CommandEvent.counted?]

theorem Ledger.entry {e : CommandEvent} (h : Ledger env tr r) (he : Entry env r r' e) :
    Ledger env (tr ++ [.command e]) r' := by
  have h1 : received (tr ++ [.command e]) = received tr ++ e.received?.toList := filterMap_snoc ..
  have h2 : replied (tr ++ [.command e]) = replied tr ++ e.replied?.toList := filterMap_snoc ..
  have h3 : counted (tr ++ [.command e]) =
      counted tr ++ e.counted?.toList := filterMap_snoc ..
  refine ⟨?_, ?_, ?_, ?_⟩
  · rw [h1, h2, h.order, List.append_assoc, he.order, List.map_append, List.append_assoc]
  · rw [h2]
    intro p hp
    rw [List.append_assoc, List.mem_append] at hp
    rcases hp with hp | hp
    · exact h.returns p (List.mem_append_left _ hp)
    · exact (he.returns p hp).elim (fun hp => h.returns p (List.mem_append_right _ hp)) id
  · rw [h2, h3, h.sent, List.append_assoc, he.sent, List.append_assoc]
  · rw [h3, he.processed, h.processed, List.length_append, UInt64.ofNat_add]

theorem Ledger.other {l : Label} (h : Ledger env tr r) (hl : l.command? = none)
    (hp : inHand CommandPc.pending r' = inHand CommandPc.pending r)
    (ho : inHand CommandPc.outgoing r' = inHand CommandPc.outgoing r)
    (hu : inHand CommandPc.uncounted r' = inHand CommandPc.uncounted r)
    (hs : r'.stats.commandsProcessed = r.stats.commandsProcessed) :
    Ledger env (tr ++ [l]) r' := by
  have hh : ∀ {β : Type} (g : CommandEvent → Option β), history g (tr ++ [l]) = history g tr := by
    intro β g
    rw [history, filterMap_snoc, hl]
    exact List.append_nil _
  refine ⟨?_, ?_, ?_, ?_⟩
  · rw [received, replied, hh, hh, hp]; exact h.order
  · rw [replied, hh, ho]; exact h.returns
  · rw [replied, counted, hh, hh, hu]; exact h.sent
  · rw [counted, hh, hs]; exact h.processed

theorem inHand_restarted {β : Type} {f : CommandPc → Option β} {old new : Option CommandPc}
    (h : Restarted .exited .loop old new) (he : f .exited = none) (hl : f .loop = none) :
    (new.bind f).toList = (old.bind f).toList := by
  rcases h with rfl | ⟨rfl | rfl, rfl | rfl⟩ <;> simp [he, hl]

theorem ledger_step {l : Label} (h : Ledger env tr s.relay)
    (hs : System.step env s l = some s') : Ledger env (tr ++ [l]) s'.relay := by
  by_cases hl : ∃ e, l = .command e
  · obtain ⟨e, rfl⟩ := hl
    obtain ⟨r, hr, rfl, -⟩ := System.step_command hs
    exact h.entry (entry_of_step hr)
  · obtain ⟨-, hcount, -, hrep⟩ := System.step_notCommand hs fun e he => hl ⟨e, he⟩
    have hnone : l.command? = none := by
      rcases l with _ | _ | _ | e | _
      case command => exact absurd ⟨e, rfl⟩ hl
      all_goals rfl
    exact h.other hnone (inHand_restarted hrep rfl rfl) (inHand_restarted hrep rfl rfl)
      (inHand_restarted hrep rfl rfl) hcount

theorem ledger (h : Run (System.step env) {} tr s) : Ledger env tr s.relay :=
  h.invariant (I := fun tr s => Ledger env tr s.relay)
    ⟨rfl, by simp [inHand, replied, history], rfl, rfl⟩
    fun _ _ _ _ _ hl hs => ledger_step hl hs

/-! ### No undefined lookup -/

/-- What the thread is about to process does not come to an undefined lookup. -/
def Safe (env : Env) (s : System) : Prop :=
  ∀ request, s.relay.repThread = some (.processing request) → ¬ UndefinedLookup env s.relay request

theorem outcome_cases (h : LawfulDump env.json.dump) (r : ZmqRelay) (uptime : Int)
    (request : Bytes) :
    (processCommand env r uptime request).outcome = .undefined ∧ UndefinedLookup env r request ∨
      (∃ response, (processCommand env r uptime request).outcome = .done response) ∧
        ¬ UndefinedLookup env r request := by
  have hm := processCommand_matches h r uptime request
  rw [← verdict_eq_undefinedLookup uptime]
  cases hv : verdict env r uptime request with
  | undefinedLookup => rw [hv] at hm; exact .inl ⟨hm, rfl⟩
  | exception what => rw [hv] at hm; exact .inr ⟨⟨_, hm⟩, nofun⟩
  | object j =>
    rw [hv] at hm
    obtain ⟨reply, ho, -⟩ := hm
    exact .inr ⟨⟨reply, ho⟩, nofun⟩

theorem not_safe_of_undefinedLookup (h : LawfulDump env.json.dump) {uptime : Int} {request : Bytes}
    (hs : System.step env s (.command (.undefinedLookup uptime request)) = some s') :
    ¬ Safe env s := by
  intro hsafe
  obtain ⟨r, hr, -⟩ := System.step_command hs
  cases ZmqRelay.commandStep_move hr with
  | undefinedLookup _ _ ht ho =>
    rcases outcome_cases h s.relay uptime request with ⟨-, hu⟩ | ⟨⟨response, hd⟩, -⟩
    · exact hsafe request ht hu
    · rw [ho] at hd; cases hd

theorem alive (h : LawfulDump env.json.dump) (hr : Run (System.step env) {} tr s)
    (hsafe : Throughout (System.step env) (Safe env) {} tr) : s.crashed = false := by
  refine hr.guarded (P := fun s _ => Safe env s) (I := fun _ s => s.crashed = false)
    (fun pre l post s ht hp => hsafe pre (l :: post) s ht hp) rfl ?_
  intro tr s l s' _ _ hs hstep
  refine System.step_crashed hstep fun uptime request hl => ?_
  subst hl
  exact not_safe_of_undefinedLookup h hstep hs

/-- What has become of the requests of a run from a new relay. -/
structure Answered (env : Env) (tr : List Label) (s : System) : Prop where
  alive : s.crashed = false
  /-- `ProcessCommand` returns on the request it is given. -/
  returns : ∀ request, s.relay.repThread = some (.processing request) → ∀ uptime,
    ∃ response, (processCommand env s.relay uptime request).outcome = .done response
  order : received tr = (replied tr).map Prod.fst ++ inHand CommandPc.pending s.relay
  replies : ∀ p ∈ replied tr, Returns env p.1 p.2
  /-- No `recv` while a reply is owed. -/
  receives : s.relay.repThread = some .receiving →
    s.relay.repSocket.map Socket.owesReply = some false
  sent : replied tr = counted tr ++ inHand CommandPc.uncounted s.relay
  processed : s.relay.stats.commandsProcessed = .ofNat (counted tr).length

/-- The thread answers every request it gets throughout a run exactly if none of them comes to an
undefined lookup. -/
theorem answered_iff (h : LawfulDump env.json.dump) (hr : Run (System.step env) {} tr s) :
    (∀ pre post s', tr = pre ++ post → Run (System.step env) {} pre s' → Answered env pre s') ↔
      Throughout (System.step env) (fun s => ∀ request,
        s.relay.repThread = some (.processing request) → ¬ UndefinedLookup env s.relay request)
        {} tr := by
  constructor
  · intro hall pre post s' ht hp request hpc hu
    obtain ⟨response, ho⟩ := (hall pre post s' ht hp).returns request hpc 0
    rcases outcome_cases h s'.relay 0 request with ⟨ho', -⟩ | ⟨-, hn⟩
    · rw [ho] at ho'; cases ho'
    · exact hn hu
  · rintro hsafe pre post s' rfl hp
    have hl := ledger hp
    refine ⟨alive h hp fun pre' post' s ht hp' =>
        hsafe pre' (post' ++ post) s (by rw [ht]; simp) hp',
      ?_, hl.order, fun p hm => hl.returns p (List.mem_append_left _ hm), fun hpc => ?_, hl.sent,
      hl.processed⟩
    · intro request hpc uptime
      rcases outcome_cases h s'.relay uptime request with ⟨-, hu⟩ | ⟨hd, -⟩
      · exact absurd hu (hsafe pre post s' rfl hp request hpc)
      · exact hd
    · exact (RepInv.run hp).serves _ hpc (by simp)

/-! ### Three requests -/

/-- Only `inject` requests are unsafe. -/
theorem safe_of_received (h : Run (System.step env) {} tr s)
    (hreq : ∀ request ∈ received tr, ∀ params,
      readCommand env request ≠ .done (lit "inject", params)) :
    Throughout (System.step env) (fun s => ∀ request,
      s.relay.repThread = some (.processing request) → ¬ UndefinedLookup env s.relay request)
      {} tr := by
  rintro pre post s' rfl hp request hpc ⟨params, hr, -⟩
  refine hreq request ?_ params hr
  have ho := (ledger hp).order
  rw [inHand, hpc] at ho
  rw [received, history, List.filterMap_append, ← history, ← received, ho]
  simp [CommandPc.pending]

/-- The thread is at the top of its loop, with a socket that takes requests. -/
structure Ready (s : System) : Prop where
  crashed : s.crashed = false
  repThread : s.relay.repThread = some .loop
  running : s.relay.running = true
  repSocket : s.relay.repSocket.map Socket.owesReply = some false

theorem Ready.serve (hd : LawfulDump env.json.dump) (h : Ready s) {request cmd : Bytes}
    {params : Json} (hread : readCommand env request = .done (cmd, params))
    (hcmd : cmd ≠ lit "inject") : ∃ response s',
      Run (System.step env) s ((System.commandEvents env 5 request response).map .command) s' ∧
        Ready s' := by
  obtain ⟨socket, hs, hf⟩ := Option.map_eq_some_iff.mp h.repSocket
  rcases outcome_cases hd (System.handled env s.relay request) 5 request with
    ⟨-, params', hread', -⟩ | ⟨⟨response, ho⟩, -⟩
  · rw [hread] at hread'
    cases hread'
    exact absurd rfl hcmd
  · rcases hp : processCommand env (System.handled env s.relay request) 5 request with
      ⟨outcome, calls, injected⟩
    rw [hp] at ho
    obtain rfl : outcome = .done response := ho
    exact ⟨response, _,
      Run.of_exec (System.exec_command env h.crashed h.repThread h.running hs hf hp),
      h.crashed, rfl, h.running, rfl⟩

theorem history_commandEvents {β : Type} {g : CommandEvent → Option β} (uptime : Int)
    (request response : Bytes) (hg : ∀ request field, g (.load request field) = none) :
    history g ((System.commandEvents env uptime request response).map .command) =
      [CommandEvent.loop, .receive (some request), .process uptime request response,
        .reply request response, .count request response].filterMap g := by
  have hloads : (System.loadEvents env request).filterMap g = [] := by
    unfold System.loadEvents
    split_ifs
    · exact filterMap_map_of_none (hg request) _
    · rfl
  rw [history, List.filterMap_map, System.commandEvents]
  show List.filterMap g _ = _
  rw [List.filterMap_append, List.filterMap_append, hloads, List.append_nil,
    ← List.filterMap_append]
  rfl

def statsRequest : Bytes := lit "\x7b\"command\": \"stats\"\x7d"

/-- Two requests are answered in their order. -/
theorem answered_two : ∃ tr s, Run (System.step (defaultEnv id)) {} tr s ∧
    received tr = [statsRequest, filterRequest] ∧
    (replied tr).map Prod.fst = [statsRequest, filterRequest] ∧
    ∀ pre post s', tr = pre ++ post → Run (System.step (defaultEnv id)) {} pre s' →
      Answered (defaultEnv id) pre s' := by
  have hd := lawfulDump_defaultEnv id
  obtain ⟨es, hstart⟩ := System.run_started id
  have hstats : readCommand (defaultEnv id) statsRequest = .done (lit "stats", Json.obj []) := rfl
  have hfilter : readCommand (defaultEnv id) filterRequest = .done (lit "filter", Json.obj []) :=
    rfl
  have hready : Ready { relay := System.startedRelay } := ⟨rfl, rfl, rfl, rfl⟩
  obtain ⟨response₁, s₁, h₁, hready₁⟩ := hready.serve hd hstats (by decide)
  obtain ⟨response₂, s₂, h₂, -⟩ := hready₁.serve hd hfilter (by decide)
  have hr := (hstart.append h₁).append h₂
  have hhist : ∀ {β : Type} (g : CommandEvent → Option β),
      (∀ request field, g (.load request field) = none) → history g (es.map .owner ++
        (System.commandEvents (defaultEnv id) 5 statsRequest response₁).map .command ++
        (System.commandEvents (defaultEnv id) 5 filterRequest response₂).map .command) =
      [CommandEvent.loop, .receive (some statsRequest), .process 5 statsRequest response₁,
        .reply statsRequest response₁, .count statsRequest response₁].filterMap g ++
      [CommandEvent.loop, .receive (some filterRequest), .process 5 filterRequest response₂,
        .reply filterRequest response₂, .count filterRequest response₂].filterMap g := by
    intro β g hg
    have hnone : history g (es.map Label.owner) = [] := filterMap_map_of_none (fun _ => rfl) es
    rw [← history_commandEvents 5 statsRequest response₁ hg,
      ← history_commandEvents 5 filterRequest response₂ hg, history, List.filterMap_append,
      List.filterMap_append, ← history, hnone]
    rfl
  have hrec := hhist CommandEvent.received? fun _ _ => rfl
  have hrep := hhist CommandEvent.replied? fun _ _ => rfl
  refine ⟨_, _, hr, hrec, congrArg (List.map Prod.fst) hrep,
    (answered_iff hd hr).mpr (safe_of_received hr fun request hm params hc => ?_)⟩
  have hmem : request ∈ [statsRequest, filterRequest] := by
    rw [received, hrec] at hm
    exact hm
  simp only [List.mem_cons, List.not_mem_nil, or_false] at hmem
  rcases hmem with rfl | rfl
  · rw [hstats] at hc
    cases hc
  · rw [hfilter] at hc
    cases hc

/-- An `inject` request without parameters, with an injector set. -/
def bareInject : Bytes := lit "\x7b\"command\": \"inject\"\x7d"

/-- It takes the process down and is never answered. -/
theorem crashed_inject : ∃ tr s, Run (System.step (defaultEnv id)) {} tr s ∧
    received tr = [bareInject] ∧ replied tr = [] ∧ s.crashed = true := by
  have hset : System.step (defaultEnv id) {}
      (.owner (.setPacketInjector (some fun _ _ => .ok true))) =
    some { relay := { packetInjector := some fun _ _ => .ok true } } := rfl
  have hstart := System.exec_started id (some fun _ _ => .ok true)
  have hcrash : ∃ s, exec (System.step (defaultEnv id)) { relay :=
      { System.startedRelay with packetInjector := some fun _ _ => .ok true } }
        ([.loop, .receive (some bareInject), .undefinedLookup 5 bareInject].map .command) = some s ∧
      s.crashed = true := ⟨_, rfl, rfl⟩
  obtain ⟨s, hs, hc⟩ := hcrash
  refine ⟨_, s, (Run.cons hset (Run.of_exec hstart)).append (Run.of_exec hs), ?_, ?_, hc⟩
  · rfl
  · rfl

end CommandRuns

end Kpacket
