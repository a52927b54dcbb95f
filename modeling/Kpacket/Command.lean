import Kpacket.JsonSplice
import Kpacket.Relay

/-!
# Commands

`ProcessCommand` and the built-in handlers. `processCommand_matches` says what a request comes to:
an undefined lookup, an exception whose text is spliced into the reply, or the dump of the
handler's object. `answer` is the object that the reply stands for.
-/

namespace Kpacket

/-- What handling a request comes to: the reply, the calls of the packet injector with their
arguments, and whether `packets_injected` was counted. -/
structure Handled where
  outcome : Outcome Bytes
  calls : List (UInt16 × Bytes) := []
  injected : Bool := false

/-- `R"({"error": ")" + std::string(e.what()) + R"("})"` -/
def errorReply (what : Bytes) : Bytes := lit "\x7b\"error\": \"" ++ what ++ lit "\"\x7d"

def unknownCommandReply : Bytes := lit "\x7b\"error\": \"Unknown command\"\x7d"

def injectionNotAvailableReply : Bytes :=
  lit "\x7b\"error\": \"Packet injection not available\"\x7d"

section Handlers

variable (env : Env) (r : ZmqRelay) (uptime : Int) (params : Json)

/-! ### The response objects -/

/-- `response["config"]` -/
def statusConfig : Json := Json.obj [
  (lit "pub_endpoint", .string env.config.pubEndpoint),
  (lit "rep_endpoint", .string env.config.repEndpoint),
  (lit "push_endpoint", .string env.config.pushEndpoint),
  (lit "packet_streaming", .boolean env.config.enablePacketStreaming),
  (lit "command_interface", .boolean env.config.enableCommandInterface),
  (lit "reliable_queue", .boolean env.config.enableReliableQueue)]

def statusResponse : Json := Json.obj [
  (lit "status", .string (lit "running")),
  (lit "uptime", .integer uptime),
  (lit "config", statusConfig env),
  (lit "version", .string env.config.protocolVersion),
  (lit "release_version", .string env.releaseVersion),
  (lit "session_uuid", .string env.sessionUuid)]

/-- `response["capabilities"]` -/
def capabilities : Json := Json.obj [(lit "multipart_raw", .boolean env.config.pubUseMultipartRaw)]

def helloResponse (playerName : Option Bytes) : Json :=
  let response := Json.obj [
    (lit "version", .string env.config.protocolVersion),
    (lit "release_version", .string env.releaseVersion),
    (lit "session_uuid", .string env.sessionUuid),
    (lit "capabilities", capabilities env)]
  match playerName with
  | some name => response.set (lit "player_name") (.string name)
  | none => response

def injectResponse (success : Bool) : Json := Json.obj [(lit "success", .boolean success)]

def filterResponse : Json :=
  Json.obj [(lit "message", .string (lit "Filter configuration updated"))]

/-- `response["stats"]` -/
def statsCounters (loads : StatsLoads) : Json := Json.obj [
  (lit "packets_published", .integer loads.packetsPublished.toNat),
  (lit "commands_processed", .integer loads.commandsProcessed.toNat),
  (lit "packets_injected", .integer loads.packetsInjected.toNat),
  (lit "packets_filtered", .integer loads.packetsFiltered.toNat),
  (lit "publish_dropped", .integer loads.publishDropped.toNat),
  (lit "pub_send_errors", .integer loads.pubSendErrors.toNat),
  (lit "queue_size", .integer loads.queueSize)]

def statsResponse (loads : StatsLoads) : Json := Json.obj [(lit "stats", statsCounters loads)]

/-! ### The handlers -/

/-- `response.dump()` -/
def dumpOutcome (response : Json) : Outcome Bytes := .ofExcept (env.json.dump response)

def handleStatusCommand : Handled := { outcome := dumpOutcome env (statusResponse env uptime) }

def handleHelloCommand : Handled :=
  match r.playerNameProvider with
  | some (.error what) => { outcome := .raised what }
  | some (.ok playerName) => { outcome := dumpOutcome env (helloResponse env playerName) }
  | none => { outcome := dumpOutcome env (helloResponse env none) }

/-- `uint16_t id = params["id"]; std::string data_str = params["data"];` -/
def readInject : Outcome (UInt16 × Bytes) := do
  let id ← env.json.getUInt16 (← constIndex params (lit "id"))
  let dataStr ← getString (← constIndex params (lit "data"))
  return (id, dataStr)

/-- The `vector` passed to the injector is declared and never filled. -/
def handleInjectCommand : Handled :=
  match r.packetInjector with
  | none => { outcome := .done injectionNotAvailableReply }
  | some packetInjector =>
    match readInject env params with
    | .raised what => { outcome := .done (errorReply what) }
    | .undefined => { outcome := .undefined }
    | .done (id, _) =>
      let data : Bytes := []
      match packetInjector id data with
      | .error what => { outcome := .done (errorReply what), calls := [(id, data)] }
      | .ok success => {
          outcome := (dumpOutcome env (injectResponse success)).catching errorReply
          calls := [(id, data)]
          injected := success }

def handleFilterCommand : Handled := { outcome := dumpOutcome env filterResponse }

/-- With the numbers as they have been loaded. -/
def handleStatsCommand : Handled := { outcome := dumpOutcome env (statsResponse r.statsLoads) }

end Handlers

/-- The commands that the constructor registers. -/
inductive Command
  | status
  | hello
  | inject
  | filter
  | stats
deriving DecidableEq

def commandHandlers : List (Bytes × Command) := [
  (lit "status", .status),
  (lit "hello", .hello),
  (lit "inject", .inject),
  (lit "filter", .filter),
  (lit "stats", .stats)]

def Command.run (env : Env) (r : ZmqRelay) (uptime : Int) (params : Json) : Command → Handled
  | .status => handleStatusCommand env uptime
  | .hello => handleHelloCommand env r
  | .inject => handleInjectCommand env r params
  | .filter => handleFilterCommand env
  | .stats => handleStatsCommand env r

/-- The request up to the dispatch: the name of the command and its parameters. -/
def readCommand (env : Env) (request : Bytes) : Outcome (Bytes × Json) := do
  let j ← .ofExcept (env.json.parse request)
  let (element, j) ← index j (lit "command")
  let cmd ← getString element
  let params ← valueOr j (lit "params") (Json.obj [])
  return (cmd, params)

/-- The command that a request names. -/
def commandOf (env : Env) (request : Bytes) : Option Bytes :=
  match readCommand env request with
  | .done (cmd, _) => some cmd
  | _ => none

/-- `ProcessCommand`; `uptime` is the reading of the steady clock. -/
def processCommand (env : Env) (r : ZmqRelay) (uptime : Int) (request : Bytes) : Handled :=
  match readCommand env request with
  | .raised what => { outcome := .done (errorReply what) }
  | .undefined => { outcome := .undefined }
  | .done (cmd, params) =>
    match KeyMap.lookup cmd commandHandlers with
    | some command =>
      let handled := command.run env r uptime params
      { handled with outcome := handled.outcome.catching errorReply }
    | none => { outcome := .done unknownCommandReply }

/-! ### What a request comes to -/

/-- The reply to an exception, as it should be. -/
def errorObject (what : Bytes) : Json := Json.obj [(lit "error", .string what)]

inductive Verdict
  | undefinedLookup
  | exception (what : Bytes)
  | object (j : Json)

/-- A response object, unless `dump` throws. -/
def Verdict.dumped (env : Env) (j : Json) : Verdict :=
  match env.json.dump j with
  | .ok _ => .object j
  | .error what => .exception what

/-- The object a reply stands for. -/
def Verdict.answer : Verdict → Option Json
  | .undefinedLookup => none
  | .exception what => some (errorObject what)
  | .object j => some j

open Verdict in
def Command.verdict (env : Env) (r : ZmqRelay) (uptime : Int) (params : Json) :
    Command → Verdict
  | .status => dumped env (statusResponse env uptime)
  | .hello =>
    match r.playerNameProvider with
    | some (.error what) => exception what
    | some (.ok playerName) => dumped env (helloResponse env playerName)
    | none => dumped env (helloResponse env none)
  | .inject =>
    match r.packetInjector with
    | none => object (errorObject (lit "Packet injection not available"))
    | some packetInjector =>
      match readInject env params with
      | .raised what => exception what
      | .undefined => undefinedLookup
      | .done (id, _) =>
        match packetInjector id [] with
        | .error what => exception what
        | .ok success => dumped env (injectResponse success)
  | .filter => dumped env filterResponse
  | .stats => dumped env (statsResponse r.statsLoads)

def verdict (env : Env) (r : ZmqRelay) (uptime : Int) (request : Bytes) : Verdict :=
  match readCommand env request with
  | .raised what => .exception what
  | .undefined => .undefinedLookup
  | .done (cmd, params) =>
    match KeyMap.lookup cmd commandHandlers with
    | some command => command.verdict env r uptime params
    | none => .object (errorObject (lit "Unknown command"))

/-- The outcome that a verdict stands for. -/
def Verdict.Matches (v : Verdict) (outcome : Outcome Bytes) : Prop :=
  match v with
  | .undefinedLookup => outcome = .undefined
  | .exception what => outcome = .done (errorReply what)
  | .object j => ∃ reply, outcome = .done reply ∧ JsonText.read reply = some j

theorem plain_statusResponse (env : Env) (uptime : Int) : (statusResponse env uptime).Plain := by
  have hc : (statusConfig env).Plain := .obj_of_fields (by simp [Json.PlainFields, Json.Plain])
  exact .obj_of_fields (by simp [Json.PlainFields, Json.Plain, hc])

theorem plain_helloResponse (env : Env) (playerName : Option Bytes) :
    (helloResponse env playerName).Plain := by
  have hc : (capabilities env).Plain := .obj_of_fields (by simp [Json.PlainFields, Json.Plain])
  have h : (helloResponse env none).Plain :=
    .obj_of_fields (by simp [Json.PlainFields, Json.Plain, hc])
  cases playerName with
  | none => exact h
  | some name => exact h.set (lit "player_name") (Json.plain_string name)

theorem plain_injectResponse (success : Bool) : (injectResponse success).Plain :=
  .obj_of_fields (by simp [Json.PlainFields, Json.Plain])

theorem plain_filterResponse : filterResponse.Plain :=
  .obj_of_fields (by simp [Json.PlainFields, Json.Plain])

theorem plain_statsResponse (loads : StatsLoads) : (statsResponse loads).Plain := by
  have hs : (statsCounters loads).Plain := .obj_of_fields (by simp [Json.PlainFields, Json.Plain])
  exact .obj_of_fields (by simp [Json.PlainFields, hs])

theorem utf8_injectResponse (success : Bool) : (injectResponse success).Utf8 :=
  .obj (List.forall_mem_singleton.mpr ⟨show IsUtf8 (lit "success") by decide, trivial⟩)

theorem utf8_filterResponse : filterResponse.Utf8 :=
  .obj (List.forall_mem_singleton.mpr ⟨by decide, show IsUtf8 _ by decide⟩)

theorem utf8_statsResponse (loads : StatsLoads) : (statsResponse loads).Utf8 := by
  have hs : (statsCounters loads).Utf8 := by
    refine .obj ?_
    simp only [List.forall_mem_cons]
    exact ⟨⟨by decide, trivial⟩, ⟨by decide, trivial⟩, ⟨by decide, trivial⟩, ⟨by decide, trivial⟩,
      ⟨by decide, trivial⟩, ⟨by decide, trivial⟩, ⟨by decide, trivial⟩, by simp⟩
  exact .obj (List.forall_mem_singleton.mpr ⟨show IsUtf8 (lit "stats") by decide, hs⟩)

section Cases

variable {env : Env} (h : LawfulDump env.json.dump) (r : ZmqRelay) (uptime : Int)
include h

theorem matches_dumped {j : Json} (hj : j.Plain) :
    (Verdict.dumped env j).Matches ((dumpOutcome env j).catching errorReply) := by
  unfold Verdict.dumped dumpOutcome
  cases hd : env.json.dump j with
  | ok s => exact ⟨s, rfl, h.read hj hd⟩
  | error what => rfl

theorem handleInjectCommand_matches (params : Json) :
    (Command.inject.verdict env r uptime params).Matches
      (handleInjectCommand env r params).outcome := by
  simp only [Command.verdict, handleInjectCommand]
  split
  · exact ⟨injectionNotAvailableReply, rfl, rfl⟩
  · next packetInjector hi =>
    cases readInject env params with
    | raised what => rfl
    | undefined => rfl
    | done p =>
      obtain ⟨id, dataStr⟩ := p
      simp only
      cases packetInjector id [] with
      | error what => rfl
      | ok success => exact matches_dumped h (plain_injectResponse success)

omit h in
theorem Verdict.Matches.catching {v : Verdict} {outcome : Outcome Bytes} (hv : v.Matches outcome) :
    v.Matches (outcome.catching errorReply) := by
  cases v with
  | undefinedLookup => rw [show outcome = .undefined from hv]; rfl
  | exception what => rw [show outcome = .done _ from hv]; rfl
  | object j => obtain ⟨reply, rfl, hj⟩ := hv; exact ⟨reply, rfl, hj⟩

theorem Command.run_matches (params : Json) (command : Command) :
    (command.verdict env r uptime params).Matches
      ((command.run env r uptime params).outcome.catching errorReply) := by
  cases command with
  | status => exact matches_dumped h (plain_statusResponse env uptime)
  | hello =>
    simp only [Command.verdict, Command.run, handleHelloCommand]
    rcases r.playerNameProvider with _ | _ | playerName
    · exact matches_dumped h (plain_helloResponse env none)
    · rfl
    · exact matches_dumped h (plain_helloResponse env playerName)
  | inject => exact (handleInjectCommand_matches h r uptime params).catching
  | filter => exact matches_dumped h plain_filterResponse
  | stats => exact matches_dumped h (plain_statsResponse r.statsLoads)

end Cases

/-- What `ProcessCommand` does with any request. -/
theorem processCommand_matches {env : Env} (h : LawfulDump env.json.dump) (r : ZmqRelay)
    (uptime : Int) (request : Bytes) :
    (verdict env r uptime request).Matches (processCommand env r uptime request).outcome := by
  unfold verdict processCommand
  cases hr : readCommand env request with
  | raised what => rfl
  | undefined => rfl
  | done p =>
    obtain ⟨cmd, params⟩ := p
    simp only
    cases hc : KeyMap.lookup cmd commandHandlers with
    | none => exact ⟨unknownCommandReply, rfl, rfl⟩
    | some command => exact command.run_matches h r uptime params

theorem dumped_caught {env : Env} (h : LawfulDump env.json.dump) {response : Json}
    (hp : response.Plain) (hu : response.Utf8) :
    ∃ reply, (dumpOutcome env response).catching errorReply = .done reply ∧
      JsonText.read reply = some response := by
  obtain ⟨reply, hd⟩ := h.ok hp hu
  refine ⟨reply, ?_, h.read hp hd⟩
  rw [dumpOutcome, hd]
  rfl

def filterRequest : Bytes := lit "\x7b\"command\": \"filter\"\x7d"

theorem processCommand_filter (parseError : Bytes → Bytes) (r : ZmqRelay) (uptime : Int) :
    ∃ response, processCommand (defaultEnv parseError) r uptime filterRequest =
      ⟨.done response, [], false⟩ := by
  obtain ⟨response, hd, -⟩ := dumped_caught (lawfulDump_defaultEnv parseError)
    plain_filterResponse utf8_filterResponse
  refine ⟨response, ?_⟩
  show (⟨(dumpOutcome (defaultEnv parseError) filterResponse).catching errorReply, [], false⟩ :
    Handled) = _
  rw [hd]

end Kpacket
