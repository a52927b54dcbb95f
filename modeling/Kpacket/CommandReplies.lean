import Kpacket.Command

/-!
# Replies

When the reply to a request is the JSON object it should be (`processCommand_valid_iff`), and what
the injector gets of the payload of an `inject` request (`inject_payload_iff`).
-/

namespace Kpacket

/-! ### Undefined lookups -/

/-- `params["id"]` or `params["data"]` is looked up and missing. -/
def MissingKey (env : Env) (params : Json) : Prop :=
  ∃ fields, params = .object fields ∧
    (KeyMap.lookup (lit "id") fields = none ∨
      ∃ x id, KeyMap.lookup (lit "id") fields = some x ∧ env.json.getUInt16 x = .done id ∧
        KeyMap.lookup (lit "data") fields = none)

/-- The request is an `inject` command, an injector is set, and a key is missing. -/
def UndefinedLookup (env : Env) (r : ZmqRelay) (request : Bytes) : Prop :=
  ∃ params, readCommand env request = .done (lit "inject", params) ∧ r.packetInjector ≠ none ∧
    MissingKey env params

theorem readInject_eq_undefined {env : Env} {params : Json} :
    readInject env params = .undefined ↔ MissingKey env params := by
  simp only [readInject, Outcome.bind_eq_undefined, constIndex_eq_undefined, constIndex_eq_done,
    JsonLibrary.getUInt16_ne_undefined, getString_ne_undefined, Outcome.pure_ne_undefined,
    and_false, exists_false, or_false, false_or]
  constructor
  · rintro (⟨fields, rfl, hi⟩ | ⟨x, hx, id, hid, fields, rfl, hd⟩)
    · exact ⟨fields, rfl, .inl hi⟩
    · exact ⟨fields, rfl, .inr ⟨x, id, hx, hid, hd⟩⟩
  · rintro ⟨fields, rfl, hi | ⟨x, id, hx, hid, hd⟩⟩
    · exact .inl ⟨fields, rfl, hi⟩
    · exact .inr ⟨x, hx, id, hid, fields, rfl, hd⟩

theorem readCommand_ne_undefined (env : Env) (request : Bytes) :
    readCommand env request ≠ .undefined := by
  simp only [readCommand, ne_eq, Outcome.bind_eq_undefined, Outcome.ofExcept_ne_undefined,
    index_ne_undefined, getString_ne_undefined, valueOr_ne_undefined, Outcome.pure_ne_undefined,
    and_false, exists_false, or_false, not_false_eq_true]

theorem lookup_inject {cmd : Bytes} {command : Command}
    (h : KeyMap.lookup cmd commandHandlers = some command) :
    cmd = lit "inject" ↔ command = .inject := by
  constructor
  · rintro rfl
    exact Option.some.inj (h.symm.trans rfl)
  · rintro rfl
    have hm := KeyMap.mem_of_lookup h
    simpa [commandHandlers] using hm

theorem dumped_ne_undefinedLookup (env : Env) (j : Json) :
    Verdict.dumped env j ≠ .undefinedLookup := by
  unfold Verdict.dumped
  split <;> simp

variable {env : Env} {r : ZmqRelay} {uptime : Int} {request : Bytes}

theorem Command.verdict_eq_undefinedLookup {params : Json} {command : Command} :
    command.verdict env r uptime params = .undefinedLookup ↔
      command = .inject ∧ r.packetInjector ≠ none ∧ MissingKey env params := by
  cases command with
  | inject =>
    simp only [Command.verdict, true_and, ← readInject_eq_undefined]
    cases r.packetInjector with
    | none => simp
    | some packetInjector =>
      cases readInject env params with
      | raised what => simp
      | undefined => simp
      | done p =>
        simp only
        cases packetInjector p.1 [] <;> simp [dumped_ne_undefinedLookup]
  | hello =>
    simp only [Command.verdict]
    rcases r.playerNameProvider with _ | _ | playerName <;> simp [dumped_ne_undefinedLookup]
  | _ => simp [Command.verdict, dumped_ne_undefinedLookup]

theorem verdict_eq_undefinedLookup (uptime : Int) :
    verdict env r uptime request = .undefinedLookup ↔ UndefinedLookup env r request := by
  unfold verdict UndefinedLookup
  cases hr : readCommand env request with
  | raised what => simp
  | undefined => exact absurd hr (readCommand_ne_undefined env request)
  | done p =>
    obtain ⟨cmd, params⟩ := p
    simp only [Outcome.done.injEq, Prod.mk.injEq]
    cases hc : KeyMap.lookup cmd commandHandlers with
    | none =>
      simp only [reduceCtorEq, false_iff]
      rintro ⟨_, ⟨rfl, -⟩, -⟩
      cases hc
    | some command =>
      simp only [Command.verdict_eq_undefinedLookup, ← lookup_inject hc]
      constructor
      · rintro ⟨rfl, hi, hm⟩
        exact ⟨params, ⟨rfl, rfl⟩, hi, hm⟩
      · rintro ⟨_, ⟨rfl, rfl⟩, hi, hm⟩
        exact ⟨rfl, hi, hm⟩

/-! ### Exceptions -/

/-- The exceptions a command can raise, with their texts. -/
inductive Command.Raises (env : Env) (r : ZmqRelay) (uptime : Int) (params : Json) :
    Command → Bytes → Prop
  | status {what : Bytes} (h : env.json.dump (statusResponse env uptime) = .error what) :
    Raises env r uptime params .status what
  | provider {what : Bytes} (h : r.playerNameProvider = some (.error what)) :
    Raises env r uptime params .hello what
  | hello {what : Bytes} {playerName : Option Bytes}
    (hp : r.playerNameProvider = some (.ok playerName) ∨
      r.playerNameProvider = none ∧ playerName = none)
    (h : env.json.dump (helloResponse env playerName) = .error what) :
    Raises env r uptime params .hello what
  | params {what : Bytes} (hi : r.packetInjector ≠ none)
    (h : readInject env params = .raised what) : Raises env r uptime params .inject what
  | injector {what dataStr : Bytes} {packetInjector : PacketInjector} {id : UInt16}
    (hi : r.packetInjector = some packetInjector)
    (hp : readInject env params = .done (id, dataStr)) (h : packetInjector id [] = .error what) :
    Raises env r uptime params .inject what

/-- The exceptions on the way to a reply: of the JSON library on the request, or of the command. -/
inductive Raises (env : Env) (r : ZmqRelay) (uptime : Int) (request : Bytes) : Bytes → Prop
  | request {what : Bytes} (h : readCommand env request = .raised what) :
    Raises env r uptime request what
  | command {what cmd : Bytes} {params : Json} {command : Command}
    (h : readCommand env request = .done (cmd, params))
    (hc : KeyMap.lookup cmd commandHandlers = some command)
    (hr : command.Raises env r uptime params what) : Raises env r uptime request what

theorem dumped_eq_exception {j : Json} {what : Bytes} :
    Verdict.dumped env j = .exception what ↔ env.json.dump j = .error what := by
  unfold Verdict.dumped
  cases env.json.dump j <;> simp

theorem dumped_eq_object (h : LawfulDump env.json.dump) {j : Json} (hp : j.Plain) (hu : j.Utf8) :
    Verdict.dumped env j = .object j := by
  obtain ⟨s, hs⟩ := h.ok hp hu
  rw [Verdict.dumped, hs]

theorem Command.verdict_eq_exception (h : LawfulDump env.json.dump) {params : Json}
    {command : Command} {what : Bytes} :
    command.verdict env r uptime params = .exception what ↔
      command.Raises env r uptime params what := by
  constructor
  · intro hv
    cases command with
    | status => exact .status (dumped_eq_exception.mp hv)
    | hello =>
      simp only [Command.verdict] at hv
      rcases hp : r.playerNameProvider with _ | _ | playerName
      · rw [hp] at hv; exact .hello (.inr ⟨hp, rfl⟩) (dumped_eq_exception.mp hv)
      · rw [hp] at hv; cases hv; exact .provider hp
      · rw [hp] at hv; exact .hello (.inl hp) (dumped_eq_exception.mp hv)
    | inject =>
      simp only [Command.verdict] at hv
      split at hv
      · cases hv
      · next packetInjector hi =>
        split at hv
        · next what' hp => cases hv; exact .params (by simp [hi]) hp
        · cases hv
        · next id dataStr hp =>
          split at hv
          · next what' hf => cases hv; exact .injector hi hp hf
          · next success hf =>
            rw [dumped_eq_object h (plain_injectResponse success)
              (utf8_injectResponse success)] at hv
            cases hv
    | filter =>
      rw [Command.verdict, dumped_eq_object h plain_filterResponse utf8_filterResponse] at hv
      cases hv
    | stats =>
      rw [Command.verdict, dumped_eq_object h (plain_statsResponse r.statsLoads)
        (utf8_statsResponse r.statsLoads)] at hv
      cases hv
  · intro hr
    cases hr with
    | status hd => exact dumped_eq_exception.mpr hd
    | provider hp => simp only [Command.verdict, hp]
    | hello hp hd =>
      rcases hp with hp | ⟨hp, rfl⟩
      · simp only [Command.verdict, hp]; exact dumped_eq_exception.mpr hd
      · simp only [Command.verdict, hp]; exact dumped_eq_exception.mpr hd
    | params hi hp =>
      obtain ⟨packetInjector, hi⟩ := Option.ne_none_iff_exists'.mp hi
      simp only [Command.verdict, hi, hp]
    | injector hi hp hf => simp only [Command.verdict, hi, hp, hf]

theorem verdict_eq_exception (h : LawfulDump env.json.dump) {what : Bytes} :
    verdict env r uptime request = .exception what ↔ Raises env r uptime request what := by
  unfold verdict
  constructor
  · intro hv
    cases hr : readCommand env request with
    | raised what' => rw [hr] at hv; cases hv; exact .request hr
    | undefined => rw [hr] at hv; cases hv
    | done p =>
      rw [hr] at hv
      simp only at hv
      split at hv
      · next command hc => exact .command hr hc ((Command.verdict_eq_exception h).mp hv)
      · cases hv
  · rintro (hr | ⟨hr, hc, hraise⟩)
    · rw [hr]
    · rw [hr]
      simp only [hc]
      exact (Command.verdict_eq_exception h).mpr hraise

/-! ### Valid replies -/

theorem isObject_of_dumped {j j' : Json} (hj : j.isObject = true)
    (h : Verdict.dumped env j = .object j') : j'.isObject = true := by
  unfold Verdict.dumped at h
  split at h
  · cases h; exact hj
  · cases h

theorem isObject_helloResponse (env : Env) (playerName : Option Bytes) :
    (helloResponse env playerName).isObject = true := by
  cases playerName <;> rfl

theorem Command.isObject_of_verdict {params j : Json} {command : Command}
    (h : command.verdict env r uptime params = .object j) : j.isObject = true := by
  cases command with
  | hello =>
    simp only [Command.verdict] at h
    split at h
    · cases h
    · exact isObject_of_dumped (isObject_helloResponse env _) h
    · exact isObject_of_dumped (isObject_helloResponse env _) h
  | inject =>
    simp only [Command.verdict] at h
    split at h
    · cases h; rfl
    · split at h
      · cases h
      · cases h
      · split at h
        · cases h
        · exact isObject_of_dumped rfl h
  | _ => exact isObject_of_dumped rfl h

theorem isObject_of_answer {j : Json} (h : (verdict env r uptime request).answer = some j) :
    j.isObject = true := by
  cases hv : verdict env r uptime request with
  | undefinedLookup => rw [hv] at h; cases h
  | exception what => rw [hv] at h; cases h; rfl
  | object j' =>
    rw [hv] at h
    cases h
    unfold verdict at hv
    split at hv
    · cases hv
    · cases hv
    · split at hv
      · exact Command.isObject_of_verdict hv
      · cases hv; rfl

theorem errorReply_eq (what : Bytes) : errorReply what = JsonText.splice (lit "error") what := by
  show [123, 34, 101, 114, 114, 111, 114, 34, 58, 32, 34] ++ what ++ [34, 125] = _
  rw [List.append_assoc]
  rfl

/-- A text that stands for itself between quotation marks. -/
def NeedsNoEscape (s : Bytes) : Prop := (∀ c ∈ s, JsonText.PlainByte c) ∧ IsUtf8 s

instance (c : UInt8) : Decidable (JsonText.PlainByte c) := inferInstanceAs (Decidable (_ ∧ _))

theorem plain_error : ∀ c ∈ lit "error", JsonText.PlainByte c := fun c hc => of_decide_eq_true
  (List.all_eq_true.mp
    (rfl : (lit "error").all (fun c => decide (JsonText.PlainByte c)) = true) c hc)

/-- The spliced reply reads as the error object exactly if its text needs no escaping. -/
theorem read_errorReply_iff (what : Bytes) :
    JsonText.read (errorReply what) = some (errorObject what) ↔ NeedsNoEscape what := by
  rw [errorReply_eq]
  exact JsonText.read_splice_iff plain_error (by decide)

theorem read_errorReply_ne (what : Bytes) (b : Bool) :
    JsonText.read (errorReply what) ≠ some (injectResponse b) := by
  rw [errorReply_eq]
  intro h
  cases JsonText.lookup_of_read_splice plain_error (by decide) h

/-- The reply to a request is the object it stands for, the handler's or that of the exception,
exactly if no lookup is undefined and the text of the exception, if there is one, needs no
escaping. -/
theorem processCommand_valid_iff {env : Env} (h : LawfulDump env.json.dump) (r : ZmqRelay)
    (uptime : Int) (request : Bytes) :
    (∃ reply j, (processCommand env r uptime request).outcome = .done reply ∧
        JsonText.read reply = some j ∧ j.isObject = true ∧
          (verdict env r uptime request).answer = some j) ↔
      ¬ UndefinedLookup env r request ∧
        ∀ what, Raises env r uptime request what → NeedsNoEscape what := by
  have hm := processCommand_matches h r uptime request
  have hobj : ∀ {reply : Bytes},
      (∃ j, JsonText.read reply = some j ∧ j.isObject = true ∧
          (verdict env r uptime request).answer = some j) ↔
        ∃ j, JsonText.read reply = some j ∧ (verdict env r uptime request).answer = some j :=
    ⟨fun ⟨j, hr, _, ha⟩ => ⟨j, hr, ha⟩, fun ⟨j, hr, ha⟩ => ⟨j, hr, isObject_of_answer ha, ha⟩⟩
  simp only [exists_and_left, hobj]
  rw [← verdict_eq_undefinedLookup uptime]
  simp only [← verdict_eq_exception h]
  cases hv : verdict env r uptime request with
  | undefinedLookup =>
    rw [hv] at hm
    simp [show (processCommand env r uptime request).outcome = .undefined from hm]
  | exception what =>
    rw [hv] at hm
    have ho : (processCommand env r uptime request).outcome = .done (errorReply what) := hm
    simp only [ho, Outcome.done.injEq, Verdict.answer, Option.some.injEq, reduceCtorEq,
      not_false_eq_true, true_and, Verdict.exception.injEq, forall_eq', ← read_errorReply_iff]
    constructor
    · rintro ⟨_, rfl, _, hr, rfl⟩; exact hr
    · intro hr; exact ⟨_, rfl, _, hr, rfl⟩
  | object j =>
    rw [hv] at hm
    obtain ⟨reply, ho, hr⟩ := hm
    simp only [ho, Outcome.done.injEq, Verdict.answer, Option.some.injEq, reduceCtorEq,
      not_false_eq_true, true_and, false_implies, implies_true, iff_true]
    exact ⟨_, rfl, _, hr, rfl⟩

/-- An array instead of a request: the type error is reported in a valid reply. -/
theorem processCommand_array_valid :
    ∃ reply j, (processCommand (defaultEnv id) {} 5 (lit "[]")).outcome = .done reply ∧
      JsonText.read reply = some j ∧ j.isObject = true ∧
        (verdict (defaultEnv id) {} 5 (lit "[]")).answer = some j := by
  have hread : readCommand (defaultEnv id) (lit "[]") = .raised (indexError (.array [])) := rfl
  refine (processCommand_valid_iff (lawfulDump_compactDump _) {} 5 _).mpr ⟨?_, ?_⟩
  · rintro ⟨params, hp, -⟩
    rw [hread] at hp
    cases hp
  · rintro what (hr | ⟨hr, -, -⟩)
    · rw [hread] at hr
      cases hr
      exact ⟨by decide +kernel, by decide +kernel⟩
    · rw [hread] at hr
      cases hr

/-- The message of the JSON parser about a request that is a lone quotation mark. -/
def quoteParseError : Bytes :=
  lit "[json.exception.parse_error.101] parse error at line 1, column 2: syntax error while " ++
    lit "parsing value - invalid string: missing closing quote; last read: '\"'"

/-- The reply to a lone quotation mark quotes it and is no JSON text. -/
theorem processCommand_quote_invalid :
    ¬ ∃ reply j,
      (processCommand (defaultEnv fun _ => quoteParseError) {} 5 [34]).outcome = .done reply ∧
        JsonText.read reply = some j := by
  have hout : (processCommand (defaultEnv fun _ => quoteParseError) {} 5 [34]).outcome =
      .done (errorReply quoteParseError) := rfl
  have hread : (JsonText.read (errorReply quoteParseError)).isNone = true := by decide +kernel
  rintro ⟨reply, j, ho, hr⟩
  rw [hout] at ho
  cases ho
  rw [hr] at hread
  cases hread

/-! ### The payload of `inject` -/

section

variable {env : Env} {params x : Json} {dataStr : Bytes}

theorem readInject_eq (hid : params.lookup (lit "id") = some x)
    (hdata : params.lookup (lit "data") = some (.string dataStr)) :
    readInject env params = env.json.getUInt16 x >>= fun id => .done (id, dataStr) := by
  simp only [readInject, constIndex_eq_done.mpr hid, constIndex_eq_done.mpr hdata, getString,
    Outcome.bind_done]
  rfl

theorem handleInjectCommand_catching (r : ZmqRelay) :
    (handleInjectCommand env r params).outcome.catching errorReply =
      (handleInjectCommand env r params).outcome := by
  unfold handleInjectCommand
  rcases r.packetInjector with _ | packetInjector
  · rfl
  · rcases readInject env params with ⟨id, dataStr⟩ | what | _
    · dsimp only
      rcases packetInjector id [] with what | success
      · rfl
      · exact Outcome.catching_catching _ _
    · rfl
    · rfl

theorem processCommand_inject (r : ZmqRelay) (uptime : Int) {request : Bytes}
    (h : readCommand env request = .done (lit "inject", params)) :
    processCommand env r uptime request = handleInjectCommand env r params := by
  have hrun : processCommand env r uptime request =
      { handleInjectCommand env r params with
        outcome := (handleInjectCommand env r params).outcome.catching errorReply } := by
    simp only [processCommand, h]
    rfl
  rw [hrun, handleInjectCommand_catching]

end

/-- The request is `inject` with an id and a data string among its parameters. -/
structure InjectRequest (env : Env) (request : Bytes) (id : UInt16) (dataStr : Bytes) : Prop where
  parsed : ∃ j params, env.json.parse request = .ok j ∧
    j.lookup (lit "command") = some (.string (lit "inject")) ∧
    j.lookup (lit "params") = some params ∧
    params.lookup (lit "id") = some (.integer id.toNat) ∧
    params.lookup (lit "data") = some (.string dataStr)

/-- What an `inject` request asks for: one call with its id and the bytes its data encodes, or, if
the data is not base64, an error reply and no call. -/
def Injects (id : UInt16) (dataStr : Bytes) (handled : Handled) : Prop :=
  match Base64.decode dataStr with
  | some data => handled.calls = [(id, data)] ∧ base64Encode data = dataStr
  | none => handled.calls = [] ∧ ∃ reply what, handled.outcome = .done reply ∧
      JsonText.read reply = some (errorObject what)

theorem InjectRequest.readCommand {id : UInt16} {dataStr : Bytes}
    (h : InjectRequest env request id dataStr) :
    ∃ params, readCommand env request = .done (lit "inject", params) ∧
      readInject env params = .done (id, dataStr) := by
  obtain ⟨j, params, hj, hcmd, hparams, hid, hdata⟩ := h.parsed
  refine ⟨params, ?_, ?_⟩
  · simp only [Kpacket.readCommand, hj, Outcome.ofExcept, index_of_lookup hcmd, getString,
      valueOr_of_lookup hparams, Outcome.bind_done]
    rfl
  · rw [readInject_eq hid hdata, env.json.getUInt16_toNat, Outcome.bind_done]

theorem calls_of_injectRequest (uptime : Int) {packetInjector : PacketInjector}
    (hi : r.packetInjector = some packetInjector) {id : UInt16} {dataStr : Bytes}
    (h : InjectRequest env request id dataStr) :
    (processCommand env r uptime request).calls = [(id, [])] := by
  obtain ⟨params, hr, hp⟩ := h.readCommand
  rw [processCommand_inject r uptime hr]
  simp only [handleInjectCommand, hi, hp]
  cases packetInjector id [] <;> rfl

/-- The payload arrives exactly if it is empty. -/
theorem inject_payload_iff {env : Env} {r : ZmqRelay} {packetInjector : PacketInjector}
    (hi : r.packetInjector = some packetInjector) (uptime : Int) {request : Bytes} {id : UInt16}
    {dataStr : Bytes} (h : InjectRequest env request id dataStr) :
    Injects id dataStr (processCommand env r uptime request) ↔ dataStr = [] := by
  have hc := calls_of_injectRequest uptime hi h
  unfold Injects
  cases hd : Base64.decode dataStr with
  | none =>
    have hne : dataStr ≠ [] := by rintro rfl; cases hd
    simp [hc, hne]
  | some data =>
    have hs : dataStr = Base64.encode data := Base64.decode_eq_some_iff.mp hd
    simp only [hc, base64Encode_eq, hs, Base64.encode_eq_nil_iff, List.cons.injEq, Prod.mk.injEq,
      true_and, and_true]
    exact eq_comm

/-- The request `inject` with id 10 and the data given. -/
def injectRequest (dataStr : Bytes) : Bytes :=
  lit "\x7b\"command\": \"inject\", \"params\": \x7b\"id\": 10, \"data\": \"" ++ dataStr ++
    lit "\"\x7d\x7d"

/-- An `inject` request without payload. -/
theorem inject_empty :
    Injects 10 [] (processCommand (defaultEnv id) { packetInjector := some fun _ _ => .ok true } 5
      (injectRequest [])) :=
  (inject_payload_iff rfl 5 ⟨_, _, rfl, rfl, rfl, rfl, rfl⟩).mpr rfl

/-- The bytes 1 and 2, encoded `AQI=`, do not reach the injector, and a payload that is not base64
gets it called as well. -/
theorem inject_drops_payload :
    base64Encode [1, 2] = lit "AQI=" ∧
      ∀ dataStr ∈ [lit "AQI=", lit "?"],
        ¬ Injects 10 dataStr (processCommand (defaultEnv id)
          { packetInjector := some fun _ _ => .ok true } 5 (injectRequest dataStr)) := by
  refine ⟨base64Encode_eq _, ?_⟩
  simp only [List.forall_mem_cons]
  refine ⟨?_, ?_, by simp⟩
  · rintro ⟨hc, -⟩
    cases hc
  · rintro ⟨hc, -⟩
    cases hc

end Kpacket
