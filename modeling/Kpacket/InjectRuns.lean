import Kpacket.Histories
import Kpacket.InjectIds
import Kpacket.Moves

/-!
# Sequences of `inject` requests

`Served` lists all that can become of a request as far as the injector goes: its reply, the calls
and whether one is counted. From it, what a client learns from a reply (`InjectAgrees`), and by
induction what the counter says after any sequence of requests, whatever the injector does at each
call (`inject_accounted`). The counter has 64 bits (`injections_wrap`).
-/

namespace Kpacket

open Lts

/-- The command of a request is the string `cmd`. -/
def CommandIs (env : Env) (request cmd : Bytes) : Prop :=
  ∃ j, env.json.parse request = .ok j ∧ j.lookup (lit "command") = some (.string cmd)

/-- If the parameters of an `inject` request are an object it has both keys. -/
def KeysPresent (env : Env) (request : Bytes) : Prop :=
  ∀ fields, readCommand env request = .done (lit "inject", .object fields) →
    KeyMap.lookup (lit "id") fields ≠ none ∧ KeyMap.lookup (lit "data") fields ≠ none

variable {env : Env} {request : Bytes}

theorem commandIs_iff {cmd : Bytes} :
    CommandIs env request cmd ↔ ∃ params, readCommand env request = .done (cmd, params) := by
  constructor
  · rintro ⟨j, hj, hcmd⟩
    rcases j with _ | _ | _ | _ | _ | _ | fields <;> try cases hcmd
    refine ⟨(KeyMap.lookup (lit "params") fields).getD (Json.obj []), ?_⟩
    simp only [readCommand, hj, Outcome.ofExcept, index_of_lookup hcmd, getString, valueOr,
      Outcome.bind_done]
    rfl
  · rintro ⟨params, h⟩
    simp only [readCommand] at h
    rcases hj : env.json.parse request with what | j
    · rw [hj] at h
      cases h
    · rw [hj, Outcome.ofExcept, Outcome.bind_done] at h
      rcases hi : index j (lit "command") with ⟨element, j'⟩ | what | _ <;> rw [hi] at h
      · rw [Outcome.bind_done] at h
        rcases hs : getString element with s | what | _ <;> simp only [hs] at h
        · rw [Outcome.bind_done] at h
          rcases hv : valueOr j' (lit "params") (Json.obj []) with x | what | _ <;> rw [hv] at h
          · cases h
            obtain rfl := getString_eq_done hs
            exact ⟨j, hj, (index_eq_string hi).1⟩
          all_goals cases h
        all_goals cases h
      all_goals cases h

/-! ### What becomes of a request -/

/-- The ways in which a request can be handled. -/
inductive Served (env : Env) (r : ZmqRelay) (request : Bytes) : Handled → Prop
  | returned {params : Json} {packetInjector : PacketInjector} {id : UInt16} {b : Bool}
      {reply : Bytes} (hc : readCommand env request = .done (lit "inject", params))
      (hi : r.packetInjector = some packetInjector) (hf : packetInjector id [] = .ok b)
      (hr : JsonText.read reply = some (injectResponse b)) :
    Served env r request ⟨.done reply, [(id, [])], b⟩
  | thrown {params : Json} {packetInjector : PacketInjector} {id : UInt16} {what : Bytes}
      (hc : readCommand env request = .done (lit "inject", params))
      (hi : r.packetInjector = some packetInjector) (hf : packetInjector id [] = .error what) :
    Served env r request ⟨.done (errorReply what), [(id, [])], false⟩
  | rejected {params : Json} {what : Bytes}
      (hc : readCommand env request = .done (lit "inject", params)) (hw : NeedsNoEscape what) :
    Served env r request ⟨.done (errorReply what), [], false⟩
  | undefined {params : Json} (hc : readCommand env request = .done (lit "inject", params))
      (hm : MissingKey env params) : Served env r request ⟨.undefined, [], false⟩
  | other {outcome : Outcome Bytes} (hc : ¬ CommandIs env request (lit "inject"))
      (ho : ∀ reply, outcome = .done reply → ∀ b, JsonText.read reply ≠ some (injectResponse b)) :
    Served env r request ⟨outcome, [], false⟩

theorem needsNoEscape_of_readInject {params : Json} {what : Bytes}
    (h : readInject env params = .raised what) : NeedsNoEscape what := by
  have hindex : ∀ j : Json, NeedsNoEscape (indexError j) :=
    needsNoEscape_typeError (by decide +kernel)
  have hstring : ∀ j : Json, NeedsNoEscape (typeError 302 (lit "type must be string, but is ") j) :=
    needsNoEscape_typeError (by decide +kernel)
  have hconst : ∀ {j : Json} {k : Bytes} {e : Bytes},
      constIndex j k = .raised e → NeedsNoEscape e := by
    intro j k e he
    rcases j with _ | _ | _ | _ | _ | _ | fields
    case object =>
      simp only [constIndex] at he
      split at he <;> cases he
    all_goals cases he; exact hindex _
  simp only [readInject] at h
  rcases hx : constIndex params (lit "id") with x | e | _ <;> rw [hx] at h
  · rw [Outcome.bind_done] at h
    rcases env.json.getUInt16_cases x with ⟨-, id, hn⟩ | ⟨-, hn⟩ <;> rw [hn] at h
    · rw [Outcome.bind_done] at h
      rcases hd : constIndex params (lit "data") with y | e | _ <;> rw [hd] at h
      · rw [Outcome.bind_done] at h
        rcases y with _ | _ | _ | _ | s | _ | _
        case string => cases h
        all_goals cases h; exact hstring _
      · cases h; exact hconst hd
      · cases h
    · cases h; exact needsNoEscape_numberError x
  · cases h; exact hconst hx
  · cases h

theorem Command.lookup_success {r : ZmqRelay} {uptime : Int} {params j : Json} {command : Command}
    (hne : command ≠ .inject) (h : command.verdict env r uptime params = .object j) :
    j.lookup (lit "success") = none := by
  have hdumped : ∀ {x : Json}, Verdict.dumped env x = .object j → j = x := by
    intro x hx
    unfold Verdict.dumped at hx
    split at hx <;> cases hx
    rfl
  rcases command with _ | _ | _ | _ | _
  case inject => exact absurd rfl hne
  case hello =>
    simp only [Command.verdict] at h
    rcases hp : r.playerNameProvider with _ | _ | playerName <;> rw [hp] at h
    · rw [hdumped h]; rfl
    · cases h
    · rw [hdumped h]
      rcases playerName with _ | name
      · rfl
      · exact (Json.lookup_set (isObject_helloResponse env none) ..).trans rfl
  all_goals rw [hdumped h]; rfl

theorem processCommand_served (hd : LawfulDump env.json.dump) (r : ZmqRelay) (uptime : Int)
    (request : Bytes) : Served env r request (processCommand env r uptime request) := by
  rcases hr : readCommand env request with ⟨cmd, params⟩ | what | _
  · by_cases hcmd : cmd = lit "inject"
    · subst hcmd
      rw [processCommand_inject r uptime hr]
      rcases hi : r.packetInjector with _ | packetInjector
      · simp only [handleInjectCommand, hi]
        exact .rejected hr
          (by decide +kernel : NeedsNoEscape (lit "Packet injection not available"))
      · rcases hp : readInject env params with ⟨id, dataStr⟩ | what | _
        · rcases hf : packetInjector id [] with what | b
          · simp only [handleInjectCommand, hi, hp, hf]
            exact .thrown hr hi hf
          · obtain ⟨reply, hreply⟩ := hd.ok (plain_injectResponse b) (utf8_injectResponse b)
            simp only [handleInjectCommand, hi, hp, hf, dumpOutcome, hreply, Outcome.ofExcept,
              Outcome.catching_done]
            exact .returned hr hi hf (hd.read (plain_injectResponse b) hreply)
        · simp only [handleInjectCommand, hi, hp]
          exact .rejected hr (needsNoEscape_of_readInject hp)
        · simp only [handleInjectCommand, hi, hp]
          exact .undefined hr (readInject_eq_undefined.mp hp)
    · have hc : ¬ CommandIs env request (lit "inject") := by
        rw [commandIs_iff]
        rintro ⟨params', hr'⟩
        rw [hr] at hr'
        cases hr'
        exact hcmd rfl
      simp only [processCommand, hr]
      rcases hk : KeyMap.lookup cmd commandHandlers with _ | command
      · refine .other hc fun reply ho b => ?_
        cases ho
        exact read_errorReply_ne (lit "Unknown command") b
      · have hne : command ≠ .inject := fun h => hcmd ((lookup_inject hk).mpr h)
        have hm := command.run_matches hd r uptime params
        have hbare : (command.run env r uptime params).calls = [] ∧
            (command.run env r uptime params).injected = false := by
          rcases command with _ | _ | _ | _ | _
          case inject => exact absurd rfl hne
          case hello =>
            simp only [Command.run, handleHelloCommand]
            rcases r.playerNameProvider with _ | _ | _ <;> exact ⟨rfl, rfl⟩
          all_goals exact ⟨rfl, rfl⟩
        simp only [hbare]
        refine .other hc fun reply ho b => ?_
        rcases hv : command.verdict env r uptime params with _ | what | j <;> rw [hv] at hm
        · rw [hm] at ho; cases ho
        · rw [hm] at ho; cases ho
          exact read_errorReply_ne what b
        · obtain ⟨reply', ho', hj⟩ := hm
          obtain rfl := Outcome.done.inj (ho.symm.trans ho')
          intro hb
          obtain rfl := Option.some.inj (hj.symm.trans hb)
          cases Command.lookup_success hne hv
  · simp only [processCommand, hr]
    refine .other ?_ fun reply ho b => ?_
    · rw [commandIs_iff, hr]
      rintro ⟨params, h⟩
      cases h
    · cases ho
      exact read_errorReply_ne what b
  · exact absurd hr (readCommand_ne_undefined env request)

/-! ### Sequences of requests -/

/-- A request, the clock, and the relay as it is then, with what the injector does this time. -/
structure Exchange where
  relay : ZmqRelay
  uptime : Int
  request : Bytes

namespace Exchange

/-- The relay with the counter that the requests before have left. -/
def relayAt (x : Exchange) (packetsInjected : UInt64) : ZmqRelay :=
  { x.relay with stats := { x.relay.stats with packetsInjected := packetsInjected } }

/-- What the calls of the injector came to. -/
def results (x : Exchange) (handled : Handled) : List (Except Bytes Bool) :=
  handled.calls.filterMap fun c => x.relay.packetInjector.map fun f => f c.1 c.2

/-- What they returned. -/
def returned (x : Exchange) (handled : Handled) : List Bool :=
  (x.results handled).filterMap Except.toOption

end Exchange

structure Session where
  packetsInjected : UInt64 := 0
  log : List (Exchange × Handled) := []

namespace Session

/-- `ProcessCommand` on the next request. -/
def serve (env : Env) (s : Session) (x : Exchange) : Session :=
  let handled := processCommand env (x.relayAt s.packetsInjected) x.uptime x.request
  { packetsInjected := if handled.injected then s.packetsInjected + 1 else s.packetsInjected
    log := s.log ++ [(x, handled)] }

def run (env : Env) (xs : List Exchange) : Session := xs.foldl (serve env) {}

/-- What the calls of the injector have returned so far. -/
def returned (s : Session) : List Bool := s.log.flatMap fun e => e.1.returned e.2

end Session

/-- What is known of a request from its reply and its count. -/
structure InjectAgrees (env : Env) (x : Exchange) (handled : Handled) : Prop where
  once : handled.calls.length ≤ 1
  only : handled.calls ≠ [] → CommandIs env x.request (lit "inject")
  success : ∀ b, (∃ reply, handled.outcome = .done reply ∧
    JsonText.read reply = some (injectResponse b)) ↔ b ∈ x.returned handled
  answered : CommandIs env x.request (lit "inject") → ∃ reply, handled.outcome = .done reply
  /-- A request that does not get to the injector. -/
  rejected : CommandIs env x.request (lit "inject") → handled.calls = [] →
    ∃ what reply, handled.outcome = .done reply ∧ JsonText.read reply = some (errorObject what)
  /-- An exception of the injector. -/
  thrown : ∀ what, .error what ∈ x.results handled → NeedsNoEscape what →
    ∃ reply, handled.outcome = .done reply ∧ JsonText.read reply = some (errorObject what)
  counted : handled.injected = true ↔ true ∈ x.returned handled

theorem injectResponse_injective : Function.Injective injectResponse := by
  intro b b' h
  cases b <;> cases b' <;> first | rfl | cases h

theorem errorReply_not_success (what : Bytes) (b : Bool) :
    ¬ ∃ reply, Outcome.done (errorReply what) = .done reply ∧
      JsonText.read reply = some (injectResponse b) := by
  rintro ⟨reply, ho, hr⟩
  cases ho
  exact read_errorReply_ne what b hr

theorem errorReply_reads {what : Bytes} (h : NeedsNoEscape what) :
    ∃ reply, Outcome.done (errorReply what) = .done reply ∧
      JsonText.read reply = some (errorObject what) :=
  ⟨_, rfl, (read_errorReply_iff what).mpr h⟩

theorem Served.agrees {x : Exchange} {n : UInt64} {handled : Handled}
    (h : Served env (x.relayAt n) x.request handled) (hk : KeysPresent env x.request) :
    InjectAgrees env x handled := by
  have hinj : (x.relayAt n).packetInjector = x.relay.packetInjector := rfl
  rcases h with ⟨hc, hi, hf, hr⟩ | ⟨hc, hi, hf⟩ | ⟨hc, hw⟩ | ⟨hc, hm⟩ | ⟨hc, ho⟩
  · next f id b reply =>
    have hresults : x.results ⟨.done reply, [(id, [])], b⟩ = [.ok b] := by
      simp [Exchange.results, ← hinj, hi, hf]
    have hreturned : x.returned ⟨.done reply, [(id, [])], b⟩ = [b] := by
      rw [Exchange.returned, hresults]
      rfl
    refine ⟨Nat.le_refl 1, fun _ => commandIs_iff.mpr ⟨_, hc⟩, fun b' => ?_, fun _ => ⟨reply, rfl⟩,
      nofun, fun what hm => ?_, ?_⟩
    · rw [hreturned, List.mem_singleton]
      constructor
      · rintro ⟨reply', ho, hr'⟩
        obtain rfl := Outcome.done.inj ho
        exact injectResponse_injective (Option.some.inj (hr'.symm.trans hr))
      · rintro rfl
        exact ⟨reply, rfl, hr⟩
    · rw [hresults] at hm
      cases List.mem_singleton.mp hm
    · rw [hreturned, List.mem_singleton]
      exact eq_comm
  · next f id what =>
    have hresults : x.results ⟨.done (errorReply what), [(id, [])], false⟩ = [.error what] := by
      simp [Exchange.results, ← hinj, hi, hf]
    have hreturned : x.returned ⟨.done (errorReply what), [(id, [])], false⟩ = [] := by
      rw [Exchange.returned, hresults]
      rfl
    refine ⟨Nat.le_refl 1, fun _ => commandIs_iff.mpr ⟨_, hc⟩, fun b => ?_, fun _ => ⟨_, rfl⟩,
      nofun, fun what' hm hw => ?_, ?_⟩
    · rw [hreturned]
      exact iff_of_false (errorReply_not_success what b) List.not_mem_nil
    · rw [hresults] at hm
      cases List.mem_singleton.mp hm
      exact errorReply_reads hw
    · rw [hreturned]
      exact iff_of_false Bool.false_ne_true List.not_mem_nil
  · next what =>
    exact ⟨Nat.zero_le 1, fun h => absurd rfl h,
      fun b => iff_of_false (errorReply_not_success what b) List.not_mem_nil, fun _ => ⟨_, rfl⟩,
      fun _ _ => ⟨what, errorReply_reads hw⟩, fun _ hm => absurd hm List.not_mem_nil,
      iff_of_false Bool.false_ne_true List.not_mem_nil⟩
  · -- the lookup is defined, as both keys are there
    obtain ⟨fields, rfl, hid | ⟨_, _, -, -, hdata⟩⟩ := hm
    · exact absurd hid (hk fields hc).1
    · exact absurd hdata (hk fields hc).2
  · refine ⟨Nat.zero_le 1, fun h => absurd rfl h, fun b => ?_, fun h => absurd h hc,
      fun h => absurd h hc, fun _ hm => absurd hm List.not_mem_nil,
      iff_of_false Bool.false_ne_true List.not_mem_nil⟩
    refine iff_of_false ?_ List.not_mem_nil
    rintro ⟨reply, hreply, hr⟩
    exact ho reply hreply b hr

theorem InjectAgrees.count_returned {x : Exchange} {handled : Handled}
    (h : InjectAgrees env x handled) :
    (x.returned handled).count true = if handled.injected then 1 else 0 := by
  have hlen : (x.returned handled).length ≤ 1 :=
    ((List.length_filterMap_le _ _).trans (List.length_filterMap_le _ _)).trans h.once
  have hcount : (x.returned handled).count true ≤ 1 := List.count_le_length.trans hlen
  by_cases hi : handled.injected = true
  · have hpos := List.count_pos_iff.mpr (h.counted.mp hi)
    rw [if_pos hi]
    omega
  · rw [if_neg hi]
    exact List.count_eq_zero.mpr fun hm => hi (h.counted.mpr hm)

namespace Session

variable {s : Session} {x : Exchange} {xs : List Exchange}

theorem run_snoc : run env (xs ++ [x]) = serve env (run env xs) x := by
  rw [run, List.foldl_append]
  rfl

theorem returned_serve : (serve env s x).returned =
    s.returned ++
      x.returned (processCommand env (x.relayAt s.packetsInjected) x.uptime x.request) := by
  simp [serve, returned, List.flatMap_append]

end Session

/-- The requests `xs` have been handled in their order, each reply tells what the injector did, and
the counter is the number of calls that returned `true`, up to its 64 bits. -/
structure InjectionsCounted (env : Env) (xs : List Exchange) (s : Session) : Prop where
  requests : s.log.map Prod.fst = xs
  agrees : ∀ e ∈ s.log, InjectAgrees env e.1 e.2
  counter : s.packetsInjected = .ofNat (s.returned.count true)
  exact : s.returned.count true < 2 ^ 64 → s.packetsInjected.toNat = s.returned.count true

theorem InjectionsCounted.serve {xs : List Exchange} {s : Session} {x : Exchange}
    (hd : LawfulDump env.json.dump) (h : InjectionsCounted env xs s)
    (hk : KeysPresent env x.request) :
    InjectionsCounted env (xs ++ [x]) (Session.serve env s x) := by
  have hserved := processCommand_served hd (x.relayAt s.packetsInjected) x.uptime x.request
  have hagrees := hserved.agrees hk
  have hcounter : (Session.serve env s x).packetsInjected =
      .ofNat ((Session.serve env s x).returned.count true) := by
    rw [Session.returned_serve, List.count_append, hagrees.count_returned, UInt64.ofNat_add,
      ← h.counter]
    simp only [Session.serve]
    split_ifs
    · rfl
    · exact (UInt64.add_zero _).symm
  refine ⟨?_, ?_, hcounter, fun hlt => ?_⟩
  · simp only [Session.serve, List.map_append, List.map_cons, List.map_nil, h.requests]
  · intro e he
    rcases List.mem_append.mp he with he | he
    · exact h.agrees e he
    · obtain rfl := List.mem_singleton.mp he
      exact hagrees
  · rw [hcounter]
    exact UInt64.toNat_ofNat_of_lt hlt

theorem injectionsCounted (hd : LawfulDump env.json.dump) (xs : List Exchange)
    (hx : ∀ x ∈ xs, KeysPresent env x.request) : InjectionsCounted env xs (Session.run env xs) := by
  induction xs using List.reverseRecOn with
  | nil => exact ⟨rfl, fun e he => absurd he List.not_mem_nil, rfl, fun _ => rfl⟩
  | append_singleton xs x ih =>
    rw [Session.run_snoc]
    have hxs : ∀ y ∈ xs, KeysPresent env y.request := fun y hy =>
      hx y (List.mem_append_left _ hy)
    exact (ih hxs).serve hd (hx x (List.mem_append_right _ (List.mem_singleton.mpr rfl)))

/-- After every prefix of every sequence of requests, whatever the injector does at each call, the
replies say what it did and the counter counts the calls that returned `true`. -/
theorem inject_accounted (hd : LawfulDump env.json.dump) (xs : List Exchange)
    (hx : ∀ x ∈ xs, KeysPresent env x.request) (n : Nat) :
    InjectionsCounted env (xs.take n) (Session.run env (xs.take n)) :=
  injectionsCounted hd (xs.take n) fun x h => hx x (List.mem_of_mem_take h)

/-- The `inject` request with the id 10, to an injector that accepts every packet. -/
def injectExchange : Exchange := ⟨injectingRelay, 5, injectIdRequest (lit "10")⟩

theorem keysPresent_injectExchange : KeysPresent (defaultEnv id) injectExchange.request := by
  intro fields h
  have hread : readCommand (defaultEnv id) injectExchange.request =
      .done (lit "inject", injectIdParams (.integer 10)) := rfl
  rw [hread] at h
  cases h
  exact ⟨nofun, nofun⟩

/-- The same request, to an injector that throws. -/
def busyExchange : Exchange :=
  { injectExchange with relay := { packetInjector := some fun _ _ => .error (lit "busy") } }

/-- One packet is accepted, and the second request is answered with the exception. -/
theorem inject_accounted_two :
    (Session.run (defaultEnv id) [injectExchange, busyExchange]).packetsInjected.toNat = 1 ∧
      ∃ reply, (processCommand (defaultEnv id) (busyExchange.relayAt 1) busyExchange.uptime
          busyExchange.request).outcome = .done reply ∧
        JsonText.read reply = some (errorObject (lit "busy")) := by
  have hx : ∀ x ∈ [injectExchange, busyExchange], KeysPresent (defaultEnv id) x.request := by
    simp only [List.forall_mem_cons]
    exact ⟨keysPresent_injectExchange, keysPresent_injectExchange, List.forall_mem_nil _⟩
  have h : InjectionsCounted (defaultEnv id) [injectExchange, busyExchange]
      (Session.run (defaultEnv id) [injectExchange, busyExchange]) :=
    inject_accounted (lawfulDump_compactDump _) _ hx 2
  have hone :
      (Session.run (defaultEnv id) [injectExchange, busyExchange]).returned.count true = 1 := rfl
  have hlast : (busyExchange, processCommand (defaultEnv id) (busyExchange.relayAt 1)
      busyExchange.uptime busyExchange.request) ∈
        (Session.run (defaultEnv id) [injectExchange, busyExchange]).log :=
    List.mem_cons_of_mem _ (List.mem_singleton.mpr rfl)
  constructor
  · rw [h.exact (by rw [hone]; decide), hone]
  · have hthrown := (h.agrees _ hlast).thrown (lit "busy") (List.mem_singleton.mpr rfl)
    exact hthrown (by decide +kernel)

theorem run_replicate (n : Nat) :
    (Session.run (defaultEnv id) (List.replicate n injectExchange)).packetsInjected = .ofNat n ∧
      (Session.run (defaultEnv id) (List.replicate n injectExchange)).returned =
        List.replicate n true := by
  induction n with
  | zero => exact ⟨rfl, rfl⟩
  | succ n ih =>
    rw [List.replicate_succ', Session.run_snoc, Session.returned_serve, List.replicate_succ', ih.2]
    have hcalls : ∀ m, (processCommand (defaultEnv id) (injectExchange.relayAt m)
        injectExchange.uptime injectExchange.request).calls = [(10, [])] := fun m => rfl
    have hinjected : ∀ m, (processCommand (defaultEnv id) (injectExchange.relayAt m)
        injectExchange.uptime injectExchange.request).injected = true := fun m => rfl
    constructor
    · simp only [Session.serve, hinjected, if_true, ih.1, UInt64.ofNat_add]
      rfl
    · rw [Exchange.returned, Exchange.results, hcalls]
      rfl

/-- After `2 ^ 64` accepted packets the counter is back at 0. -/
theorem injections_wrap :
    (∀ x ∈ List.replicate (2 ^ 64) injectExchange, KeysPresent (defaultEnv id) x.request) ∧
      (Session.run (defaultEnv id) (List.replicate (2 ^ 64) injectExchange)).packetsInjected.toNat ≠
        (Session.run (defaultEnv id)
          (List.replicate (2 ^ 64) injectExchange)).returned.count true := by
  obtain ⟨hcounter, hreturned⟩ := run_replicate (2 ^ 64)
  constructor
  · intro x hx
    rw [List.eq_of_mem_replicate hx]
    exact keysPresent_injectExchange
  · rw [hcounter, hreturned, List.count_replicate_self]
    decide

/-! ### The requests of a run -/

/-- The request that a step of the command thread handles, with the relay as the run has left it. -/
def exchange (env : Env) (pre : List Label) : Label → Option Exchange
  | .command (.process uptime request _) =>
    (exec (System.step env) {} pre).map fun s => ⟨s.relay, uptime, request⟩
  | _ => none

def exchanges (env : Env) (tr : List Label) : List Exchange := history (exchange env) tr

/-- The replies that `ProcessCommand` has returned. -/
def responses (tr : List Label) : List (Outcome Bytes) :=
  tr.filterMap fun
    | .command (.process _ _ response) => some (.done response)
    | _ => none

/-- The requests of a run are a sequence as above: its replies are those of the run and its counter
is that of the relay. -/
structure Follows (env : Env) (tr : List Label) (r : ZmqRelay) : Prop where
  counter : (Session.run env (exchanges env tr)).packetsInjected = r.stats.packetsInjected
  replies : (Session.run env (exchanges env tr)).log.map (fun e => e.2.outcome) = responses tr

section

variable {s s' : System} {r r' : ZmqRelay} {tr : List Label}

theorem Follows.other {l : Label} (h : Follows env tr r)
    (hl : ∀ uptime request response, l ≠ .command (.process uptime request response))
    (hs : r'.stats.packetsInjected = r.stats.packetsInjected) : Follows env (tr ++ [l]) r' := by
  have hnone : exchange env tr l = none ∧ responses [l] = [] := by
    rcases l with _ | _ | _ | e | _
    case command =>
      rcases e with _ | _ | _ | ⟨uptime, request, response⟩ | _ | _ | _
      case process => exact absurd rfl (hl uptime request response)
      all_goals exact ⟨rfl, rfl⟩
    all_goals exact ⟨rfl, rfl⟩
  have hx : exchanges env (tr ++ [l]) = exchanges env tr := by
    rw [exchanges, history_snoc, hnone.1]
    exact List.append_nil _
  have hr : responses (tr ++ [l]) = responses tr ++ responses [l] := List.filterMap_append
  refine ⟨?_, ?_⟩
  · rw [hx, h.counter, hs]
  · rw [hx, hr, hnone.2, List.append_nil, h.replies]

theorem Follows.process {uptime : Int} {request response : Bytes}
    (hr : Run (System.step env) {} tr s) (h : Follows env tr s.relay)
    (hs : s.relay.commandStep env (.process uptime request response) = some r') :
    Follows env (tr ++ [.command (.process uptime request response)]) r' := by
  have hx : exchanges env (tr ++ [.command (.process uptime request response)]) =
      exchanges env tr ++ [⟨s.relay, uptime, request⟩] := by
    rw [exchanges, history_snoc, exchange, hr.exec_eq]
    rfl
  have hrelay : Exchange.relayAt ⟨s.relay, uptime, request⟩
      (Session.run env (exchanges env tr)).packetsInjected = s.relay := by
    rw [Exchange.relayAt, h.counter]
  rcases ZmqRelay.commandStep_move hs with _ | _ | _ | _ | ⟨_, _, _, calls, injected, ht, hp⟩
  have hserve : Session.serve env (Session.run env (exchanges env tr)) ⟨s.relay, uptime, request⟩ =
      { packetsInjected :=
          if injected then s.relay.stats.packetsInjected + 1 else s.relay.stats.packetsInjected
        log := (Session.run env (exchanges env tr)).log ++
          [(⟨s.relay, uptime, request⟩, ⟨.done response, calls, injected⟩)] } := by
    simp only [Session.serve, hrelay, hp]
    rw [h.counter]
  constructor
  · rw [hx, Session.run_snoc, hserve]
    rcases injected with _ | _ <;> rfl
  · rw [hx, Session.run_snoc, hserve, responses, filterMap_snoc, List.map_append, h.replies]
    rfl

theorem follows (h : Run (System.step env) {} tr s) : Follows env tr s.relay := by
  refine h.invariant (I := fun tr s => Follows env tr s.relay) ⟨rfl, rfl⟩ ?_
  intro tr s l s' hr hf hs
  by_cases hl : ∃ e, l = .command e
  · obtain ⟨e, rfl⟩ := hl
    obtain ⟨r', hr', hrelay, -⟩ := System.step_command hs
    rw [hrelay]
    rcases e with _ | _ | _ | ⟨uptime, request, response⟩ | _ | _ | _
    case process => exact hf.process hr hr'
    all_goals rcases ZmqRelay.commandStep_move hr' <;> exact hf.other nofun rfl
  · obtain ⟨hcount, -, -, -⟩ := System.step_notCommand hs fun e he => hl ⟨e, he⟩
    exact hf.other (fun _ _ _ he => hl ⟨_, he⟩) hcount

theorem packetsInjected_eq (hd : LawfulDump env.json.dump) (h : Run (System.step env) {} tr s)
    (hx : ∀ x ∈ exchanges env tr, KeysPresent env x.request) :
    s.relay.stats.packetsInjected =
      .ofNat ((Session.run env (exchanges env tr)).returned.count true) := by
  rw [← (follows h).counter]
  exact (injectionsCounted hd _ hx).counter

end

end Kpacket
