import Kpacket.InjectRuns
import Kpacket.ReqSocket

/-!
# The commands of the console monitor

`Start` reads lines, and `SendCommand` sends those that are commands through one socket. Requests
and replies alternate, and after a reply that is late nothing is sent any more
(`commandLoop_alternates`). `commandLoop_asks` says which requests the lines come to, and
`processCommand_asked` what the relay makes of them.
-/

namespace Kpacket

open ReqSocket

/-- What the commands of the client use of their libraries; `pretty` is `dump(2)`. -/
structure AskingLibrary where
  dump : Json → Except Bytes Bytes
  parse : Bytes → Except Bytes Json
  pretty : Json → Except Bytes Bytes

/-! ### `Start` -/

inductive LineAction
  | quit
  | command (name : Bytes) (params : Json)
  | unknown
  | nothing

/-- The branches of the command loop. -/
def lineAction (input : Bytes) : LineAction :=
  if input = lit "quit" ∨ input = lit "exit" then .quit
  else if input = lit "status" then .command (lit "status") .null
  else if input = lit "stats" then .command (lit "stats") .null
  else if input.take 6 = lit "filter" then
    if input.length > 7 then
      .command (lit "filter") (Json.obj [(lit "packet_id", .string (input.drop 7))])
    else .nothing
  else if input ≠ [] then .unknown
  else .nothing

/-- `cmd_json` -/
def commandJson (command : Bytes) (params : Json) : Json := Json.obj [
  (lit "command", .string command),
  (lit "params", params)]

/-! ### `SendCommand` -/

inductive Said
  | response (text : Bytes)
  | socketError
  | dumpError (what : Bytes)
  | unknownCommand (input : Bytes)

/-- A line of input, and what becomes of the request if it is one. -/
structure Input where
  line : Bytes
  sending : Sending
  receiving : Receiving Bytes

/-- The client at its prompt; `sent` are the requests that went out, `answered` those whose reply
came in time. -/
structure Prompt (σ : Type) where
  running : Bool := true
  req : σ
  sent : List Bytes := []
  answered : List (Bytes × Bytes) := []
  said : List Said := []

section

variable {σ : Type} (sock : ReqSocket σ Bytes) (lib : AskingLibrary)

/-- The text behind `Response: `; a reply that is not JSON is shown as it is. -/
def shownReply (reply : Bytes) : Bytes :=
  match lib.parse reply >>= lib.pretty with
  | .ok text => text
  | .error _ => reply

namespace Prompt

def say (p : Prompt σ) (s : Said) : Prompt σ := { p with said := p.said ++ [s] }

/-- What `send` returns is not looked at. -/
def sendCommand (p : Prompt σ) (command : Bytes) (params : Json) (i : Input) : Prompt σ :=
  match lib.dump (commandJson command params) with
  | .error what => p.say (.dumpError what)
  | .ok request =>
    match sock.send p.req i.sending with
    | (none, req) => { p with req := req }.say .socketError
    | (some taken, req) =>
      let p := { p with sent := if taken then p.sent ++ [request] else p.sent }
      match sock.receive req i.receiving with
      | (none, req) => { p with req := req }.say .socketError
      | (some none, req) => { p with req := req }
      | (some (some reply), req) =>
        { p with req := req, answered := p.answered ++ [(request, reply)] }.say
          (.response (shownReply lib reply))

def turn (p : Prompt σ) (i : Input) : Prompt σ :=
  if !p.running then p
  else match lineAction i.line with
    | .quit => { p with running := false }
    | .command command params => p.sendCommand sock lib command params i
    | .unknown => p.say (.unknownCommand i.line)
    | .nothing => p

end Prompt

def commandLoop (inputs : List Input) (p : Prompt σ) : Prompt σ :=
  inputs.foldl (Prompt.turn sock lib) p

end

/-! ### Requests and replies -/

def Said.response? : Said → Option Bytes
  | .response text => some text
  | _ => none

section

variable {σ : Type} {sock : ReqSocket σ Bytes} {awaits : σ → Bool} {lib : AskingLibrary}

/-- Every request but perhaps the last has its reply, and the replies are what is shown. -/
structure Alternates (awaits : σ → Bool) (lib : AskingLibrary) (p : Prompt σ) : Prop where
  sent : awaits p.req = false ∧ p.sent = p.answered.map Prod.fst ∨
    awaits p.req = true ∧ ∃ request, p.sent = p.answered.map Prod.fst ++ [request]
  shown : p.said.filterMap Said.response? = p.answered.map fun x => shownReply lib x.2

/-- Nothing goes out or comes in. -/
structure Idle (awaits : σ → Bool) (p p' : Prompt σ) : Prop where
  req : awaits p'.req = awaits p.req
  sent : p'.sent = p.sent
  answered : p'.answered = p.answered
  said : p'.said.filterMap Said.response? = p.said.filterMap Said.response?

theorem Idle.refl (p : Prompt σ) : Idle awaits p p := ⟨rfl, rfl, rfl, rfl⟩

theorem Idle.say (p : Prompt σ) {req : σ} (hreq : awaits req = awaits p.req) {s : Said}
    (hs : s.response? = none) : Idle awaits p ({ p with req := req }.say s) :=
  ⟨hreq, rfl, rfl, by rw [Prompt.say, Lts.filterMap_snoc, hs]; simp⟩

theorem Alternates.idle {p p' : Prompt σ} (h : Alternates awaits lib p) (hi : Idle awaits p p') :
    Alternates awaits lib p' := by
  obtain ⟨hreq, hsent, hans, hsaid⟩ := hi
  refine ⟨?_, by rw [hsaid, hans, h.shown]⟩
  rw [hreq, hsent, hans]
  exact h.sent

namespace Prompt

variable {p : Prompt σ}

/-- What a command can come to. -/
inductive Commanded (awaits : σ → Bool) (lib : AskingLibrary) (p : Prompt σ) (i : Input)
    (j : Json) : Prompt σ → Prop
  | dumpFails (what : Bytes) (hd : lib.dump j = .error what) :
    Commanded awaits lib p i j (p.say (.dumpError what))
  | refused (request : Bytes) (req : σ) (hd : lib.dump j = .ok request)
      (hs : awaits p.req = true ∨ i.sending ≠ .accepted) (hreq : awaits req = awaits p.req) :
    Commanded awaits lib p i j ({ p with req := req }.say .socketError)
  | late (request : Bytes) (p' : Prompt σ) (hd : lib.dump j = .ok request)
      (hw : awaits p.req = false) (hs : i.sending = .accepted)
      (hr : ∀ reply, i.receiving ≠ .received reply) (hreq : awaits p'.req = true)
      (hrunning : p'.running = p.running) (hsent : p'.sent = p.sent ++ [request])
      (hans : p'.answered = p.answered)
      (hsaid : p'.said.filterMap Said.response? = p.said.filterMap Said.response?) :
    Commanded awaits lib p i j p'
  | answered (request reply : Bytes) (req : σ) (hd : lib.dump j = .ok request)
      (hw : awaits p.req = false) (hs : i.sending = .accepted) (hr : i.receiving = .received reply)
      (hreq : awaits req = false) :
    Commanded awaits lib p i j ({ p with
      sent := p.sent ++ [request]
      req := req
      answered := p.answered ++ [(request, reply)] }.say (.response (shownReply lib reply)))

theorem commanded (hsock : sock.Lawful awaits) (lib : AskingLibrary) (p : Prompt σ)
    (command : Bytes) (params : Json) (i : Input) :
    Commanded awaits lib p i (commandJson command params)
      (p.sendCommand sock lib command params i) := by
  unfold sendCommand
  cases hd : lib.dump (commandJson command params) with
  | error what => exact .dumpFails what hd
  | ok request =>
    cases hw : awaits p.req with
    | true =>
      obtain ⟨req, hs, hreq⟩ := hsock.send_waiting i.sending hw
      simp only [hs]
      exact .refused request req hd (.inl hw) (hreq.trans hw.symm)
    | false =>
      cases hs : i.sending with
      | failed =>
        obtain ⟨req, hsend, hreq⟩ := hsock.send_failed hw
        simp only [hsend]
        exact .refused request req hd (.inr (by rw [hs]; nofun)) (hreq.trans hw.symm)
      | again =>
        -- the socket waits for no reply, so that `recv` throws
        obtain ⟨req, hsend, hreq⟩ := hsock.send_again hw
        obtain ⟨req', hreceive, hreq'⟩ := hsock.receive_idle i.receiving hreq
        simp only [hsend, hreceive]
        exact .refused request req' hd (.inr (by rw [hs]; nofun)) (hreq'.trans hw.symm)
      | accepted =>
        obtain ⟨req, hsend, hreq⟩ := hsock.send_accepted hw
        cases hr : i.receiving with
        | failed =>
          obtain ⟨req', hreceive, hreq'⟩ := hsock.receive_failed hreq
          simp only [hsend, hreceive, if_true]
          refine .late request _ hd hw hs (by rw [hr]; nofun) hreq' rfl rfl rfl ?_
          exact (Lts.filterMap_snoc ..).trans (List.append_nil _)
        | again =>
          obtain ⟨req', hreceive, hreq'⟩ := hsock.receive_again hreq
          simp only [hsend, hreceive, if_true]
          exact .late request _ hd hw hs (by rw [hr]; nofun) hreq' rfl rfl rfl rfl
        | received reply =>
          obtain ⟨req', hreceive, hreq'⟩ := hsock.receive_received reply hreq
          simp only [hsend, hreceive, if_true]
          exact .answered request reply req' hd hw hs hr hreq'

theorem Commanded.waiting {i : Input} {j : Json} {p' : Prompt σ}
    (h : Commanded awaits lib p i j p') (hw : awaits p.req = true) : Idle awaits p p' := by
  cases h with
  | dumpFails => exact .say p rfl rfl
  | refused _ _ _ _ hreq => exact .say p hreq rfl
  | late _ _ _ hw' | answered _ _ _ _ hw' => cases hw.symm.trans hw'

theorem Commanded.alternates {i : Input} {j : Json} {p' : Prompt σ}
    (h : Commanded awaits lib p i j p') (halt : Alternates awaits lib p) :
    Alternates awaits lib p' := by
  have hsent : awaits p.req = false → p.sent = p.answered.map Prod.fst := by
    intro hw
    rcases halt.sent with ⟨-, hs⟩ | ⟨hw', -⟩
    · exact hs
    · cases hw.symm.trans hw'
  cases h with
  | dumpFails => exact halt.idle (.say p rfl rfl)
  | refused _ _ _ _ hreq => exact halt.idle (.say p hreq rfl)
  | late request _ _ hw _ _ hreq _ hs hans hsaid =>
    refine ⟨.inr ⟨hreq, request, by rw [hs, hans, hsent hw]⟩, ?_⟩
    rw [hsaid, hans]
    exact halt.shown
  | answered request reply _ _ hw _ _ hreq =>
    refine ⟨.inl ⟨hreq, ?_⟩, ?_⟩
    · show p.sent ++ [request] = (p.answered ++ [(request, reply)]).map Prod.fst
      rw [List.map_append, hsent hw]
      rfl
    · show (p.said ++ [_]).filterMap Said.response? =
        (p.answered ++ [(request, reply)]).map fun x => shownReply lib x.2
      rw [Lts.filterMap_snoc, List.map_append, halt.shown]
      rfl

/-- What a line can do. -/
inductive Turned (awaits : σ → Bool) (lib : AskingLibrary) (p : Prompt σ) (i : Input) :
    Prompt σ → Prop
  | ended (hr : p.running = false) : Turned awaits lib p i p
  | quit (hl : lineAction i.line = .quit) : Turned awaits lib p i { p with running := false }
  | command (command : Bytes) (params : Json) (p' : Prompt σ)
      (hl : lineAction i.line = .command command params)
      (hc : Commanded awaits lib p i (commandJson command params) p') : Turned awaits lib p i p'
  | unknown (hl : lineAction i.line = .unknown) :
    Turned awaits lib p i (p.say (.unknownCommand i.line))
  | nothing (hl : lineAction i.line = .nothing) : Turned awaits lib p i p

theorem turned (hsock : sock.Lawful awaits) (lib : AskingLibrary) (p : Prompt σ) (i : Input) :
    Turned awaits lib p i (p.turn sock lib i) := by
  unfold turn
  rcases hr : p.running with _ | _
  · exact .ended hr
  · rcases hl : lineAction i.line with _ | ⟨command, params⟩ | _ | _
    · exact .quit hl
    · exact .command command params _ hl (commanded hsock lib p command params i)
    · exact .unknown hl
    · exact .nothing hl

theorem turn_alternates (hsock : sock.Lawful awaits) (h : Alternates awaits lib p) (i : Input) :
    Alternates awaits lib (p.turn sock lib i) := by
  have ht := turned hsock lib p i
  generalize p.turn sock lib i = p' at ht ⊢
  cases ht with
  | ended | nothing => exact h
  | quit => exact ⟨h.sent, h.shown⟩
  | command _ _ _ _ hc => exact hc.alternates h
  | unknown => exact h.idle (.say p rfl rfl)

theorem turn_waiting (hsock : sock.Lawful awaits) (hw : awaits p.req = true) (i : Input) :
    Idle awaits p (p.turn sock lib i) := by
  have ht := turned hsock lib p i
  generalize p.turn sock lib i = p' at ht ⊢
  cases ht with
  | ended | nothing => exact .refl p
  | quit => exact ⟨rfl, rfl, rfl, rfl⟩
  | command _ _ _ _ hc => exact hc.waiting hw
  | unknown => exact .say p rfl rfl

end Prompt

theorem commandLoop_append (pre post : List Input) (p : Prompt σ) :
    commandLoop sock lib (pre ++ post) p = commandLoop sock lib post (commandLoop sock lib pre p) :=
  List.foldl_append

theorem commandLoop_waiting (hsock : sock.Lawful awaits) (inputs : List Input) {p : Prompt σ}
    (hw : awaits p.req = true) : Idle awaits p (commandLoop sock lib inputs p) := by
  induction inputs generalizing p with
  | nil => exact .refl p
  | cons i inputs ih =>
    have hi : Idle awaits p (p.turn sock lib i) := Prompt.turn_waiting hsock hw i
    have hrest := ih (hi.req.trans hw)
    exact ⟨hrest.req.trans hi.req, hrest.sent.trans hi.sent, hrest.answered.trans hi.answered,
      hrest.said.trans hi.said⟩

/-- Every reply is that to the request before it, and is shown; and from the first reply that is
late on nothing is sent, received or shown as one any more. -/
theorem commandLoop_alternates (hsock : sock.Lawful awaits) (lib : AskingLibrary)
    (pre post : List Input) :
    Alternates awaits lib (commandLoop sock lib pre { req := sock.opened }) ∧
      ((commandLoop sock lib pre { req := sock.opened }).answered.length <
          (commandLoop sock lib pre { req := sock.opened }).sent.length →
        Idle awaits (commandLoop sock lib pre { req := sock.opened })
          (commandLoop sock lib (pre ++ post) { req := sock.opened })) := by
  have halt : Alternates awaits lib (commandLoop sock lib pre { req := sock.opened }) := by
    induction pre using List.reverseRecOn with
    | nil => exact ⟨.inl ⟨hsock.opened, rfl⟩, rfl⟩
    | append_singleton pre i ih =>
      rw [commandLoop_append]
      exact Prompt.turn_alternates hsock ih i
  refine ⟨halt, fun hlt => ?_⟩
  rw [commandLoop_append]
  refine commandLoop_waiting hsock post ?_
  rcases halt.sent with ⟨-, hs⟩ | ⟨hw, -⟩
  · rw [hs, List.length_map] at hlt
    exact absurd hlt (Nat.lt_irrefl _)
  · exact hw

/-! ### What is asked -/

/-- The requests that a user can type. -/
inductive Asks : Bytes → Json → Prop
  | status : Asks (lit "status")
    (.object [(lit "command", .string (lit "status")), (lit "params", .null)])
  | stats : Asks (lit "stats")
    (.object [(lit "command", .string (lit "stats")), (lit "params", .null)])
  | filter (separator : UInt8) (packetId : Bytes) (hid : packetId ≠ []) :
    Asks (lit "filter" ++ separator :: packetId)
      (.object [(lit "command", .string (lit "filter")),
        (lit "params", .object [(lit "packet_id", .string packetId)])])

def Quits (line : Bytes) : Prop := line = lit "quit" ∨ line = lit "exit"

/-- The requests that lines of input send, and those that are answered, with the replies. -/
inductive Asked (lib : AskingLibrary) : List Input → List Bytes → List (Bytes × Bytes) → Prop
  | nil : Asked lib [] [] []
  | quits (i : Input) (rest : List Input) (hl : Quits i.line) : Asked lib (i :: rest) [] []
  | noCommand (i : Input) (rest : List Input) (sent : List Bytes) (answered : List (Bytes × Bytes))
      (hq : ¬ Quits i.line) (hl : ∀ j, ¬ Asks i.line j) (h : Asked lib rest sent answered) :
    Asked lib (i :: rest) sent answered
  | notSent (i : Input) (rest : List Input) (sent : List Bytes) (answered : List (Bytes × Bytes))
      (j : Json) (hl : Asks i.line j)
      (hn : (∃ what, lib.dump j = .error what) ∨ i.sending ≠ .accepted)
      (h : Asked lib rest sent answered) : Asked lib (i :: rest) sent answered
  | answered (i : Input) (rest : List Input) (sent : List Bytes) (answered : List (Bytes × Bytes))
      (j : Json) (request reply : Bytes) (hl : Asks i.line j) (hd : lib.dump j = .ok request)
      (hs : i.sending = .accepted) (hr : i.receiving = .received reply)
      (h : Asked lib rest sent answered) :
    Asked lib (i :: rest) (request :: sent) ((request, reply) :: answered)
  /-- Nothing goes out after it. -/
  | late (i : Input) (rest : List Input) (j : Json) (request : Bytes) (hl : Asks i.line j)
      (hd : lib.dump j = .ok request) (hs : i.sending = .accepted)
      (hr : ∀ reply, i.receiving ≠ .received reply) : Asked lib (i :: rest) [request] []

theorem lineAction_quit {line : Bytes} : lineAction line = .quit ↔ Quits line := by
  unfold lineAction Quits
  split_ifs <;> simp_all

theorem lineAction_command {line : Bytes} {j : Json} :
    Asks line j ↔ ∃ command params, lineAction line = .command command params ∧
      j = commandJson command params := by
  constructor
  · intro h
    cases h with
    | status => exact ⟨_, _, rfl, rfl⟩
    | stats => exact ⟨_, _, rfl, rfl⟩
    | filter separator packetId hid =>
      refine ⟨lit "filter", Json.obj [(lit "packet_id", .string packetId)], ?_, rfl⟩
      have hlen : 7 < (lit "filter" ++ separator :: packetId).length := by
        rw [List.length_append, List.length_cons]
        have := List.length_pos_iff.mpr hid
        show 7 < 6 + _
        omega
      have hne : ∀ {s : Bytes}, s.length ≤ 7 → lit "filter" ++ separator :: packetId ≠ s := by
        rintro s hs rfl
        omega
      have htake : (lit "filter" ++ separator :: packetId).take 6 = lit "filter" := rfl
      unfold lineAction
      rw [if_neg, if_neg (hne (by decide)), if_neg (hne (by decide)), if_pos htake, if_pos hlen]
      · rfl
      · rintro (h | h)
        · exact hne (by decide) h
        · exact hne (by decide) h
  · rintro ⟨command, params, hl, rfl⟩
    unfold lineAction at hl
    split_ifs at hl with h1 h2 h3 h4 h5
    · cases hl
      rw [h2]
      exact .status
    · cases hl
      rw [h3]
      exact .stats
    · cases hl
      obtain ⟨separator, packetId, hd⟩ :
          ∃ separator packetId, line.drop 6 = separator :: packetId := by
        cases hd : line.drop 6 with
        | nil =>
          have := List.drop_eq_nil_iff.mp hd
          omega
        | cons separator packetId => exact ⟨_, _, rfl⟩
      have hline : line = lit "filter" ++ separator :: packetId := by
        rw [← h4, ← hd, List.take_append_drop]
      subst hline
      refine .filter separator packetId ?_
      rintro rfl
      exact Nat.lt_irrefl 7 h5

theorem commandLoop_ended {p : Prompt σ} (h : p.running = false) (inputs : List Input) :
    commandLoop sock lib inputs p = p := by
  induction inputs with
  | nil => rfl
  | cons i rest ih =>
    have hturn : p.turn sock lib i = p := by rw [Prompt.turn, h]; rfl
    show commandLoop sock lib rest (p.turn sock lib i) = p
    rw [hturn, ih]

/-- What a loop over `inputs` adds to the requests and the replies. -/
def AskedFrom (lib : AskingLibrary) (inputs : List Input) (p p' : Prompt σ) : Prop :=
  ∃ sent answered, Asked lib inputs sent answered ∧
    p'.sent = p.sent ++ sent ∧ p'.answered = p.answered ++ answered

namespace AskedFrom

variable {lib : AskingLibrary} {i : Input} {rest : List Input} {p q p' : Prompt σ}

theorem noCommand (h : AskedFrom lib rest q p') (hs : q.sent = p.sent)
    (ha : q.answered = p.answered) (hq : lineAction i.line ≠ .quit)
    (hl : ∀ command params, lineAction i.line ≠ .command command params) :
    AskedFrom lib (i :: rest) p p' := by
  obtain ⟨sent, answered, h, hsent, hans⟩ := h
  refine ⟨sent, answered, .noCommand i rest sent answered (fun hquit => ?_) (fun j hj => ?_) h,
    by rw [hsent, hs], by rw [hans, ha]⟩
  · exact hq (lineAction_quit.mpr hquit)
  · obtain ⟨command, params, hc, -⟩ := lineAction_command.mp hj
    exact hl command params hc

theorem notSent {j : Json} (h : AskedFrom lib rest q p') (hs : q.sent = p.sent)
    (ha : q.answered = p.answered) (hasks : Asks i.line j)
    (hn : (∃ what, lib.dump j = .error what) ∨ i.sending ≠ .accepted) :
    AskedFrom lib (i :: rest) p p' := by
  obtain ⟨sent, answered, h, hsent, hans⟩ := h
  exact ⟨sent, answered, .notSent i rest sent answered j hasks hn h, by rw [hsent, hs],
    by rw [hans, ha]⟩

theorem commanded (hsock : sock.Lawful awaits) {j : Json} (hasks : Asks i.line j)
    (hrun : p.running = true) (hw : awaits p.req = false)
    (ih : ∀ q : Prompt σ, q.running = true → awaits q.req = false →
      AskedFrom lib rest q (commandLoop sock lib rest q))
    (hc : Prompt.Commanded awaits lib p i j p') :
    AskedFrom lib (i :: rest) p (commandLoop sock lib rest p') := by
  cases hc with
  | dumpFails what hd =>
    exact (ih (p.say (.dumpError what)) hrun hw).notSent rfl rfl hasks (.inl ⟨what, hd⟩)
  | refused request req hd hn hreq =>
    refine (ih ({ p with req := req }.say .socketError) hrun (hreq.trans hw)).notSent rfl rfl hasks
      (.inr ?_)
    rcases hn with hw' | hn
    · cases hw.symm.trans hw'
    · exact hn
  | late request p' hd _ hsend hr hreq _ hsent hans =>
    have hidle : Idle awaits p' (commandLoop sock lib rest p') :=
      commandLoop_waiting hsock rest hreq
    exact ⟨[request], [], .late i rest _ request hasks hd hsend hr, hidle.sent.trans hsent,
      (hidle.answered.trans hans).trans (List.append_nil _).symm⟩
  | answered request reply req hd _ hsend hr hreq =>
    obtain ⟨sent, answered, h, hs, ha⟩ := ih ({ p with
      sent := p.sent ++ [request]
      req := req
      answered := p.answered ++ [(request, reply)] }.say (.response (shownReply lib reply))) hrun
      hreq
    refine ⟨request :: sent, (request, reply) :: answered,
      .answered i rest sent answered _ request reply hasks hd hsend hr h, hs.trans ?_, ha.trans ?_⟩
    · exact List.append_assoc ..
    · exact List.append_assoc ..

theorem turned (hsock : sock.Lawful awaits) (hrun : p.running = true) (hw : awaits p.req = false)
    (ih : ∀ q : Prompt σ, q.running = true → awaits q.req = false →
      AskedFrom lib rest q (commandLoop sock lib rest q))
    (ht : Prompt.Turned awaits lib p i p') :
    AskedFrom lib (i :: rest) p (commandLoop sock lib rest p') := by
  cases ht with
  | ended hr => cases hrun.symm.trans hr
  | quit hl =>
    rw [commandLoop_ended rfl]
    exact ⟨[], [], .quits i rest (lineAction_quit.mp hl), (List.append_nil _).symm,
      (List.append_nil _).symm⟩
  | unknown hl =>
    refine (ih (p.say (.unknownCommand i.line)) hrun hw).noCommand rfl rfl ?_ ?_
    · rw [hl]
      nofun
    · rw [hl]
      nofun
  | nothing hl =>
    refine (ih p hrun hw).noCommand rfl rfl ?_ ?_
    · rw [hl]
      nofun
    · rw [hl]
      nofun
  | command command params p' hl hc =>
    exact commanded hsock (lineAction_command.mpr ⟨_, _, hl, rfl⟩) hrun hw ih hc

end AskedFrom

/-- Whatever is typed and whatever becomes of the requests, those of the command lines before the
first that quits go out that can be made and are taken, up to the first whose reply is late; all
others have their replies. -/
theorem commandLoop_asks (hsock : sock.Lawful awaits) (lib : AskingLibrary) (inputs : List Input) :
    Asked lib inputs (commandLoop sock lib inputs { req := sock.opened }).sent
      (commandLoop sock lib inputs { req := sock.opened }).answered := by
  have key : ∀ p : Prompt σ, p.running = true → awaits p.req = false →
      AskedFrom lib inputs p (commandLoop sock lib inputs p) := by
    induction inputs with
    | nil => exact fun _ _ _ => ⟨[], [], .nil, (List.append_nil _).symm, (List.append_nil _).symm⟩
    | cons i rest ih =>
      intro p hrun hw
      exact AskedFrom.turned hsock hrun hw ih (Prompt.turned hsock lib p i)
  obtain ⟨sent, answered, h, hs, ha⟩ := key { req := sock.opened } rfl hsock.opened
  rw [hs, ha]
  exact h

end

/-! ### What the relay makes of them -/

/-- The object that answers a line. -/
def lineResponse (env : Env) (r : ZmqRelay) (uptime : Int) (line : Bytes) : Json :=
  if line = lit "status" then statusResponse env uptime
  else if line = lit "stats" then statsResponse r.statsLoads
  else filterResponse

section

variable {lib : AskingLibrary} {env : Env} (hd : LawfulDump env.json.dump)
  (hp : ∀ {j : Json} {text : Bytes}, j.Plain → lib.dump j = .ok text → env.json.parse text = .ok j)
include hp

theorem readCommand_asked {command request : Bytes} {params : Json} (hplain : params.Plain)
    (hdump : lib.dump (commandJson command params) = .ok request) :
    readCommand env request = .done (command, params) := by
  have hj : (commandJson command params).Plain :=
    .obj_of_fields (by simp [Json.PlainFields, Json.Plain, hplain])
  have hcmd : (commandJson command params).lookup (lit "command") = some (.string command) :=
    (Json.lookup_obj ..).trans rfl
  have hparams : (commandJson command params).lookup (lit "params") = some params :=
    (Json.lookup_obj ..).trans rfl
  simp only [readCommand, hp hj hdump, Outcome.ofExcept, index_of_lookup hcmd, getString,
    valueOr_of_lookup hparams, Outcome.bind_done]
  rfl

include hd

end

/-- A client with the relay's own JSON library. -/
def askingLibrary : AskingLibrary where
  dump := (defaultEnv id).json.dump
  parse := (defaultEnv id).json.parse
  pretty := (defaultEnv id).json.dump

theorem dump_commandJson {command : Bytes} {params : Json} (hc : IsUtf8 command)
    (hp : params.Plain) (hu : params.Utf8) :
    ∃ text, askingLibrary.dump (commandJson command params) = .ok text := by
  refine (lawfulDump_defaultEnv id).ok
    (.obj_of_fields (by simp [Json.PlainFields, Json.Plain, hp])) (.obj ?_)
  simp only [List.forall_mem_cons]
  exact ⟨⟨by decide, hc⟩, ⟨by decide, hu⟩, by simp⟩

/-- Three commands, of which the second is not answered in time. -/
def lateInputs : List Input :=
  [⟨lit "status", .accepted, .received (lit "ok")⟩, ⟨lit "help", .accepted, .again⟩,
    ⟨lit "stats", .accepted, .again⟩, ⟨lit "status", .accepted, .received (lit "ok")⟩]

theorem commandLoop_late : ∃ status stats,
    askingLibrary.dump (commandJson (lit "status") .null) = .ok status ∧
    askingLibrary.dump (commandJson (lit "stats") .null) = .ok stats ∧
    ∀ n, 3 ≤ n →
      (commandLoop (reference Bytes) askingLibrary (lateInputs.take n) { req := false }).sent =
        [status, stats] ∧
      (commandLoop (reference Bytes) askingLibrary (lateInputs.take n) { req := false }).answered =
        [(status, lit "ok")] := by
  obtain ⟨status, hstatus⟩ := dump_commandJson (show IsUtf8 (lit "status") by decide)
    (show Json.null.Plain from trivial) trivial
  obtain ⟨stats, hstats⟩ := dump_commandJson (show IsUtf8 (lit "stats") by decide)
    (show Json.null.Plain from trivial) trivial
  have h1 : lineAction (lit "status") = .command (lit "status") .null := rfl
  have h2 : lineAction (lit "stats") = .command (lit "stats") .null := rfl
  have h3 : lineAction (lit "help") = .unknown := rfl
  refine ⟨status, stats, hstatus, hstats, fun n hn => ?_⟩
  have htake : lateInputs.take n = lateInputs.take 3 ∨ lateInputs.take n = lateInputs := by
    rcases Nat.eq_or_lt_of_le hn with rfl | hlt
    · exact .inl rfl
    · exact .inr (List.take_of_length_le hlt)
  rcases htake with ht | ht <;> rw [ht] <;>
    simp [commandLoop, lateInputs, Prompt.turn, h1, h2, h3, Prompt.sendCommand, hstatus, hstats,
      reference, Prompt.say]

theorem commandLoop_alternates_late :
    Alternates id askingLibrary
      (commandLoop (reference Bytes) askingLibrary (lateInputs.take 3) { req := false }) ∧
    Idle id (commandLoop (reference Bytes) askingLibrary (lateInputs.take 3) { req := false })
      (commandLoop (reference Bytes) askingLibrary lateInputs { req := false }) := by
  obtain ⟨halt, hidle⟩ := commandLoop_alternates lawful_reference askingLibrary (lateInputs.take 3)
    (lateInputs.drop 3)
  obtain ⟨status, stats, -, -, h⟩ := commandLoop_late
  obtain ⟨hs, ha⟩ := h 3 (Nat.le_refl 3)
  refine ⟨halt, hidle ?_⟩
  let p := commandLoop (reference Bytes) askingLibrary (lateInputs.take 3) { req := false }
  show p.answered.length < p.sent.length
  rw [hs, ha]
  exact Nat.lt_succ_self 1

theorem commandLoop_asks_late : ∃ status stats,
    askingLibrary.dump (commandJson (lit "status") .null) = .ok status ∧
    askingLibrary.dump (commandJson (lit "stats") .null) = .ok stats ∧
    Asked askingLibrary lateInputs [status, stats] [(status, lit "ok")] := by
  obtain ⟨status, stats, hstatus, hstats, h⟩ := commandLoop_late
  obtain ⟨hs, ha⟩ := h 4 (by decide)
  have hasked := commandLoop_asks lawful_reference askingLibrary lateInputs
  refine ⟨status, stats, hstatus, hstats, ?_⟩
  rw [← hs, ← ha]
  exact hasked

end Kpacket
