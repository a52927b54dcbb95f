import Kpacket.CommandReplies

/-!
# The id of an `inject` request

The conversion to `uint16_t` wraps integers around, truncates floats and counts booleans as
numbers, so the injector is called with ids that were not asked for. A request keeps its target
exactly if its id is in range or is no number at all (`inject_targets_iff`).
-/

namespace Kpacket

/-- The kinds that convert to a number. -/
def isNumeric : Json → Bool
  | .boolean _ | .integer _ | .float _ => true
  | _ => false

/-- The value is a JSON integer and its exact value is `n`. -/
def IsId (x : Json) (n : UInt16) : Prop := x = .integer n.toNat

/-- The injector is called with the id asked for and no other, and where no id was asked for there
is an error reply, no call and nothing counted. -/
structure Targets (x : Json) (handled : Handled) : Prop where
  called : ∀ c ∈ handled.calls, IsId x c.1
  rejected : (∀ n, ¬ IsId x n) → handled.calls = [] ∧ handled.injected = false ∧
    ∃ reply what, handled.outcome = .done reply ∧ JsonText.read reply = some (errorObject what)

theorem NeedsNoEscape.append {s t : Bytes} (hs : NeedsNoEscape s) (ht : NeedsNoEscape t) :
    NeedsNoEscape (s ++ t) := by
  refine ⟨fun c hc => ?_, hs.2.append ht.2⟩
  rcases List.mem_append.mp hc with hc | hc
  · exact hs.1 c hc
  · exact ht.1 c hc

def numberError (x : Json) : Bytes := typeError 302 (lit "type must be number, but is ") x

instance (s : Bytes) : Decidable (NeedsNoEscape s) := inferInstanceAs (Decidable (_ ∧ _))

theorem needsNoEscape_typeName (x : Json) : NeedsNoEscape (typeName x) := by
  cases x with
  | null => exact (by decide +kernel : NeedsNoEscape (lit "null"))
  | boolean b => exact (by decide +kernel : NeedsNoEscape (lit "boolean"))
  | integer n | float q => exact (by decide +kernel : NeedsNoEscape (lit "number"))
  | string s => exact (by decide +kernel : NeedsNoEscape (lit "string"))
  | array xs => exact (by decide +kernel : NeedsNoEscape (lit "array"))
  | object m => exact (by decide +kernel : NeedsNoEscape (lit "object"))

theorem needsNoEscape_typeError {n : Nat} {text : Bytes}
    (h : NeedsNoEscape (lit "[json.exception.type_error." ++ decimal n ++ lit "] " ++ text))
    (x : Json) : NeedsNoEscape (typeError n text x) :=
  h.append (needsNoEscape_typeName x)

theorem needsNoEscape_numberError (x : Json) : NeedsNoEscape (numberError x) :=
  needsNoEscape_typeError (by decide +kernel) x

/-- Numbers and booleans convert to some id, everything else throws. -/
theorem JsonLibrary.getUInt16_cases (lib : JsonLibrary) (x : Json) :
    (isNumeric x = true ∧ ∃ n, lib.getUInt16 x = .done n) ∨
      (isNumeric x = false ∧ lib.getUInt16 x = .raised (numberError x)) := by
  cases x with
  | boolean b => exact .inl ⟨rfl, _, rfl⟩
  | integer n => exact .inl ⟨rfl, _, rfl⟩
  | float q => exact .inl ⟨rfl, _, rfl⟩
  | null => exact .inr ⟨rfl, rfl⟩
  | string s => exact .inr ⟨rfl, rfl⟩
  | array xs => exact .inr ⟨rfl, rfl⟩
  | object m => exact .inr ⟨rfl, rfl⟩

section

variable {env : Env} {params x : Json} {dataStr : Bytes}

/-- An `inject` request gets exactly the packet it asks for, or an error, if there is no injector,
the id is an integer from 0 to 65535, or it is of a kind that does not convert; and `ProcessCommand`
adds nothing to it. -/
theorem inject_targets_iff (r : ZmqRelay) (hid : params.lookup (lit "id") = some x)
    (hdata : params.lookup (lit "data") = some (.string dataStr)) :
    (Targets x (handleInjectCommand env r params) ↔
        r.packetInjector = none ∨ (∃ n, IsId x n) ∨ isNumeric x = false) ∧
      ∀ uptime request, readCommand env request = .done (lit "inject", params) →
        processCommand env r uptime request = handleInjectCommand env r params := by
  refine ⟨?_, fun uptime request h => processCommand_inject r uptime h⟩
  have hread := @readInject_eq env params x dataStr hid hdata
  cases hi : r.packetInjector with
  | none =>
    simp only [handleInjectCommand, hi, true_or, iff_true]
    refine ⟨fun c hc => absurd hc List.not_mem_nil, fun _ => ⟨rfl, rfl, ?_⟩⟩
    exact ⟨injectionNotAvailableReply, _, rfl, rfl⟩
  | some packetInjector =>
    rcases env.json.getUInt16_cases x with ⟨hx, n, hn⟩ | ⟨hx, hn⟩
    · -- the injector is called, with the id the value converts to
      have hcalls : (handleInjectCommand env r params).calls = [(n, [])] := by
        rw [hn, Outcome.bind_done] at hread
        simp only [handleInjectCommand, hi, hread]
        cases packetInjector n [] <;> rfl
      simp only [reduceCtorEq, hx, false_or, or_false]
      constructor
      · intro h
        refine ⟨n, h.called (n, []) ?_⟩
        rw [hcalls]; exact List.mem_singleton.mpr rfl
      · rintro ⟨m, rfl⟩
        rw [env.json.getUInt16_toNat] at hn
        obtain rfl := Outcome.done.inj hn
        refine ⟨?_, fun h => absurd rfl (h m)⟩
        rw [hcalls, List.forall_mem_singleton]
        rfl
    · rw [hn, Outcome.bind_raised] at hread
      simp only [handleInjectCommand, hi, hread, hx, or_true, iff_true]
      refine ⟨fun c hc => absurd hc List.not_mem_nil, fun _ => ⟨rfl, rfl, ?_⟩⟩
      exact ⟨_, _, rfl, (read_errorReply_iff _).mpr (needsNoEscape_numberError x)⟩

end

/-- The request `inject` without payload, with the id as it stands there. -/
def injectIdRequest (id : Bytes) : Bytes :=
  lit "\x7b\"command\": \"inject\", \"params\": \x7b\"id\": " ++ id ++
    lit ", \"data\": \"\"\x7d\x7d"

def injectIdParams (x : Json) : Json := .object [(lit "data", .string []), (lit "id", x)]

/-- A relay whose injector accepts every packet. -/
def injectingRelay : ZmqRelay := { packetInjector := some fun _ _ => .ok true }

/-- The id 10 is injected as such. -/
theorem inject_targets_ten :
    Targets (.integer 10)
      (handleInjectCommand (defaultEnv id) injectingRelay (injectIdParams (.integer 10))) :=
  (inject_targets_iff injectingRelay rfl rfl).1.mpr (.inr (.inl ⟨10, rfl⟩))

/-- The id 65546 injects the packet 10 and reports success, -1 the packet 65535, and `true` the
packet 1. -/
theorem inject_retargets :
    (processCommand (defaultEnv id) injectingRelay 5 (injectIdRequest (lit "65546"))).calls =
        [(10, [])] ∧
      (processCommand (defaultEnv id) injectingRelay 5 (injectIdRequest (lit "65546"))).injected =
        true ∧
      ¬ Targets (.integer 65546)
        (processCommand (defaultEnv id) injectingRelay 5 (injectIdRequest (lit "65546"))) ∧
      ¬ Targets (.integer (-1))
        (processCommand (defaultEnv id) injectingRelay 5 (injectIdRequest (lit "-1"))) ∧
      ¬ Targets (.boolean true)
        (processCommand (defaultEnv id) injectingRelay 5 (injectIdRequest (lit "true"))) := by
  refine ⟨rfl, rfl, fun h => ?_, fun h => ?_, fun h => ?_⟩
  · cases h.called (10, []) (List.mem_singleton.mpr rfl)
  · cases h.called (65535, []) (List.mem_singleton.mpr rfl)
  · cases h.called (1, []) (List.mem_singleton.mpr rfl)

end Kpacket
