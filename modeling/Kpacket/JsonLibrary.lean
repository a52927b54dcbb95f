import Kpacket.JsonText

/-!
# The JSON library as the relay uses it

`dump`, `parse` and the conversion of a double to `uint16_t` are parameters (`JsonLibrary`); of
`dump` only `LawfulDump` is used: it writes a text of the value, and throws on strings that are
not UTF-8. Lookups and conversions are defined here with the exceptions they throw. `Outcome` is
what running code comes to: a value, an exception with its `what()`, or undefined behaviour.
-/

namespace Kpacket

structure JsonLibrary where
  dump : Json → Except Bytes Bytes
  parse : Bytes → Except Bytes Json
  doubleToUInt16 : Rat → UInt16

/-- What is relied on of `dump`, for values without floats. -/
structure LawfulDump (dump : Json → Except Bytes Bytes) : Prop where
  read : ∀ {j : Json} {s : Bytes}, j.Plain → dump j = .ok s → JsonText.read s = some j
  ok : ∀ {j : Json}, j.Plain → j.Utf8 → ∃ s, dump j = .ok s
  utf8 : ∀ {j : Json} {s : Bytes}, j.Plain → dump j = .ok s → j.Utf8

/-- The compact writer as a `dump`; `what` is the message of its exception. -/
def compactDump (what : Bytes) (j : Json) : Except Bytes Bytes :=
  match JsonText.write j with
  | some s => .ok s
  | none => .error what

theorem lawfulDump_compactDump (what : Bytes) : LawfulDump (compactDump what) := by
  have key : ∀ {j : Json} {s : Bytes}, compactDump what j = .ok s → JsonText.write j = some s := by
    intro j s h
    unfold compactDump at h
    split at h
    · next hw => cases h; exact hw
    · cases h
  refine ⟨fun hp h => JsonText.read_write (key h) hp, fun {j} hp hu => ?_,
    fun {j s} _ h => JsonText.utf8_of_write j s (key h)⟩
  obtain ⟨w, hw⟩ := JsonText.write_of_utf8 j hp hu
  exact ⟨w, by rw [compactDump, hw]⟩

/-- A library made of the reader and the compact writer; `parseError` is the message of a text that
is not JSON. -/
def referenceJson (parseError : Bytes → Bytes) : JsonLibrary where
  dump := compactDump (lit "[json.exception.type_error.316] invalid UTF-8 byte")
  parse s :=
    match JsonText.read s with
    | some j => .ok j
    | none => .error (parseError s)
  doubleToUInt16 q := .ofInt (q.num.tdiv q.den)

/-! ### Outcomes -/

inductive Outcome (α : Type)
  | done (x : α)
  | raised (what : Bytes)
  | undefined

namespace Outcome

variable {α β : Type}

protected def bind : Outcome α → (α → Outcome β) → Outcome β
  | done x, f => f x
  | raised what, _ => raised what
  | undefined, _ => undefined

instance : Monad Outcome where
  pure := done
  bind := Outcome.bind

def ofExcept : Except Bytes α → Outcome α
  | .ok x => done x
  | .error what => raised what

/-- `try { x } catch (const std::exception& e) { return handler(e.what()); }` -/
def catching (x : Outcome α) (handler : Bytes → α) : Outcome α :=
  match x with
  | done y => done y
  | raised what => done (handler what)
  | undefined => undefined

@[simp] theorem bind_done (x : α) (f : α → Outcome β) : (done x >>= f) = f x := rfl
@[simp] theorem bind_raised (what : Bytes) (f : α → Outcome β) :
    (raised what >>= f) = raised what := rfl
@[simp] theorem bind_undefined (f : α → Outcome β) : (undefined >>= f) = undefined := rfl
@[simp] theorem catching_done (x : α) (h : Bytes → α) : (done x).catching h = done x := rfl
@[simp] theorem catching_raised (what : Bytes) (h : Bytes → α) :
    (raised what).catching h = done (h what) := rfl

theorem catching_eq_done {x : Outcome α} {h : Bytes → α} {y : α} :
    x.catching h = done y ↔ x = done y ∨ ∃ what, x = raised what ∧ y = h what := by
  cases x <;> simp [catching, eq_comm]
@[simp] theorem catching_undefined (h : Bytes → α) :
    (undefined : Outcome α).catching h = undefined :=
  rfl

theorem catching_catching (x : Outcome α) (h : Bytes → α) :
    (x.catching h).catching h = x.catching h := by
  cases x <;> rfl

theorem bind_eq_undefined {x : Outcome α} {f : α → Outcome β} :
    (x >>= f) = undefined ↔ x = undefined ∨ ∃ a, x = done a ∧ f a = undefined := by
  cases x <;> simp

theorem ofExcept_ne_undefined (x : Except Bytes α) : ofExcept x ≠ undefined := by
  cases x <;> simp [ofExcept]

theorem pure_ne_undefined (x : α) : (pure x : Outcome α) ≠ undefined := nofun

end Outcome

/-! ### Lookups and conversions -/

/-- `type_name()` -/
def typeName : Json → Bytes
  | .null => lit "null"
  | .boolean _ => lit "boolean"
  | .integer _ | .float _ => lit "number"
  | .string _ => lit "string"
  | .array _ => lit "array"
  | .object _ => lit "object"

/-- `what()` of a type error about `j`. -/
def typeError (id : Nat) (text : Bytes) (j : Json) : Bytes :=
  lit "[json.exception.type_error." ++ decimal id ++ lit "] " ++ text ++ typeName j

def indexError (j : Json) : Bytes :=
  typeError 305 (lit "cannot use operator[] with a string argument with ") j

/-- `j[k]` for a `j` that is not `const`: the element, which is inserted as null if it is missing,
and `j` afterwards. -/
def index (j : Json) (k : Bytes) : Outcome (Json × Json) :=
  match j with
  | .null => .done (.null, Json.obj [(k, .null)])
  | .object m =>
    match KeyMap.lookup k m with
    | some x => .done (x, j)
    | none => .done (.null, j.set k .null)
  | _ => .raised (indexError j)

/-- `j[k]` for a `const` `j`: there is no element to return for a missing key. -/
def constIndex (j : Json) (k : Bytes) : Outcome Json :=
  match j with
  | .object m =>
    match KeyMap.lookup k m with
    | some x => .done x
    | none => .undefined
  | _ => .raised (indexError j)

/-- `j.value(k, default)` -/
def valueOr (j : Json) (k : Bytes) (default : Json) : Outcome Json :=
  match j with
  | .object m => .done ((KeyMap.lookup k m).getD default)
  | _ => .raised (typeError 306 (lit "cannot use value() with ") j)

/-- The conversion to `std::string`. -/
def getString : Json → Outcome Bytes
  | .string s => .done s
  | j => .raised (typeError 302 (lit "type must be string, but is ") j)

/-- The conversion to `uint16_t`. -/
def JsonLibrary.getUInt16 (lib : JsonLibrary) : Json → Outcome UInt16
  | .integer n => .done (UInt16.ofInt n)
  | .float q => .done (lib.doubleToUInt16 q)
  | .boolean b => .done (if b then 1 else 0)
  | j => .raised (typeError 302 (lit "type must be number, but is ") j)

/-- The conversion to `uint64_t`, the library's own type of unsigned numbers; `ofDouble` is that of
a double. -/
def getUInt64 (ofDouble : Rat → UInt64) : Json → Outcome UInt64
  | .integer n => .done (UInt64.ofInt n)
  | .float q => .done (ofDouble q)
  | j => .raised (typeError 302 (lit "type must be number, but is ") j)

theorem getUInt64_toNat (ofDouble : Rat → UInt64) (n : UInt64) :
    getUInt64 ofDouble (.integer n.toNat) = .done n := by
  have := n.toNat_lt
  have hn : ((n.toNat : Int) % 2 ^ 64).toNat = n.toNat := by omega
  rw [getUInt64, UInt64.ofInt, hn, UInt64.ofNat_toNat]

theorem getString_ne_undefined (j : Json) : getString j ≠ .undefined := by
  cases j <;> simp [getString]

theorem JsonLibrary.getUInt16_ne_undefined (lib : JsonLibrary) (j : Json) :
    lib.getUInt16 j ≠ .undefined := by
  cases j <;> simp [JsonLibrary.getUInt16]

theorem JsonLibrary.getUInt16_toNat (lib : JsonLibrary) (n : UInt16) :
    lib.getUInt16 (.integer n.toNat) = .done n := by
  have := n.toNat_lt
  have hn : ((n.toNat : Int) % 2 ^ 16).toNat = n.toNat := by omega
  rw [getUInt16, UInt16.ofInt, hn, UInt16.ofNat_toNat]

theorem valueOr_ne_undefined (j : Json) (k : Bytes) (default : Json) :
    valueOr j k default ≠ .undefined := by
  cases j <;> simp [valueOr]

theorem index_ne_undefined (j : Json) (k : Bytes) : index j k ≠ .undefined := by
  cases j with
  | object m => simp only [index]; cases KeyMap.lookup k m <;> simp
  | _ => simp [index]

theorem constIndex_eq_undefined {j : Json} {k : Bytes} :
    constIndex j k = .undefined ↔ ∃ fields, j = .object fields ∧ KeyMap.lookup k fields = none := by
  cases j with
  | object fields =>
    simp only [constIndex]
    cases hk : KeyMap.lookup k fields <;> simp [hk]
  | _ => simp [constIndex]

theorem constIndex_eq_done {j x : Json} {k : Bytes} :
    constIndex j k = .done x ↔ j.lookup k = some x := by
  cases j with
  | object fields =>
    simp only [constIndex, Json.lookup]
    cases KeyMap.lookup k fields <;> simp
  | _ => simp [constIndex, Json.lookup]

theorem index_of_lookup {j x : Json} {k : Bytes} (h : j.lookup k = some x) :
    index j k = .done (x, j) := by
  cases j with
  | object m => rw [index, show KeyMap.lookup k m = some x from h]
  | _ => cases h

theorem index_eq_string {j j' : Json} {k s : Bytes} (h : index j k = .done (.string s, j')) :
    j.lookup k = some (.string s) ∧ j' = j := by
  rcases j with _ | _ | _ | _ | _ | _ | fields <;> try cases h
  simp only [index] at h
  split at h
  · next x hx =>
    cases h
    exact ⟨hx, rfl⟩
  · cases h

theorem getString_eq_done {j : Json} {s : Bytes} (h : getString j = .done s) : j = .string s := by
  rcases j with _ | _ | _ | _ | t | _ | _ <;> cases h
  rfl

theorem valueOr_of_lookup {j x : Json} {k : Bytes} (h : j.lookup k = some x) (default : Json) :
    valueOr j k default = .done x := by
  cases j with
  | object m => rw [valueOr, show KeyMap.lookup k m = some x from h, Option.getD_some]
  | _ => cases h

end Kpacket
