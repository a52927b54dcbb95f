/-!
# A socket that asks and waits for the answer

What a program sees of a request socket, as a parameter, and the rules that it keeps: it sends a
request and receives its reply, in turn; any other call throws, and so does a call that fails. A
call that runs into its time limit has no value and changes nothing: a socket whose reply is late
goes on waiting for it. `reference` keeps the rules.
-/

universe u v

namespace ReqSocket

/-- What becomes of a request that the socket may send. -/
inductive Sending
  | accepted
  | again
  | failed
deriving DecidableEq

/-- What becomes of a reply that the socket may receive. -/
inductive Receiving (α : Type v)
  | received (reply : α)
  | again
  | failed
deriving DecidableEq

end ReqSocket

open ReqSocket

/-- The calls of a socket with states `σ` and replies `α`. -/
structure ReqSocket (σ : Type u) (α : Type v) where
  opened : σ
  /-- Whether the request was taken; `none` is an exception. -/
  send : σ → Sending → Option Bool × σ
  /-- The reply, if one came in time; `none` is an exception. -/
  receive : σ → Receiving α → Option (Option α) × σ

namespace ReqSocket

variable {σ : Type u} {α : Type v}

/-- The rules, where `awaits` says whether a reply is awaited. -/
structure Lawful (sock : ReqSocket σ α) (awaits : σ → Bool) : Prop where
  opened : awaits sock.opened = false
  send_waiting {s : σ} (sending : Sending) (h : awaits s = true) :
    ∃ s', sock.send s sending = (none, s') ∧ awaits s' = true
  send_accepted {s : σ} (h : awaits s = false) :
    ∃ s', sock.send s .accepted = (some true, s') ∧ awaits s' = true
  send_again {s : σ} (h : awaits s = false) :
    ∃ s', sock.send s .again = (some false, s') ∧ awaits s' = false
  send_failed {s : σ} (h : awaits s = false) :
    ∃ s', sock.send s .failed = (none, s') ∧ awaits s' = false
  receive_idle {s : σ} (receiving : Receiving α) (h : awaits s = false) :
    ∃ s', sock.receive s receiving = (none, s') ∧ awaits s' = false
  receive_received {s : σ} (reply : α) (h : awaits s = true) :
    ∃ s', sock.receive s (.received reply) = (some (some reply), s') ∧ awaits s' = false
  receive_again {s : σ} (h : awaits s = true) :
    ∃ s', sock.receive s .again = (some none, s') ∧ awaits s' = true
  receive_failed {s : σ} (h : awaits s = true) :
    ∃ s', sock.receive s .failed = (none, s') ∧ awaits s' = true

/-- A socket that is its own state. -/
def reference (α : Type v) : ReqSocket Bool α where
  opened := false
  send
    | true, _ => (none, true)
    | false, .accepted => (some true, true)
    | false, .again => (some false, false)
    | false, .failed => (none, false)
  receive
    | false, _ => (none, false)
    | true, .received reply => (some (some reply), false)
    | true, .again => (some none, true)
    | true, .failed => (none, true)

theorem lawful_reference : (reference α).Lawful id where
  opened := rfl
  send_waiting := by rintro _ sending ⟨⟩; exact ⟨true, rfl, rfl⟩
  send_accepted := by rintro _ ⟨⟩; exact ⟨true, rfl, rfl⟩
  send_again := by rintro _ ⟨⟩; exact ⟨false, rfl, rfl⟩
  send_failed := by rintro _ ⟨⟩; exact ⟨false, rfl, rfl⟩
  receive_idle := by rintro _ receiving ⟨⟩; exact ⟨false, rfl, rfl⟩
  receive_received := by rintro _ reply ⟨⟩; exact ⟨false, rfl, rfl⟩
  receive_again := by rintro _ ⟨⟩; exact ⟨true, rfl, rfl⟩
  receive_failed := by rintro _ ⟨⟩; exact ⟨true, rfl, rfl⟩

end ReqSocket
