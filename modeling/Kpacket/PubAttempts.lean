import Kpacket.PubStream

/-!
# What the publisher has tried

`tried` lists the packets whose attempt is over, in the order they were taken (`taken_eq_tried`),
each with its message if one was handed to the socket. A message has the number of its place in this
list, counted from one (`messageId_of_tried`).
-/

namespace Kpacket

open Lts

/-- The end of an attempt to send, with the message if there was one. -/
def Label.tried? : Label → Option (PacketInfo × Option SentMessage)
  | .publisher (.send packet messageId frames) => some (packet, some ⟨packet, messageId, frames⟩)
  | .publisher (.fail packet _) => some (packet, none)
  | _ => none

/-- The packet that the publisher has taken and not tried to send. -/
def ZmqRelay.untried (r : ZmqRelay) : Option PacketInfo := r.sequencer.work.untried

namespace PubStream

def tried (tr : List Label) : List (PacketInfo × Option SentMessage) := tr.filterMap Label.tried?

variable (tr : List Label)

theorem sent_eq_tried : sent tr = (tried tr).filterMap Prod.snd := by
  rw [sent, tried, List.filterMap_filterMap]
  congr 1
  funext l
  cases l <;> first | rfl | (rename_i e; cases e <;> rfl)

theorem attempts_pubEvents : Sequencer.attempts (tr.filterMap Label.pubEvent?) =
    (tried tr).map fun t => (t.1, t.2.map SentMessage.messageId) := by
  rw [Sequencer.attempts, List.filterMap_filterMap, tried, List.map_filterMap]
  congr 1
  funext l
  cases l <;> first | rfl | (rename_i e; cases e <;> rfl)

variable {tr} {env : Env} {s : System}

theorem packet_of_tried {packet : PacketInfo} {m : SentMessage}
    (h : (packet, some m) ∈ tried tr) : m.packet = packet := by
  obtain ⟨l, -, hl⟩ := List.mem_filterMap.mp h
  rcases l with ⟨i, e⟩ | e | e | e | e
  case publisher =>
    cases e with
    | send => cases hl; rfl
    | _ => cases hl
  all_goals cases hl

theorem taken_eq_tried (h : Run (System.step env) {} tr s) :
    taken tr = (tried tr).map Prod.fst ++ s.relay.untried.toList := by
  have ht := Sequencer.taken_eq_attempts (run_sequencer h)
  rwa [taken_pubEvents, attempts_pubEvents, List.map_map] at ht

theorem messageId_of_tried (h : Run (System.step env) {} tr s) {k : Nat} {packet : PacketInfo}
    {m : SentMessage} (hk : (tried tr)[k]? = some (packet, some m)) :
    m.messageId = .ofNat (k + 1) := by
  refine (Sequencer.numbered (run_sequencer h)).numbers k packet m.messageId ?_
  rw [attempts_pubEvents, List.getElem?_map, hk]
  rfl

end PubStream

end Kpacket
