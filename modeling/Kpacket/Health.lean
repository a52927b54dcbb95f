import Kpacket.Histories
import Kpacket.ReqSocket

/-!
# The health thread of the monitor

`HealthThread` asks for the status about once a second and stores in the model what comes of it.
`healthThread_running_iff` says when it goes on, and what it has stored: a socket whose reply is
late still waits for it, so that the next request throws, unless the socket has been replaced, which
takes three turns without an answer. With an endpoint that takes every request that never happens
(`healthThread_accepted`).
-/

namespace Kpacket

open Lts ReqSocket

/-- What one turn of the loop meets; `reopens` if the new socket is made and connected. -/
structure HealthTurn where
  sending : Sending
  receiving : Receiving Unit
  reopens : Bool
  nowMs : Int

/-- What `HealthThread` stores in the model. -/
inductive HealthStore
  | isConnected (value : Bool)
  | lastHealthOkMs (nowMs : Int)
deriving DecidableEq

/-- The locals of `HealthThread`; `opened` counts its sockets. -/
structure Health (σ : Type) where
  running : Bool := true
  req : σ
  opened : Nat := 1
  consecutiveFail : Nat := 0

namespace Health

variable {σ : Type} (sock : ReqSocket σ Unit)

/-- `catch (...)` around the loop, after `stores` -/
def caught (h : Health σ) (stores : List HealthStore) : Health σ × List HealthStore :=
  ({ h with running := false }, stores ++ [.isConnected false])

/-- Two turns without an answer and the screen is told; after three the socket is replaced. -/
def failedTurn (h : Health σ) (t : HealthTurn) (req : σ) : Health σ × List HealthStore :=
  let h := { h with req := req, consecutiveFail := h.consecutiveFail + 1 }
  let stores := if h.consecutiveFail ≥ 2 then [.isConnected false] else []
  if h.consecutiveFail ≥ 3 then
    if t.reopens then ({ h with req := sock.opened, opened := h.opened + 1 }, stores)
    else h.caught stores
  else (h, stores)

/-- One turn, with what it stores. -/
def turn (h : Health σ) (t : HealthTurn) : Health σ × List HealthStore :=
  if !h.running then (h, [])
  else match sock.send h.req t.sending with
    | (none, req) => { h with req := req }.caught []
    | (some okSend, req) =>
      match if okSend then sock.receive req t.receiving else (some none, req) with
      | (none, req) => { h with req := req }.caught []
      | (some (some ()), req) =>
        ({ h with req := req, consecutiveFail := 0 }, [.isConnected true, .lastHealthOkMs t.nowMs])
      | (some none, req) => h.failedTurn sock t req

end Health

/-- `HealthThread`, from its first socket on, with what it has stored. -/
def healthThread {σ : Type} (sock : ReqSocket σ Unit) (turns : List HealthTurn) :
    Health σ × List HealthStore :=
  turns.foldl (fun x t => ((x.1.turn sock t).1, x.2 ++ (x.1.turn sock t).2))
    ({ req := sock.opened }, [])

namespace HealthTurn

/-- Taken by itself: the socket is ready to send. -/
def answered (t : HealthTurn) : Prop := t.sending = .accepted ∧ t.receiving = .received ()

def missed (t : HealthTurn) : Prop := t.sending = .accepted ∧ t.receiving = .again

def throws (t : HealthTurn) : Prop :=
  t.sending = .failed ∨ t.sending = .accepted ∧ t.receiving = .failed

instance (t : HealthTurn) : Decidable t.answered := inferInstanceAs (Decidable (_ ∧ _))
instance (t : HealthTurn) : Decidable t.missed := inferInstanceAs (Decidable (_ ∧ _))
instance (t : HealthTurn) : Decidable t.throws := inferInstanceAs (Decidable (_ ∨ _))

/-- The turns since the last answer. -/
def streak (past : List HealthTurn) : Nat :=
  (past.reverse.takeWhile fun t => ¬ t.answered).length

/-- How often three turns went by without an answer. -/
def replaced (turns : List HealthTurn) : Nat :=
  (history (fun past t => if ¬ t.answered ∧ 2 ≤ streak past then some t else none) turns).length

/-- What is stored in turns that do not throw. -/
def stores (past : List HealthTurn) (t : HealthTurn) : List HealthStore :=
  if t.answered then [.isConnected true, .lastHealthOkMs t.nowMs]
  else if 1 ≤ streak past then [.isConnected false]
  else []

def stored (turns : List HealthTurn) : List HealthStore :=
  (history (fun past t => some (stores past t)) turns).flatten

/-- The socket still waits for a reply, and has not been replaced. -/
def Waits (past : List HealthTurn) : Prop :=
  (∃ t, past.getLast? = some t ∧ t.missed) ∧ streak past < 3

/-- The turn does not end the thread. -/
structure Survives (past : List HealthTurn) (t : HealthTurn) : Prop where
  ready : ¬ Waits past
  quiet : ¬ t.throws
  reopens : ¬ t.answered → 2 ≤ streak past → t.reopens = true

variable {t : HealthTurn}

theorem answered.quiet (h : t.answered) : ¬ t.throws := by
  rintro (hs | ⟨-, hf⟩)
  · cases h.1.symm.trans hs
  · cases h.2.symm.trans hf

theorem missed.quiet (h : t.missed) : ¬ t.throws := by
  rintro (hs | ⟨-, hf⟩)
  · cases h.1.symm.trans hs
  · cases h.2.symm.trans hf

theorem missed.not_answered (h : t.missed) : ¬ t.answered := fun ha => by cases ha.2.symm.trans h.2

theorem streak_snoc (past : List HealthTurn) (t : HealthTurn) :
    streak (past ++ [t]) = if t.answered then 0 else streak past + 1 := by
  unfold streak
  rw [List.reverse_append, List.reverse_singleton, List.singleton_append, List.takeWhile_cons]
  by_cases h : t.answered <;> simp [h]

theorem waits_snoc (past : List HealthTurn) (t : HealthTurn) :
    Waits (past ++ [t]) ↔ t.missed ∧ streak past < 2 := by
  unfold Waits
  rw [List.getLast?_concat, streak_snoc]
  constructor
  · rintro ⟨⟨_, ⟨⟩, hm⟩, hs⟩
    rw [if_neg hm.not_answered] at hs
    exact ⟨hm, by omega⟩
  · rintro ⟨hm, hs⟩
    rw [if_neg hm.not_answered]
    exact ⟨⟨t, rfl, hm⟩, by omega⟩

theorem replaced_snoc (past : List HealthTurn) (t : HealthTurn) :
    replaced (past ++ [t]) = replaced past + if ¬ t.answered ∧ 2 ≤ streak past then 1 else 0 := by
  unfold replaced
  rw [history_snoc, List.length_append]
  split_ifs <;> rfl

theorem stored_snoc (past : List HealthTurn) (t : HealthTurn) :
    stored (past ++ [t]) = stored past ++ stores past t := by
  unfold stored
  rw [history_snoc, List.flatten_append]
  simp

end HealthTurn

open HealthTurn

namespace Health

variable {σ : Type} {sock : ReqSocket σ Unit} {awaits : σ → Bool} {h : Health σ} {t : HealthTurn}

theorem turn_ended (hr : h.running = false) : h.turn sock t = (h, []) := by
  rw [turn, hr]
  rfl

section

variable (hsock : sock.Lawful awaits)
include hsock

theorem turn_waiting (hw : awaits h.req = true) (hr : h.running = true) :
    ∃ req, h.turn sock t = { h with req := req }.caught [] := by
  obtain ⟨req, hs, -⟩ := hsock.send_waiting t.sending hw
  refine ⟨req, ?_⟩
  rw [turn, hr, hs]
  rfl

variable (hw : awaits h.req = false) (hr : h.running = true)
include hw hr

theorem turn_answered (ha : t.answered) : ∃ req, awaits req = false ∧ h.turn sock t =
    ({ h with req := req, consecutiveFail := 0 },
      [.isConnected true, .lastHealthOkMs t.nowMs]) := by
  obtain ⟨req, hs, hreq⟩ := hsock.send_accepted hw
  obtain ⟨req', hrec, hreq'⟩ := hsock.receive_received () hreq
  refine ⟨req', hreq', ?_⟩
  simp only [turn, hr, ha.1, ha.2, hs, hrec, if_true]
  rfl

theorem turn_throws (ht : t.throws) :
    ∃ req, h.turn sock t = { h with req := req }.caught [] := by
  rcases ht with hf | ⟨ha, hf⟩
  · obtain ⟨req, hs, -⟩ := hsock.send_failed hw
    refine ⟨req, ?_⟩
    rw [turn, hr, hf, hs]
    rfl
  · obtain ⟨req, hs, hreq⟩ := hsock.send_accepted hw
    obtain ⟨req', hrec, -⟩ := hsock.receive_failed hreq
    refine ⟨req', ?_⟩
    simp only [turn, hr, ha, hf, hs, hrec, if_true]
    rfl

theorem turn_failed (ha : ¬ t.answered) (ht : ¬ t.throws) :
    ∃ req, awaits req = decide t.missed ∧ h.turn sock t = h.failedTurn sock t req := by
  cases hs : t.sending with
  | failed => exact absurd (.inl hs) ht
  | again =>
    obtain ⟨req, hsend, hreq⟩ := hsock.send_again hw
    have hm : ¬ t.missed := by
      rintro ⟨hs', -⟩
      cases hs.symm.trans hs'
    refine ⟨req, by rw [hreq, decide_eq_false hm], ?_⟩
    simp only [turn, hr, hs, hsend]
    rfl
  | accepted =>
    obtain ⟨req, hsend, hreq⟩ := hsock.send_accepted hw
    cases hrec : t.receiving with
    | received reply => exact absurd ⟨hs, hrec⟩ ha
    | failed => exact absurd (.inr ⟨hs, hrec⟩) ht
    | again =>
      obtain ⟨req', hreceive, hreq'⟩ := hsock.receive_again hreq
      refine ⟨req', by rw [hreq', decide_eq_true ⟨hs, hrec⟩], ?_⟩
      simp only [turn, hr, hs, hrec, hsend, hreceive, if_true]
      rfl

end

theorem failedTurn_replaces {req : σ} (h2 : 2 ≤ h.consecutiveFail) :
    h.failedTurn sock t req = if t.reopens
      then ({ h with
        req := sock.opened
        opened := h.opened + 1
        consecutiveFail := h.consecutiveFail + 1 }, [.isConnected false])
      else { h with req := req, consecutiveFail := h.consecutiveFail + 1 }.caught
        [.isConnected false] := by
  have h2' : h.consecutiveFail + 1 ≥ 2 := by omega
  have h3' : h.consecutiveFail + 1 ≥ 3 := by omega
  simp only [failedTurn, if_pos h2', if_pos h3']

theorem failedTurn_keeps {req : σ} (h2 : h.consecutiveFail < 2) :
    h.failedTurn sock t req = ({ h with req := req, consecutiveFail := h.consecutiveFail + 1 },
      if 1 ≤ h.consecutiveFail then [.isConnected false] else []) := by
  have h3 : ¬ h.consecutiveFail + 1 ≥ 3 := by omega
  simp only [failedTurn, if_neg h3]
  congr 1
  exact if_congr (by omega) rfl rfl

end Health

/-- The thread after turns that it has come through, and what it has stored. -/
structure Health.Tracks {σ : Type} (awaits : σ → Bool) (turns : List HealthTurn)
    (x : Health σ × List HealthStore) : Prop where
  running : x.1.running = true
  consecutiveFail : x.1.consecutiveFail = streak turns
  opened : x.1.opened = 1 + replaced turns
  req : awaits x.1.req = true ↔ Waits turns
  stored : x.2 = stored turns

namespace Health

variable {σ : Type} {sock : ReqSocket σ Unit} {awaits : σ → Bool} {past : List HealthTurn}
  {x : Health σ × List HealthStore} {t : HealthTurn}

theorem Tracks.turn (hsock : sock.Lawful awaits) (ht : Tracks awaits past x)
    (hs : Survives past t) :
    Tracks awaits (past ++ [t]) ((x.1.turn sock t).1, x.2 ++ (x.1.turn sock t).2) := by
  obtain ⟨h, stores⟩ := x
  have hreq : awaits h.req = false := eq_false_of_ne_true fun hw => hs.ready (ht.req.mp hw)
  have hfail : h.consecutiveFail = streak past := ht.consecutiveFail
  have hopened : h.opened = 1 + replaced past := ht.opened
  have hstored : stores = HealthTurn.stored past := ht.stored
  have hstreak := streak_snoc past t
  have hreplaced := replaced_snoc past t
  have hsnoc := stored_snoc past t
  unfold HealthTurn.stores at hsnoc
  by_cases ha : t.answered
  · obtain ⟨req, hw, hturn⟩ := turn_answered hsock hreq ht.running ha
    rw [if_pos ha] at hstreak hsnoc
    rw [if_neg fun hn => hn.1 ha] at hreplaced
    rw [hturn]
    refine ⟨ht.running, hstreak.symm, by rw [hreplaced]; exact hopened, ?_, by rw [hsnoc, hstored]⟩
    rw [waits_snoc]
    exact iff_of_false (by rw [hw]; exact Bool.false_ne_true) fun hm => hm.1.not_answered ha
  · obtain ⟨req, hw, hturn⟩ := turn_failed hsock hreq ht.running ha hs.quiet
    rw [if_neg ha] at hstreak hsnoc
    by_cases h2 : h.consecutiveFail < 2
    · rw [if_neg (by omega)] at hreplaced
      rw [hturn, failedTurn_keeps h2]
      refine ⟨ht.running, by rw [hstreak, ← hfail], by rw [hreplaced]; exact hopened, ?_, ?_⟩
      · rw [waits_snoc, hw, decide_eq_true_eq]
        exact ⟨fun hm => ⟨hm, by omega⟩, And.left⟩
      · rw [hsnoc, hstored, hfail]
    · rw [if_pos ⟨ha, by omega⟩] at hreplaced
      rw [if_pos (by omega)] at hsnoc
      rw [hturn, failedTurn_replaces (by omega), if_pos (hs.reopens ha (by omega))]
      refine ⟨ht.running, by rw [hstreak, ← hfail], by show h.opened + 1 = _; omega, ?_,
        by rw [hsnoc, hstored]⟩
      rw [waits_snoc]
      exact iff_of_false (by rw [hsock.opened]; exact Bool.false_ne_true) (by omega)

theorem Tracks.ends (hsock : sock.Lawful awaits) (ht : Tracks awaits past x)
    (hs : ¬ Survives past t) : (x.1.turn sock t).1.running = false ∧
      (x.1.turn sock t).2.getLast? = some (.isConnected false) := by
  obtain ⟨h, stores⟩ := x
  by_cases hw : Waits past
  · obtain ⟨req, hturn⟩ := turn_waiting (t := t) hsock (ht.req.mpr hw) ht.running
    rw [hturn]
    exact ⟨rfl, rfl⟩
  · have hreq : awaits h.req = false := eq_false_of_ne_true fun hw' => hw (ht.req.mp hw')
    by_cases hthrow : t.throws
    · obtain ⟨req, hturn⟩ := turn_throws hsock hreq ht.running hthrow
      rw [hturn]
      exact ⟨rfl, rfl⟩
    · have hr : ¬ (¬ t.answered → 2 ≤ streak past → t.reopens = true) :=
        fun hr => hs ⟨hw, hthrow, hr⟩
      push Not at hr
      obtain ⟨ha, h2, hr⟩ := hr
      obtain ⟨req, -, hturn⟩ := turn_failed hsock hreq ht.running ha hthrow
      have hfail : h.consecutiveFail = streak past := ht.consecutiveFail
      rw [hturn, failedTurn_replaces (by omega), if_neg hr]
      exact ⟨rfl, rfl⟩

end Health

section

variable {σ : Type} {sock : ReqSocket σ Unit} {awaits : σ → Bool}

theorem healthThread_snoc (turns : List HealthTurn) (t : HealthTurn) :
    healthThread sock (turns ++ [t]) = (((healthThread sock turns).1.turn sock t).1,
      (healthThread sock turns).2 ++ ((healthThread sock turns).1.turn sock t).2) := by
  rw [healthThread, List.foldl_append]
  rfl

/-- The thread goes on as long as every turn is one that it survives after those before. While it
does, its locals and its stores are those of the turns; when it has ended, the last it has stored is
that there is no connection. -/
theorem healthThread_running_iff (hsock : sock.Lawful awaits) (turns : List HealthTurn) :
    ((healthThread sock turns).1.running = true ↔ ∀ pre t, pre ++ [t] <+: turns → Survives pre t) ∧
      ((healthThread sock turns).1.running = true →
        Health.Tracks awaits turns (healthThread sock turns)) ∧
      ((healthThread sock turns).1.running = false →
        (healthThread sock turns).2.getLast? = some (.isConnected false)) := by
  induction turns using List.reverseRecOn with
  | nil =>
    have hw : ¬ Waits [] := by rintro ⟨⟨t, ⟨⟩, -⟩, -⟩
    refine ⟨iff_of_true rfl fun pre t hp => ?_, fun _ => ⟨rfl, rfl, rfl, ?_, rfl⟩, nofun⟩
    · simp at hp
    · exact iff_of_false (by simp [healthThread, hsock.opened]) hw
  | append_singleton turns t ih =>
    obtain ⟨hiff, htracks, hends⟩ := ih
    have hall : (∀ pre u, pre ++ [u] <+: turns ++ [t] → Survives pre u) ↔
        (∀ pre u, pre ++ [u] <+: turns → Survives pre u) ∧ Survives turns t := by
      constructor
      · intro h
        exact ⟨fun pre u hp => h pre u (hp.trans (List.prefix_append ..)),
          h turns t (List.prefix_refl _)⟩
      · rintro ⟨h, ht⟩ pre u hp
        rcases List.prefix_concat_iff.mp hp with heq | hp
        · obtain ⟨rfl, hu⟩ := List.append_inj' heq rfl
          cases hu
          exact ht
        · exact h pre u hp
    rw [healthThread_snoc, hall, ← hiff]
    cases hr : (healthThread sock turns).1.running with
    | false =>
      rw [Health.turn_ended hr, List.append_nil]
      refine ⟨by simp [hr], fun h => ?_, fun _ => hends hr⟩
      rw [hr] at h
      cases h
    | true =>
      by_cases hs : Survives turns t
      · have htr := (htracks hr).turn hsock hs
        refine ⟨iff_of_true htr.running ⟨rfl, hs⟩, fun _ => htr, fun h => ?_⟩
        rw [htr.running] at h
        cases h
      · obtain ⟨hend, hlast⟩ := (htracks hr).ends hsock hs
        refine ⟨by simp [hend, hs], fun h => ?_, fun _ => ?_⟩
        · rw [hend] at h
          cases h
        · rw [List.getLast?_append, hlast]
          rfl

/-- Three requests that nobody takes, and an answer on the second socket. -/
theorem healthThread_replaced : ∃ turns : List HealthTurn,
    turns.map HealthTurn.sending = [.again, .again, .again, .accepted] ∧
    (healthThread (reference Unit) turns).1.running = true ∧
    (healthThread (reference Unit) turns).1.opened = 2 ∧
    (healthThread (reference Unit) turns).2 =
      [.isConnected false, .isConnected false, .isConnected true, .lastHealthOkMs 4000] := by
  let turns : List HealthTurn := [⟨.again, .again, true, 1000⟩, ⟨.again, .again, true, 2000⟩,
    ⟨.again, .again, true, 3000⟩, ⟨.accepted, .received (), true, 4000⟩]
  have hrun : (healthThread (reference Unit) turns).1.running = true := rfl
  obtain ⟨-, htracks, -⟩ := healthThread_running_iff lawful_reference turns
  have htr := htracks hrun
  exact ⟨turns, rfl, hrun, htr.opened.trans (by decide), htr.stored.trans (by decide)⟩

namespace Health

/-- The thread while every request is taken. -/
inductive Accepted (awaits : σ → Bool) (turns : List HealthTurn) (h : Health σ) : Prop
  | ready (hr : h.running = true) (hw : awaits h.req = false) (hf : h.consecutiveFail = 0)
    (ha : ∀ t ∈ turns, t.answered)
  | waiting (hr : h.running = true) (hw : awaits h.req = true)
    (ha : ∀ t ∈ turns.dropLast, t.answered) (hm : ∃ t, turns.getLast? = some t ∧ t.missed)
  | ended (hr : h.running = false)
    (hn : ¬ ((∀ t ∈ turns.dropLast, t.answered) ∧ ∀ t, turns.getLast? = some t → ¬ t.throws))

theorem Accepted.running_iff {turns : List HealthTurn} {h : Health σ}
    (hacc : Accepted awaits turns h) : h.running = true ↔
      (∀ t ∈ turns.dropLast, t.answered) ∧ ∀ t, turns.getLast? = some t → ¬ t.throws := by
  cases hacc with
  | ready hr _ _ ha =>
    refine iff_of_true hr ⟨fun t ht => ha t (List.dropLast_subset _ ht), fun t ht => ?_⟩
    exact (ha t (List.mem_of_getLast? ht)).quiet
  | waiting hr _ ha hm =>
    obtain ⟨u, hu, hm⟩ := hm
    refine iff_of_true hr ⟨ha, fun t ht => ?_⟩
    cases hu.symm.trans ht
    exact hm.quiet
  | ended hr hn => exact iff_of_false (by rw [hr]; exact Bool.false_ne_true) hn

theorem Accepted.turn (hsock : sock.Lawful awaits) {turns : List HealthTurn} {h : Health σ}
    {t : HealthTurn} (hacc : Accepted awaits turns h) (hs : t.sending = .accepted) :
    Accepted awaits (turns ++ [t]) (h.turn sock t).1 ∧ (h.turn sock t).1.opened = h.opened := by
  have hlast : (turns ++ [t]).dropLast = turns := List.dropLast_concat
  have hnot : ∀ u ∈ turns, ¬ u.answered →
      ¬ ((∀ v ∈ (turns ++ [t]).dropLast, v.answered) ∧
        ∀ v, (turns ++ [t]).getLast? = some v → ¬ v.throws) := by
    rintro u hu hna ⟨ha, -⟩
    rw [hlast] at ha
    exact hna (ha u hu)
  cases hacc with
  | ready hr hw hf ha =>
    cases hrec : t.receiving with
    | received reply =>
      have hans : t.answered := ⟨hs, hrec⟩
      obtain ⟨req, hreq, hturn⟩ := turn_answered hsock hw hr hans
      rw [hturn]
      exact ⟨.ready hr hreq rfl (by simpa [or_imp, forall_and] using ⟨ha, hans⟩), rfl⟩
    | again =>
      have hm : t.missed := ⟨hs, hrec⟩
      obtain ⟨req, hreq, hturn⟩ := turn_failed hsock hw hr hm.not_answered hm.quiet
      rw [decide_eq_true hm] at hreq
      rw [hturn, failedTurn_keeps (by omega)]
      exact ⟨.waiting hr hreq (by rwa [hlast]) ⟨t, List.getLast?_concat, hm⟩, rfl⟩
    | failed =>
      have ht : t.throws := .inr ⟨hs, hrec⟩
      obtain ⟨req, hturn⟩ := turn_throws hsock hw hr ht
      rw [hturn]
      exact ⟨.ended rfl fun hg => hg.2 t List.getLast?_concat ht, rfl⟩
  | waiting hr hw ha hm =>
    obtain ⟨u, hu, hm⟩ := hm
    obtain ⟨req, hturn⟩ := turn_waiting (t := t) hsock hw hr
    rw [hturn]
    exact ⟨.ended rfl (hnot u (List.mem_of_getLast? hu) hm.not_answered), rfl⟩
  | ended hr hn =>
    rw [turn_ended hr]
    refine ⟨.ended hr ?_, rfl⟩
    rintro ⟨ha, -⟩
    rw [hlast] at ha
    exact hn ⟨fun u hu => ha u (List.dropLast_subset _ hu),
      fun u hu => (ha u (List.mem_of_getLast? hu)).quiet⟩

end Health

/-- With an endpoint that takes every request only the last reply may be late, and the socket is
never replaced. -/
theorem healthThread_accepted (hsock : sock.Lawful awaits) {turns : List HealthTurn}
    (h : ∀ t ∈ turns, t.sending = .accepted) :
    ((healthThread sock turns).1.running = true ↔
      (∀ t ∈ turns.dropLast, t.answered) ∧ ∀ t, turns.getLast? = some t → ¬ t.throws) ∧
      (healthThread sock turns).1.opened = 1 := by
  suffices hacc : Health.Accepted awaits turns (healthThread sock turns).1 ∧
      (healthThread sock turns).1.opened = 1 from ⟨hacc.1.running_iff, hacc.2⟩
  induction turns using List.reverseRecOn with
  | nil => exact ⟨.ready rfl hsock.opened rfl (by simp), rfl⟩
  | append_singleton turns t ih =>
    obtain ⟨hacc, hopen⟩ := ih fun u hu => h u (List.mem_append_left _ hu)
    obtain ⟨hacc', hopen'⟩ := hacc.turn hsock (h t (by simp))
    rw [healthThread_snoc]
    exact ⟨hacc', hopen'.trans hopen⟩

end

/-- An answer, a reply that is late, and the thread is over, though the endpoint is back. -/
theorem healthThread_late : ∃ turns : List HealthTurn, (∀ t ∈ turns, t.sending = .accepted) ∧
    (turns.map HealthTurn.receiving) = [.received (), .again, .received ()] ∧
    (healthThread (reference Unit) turns).1.running = false ∧
    (healthThread (reference Unit) turns).1.opened = 1 := by
  let turns : List HealthTurn := [⟨.accepted, .received (), true, 1000⟩,
    ⟨.accepted, .again, true, 2500⟩, ⟨.accepted, .received (), true, 4000⟩]
  have hall : ∀ t ∈ turns, t.sending = .accepted := by
    simp [turns]
  obtain ⟨hiff, hopened⟩ := healthThread_accepted lawful_reference hall
  refine ⟨turns, hall, rfl, ?_, hopened⟩
  rw [← Bool.not_eq_true, hiff]
  rintro ⟨hans, -⟩
  have hlate := hans ⟨.accepted, .again, true, 2500⟩ (by simp [turns])
  exact absurd hlate.2 (by simp)

end Kpacket
