import Kpacket.Health
import Kpacket.MonitorStore

/-!
# The threads of the monitor

`SubscriberThread` and `HealthThread` on one model, with their turns in any order. The rows and the
counts are those of the frames received, and `isConnected` is what was stored last by either of the
two (`monitor_shows`). It is all that both of them store to; a turn that stores to it twice stores
`false` in the end, so the turns are taken in the order of their last stores.
-/

namespace Kpacket

open Lts ReqSocket HealthTurn

def HealthStore.apply (model : MonitorModel) : HealthStore → MonitorModel
  | .isConnected value => { model with isConnected := value }
  | .lastHealthOkMs nowMs => { model with lastHealthOkMs := nowMs }

/-- A turn of one of the threads, with what it meets. -/
inductive MonitorEvent
  | frames (frames : List Bytes)
  | status (turn : HealthTurn)

/-- The model, and the threads that store to it. -/
structure Monitor (σ : Type) where
  model : MonitorModel := {}
  subscribing : Bool := true
  health : Health σ

namespace Monitor

variable {σ : Type} (lib : MonitorLibrary) (sock : ReqSocket σ Unit)

def step (m : Monitor σ) : MonitorEvent → Monitor σ
  | .frames frames =>
    if m.subscribing then
      match subscriberStep lib frames m.model with
      | (.done (), model) => { m with model := model }
      | (_, model) => { m with model := { model with isConnected := false }, subscribing := false }
    else m
  | .status turn =>
    let (health, stores) := m.health.turn sock turn
    { m with health := health, model := stores.foldl HealthStore.apply m.model }

def run (events : List MonitorEvent) : Monitor σ :=
  events.foldl (step lib sock) { health := { req := sock.opened } }

theorem run_snoc (events : List MonitorEvent) (e : MonitorEvent) :
    run lib sock (events ++ [e]) = (run lib sock events).step lib sock e := by
  rw [run, List.foldl_append]
  rfl

end Monitor

namespace MonitorEvent

def frames? : MonitorEvent → Option (List Bytes)
  | .frames received => some received
  | .status _ => none

def turn? : MonitorEvent → Option HealthTurn
  | .frames _ => none
  | .status turn => some turn

end MonitorEvent

def framesOf (events : List MonitorEvent) : List (List Bytes) :=
  events.filterMap MonitorEvent.frames?

def turnsOf (events : List MonitorEvent) : List HealthTurn := events.filterMap MonitorEvent.turn?

/-- The thread has come through its turns. -/
def Ran (turns : List HealthTurn) : Prop := ∀ pre t, pre ++ [t] <+: turns → Survives pre t

/-- What a turn leaves in `isConnected`, if it stores to it at all. -/
inductive Stores (lib : MonitorLibrary) (past : List MonitorEvent) : MonitorEvent → Bool → Prop
  | read (frames : List Bytes) (hpast : ∀ received ∈ framesOf past, lib.survives received = true)
      (hread : (lib.reading? frames).isSome = true) : Stores lib past (.frames frames) true
  | threw (frames : List Bytes) (hpast : ∀ received ∈ framesOf past, lib.survives received = true)
      (hthrow : lib.survives frames = false) : Stores lib past (.frames frames) false
  | answered (t : HealthTurn) (hpast : Ran (turnsOf past)) (hs : Survives (turnsOf past) t)
      (ha : t.answered) : Stores lib past (.status t) true
  | failed (t : HealthTurn) (hpast : Ran (turnsOf past)) (hs : Survives (turnsOf past) t)
      (ha : ¬ t.answered) (hn : 1 ≤ streak (turnsOf past)) : Stores lib past (.status t) false
  | ended (t : HealthTurn) (hpast : Ran (turnsOf past)) (hs : ¬ Survives (turnsOf past) t) :
    Stores lib past (.status t) false

/-- The last store to `isConnected` in a run. -/
def LastStore (lib : MonitorLibrary) (events : List MonitorEvent) (value : Bool) : Prop :=
  ∃ pre e post, events = pre ++ e :: post ∧ Stores lib pre e value ∧
    ∀ mid e' rest, post = mid ++ e' :: rest → ∀ value', ¬ Stores lib (pre ++ e :: mid) e' value'

section

variable {σ : Type} {lib : MonitorLibrary} {sock : ReqSocket σ Unit} {awaits : σ → Bool}
  {past : List MonitorEvent}

theorem health_run (events : List MonitorEvent) :
    (Monitor.run lib sock events).health = (healthThread sock (turnsOf events)).1 := by
  induction events using List.reverseRecOn with
  | nil => rfl
  | append_singleton events e ih =>
    rw [Monitor.run_snoc, turnsOf, Lts.filterMap_snoc, ← turnsOf]
    rcases e with frames | turn
    · rw [MonitorEvent.turn?, Option.toList_none, List.append_nil, ← ih, Monitor.step]
      split_ifs
      · split <;> rfl
      · rfl
    · rw [MonitorEvent.turn?, Option.toList_some, healthThread_snoc, ← ih]
      rfl

theorem apply_frame (stores : List HealthStore) (model : MonitorModel) :
    ∃ value nowMs, stores.foldl HealthStore.apply model =
      { model with isConnected := value, lastHealthOkMs := nowMs } := by
  induction stores generalizing model with
  | nil => exact ⟨_, _, rfl⟩
  | cons store stores ih =>
    obtain ⟨value, nowMs, h⟩ := ih (HealthStore.apply model store)
    refine ⟨value, nowMs, h.trans ?_⟩
    cases store <;> rfl

/-! ### Rows and counts -/

theorem log_cons (frames : List Bytes) (received : List (List Bytes)) :
    lib.log (frames :: received) =
      if lib.survives frames then (lib.reading? frames).toList ++ lib.log received else [] := by
  unfold MonitorLibrary.log
  split_ifs with h
  · rw [List.takeWhile_cons_of_pos h, List.filterMap_cons]
    cases lib.reading? frames <;> rfl
  · rw [List.takeWhile_cons_of_neg h]
    rfl

theorem log_snoc (lib : MonitorLibrary) (received : List (List Bytes)) (frames : List Bytes) :
    lib.log (received ++ [frames]) = lib.log received ++
      if received.all lib.survives && lib.survives frames then (lib.reading? frames).toList
      else [] := by
  induction received with
  | nil =>
    rw [List.nil_append, log_cons]
    show _ = [] ++ if lib.survives frames then _ else []
    rw [List.nil_append, show lib.log [] = [] from rfl, List.append_nil]
  | cons head received ih =>
    rw [List.cons_append, log_cons, log_cons, ih, List.all_cons]
    cases lib.survives head with
    | true => simp
    | false => simp

section Steps

variable {m : Monitor σ} {frames : List Bytes}

theorem step_ended (hsub : m.subscribing = false) : m.step lib sock (.frames frames) = m := by
  simp [Monitor.step, hsub]

theorem step_survives (hsub : m.subscribing = true) (hs : lib.survives frames = true) :
    m.step lib sock (.frames frames) =
      { m with model := (lib.reading? frames).elim m.model m.model.record } := by
  simp [Monitor.step, hsub, subscriberStep_survives hs]

theorem step_throws (hsub : m.subscribing = true) (hs : lib.survives frames = false) :
    ∃ n, m.step lib sock (.frames frames) = { m with
      model := { m.model with isConnected := false, localSeqCounter := n }
      subscribing := false } := by
  obtain ⟨o, n, ho, hstep⟩ := subscriberStep_throws hs m.model
  refine ⟨n, ?_⟩
  rcases o with x | what | _
  · exact absurd rfl (ho x)
  · simp [Monitor.step, hsub, hstep]
  · simp [Monitor.step, hsub, hstep]

end Steps

/-- The subscriber after the frames received. -/
structure Subscribed (lib : MonitorLibrary) (received : List (List Bytes)) (m : Monitor σ) :
    Prop where
  subscribing : m.subscribing = received.all lib.survives
  shows : Shows m.model (lib.log received)
  localSeqCounter : m.subscribing = true →
    m.model.localSeqCounter = .ofNat (lib.log received).length

theorem Subscribed.frames {received : List (List Bytes)} {m : Monitor σ}
    (h : Subscribed lib received m) (frames : List Bytes) :
    Subscribed lib (received ++ [frames]) (m.step lib sock (.frames frames)) := by
  have hall : (received ++ [frames]).all lib.survives =
      (received.all lib.survives && lib.survives frames) := by simp
  have hlog := log_snoc lib received frames
  rw [← h.subscribing] at hall hlog
  cases hsub : m.subscribing with
  | false =>
    rw [hsub, Bool.false_and] at hall hlog
    rw [step_ended hsub]
    refine ⟨hsub.trans hall.symm, ?_, fun hs => ?_⟩
    · simpa [hlog] using h.shows
    · rw [hsub] at hs
      cases hs
  | true =>
    rw [hsub, Bool.true_and] at hall hlog
    cases hs : lib.survives frames with
    | true =>
      rw [hs, if_pos rfl] at hlog
      rw [step_survives hsub hs]
      cases hread : lib.reading? frames with
      | none =>
        rw [hread, Option.toList_none, List.append_nil] at hlog
        refine ⟨hsub.trans (hall.trans hs).symm, ?_, fun hs' => ?_⟩
        · rw [hlog]
          exact h.shows
        · rw [hlog]
          exact h.localSeqCounter hs'
      | some r =>
        rw [hread, Option.toList_some] at hlog
        refine ⟨hsub.trans (hall.trans hs).symm, ?_, fun _ => ?_⟩
        · rw [hlog]
          exact h.shows.record (h.localSeqCounter hsub) r
        · show m.model.localSeqCounter + 1 = _
          rw [h.localSeqCounter hsub, hlog, List.length_append]
          exact (UInt64.ofNat_add ..).symm
    | false =>
      obtain ⟨n, hstep⟩ := @step_throws _ _ sock _ _ hsub hs
      have hlog' : lib.log (received ++ [frames]) = lib.log received := by simpa [hs] using hlog
      rw [hstep]
      refine ⟨(hall.trans hs).symm, ?_, nofun⟩
      rw [hlog']
      exact ⟨h.shows.rows, h.shows.totalPackets, h.shows.lastRemoteMsgId⟩

theorem subscribed_run (events : List MonitorEvent) :
    Subscribed lib (framesOf events) (Monitor.run lib sock events) := by
  induction events using List.reverseRecOn with
  | nil => exact ⟨rfl, ⟨rfl, rfl, rfl⟩, fun _ => rfl⟩
  | append_singleton events e ih =>
    rw [Monitor.run_snoc, framesOf, Lts.filterMap_snoc, ← framesOf]
    rcases e with received | turn
    · exact ih.frames received
    · rw [MonitorEvent.frames?, Option.toList_none, List.append_nil]
      obtain ⟨value, nowMs, happly⟩ := apply_frame
        ((Monitor.run lib sock events).health.turn sock turn).2 (Monitor.run lib sock events).model
      have hstep : (Monitor.run lib sock events).step lib sock (.status turn) =
          { Monitor.run lib sock events with
            health := ((Monitor.run lib sock events).health.turn sock turn).1
            model := { (Monitor.run lib sock events).model with
              isConnected := value, lastHealthOkMs := nowMs } } := by
        rw [← happly]
        rfl
      rw [hstep]
      exact ⟨ih.subscribing, ⟨ih.shows.rows, ih.shows.totalPackets, ih.shows.lastRemoteMsgId⟩,
        ih.localSeqCounter⟩

/-! ### The flag -/

theorem lastStore_snoc {e : MonitorEvent} {value : Bool} :
    LastStore lib (past ++ [e]) value ↔
      Stores lib past e value ∨
        (∀ value', ¬ Stores lib past e value') ∧ LastStore lib past value := by
  constructor
  · rintro ⟨pre, e', post, heq, hs, hlast⟩
    rcases List.eq_nil_or_concat post with rfl | ⟨post, e'', rfl⟩
    · obtain ⟨rfl, he⟩ := List.append_inj' heq rfl
      cases he
      exact .inl hs
    · rw [List.concat_eq_append, ← List.cons_append, ← List.append_assoc] at heq
      obtain ⟨rfl, he⟩ := List.append_inj' heq rfl
      cases he
      refine .inr ⟨hlast post e [] (by simp), pre, e', post, rfl, hs, ?_⟩
      rintro mid e'' rest rfl
      exact hlast mid e'' (rest ++ [e]) (by simp)
  · rintro (hs | ⟨hno, pre, e', post, rfl, hs, hlast⟩)
    · refine ⟨past, e, [], rfl, hs, fun mid e' rest h => ?_⟩
      simp at h
    · refine ⟨pre, e', post ++ [e], by simp, hs, fun mid e'' rest heq => ?_⟩
      rcases List.eq_nil_or_concat rest with rfl | ⟨rest, e₃, rfl⟩
      · obtain ⟨rfl, he⟩ := List.append_inj' heq rfl
        cases he
        exact hno
      · rw [List.concat_eq_append, ← List.cons_append, ← List.append_assoc] at heq
        obtain ⟨rfl, he⟩ := List.append_inj' heq rfl
        exact hlast mid e'' rest rfl

/-- What a turn of `HealthThread` stores after the turns before it. -/
theorem turn_stores (hsock : sock.Lawful awaits) (turns : List HealthTurn) (t : HealthTurn) :
    (Ran turns ∧ Survives turns t ∧
        ((healthThread sock turns).1.turn sock t).2 = HealthTurn.stores turns t) ∨
      (Ran turns ∧ ¬ Survives turns t ∧
        ((healthThread sock turns).1.turn sock t).2.getLast? = some (.isConnected false)) ∨
      ¬ Ran turns ∧ ((healthThread sock turns).1.turn sock t).2 = [] := by
  obtain ⟨hiff, htracks, -⟩ := healthThread_running_iff hsock turns
  cases hr : (healthThread sock turns).1.running with
  | false =>
    refine .inr (.inr ⟨fun hran => ?_, by rw [Health.turn_ended hr]⟩)
    have := hiff.mpr hran
    rw [hr] at this
    cases this
  | true =>
    have htr := htracks hr
    by_cases hs : Survives turns t
    · have hstored := (htr.turn hsock hs).stored
      rw [stored_snoc, htr.stored] at hstored
      exact .inl ⟨hiff.mp hr, hs, List.append_cancel_left hstored⟩
    · exact .inr (.inl ⟨hiff.mp hr, hs, (htr.ends hsock hs).2⟩)

theorem isConnected_apply {stores : List HealthStore} {value : Bool}
    (h : stores.getLast? = some (.isConnected value)) (model : MonitorModel) :
    (stores.foldl HealthStore.apply model).isConnected = value := by
  obtain ⟨init, rfl⟩ := List.getLast?_eq_some_iff.mp h
  rw [List.foldl_append]
  rfl

/-- The flag before and after a turn. -/
inductive Flagged (lib : MonitorLibrary) (past : List MonitorEvent) (e : MonitorEvent)
    (old : Bool) : Bool → Prop
  | raised (h : Stores lib past e true) : Flagged lib past e old true
  | lowered (h : Stores lib past e false) (hn : ¬ Stores lib past e true) :
    Flagged lib past e old false
  | kept (h : ∀ value, ¬ Stores lib past e value) : Flagged lib past e old old

theorem flagged_frames (events : List MonitorEvent) (frames : List Bytes) :
    Flagged lib events (.frames frames) (Monitor.run lib sock events).model.isConnected
      ((Monitor.run lib sock events).step lib sock (.frames frames)).model.isConnected := by
  have hsub := (@subscribed_run _ lib sock events).subscribing
  generalize Monitor.run lib sock events = m at hsub ⊢
  cases hs : m.subscribing with
  | false =>
    rw [step_ended hs]
    rw [hs] at hsub
    have hnot : ¬ ∀ received ∈ framesOf events, lib.survives received = true := by
      rw [← List.all_eq_true, ← hsub]
      exact Bool.false_ne_true
    refine .kept fun value h => ?_
    cases h with
    | read _ hpast | threw _ hpast => exact hnot hpast
  | true =>
    rw [hs] at hsub
    have hpast := List.all_eq_true.mp hsub.symm
    cases hsurvives : lib.survives frames with
    | false =>
      obtain ⟨n, hstep⟩ := @step_throws _ _ sock _ _ hs hsurvives
      rw [hstep]
      refine .lowered (.threw frames hpast hsurvives) fun h => ?_
      cases h with
      | read _ _ hread => cases hsurvives.symm.trans (readFrames_of_reading hread).1
    | true =>
      rw [step_survives hs hsurvives]
      cases hread : lib.reading? frames with
      | some r => exact .raised (.read frames hpast (by rw [hread]; rfl))
      | none =>
        refine .kept fun value h => ?_
        cases h with
        | read _ _ hread' => rw [hread] at hread'; cases hread'
        | threw _ _ hthrow => cases hsurvives.symm.trans hthrow

theorem flagged_status (hsock : sock.Lawful awaits) (events : List MonitorEvent) (t : HealthTurn) :
    Flagged lib events (.status t) (Monitor.run lib sock events).model.isConnected
      ((Monitor.run lib sock events).step lib sock (.status t)).model.isConnected := by
  have hturn := turn_stores hsock (turnsOf events) t
  rw [← @health_run _ lib] at hturn
  show Flagged lib events (.status t) _ (((Monitor.run lib sock events).health.turn sock t).2.foldl
    HealthStore.apply (Monitor.run lib sock events).model).isConnected
  rcases hturn with ⟨hran, hs, hstores⟩ | ⟨hran, hs, hlast⟩ | ⟨hran, hstores⟩
  · rw [hstores, HealthTurn.stores]
    split_ifs with ha hn
    · exact .raised (.answered t hran hs ha)
    · refine .lowered (.failed t hran hs ha hn) fun h => ?_
      cases h with
      | answered _ _ _ ha' => exact ha ha'
    · refine .kept fun value h => ?_
      cases h with
      | answered _ _ _ ha' => exact ha ha'
      | failed _ _ _ _ hn' => exact hn hn'
      | ended _ _ hs' => exact hs' hs
  · rw [isConnected_apply hlast]
    refine .lowered (.ended t hran hs) fun h => ?_
    cases h with
    | answered _ _ hs' => exact hs hs'
  · rw [hstores]
    refine .kept fun value h => ?_
    cases h with
    | answered _ hran' | failed _ hran' | ended _ hran' => exact hran hran'

theorem Flagged.iff {e : MonitorEvent} {old new : Bool} (h : Flagged lib past e old new) :
    new = true ↔ Stores lib past e true ∨ (∀ value, ¬ Stores lib past e value) ∧ old = true := by
  cases h with
  | raised h => exact iff_of_true rfl (.inl h)
  | lowered h hn =>
    refine iff_of_false Bool.false_ne_true ?_
    rintro (h' | ⟨h', -⟩)
    · exact hn h'
    · exact h' false h
  | kept h => simp [h]

/-- In any order of the turns of the two threads the rows, their numbers and marks and the count are
those of the frames received up to the first that throw, and the flag is what was stored last. -/
theorem monitor_shows (hsock : sock.Lawful awaits) (lib : MonitorLibrary)
    (events : List MonitorEvent) :
    Shows (Monitor.run lib sock events).model (lib.log (framesOf events)) ∧
      ((Monitor.run lib sock events).model.isConnected = true ↔ LastStore lib events true) := by
  refine ⟨(subscribed_run events).shows, ?_⟩
  induction events using List.reverseRecOn with
  | nil =>
    refine iff_of_false Bool.false_ne_true ?_
    rintro ⟨pre, e, post, h, -⟩
    simp at h
  | append_singleton events e ih =>
    rw [lastStore_snoc, ← ih, Monitor.run_snoc]
    rcases e with frames | t
    · exact (flagged_frames events frames).iff
    · exact (flagged_status hsock events t).iff

end

/-- Two messages of three arrive; between them two requests find nobody. -/
theorem monitor_shows_login : ∃ tr s m₁ m₃ model, Run (System.step PubStream.streamingEnv) {} tr s ∧
    PubStream.delivered (fun k => k ≠ 1) tr = [(0, m₁), (2, m₃)] ∧
    (∃ events, framesOf events = [m₁.frames, m₃.frames] ∧
      (turnsOf events).map HealthTurn.sending = [.again, .again] ∧
      model = (Monitor.run PubStream.referenceMonitor (reference Unit) events).model) ∧
    model.totalPackets = 2 ∧ model.isConnected = true := by
  obtain ⟨tr, s, m₁, m₃, h, hlt, hdel⟩ := PubStream.exists_lost
  have hread : ∀ d ∈ [(0, m₁), (2, m₃)],
      (PubStream.referenceMonitor.reading? d.2.frames).isSome = true := by
    intro d hd
    have hm := (PubStream.delivered_place h (hdel ▸ hd)).2.2
    rw [MonitorLibrary.reading?, readFrames_message PubStream.reads_referenceMonitor hm]
    rfl
  have h₁ : (PubStream.referenceMonitor.reading? m₁.frames).isSome = true :=
    hread (0, m₁) (by simp)
  have h₃ : (PubStream.referenceMonitor.reading? m₃.frames).isSome = true :=
    hread (2, m₃) (by simp)
  obtain ⟨r₁, hr₁⟩ := Option.isSome_iff_exists.mp h₁
  obtain ⟨r₃, hr₃⟩ := Option.isSome_iff_exists.mp h₃
  have hlog : PubStream.referenceMonitor.log [m₁.frames, m₃.frames] = [r₁, r₃] := by
    rw [log_cons, (readFrames_of_reading h₁).1, if_pos rfl, hr₁, log_cons,
      (readFrames_of_reading h₃).1, if_pos rfl, hr₃]
    rfl
  let missed : HealthTurn := ⟨.again, .again, true, 0⟩
  let past := [MonitorEvent.frames m₁.frames, .status missed, .status missed]
  obtain ⟨hshows, hflag⟩ := monitor_shows lawful_reference PubStream.referenceMonitor
    (past ++ [.frames m₃.frames])
  refine ⟨tr, s, m₁, m₃, _, h, hdel, ⟨_, rfl, rfl, rfl⟩, ?_, hflag.mpr ?_⟩
  · rw [hshows.totalPackets]
    show UInt64.ofNat (PubStream.referenceMonitor.log [m₁.frames, m₃.frames]).length = 2
    rw [hlog]
    rfl
  · refine lastStore_snoc.mpr (.inl (.read _ ?_ h₃))
    intro received hreceived
    obtain rfl := List.mem_singleton.mp hreceived
    exact (readFrames_of_reading h₁).1

end Kpacket
