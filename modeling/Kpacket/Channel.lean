import Kpacket.Lts

/-!
# A queue with one consumer

The abstract channel: any number of producers push at the back, one consumer takes the front item
into its slot and finishes it before it takes the next one. `conserve` is the conservation law:
what was pushed is what was finished, then the slot, then the queue, in this order.
-/

namespace Channel

open Lts

universe u v w

variable {α : Type u}

structure State (α : Type u) where
  queue : List α := []
  slot : Option α := none

inductive Event (α : Type u)
  | push (x : α)
  | take (x : α)
  | finish (x : α)

/-- What the channel holds, oldest first. -/
def State.held (c : State α) : List α := c.slot.toList ++ c.queue

def Event.pushed? : Event α → Option α
  | .push x => some x
  | _ => none

def Event.taken? : Event α → Option α
  | .take x => some x
  | _ => none

def Event.finished? : Event α → Option α
  | .finish x => some x
  | _ => none

def pushed (tr : List (Event α)) : List α := tr.filterMap Event.pushed?
def taken (tr : List (Event α)) : List α := tr.filterMap Event.taken?
def finished (tr : List (Event α)) : List α := tr.filterMap Event.finished?

variable [DecidableEq α]

def step (c : State α) : Event α → Option (State α)
  | .push x => some { c with queue := c.queue ++ [x] }
  | .take x =>
    if c.slot = none ∧ c.queue.head? = some x then some ⟨c.queue.tail, some x⟩ else none
  | .finish x => if c.slot = some x then some { c with slot := none } else none

theorem step_take {c c' : State α} {x : α} (h : step c (.take x) = some c') :
    c.slot = none ∧ c.queue = x :: c'.queue ∧ c'.slot = some x := by
  obtain ⟨⟨hs, hq⟩, rfl⟩ := by simpa [step] using h
  exact ⟨hs, by cases hc : c.queue <;> simp_all, rfl⟩

theorem step_finish {c c' : State α} {x : α} (h : step c (.finish x) = some c') :
    c.slot = some x ∧ c' = { c with slot := none } := by
  obtain ⟨hs, rfl⟩ := by simpa [step] using h
  exact ⟨hs, rfl⟩

/-- Conservation in one step: what a step pushes and finishes balances what the channel holds. -/
theorem step_conserve {c c' : State α} {e : Event α} (h : step c e = some c') :
    c.held ++ e.pushed?.toList = e.finished?.toList ++ c'.held := by
  cases e with
  | push x => cases h; simp [State.held, Event.pushed?, Event.finished?]
  | take x =>
    obtain ⟨hs, hq, hs'⟩ := step_take h
    simp [State.held, Event.pushed?, Event.finished?, hs, hq, hs']
  | finish x =>
    obtain ⟨hs, rfl⟩ := step_finish h
    simp [State.held, Event.pushed?, Event.finished?, hs]

variable {c₀ c : State α} {tr : List (Event α)}

theorem conserve (h : Run step c₀ tr c) : c₀.held ++ pushed tr = finished tr ++ c.held := by
  induction h with
  | nil => simp [pushed, finished]
  | @snoc tr c c' e _ hs ih =>
    have hp : pushed (tr ++ [e]) = pushed tr ++ e.pushed?.toList := filterMap_snoc ..
    have hf : finished (tr ++ [e]) = finished tr ++ e.finished?.toList := filterMap_snoc ..
    rw [hp, hf, ← List.append_assoc, ih, List.append_assoc, step_conserve hs, List.append_assoc]

/-- Items leave the queue in the order they are finished in; the last one may be in the slot. -/
theorem taken_eq (h : Run step c₀ tr c) (h0 : c₀.slot = none) :
    taken tr = finished tr ++ c.slot.toList := by
  induction h with
  | nil => simp [taken, finished, h0]
  | @snoc tr c c' e _ hs ih =>
    have ht : taken (tr ++ [e]) = taken tr ++ e.taken?.toList := filterMap_snoc ..
    have hf : finished (tr ++ [e]) = finished tr ++ e.finished?.toList := filterMap_snoc ..
    rw [ht, hf, ih]
    cases e with
    | push x => cases hs; simp [Event.taken?, Event.finished?]
    | take x =>
      obtain ⟨hc, -, hc'⟩ := step_take hs
      simp [Event.taken?, Event.finished?, hc, hc']
    | finish x =>
      obtain ⟨hc, rfl⟩ := step_finish hs
      simp [Event.taken?, Event.finished?, hc]

/-! ### Bounded queues -/

theorem step_length {c c' : State α} {e : Event α} (h : step c e = some c') :
    c'.queue.length ≤ c.queue.length ∨
      ∃ x, e = .push x ∧ c'.queue.length = c.queue.length + 1 := by
  cases e with
  | push x => cases h; exact .inr ⟨x, rfl, by simp⟩
  | take x =>
    obtain ⟨-, hq, -⟩ := step_take h
    exact .inl (by rw [hq, List.length_cons]; omega)
  | finish x =>
    obtain ⟨-, rfl⟩ := step_finish h
    exact .inl (Nat.le_refl _)

variable {σ : Type v} {β : Type w} {step' : σ → β → Option σ} {f : σ → State α}
  {g : β → Option (Event α)}

/-- Wherever a channel is found in a system, its queue stays within `n` exactly as long as every
push finds room. -/
theorem bounded_iff (sim : Simulation step' step f g) {s₀ s : σ} {tr : List β} {n : Nat}
    (h0 : (f s₀).queue.length ≤ n) (h : Run step' s₀ tr s) :
    Throughout step' (fun s => (f s).queue.length ≤ n) s₀ tr ↔
      Steps step' (fun s b => ∀ x, g b = some (.push x) → (f s).queue.length < n) s₀ tr := by
  constructor
  · rintro hle pre b post s' rfl hr x hx
    obtain ⟨s₁, hs⟩ := h.next hr
    have hn : (f s₁).queue.length ≤ n :=
      hle (pre ++ [b]) post s₁ (List.append_cons ..) (hr.snoc hs)
    have hp := sim.visible _ _ _ _ hs hx
    simp only [step, Option.some.injEq] at hp
    rw [← hp, List.length_append, List.length_singleton] at hn
    omega
  · rintro hsteps pre post s' rfl hr
    refine hr.guarded hsteps.of_append (I := fun _ s => (f s).queue.length ≤ n) h0 ?_
    intro tr s b s' _ ih hroom hs
    cases hb : g b with
    | none => rwa [sim.hidden _ _ _ hs hb]
    | some e =>
      rcases step_length (sim.visible _ _ _ _ hs hb) with hle | ⟨x, rfl, hle⟩
      · omega
      · have := hroom x hb
        omega

end Channel
