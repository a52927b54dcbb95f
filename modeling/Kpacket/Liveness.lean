import Kpacket.Channel
import Kpacket.Schedules

/-!
# Liveness

`Schedule.eventually` and `Schedule.eventually_of_often` bring a party to its goal: the first one if
it can always take a step and the schedule is weakly fair to it, the second one if it can take a
step again and again and the schedule is strongly fair. `Channel.Consumer.serves` applies the first
one to the consumer of a queue: whatever is pushed is finished some day, in order. `Schedule.cycle`
and `Schedule.after` build endless schedules.
-/

namespace Lts

universe u v

variable {σ : Type u} {α : Type v} {step : σ → α → Option σ} {s₀ s : σ}

namespace Schedule

variable {c : Schedule step s₀} {party : α → Prop} {f : σ → Nat} {n : Nat}

/-! ### Goals -/

/-- A party whose turns bring it closer to its goal, which others do not move away, and that has a
step until the goal is reached. -/
theorem eventually {P : Nat → Prop} (hfair : c.Fair party)
    (hturn : ∀ m a, n ≤ m → c.label m = some a → party a →
      P m ∨ P (m + 1) ∨ f (c.state (m + 1)) < f (c.state m))
    (hother : ∀ m a, n ≤ m → c.label m = some a → ¬ party a →
      P m ∨ P (m + 1) ∨ f (c.state (m + 1)) ≤ f (c.state m))
    (hready : ∀ m, n ≤ m → P m ∨ ∃ a s, party a ∧ step (c.state m) a = some s) :
    ∃ m, n ≤ m ∧ P m := by
  by_contra hno
  have hnot : ∀ m, n ≤ m → ¬ P m := fun m hm hP => hno ⟨m, hm, hP⟩
  -- one more than the rank never comes to zero
  obtain ⟨m, -, hz⟩ := eventually_zero (f := fun s => f s + 1) (n := n) hfair
    (fun m a hm ha hp => by
      rcases hturn m a hm ha hp with h | h | h
      · exact absurd h (hnot m hm)
      · exact absurd h (hnot _ (Nat.le_succ_of_le hm))
      · exact Nat.succ_lt_succ h)
    (fun m a hm ha hp => by
      rcases hother m a hm ha hp with h | h | h
      · exact absurd h (hnot m hm)
      · exact absurd h (hnot _ (Nat.le_succ_of_le hm))
      · exact Nat.succ_le_succ h)
    fun m hm _ => (hready m hm).resolve_left (hnot m hm)
  exact Nat.succ_ne_zero _ hz

variable (c party) in
/-- The party takes steps again and again if it can take one again and again. -/
def StrongFair : Prop :=
  (∀ n, ∃ m, n ≤ m ∧ ∃ a s, party a ∧ step (c.state m) a = some s) →
    ∀ n, ∃ m a, n ≤ m ∧ c.label m = some a ∧ party a

/-- The same for a party that is held up now and then. -/
theorem eventually_of_often {P : Nat → Prop} (hfair : c.StrongFair party)
    (hturn : ∀ m a, n ≤ m → c.label m = some a → party a →
      P m ∨ P (m + 1) ∨ f (c.state (m + 1)) < f (c.state m))
    (hother : ∀ m a, n ≤ m → c.label m = some a → ¬ party a →
      P m ∨ P (m + 1) ∨ f (c.state (m + 1)) ≤ f (c.state m))
    (hoften : ∀ m, n ≤ m → ∃ k, m ≤ k ∧ (P k ∨ ∃ a s, party a ∧ step (c.state k) a = some s)) :
    ∃ m, n ≤ m ∧ P m := by
  by_contra hno
  have hnot : ∀ m, n ≤ m → ¬ P m := fun m hm hP => hno ⟨m, hm, hP⟩
  have hsteps : ∀ k, ∃ m a, k ≤ m ∧ c.label m = some a ∧ party a := by
    refine hfair fun k => ?_
    obtain ⟨m, hm, hcase⟩ := hoften (max n k) (Nat.le_max_left n k)
    have hk := Nat.le_trans (Nat.le_max_right n k) hm
    exact ⟨m, hk, hcase.resolve_left (hnot m (Nat.le_trans (Nat.le_max_left n k) hm))⟩
  have hmono : ∀ k m, n ≤ k → k ≤ m → f (c.state m) ≤ f (c.state k) := by
    intro k m hk hm
    refine c.invariant (I := fun s => f s ≤ f (c.state k)) (Nat.le_refl _) ?_ m hm
    intro m a hm ha hle
    have hnm := Nat.le_trans hk hm
    by_cases hp : party a
    · rcases hturn m a hnm ha hp with h | h | h
      · exact absurd h (hnot m hnm)
      · exact absurd h (hnot _ (Nat.le_succ_of_le hnm))
      · omega
    · rcases hother m a hnm ha hp with h | h | h
      · exact absurd h (hnot m hnm)
      · exact absurd h (hnot _ (Nat.le_succ_of_le hnm))
      · omega
  -- the rank cannot fall for ever
  suffices h : ∀ r k, n ≤ k → f (c.state k) = r → False from h _ n (Nat.le_refl n) rfl
  intro r
  induction r using Nat.strongRecOn with
  | _ r ih =>
    intro k hk hr
    obtain ⟨m, a, hm, ha, hp⟩ := hsteps k
    have hnm := Nat.le_trans hk hm
    rcases hturn m a hnm ha hp with h | h | h
    · exact hnot m hnm h
    · exact hnot _ (Nat.le_succ_of_le hnm) h
    · have hle := hmono k m hk hm
      exact ih _ (by omega) (m + 1) (Nat.le_succ_of_le hnm) rfl

/-! ### Histories of a schedule -/

theorem labels_prefix {k m : Nat} (h : k ≤ m) : c.labels 0 k <+: c.labels 0 m := by
  induction h with
  | refl => exact List.prefix_refl _
  | @step m _ ih =>
    rw [labels_succ]
    exact ih.trans (List.prefix_append ..)

end Schedule

/-! ### Endless schedules -/

theorem exec_cycle {loop : List α} (h : exec step s loop = some s) {n : Nat}
    (hn : n < loop.length) :
    exec step s (loop.take (n + 1)) =
      some ((exec step s (loop.take ((n + 1) % loop.length))).getD s) := by
  obtain ⟨s', hs'⟩ := exec_take h (n + 1)
  by_cases hlast : n + 1 < loop.length
  · rw [Nat.mod_eq_of_lt hlast, hs', Option.getD_some]
  · have hl : n + 1 = loop.length := by omega
    rw [hl, Nat.mod_self, List.take_length, h, List.take_zero]
    rfl

theorem step_of_exec_take {as : List α} {n : Nat} {a : α} {s₁ s₂ : σ} (ha : as[n]? = some a)
    (h₁ : exec step s₀ (as.take n) = some s₁) (h₂ : exec step s₀ (as.take (n + 1)) = some s₂) :
    step s₁ a = some s₂ := by
  rw [List.take_add_one, ha, Option.toList_some, exec_append, h₁, Option.bind_some, exec] at h₂
  obtain ⟨s', hs, he⟩ := Option.bind_eq_some_iff.mp h₂
  rw [hs]
  exact he

namespace Schedule

/-- The steps of a list again and again. -/
def cycle (loop : List α) (h : exec step s loop = some s) (hne : loop ≠ []) : Schedule step s where
  state n := (exec step s (loop.take (n % loop.length))).getD s
  label n := loop[n % loop.length]?
  start := by rw [Nat.zero_mod, List.take_zero]; rfl
  pause n hn := by
    have hlt := Nat.mod_lt n (List.length_pos_iff.mpr hne)
    rw [List.getElem?_eq_getElem hlt] at hn
    cases hn
  move n a ha := by
    have hlt := Nat.mod_lt n (List.length_pos_iff.mpr hne)
    obtain ⟨s₁, h₁⟩ := exec_take h (n % loop.length)
    have h₂ := exec_cycle h hlt
    rw [Nat.mod_add_mod] at h₂
    rw [h₁, Option.getD_some]
    exact step_of_exec_take ha h₁ h₂

/-- The steps of a list, and then another schedule. -/
def after {as : List α} (h : exec step s₀ as = some s) (c : Schedule step s) :
    Schedule step s₀ where
  state n := if n < as.length then (exec step s₀ (as.take n)).getD s₀ else c.state (n - as.length)
  label n := if n < as.length then as[n]? else c.label (n - as.length)
  start := by
    split_ifs with h0
    · rw [List.take_zero]; rfl
    · obtain rfl := List.length_eq_zero_iff.mp (Nat.eq_zero_of_not_pos h0)
      cases h
      exact c.start
  pause n hn := by
    by_cases hlt : n < as.length
    · rw [if_pos hlt, List.getElem?_eq_getElem hlt] at hn
      cases hn
    · rw [if_neg hlt] at hn ⊢
      rw [if_neg (by omega), Nat.succ_sub (Nat.le_of_not_lt hlt)]
      exact c.pause _ hn
  move n a ha := by
    by_cases hlt : n < as.length
    · rw [if_pos hlt] at ha ⊢
      obtain ⟨s₁, h₁⟩ := exec_take h n
      obtain ⟨s₂, h₂⟩ := exec_take h (n + 1)
      rw [h₁, Option.getD_some, step_of_exec_take ha h₁ h₂]
      split_ifs with hlt'
      · rw [h₂, Option.getD_some]
      · have hn : n + 1 = as.length := by omega
        rw [hn, List.take_length, h] at h₂
        rw [hn, Nat.sub_self, c.start, h₂]
    · rw [if_neg hlt] at ha ⊢
      rw [if_neg (by omega), Nat.succ_sub (Nat.le_of_not_lt hlt)]
      exact c.move _ _ ha

section

variable {as loop : List α} {h : exec step s₀ as = some s} {c : Schedule step s} {party : α → Prop}

theorem label_after (n : Nat) : (after h c).label (as.length + n) = c.label n := by
  show (if _ then _ else _) = _
  rw [if_neg (by omega), Nat.add_sub_cancel_left]

theorem state_after (n : Nat) : (after h c).state (as.length + n) = c.state n := by
  show (if _ then _ else _) = _
  rw [if_neg (by omega), Nat.add_sub_cancel_left]

theorem labels_after : (after h c).labels 0 as.length = as := by
  suffices hk : ∀ k, k ≤ as.length → (after h c).labels 0 k = as.take k by
    rw [hk _ (Nat.le_refl _), List.take_length]
  intro k hk
  induction k with
  | zero => rfl
  | succ k ih =>
    have hlabel : (after h c).label k = as[k]? := if_pos hk
    rw [labels_succ, Nat.zero_add, ih (Nat.le_of_succ_le hk), hlabel, List.take_add_one]

variable {hl : exec step s loop = some s} {hne : loop ≠ []}

theorem mem_of_label_cycle {n : Nat} {a : α} (ha : (cycle loop hl hne).label n = some a) :
    a ∈ loop := List.mem_of_getElem? ha

theorem label_cycle_again {a : α} (ha : a ∈ loop) (n : Nat) :
    ∃ m, n ≤ m ∧ (cycle loop hl hne).label m = some a := by
  obtain ⟨i, hi, rfl⟩ := List.mem_iff_getElem.mp ha
  refine ⟨i + loop.length * n, ?_, ?_⟩
  · have := Nat.le_mul_of_pos_left n (Nat.zero_lt_of_lt hi)
    omega
  · show loop[(i + loop.length * n) % loop.length]? = _
    rw [Nat.add_mul_mod_self_left, Nat.mod_eq_of_lt hi, List.getElem?_eq_getElem hi]

end

/-! ### Schedules that stop -/

section

variable {as : List α} {h : exec step s₀ as = some s} {party : α → Prop}

theorem state_ofExec {m : Nat} (hm : as.length ≤ m) : (ofExec as h).state m = s := by
  show (exec step s₀ (as.take m)).getD s₀ = s
  rw [List.take_of_length_le hm, h, Option.getD_some]

theorem strongFair_ofExec (hnone : ∀ a, party a → step s a = none) :
    (ofExec as h).StrongFair party := by
  intro hoften
  obtain ⟨m, hm, a, s', hp, hs⟩ := hoften as.length
  rw [state_ofExec hm, hnone a hp] at hs
  cases hs

end

end Schedule

end Lts

/-! ### The consumer of a queue -/

namespace Channel

open Lts

universe u v w

variable {α : Type u} {σ : Type v} {β : Type w} {step' : σ → β → Option σ} {f : σ → State α}
  {g : β → Option (Event α)} {s₀ : σ} {c : Schedule step' s₀} {n : Nat}

theorem pushed_mono {k m : Nat} (hm : k ≤ m) :
    pushed ((c.labels 0 k).filterMap g) <+: pushed ((c.labels 0 m).filterMap g) :=
  ((c.labels_prefix hm).filterMap g).filterMap Event.pushed?

theorem finished_mono {k m : Nat} (hm : k ≤ m) :
    finished ((c.labels 0 k).filterMap g) <+: finished ((c.labels 0 m).filterMap g) :=
  ((c.labels_prefix hm).filterMap g).filterMap Event.finished?

variable [DecidableEq α]

/-- A party that, as long as `I` holds, finishes an item or comes closer to that with every turn
while there is something to do. -/
structure Consumer (step' : σ → β → Option σ) (f : σ → State α) (g : β → Option (Event α))
    (party : β → Prop) (rank : σ → Nat) (I : σ → Prop) : Prop where
  turn : ∀ s b s', I s → step' s b = some s' → party b → (f s).held ≠ [] →
    (∃ x, g b = some (.finish x)) ∨ rank s' < rank s
  other : ∀ s b s', I s → step' s b = some s' → ¬ party b → rank s' ≤ rank s
  ready : ∀ s, I s → (f s).held ≠ [] → ∃ b s', party b ∧ step' s b = some s'

variable {party : β → Prop} {rank : σ → Nat} {I : σ → Prop}

namespace Consumer

variable (con : Consumer step' f g party rank I) (sim : Simulation step' step f g)
  (h0 : (f s₀).held = []) (hfair : c.Fair party) (hI : ∀ m, n ≤ m → I (c.state m))
include con sim h0 hfair hI

/-- With something left to do one more item is finished. -/
theorem finishes {k : Nat} (hk : n ≤ k) (hlt : (finished ((c.labels 0 k).filterMap g)).length <
    (pushed ((c.labels 0 k).filterMap g)).length) :
    ∃ m, k ≤ m ∧ (finished ((c.labels 0 k).filterMap g)).length <
      (finished ((c.labels 0 m).filterMap g)).length := by
  have hmono : ∀ m, k ≤ m → (finished ((c.labels 0 k).filterMap g)).length ≤
      (finished ((c.labels 0 m).filterMap g)).length := fun m hm => (finished_mono hm).length_le
  have hheld : ∀ m, k ≤ m → (finished ((c.labels 0 m).filterMap g)).length =
      (finished ((c.labels 0 k).filterMap g)).length → (f (c.state m)).held ≠ [] := by
    intro m hm heq hnil
    have hcons := conserve ((c.run_start m).simulate sim)
    rw [h0, hnil, List.nil_append, List.append_nil] at hcons
    have hp := (pushed_mono (g := g) (c := c) hm).length_le
    rw [hcons, heq] at hp
    exact absurd hp (Nat.not_le_of_lt hlt)
  refine Schedule.eventually (f := rank) hfair ?_ ?_ ?_
  · intro m b hm hb hp
    rcases Nat.lt_or_eq_of_le (hmono m hm) with hgt | heq
    · exact .inl hgt
    · have hne := hheld m hm heq.symm
      rcases con.turn _ b _ (hI m (Nat.le_trans hk hm)) (c.move m b hb) hp hne with ⟨x, hx⟩ | hr
      · have hgrow : finished ((c.labels 0 m).filterMap g ++ [.finish x]) =
            finished ((c.labels 0 m).filterMap g) ++ [x] := filterMap_snoc ..
        refine .inr (.inl ?_)
        rw [c.labels_succ, Nat.zero_add, hb, Option.toList_some, filterMap_snoc, hx,
          Option.toList_some, hgrow, List.length_append, ← heq]
        exact Nat.lt_succ_self _
      · exact .inr (.inr hr)
  · intro m b hm hb hp
    exact .inr (.inr (con.other _ b _ (hI m (Nat.le_trans hk hm)) (c.move m b hb) hp))
  · intro m hm
    rcases Nat.lt_or_eq_of_le (hmono m hm) with hgt | heq
    · exact .inl hgt
    · exact .inr (con.ready _ (hI m (Nat.le_trans hk hm)) (hheld m hm heq.symm))

/-- Whatever is pushed is finished some day, in the order of the pushes. -/
theorem serves (k : Nat) : ∃ m, k ≤ m ∧ pushed ((c.labels 0 k).filterMap g) <+:
    finished ((c.labels 0 m).filterMap g) := by
  suffices h : ∀ d m, n ≤ m → k ≤ m → (pushed ((c.labels 0 k).filterMap g)).length -
      (finished ((c.labels 0 m).filterMap g)).length = d →
      ∃ m, k ≤ m ∧ (pushed ((c.labels 0 k).filterMap g)).length ≤
        (finished ((c.labels 0 m).filterMap g)).length by
    obtain ⟨m, hm, hle⟩ := h _ (max n k) (Nat.le_max_left ..) (Nat.le_max_right ..) rfl
    refine ⟨m, hm, List.prefix_of_prefix_length_le (pushed_mono hm) ?_ hle⟩
    have hcons := conserve ((c.run_start m).simulate sim)
    rw [h0, List.nil_append] at hcons
    exact ⟨_, hcons.symm⟩
  intro d
  induction d using Nat.strongRecOn with
  | _ d ih =>
    intro m hn hk hd
    by_cases hle : (pushed ((c.labels 0 k).filterMap g)).length ≤
        (finished ((c.labels 0 m).filterMap g)).length
    · exact ⟨m, hk, hle⟩
    · obtain ⟨m', hm', hlt⟩ := con.finishes sim h0 hfair hI hn
        (Nat.lt_of_lt_of_le (Nat.lt_of_not_le hle) (pushed_mono hk).length_le)
      exact ih _ (by omega) m' (Nat.le_trans hn hm') (Nat.le_trans hk hm') rfl

end Consumer

end Channel
