import Kpacket.Lts

/-!
# Schedules and fairness

A `Schedule` is an infinite behaviour: at every instant one step, or a pause. It is fair to a party
if the party gets a turn again and again unless it has nothing to do. `Schedule.eventually_zero` is
the progress rule: a party that has something to do and comes closer to its end with every turn, and
is not set back by others, gets there in every schedule that is fair to it. `Run.budget` is the
finite counterpart: what a run spends was there at its start.
-/

namespace Lts

universe u v

variable {σ : Type u} {α : Type v} {step : σ → α → Option σ} {s₀ s : σ}

/-- If each step that `p` picks is paid for from the budget `f`, so are those of a run. -/
theorem Run.budget {tr : List α} {p : α → Bool} {f : σ → Nat} {I : σ → Prop}
    {P : α → Prop} (h : Run step s₀ tr s) (hP : ∀ a ∈ tr, P a) (h0 : I s₀)
    (hstep : ∀ s a s', I s → P a → step s a = some s' →
      I s' ∧ (p a).toNat + f s' ≤ f s) :
    I s ∧ tr.countP p + f s ≤ f s₀ := by
  induction h with
  | nil => exact ⟨h0, by simp⟩
  | @snoc tr s s' a _ hs ih =>
    obtain ⟨hi, hle⟩ := ih fun b hb => hP b (List.mem_append_left _ hb)
    obtain ⟨hi', hle'⟩ := hstep s a s' hi (hP a (by simp)) hs
    refine ⟨hi', ?_⟩
    rw [List.countP_append]
    cases ha : p a <;> simp only [ha, Bool.toNat_true, Bool.toNat_false] at hle' <;>
      simp only [List.countP_singleton, ha, if_true, Bool.false_eq_true, if_false] <;> omega

/-! ### Schedules -/

structure Schedule (step : σ → α → Option σ) (s₀ : σ) where
  state : Nat → σ
  label : Nat → Option α
  start : state 0 = s₀
  pause : ∀ n, label n = none → state (n + 1) = state n
  move : ∀ n a, label n = some a → step (state n) a = some (state (n + 1))

namespace Schedule

variable (c : Schedule step s₀)

/-- The labels of the `k` instants from `n` on. -/
def labels (n k : Nat) : List α := (List.range' n k).filterMap c.label

theorem labels_succ (n k : Nat) :
    c.labels n (k + 1) = c.labels n k ++ (c.label (n + k)).toList := by
  rw [labels, List.range'_1_concat, filterMap_snoc]
  rfl

theorem mem_labels {n k : Nat} {a : α} (h : a ∈ c.labels n k) :
    ∃ m, n ≤ m ∧ c.label m = some a := by
  obtain ⟨m, hm, ha⟩ := List.mem_filterMap.mp h
  exact ⟨m, (List.mem_range'_1.mp hm).1, ha⟩

theorem run (n k : Nat) : Run step (c.state n) (c.labels n k) (c.state (n + k)) := by
  induction k with
  | zero => exact .nil
  | succ k ih =>
    rw [labels_succ]
    cases hl : c.label (n + k) with
    | none =>
      rw [Option.toList_none, List.append_nil, ← Nat.add_assoc, c.pause _ hl]
      exact ih
    | some a => exact ih.snoc (c.move _ _ hl)

theorem run_start (k : Nat) : Run step s₀ (c.labels 0 k) (c.state k) := by
  have h := c.run 0 k
  rwa [c.start, Nat.zero_add] at h

/-- What every step from an instant on keeps. -/
theorem invariant {I : σ → Prop} {n : Nat} (h0 : I (c.state n))
    (hstep : ∀ m a, n ≤ m → c.label m = some a → I (c.state m) → I (c.state (m + 1))) :
    ∀ m, n ≤ m → I (c.state m) := by
  intro m hm
  induction hm with
  | refl => exact h0
  | @step m hm ih =>
    cases hl : c.label m with
    | none => rwa [c.pause m hl]
    | some a => exact hstep m a hm hl ih

/-- The party gets a turn again and again unless it has nothing to do. -/
def Fair (party : α → Prop) : Prop :=
  ∀ n, ∃ m, n ≤ m ∧ ((∃ a, c.label m = some a ∧ party a) ∨ ∀ a, party a → step (c.state m) a = none)

variable {c}

theorem eventually_zero {party : α → Prop} {f : σ → Nat} {n : Nat} (hfair : c.Fair party)
    (hturn : ∀ m a, n ≤ m → c.label m = some a → party a →
      f (c.state (m + 1)) < f (c.state m))
    (hother : ∀ m a, n ≤ m → c.label m = some a → ¬ party a →
      f (c.state (m + 1)) ≤ f (c.state m))
    (hready : ∀ m, n ≤ m → 0 < f (c.state m) → ∃ a s, party a ∧ step (c.state m) a = some s) :
    ∃ m, n ≤ m ∧ f (c.state m) = 0 := by
  have hmono : ∀ k m, n ≤ k → k ≤ m → f (c.state m) ≤ f (c.state k) := by
    intro k m hk hm
    refine c.invariant (I := fun s => f s ≤ f (c.state k)) (Nat.le_refl _) ?_ m hm
    intro m a hm ha hle
    by_cases hp : party a
    · exact Nat.le_trans (Nat.le_of_lt (hturn m a (Nat.le_trans hk hm) ha hp)) hle
    · exact Nat.le_trans (hother m a (Nat.le_trans hk hm) ha hp) hle
  -- from any instant on, by induction on the rank there
  suffices h : ∀ r k, n ≤ k → f (c.state k) = r → ∃ m, n ≤ m ∧ f (c.state m) = 0 from
    h _ n (Nat.le_refl n) rfl
  intro r
  induction r using Nat.strongRecOn with
  | _ r ih =>
    intro k hk hr
    obtain ⟨m, hm, hcase⟩ := hfair k
    have hnm := Nat.le_trans hk hm
    rcases Nat.eq_zero_or_pos (f (c.state m)) with hz | hpos
    · exact ⟨m, hnm, hz⟩
    · rcases hcase with ⟨a, ha, hp⟩ | hnone
      · have hlt := hturn m a hnm ha hp
        have hle := hmono k m hk hm
        exact ih _ (by omega) (m + 1) (Nat.le_succ_of_le hnm) rfl
      · obtain ⟨a, s, hp, hs⟩ := hready m hnm hpos
        rw [hnone a hp] at hs
        cases hs

end Schedule

/-! ### A run followed by a pause -/

theorem exec_take {as : List α} (h : exec step s₀ as = some s) (n : Nat) :
    ∃ s', exec step s₀ (as.take n) = some s' := by
  rw [← List.take_append_drop n as, exec_append] at h
  obtain ⟨s', hs, -⟩ := Option.bind_eq_some_iff.mp h
  exact ⟨s', hs⟩

namespace Schedule

/-- The steps of a list and nothing after them. -/
def ofExec (as : List α) (h : exec step s₀ as = some s) : Schedule step s₀ where
  state n := (exec step s₀ (as.take n)).getD s₀
  label n := as[n]?
  start := by rw [List.take_zero]; rfl
  pause n hn := by rw [List.take_add_one, hn, Option.toList_none, List.append_nil]
  move n a ha := by
    obtain ⟨s₁, h₁⟩ := exec_take h n
    obtain ⟨s₂, h₂⟩ := exec_take h (n + 1)
    have hstep := h₂
    rw [List.take_add_one, ha, Option.toList_some, exec_append, h₁, Option.bind_some, exec] at hstep
    obtain ⟨s', hs, he⟩ := Option.bind_eq_some_iff.mp hstep
    rw [h₁, h₂, Option.getD_some, Option.getD_some, hs]
    exact he

theorem mem_of_label_ofExec {as bs : List α} {h : exec step s₀ (as ++ bs) = some s} {m : Nat}
    {a : α} (hm : as.length ≤ m) (ha : (ofExec (as ++ bs) h).label m = some a) : a ∈ bs := by
  have ha' : (as ++ bs)[m]? = some a := ha
  rw [List.getElem?_append_right hm] at ha'
  exact List.mem_of_getElem? ha'

theorem fair_ofExec {as : List α} {h : exec step s₀ as = some s} {party : α → Prop}
    (hnone : ∀ a, party a → step s a = none) : (ofExec as h).Fair party := by
  intro n
  refine ⟨n + as.length, Nat.le_add_right .., .inr fun a ha => ?_⟩
  have hs : (ofExec as h).state (n + as.length) = s := by
    show (exec step s₀ (as.take (n + as.length))).getD s₀ = s
    rw [List.take_of_length_le (Nat.le_add_left ..), h, Option.getD_some]
  rw [hs]
  exact hnone a ha

end Schedule

end Lts
