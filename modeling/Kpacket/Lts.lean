import Mathlib.Data.List.Basic

/-!
# Labelled transition systems and their runs

`Run step s₀ tr s`: the labels of `tr`, taken in order from `s₀`, lead to `s`. Histories are read
off `tr`, so the states carry no bookkeeping. `Run.invariant` is the induction over a run,
`Run.simulate` transports runs along a projection that sends every label to one abstract label or to
none, and `Run.guarded` is the induction for runs all of whose steps meet a condition.
-/

namespace Lts

universe u v w x y z

variable {σ : Type u} {α : Type v} {τ : Type w} {β : Type x}

theorem filterMap_snoc (g : α → Option β) (tr : List α) (a : α) :
    (tr ++ [a]).filterMap g = tr.filterMap g ++ (g a).toList := by
  rw [List.filterMap_append]
  cases h : g a <;> simp [h]

theorem filterMap_map_of_none {f : τ → α} {g : α → Option β} (h : ∀ x, g (f x) = none)
    (l : List τ) : (l.map f).filterMap g = [] := by
  rw [List.filterMap_map, List.filterMap_eq_nil_iff]
  exact fun x _ => h x

/-- Runs of `step` from `s₀`, extended on the right. -/
inductive Run (step : σ → α → Option σ) (s₀ : σ) : List α → σ → Prop
  | nil : Run step s₀ [] s₀
  | snoc {tr : List α} {s s' : σ} {a : α} (h : Run step s₀ tr s) (hs : step s a = some s') :
      Run step s₀ (tr ++ [a]) s'

/-- The state after the labels of a list; `none` once a label is not enabled. -/
def exec (step : σ → α → Option σ) : σ → List α → Option σ
  | s, [] => some s
  | s, a :: as => (step s a).bind fun s' => exec step s' as

theorem exec_append (step : σ → α → Option σ) (s : σ) (as bs : List α) :
    exec step s (as ++ bs) = (exec step s as).bind fun s' => exec step s' bs := by
  induction as generalizing s with
  | nil => rfl
  | cons a as ih =>
    rw [List.cons_append, exec, exec]
    cases step s a with
    | none => rfl
    | some s' => exact ih s'

namespace Run

variable {step : σ → α → Option σ} {s₀ s s' : σ} {tr tr' : List α}

theorem single {a : α} (h : step s₀ a = some s) : Run step s₀ [a] s := by
  simpa using nil.snoc h

theorem append (h : Run step s₀ tr s) (h' : Run step s tr' s') : Run step s₀ (tr ++ tr') s' := by
  induction h' with
  | nil => simpa using h
  | snoc _ hs ih => rw [← List.append_assoc]; exact ih.snoc hs

theorem cons {a : α} (ha : step s₀ a = some s) (h : Run step s tr s') :
    Run step s₀ (a :: tr) s' :=
  (single ha).append h

theorem of_exec : ∀ {as : List α} {s₀ s : σ}, exec step s₀ as = some s → Run step s₀ as s
  | [], s₀, s, h => by cases h; exact nil
  | a :: as, s₀, s, h => by
    obtain ⟨s', ha, h⟩ := Option.bind_eq_some_iff.mp h
    exact cons ha (of_exec h)

theorem exec_eq (h : Run step s₀ tr s) : exec step s₀ tr = some s := by
  induction h with
  | nil => rfl
  | snoc _ hs ih => rw [exec_append, ih, Option.bind_some, exec, hs]; rfl

/-- A predicate on history and state that holds at the start and is kept by every step of a run
holds at its end. -/
theorem invariant {I : List α → σ → Prop} (h : Run step s₀ tr s) (h0 : I [] s₀)
    (hstep : ∀ tr s a s', Run step s₀ tr s → I tr s → step s a = some s' → I (tr ++ [a]) s') :
    I tr s := by
  induction h with
  | nil => exact h0
  | snoc h hs ih => exact hstep _ _ _ _ h ih hs

theorem invariant_state {I : σ → Prop} (h : Run step s₀ tr s) (h0 : I s₀)
    (hstep : ∀ s a s', I s → step s a = some s' → I s') : I s :=
  h.invariant (I := fun _ s => I s) h0 fun _ s a s' _ => hstep s a s'

theorem eq_of_nil (h : Run step s₀ [] s) : s = s₀ := by
  generalize ht : ([] : List α) = t at h
  cases h with
  | nil => rfl
  | snoc => simp at ht

theorem of_snoc {a : α} (h : Run step s₀ (tr ++ [a]) s') :
    ∃ s, Run step s₀ tr s ∧ step s a = some s' := by
  generalize ht : tr ++ [a] = t at h
  cases h with
  | nil => simp at ht
  | snoc h hs =>
    obtain ⟨rfl, ha⟩ := List.append_inj' ht rfl
    cases ha
    exact ⟨_, h, hs⟩

theorem of_append {post : List α} (h : Run step s₀ (tr ++ post) s') :
    ∃ s, Run step s₀ tr s ∧ Run step s post s' := by
  induction post generalizing tr with
  | nil => exact ⟨s', by simpa using h, .nil⟩
  | cons a post ih =>
    rw [List.append_cons] at h
    obtain ⟨s₁, h₁, hp⟩ := ih h
    obtain ⟨s, hs, ha⟩ := h₁.of_snoc
    exact ⟨s, hs, cons ha hp⟩

theorem det (h : Run step s₀ tr s) (h' : Run step s₀ tr s') : s = s' := by
  induction h generalizing s' with
  | nil => exact h'.eq_of_nil.symm
  | snoc _ hs ih =>
    obtain ⟨s₁, h₁, hs₁⟩ := h'.of_snoc
    obtain rfl := ih h₁
    exact Option.some.inj (hs.symm.trans hs₁)

theorem next {a : α} {post : List α} (h : Run step s₀ (tr ++ a :: post) s')
    (h₁ : Run step s₀ tr s) : ∃ s₂, step s a = some s₂ := by
  rw [List.append_cons] at h
  obtain ⟨s₂, h₂, -⟩ := h.of_append
  obtain ⟨s₁, hs, ha⟩ := h₂.of_snoc
  obtain rfl := h₁.det hs
  exact ⟨s₂, ha⟩

end Run

/-- `P` holds in every state that the run of `tr` from `s₀` passes through. -/
def Throughout (step : σ → α → Option σ) (P : σ → Prop) (s₀ : σ) (tr : List α) : Prop :=
  ∀ pre post s, tr = pre ++ post → Run step s₀ pre s → P s

/-- Every step of the run of `tr` from `s₀` meets `P` in the state it is taken in. -/
def Steps (step : σ → α → Option σ) (P : σ → α → Prop) (s₀ : σ) (tr : List α) : Prop :=
  ∀ pre a post s, tr = pre ++ a :: post → Run step s₀ pre s → P s a

namespace Steps

variable {step : σ → α → Option σ} {P : σ → α → Prop} {s₀ s : σ} {tr : List α} {a : α}

theorem nil : Steps step P s₀ [] := by
  intro pre a post s h
  simp at h

theorem of_append {post : List α} (h : Steps step P s₀ (tr ++ post)) : Steps step P s₀ tr := by
  rintro pre b post' s rfl hr
  exact h pre b (post' ++ post) s (by simp) hr

theorem last (h : Steps step P s₀ (tr ++ [a])) (hr : Run step s₀ tr s) : P s a :=
  h tr a [] s rfl hr

theorem snoc (h : Steps step P s₀ tr) (hr : Run step s₀ tr s) (ha : P s a) :
    Steps step P s₀ (tr ++ [a]) := by
  intro pre b post s' ht hr'
  rcases List.eq_nil_or_concat post with rfl | ⟨post, c, rfl⟩
  · obtain ⟨rfl, hb⟩ := List.append_inj' ht rfl
    cases hb
    rwa [hr'.det hr]
  · have ht' : tr ++ [a] = (pre ++ b :: post) ++ [c] := by simpa using ht
    exact h pre b post s' (List.append_inj' ht' rfl).1 hr'

theorem of_forall (h : ∀ pre s a s', Run step s₀ pre s → step s a = some s' → P s a)
    (hr : Run step s₀ tr s) : Steps step P s₀ tr := by
  rintro pre a post s' rfl hr'
  obtain ⟨s₁, ha⟩ := hr.next hr'
  exact h pre s' a s₁ hr' ha

theorem congr {Q : σ → α → Prop} (hr : Run step s₀ tr s)
    (h : ∀ pre a post s s', tr = pre ++ a :: post → Run step s₀ pre s → step s a = some s' →
      (P s a ↔ Q s a)) : Steps step P s₀ tr ↔ Steps step Q s₀ tr := by
  constructor
  · intro hP pre a post s' ht hr'
    obtain ⟨s₁, ha⟩ := (ht ▸ hr).next hr'
    exact (h pre a post s' s₁ ht hr' ha).mp (hP pre a post s' ht hr')
  · intro hQ pre a post s' ht hr'
    obtain ⟨s₁, ha⟩ := (ht ▸ hr).next hr'
    exact (h pre a post s' s₁ ht hr' ha).mpr (hQ pre a post s' ht hr')

end Steps

/-- The invariant rule for runs whose steps all meet `P`. -/
theorem Run.guarded {step : σ → α → Option σ} {P : σ → α → Prop} {s₀ s : σ} {tr : List α}
    {I : List α → σ → Prop} (h : Run step s₀ tr s) (hP : Steps step P s₀ tr) (h0 : I [] s₀)
    (hstep : ∀ tr s a s', Run step s₀ tr s → I tr s → P s a → step s a = some s' →
      I (tr ++ [a]) s') : I tr s := by
  induction h with
  | nil => exact h0
  | snoc h hs ih => exact hstep _ _ _ _ h (ih hP.of_append) (hP.last h) hs

/-- A projection of states and labels under which every step of `step` is a step of `step'` or
leaves the projected state alone. -/
structure Simulation (step : σ → α → Option σ) (step' : τ → β → Option τ) (f : σ → τ)
    (g : α → Option β) : Prop where
  visible : ∀ s a s' b, step s a = some s' → g a = some b → step' (f s) b = some (f s')
  hidden : ∀ s a s', step s a = some s' → g a = none → f s' = f s

theorem Simulation.comp {υ : Type y} {γ : Type z} {step : σ → α → Option σ}
    {step' : τ → β → Option τ} {step'' : υ → γ → Option υ} {f : σ → τ} {g : α → Option β}
    {f' : τ → υ} {g' : β → Option γ} (h : Simulation step step' f g)
    (h' : Simulation step' step'' f' g') :
    Simulation step step'' (fun s => f' (f s)) (fun a => (g a).bind g') where
  visible s a s' c hs hc := by
    obtain ⟨b, hb, hc⟩ := Option.bind_eq_some_iff.mp hc
    exact h'.visible _ _ _ _ (h.visible _ _ _ _ hs hb) hc
  hidden s a s' hs hc := by
    cases hb : g a with
    | none => rw [h.hidden _ _ _ hs hb]
    | some b =>
      rw [hb, Option.bind_some] at hc
      exact h'.hidden _ _ _ (h.visible _ _ _ _ hs hb) hc

theorem Run.simulate {step : σ → α → Option σ} {step' : τ → β → Option τ} {f : σ → τ}
    {g : α → Option β} (sim : Simulation step step' f g) {s₀ s : σ} {tr : List α}
    (h : Run step s₀ tr s) : Run step' (f s₀) (tr.filterMap g) (f s) := by
  induction h with
  | nil => exact .nil
  | @snoc tr s s' a h hs ih =>
    rw [List.filterMap_append]
    cases hg : g a with
    | none => simpa [hg, sim.hidden _ _ _ hs hg] using ih
    | some b => simpa [hg] using ih.snoc (sim.visible _ _ _ _ hs hg)

end Lts
