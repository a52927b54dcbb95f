import Mathlib.Data.List.Basic
import Mathlib.Data.List.Induction
import Mathlib.Tactic.SplitIfs

/-!
# Ordered maps as sorted association lists

`insert`, `erase` and `lookup` on lists sorted by key. Two sorted lists with the same lookups
are equal (`Sorted.ext`), so equations between maps are proved key by key.
-/

namespace KeyMap

universe u v

variable {κ : Type u} {ν : Type v} [LT κ] [DecidableLT κ] [DecidableEq κ]

def lookup (k : κ) : List (κ × ν) → Option ν
  | [] => none
  | (k', x) :: m => if k = k' then some x else lookup k m

/-- Add or overwrite the entry of `k`. -/
def insert (k : κ) (x : ν) : List (κ × ν) → List (κ × ν)
  | [] => [(k, x)]
  | (k', x') :: m =>
    if k = k' then (k, x) :: m
    else if k < k' then (k, x) :: (k', x') :: m
    else (k', x') :: insert k x m

def erase (k : κ) (m : List (κ × ν)) : List (κ × ν) := m.filter fun e => e.1 ≠ k

/-- Build a map from a list of entries; the first entry of a key counts. -/
def ofList : List (κ × ν) → List (κ × ν)
  | [] => []
  | (k, x) :: m => insert k x (ofList m)

def Sorted (m : List (κ × ν)) : Prop := m.Pairwise (·.1 < ·.1)

/-! ### Lookups -/

section Lookup

omit [LT κ] [DecidableLT κ]

@[simp] theorem lookup_nil (k : κ) : lookup k ([] : List (κ × ν)) = none := rfl

theorem lookup_cons (k : κ) (e : κ × ν) (m : List (κ × ν)) :
    lookup k (e :: m) = if k = e.1 then some e.2 else lookup k m := rfl

theorem mem_of_lookup {k : κ} {x : ν} {m : List (κ × ν)} (h : lookup k m = some x) :
    (k, x) ∈ m := by
  induction m with
  | nil => cases h
  | cons e m ih =>
    rw [lookup_cons] at h
    split_ifs at h with hk
    · cases h; subst hk; exact List.mem_cons_self ..
    · exact List.mem_cons_of_mem _ (ih h)

theorem lookup_of_mem {k : κ} {x : ν} {m : List (κ × ν)} (hm : (m.map Prod.fst).Nodup)
    (h : (k, x) ∈ m) : lookup k m = some x := by
  induction m with
  | nil => cases h
  | cons e m ih =>
    obtain ⟨hnew, hm⟩ := List.nodup_cons.mp hm
    rw [lookup_cons]
    rcases List.mem_cons.mp h with rfl | h
    · exact if_pos rfl
    · have hk : k ≠ e.1 := by
        rintro rfl
        exact hnew (List.mem_map.mpr ⟨_, h, rfl⟩)
      rw [if_neg hk, ih hm h]

theorem lookup_erase (k k' : κ) (m : List (κ × ν)) :
    lookup k' (erase k m) = if k' = k then none else lookup k' m := by
  induction m with
  | nil => simp [erase]
  | cons e m ih =>
    simp only [erase, List.filter_cons, lookup_cons] at ih ⊢
    grind [lookup_cons]

theorem lookup_map {μ : Type v} (f : ν → μ) (k : κ) (m : List (κ × ν)) :
    lookup k (m.map fun e => (e.1, f e.2)) = (lookup k m).map f := by
  induction m with
  | nil => rfl
  | cons e m ih =>
    rw [List.map_cons, lookup_cons, lookup_cons, ih]
    split_ifs <;> rfl

theorem lookup_perm {m m' : List (κ × ν)} (h : m.Perm m') (hm : (m.map Prod.fst).Nodup) (k : κ) :
    lookup k m = lookup k m' := by
  induction h with
  | nil => rfl
  | cons e _ ih =>
    rw [lookup_cons, lookup_cons, ih (List.nodup_cons.mp hm).2]
  | swap e e' m =>
    have hne : e'.1 ≠ e.1 := fun h =>
      (List.nodup_cons.mp hm).1 (by rw [h]; exact List.mem_cons_self ..)
    simp only [lookup_cons]
    split_ifs with h1 h2
    · exact absurd (h2.symm.trans h1) hne.symm
    · rfl
    · rfl
    · rfl
  | trans h1 _ ih1 ih2 =>
    exact (ih1 hm).trans (ih2 ((h1.map Prod.fst).nodup_iff.mp hm))

end Lookup

theorem lookup_insert (k k' : κ) (x : ν) (m : List (κ × ν)) :
    lookup k' (insert k x m) = if k' = k then some x else lookup k' m := by
  induction m with
  | nil => simp only [insert, lookup_cons]
  | cons e m ih =>
    obtain ⟨a, y⟩ := e
    unfold insert
    split_ifs with h1 h2 h3 h3 h3
    all_goals
      simp only [lookup_cons, ih]
      grind

@[simp] theorem lookup_insert_self (k : κ) (x : ν) (m : List (κ × ν)) :
    lookup k (insert k x m) = some x := by
  rw [lookup_insert, if_pos rfl]

theorem lookup_foldl_insert (k : κ) (es m : List (κ × ν)) :
    lookup k (es.foldl (fun m e => insert e.1 e.2 m) m) =
      (lookup k es.reverse).or (lookup k m) := by
  induction es using List.reverseRecOn with
  | nil => rfl
  | append_singleton es e ih =>
    rw [List.foldl_append, List.foldl_cons, List.foldl_nil, lookup_insert, ih, List.reverse_append,
      List.reverse_singleton, List.singleton_append, lookup_cons]
    split_ifs <;> rfl

theorem lookup_ofList (k : κ) (m : List (κ × ν)) : lookup k (ofList m) = lookup k m := by
  induction m with
  | nil => rfl
  | cons e m ih => rw [ofList, lookup_insert, lookup_cons, ih]

/-! ### Sortedness -/

theorem mem_insert {k : κ} {x : ν} {m : List (κ × ν)} {e : κ × ν} (h : e ∈ insert k x m) :
    e = (k, x) ∨ e ∈ m := by
  induction m with
  | nil => simpa [insert] using h
  | cons e' m ih =>
    unfold insert at h
    split_ifs at h with h1 h2
    all_goals
      simp only [List.mem_cons] at h ⊢
      grind

omit [DecidableLT κ] [DecidableEq κ] in
theorem Sorted.nil : Sorted ([] : List (κ × ν)) := List.Pairwise.nil

omit [DecidableLT κ] in
theorem Sorted.erase {m : List (κ × ν)} (h : Sorted m) (k : κ) : Sorted (erase k m) :=
  List.Pairwise.filter _ h

section Order

variable [Trans (· < · : κ → κ → Prop) (· < ·) (· < ·)]
  [Std.Trichotomous (· < · : κ → κ → Prop)]

theorem Sorted.insert {m : List (κ × ν)} (h : Sorted m) (k : κ) (x : ν) :
    Sorted (insert k x m) := by
  induction m with
  | nil => exact List.pairwise_singleton _ _
  | cons e m ih =>
    obtain ⟨a, y⟩ := e
    obtain ⟨ha, hm⟩ := List.pairwise_cons.mp h
    unfold KeyMap.insert
    split_ifs with h1 h2
    · subst h1; exact List.pairwise_cons.mpr ⟨ha, hm⟩
    · refine List.pairwise_cons.mpr ⟨fun e he => ?_, h⟩
      rcases List.mem_cons.mp he with rfl | he
      · exact h2
      · exact Trans.trans h2 (ha e he)
    · refine List.pairwise_cons.mpr ⟨fun e he => ?_, ih hm⟩
      rcases mem_insert he with rfl | he
      · exact Classical.byContradiction fun h3 => h1 (Std.Trichotomous.trichotomous k a h2 h3)
      · exact ha e he

theorem sorted_ofList (m : List (κ × ν)) : Sorted (ofList m) := by
  induction m with
  | nil => exact .nil
  | cons e m ih => exact ih.insert e.1 e.2

variable [Std.Irrefl (· < · : κ → κ → Prop)]

omit [DecidableLT κ] [Trans (· < · : κ → κ → Prop) (· < ·) (· < ·)]
  [Std.Trichotomous (· < · : κ → κ → Prop)] in
theorem lookup_eq_none_of_lt {m : List (κ × ν)} {k : κ} (h : ∀ e ∈ m, k < e.1) :
    lookup k m = none := by
  cases hk : lookup k m with
  | none => rfl
  | some x => exact absurd (h _ (mem_of_lookup hk)) (Std.Irrefl.irrefl k)

omit [Std.Trichotomous (· < · : κ → κ → Prop)] in
theorem insert_of_lt {m : List (κ × ν)} {k : κ} (h : ∀ e ∈ m, e.1 < k) (x : ν) :
    insert k x m = m ++ [(k, x)] := by
  induction m with
  | nil => rfl
  | cons e m ih =>
    obtain ⟨a, y⟩ := e
    have hak : a < k := h (a, y) (by simp)
    have hne : k ≠ a := fun hk => Std.Irrefl.irrefl a (hk ▸ hak)
    have hnlt : ¬ k < a := fun hk => Std.Irrefl.irrefl a (Trans.trans hak hk)
    rw [insert, if_neg hne, if_neg hnlt, ih fun e he => h e (by simp [he])]
    rfl

omit [DecidableLT κ] in
theorem Sorted.ext {m m' : List (κ × ν)} (h : Sorted m) (h' : Sorted m')
    (hl : ∀ k, lookup k m = lookup k m') : m = m' := by
  induction m generalizing m' with
  | nil =>
    cases m' with
    | nil => rfl
    | cons e m' => obtain ⟨b, z⟩ := e; exact absurd (hl b) (by simp [lookup_cons])
  | cons e m ih =>
    obtain ⟨a, y⟩ := e
    obtain ⟨ha, hm⟩ := List.pairwise_cons.mp h
    cases m' with
    | nil => exact absurd (hl a) (by simp [lookup_cons])
    | cons e' m' =>
      obtain ⟨b, z⟩ := e'
      obtain ⟨hb, hm'⟩ := List.pairwise_cons.mp h'
      -- the two first keys agree: the smaller one would be missing on the other side
      have hab : a = b := by
        apply Std.Trichotomous.trichotomous (r := (· < · : κ → κ → Prop)) a b
        · intro hlt
          have hn : lookup a ((b, z) :: m') = none := lookup_eq_none_of_lt fun e he => by
            rcases List.mem_cons.mp he with rfl | he
            · exact hlt
            · exact Trans.trans hlt (hb e he)
          exact absurd (hl a) (by rw [hn]; simp [lookup_cons])
        · intro hlt
          have hn : lookup b ((a, y) :: m) = none := lookup_eq_none_of_lt fun e he => by
            rcases List.mem_cons.mp he with rfl | he
            · exact hlt
            · exact Trans.trans hlt (ha e he)
          exact absurd (hl b) (by rw [hn]; simp [lookup_cons])
      subst hab
      have hyz : y = z := by simpa [lookup_cons] using hl a
      subst hyz
      rw [ih hm hm' fun k => ?_]
      by_cases hk : k = a
      · subst hk; rw [lookup_eq_none_of_lt ha, lookup_eq_none_of_lt hb]
      · simpa only [lookup_cons, if_neg hk] using hl k

end Order

end KeyMap
