import Kpacket.Lts
import Mathlib.Data.List.Induction

/-!
# Histories that see the past

`history g tr` lists what the labels of a run contribute when each is read with the labels before
it. `carry` hands the tags of one list to the results of another, place by place, as a first-in
first-out queue does. Two results that keep the order of their tags come in one order on every list
(`sublist_pair_congr`), and nothing numbered lies between neighbours (`not_between_of_sorted`).
-/

namespace Lts

universe u v w

variable {α : Type u} {β : Type v} {γ : Type w}

def history (g : List α → α → Option β) (tr : List α) : List β :=
  (List.range tr.length).filterMap fun n => tr[n]?.bind (g (tr.take n))

theorem history_snoc (g : List α → α → Option β) (tr : List α) (a : α) :
    history g (tr ++ [a]) = history g tr ++ (g tr a).toList := by
  have hpre : (List.range tr.length).filterMap
      (fun n => (tr ++ [a])[n]?.bind (g ((tr ++ [a]).take n))) = history g tr := by
    refine List.filterMap_congr fun n hn => ?_
    have hlt : n < tr.length := List.mem_range.mp hn
    rw [List.getElem?_append_left hlt, List.take_append_of_le_length (Nat.le_of_lt hlt)]
  have hlast : [tr.length].filterMap (fun n => (tr ++ [a])[n]?.bind (g ((tr ++ [a]).take n))) =
      (g tr a).toList := by
    cases hg : g tr a <;> simp [hg]
  rw [history, List.length_append, List.length_singleton, List.range_succ, List.filterMap_append,
    hpre, hlast]

theorem map_history {g : List α → α → Option β} {f : β → γ} {h : α → Option γ}
    (hg : ∀ tr a, (g tr a).map f = h a) (tr : List α) :
    (history g tr).map f = tr.filterMap h := by
  induction tr using List.reverseRecOn with
  | nil => rfl
  | append_singleton tr a ih =>
    rw [history_snoc, filterMap_snoc, List.map_append, ih, ← hg tr a]
    cases g tr a <;> rfl

/-- The results of `l` with the tags of their places. -/
def carry (f : β → Option γ) (tags : List α) (l : List β) : List (α × γ) :=
  (tags.zip l).filterMap fun x => (f x.2).map fun y => (x.1, y)

theorem mem_carry {f : β → Option γ} {tags : List α} {l : List β} {x : α × γ}
    (h : x ∈ carry f tags l) :
    ∃ (k : Nat) (y : β), tags[k]? = some x.1 ∧ l[k]? = some y ∧ f y = some x.2 := by
  obtain ⟨⟨t, y⟩, hz, hx⟩ := List.mem_filterMap.mp h
  obtain ⟨z, hz', rfl⟩ := Option.map_eq_some_iff.mp hx
  obtain ⟨k, hk⟩ := List.getElem?_of_mem hz
  obtain ⟨ht, hy⟩ := List.getElem?_zip_eq_some.mp hk
  exact ⟨k, y, ht, hy, hz'⟩

/-- With a tag for every place no result is lost. -/
theorem carry_results (f : β → Option γ) {tags : List α} {l : List β}
    (h : l.length ≤ tags.length) : (carry f tags l).map Prod.snd = l.filterMap f := by
  have hsnd : ∀ x : α × β, ((f x.2).map fun y => (x.1, y)).map Prod.snd = f x.2 := by
    intro x
    rw [Option.map_map]
    exact Option.map_id' ..
  calc
    (carry f tags l).map Prod.snd = (tags.zip l).filterMap fun x => f x.2 := by
      simp only [carry, List.map_filterMap, hsnd]
    _ = ((tags.zip l).map Prod.snd).filterMap f := (List.filterMap_map ..).symm
    _ = l.filterMap f := by rw [List.map_snd_zip h]

theorem carry_tags_sublist (f : β → Option γ) (tags : List α) (l : List β) :
    ((carry f tags l).map Prod.fst).Sublist tags := by
  induction tags generalizing l with
  | nil => simp [carry]
  | cons t tags ih =>
    cases l with
    | nil => simp [carry]
    | cons y l =>
      cases hy : f y with
      | none => simpa [carry, hy] using (ih l).cons t
      | some z => simpa [carry, hy] using (ih l).cons_cons t

/-! ### Order -/

theorem sublist_pair_or {l : List α} {a b : α} (ha : a ∈ l) (hb : b ∈ l) (hne : a ≠ b) :
    [a, b].Sublist l ∨ [b, a].Sublist l := by
  obtain ⟨l₁, l₂, rfl⟩ := List.append_of_mem ha
  rcases List.mem_append.mp hb with hb | hb
  · exact .inr ((List.singleton_sublist.mpr hb).append
      (List.singleton_sublist.mpr (List.mem_cons_self ..)))
  · have hb₂ : b ∈ l₂ := (List.mem_cons.mp hb).resolve_left (Ne.symm hne)
    exact .inl (((List.singleton_sublist.mpr hb₂).cons_cons a).trans
      (List.sublist_append_right l₁ _))

theorem sublist_pair_iff {R : α → α → Prop} {l : List α} {a b : α} (h : l.Pairwise R)
    (hR : R a b → ¬ R b a) (ha : a ∈ l) (hb : b ∈ l) (hne : a ≠ b) :
    [a, b].Sublist l ↔ ¬ R b a := by
  have hall : ∀ {a b : α}, [a, b].Sublist l → R a b := List.pairwise_iff_forall_sublist.mp h
  refine ⟨fun hab => hR (hall hab), fun hba => ?_⟩
  exact (sublist_pair_or ha hb hne).resolve_right fun hs => hba (hall hs)

theorem sublist_pair_congr {R : α → α → Prop} {l l' : List α} {a b : α} (h : l.Pairwise R)
    (h' : l'.Pairwise R) (hR : R a b → ¬ R b a) (ha : a ∈ l) (hb : b ∈ l) (ha' : a ∈ l')
    (hb' : b ∈ l') (hne : a ≠ b) : [a, b].Sublist l ↔ [a, b].Sublist l' :=
  (sublist_pair_iff h hR ha hb hne).trans (sublist_pair_iff h' hR ha' hb' hne).symm

/-! ### Neighbours -/

theorem filter_between {i j n : Nat} (hij : i < j) (hjn : j ≤ n) :
    (List.range n).filter (fun k => i < k && k < j) = List.range' (i + 1) (j - i - 1) := by
  have hsplit : List.range n =
      List.range' 0 (i + 1) ++ (List.range' (i + 1) (j - i - 1) ++ List.range' j (n - j)) := by
    have h1 := @List.range'_append_1 (i + 1) (j - i - 1) (n - j)
    rw [show i + 1 + (j - i - 1) = j by omega] at h1
    have h2 := @List.range'_append_1 0 (i + 1) (j - i - 1 + (n - j))
    rw [Nat.zero_add] at h2
    rw [h1, h2, List.range_eq_range']
    congr 1
    omega
  rw [hsplit, List.filter_append, List.filter_append, List.filter_eq_nil_iff.mpr,
    List.filter_eq_self.mpr, List.filter_eq_nil_iff.mpr, List.nil_append, List.append_nil]
  all_goals
    intro k hk
    have := List.mem_range'_1.mp hk
    simp
    omega

theorem not_between_of_sorted {pre post : List (Nat × β)} {a b d : Nat × β}
    (h : (pre ++ a :: b :: post).Pairwise (·.1 < ·.1)) (hd : d ∈ pre ++ a :: b :: post) :
    d.1 ≤ a.1 ∨ b.1 ≤ d.1 := by
  obtain ⟨-, htail, hpre⟩ := List.pairwise_append.mp h
  obtain ⟨-, htail⟩ := List.pairwise_cons.mp htail
  obtain ⟨hpost, -⟩ := List.pairwise_cons.mp htail
  rcases List.mem_append.mp hd with hd | hd
  · exact .inl (Nat.le_of_lt (hpre d hd a (List.mem_cons_self ..)))
  · rcases List.mem_cons.mp hd with rfl | hd
    · exact .inl (Nat.le_refl _)
    · rcases List.mem_cons.mp hd with rfl | hd
      · exact .inr (Nat.le_refl _)
      · exact .inr (Nat.le_of_lt (hpost d hd))

end Lts
