import Kpacket.Channel
import Mathlib.Algebra.Group.Nat.Defs

/-!
# A queue whose consumer numbers what it emits

A channel (`Channel`) whose consumer gives every item the next number of a 64-bit counter before it
tries to emit it; an attempt is counted as emitted or as failed. `Ledger` is the account of a run:
every item taken is resolved once, in order, and the numbers of what was emitted are a subsequence
of the numbers given out, which count up from one (`Ledger.increasing`).
-/

namespace Sequencer

open Lts

universe u

variable {α : Type u}

/-- What the consumer is doing: it has taken an item, numbered it, or emitted it but not counted it
yet. -/
inductive Work (α : Type u)
  | idle
  | taken (x : α)
  | stamped (x : α) (n : UInt64)
  | emitted (x : α) (n : UInt64)
deriving DecidableEq

@[simp] def Work.item : Work α → Option α
  | .idle => none
  | .taken x | .stamped x _ | .emitted x _ => some x

/-- The number of the item, until it is emitted. -/
@[simp] def Work.pending : Work α → Option UInt64
  | .stamped _ n => some n
  | _ => none

/-- The number of the item, once it has one. -/
@[simp] def Work.number : Work α → Option UInt64
  | .stamped _ n | .emitted _ n => some n
  | _ => none

@[simp] def Work.emission : Work α → Option (α × UInt64)
  | .emitted x n => some (x, n)
  | _ => none

structure State (α : Type u) where
  queue : List α := []
  work : Work α := .idle
  next : UInt64 := 1
  emitted : UInt64 := 0
  failed : UInt64 := 0

inductive Event (α : Type u)
  | push (x : α)
  | take (x : α)
  | stamp (x : α) (n : UInt64)
  | emit (x : α) (n : UInt64)
  | count (x : α) (n : UInt64)
  | fail (x : α) (n : UInt64)

/-! ### Histories -/

def Event.channel? : Event α → Option (Channel.Event α)
  | .push x => some (.push x)
  | .take x => some (.take x)
  | .count x _ | .fail x _ => some (.finish x)
  | _ => none

@[simp] def Event.stamp? : Event α → Option UInt64
  | .stamp _ n => some n
  | _ => none

@[simp] def Event.emission? : Event α → Option (α × UInt64)
  | .emit x n => some (x, n)
  | _ => none

@[simp] def Event.success? : Event α → Option (α × UInt64)
  | .count x n => some (x, n)
  | _ => none

@[simp] def Event.failure? : Event α → Option α
  | .fail x _ => some x
  | _ => none

/-- An item whose attempt is over: with its number if it was emitted, without one if it failed. -/
@[simp] def Event.resolved? : Event α → Option (α × Option UInt64)
  | .count x n => some (x, some n)
  | .fail x _ => some (x, none)
  | _ => none

def pushed (tr : List (Event α)) : List α := Channel.pushed (tr.filterMap Event.channel?)
def taken (tr : List (Event α)) : List α := Channel.taken (tr.filterMap Event.channel?)
def stamps (tr : List (Event α)) : List UInt64 := tr.filterMap Event.stamp?
def emissions (tr : List (Event α)) : List (α × UInt64) := tr.filterMap Event.emission?
def succeeded (tr : List (Event α)) : List (α × UInt64) := tr.filterMap Event.success?
def failures (tr : List (Event α)) : List α := tr.filterMap Event.failure?
def resolved (tr : List (Event α)) : List (α × Option UInt64) := tr.filterMap Event.resolved?

theorem finished_eq (tr : List (Event α)) :
    Channel.finished (tr.filterMap Event.channel?) = (resolved tr).map Prod.fst := by
  rw [Channel.finished, resolved, List.filterMap_filterMap, List.map_filterMap]
  congr 1
  funext e
  cases e <;> rfl

theorem succeeded_eq (tr : List (Event α)) :
    succeeded tr = (resolved tr).filterMap fun r => r.2.map fun n => (r.1, n) := by
  rw [succeeded, resolved, List.filterMap_filterMap]
  congr 1
  funext e
  cases e <;> rfl

theorem failures_eq (tr : List (Event α)) :
    failures tr = (resolved tr).filterMap fun r => if r.2.isNone then some r.1 else none := by
  rw [failures, resolved, List.filterMap_filterMap]
  congr 1
  funext e
  cases e <;> rfl

theorem length_resolved (tr : List (Event α)) :
    (resolved tr).length = (succeeded tr).length + (failures tr).length := by
  induction tr with
  | nil => rfl
  | cons e tr ih =>
    cases e <;>
      simp only [resolved, succeeded, failures, List.filterMap_cons, Event.resolved?,
        Event.success?, Event.failure?, List.length_cons] at ih ⊢ <;> omega

/-! ### Steps -/

variable [DecidableEq α]

def step (c : State α) : Event α → Option (State α)
  | .push x => some { c with queue := c.queue ++ [x] }
  | .take x =>
    if c.work = .idle ∧ c.queue.head? = some x then
      some { c with queue := c.queue.tail, work := .taken x }
    else none
  | .stamp x n =>
    if c.work = .taken x ∧ n = c.next then
      some { c with next := c.next + 1, work := .stamped x n }
    else none
  | .emit x n => if c.work = .stamped x n then some { c with work := .emitted x n } else none
  | .count x n =>
    if c.work = .emitted x n then some { c with work := .idle, emitted := c.emitted + 1 } else none
  | .fail x n =>
    if c.work = .stamped x n then some { c with work := .idle, failed := c.failed + 1 } else none

def State.channel (c : State α) : Channel.State α := ⟨c.queue, c.work.item⟩

theorem simulation : Simulation (step (α := α)) Channel.step State.channel Event.channel? where
  visible c e c' b hs hb := by
    cases e with
    | push x => cases hb; cases hs; rfl
    | take x =>
      cases hb
      obtain ⟨⟨hw, hq⟩, rfl⟩ := by simpa [step] using hs
      simp [State.channel, Channel.step, Work.item, hw, hq]
    | stamp x n => cases hb
    | emit x n => cases hb
    | count x n =>
      cases hb
      obtain ⟨hw, rfl⟩ := by simpa [step] using hs
      simp [State.channel, Channel.step, Work.item, hw]
    | fail x n =>
      cases hb
      obtain ⟨hw, rfl⟩ := by simpa [step] using hs
      simp [State.channel, Channel.step, Work.item, hw]
  hidden c e c' hs hb := by
    cases e with
    | push x => cases hb
    | take x => cases hb
    | stamp x n =>
      obtain ⟨⟨hw, -⟩, rfl⟩ := by simpa [step] using hs
      simp [State.channel, Work.item, hw]
    | emit x n =>
      obtain ⟨hw, rfl⟩ := by simpa [step] using hs
      simp [State.channel, Work.item, hw]
    | count x n => cases hb
    | fail x n => cases hb

/-! ### The ledger -/

structure Ledger (tr : List (Event α)) (c : State α) : Prop where
  emissions : emissions tr = succeeded tr ++ c.work.emission.toList
  emitted : c.emitted = .ofNat (succeeded tr).length
  failed : c.failed = .ofNat (failures tr).length
  next : c.next = .ofNat ((stamps tr).length + 1)
  stamps : stamps tr = (List.range (stamps tr).length).map fun k => .ofNat (k + 1)
  numbered : (Sequencer.stamps tr).length =
    (resolved tr).length + c.work.number.toList.length
  used : ∃ used, Sequencer.stamps tr = used ++ c.work.pending.toList ∧
    ((Sequencer.emissions tr).map Prod.snd).Sublist used

section Entries

omit [DecidableEq α]

variable {c c' : State α} {tr : List (Event α)} {e : Event α}

theorem ledger_nil : Ledger [] ({} : State α) :=
  ⟨rfl, rfl, rfl, rfl, rfl, rfl, [], rfl, List.Sublist.refl _⟩

theorem Ledger.snoc (h : Ledger tr c)
    (hem : succeeded tr ++ c.work.emission.toList ++ e.emission?.toList =
      succeeded tr ++ e.success?.toList ++ c'.work.emission.toList)
    (hsu : c'.emitted = c.emitted + .ofNat e.success?.toList.length)
    (hfa : c'.failed = c.failed + .ofNat e.failure?.toList.length)
    (hst : ∀ n ∈ e.stamp?, n = c.next) (hne : c'.next = c.next + .ofNat e.stamp?.toList.length)
    (hnu : c.work.number.toList.length + e.stamp?.toList.length =
      e.resolved?.toList.length + c'.work.number.toList.length)
    (hus : ∀ used : List UInt64, ((Sequencer.emissions tr).map Prod.snd).Sublist used →
      ∃ used', used ++ c.work.pending.toList ++ e.stamp?.toList =
          used' ++ c'.work.pending.toList ∧
        ((Sequencer.emissions tr).map Prod.snd ++ e.emission?.toList.map Prod.snd).Sublist used') :
    Ledger (tr ++ [e]) c' := by
  have h1 : Sequencer.emissions (tr ++ [e]) = Sequencer.emissions tr ++ e.emission?.toList :=
    filterMap_snoc ..
  have h2 : succeeded (tr ++ [e]) = succeeded tr ++ e.success?.toList := filterMap_snoc ..
  have h3 : failures (tr ++ [e]) = failures tr ++ e.failure?.toList := filterMap_snoc ..
  have h4 : Sequencer.stamps (tr ++ [e]) = Sequencer.stamps tr ++ e.stamp?.toList :=
    filterMap_snoc ..
  have h5 : resolved (tr ++ [e]) = resolved tr ++ e.resolved?.toList := filterMap_snoc ..
  refine ⟨?_, ?_, ?_, ?_, ?_, ?_, ?_⟩
  · rw [h1, h2, h.emissions, hem]
  · rw [h2, hsu, h.emitted, List.length_append, UInt64.ofNat_add]
  · rw [h3, hfa, h.failed, List.length_append, UInt64.ofNat_add]
  · rw [h4, hne, h.next, List.length_append, ← UInt64.ofNat_add]
    congr 1
    omega
  · rw [h4]
    cases hn : e.stamp? with
    | none => simpa using h.stamps
    | some n =>
      obtain rfl := hst n hn
      simp only [Option.toList_some, List.length_append, List.length_singleton, List.range_succ,
        List.map_append, List.map_singleton, ← h.stamps, h.next]
  · rw [h4, h5, List.length_append, List.length_append, h.numbered]
    omega
  · obtain ⟨used, hused, hsub⟩ := h.used
    obtain ⟨used', hused', hsub'⟩ := hus used hsub
    exact ⟨used', by rw [h4, hused, hused'], by rw [h1, List.map_append]; exact hsub'⟩

end Entries

variable {c c' : State α} {tr : List (Event α)}

theorem ledger_step {e : Event α} (h : Ledger tr c) (hs : step c e = some c') :
    Ledger (tr ++ [e]) c' := by
  cases e with
  | push x =>
    cases hs
    exact h.snoc (by simp) (by simp) (by simp) (by simp) (by simp) (by simp)
      fun used hu => ⟨used, by simp, by simpa using hu⟩
  | take x =>
    obtain ⟨⟨hw, -⟩, rfl⟩ := by simpa [step] using hs
    exact h.snoc (by simp [hw]) (by simp) (by simp) (by simp) (by simp) (by simp [hw])
      fun used hu => ⟨used, by simp [hw], by simpa using hu⟩
  | stamp x n =>
    obtain ⟨⟨hw, rfl⟩, rfl⟩ := by simpa [step] using hs
    exact h.snoc (by simp [hw]) (by simp) (by simp) (by simp) (by simp) (by simp [hw])
      fun used hu => ⟨used, by simp [hw], by simpa using hu⟩
  | emit x n =>
    obtain ⟨hw, rfl⟩ := by simpa [step] using hs
    exact h.snoc (by simp [hw]) (by simp) (by simp) (by simp) (by simp) (by simp [hw])
      fun used hu => ⟨used ++ [n], by simp [hw], by simpa using hu.append (List.Sublist.refl [n])⟩
  | count x n =>
    obtain ⟨hw, rfl⟩ := by simpa [step] using hs
    exact h.snoc (by simp [hw]) (by simp) (by simp) (by simp) (by simp) (by simp [hw])
      fun used hu => ⟨used, by simp [hw], by simpa using hu⟩
  | fail x n =>
    obtain ⟨hw, rfl⟩ := by simpa [step] using hs
    -- the number of the failed item stays unused
    exact h.snoc (by simp [hw]) (by simp) (by simp) (by simp) (by simp) (by simp [hw])
      fun used hu => ⟨used ++ [n], by simp [hw],
        by simpa using hu.trans (List.sublist_append_left used [n])⟩

theorem ledger (h : Run step {} tr c) : Ledger tr c := by
  induction h with
  | nil => exact ledger_nil
  | snoc _ hs ih => exact ledger_step ih hs

/-! ### What a run amounts to -/

theorem pushed_eq (h : Run step {} tr c) : pushed tr = taken tr ++ c.queue := by
  have hr : Run Channel.step (State.channel {}) _ _ := h.simulate simulation
  have hp := Channel.conserve hr
  have ht := Channel.taken_eq hr rfl
  rw [pushed, taken, ht]
  simpa [Channel.State.held, State.channel, Work.item] using hp

theorem taken_eq (h : Run step {} tr c) :
    taken tr = (resolved tr).map Prod.fst ++ c.work.item.toList := by
  have hr : Run Channel.step (State.channel {}) _ _ := h.simulate simulation
  rw [taken, Channel.taken_eq hr rfl, finished_eq]
  rfl

theorem length_stamps_le (h : Run step {} tr c) : (stamps tr).length ≤ (taken tr).length := by
  have hn := (ledger h).numbered
  have ht := congrArg List.length (taken_eq h)
  rw [List.length_append, List.length_map] at ht
  have hw : c.work.number.toList.length ≤ c.work.item.toList.length := by
    cases c.work <;> simp
  omega

omit [DecidableEq α] in
theorem Ledger.increasing (h : Ledger tr c) (hlt : (Sequencer.stamps tr).length < 2 ^ 64) :
    ((Sequencer.emissions tr).map Prod.snd).Pairwise (· < ·) := by
  have hs : (Sequencer.stamps tr).Pairwise (· < ·) := by
    rw [h.stamps, List.pairwise_map]
    refine List.Pairwise.imp_of_mem ?_ List.pairwise_lt_range
    intro a b ha hb hab
    rw [List.mem_range] at ha hb
    have hv : ∀ k < (Sequencer.stamps tr).length, (UInt64.ofNat (k + 1)).toNat = k + 1 :=
      fun k hk => UInt64.toNat_ofNat_of_lt' (by show _ < 2 ^ 64; omega)
    rw [UInt64.lt_iff_toNat_lt, hv a ha, hv b hb]
    omega
  obtain ⟨used, hused, hsub⟩ := h.used
  refine hs.sublist (hsub.trans ?_)
  rw [hused]
  exact List.sublist_append_left ..

/-! ### Attempts -/

/-- The end of an attempt to emit an item: with its number if it was emitted. -/
@[simp] def Event.attempt? : Event α → Option (α × Option UInt64)
  | .emit x n => some (x, some n)
  | .fail x _ => some (x, none)
  | _ => none

def attempts (tr : List (Event α)) : List (α × Option UInt64) := tr.filterMap Event.attempt?

/-- The item that is taken and not attempted yet. -/
@[simp] def Work.untried : Work α → Option α
  | .taken x | .stamped x _ => some x
  | _ => none

/-- Attempts are numbered in the order in which their items are taken, from one. -/
structure Numbered (tr : List (Event α)) (c : State α) : Prop where
  items : (attempts tr).map Prod.fst =
    (resolved tr).map Prod.fst ++ c.work.emission.toList.map Prod.fst
  next : c.next = .ofNat ((attempts tr).length + c.work.pending.toList.length + 1)
  pending : ∀ n ∈ c.work.pending, n = UInt64.ofNat ((attempts tr).length + 1)
  numbers : ∀ k x n, (attempts tr)[k]? = some (x, some n) → n = UInt64.ofNat (k + 1)

omit [DecidableEq α] in
theorem Numbered.snoc {e : Event α} (h : Numbered tr c)
    (hit : c.work.emission.toList.map Prod.fst ++ e.attempt?.toList.map Prod.fst =
      e.resolved?.toList.map Prod.fst ++ c'.work.emission.toList.map Prod.fst)
    (hne : c'.next = c.next + .ofNat e.stamp?.toList.length)
    (hlen : c.work.pending.toList.length + e.stamp?.toList.length =
      e.attempt?.toList.length + c'.work.pending.toList.length)
    (hpe : ∀ n ∈ c'.work.pending, n = c.next ∧ e.attempt? = none ∧ c.work.pending = none ∨
      n ∈ c.work.pending ∧ e.attempt? = none)
    (hat : ∀ x n, e.attempt? = some (x, some n) → n ∈ c.work.pending) :
    Numbered (tr ++ [e]) c' := by
  have h1 : attempts (tr ++ [e]) = attempts tr ++ e.attempt?.toList := filterMap_snoc ..
  have h2 : resolved (tr ++ [e]) = resolved tr ++ e.resolved?.toList := filterMap_snoc ..
  refine ⟨?_, ?_, ?_, ?_⟩
  · rw [h1, h2, List.map_append, List.map_append, h.items, List.append_assoc, hit,
      List.append_assoc]
  · rw [h1, hne, h.next, List.length_append, ← UInt64.ofNat_add]
    congr 1
    omega
  · intro n hn
    rw [h1]
    rcases hpe n hn with ⟨rfl, ha, hp⟩ | ⟨hp, ha⟩
    · rw [h.next, hp, ha, Option.toList_none, Option.toList_none, List.append_nil]
      rfl
    · rw [ha, Option.toList_none, List.append_nil]
      exact h.pending n hp
  · intro k x n hk
    rw [h1] at hk
    rcases Nat.lt_or_ge k (attempts tr).length with hlt | hge
    · rw [List.getElem?_append_left hlt] at hk
      exact h.numbers k x n hk
    · rw [List.getElem?_append_right hge] at hk
      cases ha : e.attempt? with
      | none => rw [ha] at hk; cases hk
      | some a =>
        rw [ha, Option.toList_some, List.getElem?_singleton] at hk
        split_ifs at hk with h0
        obtain rfl := Option.some.inj hk
        rw [h.pending n (hat x n ha)]
        congr 1
        omega

theorem numbered_step {e : Event α} (h : Numbered tr c) (hs : step c e = some c') :
    Numbered (tr ++ [e]) c' := by
  cases e with
  | push x =>
    cases hs
    exact h.snoc (by simp) (by simp) (by simp) (fun n hn => .inr ⟨hn, rfl⟩) (by simp)
  | take x =>
    obtain ⟨⟨hw, -⟩, rfl⟩ := by simpa [step] using hs
    exact h.snoc (by simp [hw]) (by simp) (by simp [hw]) (by simp) (by simp)
  | stamp x n =>
    obtain ⟨⟨hw, rfl⟩, rfl⟩ := by simpa [step] using hs
    exact h.snoc (by simp [hw]) (by simp) (by simp [hw]) (by simp [hw]) (by simp)
  | emit x n =>
    obtain ⟨hw, rfl⟩ := by simpa [step] using hs
    exact h.snoc (by simp [hw]) (by simp) (by simp [hw]) (by simp) (by simp [hw])
  | count x n =>
    obtain ⟨hw, rfl⟩ := by simpa [step] using hs
    exact h.snoc (by simp [hw]) (by simp) (by simp [hw]) (by simp) (by simp)
  | fail x n =>
    obtain ⟨hw, rfl⟩ := by simpa [step] using hs
    exact h.snoc (by simp [hw]) (by simp) (by simp [hw]) (by simp) (by simp)

theorem numbered (h : Run step {} tr c) : Numbered tr c := by
  induction h with
  | nil => exact ⟨rfl, rfl, by simp, by simp [attempts]⟩
  | snoc _ hs ih => exact numbered_step ih hs

/-- Every item taken is attempted once, in this order, unless it is still in hand. -/
theorem taken_eq_attempts (h : Run step {} tr c) :
    taken tr = (attempts tr).map Prod.fst ++ c.work.untried.toList := by
  rw [taken_eq h, (numbered h).items, List.append_assoc]
  congr 1
  cases c.work <;> rfl

end Sequencer
