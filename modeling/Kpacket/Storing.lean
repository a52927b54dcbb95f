import Kpacket.JsonLibrary

/-!
# Code that assigns to a target

`Storing σ α` is code that reads and writes a `σ` and may stop with an exception on the way; what it
has assigned before stays. `Keeps f` says that it does not change what `f` reads.
-/

namespace Kpacket

/-- What the code comes to, and the target as it leaves it: assignments made before an exception
stay. -/
def Storing (σ α : Type) := σ → Outcome α × σ

namespace Storing

variable {σ α β : Type}

protected def bind (x : Storing σ α) (f : α → Storing σ β) : Storing σ β := fun s =>
  match x s with
  | (.done a, s) => f a s
  | (.raised what, s) => (.raised what, s)
  | (.undefined, s) => (.undefined, s)

instance : Monad (Storing σ) where
  pure a := fun s => (.done a, s)
  bind := Storing.bind

instance : MonadLift Outcome (Storing σ) where
  monadLift x := fun s => (x, s)

def store (f : σ → σ) : Storing σ Unit := fun s => (.done (), f s)

@[simp] theorem lift_bind_done (a : α) (f : α → Storing σ β) :
    ((liftM (Outcome.done a) : Storing σ α) >>= f) = f a := rfl

theorem lift_bind_rel {γ : Type} {R : Outcome β × σ → Outcome γ → Prop} {x : Outcome α}
    {f : α → Storing σ β} {g : α → Outcome γ} {s : σ}
    (hraised : ∀ what, R (.raised what, s) (.raised what))
    (hundefined : R (.undefined, s) .undefined)
    (hdone : ∀ a, R (f a s) (g a)) : R (((liftM x : Storing σ α) >>= f) s) (x >>= g) := by
  rcases x with a | what | _
  · exact hdone a
  · exact hraised what
  · exact hundefined

@[simp] theorem store_bind_apply (g : σ → σ) (f : Unit → Storing σ β) (s : σ) :
    (store g >>= f) s = f () (g s) := rfl

@[simp] theorem store_apply (g : σ → σ) (s : σ) : store g s = (.done (), g s) := rfl

/-- The code does not change what `f` reads of the target. -/
def Keeps {γ : Type} (f : σ → γ) (x : Storing σ α) : Prop := ∀ s, f (x s).2 = f s

namespace Keeps

variable {γ : Type} {f : σ → γ}

theorem bind {x : Storing σ α} {g : α → Storing σ β} (hx : Keeps f x) (hg : ∀ a, Keeps f (g a)) :
    Keeps f (x >>= g) := by
  intro s
  show f (Storing.bind x g s).2 = f s
  unfold Storing.bind
  have hs := hx s
  rcases hr : x s with ⟨a | what | _, s'⟩ <;> rw [hr] at hs
  · exact (hg a s').trans hs
  · exact hs
  · exact hs

theorem lift (x : Outcome α) : Keeps f (liftM x : Storing σ α) := fun _ => rfl

theorem store {g : σ → σ} (h : ∀ s, f (g s) = f s) : Keeps f (store g) := h

end Keeps

end Storing

end Kpacket
