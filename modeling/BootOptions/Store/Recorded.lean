/-
  Boot options — a store under observation.

  The questions that reach a store are remembered in order; the answers are
  those of the store.
-/
import BootOptions.Store

namespace BootOptions

/-- A store together with the questions it was asked. -/
structure Recorded (σ : Type) where
  store : σ
  requests : List Request := []

namespace Recorded

variable {σ : Type}

instance [NameIterator σ] : NameIterator (Recorded σ) where
  next s r :=
    let (a, store) := NameIterator.next s.store r
    (a, ⟨store, s.requests ++ [r]⟩)
  length_next s r := NameIterator.length_next s.store r

instance [VariableStore σ] : VariableStore (Recorded σ) where
  isAvailable s := VariableStore.isAvailable s.store

theorem next_requests [NameIterator σ] (s : Recorded σ) (r : Request) :
    (NameIterator.next s r).2.requests = s.requests ++ [r] := rfl

end Recorded

end BootOptions
