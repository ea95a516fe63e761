/-!
# Operations that may fail

An operation on a state gives a result or an error, and leaves a state behind in both cases: what
fails half-way has had the effects that came before the failure.
-/

namespace ScriptHost

def Attempt (ε σ α : Type) : Type :=
  σ → Except ε α × σ

namespace Attempt

variable {ε σ α β : Type}

def succeed (a : α) : Attempt ε σ α := fun s =>
  (.ok a, s)

def fail (e : ε) : Attempt ε σ α := fun s =>
  (.error e, s)

def andThen (x : Attempt ε σ α) (f : α → Attempt ε σ β) : Attempt ε σ β := fun s =>
  match x s with
  | (.ok a, s) => f a s
  | (.error e, s) => (.error e, s)

instance : Monad (Attempt ε σ) where
  pure := succeed
  bind := andThen

/-- A result that does not depend on the state. -/
def ofExcept (r : Except ε α) : Attempt ε σ α := fun s =>
  (r, s)

def get : Attempt ε σ σ := fun s =>
  (.ok s, s)

def modify (f : σ → σ) : Attempt ε σ Unit := fun s =>
  (.ok (), f s)

end Attempt

end ScriptHost
