import NibbleAsm.Diagnostic
import NibbleAsm.Note

/-!
# Operations

An operation takes notes on its way and ends in a value or in a failure. An operation on a state
leaves a state behind however it ends: what it has done before it fails stays done. So it is the
order of its steps that decides whether a failed operation has changed anything.

## Main definitions

* `Traced`: the notes of an operation, and how it ends
* `Effect`: an operation on a state
* `Effect.get`, `Effect.set`: the state is looked at, or replaced
* `Effect.lift`: an operation that has no state
* `Effect.exec`: the state that an operation leaves when it succeeds
-/

namespace NibbleAsm

variable {σ α β : Type}

/-- What an operation notes on its way, and how it ends. -/
structure Traced (α : Type) where
  log : List Note
  result : Except Failure α
  deriving Repr

namespace Traced

/-- An operation with nothing to note. -/
def ofExcept (result : Except Failure α) : Traced α :=
  ⟨[], result⟩

/-- An operation that only takes notes. -/
def notes (log : List Note) : Traced Unit :=
  ⟨log, .ok ()⟩

/-- An operation followed by another, if it succeeds. -/
def bind (x : Traced α) (f : α → Traced β) : Traced β :=
  match x.result with
  | .error e => ⟨x.log, .error e⟩
  | .ok a => ⟨x.log ++ (f a).log, (f a).result⟩

instance : Monad Traced where
  pure a := ⟨[], .ok a⟩
  bind := Traced.bind

end Traced

/-- An operation on a state: the state it leaves behind, what it notes, and how it ends. -/
def Effect (σ α : Type) : Type :=
  σ → σ × Traced α

namespace Effect

/-- An operation that has no state. -/
def lift (x : Traced α) : Effect σ α := fun s =>
  (s, x)

/-- An operation that has no state and nothing to note. -/
def ofExcept (result : Except Failure α) : Effect σ α :=
  lift (.ofExcept result)

/-- An operation that only takes notes. -/
def notes (log : List Note) : Effect σ Unit :=
  lift (.notes log)

/-- Looks at the state. -/
def get : Effect σ σ := fun s =>
  (s, pure s)

/-- Replaces the state. -/
def set (s : σ) : Effect σ Unit := fun _ =>
  (s, pure ())

/-- An operation followed by another, if it succeeds, from the state that it has left. -/
def bind (x : Effect σ α) (f : α → Effect σ β) : Effect σ β := fun s =>
  let done := x s
  match done.2.result with
  | .error e => (done.1, ⟨done.2.log, .error e⟩)
  | .ok a =>
    let next := f a done.1
    (next.1, ⟨done.2.log ++ next.2.log, next.2.result⟩)

instance : Monad (Effect σ) where
  pure a := lift (pure a)
  bind := Effect.bind

/-- The state that an operation leaves when it succeeds, for those who have no use for the state of
an operation that failed. -/
def exec (x : Effect σ Unit) (s : σ) : Traced σ :=
  let done := x s
  ⟨done.2.log, done.2.result.map fun _ => done.1⟩

end Effect

end NibbleAsm
