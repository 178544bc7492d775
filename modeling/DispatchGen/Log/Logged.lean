import DispatchGen.Fault
import DispatchGen.Log.Event

/-!
# Computing with a log

A `Logged α` is a computation that may fail, together with the events it told on the way. Events told
before a fault stay told; nothing after it runs. `Logged.result_bind` says that logging never changes a
result.
-/

namespace DispatchGen

/-- The result of a computation and the events it told, in order. -/
structure Logged (α : Type) where
  result : Except Fault α
  events : List Event

namespace Logged

variable {α β : Type}

instance : Monad Logged where
  pure a := { result := .ok a, events := [] }
  bind x f :=
    match x.result with
    | .ok a => { result := (f a).result, events := x.events ++ (f a).events }
    | .error fault => { result := .error fault, events := x.events }

/-- A computation that tells nothing. -/
def ofExcept (result : Except Fault α) : Logged α :=
  { result, events := [] }

/-- Tells `events`, in order. -/
def tell (events : List Event) : Logged Unit :=
  { result := .ok (), events }

/-- A computation that tells what its result gives rise to, if it has one. -/
def telling (events : α → List Event) (result : Except Fault α) : Logged α where
  result := result
  events :=
    match result with
    | .ok a => events a
    | .error _ => []

@[simp] theorem result_pure (a : α) : (pure a : Logged α).result = .ok a :=
  rfl

@[simp] theorem events_pure (a : α) : (pure a : Logged α).events = [] :=
  rfl

@[simp] theorem result_bind (x : Logged α) (f : α → Logged β) :
    (x >>= f).result = x.result >>= fun a => (f a).result := by
  simp only [bind]
  cases x.result <;> rfl

@[simp] theorem result_ofExcept (result : Except Fault α) : (ofExcept result).result = result :=
  rfl

@[simp] theorem events_ofExcept (result : Except Fault α) : (ofExcept result).events = [] :=
  rfl

@[simp] theorem result_tell (events : List Event) : (tell events).result = .ok () :=
  rfl

@[simp] theorem events_tell (events : List Event) : (tell events).events = events :=
  rfl

@[simp] theorem result_telling (events : α → List Event) (result : Except Fault α) :
    (telling events result).result = result :=
  rfl

end Logged

end DispatchGen
