/-! # How a computation ends

A computation of this library ends in one of three ways: it is `done` with a value, it is `refused`
for a cause that its caller is told, or it is `crashed`, because it was asked for what nobody may ask
for, as an instant out of the range of moments that can be represented.  A crash carries nothing and
cannot be handled inside the computation. -/

namespace TrainerBooking

/-- The ways to end. -/
inductive Ending (ε α : Type) where
  /-- The computation has a value. -/
  | done (value : α)
  /-- The computation is refused for a cause. -/
  | refused (cause : ε)
  /-- The computation was cut off. -/
  | crashed
deriving DecidableEq, Repr

namespace Ending

variable {ε δ α β : Type}

/-- Goes on with the value, if there is one. -/
def bind (e : Ending ε α) (f : α → Ending ε β) : Ending ε β :=
  match e with
  | done a => f a
  | refused c => refused c
  | crashed => crashed

instance : Monad (Ending ε) where
  pure := done
  bind := bind

/-- Replaces the cause of a refusal. -/
def mapCause (f : ε → δ) : Ending ε α → Ending δ α
  | done a => done a
  | refused c => refused (f c)
  | crashed => crashed

/-- Replaces the value. -/
def mapValue (f : α → β) : Ending ε α → Ending ε β
  | done a => done (f a)
  | refused c => refused c
  | crashed => crashed

/-- A value or a cause, as an ending. -/
def ofExcept : Except ε α → Ending ε α
  | .ok a => done a
  | .error c => refused c

/-- A value, or a crash where there is none. -/
def ofOption : Option α → Ending ε α
  | some a => done a
  | none => crashed

/-- Did the computation come to a value? -/
def isDone : Ending ε α → Bool
  | done _ => true
  | _ => false

@[simp] theorem bind_done (a : α) (f : α → Ending ε β) : (done a >>= f) = f a := rfl

@[simp] theorem bind_refused (c : ε) (f : α → Ending ε β) :
    ((refused c : Ending ε α) >>= f) = refused c := rfl

@[simp] theorem bind_crashed (f : α → Ending ε β) : ((crashed : Ending ε α) >>= f) = crashed := rfl

@[simp] theorem pure_eq (a : α) : (pure a : Ending ε α) = done a := rfl

end Ending

end TrainerBooking
