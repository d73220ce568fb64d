/-! # Roles

Everybody who uses the program does so in one of two roles: a trainer runs trainings and keeps the
calendar, an attendee books trainings.  A role has one written form (`Role.label`), and reading
accepts nothing else (`Role.ofLabel?`). -/

namespace TrainerBooking

/-- The role of a person. -/
inductive Role where
  /-- Runs trainings and keeps the calendar. -/
  | trainer
  /-- Books trainings. -/
  | attendee
deriving DecidableEq, Repr

namespace Role

/-- The written form of a role. -/
def label : Role → String
  | trainer => "trainer"
  | attendee => "attendee"

/-- The role with a given written form. -/
def ofLabel? (s : String) : Option Role :=
  if s = "trainer" then some trainer else if s = "attendee" then some attendee else none

@[simp] theorem ofLabel?_label (r : Role) : ofLabel? r.label = some r := by cases r <;> rfl

theorem label_of_ofLabel? {s : String} {r : Role} (h : ofLabel? s = some r) : r.label = s := by
  unfold ofLabel? at h
  split at h
  · next hs => simp only [Option.some.injEq] at h; subst h; exact hs.symm
  · split at h
    · next hs => simp only [Option.some.injEq] at h; subst h; exact hs.symm
    · simp at h

/-- Texts that are read as a role are its written form. -/
theorem ofLabel?_eq_none {text : String} :
    ofLabel? text = none ↔ ∀ role : Role, text ≠ role.label := by
  constructor
  · rintro h role rfl
    rw [ofLabel?_label] at h
    cases h
  · intro h
    cases hrole : ofLabel? text with
    | none => rfl
    | some role => exact absurd (label_of_ofLabel? hrole).symm (h role)

end Role

end TrainerBooking
