import TrainerBooking.Account
import TrainerBooking.Failure
import TrainerBooking.Hour
import TrainerBooking.Registry

/-! # The store in memory

Hours are filed under their Unix second in **slots**.  A slot without an hour is a placeholder: it
keeps the place of an hour that is being written for the first time, and readers do not see it.
`claim` makes the slot for an update, `file` puts the written hour into it, and `release` drops it
again if nothing was written.  That there ever was a slot is remembered (`Memory.used`).  Trainings
and accounts are filed under their identifiers.

Times are kept as they were given, with their offsets and fractions. -/

namespace TrainerBooking

/-- The store in memory. -/
structure Memory where
  /-- The slots of the calendar, by Unix second. -/
  hours : Registry Int (Option Hour)
  /-- Was a slot ever made? -/
  used : Bool
  trainings : Registry String Training
  accounts : Registry String Account

namespace Memory

/-- The store without entries. -/
def empty : Memory := ⟨Registry.empty, false, Registry.empty, Registry.empty⟩

/-! ### Hours -/

/-- The hour written for a second. -/
def hour? (m : Memory) (second : Int) : Option Hour := (m.hours.get? second).join

/-- Makes a placeholder for a second that has no slot. -/
def claim (second : Int) (m : Memory) : Memory :=
  if m.hours.contains second then m else { m with hours := m.hours.put second none, used := true }

/-- Writes the hour of a second. -/
def file (second : Int) (h : Hour) (m : Memory) : Memory :=
  { m with hours := m.hours.put second (some h), used := true }

/-- Drops the slot of a second if it is a placeholder. -/
def release (second : Int) (m : Memory) : Memory :=
  match m.hours.get? second with
  | some none => { m with hours := m.hours.erase second }
  | _ => m

/-- The slots of the seconds from the first to the last, in order of time. -/
def slotsBetween (m : Memory) (first last : Int) : List (Int × Option Hour) :=
  m.hours.entries.filter fun e => decide (first ≤ e.1) && decide (e.1 ≤ last)

/-- The written hours, in order of time. -/
def writtenHours (m : Memory) : List Hour := m.hours.values.filterMap id

/-! ### Trainings and accounts -/

/-- Files a new training. -/
def addTraining (t : Training) (m : Memory) : Except StorageFault Memory :=
  if m.trainings.contains t.id then
    .error (.duplicate ("training '" ++ t.id ++ "' already exists"))
  else .ok { m with trainings := m.trainings.put t.id t }

/-- Files a training under an identifier, whatever was there. -/
def fileTraining (id : String) (t : Training) (m : Memory) : Memory :=
  { m with trainings := m.trainings.put id t }

/-- The trainings that satisfy a condition, by time and identifier. -/
def listTrainings (keep : Training → Bool) (m : Memory) : List Training :=
  (m.trainings.values.filter keep).mergeSort Training.before

/-- Files a new account. -/
def addAccount (a : Account) (m : Memory) : Except StorageFault Memory :=
  if m.accounts.contains a.id then .error (.duplicate ("user '" ++ a.id ++ "' already exists"))
  else .ok { m with accounts := m.accounts.put a.id a }

/-- Files an account under an identifier, whatever was there. -/
def fileAccount (id : String) (a : Account) (m : Memory) : Memory :=
  { m with accounts := m.accounts.put id a }

theorem hour?_claim (second other : Int) (m : Memory) :
    (m.claim second).hour? other = m.hour? other := by
  unfold claim hour?
  split
  · rfl
  · next h =>
    simp only [Registry.get?_put]
    split
    · next ho =>
      subst ho
      simp only [Registry.contains, Option.isSome_iff_ne_none, ne_eq, Decidable.not_not] at h
      simp [h]
    · rfl

theorem hour?_release (second other : Int) (m : Memory) :
    (m.release second).hour? other = m.hour? other := by
  unfold release
  split
  · next h =>
    simp only [hour?, Registry.get?_erase]
    split
    · next ho => subst ho; simp [h]
    · rfl
  · rfl

theorem hour?_file (second other : Int) (h : Hour) (m : Memory) :
    (m.file second h).hour? other = if other = second then some h else m.hour? other := by
  simp only [file, hour?, Registry.get?_put]
  split <;> simp

end Memory

end TrainerBooking
