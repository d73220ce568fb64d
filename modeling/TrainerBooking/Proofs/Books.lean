import Mathlib.Logic.Function.Basic
import TrainerBooking.Act

/-! # The books of a store

What a store of either kind holds, without the way in which it holds it.

* **Books.** `Books` are three functions: the hour of a Unix second, the training of an
  identifier, the account of an identifier.  `Store.books` reads them off a store; placeholders
  in memory are no hours, and a row is read as what it says (`HourRow.meaning?`,
  `TrainingRow.meaning`, `AccountRow.meaning?`), even where its second is out of range.
* **Soundness.** `Store.Sound` is what every store that the program made satisfies: entries are
  filed under their own keys, rows keep the constraints of their tables, no two hours share a row
  number, and nothing makes a statement fail: no trap is set, and there are no mishaps.
* **Times.** In memory times are kept as they are given, in tables to the whole second and in UTC
  (`Moment.floored`); `Books.kept` and `Books.keptTime` say which.

Every operation of a store changes its books at one key only: `Books.setHour`,
`Books.setTraining`, `Books.setAccount`. -/

namespace TrainerBooking

/-- What comes after a first part goes through if that part does. -/
theorem bind_eq_ok {ε α β : Type} {first : Except ε α} {next : α → Except ε β} {b : β}
    (h : (first >>= next) = .ok b) : ∃ a, first = .ok a ∧ next a = .ok b := by
  cases first with
  | error f => cases h
  | ok a => exact ⟨a, rfl, h⟩

namespace Moment

/-- The moment to the whole second, in UTC. -/
def floored (m : Moment) : Moment := ⟨m.second * perSecond, 0⟩

@[simp] theorem second_mul (s : Int) (o : Int) : (⟨s * perSecond, o⟩ : Moment).second = s := by
  simp only [second, perSecond]
  omega

@[simp] theorem second_floored (m : Moment) : m.floored.second = m.second := second_mul _ _

theorem ofSecond?_eq {s : Int} (h : inYears s = true) :
    ofSecond? s = some ⟨s * perSecond, 0⟩ := by
  have hr : (⟨s * perSecond, 0⟩ : Moment).representable = true := by
    simp [representable, localSecond, h]
  simp [ofSecond?, checked, hr]

theorem toUtc?_isSome_iff {m : Moment} : m.toUtc?.isSome ↔ inYears m.second = true := by
  have e : (⟨m.nanos, 0⟩ : Moment).representable = inYears m.second := by
    simp [representable, localSecond, second]
  rw [toUtc?, checked, e]
  split <;> simp_all

end Moment

/-- The training with its times to the whole second, in UTC. -/
def Training.floored (t : Training) : Training :=
  { t with
    time := t.time.floored
    proposal := t.proposal.map fun p => { p with newTime := p.newTime.floored } }

/-! ### What rows say -/

/-- The hour that a row stands for, if its availability is known. -/
def HourRow.meaning? (r : HourRow) : Option Hour :=
  (Availability.ofLabel? r.availability).map fun a => ⟨⟨r.second * Moment.perSecond, 0⟩, a⟩

/-- The proposal that a row stands for, if it is whole and its role is known. -/
def TrainingRow.proposalMeaning (r : TrainingRow) : Option Proposal :=
  match r.newSecond, r.proposedBy with
  | some second, some role =>
    (Role.ofLabel? role).map fun by' => ⟨⟨second * Moment.perSecond, 0⟩, by'⟩
  | _, _ => none

/-- The training that a row stands for. -/
def TrainingRow.meaning (r : TrainingRow) : Training :=
  ⟨r.id, r.owner, r.ownerName, ⟨r.second * Moment.perSecond, 0⟩, r.notes,
    Column.holds r.canceled, r.proposalMeaning⟩

/-- The account that a row stands for, if its role is known. -/
def AccountRow.meaning? (r : AccountRow) : Option Account :=
  (Role.ofLabel? r.role).map fun role => ⟨r.id, role, r.name, r.balance, r.lastIp⟩

/-- Can the times of the training be read back from a table? -/
def Training.Readable (t : Training) : Prop :=
  Moment.inYears t.time.second = true ∧
    ∀ p, t.proposal = some p → Moment.inYears p.newTime.second = true

/-! ### Books -/

/-- What a store holds. -/
structure Books where
  /-- Are times and balances kept as they are given, and not in the columns of a table? -/
  inMemory : Bool
  /-- The hour of a Unix second, if it was ever written. -/
  hours : Int → Option Hour
  /-- The training of an identifier. -/
  trainings : String → Option Training
  /-- The account of an identifier, with its balance as it is kept. -/
  accounts : String → Option Account

namespace Books

variable (b : Books)

/-- Files an hour under a second. -/
def setHour (second : Int) (h : Hour) : Books :=
  { b with hours := Function.update b.hours second (some h) }

/-- Files a training under an identifier. -/
def setTraining (id : String) (t : Training) : Books :=
  { b with trainings := Function.update b.trainings id (some t) }

/-- Files an account under an identifier. -/
def setAccount (id : String) (a : Account) : Books :=
  { b with accounts := Function.update b.accounts id (some a) }

/-- A moment as it is kept. -/
def keptTime (m : Moment) : Moment := if b.inMemory then m else m.floored

/-- A training as it is kept. -/
def kept (t : Training) : Training := if b.inMemory then t else t.floored

/-- An hour as it is kept after an update that began with the hour `old`. -/
def keptHour (old new : Hour) : Hour :=
  if b.inMemory then new else { old with availability := new.availability }

/-- The balance that the store shows for an account. -/
def shown (a : Account) : Int := if b.inMemory then a.balance else Column.read a.balance

/-- Is the training one that the store can read back? -/
def Reads (t : Training) : Prop := b.inMemory = true ∨ t.Readable

variable {b} in
theorem kept_congr {b' : Books} (h : b'.inMemory = b.inMemory) (t : Training) :
    b'.kept t = b.kept t := by rw [kept, h, kept]

@[simp] theorem kept_id (t : Training) : (b.kept t).id = t.id := by
  unfold kept
  split <;> rfl

@[simp] theorem kept_owner (t : Training) : (b.kept t).owner = t.owner := by
  unfold kept
  split <;> rfl

@[simp] theorem kept_canceled (t : Training) : (b.kept t).canceled = t.canceled := by
  unfold kept
  split <;> rfl

@[simp] theorem kept_second (t : Training) : (b.kept t).time.second = t.time.second := by
  unfold kept
  split
  · rfl
  · exact Moment.second_floored t.time

theorem kept_readable {t : Training} (h : t.Readable) : (b.kept t).Readable := by
  unfold kept
  split
  · exact h
  · refine ⟨(Moment.second_floored t.time).symm ▸ h.1, fun p hp => ?_⟩
    obtain ⟨q, hq, rfl⟩ := Option.map_eq_some_iff.mp hp
    exact (Moment.second_floored q.newTime).symm ▸ h.2 q hq

@[simp] theorem setHour_inMemory (s : Int) (h : Hour) : (b.setHour s h).inMemory = b.inMemory := rfl
@[simp] theorem setHour_trainings (s : Int) (h : Hour) :
    (b.setHour s h).trainings = b.trainings := rfl
@[simp] theorem setHour_accounts (s : Int) (h : Hour) : (b.setHour s h).accounts = b.accounts := rfl
theorem setHour_hours (s s' : Int) (h : Hour) :
    (b.setHour s h).hours s' = if s' = s then some h else b.hours s' := Function.update_apply ..

@[simp] theorem setTraining_inMemory (id : String) (t : Training) :
    (b.setTraining id t).inMemory = b.inMemory := rfl
@[simp] theorem setTraining_hours (id : String) (t : Training) :
    (b.setTraining id t).hours = b.hours := rfl
@[simp] theorem setTraining_accounts (id : String) (t : Training) :
    (b.setTraining id t).accounts = b.accounts := rfl
theorem setTraining_trainings (id id' : String) (t : Training) :
    (b.setTraining id t).trainings id' = if id' = id then some t else b.trainings id' :=
  Function.update_apply ..

@[simp] theorem setAccount_inMemory (id : String) (a : Account) :
    (b.setAccount id a).inMemory = b.inMemory := rfl
@[simp] theorem setAccount_hours (id : String) (a : Account) :
    (b.setAccount id a).hours = b.hours := rfl
@[simp] theorem setAccount_trainings (id : String) (a : Account) :
    (b.setAccount id a).trainings = b.trainings := rfl
theorem setAccount_accounts (id id' : String) (a : Account) :
    (b.setAccount id a).accounts id' = if id' = id then some a else b.accounts id' :=
  Function.update_apply ..

end Books

/-! ### Soundness -/

/-- Trainings and accounts are filed under their identifiers, and nobody is in debt. -/
structure Memory.Sound (m : Memory) : Prop where
  training_id : ∀ {id t}, m.trainings.get? id = some t → t.id = id
  account_id : ∀ {id a}, m.accounts.get? id = some a → a.id = id
  balance_nonneg : ∀ {id a}, m.accounts.get? id = some a → 0 ≤ a.balance

/-- Every hour is filed under its second, which is in range, is known to be available or not, and
has a number of its own. -/
structure HourTable.Sound (h : HourTable) : Prop where
  second : ∀ {s r}, h.rows.get? s = some r → r.second = s
  inYears : ∀ {s r}, h.rows.get? s = some r → Moment.inYears s = true
  known : ∀ {s r}, h.rows.get? s = some r → r.isSound = true
  rowId_le : ∀ {s r}, h.rows.get? s = some r → r.rowId ≤ h.lastRowId
  rowId_inj : ∀ {s s' r r'}, h.rows.get? s = some r → h.rows.get? s' = some r' →
    r.rowId = r'.rowId → s = s'

/-- The tables keep their constraints, no trap is set, and there are no mishaps. -/
structure Tables.Sound (t : Tables) : Prop where
  traps : t.traps = []
  mishaps : t.mishaps = []
  hours : t.hours.Sound
  training_id : ∀ {id r}, t.trainings.get? id = some r → r.id = id
  training_sound : ∀ {id r}, t.trainings.get? id = some r → r.isSound = true
  account_id : ∀ {id r}, t.accounts.get? id = some r → r.id = id
  account_sound : ∀ {id r}, t.accounts.get? id = some r → r.isSound = true

theorem Tables.mishap?_eq_none {t : Tables} (h : t.mishaps = []) (second : Int) (number : Nat) :
    t.mishap? second number = none := by
  rw [mishap?, h]
  rfl

/-- Without mishaps every try finds the same databases. -/
theorem Tables.inTry_eq_self {t : Tables} (h : t.mishaps = []) (second : Int) (number : Nat) :
    t.inTry second number = t := by
  rw [inTry, mishap?_eq_none h]
  rfl

/-- The books of a store in memory. -/
def Memory.books (m : Memory) : Books := ⟨true, m.hour?, m.trainings.get?, m.accounts.get?⟩

/-- The books of a store in tables. -/
def Tables.books (t : Tables) : Books :=
  ⟨false, fun s => (t.hours.rows.get? s).bind HourRow.meaning?,
    fun id => (t.trainings.get? id).map TrainingRow.meaning,
    fun id => (t.accounts.get? id).bind AccountRow.meaning?⟩

theorem Memory.books_hours (m : Memory) (second : Int) :
    m.books.hours second = m.hour? second := rfl

theorem Memory.books_trainings (m : Memory) (id : String) :
    m.books.trainings id = m.trainings.get? id := rfl

theorem Memory.books_accounts (m : Memory) (id : String) :
    m.books.accounts id = m.accounts.get? id := rfl

theorem Memory.books_kept (m : Memory) (t : Training) : m.books.kept t = t := if_pos rfl

theorem Memory.books_shown (m : Memory) (a : Account) : m.books.shown a = a.balance := if_pos rfl

theorem Tables.books_hours (t : Tables) (second : Int) :
    t.books.hours second = (t.hours.rows.get? second).bind HourRow.meaning? := rfl

theorem Tables.books_trainings (t : Tables) (id : String) :
    t.books.trainings id = (t.trainings.get? id).map TrainingRow.meaning := rfl

theorem Tables.books_accounts (t : Tables) (id : String) :
    t.books.accounts id = (t.accounts.get? id).bind AccountRow.meaning? := rfl

theorem Tables.books_kept (tb : Tables) (t : Training) : tb.books.kept t = t.floored :=
  if_neg Bool.false_ne_true

theorem Tables.books_shown (t : Tables) (a : Account) :
    t.books.shown a = Column.read a.balance := if_neg Bool.false_ne_true

namespace Store

/-- A store without entries: memory, or new databases with any number of connections. -/
inductive Empty : Store → Prop
  | memory : Empty (.memory Memory.empty)
  | tables (connections : Nat) : Empty (.tables (Tables.empty connections))

/-- A store as the program makes it. -/
def Sound : Store → Prop
  | .memory m => m.Sound
  | .tables t => t.Sound

/-- The books of a store. -/
def books : Store → Books
  | .memory m => m.books
  | .tables t => t.books

theorem Empty.sound {s : Store} (h : s.Empty) : s.Sound := by
  cases h with
  | memory => constructor <;> simp [Memory.empty]
  | tables n =>
      constructor
      · rfl
      · rfl
      · constructor <;> simp [Tables.empty, HourTable.empty]
      all_goals simp [Tables.empty]

theorem Empty.hours {s : Store} (h : s.Empty) (second : Int) : s.books.hours second = none := by
  cases h <;> rfl

theorem Empty.trainings {s : Store} (h : s.Empty) (id : String) : s.books.trainings id = none := by
  cases h <;> rfl

theorem Empty.accounts {s : Store} (h : s.Empty) (id : String) : s.books.accounts id = none := by
  cases h <;> rfl

end Store

end TrainerBooking
