import TrainerBooking.Journal
import TrainerBooking.Store.Memory
import TrainerBooking.Store.Tables
import TrainerBooking.Window

/-! # Acts

An `Act` is a computation that works on a `World`: the store, the journal and the counters of the
operations.  It is run in a `Setting`, which holds for the length of a call: the reading of the
clock, the booking window, the way in which operations are watched, the spans that are open, and the
entries that are **held**, because an update of them is under way.

* **The world is handed on in every case.** What an act has done before it is refused or crashes
  stays done; only a store decides to undo something.
* **Settings are lexical.** What is held and which spans are open is passed down, so it ends with the
  act that it was set for, however that act ends. -/

namespace TrainerBooking

/-- A store of either kind. -/
inductive Store where
  | memory (m : Memory)
  | tables (t : Tables)

/-- How the operations are watched. -/
inductive Watch where
  /-- Operations run bare: they write no events and are not counted. -/
  | bare
  /-- Operations write events and are not counted. -/
  | silent
  /-- Operations write events inside the span of this name and are counted. -/
  | full (span : String)
deriving DecidableEq, Repr

/-- The entries of which an update is under way. -/
structure Held where
  /-- The seconds of the hours. -/
  hours : List Int
  /-- The identifiers of the trainings. -/
  trainings : List String
deriving DecidableEq, Repr

namespace Held

/-- Nothing is held. -/
def nothing : Held := ⟨[], []⟩

/-- Holds an hour, too. -/
def withHour (second : Int) (h : Held) : Held := { h with hours := second :: h.hours }

/-- Holds a training, too. -/
def withTraining (id : String) (h : Held) : Held := { h with trainings := id :: h.trainings }

end Held

/-- What holds for the length of a call. -/
structure Setting where
  now : Moment
  window : BookingWindow
  watch : Watch
  spans : List String
  held : Held

/-- The setting of a call from outside. -/
def Setting.outer (now : Moment) (window : BookingWindow) (watch : Watch) : Setting :=
  ⟨now, window, watch, [], Held.nothing⟩

/-- What acts work on. -/
structure World where
  store : Store
  /-- The journal, the latest event last. -/
  journal : List Event
  /-- How often each thing that is counted happened. -/
  counters : Registry String Nat

/-- A computation that works on the world. -/
def Act (ε α : Type) : Type := Setting → World → Ending ε α × World

namespace Act

variable {ε δ α β : Type}

/-- Goes on with the value, if there is one. -/
def bind (act : Act ε α) (next : α → Act ε β) : Act ε β := fun s w =>
  match act s w with
  | (.done a, w) => next a s w
  | (.refused c, w) => (.refused c, w)
  | (.crashed, w) => (.crashed, w)

instance : Monad (Act ε) where
  pure a := fun _ w => (.done a, w)
  bind := bind

/-- Ends in a given way. -/
def ofEnding (e : Ending ε α) : Act ε α := fun _ w => (e, w)

/-- Ends with a value or a cause. -/
def ofExcept (e : Except ε α) : Act ε α := ofEnding (Ending.ofExcept e)

/-- Is refused. -/
def refuse (cause : ε) : Act ε α := ofEnding (.refused cause)

/-- Crashes. -/
def crash : Act ε α := ofEnding .crashed

/-- The setting. -/
def setting : Act ε Setting := fun s w => (.done s, w)

/-- The reading of the clock. -/
def now : Act ε Moment := fun s w => (.done s.now, w)

/-- The world. -/
def world : Act ε World := fun _ w => (.done w, w)

/-- The store. -/
def store : Act ε Store := fun _ w => (.done w.store, w)

/-- Changes the world. -/
def change (f : World → World) : Act ε Unit := fun _ w => (.done (), f w)

/-- Replaces the store. -/
def setStore (store : Store) : Act ε Unit := change fun w => { w with store := store }

/-- Changes the store, if it is in memory. -/
def changeMemory (f : Memory → Memory) : Act ε Unit :=
  change fun w =>
    match w.store with
    | .memory m => { w with store := .memory (f m) }
    | .tables _ => w

/-- Changes the store, if it is in tables. -/
def changeTables (f : Tables → Tables) : Act ε Unit :=
  change fun w =>
    match w.store with
    | .memory _ => w
    | .tables t => { w with store := .tables (f t) }

/-- Runs an act in a changed setting. -/
def inside (f : Setting → Setting) (act : Act ε α) : Act ε α := fun s w => act (f s) w

/-- Runs an act while more is held. -/
def holding (f : Held → Held) (act : Act ε α) : Act ε α :=
  act.inside fun s => { s with held := f s.held }

/-- Replaces the cause of a refusal. -/
def mapCause (f : ε → δ) (act : Act ε α) : Act δ α := fun s w =>
  match act s w with
  | (e, w) => (e.mapCause f, w)

/-- Runs an act and hands on how it ended. -/
def settle (act : Act ε α) : Act δ (Ending ε α) := fun s w =>
  match act s w with
  | (e, w) => (.done e, w)

/-- Writes an event. -/
def note (level : Level) (message : String) (fields : List (String × FieldValue)) : Act ε Unit :=
  fun s w => (.done (), { w with journal := w.journal ++ [⟨level, message, fields, s.spans⟩] })

/-- Counts a thing once more. -/
def count (key : String) : Act ε Unit :=
  change fun w => { w with counters := w.counters.put key ((w.counters.get? key).getD 0 + 1) }

/-- Annotates a failure with the operation in which it happened. -/
def within (slug description : String) (act : Act Failure α) : Act Failure α :=
  act.mapCause (Failure.within slug description)

/-- A value, or the violation of a rule. -/
def ofRule (e : Except Violation α) : Act Failure α := (ofExcept e).mapCause Failure.rule

/-! ### Running -/

@[simp] theorem pure_run (a : α) (s : Setting) (w : World) :
    (pure a : Act ε α) s w = (.done a, w) := rfl

theorem bind_run (act : Act ε α) (next : α → Act ε β) (s : Setting) (w : World) :
    (act >>= next) s w =
      match act s w with
      | (.done a, w) => next a s w
      | (.refused c, w) => (.refused c, w)
      | (.crashed, w) => (.crashed, w) := rfl

theorem bind_run_done {act : Act ε α} {next : α → Act ε β} {s : Setting} {w w' : World} {a : α}
    (h : act s w = (.done a, w')) : (act >>= next) s w = next a s w' := by
  rw [bind_run, h]

theorem bind_run_refused {act : Act ε α} {next : α → Act ε β} {s : Setting} {w w' : World} {c : ε}
    (h : act s w = (.refused c, w')) : (act >>= next) s w = (.refused c, w') := by
  rw [bind_run, h]

theorem bind_run_crashed {act : Act ε α} {next : α → Act ε β} {s : Setting} {w w' : World}
    (h : act s w = (.crashed, w')) : (act >>= next) s w = (.crashed, w') := by
  rw [bind_run, h]

@[simp] theorem ofEnding_run (e : Ending ε α) (s : Setting) (w : World) :
    ofEnding e s w = (e, w) := rfl

@[simp] theorem refuse_run (c : ε) (s : Setting) (w : World) :
    (refuse c : Act ε α) s w = (.refused c, w) := rfl

@[simp] theorem now_run (s : Setting) (w : World) : (now : Act ε Moment) s w = (.done s.now, w) :=
  rfl

@[simp] theorem store_run (s : Setting) (w : World) :
    (store : Act ε Store) s w = (.done w.store, w) := rfl

@[simp] theorem setting_run (s : Setting) (w : World) :
    (setting : Act ε Setting) s w = (.done s, w) := rfl

@[simp] theorem change_run (f : World → World) (s : Setting) (w : World) :
    (change f : Act ε Unit) s w = (.done (), f w) := rfl

@[simp] theorem inside_run (f : Setting → Setting) (act : Act ε α) (s : Setting) (w : World) :
    act.inside f s w = act (f s) w := rfl

theorem mapCause_run (f : ε → δ) (act : Act ε α) (s : Setting) (w : World) :
    act.mapCause f s w = ((act s w).1.mapCause f, (act s w).2) := rfl

end Act

end TrainerBooking
