import TrainerBooking.Proofs.Traces

/-! # Guards of updates

An update of an hour or of a training runs a transition of its caller on the stored value, and
writes what the transition makes of it, or nothing at all.  This module says what that means.

* **Transitions.** A `PureTransition` depends on nothing but its value.  It may refuse, and it may
  crash; the traces that it leaves tell how often it was run, and on what.
* **Guards.** A `Guard` says what an update of one entry may give to its transition, which traps the
  statements of each of its tries meet, how often it may be tried, and what the store holds once the
  entry is saved.
* **Ends.** `Guard.Ends` lists the ways in which an update can end, with the values on which the
  transition was run.  A try runs it once at most.  Only a try that loses a deadlock is followed by
  another one, which begins with the same value, and the last try decides.  An update that fails by
  a deadlock has used up its tries.
* **Formed.** `Contents.Formed` is all that is assumed of a store, and nothing of one in memory: rows
  of trainings are filed under their own identifiers, and the numbers of the rows of hours are all
  different, none of them above the last number given. -/

namespace TrainerBooking

/-! ### Guards -/

/-- A transition that depends on nothing but its value and changes nothing.  It may leave traces. -/
structure PureTransition (α : Type) where
  /-- The transition. -/
  run : α → Act Failure α
  /-- The traces that it leaves of a value. -/
  traces : α → List (List (String × FieldValue))
  /-- How it ends on a value. -/
  outcome : α → Ending Failure α
  /-- It ends so, in every setting and from every store. -/
  yields (a : α) (s : Setting) (st : Store) : (run a).Yields s st (traces a) (outcome a) st

namespace PureTransition

variable {α : Type}

/-- A function as a transition that leaves no trace. -/
def silent (f : α → Ending Failure α) : PureTransition α where
  run a := Act.ofEnding (f a)
  traces _ := []
  outcome := f
  yields _ _ _ := .ofEnding _

/-- A function as a transition that leaves one trace each time it is run. -/
def traced (describe : α → List (String × FieldValue)) (f : α → Ending Failure α) :
    PureTransition α where
  run a := do
    Act.note .trace "Transition" (describe a)
    Act.ofEnding (f a)
  traces a := [describe a]
  outcome := f
  yields _ _ _ := .bind (.trace _ _) (.ofEnding _)

theorem yields_once (p : PureTransition α) (a : α) {s : Setting} {st : Store} :
    (p.run a).Yields s st ([a].flatMap p.traces) (p.outcome a) st :=
  (p.yields a s st).of_traces_eq (List.flatMap_singleton _ _)

end PureTransition

/-- The transition keeps the identifier of a training. -/
def Training.KeptId (f : Training → Ending Failure Training) : Prop :=
  ∀ t v, f t = .done v → v.id = t.id

/-- What there is to say of an update of one entry, before it is made.  Tries have numbers, from one
on. -/
structure Guard (α : Type) where
  /-- What the store holds. -/
  before : Contents
  /-- May the transition be run on the value? -/
  gives : α → Prop
  /-- The trap that a try meets where it makes a missing entry. -/
  making? : Nat → Option Trap
  /-- The trap that a try meets where it saves the entry. -/
  saving? : Nat → Option Trap
  /-- How often the update may be tried. -/
  attempts : Nat
  /-- What the store holds when the entry is saved. -/
  saved : α → Contents

/-- Is this the refusal for a lost deadlock? -/
def Ending.isDeadlock {α : Type} : Ending Failure α → Bool
  | refused failure => failure.isDeadlock
  | _ => false

/-- The ways in which an update with the transition `f` can end from the try of a number on: on which
values the transition was run, in what order, how the update ends, and what the store holds then. -/
inductive Guard.Ends {α : Type} (g : Guard α) (f : α → Ending Failure α) :
    Nat → List α → Ending Failure α → Contents → Prop
  /-- Nothing was given to the transition.  If that was for a deadlock, there is no other try. -/
  | barred {number : Nat} {e : Ending Failure α} (he : e.isDone = false)
      (hlast : e.isDeadlock = true → number = g.attempts) : Ends g f number [] e g.before
  /-- The transition turned its value down. -/
  | turnedDown {number : Nat} {a : α} (hgiven : g.gives a) (hf : (f a).isDone = false) :
      Ends g f number [a] (f a) g.before
  /-- What the transition made was not saved, and there is no other try. -/
  | unsaved {number : Nat} {a v : α} {trap : Trap} {failure : Failure} (hgiven : g.gives a)
      (hf : f a = .done v) (htrap : g.saving? number = some trap)
      (hlast : trap.deadlocks = false ∨ number = g.attempts) :
      Ends g f number [a] (.refused failure) g.before
  /-- What the transition made was saved. -/
  | saved {number : Nat} {a v : α} (hgiven : g.gives a) (hf : f a = .done v)
      (hfree : g.saving? number = none) : Ends g f number [a] (.done v) (g.saved v)
  /-- The try lost a deadlock before the transition was run, and was followed by another one. -/
  | unmade {number : Nat} {trap : Trap} {runs : List α} {e : Ending Failure α} {c : Contents}
      (htrap : g.making? number = some trap) (hlost : trap.deadlocks = true)
      (hmore : number < g.attempts) (hrest : Ends g f (number + 1) runs e c) :
      Ends g f number runs e c
  /-- The try lost a deadlock after the transition was run, and was followed by another one, which
  gives nothing else to the transition. -/
  | again {number : Nat} {a v : α} {trap : Trap} {runs : List α} {e : Ending Failure α}
      {c : Contents} (hgiven : g.gives a) (hf : f a = .done v)
      (htrap : g.saving? number = some trap) (hlost : trap.deadlocks = true)
      (hmore : number < g.attempts) (hsame : ∀ b ∈ runs, b = a)
      (hrest : Ends g f (number + 1) runs e c) : Ends g f number (a :: runs) e c

theorem Guard.Ends.gives_of_mem {α : Type} {g : Guard α} {f : α → Ending Failure α} {number : Nat}
    {runs : List α} {e : Ending Failure α} {c : Contents} (h : g.Ends f number runs e c) :
    ∀ a ∈ runs, g.gives a := by
  induction h with
  | barred he hlast => exact nofun
  | turnedDown hgiven hf => exact List.forall_mem_singleton.mpr hgiven
  | unsaved hgiven hf htrap hlast => exact List.forall_mem_singleton.mpr hgiven
  | saved hgiven hf hfree => exact List.forall_mem_singleton.mpr hgiven
  | unmade htrap hlost hmore hrest ih => exact ih
  | again hgiven hf htrap hlost hmore hsame hrest ih => exact List.forall_mem_cons.mpr ⟨hgiven, ih⟩

/-- The store holds what it held before, or the update is done and the entry is saved. -/
theorem Guard.Ends.before_or_saved {α : Type} {g : Guard α} {f : α → Ending Failure α} {number : Nat}
    {runs : List α} {e : Ending Failure α} {c : Contents} (h : g.Ends f number runs e c) :
    (e.isDone = false ∧ c = g.before) ∨ ∃ v, e = .done v ∧ c = g.saved v := by
  induction h with
  | barred he hlast => exact .inl ⟨he, rfl⟩
  | turnedDown hgiven hf => exact .inl ⟨hf, rfl⟩
  | unsaved hgiven hf htrap hlast => exact .inl ⟨rfl, rfl⟩
  | saved hgiven hf hfree => exact .inr ⟨_, rfl, rfl⟩
  | unmade htrap hlost hmore hrest ih => exact ih
  | again hgiven hf htrap hlost hmore hsame hrest ih => exact ih

/-- From the store `st` the act ends as the guard says of the transition, with the traces of its runs
and no others. -/
def Act.Guarded {α : Type} (act : Act Failure α) (s : Setting) (st : Store) (g : Guard α)
    (p : PureTransition α) : Prop :=
  ∃ runs e st', act.Yields s st (runs.flatMap p.traces) e st' ∧
    g.Ends p.outcome 1 runs e st'.contents

namespace Contents

/-- The hour of a second, if there is one that can be read. -/
def hour? (second : Int) : Contents → Option Hour
  | memory hours _ _ => hours second
  | tables t => (t.hours.rows.get? second).bind fun r => r.decode.toOption

/-- Is there an entry for a second? -/
def hasHour (second : Int) : Contents → Bool
  | memory hours _ _ => (hours second).isSome
  | tables t => t.hours.rows.contains second

/-- A moment as it is kept. -/
def keptTime (m : Moment) : Contents → Moment
  | memory .. => m
  | tables _ => m.floored

/-- What an update of the hour of a time may give to its transition: the hour that is stored, or,
where there is none, a new one that the window admits. -/
inductive GivesHour (s : Setting) (time : Moment) (c : Contents) : Hour → Prop
  | stored {h : Hour} (hh : c.hour? time.second = some h) : GivesHour s time c h
  | fresh {h : Hour} (hnone : c.hasHour time.second = false)
      (hnew : s.window.newHour .notAvailable time s.now = .done h) :
      GivesHour s time c { h with time := c.keptTime h.time }

theorem hour?_of_not_hasHour {c : Contents} {second : Int} (h : c.hasHour second = false) :
    c.hour? second = none := by
  cases c with
  | memory hours trainings accounts =>
      exact Option.not_isSome_iff_eq_none.mp (Bool.eq_false_iff.mp h)
  | tables t =>
      have hrow : t.hours.rows.get? second = none :=
        Option.not_isSome_iff_eq_none.mp (Bool.eq_false_iff.mp h)
      rw [hour?, hrow, Option.bind_none]

/-- There is one such hour at most. -/
theorem GivesHour.unique {s : Setting} {time : Moment} {c : Contents} {h h' : Hour}
    (hgiven : c.GivesHour s time h) (hgiven' : c.GivesHour s time h') : h' = h := by
  cases hgiven with
  | stored hh =>
      cases hgiven' with
      | stored hh' => exact Option.some.inj (hh'.symm.trans hh)
      | fresh hnone hnew =>
          rw [hour?_of_not_hasHour hnone] at hh
          cases hh
  | fresh hnone hnew =>
      cases hgiven' with
      | stored hh' =>
          rw [hour?_of_not_hasHour hnone] at hh'
          cases hh'
      | fresh hnone' hnew' =>
          obtain rfl := Ending.done.inj (hnew'.symm.trans hnew)
          rfl

/-- Files an hour under a second: in tables its availability only, in a new row if there is none. -/
def fileHour (second : Int) (h : Hour) : Contents → Contents
  | memory hours trainings accounts =>
    memory (Function.update hours second (some h)) trainings accounts
  | tables t =>
    if t.hours.rows.contains second then (tables t).setAvailability second h.availability
    else tables { t with hours := t.hours.append second h.availability.label }

/-- Replaces a training: in tables all but its identifier and its owner, and times to the second. -/
def replaceTraining (id : String) (t : Training) : Contents → Contents
  | memory hours trainings accounts => memory hours (trainings.put id t) accounts
  | tables tb =>
    tables { tb with trainings := tb.trainings.adjust id (TrainingRow.rewritten t) }

/-- Rows of trainings are filed under their own identifiers, and those of hours are numbered. -/
def Formed : Contents → Prop
  | memory .. => True
  | tables t => (∀ id r, t.trainings.get? id = some r → r.id = id) ∧ t.hours.Numbered

theorem Formed.keyed {t : Tables} (h : (tables t).Formed) : (tables t).Keyed :=
  ⟨h.1, fun _ _ _ _ hr hr' => h.2.inj hr hr'⟩

/-- The update of the hour of a time. -/
def hourGuard (s : Setting) (time : Moment) (c : Contents) : Guard Hour where
  before := c
  gives := c.GivesHour s time
  making? number := (c.inTry time.second number).trap? .calendar .insert
  saving? number := (c.inTry time.second number).trap? .calendar .update
  attempts := Repository.greatestAttempts
  saved h := c.fileHour time.second h

/-- The update of a training on behalf of a caller. -/
def trainingGuard (id : String) (caller : Caller) (c : Contents) : Guard Training where
  before := c
  gives t := c.training? id = some t ∧ caller.sees t = true
  making? _ := none
  saving? _ := c.trap? .trainings .update
  attempts := 1
  saved t := c.replaceTraining id t

end Contents

/-! ### Formed stores -/

/-- A store as the program makes it is formed. -/
theorem Store.Sound.formed {st : Store} (h : st.Sound) : st.contents.Formed := by
  cases st with
  | memory m => trivial
  | tables t =>
      have hhours := Tables.Sound.hours h
      exact ⟨fun _ _ hr => Tables.Sound.training_id h hr, hhours.numbered⟩

namespace Contents.Formed

variable {c : Contents}

theorem fileHour (hc : c.Formed) (second : Int) (h : Hour) : (c.fileHour second h).Formed := by
  cases c with
  | memory hours trainings accounts => trivial
  | tables t =>
      by_cases hrow : t.hours.rows.contains second = true
      · rw [Contents.fileHour, if_pos hrow]
        refine ⟨hc.1, hc.2.of_old fun {other r} hr => ?_⟩
        rw [Registry.get?_adjust] at hr
        split at hr
        · next ho =>
            obtain ⟨old, hold, rfl⟩ := Option.map_eq_some_iff.mp hr
            exact ⟨old, ho ▸ hold, rfl⟩
        · exact ⟨r, hr, rfl⟩
      · rw [Contents.fileHour, if_neg hrow]
        exact ⟨hc.1, hc.2.append second _⟩

end Contents.Formed

/-! ### Rules -/

theorem Ending.exists_of_isDone {ε α : Type} {e : Ending ε α} (h : e.isDone = true) :
    ∃ a, e = .done a := by
  cases e with
  | done a => exact ⟨a, rfl⟩
  | refused c => cases h
  | crashed => cases h

namespace Act.Guarded

variable {α β : Type} {s : Setting} {st st' : Store} {g : Guard α} {p : PureTransition α}

/-- An act before the update that leaves no trace. -/
theorem after {act : Act Failure β} {next : β → Act Failure α} {b : β}
    (h : act.Yields s st [] (.done b) st') (hnext : (next b).Guarded s st' g p) :
    (act >>= next).Guarded s st g p := by
  obtain ⟨runs, e, st'', hyields, hends⟩ := hnext
  exact ⟨runs, e, st'', h.bind hyields, hends⟩

/-- An update that ends before its transition is run. -/
theorem of_barred {act : Act Failure α} {e : Ending Failure α} (h : act.Yields s st [] e st')
    (he : e.isDone = false) (hlast : e.isDeadlock = true → g.attempts = 1)
    (hst : st'.contents = g.before) : act.Guarded s st g p :=
  ⟨[], e, st', h, hst ▸ .barred he fun hlost => (hlast hlost).symm⟩

/-- A look before the update, which may bar it, for good if there is one try only. -/
theorem after_look {act : Act Failure β} {next : β → Act Failure α} {P : β → Prop}
    (hst : st.contents = g.before) (hone : g.attempts = 1) (h : act.Looks s st P)
    (hnext : ∀ b, P b → (next b).Guarded s st g p) :
    (act >>= next).Guarded s st g p := by
  obtain ⟨e, hyields, hP⟩ := h
  cases e with
  | done b => exact after hyields (hnext b (hP b rfl))
  | refused c => exact of_barred hyields.bind_refused rfl (fun _ => hone) hst
  | crashed => exact of_barred hyields.bind_crashed rfl (fun _ => hone) hst

/-- An update whose transition turns its value down. -/
theorem of_turnedDown {act : Act Failure α} {a : α} (hgiven : g.gives a)
    (hf : (p.outcome a).isDone = false)
    (h : act.Yields s st ([a].flatMap p.traces) (p.outcome a) st')
    (hst : st'.contents = g.before) : act.Guarded s st g p :=
  ⟨[a], p.outcome a, st', h, hst ▸ .turnedDown hgiven hf⟩

/-- The transition is run, and what it makes is saved at once or not at all. -/
theorem of_run {run : Act Failure α} {next : α → Act Failure α} {a : α}
    (hst : st.contents = g.before) (hgiven : g.gives a)
    (hrun : run.Yields s st ([a].flatMap p.traces) (p.outcome a) st)
    (hnext : ∀ v, p.outcome a = .done v →
      (g.saving? 1 = none ∧
        ∃ st', (next v).Yields s st [] (.done v) st' ∧ st'.contents = g.saved v) ∨
      ∃ trap failure, g.saving? 1 = some trap ∧ g.attempts = 1 ∧
        (next v).Yields s st [] (.refused failure) st) :
    (run >>= next).Guarded s st g p := by
  rcases hend : (p.outcome a).isDone with _ | _
  · exact of_turnedDown hgiven hend (hrun.bind_stopped hend) hst
  obtain ⟨v, hf⟩ := Ending.exists_of_isDone hend
  rw [hf] at hrun
  obtain ⟨hfree, st', hsave, hsaved⟩ | ⟨trap, failure, htrap, hattempts, hsave⟩ := hnext v hf
  · exact ⟨[a], .done v, st', hrun.bind_silent hsave, hsaved ▸ .saved hgiven hf hfree⟩
  · exact ⟨[a], .refused failure, st, hrun.bind_silent hsave,
      hst ▸ .unsaved hgiven hf htrap (.inr hattempts.symm)⟩

end Act.Guarded

end TrainerBooking
