import TrainerBooking.Proofs.Atomic

/-! # Acts that are fixed by the store

How often a transition is run, and on what, is not seen in the store.  A transition that writes a trace
event whenever it is run shows it in the journal, where the store's own events are on other levels.

* **Traces.** `World.traces` are the particulars of the trace events of the journal, in order.
* **Yielding.** `act.Yields s st traces e st'` says all that is asked of an act here: from *every* world
  with the store `st` it ends as `e`, writes these traces, and leaves the store `st'`.  What an act
  yields does not depend on the journal, so an act that is repeated from the same store does the same
  again.
* **Looking.** `act.Looks s st P` says it of acts that leave no trace and no change.
* **Rules.** There is one rule for every way in which acts are put together, and two for transactions
  that may be run again: a try loses no deadlock and is the last one, or it loses one and the next try
  follows (`Yields.retrying_settled`, `Yields.retrying_again`). -/

namespace TrainerBooking

/-- The particulars of the trace events in the journal. -/
def World.traces (w : World) : List (List (String × FieldValue)) :=
  (w.journal.filter fun e => decide (e.level = .trace)).map Event.fields

namespace Act

variable {ε δ α β : Type}

/-- From every world with the store `st` the act ends as `e`, with these traces and the store `st'`. -/
def Yields (act : Act ε α) (s : Setting) (st : Store) (traces : List (List (String × FieldValue)))
    (e : Ending ε α) (st' : Store) : Prop :=
  ∀ w : World, w.store = st → (act s w).1 = e ∧ (act s w).2.traces = w.traces ++ traces ∧
    (act s w).2.store = st'

namespace Yields

variable {s : Setting} {st st' st'' : Store} {ts ts' : List (List (String × FieldValue))}

theorem of_traces_eq {act : Act ε α} {e : Ending ε α} (h : act.Yields s st ts e st')
    (hts : ts' = ts) : act.Yields s st ts' e st' := hts ▸ h

theorem ofEnding (e : Ending ε α) : (Act.ofEnding e).Yields s st [] e st := by
  intro w hw
  exact ⟨rfl, (List.append_nil _).symm, hw⟩

theorem pure (a : α) : (Pure.pure a : Act ε α).Yields s st [] (.done a) st := ofEnding _

theorem refuse (c : ε) : (Act.refuse c : Act ε α).Yields s st [] (.refused c) st := ofEnding _

theorem crash : (Act.crash : Act ε α).Yields s st [] .crashed st := ofEnding _

theorem ofExcept (e : Except ε α) : (Act.ofExcept e).Yields s st [] (Ending.ofExcept e) st :=
  ofEnding _

theorem setting : (Act.setting : Act ε Setting).Yields s st [] (.done s) st := by
  intro w hw
  exact ⟨rfl, (List.append_nil _).symm, hw⟩

theorem store : (Act.store : Act ε Store).Yields s st [] (.done st) st := by
  intro w hw
  exact ⟨congrArg Ending.done hw, (List.append_nil _).symm, hw⟩

theorem changeMemory (f : Memory → Memory) {m : Memory} :
    (Act.changeMemory f : Act ε Unit).Yields s (.memory m) [] (.done ()) (.memory (f m)) := by
  intro w hw
  refine ⟨rfl, ?_, ?_⟩ <;> simp [Act.changeMemory, hw, World.traces]

theorem changeTables (f : Tables → Tables) {t : Tables} :
    (Act.changeTables f : Act ε Unit).Yields s (.tables t) [] (.done ()) (.tables (f t)) := by
  intro w hw
  refine ⟨rfl, ?_, ?_⟩ <;> simp [Act.changeTables, hw, World.traces]

theorem note {level : Level} (hlevel : level ≠ .trace) (message : String)
    (fields : List (String × FieldValue)) :
    (Act.note level message fields : Act ε Unit).Yields s st [] (.done ()) st := by
  intro w hw
  refine ⟨rfl, ?_, hw⟩
  simp [Act.note, World.traces, hlevel]

theorem trace (message : String) (fields : List (String × FieldValue)) :
    (Act.note .trace message fields : Act ε Unit).Yields s st [fields] (.done ()) st := by
  intro w hw
  refine ⟨rfl, ?_, hw⟩
  simp [Act.note, World.traces]

theorem bind {act : Act ε α} {next : α → Act ε β} {a : α} {e : Ending ε β}
    (h : act.Yields s st ts (.done a) st') (hnext : (next a).Yields s st' ts' e st'') :
    (act >>= next).Yields s st (ts ++ ts') e st'' := by
  intro w hw
  obtain ⟨he, htraces, hstore⟩ := h w hw
  rw [bind_run_done (Prod.ext he rfl : act s w = (.done a, (act s w).2))]
  obtain ⟨he', htraces', hstore'⟩ := hnext _ hstore
  exact ⟨he', by rw [htraces', htraces, List.append_assoc], hstore'⟩

/-- What follows leaves no trace. -/
theorem bind_silent {act : Act ε α} {next : α → Act ε β} {a : α} {e : Ending ε β}
    (h : act.Yields s st ts (.done a) st') (hnext : (next a).Yields s st' [] e st'') :
    (act >>= next).Yields s st ts e st'' :=
  (h.bind hnext).of_traces_eq (List.append_nil ts).symm

theorem bind_refused {act : Act ε α} {next : α → Act ε β} {c : ε}
    (h : act.Yields s st ts (.refused c) st') :
    (act >>= next).Yields s st ts (.refused c) st' := by
  intro w hw
  obtain ⟨he, htraces, hstore⟩ := h w hw
  rw [bind_run_refused (Prod.ext he rfl : act s w = (.refused c, (act s w).2))]
  exact ⟨rfl, htraces, hstore⟩

theorem bind_crashed {act : Act ε α} {next : α → Act ε β}
    (h : act.Yields s st ts .crashed st') : (act >>= next).Yields s st ts .crashed st' := by
  intro w hw
  obtain ⟨he, htraces, hstore⟩ := h w hw
  rw [bind_run_crashed (Prod.ext he rfl : act s w = (.crashed, (act s w).2))]
  exact ⟨rfl, htraces, hstore⟩

/-- An act that is not done ends what follows it as well. -/
theorem bind_stopped {act : Act ε α} {next : α → Act ε α} {e : Ending ε α}
    (h : act.Yields s st ts e st') (he : e.isDone = false) :
    (act >>= next).Yields s st ts e st' := by
  cases e with
  | done a => cases he
  | refused c => exact h.bind_refused
  | crashed => exact h.bind_crashed

theorem mapCause {f : ε → δ} {act : Act ε α} {e : Ending ε α} (h : act.Yields s st ts e st') :
    (act.mapCause f).Yields s st ts (e.mapCause f) st' := by
  intro w hw
  obtain ⟨he, htraces, hstore⟩ := h w hw
  rw [mapCause_run, he]
  exact ⟨rfl, htraces, hstore⟩

theorem settle {act : Act ε α} {e : Ending ε α} (h : act.Yields s st ts e st') :
    (act.settle : Act δ (Ending ε α)).Yields s st ts (.done e) st' := by
  intro w hw
  obtain ⟨he, htraces, hstore⟩ := h w hw
  exact ⟨congrArg Ending.done he, htraces, hstore⟩

theorem holding {act : Act ε α} {e : Ending ε α} {f : Held → Held}
    (h : act.Yields { s with held := f s.held } st ts e st') :
    (act.holding f).Yields s st ts e st' := h

section

variable {warn : Nat → DatabaseFault → Act Failure Unit} {attempt : Nat → Act Repository.Rollback α}

/-- A try that loses no deadlock is the last one. -/
theorem retrying_settled {e : Ending Repository.Rollback α} {number : Nat}
    (hsettled : ∀ cause, e = .refused cause → cause.deadlock? = none)
    (hattempt : (attempt number).Yields s st ts e st') (repetitions : Nat) :
    (Repository.retrying warn attempt number repetitions).Yields s st ts
      (e.mapCause Repository.Rollback.toFailure) st' := by
  cases repetitions with
  | zero => exact hattempt.mapCause
  | succ k =>
      refine bind_silent hattempt.settle ?_
      cases e with
      | done a => exact pure a
      | crashed => exact crash
      | refused cause =>
          simp only [hsettled cause rfl]
          exact refuse _

/-- A try that loses a deadlock is followed by the next one, if there is one. -/
theorem retrying_again {cause : Repository.Rollback} {f : DatabaseFault} {e : Ending Failure α}
    {number repetitions : Nat} (hlost : cause.deadlock? = some f)
    (hwarn : (warn number f).Yields s st' [] (.done ()) st')
    (hattempt : (attempt number).Yields s st ts (.refused cause) st')
    (hrest : (Repository.retrying warn attempt (number + 1) repetitions).Yields s st' ts' e st'') :
    (Repository.retrying warn attempt number (repetitions + 1)).Yields s st (ts ++ ts') e st'' := by
  refine bind hattempt.settle ?_
  simp only [hlost]
  exact bind hwarn hrest

end

end Yields

/-! ### Acts that look and do nothing -/

/-- The act leaves neither a trace nor a change, and what it is done with satisfies `P`. -/
def Looks (act : Act ε α) (s : Setting) (st : Store) (P : α → Prop) : Prop :=
  ∃ e, act.Yields s st [] e st ∧ ∀ a, e = .done a → P a

namespace Looks

variable {s : Setting} {st : Store} {P : α → Prop}

theorem ofEnding {e : Ending ε α} (h : ∀ a, e = .done a → P a) : (Act.ofEnding e).Looks s st P :=
  ⟨e, .ofEnding e, h⟩

theorem pure {a : α} (h : P a) : (Pure.pure a : Act ε α).Looks s st P :=
  ofEnding fun a' ha => by cases ha; exact h

theorem refuse (c : ε) : (Act.refuse c : Act ε α).Looks s st P := ofEnding nofun

theorem setting : (Act.setting : Act ε Setting).Looks s st (s = ·) :=
  ⟨_, .setting, fun a ha => by cases ha; rfl⟩

theorem note {level : Level} (hlevel : level ≠ .trace) (message : String)
    (fields : List (String × FieldValue)) :
    (Act.note level message fields : Act ε Unit).Looks s st fun _ => True :=
  ⟨_, .note hlevel message fields, fun _ _ => trivial⟩

theorem ofExcept {e : Except ε α} (h : ∀ a, e = .ok a → P a) : (Act.ofExcept e).Looks s st P := by
  refine ofEnding fun a ha => ?_
  cases e with
  | ok a' => cases ha; exact h _ rfl
  | error c => cases ha

theorem mapCause {f : ε → δ} {act : Act ε α} (h : act.Looks s st P) :
    (act.mapCause f).Looks s st P := by
  obtain ⟨e, hyields, hP⟩ := h
  refine ⟨_, hyields.mapCause, fun a ha => hP a ?_⟩
  cases e <;> cases ha
  rfl

theorem bind {act : Act ε α} {next : α → Act ε β} {Q : β → Prop} (h : act.Looks s st P)
    (hnext : ∀ a, P a → (next a).Looks s st Q) : (act >>= next).Looks s st Q := by
  obtain ⟨e, hyields, hP⟩ := h
  cases e with
  | done a =>
      obtain ⟨e', hyields', hQ⟩ := hnext a (hP a rfl)
      exact ⟨e', hyields.bind_silent hyields', hQ⟩
  | refused c => exact ⟨_, hyields.bind_refused, nofun⟩
  | crashed => exact ⟨_, hyields.bind_crashed, nofun⟩

end Looks

end Act

end TrainerBooking
