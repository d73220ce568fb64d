import TrainerBooking.Proofs.Guards
import TrainerBooking.Proofs.Residue

/-! # Guarded updates

The updates of hours and of trainings, on either kind of store, end as their guards say.

* **Memory.** An hour is claimed before its transition is run, and is filed or released after it.
  Placeholders are not told, so the contents change only when the hour is filed.
* **Tables.** A transaction begins with a row (`Begins`), which is stored, or new because the window
  admits the hour.  What one try of it can come to is listed in `Tries`; only a try that loses a
  deadlock is followed by another one, which finds the same tables but for their mishaps
  (`retrying_ends`, by induction on the repetitions that are left).
* **Trainings.** There is one try, and whoever may not see the training is refused before it.

A try that loses a deadlock at its last statement has run the transition, so the transition may be run
up to three times (`Repository.not_run_once`). -/

namespace TrainerBooking

/-- The row that was appended last is the only one of its number. -/
theorem HourTable.Numbered.setAvailability_append {t : HourTable} (ht : t.Numbered) (second : Int)
    (label label' : String) :
    (t.append second label).setAvailability (t.lastRowId + 1) label' = t.append second label' := by
  have hrows : ((t.append second label).setAvailability (t.lastRowId + 1) label').rows =
      (t.append second label').rows := by
    refine Registry.ext_get? fun other => ?_
    rw [setAvailability, Registry.get?_map, get?_append, get?_append]
    split
    · rw [Option.map_some, if_pos rfl]
    · cases hr : t.rows.get? other with
      | none => rfl
      | some r =>
          have hne : ¬ r.rowId = t.lastRowId + 1 := fun he => by
            have := ht.le hr
            omega
          rw [Option.map_some, if_neg hne]
  exact congrArg (HourTable.mk · (t.lastRowId + 1)) hrows

/-- A row that cannot be read is no deadlock. -/
theorem HourRow.isDeadlock_of_decode {r : HourRow} {f : DatabaseFault} (h : r.decode = .error f) :
    f.isDeadlock = false := by
  unfold HourRow.decode at h
  cases hs : Row.decodeSecond r.second with
  | error f' =>
      rw [hs] at h
      cases h
      unfold Row.decodeSecond at hs
      split at hs <;> cases hs
      rfl
  | ok time =>
      cases ha : Row.decodeAvailability r.availability with
      | error f' =>
          rw [hs, ha] at h
          cases h
          unfold Row.decodeAvailability at ha
          split at ha <;> cases ha
          rfl
      | ok a =>
          rw [hs, ha] at h
          cases h

/-- A connection that is not to be had is no deadlock. -/
theorem Tables.isDeadlock_of_lease {t : Tables} {updating : Bool} {access : Access}
    {f : DatabaseFault} (h : t.lease updating access = .error f) : f.isDeadlock = false := by
  unfold lease at h
  split at h
  · cases h
  · split at h
    · cases h
      rfl
    · cases access with
      | reading => cases h
      | writing =>
          cases h
          decide +kernel

theorem BookingWindow.newHour_eq_done {window : BookingWindow} {a : Availability}
    {time now : Moment} {h : Hour} :
    window.newHour a time now = .done h ↔ window.check time now = .done () ∧ h = ⟨time, a⟩ := by
  unfold newHour
  cases window.check time now <;> simp [Ending.mapValue, eq_comm]

/-! ### Hours in memory -/

namespace Repository

variable {s : Setting}

section

variable {p : PureTransition Hour}

theorem startingHour_gives {m : Memory} {time : Moment} {h : Hour}
    (hstart : startingHour m time s = .done h) :
    (Store.memory m).contents.GivesHour s time h := by
  unfold startingHour at hstart
  cases hold : m.hour? time.second with
  | some old =>
      rw [hold] at hstart
      cases hstart
      exact .stored hold
  | none =>
      rw [hold] at hstart
      cases hnew : s.window.newHour .notAvailable time s.now with
      | refused v => rw [hnew] at hstart; cases hstart
      | crashed => rw [hnew] at hstart; cases hstart
      | done fresh =>
          rw [hnew] at hstart
          cases hstart
          exact .fresh (by rw [Store.contents, Contents.hasHour, hold]; rfl) hnew

/-- The window refuses by a rule, and a rule is no deadlock. -/
theorem isDeadlock_of_startingHour {m : Memory} {time : Moment} {c : Failure}
    (hstart : startingHour m time s = .refused c) : c.isDeadlock = false := by
  unfold startingHour at hstart
  cases hold : m.hour? time.second with
  | some old => rw [hold] at hstart; cases hstart
  | none =>
      rw [hold] at hstart
      cases hnew : s.window.newHour .notAvailable time s.now with
      | refused v =>
          rw [hnew] at hstart
          cases hstart
          rfl
      | crashed => rw [hnew] at hstart; cases hstart
      | done fresh => rw [hnew] at hstart; cases hstart

theorem updateHourInMemory_guarded (time : Moment) (m : Memory) :
    (updateHourInMemory time p.run m).Guarded s (.memory m)
      ((Store.memory m).contents.hourGuard s time) p := by
  have hclaim := Memory.contents_claim time.second m
  have hrelease := (Memory.contents_release time.second (m.claim time.second)).trans hclaim
  refine .after .setting (.after (.changeMemory _) ?_)
  dsimp only
  split
  · exact .of_barred (.bind_refused (.refuse _)) rfl (fun hlost => by cases hlost) hclaim
  cases hstart : startingHour m time s with
  | refused c =>
      refine .after (Act.Yields.bind_refused (.ofEnding _)).settle ?_
      refine .after (.changeMemory _) (.of_barred (.refuse c) rfl (fun hlost => ?_) hrelease)
      exact absurd hlost (Bool.eq_false_iff.mp (isDeadlock_of_startingHour hstart))
  | crashed =>
      refine .after (Act.Yields.bind_crashed (.ofEnding _)).settle ?_
      exact .of_barred .crash rfl (fun hlost => by cases hlost) hclaim
  | done h =>
      have hgiven := startingHour_gives hstart
      have hrun : ((Act.ofEnding (.done h) : Act Failure Hour) >>= fun h =>
          (p.run h).holding (Held.withHour time.second)).Yields s
            (.memory (m.claim time.second)) ([h].flatMap p.traces) (p.outcome h)
            (.memory (m.claim time.second)) :=
        (Act.Yields.ofEnding _).bind (p.yields_once h).holding
      cases hf : p.outcome h with
      | refused c =>
          rw [hf] at hrun
          have hend : (p.outcome h).isDone = false := by rw [hf]; rfl
          refine .of_turnedDown hgiven hend ?_ hrelease
          rw [hf]
          exact hrun.settle.bind_silent ((Act.Yields.changeMemory _).bind (.refuse c))
      | crashed =>
          rw [hf] at hrun
          have hend : (p.outcome h).isDone = false := by rw [hf]; rfl
          refine .of_turnedDown hgiven hend ?_ hclaim
          rw [hf]
          exact hrun.settle.bind_silent .crash
      | done v =>
          rw [hf] at hrun
          refine ⟨[h], .done v, _,
            hrun.settle.bind_silent ((Act.Yields.changeMemory _).bind (.pure v)), ?_⟩
          rw [Memory.contents_file]
          exact .saved hgiven hf rfl

/-! ### Hours in tables -/

/-- What a transaction begins with: the table and the row of the second in it, which is either
stored, or new because the window admits the hour. -/
inductive Begins (s : Setting) (time : Moment) (t : Tables) : HourTable → HourRow → Prop
  | stored {row : HourRow} (hrow : t.hours.rows.get? time.second = some row) :
      Begins s time t t.hours row
  | fresh {h : Hour} (hnone : t.hours.rows.get? time.second = none)
      (hnew : s.window.newHour .notAvailable time s.now = .done h) :
      Begins s time t (t.hours.append time.second Availability.notAvailable.label)
        ⟨t.hours.lastRowId + 1, time.second, Availability.notAvailable.label⟩

theorem rowForUpdate_looks (time : Moment) (t : Tables) (number : Nat) :
    (rowForUpdate time t number).Looks s (.tables t) fun p => Begins s time t p.1 p.2 := by
  unfold rowForUpdate
  dsimp only
  cases hrow : t.hours.rows.get? time.second with
  | some row => exact .pure (.stored hrow)
  | none =>
      refine .bind .setting ?_
      rintro _ rfl
      have hfresh : (Act.ofEnding ((s.window.newHour .notAvailable time s.now).mapCause
          (Rollback.rejected ∘ Failure.rule))).Looks s (.tables t)
            fun h => s.window.newHour .notAvailable time s.now = .done h :=
        .mapCause (.ofEnding fun h hnew => hnew)
      refine .bind hfresh fun h hnew => ?_
      obtain ⟨-, rfl⟩ := BookingWindow.newHour_eq_done.mp hnew
      refine .bind (.mapCause (.ofExcept fun p hi => hi)) fun p hi => ?_
      refine .bind (.note (by decide) _ _) fun _ _ => .bind (.note (by decide) _ _) fun _ _ => ?_
      obtain ⟨table, inserted⟩ := p
      obtain hi' | hi' | ⟨-, fault, -, -, hi'⟩ :=
        (t.inTry time.second number).insertHour_cases Availability.notAvailable.label hrow
      · rw [hi'] at hi
        cases hi
        dsimp only
        rw [HourTable.get?_append, if_pos rfl]
        exact .pure (.fresh hrow hnew)
      · -- The insertion was passed over, so there is still no row, and the transaction is refused.
        rw [hi'] at hi
        cases hi
        dsimp only
        rw [hrow]
        exact .refuse _
      · rw [hi'] at hi
        cases hi

theorem Begins.get? {time : Moment} {t : Tables} {table : HourTable} {row : HourRow}
    (h : Begins s time t table row) : table.rows.get? time.second = some row := by
  cases h with
  | stored hrow => exact hrow
  | fresh hnone hnew => rw [HourTable.get?_append, if_pos rfl]

/-- The hour that is decoded from the row is one that may be given. -/
theorem Begins.gives {time : Moment} {t : Tables} {table : HourTable} {row : HourRow} {h : Hour}
    (hbegins : Begins s time t table row) (hd : row.decode = .ok h) :
    (Contents.tables t).GivesHour s time h := by
  cases hbegins with
  | stored hrow =>
      refine .stored ?_
      rw [Contents.hour?, hrow, Option.bind_some, hd]
      rfl
  | fresh hnone hnew =>
      obtain ⟨hcheck, rfl⟩ := BookingWindow.newHour_eq_done.mp hnew
      rw [HourRow.decode_of_check hcheck] at hd
      cases hd
      exact .fresh (by rw [Contents.hasHour, Registry.contains, hnone]; rfl) hnew

/-- Setting the availability of the row files the hour. -/
theorem Begins.setAvailability {time : Moment} {t : Tables} {table : HourTable} {row : HourRow}
    (hbegins : Begins s time t table row) (ht : (Contents.tables t).Formed) (v : Hour) :
    (Contents.tables t).fileHour time.second v =
      .tables { t with hours := table.setAvailability row.rowId v.availability.label } := by
  rw [Contents.fileHour, Registry.contains]
  cases hbegins with
  | stored hrow =>
      rw [hrow, Option.isSome_some, if_pos rfl, Tables.setAvailability_eq ht.keyed hrow]
  | fresh hnone hnew =>
      rw [hnone, Option.isSome_none, if_neg Bool.false_ne_true,
        ht.2.setAvailability_append]

/-- What one try of the transaction can come to.  It loses a deadlock only if a trap that it meets says
so. -/
inductive Tries (g : Guard Hour) (f : Hour → Ending Failure Hour) (number : Nat) :
    List Hour → Ending Rollback Hour → Contents → Prop
  | barred {e : Ending Rollback Hour} (he : e.isDone = false)
      (hrejected : ∀ failure, e = .refused (.rejected failure) → failure.isDeadlock = false)
      (hlost : ∀ fault, e = .refused (.fault fault) → fault.isDeadlock = true →
        ∃ trap, g.making? number = some trap ∧ trap.deadlocks = true) :
      Tries g f number [] e g.before
  | turnedDown {h : Hour} (hgiven : g.gives h) (hf : (f h).isDone = false) :
      Tries g f number [h] ((f h).mapCause Rollback.rejected) g.before
  | unsaved {h v : Hour} {trap : Trap} {fault : DatabaseFault} (hgiven : g.gives h)
      (hf : f h = .done v) (htrap : g.saving? number = some trap)
      (hfault : fault.isDeadlock = trap.deadlocks) :
      Tries g f number [h] (.refused (.fault fault)) g.before
  | saved {h v : Hour} (hgiven : g.gives h) (hf : f h = .done v) (hfree : g.saving? number = none) :
      Tries g f number [h] (.done v) (g.saved v)

/-- A row that is there is written, if the statement meets no trap. -/
theorem save_yields (st : Store) {t : Tables} {table : HourTable} {second : Int} {row : HourRow}
    (hupdate : t.trap? .calendar .update = none) (hrow : table.rows.get? second = some row)
    (label : String) :
    ((Act.ofExcept (t.updateHour row.rowId label table)).mapCause Rollback.fault).Yields s st []
      (.done (table.setAvailability row.rowId label)) st := by
  rw [Tables.updateHour_of_no_trap hupdate (Tables.hasRow_of_get? hrow)]
  exact (Act.Yields.ofExcept _).mapCause

/-- Once the row is there, the transition decides, and the trap of the saving statement. -/
theorem finishUpdate_tries {time : Moment} {t : Tables} {table : HourTable} {row : HourRow}
    (hbegins : Begins s time t table row) (ht : (Contents.tables t).Formed) (number : Nat) :
    ∃ runs e st', (finishUpdate time p.run t number table row).Yields s (.tables t)
        (runs.flatMap p.traces) e st' ∧
      Tries ((Contents.tables t).hourGuard s time) p.outcome number runs e st'.contents := by
  unfold finishUpdate
  cases hd : row.decode with
  | error fault =>
      refine ⟨[], _, .tables t, .bind_refused (Act.Yields.ofExcept _).mapCause,
        .barred rfl (fun _ he => by cases he) fun _ he hdead => ?_⟩
      cases he
      rw [HourRow.isDeadlock_of_decode hd] at hdead
      cases hdead
  | ok h =>
      have hgiven := hbegins.gives hd
      have hdecode : ((Act.ofExcept (.ok h)).mapCause Rollback.fault).Yields s (.tables t) []
          (.done h) (.tables t) := (Act.Yields.ofExcept _).mapCause
      have hrun : (((p.run h).holding (Held.withHour time.second)).mapCause
          Rollback.rejected).Yields s (.tables t) ([h].flatMap p.traces)
            ((p.outcome h).mapCause Rollback.rejected)
            (.tables t) := (p.yields_once h).holding.mapCause
      -- A transition that is not done ends the try before the row is written.
      rcases hend : (p.outcome h).isDone with _ | _
      · have hstop : ((p.outcome h).mapCause Rollback.rejected).isDone = false := by
          rw [Ending.isDone_mapCause, hend]
        exact ⟨[h], _, .tables t, hdecode.bind (hrun.bind_stopped hstop), .turnedDown hgiven hend⟩
      obtain ⟨v, hf⟩ := Ending.exists_of_isDone hend
      rw [hf] at hrun
      cases htrap : (t.inTry time.second number).trap? .calendar .update with
      | none =>
          have hsave := save_yields (s := s) (.tables t) htrap hbegins.get? v.availability.label
          refine ⟨[h], .done v, _, hdecode.bind (hrun.bind_silent
            (hsave.bind_silent ((Act.Yields.changeTables _).bind (.pure v)))), ?_⟩
          have hsaved : ((Contents.tables t).hourGuard s time).saved v = _ :=
            hbegins.setAvailability ht v
          have hends : Tries ((Contents.tables t).hourGuard s time) p.outcome number [h] (.done v)
              (((Contents.tables t).hourGuard s time).saved v) := .saved hgiven hf htrap
          rw [hsaved] at hends
          exact hends
      | some trap =>
          obtain ⟨fault, hlost, hfault⟩ :=
            Tables.updateHour_of_trap htrap (Tables.hasRow_of_get? hbegins.get?)
              v.availability.label
          have hsave : ((Act.ofExcept ((t.inTry time.second number).updateHour row.rowId
              v.availability.label table)).mapCause Rollback.fault).Yields s (.tables t) []
                (.refused (.fault fault)) (.tables t) := by
            rw [hlost]
            exact (Act.Yields.ofExcept _).mapCause
          exact ⟨[h], _, .tables t, hdecode.bind (hrun.bind_silent hsave.bind_refused),
            .unsaved hgiven hf htrap hfault⟩

theorem updateHourOnce_tries (time : Moment) {t : Tables} (ht : (Contents.tables t).Formed)
    (number : Nat) :
    ∃ runs e st', (updateHourOnce time p.run t number).Yields s (.tables t)
        (runs.flatMap p.traces) e st' ∧
      Tries ((Contents.tables t).hourGuard s time) p.outcome number runs e st'.contents := by
  obtain ⟨e, hrow, hbegins⟩ := rowForUpdate_looks (s := s) time t number
  rw [updateHourOnce_eq]
  cases e with
  | refused c =>
      have hcases := (rowForUpdate_cases time t number s ⟨.tables t, [], .empty⟩).2
      rw [(hrow _ rfl).1] at hcases
      obtain ⟨-, hrejected, hlost⟩ := hcases
      refine ⟨[], _, .tables t, hrow.bind_refused, .barred rfl (fun failure he => ?_)
        fun fault he => ?_⟩
      · cases he
        exact hrejected failure rfl
      · cases he
        exact hlost fault rfl
  | crashed =>
      exact ⟨[], _, .tables t, hrow.bind_crashed,
        .barred rfl (fun _ he => by cases he) fun _ he => by cases he⟩
  | done row =>
      obtain ⟨runs, e, st', hyields, htries⟩ := finishUpdate_tries (hbegins row rfl) ht number
      exact ⟨runs, e, st', hrow.bind hyields, htries⟩

section

variable {g : Guard Hour} {f : Hour → Ending Failure Hour} {number : Nat} {runs : List Hour}
variable {c : Contents}

/-- The update ends with a try that loses no deadlock, and with the last one. -/
theorem Tries.ends {e : Ending Rollback Hour} (h : Tries g f number runs e c)
    (hlast : (∀ cause, e = .refused cause → cause.deadlock? = none) ∨ number = g.attempts) :
    g.Ends f number runs (e.mapCause Rollback.toFailure) c := by
  cases h with
  | barred he hrejected hlost =>
      refine .barred (by rw [Ending.isDone_mapCause, he]) fun hdead => ?_
      refine hlast.resolve_left fun hsettled => ?_
      cases e with
      | done v => cases he
      | crashed => cases hdead
      | refused cause =>
          cases cause with
          | rejected failure =>
              exact absurd hdead (Bool.eq_false_iff.mp (hrejected failure rfl))
          | fault fault =>
              have hdead : fault.isDeadlock = true := fault.isDeadlock_toFailure ▸ hdead
              have hnone := hsettled _ rfl
              rw [Rollback.deadlock?, hdead] at hnone
              cases hnone
  | @turnedDown h hgiven hf =>
      have hback : ((f h).mapCause Rollback.rejected).mapCause Rollback.toFailure = f h := by
        cases f h <;> rfl
      rw [hback]
      exact .turnedDown hgiven hf
  | @unsaved h v trap fault hgiven hf htrap hfault =>
      refine .unsaved hgiven hf htrap (hlast.imp_left fun hsettled => ?_)
      have hnone := hsettled _ rfl
      rw [Rollback.deadlock?, hfault] at hnone
      split at hnone
      · cases hnone
      · next hdead => exact Bool.eq_false_iff.mpr hdead
  | saved hgiven hf hfree => exact .saved hgiven hf hfree

/-- A try that loses a deadlock leaves everything as it was. -/
theorem Tries.before_of_lost {cause : Rollback} (h : Tries g f number runs (.refused cause) c) :
    c = g.before := by
  generalize he : Ending.refused cause = e at h
  cases h with
  | saved hgiven hf hfree => cases he
  | barred => rfl
  | turnedDown => rfl
  | unsaved => rfl

/-- A try that loses a deadlock is one of those that are followed by another one. -/
theorem Tries.again {cause : Rollback} {fault : DatabaseFault} {runs' : List Hour}
    {e : Ending Failure Hour} {c' : Contents} (h : Tries g f number runs (.refused cause) c)
    (hlost : cause.deadlock? = some fault) (hmore : number < g.attempts)
    (hunique : ∀ a b, g.gives a → g.gives b → b = a)
    (hrest : g.Ends f (number + 1) runs' e c') : g.Ends f number (runs ++ runs') e c' := by
  generalize he : Ending.refused cause = e' at h
  cases h with
  | barred _ _ hmaking =>
      cases cause with
      | rejected failure => cases hlost
      | fault f =>
          obtain ⟨trap, htrap, hdead⟩ := hmaking f he.symm (isDeadlock_of_deadlock? hlost)
          exact .unmade htrap hdead hmore hrest
  | @turnedDown h hgiven hf =>
      -- A rejection is no deadlock, whatever the transition says.
      cases hout : f h <;> rw [hout] at he <;> cases he
      cases hlost
  | @unsaved h v trap fault' hgiven hf htrap hfault =>
      cases he
      exact .again hgiven hf htrap (hfault ▸ isDeadlock_of_deadlock? hlost) hmore
        (fun b hb => hunique h b hgiven (hrest.gives_of_mem b hb)) hrest
  | saved hgiven hf hfree => cases he

/-- If each try does, a transaction that is run again after deadlocks ends as the guard says. -/
theorem retrying_ends {t : Tables} {attempt : Nat → Act Rollback Hour}
    {warn : Nat → DatabaseFault → Act Failure Unit} (hbefore : g.before = .tables t)
    (hunique : ∀ a b, g.gives a → g.gives b → b = a)
    (hwarn : ∀ n fault, (warn n fault).Yields s (.tables t) [] (.done ()) (.tables t))
    (hattempt : ∀ n, ∃ runs e st',
      (attempt n).Yields s (.tables t) (runs.flatMap p.traces) e st' ∧
        Tries g p.outcome n runs e st'.contents)
    {repetitions : Nat} (hnumber : number + repetitions = g.attempts) :
    ∃ runs e st', (retrying warn attempt number repetitions).Yields s (.tables t)
        (runs.flatMap p.traces) e st' ∧ g.Ends p.outcome number runs e st'.contents := by
  -- A try that loses a deadlock leaves the tables as they were, so the next one, of which the
  -- induction speaks, begins where it began.
  induction repetitions generalizing number with
  | zero =>
      obtain ⟨runs, e, st', hyields, htries⟩ := hattempt number
      exact ⟨runs, _, st', hyields.mapCause, htries.ends (.inr hnumber)⟩
  | succ repetitions ih =>
      obtain ⟨runs, e, st', hyields, htries⟩ := hattempt number
      by_cases hlost : ∃ cause fault, e = .refused cause ∧ cause.deadlock? = some fault
      · obtain ⟨cause, fault, rfl, hdead⟩ := hlost
        obtain rfl := Store.eq_tables_of_contents (htries.before_of_lost.trans hbefore)
        have hnext : number + 1 + repetitions = g.attempts := by omega
        obtain ⟨runs', e', st'', hrest, hends⟩ := ih hnext
        refine ⟨runs ++ runs', e', st'', ?_, htries.again hdead (by omega) hunique hends⟩
        rw [List.flatMap_append]
        exact .retrying_again hdead (hwarn _ _) hyields hrest
      · have hsettled : ∀ cause, e = .refused cause → cause.deadlock? = none := fun cause he =>
          Option.eq_none_iff_forall_ne_some.mpr fun fault hf => hlost ⟨cause, fault, he, hf⟩
        exact ⟨runs, _, st', .retrying_settled hsettled hyields _, htries.ends (.inl hsettled)⟩

end

theorem updateHourInTables_guarded (time : Moment) {t : Tables} (ht : (Contents.tables t).Formed) :
    (updateHourInTables time p.run t).Guarded s (.tables t)
      ((Contents.tables t).hourGuard s time) p := by
  refine .after .setting ?_
  have hlease : (ofDatabase (t.lease (!s.held.hours.isEmpty) .writing)).Yields s (.tables t) []
      ((Ending.ofExcept (t.lease (!s.held.hours.isEmpty) .writing)).mapCause
        DatabaseFault.toFailure) (.tables t) := (Act.Yields.ofExcept _).mapCause
  cases hleased : t.lease (!s.held.hours.isEmpty) .writing with
  | error fault =>
      rw [hleased] at hlease
      refine .of_barred (.bind_refused hlease) rfl (fun hlost => ?_) rfl
      have hdead : fault.isDeadlock = true := fault.isDeadlock_toFailure ▸ hlost
      rw [Tables.isDeadlock_of_lease hleased] at hdead
      cases hdead
  | ok u =>
      rw [hleased] at hlease
      refine .after hlease ?_
      exact retrying_ends (g := (Contents.tables t).hourGuard s time) rfl
        (fun _ _ => Contents.GivesHour.unique) (fun n fault => .note (by decide) _ _)
        (updateHourOnce_tries time ht) rfl

/-- The update of an hour ends as its guard says, on either kind of store. -/
theorem updateHour_guarded (time : Moment) {st : Store} (hst : st.contents.Formed) :
    (updateHour time p.run).Guarded s st (st.contents.hourGuard s time) p := by
  refine .after .store ?_
  cases st with
  | memory m => exact updateHourInMemory_guarded time m
  | tables t => exact updateHourInTables_guarded time hst

end

/-! ### Trainings -/

section

variable {p : PureTransition Training}

theorem checkSees_looks (caller : Caller) (t : Training) {st : Store} :
    (Act.ofRule (caller.checkSees t)).Looks s st fun _ => caller.sees t = true := by
  refine .mapCause (.ofExcept fun u h => ?_)
  unfold Caller.checkSees at h
  split at h
  · assumption
  · cases h

theorem updateTrainingInMemory_guarded (id : String) (caller : Caller) (m : Memory) :
    (updateTrainingInMemory id caller p.run m).Guarded s (.memory m)
      ((Store.memory m).contents.trainingGuard id caller) p := by
  refine .after .setting ?_
  dsimp only
  cases ht : m.trainings.get? id with
  | none => exact .of_barred (.refuse _) rfl (fun _ => rfl) rfl
  | some t =>
      dsimp only
      split
      · exact .of_barred (.bind_refused (.refuse _)) rfl (fun _ => rfl) rfl
      refine .after_look rfl rfl (checkSees_looks caller t) fun _ hsees => ?_
      have hgiven : ((Store.memory m).contents.trainingGuard id caller).gives t := ⟨ht, hsees⟩
      refine .of_run rfl hgiven (p.yields_once t).holding fun v _ => .inl ⟨rfl, ?_⟩
      exact ⟨.memory (m.fileTraining id v), (Act.Yields.changeMemory _).bind (.pure v), rfl⟩

theorem updateTrainingInTables_guarded (hf : Training.KeptId p.outcome) (id : String)
    (caller : Caller) {t : Tables} (ht : (Contents.tables t).Keyed) :
    (updateTrainingInTables id caller p.run t).Guarded s (.tables t)
      ((Contents.tables t).trainingGuard id caller) p := by
  refine .after .setting (.after_look rfl rfl (.mapCause (.ofExcept fun _ h => h)) fun _ _ => ?_)
  cases hrow : t.trainings.get? id with
  | none => exact .of_barred (.refuse _) rfl (fun _ => rfl) rfl
  | some row =>
      have hdecode : (ofDatabase row.decode).Looks s (.tables t) fun stored =>
          row.decode = .ok stored := .mapCause (.ofExcept fun _ h => h)
      refine .after_look rfl rfl hdecode fun stored hd => ?_
      refine .after_look rfl rfl (checkSees_looks caller stored) fun _ hsees => ?_
      have hread : (Contents.tables t).training? id = some stored := by
        rw [Contents.training?, hrow, Option.bind_some, hd]
        rfl
      refine .of_run rfl ⟨hread, hsees⟩ (p.yields_once stored).holding fun v hv => ?_
      have hid : v.id = id := by
        rw [hf stored v hv, ← (TrainingRow.eq_of_decode hd).1, ht.1 id row hrow]
      cases htrap : t.trap? .trainings .update with
      | none =>
          have hsave : (ofDatabase (t.saveTraining (TrainingRow.encode v))).Yields s (.tables t) []
              (.done (t.trainings.put id (row.rewritten v))) (.tables t) := by
            rw [Tables.saveTraining_of_no_trap htrap (hid.symm ▸ hrow), hid]
            exact (Act.Yields.ofExcept _).mapCause
          refine .inl ⟨htrap, _, hsave.bind ((Act.Yields.changeTables _).bind (.pure v)), ?_⟩
          rw [← Registry.adjust_eq hrow]
          rfl
      | some trap =>
          obtain ⟨fault, hlost⟩ := Tables.saveTraining_of_trap htrap (hid.symm ▸ hrow)
          refine .inr ⟨trap, fault.toFailure, htrap, rfl, ?_⟩
          rw [hlost]
          exact (Act.Yields.ofExcept _).mapCause.bind_refused

/-- The update of a training ends as its guard says, on either kind of store. -/
theorem updateTraining_guarded (hf : Training.KeptId p.outcome) (id : String) (caller : Caller)
    {st : Store} (hst : st.contents.Formed) :
    (updateTraining id caller p.run).Guarded s st
      (st.contents.trainingGuard id caller) p := by
  refine .after .store ?_
  cases st with
  | memory m => exact updateTrainingInMemory_guarded id caller m
  | tables t => exact updateTrainingInTables_guarded hf id caller hst.keyed

end

/-! ### All updates -/

/-- **Updates are guarded**: whatever the store holds and whatever the clock says, at every time and
on behalf of every caller, the update of an hour or of a training by a transition that depends on
nothing but its value ends as its guard says.  The transition is run on the stored value, or on the
new hour, and on nothing else; each try of the update runs it once at most, and only a try that loses
a deadlock is followed by another one.  Only an update that is done changes the contents, and only by
the entry it saves. -/
theorem updates_guarded (s : Setting) {st : Store} (hst : st.contents.Formed) :
    (∀ (time : Moment) (p : PureTransition Hour),
      (updateHour time p.run).Guarded s st (st.contents.hourGuard s time) p) ∧
    ∀ (id : String) (caller : Caller) (p : PureTransition Training), Training.KeptId p.outcome →
      (updateTraining id caller p.run).Guarded s st (st.contents.trainingGuard id caller) p :=
  ⟨fun time _ => updateHour_guarded time hst,
    fun id caller _ hp => updateTraining_guarded hp id caller hst⟩

section samples

open Sample Desk.Command

/-- Makes an hour available, and leaves its second as a trace. -/
def openingHour : PureTransition Hour :=
  .traced (fun h => [("hour", .number h.time.second)]) fun h =>
    .done { h with availability := .available }

/-- Writes other notes, and leaves no trace. -/
def renotingTraining : PureTransition Training := .silent fun t => .done { t with notes := "arms" }

/-- Ann has booked noon, and rows of hours cannot be updated. -/
def deadlocked : Store :=
  .tables (annsTables .trainingScheduled [⟨.calendar, .update, some "deadlock"⟩])

/-- Ann has booked noon, and the first try to update it loses a deadlock. -/
def contended : Store :=
  .tables { annsTables .trainingScheduled [] with
    mishaps := [⟨noonTime.second, 1, .update, "deadlock"⟩] }

theorem formed_annsTables (noon : Availability) (traps : List Trap) :
    (Contents.tables (annsTables noon traps)).Formed := by
  obtain ⟨hid, hinj⟩ := keyed_annsTables noon traps
  refine ⟨hid, fun {second r} hr => ?_, fun hr hr' => hinj _ _ _ _ hr hr'⟩
  simp only [annsTables, Registry.get?_put, Registry.get?_empty] at hr ⊢
  split at hr
  · rw [← Option.some.inj hr]
  · cases hr

theorem formed_contended : contended.contents.Formed := formed_annsTables .trainingScheduled []

/-- Noon is opened in the second try, for which the transition is run again, and Ann's training gets
other notes. -/
theorem updates_guarded_ann :
    let s := Setting.outer newYear .standard .bare
    let c := contended.contents
    let opened := updateHour noonTime openingHour.run s (world contended)
    c.Formed ∧ Training.KeptId renotingTraining.outcome ∧
      opened.1.isDone = true ∧ opened.2.traces.length = 2 ∧
      (updateTraining "1" ann renotingTraining.run s (world contended)).1.isDone = true ∧
      (updateHour noonTime openingHour.run).Guarded s contended (c.hourGuard s noonTime)
        openingHour ∧
      (updateTraining "1" ann renotingTraining.run).Guarded s contended (c.trainingGuard "1" ann)
        renotingTraining := by
  intro s c opened
  have hkept : Training.KeptId renotingTraining.outcome := by
    rintro t _ ⟨⟩
    rfl
  obtain ⟨hhours, htrainings⟩ := updates_guarded s formed_contended
  exact ⟨formed_contended, hkept, by decide +kernel, by decide +kernel, by decide +kernel,
    hhours noonTime openingHour, htrainings "1" ann renotingTraining hkept⟩

/-- A transition may be run more than once: here it is run in three tries, and all of them are lost. -/
theorem not_run_once :
    ¬ ∀ (s : Setting) (st : Store), st.contents.Formed →
      ∀ (time : Moment) (p : PureTransition Hour), ∃ runs : List Hour, runs.length ≤ 1 ∧
        ∀ w : World, w.store = st →
          (updateHour time p.run s w).2.traces = w.traces ++ runs.flatMap p.traces := by
  intro h
  let s := Setting.outer newYear .standard .bare
  obtain ⟨runs, hlength, htraces⟩ := h s deadlocked (formed_annsTables _ _) noonTime openingHour
  have honce : (updateHour noonTime openingHour.run s (world deadlocked)).2.traces.length =
      runs.length := by
    rw [htraces _ rfl, openingHour, PureTransition.traced, ← List.map_eq_flatMap]
    exact List.length_map _
  have hthrice :
      (updateHour noonTime openingHour.run s (world deadlocked)).2.traces.length = 3 := by
    decide +kernel
  omega

end samples

end Repository

end TrainerBooking
