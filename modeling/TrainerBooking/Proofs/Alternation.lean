import Mathlib.Algebra.BigOperators.Group.Finset.Basic
import Mathlib.Algebra.BigOperators.Group.Finset.Piecewise
import TrainerBooking.Proofs.Counters
import TrainerBooking.Proofs.Occupancy
import TrainerBooking.Proofs.Residue
import TrainerBooking.Proofs.Timetable

/-! # Bookings and releases balance

Under the full watch, the bookings and releases that were counted as successes are exactly those that
the calendar went through.

* **Counted.** An act is `Counted` if it makes the first few of its updates, all of them if it is
  done, and the successes go up by those it has made.  There is a rule for every way in which acts are
  put together, and every order obeys it (`Act.Counted.order`), whether an hour is booked by an order
  of its own or in the middle of an order on trainings.
* **Alternating.** `HourStep.Alternate` says of steps on one hour that it is booked and released in
  turns.  Works on the calendar have no choice (`Books.Worked.alternate`).
* **Errands.** An `Errand` is an order that was carried out, and `Errand.made` reads off the counters
  which of its bookings and releases succeeded.  The balance of a whole run follows hour by hour
  (`Errand.bookings_balance`). -/

namespace TrainerBooking

open Desk

/-- Does the update book or release an hour? -/
def HourUpdate.claims (u : HourUpdate) : Bool := u.step.operation?.isSome

theorem HourUpdate.countP_claims (us : List HourUpdate) :
    us.countP claims = (us.countP fun u => u.step = .scheduleTraining) +
      us.countP fun u => u.step = .cancelTraining := by
  induction us with
  | nil => rfl
  | cons u us ih =>
      obtain ⟨time, step⟩ := u
      rw [List.countP_cons, List.countP_cons, List.countP_cons, ih]
      cases step <;> simp [claims, HourStep.operation?] <;> omega

/-- The successes of the two operations went up by those of the updates that are theirs. -/
def World.Counts (w : World) (us : List HourUpdate) (w' : World) : Prop :=
  ∀ {step o}, HourStep.operation? step = some o →
    w'.successes o = w.successes o + us.countP fun u => u.step = step

namespace World.Counts

variable {w w' w'' : World} {us vs : List HourUpdate}

theorem none (hnone : ∀ u ∈ us, u.claims = false)
    (hsame : ∀ {step o}, HourStep.operation? step = some o → w'.successes o = w.successes o) :
    w.Counts us w' := by
  intro step o ho
  have hzero : (us.countP fun u => u.step = step) = 0 := by
    rw [List.countP_eq_zero]
    intro u hu hstep
    have hclaims := hnone u hu
    rw [HourUpdate.claims, of_decide_eq_true hstep, ho] at hclaims
    cases hclaims
  rw [hsame ho, hzero, Nat.add_zero]

theorem nothing
    (hsame : ∀ {step o}, HourStep.operation? step = some o → w'.successes o = w.successes o) :
    w.Counts [] w' := World.Counts.none (List.forall_mem_nil _) hsame

theorem filter (h : w.Counts us w') : w.Counts (us.filter HourUpdate.claims) w' := by
  intro step o ho
  rw [h ho, List.countP_filter]
  congr 1
  refine List.countP_congr fun u _ => ?_
  by_cases hstep : u.step = step
  · simp [HourUpdate.claims, hstep, ho]
  · simp [hstep]

theorem append (h : w.Counts us w') (h' : w'.Counts vs w'') : w.Counts (us ++ vs) w'' := by
  intro step o ho
  rw [h' ho, h ho, List.countP_append, Nat.add_assoc]

end World.Counts

/-- The update is made, if this is done, and otherwise nothing is. -/
def Books.MakesOne (window : BookingWindow) (now : Moment) (u : HourUpdate) (b : Books) (done : Bool)
    (b' : Books) : Prop :=
  (done = true ∧ b.Worked window now [u] b') ∨ (done = false ∧ b' = b)

theorem Act.Meets.stepHour_exact {s : Setting} {b : Books} {time : Moment} {step : HourStep}
    {slug description : String} (hs : s.held.hours = []) :
    ((Repository.updateHour time (stepping step)).within slug description >>= fun _ =>
      Pure.pure ()).Meets s b fun e b' => b.MakesOne s.window s.now ⟨time, step⟩ e.isDone b' := by
  refine answered (R := b.MakesOne s.window s.now ⟨time, step⟩) (within (updateHour hs ?_))
  rw [Ending.isDone_mapCause]
  obtain ⟨h, heq, hwrites⟩ | ⟨hdone, hsame⟩ := b.stepHour_cases time step s
  · rw [Books.stepHour] at heq
    rw [heq]
    exact .inl ⟨rfl, .step hwrites (.rest rfl rfl)⟩
  · exact .inr ⟨hdone, hsame⟩

/-! ### Saving a training -/

theorem Act.Uncounted.saving {st : Store} {id : String} {t : Training} :
    (Repository.saving st id t).Uncounted := by
  refine of_plain ?_
  cases st with
  | memory m => exact .changeMemory _
  | tables tb => exact (Act.Plain.ofDatabase _).bind fun _ => .changeTables _

/-- A training that is saved leaves the calendar alone. -/
theorem Repository.saving_same {st : Store} {id : String} {s : Setting} (t : Training) (w : World) :
    (saving st id t s w).2.store.books.hours = w.store.books.hours ∧
      (saving st id t s w).2.store.books.inMemory = w.store.books.inMemory := by
  obtain ⟨store, journal, counters⟩ := w
  cases st with
  | memory m => cases store <;> exact ⟨rfl, rfl⟩
  | tables tb =>
      rw [saving, Act.bind_run]
      cases tb.saveTraining (TrainingRow.encode t) with
      | error c => exact ⟨rfl, rfl⟩
      | ok rows => cases store <;> exact ⟨rfl, rfl⟩

/-- What can be read of the contents stands in the books. -/
theorem Store.Sound.training_of_contents {st : Store} (h : st.Sound) {id : String} {t : Training}
    (ht : st.contents.training? id = some t) : st.books.trainings id = some t := by
  have hread : st.read id = .ok t := Repository.read_eq_ok_iff.mpr ht
  obtain ⟨-, hnone⟩ | ⟨t', ht', ⟨-, hsame⟩ | ⟨-, f, hlost⟩⟩ := h.read_cases id
  · rw [hread] at hnone
    cases hnone
  · rw [hread] at hsame
    cases hsame
    exact ht'
  · rw [hread] at hlost
    cases hlost

/-! ### Counted acts -/

/-- From a sound store with the books `b` the act makes the first few of the updates, and all of them
if it is done; and the successes go up by those that it has made. -/
def Act.Counted {ε α : Type} (act : Act ε α) (s : Setting) (b : Books) (us : List HourUpdate) :
    Prop :=
  ∀ w : World, w.store.Sound → w.store.books = b →
    ∃ made, made <+: us ∧ b.Worked s.window s.now made (act s w).2.store.books ∧
      ((act s w).1.isDone = true → made = us) ∧ w.Counts made (act s w).2

namespace Act.Counted

variable {ε δ α β : Type} {s : Setting} {b : Books} {us vs : List HourUpdate}

/-- What counts nothing may do works of other kinds. -/
theorem of_uncounted {act : Act ε α}
    (h : act.Meets s b fun e b' => b.WorkedThrough s.window s.now us e.isDone b')
    (hcount : act.Uncounted) (hnone : ∀ u ∈ us, u.claims = false) : act.Counted s b us := by
  intro w hw hb
  obtain ⟨-, made, hpre, hworked, hall⟩ := h w hw hb
  refine ⟨made, hpre, hworked, hall, ?_⟩
  exact World.Counts.none (fun u hu => hnone u (hpre.subset hu)) (hcount s w)

/-- An act that fails at once. -/
theorem stopped {act : Act ε α} (h : ∀ w, (act s w).1.isDone = false ∧ (act s w).2 = w) :
    act.Counted s b us := by
  intro w hw hb
  obtain ⟨hdone, hsame⟩ := h w
  rw [hsame, hb, hdone]
  exact ⟨[], List.nil_prefix, .rest rfl rfl, nofun, World.Counts.nothing fun _ => rfl⟩

theorem bind {act : Act ε α} {next : α → Act ε β} (us vs : List HourUpdate)
    (h : act.Counted s b us) (hsound : act.Meets s b fun _ _ => True)
    (hnext : ∀ a b', (next a).Counted s b' vs) :
    (act >>= next).Counted s b (us ++ vs) := by
  intro w hw hb
  obtain ⟨made, hpre, hworked, hall, hcounts⟩ := h w hw hb
  have hw' := (hsound w hw hb).1
  have hshort : made <+: us ++ vs := hpre.trans (List.prefix_append us vs)
  rw [bind_run]
  generalize act s w = r at hworked hall hcounts hw'
  obtain ⟨e, w'⟩ := r
  cases e with
  | refused c => exact ⟨made, hshort, hworked, nofun, hcounts⟩
  | crashed => exact ⟨made, hshort, hworked, nofun, hcounts⟩
  | done a =>
      obtain rfl := hall rfl
      obtain ⟨more, hpre', hworked', hall', hcounts'⟩ := hnext a _ w' hw' rfl
      refine ⟨made ++ more, (List.prefix_append_right_inj made).mpr hpre', hworked.append hworked',
        fun hdone => ?_, hcounts.append hcounts'⟩
      rw [hall' hdone]

/-- What comes first may leave the calendar alone, and count nothing. -/
theorem after {act : Act ε α} {next : α → Act ε β} (hcount : act.Uncounted)
    (h : act.Meets s b fun _ b' => b'.hours = b.hours ∧ b'.inMemory = b.inMemory)
    (hnext : ∀ a b', (next a).Counted s b' us) : (act >>= next).Counted s b us := by
  have hfirst : act.Counted s b [] := of_uncounted (.worksNot h) hcount (List.forall_mem_nil _)
  exact bind [] us hfirst (h.mono fun _ _ _ => trivial) hnext

/-- So may what comes last. -/
theorem before {act : Act ε α} {next : α → Act ε β} (h : act.Counted s b us)
    (hcount : ∀ a, (next a).Uncounted)
    (hsame : ∀ a w, (next a s w).2.store.books.hours = w.store.books.hours ∧
      (next a s w).2.store.books.inMemory = w.store.books.inMemory) :
    (act >>= next).Counted s b us := by
  intro w hw hb
  obtain ⟨made, hpre, hworked, hall, hcounts⟩ := h w hw hb
  rw [bind_run]
  generalize act s w = r at hworked hall hcounts
  obtain ⟨e, w'⟩ := r
  cases e with
  | refused c => exact ⟨made, hpre, hworked, nofun, hcounts⟩
  | crashed => exact ⟨made, hpre, hworked, nofun, hcounts⟩
  | done a =>
      obtain ⟨hhours, hkind⟩ := hsame a w'
      refine ⟨made, hpre, ?_, fun _ => hall rfl, fun ho => ?_⟩
      · have hrest := hworked.append (.rest hhours hkind)
        rw [List.append_nil] at hrest
        exact hrest
      · rw [hcount a s w' ho]
        exact hcounts ho

theorem told {act : Act ε α} {f : α → β} (h : act.Counted s b us) :
    (act >>= fun a => (Pure.pure (f a) : Act ε β)).Counted s b us :=
  h.before (fun _ => .of_plain (.pure _)) fun _ _ => ⟨rfl, rfl⟩

theorem mapCause {f : ε → δ} {act : Act ε α} (h : act.Counted s b us) :
    (act.mapCause f).Counted s b us := by
  intro w hw hb
  rw [mapCause_run, Ending.isDone_mapCause]
  exact h w hw hb

theorem within {slug description : String} {act : Act Failure α} (h : act.Counted s b us) :
    (act.within slug description).Counted s b us := mapCause h

theorem bind_ofRule {e : Except Violation α} {next : α → Act Failure β} {slug description : String}
    (h : ∀ a, e = .ok a → (next a).Counted s b us) :
    ((Act.ofRule e).within slug description >>= next).Counted s b us := by
  cases e with
  | error v => exact stopped fun _ => ⟨rfl, rfl⟩
  | ok a => exact h a rfl

theorem now {next : Moment → Act ε α} (h : (next s.now).Counted s b us) :
    (Act.now >>= next).Counted s b us := h

theorem ite {p : Prop} [Decidable p] {act act' : Act ε α} (h : act.Counted s b us)
    (h' : act'.Counted s b us) : (if p then act else act').Counted s b us := by
  split
  · exact h
  · exact h'

/-- The operations on hours are counted by a rule of their own. -/
theorem watched {o : Operation} {body : Act Failure α} (hschedule : o ≠ .scheduleHour)
    (hcancel : o ≠ .cancelHour) (h : ∀ spans, body.Counted { s with spans := spans } b us) :
    (Desk.watched o body).Counted s b us := by
  intro w hw hb
  obtain ⟨spans, v, hstore, hcounters, hend, hstore', hcount⟩ :=
    Desk.watched_elsewhere hschedule hcancel body s w
  obtain ⟨made, hpre, hworked, hall, hcounts⟩ := h spans v (hstore ▸ hw) (hstore ▸ hb)
  rw [hend, hstore']
  refine ⟨made, hpre, hworked, hall, fun ho => ?_⟩
  rw [hcount ho, hcounts ho, World.successes, hcounters, World.successes]

/-- **A booking or a release is counted as a success exactly if the hour takes the step.** -/
theorem stepHour {o : Operation} {step : HourStep} {time : Moment} {slug description : String}
    (ho : step.operation? = some o) (hs : s.held.hours = []) (hwatch : s.watch.counts = true) :
    (Desk.watched o ((Repository.updateHour time (stepping step)).within slug description >>=
      fun _ => Pure.pure ())).Counted s b [⟨time, step⟩] := by
  intro w hw hb
  obtain ⟨spans, v, hstore, hcounters, hend, hstore', hcount⟩ := Desk.watched_successes o
    ((Repository.updateHour time (stepping step)).within slug description >>= fun _ =>
      (Pure.pure () : Act Failure Unit)) s w
  set body : Act Failure Unit := (Repository.updateHour time (stepping step)).within slug description
    >>= fun _ => Pure.pure ()
  -- The update itself counts nothing, so all that is added is what the watch around it counts.
  have hbody : body.Uncounted :=
    .of_plain (((Act.Plain.stepHour time step).within _ _).bind fun _ => .pure ())
  have hsuccesses : ∀ {step' o'}, HourStep.operation? step' = some o' →
      (Desk.watched o body s w).2.successes o' = w.successes o' +
        (decide (step = step') && (body { s with spans := spans } v).1.isDone).toNat := by
    intro step' o' ho'
    have hsame : decide (o = o') = decide (step = step') := by
      cases step <;> cases ho <;> cases step' <;> cases ho' <;> rfl
    have hbefore : v.successes o' = w.successes o' := by
      rw [World.successes, hcounters, World.successes]
    rw [hcount o', hbody _ v ho', hbefore, hsame, hwatch, Bool.true_and]
  have hmeets : body.Meets { s with spans := spans } b fun e b' =>
      b.MakesOne s.window s.now ⟨time, step⟩ e.isDone b' := .stepHour_exact hs
  rw [hend, hstore']
  obtain ⟨-, ⟨hdone, hworked⟩ | ⟨hdone, hsame⟩⟩ := hmeets v (hstore ▸ hw) (hstore ▸ hb)
  · refine ⟨[⟨time, step⟩], List.prefix_rfl, hworked, fun _ => rfl, fun {step' o'} ho' => ?_⟩
    rw [hsuccesses ho', hdone, Bool.and_true, List.countP_singleton]
    cases decide (step = step') <;> rfl
  · rw [hdone, hsame]
    have hnever : false = true → [] = [(⟨time, step⟩ : HourUpdate)] := fun h => by cases h
    refine ⟨[], List.nil_prefix, .rest rfl rfl, hnever, World.Counts.nothing fun ho' => ?_⟩
    rw [hsuccesses ho', hdone, Bool.and_false]
    rfl

/-- The update of a training does what its transition does. -/
theorem updateTraining {id : String} {caller : Caller}
    {transition : Training → Act Failure Training} {f : Training → List HourUpdate}
    (hs : s.held.trainings = [])
    (h : ∀ t, (transition t).Counted { s with held := s.held.withTraining id } b (f t)) :
    (Repository.updateTraining id caller transition >>= fun _ => Pure.pure ()).Counted s b
      ((b.trainings id).elim [] f) := by
  intro w hw hb
  cases hseen : (w.store.contents.training? id).filter caller.sees with
  | none =>
      obtain ⟨c, hrun⟩ := Repository.updateTraining_unseen transition hs hseen
      rw [hrun, hb]
      exact ⟨[], List.nil_prefix, .rest rfl rfl, nofun, World.Counts.nothing fun _ => rfl⟩
  | some t =>
      have ht : b.trainings id = some t := by
        rw [← hb]
        exact Store.Sound.training_of_contents hw (Option.filter_eq_some_iff.mp hseen).1
      rw [Repository.updateTraining_seen transition hs hseen, ht, Option.elim_some]
      -- If the training is not saved after all, what its transition did to the calendar stays done.
      have hheld : ((transition t).holding (Held.withTraining id)).Counted s b (f t) := h t
      exact hheld.before (fun _ => .saving) (fun t' v => Repository.saving_same t' v) w hw hb

/-! ### The desk -/

theorem scheduleHour {time : Moment} (hs : s.held.hours = []) (hwatch : s.watch.counts = true) :
    (Desk.scheduleHour time).Counted s b [⟨time, .scheduleTraining⟩] := stepHour rfl hs hwatch

theorem cancelHour {time : Moment} (hs : s.held.hours = []) (hwatch : s.watch.counts = true) :
    (Desk.cancelHour time).Counted s b [⟨time, .cancelTraining⟩] := stepHour rfl hs hwatch

theorem moveHour {new old : Moment} (hs : s.held.hours = []) (hwatch : s.watch.counts = true) :
    (Desk.moveHour new old).Counted s b [⟨new, .scheduleTraining⟩, ⟨old, .cancelTraining⟩] := by
  refine bind [_] [_] (within (scheduleHour hs hwatch)) ?_ fun _ _ => within (cancelHour hs hwatch)
  exact .within ((Act.Meets.scheduleHour_works hs).mono fun _ _ _ => trivial)

theorem scheduleTraining {id owner ownerName notes : String} {time : Moment}
    (hs : s.held = Held.nothing) (hwatch : s.watch.counts = true) :
    (Desk.scheduleTraining id owner ownerName time notes).Counted s b
      [⟨time, .scheduleTraining⟩] := by
  refine watched nofun nofun fun _ => bind_ofRule fun t ht => ?_
  obtain rfl := Training.book_eq_ok ht
  refine after (.within (.of_plain (.addTraining _))) (.within ?_) fun _ _ => ?_
  · refine .addTraining ?_ (fun _ _ => ⟨rfl, rfl⟩) fun _ => ⟨rfl, rfl⟩
    exact congrArg Held.trainings hs
  refine after (.within .changeBalance_watched) (.within ?_) fun _ _ => ?_
  · exact Act.Meets.changeBalance_banked.mono fun _ _ h => ⟨h.hours, h.inMemory⟩
  exact within (scheduleHour (congrArg Held.hours hs) hwatch)

theorem canceling {caller : Caller} {now : Moment} {t : Training} (hs : s.held.hours = [])
    (hwatch : s.watch.counts = true) :
    (Desk.canceling caller now t).Counted s b [⟨t.time, .cancelTraining⟩] := by
  refine bind_ofRule fun t' ht' => ?_
  obtain ⟨-, rfl⟩ := Training.cancel_eq_ok ht'
  have hrelease : ∀ b', ((Desk.cancelHour t.time).within "cancel-training-failed"
      "unable to cancel training" >>= fun _ => Pure.pure { t with canceled := true }).Counted s b'
        [⟨t.time, .cancelTraining⟩] := fun _ => told (within (cancelHour hs hwatch))
  refine ite (after (.within .changeBalance_watched) (.within ?_) fun _ => hrelease) (hrelease b)
  exact Act.Meets.changeBalance_banked.mono fun _ _ h => ⟨h.hours, h.inMemory⟩

theorem rescheduling {newTime now : Moment} {notes : String} {t : Training}
    (hs : s.held.hours = []) (hwatch : s.watch.counts = true) :
    (Desk.rescheduling newTime notes now t).Counted s b
      [⟨newTime, .scheduleTraining⟩, ⟨t.time, .cancelTraining⟩] :=
  bind_ofRule fun _ _ => bind_ofRule fun _ _ => told (within (moveHour hs hwatch))

theorem approving {caller : Caller} {t : Training} (hs : s.held.hours = [])
    (hwatch : s.watch.counts = true) :
    (Desk.approving caller t).Counted s b (t.proposal.elim [] fun p =>
      [⟨p.newTime, .scheduleTraining⟩, ⟨t.time, .cancelTraining⟩]) := by
  refine bind_ofRule fun moved hmoved => ?_
  obtain ⟨-, p, hp, rfl⟩ := Training.approve_eq_ok hmoved
  rw [hp]
  exact told (within (moveHour hs hwatch))

/-- **Every order makes the first few of its updates, and counts its bookings and releases.** -/
theorem order (order : Order) (hs : s.held = Held.nothing) (hwatch : s.watch.counts = true) :
    order.perform.Counted s b (order.updates b) := by
  have hhours : s.held.hours = [] := congrArg Held.hours hs
  have htrainings : s.held.trainings = [] := congrArg Held.trainings hs
  by_cases hclaims : order.claims = false
  · refine of_uncounted (.order_works order hs) (order.uncounted hclaims) fun u hu => ?_
    exact Bool.eq_false_iff.mpr (List.any_eq_false.mp hclaims _ (order.step_mem hu))
  cases order with
  | scheduleHour time => exact told (scheduleHour hhours hwatch)
  | cancelHour time => exact told (cancelHour hhours hwatch)
  | scheduleTraining id owner ownerName time notes => exact told (scheduleTraining hs hwatch)
  | cancelTraining id caller =>
      refine told (watched nofun nofun fun _ => now ?_)
      exact updateTraining htrainings fun t => canceling hhours hwatch
  | rescheduleTraining id newTime notes caller =>
      refine told (watched nofun nofun fun _ => now ?_)
      exact updateTraining htrainings fun t => rescheduling hhours hwatch
  | approveReschedule id caller =>
      refine told (watched nofun nofun fun _ => ?_)
      exact updateTraining htrainings fun t => approving hhours hwatch
  | _ => exact absurd rfl hclaims

end Act.Counted

/-! ### One hour -/

/-- From an hour that is booked or not, the steps book and release it in turns, and leave it booked
or not. -/
inductive HourStep.Alternate : Bool → List HourStep → Bool → Prop
  | rest (booked : Bool) : Alternate booked [] booked
  | book {steps : List HourStep} {booked : Bool} (h : Alternate true steps booked) :
      Alternate false (.scheduleTraining :: steps) booked
  | release {steps : List HourStep} {booked : Bool} (h : Alternate false steps booked) :
      Alternate true (.cancelTraining :: steps) booked

namespace HourStep.Alternate

variable {first mid last : Bool} {steps steps' : List HourStep}

theorem append (h : Alternate first steps mid) (h' : Alternate mid steps' last) :
    Alternate first (steps ++ steps') last := by
  induction h with
  | rest booked => exact h'
  | book h ih => exact .book (ih h')
  | release h ih => exact .release (ih h')

/-- Neither of the two steps gets further ahead of the other than the hour says. -/
theorem count (h : Alternate first steps last) :
    steps.count .scheduleTraining + first.toNat = steps.count .cancelTraining + last.toNat := by
  have hne : HourStep.scheduleTraining ≠ .cancelTraining := nofun
  induction h with
  | rest booked => rfl
  | book h ih =>
      rw [List.count_cons_self, List.count_cons_of_ne hne]
      exact ih
  | release h ih =>
      rw [Bool.toNat_false] at ih
      rw [List.count_cons_self, List.count_cons_of_ne hne.symm, Bool.toNat_true]
      omega

theorem edge (step : HourStep) : Alternate (decide (step.edge.1 = .trainingScheduled))
    ([step].filter fun step => step.operation?.isSome)
    (decide (step.edge.2 = .trainingScheduled)) := by
  cases step with
  | makeAvailable => exact .rest false
  | makeNotAvailable => exact .rest false
  | scheduleTraining => exact .book (.rest true)
  | cancelTraining => exact .release (.rest false)

end HourStep.Alternate

/-- The steps that the updates take on the hour of a second. -/
def HourUpdate.stepsOn (second : Int) (us : List HourUpdate) : List HourStep :=
  (us.filter fun u => u.time.second = second).map HourUpdate.step

theorem HourUpdate.stepsOn_append (second : Int) (us vs : List HourUpdate) :
    stepsOn second (us ++ vs) = stepsOn second us ++ stepsOn second vs := by
  rw [stepsOn, List.filter_append, List.map_append]
  rfl

namespace Books

variable {window : BookingWindow} {now : Moment} {b b' : Books} {us : List HourUpdate}

instance (second : Int) : Decidable (b.Booked second) := by
  unfold Booked
  infer_instance

/-- Where an update writes an hour, that was booked exactly if its edge begins there, and it is
booked exactly if its edge ends there. -/
theorem booked_of_writes {u : HourUpdate} {h : Hour} (hw : u.Writes window now b h) :
    (b.Booked u.time.second ↔ u.step.edge.1 = .trainingScheduled) ∧
      ((b.setHour u.time.second h).Booked u.time.second ↔ u.step.edge.2 = .trainingScheduled) := by
  unfold Booked
  rw [availability?_setHour, if_pos rfl, Option.some.injEq]
  cases hw with
  | stepped hold hfrom =>
      rw [availability?_of_hours hold, hfrom, Option.some.injEq]
      exact ⟨Iff.rfl, Iff.rfl⟩
  | opened hnone hstep hcheck =>
      rw [availability?, hnone, hstep]
      refine ⟨⟨fun h => ?_, fun h => ?_⟩, fun h => ?_, fun h => ?_⟩ <;> cases h

theorem booked_of_hours (hhours : b'.hours = b.hours) (second : Int) :
    b'.Booked second ↔ b.Booked second := by
  rw [Booked, availability?, hhours, Booked, availability?]

theorem booked_of_ne {u : HourUpdate} {h : Hour} {second : Int} (hne : u.time.second ≠ second) :
    (b.setHour u.time.second h).Booked second ↔ b.Booked second := by
  rw [Booked, availability?_setHour, if_neg hne.symm, Booked]

theorem alternate_of_writes {u : HourUpdate} {h : Hour} (hw : u.Writes window now b h)
    (second : Int) : HourStep.Alternate (decide (b.Booked second))
      (HourUpdate.stepsOn second ([u].filter HourUpdate.claims))
      (decide ((b.setHour u.time.second h).Booked second)) := by
  by_cases hsecond : u.time.second = second
  · subst hsecond
    obtain ⟨hbefore, hafter⟩ := booked_of_writes hw
    rw [decide_eq_decide.mpr hbefore, decide_eq_decide.mpr hafter]
    have hsteps : HourUpdate.stepsOn u.time.second ([u].filter HourUpdate.claims) =
        [u.step].filter fun step => step.operation?.isSome := by
      rw [HourUpdate.stepsOn, List.filter_comm, List.filter_singleton, decide_eq_true rfl]
      show _ = ([u].map HourUpdate.step).filter _
      rw [List.filter_map]
      rfl
    rw [hsteps]
    exact .edge u.step
  · have hnone : HourUpdate.stepsOn second ([u].filter HourUpdate.claims) = [] := by
      rw [HourUpdate.stepsOn, List.filter_filter, List.filter_singleton, decide_eq_false hsecond]
      rfl
    rw [hnone, decide_eq_decide.mpr (booked_of_ne hsecond)]
    exact .rest _

/-- **Works book and release every hour in turns.** -/
theorem Worked.alternate (h : Worked window now b us b') (second : Int) :
    HourStep.Alternate (decide (b.Booked second))
      (HourUpdate.stepsOn second (us.filter HourUpdate.claims)) (decide (b'.Booked second)) := by
  induction h with
  | rest hhours hkind =>
      rw [decide_eq_decide.mpr (booked_of_hours hhours second)]
      exact .rest _
  | @step b b' u us h hwrites hrest ih =>
      have hfirst := alternate_of_writes hwrites second
      rw [← List.singleton_append, List.filter_append, HourUpdate.stepsOn_append]
      exact hfirst.append ih

end Books

/-! ### The balance of the calendar -/

/-- Steps of a kind are counted hour by hour. -/
theorem HourUpdate.countP_eq_sum (step : HourStep) {us : List HourUpdate} {seconds : Finset Int}
    (h : ∀ u ∈ us, u.time.second ∈ seconds) :
    (us.countP fun u => u.step = step) = ∑ second ∈ seconds, (stepsOn second us).count step := by
  let taken : List Int := (us.filter fun u => u.step = step).map fun u => u.time.second
  have hcount : ∀ second, (stepsOn second us).count step = taken.count second := by
    intro second
    rw [List.count, List.count, stepsOn, List.countP_map, List.countP_map, List.countP_filter,
      List.countP_filter]
    refine List.countP_congr fun u _ => ?_
    simp [and_comm]
  have htaken : ∀ second ∈ (taken : Multiset Int), second ∈ seconds := by
    intro second hmem
    obtain ⟨u, hu, rfl⟩ := List.mem_map.mp (Multiset.mem_coe.mp hmem)
    exact h u (List.mem_of_mem_filter hu)
  calc (us.countP fun u => u.step = step) = taken.length := by
        rw [List.length_map, List.countP_eq_length_filter]
    _ = ∑ second ∈ seconds, (taken : Multiset Int).count second :=
        (Multiset.sum_count_eq_card htaken).symm
    _ = ∑ second ∈ seconds, (stepsOn second us).count step :=
        Finset.sum_congr rfl fun second _ => by rw [hcount, Multiset.coe_count]

/-- The hours of a store that are booked are counted second by second. -/
theorem Books.Timetabled.countP_eq_sum {st : Store} {window : BookingWindow}
    (hb : st.books.Timetabled window) {seconds : Finset Int}
    (h : ∀ second, st.books.Booked second → second ∈ seconds) :
    st.hours.countP Hour.hasTraining =
      ∑ second ∈ seconds, (decide (st.books.Booked second)).toNat := by
  let booked : List Int := (st.hours.filter Hour.hasTraining).map fun h => h.time.second
  have hnodup : booked.Nodup := by
    rw [List.Nodup, List.pairwise_map]
    exact hb.listed.distinct.filter _
  have hmem : ∀ second, second ∈ booked ↔ st.books.Booked second := by
    intro second
    rw [Booked, availability?, Option.map_eq_some_iff]
    constructor
    · intro hsecond
      obtain ⟨hour, hhour, rfl⟩ := List.mem_map.mp hsecond
      obtain ⟨hhour, htraining⟩ := List.mem_filter.mp hhour
      exact ⟨hour, hb.mem_hours.mp hhour, of_decide_eq_true htraining⟩
    · rintro ⟨hour, hhour, htraining⟩
      refine List.mem_map.mpr ⟨hour, List.mem_filter.mpr ⟨?_, decide_eq_true htraining⟩, ?_⟩
      · exact Store.mem_hours.mpr ⟨second, hhour⟩
      · exact (hb second hour hhour).1
  have hset : booked.toFinset = seconds.filter fun second => st.books.Booked second := by
    ext second
    rw [List.mem_toFinset, hmem, Finset.mem_filter]
    exact ⟨fun hbooked => ⟨h second hbooked, hbooked⟩, And.right⟩
  calc st.hours.countP Hour.hasTraining = booked.length := by
        rw [List.length_map, List.countP_eq_length_filter]
    _ = (seconds.filter fun second => st.books.Booked second).card := by
        rw [← hset, List.toFinset_card_of_nodup hnodup]
    _ = ∑ second ∈ seconds, (decide (st.books.Booked second)).toNat := by
        rw [Finset.card_filter]
        refine Finset.sum_congr rfl fun second _ => ?_
        by_cases hbooked : st.books.Booked second <;> simp [hbooked]

/-- From a calendar without bookings, the bookings that were not released stand in the store. -/
theorem Books.Timetabled.balance {st : Store} {window : BookingWindow}
    (hb : st.books.Timetabled window) {us : List HourUpdate}
    (h : ∀ second, HourStep.Alternate false (HourUpdate.stepsOn second us)
      (decide (st.books.Booked second))) :
    (us.countP fun u => u.step = .scheduleTraining) =
      (us.countP fun u => u.step = .cancelTraining) + st.hours.countP Hour.hasTraining := by
  let seconds : Finset Int := (us.map fun u => u.time.second).toFinset
  have hus : ∀ u ∈ us, u.time.second ∈ seconds := fun u hu =>
    List.mem_toFinset.mpr (List.mem_map_of_mem hu)
  -- An hour that no update touches was never booked, so these seconds are enough.
  have hbooked : ∀ second, st.books.Booked second → second ∈ seconds := by
    intro second hsecond
    by_contra hnot
    have hnone : HourUpdate.stepsOn second us = [] := by
      rw [HourUpdate.stepsOn, List.map_eq_nil_iff, List.filter_eq_nil_iff]
      intro u hu hsame
      exact hnot (of_decide_eq_true hsame ▸ hus u hu)
    have halternate := h second
    rw [hnone, decide_eq_true hsecond] at halternate
    cases halternate
  rw [HourUpdate.countP_eq_sum _ hus, HourUpdate.countP_eq_sum _ hus, hb.countP_eq_sum hbooked,
    ← Finset.sum_add_distrib]
  exact Finset.sum_congr rfl fun second _ => (h second).count

/-! ### Errands -/

/-- An order that was carried out: when, and the world before and after it. -/
structure Errand where
  now : Moment
  order : Desk.Order
  before : World
  after : World

/-- How often bookings and releases of hours were counted as successes. -/
def World.claimed (w : World) : Nat := w.successes .scheduleHour + w.successes .cancelHour

namespace Errand

/-- The bookings and releases that succeeded: of those for which the order asks, the first few, as
many as were counted. -/
def made (e : Errand) : List HourUpdate :=
  ((e.order.updates e.before.store.books).filter HourUpdate.claims).take
    (e.after.claimed - e.before.claimed)

/-- The calendar was worked on, and of these works the bookings and releases are those made. -/
def Faithful (window : BookingWindow) (e : Errand) : Prop :=
  ∃ us, us <+: e.order.updates e.before.store.books ∧
    e.before.store.books.Worked window e.now us e.after.store.books ∧
    us.filter HourUpdate.claims = e.made

/-- Carries out an order, which is counted. -/
def run (window : BookingWindow) (span : String) (now : Moment) (order : Desk.Order) (w : World) :
    Errand :=
  ⟨now, order, w, (order.perform (.outer now window (.full span)) w).2⟩

/-- Carries out orders one after the other. -/
def runAll (window : BookingWindow) (span : String) :
    List (Moment × Desk.Order) → World → List Errand × World
  | [], w => ([], w)
  | (now, order) :: rest, w =>
    let e := run window span now order w
    let (log, w) := runAll window span rest e.after
    (e :: log, w)

theorem run_faithful (window : BookingWindow) (span : String) (now : Moment) (order : Desk.Order)
    {w : World} (hw : w.store.Sound) :
    let e := run window span now order w
    e.after.store.Sound ∧ e.Faithful window ∧ w.Counts e.made e.after := by
  intro e
  obtain ⟨us, hpre, hworked, -, hcounts⟩ :=
    Act.Counted.order (s := .outer now window (.full span)) order rfl rfl w hw rfl
  have hsound := (Act.Meets.order_works (s := .outer now window (.full span)) order rfl w hw rfl).1
  -- What was made is the beginning of what was asked for, so its length says which updates it is.
  have hmade : us.filter HourUpdate.claims = e.made := by
    have hlength : (us.filter HourUpdate.claims).length = e.after.claimed - e.before.claimed := by
      have hschedule : e.after.successes .scheduleHour = w.successes .scheduleHour +
        us.countP fun u => u.step = .scheduleTraining := hcounts rfl
      have hcancel : e.after.successes .cancelHour = w.successes .cancelHour +
        us.countP fun u => u.step = .cancelTraining := hcounts rfl
      have hbefore : e.before = w := rfl
      rw [← List.countP_eq_length_filter, HourUpdate.countP_claims, World.claimed, World.claimed,
        hschedule, hcancel, hbefore]
      omega
    rw [made, ← hlength]
    exact List.prefix_iff_eq_take.mp (hpre.filter _)
  refine ⟨hsound, ⟨us, hpre, hworked, hmade⟩, ?_⟩
  rw [← hmade]
  exact World.Counts.filter hcounts

/-- A run keeps the store sound and the calendar well-formed, every errand in it is faithful, and
altogether they count what they made and book and release every hour in turns. -/
theorem runAll_faithful (window : BookingWindow) (span : String)
    (orders : List (Moment × Desk.Order)) {w : World} (hw : w.store.Sound)
    (hb : w.store.books.Timetabled window) :
    let r := runAll window span orders w
    let made := r.1.flatMap Errand.made
    r.2.store.books.Timetabled window ∧ (∀ e ∈ r.1, e.Faithful window) ∧ w.Counts made r.2 ∧
      ∀ second, HourStep.Alternate (decide (w.store.books.Booked second))
        (HourUpdate.stepsOn second made) (decide (r.2.store.books.Booked second)) := by
  induction orders generalizing w with
  | nil =>
      exact ⟨hb, List.forall_mem_nil _, World.Counts.nothing fun _ => rfl, fun _ => .rest _⟩
  | cons order rest ih =>
      obtain ⟨now, order⟩ := order
      obtain ⟨hsound, hfaithful, hcounts⟩ := run_faithful window span now order hw
      have ⟨us, hpre, hworked, hmade⟩ := hfaithful
      obtain ⟨hb', hrest, hcounts', halternate⟩ := ih hsound (hb.worked hworked)
      refine ⟨hb', fun e he => ?_, World.Counts.append hcounts hcounts', fun second => ?_⟩
      · rcases List.mem_cons.mp he with rfl | he
        · exact hfaithful
        · exact hrest e he
      · have hfirst := hworked.alternate second
        rw [hmade] at hfirst
        rw [runAll, List.flatMap_cons, HourUpdate.stepsOn_append]
        exact hfirst.append (halternate second)

/-- **Bookings and releases balance.** After any orders from an empty store of either kind, done or
failed, counted from zero: the bookings that were counted as successes, less the releases, are the
hours in the store at which a training is booked.  The counters count nothing but what the calendar
went through, in the middle of other orders too; and on every single hour a booking comes first, and
then releases and bookings take turns. -/
theorem bookings_balance (window : BookingWindow) (span : String)
    (orders : List (Moment × Desk.Order)) {w : World} (hw : w.store.Empty)
    (hcounters : w.counters = .empty) :
    let r := runAll window span orders w
    let made := r.1.flatMap Errand.made
    (r.2.successes .scheduleHour : Int) - r.2.successes .cancelHour =
        r.2.store.hours.countP Hour.hasTraining ∧
      (∀ second, HourStep.Alternate false (HourUpdate.stepsOn second made)
        (decide (r.2.store.books.Booked second))) ∧
      (r.2.successes .scheduleHour = made.countP fun u => u.step = .scheduleTraining) ∧
      (r.2.successes .cancelHour = made.countP fun u => u.step = .cancelTraining) ∧
      ∀ e ∈ r.1, e.Faithful window := by
  intro r made
  obtain ⟨hb, hfaithful, hcounts, halternate⟩ :=
    runAll_faithful window span orders hw.sound hw.timetabled
  have hturns : ∀ second, HourStep.Alternate false (HourUpdate.stepsOn second made)
      (decide (r.2.store.books.Booked second)) := by
    intro second
    have hnot : ¬ w.store.books.Booked second := by
      rw [Books.Booked, Books.availability?, hw.hours]
      intro h
      cases h
    have hsecond := halternate second
    rw [decide_eq_false hnot] at hsecond
    exact hsecond
  have hcount : ∀ {step o}, HourStep.operation? step = some o →
      r.2.successes o = made.countP fun u => u.step = step := by
    intro step o ho
    have hzero : w.successes o = 0 := by
      rw [World.successes, hcounters]
      rfl
    rw [hcounts ho, hzero, Nat.zero_add]
  have hschedule : r.2.successes .scheduleHour =
    made.countP fun u => u.step = .scheduleTraining := hcount rfl
  have hcancel : r.2.successes .cancelHour =
    made.countP fun u => u.step = .cancelTraining := hcount rfl
  have hbalance : (made.countP fun u => u.step = .scheduleTraining) =
    (made.countP fun u => u.step = .cancelTraining) + r.2.store.hours.countP Hour.hasTraining :=
      hb.balance hturns
  refine ⟨?_, hturns, hschedule, hcancel, hfaithful⟩
  rw [hschedule, hcancel]
  omega

open Sample in
/-- Ann books noon; it is released behind her back, so her move to one o'clock books that hour, fails
to release noon, and is not made; canceling fails the same way.  Noon is booked again, and released. -/
theorem bookings_balance_ann :
    let noonTime : Moment := ⟨1893585600 * Moment.perSecond, 0⟩
    let one : Moment := ⟨1893589200 * Moment.perSecond, 0⟩
    let w := world (.tables (.empty 1))
    let r := runAll .standard "app" ([
      .createUser ann.id .attendee ann.name 2,
      .makeHoursAvailable [noonTime, one],
      .scheduleTraining "1" ann.id ann.name noonTime "legs",
      .scheduleHour noonTime,
      .cancelHour noonTime,
      .rescheduleTraining "1" one "legs" ann,
      .cancelTraining "1" ann,
      .scheduleHour noonTime,
      .cancelTraining "1" ann].map fun order => (newYear, order)) w
    let made := r.1.flatMap Errand.made
    w.store.Empty ∧ w.counters = .empty ∧
      (r.2.successes .scheduleHour, r.2.successes .cancelHour) = (3, 2) ∧
      r.2.store.hours.map Hour.availability = [.available, .trainingScheduled] ∧
      HourUpdate.stepsOn noonTime.second made =
        [.scheduleTraining, .cancelTraining, .scheduleTraining, .cancelTraining] ∧
      (r.2.successes .scheduleHour : Int) - r.2.successes .cancelHour =
        r.2.store.hours.countP Hour.hasTraining := by
  intro noonTime one w r made
  have hcounts : (r.2.successes .scheduleHour, r.2.successes .cancelHour) = (3, 2) := by
    decide +kernel
  have hhours : r.2.store.hours.map Hour.availability = [.available, .trainingScheduled] := by
    decide +kernel
  have hnoon : HourUpdate.stepsOn noonTime.second made =
      [.scheduleTraining, .cancelTraining, .scheduleTraining, .cancelTraining] := by
    decide +kernel
  exact ⟨.tables 1, rfl, hcounts, hhours, hnoon, (bookings_balance _ _ _ (.tables 1) rfl).1⟩

end Errand

end TrainerBooking
