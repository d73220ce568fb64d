import TrainerBooking.Proofs.Plans

/-! # What a command on trainings leaves behind

A command on a training that fails leaves behind what it had written by then, and this module says
exactly what that is, for stores in every state (`Desk.Command.leaves`).

* **Updates.** An update of a training has the plan of its transition, and its last effect is to save
  the training.  Nothing but a trap on the updates of the trainings can make that one fail.
* **Transitions.** Every transition has a plan that is read off the training (`Training.cancelingPlan`
  and the others): a credit and an hour released, two hours changed, or nothing.
* **Commands.** `Desk.Command.plan` reads off the contents which effects a command is to have.  A command
  that a rule forbids, or whose training is not there for its caller, has none. -/

namespace TrainerBooking

/-! ### Updates of a training -/

/-- The plan of an update of a training: it is there and the caller sees it, `change` says what is
done elsewhere and what is made of it, and in the end that is saved. -/
def Contents.updating (c : Contents) (id : String) (caller : Caller)
    (change : Training → Plan Training) : Plan Unit :=
  ((c.training? id).filter caller.sees).bind fun t =>
    (change t).map fun (steps, t') => (steps ++ [⟨.save t', []⟩], ())

/-- Does the change work elsewhere, and leave a training whose it is? -/
def Plan.Modest (change : Training → Plan Training) : Prop :=
  ∀ t steps t', change t = some (steps, t') →
    (∀ step ∈ steps, step.effect.isElsewhere = true) ∧
      t'.id = t.id ∧ t'.owner = t.owner ∧ t'.ownerName = t.ownerName

namespace Repository

/-- What can be read of the contents is what the store reads. -/
theorem read_eq_ok_iff {st : Store} {id : String} {t : Training} :
    st.read id = .ok t ↔ st.contents.training? id = some t := by
  cases st with
  | memory m =>
      rw [Store.read, Store.contents, Contents.training?]
      cases m.trainings.get? id <;> simp
  | tables tb =>
      rw [Store.read, Store.contents, Contents.training?]
      cases tb.trainings.get? id with
      | none => simp
      | some row =>
          rw [Option.elim_some, Option.bind_some]
          cases row.decode <;> simp [Except.mapError, Except.toOption]

/-- A training that the caller does not see is not updated. -/
theorem updateTraining_unseen {id : String} {caller : Caller}
    (transition : Training → Act Failure Training) {s : Setting} (hs : s.held.trainings = [])
    {w : World} (h : (w.store.contents.training? id).filter caller.sees = none) :
    ∃ f, (updateTraining id caller transition >>= fun _ => (pure () : Act Failure Unit)) s w =
      (.refused f, w) := by
  cases hread : w.store.read id with
  | error f =>
      refine ⟨f, ?_⟩
      rw [Act.bind_run, updateTraining_run transition hs, hread]
      rfl
  | ok t =>
      have hsees : caller.sees t = false := by simpa [read_eq_ok_iff.mp hread] using h
      refine ⟨.rule (.notVisible caller.id t.owner), ?_⟩
      rw [Act.bind_run, updateTraining_run transition hs, Act.bind_run_done (read_run hread s w),
        Act.bind_run_refused (checkSees_run_unseen hsees s w)]

/-- The update of a training that the caller sees is its transition, and then it is saved. -/
theorem updateTraining_seen {id : String} {caller : Caller}
    (transition : Training → Act Failure Training) {s : Setting} (hs : s.held.trainings = [])
    {w : World} {t : Training} (h : (w.store.contents.training? id).filter caller.sees = some t) :
    (updateTraining id caller transition >>= fun _ => (pure () : Act Failure Unit)) s w =
      ((transition t).holding (Held.withTraining id) >>= saving w.store id) s w := by
  obtain ⟨ht, hsees⟩ := Option.filter_eq_some_iff.mp h
  rw [Act.bind_run, updateTraining_run transition hs,
    Act.bind_run_done (read_run (read_eq_ok_iff.mpr ht) s w),
    Act.bind_run_done (checkSees_run hsees s w), Act.bind_run, Act.bind_run]
  generalize (transition t).holding (Held.withTraining id) s w = r
  obtain ⟨e, w'⟩ := r
  cases e with
  | refused f => rfl
  | crashed => rfl
  | done t' =>
      dsimp only
      rw [Act.bind_run]
      generalize saving w.store id t' s w' = r
      obtain ⟨e, w''⟩ := r
      cases e <;> rfl

end Repository

namespace Act.Follows

variable {s : Setting} {c : Contents}

/-- Saving a training succeeds unless the updates of the trainings are trapped. -/
theorem saving {st : Store} {id : String} {t t' : Training} (hst' : st.contents.Keyed)
    (ht : st.contents.training? id = some t) (hid : t'.id = t.id) (howner : t'.owner = t.owner)
    (hname : t'.ownerName = t.ownerName) (hsame : st.contents.SameTrainings c) :
    (Repository.saving st id t').Follows s c (st.contents.trap? .trainings .update ≠ none)
      (some ([⟨.save t', []⟩], ())) := by
  intro w hw
  subst hw
  cases st with
  | memory m =>
      cases hst : w.store with
      | tables tb => rw [hst] at hsame; cases hsame
      | memory m' =>
          rw [hst] at hsame
          have htrainings : m'.trainings = m.trainings := hsame
          have hid' : id = t'.id := by rw [hid, hst' id t ht]
          have hrun : Repository.saving (.memory m) id t' s w =
              (.done (), { w with store := .memory (m'.fileTraining t'.id t') }) := by
            simp [Repository.saving, changeMemory, hst, hid']
          have hold : (Store.memory m').contents.hasTraining t'.id = true := by
            have ht : m.trainings.get? id = some t := ht
            rw [Store.contents, Contents.hasTraining, htrainings, Registry.contains, ← hid', ht]
            rfl
          rw [hrun]
          exact .done rfl (.single (.saved hold))
  | tables tb =>
      cases hst : w.store with
      | memory m => rw [hst] at hsame; cases hsame
      | tables tb' =>
          rw [hst] at hsame
          obtain ⟨htrainings, htraps⟩ := hsame
          obtain ⟨row, hrow, hd⟩ := Contents.exists_row_of_training? ht
          obtain ⟨hrid, hrowner, hrname⟩ := TrainingRow.eq_of_decode hd
          have hid' : id = t'.id := by rw [hid, ← hrid, hst'.1 id row hrow]
          rw [hid'] at hrow
          have hold : (Contents.tables tb').hasTraining t'.id = true := by
            rw [Contents.hasTraining, htrainings, Registry.contains, hrow]
            rfl
          obtain hsave | ⟨htrap, f, hsave⟩ := Tables.saveTraining_cases hrow (hrid.trans hid.symm)
            (hrowner.trans howner.symm) (hrname.trans hname.symm)
          · have hrun : Repository.saving (.tables tb) id t' s w =
                (.done (), { w with store := .tables { tb' with
                  trainings := tb'.trainings.put t'.id (TrainingRow.encode t') } }) := by
              simp [Repository.saving, bind_run, hsave, changeTables, hst, htrainings]
            rw [hrun]
            exact .done rfl (.single (.saved hold))
          · have hrun : Repository.saving (.tables tb) id t' s w = (.refused f.toFailure, w) := by
              simp [Repository.saving, bind_run, hsave]
            rw [hrun, hst]
            exact .stopped [] [] rfl rfl (fun _ => htrap) (.rest _)

/-- An update has the plan of its transition, and saves the training last. -/
theorem updateTraining {id : String} {caller : Caller}
    {transition : Training → Act Failure Training} {change : Training → Plan Training} (hs : s.held.trainings = []) (hc : c.Keyed)
    (hmodest : Plan.Modest change)
    (h : ∀ t, (c.training? id).filter caller.sees = some t → (transition t).Follows
      { s with held := s.held.withTraining id } c (c.trap? .trainings .update ≠ none) (change t)) :
    (Repository.updateTraining id caller transition >>= fun _ => Pure.pure ()).Follows s c
      (c.trap? .trainings .update ≠ none) (c.updating id caller change) := by
  intro w hw
  subst hw
  unfold Contents.updating
  cases hseen : (w.store.contents.training? id).filter caller.sees with
  | none =>
      obtain ⟨f, hrun⟩ := Repository.updateTraining_unseen transition hs hseen
      rw [hrun]
      exact .barred rfl f
  | some t =>
      rw [Repository.updateTraining_seen transition hs hseen, Option.bind_some]
      have ht := (Option.filter_eq_some_iff.mp hseen).1
      have htransition := h t hseen
      cases hchange : change t with
      | none =>
          rw [hchange] at htransition
          have hact : ((transition t).holding (Held.withTraining id)).Follows s w.store.contents
            (w.store.contents.trap? .trainings .update ≠ none) none := htransition
          exact barred hact w rfl
      | some p =>
          obtain ⟨steps, t'⟩ := p
          rw [hchange] at htransition
          obtain ⟨helsewhere, hid, howner, hname⟩ := hmodest t steps t' hchange
          have hact : ((transition t).holding (Held.withTraining id)).Follows s w.store.contents
            (w.store.contents.trap? .trainings .update ≠ none) (some (steps, t')) := htransition
          refine andThen hact (fun c' hpath => ?_) w rfl
          -- The steps before work elsewhere, so the training is still stored when it is saved.
          refine saving hc ht hid howner hname (hpath.sameTrainings fun e he => ?_)
          obtain ⟨step, hstep, rfl⟩ := List.mem_map.mp he
          exact helsewhere step hstep

end Act.Follows

/-! ### The operations of the other desks -/

namespace Act.Follows

variable {s : Setting} {c : Contents} {trapped : Prop}

theorem changeBalance {id : String} {amount : Int} (hamount : Column.fits amount = true)
    (hfits : (Effect.credit id amount).Fits c) :
    (Desk.changeBalance id amount).Follows s c trapped
      (some ([⟨.credit id amount, ["update-balance-failed"]⟩], ())) :=
  watched fun _ => stepOf (Act.Atomic.changeBalance hamount hfits) rfl

theorem scheduleHour {time : Moment} (hc : c.Keyed) (hs : s.held.hours = []) :
    (Desk.scheduleHour time).Follows s c trapped
      (some ([⟨.turn time .available .trainingScheduled, ["schedule-training-failed"]⟩], ())) := by
  refine watched fun _ => stepOf (Act.Atomic.stepHour .scheduleTraining hc ?_ nofun) rfl
  exact hs

theorem cancelHour {time : Moment} (hc : c.Keyed) (hs : s.held.hours = []) :
    (Desk.cancelHour time).Follows s c trapped
      (some ([⟨.turn time .trainingScheduled .available, ["cancel-training-failed"]⟩], ())) := by
  refine watched fun _ => stepOf (Act.Atomic.stepHour .cancelTraining hc ?_ nofun) rfl
  exact hs

/-- Moving an hour books the new one, then releases the old one. -/
theorem moveHour {new old : Moment} (hc : c.Keyed) (hs : s.held.hours = []) :
    (Desk.moveHour new old).Follows s c trapped (some ([
      ⟨.turn new .available .trainingScheduled,
        ["schedule-new-hour-failed", "schedule-training-failed"]⟩,
      ⟨.turn old .trainingScheduled .available,
        ["cancel-original-hour-failed", "cancel-training-failed"]⟩], ())) :=
  andThen (within (scheduleHour hc hs)) fun _ hpath => within (cancelHour (hpath.keyed hc) hs)

end Act.Follows

/-! ### Transitions -/

namespace Training

/-- The plan of a cancellation: the owner is credited, if with anything, and the hour is released. -/
def cancelingPlan (caller : Caller) (now : Moment) (t : Training) : Plan Training :=
  .after t.cancel fun canceled =>
  let credit := canceled.cancelCredit caller.role now
  let crediting : List Step := if credit = 0 then [] else
    [⟨.credit canceled.owner credit, ["update-balance-failed", "update-balance-failed"]⟩]
  some (crediting ++ [⟨.turn canceled.time .trainingScheduled .available,
    ["cancel-training-failed", "cancel-training-failed"]⟩], canceled)

/-- The steps of a move: the new hour is booked, then the old one is released. -/
def movingSteps (new old : Moment) : List Step := [
  ⟨.turn new .available .trainingScheduled,
    ["move-training-failed", "schedule-new-hour-failed", "schedule-training-failed"]⟩,
  ⟨.turn old .trainingScheduled .available,
    ["move-training-failed", "cancel-original-hour-failed", "cancel-training-failed"]⟩]

/-- The plan of a direct move. -/
def reschedulingPlan (newTime : Moment) (notes : String) (now : Moment) (t : Training) :
    Plan Training :=
  .after (t.updateNotes notes) fun noted =>
  .after (noted.reschedule newTime now) fun moved =>
  some (movingSteps newTime t.time, moved)

/-- The plan of a proposal, which works nowhere else. -/
def requestingPlan (newTime : Moment) (notes : String) (caller : Caller) (t : Training) :
    Plan Training :=
  .after (t.updateNotes notes) fun noted =>
  .after (noted.propose newTime caller.role) fun proposed =>
  some ([], proposed)

/-- The plan of an approval. -/
def approvingPlan (caller : Caller) (t : Training) : Plan Training :=
  .after (t.approve caller.role) fun moved =>
  some (movingSteps moved.time t.time, moved)

/-- The plan of a rejection, which works nowhere else. -/
def rejectingPlan (t : Training) : Plan Training :=
  .after t.reject fun rejected =>
  some ([], rejected)

theorem elsewhere_movingSteps (new old : Moment) :
    ∀ step ∈ movingSteps new old, step.effect.isElsewhere = true := by
  simp [movingSteps, Effect.isElsewhere]

theorem modest_cancelingPlan (caller : Caller) (now : Moment) :
    Plan.Modest (cancelingPlan caller now) := by
  intro t steps t' h
  obtain ⟨canceled, hcancel, h⟩ := Plan.after_eq_some.mp h
  obtain ⟨-, rfl⟩ := cancel_eq_ok hcancel
  cases h
  refine ⟨fun step hstep => ?_, rfl, rfl, rfl⟩
  rcases List.mem_append.mp hstep with hstep | hstep
  · split at hstep
    · cases hstep
    · rw [List.mem_singleton.mp hstep]
      rfl
  · rw [List.mem_singleton.mp hstep]
    rfl

theorem modest_reschedulingPlan (newTime : Moment) (notes : String) (now : Moment) :
    Plan.Modest (reschedulingPlan newTime notes now) := by
  intro t steps t' h
  obtain ⟨noted, hnoted, h⟩ := Plan.after_eq_some.mp h
  obtain ⟨moved, hmoved, h⟩ := Plan.after_eq_some.mp h
  obtain ⟨-, rfl⟩ := updateNotes_eq_ok hnoted
  obtain rfl := reschedule_eq_ok hmoved
  cases h
  exact ⟨elsewhere_movingSteps newTime t.time, rfl, rfl, rfl⟩

theorem modest_requestingPlan (newTime : Moment) (notes : String) (caller : Caller) :
    Plan.Modest (requestingPlan newTime notes caller) := by
  intro t steps t' h
  obtain ⟨noted, hnoted, h⟩ := Plan.after_eq_some.mp h
  obtain ⟨proposed, hproposed, h⟩ := Plan.after_eq_some.mp h
  obtain ⟨-, rfl⟩ := updateNotes_eq_ok hnoted
  obtain rfl := propose_eq_ok hproposed
  cases h
  exact ⟨nofun, rfl, rfl, rfl⟩

theorem modest_approvingPlan (caller : Caller) : Plan.Modest (approvingPlan caller) := by
  intro t steps t' h
  obtain ⟨moved, hmoved, h⟩ := Plan.after_eq_some.mp h
  obtain ⟨-, p, -, rfl⟩ := approve_eq_ok hmoved
  cases h
  exact ⟨elsewhere_movingSteps p.newTime t.time, rfl, rfl, rfl⟩

theorem modest_rejectingPlan : Plan.Modest rejectingPlan := by
  intro t steps t' h
  obtain ⟨rejected, hrejected, h⟩ := Plan.after_eq_some.mp h
  obtain ⟨-, rfl⟩ := reject_eq_ok hrejected
  cases h
  exact ⟨nofun, rfl, rfl, rfl⟩

end Training

namespace Act.Follows

variable {s : Setting} {c : Contents} {trapped : Prop}

theorem canceling {caller : Caller} {now : Moment} {t : Training} (hc : c.Keyed)
    (hs : s.held.hours = [])
    (hfits : ∀ p ∈ t.cancelingPlan caller now, ∀ step ∈ p.1, step.effect.Fits c) :
    (Desk.canceling caller now t).Follows s c trapped (t.cancelingPlan caller now) := by
  refine check fun canceled hcancel => ?_
  have hpay := hfits _ (Plan.after_eq_some.mpr ⟨canceled, hcancel, rfl⟩)
  have hbounds := canceled.cancelCredit_bounds caller.role now
  have hrelease : ∀ c' : Contents, c'.Keyed → ((Desk.cancelHour canceled.time).within
      "cancel-training-failed" "unable to cancel training" >>= fun _ =>
        Pure.pure canceled).Follows s c' trapped (some ([⟨.turn canceled.time .trainingScheduled
          .available, ["cancel-training-failed", "cancel-training-failed"]⟩], canceled)) :=
    fun c' hc' => andThen (within (cancelHour hc' hs)) fun _ _ => pure canceled
  simp only at hpay ⊢
  generalize canceled.cancelCredit caller.role now = credit at hpay hbounds ⊢
  by_cases hzero : credit = 0
  · rw [if_neg (not_not.mpr hzero), if_pos hzero]
    exact hrelease c hc
  · rw [if_neg hzero] at hpay
    rw [if_pos hzero, if_neg hzero]
    have hcredit : Column.fits credit = true := by
      rw [Column.fits_iff]
      omega
    exact andThen (within (changeBalance hcredit (hpay _ (.head _)))) fun c' hpath =>
      hrelease c' (hpath.keyed hc)

theorem rescheduling {newTime now : Moment} {notes : String} {t : Training} (hc : c.Keyed)
    (hs : s.held.hours = []) : (Desk.rescheduling newTime notes now t).Follows s c trapped
      (t.reschedulingPlan newTime notes now) :=
  check fun _ _ => check fun moved _ => andThen (within (moveHour hc hs)) fun _ _ => pure moved

theorem requesting {newTime : Moment} {notes : String} {caller : Caller} {t : Training} :
    (Desk.requesting newTime notes caller t).Follows s c trapped
      (t.requestingPlan newTime notes caller) :=
  check fun _ _ => ofRule _

theorem approving {caller : Caller} {t : Training} (hc : c.Keyed) (hs : s.held.hours = []) :
    (Desk.approving caller t).Follows s c trapped (t.approvingPlan caller) :=
  check fun moved _ => andThen (within (moveHour hc hs)) fun _ _ => pure moved

theorem rejecting {t : Training} : (Desk.rejecting t).Follows s c trapped t.rejectingPlan :=
  ofRule _

end Act.Follows

/-! ### The commands -/

/-- The steps of a booking: the training is stored, one credit is charged, the hour is booked. -/
def Training.bookingSteps (t : Training) : List Step := [
  ⟨.add t, ["add-training-failed"]⟩,
  ⟨.credit t.owner (-1), ["update-balance-failed", "update-balance-failed"]⟩,
  ⟨.turn t.time .available .trainingScheduled,
    ["schedule-training-failed", "schedule-training-failed"]⟩]

namespace Desk

/-- A command on trainings, with its input. -/
inductive Command where
  | schedule (id owner ownerName : String) (time : Moment) (notes : String)
  | cancel (id : String) (caller : Caller)
  | reschedule (id : String) (newTime : Moment) (notes : String) (caller : Caller)
  | request (id : String) (newTime : Moment) (notes : String) (caller : Caller)
  | approve (id : String) (caller : Caller)
  | reject (id : String) (caller : Caller)
deriving DecidableEq, Repr

namespace Command

/-- Carries out the command. -/
def perform : Command → Act Failure Unit
  | schedule id owner ownerName time notes => scheduleTraining id owner ownerName time notes
  | cancel id caller => cancelTraining id caller
  | reschedule id newTime notes caller => rescheduleTraining id newTime notes caller
  | request id newTime notes caller => requestReschedule id newTime notes caller
  | approve id caller => approveReschedule id caller
  | reject id caller => rejectReschedule id caller

/-- What the command is to do to a store that holds these contents. -/
def plan (now : Moment) (c : Contents) : Command → Plan Unit
  | schedule id owner ownerName time notes =>
    .after (Training.book id owner ownerName time notes) fun t => some (t.bookingSteps, ())
  | cancel id caller => c.updating id caller (Training.cancelingPlan caller now)
  | reschedule id newTime notes caller =>
    c.updating id caller (Training.reschedulingPlan newTime notes now)
  | request id newTime notes caller =>
    c.updating id caller (Training.requestingPlan newTime notes caller)
  | approve id caller => c.updating id caller (Training.approvingPlan caller)
  | reject id caller => c.updating id caller Training.rejectingPlan

/-- No sum of credits that the command makes leaves the 64-bit numbers. -/
def Fits (now : Moment) (c : Contents) (command : Command) : Prop :=
  ∀ p ∈ command.plan now c, ∀ step ∈ p.1, step.effect.Fits c

instance (now : Moment) (c : Contents) (command : Command) : Decidable (command.Fits now c) := by
  unfold Fits
  infer_instance

end Command

end Desk

namespace Act.Follows

variable {s : Setting} {c : Contents} {trapped : Prop}

theorem scheduleTraining {id owner ownerName notes : String} {time : Moment} (hc : c.Keyed)
    (hs : s.held = Held.nothing)
    (hfits : ∀ t, Training.book id owner ownerName time notes = .ok t →
      (Effect.credit t.owner (-1)).Fits c) :
    (Desk.scheduleTraining id owner ownerName time notes).Follows s c trapped <|
      .after (Training.book id owner ownerName time notes) fun t =>
      some (t.bookingSteps, ()) := by
  have htrainings : s.held.trainings = [] := congrArg Held.trainings hs
  have hhours : s.held.hours = [] := congrArg Held.hours hs
  refine watched fun spans => check fun t ht => ?_
  refine andThen (step (Act.Atomic.addTraining ?_) rfl) fun c₁ hadded => ?_
  · exact htrainings
  have hc₁ : c₁.Keyed := hadded.keyed hc
  have hfits₁ : (Effect.credit t.owner (-1)).Fits c₁ := by
    intro b hb
    rw [hadded.takes.balance?_add] at hb
    exact hfits t ht b hb
  refine andThen (within (changeBalance rfl hfits₁)) fun c₂ hpaid => ?_
  refine within (scheduleHour (hpaid.keyed hc₁) ?_)
  exact hhours

/-- Every command follows its plan. -/
theorem perform (command : Desk.Command) (hc : c.Keyed) (hs : s.held = Held.nothing)
    (hfits : command.Fits s.now c) :
    command.perform.Follows s c (c.trap? .trainings .update ≠ none) (command.plan s.now c) := by
  have hhours : s.held.hours = [] := congrArg Held.hours hs
  have htrainings : s.held.trainings = [] := congrArg Held.trainings hs
  cases command with
  | schedule id owner ownerName time notes =>
      refine scheduleTraining hc hs fun t ht => ?_
      have hplan : (Desk.Command.schedule id owner ownerName time notes).plan s.now c =
          some (t.bookingSteps, ()) := Plan.after_eq_some.mpr ⟨t, ht, rfl⟩
      exact hfits _ hplan ⟨.credit t.owner (-1), _⟩ (.tail _ (.head _))
  | cancel id caller =>
      refine watched fun _ => now <| updateTraining htrainings hc
        (Training.modest_cancelingPlan caller s.now) fun t hseen => canceling hc hhours ?_
      intro p hp step hstep
      have hplan : c.updating id caller (Training.cancelingPlan caller s.now) =
          some (p.1 ++ [⟨.save p.2, []⟩], ()) := by
        rw [Contents.updating, hseen, Option.bind_some, hp, Option.map_some]
      exact hfits _ hplan step (List.mem_append_left _ hstep)
  | reschedule id newTime notes caller =>
      exact watched fun _ => now <| updateTraining htrainings hc
        (Training.modest_reschedulingPlan newTime notes s.now) fun t _ => rescheduling hc hhours
  | request id newTime notes caller =>
      exact watched fun _ => updateTraining htrainings hc
        (Training.modest_requestingPlan newTime notes caller) fun t _ => requesting
  | approve id caller =>
      exact watched fun _ => updateTraining htrainings hc
        (Training.modest_approvingPlan caller) fun t _ => approving hc hhours
  | reject id caller =>
      exact watched fun _ => updateTraining htrainings hc
        Training.modest_rejectingPlan fun t _ => rejecting

end Act.Follows

namespace Desk.Command

/-- **A failing command leaves exactly what came before the failure.** From a store in any state, every
command ends as its plan allows: if it is done, all its effects were taken, one after the other, and
nothing else was; if it is refused, either it had no plan, and nothing changed, or its annotations
name the effect that failed, and exactly those before it were taken.  A training fails to be saved only
where its database refuses or ignores the update; otherwise what is left behind by then is

* of a booking, the training, and, if the hour was refused, the charge of one credit,
* of a cancellation whose hour was refused, the credit,
* of a move whose old hour was not released, the new hour booked. -/
theorem leaves (command : Command) {s : Setting} (hs : s.held = Held.nothing) {w : World}
    (hkeyed : w.store.contents.Keyed) (hfits : command.Fits s.now w.store.contents) :
    (command.plan s.now w.store.contents).Ends
      (w.store.contents.trap? .trainings .update ≠ none) w.store.contents
      (command.perform s w).1 (command.perform s w).2.store.contents :=
  Act.Follows.perform command hkeyed hs hfits w rfl

/-! ### A trap on the trainings -/

section samples

open Sample

/-- Noon on the second of January. -/
def noonTime : Moment := ⟨1893585600 * Moment.perSecond, 0⟩

/-- Ann has one credit and a training at noon, and these traps are set. -/
def annsTables (noon : Availability) (traps : List Trap) : Tables where
  hours := ⟨Registry.empty.put noonTime.second ⟨1, noonTime.second, noon.label⟩, 1⟩
  trainings := Registry.empty.put "1"
    (TrainingRow.encode ⟨"1", ann.id, ann.name, noonTime, "legs", false, none⟩)
  accounts := Registry.empty.put ann.id ⟨ann.id, Role.attendee.label, ann.name, 1, none⟩
  traps := traps
  mishaps := []
  connections := 1

theorem keyed_annsTables (noon : Availability) (traps : List Trap) :
    (Contents.tables (annsTables noon traps)).Keyed := by
  constructor
  · intro id r hr
    simp only [annsTables, Registry.get?_put, Registry.get?_empty] at hr
    split at hr
    · next hid =>
        rw [← Option.some.inj hr, hid]
        rfl
    · cases hr
  · intro second second' r r' hr hr' _
    simp only [annsTables, Registry.get?_put, Registry.get?_empty] at hr hr'
    split at hr
    · next hs =>
        split at hr'
        · next hs' => rw [hs, hs']
        · cases hr'
    · cases hr

/-- Ann books noon once more, which is hers already: the second training stays, and it is paid. -/
theorem leaves_ann :
    let command := Command.schedule "2" ann.id ann.name noonTime "legs"
    let s := Setting.outer newYear .standard .bare
    let w := world (.tables (annsTables .trainingScheduled []))
    s.held = Held.nothing ∧ w.store.contents.Keyed ∧ command.Fits s.now w.store.contents ∧
      (command.perform s w).1 = .refused
        (.within "schedule-training-failed" "unable to schedule training"
          (.within "schedule-training-failed" "unable to schedule training"
            (.rule .hourNotAvailable))) ∧
      (command.plan s.now w.store.contents).Ends
        (w.store.contents.trap? .trainings .update ≠ none) w.store.contents
        (command.perform s w).1 (command.perform s w).2.store.contents := by
  have hfits : (Command.schedule "2" ann.id ann.name noonTime "legs").Fits newYear
      (.tables (annsTables .trainingScheduled [])) := by decide +kernel
  exact ⟨rfl, keyed_annsTables _ _, hfits, by decide +kernel,
    leaves _ rfl (keyed_annsTables _ _) hfits⟩

/-- What a database does with the trainings matters.  A failure without annotations is one of no other
desk, and yet it may come after their work: a cancellation pays the credit and releases the hour, and
then the training is not saved.  And a booking may be done without its training being there. -/
theorem not_leaves :
    (¬ ∀ (command : Command) (s : Setting) (w : World) (f : Failure),
      s.held = Held.nothing → w.store.contents.Keyed → command.Fits s.now w.store.contents →
        (command.perform s w).1 = .refused f → f.operations = [] →
          (command.perform s w).2.store.contents = w.store.contents) ∧
    ¬ ∀ (id owner ownerName notes : String) (time : Moment) (s : Setting) (w : World),
      let command := Command.schedule id owner ownerName time notes
      s.held = Held.nothing → w.store.contents.Keyed → command.Fits s.now w.store.contents →
        (command.perform s w).1 = .done () →
          (command.perform s w).2.store.contents.hasTraining id = true := by
  let s := Setting.outer newYear .standard .bare
  constructor
  · intro h
    let w := world (.tables (annsTables .trainingScheduled
      [⟨.trainings, .update, some "disk I/O error"⟩]))
    have hsame := h (.cancel "1" ann) s w (.storage (.query "Query failed: disk I/O error")) rfl
      (keyed_annsTables _ _) (by decide +kernel) (by decide +kernel) rfl
    have hbefore : w.store.contents.balance? ann.id = some 1 := by decide +kernel
    have hafter : ((Command.cancel "1" ann).perform s w).2.store.contents.balance? ann.id =
        some 2 := by decide +kernel
    rw [hsame, hbefore] at hafter
    cases hafter
  · intro h
    let w := world (.tables (annsTables .available [⟨.trainings, .insert, none⟩]))
    have hstored := h "2" ann.id ann.name "legs" noonTime s w rfl (keyed_annsTables _ _)
      (by decide +kernel) (by decide +kernel)
    revert hstored
    decide +kernel

end samples

end Desk.Command

end TrainerBooking
