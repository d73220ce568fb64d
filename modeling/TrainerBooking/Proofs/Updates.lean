import TrainerBooking.Proofs.Asking

/-! # The updates of the calendar

Whatever is done at the desk or through the API, the calendar changes by **updates** only, one hour
and one step at a time.

* **Edges.** A step leads from one availability to one other (`HourStep.edge`).  An update writes an
  hour of the books that stands where the edge begins, or opens a new one that the window admits
  (`HourUpdate.Writes`).
* **Works.** `Books.Worked` says that the books were worked on by a list of updates, each with an
  hour to write, whatever happened to trainings and accounts in between.
* **Orders.** `Order.updates` are the updates that an order asks for, and `Call.updates` those of a
  call.  Carried out, an order makes the first few of them, and all of them if it is done
  (`Order.perform_works`, `Call.perform_works`). -/

namespace TrainerBooking

/-! ### Edges -/

/-- The edge along which the step leads: from one availability to another. -/
def HourStep.edge : HourStep → Availability × Availability
  | makeAvailable => (.notAvailable, .available)
  | makeNotAvailable => (.available, .notAvailable)
  | scheduleTraining => (.available, .trainingScheduled)
  | cancelTraining => (.trainingScheduled, .available)

/-- A step goes through exactly where its edge begins, and leads to where it ends. -/
theorem Hour.step_eq_ok {step : HourStep} {h h' : Hour} (hs : h.step step = .ok h') :
    h.availability = step.edge.1 ∧ h' = ⟨h.time, step.edge.2⟩ := by
  obtain ⟨time, a⟩ := h
  cases step <;> cases a <;> cases hs <;> exact ⟨rfl, rfl⟩

/-- An update of the hour of a time by a step. -/
structure HourUpdate where
  time : Moment
  step : HourStep
deriving DecidableEq, Repr

/-- The update writes an hour: the one in the books a step further, or a new one, which is open. -/
inductive HourUpdate.Writes (window : BookingWindow) (now : Moment) (b : Books) (u : HourUpdate) :
    Hour → Prop
  | stepped {h : Hour} (hold : b.hours u.time.second = some h)
      (hfrom : h.availability = u.step.edge.1) : Writes window now b u ⟨h.time, u.step.edge.2⟩
  | opened (hnone : b.hours u.time.second = none) (hstep : u.step = .makeAvailable)
      (hcheck : window.check u.time now = .done ()) :
      Writes window now b u ⟨b.keptTime u.time, .available⟩

theorem HourUpdate.Writes.congr {window : BookingWindow} {now : Moment} {b c : Books}
    {u : HourUpdate} {h : Hour} (hw : u.Writes window now b h) (hhours : c.hours = b.hours)
    (hkind : c.inMemory = b.inMemory) : u.Writes window now c h := by
  cases hw with
  | stepped hold hfrom => exact .stepped ((congrFun hhours _).trans hold) hfrom
  | opened hnone hstep hcheck =>
      have hkept : b.keptTime u.time = c.keptTime u.time := by
        rw [Books.keptTime, Books.keptTime, hkind]
      rw [hkept]
      exact .opened ((congrFun hhours _).trans hnone) hstep hcheck

namespace Books

/-! ### Works -/

/-- The books were worked on by the updates, one after the other. -/
inductive Worked (window : BookingWindow) (now : Moment) : Books → List HourUpdate → Books → Prop
  | rest {b b' : Books} (hhours : b'.hours = b.hours) (hkind : b'.inMemory = b.inMemory) :
      Worked window now b [] b'
  | step {b b' : Books} {u : HourUpdate} {us : List HourUpdate} {h : Hour}
      (hwrites : u.Writes window now b h)
      (hrest : Worked window now (b.setHour u.time.second h) us b') :
      Worked window now b (u :: us) b'

/-- The books were worked on by the first few of the updates, and by all of them if this is done. -/
def WorkedThrough (window : BookingWindow) (now : Moment) (us : List HourUpdate) (b : Books)
    (done : Bool) (b' : Books) : Prop :=
  ∃ made, made <+: us ∧ Worked window now b made b' ∧ (done = true → made = us)

variable {window : BookingWindow} {now : Moment} {b c b' b'' : Books} {us vs : List HourUpdate}
variable {done : Bool}

theorem Worked.of_same (h : Worked window now c us b') (hhours : c.hours = b.hours)
    (hkind : c.inMemory = b.inMemory) : Worked window now b us b' := by
  induction h generalizing b with
  | rest hh hk => exact .rest (hh.trans hhours) (hk.trans hkind)
  | step hwrites hrest ih =>
      refine .step (hwrites.congr hhours.symm hkind.symm) (ih ?_ hkind)
      simp only [setHour, hhours]

theorem Worked.append (h : Worked window now b us b') (h' : Worked window now b' vs b'') :
    Worked window now b (us ++ vs) b'' := by
  induction h with
  | rest hhours hkind => exact h'.of_same hhours hkind
  | step hwrites hrest ih => exact .step hwrites (ih h')

theorem Worked.inMemory (h : Worked window now b us b') : b'.inMemory = b.inMemory := by
  induction h with
  | rest hhours hkind => exact hkind
  | step hwrites hrest ih => exact ih

theorem WorkedThrough.none (hhours : b'.hours = b.hours) (hkind : b'.inMemory = b.inMemory)
    (hdone : done = true → us = []) : WorkedThrough window now us b done b' :=
  ⟨[], List.nil_prefix, .rest hhours hkind, fun h => (hdone h).symm⟩

theorem WorkedThrough.unchanged : WorkedThrough window now us b false b := .none rfl rfl nofun

theorem WorkedThrough.all (h : Worked window now b us b') : WorkedThrough window now us b done b' :=
  ⟨us, List.prefix_rfl, h, fun _ => rfl⟩

theorem WorkedThrough.worked (h : WorkedThrough window now us b true b') :
    Worked window now b us b' := by
  obtain ⟨made, -, hmade, hall⟩ := h
  rw [hall rfl] at hmade
  exact hmade

theorem WorkedThrough.of_same (h : WorkedThrough window now us c done b')
    (hhours : c.hours = b.hours) (hkind : c.inMemory = b.inMemory) :
    WorkedThrough window now us b done b' := by
  obtain ⟨made, hpre, hmade, hall⟩ := h
  exact ⟨made, hpre, hmade.of_same hhours hkind, hall⟩

/-- What stops halfway has made the first few updates of whatever was to come. -/
theorem WorkedThrough.stopped (h : WorkedThrough window now us b false b') (vs : List HourUpdate) :
    WorkedThrough window now (us ++ vs) b false b' := by
  obtain ⟨made, hpre, hmade, -⟩ := h
  exact ⟨made, hpre.trans (List.prefix_append us vs), hmade, nofun⟩

theorem WorkedThrough.append (h : Worked window now b us b')
    (h' : WorkedThrough window now vs b' done b'') :
    WorkedThrough window now (us ++ vs) b done b'' := by
  obtain ⟨made, hpre, hmade, hall⟩ := h'
  refine ⟨us ++ made, (List.prefix_append_right_inj us).mpr hpre, h.append hmade, fun hd => ?_⟩
  rw [hall hd]

end Books

/-- A step of an hour writes the hour that its update asks for, or nothing happens. -/
theorem Books.stepHour_cases (b : Books) (time : Moment) (step : HourStep) (s : Setting) :
    (∃ h, b.stepHour time step s = (.done h, b.setHour time.second h) ∧
      HourUpdate.Writes s.window s.now b ⟨time, step⟩ h) ∨
    ((b.stepHour time step s).1.isDone = false ∧ (b.stepHour time step s).2 = b) := by
  unfold stepHour updateHour startHour
  cases hold : b.hours time.second with
  | some h =>
      cases hs : h.step step with
      | error v => exact .inr (by simp [hs, Ending.ofExcept, Ending.mapCause, Ending.isDone])
      | ok h' =>
          have hkept : b.keptHour h h' = h' := keptHour_of_step hs
          obtain ⟨hfrom, hto⟩ := Hour.step_eq_ok hs
          refine .inl ⟨h', ?_, hto ▸ .stepped hold hfrom⟩
          simp only [hs, Ending.ofExcept, Ending.mapCause, hkept]
  | none =>
      simp only [BookingWindow.newHour]
      cases hcheck : s.window.check time s.now with
      | refused v => exact .inr ⟨rfl, rfl⟩
      | crashed => exact .inr ⟨rfl, rfl⟩
      | done u =>
          simp only [Ending.mapValue, Ending.mapCause]
          cases hs : Hour.step step ⟨b.keptTime time, .notAvailable⟩ with
          | error v => exact .inr ⟨rfl, rfl⟩
          | ok h' =>
              have hkept : b.keptHour ⟨b.keptTime time, .notAvailable⟩ h' = h' := keptHour_of_step hs
              obtain ⟨hfrom, hto⟩ := Hour.step_eq_ok hs
              -- Only the edge of opening an hour begins where nothing is available.
              have hstep : step = .makeAvailable := by
                cases step <;> cases hfrom
                rfl
              subst hstep
              refine .inl ⟨h', ?_, hto ▸ .opened hold rfl hcheck⟩
              simp only [Ending.ofExcept, hkept]

/-! ### The desk -/

namespace Act.Meets

variable {s : Setting} {b : Books} {α : Type}

theorem stepHour_works {time : Moment} {step : HourStep} (hs : s.held.hours = []) :
    (Repository.updateHour time (Desk.stepping step)).Meets s b fun e b' =>
      b.WorkedThrough s.window s.now [⟨time, step⟩] e.isDone b' := by
  refine updateHour hs ?_
  obtain ⟨h, heq, hwrites⟩ | ⟨hdone, hsame⟩ := b.stepHour_cases time step s
  · rw [Books.stepHour] at heq
    rw [heq]
    exact .all (.step hwrites (.rest rfl rfl))
  · rw [Books.stepHour] at hdone hsame
    rw [hdone, hsame]
    exact .unchanged

/-- Works one after the other: the second are done on the books that the first have left. -/
theorem worksThen {ε β : Type} {act : Act ε α} {next : α → Act ε β} {window : BookingWindow}
    {now : Moment} (us vs : List HourUpdate)
    (h : act.Meets s b fun e b' => b.WorkedThrough window now us e.isDone b')
    (hnext : ∀ a b', (next a).Meets s b' fun e b'' => b'.WorkedThrough window now vs e.isDone b'') :
    (act >>= next).Meets s b fun e b' => b.WorkedThrough window now (us ++ vs) e.isDone b' := by
  refine bind (h.mono fun e b' hworks => ?_)
  cases e with
  | done a => exact (hnext a b').mono fun e b'' h' => Books.WorkedThrough.append hworks.worked h'
  | refused f => exact hworks.stopped vs
  | crashed => exact hworks.stopped vs

theorem works_within {act : Act Failure α} {slug description : String} {us : List HourUpdate}
    {window : BookingWindow} {now : Moment}
    (h : act.Meets s b fun e b' => b.WorkedThrough window now us e.isDone b') :
    (act.within slug description).Meets s b fun e b' =>
      b.WorkedThrough window now us e.isDone b' := by
  refine within (h.mono fun e b' hworks => ?_)
  rw [Ending.isDone_mapCause]
  exact hworks

theorem works_pure {ε : Type} {a : α} {window : BookingWindow} {now : Moment} :
    (Pure.pure a : Act ε α).Meets s b fun e b' => b.WorkedThrough window now [] e.isDone b' :=
  pure (.none rfl rfl fun _ => rfl)

theorem scheduleHour_works {time : Moment} (hs : s.held.hours = []) :
    (Desk.scheduleHour time).Meets s b fun e b' =>
      b.WorkedThrough s.window s.now [⟨time, .scheduleTraining⟩] e.isDone b' :=
  watched fun _ => worksThen [_] [] (works_within (stepHour_works hs)) fun _ _ => works_pure

theorem cancelHour_works {time : Moment} (hs : s.held.hours = []) :
    (Desk.cancelHour time).Meets s b fun e b' =>
      b.WorkedThrough s.window s.now [⟨time, .cancelTraining⟩] e.isDone b' :=
  watched fun _ => worksThen [_] [] (works_within (stepHour_works hs)) fun _ _ => works_pure

theorem moveHour_works {new old : Moment} (hs : s.held.hours = []) :
    (Desk.moveHour new old).Meets s b fun e b' => b.WorkedThrough s.window s.now
      [⟨new, .scheduleTraining⟩, ⟨old, .cancelTraining⟩] e.isDone b' :=
  worksThen [_] [_] (works_within (scheduleHour_works hs)) fun _ _ =>
    works_within (cancelHour_works hs)

theorem stepAll_works {step : HourStep} {slug word : String} (hs : s.held.hours = [])
    (times : List Moment) (b : Books) :
    (Desk.stepAll step slug word times).Meets s b fun e b' =>
      b.WorkedThrough s.window s.now (times.map fun time => ⟨time, step⟩) e.isDone b' := by
  induction times generalizing b with
  | nil => exact works_pure
  | cons time rest ih => exact worksThen [_] _ (works_within (stepHour_works hs)) fun _ b' => ih b'

theorem makeHoursAvailable_works {times : List Moment} (hs : s.held.hours = []) :
    (Desk.makeHoursAvailable times).Meets s b fun e b' => b.WorkedThrough s.window s.now
      (times.map fun time => ⟨time, .makeAvailable⟩) e.isDone b' := by
  refine watched fun _ => stepAll_works ?_ times b
  exact hs

theorem makeHoursUnavailable_works {times : List Moment} (hs : s.held.hours = []) :
    (Desk.makeHoursUnavailable times).Meets s b fun e b' => b.WorkedThrough s.window s.now
      (times.map fun time => ⟨time, .makeNotAvailable⟩) e.isDone b' := by
  refine watched fun _ => stepAll_works ?_ times b
  exact hs

/-- An act that leaves the calendar alone asks for no updates. -/
theorem worksNot {ε : Type} {act : Act ε α} {window : BookingWindow} {now : Moment}
    (h : act.Meets s b fun _ b' => b'.hours = b.hours ∧ b'.inMemory = b.inMemory) :
    act.Meets s b fun e b' => b.WorkedThrough window now [] e.isDone b' :=
  h.mono fun _ _ hsame => .none hsame.1 hsame.2 fun _ => rfl

theorem worksNot_of_banked {ε : Type} {act : Act ε α} {window : BookingWindow} {now : Moment}
    (h : act.Meets s b fun _ b' => b.Banked b') :
    act.Meets s b fun e b' => b.WorkedThrough window now [] e.isDone b' :=
  worksNot (h.mono fun _ _ hbanked => ⟨hbanked.hours, hbanked.inMemory⟩)

theorem worksNot_of_same {ε : Type} {act : Act ε α} {window : BookingWindow} {now : Moment}
    (h : act.Meets s b fun _ b' => b' = b) :
    act.Meets s b fun e b' => b.WorkedThrough window now [] e.isDone b' :=
  worksNot (h.mono fun _ _ hsame => hsame ▸ ⟨rfl, rfl⟩)

theorem scheduleTraining_works {id owner ownerName notes : String} {time : Moment}
    (hs : s.held = Held.nothing) :
    (Desk.scheduleTraining id owner ownerName time notes).Meets s b fun e b' =>
      b.WorkedThrough s.window s.now [⟨time, .scheduleTraining⟩] e.isDone b' := by
  refine watched fun _ => bind_ofRule (fun v _ => .unchanged) fun t ht => ?_
  obtain rfl := Training.book_eq_ok ht
  refine worksThen [] [_] (works_within ?_) fun _ _ => ?_
  · refine addTraining ?_ (fun _ _ => .unchanged) fun _ => .none rfl rfl fun _ => rfl
    exact congrArg Held.trainings hs
  refine worksThen [] [_] (works_within ?_) fun _ _ => ?_
  · exact worksNot_of_banked changeBalance_banked
  exact works_within (scheduleHour_works (congrArg Held.hours hs))

/-- The end of the transitions that work on the calendar first, and leave the training `t'` to be
filed. -/
theorem refileThen {act : Act Failure Unit} {s' : Setting} {id : String} {t t' : Training}
    {us : List HourUpdate} {c : Books} {window : BookingWindow} {now : Moment}
    (hkeeps : t'.id = t.id ∧ t'.owner = t.owner ∧ t'.ownerName = t.ownerName)
    (hkind : c.inMemory = b.inMemory) (hhours : c.hours = b.hours)
    (htrainings : c.trainings = b.trainings)
    (hsame : act.Meets s c fun _ b' => b'.inMemory = c.inMemory ∧ b'.trainings = c.trainings)
    (hworks : act.Meets s c fun e b' => c.WorkedThrough window now us e.isDone b') :
    (act >>= fun _ => Pure.pure t').Meets s c (Refiling (Onward (fun _ => Pure.pure ()) s'
      fun e b' => b.WorkedThrough window now us e.isDone b') b id t) := by
  refine bind ((hsame.and hworks).mono fun e b' hb' => ?_)
  obtain ⟨hb', hthrough⟩ := hb'
  cases e with
  | refused f => exact hthrough.of_same hhours hkind
  | crashed => exact hthrough.of_same hhours hkind
  | done u =>
      have hall := hthrough.worked.of_same hhours hkind
      have hfile : b'.Worked window now [] (b'.setTraining id (b'.kept t')) := .rest rfl rfl
      have hfiled := hall.append hfile
      rw [List.append_nil] at hfiled
      refine pure ⟨hkeeps, hall.inMemory, hb'.2.trans htrainings, Onward.of_done (pure ?_)⟩
      exact Books.WorkedThrough.all hfiled

theorem cancelTraining_works {id : String} {caller : Caller} (hs : s.held = Held.nothing) :
    (Desk.cancelTraining id caller).Meets s b fun e b' =>
      b.WorkedThrough s.window s.now
        ((b.trainings id).elim [] fun t => [⟨t.time, .cancelTraining⟩]) e.isDone b' := by
  refine watched fun _ => bind (now (.of_done ?_))
  refine updateTraining_guarded ?_ (fun f _ => .unchanged) fun t ht _ _ => ?_
  · exact congrArg Held.trainings hs
  rw [ht]
  refine bind_ofRule (fun v _ => Books.WorkedThrough.unchanged) fun t' ht' => ?_
  obtain ⟨-, rfl⟩ := Training.cancel_eq_ok ht'
  refine creditOwner (fun c hcredit => ?_) fun f _ _ => Books.WorkedThrough.unchanged
  have hhours : s.held.hours = [] := congrArg Held.hours hs
  exact refileThen ⟨rfl, rfl, rfl⟩ hcredit.inMemory hcredit.hours hcredit.trainings
    (within (cancelHour_leaves hhours)) (works_within (cancelHour_works hhours))

/-- The end of the two transitions that move a training. -/
theorem moveThen {new : Moment} {s' : Setting} {id : String} {t t' : Training}
    (hs : s.held.hours = [])
    (hkeeps : t'.id = t.id ∧ t'.owner = t.owner ∧ t'.ownerName = t.ownerName) :
    ((Desk.moveHour new t.time).within "move-training-failed" "unable to move training" >>=
      fun _ => Pure.pure t').Meets s b (Refiling (Onward (fun _ => Pure.pure ()) s'
        fun e b' => b.WorkedThrough s.window s.now
          [⟨new, .scheduleTraining⟩, ⟨t.time, .cancelTraining⟩] e.isDone b') b id t) :=
  refileThen hkeeps rfl rfl rfl (within (moveHour_leaves hs)) (works_within (moveHour_works hs))

theorem rescheduleTraining_works {id notes : String} {newTime : Moment} {caller : Caller}
    (hs : s.held = Held.nothing) :
    (Desk.rescheduleTraining id newTime notes caller).Meets s b fun e b' =>
      b.WorkedThrough s.window s.now ((b.trainings id).elim [] fun t =>
        [⟨newTime, .scheduleTraining⟩, ⟨t.time, .cancelTraining⟩]) e.isDone b' := by
  refine watched fun _ => bind (now (.of_done ?_))
  refine updateTraining_guarded ?_ (fun f _ => .unchanged) fun t ht _ _ => ?_
  · exact congrArg Held.trainings hs
  rw [ht]
  refine bind_ofRule (fun v _ => Books.WorkedThrough.unchanged) fun noted hnoted => ?_
  obtain ⟨-, rfl⟩ := Training.updateNotes_eq_ok hnoted
  refine bind_ofRule (fun v _ => Books.WorkedThrough.unchanged) fun moved hmoved => ?_
  obtain rfl := Training.reschedule_eq_ok hmoved
  exact moveThen (congrArg Held.hours hs) ⟨rfl, rfl, rfl⟩

theorem approveReschedule_works {id : String} {caller : Caller} (hs : s.held = Held.nothing) :
    (Desk.approveReschedule id caller).Meets s b fun e b' =>
      b.WorkedThrough s.window s.now ((b.trainings id).elim [] fun t => t.proposal.elim [] fun p =>
        [⟨p.newTime, .scheduleTraining⟩, ⟨t.time, .cancelTraining⟩]) e.isDone b' := by
  refine watched fun _ => ?_
  refine updateTraining_guarded ?_ (fun f _ => .unchanged) fun t ht _ _ => ?_
  · exact congrArg Held.trainings hs
  rw [ht]
  refine bind_ofRule (fun v _ => Books.WorkedThrough.unchanged) fun moved hmoved => ?_
  obtain ⟨-, p, hp, rfl⟩ := Training.approve_eq_ok hmoved
  simp only [Option.elim_some, hp]
  exact moveThen (congrArg Held.hours hs) ⟨rfl, rfl, rfl⟩

/-- A proposal and its rejection leave the calendar alone. -/
theorem worksNot_of_amending {act : Act Failure Unit} {id : String} {caller : Caller}
    {change : Training → Training → Prop} {window : BookingWindow} {now : Moment}
    (h : act.Meets s b (b.Amending id caller change)) :
    act.Meets s b fun e b' => b.WorkedThrough window now [] e.isDone b' := by
  refine worksNot (h.mono fun e b' hamending => ?_)
  cases hamending with
  | refused f => exact ⟨rfl, rfl⟩
  | amended => exact ⟨rfl, rfl⟩

end Act.Meets

/-! ### Orders and calls -/

/-- The updates for which the order asks, with the books as they are when it is given. -/
def Desk.Order.updates (b : Books) : Order → List HourUpdate
  | scheduleHour time | scheduleTraining _ _ _ time _ => [⟨time, .scheduleTraining⟩]
  | cancelHour time => [⟨time, .cancelTraining⟩]
  | makeHoursAvailable times => times.map fun time => ⟨time, .makeAvailable⟩
  | makeHoursUnavailable times => times.map fun time => ⟨time, .makeNotAvailable⟩
  | cancelTraining id _ => (b.trainings id).elim [] fun t => [⟨t.time, .cancelTraining⟩]
  | rescheduleTraining id newTime _ _ => (b.trainings id).elim [] fun t =>
    [⟨newTime, .scheduleTraining⟩, ⟨t.time, .cancelTraining⟩]
  | approveReschedule id _ => (b.trainings id).elim [] fun t => t.proposal.elim [] fun p =>
    [⟨p.newTime, .scheduleTraining⟩, ⟨t.time, .cancelTraining⟩]
  | availableHours _ _ | hourAvailability _ | requestReschedule _ _ _ _ | rejectReschedule _ _
  | allTrainings | trainingsOfCaller _ | createUser _ _ _ _ | changeBalance _ _ | recordIp _ _
  | currentUser _ => []

/-- The steps that the order may ask for, whatever is in the books. -/
def Desk.Order.steps : Order → List HourStep
  | scheduleHour _ | scheduleTraining _ _ _ _ _ => [.scheduleTraining]
  | cancelHour _ | cancelTraining _ _ => [.cancelTraining]
  | makeHoursAvailable _ => [.makeAvailable]
  | makeHoursUnavailable _ => [.makeNotAvailable]
  | rescheduleTraining _ _ _ _ | approveReschedule _ _ => [.scheduleTraining, .cancelTraining]
  | availableHours _ _ | hourAvailability _ | requestReschedule _ _ _ _ | rejectReschedule _ _
  | allTrainings | trainingsOfCaller _ | createUser _ _ _ _ | changeBalance _ _ | recordIp _ _
  | currentUser _ => []

theorem Desk.Order.step_mem {b : Books} {order : Order} {u : HourUpdate}
    (hu : u ∈ order.updates b) : u.step ∈ order.steps := by
  have ofTraining : ∀ {id : String} {f : Training → List HourUpdate},
      u ∈ (b.trainings id).elim [] f → ∃ t, u ∈ f t := by
    intro id f h
    cases ht : b.trainings id with
    | none => rw [ht] at h; cases h
    | some t => exact ⟨t, by rwa [ht] at h⟩
  have ofMove : ∀ {new old : Moment}, u ∈ [HourUpdate.mk new .scheduleTraining,
      ⟨old, .cancelTraining⟩] → u.step ∈ [HourStep.scheduleTraining, .cancelTraining] :=
    fun h => List.mem_map_of_mem h
  cases order with
  | scheduleHour time => exact List.mem_map_of_mem hu
  | cancelHour time => exact List.mem_map_of_mem hu
  | scheduleTraining id owner ownerName time notes => exact List.mem_map_of_mem hu
  | makeHoursAvailable times =>
      obtain ⟨time, -, rfl⟩ := List.mem_map.mp hu
      exact List.mem_singleton_self _
  | makeHoursUnavailable times =>
      obtain ⟨time, -, rfl⟩ := List.mem_map.mp hu
      exact List.mem_singleton_self _
  | cancelTraining id caller =>
      obtain ⟨t, ht⟩ := ofTraining hu
      exact List.mem_map_of_mem ht
  | rescheduleTraining id newTime notes caller =>
      obtain ⟨t, ht⟩ := ofTraining hu
      exact ofMove ht
  | approveReschedule id caller =>
      obtain ⟨t, ht⟩ := ofTraining hu
      cases hp : t.proposal with
      | none => rw [hp] at ht; cases ht
      | some p => rw [hp] at ht; exact ofMove ht
  | _ => cases hu

namespace Api.Call

/-- The updates for which the call asks. -/
def updates (b : Books) (call : Call) : List HourUpdate :=
  call.order?.elim [] fun order => order.updates b

/-- The steps that the call may ask for, whatever is in the books. -/
def steps : Call → List HourStep
  | makeHoursAvailable _ _ => [.makeAvailable]
  | makeHoursUnavailable _ _ => [.makeNotAvailable]
  | createTraining _ _ _ => [.scheduleTraining]
  | cancelTraining _ _ => [.cancelTraining]
  | rescheduleTraining _ _ _ | approveReschedule _ _ => [.scheduleTraining, .cancelTraining]
  | availableHours _ | hourAvailability _ | trainings _ | requestReschedule _ _ _
  | rejectReschedule _ _ | currentUser _ _ | createUser _ _ _ | changeBalance _ _ _ => []

theorem updates_of_order {b : Books} {call : Call} {order : Desk.Order}
    (h : call.order? = some order) : call.updates b = order.updates b := by
  rw [updates, h, Option.elim_some]

theorem steps_of_order {call : Call} {order : Desk.Order} (h : call.order? = some order) :
    order.steps = call.steps := by
  have read : ∀ {α : Type} {e : Except Refusal α} {f : α → Desk.Order},
      e.toOption.map f = some order → ∃ a, order = f a := by
    intro α e f he
    obtain ⟨a, -, rfl⟩ := Option.map_eq_some_iff.mp he
    exact ⟨a, rfl⟩
  cases call with
  | makeHoursAvailable caller r => obtain ⟨times, rfl⟩ := read h; rfl
  | makeHoursUnavailable caller r => obtain ⟨times, rfl⟩ := read h; rfl
  | createTraining caller fresh r => obtain ⟨time, rfl⟩ := read h; rfl
  | rescheduleTraining caller id r => obtain ⟨time, rfl⟩ := read h; rfl
  | requestReschedule caller id r => obtain ⟨time, rfl⟩ := read h; rfl
  | cancelTraining caller id => cases h; rfl
  | approveReschedule caller id => cases h; rfl
  | rejectReschedule caller id => cases h; rfl
  | _ => cases h

theorem step_mem {b : Books} {call : Call} {u : HourUpdate} (hu : u ∈ call.updates b) :
    u.step ∈ call.steps := by
  cases ho : call.order? with
  | none =>
      rw [updates, ho] at hu
      cases hu
  | some order =>
      rw [updates_of_order ho] at hu
      rw [← steps_of_order ho]
      exact Desk.Order.step_mem hu

end Api.Call

namespace Act.Meets

open Api

variable {s : Setting} {b : Books}

/-- An order that is carried out makes its updates one after the other, until it is done or fails. -/
theorem order_works (order : Desk.Order) (hs : s.held = Held.nothing) :
    order.perform.Meets s b fun e b' =>
      b.WorkedThrough s.window s.now (order.updates b) e.isDone b' := by
  have hhours : s.held.hours = [] := congrArg Held.hours hs
  have told : ∀ {α β : Type} {act : Act Failure α} {us : List HourUpdate} {f : α → β},
      (act.Meets s b fun e b' => b.WorkedThrough s.window s.now us e.isDone b') →
        (act >>= fun a => Pure.pure (f a)).Meets s b fun e b' =>
          b.WorkedThrough s.window s.now us e.isDone b' :=
    fun h => answered (R := b.WorkedThrough s.window s.now _) h
  cases order with
  | scheduleHour time => exact told (scheduleHour_works hhours)
  | cancelHour time => exact told (cancelHour_works hhours)
  | makeHoursAvailable times => exact told (makeHoursAvailable_works hhours)
  | makeHoursUnavailable times => exact told (makeHoursUnavailable_works hhours)
  | availableHours first last =>
      exact told (worksNot_of_same (availableHours hhours first last b))
  | hourAvailability time => exact told (worksNot_of_same (hourAvailability hhours time b))
  | scheduleTraining id owner ownerName time notes => exact told (scheduleTraining_works hs)
  | cancelTraining id caller => exact told (cancelTraining_works hs)
  | rescheduleTraining id newTime notes caller => exact told (rescheduleTraining_works hs)
  | requestReschedule id newTime notes caller =>
      exact told (worksNot_of_amending (requestReschedule hs))
  | approveReschedule id caller => exact told (approveReschedule_works hs)
  | rejectReschedule id caller => exact told (worksNot_of_amending (rejectReschedule hs))
  | allTrainings => exact told (worksNot_of_same (allTrainings_same hs))
  | trainingsOfCaller caller => exact told (worksNot_of_same (trainingsOfCaller_same hs))
  | createUser id role name balance => exact told (worksNot_of_banked createUser)
  | changeBalance id amount => exact told (worksNot_of_banked changeBalance_banked)
  | recordIp id ip => exact told (worksNot_of_banked recordIp_banked)
  | currentUser id => exact told (worksNot_of_same currentUser)

/-- A call makes the updates of the order that it places. -/
theorem call_works (call : Call) (hs : s.held = Held.nothing) :
    call.perform.Meets s b fun e b' =>
      b.WorkedThrough s.window s.now (call.updates b) e.isDone b' := by
  cases hplaced : call.order? with
  | none =>
      rw [Call.updates, hplaced]
      exact worksNot_of_banked (placingNone hplaced hs)
  | some order =>
      rw [Call.updates_of_order hplaced]
      exact placing (R := fun done b' => b.WorkedThrough s.window s.now (order.updates b) done b')
        hplaced .unchanged (order_works order hs)

end Act.Meets

end TrainerBooking
