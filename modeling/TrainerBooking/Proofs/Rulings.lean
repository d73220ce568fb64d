import TrainerBooking.Proofs.Commands

/-! # What the rules make of a stored training

Five commands change trainings that are stored.  Each of them goes by a **rule**, which makes another
training of the stored one or is violated, and works on the calendar and the accounts only after that.

* **Yielding.** `Training.Yields` says what every rule leaves alone, whichever training it makes.
* **Rulings.** A `Ruling` is a rule for the training of an identifier, on behalf of a caller.
  `Books.Ruled` lists the ways in which a command that goes by it can end: before the rule is asked,
  by its violation, after it without a trace on the trainings, or with the training filed anew. -/

namespace TrainerBooking

/-! ### Rules -/

/-- What a rule leaves alone when it makes the training `t'` of `t`. -/
structure Training.Yields (t t' : Training) : Prop where
  id : t'.id = t.id
  owner : t'.owner = t.owner
  ownerName : t'.ownerName = t.ownerName
  /-- Of a canceled training no rule makes anything. -/
  active : t.canceled = false
  /-- Notes do not become longer than they may be. -/
  notes : t.notes.length ≤ notesLimit → t'.notes.length ≤ notesLimit
  /-- A training is canceled as it is. -/
  canceled : t'.canceled = true → t'.time = t.time ∧ t'.proposal = t.proposal

namespace Training

variable {t t' : Training} {notes : String} {newTime now : Moment} {role : Role}

theorem checkNotes_eq_ok (h : checkNotes notes = .ok ()) : notes.length ≤ notesLimit := by
  unfold checkNotes at h
  split at h
  · cases h
  · next hle => exact Nat.not_lt.mp hle

theorem notes_of_book {id owner ownerName : String} {time : Moment}
    (h : book id owner ownerName time notes = .ok t) : notes.length ≤ notesLimit := by
  unfold book at h
  split at h
  · cases h
  · split at h
    · cases h
    · split at h
      · cases h
      · split at h
        · next hnotes => exact checkNotes_eq_ok hnotes
        · cases h

theorem notes_of_updateNotes (h : t.updateNotes notes = .ok t') : notes.length ≤ notesLimit := by
  obtain ⟨-, h⟩ := whileActive_eq_ok h
  split at h
  · next hnotes => exact checkNotes_eq_ok hnotes
  · cases h

/-- The rule that moves a training directly, with other notes. -/
def rescheduleNoted (newTime : Moment) (notes : String) (now : Moment) (t : Training) :
    Except Violation Training := do
  (← t.updateNotes notes).reschedule newTime now

/-- The rule that proposes to move a training, with other notes. -/
def proposeNoted (newTime : Moment) (notes : String) (proposer : Role) (t : Training) :
    Except Violation Training := do
  (← t.updateNotes notes).propose newTime proposer

theorem rescheduleNoted_of_error {v : Violation} (h : t.updateNotes notes = .error v) :
    t.rescheduleNoted newTime notes now = .error v := by
  rw [rescheduleNoted, h]
  rfl

theorem rescheduleNoted_of_ok {noted : Training} (h : t.updateNotes notes = .ok noted) :
    t.rescheduleNoted newTime notes now = noted.reschedule newTime now := by
  rw [rescheduleNoted, h]
  rfl

theorem proposeNoted_of_error {v : Violation} (h : t.updateNotes notes = .error v) :
    t.proposeNoted newTime notes role = .error v := by
  rw [proposeNoted, h]
  rfl

theorem proposeNoted_of_ok {noted : Training} (h : t.updateNotes notes = .ok noted) :
    t.proposeNoted newTime notes role = noted.propose newTime role := by
  rw [proposeNoted, h]
  rfl

theorem rescheduleNoted_eq_ok (h : t.rescheduleNoted newTime notes now = .ok t') :
    ∃ noted, t.updateNotes notes = .ok noted ∧ noted.reschedule newTime now = .ok t' :=
  bind_eq_ok h

theorem proposeNoted_eq_ok (h : t.proposeNoted newTime notes role = .ok t') :
    ∃ noted, t.updateNotes notes = .ok noted ∧ noted.propose newTime role = .ok t' :=
  bind_eq_ok h

theorem yields_of_cancel (h : t.cancel = .ok t') : t.Yields t' := by
  obtain ⟨hactive, rfl⟩ := cancel_eq_ok h
  exact ⟨rfl, rfl, rfl, hactive, fun hle => hle, fun _ => ⟨rfl, rfl⟩⟩

/-- What stays active may be moved. -/
theorem yields_of_active (hid : t'.id = t.id) (howner : t'.owner = t.owner)
    (hname : t'.ownerName = t.ownerName) (hactive : t.canceled = false)
    (hactive' : t'.canceled = false)
    (hnotes : t.notes.length ≤ notesLimit → t'.notes.length ≤ notesLimit) : t.Yields t' := by
  refine ⟨hid, howner, hname, hactive, hnotes, fun hcanceled => ?_⟩
  rw [hactive'] at hcanceled
  cases hcanceled

theorem yields_of_rescheduleNoted (h : t.rescheduleNoted newTime notes now = .ok t') :
    t.Yields t' := by
  obtain ⟨noted, hnoted, hmoved⟩ := rescheduleNoted_eq_ok h
  have hle := notes_of_updateNotes hnoted
  obtain ⟨hactive, rfl⟩ := updateNotes_eq_ok hnoted
  obtain rfl := reschedule_eq_ok hmoved
  exact yields_of_active rfl rfl rfl hactive hactive fun _ => hle

theorem yields_of_proposeNoted (h : t.proposeNoted newTime notes role = .ok t') :
    t.Yields t' := by
  obtain ⟨noted, hnoted, hproposed⟩ := proposeNoted_eq_ok h
  have hle := notes_of_updateNotes hnoted
  obtain ⟨hactive, rfl⟩ := updateNotes_eq_ok hnoted
  obtain rfl := propose_eq_ok hproposed
  exact yields_of_active rfl rfl rfl hactive hactive fun _ => hle

theorem yields_of_approve (h : t.approve role = .ok t') : t.Yields t' := by
  obtain ⟨hactive, p, hp, rfl⟩ := approve_eq_ok h
  exact yields_of_active rfl rfl rfl hactive hactive fun hle => hle

theorem yields_of_reject (h : t.reject = .ok t') : t.Yields t' := by
  obtain ⟨hactive, rfl⟩ := reject_eq_ok h
  exact yields_of_active rfl rfl rfl hactive hactive fun hle => hle

/-! Every rule asks first whether the training is canceled. -/

theorem cancel_canceled (h : t.canceled = true) : t.cancel = .error .trainingAlreadyCanceled :=
  if_pos h

theorem whileActive_canceled {change : Except Violation Training} (h : t.canceled = true) :
    t.whileActive change = .error .trainingCanceled := if_pos h

theorem rescheduleNoted_canceled (h : t.canceled = true) :
    t.rescheduleNoted newTime notes now = .error .trainingCanceled :=
  rescheduleNoted_of_error (whileActive_canceled h)

theorem proposeNoted_canceled (h : t.canceled = true) :
    t.proposeNoted newTime notes role = .error .trainingCanceled :=
  proposeNoted_of_error (whileActive_canceled h)

end Training

/-- A rule for the training of an identifier, on behalf of a caller. -/
structure Ruling where
  id : String
  /-- The caller, who has to see the training. -/
  caller : Caller
  rule : Training → Except Violation Training

/-- Whatever training the rule makes, it leaves alone what no rule may change. -/
def Ruling.Lawful (r : Ruling) : Prop := ∀ t t', r.rule t = .ok t' → t.Yields t'

/-- The ways in which a command that goes by a ruling can end. -/
inductive Books.Ruled (b : Books) (r : Ruling) : Ending Failure Unit → Books → Prop
  | barred (f : Failure) (hbar : ∀ t, b.trainings r.id = some t → b.Reads t →
      r.caller.sees t = false) : Ruled b r (.refused f) b
  | violated {t : Training} {v : Violation} {f : Failure} (ht : b.trainings r.id = some t)
      (hread : b.Reads t) (hsees : r.caller.sees t = true) (hrule : r.rule t = .error v)
      (hf : f.violation? = some v) : Ruled b r (.refused f) b
  | dropped {t t' : Training} {e : Ending Failure Unit} {b' : Books}
      (ht : b.trainings r.id = some t) (hread : b.Reads t) (hsees : r.caller.sees t = true)
      (hrule : r.rule t = .ok t') (hkind : b'.inMemory = b.inMemory)
      (htrainings : b'.trainings = b.trainings) (he : e.isDone = false) : Ruled b r e b'
  | filed {t t' : Training} {b' : Books} (ht : b.trainings r.id = some t) (hread : b.Reads t)
      (hsees : r.caller.sees t = true) (hrule : r.rule t = .ok t')
      (hkind : b'.inMemory = b.inMemory) (htrainings : b'.trainings = b.trainings) :
      Ruled b r (.done ()) (b'.setTraining r.id (b.kept t'))

/-! ### Transitions -/

/-- What a transition ends with whose rule answers `answer`: it hands on the training that the rule
makes, if it is done, and works on other books at most; a violation ends it at once. -/
def Books.Transits (b : Books) (answer : Except Violation Training)
    (e : Ending Failure Training) (b' : Books) : Prop :=
  match answer with
  | .error v => b' = b ∧ ∃ f, e = .refused f ∧ f.violation? = some v
  | .ok t' => b'.inMemory = b.inMemory ∧ b'.trainings = b.trainings ∧ ∀ u, e = .done u → u = t'

namespace Act.Meets

variable {s : Setting} {b : Books} {t : Training}

/-- Releasing an hour leaves the trainings alone. -/
theorem cancelHour_leaves {time : Moment} (hs : s.held.hours = []) :
    (Desk.cancelHour time).Meets s b fun _ b' =>
      b'.inMemory = b.inMemory ∧ b'.trainings = b.trainings :=
  cancelHour hs (fun _ _ _ => ⟨rfl, rfl⟩) (fun _ _ => ⟨rfl, rfl⟩) fun _ => ⟨rfl, rfl⟩

/-- Moving an hour leaves the trainings alone. -/
theorem moveHour_leaves {new old : Moment} (hs : s.held.hours = []) :
    (Desk.moveHour new old).Meets s b fun _ b' =>
      b'.inMemory = b.inMemory ∧ b'.trainings = b.trainings :=
  moveHour hs (fun _ _ => ⟨rfl, rfl⟩) ⟨rfl, rfl⟩ (fun _ _ _ _ _ _ => ⟨rfl, rfl⟩)
    fun _ _ _ _ _ _ => ⟨rfl, rfl⟩

/-- The end of a transition: after work on the other books the training is handed on. -/
theorem transits_then {act : Act Failure Unit} {t' : Training} {c : Books}
    (hkind : c.inMemory = b.inMemory) (htrainings : c.trainings = b.trainings)
    (h : act.Meets s c fun _ b' => b'.inMemory = c.inMemory ∧ b'.trainings = c.trainings) :
    (act >>= fun _ => Pure.pure t').Meets s c (b.Transits (.ok t')) := by
  refine bind (h.mono fun e b' hsame => ?_)
  have hkind' := hsame.1.trans hkind
  have htrainings' := hsame.2.trans htrainings
  cases e with
  | done u =>
      refine pure ⟨hkind', htrainings', fun u hu => ?_⟩
      cases hu
      rfl
  | refused f => exact ⟨hkind', htrainings', nofun⟩
  | crashed => exact ⟨hkind', htrainings', nofun⟩

theorem canceling_transits {caller : Caller} {now : Moment} (hs : s.held.hours = []) :
    (Desk.canceling caller now t).Meets s b (b.Transits t.cancel) := by
  refine bind_ofRule (fun v hv => ?_) fun t' ht' => ?_
  · rw [hv]
    exact ⟨rfl, _, rfl, rfl⟩
  rw [ht']
  refine creditOwner (fun c hcredit => ?_) fun f _ _ => ⟨rfl, rfl, nofun⟩
  exact transits_then hcredit.inMemory hcredit.trainings (within (cancelHour_leaves hs))

theorem rescheduling_transits {newTime now : Moment} {notes : String} (hs : s.held.hours = []) :
    (Desk.rescheduling newTime notes now t).Meets s b
      (b.Transits (t.rescheduleNoted newTime notes now)) := by
  refine bind_ofRule (fun v hv => ?_) fun noted hnoted => ?_
  · rw [Training.rescheduleNoted_of_error hv]
    exact ⟨rfl, _, rfl, rfl⟩
  rw [Training.rescheduleNoted_of_ok hnoted]
  refine bind_ofRule (fun v hv => ?_) fun moved hmoved => ?_
  · rw [hv]
    exact ⟨rfl, _, rfl, rfl⟩
  rw [hmoved]
  exact transits_then rfl rfl (within (moveHour_leaves hs))

theorem requesting_transits {newTime : Moment} {notes : String} {caller : Caller} :
    (Desk.requesting newTime notes caller t).Meets s b
      (b.Transits (t.proposeNoted newTime notes caller.role)) := by
  refine bind_ofRule (fun v hv => ?_) fun noted hnoted => within (ofRule ?_)
  · rw [Training.proposeNoted_of_error hv]
    exact ⟨rfl, _, rfl, rfl⟩
  rw [Training.proposeNoted_of_ok hnoted]
  cases noted.propose newTime caller.role with
  | error v => exact ⟨rfl, _, rfl, rfl⟩
  | ok t' =>
      refine ⟨rfl, rfl, fun u hu => ?_⟩
      cases hu
      rfl

theorem approving_transits {caller : Caller} (hs : s.held.hours = []) :
    (Desk.approving caller t).Meets s b (b.Transits (t.approve caller.role)) := by
  refine bind_ofRule (fun v hv => ?_) fun moved hmoved => ?_
  · rw [hv]
    exact ⟨rfl, _, rfl, rfl⟩
  rw [hmoved]
  exact transits_then rfl rfl (within (moveHour_leaves hs))

theorem rejecting_transits : (Desk.rejecting t).Meets s b (b.Transits t.reject) := by
  refine within (ofRule ?_)
  cases t.reject with
  | error v => exact ⟨rfl, _, rfl, rfl⟩
  | ok t' =>
      refine ⟨rfl, rfl, fun u hu => ?_⟩
      cases hu
      rfl

/-! ### The commands -/

/-- A command whose transition goes by the rule ends as the ruling says. -/
theorem ruled {r : Ruling} {transition : Training → Act Failure Training} (hr : r.Lawful)
    (hs : s.held.trainings = [])
    (h : ∀ t, (transition t).Meets { s with held := s.held.withTraining r.id } b
      (b.Transits (r.rule t))) :
    (Repository.updateTraining r.id r.caller transition >>= fun _ => Pure.pure ()).Meets s b
      (b.Ruled r) := by
  refine bind (updateTraining hs (fun hnone => ?_) (fun t f ht hread => ?_)
    (fun t ht hread hsees => ?_) fun t ht hread hsees => ?_)
  · refine .barred _ fun t ht => ?_
    rw [hnone] at ht
    cases ht
  · refine .barred _ fun t' ht' hread' => ?_
    obtain rfl := Option.some.inj (ht.symm.trans ht')
    exact absurd hread' hread
  · refine .barred _ fun t' ht' _ => ?_
    obtain rfl := Option.some.inj (ht.symm.trans ht')
    exact hsees
  refine (h t).mono fun e b' htransits => ?_
  cases hrule : r.rule t with
  | error v =>
      rw [hrule] at htransits
      obtain ⟨rfl, f, rfl, hf⟩ := htransits
      exact Books.Ruled.violated ht hread hsees hrule hf
  | ok t' =>
      rw [hrule] at htransits
      obtain ⟨hkind, htrainings, hdone⟩ := htransits
      cases e with
      | refused f => exact Books.Ruled.dropped ht hread hsees hrule hkind htrainings rfl
      | crashed => exact Books.Ruled.dropped ht hread hsees hrule hkind htrainings rfl
      | done u =>
          obtain rfl := hdone u rfl
          have hyields := hr t u hrule
          refine ⟨⟨hyields.id, hyields.owner, hyields.ownerName⟩, hkind, htrainings, pure ?_⟩
          rw [Books.kept_congr hkind]
          exact .filed ht hread hsees hrule hkind htrainings

theorem cancelTraining_ruled {id : String} {caller : Caller} (hs : s.held = Held.nothing) :
    (Desk.cancelTraining id caller).Meets s b (b.Ruled ⟨id, caller, Training.cancel⟩) := by
  refine watched fun _ => bind (now ?_)
  refine ruled (r := ⟨id, caller, Training.cancel⟩) ?_ (congrArg Held.trainings hs) fun t => ?_
  · exact fun _ _ => Training.yields_of_cancel
  · exact canceling_transits (congrArg Held.hours hs)

theorem rescheduleTraining_ruled {id notes : String} {newTime : Moment} {caller : Caller}
    (hs : s.held = Held.nothing) :
    (Desk.rescheduleTraining id newTime notes caller).Meets s b
      (b.Ruled ⟨id, caller, Training.rescheduleNoted newTime notes s.now⟩) := by
  refine watched fun _ => bind (now ?_)
  refine ruled (r := ⟨id, caller, _⟩) ?_ (congrArg Held.trainings hs) fun t => ?_
  · exact fun _ _ => Training.yields_of_rescheduleNoted
  · exact rescheduling_transits (congrArg Held.hours hs)

theorem requestReschedule_ruled {id notes : String} {newTime : Moment} {caller : Caller}
    (hs : s.held = Held.nothing) :
    (Desk.requestReschedule id newTime notes caller).Meets s b
      (b.Ruled ⟨id, caller, Training.proposeNoted newTime notes caller.role⟩) := by
  refine watched fun _ => ?_
  refine ruled (r := ⟨id, caller, _⟩) ?_ (congrArg Held.trainings hs) fun t => ?_
  · exact fun _ _ => Training.yields_of_proposeNoted
  · exact requesting_transits

theorem approveReschedule_ruled {id : String} {caller : Caller} (hs : s.held = Held.nothing) :
    (Desk.approveReschedule id caller).Meets s b
      (b.Ruled ⟨id, caller, Training.approve caller.role⟩) := by
  refine watched fun _ => ?_
  refine ruled (r := ⟨id, caller, _⟩) ?_ (congrArg Held.trainings hs) fun t => ?_
  · exact fun _ _ => Training.yields_of_approve
  · exact approving_transits (congrArg Held.hours hs)

theorem rejectReschedule_ruled {id : String} {caller : Caller} (hs : s.held = Held.nothing) :
    (Desk.rejectReschedule id caller).Meets s b (b.Ruled ⟨id, caller, Training.reject⟩) := by
  refine watched fun _ => ?_
  refine ruled (r := ⟨id, caller, _⟩) ?_ (congrArg Held.trainings hs) fun t => ?_
  · exact fun _ _ => Training.yields_of_reject
  · exact rejecting_transits

end Act.Meets

end TrainerBooking
