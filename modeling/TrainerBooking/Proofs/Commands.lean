import TrainerBooking.Desk.Trainings
import TrainerBooking.Proofs.Calendar
import TrainerBooking.Proofs.Trainings

/-! # The commands on trainings

A command on a training reaches into all three books, and what it did before a failure stays done.
This module lists, for every such command, all the ways in which it can end, and the books then.

* **Booking** (`Books.Booking`) stores, charges, and books the hour, or stops after any of the three.
* **Canceling** (`Books.Canceling`) credits the owner first; if the hour is not booked then, the
  credit stays and the training stays as well.
* **Moving** (`Books.Moving`), directly or by consent, books the new hour first; if the old one is
  not booked, the new one stays booked.
* **Amending** (`Books.Amending`), by a proposal or its rejection, changes the training alone. -/

namespace TrainerBooking

namespace Failure

/-- The slugs of the annotations, from the outside in. -/
def operations : Failure → List String
  | within slug _ source => slug :: source.operations
  | rule _ | missing _ _ | storage _ => []

end Failure

namespace Training

/-- Do the two differ neither in identity nor in being canceled? -/
structure Keeps (t t' : Training) : Prop where
  id : t'.id = t.id
  owner : t'.owner = t.owner
  ownerName : t'.ownerName = t.ownerName
  canceled : t'.canceled = t.canceled

theorem book_eq_ok {id owner ownerName notes : String} {time : Moment} {t : Training}
    (h : book id owner ownerName time notes = .ok t) :
    t = ⟨id, owner, ownerName, time, notes, false, none⟩ := by
  unfold book at h
  split at h
  · cases h
  · split at h
    · cases h
    · split at h
      · cases h
      · split at h <;> cases h
        rfl

theorem whileActive_eq_ok {t t' : Training} {change : Except Violation Training}
    (h : t.whileActive change = .ok t') : t.canceled = false ∧ change = .ok t' := by
  unfold whileActive at h
  split at h
  · cases h
  · next hc => exact ⟨by simpa using hc, h⟩

theorem updateNotes_eq_ok {t t' : Training} {notes : String} (h : t.updateNotes notes = .ok t') :
    t.canceled = false ∧ t' = { t with notes := notes } := by
  obtain ⟨hc, h⟩ := whileActive_eq_ok h
  split at h <;> cases h
  exact ⟨hc, rfl⟩

theorem cancel_eq_ok {t t' : Training} (h : t.cancel = .ok t') :
    t.canceled = false ∧ t' = { t with canceled := true } := by
  unfold cancel at h
  split at h <;> cases h
  next hc => exact ⟨by simpa using hc, rfl⟩

theorem reschedule_eq_ok {t t' : Training} {newTime now : Moment}
    (h : t.reschedule newTime now = .ok t') : t' = { t with time := newTime } := by
  obtain ⟨-, h⟩ := whileActive_eq_ok h
  split at h <;> cases h
  rfl

theorem propose_eq_ok {t t' : Training} {newTime : Moment} {role : Role}
    (h : t.propose newTime role = .ok t') : t' = { t with proposal := some ⟨newTime, role⟩ } := by
  obtain ⟨-, h⟩ := whileActive_eq_ok h
  cases h
  rfl

theorem approve_eq_ok {t t' : Training} {role : Role} (h : t.approve role = .ok t') :
    t.canceled = false ∧ ∃ p, t.proposal = some p ∧ t' = { t with time := p.newTime, proposal := none } := by
  obtain ⟨hc, h⟩ := whileActive_eq_ok h
  split at h
  · cases h
  · next p hp =>
      split at h <;> cases h
      exact ⟨hc, p, hp, rfl⟩

theorem reject_eq_ok {t t' : Training} (h : t.reject = .ok t') :
    t.canceled = false ∧ t' = { t with proposal := none } := by
  obtain ⟨hc, h⟩ := whileActive_eq_ok h
  split at h <;> cases h
  exact ⟨hc, rfl⟩

theorem cancelCredit_bounds (t : Training) (role : Role) (now : Moment) :
    0 ≤ t.cancelCredit role now ∧ t.cancelCredit role now ≤ 2 := by
  unfold cancelCredit
  split
  · decide
  · cases role <;> decide

end Training

namespace Books

variable (b : Books)

/-! ### The outcomes -/

/-- The ways in which the booking of a training can end. -/
inductive Booking (t : Training) : Ending Failure Unit → Books → Prop
  | refused (f : Failure) : Booking t (.refused f) b
  | unpaid (f : Failure) (hfree : b.trainings t.id = none) :
      Booking t (.refused f) (b.setTraining t.id (b.kept t))
  | unbooked {a : Account} {n : Int} {e : Ending Failure Unit} (hfree : b.trainings t.id = none)
      (ha : b.accounts t.owner = some a) (hn : b.newBalance? a (-1) = some n)
      (he : e.isDone = false) :
      Booking t e ((b.setTraining t.id (b.kept t)).setAccount t.owner { a with balance := n })
  | booked {a : Account} {n : Int} {h : Hour} (hfree : b.trainings t.id = none)
      (ha : b.accounts t.owner = some a) (hn : b.newBalance? a (-1) = some n)
      (hopen : b.availability? t.time.second = some .available)
      (hh : h.availability = .trainingScheduled) :
      Booking t (.done ()) (((b.setTraining t.id (b.kept t)).setAccount t.owner
        { a with balance := n }).setHour t.time.second h)

/-- The books after a credit to an account; a credit of nothing is not made. -/
inductive Credited (owner : String) : Int → Books → Prop
  | nothing : Credited owner 0 b
  | paid {a : Account} {credit n : Int} (hcredit : credit ≠ 0) (ha : b.accounts owner = some a)
      (hn : b.newBalance? a credit = some n) :
      Credited owner credit (b.setAccount owner { a with balance := n })

variable {b} in
theorem Credited.inMemory {owner : String} {credit : Int} {b' : Books}
    (h : b.Credited owner credit b') : b'.inMemory = b.inMemory := by
  cases h <;> rfl

variable {b} in
theorem Credited.trainings {owner : String} {credit : Int} {b' : Books}
    (h : b.Credited owner credit b') : b'.trainings = b.trainings := by
  cases h <;> rfl

variable {b} in
theorem Credited.hours {owner : String} {credit : Int} {b' : Books}
    (h : b.Credited owner credit b') : b'.hours = b.hours := by
  cases h <;> rfl

variable {b} in
theorem Credited.availability? {owner : String} {credit : Int} {b' : Books}
    (h : b.Credited owner credit b') (second : Int) :
    b'.availability? second = b.availability? second := by
  rw [Books.availability?, h.hours, Books.availability?]

/-- The ways in which the cancellation of a training can end. -/
inductive Canceling (id : String) (caller : Caller) (now : Moment) :
    Ending Failure Unit → Books → Prop
  | barred (f : Failure) (hbar : ∀ t, b.trainings id = some t → b.Reads t →
      caller.sees t = true → t.canceled = true) : Canceling id caller now (.refused f) b
  | uncredited {t : Training} {f : Failure} (ht : b.trainings id = some t)
      (hsees : caller.sees t = true) (hactive : t.canceled = false)
      (hmissing : b.accounts t.owner ≠ none →
        ∃ a, b.accounts t.owner = some a ∧ b.newBalance? a (t.cancelCredit caller.role now) = none ∧
          f.violation? = some (.insufficientBalance t.owner (b.shown a)
            (t.cancelCredit caller.role now))) :
      Canceling id caller now (.refused f) b
  | unreleased {t : Training} {b' : Books} {e : Ending Failure Unit}
      (ht : b.trainings id = some t) (hsees : caller.sees t = true) (hactive : t.canceled = false)
      (hcredit : b.Credited t.owner (t.cancelCredit caller.role now) b')
      (hbooked : b.availability? t.time.second ≠ some .trainingScheduled)
      (he : e.isDone = false) : Canceling id caller now e b'
  | canceled {t : Training} {b' : Books} {h : Hour} (ht : b.trainings id = some t)
      (hsees : caller.sees t = true) (hactive : t.canceled = false)
      (hcredit : b.Credited t.owner (t.cancelCredit caller.role now) b')
      (hbooked : b.availability? t.time.second = some .trainingScheduled)
      (hh : h.availability = .available) :
      Canceling id caller now (.done ()) ((b'.setHour t.time.second h).setTraining id
        (b.kept { t with canceled := true }))

/-- The ways in which a training can be moved, where `change` says which training is made of it. -/
inductive Moving (id : String) (caller : Caller) (change : Training → Training → Prop) :
    Ending Failure Unit → Books → Prop
  | refused {f : Failure} (hf : "cancel-original-hour-failed" ∉ f.operations) :
      Moving id caller change (.refused f) b
  | crashed : Moving id caller change .crashed b
  | unreleased {t t' : Training} {h : Hour} {e : Ending Failure Unit}
      (ht : b.trainings id = some t) (hsees : caller.sees t = true) (hactive : t.canceled = false)
      (hkeeps : t.Keeps t') (hchange : change t t')
      (hopen : b.availability? t'.time.second = some .available)
      (hh : h.availability = .trainingScheduled)
      (hbooked : (b.setHour t'.time.second h).availability? t.time.second ≠ some .trainingScheduled)
      (he : e.isDone = false) : Moving id caller change e (b.setHour t'.time.second h)
  | moved {t t' : Training} {h h' : Hour} (ht : b.trainings id = some t)
      (hsees : caller.sees t = true) (hactive : t.canceled = false)
      (hkeeps : t.Keeps t') (hchange : change t t')
      (hopen : b.availability? t'.time.second = some .available)
      (hh : h.availability = .trainingScheduled)
      (hbooked : (b.setHour t'.time.second h).availability? t.time.second = some .trainingScheduled)
      (hh' : h'.availability = .available) :
      Moving id caller change (.done ()) (((b.setHour t'.time.second h).setHour t.time.second
        h').setTraining id (b.kept t'))

/-- The ways in which a training can be changed without being moved or canceled. -/
inductive Amending (id : String) (caller : Caller) (change : Training → Training → Prop) :
    Ending Failure Unit → Books → Prop
  | refused (f : Failure) : Amending id caller change (.refused f) b
  | amended {t t' : Training} (ht : b.trainings id = some t) (hsees : caller.sees t = true)
      (hactive : t.canceled = false) (hkeeps : t.Keeps t') (htime : t'.time = t.time)
      (hchange : change t t') :
      Amending id caller change (.done ()) (b.setTraining id (b.kept t'))

end Books

/-! ### The commands -/

namespace Act.Meets

variable {s : Setting} {b : Books}

theorem scheduleTraining {id owner ownerName notes : String} {time : Moment}
    (hs : s.held = Held.nothing) :
    (Desk.scheduleTraining id owner ownerName time notes).Meets s b
      (b.Booking ⟨id, owner, ownerName, time, notes, false, none⟩) := by
  refine watched fun spans => bind_ofRule (fun v _ => .refused _) fun t ht => ?_
  obtain rfl := Training.book_eq_ok ht
  refine bind (within (addTraining ?_ (fun _ _ => .refused _) fun hfree => ?_))
  · rw [hs]
    rfl
  refine bind (within (creditAccount (fun a n ha hn => ?_) (fun _ => .unpaid _ hfree)
    fun _ _ _ => .unpaid _ hfree))
  refine within (scheduleHour ?_ (fun h hopen hh => ?_) (fun v => ?_) ?_)
  · rw [hs]
    rfl
  · exact .booked hfree ha hn hopen hh
  · exact .unbooked hfree ha hn rfl
  · exact .unbooked hfree ha hn rfl

/-- The credit of a cancellation is paid, or the books stay as they are. -/
theorem creditOwner {α : Type} {owner : String} {credit : Int} {next : Unit → Act Failure α}
    {Q : Ending Failure α → Books → Prop}
    (hdone : ∀ b', b.Credited owner credit b' → (next ()).Meets s b' Q)
    (hrefused : ∀ f, credit ≠ 0 → (b.accounts owner ≠ none → ∃ a, b.accounts owner = some a ∧
      b.newBalance? a credit = none ∧
        f.violation? = some (.insufficientBalance owner (b.shown a) credit)) → Q (.refused f) b) :
    (if credit ≠ 0 then (Desk.changeBalance owner credit).within "update-balance-failed"
      "unable to change trainings balance" >>= next else next ()).Meets s b Q := by
  by_cases hc : credit = 0
  · subst hc
    exact hdone b .nothing
  · rw [if_pos hc]
    refine bind (within (creditAccount (fun a n ha hn => ?_) (fun hnone => ?_) fun a ha hn => ?_))
    · exact hdone _ (.paid hc ha hn)
    · exact hrefused _ hc fun hsome => absurd hnone hsome
    · exact hrefused _ hc fun _ => ⟨a, ha, hn, rfl⟩

theorem cancelTraining {id : String} {caller : Caller} (hs : s.held = Held.nothing) :
    (Desk.cancelTraining id caller).Meets s b (b.Canceling id caller s.now) := by
  refine watched fun spans => bind (now ?_)
  refine bind (updateTraining ?_ (fun hnone => ?_) (fun t f ht hread => ?_)
    (fun t ht hread hsees => ?_) fun t ht hread hsees => ?_)
  · rw [hs]
    rfl
  · refine .barred _ fun t ht => ?_
    rw [hnone] at ht
    cases ht
  · refine .barred _ fun t' ht' hread' => ?_
    obtain rfl : t = t' := Option.some.inj (ht.symm.trans ht')
    exact absurd hread' hread
  · refine .barred _ fun t' ht' _ hsees' => ?_
    obtain rfl : t = t' := Option.some.inj (ht.symm.trans ht')
    rw [hsees] at hsees'
    cases hsees'
  refine bind_ofRule (fun v hv => ?_) fun t' ht' => ?_
  · refine .barred _ fun t' ht' _ _ => ?_
    obtain rfl : t = t' := Option.some.inj (ht.symm.trans ht')
    by_contra hactive
    rw [Training.cancel, if_neg hactive] at hv
    cases hv
  obtain ⟨hactive, rfl⟩ := Training.cancel_eq_ok ht'
  refine creditOwner (fun b' hcredit => ?_) fun f _ hf => .uncredited ht hsees hactive hf
  have hav : ∀ second, b'.availability? second = b.availability? second := hcredit.availability?
  refine bind (within (cancelHour ?_ (fun h hbooked hh => ?_) (fun v hbooked => ?_)
    fun hbooked => ?_))
  · rw [hs]
    rfl
  · rw [hav] at hbooked
    refine pure ⟨⟨rfl, rfl, rfl⟩, hcredit.inMemory, hcredit.trainings, pure ?_⟩
    have hk : (b'.setHour t.time.second h).kept { t with canceled := true } =
        b.kept { t with canceled := true } := Books.kept_congr hcredit.inMemory _
    have hq := Books.Canceling.canceled ht hsees hactive hcredit hbooked hh
    rw [← hk] at hq
    exact hq
  · rw [hav] at hbooked
    exact .unreleased ht hsees hactive hcredit hbooked rfl
  · rw [hav] at hbooked
    exact .unreleased ht hsees hactive hcredit hbooked rfl

/-- Moving an hour books the new one first, and releases the old one exactly if it is booked then. -/
theorem moveHour {new old : Moment} (hs : s.held.hours = []) {Q : Ending Failure Unit → Books → Prop}
    (hrefused : ∀ f, f.operations = ["schedule-new-hour-failed", "schedule-training-failed"] →
      Q (.refused f) b)
    (hcrashed : Q .crashed b)
    (hunreleased : ∀ h e, b.availability? new.second = some .available →
      h.availability = .trainingScheduled →
      (b.setHour new.second h).availability? old.second ≠ some .trainingScheduled →
      e.isDone = false → Q e (b.setHour new.second h))
    (hmoved : ∀ h h', b.availability? new.second = some .available →
      h.availability = .trainingScheduled →
      (b.setHour new.second h).availability? old.second = some .trainingScheduled →
      h'.availability = .available →
      Q (.done ()) ((b.setHour new.second h).setHour old.second h')) :
    (Desk.moveHour new old).Meets s b Q := by
  refine bind (within (scheduleHour hs (fun h hopen hh => ?_) (fun v => ?_) hcrashed))
  · refine within (cancelHour hs (fun h' hbooked hh' => ?_) (fun v hbooked => ?_) fun hbooked => ?_)
    · exact hmoved h h' hopen hh hbooked hh'
    · exact hunreleased h _ hopen hh hbooked rfl
    · exact hunreleased h _ hopen hh hbooked rfl
  · exact hrefused _ rfl

/-- The end of the two commands that move a training: the hours are moved, then the training is
filed. -/
theorem moveTraining {id : String} {caller : Caller} {change : Training → Training → Prop}
    {t t' : Training} {new : Moment} (hs : s.held.hours = []) (ht : b.trainings id = some t)
    (hsees : caller.sees t = true) (hactive : t.canceled = false) (hkeeps : t.Keeps t')
    (hchange : change t t') (hnew : t'.time = new) {s' : Setting} :
    ((Desk.moveHour new t.time).within "move-training-failed" "unable to move training" >>=
      fun _ => Pure.pure t').Meets s b
        (Refiling (Onward (fun _ => Pure.pure ()) s' (b.Moving id caller change)) b id t) := by
  subst hnew
  refine bind (within (moveHour hs (fun f hf => ?_) .crashed (fun h e hopen hh hbooked he => ?_)
    fun h h' hopen hh hbooked hh' => ?_))
  · refine Books.Moving.refused ?_
    simp [Failure.operations, hf]
  · cases e with
    | done u => cases he
    | refused f => exact Books.Moving.unreleased ht hsees hactive hkeeps hchange hopen hh hbooked rfl
    | crashed => exact Books.Moving.unreleased ht hsees hactive hkeeps hchange hopen hh hbooked rfl
  · refine pure ⟨⟨hkeeps.id, hkeeps.owner, hkeeps.ownerName⟩, rfl, rfl, pure ?_⟩
    exact .moved ht hsees hactive hkeeps hchange hopen hh hbooked hh'

/-- Every command on a stored training is refused in the same ways before it begins. -/
theorem updateTraining_guarded {id : String} {caller : Caller}
    {transition : Training → Act Failure Training} (hs : s.held.trainings = [])
    {R : Ending Failure Unit → Books → Prop}
    (hrefused : ∀ f, f.operations = [] → R (.refused f) b)
    (hrun : ∀ t, b.trainings id = some t → b.Reads t → caller.sees t = true →
      (transition t).Meets { s with held := s.held.withTraining id } b
        (Refiling (Onward (fun _ => Pure.pure ()) s R) b id t)) :
    (Repository.updateTraining id caller transition >>= fun _ => Pure.pure ()).Meets s b R := by
  refine bind (updateTraining hs (fun _ => ?_) (fun t f _ _ => ?_) (fun t _ _ _ => ?_) hrun)
  · exact hrefused _ rfl
  · exact hrefused _ rfl
  · exact hrefused _ rfl

theorem rescheduleTraining {id notes : String} {newTime : Moment} {caller : Caller}
    (hs : s.held = Held.nothing) :
    (Desk.rescheduleTraining id newTime notes caller).Meets s b
      (b.Moving id caller fun t t' => t' = { t with notes := notes, time := newTime }) := by
  refine watched fun spans => bind (now ?_)
  refine updateTraining_guarded ?_ (fun f hf => .refused ?_) fun t ht _ hsees => ?_
  · rw [hs]
    rfl
  · simp [hf]
  refine bind_ofRule (fun v _ => ?_) fun noted hnoted => ?_
  · exact Books.Moving.refused (by simp [Failure.operations])
  obtain ⟨hactive, rfl⟩ := Training.updateNotes_eq_ok hnoted
  refine bind_ofRule (fun v _ => ?_) fun moved hmoved => ?_
  · exact Books.Moving.refused (by simp [Failure.operations])
  obtain rfl := Training.reschedule_eq_ok hmoved
  refine moveTraining ?_ ht hsees hactive ?_ ?_ ?_
  · rw [hs]
    rfl
  · exact ⟨rfl, rfl, rfl, rfl⟩
  · rfl
  · rfl

theorem approveReschedule {id : String} {caller : Caller} (hs : s.held = Held.nothing) :
    (Desk.approveReschedule id caller).Meets s b (b.Moving id caller fun t t' =>
      ∃ p, t.proposal = some p ∧ t' = { t with time := p.newTime, proposal := none }) := by
  refine watched fun spans => ?_
  refine updateTraining_guarded ?_ (fun f hf => .refused ?_) fun t ht _ hsees => ?_
  · rw [hs]
    rfl
  · simp [hf]
  refine bind_ofRule (fun v _ => ?_) fun moved hmoved => ?_
  · exact Books.Moving.refused (by simp [Failure.operations])
  obtain ⟨hactive, p, hp, rfl⟩ := Training.approve_eq_ok hmoved
  refine moveTraining ?_ ht hsees hactive ?_ ?_ ?_
  · rw [hs]
    rfl
  · exact ⟨rfl, rfl, rfl, rfl⟩
  · exact ⟨p, hp, rfl⟩
  · rfl

theorem requestReschedule {id notes : String} {newTime : Moment} {caller : Caller}
    (hs : s.held = Held.nothing) :
    (Desk.requestReschedule id newTime notes caller).Meets s b (b.Amending id caller fun t t' =>
      t' = { t with notes := notes, proposal := some ⟨newTime, caller.role⟩ }) := by
  refine watched fun spans => ?_
  refine updateTraining_guarded ?_ (fun f hf => .refused f) fun t ht _ hsees => ?_
  · rw [hs]
    rfl
  refine bind_ofRule (fun v _ => Books.Amending.refused _) fun noted hnoted => ?_
  obtain ⟨hactive, rfl⟩ := Training.updateNotes_eq_ok hnoted
  refine within (ofRule ?_)
  cases hp : Training.propose newTime caller.role { t with notes := notes } with
  | error v => exact Books.Amending.refused _
  | ok t' =>
      obtain rfl := Training.propose_eq_ok hp
      refine ⟨⟨rfl, rfl, rfl⟩, rfl, rfl, pure ?_⟩
      exact .amended ht hsees hactive ⟨rfl, rfl, rfl, rfl⟩ rfl rfl

theorem rejectReschedule {id : String} {caller : Caller} (hs : s.held = Held.nothing) :
    (Desk.rejectReschedule id caller).Meets s b
      (b.Amending id caller fun t t' => t' = { t with proposal := none }) := by
  refine watched fun spans => ?_
  refine updateTraining_guarded ?_ (fun f hf => .refused f) fun t ht _ hsees => ?_
  · rw [hs]
    rfl
  refine within (ofRule ?_)
  cases hr : t.reject with
  | error v => exact Books.Amending.refused _
  | ok t' =>
      obtain ⟨hactive, rfl⟩ := Training.reject_eq_ok hr
      refine ⟨⟨rfl, rfl, rfl⟩, rfl, rfl, pure ?_⟩
      exact .amended ht hsees hactive ⟨rfl, rfl, rfl, rfl⟩ rfl rfl

theorem allTrainings_same (hs : s.held = Held.nothing) :
    Desk.allTrainings.Meets s b fun _ b' => b' = b := by
  refine watched fun _ => allTrainings ?_ (fun _ _ _ _ => rfl) fun _ _ _ => rfl
  rw [hs]
  rfl

theorem trainingsOfCaller_same {caller : Caller} (hs : s.held = Held.nothing) :
    (Desk.trainingsOfCaller caller).Meets s b fun _ b' => b' = b := by
  refine watched fun _ => trainingsOf ?_ (fun _ _ _ _ _ => rfl) fun _ _ _ => rfl
  rw [hs]
  rfl

end Act.Meets

end TrainerBooking
