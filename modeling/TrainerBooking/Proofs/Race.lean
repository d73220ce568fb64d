import Mathlib.Logic.Function.Basic
import TrainerBooking.Proofs.Updates

/-! # Bookings that race

Any number of trainings are booked at the same time.  A command to book one (`Bid`) takes three steps:
it **adds** the training, **charges** its owner, and **books** the hour.  Every step is atomic, and
between its steps those of the other commands are taken in any order.

* **Steps.** `Bid.Takes` says what a step does to the books, and how it ends.
* **Progress.** A command is before a step, or was stopped at one, or has booked.  `Stage.onward` says
  how it has come on when a step has ended.
* **Races.** A `Race` is the world and how far each command has come, and `Race.run` takes steps as
  they are picked.  A command that runs alone does what the command of the desk does
  (`Race.run_alone`), and one that was picked three times has finished (`Race.over_of_picks`). -/

namespace TrainerBooking

/-- A command to book a training. -/
structure Bid where
  id : String
  owner : String
  ownerName : String
  time : Moment
  notes : String
deriving DecidableEq, Repr

/-- The steps of booking a training. -/
inductive Stage where
  /-- Stores the training. -/
  | add
  /-- Charges its owner. -/
  | charge
  /-- Books the hour. -/
  | book
deriving DecidableEq, Repr

/-- How many steps come before this one. -/
def Stage.rank : Stage → Nat
  | add => 0
  | charge => 1
  | book => 2

theorem Stage.rank_injective : Function.Injective Stage.rank := by
  intro stage stage' h
  cases stage <;> cases stage' <;> first | rfl | cases h

namespace Bid

/-- The training that is booked. -/
def training (bid : Bid) : Training :=
  ⟨bid.id, bid.owner, bid.ownerName, bid.time, bid.notes, false, none⟩

/-- Are these data that a training can have? -/
def Valid (bid : Bid) : Prop :=
  Training.book bid.id bid.owner bid.ownerName bid.time bid.notes = .ok bid.training

instance (bid : Bid) : Decidable bid.Valid :=
  decidable_of_iff
    ((Training.book bid.id bid.owner bid.ownerName bid.time bid.notes).toOption = some bid.training) <| by
      unfold Valid
      cases Training.book bid.id bid.owner bid.ownerName bid.time bid.notes <;> simp [Except.toOption]

/-- Carries out one step. -/
def act (bid : Bid) : Stage → Act Failure Unit
  | .add => (Repository.addTraining bid.training).within "add-training-failed" "unable to add training"
  | .charge => (Desk.changeBalance bid.owner (-1)).within "update-balance-failed"
    "unable to change trainings balance"
  | .book => (Desk.scheduleHour bid.time).within "schedule-training-failed"
    "unable to schedule training"

/-- The command is these steps, one after the other. -/
theorem scheduleTraining_eq {bid : Bid} (h : bid.Valid) :
    Desk.scheduleTraining bid.id bid.owner bid.ownerName bid.time bid.notes =
      Desk.watched .scheduleTraining (do bid.act .add; bid.act .charge; bid.act .book) := by
  unfold Desk.scheduleTraining
  rw [h]
  rfl

/-- What a step does to the books. -/
inductive Takes (bid : Bid) (b : Books) : Stage → Ending Failure Unit → Books → Prop
  | added (hfree : b.trainings bid.id = none) :
      Takes bid b .add (.done ()) (b.setTraining bid.id (b.kept bid.training))
  | duplicate {f : Failure} (htaken : (b.trainings bid.id).isSome) : Takes bid b .add (.refused f) b
  | charged {a : Account} {n : Int} (ha : b.accounts bid.owner = some a)
      (hn : b.newBalance? a (-1) = some n) :
      Takes bid b .charge (.done ()) (b.setAccount bid.owner { a with balance := n })
  | unpaid {f : Failure} (hpoor : ∀ a, b.accounts bid.owner = some a → b.newBalance? a (-1) = none) :
      Takes bid b .charge (.refused f) b
  | booked {h : Hour} (hopen : b.availability? bid.time.second = some .available)
      (hh : h.availability = .trainingScheduled) :
      Takes bid b .book (.done ()) (b.setHour bid.time.second h)
  | lost {f : Failure} {a : Availability} (hclosed : b.availability? bid.time.second = some a)
      (ha : a ≠ .available) (hf : f.violation? = some .hourNotAvailable) :
      Takes bid b .book (.refused f) b
  | unknown {e : Ending Failure Unit} (hnone : b.hours bid.time.second = none)
      (he : e.isDone = false) : Takes bid b .book e b

namespace Takes

variable {bid : Bid} {b b' : Books} {stage : Stage} {e : Ending Failure Unit}

theorem trainings (h : bid.Takes b stage e b') (hne : stage ≠ .add) :
    b'.trainings = b.trainings := by
  cases h <;> first | rfl | exact absurd rfl hne

theorem accounts (h : bid.Takes b stage e b') (hne : stage ≠ .charge) :
    b'.accounts = b.accounts := by
  cases h <;> first | rfl | exact absurd rfl hne

theorem hours (h : bid.Takes b stage e b') (hne : stage ≠ .book) : b'.hours = b.hours := by
  cases h <;> first | rfl | exact absurd rfl hne

end Takes

end Bid

/-! ### Steps -/

/-- Of an hour that is stored, a step of booking goes by its availability. -/
theorem Books.stepHour_stored {b : Books} {time : Moment} {h : Hour} (step : HourStep) (s : Setting)
    (hh : b.hours time.second = some h) :
    (∃ h', h.step step = .ok h' ∧ b.stepHour time step s = (.done h', b.setHour time.second h')) ∨
      ∃ v, h.step step = .error v ∧ b.stepHour time step s = (.refused (.rule v), b) := by
  unfold stepHour updateHour startHour
  simp only [hh]
  cases hs : h.step step with
  | ok h' =>
      have hkept : b.keptHour h h' = h' := keptHour_of_step hs
      simp only [Ending.ofExcept, Ending.mapCause, hkept]
      exact .inl ⟨h', rfl, rfl⟩
  | error v => exact .inr ⟨v, rfl, rfl⟩

/-- A charge goes through if there is a credit. -/
theorem Books.newBalance?_charge_eq {b : Books} {a : Account} (ha : 0 ≤ a.balance)
    (hle : a.balance ≤ Account.greatestBalance) :
    b.newBalance? a (-1) = if 1 ≤ a.balance then some (a.balance - 1) else none := by
  unfold newBalance?
  rw [Column.sum_charge ha hle]
  by_cases hcredit : 1 ≤ a.balance
  · have hfits : 0 ≤ a.balance + -1 ∧ a.balance + -1 ≤ Account.greatestBalance := by omega
    have hpos : ¬ a.balance - 1 < 0 := by omega
    rw [if_pos hfits, if_neg hpos, if_pos hcredit]
    exact ite_self _
  · have hdebt : ¬ (0 ≤ a.balance + -1 ∧ a.balance + -1 ≤ Account.greatestBalance) := by omega
    have hneg : a.balance - 1 < 0 := by omega
    rw [if_neg hdebt, if_pos hneg, if_neg hcredit, ite_self]

namespace Act.Meets

variable {s : Setting} {b : Books}

theorem bookHour_takes (bid : Bid) (hs : s.held.hours = []) :
    (Desk.scheduleHour bid.time).Meets s b fun e b' =>
      bid.Takes b .book (e.mapCause (Failure.within "schedule-training-failed"
        "unable to schedule training")) b' := by
  refine watched fun spans => bind (within ?_)
  refine updateHour ?_ ?_
  · exact hs
  change Onward _ _ _ (Ending.mapCause _ (b.stepHour bid.time .scheduleTraining _).1)
    (b.stepHour bid.time .scheduleTraining _).2
  cases hh : b.hours bid.time.second with
  | none =>
      obtain ⟨h, -, hwrites⟩ | ⟨hdone, hsame⟩ := b.stepHour_cases bid.time .scheduleTraining
        { s with spans := spans }
      · cases hwrites with
        | stepped hold hfrom =>
            rw [hh] at hold
            cases hold
        | opened hnone hstep hcheck => cases hstep
      · rw [hsame]
        generalize (b.stepHour bid.time .scheduleTraining _).1 = e at hdone
        cases e with
        | done h => cases hdone
        | refused f => exact .unknown hh rfl
        | crashed => exact .unknown hh rfl
  | some h =>
      have havailability := Books.availability?_of_hours hh
      obtain ⟨h', hstep, heq⟩ | ⟨v, hstep, heq⟩ := Books.stepHour_stored .scheduleTraining
        { s with spans := spans } hh
      · rw [heq]
        obtain ⟨hfrom, hto⟩ := Hour.step_eq_ok hstep
        rw [hfrom] at havailability
        exact pure (.booked havailability (by rw [hto]; rfl))
      · rw [heq]
        have hv : h.availability ≠ .available ∧ v = .hourNotAvailable := by
          obtain ⟨time, a⟩ := h
          cases a <;> cases hstep <;> exact ⟨nofun, rfl⟩
        obtain ⟨hne, rfl⟩ := hv
        exact .lost havailability hne rfl

/-- Each step does to the books what `Takes` says. -/
theorem takes (bid : Bid) (stage : Stage) (hs : s.held = Held.nothing) :
    (bid.act stage).Meets s b (bid.Takes b stage) := by
  cases stage with
  | add =>
      refine within (addTraining ?_ (fun _ htaken => .duplicate htaken) fun hfree => .added hfree)
      exact congrArg Held.trainings hs
  | charge =>
      refine within (creditAccount (fun a n ha hn => .charged ha hn) (fun hnone => ?_)
        fun a ha hn => ?_)
      · refine .unpaid fun a ha => ?_
        rw [hnone] at ha
        cases ha
      · refine .unpaid fun a' ha' => ?_
        obtain rfl : a = a' := Option.some.inj (ha.symm.trans ha')
        exact hn
  | book => exact within (bookHour_takes bid (congrArg Held.hours hs))

end Act.Meets

/-! ### Races -/

/-- How far a command has come. -/
inductive Progress where
  /-- The step comes next. -/
  | before (stage : Stage)
  /-- The step was not done. -/
  | stopped (stage : Stage) (ending : Ending Failure Unit)
  /-- All steps are done. -/
  | booked
deriving DecidableEq, Repr

namespace Progress

/-- Is the step done? -/
def passed (stage : Stage) : Progress → Bool
  | before next => decide (stage.rank < next.rank)
  | stopped last _ => decide (stage.rank < last.rank)
  | booked => true

/-- Was the step taken, whether it was done or not? -/
def tried (stage : Stage) : Progress → Bool
  | before next => decide (stage.rank < next.rank)
  | stopped last _ => decide (stage.rank ≤ last.rank)
  | booked => true

/-- Are all steps before this one done? -/
def reached (stage : Stage) : Progress → Bool
  | before next => decide (stage.rank ≤ next.rank)
  | stopped last _ => decide (stage.rank ≤ last.rank)
  | booked => true

/-- Is no step left? -/
def finished : Progress → Bool
  | before _ => false
  | stopped _ _ | booked => true

/-- The number of steps that are left at most. -/
def left : Progress → Nat
  | before next => 3 - next.rank
  | stopped _ _ | booked => 0

theorem finished_or_before (p : Progress) : p.finished = true ∨ ∃ stage, p = before stage := by
  cases p with
  | before stage => exact .inr ⟨stage, rfl⟩
  | stopped last e => exact .inl rfl
  | booked => exact .inl rfl

theorem finished_iff_left {p : Progress} : p.finished = true ↔ p.left = 0 := by
  cases p with
  | before next => cases next <;> decide
  | stopped last e => exact iff_of_true rfl rfl
  | booked => exact iff_of_true rfl rfl

theorem reached_of_finished {p : Progress} (h : p.finished = true) (stage : Stage) :
    p.reached stage = p.tried stage := by
  cases p with
  | before next => cases h
  | stopped last e => rfl
  | booked => rfl

theorem passed_book {p : Progress} : p.passed .book = true ↔ p = .booked := by
  cases p with
  | before next => cases next <;> exact iff_of_false Bool.false_ne_true nofun
  | stopped last e => cases last <;> exact iff_of_false Bool.false_ne_true nofun
  | booked => exact iff_of_true rfl rfl

theorem reached_add (p : Progress) : p.reached .add = true := by
  cases p with
  | before next => cases next <;> rfl
  | stopped last e => cases last <;> rfl
  | booked => rfl

/-- What was tried and not done is where the command stopped. -/
theorem stopped_of_tried {p : Progress} {stage : Stage} (ht : p.tried stage = true)
    (hp : p.passed stage = false) : ∃ e, p = stopped stage e := by
  cases p with
  | before next =>
      rw [passed] at hp
      rw [tried, hp] at ht
      cases ht
  | booked => cases hp
  | stopped last e =>
      have hle := of_decide_eq_true ht
      have hlt := of_decide_eq_false hp
      exact ⟨e, by rw [Stage.rank_injective (Nat.le_antisymm hle (Nat.not_lt.mp hlt))]⟩

end Progress

/-- How a command has come on after a step has ended. -/
def Stage.onward (stage : Stage) : Ending Failure Unit → Progress
  | .done _ =>
    match stage with
    | add => .before charge
    | charge => .before book
    | book => .booked
  | e => .stopped stage e

namespace Stage

variable {stage other : Stage} {e : Ending Failure Unit}

theorem tried_onward : (stage.onward e).tried stage = true := by
  cases stage <;> cases e <;> rfl

theorem passed_onward_of_ne (h : other ≠ stage) :
    (stage.onward e).passed other = (Progress.before stage).passed other := by
  cases stage <;> cases other <;> cases e <;> first | rfl | exact absurd rfl h

theorem tried_onward_of_ne (h : other ≠ stage) :
    (stage.onward e).tried other = (Progress.before stage).tried other := by
  cases stage <;> cases other <;> cases e <;> first | rfl | exact absurd rfl h

theorem left_onward (stage : Stage) (e : Ending Failure Unit) :
    (stage.onward e).left < (Progress.before stage).left := by
  cases stage <;> cases e <;> simp [onward, Progress.left, rank]

theorem onward_of_not_done (h : e.isDone = false) : stage.onward e = .stopped stage e := by
  cases e with
  | done u => cases h
  | refused f => rfl
  | crashed => rfl

end Stage

/-- The world, and how far every command has come. -/
structure Race (ι : Type) where
  world : World
  progress : ι → Progress

namespace Race

variable {ι : Type} [DecidableEq ι]

/-- The race in which no step is taken yet. -/
def start (w : World) : Race ι := ⟨w, fun _ => .before .add⟩

/-- Takes the next step of a command, if one is left. -/
def pick (bids : ι → Bid) (race : Race ι) (i : ι) (s : Setting) : Race ι :=
  match race.progress i with
  | .before stage =>
    let r := (bids i).act stage s race.world
    ⟨r.2, Function.update race.progress i (stage.onward r.1)⟩
  | .stopped _ _ | .booked => race

/-- Takes steps as they are picked, each in its own setting. -/
def run (bids : ι → Bid) (race : Race ι) (picks : List (ι × Setting)) : Race ι :=
  picks.foldl (fun race p => race.pick bids p.1 p.2) race

/-- Has every command finished? -/
def Over (race : Race ι) : Prop := ∀ i, (race.progress i).finished = true

variable {bids : ι → Bid} {race : Race ι}

theorem pick_before {i : ι} {stage : Stage} (h : race.progress i = .before stage) (s : Setting) :
    race.pick bids i s = ⟨((bids i).act stage s race.world).2,
      Function.update race.progress i (stage.onward ((bids i).act stage s race.world).1)⟩ := by
  rw [pick, h]

theorem pick_finished {i : ι} (h : (race.progress i).finished = true) (s : Setting) :
    race.pick bids i s = race := by
  unfold pick
  cases hp : race.progress i with
  | before stage =>
      rw [hp] at h
      cases h
  | stopped stage e => rfl
  | booked => rfl

/-- A command that runs alone takes its steps as the command does. -/
theorem run_alone {bid : Bid} (h : bid.Valid) {s : Setting} (hs : s.watch = .bare) (w : World) :
    let raced := run (fun _ : Unit => bid) (start w) [((), s), ((), s), ((), s)]
    let done := Desk.scheduleTraining bid.id bid.owner bid.ownerName bid.time bid.notes s w
    raced.world = done.2 ∧ (raced.progress () = .booked ↔ done.1.isDone = true) := by
  intro raced done
  have hdone : done = (bid.act .add >>= fun _ => bid.act .charge >>= fun _ => bid.act .book) s w := by
    have hbare := Bid.scheduleTraining_eq h
    simp only [done, hbare]
    rw [Desk.watched, Act.bind_run_done (Act.setting_run s w), hs]
  rw [hdone]
  cases h₁ : bid.act .add s w with
  | mk e₁ w₁ =>
  cases e₁ with
  | refused f => simp [raced, run, start, pick, Stage.onward, Ending.isDone, Act.bind_run, h₁]
  | crashed => simp [raced, run, start, pick, Stage.onward, Ending.isDone, Act.bind_run, h₁]
  | done u₁ =>
  cases h₂ : bid.act .charge s w₁ with
  | mk e₂ w₂ =>
  cases e₂ with
  | refused f => simp [raced, run, start, pick, Stage.onward, Ending.isDone, Act.bind_run, h₁, h₂]
  | crashed => simp [raced, run, start, pick, Stage.onward, Ending.isDone, Act.bind_run, h₁, h₂]
  | done u₂ =>
  cases h₃ : bid.act .book s w₂ with
  | mk e₃ w₃ =>
  cases e₃ <;> simp [raced, run, start, pick, Stage.onward, Ending.isDone, Act.bind_run, h₁, h₂, h₃]

theorem left_pick (bids : ι → Bid) (race : Race ι) (i j : ι) (s : Setting) :
    ((race.pick bids i s).progress j).left ≤
      (race.progress j).left - if i = j then 1 else 0 := by
  obtain hfinished | ⟨stage, hp⟩ := (race.progress i).finished_or_before
  · rw [pick_finished hfinished]
    split
    · next hij =>
        rw [← hij, Progress.finished_iff_left.mp hfinished]
    · exact Nat.le_refl _
  · rw [pick_before hp]
    by_cases hij : i = j
    · subst hij
      have hless := stage.left_onward ((bids i).act stage s race.world).1
      simp only [Function.update_self, if_true, hp]
      omega
    · simp only [Function.update_of_ne (Ne.symm hij), if_neg hij]
      exact Nat.le_refl _

/-- A command that was picked three times has finished. -/
theorem over_of_picks {picks : List (ι × Setting)}
    (h : ∀ i, 3 ≤ (picks.map Prod.fst).count i) (w : World) : (run bids (start w) picks).Over := by
  have hleft : ∀ (picks : List (ι × Setting)) (race : Race ι) (i : ι),
      ((run bids race picks).progress i).left ≤
        (race.progress i).left - (picks.map Prod.fst).count i := by
    intro picks
    induction picks with
    | nil => exact fun race i => Nat.le_refl _
    | cons p rest ih =>
        intro race i
        have hrest := ih (race.pick bids p.1 p.2) i
        have hpick := left_pick bids race p.1 i p.2
        rw [List.map_cons, List.count_cons]
        simp only [beq_iff_eq]
        simp only [run, List.foldl_cons] at hrest ⊢
        omega
  intro i
  rw [Progress.finished_iff_left]
  have hi := hleft picks (start w) i
  have h3 := h i
  have hstart : ((start w : Race ι).progress i).left = 3 := rfl
  omega

end Race

end TrainerBooking
