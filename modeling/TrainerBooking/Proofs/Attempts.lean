import TrainerBooking.Proofs.Guarded
import TrainerBooking.Proofs.Reports

/-! # Tries of a transaction

The update of an hour in tables is a transaction, and a transaction that loses a deadlock is tried
again.  Nothing is assumed here of what the tries come to: each of them may end in a way of its own.

* **Transactions.** A `Transaction` is whatever can be tried, as long as a try that is not done is
  rolled back.  The update of an hour is one of them (`Transaction.ofHour`).
* **Tries.** `Transaction.Tried` lists the tries that are made, each as it ended and with the world
  after it.  The relation says when a try may be followed by another one, and leaves open when it has
  to be; that and the greatest number of tries are fields of `Transaction.Performed`.
* **Rejections** of the booking window and of the transition are no deadlocks, whatever they wrap, so
  the first one is also the last try. -/

namespace TrainerBooking

/-! ### Rolling back -/

namespace Act

variable {ε δ α β : Type}

/-- The act leaves the store as it was. -/
def Spares (act : Act ε α) : Prop := ∀ s w, (act s w).2.store = w.store

/-- The act leaves the store as it was, unless it is done. -/
def RollsBack (act : Act ε α) : Prop :=
  ∀ s w, (act s w).1.isDone = false → (act s w).2.store = w.store

theorem Spares.mapCause {act : Act ε α} (h : act.Spares) (f : ε → δ) : (act.mapCause f).Spares := h

theorem Spares.holding {act : Act ε α} (h : act.Spares) (f : Held → Held) :
    (act.holding f).Spares := fun s w => h { s with held := f s.held } w

theorem Spares.ofExcept (e : Except ε α) : (Act.ofExcept e).Spares := fun _ _ => rfl

theorem Spares.bind {act : Act ε α} {next : α → Act ε β} (h : act.Spares)
    (hnext : ∀ a, (next a).RollsBack) : (act >>= next).RollsBack := by
  intro s w hend
  have hstore := h s w
  rw [bind_run] at hend ⊢
  generalize act s w = r at hstore hend
  obtain ⟨e, w'⟩ := r
  cases e with
  | done a => exact (hnext a s w' hend).trans hstore
  | refused c => exact hstore
  | crashed => exact hstore

theorem RollsBack.of_done {act : Act ε α} (h : ∀ s w, (act s w).1.isDone = true) :
    act.RollsBack := by
  intro s w hend
  rw [h s w] at hend
  cases hend

end Act

namespace Repository

/-- What is tried, and may be tried more than once. -/
structure Transaction (α : Type) where
  /-- The try of a number. -/
  attempt : Nat → Act Rollback α
  /-- A try that is not done is rolled back. -/
  rolls_back (number : Nat) : (attempt number).RollsBack

variable {α : Type}

/-- A try ended because a statement of it lost a deadlock. -/
def Lost (e : Ending Rollback α) : Prop := ∃ f, e = .refused (.fault f) ∧ f.isDeadlock = true

theorem Lost.isDone {e : Ending Rollback α} (h : Lost e) : e.isDone = false := by
  obtain ⟨f, rfl, -⟩ := h
  rfl

theorem not_lost_of_rejected {e : Ending Rollback α} {f : Failure}
    (h : e = .refused (.rejected f)) : ¬ Lost e := by
  rintro ⟨g, hg, -⟩
  rw [h] at hg
  cases hg

/-- The event between a lost deadlock and the next try. -/
def warning (time : Moment) (number : Nat) (f : DatabaseFault) : Act Failure Unit :=
  Act.note .warn "Trainer hour update deadlocked, retrying"
    [("hour_time", .number time.second), ("attempt", .number number), ("error", .text f.message)]

/-! ### One try -/

section

variable {warn : Nat → DatabaseFault → Act Failure Unit} {attempt : Nat → Act Rollback α}
  {number : Nat} {s : Setting} {w : World}

/-- A try that loses no deadlock decides, however many repetitions are left. -/
theorem retrying_of_not_lost (h : ¬ Lost (attempt number s w).1) (repetitions : Nat) :
    retrying warn attempt number repetitions s w =
      ((attempt number s w).1.mapCause Rollback.toFailure, (attempt number s w).2) := by
  cases repetitions with
  | zero => rfl
  | succ k =>
      rw [retrying, Act.bind_run, Act.settle]
      generalize attempt number s w = try' at h
      obtain ⟨e, w'⟩ := try'
      cases e with
      | done a => rfl
      | crashed => rfl
      | refused cause =>
          have hkept : cause.deadlock? = none := by
            rw [Option.eq_none_iff_forall_ne_some]
            intro f hf
            obtain ⟨rfl, hdead⟩ := Rollback.deadlock?_eq_some_iff.mp hf
            exact h ⟨f, rfl, hdead⟩
          dsimp only
          rw [hkept]
          rfl

/-- A try that loses a deadlock is followed by the next one, if repetitions are left. -/
theorem retrying_of_lost {f : DatabaseFault}
    (hlost : (attempt number s w).1 = .refused (.fault f)) (hdead : f.isDeadlock = true)
    (repetitions : Nat) :
    retrying warn attempt number (repetitions + 1) s w =
      (warn number f >>= fun _ => retrying warn attempt (number + 1) repetitions) s
        (attempt number s w).2 := by
  have hcause : (Rollback.fault f).deadlock? = some f :=
    Rollback.deadlock?_eq_some_iff.mpr ⟨rfl, hdead⟩
  rw [retrying, Act.bind_run, Act.settle]
  generalize attempt number s w = try' at hlost
  obtain ⟨e, w'⟩ := try'
  cases hlost
  dsimp only
  rw [hcause]

end

/-! ### All tries -/

namespace Transaction

variable {b : Transaction α} {time : Moment} {s : Setting}

/-- Tries the transaction as the update of the hour of a time is tried. -/
def perform (b : Transaction α) (time : Moment) : Act Failure α :=
  retrying (warning time) b.attempt 1 (greatestAttempts - 1)

/-- The tries made from a world on: those that are followed by another one, in order, and the last.
Only a try that lost a deadlock is followed by another one, which begins after the warning. -/
inductive Tried (b : Transaction α) (time : Moment) (s : Setting) :
    Nat → World → List (Ending Rollback α × World) → Ending Rollback α × World → Prop
  | last (number : Nat) (w : World) : Tried b time s number w [] (b.attempt number s w)
  | again {number : Nat} {w : World} {f : DatabaseFault}
      {earlier : List (Ending Rollback α × World)} {last : Ending Rollback α × World}
      (hlost : (b.attempt number s w).1 = .refused (.fault f)) (hdead : f.isDeadlock = true)
      (hnext : Tried b time s (number + 1) (warning time number f s (b.attempt number s w).2).2
        earlier last) :
      Tried b time s number w (b.attempt number s w :: earlier) last

namespace Tried

variable {number : Nat} {w : World} {earlier : List (Ending Rollback α × World)}
  {last : Ending Rollback α × World}

theorem lost (h : b.Tried time s number w earlier last) : ∀ t ∈ earlier, Lost t.1 := by
  induction h with
  | last => nofun
  | again hlost hdead _ ih => exact List.forall_mem_cons.mpr ⟨⟨_, hlost, hdead⟩, ih⟩

/-- Lost tries are rolled back, so the last one begins with the store with which the first began. -/
theorem begins (h : b.Tried time s number w earlier last) :
    ∃ before : World, before.store = w.store ∧
      last = b.attempt (number + earlier.length) s before := by
  induction h with
  | last number w => exact ⟨w, rfl, rfl⟩
  | @again number w f earlier last hlost hdead hnext ih =>
      obtain ⟨before, hbefore, hlast⟩ := ih
      have hback : (b.attempt number s w).2.store = w.store :=
        b.rolls_back number s w (Lost.isDone ⟨f, hlost, hdead⟩)
      refine ⟨before, hbefore.trans hback, ?_⟩
      rw [hlast, List.length_cons, Nat.add_right_comm, Nat.add_assoc]

end Tried

/-- The tries go on while deadlocks are lost and repetitions are left, and the last one decides. -/
theorem retrying_tried (b : Transaction α) (time : Moment) (s : Setting) (number repetitions : Nat)
    (w : World) :
    ∃ earlier last, b.Tried time s number w earlier last ∧ earlier.length ≤ repetitions ∧
      (Lost last.1 → earlier.length = repetitions) ∧
      retrying (warning time) b.attempt number repetitions s w =
        (last.1.mapCause Rollback.toFailure, last.2) := by
  induction repetitions generalizing number w with
  | zero => exact ⟨[], _, .last number w, Nat.le_refl 0, fun _ => rfl, rfl⟩
  | succ k ih =>
      by_cases h : Lost (b.attempt number s w).1
      · obtain ⟨f, hlost, hdead⟩ := h
        obtain ⟨earlier, last, htried, hmost, hspent, hrun⟩ :=
          ih (number + 1) (warning time number f s (b.attempt number s w).2).2
        refine ⟨_, last, .again hlost hdead htried, Nat.succ_le_succ hmost,
          fun h => congrArg Nat.succ (hspent h), ?_⟩
        rw [retrying_of_lost hlost hdead]
        exact hrun
      · exact ⟨[], _, .last number w, Nat.zero_le _, fun hlost => absurd hlost h,
          retrying_of_not_lost h _⟩

/-- What becomes of a transaction: the tries that are made of it, and what it comes to. -/
structure Performed (b : Transaction α) (time : Moment) (s : Setting) (w : World)
    (earlier : List (Ending Rollback α × World)) (last : Ending Rollback α × World)
    (result : Ending Failure α × World) : Prop where
  /-- The tries are numbered from one. -/
  tried : b.Tried time s 1 w earlier last
  /-- There are not too many of them. -/
  most : earlier.length + 1 ≤ greatestAttempts
  /-- Only a lost deadlock is followed by another try. -/
  lost : ∀ t ∈ earlier, Lost t.1
  /-- A lost deadlock is followed by another try, unless there were as many as there may be. -/
  spent : Lost last.1 → earlier.length + 1 = greatestAttempts
  /-- The last try decides. -/
  decided : result = (last.1.mapCause Rollback.toFailure, last.2)
  /-- A rejection, whatever it is, ends the last try, and comes out as it is. -/
  rejected : ∀ t ∈ earlier ++ [last], ∀ f, t.1 = .refused (.rejected f) →
    t = last ∧ result = (.refused f, t.2)
  /-- The last try begins with the store as it was before the first. -/
  begins : ∃ before : World, before.store = w.store ∧
    last = b.attempt (earlier.length + 1) s before
  /-- If the transaction is not done, it leaves the store as it was. -/
  undone : result.1.isDone = false → result.2.store = w.store

theorem performed (b : Transaction α) (time : Moment) (s : Setting) (w : World) :
    ∃ earlier last, b.Performed time s w earlier last (b.perform time s w) := by
  obtain ⟨earlier, last, htried, hmost, hspent, hrun⟩ :=
    b.retrying_tried time s 1 (greatestAttempts - 1) w
  have hresult : b.perform time s w = (last.1.mapCause Rollback.toFailure, last.2) := hrun
  obtain ⟨before, hbefore, hlast⟩ := htried.begins
  rw [Nat.add_comm] at hlast
  refine ⟨earlier, last, htried, Nat.succ_le_succ hmost, htried.lost,
    fun h => congrArg Nat.succ (hspent h), hresult, fun t ht f hf => ?_, ⟨before, hbefore, hlast⟩,
    fun hend => ?_⟩
  · have hearlier : t ∉ earlier := fun ht => not_lost_of_rejected hf (htried.lost t ht)
    have heq : t = last := by
      rw [List.mem_append, List.mem_singleton] at ht
      exact ht.resolve_left hearlier
    subst heq
    rw [hresult, hf]
    exact ⟨rfl, rfl⟩
  · rw [hresult] at hend ⊢
    rw [Ending.isDone_mapCause, hlast] at hend
    rw [hlast, b.rolls_back _ s before hend, hbefore]

end Transaction

/-! ### The update of an hour -/

/-- The table is written at the end only. -/
theorem updateHourOnce_rollsBack {transition : Hour → Act Failure Hour}
    (hspares : ∀ h, (transition h).Spares) (time : Moment) (t : Tables) (number : Nat) :
    (updateHourOnce time transition t number).RollsBack := by
  have hrow : (rowForUpdate time t number).Spares := fun s w =>
    (rowForUpdate_cases time t number s w).1
  rw [updateHourOnce_eq]
  refine hrow.bind fun p => ?_
  unfold finishUpdate
  refine ((Act.Spares.ofExcept _).mapCause _).bind fun h => ?_
  refine (((hspares h).holding _).mapCause _).bind fun v => ?_
  exact ((Act.Spares.ofExcept _).mapCause _).bind fun table => .of_done fun _ _ => rfl

/-- The update of the hour of a time, with a transition that leaves the store alone. -/
def Transaction.ofHour (time : Moment) (transition : Hour → Act Failure Hour)
    (hspares : ∀ h, (transition h).Spares) (t : Tables) : Transaction Hour where
  attempt := updateHourOnce time transition t
  rolls_back := updateHourOnce_rollsBack hspares time t

section

variable {time : Moment} {transition : Hour → Act Failure Hour} {t : Tables} {s : Setting}
  {w w₁ w₂ : World}

/-- On a connection that can be had, the update of an hour is its transaction. -/
theorem updateHour_eq_retrying (hw : w.store = .tables t)
    (hlease : t.lease (!s.held.hours.isEmpty) .writing = .ok ()) :
    updateHour time transition s w =
      retrying (warning time) (updateHourOnce time transition t) 1 (greatestAttempts - 1) s w := by
  have hleased : ofDatabase (t.lease (!s.held.hours.isEmpty) .writing) s w = (.done (), w) := by
    rw [hlease]
    rfl
  rw [updateHour, Act.bind_run_done (Act.store_run s w), hw]
  dsimp only
  rw [updateHourInTables, Act.bind_run_done (Act.setting_run s w), Act.bind_run_done hleased]
  rfl

/-- What is rejected in the first try is the outcome of the update. -/
theorem updateHour_rejected {f : Failure} (hw : w.store = .tables t)
    (hlease : t.lease (!s.held.hours.isEmpty) .writing = .ok ())
    (honce : updateHourOnce time transition t 1 s w = (.refused (.rejected f), w₂)) :
    updateHour time transition s w = (.refused f, w₂) := by
  have hkept : ¬ Lost (updateHourOnce time transition t 1 s w).1 :=
    not_lost_of_rejected (congrArg Prod.fst honce)
  rw [updateHour_eq_retrying hw hlease, retrying_of_not_lost hkept, honce]
  rfl

theorem updateHourOnce_window {v : Violation} (hnone : t.hours.rows.get? time.second = none)
    (hnew : s.window.newHour .notAvailable time s.now = .refused v) :
    updateHourOnce time transition t 1 s w = (.refused (.rejected (.rule v)), w) := by
  have hrow : rowForUpdate time t 1 s w = (.refused (.rejected (.rule v)), w) := by
    rw [rowForUpdate, hnone]
    dsimp only
    rw [Act.bind_run_done (Act.setting_run s w), hnew]
    rfl
  rw [updateHourOnce_eq, Act.bind_run_refused hrow]

theorem updateHourOnce_transition {p : HourTable × HourRow} {h : Hour} {f : Failure}
    (hrow : rowForUpdate time t 1 s w = (.done p, w₁)) (hdecode : p.2.decode = .ok h)
    (hturned : (transition h).holding (Held.withHour time.second) s w₁ = (.refused f, w₂)) :
    updateHourOnce time transition t 1 s w = (.refused (.rejected f), w₂) := by
  have hrejected : ((transition h).holding (Held.withHour time.second)).mapCause Rollback.rejected
      s w₁ = (.refused (.rejected f), w₂) := by
    rw [Act.mapCause_run, hturned]
    rfl
  have hdecoded : (Act.ofExcept p.2.decode).mapCause Rollback.fault s w₁ = (.done h, w₁) := by
    rw [hdecode]
    rfl
  rw [updateHourOnce_eq, Act.bind_run_done hrow, finishUpdate, Act.bind_run_done hdecoded,
    Act.bind_run_refused hrejected]

end

/-- **The tries of an update are bounded, and no decision is made twice.**  Whatever the backend
does, a transaction is tried at least once and at most `greatestAttempts` times; a try is followed by
another one exactly where it lost a deadlock and tries are left; and the last one, which begins with
the store as it was, decides what the transaction comes to.  The update of an hour is such a
transaction, and a rejection by the booking window or by the transition is its outcome after one try,
in the world of this try, even if the rejection is itself a deadlock of the storage. -/
theorem tries_bounded :
    (∀ (α : Type) (b : Transaction α) (time : Moment) (s : Setting) (w : World),
      ∃ earlier last, b.Performed time s w earlier last (b.perform time s w)) ∧
    ∀ (time : Moment) (transition : Hour → Act Failure Hour) (s : Setting) (w : World) (t : Tables),
      w.store = .tables t → t.lease (!s.held.hours.isEmpty) .writing = .ok () →
        (∀ hspares : ∀ h, (transition h).Spares, updateHour time transition s w =
          (Transaction.ofHour time transition hspares t).perform time s w) ∧
        (∀ v, t.hours.rows.get? time.second = none →
          s.window.newHour .notAvailable time s.now = .refused v →
            updateHour time transition s w = (.refused (.rule v), w)) ∧
        ∀ p h f w₁ w₂, rowForUpdate time t 1 s w = (.done p, w₁) → p.2.decode = .ok h →
          (transition h).holding (Held.withHour time.second) s w₁ = (.refused f, w₂) →
            updateHour time transition s w = (.refused f, w₂) := by
  refine ⟨fun _ b time s w => b.performed time s w, fun time transition s w t hw hlease => ?_⟩
  refine ⟨fun _ => updateHour_eq_retrying hw hlease, fun v hnone hnew => ?_,
    fun p h f w₁ w₂ hrow hdecode hturned => ?_⟩
  · exact updateHour_rejected hw hlease (updateHourOnce_window hnone hnew)
  · exact updateHour_rejected hw hlease (updateHourOnce_transition hrow hdecode hturned)

section samples

open Sample Desk.Command

/-- A rejection that reads like a deadlock. -/
def ruledOut : Failure := .storage (.deadlock "not on a holiday")

/-- Noon is ruled out once, where each save would lose a deadlock, and the window rules out the present
hour. -/
theorem tries_bounded_noon :
    let s := Setting.outer newYear .standard .bare
    let t := annsTables .trainingScheduled [⟨.calendar, .update, some "deadlock"⟩]
    let w := world (.tables t)
    let rejecting : Hour → Act Failure Hour := fun _ => Act.refuse ruledOut
    t.lease (!s.held.hours.isEmpty) .writing = .ok () ∧ ruledOut.retryable = true ∧
      updateHour noonTime rejecting s w = (.refused ruledOut, w) ∧
      (∃ v, updateHour newYear rejecting s w = (.refused (.rule v), w)) ∧
      ∃ earlier last, (Transaction.ofHour noonTime rejecting (fun _ _ _ => rfl) t).Performed noonTime
        s w earlier last ((Transaction.ofHour noonTime rejecting (fun _ _ _ => rfl) t).perform
          noonTime s w) := by
  intro s t w rejecting
  have hlease : t.lease (!s.held.hours.isEmpty) .writing = .ok () := by decide +kernel
  obtain ⟨hbounded, hhours⟩ := tries_bounded
  obtain ⟨-, -, hturned⟩ := hhours noonTime rejecting s w t rfl hlease
  obtain ⟨-, hwindow, -⟩ := hhours newYear rejecting s w t rfl hlease
  have hrow : rowForUpdate noonTime t 1 s w =
      (.done (t.hours, ⟨1, noonTime.second, Availability.trainingScheduled.label⟩), w) := rfl
  have hdecode : HourRow.decode ⟨1, noonTime.second, Availability.trainingScheduled.label⟩ =
      .ok ⟨noonTime, .trainingScheduled⟩ := by decide +kernel
  have hnew : s.window.newHour .notAvailable newYear s.now = .refused (.pastHour newYear) := by
    decide +kernel
  exact ⟨hlease, rfl, hturned _ _ _ _ _ hrow hdecode rfl, ⟨_, hwindow _ rfl hnew⟩,
    hbounded Hour _ noonTime s w⟩

end samples

end Repository

end TrainerBooking
