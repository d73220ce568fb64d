import TrainerBooking.Proofs.Layers
import TrainerBooking.Repository.Hours

/-! # Reports of the database engine

What an engine reports becomes a fault of the database, a fault of the storage, a failure, a refusal
and an answer over HTTP.  Here the way from the report to the answer is taken at once.

* **Wording.** A report of a kind that is not sorted by itself is sorted by its wording, and a lock
  that was not free (`DatabaseFault.TellsOfLock`) wins over a deadlock
  (`DatabaseFault.TellsOfDeadlock`).
* **Passing.** `EngineReport.Passing` lists the reports after which a repetition can help.  A client
  is advised to try again after these and no others.
* **Deadlocks** are the only faults after which the update of an hour is tried again; each of them is
  passing, and none of them is a lock that was not free.

The main statement is `EngineReport.told_by_report`. -/

namespace TrainerBooking

theorem Text.occursIn_iff {part whole : List Char} :
    Text.occursIn part whole = true ↔ part <:+: whole := by
  induction whole with
  | nil => simp [Text.occursIn]
  | cons c rest ih =>
      rw [Text.occursIn, Bool.or_eq_true, List.isPrefixOf_iff_prefix, ih, List.infix_cons_iff]

/-! ### Wording -/

namespace DatabaseFault

/-- One of the phrases stands in the wording. -/
def Says (phrases : List String) (wording : String) : Prop :=
  ∃ phrase ∈ phrases, phrase.toList <:+: wording.toList

theorem mentions_iff {phrases : List String} {wording : String} :
    mentions phrases wording = true ↔ Says phrases wording := by
  simp only [mentions, List.any_eq_true, Text.occursIn_iff, Says]

instance (phrases : List String) (wording : String) : Decidable (Says phrases wording) :=
  decidable_of_iff _ mentions_iff

/-- The wording tells of a lock that was not free in time. -/
def TellsOfLock : String → Prop :=
  Says ["database is locked", "database table is locked", "Lock wait timeout"]

/-- The wording tells of a deadlock. -/
def TellsOfDeadlock : String → Prop := Says ["Deadlock found", "deadlock"]

instance : DecidablePred TellsOfLock := inferInstanceAs (DecidablePred (Says _))

instance : DecidablePred TellsOfDeadlock := inferInstanceAs (DecidablePred (Says _))

variable {wording : String}

theorem mentions_lock_iff : mentions lockPhrases wording = true ↔ TellsOfLock wording :=
  mentions_iff

theorem mentions_deadlock_iff : mentions deadlockPhrases wording = true ↔ TellsOfDeadlock wording :=
  mentions_iff

/-- A lock that was not free wins, also over a deadlock. -/
theorem ofWording_of_lock (h : TellsOfLock wording) :
    ofWording wording = .lockTimeout wording := if_pos (mentions_lock_iff.mpr h)

theorem ofWording_of_deadlock (hlock : ¬ TellsOfLock wording)
    (h : TellsOfDeadlock wording) : ofWording wording = .deadlock wording := by
  rw [ofWording, if_neg (mt mentions_lock_iff.mp hlock), if_pos (mentions_deadlock_iff.mpr h)]

theorem ofWording_of_neither (hlock : ¬ TellsOfLock wording)
    (h : ¬ TellsOfDeadlock wording) : ofWording wording = .queryFailed wording := by
  rw [ofWording, if_neg (mt mentions_lock_iff.mp hlock), if_neg (mt mentions_deadlock_iff.mp h)]

/-- The three ways in which a wording can be sorted. -/
theorem ofWording_cases (wording : String) :
    (TellsOfLock wording ∧ ofWording wording = .lockTimeout wording) ∨
    (¬ TellsOfLock wording ∧ TellsOfDeadlock wording ∧
      ofWording wording = .deadlock wording) ∨
    (¬ TellsOfLock wording ∧ ¬ TellsOfDeadlock wording ∧
      ofWording wording = .queryFailed wording) := by
  by_cases hlock : TellsOfLock wording
  · exact .inl ⟨hlock, ofWording_of_lock hlock⟩
  by_cases hdead : TellsOfDeadlock wording
  · exact .inr (.inl ⟨hlock, hdead, ofWording_of_deadlock hlock hdead⟩)
  · exact .inr (.inr ⟨hlock, hdead, ofWording_of_neither hlock hdead⟩)

/-- A fault after which a transaction is tried again is worth a repetition to its caller, too, and it
is no lock that was not free. -/
theorem passes_of_isDeadlock {f : DatabaseFault} (h : f.isDeadlock = true) :
    f.toFailure.retryable = true ∧ ∀ detail, f ≠ .lockTimeout detail := by
  refine ⟨retryable_of_isDeadlock h, ?_⟩
  rintro detail rfl
  cases h

end DatabaseFault

/-- A rejection is never tried again, whatever it says; a fault is, if it is a deadlock. -/
theorem Repository.Rollback.deadlock?_eq_some_iff {cause : Rollback} {f : DatabaseFault} :
    cause.deadlock? = some f ↔ cause = .fault f ∧ f.isDeadlock = true := by
  cases cause with
  | rejected failure => simp [deadlock?]
  | fault g =>
      rw [deadlock?, Option.ite_none_right_eq_some, Option.some_inj, fault.injEq]
      constructor
      · rintro ⟨hdead, rfl⟩
        exact ⟨rfl, hdead⟩
      · rintro ⟨rfl, hdead⟩
        exact ⟨hdead, rfl⟩

/-! ### Sorted reports -/

/-- Is a report of this kind sorted by its wording? -/
def ReportKind.isWorded : ReportKind → Bool
  | readOnlyTransaction | restrictViolation | exclusionViolation | unknown => true
  | uniqueViolation | foreignKeyViolation | unableToSendCommand | serializationFailure
  | notNullViolation | checkViolation | closedConnection => false

namespace EngineReport

open DatabaseFault

/-- What the engine says. -/
def wording : EngineReport → String
  | noRow => "Record not found"
  | refused _ wording | unreachable wording | other wording => wording

/-- A repetition can help: the database could not be reached, or the statement was in the way of
another one. -/
def Passing : EngineReport → Prop
  | unreachable _ => True
  | refused kind wording =>
    kind = .serializationFailure ∨ kind = .closedConnection ∨ kind = .unableToSendCommand ∨
      (kind.isWorded = true ∧ (TellsOfLock wording ∨ TellsOfDeadlock wording))
  | noRow | other _ => False

/-- The row would be there twice. -/
def Duplicate : EngineReport → Prop
  | refused kind _ => kind = .uniqueViolation
  | noRow | unreachable _ | other _ => False

/-- The row would break another constraint of its table. -/
def Unsound : EngineReport → Prop
  | refused kind _ =>
    kind = .foreignKeyViolation ∨ kind = .checkViolation ∨ kind = .notNullViolation
  | noRow | unreachable _ | other _ => False

/-- A lock was not free in time. -/
def Locked : EngineReport → Prop
  | refused kind wording => kind.isWorded = true ∧ TellsOfLock wording
  | noRow | unreachable _ | other _ => False

/-- The transaction was the victim of a deadlock. -/
def Deadlocked : EngineReport → Prop
  | refused kind wording =>
    kind = .serializationFailure ∨
      (kind.isWorded = true ∧ TellsOfDeadlock wording ∧ ¬ TellsOfLock wording)
  | noRow | unreachable _ | other _ => False

/-- The failure to which the report leads. -/
def failure (r : EngineReport) : Failure := (ofReport r).toFailure

/-- How a failure is classed by the report from which it comes. -/
structure Classed (r : EngineReport) (f : Failure) : Prop where
  retryable : f.retryable = true ↔ r.Passing
  conflict : f.kind = .conflict ↔ r.Duplicate
  validation : f.kind = .validation ↔ r.Unsound
  infrastructure : f.kind = .infrastructure ↔ ¬ r.Duplicate ∧ ¬ r.Unsound

theorem ofReport_worded {kind : ReportKind} (h : kind.isWorded = true) (wording : String) :
    ofReport (.refused kind wording) = ofWording wording := by
  cases kind <;> first | rfl | cases h

/-- A worded report is of none of the kinds that are sorted by themselves, so its wording decides. -/
theorem classed_of_worded {kind : ReportKind} (h : kind.isWorded = true) (wording : String) :
    (refused kind wording).Classed (failure (.refused kind wording)) := by
  have hnot : ∀ other : ReportKind, other.isWorded = false → kind ≠ other := by
    rintro other hother rfl
    rw [h] at hother
    cases hother
  have hpassing : (refused kind wording).Passing ↔
      TellsOfLock wording ∨ TellsOfDeadlock wording := by
    simp [Passing, h, hnot .serializationFailure rfl, hnot .closedConnection rfl,
      hnot .unableToSendCommand rfl]
  have hduplicate : ¬ (refused kind wording).Duplicate := hnot .uniqueViolation rfl
  have hunsound : ¬ (refused kind wording).Unsound := by
    simp [Unsound, hnot .foreignKeyViolation rfl, hnot .checkViolation rfl,
      hnot .notNullViolation rfl]
  obtain ⟨hkind, hretryable⟩ : (ofWording wording).toFailure.kind = .infrastructure ∧
      ((ofWording wording).toFailure.retryable = true ↔
        TellsOfLock wording ∨ TellsOfDeadlock wording) := by
    obtain ⟨hlock, heq⟩ | ⟨hlock, hdead, heq⟩ | ⟨hlock, hdead, heq⟩ := ofWording_cases wording
    · rw [heq]
      exact ⟨rfl, fun _ => .inl hlock, fun _ => rfl⟩
    · rw [heq]
      exact ⟨rfl, fun _ => .inr hdead, fun _ => rfl⟩
    · rw [heq]
      exact ⟨rfl, nofun, fun hspoken => (hspoken.elim hlock hdead).elim⟩
  rw [failure, ofReport_worded h]
  exact ⟨hretryable.trans hpassing.symm, by simp [hkind, hduplicate], by simp [hkind, hunsound],
    by simp [hkind, hduplicate, hunsound]⟩

theorem classed (r : EngineReport) : r.Classed r.failure := by
  cases r with
  | refused kind wording =>
      cases hworded : kind.isWorded with
      | true => exact classed_of_worded hworded wording
      | false =>
          constructor <;> cases kind <;>
            simp_all [failure, ofReport, toFailure, toStorage, Failure.kind, Failure.retryable,
              StorageFault.kind, StorageFault.retryable, ReportKind.isWorded, Passing, Duplicate,
              Unsound]
  | _ =>
      constructor <;>
        simp [failure, ofReport, toFailure, toStorage, Failure.kind, Failure.retryable,
          StorageFault.kind, StorageFault.retryable, Passing, Duplicate, Unsound]

/-- Deadlocks are the serialization failures, and the worded reports that say so and say nothing of a
lock. -/
theorem isDeadlock_ofReport (r : EngineReport) :
    (ofReport r).isDeadlock = true ↔ r.Deadlocked := by
  cases r with
  | refused kind wording =>
      cases hworded : kind.isWorded with
      | true =>
          have hkind : kind ≠ .serializationFailure := by
            rintro rfl
            cases hworded
          rw [ofReport_worded hworded]
          obtain ⟨hlock, heq⟩ | ⟨hlock, hdead, heq⟩ | ⟨hlock, hdead, heq⟩ := ofWording_cases wording
          · simp [heq, isDeadlock, Deadlocked, hkind, hlock]
          · simp [heq, isDeadlock, Deadlocked, hworded, hlock, hdead]
          · simp [heq, isDeadlock, Deadlocked, hkind, hdead]
      | false => cases kind <;> simp_all [ofReport, isDeadlock, Deadlocked, ReportKind.isWorded]
  | _ => simp [ofReport, isDeadlock, Deadlocked]

theorem lockTimeout_ofReport (r : EngineReport) :
    (∃ detail, ofReport r = .lockTimeout detail) ↔ r.Locked := by
  cases r with
  | refused kind wording =>
      cases hworded : kind.isWorded with
      | true =>
          rw [ofReport_worded hworded]
          obtain ⟨hlock, heq⟩ | ⟨hlock, hdead, heq⟩ | ⟨hlock, hdead, heq⟩ := ofWording_cases wording
          all_goals simp [heq, Locked, hworded, hlock]
      | false => cases kind <;> simp_all [ofReport, Locked, ReportKind.isWorded]
  | _ => simp [ofReport, Locked]

/-- What the engine says comes through to the failure. -/
theorem message_failure (r : EngineReport) : ∃ lead, r.failure.message = lead ++ r.wording := by
  cases r with
  | noRow => exact ⟨"Query failed: " ++ "Not found: ", (String.append_assoc ..).symm⟩
  | unreachable wording => exact ⟨"Connection failed: ", rfl⟩
  | other wording => exact ⟨"Query failed: " ++ "Query failed: ", (String.append_assoc ..).symm⟩
  | refused kind wording =>
      cases hworded : kind.isWorded with
      | true =>
          rw [failure, ofReport_worded hworded]
          obtain ⟨-, heq⟩ | ⟨-, -, heq⟩ | ⟨-, -, heq⟩ := ofWording_cases wording
          · exact ⟨"Lock wait timeout: ", by rw [heq]; rfl⟩
          · exact ⟨"Deadlock or serialization failure: ", by rw [heq]; rfl⟩
          · exact ⟨"Query failed: " ++ "Query failed: ",
              by rw [heq]; exact (String.append_assoc ..).symm⟩
      | false =>
          cases kind <;> first
            | exact ⟨"Unique constraint violated: ", rfl⟩
            | exact ⟨"Foreign key constraint violated: ", rfl⟩
            | exact ⟨"Check constraint violated: ", rfl⟩
            | exact ⟨"Deadlock or serialization failure: ", rfl⟩
            | exact ⟨"Connection failed: ", rfl⟩
            | cases hworded

/-! ### What a client is told of a report -/

/-- What becomes of a report: the fault into which it is sorted, the failure that the operation sees,
and the refusal and the answer that a client gets. -/
structure Told (r : EngineReport) (f : DatabaseFault) (refusal : Refusal) (answer : Web.Answer) :
    Prop where
  /-- The operation may be repeated exactly where this can help. -/
  retryable : f.toFailure.retryable = true ↔ r.Passing
  /-- The client is advised to try again exactly where this can help. -/
  advised : refusal.retryable = true ↔ r.Passing
  /-- Then the service is unavailable, and at no other time. -/
  unavailable : answer.status = 503 ↔ r.Passing
  /-- A row that would be there twice is a conflict. -/
  conflict : answer.status = 409 ↔ r.Duplicate
  /-- A row that would break another constraint is a bad request. -/
  badRequest : answer.status = 400 ↔ r.Unsound
  /-- Everything else is the fault of the server. -/
  failed : answer.status = 500 ↔ ¬ r.Passing ∧ ¬ r.Duplicate ∧ ¬ r.Unsound
  /-- A lock was not free if the wording says so, whatever else it says. -/
  locked : (∃ detail, f = .lockTimeout detail) ↔ r.Locked
  /-- A deadlock is one by its kind, or by a wording that says nothing of a lock. -/
  deadlocked : f.isDeadlock = true ↔ r.Deadlocked
  /-- What the engine says ends the message of the failure. -/
  message : ∃ lead, f.toFailure.message = lead ++ r.wording

theorem told (r : EngineReport) :
    r.Told (ofReport r) (Refusal.ofFailure r.failure)
      (Web.Answer.refused (Refusal.ofFailure r.failure)) := by
  have hclassed := r.classed
  have hadvice : (Refusal.ofFailure r.failure).retryable = r.failure.retryable :=
    Refusal.retryable_ofFailure r.failure
  have hstatus : (Web.Answer.refused (Refusal.ofFailure r.failure)).status =
      r.failure.kind.status r.failure.retryable := Refusal.status_ofFailure r.failure
  obtain ⟨hunavailable, hfailed, hbad, hconflict, -⟩ :=
    FailureKind.status_tells r.failure.kind r.failure.retryable Failure.kind_of_retryable
  constructor
  case retryable => exact hclassed.retryable
  case advised => rw [hadvice, hclassed.retryable]
  case unavailable => rw [hstatus, hunavailable, hclassed.retryable]
  case conflict => rw [hstatus, hconflict, hclassed.conflict]
  case badRequest => rw [hstatus, hbad, hclassed.validation]
  case failed =>
    rw [hstatus, hfailed, hclassed.infrastructure, ← Bool.not_eq_true, hclassed.retryable]
    exact and_comm
  case locked => exact lockTimeout_ofReport r
  case deadlocked => exact isDeadlock_ofReport r
  case message => exact message_failure r

/-- **A client is advised to try again exactly where this can help**, whatever the engine reports: the
report alone decides the status of the answer, and its wording comes through to the failure.  A wording
that speaks of a lock and of a deadlock is taken for a lock that was not free.  A deadlock, after which
alone a transaction is tried again, is worth a repetition to the caller, too. -/
theorem told_by_report (r : EngineReport) :
    r.Told (ofReport r) (Refusal.ofFailure (ofReport r).toFailure)
        (Web.Answer.refused (Refusal.ofFailure (ofReport r).toFailure)) ∧
      (∀ kind wording, kind.isWorded = true → TellsOfLock wording →
        TellsOfDeadlock wording → ofReport (.refused kind wording) = .lockTimeout wording) ∧
      (∀ f : DatabaseFault, f.isDeadlock = true →
        f.toFailure.retryable = true ∧ ∀ detail, f ≠ .lockTimeout detail) ∧
      ∀ (cause : Repository.Rollback) (f : DatabaseFault),
        cause.deadlock? = some f ↔ cause = .fault f ∧ f.isDeadlock = true := by
  refine ⟨r.told, fun kind wording hkind hlock _ => ?_, fun _ => passes_of_isDeadlock,
    fun _ _ => Repository.Rollback.deadlock?_eq_some_iff⟩
  rw [ofReport_worded hkind, ofWording_of_lock hlock]

/-- A report that says both is taken for a lock, and its client is told to try again. -/
theorem told_by_report_of_both :
    let wording := "database is locked (deadlock avoided)"
    let r := refused .unknown wording
    let answer := Web.Answer.refused (Refusal.ofFailure (ofReport r).toFailure)
    ReportKind.unknown.isWorded = true ∧ TellsOfLock wording ∧ TellsOfDeadlock wording ∧
      (deadlock wording).isDeadlock = true ∧ r.Passing ∧
      answer.status = 503 ∧ ofReport r = .lockTimeout wording ∧
      (deadlock wording).toFailure.retryable = true := by
  intro wording r answer
  have hlock : TellsOfLock wording := by decide +kernel
  have hdead : TellsOfDeadlock wording := by decide +kernel
  have hpassing : r.Passing := .inr (.inr (.inr ⟨rfl, .inl hlock⟩))
  obtain ⟨htold, hboth, hretry, -⟩ := told_by_report r
  exact ⟨rfl, hlock, hdead, rfl, hpassing, htold.unavailable.mpr hpassing,
    hboth .unknown wording rfl hlock hdead, (hretry _ rfl).1⟩

end EngineReport

end TrainerBooking
