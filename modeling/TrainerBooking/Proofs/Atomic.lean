import TrainerBooking.Proofs.Contents

/-! # All or nothing

A single operation of a store has its whole effect or none (`Act.Atomic`), whatever the state of the
store is and however the operation ends.

* **Statements.** A trap decides first, so a statement is carried out, or passed over, or refused
  (`Tables.change_cases`), and each kind of statement says what it makes of the three.
* **Hours.** The update of an hour may insert a row before it changes one, and may be run again.  Its
  transaction writes the table at the end only, so a refusal takes the new row back. -/

namespace TrainerBooking

/-- The effect was taken, or nothing was, when an act that has no other effect ends so. -/
inductive Effect.Tried {α : Type} (c : Contents) (e : Effect) :
    Ending Failure α → Contents → Prop
  | taken {a : α} {c' : Contents} (h : e.Takes c c') : Tried c e (.done a) c'
  | refused {f : Failure} (hf : f.operations = []) : Tried c e (.refused f) c
  | crashed : Tried c e .crashed c

/-- From the contents `c` the act has the whole effect if it is done, and none otherwise. -/
def Act.Atomic {α : Type} (act : Act Failure α) (s : Setting) (c : Contents) (e : Effect) : Prop :=
  ∀ w : World, w.store.contents = c → e.Tried c (act s w).1 (act s w).2.store.contents

/-- Does the trap make a statement lose a deadlock? -/
def Trap.deadlocks (trap : Trap) : Bool :=
  match trap.wording with
  | some wording => (DatabaseFault.ofReport (.refused .unknown wording)).isDeadlock
  | none => false

/-- Does the failure tell of a lost deadlock, and of nothing around it? -/
def Failure.isDeadlock : Failure → Bool
  | storage (.deadlock _) => true
  | _ => false

theorem DatabaseFault.isDeadlock_toFailure (f : DatabaseFault) :
    f.toFailure.isDeadlock = f.isDeadlock := by
  cases f <;> rfl

namespace Tables

/-- A statement with a trap has no effect, whatever it was to be. -/
theorem change_of_trap {t : Tables} (σ : Type) {d : Database} {st : Statement} {trap : Trap}
    (htrap : t.trap? d st = some trap) :
    (∃ f, f.isDeadlock = trap.deadlocks ∧
      ∀ (before : σ) effect, t.change d st before effect = .error f) ∨
    (trap.deadlocks = false ∧
      ∀ (before : σ) effect, t.change d st before effect = .ok (before, false)) := by
  obtain ⟨d', st', wording⟩ := trap
  unfold change
  rw [htrap]
  cases wording with
  | some wording => exact .inl ⟨_, rfl, fun _ _ => rfl⟩
  | none => exact .inr ⟨rfl, fun _ _ => rfl⟩

/-- A statement has its effect, is passed over, or is refused, and the trap says which. -/
theorem change_cases {σ : Type} (t : Tables) (d : Database) (st : Statement) (before : σ)
    (effect : Except DatabaseFault σ) :
    (t.trap? d st = none ∧ t.change d st before effect = effect.map fun after => (after, true)) ∨
    (∃ trap, t.trap? d st = some trap ∧ trap.wording = none ∧
      t.change d st before effect = .ok (before, false)) ∨
    (∃ trap f, t.trap? d st = some trap ∧ f.isDeadlock = trap.deadlocks ∧
      t.change d st before effect = .error f) := by
  unfold change
  rcases htrap : t.trap? d st with _ | ⟨d', st', _ | wording⟩
  · exact .inl ⟨rfl, rfl⟩
  · exact .inr (.inl ⟨_, rfl, rfl, rfl⟩)
  · exact .inr (.inr ⟨_, _, rfl, rfl, rfl⟩)

/-- An insertion of a training adds the row, or is passed over, or is refused. -/
theorem insertTraining_cases (tb : Tables) (t : Training) :
    (tb.trap? .trainings .insert = none ∧ tb.trainings.contains t.id = false ∧
      tb.insertTraining (TrainingRow.encode t) =
        .ok (tb.trainings.put t.id (TrainingRow.encode t), true)) ∨
    (∃ trap, tb.trap? .trainings .insert = some trap ∧ trap.wording = none ∧
      tb.insertTraining (TrainingRow.encode t) = .ok (tb.trainings, false)) ∨
    (∃ f, tb.insertTraining (TrainingRow.encode t) = .error f) := by
  have heq : tb.insertTraining (TrainingRow.encode t) =
      tb.change .trainings .insert tb.trainings (if tb.trainings.contains t.id then
        .error (.uniqueViolation "UNIQUE constraint failed: trainings.training_id")
        else .ok (tb.trainings.put t.id (TrainingRow.encode t))) := by
    rw [insertTraining, TrainingRow.isSound_encode]
    rfl
  rw [heq]
  obtain ⟨htrap, h⟩ | ⟨trap, htrap, hsilent, h⟩ | ⟨trap, f, htrap, -, h⟩ :=
    tb.change_cases .trainings .insert tb.trainings _
  · rw [h]
    cases tb.trainings.contains t.id with
    | true => exact .inr (.inr ⟨_, rfl⟩)
    | false => exact .inl ⟨htrap, rfl, rfl⟩
  · exact .inr (.inl ⟨trap, htrap, hsilent, h⟩)
  · exact .inr (.inr ⟨f, h⟩)

theorem saveTraining_of_trap {tb : Tables} {trap : Trap}
    (htrap : tb.trap? .trainings .update = some trap) {t : Training} {old : TrainingRow}
    (hold : tb.trainings.get? t.id = some old) :
    ∃ f, tb.saveTraining (TrainingRow.encode t) = .error f := by
  rw [saveTraining, TrainingRow.id_encode, hold]
  dsimp only
  obtain ⟨f, -, h⟩ | ⟨-, h⟩ := change_of_trap (Registry String TrainingRow) htrap
  · exact ⟨f, by rw [h]⟩
  · exact ⟨.notFound _, by rw [h]⟩

/-- A save of a training writes its whole row, unless a trap is set. -/
theorem saveTraining_cases {tb : Tables} {t : Training} {old : TrainingRow}
    (hold : tb.trainings.get? t.id = some old) (hid : old.id = t.id) (howner : old.owner = t.owner)
    (hname : old.ownerName = t.ownerName) :
    tb.saveTraining (TrainingRow.encode t) =
        .ok (tb.trainings.put t.id (TrainingRow.encode t)) ∨
      (tb.trap? .trainings .update ≠ none ∧
        ∃ f, tb.saveTraining (TrainingRow.encode t) = .error f) := by
  cases htrap : tb.trap? .trainings .update with
  | none =>
      left
      rw [saveTraining_of_no_trap htrap hold, TrainingRow.rewritten_eq hid howner hname]
  | some trap => exact .inr ⟨Option.some_ne_none trap, saveTraining_of_trap htrap hold⟩

/-- A sum is written, or the table stays as it is. -/
theorem changeBalance_cases (t : Tables) (id : String) (amount : Int) :
    (∃ row, t.accounts.get? id = some row ∧ ¬ Column.sum row.balance amount < 0 ∧
      t.changeBalance id amount =
        .ok (t.accounts.put id { row with balance := Column.sum row.balance amount }, true)) ∨
    t.changeBalance id amount = .ok (t.accounts, false) ∨
    (∃ f, t.changeBalance id amount = .error f) := by
  unfold changeBalance
  cases hg : t.accounts.get? id with
  | none => exact .inr (.inl rfl)
  | some row =>
      by_cases hneg : Column.sum row.balance amount < 0
      · exact .inr (.inl (if_pos hneg))
      simp only [if_neg hneg]
      obtain ⟨-, h⟩ | ⟨trap, -, -, h⟩ | ⟨trap, f, -, -, h⟩ :=
        t.change_cases .accounts .update t.accounts
          (.ok (t.accounts.put id { row with balance := Column.sum row.balance amount }))
      · exact .inl ⟨row, rfl, hneg, h⟩
      · exact .inr (.inl h)
      · exact .inr (.inr ⟨f, h⟩)

end Tables

namespace Act.Atomic

variable {s : Setting} {c : Contents}

/-- Storing a new training. -/
theorem addTraining {t : Training} (hs : s.held.trainings = []) :
    (Repository.addTraining t).Atomic s c (.add t) := by
  intro w hw
  subst hw
  cases hst : w.store with
  | memory m =>
      cases hg : m.trainings.get? t.id with
      | some t' =>
          simpa [Repository.addTraining, bind_run, hst, Memory.addTraining_taken hg, mapCause_run,
            Act.ofExcept, Ending.ofExcept, Ending.mapCause] using .refused rfl
      | none =>
          have hnew : (Store.memory m).contents.hasTraining t.id = false := by
            rw [Store.contents, Contents.hasTraining, Registry.contains, hg]
            rfl
          have hrun : Repository.addTraining t s w =
              (.done (), { w with store := .memory (m.fileTraining t.id t) }) := by
            simp [Repository.addTraining, bind_run, hst, Memory.addTraining_free hg, mapCause_run,
              Act.ofExcept, Ending.ofExcept, Ending.mapCause, setStore]
          rw [hrun]
          exact .taken (.added rfl hnew)
  | tables tb =>
      obtain ⟨htrap, hnew, hi⟩ | ⟨trap, htrap, hsilent, hi⟩ | ⟨f, hi⟩ := tb.insertTraining_cases t
      · have htaken := Effect.Tried.taken (a := ()) (Effect.Takes.added (t := t)
          (c := .tables tb) htrap hnew)
        simpa [Repository.addTraining, bind_run, hs, hst, hi, changeTables, Act.note,
          Store.contents, Contents.fileTraining] using htaken
      · have htaken := Effect.Tried.taken (a := ()) (Effect.Takes.passedOver (t := t)
          (c := .tables tb) htrap hsilent)
        simpa [Repository.addTraining, bind_run, hs, hst, hi, changeTables, Act.note,
          Store.contents, Contents.fileTraining] using htaken
      · simpa [Repository.addTraining, bind_run, hs, hst, hi] using .refused rfl

/-- Adding an amount to a balance. -/
theorem changeBalance {id : String} {amount : Int} (hamount : Column.fits amount = true)
    (hfits : (Effect.credit id amount).Fits c) :
    (Repository.changeBalance id amount).Atomic s c (.credit id amount) := by
  intro w hw
  subst hw
  cases hst : w.store with
  | memory m =>
      cases hg : m.accounts.get? id with
      | none => simpa [Repository.changeBalance, bind_run, hst, hg] using .refused rfl
      | some a =>
          by_cases hr : 0 ≤ a.balance + amount ∧ a.balance + amount ≤ Account.greatestBalance
          · have hrun : Repository.changeBalance id amount s w = (.done (a.balance + amount),
                { w with store :=
                    .memory (m.fileAccount id { a with balance := a.balance + amount }) }) := by
              simp [Repository.changeBalance, bind_run, hst, hg, Account.change, hr, Act.ofRule,
                mapCause_run, Act.ofExcept, Ending.ofExcept, Ending.mapCause, setStore]
            have hold : (Store.memory m).contents.balance? id = some a.balance := by
              rw [Store.contents, Contents.balance?, hg, Option.map_some]
            have htaken := Effect.Takes.credited hold hr.1
            rw [Store.contents, Contents.setBalance, Registry.adjust_eq hg] at htaken
            rw [hrun]
            exact .taken htaken
          · simpa [Repository.changeBalance, bind_run, hst, hg, Account.change, hr, Act.ofRule,
              mapCause_run, Act.ofExcept, Ending.ofExcept, Ending.mapCause] using .refused rfl
  | tables t =>
      rw [hst] at hfits
      obtain ⟨row, hg, hneg, h⟩ | h | ⟨f, h⟩ := t.changeBalance_cases id amount
      · have hold : (Contents.tables t).balance? id = some row.balance := by
          rw [Contents.balance?, hg, Option.map_some]
        obtain ⟨hb, hsum⟩ := hfits _ hold
        rw [Column.sum_of_fits hb hamount hsum] at h hneg
        have htaken := Effect.Takes.credited hold (not_lt.mp hneg)
        rw [Contents.setBalance, Registry.adjust_eq hg] at htaken
        have hdone := Effect.Tried.taken (a := Column.read (row.balance + amount)) htaken
        simpa [Repository.changeBalance, bind_run, hst, h, changeTables, Tables.account?,
          Store.contents] using hdone
      · cases hg : t.accounts.get? id with
        | none =>
            simpa [Repository.changeBalance, bind_run, hst, h, changeTables, Tables.account?, hg]
              using .refused rfl
        | some row =>
            simpa [Repository.changeBalance, bind_run, hst, h, changeTables, Tables.account?, hg]
              using .refused rfl
      · simpa [Repository.changeBalance, bind_run, hst, h] using .refused rfl

end Act.Atomic

/-! ### Steps of an hour -/

/-- A row that can be decoded tells a known availability. -/
theorem HourRow.ofLabel?_of_decode {r : HourRow} {h : Hour} (hd : r.decode = .ok h) :
    Availability.ofLabel? r.availability = some h.availability := by
  unfold HourRow.decode Row.decodeAvailability Availability.parse at hd
  cases hs : Row.decodeSecond r.second with
  | error f => rw [hs] at hd; cases hd
  | ok time =>
      rw [hs] at hd
      cases ha : Availability.ofLabel? r.availability with
      | none => rw [ha] at hd; cases hd
      | some a => rw [ha] at hd; cases hd; rfl

/-- A row that can be decoded tells whose training it is. -/
theorem TrainingRow.eq_of_decode {r : TrainingRow} {t : Training} (hd : r.decode = .ok t) :
    r.id = t.id ∧ r.owner = t.owner ∧ r.ownerName = t.ownerName := by
  unfold TrainingRow.decode at hd
  cases hp : r.decodeProposal with
  | error f => rw [hp] at hd; cases hd
  | ok proposal =>
      rw [hp] at hd
      cases hs : Row.decodeSecond r.second with
      | error f => rw [hs] at hd; cases hd
      | ok time => rw [hs] at hd; cases hd; exact ⟨rfl, rfl, rfl⟩

theorem Store.eq_tables_of_contents {st : Store} {t : Tables} (h : st.contents = .tables t) :
    st = .tables t := by
  cases st with
  | memory m => cases h
  | tables t' => cases h; rfl

/-- A rule refuses without an annotation. -/
theorem Ending.operations_of_rule {α : Type} {e : Ending Violation α} {f : Failure}
    (h : e.mapCause Failure.rule = .refused f) : f.operations = [] := by
  cases e <;> cases h
  rfl

theorem Books.stepHour_operations {b : Books} {time : Moment} {step : HourStep} {s : Setting}
    {f : Failure} (h : (b.stepHour time step s).1 = .refused f) : f.operations = [] := by
  have hstart : ∀ f, b.startHour time s = .refused f → f.operations = [] := by
    intro f hf
    unfold startHour at hf
    cases hold : b.hours time.second with
    | some hour => rw [hold] at hf; cases hf
    | none =>
        rw [hold] at hf
        cases hn : (s.window.newHour .notAvailable time s.now).mapCause Failure.rule with
        | done hour => rw [hn] at hf; cases hf
        | crashed => rw [hn] at hf; cases hf
        | refused f' => rw [hn] at hf; cases hf; exact Ending.operations_of_rule hn
  unfold stepHour updateHour at h
  cases hb : b.startHour time s with
  | refused f' => rw [hb] at h; cases h; exact hstart f hb
  | crashed => rw [hb] at h; cases h
  | done hour =>
      simp only [hb] at h
      cases hs : (Ending.ofExcept (hour.step step)).mapCause Failure.rule with
      | done hour' => rw [hs] at h; cases h
      | crashed => rw [hs] at h; cases h
      | refused f' => rw [hs] at h; cases h; exact Ending.operations_of_rule hs

namespace Memory

variable (second : Int) (m : Memory)

/-- Placeholders are not told. -/
theorem contents_claim : (Store.memory (m.claim second)).contents = (Store.memory m).contents := by
  have hhours : (m.claim second).hour? = m.hour? := funext fun other => hour?_claim second other m
  rw [Store.contents, hhours, trainings_claim, accounts_claim, Store.contents]

theorem contents_release :
    (Store.memory (m.release second)).contents = (Store.memory m).contents := by
  have hhours : (m.release second).hour? = m.hour? :=
    funext fun other => hour?_release second other m
  rw [Store.contents, hhours, trainings_release, accounts_release, Store.contents]

theorem contents_file (h : Hour) :
    (Store.memory ((m.claim second).file second h)).contents =
      .memory (Function.update m.hour? second (some h)) m.trainings m.accounts := by
  have hhours : ((m.claim second).file second h).hour? =
      Function.update m.hour? second (some h) := by
    funext other
    rw [hour?_file, hour?_claim, Function.update_apply]
  rw [Store.contents, hhours, file, trainings_claim, accounts_claim]

end Memory

namespace Tables

/-- The row of an hour that has none is added, or passed over, or refused, and the trap says whether
the refusal is a deadlock. -/
theorem insertHour_cases (t : Tables) {table : HourTable} {second : Int} (label : String)
    (hr : table.rows.get? second = none) :
    t.insertHour second label table = .ok (table.append second label, true) ∨
    t.insertHour second label table = .ok (table, false) ∨
    ∃ trap f, t.trap? .calendar .insert = some trap ∧ f.isDeadlock = trap.deadlocks ∧
      t.insertHour second label table = .error f := by
  have hc : table.rows.contains second = false := by
    rw [Registry.contains, hr]
    rfl
  rw [insertHour, hc, if_neg Bool.false_ne_true]
  obtain ⟨-, h⟩ | ⟨trap, -, -, h⟩ | ⟨trap, f, htrap, hdead, h⟩ :=
    t.change_cases .calendar .insert table (.ok (table.append second label))
  · exact .inl h
  · exact .inr (.inl h)
  · exact .inr (.inr ⟨trap, f, htrap, hdead, h⟩)

/-- The row of an hour that was missing has the availability with which it was inserted. -/
theorem availability_of_insertHour {t : Tables} {table table' : HourTable} {second : Int}
    {label : String} {inserted : Bool} (hr : table.rows.get? second = none)
    (hi : t.insertHour second label table = .ok (table', inserted)) {row : HourRow}
    (hrow : table'.rows.get? second = some row) : row.availability = label := by
  obtain h | h | ⟨trap, f, -, -, h⟩ := t.insertHour_cases label hr
  · rw [hi] at h
    cases h
    rw [HourTable.get?_append, if_pos rfl] at hrow
    rw [← Option.some.inj hrow]
  · rw [hi] at h
    cases h
    rw [hr] at hrow
    cases hrow
  · rw [hi] at h
    cases h

theorem exists_trap_of_insertHour {t : Tables} {table : HourTable} {second : Int} {label : String}
    {f : DatabaseFault} (hr : table.rows.get? second = none)
    (hi : t.insertHour second label table = .error f) :
    ∃ trap, t.trap? .calendar .insert = some trap ∧ f.isDeadlock = trap.deadlocks := by
  obtain h | h | ⟨trap, g, htrap, hdead, h⟩ := t.insertHour_cases label hr
  · rw [hi] at h
    cases h
  · rw [hi] at h
    cases h
  · rw [hi] at h
    cases h
    exact ⟨trap, htrap, hdead⟩

theorem updateHour_of_trap {t : Tables} {trap : Trap}
    (htrap : t.trap? .calendar .update = some trap) {rowId : Nat} {table : HourTable}
    (hrow : table.hasRow rowId = true) (label : String) :
    ∃ f, t.updateHour rowId label table = .error f ∧ f.isDeadlock = trap.deadlocks := by
  rw [updateHour, if_pos hrow]
  obtain ⟨f, hf, h⟩ | ⟨hf, h⟩ := change_of_trap HourTable htrap
  · exact ⟨f, by rw [h], hf⟩
  · exact ⟨.notFound _, by rw [h], hf.symm⟩

/-- An update of an hour sets the availability of the row, or it is refused. -/
theorem updateHour_cases (t : Tables) (rowId : Nat) (label : String) (table : HourTable) :
    t.updateHour rowId label table = .ok (table.setAvailability rowId label) ∨
      ∃ f, t.updateHour rowId label table = .error f := by
  by_cases hrow : table.hasRow rowId = true
  · cases htrap : t.trap? .calendar .update with
    | none => exact .inl (updateHour_of_no_trap htrap hrow label)
    | some trap =>
        obtain ⟨f, hlost, -⟩ := updateHour_of_trap htrap hrow label
        exact .inr ⟨f, hlost⟩
  · exact .inr ⟨_, by rw [updateHour, if_neg hrow]⟩

/-- Row numbers are unique, so the statement changes the row of one second only. -/
theorem setAvailability_eq {t : Tables} (ht : (Contents.tables t).Keyed) {second : Int}
    {row : HourRow} (hrow : t.hours.rows.get? second = some row) (a : Availability) :
    (Contents.tables t).setAvailability second a =
      .tables { t with hours := t.hours.setAvailability row.rowId a.label } := by
  have hrows : t.hours.rows.adjust second (fun r => { r with availability := a.label }) =
      (t.hours.setAvailability row.rowId a.label).rows := by
    refine Registry.ext_get? fun other => ?_
    rw [Registry.get?_adjust, HourTable.setAvailability, Registry.get?_map]
    by_cases ho : other = second
    · rw [if_pos ho, ho, hrow, Option.map_some, Option.map_some, if_pos rfl]
    · rw [if_neg ho]
      cases hr : t.hours.rows.get? other with
      | none => rfl
      | some r =>
          have hne : ¬ r.rowId = row.rowId := fun he => ho (ht.2 _ _ _ _ hr hrow he)
          rw [Option.map_some, if_neg hne]
  rw [Contents.setAvailability, hrows]
  rfl

end Tables

namespace Repository

theorem isDeadlock_of_deadlock? {f f' : DatabaseFault}
    (h : (Rollback.fault f).deadlock? = some f') : f.isDeadlock = true := by
  rw [Rollback.deadlock?] at h
  split at h
  · assumption
  · cases h

/-- The row that a try gets for an update is stored, or new and not available; a rejection is no
deadlock, and a fault is one only where the insertion of the row loses it. -/
def GetsRow (time : Moment) (t : Tables) (number : Nat) :
    Ending Rollback (HourTable × HourRow) → Prop
  | .done (table, row) => (table = t.hours ∧ t.hours.rows.get? time.second = some row) ∨
      row.availability = Availability.notAvailable.label
  | .refused cause => cause.toFailure.operations = [] ∧
      (∀ f, cause = .rejected f → f.isDeadlock = false) ∧
      ∀ f, cause = .fault f → f.isDeadlock = true →
        ∃ trap, (t.inTry time.second number).trap? .calendar .insert = some trap ∧
          trap.deadlocks = true
  | .crashed => True

/-- To get a row changes nothing. -/
theorem rowForUpdate_cases (time : Moment) (t : Tables) (number : Nat) (s : Setting) (w : World) :
    (rowForUpdate time t number s w).2.store = w.store ∧
      GetsRow time t number (rowForUpdate time t number s w).1 := by
  cases hr : t.hours.rows.get? time.second with
  | some row =>
      rw [rowForUpdate, hr]
      exact ⟨rfl, .inl ⟨rfl, hr⟩⟩
  | none =>
      rw [rowForUpdate, hr]
      simp only [Act.bind_run, Act.setting_run, BookingWindow.newHour]
      cases s.window.check time s.now with
      | refused v =>
          refine ⟨rfl, rfl, fun f hf => ?_, fun f hf => ?_⟩
          · cases hf
            rfl
          · cases hf
      | crashed => exact ⟨rfl, trivial⟩
      | done u =>
          simp only [Ending.mapValue, Ending.mapCause, Act.ofEnding_run, Act.mapCause_run,
            Act.ofExcept]
          cases hi : (t.inTry time.second number).insertHour time.second
            Availability.notAvailable.label t.hours with
          | error f =>
              obtain ⟨trap, htrap, hdead⟩ := Tables.exists_trap_of_insertHour hr hi
              refine ⟨rfl, rfl, fun f' hf' => ?_, fun f' hf' hlost => ?_⟩
              · cases hf'
              · cases hf'
                exact ⟨trap, htrap, hdead ▸ hlost⟩
          | ok p =>
              obtain ⟨table, inserted⟩ := p
              cases hrow : table.rows.get? time.second with
              | none =>
                  simp [GetsRow, Ending.ofExcept, Act.note, hrow, Rollback.toFailure,
                    DatabaseFault.isDeadlock, DatabaseFault.toFailure, Failure.operations]
              | some row =>
                  simpa [GetsRow, hr, Ending.ofExcept, Act.note, hrow] using
                    Tables.availability_of_insertHour hr hi hrow

/-- Once the row is there, the step decides, and the update of the row. -/
theorem finishUpdate_cases (time : Moment) (step : HourStep) {t : Tables} (number : Nat)
    (table : HourTable) (row : HourRow) (s : Setting) {w : World} (hw : w.store = .tables t) :
    match (finishUpdate time (Desk.stepping step) t number table row s w).1 with
    | .done _ => ∃ h, row.decode = .ok h ∧ h.availability = step.edge.1 ∧
        (finishUpdate time (Desk.stepping step) t number table row s w).2.store =
          .tables { t with hours := table.setAvailability row.rowId step.edge.2.label }
    | .refused cause => cause.toFailure.operations = [] ∧
        (finishUpdate time (Desk.stepping step) t number table row s w).2.store = w.store
    | .crashed => (finishUpdate time (Desk.stepping step) t number table row s w).2.store = w.store := by
  unfold finishUpdate
  cases hd : row.decode with
  | error f => exact ⟨rfl, rfl⟩
  | ok h =>
      cases hs : h.step step with
      | error v =>
          simp [Act.bind_run, Act.mapCause_run, Act.ofExcept, Ending.ofExcept, Ending.mapCause,
            Act.holding, Desk.stepping, Act.ofRule, hs, Rollback.toFailure, Failure.operations]
      | ok h' =>
          obtain ⟨hfrom, rfl⟩ := Hour.step_eq_ok hs
          obtain hu | ⟨f, hu⟩ := (t.inTry time.second number).updateHour_cases row.rowId
            step.edge.2.label table
          · simp [Act.bind_run, Act.mapCause_run, Act.ofExcept, Ending.ofExcept, Ending.mapCause,
              Act.holding, Desk.stepping, Act.ofRule, hs, hu, Act.changeTables, hw, hfrom]
          · simp [Act.bind_run, Act.mapCause_run, Act.ofExcept, Ending.ofExcept, Ending.mapCause,
              Act.holding, Desk.stepping, Act.ofRule, hs, hu, Rollback.toFailure,
              DatabaseFault.toFailure, Failure.operations]

end Repository

namespace Act.Atomic

variable {s : Setting} {c : Contents} {e : Effect}

/-- A transaction that is run again has its effect once, or not at all. -/
theorem retrying {α : Type} (warn : Nat → DatabaseFault → Act Failure Unit)
    {attempt : Nat → Act Repository.Rollback α}
    (hwarn : ∀ n f w, (warn n f s w).1 = .done () ∧ (warn n f s w).2.store = w.store)
    (hattempt : ∀ n, ((attempt n).mapCause Repository.Rollback.toFailure).Atomic s c e)
    (number repetitions : Nat) :
    (Repository.retrying warn attempt number repetitions).Atomic s c e := by
  -- A try that ended in a deadlock has left the contents as they were, so the next one, of which the
  -- induction speaks, begins where it began.
  induction repetitions generalizing number with
  | zero => exact hattempt number
  | succ k ih =>
      intro w hw
      have htry := hattempt number w hw
      rw [mapCause_run] at htry
      simp only [Repository.retrying, bind_run, settle]
      generalize attempt number s w = r at htry
      obtain ⟨end', w'⟩ := r
      cases end' with
      | done a => exact htry
      | crashed => exact htry
      | refused cause =>
          simp only [Ending.mapCause] at htry
          cases hd : cause.deadlock? with
          | none => simpa [hd] using htry
          | some f =>
              obtain ⟨hdone, hstore⟩ := hwarn number f w'
              have hsame : w'.store.contents = c := by
                generalize w'.store.contents = c' at htry
                cases htry
                rfl
              have hrest := ih (number + 1) (warn number f s w').2 (by rw [hstore, hsame])
              have hrun : warn number f s w' = (.done (), (warn number f s w').2) :=
                Prod.ext hdone rfl
              simpa [hd, bind_run_done hrun] using hrest

/-- One try of a step in tables. -/
theorem updateHourOnce (time : Moment) {step : HourStep} {t : Tables}
    (ht : (Contents.tables t).Keyed) (hstep : step.edge.1 ≠ .notAvailable) (number : Nat) :
    ((Repository.updateHourOnce time (Desk.stepping step) t number).mapCause
      Repository.Rollback.toFailure).Atomic s (.tables t) (.turn time step.edge.1 step.edge.2) := by
  intro w hw
  have hst := Store.eq_tables_of_contents hw
  obtain ⟨hstore, hrow⟩ := Repository.rowForUpdate_cases time t number s w
  rw [mapCause_run, Repository.updateHourOnce_eq, bind_run]
  generalize Repository.rowForUpdate time t number s w = r at hstore hrow
  obtain ⟨end', w'⟩ := r
  have hst' : w'.store = .tables t := hstore.trans hst
  cases end' with
  | crashed =>
      simp only [hst']
      exact .crashed
  | refused cause =>
      simp only [hst']
      exact .refused hrow.1
  | done p =>
      obtain ⟨table, row⟩ := p
      have hfin := Repository.finishUpdate_cases time step number table row s hst'
      simp only
      generalize Repository.finishUpdate time (Desk.stepping step) t number table row s w' = r at hfin
      obtain ⟨end', w''⟩ := r
      cases end' with
      | crashed =>
          have hsame : w''.store = .tables t := Eq.trans hfin hst'
          simp only [hsame]
          exact .crashed
      | refused cause =>
          have hsame : w''.store = .tables t := Eq.trans hfin.2 hst'
          simp only [hsame]
          exact .refused hfin.1
      | done h' =>
          obtain ⟨h, hd, hfrom, hdone⟩ := hfin
          replace hdone : w''.store = _ := hdone
          have hlabel := HourRow.ofLabel?_of_decode hd
          rw [hfrom] at hlabel
          obtain ⟨rfl, hrow⟩ | hfresh := hrow
          · have hold : (Contents.tables t).availability? time.second = some step.edge.1 := by
              rw [Contents.availability?, hrow, Option.bind_some, hlabel]
            have htaken := Effect.Takes.turned step.edge.2 hold
            rw [Tables.setAvailability_eq ht hrow] at htaken
            simp only [hdone]
            exact .taken htaken
          · -- A new row is not available, and no step of these begins there.
            rw [hfresh, Availability.ofLabel?_label] at hlabel
            exact absurd (Option.some.inj hlabel).symm hstep

/-- A step of an hour that begins at an hour that was written. -/
theorem stepHour {time : Moment} (step : HourStep) (hc : c.Keyed) (hs : s.held.hours = [])
    (hstep : step.edge.1 ≠ .notAvailable) :
    (Repository.updateHour time (Desk.stepping step)).Atomic s c
      (.turn time step.edge.1 step.edge.2) := by
  intro w hw
  subst hw
  cases hst : w.store with
  | tables t =>
      rw [hst] at hc
      have htries := retrying (s := s) (fun number f => Act.note .warn
        "Trainer hour update deadlocked, retrying" [("hour_time", .number time.second),
          ("attempt", .number number), ("error", .text f.message)])
        (fun _ _ _ => ⟨rfl, rfl⟩) (updateHourOnce time hc hstep) 1
        (Repository.greatestAttempts - 1) w (by rw [hst]; rfl)
      simpa [Repository.updateHour, Repository.updateHourInTables, bind_run, hst, hs, Store.contents]
        using htries
  | memory m =>
      have hstarts : Repository.updateHour time (Desk.stepping step) s w =
          Repository.updateHourInMemory time (Desk.stepping step) m s w := by
        rw [Repository.updateHour, bind_run_done (store_run s w), hst]
      have hrun := hstarts.trans (Repository.updateHourInMemory_run time
        (fun h => (Ending.ofExcept (h.step step)).mapCause Failure.rule) hs hst)
      rw [hrun, ← Books.stepHour]
      obtain ⟨h', heq, hwrites⟩ | ⟨hdone, -⟩ := m.books.stepHour_cases time step s
      · rw [heq]
        cases hwrites with
        | opened hnone hopens hcheck =>
            have hopens : step = .makeAvailable := hopens
            rw [hopens] at hstep
            exact absurd rfl hstep
        | @stepped h hold hfrom =>
            have hold : m.hour? time.second = some h := hold
            have hav : (Store.memory m).contents.availability? time.second = some step.edge.1 := by
              rw [Store.contents, Contents.availability?, hold, Option.map_some, hfrom]
            have htaken := Effect.Takes.turned step.edge.2 hav
            rw [Store.contents, Contents.setAvailability, hold, Option.map_some,
              ← Memory.contents_file] at htaken
            exact .taken htaken
      · cases he : (m.books.stepHour time step s).1 with
        | done h => rw [he] at hdone; cases hdone
        | refused f =>
            simp only [Memory.contents_release, Memory.contents_claim]
            exact .refused (Books.stepHour_operations he)
        | crashed =>
            simp only [Memory.contents_claim]
            exact .crashed

end Act.Atomic

end TrainerBooking
