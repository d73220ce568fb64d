import TrainerBooking.Proofs.Mirror

/-! # Plain acts

The watch around the operations writes its events into the same journal as the acts of the store, and
it counts in the same world.  Here the acts of the store are told apart from it.

* **Blind.** A blind act ends alike and leaves the same store, however it is watched, and whatever the
  journal and the counters hold when it begins (`Act.Blind`).
* **Narration.** The events of the watch are known by their messages (`Event.narrates`), and no act of
  the store writes one of these.
* **Plain** acts are blind, write no event of the watch and count nothing (`Act.Plain`).  There is a
  rule for every way in which acts are put together; only the setting is no plain act, and what follows
  it may not look at the watch (`Act.Plain.bind_setting`). -/

namespace TrainerBooking

/-! ### Narration -/

namespace Event

/-- Is this the message of an event of the watch? -/
def isNarration (message : String) : Bool :=
  ["Executing command", "Executing query", "Command executed successfully",
    "Query executed successfully", "Failed to execute command",
    "Failed to execute query"].contains message

/-- Does the event come from the watch around an operation? -/
def narrates (e : Event) : Bool := isNarration e.message

end Event

/-- The events of the watch, in order. -/
def World.narration (w : World) : List Event := w.journal.filter Event.narrates

namespace Act

variable {ε δ α β : Type}

/-! ### Blind acts -/

/-- Settings that may differ in how acts are watched make no difference to the ending and to the store,
nor does anything in the world but the store. -/
def Blind (act : Act ε α) : Prop :=
  ∀ (s s' : Setting) (w w' : World), s.Twin s' → w'.store = w.store →
    (act s' w').1 = (act s w).1 ∧ (act s' w').2.store = (act s w).2.store

namespace Blind

theorem ofEnding (e : Ending ε α) : (Act.ofEnding e).Blind := fun _ _ _ _ _ hw => ⟨rfl, hw⟩

theorem now : (Act.now : Act ε Moment).Blind := by
  intro s s' w w' ht hw
  rw [now_run, now_run, ht.now]
  exact ⟨rfl, hw⟩

theorem store : (Act.store : Act ε Store).Blind := by
  intro s s' w w' ht hw
  rw [store_run, store_run]
  exact ⟨congrArg Ending.done hw, hw⟩

theorem setStore (st : Store) : (Act.setStore st : Act ε Unit).Blind :=
  fun _ _ _ _ _ _ => ⟨rfl, rfl⟩

theorem changeMemory (f : Memory → Memory) : (Act.changeMemory f : Act ε Unit).Blind := by
  intro s s' w w' ht hw
  refine ⟨rfl, ?_⟩
  rw [Act.changeMemory, change_run, change_run]
  obtain ⟨m | t, journal, counters⟩ := w <;> obtain ⟨_, journal', counters'⟩ := w' <;> cases hw <;> rfl

theorem changeTables (f : Tables → Tables) : (Act.changeTables f : Act ε Unit).Blind := by
  intro s s' w w' ht hw
  refine ⟨rfl, ?_⟩
  rw [Act.changeTables, change_run, change_run]
  obtain ⟨m | t, journal, counters⟩ := w <;> obtain ⟨_, journal', counters'⟩ := w' <;> cases hw <;> rfl

theorem bind {act : Act ε α} {next : α → Act ε β} (h : act.Blind) (hnext : ∀ a, (next a).Blind) :
    (act >>= next).Blind := by
  intro s s' w w' ht hw
  have hfirst := h s s' w w' ht hw
  rw [bind_run, bind_run]
  generalize act s w = r at hfirst
  generalize act s' w' = r' at hfirst
  obtain ⟨e, v⟩ := r
  obtain ⟨e', v'⟩ := r'
  obtain ⟨hend, hstore⟩ := hfirst
  obtain rfl : e' = e := hend
  cases e' with
  | done a => exact hnext a s s' v v' ht hstore
  | refused c => exact ⟨rfl, hstore⟩
  | crashed => exact ⟨rfl, hstore⟩

/-- What follows the setting may not look at the watch. -/
theorem bind_setting {next : Setting → Act ε α} (h : ∀ s, (next s).Blind)
    (hnext : ∀ s s' : Setting, s.Twin s' → next s' = next s) : (Act.setting >>= next).Blind := by
  intro s s' w w' ht hw
  rw [bind_run_done (setting_run s _), bind_run_done (setting_run s' _), hnext s s' ht]
  exact h s s s' w w' ht hw

theorem mapCause {act : Act ε α} (h : act.Blind) (f : ε → δ) : (act.mapCause f).Blind := by
  intro s s' w w' ht hw
  obtain ⟨hend, hstore⟩ := h s s' w w' ht hw
  rw [mapCause_run, mapCause_run, hend]
  exact ⟨rfl, hstore⟩

theorem within {act : Act Failure α} (h : act.Blind) (slug description : String) :
    (act.within slug description).Blind := h.mapCause _

theorem settle {act : Act ε α} (h : act.Blind) : (act.settle : Act δ (Ending ε α)).Blind := by
  intro s s' w w' ht hw
  obtain ⟨hend, hstore⟩ := h s s' w w' ht hw
  exact ⟨congrArg Ending.done hend, hstore⟩

theorem holding {act : Act ε α} (h : act.Blind) (f : Held → Held) : (act.holding f).Blind :=
  fun _ _ w w' ht => h _ _ w w' ⟨ht.now, ht.window, congrArg f ht.held⟩

/-- An operation with a blind body ends as the body does, and leaves the same store. -/
theorem unwatched {body : Act Failure α} (h : body.Blind) (o : Desk.Operation) (s : Setting)
    (w : World) :
    (Desk.watched o body s w).1 = (body s w).1 ∧
      (Desk.watched o body s w).2.store = (body s w).2.store := by
  obtain ⟨spans, v, hv, hend, hstore⟩ := Desk.watched_run o body s w
  obtain ⟨hsame, hafter⟩ := h s { s with spans := spans } w v ⟨rfl, rfl, rfl⟩ hv
  exact ⟨hend.trans hsame, hstore.trans hafter⟩

theorem watched {body : Act Failure α} (h : body.Blind) (o : Desk.Operation) :
    (Desk.watched o body).Blind := by
  intro s s' w w' ht hw
  obtain ⟨hend, hstore⟩ := h.unwatched o s w
  obtain ⟨hend', hstore'⟩ := h.unwatched o s' w'
  obtain ⟨hsame, hafter⟩ := h s s' w w' ht hw
  exact ⟨hend'.trans (hsame.trans hend.symm), hstore'.trans (hafter.trans hstore.symm)⟩

end Blind

/-! ### Plain acts -/

/-- The act is blind, writes no event of the watch and counts nothing. -/
structure Plain (act : Act ε α) : Prop where
  blind : act.Blind
  narration (s : Setting) (w : World) : (act s w).2.narration = w.narration
  counters (s : Setting) (w : World) : (act s w).2.counters = w.counters

namespace Plain

theorem ofEnding (e : Ending ε α) : (Act.ofEnding e).Plain :=
  ⟨.ofEnding e, fun _ _ => rfl, fun _ _ => rfl⟩

theorem pure (a : α) : (Pure.pure a : Act ε α).Plain := ofEnding (.done a)

theorem refuse (c : ε) : (Act.refuse c : Act ε α).Plain := ofEnding (.refused c)

theorem crash : (Act.crash : Act ε α).Plain := ofEnding .crashed

theorem ofExcept (e : Except ε α) : (Act.ofExcept e).Plain := ofEnding (.ofExcept e)

theorem now : (Act.now : Act ε Moment).Plain := ⟨.now, fun _ _ => rfl, fun _ _ => rfl⟩

theorem store : (Act.store : Act ε Store).Plain := ⟨.store, fun _ _ => rfl, fun _ _ => rfl⟩

theorem setStore (st : Store) : (Act.setStore st : Act ε Unit).Plain :=
  ⟨.setStore st, fun _ _ => rfl, fun _ _ => rfl⟩

theorem changeMemory (f : Memory → Memory) : (Act.changeMemory f : Act ε Unit).Plain := by
  refine ⟨.changeMemory f, fun s w => ?_, fun s w => ?_⟩
  all_goals
    rw [Act.changeMemory, change_run]
    cases w.store <;> rfl

theorem changeTables (f : Tables → Tables) : (Act.changeTables f : Act ε Unit).Plain := by
  refine ⟨.changeTables f, fun s w => ?_, fun s w => ?_⟩
  all_goals
    rw [Act.changeTables, change_run]
    cases w.store <;> rfl

/-- Events of the store have other messages than those of the watch. -/
theorem note {message : String} (h : Event.isNarration message = false) (level : Level)
    (fields : List (String × FieldValue)) : (Act.note level message fields : Act ε Unit).Plain := by
  refine ⟨fun _ _ _ _ _ hw => ⟨rfl, hw⟩, fun s w => ?_, fun _ _ => rfl⟩
  have hevent : Event.narrates ⟨level, message, fields, s.spans⟩ = false := h
  simp [Act.note, World.narration, hevent]

theorem bind {act : Act ε α} {next : α → Act ε β} (h : act.Plain) (hnext : ∀ a, (next a).Plain) :
    (act >>= next).Plain := by
  refine ⟨h.blind.bind fun a => (hnext a).blind, fun s w => ?_, fun s w => ?_⟩
  · have hfirst := h.narration s w
    rw [bind_run]
    generalize act s w = r at hfirst
    obtain ⟨_ | _ | _, w'⟩ := r
    case done a => exact ((hnext a).narration s w').trans hfirst
    case refused => exact hfirst
    case crashed => exact hfirst
  · have hfirst := h.counters s w
    rw [bind_run]
    generalize act s w = r at hfirst
    obtain ⟨_ | _ | _, w'⟩ := r
    case done a => exact ((hnext a).counters s w').trans hfirst
    case refused => exact hfirst
    case crashed => exact hfirst

theorem bind_setting {next : Setting → Act ε α} (h : ∀ s, (next s).Plain)
    (hnext : ∀ s s' : Setting, s.Twin s' → next s' = next s) : (Act.setting >>= next).Plain :=
  ⟨.bind_setting (fun s => (h s).blind) hnext, fun s => (h s).narration s,
    fun s => (h s).counters s⟩

theorem mapCause {act : Act ε α} (h : act.Plain) (f : ε → δ) : (act.mapCause f).Plain :=
  ⟨h.blind.mapCause f, h.narration, h.counters⟩

theorem within {act : Act Failure α} (h : act.Plain) (slug description : String) :
    (act.within slug description).Plain := h.mapCause _

theorem settle {act : Act ε α} (h : act.Plain) : (act.settle : Act δ (Ending ε α)).Plain :=
  ⟨h.blind.settle, h.narration, h.counters⟩

theorem holding {act : Act ε α} (h : act.Plain) (f : Held → Held) : (act.holding f).Plain :=
  ⟨h.blind.holding f, fun s => h.narration { s with held := f s.held },
    fun s => h.counters { s with held := f s.held }⟩

theorem ofRule (e : Except Violation α) : (Act.ofRule e).Plain := (ofExcept e).mapCause _

theorem ofDatabase (e : Except DatabaseFault α) : (Repository.ofDatabase e).Plain :=
  (ofExcept e).mapCause _

theorem ite {p : Prop} [Decidable p] {act act' : Act ε α} (h : act.Plain) (h' : act'.Plain) :
    (if p then act else act').Plain := by
  split
  · exact h
  · exact h'

/-! ### The acts of the store are plain -/

theorem updateHourInMemory {time : Moment} {transition : Hour → Act Failure Hour}
    (h : ∀ hour, (transition hour).Plain) (m : Memory) :
    (Repository.updateHourInMemory time transition m).Plain := by
  refine bind_setting (fun s => ?_) fun s s' ht => ?_
  · refine (changeMemory _).bind fun _ => ?_
    refine ite ((refuse _).bind fun _ => ?update) ?update
    refine ((ofEnding _).bind fun hour => (h hour).holding _).settle.bind fun e => ?_
    cases e with
    | done updated => exact (changeMemory _).bind fun _ => pure updated
    | refused cause => exact (changeMemory _).bind fun _ => refuse cause
    | crashed => exact crash
  · have hstart : Repository.startingHour m time s' = Repository.startingHour m time s := by
      rw [Repository.startingHour, Repository.startingHour, ht.window, ht.now]
    rw [hstart, ht.held]

theorem retrying {warn : Nat → DatabaseFault → Act Failure Unit}
    {attempt : Nat → Act Repository.Rollback α} (hwarn : ∀ n f, (warn n f).Plain)
    (h : ∀ n, (attempt n).Plain) (number repetitions : Nat) :
    (Repository.retrying warn attempt number repetitions).Plain := by
  induction repetitions generalizing number with
  | zero => exact (h number).mapCause _
  | succ repetitions ih =>
      refine (h number).settle.bind fun e => ?_
      cases e with
      | done a => exact pure a
      | crashed => exact crash
      | refused cause =>
          dsimp only
          cases cause.deadlock? with
          | none => exact refuse _
          | some f => exact (hwarn number f).bind fun _ => ih (number + 1)

theorem rowForUpdate (time : Moment) (t : Tables) (number : Nat) :
    (Repository.rowForUpdate time t number).Plain := by
  unfold Repository.rowForUpdate
  dsimp only
  split
  · exact pure _
  refine bind_setting (fun s => ?_) fun s s' ht => by rw [ht.window, ht.now]
  refine (ofEnding _).bind fun fresh => ((ofExcept _).mapCause _).bind fun r => ?_
  refine (note rfl _ _).bind fun _ => (note rfl _ _).bind fun _ => ?_
  split
  · exact pure _
  · exact refuse _

theorem updateHour {time : Moment} {transition : Hour → Act Failure Hour}
    (h : ∀ hour, (transition hour).Plain) : (Repository.updateHour time transition).Plain := by
  have honce : ∀ t number, (Repository.updateHourOnce time transition t number).Plain := by
    intro t number
    refine (rowForUpdate time t number).bind fun r => ((ofExcept _).mapCause _).bind fun hour => ?_
    refine (((h hour).holding _).mapCause _).bind fun updated => ?_
    exact ((ofExcept _).mapCause _).bind fun table => (changeTables _).bind fun _ => pure updated
  refine store.bind fun st => ?_
  cases st with
  | memory m => exact updateHourInMemory h m
  | tables t =>
      refine bind_setting (fun s => ?_) fun s s' ht => by rw [ht.held]
      exact (ofDatabase _).bind fun _ => retrying (fun n f => note rfl _ _) (honce t) _ _

theorem stepHour (time : Moment) (step : HourStep) :
    (Repository.updateHour time (Desk.stepping step)).Plain := updateHour fun _ => ofRule _

theorem hour? (time : Moment) : (Repository.hour? time).Plain := by
  refine bind_setting (fun s => store.bind fun st => ?_) fun s s' ht => by rw [ht.held]
  cases st with
  | memory m =>
      dsimp only
      split
      · exact pure none
      · exact ite (refuse _) (pure _)
  | tables t =>
      refine (ofDatabase _).bind fun _ => ?_
      split
      · exact pure none
      · exact (ofDatabase _).bind fun h => pure (some h)

theorem hoursBetween (first last : Moment) : (Repository.hoursBetween first last).Plain := by
  refine bind_setting (fun s => store.bind fun st => ?_) fun s s' ht => by rw [ht.held]
  cases st with
  | memory m => exact ite crash (ite (refuse _) (pure _))
  | tables t => exact (ofDatabase _).bind fun _ => ofDatabase _

theorem addTraining (t : Training) : (Repository.addTraining t).Plain := by
  refine bind_setting (fun s => store.bind fun st => ?_) fun s s' ht => by rw [ht.held]
  cases st with
  | memory m => exact ((ofExcept _).mapCause _).bind fun m => setStore (.memory m)
  | tables t =>
      refine (ofDatabase _).bind fun _ => (ofDatabase _).bind fun r => ?_
      exact (changeTables _).bind fun _ => note rfl _ _

theorem updateTraining (id : String) (caller : Caller) {transition : Training → Act Failure Training}
    (h : ∀ t, (transition t).Plain) : (Repository.updateTraining id caller transition).Plain := by
  refine store.bind fun st => ?_
  cases st with
  | memory m =>
      refine bind_setting (fun s => ?_) fun s s' ht => by rw [ht.held]
      split
      · exact refuse _
      · next t _ =>
          have hupdate : (Act.ofRule (caller.checkSees t) >>= fun _ => do
              let updated ← (transition t).holding (Held.withTraining id)
              Act.changeMemory (Memory.fileTraining id updated)
              Pure.pure updated).Plain := by
            refine (ofRule _).bind fun _ => ((h t).holding _).bind fun updated => ?_
            exact (changeMemory _).bind fun _ => pure updated
          exact ite ((refuse _).bind fun _ => hupdate) hupdate
  | tables tb =>
      refine bind_setting (fun s => (ofDatabase _).bind fun _ => ?_) fun s s' ht => by rw [ht.held]
      split
      · exact refuse _
      · refine (ofDatabase _).bind fun stored => (ofRule _).bind fun _ => ?_
        refine ((h stored).holding _).bind fun updated => (ofDatabase _).bind fun rows => ?_
        exact (changeTables _).bind fun _ => pure updated

theorem allTrainings : Repository.allTrainings.Plain := by
  refine bind_setting (fun s => store.bind fun st => ?_) fun s s' ht => by rw [ht.held]
  cases st with
  | memory m => exact pure _
  | tables t => exact (ofDatabase _).bind fun _ => ofDatabase _

theorem trainingsOf (owner : String) : (Repository.trainingsOf owner).Plain := by
  refine bind_setting (fun s => store.bind fun st => ?_) fun s s' ht => by rw [ht.held]
  cases st with
  | memory m => exact pure _
  | tables t => exact (ofDatabase _).bind fun _ => ofDatabase _

theorem addAccount (a : Account) : (Repository.addAccount a).Plain := by
  refine store.bind fun st => ?_
  cases st with
  | memory m => exact ((ofExcept _).mapCause _).bind fun m => setStore (.memory m)
  | tables t => exact (ofDatabase _).bind fun r => (changeTables _).bind fun _ => note rfl _ _

theorem account (id : String) : (Repository.account id).Plain := by
  refine store.bind fun st => ?_
  cases st with
  | memory m =>
      dsimp only
      split
      · exact refuse _
      · exact pure _
  | tables t =>
      dsimp only
      split
      · exact refuse _
      · exact ofDatabase _

theorem changeBalance (id : String) (amount : Int) : (Repository.changeBalance id amount).Plain := by
  refine store.bind fun st => ?_
  cases st with
  | memory m =>
      dsimp only
      split
      · exact refuse _
      · exact (ofRule _).bind fun changed => (setStore _).bind fun _ => pure _
  | tables t =>
      refine (ofDatabase _).bind fun r => (changeTables _).bind fun _ => ?_
      split
      · exact refuse _
      · exact ite (pure _) (refuse _)

theorem recordIp (id ip : String) : (Repository.recordIp id ip).Plain := by
  refine store.bind fun st => ?_
  cases st with
  | memory m =>
      dsimp only
      split
      · exact refuse _
      · exact setStore _
  | tables t =>
      exact (ofDatabase _).bind fun r => (changeTables _).bind fun _ => ite (refuse _) (pure _)

/-! So is what some operations do. -/

theorem stepAll (step : HourStep) (slug word : String) (times : List Moment) :
    (Desk.stepAll step slug word times).Plain := by
  induction times with
  | nil => exact pure ()
  | cons time rest ih => exact ((stepHour time step).within _ _).bind fun _ => ih

theorem requesting (newTime : Moment) (notes : String) (caller : Caller) (t : Training) :
    (Desk.requesting newTime notes caller t).Plain :=
  ((ofRule _).within _ _).bind fun _ => (ofRule _).within _ _

theorem rejecting (t : Training) : (Desk.rejecting t).Plain := (ofRule _).within _ _

end Plain

end Act

end TrainerBooking
