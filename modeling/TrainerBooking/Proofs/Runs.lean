import TrainerBooking.Proofs.Commands

/-! # Runs of calls

A `Call` is a request to the API with its caller, a `Turn` is a call that was made, and a `Run` is a
history of turns from an empty store: any calls, in any order, with the clock set anew for each.

* **Outcomes.** `Call.Outcome` lists what a call can do to the books, refused or not.  Whatever a
  property of runs needs to know about the program, it takes from there.
* **Runs keep the store sound,** so every turn of a run has such an outcome (`Run.outcome`). -/

namespace TrainerBooking

namespace Api

/-- A request to the API, on behalf of a caller; identifiers are drawn before it is made. -/
inductive Call where
  | availableHours (r : CalendarRequest)
  | hourAvailability (r : HourRequest)
  | makeHoursAvailable (caller : Caller) (r : HoursRequest)
  | makeHoursUnavailable (caller : Caller) (r : HoursRequest)
  | trainings (caller : Caller)
  | createTraining (caller : Caller) (fresh : String) (r : TrainingRequest)
  | cancelTraining (caller : Caller) (id : String)
  | rescheduleTraining (caller : Caller) (id : String) (r : TrainingRequest)
  | requestReschedule (caller : Caller) (id : String) (r : TrainingRequest)
  | approveReschedule (caller : Caller) (id : String)
  | rejectReschedule (caller : Caller) (id : String)
  | currentUser (caller : Caller) (ip : Option String)
  | createUser (caller : Caller) (fresh : String) (r : UserRequest)
  | changeBalance (caller : Caller) (id : String) (r : BalanceRequest)

/-- What a call answers. -/
inductive Reply where
  | days (days : List DayResponse)
  | availability (r : AvailabilityResponse)
  | trainings (list : List TrainingResponse)
  | identifier (id : String)
  | user (r : UserResponse)
  | nothing
deriving DecidableEq, Repr

namespace Call

/-- Carries out the call. -/
def perform : Call → Act Refusal Reply
  | availableHours r => return .days (← Api.availableHours r)
  | hourAvailability r => return .availability (← Api.hourAvailability r)
  | makeHoursAvailable caller r => do Api.makeHoursAvailable caller r; return .nothing
  | makeHoursUnavailable caller r => do Api.makeHoursUnavailable caller r; return .nothing
  | trainings caller => return .trainings (← Api.trainings caller)
  | createTraining caller fresh r => return .identifier (← Api.createTraining caller fresh r)
  | cancelTraining caller id => do Api.cancelTraining caller id; return .nothing
  | rescheduleTraining caller id r => do Api.rescheduleTraining caller id r; return .nothing
  | requestReschedule caller id r => do Api.requestReschedule caller id r; return .nothing
  | approveReschedule caller id => do Api.approveReschedule caller id; return .nothing
  | rejectReschedule caller id => do Api.rejectReschedule caller id; return .nothing
  | currentUser caller ip => return .user (← Api.currentUser caller ip)
  | createUser caller fresh r => return .identifier (← Api.createUser caller fresh r)
  | changeBalance caller id r => do Api.changeBalance caller id r; return .nothing

/-- The caller, if the call has one. -/
def caller? : Call → Option Caller
  | availableHours _ | hourAvailability _ => none
  | makeHoursAvailable c _ | makeHoursUnavailable c _ | trainings c | createTraining c _ _
  | cancelTraining c _ | rescheduleTraining c _ _ | requestReschedule c _ _ | approveReschedule c _
  | rejectReschedule c _ | currentUser c _ | createUser c _ _ | changeBalance c _ _ => some c

/-- The time stamps of the request. -/
def stamps : Call → List String
  | availableHours r => [r.first, r.last]
  | hourAvailability r => [r.hour]
  | makeHoursAvailable _ r | makeHoursUnavailable _ r => r.hours
  | createTraining _ _ r | rescheduleTraining _ _ r | requestReschedule _ _ r => [r.time]
  | trainings _ | cancelTraining _ _ | approveReschedule _ _ | rejectReschedule _ _
  | currentUser _ _ | createUser _ _ _ | changeBalance _ _ _ => []

/-- The training that the call creates. -/
def creates? : Call → Option String
  | createTraining _ fresh _ => some fresh
  | _ => none

/-- The training whose hour the call gives up. -/
def vacates? : Call → Option String
  | cancelTraining _ id | rescheduleTraining _ id _ | approveReschedule _ id => some id
  | _ => none

end Call

/-! ### Outcomes -/

/-- What a call at the moment `now` can do to the books: whether it is done, and the books then. -/
inductive Call.Outcome (now : Moment) (b : Books) : Call → Bool → Books → Prop
  | refused (call : Call) : Outcome now b call false b
  | edited {call : Call} {caller : Caller} (done : Bool) {b' : Books}
      (hcreates : call.creates? = none) (hvacates : call.vacates? = none)
      (hcaller : call.caller? = some caller) (hrole : caller.role = .trainer) (h : b.Edited b') :
      Outcome now b call done b'
  | banked {call : Call} (done : Bool) {b' : Books} (hcreates : call.creates? = none)
      (hvacates : call.vacates? = none) (h : b.Banked b') : Outcome now b call done b'
  | booking {caller : Caller} {fresh : String} {r : TrainingRequest} {time : Moment}
      {e : Ending Failure Unit} {b' : Books} (htime : Stamp.read r.time = .ok time)
      (h : b.Booking ⟨fresh, caller.id, caller.name, time, r.notes, false, none⟩ e b') :
      Outcome now b (.createTraining caller fresh r) e.isDone b'
  | canceling {caller : Caller} {id : String} {e : Ending Failure Unit} {b' : Books}
      (h : b.Canceling id caller now e b') : Outcome now b (.cancelTraining caller id) e.isDone b'
  | rescheduling {caller : Caller} {id : String} {r : TrainingRequest} {time : Moment}
      {e : Ending Failure Unit} {b' : Books} (htime : Stamp.read r.time = .ok time)
      (h : b.Moving id caller (fun t t' => t' = { t with notes := r.notes, time := time }) e b') :
      Outcome now b (.rescheduleTraining caller id r) e.isDone b'
  | approving {caller : Caller} {id : String} {e : Ending Failure Unit} {b' : Books}
      (h : b.Moving id caller (fun t t' => ∃ p, t.proposal = some p ∧
        t' = { t with time := p.newTime, proposal := none }) e b') :
      Outcome now b (.approveReschedule caller id) e.isDone b'
  | requesting {caller : Caller} {id : String} {r : TrainingRequest} {time : Moment}
      {e : Ending Failure Unit} {b' : Books} (htime : Stamp.read r.time = .ok time)
      (h : b.Amending id caller (fun t t' => t' = { t with
        notes := r.notes, proposal := some ⟨time, caller.role⟩ }) e b') :
      Outcome now b (.requestReschedule caller id r) e.isDone b'
  | rejecting {caller : Caller} {id : String} {e : Ending Failure Unit} {b' : Books}
      (h : b.Amending id caller (fun t t' => t' = { t with proposal := none }) e b') :
      Outcome now b (.rejectReschedule caller id) e.isDone b'

end Api

theorem Api.Call.Outcome.same {now : Moment} {b b' : Books} {call : Call} (done : Bool)
    (hcreates : call.creates? = none) (hvacates : call.vacates? = none) (h : b' = b) :
    call.Outcome now b done b' := by
  rw [h]
  exact .banked done hcreates hvacates (.refl b)

/-! ### What no call does to a training -/

/-- No training is lost or given to another, and what was canceled stays canceled. -/
def Books.Retains (b b' : Books) : Prop :=
  ∀ id t, b.trainings id = some t →
    ∃ t', b'.trainings id = some t' ∧ t'.owner = t.owner ∧ (t.canceled = true → t'.canceled = true)

namespace Books

variable {b b' : Books}

theorem Retains.stored {id : String} (h : b.Retains b') (hid : (b.trainings id).isSome) :
    (b'.trainings id).isSome := by
  obtain ⟨t, ht⟩ := Option.isSome_iff_exists.mp hid
  obtain ⟨t', ht', -⟩ := h id t ht
  exact Option.isSome_of_mem ht'

theorem Retains.of_trainings (h : b'.trainings = b.trainings) : b.Retains b' := by
  intro id t ht
  rw [← h] at ht
  exact ⟨t, ht, rfl, fun hc => hc⟩

theorem Retains.add {id : String} (t : Training) (hfree : b.trainings id = none) :
    b.Retains (b.setTraining id t) := by
  intro id' t' ht'
  have hne : id' ≠ id := by
    rintro rfl
    rw [hfree] at ht'
    cases ht'
  rw [setTraining_trainings, if_neg hne]
  exact ⟨t', ht', rfl, fun h => h⟩

theorem Retains.refile {id : String} {t t' : Training} (ht : b.trainings id = some t)
    (howner : t'.owner = t.owner) (hcanceled : t.canceled = true → t'.canceled = true) :
    b.Retains (b.setTraining id t') := by
  intro id' u hu
  rw [setTraining_trainings]
  by_cases h : id' = id
  · subst h
    obtain rfl : t = u := Option.some.inj (ht.symm.trans hu)
    exact ⟨t', if_pos rfl, howner, hcanceled⟩
  · exact ⟨u, (if_neg h).trans hu, rfl, fun h => h⟩

theorem Moving.retains {id : String} {caller : Caller} {change : Training → Training → Prop}
    {e : Ending Failure Unit} (h : b.Moving id caller change e b') : b.Retains b' := by
  cases h with
  | refused hf => exact .of_trainings rfl
  | crashed => exact .of_trainings rfl
  | unreleased => exact .of_trainings rfl
  | @moved t t' h h' ht hsees hactive hkeeps hchange hopen hh hbooked hh' =>
      refine Retains.refile (t := t) ht ?_ fun hc => ?_
      · rw [kept_owner, hkeeps.owner]
      · rw [kept_canceled, hkeeps.canceled, hc]

theorem Amending.retains {id : String} {caller : Caller} {change : Training → Training → Prop}
    {e : Ending Failure Unit} (h : b.Amending id caller change e b') : b.Retains b' := by
  cases h with
  | refused f => exact .of_trainings rfl
  | @amended t t' ht hsees hactive hkeeps htime hchange =>
      refine Retains.refile (t := t) ht ?_ fun hc => ?_
      · rw [kept_owner, hkeeps.owner]
      · rw [kept_canceled, hkeeps.canceled, hc]

end Books

theorem Api.Call.Outcome.retains {now : Moment} {b b' : Books} {call : Call} {done : Bool}
    (h : call.Outcome now b done b') : b.Retains b' := by
  cases h with
  | refused call => exact .of_trainings rfl
  | edited done hcreates hvacates hcaller hrole h => exact .of_trainings h.trainings
  | banked done hcreates hvacates h => exact .of_trainings h.trainings
  | booking htime h =>
      cases h with
      | refused f => exact .of_trainings rfl
      | unpaid f hfree => exact Books.Retains.add _ hfree
      | unbooked hfree ha hn he => exact Books.Retains.add _ hfree
      | booked hfree ha hn hopen hh => exact Books.Retains.add _ hfree
  | canceling h =>
      cases h with
      | barred f hbar => exact .of_trainings rfl
      | uncredited ht hsees hactive hmissing => exact .of_trainings rfl
      | unreleased ht hsees hactive hcredit hbooked he => exact .of_trainings hcredit.trainings
      | @canceled t c h ht hsees hactive hcredit hbooked hh =>
          have hc : (c.setHour t.time.second h).trainings = b.trainings := hcredit.trainings
          have htc : (c.setHour t.time.second h).trainings _ = some t := (congrFun hc _).trans ht
          intro id u hu
          refine Books.Retains.refile htc ?_ (fun _ => ?_) id u ((congrFun hc id).trans hu)
          · rw [Books.kept_owner]
          · rw [Books.kept_canceled]
  | rescheduling htime h => exact h.retains
  | approving h => exact h.retains
  | requesting htime h => exact h.retains
  | rejecting h => exact h.retains

/-! ### From the desk to the API -/

namespace Act.Meets

open Api

variable {s : Setting} {b : Books} {α β : Type}

theorem operation {act : Act Failure α} {Q : Ending Refusal α → Books → Prop}
    (h : act.Meets s b fun e b' => Q (e.mapCause Refusal.ofFailure) b') :
    (Api.operation act).Meets s b Q := mapCause h

/-- Only callers of the role get past. -/
theorem requireThen {role : Role} {caller : Caller} {action : String} {next : Unit → Act Refusal α}
    {Q : Ending Refusal α → Books → Prop} (hok : caller.role = role → (next ()).Meets s b Q)
    (herr : ∀ r, Q (.refused r) b) : (Api.require role caller action >>= next).Meets s b Q := by
  refine bind (mapCause (ofExcept ?_))
  unfold Identity.require
  split
  · next h => exact hok h
  · exact herr _

/-- Only times that can be read get past. -/
theorem readTimeThen {field value : String} {next : Moment → Act Refusal α}
    {Q : Ending Refusal α → Books → Prop}
    (hok : ∀ m, Stamp.read value = .ok m → (next m).Meets s b Q)
    (herr : ∀ r, Q (.refused r) b) :
    (respond (Api.readTime field value) >>= next).Meets s b Q := by
  refine bind (ofExcept ?_)
  unfold Api.readTime
  cases h : Stamp.read value with
  | ok m => exact hok m h
  | error f => exact herr _

/-- Only lists of times that can all be read get past. -/
theorem readHoursThen {values : List String} {next : List Moment → Act Refusal α}
    {Q : Ending Refusal α → Books → Prop} (hok : ∀ times, (next times).Meets s b Q)
    (herr : ∀ r, Q (.refused r) b) : (respond (readHours values) >>= next).Meets s b Q := by
  refine bind (ofExcept ?_)
  cases readHours values with
  | ok times => exact hok times
  | error f => exact herr f

/-! What matters of a call is whether it is done, and what it leaves in the books: `R` says so of an
act, and an act that follows has to keep it. -/

section

variable {R : Bool → Books → Prop}

theorem andThen {act : Act Refusal α} {next : α → Act Refusal β}
    (h : act.Meets s b fun e b' => R e.isDone b')
    (hnext : ∀ a b', R true b' → (next a).Meets s b' fun e b'' => R e.isDone b'') :
    (act >>= next).Meets s b fun e b'' => R e.isDone b'' := by
  refine bind (h.mono fun e b' hq => ?_)
  cases e with
  | done a => exact hnext a b' hq
  | refused f => exact hq
  | crashed => exact hq

theorem operated {act : Act Failure α} (h : act.Meets s b fun e b' => R e.isDone b') :
    (Api.operation act).Meets s b fun e b' => R e.isDone b' := by
  refine operation (h.mono fun e b' hq => ?_)
  rw [Ending.isDone_mapCause]
  exact hq

/-- A command that is noted when it is done. -/
theorem command {act : Act Failure Unit} {level : Level} {message : String}
    {fields : List (String × FieldValue)} (h : act.Meets s b fun e b' => R e.isDone b') :
    (Api.operation act >>= fun _ => Act.note level message fields).Meets s b
      fun e b' => R e.isDone b' :=
  andThen (operated h) fun _ _ hq => note hq

theorem reply {act : Act Refusal α} {f : α → β} (h : act.Meets s b fun e b' => R e.isDone b') :
    (act >>= fun a => (Pure.pure (f a) : Act Refusal β)).Meets s b fun e b' => R e.isDone b' :=
  andThen h fun _ _ hq => pure hq

end

/-! ### The calls -/

theorem sameThen {act : Act Refusal α} {next : α → Act Refusal β}
    (h : act.Meets s b fun _ b' => b' = b)
    (hnext : ∀ a, (next a).Meets s b fun _ b' => b' = b) :
    (act >>= next).Meets s b fun _ b' => b' = b := by
  refine andThen (R := fun _ b' => b' = b) h fun a b' hsame => ?_
  subst hsame
  exact hnext a

theorem respond_same {e : Except Refusal α} : (respond e).Meets s b fun _ b' => b' = b :=
  ofExcept rfl

theorem availableHoursCall_same (hs : s.held.hours = []) (r : CalendarRequest) :
    (Api.availableHours r).Meets s b fun _ b' => b' = b := by
  refine sameThen respond_same fun first => sameThen respond_same fun last => ?_
  exact sameThen (operation (availableHours hs first last b)) fun days => respond_same

theorem hourAvailabilityCall_same (hs : s.held.hours = []) (r : HourRequest) :
    (Api.hourAvailability r).Meets s b fun _ b' => b' = b := by
  refine sameThen respond_same fun hour => ?_
  refine sameThen (operation (hourAvailability hs hour b)) fun free => ?_
  exact sameThen respond_same fun stamp => pure rfl

theorem trainingsCall_same (hs : s.held = Held.nothing) (caller : Caller) :
    (Api.trainings caller).Meets s b fun _ b' => b' = b := by
  refine sameThen (operation ?_) fun list => sameThen (now rfl) fun now => respond_same
  cases caller.role with
  | trainer => exact allTrainings_same hs
  | attendee => exact trainingsOfCaller_same hs

theorem currentUserCall_banked (caller : Caller) (ip : Option String) :
    (Api.currentUser caller ip).Meets s b fun _ b' => b.Banked b' := by
  have hshow : ∀ b', b.Banked b' → ∀ f : Account → UserResponse,
      (Api.operation (Desk.currentUser caller.id) >>= fun a => Pure.pure (f a)).Meets s b'
        fun _ b'' => b.Banked b'' := by
    intro b' h f
    refine reply (R := fun _ b'' => b.Banked b'') (operation (currentUser.mono fun e b'' hsame => ?_))
    rw [hsame]
    exact h
  cases ip with
  | none => exact hshow b (.refl b) _
  | some ip =>
      refine andThen (R := fun _ b' => b.Banked b') (operation recordIp_banked) fun _ b' h => ?_
      exact hshow b' h _

/-- Every call has one of the outcomes. -/
theorem perform (call : Call) (hs : s.held = Held.nothing) :
    call.perform.Meets s b fun e b' => call.Outcome s.now b e.isDone b' := by
  have hours : s.held.hours = [] := by
    rw [hs]
    rfl
  cases call with
  | cancelTraining caller id =>
      exact reply (command ((cancelTraining hs).mono fun _ _ h => .canceling h))
  | approveReschedule caller id =>
      exact reply (command ((approveReschedule hs).mono fun _ _ h => .approving h))
  | rejectReschedule caller id =>
      exact reply (command ((rejectReschedule hs).mono fun _ _ h => .rejecting h))
  | rescheduleTraining caller id r =>
      refine reply (readTimeThen (fun time htime => ?_) fun _ => .refused _)
      exact command ((rescheduleTraining hs).mono fun _ _ h => .rescheduling htime h)
  | requestReschedule caller id r =>
      refine reply (readTimeThen (fun time htime => ?_) fun _ => .refused _)
      exact command ((requestReschedule hs).mono fun _ _ h => .requesting htime h)
  | createTraining caller fresh r =>
      refine reply (requireThen (fun _ => ?_) fun _ => .refused _)
      refine readTimeThen (fun time htime => ?_) fun _ => .refused _
      refine andThen (operated ((scheduleTraining hs).mono fun _ _ h => .booking htime h)) ?_
      exact fun _ _ h => bind (note (.of_done (pure h)))
  | makeHoursAvailable caller r =>
      refine reply (requireThen (fun hrole => ?_) fun _ => .refused _)
      refine readHoursThen (fun times => ?_) fun _ => .refused _
      have hedit := makeHoursAvailable (s := s) hours times b
      exact command (hedit.mono fun _ _ h => .edited _ rfl rfl rfl hrole h)
  | makeHoursUnavailable caller r =>
      refine reply (requireThen (fun hrole => ?_) fun _ => .refused _)
      refine readHoursThen (fun times => ?_) fun _ => .refused _
      have hedit := makeHoursUnavailable (s := s) hours times b
      exact command (hedit.mono fun _ _ h => .edited _ rfl rfl rfl hrole h)
  | changeBalance caller id r =>
      refine reply (requireThen (fun _ => ?_) fun _ => .refused _)
      exact command (changeBalance_banked.mono fun _ _ h => .banked _ rfl rfl h)
  | createUser caller fresh r =>
      refine reply (requireThen (fun _ => ?_) fun _ => .refused _)
      cases Role.ofLabel? r.role with
      | none => exact refuse (.refused _)
      | some role =>
          refine andThen (operated (createUser.mono fun _ _ h => .banked _ rfl rfl h)) ?_
          exact fun _ _ h => bind (note (.of_done (pure h)))
  | currentUser caller ip =>
      exact reply ((currentUserCall_banked caller ip).mono fun _ _ h => .banked _ rfl rfl h)
  | availableHours r =>
      exact reply ((availableHoursCall_same hours r).mono fun _ _ h => .same _ rfl rfl h)
  | hourAvailability r =>
      exact reply ((hourAvailabilityCall_same hours r).mono fun _ _ h => .same _ rfl rfl h)
  | trainings caller =>
      exact reply ((trainingsCall_same hs caller).mono fun _ _ h => .same _ rfl rfl h)

end Act.Meets

/-! ### Runs -/

/-- A call that was made: when, how it ended, and the store before and after it. -/
structure Turn where
  now : Moment
  call : Api.Call
  before : Store
  ending : Ending Refusal Api.Reply
  after : Store

namespace Turn

/-- Makes a call in a world. -/
def make (window : BookingWindow) (watch : Watch) (now : Moment) (call : Api.Call) (w : World) :
    Turn × World :=
  let r := call.perform (Setting.outer now window watch) w
  (⟨now, call, w.store, r.1, r.2.store⟩, r.2)

/-- What the turn did to the books. -/
def Outcome (turn : Turn) : Prop :=
  turn.call.Outcome turn.now turn.before.books turn.ending.isDone turn.after.books

/-- Makes calls one after the other. -/
def makeAll (window : BookingWindow) (watch : Watch) :
    List (Moment × Api.Call) → World → List Turn × World
  | [], w => ([], w)
  | (now, call) :: rest, w =>
    let (turn, w) := make window watch now call w
    let (turns, w) := makeAll window watch rest w
    (turn :: turns, w)

theorem make_outcome {window : BookingWindow} {watch : Watch} (now : Moment) (call : Api.Call)
    {w : World} (hw : w.store.Sound) :
    (make window watch now call w).2.store.Sound ∧ (make window watch now call w).1.Outcome :=
  Act.Meets.perform call rfl w hw rfl

end Turn

/-- The history and the world after calls from an empty store. -/
inductive Run (window : BookingWindow) (watch : Watch) : List Turn → World → Prop
  | start {w : World} (h : w.store.Empty) : Run window watch [] w
  | next {history : List Turn} {w : World} (h : Run window watch history w) (now : Moment)
      (call : Api.Call) :
      Run window watch (history ++ [(Turn.make window watch now call w).1])
        (Turn.make window watch now call w).2

namespace Run

variable {window : BookingWindow} {watch : Watch} {history : List Turn} {w : World}

theorem sound (h : Run window watch history w) : w.store.Sound := by
  induction h with
  | start h => exact h.sound
  | next h now call ih => exact (Turn.make_outcome now call ih).1

theorem append (h : Run window watch history w) (calls : List (Moment × Api.Call)) :
    Run window watch (history ++ (Turn.makeAll window watch calls w).1)
      (Turn.makeAll window watch calls w).2 := by
  induction calls generalizing history w with
  | nil =>
      rw [Turn.makeAll, List.append_nil]
      exact h
  | cons entry rest ih =>
      have hrest := ih (h.next entry.1 entry.2)
      rw [List.append_assoc] at hrest
      exact hrest

/-- What holds of empty books, and is kept by every outcome of a turn, holds after every run. -/
theorem induction_books {P : List Turn → Books → Prop}
    (hstart : ∀ st : Store, st.Empty → P [] st.books)
    (hnext : ∀ history turn, turn.before.Sound → turn.Outcome → P history turn.before.books →
      P (history ++ [turn]) turn.after.books)
    (h : Run window watch history w) : P history w.store.books := by
  induction h with
  | start h => exact hstart _ h
  | next h now call ih => exact hnext _ _ h.sound (Turn.make_outcome now call h.sound).2 ih

end Run

/-! ### Histories -/

/-- Does `P` hold of every turn and the history before it? -/
def Throughout (P : List Turn → Turn → Prop) (history : List Turn) : Prop :=
  ∀ n turn, history[n]? = some turn → P (history.take n) turn

instance {P : List Turn → Turn → Prop} [∀ earlier turn, Decidable (P earlier turn)]
    (history : List Turn) : Decidable (Throughout P history) :=
  decidable_of_iff (∀ n < history.length, ∀ turn ∈ history[n]?, P (history.take n) turn)
    ⟨fun h n turn hn => h n (List.getElem?_eq_some_iff.mp hn).1 turn hn,
      fun h n _ turn hn => h n turn hn⟩

theorem throughout_nil {P : List Turn → Turn → Prop} : Throughout P [] := by
  intro n turn hn
  rw [List.getElem?_nil] at hn
  cases hn

theorem throughout_append {P : List Turn → Turn → Prop} {history : List Turn} {turn : Turn} :
    Throughout P (history ++ [turn]) ↔ Throughout P history ∧ P history turn := by
  constructor
  · intro h
    refine ⟨fun n turn' hn => ?_, ?_⟩
    · have hlt := (List.getElem?_eq_some_iff.mp hn).1
      have hall := h n turn' (by rwa [List.getElem?_append_left hlt])
      rwa [List.take_append_of_le_length hlt.le] at hall
    · have hlast := h history.length turn (by simp)
      rwa [List.take_left'] at hlast
      rfl
  · rintro ⟨h, hlast⟩ n turn' hn
    rcases Nat.lt_or_ge n history.length with hlt | hge
    · rw [List.getElem?_append_left hlt] at hn
      rw [List.take_append_of_le_length hlt.le]
      exact h n turn' hn
    · rw [List.getElem?_append_right hge] at hn
      obtain ⟨hlt, hn⟩ := List.getElem?_eq_some_iff.mp hn
      have hn0 : n = history.length := by
        rw [List.length_singleton] at hlt
        omega
      subst hn0
      rw [List.take_left' rfl]
      simp only [Nat.sub_self, List.getElem_cons_zero] at hn
      exact hn ▸ hlast

/-! ### A small gym -/

namespace Sample

/-- A world with an empty journal. -/
def world (store : Store) : World := ⟨store, [], .empty⟩

/-- The beginning of the year 2030. -/
def newYear : Moment := ⟨1893456000 * Moment.perSecond, 0⟩

/-- Noon on the second of January. -/
def noon : TrainingRequest := ⟨"2030-01-02T12:00:00Z", "legs"⟩

def tess : Caller := ⟨"t", .trainer, "Tess"⟩
def ann : Caller := ⟨"a", .attendee, "Ann"⟩
def bob : Caller := ⟨"b", .attendee, "Bob"⟩

/-- Tess gives Ann and Bob a credit each, and opens noon. -/
def opening : List Api.Call := [
  .createUser tess ann.id ⟨some ann.id, "attendee", ann.name, 1⟩,
  .createUser tess bob.id ⟨some bob.id, "attendee", bob.name, 1⟩,
  .makeHoursAvailable tess ⟨[noon.time]⟩]

/-- What comes of the calls, after the opening, on a store. -/
def playOn (store : Store) (calls : List Api.Call) : List Turn × World :=
  Turn.makeAll .standard .bare ((opening ++ calls).map fun call => (newYear, call)) (world store)

/-- What comes of the calls, after the opening, in memory. -/
def play (calls : List Api.Call) : List Turn × World := playOn (.memory .empty) calls

theorem runOn {store : Store} (hstore : store.Empty) (calls : List Api.Call) :
    Run .standard .bare (playOn store calls).1 (playOn store calls).2 := by
  have hstart : Run .standard .bare [] (world store) := .start hstore
  exact hstart.append ((opening ++ calls).map fun call => (newYear, call))

theorem run (calls : List Api.Call) : Run .standard .bare (play calls).1 (play calls).2 :=
  runOn .memory calls

end Sample

end TrainerBooking
