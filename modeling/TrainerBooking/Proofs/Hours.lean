import Mathlib.Data.List.Sort
import TrainerBooking.Proofs.Meets
import TrainerBooking.Repository.Hours

/-! # The hours of the books

What the acts on the calendar do to the books of a store of either kind.

* **Beginning.** `Books.startHour` is the hour with which an update begins: the one in the books,
  or a new one that the booking window admits.
* **Updating.** `Books.updateHour` is the outcome of an update by a transition `f` that looks at
  nothing but the hour: the second of the time changes, or nothing does (`Meets.updateHour`).
  In tables the transaction is never run again, since a sound store reports no deadlock.
* **Reading.** `Meets.hour?` and `Meets.hoursBetween` leave the books as they are. -/

namespace TrainerBooking

/-! ### Lists of what may fail -/

/-- A list goes through if all of its elements do. -/
theorem mapM_eq_ok_iff {ε α β : Type} {f : α → Except ε β} {l : List α} {l' : List β} :
    l.mapM f = .ok l' ↔ List.Forall₂ (fun a b => f a = .ok b) l l' := by
  induction l generalizing l' with
  | nil =>
      rw [List.mapM_nil, List.forall₂_nil_left_iff]
      constructor
      · intro h
        cases h
        rfl
      · rintro rfl
        rfl
  | cons a rest ih =>
      rw [List.mapM_cons, List.forall₂_cons_left_iff]
      constructor
      · intro h
        cases ha : f a with
        | error e => rw [ha] at h; cases h
        | ok b =>
            cases hrest : rest.mapM f with
            | error e => rw [ha, hrest] at h; cases h
            | ok others =>
                rw [ha, hrest] at h
                cases h
                exact ⟨b, others, rfl, ih.mp hrest, rfl⟩
      · rintro ⟨b, others, ha, hrest, rfl⟩
        rw [ha, ih.mpr hrest]
        rfl

/-- What goes through comes from an element. -/
theorem exists_of_mem_mapM {ε α β : Type} {f : α → Except ε β} {l : List α} {l' : List β}
    (h : l.mapM f = .ok l') {b : β} (hb : b ∈ l') : ∃ a ∈ l, f a = .ok b := by
  induction mapM_eq_ok_iff.mp h with
  | nil => cases hb
  | @cons a b' l l' hfirst hrest ih =>
      rcases List.mem_cons.mp hb with rfl | hb
      · exact ⟨a, List.mem_cons_self, hfirst⟩
      · obtain ⟨a', ha', hf⟩ := ih (mapM_eq_ok_iff.mpr hrest) hb
        exact ⟨a', List.mem_cons_of_mem _ ha', hf⟩

/-- One element that fails spoils the list, and nothing else does. -/
theorem mapM_eq_error_iff {ε α β : Type} {f : α → Except ε β} {l : List α} :
    (∃ c, l.mapM f = .error c) ↔ ∃ a ∈ l, ∃ c, f a = .error c := by
  induction l with
  | nil =>
      constructor
      · rintro ⟨c, h⟩
        cases h
      · rintro ⟨a, ha, -⟩
        cases ha
  | cons a rest ih =>
      rw [List.mapM_cons, List.exists_mem_cons_iff, ← ih]
      cases ha : f a with
      | error c => exact ⟨fun _ => .inl ⟨c, rfl⟩, fun _ => ⟨c, rfl⟩⟩
      | ok b =>
          cases hrest : rest.mapM f with
          | error c => exact ⟨fun _ => .inr ⟨c, rfl⟩, fun _ => ⟨c, rfl⟩⟩
          | ok others =>
              constructor
              · rintro ⟨c, h⟩
                cases h
              · rintro (⟨c, h⟩ | ⟨c, h⟩) <;> cases h

namespace Row

theorem decodeSecond_ok {s : Int} (h : Moment.inYears s = true) :
    decodeSecond s = .ok ⟨s * Moment.perSecond, 0⟩ := by
  rw [decodeSecond, Moment.ofSecond?_eq h]

theorem decodeSecond_corrupted {s : Int} (h : Moment.inYears s = false) :
    ∃ detail, decodeSecond s = .error (.corruptedRow detail) := by
  have hnone : Moment.ofSecond? s = none := by
    rw [Moment.ofSecond?, Moment.checked, Moment.representable, Moment.localSecond,
      Moment.second_mul, Int.add_zero, h]
    rfl
  exact ⟨_, by rw [decodeSecond, hnone]⟩

end Row

/-- Rows that can be decoded are listed as what they mean. -/
theorem Row.mapM_decode {ρ α : Type} {decode : ρ → Except DatabaseFault α} {meaning? : ρ → Option α}
    {l : List ρ} (h : ∀ r ∈ l, ∃ a, meaning? r = some a ∧ decode r = .ok a) :
    l.mapM decode = .ok (l.filterMap meaning?) := by
  induction l with
  | nil => rfl
  | cons r rest ih =>
      obtain ⟨a, hm, hd⟩ := h r List.mem_cons_self
      rw [List.mapM_cons, hd, ih fun r' hr' => h r' (List.mem_cons_of_mem _ hr'),
        List.filterMap_cons_some hm]
      rfl

theorem HourRow.meaning?_isSome {r : HourRow} (h : r.isSound = true) :
    ∃ hour, r.meaning? = some hour := by
  rw [HourRow.isSound, Row.isAvailability_eq] at h
  obtain ⟨a, ha⟩ := Option.isSome_iff_exists.mp h
  exact ⟨_, by rw [HourRow.meaning?, ha]; rfl⟩

theorem HourRow.decode_eq {r : HourRow} {h : Hour} (hm : r.meaning? = some h)
    (hy : Moment.inYears r.second = true) : r.decode = .ok h := by
  obtain ⟨a, ha, rfl⟩ := Option.map_eq_some_iff.mp hm
  rw [HourRow.decode, Row.decodeSecond_ok hy, Row.decodeAvailability, Availability.parse, ha]
  rfl

theorem HourRow.meaning?_relabel {r : HourRow} {h : Hour} (a : Availability)
    (hm : r.meaning? = some h) :
    { r with availability := a.label }.meaning? = some { h with availability := a } := by
  obtain ⟨a', -, rfl⟩ := Option.map_eq_some_iff.mp hm
  simp [HourRow.meaning?]

/-- The numbers of the rows are all different, and none of them is above the last number given. -/
structure HourTable.Numbered (t : HourTable) : Prop where
  le : ∀ {s r}, t.rows.get? s = some r → r.rowId ≤ t.lastRowId
  inj : ∀ {s s' r r'}, t.rows.get? s = some r → t.rows.get? s' = some r' → r.rowId = r'.rowId →
    s = s'

namespace HourTable

variable {t : HourTable}

theorem get?_append (second other : Int) (label : String) :
    (t.append second label).rows.get? other =
      if other = second then some ⟨t.lastRowId + 1, second, label⟩ else t.rows.get? other :=
  Registry.get?_put ..

theorem Sound.numbered (ht : t.Sound) : t.Numbered := ⟨ht.rowId_le, ht.rowId_inj⟩

/-- A new row gets a number of its own. -/
theorem Numbered.append (ht : t.Numbered) (second : Int) (label : String) :
    (t.append second label).Numbered := by
  have key : ∀ {s r}, (t.append second label).rows.get? s = some r →
      (s = second ∧ r.rowId = t.lastRowId + 1) ∨ t.rows.get? s = some r := by
    intro s r hr
    rw [get?_append] at hr
    split at hr
    · next hs => exact .inl ⟨hs, by rw [← Option.some.inj hr]⟩
    · exact .inr hr
  constructor
  · intro s r hr
    obtain ⟨-, hid⟩ | hr := key hr
    · exact hid.le
    · exact Nat.le_succ_of_le (ht.le hr)
  · intro s s' r r' hr hr' he
    obtain ⟨hs, hid⟩ | hr := key hr <;> obtain ⟨hs', hid'⟩ | hr' := key hr'
    · rw [hs, hs']
    · have := ht.le hr'
      omega
    · have := ht.le hr
      omega
    · exact ht.inj hr hr' he

/-- Rows that are changed keep their numbers. -/
theorem Numbered.of_old (ht : t.Numbered) {rows : Registry Int HourRow}
    (hold : ∀ {s r}, rows.get? s = some r → ∃ old, t.rows.get? s = some old ∧ old.rowId = r.rowId) :
    { t with rows := rows }.Numbered := by
  constructor
  · intro s r hr
    obtain ⟨old, ho, hid⟩ := hold hr
    exact hid ▸ ht.le ho
  · intro s s' r r' hr hr' he
    obtain ⟨old, ho, hid⟩ := hold hr
    obtain ⟨old', ho', hid'⟩ := hold hr'
    exact ht.inj ho ho' (by rw [hid, hid', he])

/-- Row numbers are unique, so the statement changes the row of one second only. -/
theorem Sound.get?_setAvailability (ht : t.Sound) {second : Int} {row : HourRow} {label : String}
    (hrow : t.rows.get? second = some row) (other : Int) :
    (t.setAvailability row.rowId label).rows.get? other =
      if other = second then some { row with availability := label } else t.rows.get? other := by
  rw [setAvailability, Registry.get?_map]
  by_cases ho : other = second
  · rw [if_pos ho, ho, hrow, Option.map_some, if_pos rfl]
  · rw [if_neg ho]
    cases hr : t.rows.get? other with
    | none => rfl
    | some r =>
        have hne : ¬ r.rowId = row.rowId := fun he => ho (ht.rowId_inj hr hrow he)
        rw [Option.map_some, if_neg hne]

theorem Sound.append (ht : t.Sound) {second : Int} (hy : Moment.inYears second = true)
    (hnone : t.rows.get? second = none) (a : Availability) :
    (t.append second a.label).Sound := by
  have key : ∀ {s r}, (t.append second a.label).rows.get? s = some r →
      (s = second ∧ r = ⟨t.lastRowId + 1, second, a.label⟩) ∨
        (s ≠ second ∧ t.rows.get? s = some r) := by
    intro s r hr
    rw [get?_append] at hr
    split at hr
    · next hs => exact .inl ⟨hs, (Option.some.inj hr).symm⟩
    · next hs => exact .inr ⟨hs, hr⟩
  constructor
  · intro s r hr
    obtain ⟨rfl, rfl⟩ | ⟨-, hr⟩ := key hr
    · rfl
    · exact ht.second hr
  · intro s r hr
    obtain ⟨rfl, -⟩ | ⟨-, hr⟩ := key hr
    · exact hy
    · exact ht.inYears hr
  · intro s r hr
    obtain ⟨-, rfl⟩ | ⟨-, hr⟩ := key hr
    · simp [HourRow.isSound]
    · exact ht.known hr
  · exact (ht.numbered.append second a.label).le
  · exact (ht.numbered.append second a.label).inj

theorem Sound.setAvailability (ht : t.Sound) {second : Int} {row : HourRow}
    (hrow : t.rows.get? second = some row) (a : Availability) :
    (t.setAvailability row.rowId a.label).Sound := by
  have key : ∀ {s r}, (t.setAvailability row.rowId a.label).rows.get? s = some r →
      ∃ old, t.rows.get? s = some old ∧ old.rowId = r.rowId ∧ old.second = r.second ∧
        r.isSound = true := by
    intro s r hr
    rw [ht.get?_setAvailability hrow] at hr
    split at hr
    · next hs =>
        obtain rfl := Option.some.inj hr
        exact ⟨row, hs ▸ hrow, rfl, rfl, by simp [HourRow.isSound]⟩
    · exact ⟨r, hr, rfl, rfl, ht.known hr⟩
  have hnumbered : (t.setAvailability row.rowId a.label).Numbered :=
    ht.numbered.of_old fun hr => by
      obtain ⟨old, ho, hid, -⟩ := key hr
      exact ⟨old, ho, hid⟩
  constructor
  · intro s r hr
    obtain ⟨old, ho, -, hs, -⟩ := key hr
    exact hs ▸ ht.second ho
  · intro s r hr
    obtain ⟨old, ho, -⟩ := key hr
    exact ht.inYears ho
  · intro s r hr
    obtain ⟨-, -, -, -, hk⟩ := key hr
    exact hk
  · exact hnumbered.le
  · exact hnumbered.inj

end HourTable

/-! ### The outcome of an update -/

/-- The window admits times only that can be told in UTC. -/
theorem BookingWindow.toUtc?_of_check {window : BookingWindow} {time now : Moment} {u : Unit}
    (h : window.check time now = .done u) : time.toUtc?.isSome := by
  unfold BookingWindow.check at h
  split at h
  · next hu _ => rw [hu]; rfl
  · cases h

/-- The row of an hour that the window admits is decoded as that hour. -/
theorem HourRow.decode_of_check {window : BookingWindow} {time now : Moment}
    (hcheck : window.check time now = .done ()) (rowId : Nat) (a : Availability) :
    HourRow.decode ⟨rowId, time.second, a.label⟩ = .ok ⟨time.floored, a⟩ := by
  refine decode_eq ?_ (Moment.toUtc?_isSome_iff.mp (BookingWindow.toUtc?_of_check hcheck))
  simp [meaning?]
  rfl

namespace Books

variable (b : Books)

/-- The hour with which an update of a time begins. -/
def startHour (time : Moment) (s : Setting) : Ending Failure Hour :=
  match b.hours time.second with
  | some h => .done h
  | none =>
    ((s.window.newHour .notAvailable time s.now).mapCause Failure.rule).mapValue
      fun h => { h with time := b.keptTime h.time }

/-- How the update of the hour of a time by the transition `f` ends, and the books then. -/
def updateHour (time : Moment) (f : Hour → Ending Failure Hour) (s : Setting) :
    Ending Failure Hour × Books :=
  match b.startHour time s with
  | .done h =>
    match f h with
    | .done h' => (.done h', b.setHour time.second (b.keptHour h h'))
    | .refused c => (.refused c, b)
    | .crashed => (.crashed, b)
  | .refused c => (.refused c, b)
  | .crashed => (.crashed, b)

end Books

/-! ### Updating in memory -/

namespace Memory

variable {m : Memory}

@[simp] theorem trainings_claim (second : Int) (m : Memory) :
    (m.claim second).trainings = m.trainings := by
  unfold claim
  split <;> rfl

@[simp] theorem accounts_claim (second : Int) (m : Memory) :
    (m.claim second).accounts = m.accounts := by
  unfold claim
  split <;> rfl

@[simp] theorem trainings_release (second : Int) (m : Memory) :
    (m.release second).trainings = m.trainings := by
  unfold release
  split <;> rfl

@[simp] theorem accounts_release (second : Int) (m : Memory) :
    (m.release second).accounts = m.accounts := by
  unfold release
  split <;> rfl

theorem Sound.of_eq {m' : Memory} (hm : m.Sound) (ht : m'.trainings = m.trainings)
    (ha : m'.accounts = m.accounts) : m'.Sound := by
  constructor
  · rw [ht]
    exact hm.training_id
  · rw [ha]
    exact hm.account_id
  · rw [ha]
    exact hm.balance_nonneg

@[simp] theorem books_claim (second : Int) (m : Memory) : (m.claim second).books = m.books := by
  simp only [books, trainings_claim, accounts_claim, Books.mk.injEq, and_true, true_and]
  funext other
  exact hour?_claim second other m

@[simp] theorem books_release (second : Int) (m : Memory) : (m.release second).books = m.books := by
  simp only [books, trainings_release, accounts_release, Books.mk.injEq, and_true, true_and]
  funext other
  exact hour?_release second other m

theorem books_file (second : Int) (h : Hour) (m : Memory) :
    (m.file second h).books = m.books.setHour second h := by
  simp only [books, Books.setHour, Books.mk.injEq, true_and]
  refine ⟨funext fun other => ?_, rfl, rfl⟩
  rw [hour?_file, Function.update_apply]

end Memory

namespace Repository

theorem startingHour_eq (m : Memory) (time : Moment) (s : Setting) :
    startingHour m time s = m.books.startHour time s := by
  unfold startingHour Books.startHour
  cases h : m.hour? time.second with
  | some hour => simp [Memory.books, h]
  | none =>
      simp only [Memory.books, h, Books.keptTime, if_true, BookingWindow.newHour]
      cases s.window.check time s.now <;> rfl

/-- An update in memory claims the slot, runs the transition, and files the hour or lets go. -/
theorem updateHourInMemory_run {m : Memory} (time : Moment) (f : Hour → Ending Failure Hour)
    {s : Setting} (hs : s.held.hours = []) {w : World} (hw : w.store = .memory m) :
    updateHourInMemory time (fun h => Act.ofEnding (f h)) m s w =
      ((m.books.updateHour time f s).1, { w with store := .memory <|
        match (m.books.updateHour time f s).1 with
        | .done h => (m.claim time.second).file time.second h
        | .refused _ => (m.claim time.second).release time.second
        | .crashed => m.claim time.second }) := by
  have hc : (Act.changeMemory (Memory.claim time.second) : Act Failure Unit) s w =
      (.done (), { w with store := .memory (m.claim time.second) }) := by
    simp [Act.changeMemory, Act.change, hw]
  have hh : s.held.hours.contains time.second = false := by simp [hs]
  rw [updateHourInMemory, Act.bind_run_done (Act.setting_run s w), Act.bind_run_done hc]
  simp only [hh, Bool.false_eq_true, if_false, startingHour_eq, Books.updateHour]
  cases m.books.startHour time s with
  | refused c => rfl
  | crashed => rfl
  | done h => cases hf : f h <;> simp [Act.bind_run, Act.settle, Act.holding, hf] <;> rfl

/-! ### Updating in tables -/

@[simp] theorem ofDatabase_ok_run {α : Type} (a : α) (s : Setting) (w : World) :
    (ofDatabase (.ok a) : Act Failure α) s w = (.done a, w) := rfl

@[simp] theorem ofDatabase_error_run {α : Type} (f : DatabaseFault) (s : Setting) (w : World) :
    (ofDatabase (.error f) : Act Failure α) s w = (.refused f.toFailure, w) := rfl

/-- While nothing is held, a connection is there. -/
@[simp] theorem lease_free (t : Tables) (access : Tables.Access) :
    t.lease false access = .ok () := rfl

end Repository

namespace Tables

variable {t : Tables}

/-- Without traps a statement has its effect. -/
theorem change_of_no_trap {σ : Type} {d : Database} {st : Statement} (htrap : t.trap? d st = none)
    (before : σ) (effect : Except DatabaseFault σ) :
    t.change d st before effect = effect.map fun after => (after, true) := by
  rw [change, htrap]

theorem trap?_eq_none (ht : t.traps = []) (d : Database) (st : Statement) :
    t.trap? d st = none := by
  rw [trap?, ht]
  rfl

theorem change_eq {σ : Type} (ht : t.traps = []) (d : Database) (st : Statement) (before : σ)
    (effect : Except DatabaseFault σ) :
    t.change d st before effect = effect.map fun after => (after, true) :=
  change_of_no_trap (trap?_eq_none ht d st) before effect

theorem hasRow_of_get? {table : HourTable} {second : Int} {row : HourRow}
    (h : table.rows.get? second = some row) : table.hasRow row.rowId = true := by
  rw [HourTable.hasRow, List.any_eq_true]
  exact ⟨row, List.mem_map.mpr ⟨(second, row), Registry.mem_entries_iff.mpr h, rfl⟩, by simp⟩

theorem insertHour_of_no_trap (htrap : t.trap? .calendar .insert = none) {second : Int}
    {table : HourTable} (label : String) (h : table.rows.get? second = none) :
    t.insertHour second label table = .ok (table.append second label, true) := by
  rw [insertHour, Registry.contains, h, change_of_no_trap htrap]
  rfl

theorem updateHour_of_no_trap (htrap : t.trap? .calendar .update = none) {rowId : Nat}
    {table : HourTable} (hrow : table.hasRow rowId = true) (label : String) :
    t.updateHour rowId label table = .ok (table.setAvailability rowId label) := by
  rw [updateHour, if_pos hrow, change_of_no_trap htrap]
  rfl

theorem Sound.withHours (ht : t.Sound) {table : HourTable} (h : table.Sound) :
    { t with hours := table }.Sound :=
  ⟨ht.traps, ht.mishaps, h, ht.training_id, ht.training_sound, ht.account_id, ht.account_sound⟩

theorem books_append {second : Int} (t : Tables) (a : Availability) :
    { t with hours := t.hours.append second a.label }.books =
      t.books.setHour second ⟨⟨second * Moment.perSecond, 0⟩, a⟩ := by
  simp only [books, Books.setHour, Books.mk.injEq, true_and, and_true]
  funext other
  rw [HourTable.get?_append, Function.update_apply]
  split
  · simp [HourRow.meaning?]
  · rfl

theorem Sound.books_setAvailability (ht : t.Sound) {second : Int} {row : HourRow} {h : Hour}
    (hrow : t.hours.rows.get? second = some row) (hm : row.meaning? = some h) (a : Availability) :
    { t with hours := t.hours.setAvailability row.rowId a.label }.books =
      t.books.setHour second { h with availability := a } := by
  simp only [books, Books.setHour, Books.mk.injEq, true_and, and_true]
  funext other
  rw [ht.hours.get?_setAvailability hrow, Function.update_apply]
  split
  · exact HourRow.meaning?_relabel a hm
  · rfl

end Tables

namespace Repository

/-- The rest of the try of a number, once the row is there. -/
def finishUpdate (time : Moment) (transition : Hour → Act Failure Hour) (t : Tables)
    (number : Nat) (table : HourTable) (row : HourRow) : Act Rollback Hour := do
  let h ← (Act.ofExcept row.decode).mapCause Rollback.fault
  let updated ← ((transition h).holding (Held.withHour time.second)).mapCause Rollback.rejected
  let table ← (Act.ofExcept ((t.inTry time.second number).updateHour row.rowId
    updated.availability.label table)).mapCause Rollback.fault
  Act.changeTables fun t => { t with hours := table }
  return updated

theorem updateHourOnce_eq (time : Moment) (transition : Hour → Act Failure Hour) (t : Tables)
    (number : Nat) : updateHourOnce time transition t number =
      rowForUpdate time t number >>= fun p => finishUpdate time transition t number p.1 p.2 := rfl

/-- Once the row is there, the transition alone decides. -/
theorem finishUpdate_run {t : Tables} (ht : t.Sound) {time : Moment}
    (f : Hour → Ending Failure Hour) (number : Nat) {table : HourTable} (htable : table.Sound) {row : HourRow}
    {h : Hour} (hrow : table.rows.get? time.second = some row) (hm : row.meaning? = some h)
    (s : Setting) {w : World} (hw : w.store = .tables t) :
    finishUpdate time (fun h => Act.ofEnding (f h)) t number table row s w =
      match f h with
      | .done h' =>
        let after := table.setAvailability row.rowId h'.availability.label
        (.done h', { w with store := Store.tables { t with hours := after } })
      | .refused c => (.refused (.rejected c), w)
      | .crashed => (.crashed, w) := by
  have hy : Moment.inYears row.second = true := by
    rw [htable.second hrow]
    exact htable.inYears hrow
  have hd : row.decode = .ok h := HourRow.decode_eq hm hy
  unfold finishUpdate
  rw [hd, Tables.inTry_eq_self ht.mishaps]
  cases hf : f h with
  | refused c => simp [Act.bind_run, Act.mapCause, Act.holding, Act.ofExcept, Ending.ofExcept,
      Ending.mapCause, hf]
  | crashed => simp [Act.bind_run, Act.mapCause, Act.holding, Act.ofExcept, Ending.ofExcept,
      Ending.mapCause, hf]
  | done h' =>
      have hu := Tables.updateHour_of_no_trap (Tables.trap?_eq_none ht.traps _ _)
        (Tables.hasRow_of_get? hrow) h'.availability.label
      simp [Act.bind_run, Act.mapCause, Act.holding, Act.ofExcept, Ending.ofExcept,
        Ending.mapCause, hf, hu, Act.changeTables, Act.change, hw]

/-- The row with which a transaction begins: it stands for the hour with which the update begins. -/
theorem rowForUpdate_run {t : Tables} (ht : t.Sound) (time : Moment) (number : Nat) (s : Setting)
    (w : World) :
    match t.books.startHour time s with
    | .done h => ∃ table row w',
        rowForUpdate time t number s w = (.done (table, row), w') ∧ w'.store = w.store ∧
          table.Sound ∧ table.rows.get? time.second = some row ∧ row.meaning? = some h ∧
          ∀ a, { t with hours := table.setAvailability row.rowId (Availability.label a) }.books =
            t.books.setHour time.second { h with availability := a }
    | .refused c => rowForUpdate time t number s w = (.refused (.rejected c), w)
    | .crashed => rowForUpdate time t number s w = (.crashed, w) := by
  cases hr : t.hours.rows.get? time.second with
  | some row =>
      obtain ⟨h, hm⟩ := HourRow.meaning?_isSome (ht.hours.known hr)
      have hb : t.books.hours time.second = some h := by
        rw [Tables.books_hours, hr, Option.bind_some, hm]
      simp only [Books.startHour, hb]
      refine ⟨t.hours, row, w, ?_, rfl, ht.hours, hr, hm, fun a => ?_⟩
      · rw [rowForUpdate, hr]
        rfl
      · exact ht.books_setAvailability hr hm a
  | none =>
      have hb : t.books.hours time.second = none := by
        rw [Tables.books_hours, hr, Option.bind_none]
      simp only [Books.startHour, hb, BookingWindow.newHour]
      cases hc : s.window.check time s.now with
      | refused v =>
          rw [rowForUpdate, hr]
          simp [Act.bind_run, BookingWindow.newHour, hc, Ending.mapCause, Ending.mapValue]
      | crashed =>
          rw [rowForUpdate, hr]
          simp [Act.bind_run, BookingWindow.newHour, hc, Ending.mapCause, Ending.mapValue]
      | done u =>
          have hy : Moment.inYears time.second = true :=
            Moment.toUtc?_isSome_iff.mp (BookingWindow.toUtc?_of_check hc)
          have hs := ht.hours.append hy hr .notAvailable
          have hrow := HourTable.get?_append (t := t.hours) time.second time.second
            (Availability.label .notAvailable)
          rw [if_pos rfl] at hrow
          have hn := Tables.inTry_eq_self ht.mishaps time.second number
          have hi := Tables.insertHour_of_no_trap (Tables.trap?_eq_none ht.traps _ _)
            (Availability.label .notAvailable) hr
          refine ⟨_, _, (rowForUpdate time t number s w).2, ?_, ?_, hs, hrow, rfl, fun a => ?_⟩
          · rw [rowForUpdate, hr]
            simp [Act.bind_run, BookingWindow.newHour, hc, Ending.mapCause, Ending.mapValue,
              Act.mapCause, Act.ofExcept, hn, hi, Ending.ofExcept, Act.note, hrow]
          · rw [rowForUpdate, hr]
            simp [Act.bind_run, BookingWindow.newHour, hc, Ending.mapCause, Ending.mapValue,
              Act.mapCause, Act.ofExcept, hn, hi, Ending.ofExcept, Act.note, hrow]
          · have ha := (ht.withHours hs).books_setAvailability hrow rfl a
            rw [ha, Tables.books_append]
            simp only [Books.setHour, Function.update_idem]
            rfl

/-- An update in tables puts the outcome into the row, or leaves the table as it was. -/
theorem updateHourInTables_run {t : Tables} (ht : t.Sound) (time : Moment)
    (f : Hour → Ending Failure Hour) {s : Setting} (hs : s.held.hours = []) {w : World}
    (hw : w.store = .tables t) :
    ∃ t' w', updateHourInTables time (fun h => Act.ofEnding (f h)) t s w =
        ((t.books.updateHour time f s).1, w') ∧
      w'.store = .tables t' ∧ t'.Sound ∧ t'.books = (t.books.updateHour time f s).2 := by
  have hl : (ofDatabase (t.lease (!s.held.hours.isEmpty) .writing) : Act Failure Unit) s w =
      (.done (), w) := by
    rw [hs]
    rfl
  have hrow := rowForUpdate_run ht time 1 s w
  rw [updateHourInTables, Act.bind_run_done (Act.setting_run s w), Act.bind_run_done hl]
  simp only [greatestAttempts, retrying, updateHourOnce_eq, Books.updateHour]
  cases hb : t.books.startHour time s with
  | refused c =>
      rw [hb] at hrow
      refine ⟨t, w, ?_, hw, ht, rfl⟩
      simp [Act.bind_run, Act.settle, hrow, Rollback.deadlock?, Rollback.toFailure]
  | crashed =>
      rw [hb] at hrow
      refine ⟨t, w, ?_, hw, ht, rfl⟩
      simp [Act.bind_run, Act.settle, hrow, Act.crash]
  | done h =>
      rw [hb] at hrow
      obtain ⟨table, row, w', hrun, hw', htable, hget, hm, hbooks⟩ := hrow
      rw [hw] at hw'
      have hfin := finishUpdate_run ht f 1 htable hget hm s hw'
      cases hf : f h with
      | done h' =>
          rw [hf] at hfin
          refine ⟨{ t with hours := table.setAvailability row.rowId h'.availability.label }, _,
            Prod.ext ?_ rfl, ?_, ht.withHours (htable.setAvailability hget _), ?_⟩
          · simp [Act.bind_run, Act.settle, hrun, hfin, hf]
          · simp [Act.bind_run, Act.settle, hrun, hfin]
          · simp only [hf]
            exact hbooks _
      | refused c =>
          rw [hf] at hfin
          refine ⟨t, w', ?_, hw', ht, by simp only [hf]⟩
          simp [Act.bind_run, Act.settle, hrun, hfin, hf, Rollback.deadlock?, Rollback.toFailure]
      | crashed =>
          rw [hf] at hfin
          refine ⟨t, w', ?_, hw', ht, by simp only [hf]⟩
          simp [Act.bind_run, Act.settle, hrun, hfin, hf, Act.crash]

end Repository

/-! ### Listings -/

/-- The list shows the hours of the seconds from the first to the last, in order of time. -/
def Books.ListsHours (b : Books) (first last : Int) (l : List Hour) : Prop :=
  ∃ seconds : List Int, seconds.Pairwise (· < ·) ∧
    (∀ s, s ∈ seconds ↔ (first ≤ s ∧ s ≤ last) ∧ (b.hours s).isSome) ∧
    l = seconds.filterMap b.hours

/-- A range of hours is listed in one way only. -/
theorem Books.ListsHours.unique {b : Books} {first last : Int} {l l' : List Hour}
    (h : b.ListsHours first last l) (h' : b.ListsHours first last l') : l = l' := by
  obtain ⟨ss, hlt, hmem, rfl⟩ := h
  obtain ⟨ss', hlt', hmem', rfl⟩ := h'
  have he : ss = ss' := hlt.eq_of_mem_iff hlt' fun s => (hmem s).trans (hmem' s).symm
  rw [he]

/-- The entries of a range of a registry, seen through `f`, list the hours that the registry files
when it is seen through `f`. -/
theorem Registry.listsHours {ν : Type} (r : Registry Int ν) (f : ν → Option Hour) {b : Books}
    (hb : ∀ s, b.hours s = (r.get? s).bind f) (first last : Int) :
    b.ListsHours first last <|
      (r.entries.filter fun e => decide (first ≤ e.1) && decide (e.1 ≤ last)).filterMap
        fun e => f e.2 := by
  have hf : ∀ e ∈ r.entries, f e.2 = b.hours e.1 := by
    intro e he
    have hg : r.get? e.1 = some e.2 := Registry.mem_entries_iff.mp he
    rw [hb, hg, Option.bind_some]
  refine ⟨(r.entries.filter fun e => (decide (first ≤ e.1) && decide (e.1 ≤ last)) &&
    (b.hours e.1).isSome).map Prod.fst, ?_, ?_, ?_⟩
  · rw [List.pairwise_map]
    refine (r.sorted.filter _).imp fun h => ?_
    exact of_decide_eq_true h
  · intro s
    simp only [List.mem_map, List.mem_filter, Bool.and_eq_true, decide_eq_true_eq]
    constructor
    · rintro ⟨e, ⟨-, hr, hs⟩, rfl⟩
      exact ⟨hr, hs⟩
    · rintro ⟨hr, hs⟩
      obtain ⟨h, hh⟩ := Option.isSome_iff_exists.mp hs
      have hg := hb s
      rw [hh] at hg
      obtain ⟨v, hv, -⟩ := Option.bind_eq_some_iff.mp hg.symm
      exact ⟨(s, v), ⟨Registry.mem_entries_iff.mpr hv, hr, hs⟩, rfl⟩
  · rw [List.filterMap_map, List.filterMap_filter, List.filterMap_filter]
    refine List.filterMap_congr fun e he => ?_
    rw [hf e he]
    cases h : b.hours e.1 <;> simp [h]

theorem Memory.listsHours (m : Memory) (first last : Int) :
    m.books.ListsHours first last ((m.slotsBetween first last).filterMap Prod.snd) :=
  Registry.listsHours m.hours id (fun s => by
    rw [Memory.books_hours, Memory.hour?, Option.bind_id_eq_join]) first last

theorem Tables.Sound.listsHours {t : Tables} (ht : t.Sound) (first last : Int) :
    ∃ l, (t.hoursBetween first last).mapM HourRow.decode = .ok l ∧
      t.books.ListsHours first last l := by
  refine ⟨_, ?_, Registry.listsHours t.hours.rows HourRow.meaning? (fun _ => rfl) first last⟩
  have hrow : ∀ e ∈ t.hours.rows.entries, ∃ h, e.2.second = e.1 ∧ e.2.meaning? = some h ∧
      e.2.decode = .ok h := by
    intro e he
    have hg : t.hours.rows.get? e.1 = some e.2 := Registry.mem_entries_iff.mp he
    obtain ⟨h, hm⟩ := HourRow.meaning?_isSome (ht.hours.known hg)
    have hs := ht.hours.second hg
    exact ⟨h, hs, hm, HourRow.decode_eq hm (hs ▸ ht.hours.inYears hg)⟩
  have hrange : t.hoursBetween first last = (t.hours.rows.entries.filter fun e =>
      decide (first ≤ e.1) && decide (e.1 ≤ last)).map Prod.snd := by
    rw [hoursBetween, Registry.values, List.filter_map]
    refine congrArg (List.map Prod.snd) (List.filter_congr fun e he => ?_)
    obtain ⟨-, hs, -⟩ := hrow e he
    simp [hs]
  have hdecode : (t.hoursBetween first last).mapM HourRow.decode =
      .ok ((t.hoursBetween first last).filterMap HourRow.meaning?) := by
    refine Row.mapM_decode fun r hr => ?_
    rw [hrange] at hr
    obtain ⟨e, he, rfl⟩ := List.mem_map.mp hr
    obtain ⟨h, -, hm, hd⟩ := hrow e (List.mem_of_mem_filter he)
    exact ⟨h, hm, hd⟩
  rw [hdecode, hrange, List.filterMap_map]
  rfl

/-! ### Acts on the calendar -/

namespace Act.Meets

variable {s : Setting} {b : Books}

/-- An update by a transition that looks at nothing but the hour does what the books say. -/
theorem updateHour {time : Moment} {f : Hour → Ending Failure Hour} (hs : s.held.hours = [])
    {Q : Ending Failure Hour → Books → Prop}
    (hQ : Q (b.updateHour time f s).1 (b.updateHour time f s).2) :
    (Repository.updateHour time fun h => Act.ofEnding (f h)).Meets s b Q := by
  intro w hw hb
  subst hb
  cases hst : w.store with
  | memory m =>
      rw [hst] at hw hQ
      have hrun := Repository.updateHourInMemory_run time f hs hst
      rw [Repository.updateHour, bind_run_done (store_run s w), hst]
      simp only [hrun]
      simp only [Store.books, Books.updateHour] at hQ ⊢
      cases hb : m.books.startHour time s with
      | refused c =>
          rw [hb] at hQ
          exact ⟨Memory.Sound.of_eq hw (by simp) (by simp), by simpa using hQ⟩
      | crashed =>
          rw [hb] at hQ
          exact ⟨Memory.Sound.of_eq hw (by simp) (by simp), by simpa using hQ⟩
      | done h =>
          rw [hb] at hQ
          cases hf : f h with
          | refused c =>
              simp only [hf] at hQ ⊢
              exact ⟨Memory.Sound.of_eq hw (by simp) (by simp), by simpa using hQ⟩
          | crashed =>
              simp only [hf] at hQ ⊢
              exact ⟨Memory.Sound.of_eq hw (by simp) (by simp), by simpa using hQ⟩
          | done h' =>
              simp only [hf] at hQ ⊢
              refine ⟨Memory.Sound.of_eq hw (Memory.trainings_claim ..)
                (Memory.accounts_claim ..), ?_⟩
              rw [Memory.books_file, Memory.books_claim]
              exact hQ
  | tables t =>
      rw [hst] at hw hQ
      obtain ⟨t', w', hrun, hw', ht', hbooks⟩ :=
        Repository.updateHourInTables_run hw time f hs hst
      rw [Repository.updateHour, bind_run_done (store_run s w), hst]
      simp only [hrun, hw']
      refine ⟨ht', ?_⟩
      rw [Store.books, hbooks]
      exact hQ

/-- Reading an hour answers what the books say. -/
theorem hour? {time : Moment} (hs : s.held.hours = [])
    {Q : Ending Failure (Option Hour) → Books → Prop} (hQ : Q (.done (b.hours time.second)) b) :
    (Repository.hour? time).Meets s b Q := by
  intro w hw hb
  subst hb
  rw [Repository.hour?, bind_run_done (setting_run s w), bind_run_done (store_run s w)]
  cases hst : w.store with
  | memory m =>
      rw [hst] at hw hQ
      simp only [Store.books, Memory.books_hours, Memory.hour?] at hQ
      cases hslot : m.hours.get? time.second with
      | none =>
          rw [hslot] at hQ
          simpa [hslot, hst] using ⟨hw, hQ⟩
      | some slot =>
          rw [hslot] at hQ
          simpa [hslot, hst, hs] using ⟨hw, hQ⟩
  | tables t =>
      rw [hst] at hw hQ
      simp only [Store.books, Tables.books_hours] at hQ
      cases hrow : t.hours.rows.get? time.second with
      | none =>
          rw [hrow] at hQ
          simpa [bind_run, hs, hrow, hst] using ⟨hw, hQ⟩
      | some row =>
          have htable := Tables.Sound.hours hw
          obtain ⟨h, hm⟩ := HourRow.meaning?_isSome (htable.known hrow)
          have hy : Moment.inYears row.second = true := by
            rw [htable.second hrow]
            exact htable.inYears hrow
          have hd : row.decode = .ok h := HourRow.decode_eq hm hy
          rw [hrow, Option.bind_some, hm] at hQ
          simpa [bind_run, hs, hrow, hst, hd] using ⟨hw, hQ⟩

/-- Reading a range that does not end before it begins answers the hours in order of time. -/
theorem hoursBetween {first last : Moment} (hs : s.held.hours = [])
    (hle : first.second ≤ last.second) {Q : Ending Failure (List Hour) → Books → Prop}
    (hQ : ∀ l, b.ListsHours first.second last.second l → Q (.done l) b) :
    (Repository.hoursBetween first last).Meets s b Q := by
  intro w hw hb
  subst hb
  rw [Repository.hoursBetween, bind_run_done (setting_run s w), bind_run_done (store_run s w)]
  cases hst : w.store with
  | memory m =>
      rw [hst] at hw hQ
      have hl := m.listsHours first.second last.second
      have hn : ¬ last.second < first.second := by omega
      simpa [hn, hs, hst] using ⟨hw, hQ _ hl⟩
  | tables t =>
      rw [hst] at hw hQ
      obtain ⟨l, hd, hl⟩ := Tables.Sound.listsHours hw first.second last.second
      simpa [bind_run, hs, hst, hd] using ⟨hw, hQ _ hl⟩

end Act.Meets

end TrainerBooking
