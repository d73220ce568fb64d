import TrainerBooking.Proofs.Hours
import TrainerBooking.Repository.Trainings

/-! # The trainings of the books

What the acts on trainings do to the books of a store of either kind.

* **Rows.** The row of a training means the training to the whole second
  (`TrainingRow.meaning_encode`), and it can be decoded exactly if its times are in range
  (`TrainingRow.decode_cases`).
* **Adding.** A new training is filed under its identifier, unless that is taken.
* **Updating.** In a store of either kind an update reads the training, asks whether the caller may see
  it, runs the transition and saves what comes of it (`Repository.updateTraining_run`).  The transition
  may work on the other books, but not on the trainings; `Refiling` says what it has to end with for the
  update to meet `Q`.
* **Listing.** A listing is determined by the books (`Books.ListsTrainings.unique`). -/

namespace TrainerBooking

/-! ### The order of trainings -/

namespace Training

theorem before_iff {a b : Training} : a.before b = true ↔
    a.time.nanos < b.time.nanos ∨ (a.time.nanos = b.time.nanos ∧ a.id ≤ b.id) := by
  simp [before, Moment.lt_def]

theorem before_total (a b : Training) : (a.before b || b.before a) = true := by
  rw [Bool.or_eq_true, before_iff, before_iff]
  rcases lt_trichotomy a.time.nanos b.time.nanos with h | h | h
  · exact .inl (.inl h)
  · rcases String.le_total a.id b.id with hid | hid
    · exact .inl (.inr ⟨h, hid⟩)
    · exact .inr (.inr ⟨h.symm, hid⟩)
  · exact .inr (.inl h)

theorem before_trans {a b c : Training} (hab : a.before b = true) (hbc : b.before c = true) :
    a.before c = true := by
  rw [before_iff] at *
  rcases hab with hab | ⟨hab, hid⟩
  · rcases hbc with hbc | ⟨hbc, -⟩
    · exact .inl (hab.trans hbc)
    · exact .inl (hbc ▸ hab)
  · rcases hbc with hbc | ⟨hbc, hid'⟩
    · exact .inl (hab ▸ hbc)
    · exact .inr ⟨hab.trans hbc, String.le_trans hid hid'⟩

theorem id_eq_of_before {a b : Training} (hab : a.before b = true) (hba : b.before a = true) :
    a.id = b.id := by
  rw [before_iff] at hab hba
  rcases hab with hab | ⟨hab, hid⟩
  · omega
  · rcases hba with hba | ⟨hba, hid'⟩
    · omega
    · exact String.le_antisymm hid hid'

end Training

/-! ### Rows of trainings -/

namespace TrainingRow

@[simp] theorem isSound_encode (t : Training) : (encode t).isSound = true := by
  unfold isSound encode
  cases t.proposal with
  | none => cases t.canceled <;> rfl
  | some p => cases t.canceled <;> simp

@[simp] theorem id_encode (t : Training) : (encode t).id = t.id := rfl

theorem meaning_encode (t : Training) : (encode t).meaning = t.floored := by
  unfold meaning Training.floored proposalMeaning encode Moment.floored
  cases t.proposal with
  | none => cases hc : t.canceled <;> simp [Column.holds]
  | some p => cases hc : t.canceled <;> simp [Column.holds]

theorem decodeSecond_cases (second : Int) :
    (Moment.inYears second = true ∧
        Row.decodeSecond second = .ok ⟨second * Moment.perSecond, 0⟩) ∨
      (¬ Moment.inYears second = true ∧ ∃ f, Row.decodeSecond second = .error f) := by
  cases h : Moment.inYears second with
  | true => exact .inl ⟨rfl, Row.decodeSecond_ok h⟩
  | false =>
      obtain ⟨detail, hd⟩ := Row.decodeSecond_corrupted h
      exact .inr ⟨Bool.false_ne_true, _, hd⟩

/-- A sound row is decoded as what it means, or its times are out of range. -/
theorem decode_cases {r : TrainingRow} (h : r.isSound = true) :
    (r.meaning.Readable ∧ r.decode = .ok r.meaning) ∨
      (¬ r.meaning.Readable ∧ ∃ f, r.decode = .error f) := by
  obtain ⟨id, owner, ownerName, second, notes, newSecond, proposedBy, canceled⟩ := r
  simp only [isSound, Bool.and_eq_true] at h
  obtain ⟨⟨hboth, hrole⟩, -⟩ := h
  unfold Training.Readable decode decodeProposal meaning proposalMeaning
  cases newSecond with
  | none =>
      cases proposedBy with
      | some role => simp at hboth
      | none =>
          obtain ⟨hy, hd⟩ | ⟨hy, f, hd⟩ := decodeSecond_cases second
          · refine .inl ⟨⟨by simpa using hy, by simp⟩, ?_⟩
            simp only [hd]
            rfl
          · refine .inr ⟨fun hr => hy (by simpa using hr.1), f, ?_⟩
            simp only [hd]
            rfl
  | some new =>
      cases proposedBy with
      | none => simp at hboth
      | some label =>
          obtain ⟨role, hl⟩ := Row.exists_of_isRole hrole
          have hdr : Row.decodeRole label = .ok role := by rw [Row.decodeRole, Role.parse, hl]
          simp only [hl, Option.map_some, Option.some.injEq, forall_eq', Moment.second_mul, hdr]
          obtain ⟨hn, hdn⟩ | ⟨hn, f, hdn⟩ := decodeSecond_cases new
          · obtain ⟨hy, hd⟩ | ⟨hy, f, hd⟩ := decodeSecond_cases second
            · refine .inl ⟨⟨hy, hn⟩, ?_⟩
              simp only [hd, hdn]
              rfl
            · refine .inr ⟨fun hr => hy hr.1, f, ?_⟩
              simp only [hd, hdn]
              rfl
          · refine .inr ⟨fun hr => hn hr.2, f, ?_⟩
            simp only [hdn]
            rfl

theorem holds_canceled {r : TrainingRow} (h : r.isSound = true) :
    decide (r.canceled = 0) = !Column.holds r.canceled := by
  simp only [isSound, Bool.and_eq_true, Bool.or_eq_true, beq_iff_eq] at h
  rcases h.2 with hc | hc <;> rw [hc] <;> rfl

/-- Rows are listed in the order of the trainings that they mean. -/
theorem before_meaning (r r' : TrainingRow) : r.meaning.before r'.meaning = r.before r' := by
  have hlt : r.second * Moment.perSecond < r'.second * Moment.perSecond ↔ r.second < r'.second := by
    unfold Moment.perSecond
    omega
  have heq : r.second * Moment.perSecond = r'.second * Moment.perSecond ↔ r.second = r'.second := by
    unfold Moment.perSecond
    omega
  rw [Bool.eq_iff_iff, Training.before_iff]
  simp [before, meaning, hlt, heq]

/-- The row with the columns that can change written anew. -/
def rewritten (t : Training) (r : TrainingRow) : TrainingRow :=
  { encode t with id := r.id, owner := r.owner, ownerName := r.ownerName }

/-- If the columns that stay are those of the training, it is the row of the training. -/
theorem rewritten_eq {r : TrainingRow} {t : Training} (hid : r.id = t.id)
    (howner : r.owner = t.owner) (hname : r.ownerName = t.ownerName) :
    r.rewritten t = encode t := by
  rw [rewritten, hid, howner, hname]
  rfl

end TrainingRow

/-! ### Statements on trainings -/

namespace Tables

variable {t : Tables}

theorem insertTraining_taken (ht : t.traps = []) {training : Training} {row : TrainingRow}
    (h : t.trainings.get? training.id = some row) :
    t.insertTraining (TrainingRow.encode training) =
      .error (.uniqueViolation "UNIQUE constraint failed: trainings.training_id") := by
  rw [insertTraining, change_eq ht, TrainingRow.isSound_encode, TrainingRow.id_encode,
    Registry.contains, h]
  rfl

theorem insertTraining_free (ht : t.traps = []) {training : Training}
    (h : t.trainings.get? training.id = none) :
    t.insertTraining (TrainingRow.encode training) =
      .ok (t.trainings.put training.id (TrainingRow.encode training), true) := by
  rw [insertTraining, change_eq ht, TrainingRow.isSound_encode, TrainingRow.id_encode,
    Registry.contains, h]
  rfl

/-- Saving a training writes the columns of its row that can change. -/
theorem saveTraining_of_no_trap (htrap : t.trap? .trainings .update = none) {training : Training}
    {old : TrainingRow} (h : t.trainings.get? training.id = some old) :
    t.saveTraining (TrainingRow.encode training) =
      .ok (t.trainings.put training.id (old.rewritten training)) := by
  rw [saveTraining, TrainingRow.id_encode, h]
  dsimp only
  rw [change_of_no_trap htrap]
  rfl

theorem saveTraining_eq (ht : t.traps = []) {training : Training} {old : TrainingRow}
    (h : t.trainings.get? training.id = some old) (hid : old.id = training.id)
    (howner : old.owner = training.owner) (hname : old.ownerName = training.ownerName) :
    t.saveTraining (TrainingRow.encode training) =
      .ok (t.trainings.put training.id (TrainingRow.encode training)) := by
  rw [saveTraining_of_no_trap (trap?_eq_none ht _ _) h,
    TrainingRow.rewritten_eq hid howner hname]

theorem Sound.withTraining (ht : t.Sound) {row : TrainingRow} (hs : row.isSound = true) :
    { t with trainings := t.trainings.put row.id row }.Sound := by
  refine ⟨ht.traps, ht.mishaps, ht.hours, ?_, ?_, ht.account_id, ht.account_sound⟩
  · intro id r hr
    simp only [Registry.get?_put] at hr
    split at hr
    · next hid => rw [hid, ← Option.some.inj hr]
    · exact ht.training_id hr
  · intro id r hr
    simp only [Registry.get?_put] at hr
    split at hr
    · rw [← Option.some.inj hr]
      exact hs
    · exact ht.training_sound hr

theorem books_withTraining (t : Tables) (row : TrainingRow) :
    { t with trainings := t.trainings.put row.id row }.books =
      t.books.setTraining row.id row.meaning := by
  simp only [books, Books.setTraining, Books.mk.injEq, true_and, and_true]
  funext other
  rw [Registry.get?_put, Function.update_apply]
  split <;> rfl

/-- The rows of one sound store may be put into another. -/
theorem Sound.withTrainings {t' : Tables} (ht' : t'.Sound) (ht : t.Sound) {row : TrainingRow}
    (hs : row.isSound = true) : { t' with trainings := t.trainings.put row.id row }.Sound :=
  ⟨ht'.traps, ht'.mishaps, ht'.hours, (ht.withTraining hs).training_id,
    (ht.withTraining hs).training_sound, ht'.account_id, ht'.account_sound⟩

theorem books_withTrainings {t' : Tables} (h : t'.books.trainings = t.books.trainings)
    (row : TrainingRow) :
    { t' with trainings := t.trainings.put row.id row }.books =
      t'.books.setTraining row.id row.meaning := by
  have hb := congrArg Books.trainings (t.books_withTraining row)
  simp only [books, Books.setTraining, Books.mk.injEq, true_and, and_true] at hb h ⊢
  rw [h]
  exact hb

end Tables

namespace Memory

variable {m : Memory}

theorem Sound.withTraining (hm : m.Sound) {id : String} {t : Training} (hid : t.id = id) :
    (m.fileTraining id t).Sound := by
  refine ⟨?_, hm.account_id, hm.balance_nonneg⟩
  intro other t' ht'
  simp only [fileTraining, Registry.get?_put] at ht'
  split at ht'
  · next ho => rw [ho, ← Option.some.inj ht', hid]
  · exact hm.training_id ht'

theorem books_fileTraining (m : Memory) (id : String) (t : Training) :
    (m.fileTraining id t).books = m.books.setTraining id t := by
  simp only [books, fileTraining, Books.setTraining, Books.mk.injEq, true_and, and_true]
  refine ⟨rfl, funext fun other => ?_⟩
  rw [Registry.get?_put, Function.update_apply]

theorem addTraining_taken {t t' : Training} (h : m.trainings.get? t.id = some t') :
    m.addTraining t = .error (.duplicate ("training '" ++ t.id ++ "' already exists")) := by
  rw [addTraining, Registry.contains, h]
  rfl

theorem addTraining_free {t : Training} (h : m.trainings.get? t.id = none) :
    m.addTraining t = .ok (m.fileTraining t.id t) := by
  rw [addTraining, Registry.contains, h]
  rfl

end Memory

/-! ### Updates -/

theorem Store.memory_of_inMemory {st : Store} (h : st.books.inMemory = true) :
    ∃ m, st = .memory m := by
  cases st with
  | memory m => exact ⟨m, rfl⟩
  | tables t => cases h

theorem Store.tables_of_inMemory {st : Store} (h : st.books.inMemory = false) :
    ∃ t, st = .tables t := by
  cases st with
  | memory m => cases h
  | tables t => exact ⟨t, rfl⟩

/-- The training of an identifier as the store reads it, or why it cannot. -/
def Store.read (st : Store) (id : String) : Except Failure Training :=
  match st with
  | .memory m => (m.trainings.get? id).elim (.error (Repository.noTraining id)) .ok
  | .tables tb => (tb.trainings.get? id).elim (.error (Repository.noTraining id)) fun row =>
      row.decode.mapError DatabaseFault.toFailure

/-- A sound store reads the training of its books, unless there is none or its row cannot be decoded. -/
theorem Store.Sound.read_cases {st : Store} (h : st.Sound) (id : String) :
    (st.books.trainings id = none ∧ st.read id = .error (Repository.noTraining id)) ∨
      ∃ t, st.books.trainings id = some t ∧ ((st.books.Reads t ∧ st.read id = .ok t) ∨
        (¬ st.books.Reads t ∧ ∃ f : DatabaseFault, st.read id = .error f.toFailure)) := by
  cases st with
  | memory m =>
      rw [Store.books, Memory.books_trainings, Store.read]
      cases m.trainings.get? id with
      | none => exact .inl ⟨rfl, rfl⟩
      | some t => exact .inr ⟨t, rfl, .inl ⟨.inl rfl, rfl⟩⟩
  | tables tb =>
      rw [Store.books, Tables.books_trainings, Store.read]
      cases hg : tb.trainings.get? id with
      | none => exact .inl ⟨rfl, rfl⟩
      | some row =>
          refine .inr ⟨row.meaning, rfl, ?_⟩
          rw [Option.elim_some]
          obtain ⟨hread, hd⟩ | ⟨hread, f, hd⟩ := TrainingRow.decode_cases (Tables.Sound.training_sound h hg)
          · exact .inl ⟨.inr hread, by rw [hd]; rfl⟩
          · refine .inr ⟨?_, f, by rw [hd]; rfl⟩
            rintro (h | h)
            · cases h
            · exact hread h

namespace Repository

/-- The end of an update that began at the store `st`: the training is saved. -/
def saving (st : Store) (id : String) (updated : Training) : Act Failure Unit :=
  match st with
  | .memory _ => Act.changeMemory (Memory.fileTraining id updated)
  | .tables t => do
    let rows ← ofDatabase (t.saveTraining (TrainingRow.encode updated))
    Act.changeTables fun t => { t with trainings := rows }

theorem read_run {st : Store} {id : String} {t : Training} (h : st.read id = .ok t) (s : Setting)
    (w : World) : (Act.ofExcept (st.read id) : Act Failure Training) s w = (.done t, w) := by
  rw [h]
  rfl

theorem checkSees_run {caller : Caller} {t : Training} (h : caller.sees t = true) (s : Setting)
    (w : World) : Act.ofRule (caller.checkSees t) s w = (.done (), w) := by
  rw [Caller.checkSees, if_pos h]
  rfl

theorem checkSees_run_unseen {caller : Caller} {t : Training} (h : caller.sees t = false)
    (s : Setting) (w : World) : Act.ofRule (caller.checkSees t) s w =
      (.refused (.rule (.notVisible caller.id t.owner)), w) := by
  rw [Caller.checkSees, if_neg (Bool.eq_false_iff.mp h)]
  rfl

/-- In a store of either kind, an update reads the training and asks whether the caller may see it; then
it runs the transition while the training is held, and saves what comes of it. -/
theorem updateTraining_run {id : String} {caller : Caller}
    (transition : Training → Act Failure Training) {s : Setting} (hs : s.held.trainings = [])
    (w : World) :
    updateTraining id caller transition s w = (do
      let t ← Act.ofExcept (w.store.read id)
      Act.ofRule (caller.checkSees t)
      let updated ← (transition t).holding (Held.withTraining id)
      saving w.store id updated
      return updated) s w := by
  rw [updateTraining, Act.bind_run_done (Act.store_run s w)]
  cases w.store with
  | memory m =>
      dsimp only
      rw [updateTrainingInMemory, Act.bind_run_done (Act.setting_run s w), hs, Store.read]
      cases m.trainings.get? id with
      | none => rfl
      | some t => rfl
  | tables tb =>
      have hlease : tb.lease (!s.held.trainings.isEmpty) .writing = .ok () := by
        rw [hs]
        rfl
      dsimp only
      rw [updateTrainingInTables, Act.bind_run_done (Act.setting_run s w), hlease,
        Act.bind_run_done (ofDatabase_ok_run ..), Store.read]
      cases tb.trainings.get? id with
      | none => rfl
      | some row =>
          have hsaving : ∀ updated, (saving (.tables tb) id updated >>= fun _ => pure updated) = (do
              let rows ← ofDatabase (tb.saveTraining (TrainingRow.encode updated))
              Act.changeTables fun t => { t with trainings := rows }
              return updated : Act Failure Training) := by
            intro updated
            funext s w
            rw [saving, Act.bind_run, Act.bind_run, Act.bind_run]
            cases tb.saveTraining (TrainingRow.encode updated) <;> rfl
          simp only [hsaving, Option.elim_some]
          cases row.decode <;> rfl

end Repository

/-! ### Listings -/

/-- The list shows the trainings that satisfy a condition, by time and identifier. -/
def Books.ListsTrainings (b : Books) (keep : Training → Bool) (l : List Training) : Prop :=
  (∀ t, t ∈ l ↔ b.trainings t.id = some t ∧ keep t = true) ∧ l.Nodup ∧
    l.Pairwise fun t t' => t.before t' = true

/-- Values that tell their keys are listed once each. -/
theorem Registry.values_pairwise {κ ν : Type} [KeyOrder κ] [DecidableEq κ] {r : Registry κ ν}
    {key : ν → κ} (h : ∀ {k v}, r.get? k = some v → key v = k) :
    r.values.Pairwise fun v v' => key v ≠ key v' := by
  rw [Registry.values, List.pairwise_map]
  refine r.sorted.imp_of_mem fun {e e'} he he' hlt => ?_
  have hk : key e.2 = e.1 := h (Registry.mem_entries_iff.mp he)
  have hk' : key e'.2 = e'.1 := h (Registry.mem_entries_iff.mp he')
  rw [hk, hk']
  exact KeyOrder.ne_of_before hlt

theorem Registry.mem_values_iff {κ ν : Type} [KeyOrder κ] [DecidableEq κ] {r : Registry κ ν}
    {key : ν → κ} (h : ∀ {k v}, r.get? k = some v → key v = k) {v : ν} :
    v ∈ r.values ↔ r.get? (key v) = some v := by
  rw [Registry.values, List.mem_map]
  constructor
  · rintro ⟨e, he, rfl⟩
    have hg : r.get? e.1 = some e.2 := Registry.mem_entries_iff.mp he
    rw [h hg, hg]
  · intro hg
    exact ⟨(key v, v), Registry.mem_entries_iff.mpr hg, rfl⟩

theorem Memory.Sound.listsTrainings {m : Memory} (hm : m.Sound) (keep : Training → Bool) :
    m.books.ListsTrainings keep (m.listTrainings keep) := by
  refine ⟨fun t => ?_, ?_, ?_⟩
  · rw [listTrainings, List.mem_mergeSort, List.mem_filter, Registry.mem_values_iff hm.training_id,
      Memory.books_trainings]
  · rw [listTrainings, List.nodup_mergeSort]
    refine List.Nodup.filter _ ((Registry.values_pairwise hm.training_id).imp fun hne he => ?_)
    exact hne (congrArg Training.id he)
  · show ((m.trainings.values.filter keep).mergeSort Training.before).Pairwise _
    refine List.pairwise_mergeSort (fun a b c hab hbc => ?_) (fun a b => ?_) _
    · exact Training.before_trans hab hbc
    · exact Training.before_total a b

/-- The rows of a listing show the trainings of the books, or one of those to be shown cannot be
read. -/
theorem Tables.Sound.listsTrainings {tb : Tables} (hsound : tb.Sound) (keepRow : TrainingRow → Bool)
    (keep : Training → Bool) (hkeep : ∀ r, r.isSound = true → keepRow r = keep r.meaning) :
    (∃ l, (tb.listTrainings keepRow).mapM TrainingRow.decode = .ok l ∧
        tb.books.ListsTrainings keep l ∧ ∀ t ∈ l, tb.books.Reads t) ∨
      ∃ f t, (tb.listTrainings keepRow).mapM TrainingRow.decode = .error f ∧
        tb.books.trainings t.id = some t ∧ keep t = true ∧ ¬ tb.books.Reads t := by
  have hmem : ∀ r, r ∈ tb.listTrainings keepRow ↔
      tb.trainings.get? r.id = some r ∧ keepRow r = true := by
    intro r
    rw [listTrainings, List.mem_mergeSort, List.mem_filter, Registry.mem_values_iff hsound.training_id]
  have hbooks : ∀ {r}, tb.trainings.get? r.id = some r →
      tb.books.trainings r.meaning.id = some r.meaning := by
    intro r hr
    have hid : r.meaning.id = r.id := rfl
    rw [Tables.books_trainings, hid, hr, Option.map_some]
  by_cases hall : ∀ r ∈ tb.listTrainings keepRow, r.decode = .ok r.meaning
  · refine .inl ⟨(tb.listTrainings keepRow).map TrainingRow.meaning, ?_, ⟨fun t => ?_, ?_, ?_⟩,
      fun t ht => ?_⟩
    · rw [Row.mapM_decode fun r hr => ⟨r.meaning, rfl, hall r hr⟩, List.filterMap_eq_map']
    · rw [List.mem_map]
      constructor
      · rintro ⟨r, hr, rfl⟩
        obtain ⟨hg, hk⟩ := (hmem r).mp hr
        exact ⟨hbooks hg, hkeep r (hsound.training_sound hg) ▸ hk⟩
      · rintro ⟨hg, hk⟩
        obtain ⟨r, hr, hm⟩ := Option.map_eq_some_iff.mp hg
        have hid : r.id = t.id := hsound.training_id hr
        refine ⟨r, (hmem r).mpr ⟨hid ▸ hr, ?_⟩, hm⟩
        rw [hkeep r (hsound.training_sound hr), hm, hk]
    · have hids : (tb.listTrainings keepRow).Pairwise fun r r' => r.id ≠ r'.id :=
        ((List.mergeSort_perm _ _).pairwise_iff fun h => h.symm).mpr
          ((Registry.values_pairwise hsound.training_id).filter _)
      rw [List.Nodup, List.pairwise_map]
      exact hids.imp fun hne he => hne (congrArg Training.id he)
    · rw [List.pairwise_map]
      have hsorted : (tb.listTrainings keepRow).Pairwise fun r r' => r.before r' = true := by
        refine List.pairwise_mergeSort (fun a b c hab hbc => ?_) (fun a b => ?_) _
        · rw [← TrainingRow.before_meaning] at *
          exact Training.before_trans hab hbc
        · rw [← TrainingRow.before_meaning, ← TrainingRow.before_meaning]
          exact Training.before_total _ _
      exact hsorted.imp fun {r r'} h => (TrainingRow.before_meaning r r').trans h
    · obtain ⟨r, hr, rfl⟩ := List.mem_map.mp ht
      obtain ⟨hread, -⟩ | ⟨-, f, hd⟩ := TrainingRow.decode_cases (hsound.training_sound ((hmem r).mp hr).1)
      · exact .inr hread
      · rw [hall r hr] at hd
        cases hd
  · have hbad : ∃ r ∈ tb.listTrainings keepRow, r.decode ≠ .ok r.meaning := by
      simpa using hall
    obtain ⟨r, hr, hne⟩ := hbad
    obtain ⟨hg, hk⟩ := (hmem r).mp hr
    obtain ⟨-, hd⟩ | ⟨hread, f, hd⟩ := TrainingRow.decode_cases (hsound.training_sound hg)
    · exact absurd hd hne
    · obtain ⟨f, hf⟩ := mapM_eq_error_iff.mpr ⟨r, hr, f, hd⟩
      refine .inr ⟨f, r.meaning, hf, hbooks hg, hkeep r (hsound.training_sound hg) ▸ hk, ?_⟩
      rintro (h | h)
      · cases h
      · exact hread h

/-- Trainings are listed in one way only. -/
theorem Books.ListsTrainings.unique {b : Books} {keep : Training → Bool} {l l' : List Training}
    (h : b.ListsTrainings keep l) (h' : b.ListsTrainings keep l') : l = l' := by
  obtain ⟨hmem, hnodup, hsorted⟩ := h
  obtain ⟨hmem', hnodup', hsorted'⟩ := h'
  have hperm : l.Perm l' :=
    (List.perm_ext_iff_of_nodup hnodup hnodup').mpr fun t => (hmem t).trans (hmem' t).symm
  refine hperm.eq_of_pairwise (fun t t' ht ht' hle hle' => ?_) hsorted hsorted'
  have hid : t.id = t'.id := Training.id_eq_of_before hle hle'
  have hb := ((hmem t).mp ht).1
  have hb' := ((hmem' t').mp ht').1
  rw [hid, hb'] at hb
  exact (Option.some.inj hb).symm

/-! ### Acts on trainings -/

namespace Act.Meets

variable {s : Setting} {b : Books}

/-- A new training is filed under its identifier, unless that is taken. -/
theorem addTraining {t : Training} (hs : s.held.trainings = []) {Q : Ending Failure Unit → Books → Prop}
    (htaken : ∀ detail, (b.trainings t.id).isSome → Q (.refused (.storage (.duplicate detail))) b)
    (hfree : b.trainings t.id = none → Q (.done ()) (b.setTraining t.id (b.kept t))) :
    (Repository.addTraining t).Meets s b Q := by
  intro w hw hb
  subst hb
  cases hst : w.store with
  | memory m =>
      rw [hst] at hw htaken hfree
      simp only [Store.books, Memory.books_trainings] at htaken hfree
      cases hg : m.trainings.get? t.id with
      | some t' =>
          rw [hg] at htaken
          simpa [Repository.addTraining, bind_run, hst, Memory.addTraining_taken hg, mapCause_run,
            Act.ofExcept, Ending.ofExcept, Ending.mapCause] using ⟨hw, htaken _ rfl⟩
      | none =>
          have hsound : (m.fileTraining t.id t).Sound := Memory.Sound.withTraining hw rfl
          have hq := hfree hg
          rw [Memory.books_kept, ← Memory.books_fileTraining] at hq
          simpa [Repository.addTraining, bind_run, hst, Memory.addTraining_free hg, mapCause_run,
            Act.ofExcept, Ending.ofExcept, Ending.mapCause, setStore] using ⟨hsound, hq⟩
  | tables tb =>
      rw [hst] at hw htaken hfree
      simp only [Store.books, Tables.books_trainings] at htaken hfree
      have htraps := Tables.Sound.traps hw
      cases hg : tb.trainings.get? t.id with
      | some r =>
          rw [hg] at htaken
          simpa [Repository.addTraining, bind_run, hs, hst, Tables.insertTraining_taken htraps hg]
            using ⟨hw, htaken _ rfl⟩
      | none =>
          rw [hg] at hfree
          have hsound := Tables.Sound.withTraining hw (TrainingRow.isSound_encode t)
          have hbooks := tb.books_withTraining (TrainingRow.encode t)
          have hq := hfree rfl
          rw [Tables.books_kept, ← TrainingRow.meaning_encode] at hq
          rw [TrainingRow.id_encode] at hsound hbooks
          rw [← hbooks] at hq
          simpa [Repository.addTraining, bind_run, hs, hst, Tables.insertTraining_free htraps hg,
            changeTables, Act.note] using ⟨hsound, hq⟩

/-- What a transition of the training `t` has to end with for its update to meet `Q`: it leaves the
trainings alone, and the training keeps its identifier and its owner. -/
def Refiling (Q : Ending Failure Training → Books → Prop) (b : Books) (id : String) (t : Training) :
    Ending Failure Training → Books → Prop
  | .done t', b' =>
    (t'.id = t.id ∧ t'.owner = t.owner ∧ t'.ownerName = t.ownerName) ∧
      b'.inMemory = b.inMemory ∧ b'.trainings = b.trainings ∧
      Q (.done t') (b'.setTraining id (b'.kept t'))
  | .refused f, b' => Q (.refused f) b'
  | .crashed, b' => Q .crashed b'

/-- What such a transition ends with can be saved. -/
theorem Refiling.saved {Q : Ending Failure Training → Books → Prop} {id : String} {st : Store}
    {t t' : Training} {w : World} (hst : st.Sound) (ht : st.books.trainings id = some t)
    (hw : w.store.Sound) (h : Refiling Q st.books id t (.done t') w.store.books) (s : Setting) :
    ∃ w', Repository.saving st id t' s w = (.done (), w') ∧ w'.store.Sound ∧
      Q (.done t') w'.store.books := by
  obtain ⟨⟨hid, howner, hname⟩, hkind, htrainings, hq⟩ := h
  cases st with
  | memory m =>
      have hid' : t'.id = id := hid.trans (Memory.Sound.training_id hst ht)
      obtain ⟨m', hst'⟩ := Store.memory_of_inMemory hkind
      rw [hst'] at hw hq
      rw [Store.books, Memory.books_kept, ← Memory.books_fileTraining] at hq
      refine ⟨_, rfl, ?_⟩
      simp only [hst']
      exact ⟨Memory.Sound.withTraining hw hid', hq⟩
  | tables tb =>
      rw [Store.books, Tables.books_trainings] at ht
      obtain ⟨row, hg, rfl⟩ := Option.map_eq_some_iff.mp ht
      have hid' : t'.id = id := hid.trans (Tables.Sound.training_id hst hg)
      have hsave := Tables.saveTraining_eq (Tables.Sound.traps hst) (hid' ▸ hg) hid.symm howner.symm
        hname.symm
      obtain ⟨tb', hst'⟩ := Store.tables_of_inMemory hkind
      rw [hst'] at hw htrainings hq
      have hs' := Tables.Sound.withTrainings hw hst (TrainingRow.isSound_encode t')
      have hb' := Tables.books_withTrainings htrainings (TrainingRow.encode t')
      rw [TrainingRow.id_encode, hid'] at hs' hb'
      rw [Store.books, Tables.books_kept, ← TrainingRow.meaning_encode, ← hb'] at hq
      rw [Repository.saving, hsave, bind_run_done (Repository.ofDatabase_ok_run ..)]
      refine ⟨_, rfl, ?_⟩
      simp only [hst', hid']
      exact ⟨hs', hq⟩

/-- An update refuses callers that may not see the training, and runs the transition otherwise. -/
theorem updateTraining {id : String} {caller : Caller} {transition : Training → Act Failure Training}
    (hs : s.held.trainings = []) {Q : Ending Failure Training → Books → Prop}
    (hnone : b.trainings id = none → Q (.refused (Repository.noTraining id)) b)
    (hunread : ∀ t (f : DatabaseFault), b.trainings id = some t → ¬ b.Reads t →
      Q (.refused f.toFailure) b)
    (hunseen : ∀ t, b.trainings id = some t → b.Reads t → caller.sees t = false →
      Q (.refused (.rule (.notVisible caller.id t.owner))) b)
    (hrun : ∀ t, b.trainings id = some t → b.Reads t → caller.sees t = true →
      (transition t).Meets { s with held := s.held.withTraining id } b (Refiling Q b id t)) :
    (Repository.updateTraining id caller transition).Meets s b Q := by
  intro w hw hb
  subst hb
  rw [Repository.updateTraining_run transition hs]
  obtain ⟨hno, hread⟩ | ⟨t, ht, ⟨hreads, hread⟩ | ⟨hreads, f, hread⟩⟩ := hw.read_cases id
  · rw [hread]
    exact ⟨hw, hnone hno⟩
  · rw [bind_run_done (Repository.read_run hread s w)]
    cases hsees : caller.sees t with
    | false =>
        rw [bind_run_refused (Repository.checkSees_run_unseen hsees s w)]
        exact ⟨hw, hunseen t ht hreads hsees⟩
    | true =>
        have hmeets := hrun t ht hreads hsees w hw rfl
        rw [bind_run_done (Repository.checkSees_run hsees s w), bind_run, holding, inside_run]
        generalize transition t _ w = r at hmeets
        obtain ⟨e, w'⟩ := r
        cases e with
        | refused f => exact hmeets
        | crashed => exact hmeets
        | done t' =>
            obtain ⟨hw', hrefiling⟩ := hmeets
            obtain ⟨w'', hsave, hw'', hq⟩ := hrefiling.saved hw ht hw' s
            dsimp only
            rw [bind_run_done hsave]
            exact ⟨hw'', hq⟩
  · rw [hread]
    exact ⟨hw, hunread t f ht hreads⟩

/-- A listing shows the trainings of the books, unless one of them cannot be read. -/
theorem allTrainings (hs : s.held.trainings = []) {Q : Ending Failure (List Training) → Books → Prop}
    (hunread : ∀ (f : DatabaseFault) t, b.trainings t.id = some t → ¬ b.Reads t →
      Q (.refused f.toFailure) b)
    (hQ : ∀ l, b.ListsTrainings (fun _ => true) l → (∀ t ∈ l, b.Reads t) → Q (.done l) b) :
    Repository.allTrainings.Meets s b Q := by
  intro w hw hb
  subst hb
  cases hst : w.store with
  | memory m =>
      rw [hst] at hw hQ
      simpa [Repository.allTrainings, bind_run, hst] using
        ⟨hw, hQ _ (Memory.Sound.listsTrainings hw fun _ => true) fun _ _ => .inl rfl⟩
  | tables tb =>
      rw [hst] at hw hQ hunread
      obtain ⟨l, hd, hl, hreads⟩ | ⟨f, t, hd, ht, -, hread⟩ :=
        Tables.Sound.listsTrainings hw (fun _ => true) (fun _ => true) fun _ _ => rfl
      · simpa [Repository.allTrainings, bind_run, hst, hs, hd] using ⟨hw, hQ _ hl hreads⟩
      · simpa [Repository.allTrainings, bind_run, hst, hs, hd] using
          ⟨hw, hunread f t ht hread⟩

/-- The trainings of an owner are those in the books that are not canceled. -/
theorem trainingsOf {owner : String} (hs : s.held.trainings = [])
    {Q : Ending Failure (List Training) → Books → Prop}
    (hunread : ∀ (f : DatabaseFault) t, b.trainings t.id = some t →
      (decide (t.owner = owner) && !t.canceled) = true → ¬ b.Reads t → Q (.refused f.toFailure) b)
    (hQ : ∀ l, b.ListsTrainings (fun t => decide (t.owner = owner) && !t.canceled) l →
      (∀ t ∈ l, b.Reads t) → Q (.done l) b) :
    (Repository.trainingsOf owner).Meets s b Q := by
  intro w hw hb
  subst hb
  cases hst : w.store with
  | memory m =>
      rw [hst] at hw hQ
      simpa [Repository.trainingsOf, bind_run, hst] using
        ⟨hw, hQ _ (Memory.Sound.listsTrainings hw _) fun _ _ => .inl rfl⟩
  | tables tb =>
      rw [hst] at hw hQ hunread
      obtain ⟨l, hd, hl, hreads⟩ | ⟨f, t, hd, ht, hkeep, hread⟩ :=
        Tables.Sound.listsTrainings hw
          (fun r => decide (r.owner = owner) && decide (r.canceled = 0))
          (fun t => decide (t.owner = owner) && !t.canceled)
          fun r hr => by rw [TrainingRow.meaning, TrainingRow.holds_canceled hr]
      · simpa [Repository.trainingsOf, bind_run, hst, hs, hd] using ⟨hw, hQ _ hl hreads⟩
      · simpa [Repository.trainingsOf, bind_run, hst, hs, hd] using
          ⟨hw, hunread f t ht hkeep hread⟩

end Act.Meets

end TrainerBooking
