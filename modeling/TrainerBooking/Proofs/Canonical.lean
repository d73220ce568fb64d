import TrainerBooking.Proofs.ByteOrder
import TrainerBooking.Proofs.Listing

/-! # Lists of trainings are exact, in a canonical order, and private

As long as every stored time lies in the years `0` to `9999` of UTC, whoever asks for the list of
trainings gets it, and three things are true of it.

* **Exact.** A trainer is shown every stored training once, an attendee their own ones that are not
  canceled (`Books.Shows`), each with what is stored of it (`TrainingResponse.Displays`).
* **Canonical.** The trainings are ordered by time and, among those of one time, by the bytes of
  their identifiers (`Books.Precedes`).  The order is strict, so it leaves one list only: it does
  not matter when and in which order the trainings were stored.
* **Private.** What an attendee is shown depends on their own trainings alone
  (`Run.lists_exactly`): two stores that agree on those give the same answer, whatever else they
  hold and of whichever kind they are. -/

namespace TrainerBooking

open Api

/-! ### Years -/

/-- Does the moment lie in the years `0` to `9999` of UTC? -/
def Moment.InUtcYears (m : Moment) : Prop :=
  ∃ utc, m.toUtc? = some utc ∧ 0 ≤ utc.date.year ∧ utc.date.year ≤ 9999

theorem Moment.inUtcYears_iff {m : Moment} : m.InUtcYears ↔ m.StampedInUtc := by
  rw [stampedInUtc_iff]
  simp only [InUtcYears, stamp?_isSome_iff]

theorem Moment.StampedInUtc.stampedInUtc_floored {m : Moment} (h : m.StampedInUtc) :
    m.floored.StampedInUtc := by
  have hyears : m.floored.toUtc?.isSome := by
    rw [toUtc?_isSome_iff, second_floored]
    exact h.inYears
  obtain ⟨utc, hutc⟩ := Option.isSome_iff_exists.mp hyears
  obtain rfl := toUtc?_eq_some hutc
  exact stampedInUtc_iff.mpr ⟨_, hutc, h.floored⟩

/-- Do all times of stored trainings lie in the years `0` to `9999` of UTC? -/
def Books.InUtcYears (b : Books) : Prop :=
  ∀ id t, b.trainings id = some t → ∀ x ∈ t.times, x.InUtcYears

namespace Run

variable {window : BookingWindow} {watch : Watch} {history : List Turn} {w : World}

/-- The stored times lie in these years if the ones that were read do. -/
theorem inUtcYears (h : Run window watch history w)
    (hread : ∀ m, Reads history m → m.StampedInUtc) : w.store.books.InUtcYears := by
  intro id t ht x hx
  obtain ⟨m, hm, rfl⟩ := h.dated id t ht x hx
  rw [Moment.inUtcYears_iff, Books.keptTime]
  split
  · exact hread m hm
  · exact (hread m hm).stampedInUtc_floored

/-- In these years every stored training can be shown. -/
theorem legible (h : Run window watch history w) (hyears : w.store.books.InUtcYears) {id : String}
    {t : Training} (ht : w.store.books.trainings id = some t) : w.store.books.Legible t := by
  cases hkind : w.store.books.inMemory with
  | true =>
      have hdated := h.dated.mono fun m hm => by
        obtain ⟨turn, -, s, -, hread⟩ := hm
        exact Stamp.stamp?_of_read hread
      exact hdated.legible_of_inMemory hkind ht
  | false =>
      have hdated : w.store.books.Dated Moment.StampedInUtc := by
        intro id t ht x hx
        have hstamped := Moment.inUtcYears_iff.mp (hyears id t ht x hx)
        obtain ⟨m, -, rfl⟩ := h.dated id t ht x hx
        exact ⟨_, hstamped, (Books.keptTime_keptTime ..).symm⟩
      exact hdated.legible_of_utc hkind ht

end Run

/-! ### The order of the list -/

namespace Books

variable {b : Books}

/-- The time by which a training is listed: its instant in memory, its second in tables. -/
def listTime (b : Books) (t : Training) : Int :=
  if b.inMemory then t.time.nanos else t.time.second

/-- Is the training listed before the other one? -/
def Precedes (b : Books) (t t' : Training) : Prop :=
  b.listTime t < b.listTime t' ∨
    (b.listTime t = b.listTime t' ∧ Text.utf8Bytes t.id < Text.utf8Bytes t'.id)

/-- Trainings with times as they are kept are in the order of their instants. -/
theorem listTime_lt_iff {t t' : Training} (ht : b.keptTime t.time = t.time)
    (ht' : b.keptTime t'.time = t'.time) :
    (b.listTime t < b.listTime t' ↔ t.time.nanos < t'.time.nanos) ∧
      (b.listTime t = b.listTime t' ↔ t.time.nanos = t'.time.nanos) := by
  unfold keptTime at ht ht'
  unfold listTime
  cases hkind : b.inMemory with
  | true => exact ⟨Iff.rfl, Iff.rfl⟩
  | false =>
      rw [hkind, if_neg Bool.false_ne_true] at ht ht'
      have hnanos : t.time.nanos = t.time.second * Moment.perSecond := congrArg Moment.nanos ht.symm
      have hnanos' : t'.time.nanos = t'.time.second * Moment.perSecond :=
        congrArg Moment.nanos ht'.symm
      rw [if_neg Bool.false_ne_true, if_neg Bool.false_ne_true, hnanos, hnanos']
      unfold Moment.perSecond
      omega

/-- Two trainings of different identifiers that are listed in this order are strictly so. -/
theorem precedes_of_before {t t' : Training} (ht : b.keptTime t.time = t.time)
    (ht' : b.keptTime t'.time = t'.time) (hid : t.id ≠ t'.id) (hle : t.before t' = true) :
    b.Precedes t t' := by
  obtain ⟨hlt, heq⟩ := listTime_lt_iff ht ht'
  rcases Training.before_iff.mp hle with htime | ⟨htime, hle⟩
  · exact .inl (hlt.mpr htime)
  · refine .inr ⟨heq.mpr htime, Text.lt_iff_bytes.mp ?_⟩
    by_contra hnot
    exact hid (String.le_antisymm hle (String.not_lt.mp hnot))

end Books

/-! ### What is shown -/

/-- Do these words say what is proposed for the training, by whom and for when? -/
def TrainingResponse.ShowsProposal (r : TrainingResponse) : Option Proposal → Prop
  | none => r.proposed = false ∧ r.proposedTime = none ∧ r.proposedBy = none
  | some p => r.proposed = true ∧ (∃ text, p.newTime.stamp? = some text ∧ r.proposedTime = some text) ∧
      r.proposedBy = some p.proposedBy.label

/-- The response shows the training as it is, with the time stamps of its times; whether it moves
freely is a matter of 24 hours, in nanoseconds. -/
structure TrainingResponse.Displays (r : TrainingResponse) (now : Moment) (t : Training) :
    Prop where
  id : r.id = t.id
  owner : r.owner = t.owner
  ownerName : r.ownerName = t.ownerName
  time : t.time.stamp? = some r.time
  notes : r.notes = t.notes
  canceled : r.canceled = t.canceled
  movesFreely : r.movesFreely = true ↔
    t.canceled = false ∧ now.nanos + 86400000000000 ≤ t.time.nanos
  proposal : r.ShowsProposal t.proposal

/-- A trainer is shown every training, an attendee the own ones that are not canceled. -/
def Caller.IsShown (caller : Caller) (t : Training) : Prop :=
  caller.role = .attendee → t.owner = caller.id ∧ t.canceled = false

/-- The list shows the caller every training that is for them, once and in order, and nothing else. -/
structure Books.Shows (b : Books) (now : Moment) (caller : Caller) (list : List TrainingResponse) :
    Prop where
  /-- Each entry displays the training with its identifier. -/
  shown : ∀ r ∈ list, ∃ t, b.trainings r.id = some t ∧ caller.IsShown t ∧ r.Displays now t
  /-- No training is left out. -/
  complete : ∀ id t, b.trainings id = some t → caller.IsShown t → ∃ r ∈ list, r.id = id
  once : (list.map TrainingResponse.id).Nodup
  ordered : list.Pairwise fun r r' =>
    ∃ t ∈ b.trainings r.id, ∃ t' ∈ b.trainings r'.id, b.Precedes t t'

theorem Response.stamp_eq_ok {m : Moment} {text : String} (h : stamp m = .ok text) :
    m.stamp? = some text := by
  unfold stamp at h
  cases hm : m.stamp? with
  | none =>
      rw [hm] at h
      cases h
  | some text' =>
      rw [hm] at h
      rw [Except.ok.inj h]

/-- The response that is made for a training displays it. -/
theorem TrainingResponse.displays_of {now : Moment} {t : Training} {r : TrainingResponse}
    (h : TrainingResponse.of now t = .ok r) : r.Displays now t := by
  unfold TrainingResponse.of at h
  obtain ⟨text, htime, h⟩ := bind_eq_ok h
  obtain ⟨proposedTime, hproposed, h⟩ := bind_eq_ok h
  cases h
  refine ⟨rfl, rfl, rfl, Response.stamp_eq_ok htime, rfl, rfl, ?_, ?_⟩
  · simp only [Bool.and_eq_true, Bool.not_eq_true', Training.movesFreely_iff]
  · cases hp : t.proposal with
    | none =>
        rw [hp] at hproposed
        cases hproposed
        exact ⟨rfl, rfl, rfl⟩
    | some p =>
        rw [hp, Option.map_some, Response.stampOption] at hproposed
        obtain ⟨text', hnew, hproposed⟩ := bind_eq_ok hproposed
        cases hproposed
        exact ⟨rfl, ⟨text', Response.stamp_eq_ok hnew, rfl⟩, rfl⟩

theorem Caller.lists_iff {caller : Caller} {t : Training} :
    caller.lists t = true ↔ caller.IsShown t := by
  unfold lists IsShown
  cases caller.role <;> simp

/-- The list depends only on which of the trainings that it is about are stored. -/
theorem Books.ListsTrainings.congr {b b' : Books} {keep : Training → Bool} {l : List Training}
    (h : b.ListsTrainings keep l)
    (hsame : ∀ t, keep t = true → (b.trainings t.id = some t ↔ b'.trainings t.id = some t)) :
    b'.ListsTrainings keep l := by
  obtain ⟨hmem, hrest⟩ := h
  refine ⟨fun t => ?_, hrest⟩
  rw [hmem]
  exact and_congr_left fun hkeep => hsame t hkeep

/-- Who is in the second list is there for somebody in the first. -/
theorem exists_of_forall₂ {α β : Type} {R : α → β → Prop} {l : List α} {l' : List β}
    (h : List.Forall₂ R l l') {b : β} (hb : b ∈ l') : ∃ a ∈ l, R a b := by
  obtain ⟨i, rfl⟩ := List.mem_iff_get.mp hb
  have hi : i < l.length := h.length_eq.symm ▸ i.isLt
  exact ⟨l.get ⟨i, hi⟩, List.get_mem _ _, h.get hi i.isLt⟩

/-- There is one way to respond to each training of a list. -/
theorem TrainingResponse.unique {now : Moment} {l : List Training}
    {list list' : List TrainingResponse}
    (h : List.Forall₂ (fun t r => TrainingResponse.of now t = .ok r) l list)
    (h' : List.Forall₂ (fun t r => TrainingResponse.of now t = .ok r) l list') : list = list' := by
  have hmap := mapM_eq_ok_iff.mpr h
  rw [mapM_eq_ok_iff.mpr h'] at hmap
  exact (Except.ok.inj hmap).symm

/-! ### Stored trainings -/

/-- The trainings that a store holds. -/
def Store.trainings (st : Store) : List Training :=
  match st with
  | .memory m => m.trainings.values
  | .tables t => t.trainings.values.map TrainingRow.meaning

theorem Store.Sound.id_eq {st : Store} (h : st.Sound) {id : String} {t : Training}
    (ht : st.books.trainings id = some t) : t.id = id := by
  cases st with
  | memory m => exact Memory.Sound.training_id h ht
  | tables tb =>
      obtain ⟨r, hr, rfl⟩ := Option.map_eq_some_iff.mp ht
      exact Tables.Sound.training_id h hr

/-- A training is stored if it is filed under its identifier. -/
theorem Store.Sound.stored_iff {st : Store} (h : st.Sound) {t : Training} :
    (∃ id, st.books.trainings id = some t) ↔ st.books.trainings t.id = some t := by
  constructor
  · rintro ⟨id, ht⟩
    rwa [h.id_eq ht]
  · exact fun ht => ⟨t.id, ht⟩

theorem Store.Sound.mem_trainings {st : Store} (h : st.Sound) {t : Training} :
    t ∈ st.trainings ↔ ∃ id, st.books.trainings id = some t := by
  rw [h.stored_iff]
  cases st with
  | memory m => exact Registry.mem_values_iff (Memory.Sound.training_id h)
  | tables tb =>
      rw [Store.trainings, List.mem_map]
      constructor
      · rintro ⟨r, hr, rfl⟩
        have hstored := (Registry.mem_values_iff (Tables.Sound.training_id h)).mp hr
        exact Option.map_eq_some_iff.mpr ⟨r, hstored, rfl⟩
      · intro ht
        obtain ⟨r, hr, hmeaning⟩ := Option.map_eq_some_iff.mp ht
        have hid : r.id = t.id := Tables.Sound.training_id h hr
        exact ⟨r, (Registry.mem_values_iff (Tables.Sound.training_id h)).mpr (hid ▸ hr), hmeaning⟩

namespace Run

variable {window : BookingWindow} {watch : Watch} {history : List Turn} {w : World}

/-- Stored times are as they are kept. -/
theorem keptTime_eq (h : Run window watch history w) {id : String} {t : Training}
    (ht : w.store.books.trainings id = some t) : w.store.books.keptTime t.time = t.time := by
  obtain ⟨m, -, hm⟩ := h.dated id t ht t.time (Training.mem_times.mpr (.inl rfl))
  rw [hm, Books.keptTime_keptTime]

/-- In these years the call for the trainings is answered with a list of the books. -/
theorem answered (h : Run window watch history w) (hyears : w.store.books.InUtcYears) (now : Moment)
    (caller : Caller) : ∃ l list,
      w.store.books.ListsTrainings caller.lists l ∧
      (Turn.make window watch now (.trainings caller) w).1.ending = .done (.trainings list) ∧
      List.Forall₂ (fun t r => TrainingResponse.of now t = .ok r) l list := by
  have hmeets : (Call.trainings caller).perform.Meets (.outer now window watch) w.store.books _ :=
    Act.Meets.trainings_listed rfl
  obtain ⟨-, -, hlisted⟩ := hmeets w h.sound rfl
  change w.store.books.Listed now caller
    (Turn.make window watch now (.trainings caller) w).1.ending at hlisted
  generalize (Turn.make window watch now (.trainings caller) w).1.ending = e at hlisted ⊢
  cases hlisted with
  | shown hlists _ hresponses => exact ⟨_, _, hlists, rfl, hresponses⟩
  | spoiled r ht _ hlegible => exact absurd (h.legible hyears ht) hlegible

/-- What stands in the list is what the caller is to be shown. -/
theorem shows (h : Run window watch history w) {now : Moment} {caller : Caller} {l : List Training}
    {list : List TrainingResponse} (hlists : w.store.books.ListsTrainings caller.lists l)
    (hresponses : List.Forall₂ (fun t r => TrainingResponse.of now t = .ok r) l list) :
    w.store.books.Shows now caller list := by
  obtain ⟨hmem, hnodup, hsorted⟩ := hlists
  have hids : l.map Training.id = list.map TrainingResponse.id := by
    have hsame := hresponses.imp fun _ _ hr => (TrainingResponse.displays_of hr).id.symm
    have hmaps := List.forall₂_map_left_iff.mpr (List.forall₂_map_right_iff.mpr hsame)
    rwa [List.forall₂_eq_eq_eq] at hmaps
  have hunique : ∀ t ∈ l, ∀ t' ∈ l, t.id = t'.id → t = t' := by
    intro t ht t' ht' hid
    have hstored := ((hmem t).mp ht).1
    rw [hid, ((hmem t').mp ht').1] at hstored
    exact (Option.some.inj hstored).symm
  refine ⟨fun r hr => ?_, fun id t ht hshown => ?_, ?_, ?_⟩
  · obtain ⟨t, ht, hresponse⟩ := exists_of_forall₂ hresponses hr
    have hdisplays := TrainingResponse.displays_of hresponse
    obtain ⟨hstored, hkept⟩ := (hmem t).mp ht
    exact ⟨t, hdisplays.id ▸ hstored, Caller.lists_iff.mp hkept, hdisplays⟩
  · have hstored := h.sound.stored_iff.mp ⟨id, ht⟩
    have hid : id ∈ list.map TrainingResponse.id := by
      rw [← hids, List.mem_map]
      exact ⟨t, (hmem t).mpr ⟨hstored, Caller.lists_iff.mpr hshown⟩, h.sound.id_eq ht⟩
    exact List.mem_map.mp hid
  · rw [← hids]
    exact hnodup.map_on hunique
  · rw [← List.pairwise_map (f := TrainingResponse.id) (R := fun id id' =>
      ∃ t ∈ w.store.books.trainings id, ∃ t' ∈ w.store.books.trainings id',
        w.store.books.Precedes t t'), ← hids, List.pairwise_map]
    refine (hsorted.and hnodup).imp_of_mem fun {t t'} ht ht' ⟨hle, hne⟩ => ?_
    have hstored := ((hmem t).mp ht).1
    have hstored' := ((hmem t').mp ht').1
    refine ⟨t, hstored, t', hstored', Books.precedes_of_before (h.keptTime_eq hstored)
      (h.keptTime_eq hstored') (fun hid => hne (hunique t ht t' ht' hid)) hle⟩

/-- **Lists are exact, canonical and private.** -/
theorem lists_exactly (h : Run window watch history w) (hyears : w.store.books.InUtcYears)
    (now : Moment) (caller : Caller) :
    (∃ list, (Turn.make window watch now (.trainings caller) w).1.ending = .done (.trainings list) ∧
      w.store.books.Shows now caller list) ∧
    ∀ {window' : BookingWindow} {watch' : Watch} {history' : List Turn} {w' : World},
      Run window' watch' history' w' → w'.store.books.InUtcYears → caller.role = .attendee →
      (∀ t, t.owner = caller.id → t.canceled = false →
        ((∃ id, w.store.books.trainings id = some t) ↔
          ∃ id, w'.store.books.trainings id = some t)) →
      (Turn.make window' watch' now (.trainings caller) w').1.ending =
        (Turn.make window watch now (.trainings caller) w).1.ending := by
  obtain ⟨l, list, hlists, hending, hresponses⟩ := h.answered hyears now caller
  refine ⟨⟨list, hending, h.shows hlists hresponses⟩, ?_⟩
  intro window' watch' history' w' h' hyears' hrole hsame
  obtain ⟨l', list', hlists', hending', hresponses'⟩ := h'.answered hyears' now caller
  have hkept : ∀ t, caller.lists t = true →
      (w'.store.books.trainings t.id = some t ↔ w.store.books.trainings t.id = some t) := by
    intro t ht
    obtain ⟨howner, hactive⟩ := Caller.lists_iff.mp ht hrole
    rw [← h'.sound.stored_iff, ← h.sound.stored_iff]
    exact (hsame t howner hactive).symm
  obtain rfl := (hlists'.congr hkept).unique hlists
  rw [hending, hending', TrainingResponse.unique hresponses' hresponses]

open Sample in
/-- Ann books noon in memory; in tables she does so after Bob has asked for an hour that is not
open, which leaves his training behind.  She is shown the same in both. -/
theorem lists_exactly_ann :
    let played := play [.createTraining ann "1" noon]
    let played' := playOn (.tables (.empty 1))
      [.createTraining bob "0" ⟨"2030-01-02T13:00:00Z", "arms"⟩, .createTraining ann "1" noon]
    let anns : Training := ⟨"1", "a", "Ann", ⟨1893585600000000000, 0⟩, "legs", false, none⟩
    let bobs : Training := ⟨"0", "b", "Bob", ⟨1893589200000000000, 0⟩, "arms", false, none⟩
    let shown : TrainingResponse :=
      ⟨"1", "Ann", "a", "2030-01-02T12:00:00Z", "legs", false, true, false, none, none⟩
    played.2.store.trainings = [anns] ∧ played'.2.store.trainings = [bobs, anns] ∧
    played.2.store.books.Shows newYear ann [shown] ∧
    (Turn.make .standard .bare newYear (.trainings ann) played.2).1.ending =
      .done (.trainings [shown]) ∧
    (Turn.make .standard .bare newYear (.trainings ann) played'.2).1.ending =
      .done (.trainings [shown]) := by
  intro played played' anns bobs shown
  have hrun : Run .standard .bare played.1 played.2 := run _
  have hrun' : Run .standard .bare played'.1 played'.2 := runOn (.tables 1) _
  have hstored : played.2.store.trainings = [anns] := by decide +kernel
  have hstored' : played'.2.store.trainings = [bobs, anns] := by decide +kernel
  have hshown : (Turn.make .standard .bare newYear (.trainings ann) played.2).1.ending =
      .done (.trainings [shown]) := by decide +kernel
  have hutc : ∀ turn ∈ played.1, ∀ s ∈ turn.call.stamps, ∀ m ∈ (Stamp.read s).toOption,
      m.StampedInUtc := by decide +kernel
  have hutc' : ∀ turn ∈ played'.1, ∀ s ∈ turn.call.stamps, ∀ m ∈ (Stamp.read s).toOption,
      m.StampedInUtc := by decide +kernel
  -- What was played is known by now, and nothing is to compute it again.
  clear_value played played'
  have hyears := hrun.inUtcYears fun m ⟨turn, hturn, s, hs, hread⟩ =>
    hutc turn hturn s hs m (by rw [hread]; rfl)
  have hyears' := hrun'.inUtcYears fun m ⟨turn, hturn, s, hs, hread⟩ =>
    hutc' turn hturn s hs m (by rw [hread]; rfl)
  obtain ⟨⟨list, hending, hshows⟩, hsame⟩ := lists_exactly hrun hyears newYear ann
  rw [hshown] at hending hsame
  cases hending
  refine ⟨hstored, hstored', hshows, hshown, hsame hrun' hyears' rfl fun t howner _ => ?_⟩
  rw [← hrun.sound.mem_trainings, ← hrun'.sound.mem_trainings, hstored, hstored',
    List.mem_singleton, List.mem_cons, List.mem_singleton]
  refine ⟨.inr, ?_⟩
  rintro (hbobs | hanns)
  · rw [hbobs] at howner
    exact absurd howner (by decide)
  · exact hanns

end Run

end TrainerBooking
