import TrainerBooking.Proofs.Attempts
import TrainerBooking.Proofs.Batches

/-! # Hours apart from each other

What is done to one hour is not seen in another one.  Hours share the numbers of their rows, the traps
of their table and the placeholders of the memory, and none of these carries anything over.

* **Alike.** Two contents are `Contents.AlikeAt` a second if they hold the same hour there, but for
  the number of its row, and the same of everything that is no hour.
* **Row numbers** come out in one place only, the fault of a save that a trap passes over.  Where such
  a trap is set nothing is ever saved, so the contents stay the same altogether (`Contents.InStep`).
  A mishap passes nothing over: it fails with a wording of its own.
* **Endings.** Whatever an update ends with can be told from the contents at its second
  (`HourCall.ending_eq`), and with its ending it is known what it leaves (`HourCall.contents_eq`).
  `Act.Matches` compares the endings of two acts, from whatever worlds they begin.
* **Runs.** A run is compared with the run of those of its calls that address one second, by induction
  on the calls; all other calls leave the contents in step. -/

namespace TrainerBooking

/-! ### Acts that end alike -/

/-- Both crash, or both are refused for the same cause, or both are done, with related values. -/
inductive Ending.Matches {ε α β : Type} (R : α → β → Prop) : Ending ε α → Ending ε β → Prop
  | done {a : α} {b : β} (h : R a b) : Matches R (.done a) (.done b)
  | refused (c : ε) : Matches R (.refused c) (.refused c)
  | crashed : Matches R .crashed .crashed

theorem Ending.Matches.refl {ε α : Type} (e : Ending ε α) : e.Matches (· = ·) e := by
  cases e with
  | done a => exact .done rfl
  | refused c => exact .refused c
  | crashed => exact .crashed

theorem Ending.Matches.eq {ε α : Type} {e e' : Ending ε α} (h : e.Matches (· = ·) e') : e = e' := by
  cases h with
  | done h => rw [h]
  | refused => rfl
  | crashed => rfl

theorem Ending.Matches.mapCause {ε δ α β : Type} {R : α → β → Prop} {e : Ending ε α}
    {e' : Ending ε β} (h : e.Matches R e') (f : ε → δ) : (e.mapCause f).Matches R (e'.mapCause f) := by
  cases h with
  | done h => exact .done h
  | refused c => exact .refused (f c)
  | crashed => exact .crashed

namespace Act

variable {ε δ α β γ κ : Type} {s : Setting}

/-- From whatever worlds the two acts begin, they end in matching ways. -/
def Matches (act : Act ε α) (act' : Act ε β) (s : Setting) (R : α → β → Prop) : Prop :=
  ∀ w w', (act s w).1.Matches R (act' s w').1

namespace Matches

variable {R : α → β → Prop}

theorem ofEnding {e : Ending ε α} {e' : Ending ε β} (h : e.Matches R e') :
    (Act.ofEnding e).Matches (Act.ofEnding e') s R := fun _ _ => h

theorem pure {a : α} {b : β} (h : R a b) :
    (Pure.pure a : Act ε α).Matches (Pure.pure b) s R := ofEnding (.done h)

theorem refuse (c : ε) : (Act.refuse c : Act ε α).Matches (Act.refuse c) s R :=
  ofEnding (.refused c)

/-- An act that ends in one way only ends like itself. -/
theorem of_ending {act : Act ε α} {e : Ending ε α} (h : ∀ w, (act s w).1 = e) :
    act.Matches act s (· = ·) := by
  intro w w'
  rw [h w, h w']
  exact .refl e

theorem bind_setting {next : Setting → Act ε α} {next' : Setting → Act ε β}
    (h : (next s).Matches (next' s) s R) :
    (Act.setting >>= next).Matches (Act.setting >>= next') s R := h

theorem bind {act : Act ε α} {act' : Act ε β} {next : α → Act ε γ} {next' : β → Act ε κ}
    {Q : γ → κ → Prop} (h : act.Matches act' s R)
    (hnext : ∀ a b, R a b → (next a).Matches (next' b) s Q) :
    (act >>= next).Matches (act' >>= next') s Q := by
  intro w w'
  have hends := h w w'
  rw [bind_run, bind_run]
  generalize act s w = r at hends
  generalize act' s w' = r' at hends
  obtain ⟨e, v⟩ := r
  obtain ⟨e', v'⟩ := r'
  cases hends with
  | done hab => exact hnext _ _ hab v v'
  | refused c => exact .refused c
  | crashed => exact .crashed

theorem mapCause {f : ε → δ} {act : Act ε α} {act' : Act ε β} (h : act.Matches act' s R) :
    (act.mapCause f).Matches (act'.mapCause f) s R := fun w w' => (h w w').mapCause f

theorem settle {act : Act ε α} {act' : Act ε β} (h : act.Matches act' s R) :
    (act.settle : Act δ (Ending ε α)).Matches (act'.settle : Act δ (Ending ε β)) s
      (Ending.Matches R) := fun w w' => .done (h w w')

end Matches

/-- The act is done from no world. -/
def NeverDone (act : Act ε α) (s : Setting) : Prop := ∀ w, (act s w).1.isDone = false

namespace NeverDone

theorem ofEnding {e : Ending ε α} (he : e.isDone = false) : (Act.ofEnding e).NeverDone s :=
  fun _ => he

theorem mapCause {f : ε → δ} {act : Act ε α} (h : act.NeverDone s) :
    (act.mapCause f).NeverDone s := by
  intro w
  rw [mapCause_run, Ending.isDone_mapCause, h w]

theorem of_first {act : Act ε α} {next : α → Act ε β} (h : act.NeverDone s) :
    (act >>= next).NeverDone s := by
  intro w
  have hend := h w
  rw [bind_run]
  generalize act s w = r at hend
  obtain ⟨_ | _ | _, w'⟩ := r
  case done => cases hend
  case refused => rfl
  case crashed => rfl

theorem of_next {act : Act ε α} {next : α → Act ε β} (h : ∀ a, (next a).NeverDone s) :
    (act >>= next).NeverDone s := by
  intro w
  rw [bind_run]
  generalize act s w = r
  obtain ⟨_ | _ | _, w'⟩ := r
  case done a => exact h a w'
  case refused => rfl
  case crashed => rfl

end NeverDone

end Act

namespace PureTransition

variable {α : Type}

theorem ending (p : PureTransition α) (a : α) (s : Setting) (w : World) :
    (p.run a s w).1 = p.outcome a := (p.yields a s w.store w rfl).1

theorem spares (p : PureTransition α) (a : α) : (p.run a).Spares :=
  fun s w => (p.yields a s w.store w rfl).2.2

end PureTransition

/-! ### Contents that are alike at a second -/

/-- What a row says of its hour. -/
def HourRow.entry (r : HourRow) : Int × String := (r.second, r.availability)

theorem HourRow.decode_congr {r r' : HourRow} (h : r'.entry = r.entry) : r'.decode = r.decode := by
  obtain ⟨hsecond, hlabel⟩ := Prod.mk.inj h
  rw [HourRow.decode, HourRow.decode, hsecond, hlabel]

namespace Contents

variable {c c' c'' : Contents} {second other : Int}

/-- The two hold the same hour at this second, but for the number of its row, and the same of
everything that is no hour. -/
def AlikeAt (second : Int) : Contents → Contents → Prop
  | memory hours trainings accounts, memory hours' trainings' accounts' =>
    hours' second = hours second ∧ trainings' = trainings ∧ accounts' = accounts
  | tables t, tables t' =>
    (t'.hours.rows.get? second).map HourRow.entry = (t.hours.rows.get? second).map HourRow.entry ∧
      t' = { t with hours := t'.hours }
  | _, _ => False

namespace AlikeAt

theorem refl (second : Int) (c : Contents) : c.AlikeAt second c := by
  cases c with
  | memory hours trainings accounts => exact ⟨rfl, rfl, rfl⟩
  | tables t => exact ⟨rfl, rfl⟩

theorem symm (h : c.AlikeAt second c') : c'.AlikeAt second c := by
  cases c <;> cases c' <;> try contradiction
  case memory.memory =>
    obtain ⟨hhour, rfl, rfl⟩ := h
    exact ⟨hhour.symm, rfl, rfl⟩
  case tables.tables =>
    obtain ⟨hentry, hrest⟩ := h
    refine ⟨hentry.symm, ?_⟩
    rw [hrest]

theorem trans (h : c.AlikeAt second c') (h' : c'.AlikeAt second c'') : c.AlikeAt second c'' := by
  cases c <;> cases c' <;> cases c'' <;> try contradiction
  case memory.memory.memory =>
    obtain ⟨hhour, rfl, rfl⟩ := h
    obtain ⟨hhour', rfl, rfl⟩ := h'
    exact ⟨hhour'.trans hhour, rfl, rfl⟩
  case tables.tables.tables =>
    obtain ⟨hentry, hrest⟩ := h
    obtain ⟨hentry', hrest'⟩ := h'
    exact ⟨hentry'.trans hentry, by rw [hrest', hrest]⟩

theorem of_sameBut {seconds : List Int} (h : c.SameBut seconds c') (hs : second ∉ seconds) :
    c.AlikeAt second c' := by
  cases c <;> cases c' <;> try contradiction
  case memory.memory => exact ⟨h.1 second hs, h.2⟩
  case tables.tables => exact ⟨congrArg _ (h.1 second hs), h.2⟩

theorem hour?_eq (h : c.AlikeAt second c') : c'.hour? second = c.hour? second := by
  cases c <;> cases c' <;> try contradiction
  case memory.memory => exact h.1
  case tables.tables t t' =>
    have hentry := h.1
    rw [hour?, hour?]
    cases hrow : t.hours.rows.get? second <;> cases hrow' : t'.hours.rows.get? second <;>
      rw [hrow, hrow'] at hentry <;> try cases hentry
    rw [Option.bind_some, Option.bind_some, HourRow.decode_congr (Option.some.inj hentry)]

theorem trap?_eq (h : c.AlikeAt second c') (d : Database) (statement : Statement) :
    c'.trap? d statement = c.trap? d statement := by
  cases c <;> cases c' <;> try contradiction
  case memory.memory => rfl
  case tables.tables =>
    rw [h.2]
    rfl

/-- The tries to update any hour find the same traps. -/
theorem traps_inTry {t t' : Tables} (h : (tables t).AlikeAt second (tables t')) (other : Int)
    (number : Nat) : (t'.inTry other number).traps = (t.inTry other number).traps := by
  rw [h.2]
  rfl

end AlikeAt

/-- To file an hour in a table writes an entry under its second. -/
theorem fileHour_tables (t : Tables) (second : Int) (v : Hour) :
    ∃ table, (tables t).fileHour second v = .tables { t with hours := table } ∧
      (table.rows.get? second).map HourRow.entry =
        some (((t.hours.rows.get? second).map HourRow.second).getD second,
          v.availability.label) := by
  rw [fileHour, Registry.contains]
  cases hrow : t.hours.rows.get? second with
  | some row =>
      rw [Option.isSome_some, if_pos rfl]
      refine ⟨_, rfl, ?_⟩
      rw [Registry.get?_adjust, if_pos rfl, hrow]
      rfl
  | none =>
      rw [Option.isSome_none, if_neg Bool.false_ne_true]
      refine ⟨_, rfl, ?_⟩
      rw [HourTable.get?_append, if_pos rfl]
      rfl

/-- An hour that is filed in both is alike in both. -/
theorem AlikeAt.fileHour (h : c.AlikeAt second c') (v : Hour) :
    (c.fileHour second v).AlikeAt second (c'.fileHour second v) := by
  cases c <;> cases c' <;> try contradiction
  case memory.memory =>
    obtain ⟨-, rfl, rfl⟩ := h
    refine ⟨?_, rfl, rfl⟩
    rw [Function.update_self, Function.update_self]
  case tables.tables t t' =>
    obtain ⟨hentry, hrest⟩ := h
    obtain ⟨table, heq, hfiled⟩ := fileHour_tables t second v
    obtain ⟨table', heq', hfiled'⟩ := fileHour_tables t' second v
    have hsecond : (t'.hours.rows.get? second).map HourRow.second =
        (t.hours.rows.get? second).map HourRow.second := by
      have hfst := congrArg (Option.map Prod.fst) hentry
      rwa [Option.map_map, Option.map_map] at hfst
    rw [heq, heq']
    refine ⟨?_, ?_⟩
    · rw [hfiled, hfiled', hsecond]
    · rw [hrest]

/-- The two are alike at this second, and where rows of hours cannot be saved they are the same. -/
structure InStep (second : Int) (c c' : Contents) : Prop where
  alike : c.AlikeAt second c'
  frozen : c.trap? .calendar .update ≠ none → c' = c

/-- The contents after an update of the hour of a second that ended so. -/
def filed (second : Int) (e : Ending Failure Hour) (c : Contents) : Contents :=
  match e with
  | .done v => c.fileHour second v
  | .refused _ | .crashed => c

theorem filed_of_not_done {e : Ending Failure Hour} (he : e.isDone = false) :
    c.filed second e = c := by
  cases e with
  | done v => cases he
  | refused f => rfl
  | crashed => rfl

theorem Formed.filed (hc : c.Formed) (second : Int) (e : Ending Failure Hour) :
    (c.filed second e).Formed := by
  cases e with
  | done v => exact hc.fileHour second v
  | refused f => exact hc
  | crashed => exact hc

variable {e : Ending Failure Hour}

theorem trap?_filed (c : Contents) (second : Int) (e : Ending Failure Hour) (d : Database)
    (statement : Statement) :
    (c.filed second e).trap? d statement = c.trap? d statement := by
  cases e with
  | done v =>
      cases c with
      | memory hours trainings accounts => rfl
      | tables t =>
          rw [Contents.filed, fileHour]
          split <;> rfl
  | refused f => rfl
  | crashed => rfl

theorem AlikeAt.filed (h : c.AlikeAt second c') (e : Ending Failure Hour) :
    (c.filed second e).AlikeAt second (c'.filed second e) := by
  cases e with
  | done v => exact h.fileHour v
  | refused f => exact h
  | crashed => exact h

theorem alikeAt_filed (c : Contents) (hne : second ≠ other) (e : Ending Failure Hour) :
    c.AlikeAt second (c.filed other e) := by
  cases e with
  | done v => exact .of_sameBut (SameBut.fileHour c other v) (by simpa using hne)
  | refused f => exact .refl second c
  | crashed => exact .refl second c

namespace InStep

theorem refl (second : Int) (c : Contents) : c.InStep second c := ⟨.refl second c, fun _ => rfl⟩

theorem symm (h : c.InStep second c') : c'.InStep second c := by
  refine ⟨h.alike.symm, fun htrap => ?_⟩
  rw [h.alike.trap?_eq] at htrap
  exact (h.frozen htrap).symm

theorem trans (h : c.InStep second c') (h' : c'.InStep second c'') : c.InStep second c'' := by
  refine ⟨h.alike.trans h'.alike, fun htrap => ?_⟩
  have htrap' : c'.trap? .calendar .update ≠ none := by rwa [h.alike.trap?_eq]
  exact (h'.frozen htrap').trans (h.frozen htrap)

/-- The same update of an hour is made on both sides. -/
theorem filed (h : c.InStep second c') (other : Int) (e : Ending Failure Hour) :
    (c.filed other e).InStep second (c'.filed other e) := by
  refine ⟨?_, fun htrap => ?_⟩
  · obtain rfl | hne := eq_or_ne second other
    · exact h.alike.filed e
    · exact (alikeAt_filed c hne e).symm.trans (h.alike.trans (alikeAt_filed c' hne e))
  · rw [trap?_filed] at htrap
    rw [h.frozen htrap]

/-- An update of the hour of another second is made on the first side only. -/
theorem filed_left (h : c.InStep second c') (hne : second ≠ other)
    (hend : c.trap? .calendar .update ≠ none → e.isDone = false) :
    (c.filed other e).InStep second c' := by
  refine ⟨(alikeAt_filed c hne e).symm.trans h.alike, fun htrap => ?_⟩
  rw [trap?_filed] at htrap
  rw [h.frozen htrap, filed_of_not_done (hend htrap)]

end InStep

end Contents

/-! ### Updates of hours that are alike -/

/-- A statement whose trap has a wording fails with it. -/
theorem Tables.change_of_wording {t : Tables} {σ : Type} {d : Database} {st : Statement} {trap : Trap}
    {wording : String} (htrap : t.trap? d st = some trap) (hwording : trap.wording = some wording)
    (before : σ) (effect : Except DatabaseFault σ) :
    t.change d st before effect = .error (.ofReport (.refused .unknown wording)) := by
  obtain ⟨d', st', _⟩ := trap
  cases hwording
  rw [change, htrap]

/-- Traps decide what a statement does, and nothing else of the tables. -/
theorem Tables.change_congr {t t' : Tables} (h : t'.traps = t.traps) {σ : Type} (d : Database)
    (st : Statement) (before : σ) (effect : Except DatabaseFault σ) :
    t'.change d st before effect = t.change d st before effect := by
  rw [change, change, trap?, trap?, h]

namespace Repository

variable {s : Setting} {time : Moment} {t t' : Tables} {p : PureTransition Hour}

theorem insertHour_matches {table table' : HourTable} (htraps : t'.traps = t.traps)
    (hnone : table.rows.get? time.second = none) (hnone' : table'.rows.get? time.second = none)
    (label : String) :
    (Ending.ofExcept (t.insertHour time.second label table)).Matches
      (fun q q' => (q'.1.rows.get? time.second).map HourRow.entry =
        (q.1.rows.get? time.second).map HourRow.entry)
      (Ending.ofExcept (t'.insertHour time.second label table')) := by
  have htrap : t'.trap? .calendar .insert = t.trap? .calendar .insert :=
    congrArg (List.find? _) htraps
  cases hinsert : t.trap? .calendar .insert with
  | none =>
      rw [Tables.insertHour_of_no_trap hinsert label hnone,
        Tables.insertHour_of_no_trap (htrap.trans hinsert) label hnone']
      refine .done ?_
      rw [HourTable.get?_append, HourTable.get?_append, if_pos rfl, if_pos rfl]
      rfl
  | some trap =>
      have hchange := Tables.change_congr (σ := HourTable) htraps
      rw [Tables.insertHour, Tables.insertHour, Registry.contains, Registry.contains, hnone, hnone',
        Option.isSome_none, if_neg Bool.false_ne_true, if_neg Bool.false_ne_true, hchange]
      obtain ⟨fault, -, hlost⟩ | ⟨-, hpassed⟩ := Tables.change_of_trap HourTable hinsert
      · rw [hlost, hlost]
        exact .refused fault
      · rw [hpassed, hpassed]
        refine .done ?_
        rw [hnone, hnone']

/-- Two tables that are alike at a second give rows with the same entry for it. -/
theorem rowForUpdate_matches (h : (Contents.tables t).AlikeAt time.second (.tables t'))
    (number : Nat) :
    (rowForUpdate time t number).Matches (rowForUpdate time t' number) s fun q q' =>
      q.1.hasRow q.2.rowId = true ∧ q'.1.hasRow q'.2.rowId = true ∧ q'.2.entry = q.2.entry := by
  have hfound : ∀ {table table' : HourTable} {row row' : HourRow},
      table.rows.get? time.second = some row → table'.rows.get? time.second = some row' →
        (table'.rows.get? time.second).map HourRow.entry =
          (table.rows.get? time.second).map HourRow.entry →
        table.hasRow row.rowId = true ∧ table'.hasRow row'.rowId = true ∧
          row'.entry = row.entry := by
    intro table table' row row' hrow hrow' hentry
    rw [hrow, hrow'] at hentry
    exact ⟨Tables.hasRow_of_get? hrow, Tables.hasRow_of_get? hrow', Option.some.inj hentry⟩
  have hentry := h.1
  unfold rowForUpdate
  dsimp only
  cases hrow : t.hours.rows.get? time.second with
  | some row =>
      cases hrow' : t'.hours.rows.get? time.second with
      | none =>
          rw [hrow, hrow'] at hentry
          cases hentry
      | some row' => exact .pure (hfound hrow hrow' hentry)
  | none =>
      cases hrow' : t'.hours.rows.get? time.second with
      | some row' =>
          rw [hrow, hrow'] at hentry
          cases hentry
      | none =>
          refine .bind_setting ?_
          refine .bind (.of_ending fun _ => rfl) ?_
          rintro fresh _ rfl
          have hinsert := insertHour_matches (h.traps_inTry time.second number) hrow hrow'
            fresh.availability.label
          refine .bind (.mapCause (.ofEnding hinsert)) ?_
          rintro ⟨table, inserted⟩ ⟨table', inserted'⟩ hadded
          refine .bind (.of_ending (e := .done ()) fun _ => rfl) fun _ _ _ => ?_
          refine .bind (.of_ending (e := .done ()) fun _ => rfl) fun _ _ _ => ?_
          dsimp only at hadded ⊢
          cases hget : table.rows.get? time.second <;>
            cases hget' : table'.rows.get? time.second <;> rw [hget, hget'] at hadded
          case none.none => exact .refuse _
          case some.some => exact .pure (hfound hget hget' (by rw [hget, hget', hadded]))
          case none.some => cases hadded
          case some.none => cases hadded

/-- Rows are saved alike, if no trap keeps them from being saved: a mishap hits both of them. -/
theorem updateHour_matches {table table' : HourTable} {row row' : HourRow}
    (h : (Contents.tables t).AlikeAt time.second (.tables t'))
    (htrap : t.trap? .calendar .update = none) (hrow : table.hasRow row.rowId = true)
    (hrow' : table'.hasRow row'.rowId = true) (number : Nat) (label : String) :
    (Ending.ofExcept ((t.inTry time.second number).updateHour row.rowId label table)).Matches
      (fun _ _ => True)
      (Ending.ofExcept ((t'.inTry time.second number).updateHour row'.rowId label table')) := by
  have htraps := h.traps_inTry time.second number
  cases hmet : (t.inTry time.second number).trap? .calendar .update with
  | none =>
      have hmet' : (t'.inTry time.second number).trap? .calendar .update = none :=
        (congrArg (List.find? _) htraps).trans hmet
      rw [Tables.updateHour_of_no_trap hmet hrow, Tables.updateHour_of_no_trap hmet' hrow']
      exact .done trivial
  | some trap =>
      obtain ⟨m, -, rfl, -⟩ := Tables.exists_mishap_of_inTry htrap hmet
      have hchange := fun before effect =>
        Tables.change_of_wording (σ := HourTable) hmet rfl before effect
      rw [Tables.updateHour, Tables.updateHour, if_pos hrow, if_pos hrow',
        Tables.change_congr htraps, hchange, hchange]
      exact .refused _

/-- Rows with the same entry are finished alike, if no trap keeps them from being saved. -/
theorem finishUpdate_matches {table table' : HourTable} {row row' : HourRow}
    (h : (Contents.tables t).AlikeAt time.second (.tables t'))
    (htrap : t.trap? .calendar .update = none) (hrow : table.hasRow row.rowId = true)
    (hrow' : table'.hasRow row'.rowId = true) (hentry : row'.entry = row.entry) (number : Nat) :
    (finishUpdate time p.run t number table row).Matches
      (finishUpdate time p.run t' number table' row') s (· = ·) := by
  unfold finishUpdate
  rw [HourRow.decode_congr hentry]
  refine .bind (.of_ending fun _ => rfl) ?_
  rintro old _ rfl
  have hturn : ∀ w, (((p.run old).holding (Held.withHour time.second)).mapCause Rollback.rejected
      s w).1 = (p.outcome old).mapCause Rollback.rejected := fun w =>
    congrArg (Ending.mapCause Rollback.rejected)
      (p.ending old { s with held := s.held.withHour time.second } w)
  refine .bind (.of_ending hturn) ?_
  rintro v _ rfl
  have hsave := updateHour_matches h htrap hrow hrow' number v.availability.label
  refine .bind (.mapCause (.ofEnding hsave)) fun _ _ _ => ?_
  exact .bind (.of_ending (e := .done ()) fun _ => rfl) fun _ _ _ => .pure rfl

theorem updateHourOnce_matches (h : (Contents.tables t).AlikeAt time.second (.tables t'))
    (htrap : t.trap? .calendar .update = none) (number : Nat) :
    (updateHourOnce time p.run t number).Matches (updateHourOnce time p.run t' number) s
      (· = ·) := by
  rw [updateHourOnce_eq, updateHourOnce_eq]
  refine (rowForUpdate_matches h number).bind ?_
  rintro q q' ⟨hrow, hrow', hentry⟩
  exact finishUpdate_matches h htrap hrow hrow' hentry number

theorem updateHourInMemory_matches {m m' : Memory} (h : m'.hour? time.second = m.hour? time.second) :
    (updateHourInMemory time p.run m).Matches (updateHourInMemory time p.run m') s (· = ·) := by
  have hstart : startingHour m' time s = startingHour m time s := by
    rw [startingHour, startingHour, h]
  have hturn : ∀ a w, ((p.run a).holding (Held.withHour time.second) s w).1 = p.outcome a :=
    fun a w => p.ending a { s with held := s.held.withHour time.second } w
  unfold updateHourInMemory
  refine .bind_setting ?_
  refine .bind (.of_ending (e := .done ()) fun _ => rfl) fun _ _ _ => ?_
  dsimp only
  split
  · exact .bind (R := fun _ _ => False) (.refuse _) fun _ _ hnever => hnever.elim
  have hupdate : ((Act.ofEnding (startingHour m time s) >>= fun h =>
      (p.run h).holding (Held.withHour time.second)) : Act Failure Hour).Matches
        (Act.ofEnding (startingHour m' time s) >>= fun h =>
          (p.run h).holding (Held.withHour time.second)) s (· = ·) := by
    rw [hstart]
    refine .bind (.of_ending fun _ => rfl) ?_
    rintro h _ rfl
    exact .of_ending (hturn h)
  refine .bind hupdate.settle ?_
  rintro e _ (⟨rfl⟩ | ⟨c⟩ | ⟨⟩)
  · exact .bind (.of_ending (e := .done ()) fun _ => rfl) fun _ _ _ => .pure rfl
  · exact .bind (.of_ending (e := .done ()) fun _ => rfl) fun _ _ _ => .refuse c
  · exact .of_ending fun _ => rfl

/-- Tries that end alike, each like the one of its number, are repeated alike. -/
theorem retrying_matches {α : Type} {R : α → α → Prop} {attempt attempt' : Nat → Act Rollback α}
    {warn : Nat → DatabaseFault → Act Failure Unit}
    (hwarn : ∀ n f w, (warn n f s w).1 = .done ())
    (h : ∀ n, (attempt n).Matches (attempt' n) s R) (number repetitions : Nat) :
    (retrying warn attempt number repetitions).Matches
      (retrying warn attempt' number repetitions) s R := by
  induction repetitions generalizing number with
  | zero => exact (h number).mapCause
  | succ k ih =>
      refine .bind (h number).settle ?_
      rintro e _ (⟨hab⟩ | ⟨c⟩ | ⟨⟩)
      · exact .pure hab
      · dsimp only
        cases c.deadlock? with
        | none => exact .refuse _
        | some f => exact .bind (.of_ending (hwarn number f)) fun _ _ _ => ih (number + 1)
      · exact .ofEnding .crashed

theorem updateHourInTables_matches (h : (Contents.tables t).AlikeAt time.second (.tables t'))
    (htrap : t.trap? .calendar .update = none) :
    (updateHourInTables time p.run t).Matches (updateHourInTables time p.run t') s (· = ·) := by
  have hlease : t'.lease = t.lease := by
    rw [h.2]
    rfl
  unfold updateHourInTables
  refine .bind_setting ?_
  rw [hlease]
  refine .bind (.of_ending fun _ => rfl) fun _ _ _ => ?_
  exact retrying_matches (fun _ _ _ => rfl) (updateHourOnce_matches h htrap) 1 _

/-- The update of an hour ends as the contents at its second let it, whatever else there is. -/
theorem updateHour_ending_eq {w w' : World} (hw : w.store.contents.Formed)
    (h : w.store.contents.InStep time.second w'.store.contents) :
    (updateHour time p.run s w').1 = (updateHour time p.run s w).1 := by
  have hsame : ∀ st : Store, st.contents.Formed → ∀ v v' : World, v.store = st → v'.store = st →
      (updateHour time p.run s v').1 = (updateHour time p.run s v).1 := by
    intro st hst v v' hv hv'
    obtain ⟨runs, e, st', hyields, -⟩ := updateHour_guarded (s := s) (p := p) time hst
    rw [(hyields v hv).1, (hyields v' hv').1]
  cases hst : w.store <;> cases hst' : w'.store <;> rw [hst, hst'] at h
  case memory.memory m m' =>
    rw [updateHour, Act.bind_run_done (Act.store_run s w), Act.bind_run_done (Act.store_run s w'),
      hst, hst']
    exact (updateHourInMemory_matches h.alike.1 w w').eq.symm
  case memory.tables m t' => exact h.alike.elim
  case tables.memory t m' => exact h.alike.elim
  case tables.tables t t' =>
    cases htrap : t.trap? .calendar .update with
    | none =>
      rw [updateHour, Act.bind_run_done (Act.store_run s w), Act.bind_run_done (Act.store_run s w'),
        hst, hst']
      exact (updateHourInTables_matches h.alike htrap w w').eq.symm
    | some trap =>
      -- Rows cannot be saved, so nothing was: the tables are the same, row numbers and all.
      have hfrozen : Contents.tables t' = Contents.tables t :=
        h.frozen fun hnone => Option.some_ne_none trap (htrap.symm.trans hnone)
      obtain rfl := Contents.tables.inj hfrozen
      exact hsame _ (hst ▸ hw) w w' hst hst'

/-! ### What an update leaves -/

theorem Transaction.perform_neverDone {α : Type} (b : Transaction α)
    (h : ∀ n, (b.attempt n).NeverDone s) : (b.perform time).NeverDone s := by
  intro w
  obtain ⟨_, last, hperformed⟩ := b.performed time s w
  obtain ⟨before, -, hlast⟩ := hperformed.begins
  rw [hperformed.decided, Ending.isDone_mapCause, hlast]
  exact h _ before

/-- Where rows of hours cannot be saved, no update is done. -/
theorem updateHour_isDone_of_trap {w : World}
    (htrap : w.store.contents.trap? .calendar .update ≠ none) :
    (updateHour time p.run s w).1.isDone = false := by
  cases hst : w.store with
  | memory m =>
      rw [hst] at htrap
      exact (htrap rfl).elim
  | tables t =>
      rw [hst] at htrap
      have hsave : ∀ number rowId label table, ∃ f,
          (t.inTry time.second number).updateHour rowId label table = .error f := by
        intro number rowId label table
        have hmet : (t.inTry time.second number).trap? .calendar .update ≠ none := fun hnone =>
          htrap (Tables.trap?_of_inTry hnone)
        obtain ⟨met, hmet⟩ := Option.ne_none_iff_exists'.mp hmet
        by_cases hrow : table.hasRow rowId = true
        · obtain ⟨f, hlost, -⟩ := Tables.updateHour_of_trap hmet hrow label
          exact ⟨f, hlost⟩
        · exact ⟨_, by rw [Tables.updateHour, if_neg hrow]⟩
      have honce : ∀ number, (updateHourOnce time p.run t number).NeverDone s := by
        intro number
        rw [updateHourOnce_eq]
        refine .of_next fun q => .of_next fun h => .of_next fun v => .of_first ?_
        obtain ⟨f, hlost⟩ := hsave number q.2.rowId v.availability.label q.1
        rw [hlost]
        exact .mapCause (.ofEnding rfl)
      have hspares : ∀ a, (p.run a).Spares := p.spares
      have htables : (updateHourInTables time p.run t).NeverDone s :=
        .of_next fun _ => .of_next fun _ =>
          Transaction.perform_neverDone (.ofHour time p.run hspares t) honce
      rw [updateHour, Act.bind_run_done (Act.store_run s w), hst]
      exact htables w

/-- The hour is filed if the update is done, and otherwise the contents are as before. -/
theorem updateHour_contents_eq {w : World} (hw : w.store.contents.Formed) :
    (updateHour time p.run s w).2.store.contents =
      w.store.contents.filed time.second (updateHour time p.run s w).1 := by
  obtain ⟨runs, e, st', hyields, hends⟩ := updateHour_guarded (s := s) (p := p) time hw
  obtain ⟨he, -, hst'⟩ := hyields w rfl
  rw [he, hst']
  obtain ⟨hend, hsame⟩ | ⟨v, rfl, hsaved⟩ := hends.before_or_saved
  · rw [hsame, Contents.filed_of_not_done hend]
    rfl
  · rw [hsaved]
    rfl

end Repository

/-! ### Runs of updates -/

/-- A call that asks for the update of an hour. -/
structure HourCall where
  now : Moment
  time : Moment
  transition : PureTransition Hour

namespace HourCall

variable {s : Setting} {w w' : World} {second : Int}

/-- Carries out the update. -/
def perform (s : Setting) (call : HourCall) (w : World) : Ending Failure Hour × World :=
  Repository.updateHour call.time call.transition.run { s with now := call.now } w

/-- Makes calls one after the other.  Each answer comes with the second that was addressed. -/
def runAll (s : Setting) : List HourCall → World → List (Int × Ending Failure Hour) × World
  | [], w => ([], w)
  | call :: calls, w =>
    let answer := call.perform s w
    let rest := runAll s calls answer.2
    ((call.time.second, answer.1) :: rest.1, rest.2)

/-- Does the call address this second? -/
def addresses (second : Int) (call : HourCall) : Bool := decide (call.time.second = second)

theorem ending_eq (call : HourCall) (hw : w.store.contents.Formed)
    (h : w.store.contents.InStep call.time.second w'.store.contents) :
    (call.perform s w').1 = (call.perform s w).1 := Repository.updateHour_ending_eq hw h

theorem contents_eq (call : HourCall) (hw : w.store.contents.Formed) :
    (call.perform s w).2.store.contents =
      w.store.contents.filed call.time.second (call.perform s w).1 :=
  Repository.updateHour_contents_eq hw

theorem formed (call : HourCall) (hw : w.store.contents.Formed) :
    (call.perform s w).2.store.contents.Formed := by
  rw [call.contents_eq hw]
  exact hw.filed _ _

/-- Both sides make a call that they cannot tell apart. -/
theorem inStep (call : HourCall) (hw : w.store.contents.Formed) (hw' : w'.store.contents.Formed)
    (hcall : w.store.contents.InStep call.time.second w'.store.contents)
    (h : w.store.contents.InStep second w'.store.contents) :
    (call.perform s w).2.store.contents.InStep second (call.perform s w').2.store.contents := by
  rw [call.contents_eq hw, call.contents_eq hw', call.ending_eq hw hcall]
  exact h.filed _ _

/-- One side makes a call that addresses another second. -/
theorem inStep_left (call : HourCall) (hw : w.store.contents.Formed)
    (hne : second ≠ call.time.second)
    (h : w.store.contents.InStep second w'.store.contents) :
    (call.perform s w).2.store.contents.InStep second w'.store.contents := by
  rw [call.contents_eq hw]
  exact h.filed_left hne Repository.updateHour_isDone_of_trap

/-- A run is in step with the run of those of its calls that address one second. -/
theorem runAll_own (s : Setting) (second : Int) (calls : List HourCall)
    (hw : w.store.contents.Formed) (hw' : w'.store.contents.Formed)
    (h : w.store.contents.InStep second w'.store.contents) :
    ((runAll s calls w).1.filter fun answer => decide (answer.1 = second)) =
        (runAll s (calls.filter (addresses second)) w').1 ∧
      (runAll s calls w).2.store.contents.InStep second
        (runAll s (calls.filter (addresses second)) w').2.store.contents := by
  induction calls generalizing w w' with
  | nil => exact ⟨rfl, h⟩
  | cons call calls ih =>
      by_cases hown : call.time.second = second
      · have hcall : w.store.contents.InStep call.time.second w'.store.contents := hown ▸ h
        obtain ⟨hanswers, hstep⟩ :=
          ih (call.formed hw) (call.formed hw') (call.inStep hw hw' hcall h)
        have hkept : addresses second call = true := decide_eq_true hown
        rw [List.filter_cons_of_pos hkept, runAll, runAll]
        refine ⟨?_, hstep⟩
        rw [List.filter_cons_of_pos (by simpa using hown), hanswers, call.ending_eq hw hcall]
      · obtain ⟨hanswers, hstep⟩ :=
          ih (call.formed hw) hw' (call.inStep_left hw (Ne.symm hown) h)
        have hother : ¬ addresses second call = true := by simpa [addresses] using hown
        rw [List.filter_cons_of_neg hother, runAll]
        refine ⟨?_, hstep⟩
        rw [List.filter_cons_of_neg (by simpa using hown), hanswers]

/-- Runs of the same calls that begin in step at every second stay in step, with the same answers. -/
theorem runAll_inStep (s : Setting) (calls : List HourCall) (hw : w.store.contents.Formed)
    (hw' : w'.store.contents.Formed)
    (h : ∀ second, w.store.contents.InStep second w'.store.contents) :
    (runAll s calls w).1 = (runAll s calls w').1 ∧
      ∀ second, (runAll s calls w).2.store.contents.InStep second
        (runAll s calls w').2.store.contents := by
  induction calls generalizing w w' with
  | nil => exact ⟨rfl, h⟩
  | cons call calls ih =>
      obtain ⟨hanswers, hstep⟩ := ih (call.formed hw) (call.formed hw')
        fun second => call.inStep hw hw' (h _) (h second)
      refine ⟨?_, hstep⟩
      rw [runAll, runAll, hanswers, call.ending_eq hw (h _)]

theorem runAll_append (s : Setting) (before after : List HourCall) (w : World) :
    runAll s (before ++ after) w =
      ((runAll s before w).1 ++ (runAll s after (runAll s before w).2).1,
        (runAll s after (runAll s before w).2).2) := by
  induction before generalizing w with
  | nil => rfl
  | cons call before ih => rw [List.cons_append, runAll, ih]; rfl

theorem runAll_formed (s : Setting) (calls : List HourCall) (hw : w.store.contents.Formed) :
    (runAll s calls w).2.store.contents.Formed := by
  induction calls generalizing w with
  | nil => exact hw
  | cons call calls ih => exact ih (call.formed hw)

theorem length_runAll (s : Setting) (calls : List HourCall) (w : World) :
    (runAll s calls w).1.length = calls.length := by
  induction calls generalizing w with
  | nil => rfl
  | cons call calls ih => rw [runAll, List.length_cons, List.length_cons, ih]

/-- Two calls that address different seconds find and leave the same, whichever is made first. -/
theorem perform_swap {a b : HourCall} (hne : a.time.second ≠ b.time.second)
    (hw : w.store.contents.Formed) :
    (b.perform s (a.perform s w).2).1 = (b.perform s w).1 ∧
      ∀ second, (b.perform s (a.perform s w).2).2.store.contents.InStep second
        (a.perform s (b.perform s w).2).2.store.contents := by
  have hb : w.store.contents.InStep b.time.second (a.perform s w).2.store.contents :=
    (a.inStep_left hw hne.symm (.refl _ _)).symm
  have ha : w.store.contents.InStep a.time.second (b.perform s w).2.store.contents :=
    (b.inStep_left hw hne (.refl _ _)).symm
  refine ⟨b.ending_eq hw hb, fun second => ?_⟩
  by_cases hsecond : second = a.time.second
  · -- The second call on the left does not touch this second, nor does the first one on the right.
    have hleft : (b.perform s (a.perform s w).2).2.store.contents.InStep second
        (a.perform s w).2.store.contents :=
      b.inStep_left (a.formed hw) (hsecond ▸ hne) (.refl _ _)
    exact hleft.trans (a.inStep hw (b.formed hw) ha (hsecond ▸ ha))
  · have hright : (a.perform s (b.perform s w).2).2.store.contents.InStep second
        (b.perform s w).2.store.contents :=
      a.inStep_left (b.formed hw) hsecond (.refl _ _)
    have hfirst : w.store.contents.InStep second (a.perform s w).2.store.contents :=
      (a.inStep_left hw hsecond (.refl _ _)).symm
    exact (hright.trans (b.inStep hw (a.formed hw) hb hfirst)).symm

/-- **Different hours do not influence each other.**  In every run of updates, on either kind of store,
whatever the transitions, the readings of the clock and the outcomes are, the answers to the calls that
address one second, and the hour that is stored there in the end, are those of the run of these calls
alone.  So two neighbouring calls that address different seconds can be made in either order: all
answers are the same, and so is every stored hour, but for the number of its row. -/
theorem apart (s : Setting) {w : World} (hw : w.store.contents.Formed) :
    (∀ (second : Int) (calls : List HourCall),
      let all := runAll s calls w
      let own := runAll s (calls.filter (addresses second)) w
      (all.1.filter fun answer => decide (answer.1 = second)) = own.1 ∧
        all.2.store.contents.hour? second = own.2.store.contents.hour? second ∧
        all.2.store.contents.AlikeAt second own.2.store.contents) ∧
    ∀ (before after : List HourCall) (a b : HourCall), a.time.second ≠ b.time.second →
      ∃ first answer answer' rest,
        first.length = before.length ∧
        (runAll s (before ++ a :: b :: after) w).1 =
          first ++ (a.time.second, answer) :: (b.time.second, answer') :: rest ∧
        (runAll s (before ++ b :: a :: after) w).1 =
          first ++ (b.time.second, answer') :: (a.time.second, answer) :: rest ∧
        ∀ second,
          (runAll s (before ++ a :: b :: after) w).2.store.contents.hour? second =
            (runAll s (before ++ b :: a :: after) w).2.store.contents.hour? second ∧
          (runAll s (before ++ a :: b :: after) w).2.store.contents.AlikeAt second
            (runAll s (before ++ b :: a :: after) w).2.store.contents := by
  constructor
  · intro second calls all own
    obtain ⟨hanswers, hstep⟩ := runAll_own s second calls hw hw (.refl _ _)
    exact ⟨hanswers, hstep.alike.hour?_eq.symm, hstep.alike⟩
  · intro before after a b hne
    have hmid := runAll_formed s before hw
    generalize hv : (runAll s before w).2 = v at hmid
    obtain ⟨hb, hsteps⟩ := perform_swap (s := s) hne hmid
    obtain ⟨ha, -⟩ := perform_swap (s := s) hne.symm hmid
    obtain ⟨hrest, hends⟩ := runAll_inStep s after (b.formed (a.formed hmid))
      (a.formed (b.formed hmid)) hsteps
    refine ⟨(runAll s before w).1, (a.perform s v).1, (b.perform s v).1,
      (runAll s after (b.perform s (a.perform s v).2).2).1, length_runAll .., ?_, ?_,
      fun second => ?_⟩
    · rw [runAll_append, hv, runAll, runAll, hb]
    · rw [runAll_append, hv, runAll, runAll, ha, hrest]
    · rw [runAll_append, runAll_append, hv]
      exact ⟨(hends second).alike.hour?_eq.symm, (hends second).alike⟩

section samples

open Sample Desk.Command Repository

/-- Two o'clock is opened, then noon is opened, and then half a second past noon is ruled out. -/
def threeCalls : List HourCall := [
  ⟨newYear, ⟨noonTime.nanos + 7200 * Moment.perSecond, 0⟩, openingHour⟩,
  ⟨newYear, noonTime, openingHour⟩,
  ⟨newYear, ⟨noonTime.nanos + 500000000, 3600⟩, .silent fun _ => .refused ruledOut⟩]

/-- The two calls that address noon are answered as if nobody had opened two o'clock. -/
theorem apart_noon :
    let s := Setting.outer newYear .standard .bare
    let w := world (.tables (annsTables .trainingScheduled []))
    let own := runAll s (threeCalls.filter (addresses noonTime.second)) w
    w.store.contents.Formed ∧
      (runAll s threeCalls w).1.map (fun answer => answer.2.isDone) = [true, true, false] ∧
      own.1.map (fun answer => answer.2.isDone) = [true, false] ∧
      ((runAll s threeCalls w).1.filter fun answer => decide (answer.1 = noonTime.second)) = own.1 ∧
      (runAll s threeCalls w).2.store.contents.hour? noonTime.second =
        own.2.store.contents.hour? noonTime.second := by
  intro s w own
  have hw : w.store.contents.Formed := formed_annsTables _ _
  obtain ⟨hanswers, hhour, -⟩ := (apart s hw).1 noonTime.second threeCalls
  exact ⟨hw, by decide +kernel, by decide +kernel, hanswers, hhour⟩

end samples

end HourCall

end TrainerBooking
