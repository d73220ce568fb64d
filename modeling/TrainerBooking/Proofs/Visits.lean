import TrainerBooking.Repository.Hours

/-! # Visits to the calendar

Whoever updates an hour may call on the calendar again in the midst of it, for the same hour or for
another one, and so may the updates inside.

* **Visits.** A `Visit` is made of calls, each chosen in view of the answers to the calls before it.  The
  transition of an update is a visit for every hour that it may be given.  A refusal is an answer like
  any other; a crash ends the visit and everything around it (`Ending.follow`).
* **Slots.** Without a crash, an update closes the slot that it claimed (`Repository.closeSlot`).  A
  transition finds it claimed and held, so what is inside neither closes it nor files into it.
* **Placeholders.** `Memory.WrittenBut` says for which seconds there may be a placeholder: those that are
  held (`Visit.written`).  So there is none when no call is under way.
* **Order.** An hour keeps the place under its own second as long as transitions keep its time
  (`Visit.orderly`); only those that are run on the way have to (`Visit.KeepsTimes`). -/

namespace TrainerBooking

/-! ### Answers -/

namespace Ending

variable {ε δ α β ω : Type}

/-- Goes on with the answer to a call: its value, or the cause of its refusal.  A crash is not
survived. -/
def follow (next : Except ε α → ω → Ending δ β × ω) : Ending ε α × ω → Ending δ β × ω
  | (done a, w) => next (.ok a) w
  | (refused c, w) => next (.error c) w
  | (crashed, w) => (crashed, w)

/-- If the call was answered, the property holds of the answer. -/
def Answered (P : Except ε α → ω → Prop) : Ending ε α × ω → Prop
  | (done a, w) => P (.ok a) w
  | (refused c, w) => P (.error c) w
  | (crashed, _) => True

/-- What the call and everything after it keep, holds in the end. -/
theorem follow_keeps {P : ω → Prop} {next : Except ε α → ω → Ending δ β × ω} {r : Ending ε α × ω}
    (hr : r.1 ≠ crashed → P r.2)
    (hnext : Answered (fun a w => P w → (next a w).1 ≠ crashed → P (next a w).2) r)
    (hend : (follow next r).1 ≠ crashed) : P (follow next r).2 := by
  obtain ⟨_ | _ | _, w⟩ := r
  case done a => exact hnext (hr nofun) hend
  case refused c => exact hnext (hr nofun) hend
  case crashed => exact absurd rfl hend

theorem Answered.of_forall {P : Except ε α → ω → Prop} (h : ∀ a w, P a w) (r : Ending ε α × ω) :
    Answered P r := by
  obtain ⟨_ | _ | _, w⟩ := r
  case done a => exact h _ _
  case refused c => exact h _ _
  case crashed => trivial

theorem Answered.imp {P Q : Except ε α → ω → Prop} {r : Ending ε α × ω} (h : Answered P r)
    (himp : ∀ a w, P a w → Q a w) : Answered Q r := by
  obtain ⟨_ | _ | _, w⟩ := r
  case done a => exact himp _ _ h
  case refused c => exact himp _ _ h
  case crashed => trivial

end Ending

/-! ### Visits -/

/-- Calls on the calendar, each chosen in view of the answers to those before it, and an ending.  An
update has a reading of the clock of its own. -/
inductive Visit where
  | ending (e : Ending Failure Hour)
  | hour? (time : Moment) (next : Except Failure (Option Hour) → Visit)
  | hoursBetween (first last : Moment) (next : Except Failure (List Hour) → Visit)
  | updateHour (now time : Moment) (transition : Hour → Visit) (next : Except Failure Hour → Visit)

/-- Makes the calls of a visit, one after the other. -/
def Visit.run : Visit → Act Failure Hour
  | ending e => Act.ofEnding e
  | hour? time next => fun s w =>
    Ending.follow (fun a => (next a).run s) (Repository.hour? time s w)
  | hoursBetween first last next => fun s w =>
    Ending.follow (fun a => (next a).run s) (Repository.hoursBetween first last s w)
  | updateHour now time transition next => fun s w =>
    Ending.follow (fun a => (next a).run s)
      (Repository.updateHour time (fun h => (transition h).run) { s with now := now } w)

/-! ### Calls in memory -/

/-- The world with its store changed, if that is in memory. -/
def World.onMemory (f : Memory → Memory) (w : World) : World :=
  match w.store with
  | .memory m => { w with store := .memory (f m) }
  | .tables _ => w

theorem World.store_onMemory {w : World} {m : Memory} (hw : w.store = .memory m)
    (f : Memory → Memory) : (w.onMemory f).store = .memory (f m) := by
  simp [onMemory, hw]

/-- The setting in which the hour of a second is held, too. -/
def Setting.holdingHour (second : Int) (s : Setting) : Setting :=
  { s with held := s.held.withHour second }

namespace Repository

variable {s : Setting} {w : World} {m : Memory} {time : Moment}

/-- An update of the hour of a time gives its transition this hour. -/
def Gives (time : Moment) (s : Setting) (w : World) (h : Hour) : Prop :=
  ∃ m, w.store = .memory m ∧ time.second ∉ s.held.hours ∧ startingHour m time s = .done h

/-- What becomes of the slot of a second when its update has ended: the hour is filed in it, or it is
dropped if it is a placeholder.  After a crash it is left. -/
def closeSlot (second : Int) : Ending Failure Hour × World → Ending Failure Hour × World
  | (.done h, w) => (.done h, w.onMemory (Memory.file second h))
  | (.refused c, w) => (.refused c, w.onMemory (Memory.release second))
  | (.crashed, w) => (.crashed, w)

/-- What an update does between claiming a slot and closing it. -/
def insideSlot (time : Moment) (transition : Hour → Act Failure Hour) (m : Memory) (s : Setting)
    (w : World) : Ending Failure Hour × World :=
  match startingHour m time s with
  | .done h => transition h (s.holdingHour time.second) w
  | .refused c => (.refused c, w)
  | .crashed => (.crashed, w)

/-- An update in memory claims the slot.  If it is held, that is all; otherwise the slot is closed after
the transition. -/
theorem updateHour_run (hw : w.store = .memory m) (transition : Hour → Act Failure Hour) :
    updateHour time transition s w =
      if time.second ∈ s.held.hours then
        (.refused (held "trainer hour"), w.onMemory (Memory.claim time.second))
      else closeSlot time.second
        (insideSlot time transition m s (w.onMemory (Memory.claim time.second))) := by
  have hclaim : (Act.changeMemory (Memory.claim time.second) : Act Failure Unit) s w =
      (.done (), w.onMemory (Memory.claim time.second)) := rfl
  rw [updateHour, Act.bind_run_done (Act.store_run s w), hw]
  dsimp only
  rw [updateHourInMemory, Act.bind_run_done (Act.setting_run s w), Act.bind_run_done hclaim]
  simp only [List.contains_iff_mem]
  split
  · rfl
  · cases hstart : startingHour m time s with
    | refused c => simp only [insideSlot, hstart]; rfl
    | crashed => simp only [insideSlot, hstart]; rfl
    | done h =>
        simp only [insideSlot, hstart, Setting.holdingHour]
        generalize hrun : transition h { s with held := s.held.withHour time.second }
          (w.onMemory (Memory.claim time.second)) = r
        obtain ⟨_ | _ | _, w'⟩ := r <;>
          simp [Act.bind_run, Act.settle, Act.holding, hrun, closeSlot, Act.crash] <;> rfl

/-- Reading an hour in memory shows what its slot holds, unless it is held, and changes nothing. -/
theorem hour?_run (hw : w.store = .memory m) :
    hour? time s w =
      (match m.hours.get? time.second with
        | none => .done none
        | some slot =>
          if time.second ∈ s.held.hours then .refused (held "trainer hour") else .done slot, w) := by
  rw [hour?, Act.bind_run_done (Act.setting_run s w), Act.bind_run_done (Act.store_run s w), hw]
  dsimp only
  cases m.hours.get? time.second with
  | none => rfl
  | some slot =>
      simp only [List.contains_iff_mem]
      split <;> rfl

/-- Reading a range in memory shows what its slots hold, unless one is held, and changes nothing. -/
theorem hoursBetween_run (hw : w.store = .memory m) (first last : Moment) :
    hoursBetween first last s w =
      (if last.second < first.second ∧ m.used then .crashed
        else if ∃ e ∈ m.slotsBetween first.second last.second, e.1 ∈ s.held.hours then
          .refused (held "trainer hour")
        else .done ((m.slotsBetween first.second last.second).filterMap Prod.snd), w) := by
  rw [hoursBetween, Act.bind_run_done (Act.setting_run s w), Act.bind_run_done (Act.store_run s w),
    hw]
  simp only [List.any_eq_true, List.contains_iff_mem]
  split
  · rfl
  · split <;> rfl

/-- What the transition keeps of a world, is kept inside a slot. -/
theorem insideSlot_keeps {P : Ending Failure Hour × World → Prop}
    {transition : Hour → Act Failure Hour} (hrefused : ∀ c, P (.refused c, w))
    (hdone : ∀ h, startingHour m time s = .done h →
      (transition h (s.holdingHour time.second) w).1 ≠ .crashed →
        P (transition h (s.holdingHour time.second) w))
    (hend : (insideSlot time transition m s w).1 ≠ .crashed) :
    P (insideSlot time transition m s w) := by
  unfold insideSlot at hend ⊢
  cases hstart : startingHour m time s with
  | done h =>
      rw [hstart] at hend
      exact hdone h hstart hend
  | refused c => exact hrefused c
  | crashed =>
      rw [hstart] at hend
      exact absurd rfl hend

end Repository

/-! ### Placeholders -/

namespace Memory

variable {m : Memory} {second : Int} {seconds : List Int}

theorem get?_claim (second other : Int) (m : Memory) :
    (m.claim second).hours.get? other =
      if other = second ∧ m.hours.get? second = none then some none else m.hours.get? other := by
  unfold claim Registry.contains
  cases hslot : m.hours.get? second with
  | some slot => simp
  | none => simp [Registry.get?_put]

theorem get?_release (second other : Int) (m : Memory) :
    (m.release second).hours.get? other =
      if other = second ∧ m.hours.get? second = some none then none else m.hours.get? other := by
  unfold release
  cases hslot : m.hours.get? second with
  | none => simp
  | some slot => cases slot <;> simp [Registry.get?_erase]

/-- Every slot holds an hour, except perhaps those of the given seconds. -/
def WrittenBut (seconds : List Int) (m : Memory) : Prop :=
  ∀ second, m.hours.get? second = some none → second ∈ seconds

namespace WrittenBut

theorem claim (h : m.WrittenBut seconds) (second : Int) :
    (m.claim second).WrittenBut (second :: seconds) := by
  intro other hother
  rw [get?_claim] at hother
  split at hother
  · next hnew => exact hnew.1 ▸ List.mem_cons_self
  · exact List.mem_cons_of_mem _ (h other hother)

theorem claim_of_mem (h : m.WrittenBut seconds) (hs : second ∈ seconds) :
    (m.claim second).WrittenBut seconds := by
  intro other hother
  obtain rfl | hmem := List.mem_cons.mp (h.claim second other hother)
  · exact hs
  · exact hmem

theorem file (h : m.WrittenBut (second :: seconds)) (v : Hour) :
    (m.file second v).WrittenBut seconds := by
  intro other hother
  rw [Memory.file, Registry.get?_put] at hother
  split at hother
  · cases hother
  · next hne => exact (List.mem_cons.mp (h other hother)).resolve_left hne

theorem release (h : m.WrittenBut (second :: seconds)) : (m.release second).WrittenBut seconds := by
  intro other hother
  rw [get?_release] at hother
  split at hother
  · cases hother
  · next hkept =>
    refine (List.mem_cons.mp (h other hother)).resolve_left fun heq => hkept ⟨heq, ?_⟩
    rw [← heq, hother]

end WrittenBut

/-- Every hour is filed under its own second. -/
def Orderly (m : Memory) : Prop := ∀ second h, m.hour? second = some h → h.time.second = second

namespace Orderly

theorem claim (h : m.Orderly) (second : Int) : (m.claim second).Orderly := by
  intro other v hv
  rw [hour?_claim] at hv
  exact h other v hv

theorem release (h : m.Orderly) (second : Int) : (m.release second).Orderly := by
  intro other v hv
  rw [hour?_release] at hv
  exact h other v hv

theorem file (h : m.Orderly) {v : Hour} (hv : v.time.second = second) :
    (m.file second v).Orderly := by
  intro other u hu
  rw [hour?_file] at hu
  split at hu
  · next heq =>
    cases hu
    rw [heq, hv]
  · exact h other u hu

/-- An update begins with an hour of the second that it addresses. -/
theorem startingHour (h : m.Orderly) {time : Moment} {s : Setting} {v : Hour}
    (hv : Repository.startingHour m time s = .done v) : v.time.second = time.second := by
  unfold Repository.startingHour at hv
  cases hold : m.hour? time.second with
  | some old =>
      rw [hold] at hv
      cases hv
      exact h _ _ hold
  | none =>
      rw [hold, BookingWindow.newHour] at hv
      cases hcheck : s.window.check time s.now <;> rw [hcheck] at hv <;> cases hv
      rfl

end Orderly

end Memory

namespace World

/-- The store is in memory, and there is no placeholder in it but at the given seconds. -/
def WrittenBut (seconds : List Int) (w : World) : Prop :=
  ∃ m, w.store = .memory m ∧ m.WrittenBut seconds

/-- The store is in memory, and its hours are filed under their own seconds. -/
def Orderly (w : World) : Prop := ∃ m, w.store = .memory m ∧ m.Orderly

variable {w : World} {second : Int} {seconds : List Int}

theorem WrittenBut.onMemory {seconds' : List Int} {f : Memory → Memory} (h : w.WrittenBut seconds)
    (hf : ∀ m : Memory, m.WrittenBut seconds → (f m).WrittenBut seconds') :
    (w.onMemory f).WrittenBut seconds' := by
  obtain ⟨m, hw, hm⟩ := h
  exact ⟨f m, store_onMemory hw f, hf m hm⟩

theorem Orderly.onMemory {f : Memory → Memory} (h : w.Orderly)
    (hf : ∀ m : Memory, m.Orderly → (f m).Orderly) : (w.onMemory f).Orderly := by
  obtain ⟨m, hw, hm⟩ := h
  exact ⟨f m, store_onMemory hw f, hf m hm⟩

end World

namespace Repository

variable {second : Int} {seconds : List Int} {r : Ending Failure Hour × World}

theorem closeSlot_ending (second : Int) (r : Ending Failure Hour × World) :
    (closeSlot second r).1 = r.1 := by
  obtain ⟨_ | _ | _, w⟩ := r <;> rfl

/-- Whatever comes of the transition, no placeholder is left in the slot that is closed. -/
theorem closeSlot_written (h : r.2.WrittenBut (second :: seconds)) (hend : r.1 ≠ .crashed) :
    (closeSlot second r).2.WrittenBut seconds := by
  obtain ⟨_ | _ | _, w⟩ := r
  case done v => exact h.onMemory fun m hm => hm.file v
  case refused c => exact h.onMemory fun m hm => hm.release
  case crashed => exact absurd rfl hend

theorem closeSlot_orderly (h : r.2.Orderly) (hdone : ∀ v, r.1 = .done v → v.time.second = second) :
    (closeSlot second r).2.Orderly := by
  obtain ⟨_ | _ | _, w⟩ := r
  case done v => exact h.onMemory fun m hm => hm.file (hdone v rfl)
  case refused c => exact h.onMemory fun m hm => hm.release second
  case crashed => exact h

end Repository

/-! ### What a visit keeps -/

namespace Visit

/-- Every transition that is run on the way, and makes an hour, keeps the time of the hour that it was
given. -/
def KeepsTimes : Visit → Setting → World → Prop
  | ending _, _, _ => True
  | hour? time next, s, w =>
    Ending.Answered (fun a => (next a).KeepsTimes s) (Repository.hour? time s w)
  | hoursBetween first last next, s, w =>
    Ending.Answered (fun a => (next a).KeepsTimes s) (Repository.hoursBetween first last s w)
  | updateHour now time transition next, s, w =>
    (∀ h, Repository.Gives time { s with now := now } w h →
      let inner := ({ s with now := now } : Setting).holdingHour time.second
      let claimed := w.onMemory (Memory.claim time.second)
      (transition h).KeepsTimes inner claimed ∧
        ∀ v, ((transition h).run inner claimed).1 = .done v → v.time = h.time) ∧
    Ending.Answered (fun a => (next a).KeepsTimes s)
      (Repository.updateHour time (fun h => (transition h).run) { s with now := now } w)

/-- **A visit leaves placeholders only where hours are held**, if nothing crashes. -/
theorem written (v : Visit) {s : Setting} {w : World} (hw : w.WrittenBut s.held.hours)
    (hend : (v.run s w).1 ≠ .crashed) : (v.run s w).2.WrittenBut s.held.hours := by
  induction v generalizing s w with
  | ending e => exact hw
  | hour? time next ih =>
      refine Ending.follow_keeps (fun _ => ?_) (.of_forall (fun a w => ih a) _) hend
      obtain ⟨m, hstore, hm⟩ := hw
      rw [Repository.hour?_run hstore]
      exact ⟨m, hstore, hm⟩
  | hoursBetween first last next ih =>
      refine Ending.follow_keeps (fun _ => ?_) (.of_forall (fun a w => ih a) _) hend
      obtain ⟨m, hstore, hm⟩ := hw
      rw [Repository.hoursBetween_run hstore]
      exact ⟨m, hstore, hm⟩
  | updateHour now time transition next ih ihnext =>
      refine Ending.follow_keeps (fun hcall => ?_) (.of_forall (fun a w => ihnext a) _) hend
      obtain ⟨m, hstore, hm⟩ := hw
      have hclaimed : (w.onMemory (Memory.claim time.second)).WrittenBut
          (time.second :: s.held.hours) :=
        ⟨_, World.store_onMemory hstore _, hm.claim time.second⟩
      rw [Repository.updateHour_run hstore] at hcall ⊢
      split at hcall
      · next hheld =>
        rw [if_pos hheld]
        exact ⟨_, World.store_onMemory hstore _, hm.claim_of_mem hheld⟩
      · next hfree =>
        rw [Repository.closeSlot_ending] at hcall
        rw [if_neg hfree]
        refine Repository.closeSlot_written ?_ hcall
        exact Repository.insideSlot_keeps (P := fun r => r.2.WrittenBut _) (fun c => hclaimed)
          (fun h _ hturn => ih h hclaimed hturn) hcall

/-- **A visit leaves hours under their own seconds**, as long as transitions keep their times. -/
theorem orderly (v : Visit) {s : Setting} {w : World} (hw : w.Orderly) (hkeeps : v.KeepsTimes s w)
    (hend : (v.run s w).1 ≠ .crashed) : (v.run s w).2.Orderly := by
  induction v generalizing s w with
  | ending e => exact hw
  | hour? time next ih =>
      refine Ending.follow_keeps (fun _ => ?_) (hkeeps.imp fun a w hrest hw => ih a hw hrest) hend
      obtain ⟨m, hstore, hm⟩ := hw
      rw [Repository.hour?_run hstore]
      exact ⟨m, hstore, hm⟩
  | hoursBetween first last next ih =>
      refine Ending.follow_keeps (fun _ => ?_) (hkeeps.imp fun a w hrest hw => ih a hw hrest) hend
      obtain ⟨m, hstore, hm⟩ := hw
      rw [Repository.hoursBetween_run hstore]
      exact ⟨m, hstore, hm⟩
  | updateHour now time transition next ih ihnext =>
      obtain ⟨hturns, hrest⟩ := hkeeps
      refine Ending.follow_keeps (fun hcall => ?_)
        (hrest.imp fun a w hrest hw => ihnext a hw hrest) hend
      obtain ⟨m, hstore, hm⟩ := hw
      have hclaimed : (w.onMemory (Memory.claim time.second)).Orderly :=
        ⟨_, World.store_onMemory hstore _, hm.claim time.second⟩
      rw [Repository.updateHour_run hstore] at hcall ⊢
      split at hcall
      · next hheld =>
        rw [if_pos hheld]
        exact hclaimed
      · next hfree =>
        rw [Repository.closeSlot_ending] at hcall
        rw [if_neg hfree]
        -- What a transition makes has the time of the hour that it was given, hence its second.
        have hinside := Repository.insideSlot_keeps
          (P := fun r => r.2.Orderly ∧ ∀ v, r.1 = .done v → v.time.second = time.second)
          (fun c => ⟨hclaimed, nofun⟩)
          (fun h hstart hturn => by
            obtain ⟨hturned, htime⟩ := hturns h ⟨m, hstore, hfree, hstart⟩
            refine ⟨ih h hclaimed hturned hturn, fun v hv => ?_⟩
            rw [htime v hv, hm.startingHour hstart])
          hcall
        exact Repository.closeSlot_orderly hinside.1 hinside.2

end Visit

end TrainerBooking
