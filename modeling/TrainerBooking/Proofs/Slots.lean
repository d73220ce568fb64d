import Mathlib.Logic.Function.Basic
import TrainerBooking.Proofs.Residue
import TrainerBooking.Proofs.Visits

/-! # Slots and their holders

The store in memory drops a placeholder as soon as its update was refused.  Who shares slots with others
has to be more careful: a slot stays in the map as long as anybody else holds on to it.  This module runs
visits on slots that are shared in this way, and finds that it makes no difference.

* **Slots.** A `Slot` knows its hour, whether it is locked, and how many hold on to it, the map among
  them.  The map of a `SlotMap` leads from a second to the number of its slot.
* **Calls.** An update is handed the slot of its second, which is made if it is not there.  If the slot is
  locked, the update lets go and does nothing else; otherwise it locks the slot, and in the end unlocks
  it, lets go, and after a refusal also takes it out of the map, provided that it is a placeholder that
  nobody else holds on to.  A read lets go of all it was handed before it ends.
* **Mirrors.** `SlotMap.Mirrors` compares slots and memory while the hours of some seconds are held: the
  same hours and placeholders under the same seconds; the slots of held seconds locked, with two
  holders, and all others free, with one.
* **Visits.** On both sides a visit gets the same answers, and in the end they mirror each other again
  (`Visit.share_alike`): whenever a slot is to be taken out, its update is the only other holder.  So
  no placeholder is left when no call is under way (`Visit.leaves_no_placeholder`). -/

namespace TrainerBooking

/-- A slot, as it is shared. -/
structure Slot where
  /-- The hour that was written into it, if there is one. -/
  hour : Option Hour
  /-- Is an update of it under way? -/
  locked : Bool
  /-- How many hold on to it, the map among them. -/
  holders : Nat
deriving DecidableEq, Repr

/-- The slots of the calendar, numbered in the order in which they were made. -/
structure SlotMap where
  /-- The numbers of the slots in the map, by Unix second. -/
  filed : Registry Int Nat
  /-- The slots, by number. -/
  slot : Nat → Slot
  /-- How many slots were made. -/
  made : Nat

namespace SlotMap

/-- No slot was made. -/
def empty : SlotMap := ⟨Registry.empty, fun _ => ⟨none, false, 0⟩, 0⟩

/-! ### Holding on and letting go -/

/-- Changes a slot. -/
def adjust (n : Nat) (f : Slot → Slot) (σ : SlotMap) : SlotMap :=
  { σ with slot := Function.update σ.slot n (f (σ.slot n)) }

/-- Hands the slot of a second to one more holder, and makes it if there is none. -/
def handOut (second : Int) (σ : SlotMap) : Nat × SlotMap :=
  match σ.filed.get? second with
  | some n => (n, σ.adjust n fun slot => { slot with holders := slot.holders + 1 })
  | none =>
    (σ.made, ⟨σ.filed.put second σ.made, Function.update σ.slot σ.made ⟨none, false, 2⟩, σ.made + 1⟩)

/-- A holder lets go of a slot. -/
def letGo (n : Nat) : SlotMap → SlotMap :=
  adjust n fun slot => { slot with holders := slot.holders - 1 }

/-- Locks a slot. -/
def lock (n : Nat) : SlotMap → SlotMap := adjust n fun slot => { slot with locked := true }

/-- Unlocks a slot. -/
def unlock (n : Nat) : SlotMap → SlotMap := adjust n fun slot => { slot with locked := false }

/-- Writes an hour into a slot. -/
def write (n : Nat) (h : Hour) : SlotMap → SlotMap := adjust n fun slot => { slot with hour := some h }

/-- Takes a slot out of the map if it is a placeholder, is not locked, and is held by nobody but the map
and whoever takes it out. -/
def takeOut (second : Int) (n : Nat) (σ : SlotMap) : SlotMap :=
  if σ.filed.get? second = some n ∧ σ.slot n = ⟨none, false, 2⟩ then
    { σ.letGo n with filed := σ.filed.erase second }
  else σ

/-! ### Calls -/

/-- Reads the hour of a second. -/
def hour? (second : Int) (σ : SlotMap) : Ending Failure (Option Hour) :=
  match σ.filed.get? second with
  | none => .done none
  | some n =>
    if (σ.slot n).locked then .refused (Repository.held "trainer hour") else .done (σ.slot n).hour

/-- The slots in the map from the first second to the last one, in order of time. -/
def slotsBetween (first last : Int) (σ : SlotMap) : List Slot :=
  (σ.filed.entries.filter fun e => decide (first ≤ e.1) && decide (e.1 ≤ last)).map
    fun e => σ.slot e.2

/-- Reads the hours from the first second to the last one.  The range must not end before it begins,
unless no slot was ever made. -/
def hoursBetween (first last : Int) (σ : SlotMap) : Ending Failure (List Hour) :=
  if last < first ∧ 0 < σ.made then .crashed
  else if ∃ slot ∈ σ.slotsBetween first last, slot.locked then
    .refused (Repository.held "trainer hour")
  else .done ((σ.slotsBetween first last).filterMap Slot.hour)

/-- The hour with which an update begins. -/
def starting (window : BookingWindow) (now time : Moment) : Option Hour → Ending Failure Hour
  | some h => .done h
  | none => (window.newHour .notAvailable time now).mapCause Failure.rule

/-- What becomes of a locked slot when its update has ended. -/
def close (second : Int) (n : Nat) : Ending Failure Hour × SlotMap → Ending Failure Hour × SlotMap
  | (.done h, σ) => (.done h, ((σ.write n h).unlock n).letGo n)
  | (.refused c, σ) => (.refused c, ((σ.unlock n).takeOut second n).letGo n)
  | (.crashed, σ) => (.crashed, (σ.unlock n).letGo n)

/-- Updates the hour of a second. -/
def updateHour (second : Int) (start : Option Hour → Ending Failure Hour)
    (transition : Hour → SlotMap → Ending Failure Hour × SlotMap) (σ : SlotMap) :
    Ending Failure Hour × SlotMap :=
  let (n, σ) := σ.handOut second
  if (σ.slot n).locked then (.refused (Repository.held "trainer hour"), σ.letGo n)
  else close second n <|
    match start (σ.slot n).hour with
    | .done h => transition h (σ.lock n)
    | .refused c => (.refused c, σ.lock n)
    | .crashed => (.crashed, σ.lock n)

end SlotMap

/-- Makes the calls of a visit on shared slots.  Locks tell what is held. -/
def Visit.share (window : BookingWindow) : Visit → SlotMap → Ending Failure Hour × SlotMap
  | ending e => fun σ => (e, σ)
  | hour? time next => fun σ =>
    Ending.follow (fun a => (next a).share window) (σ.hour? time.second, σ)
  | hoursBetween first last next => fun σ =>
    Ending.follow (fun a => (next a).share window) (σ.hoursBetween first.second last.second, σ)
  | updateHour now time transition next => fun σ =>
    Ending.follow (fun a => (next a).share window)
      (σ.updateHour time.second (SlotMap.starting window now time)
        fun h => (transition h).share window)

/-! ### Slots that mirror a memory -/

/-- The slot around an hour or a placeholder, with its holders. -/
def Slot.around (held : Bool) (hour : Option Hour) : Slot := ⟨hour, held, if held then 2 else 1⟩

namespace SlotMap

/-- The slots hold what the memory holds, while the hours of these seconds are held. -/
structure Mirrors (σ : SlotMap) (held : List Int) (m : Memory) : Prop where
  used : m.used = decide (0 < σ.made)
  shows : ∀ second, (σ.filed.get? second).map σ.slot =
    (m.hours.get? second).map (Slot.around (decide (second ∈ held)))
  numbered : ∀ {second n}, σ.filed.get? second = some n → n < σ.made
  apart : ∀ {a b n}, σ.filed.get? a = some n → σ.filed.get? b = some n → a = b
  there : ∀ {second}, second ∈ held → (σ.filed.get? second).isSome

theorem adjust_adjust (n : Nat) (f g : Slot → Slot) (σ : SlotMap) :
    (σ.adjust n f).adjust n g = σ.adjust n (g ∘ f) := by
  simp [adjust]

namespace Mirrors

variable {σ σ' : SlotMap} {held held' : List Int} {m m' : Memory} {second : Int} {n : Nat}

theorem empty : SlotMap.empty.Mirrors [] Memory.empty where
  used := rfl
  shows _ := rfl
  numbered h := by cases h
  apart h := by cases h
  there h := by cases h

/-- The slot in the map is the one around what the memory has there. -/
theorem slot_eq (h : σ.Mirrors held m) (hn : σ.filed.get? second = some n) :
    ∃ hour, m.hours.get? second = some hour ∧
      σ.slot n = Slot.around (decide (second ∈ held)) hour := by
  have hshows := h.shows second
  rw [hn, Option.map_some, eq_comm, Option.map_eq_some_iff] at hshows
  obtain ⟨hour, hhour, heq⟩ := hshows
  exact ⟨hour, hhour, heq.symm⟩

theorem filed_eq_none_iff (h : σ.Mirrors held m) :
    σ.filed.get? second = none ↔ m.hours.get? second = none := by
  rw [← Option.map_eq_none_iff, h.shows, Option.map_eq_none_iff]

/-- The memory is the map with what is in the slots. -/
theorem hours_eq (h : σ.Mirrors held m) : m.hours = σ.filed.map fun n => (σ.slot n).hour := by
  refine Registry.ext_get? fun second => ?_
  have hshows := congrArg (Option.map Slot.hour) (h.shows second)
  rw [Option.map_map, Option.map_map] at hshows
  rw [Registry.get?_map]
  exact (hshows.trans Option.map_id').symm

theorem slotsBetween_eq (h : σ.Mirrors held m) (first last : Int) :
    m.slotsBetween first last =
      (σ.filed.entries.filter fun e => decide (first ≤ e.1) && decide (e.1 ≤ last)).map
        fun e => (e.1, (σ.slot e.2).hour) := by
  rw [Memory.slotsBetween, h.hours_eq, Registry.map, List.filter_map]
  rfl

/-- What is done at one second leaves the slots of all others as they mirror the memory. -/
theorem elsewhere (h : σ.Mirrors held m) (hused : m'.used = decide (0 < σ'.made))
    (hmade : σ.made ≤ σ'.made)
    (hshows : (σ'.filed.get? second).map σ'.slot =
      (m'.hours.get? second).map (Slot.around (decide (second ∈ held'))))
    (hnumber : ∀ n, σ'.filed.get? second = some n →
      n < σ'.made ∧ ∀ other, other ≠ second → σ.filed.get? other ≠ some n)
    (hthere : second ∈ held' → (σ'.filed.get? second).isSome)
    (hfiled : ∀ other, other ≠ second → σ'.filed.get? other = σ.filed.get? other)
    (hslot : ∀ other, other ≠ second → ∀ n, σ.filed.get? other = some n → σ'.slot n = σ.slot n)
    (hm : ∀ other, other ≠ second → m'.hours.get? other = m.hours.get? other)
    (hheld : ∀ other, other ≠ second → (other ∈ held' ↔ other ∈ held)) :
    σ'.Mirrors held' m' where
  used := hused
  shows other := by
    by_cases ho : other = second
    · rw [ho, hshows]
    · rw [hfiled other ho, hm other ho, decide_eq_decide.mpr (hheld other ho), ← h.shows]
      exact Option.map_congr fun n hn => hslot other ho n hn
  numbered {other n} hn := by
    by_cases ho : other = second
    · exact (hnumber n (ho ▸ hn)).1
    · rw [hfiled other ho] at hn
      exact (h.numbered hn).trans_le hmade
  apart {a b n} ha hb := by
    by_cases has : a = second <;> by_cases hbs : b = second
    · rw [has, hbs]
    · rw [hfiled b hbs] at hb
      exact absurd hb ((hnumber n (has ▸ ha)).2 b hbs)
    · rw [hfiled a has] at ha
      exact absurd ha ((hnumber n (hbs ▸ hb)).2 a has)
    · rw [hfiled a has] at ha
      rw [hfiled b hbs] at hb
      exact h.apart ha hb
  there {other} hother := by
    by_cases ho : other = second
    · exact ho ▸ hthere (ho ▸ hother)
    · rw [hfiled other ho]
      exact h.there ((hheld other ho).mp hother)

/-- A slot is changed, and with it what the memory has at its second and whether it is held. -/
theorem adjust (h : σ.Mirrors held m) (hn : σ.filed.get? second = some n) {f : Slot → Slot}
    {hour : Option Hour} (hused : m'.used = m.used) (hhour : m'.hours.get? second = some hour)
    (hm : ∀ other, other ≠ second → m'.hours.get? other = m.hours.get? other)
    (hheld : ∀ other, other ≠ second → (other ∈ held' ↔ other ∈ held))
    (hslot : f (σ.slot n) = Slot.around (decide (second ∈ held')) hour) :
    (σ.adjust n f).Mirrors held' m' := by
  have hother : ∀ other, other ≠ second → σ.filed.get? other ≠ some n :=
    fun other ho hk => ho (h.apart hk hn)
  refine h.elsewhere (hused.trans h.used) le_rfl ?_ (fun k hk => ?_) (fun _ => ?_) (fun _ _ => rfl)
    (fun other ho k hk => ?_) hm hheld
  · simp [SlotMap.adjust, hn, hhour, hslot]
  · obtain rfl : n = k := Option.some.inj (hn.symm.trans hk)
    exact ⟨h.numbered hn, hother⟩
  · exact Option.isSome_of_mem hn
  · refine Function.update_of_ne ?_ _ _
    rintro rfl
    exact hother other ho hk

/-- A slot is made for a second, and the memory has a placeholder there. -/
theorem make (h : σ.Mirrors held m) (hused : m'.used = true)
    (hhour : m'.hours.get? second = some none)
    (hm : ∀ other, other ≠ second → m'.hours.get? other = m.hours.get? other)
    (hheld : ∀ other, other ≠ second → (other ∈ held' ↔ other ∈ held)) :
    SlotMap.Mirrors ⟨σ.filed.put second σ.made,
      Function.update σ.slot σ.made (Slot.around (decide (second ∈ held')) none), σ.made + 1⟩
      held' m' := by
  refine h.elsewhere (by simp [hused]) (Nat.le_succ _) ?_ (fun k hk => ?_) (fun _ => ?_)
    (fun other ho => ?_) (fun other ho k hk => ?_) hm hheld
  · simp [hhour]
  · obtain rfl : σ.made = k := by simpa using hk
    exact ⟨Nat.lt_succ_self _, fun other _ hk => (h.numbered hk).ne rfl⟩
  · simp
  · rw [Registry.get?_put, if_neg ho]
  · exact Function.update_of_ne (h.numbered hk).ne _ _

/-- A slot is taken out, and the memory has nothing at its second. -/
theorem erase (h : σ.Mirrors held m) (hn : σ.filed.get? second = some n) {f : Slot → Slot}
    (hused : m'.used = m.used) (hhour : m'.hours.get? second = none) (hfree : second ∉ held')
    (hm : ∀ other, other ≠ second → m'.hours.get? other = m.hours.get? other)
    (hheld : ∀ other, other ≠ second → (other ∈ held' ↔ other ∈ held)) :
    { σ.adjust n f with filed := σ.filed.erase second }.Mirrors held' m' := by
  refine h.elsewhere (hused.trans h.used) le_rfl ?_ (fun k hk => ?_) (fun hmem => absurd hmem hfree)
    (fun other ho => ?_) (fun other ho k hk => ?_) hm hheld
  · simp [hhour]
  · simp at hk
  · rw [Registry.get?_erase, if_neg ho]
  · refine Function.update_of_ne ?_ _ _
    rintro rfl
    exact ho (h.apart hk hn)

end Mirrors

/-! ### Updates on both sides -/

section updates

variable {σ : SlotMap} {held : List Int} {m : Memory} {second : Int} {n : Nat}

/-- What an update finds that is handed the slot of a second which is not held: a slot around what the
memory has there, which is free.  When it has locked the slot, that mirrors the claimed one. -/
structure HandedOut (σ : SlotMap) (held : List Int) (m : Memory) (second : Int) (n : Nat)
    (σ' : SlotMap) : Prop where
  slot : σ'.slot n = ⟨m.hour? second, false, 2⟩
  filed : (σ'.lock n).filed.get? second = some n
  kept : ∀ other ∈ held, (σ'.lock n).filed.get? other = σ.filed.get? other
  mirrors : (σ'.lock n).Mirrors (second :: held) (m.claim second)

theorem Mirrors.handOut (h : σ.Mirrors held m) (hfree : second ∉ held) :
    ∃ n σ', σ.handOut second = (n, σ') ∧ HandedOut σ held m second n σ' := by
  unfold SlotMap.handOut
  cases hn : σ.filed.get? second with
  | some n =>
      obtain ⟨hour, hhour, hslot⟩ := h.slot_eq hn
      have hclaim : m.claim second = m := by simp [Memory.claim, Registry.contains, hhour]
      refine ⟨_, _, rfl, ?_, hn, fun _ _ => rfl, ?_⟩
      · simp [SlotMap.adjust, hslot, Slot.around, hfree, Memory.hour?, hhour]
      · rw [SlotMap.lock, adjust_adjust, hclaim]
        refine h.adjust hn rfl hhour (fun _ _ => rfl) (fun other ho => by simp [ho]) ?_
        simp [hslot, Slot.around, hfree]
  | none =>
      have hnone := h.filed_eq_none_iff.mp hn
      have hclaim : m.claim second = { m with hours := m.hours.put second none, used := true } := by
        simp [Memory.claim, Registry.contains, hnone]
      refine ⟨_, _, rfl, ?_, Registry.get?_put_self .., fun other hother => ?_, ?_⟩
      · simp [Memory.hour?, hnone]
      · refine (Registry.get?_put ..).trans (if_neg ?_)
        rintro rfl
        exact hfree hother
      · have hmake : SlotMap.Mirrors ⟨σ.filed.put second σ.made,
            Function.update σ.slot σ.made (Slot.around (decide (second ∈ second :: held)) none),
            σ.made + 1⟩ (second :: held)
            { m with hours := m.hours.put second none, used := true } :=
          h.make rfl (Registry.get?_put_self ..)
            (fun other ho => (Registry.get?_put ..).trans (if_neg ho)) fun other ho => by simp [ho]
        rw [hclaim]
        simpa [SlotMap.lock, SlotMap.adjust, Slot.around] using hmake

/-- Whoever is handed the slot of a second that is held finds it locked, and when he has let go of it,
nothing has changed. -/
theorem Mirrors.handOut_held (h : σ.Mirrors held m) (hheld : second ∈ held) :
    ∃ n σ', σ.handOut second = (n, σ') ∧ (σ'.slot n).locked = true ∧
      (σ'.letGo n).Mirrors held (m.claim second) ∧ (σ'.letGo n).filed = σ.filed := by
  obtain ⟨n, hn⟩ := Option.isSome_iff_exists.mp (h.there hheld)
  obtain ⟨hour, hhour, hslot⟩ := h.slot_eq hn
  have hclaim : m.claim second = m := by simp [Memory.claim, Registry.contains, hhour]
  simp only [SlotMap.handOut, hn, hclaim]
  refine ⟨_, _, rfl, ?_, ?_, rfl⟩
  · simp [SlotMap.adjust, hslot, Slot.around, hheld]
  · rw [SlotMap.letGo, adjust_adjust]
    refine h.adjust hn rfl hhour (fun _ _ => rfl) (fun _ _ => Iff.rfl) ?_
    simp [hslot, Slot.around, hheld]

/-- The hour is written into the slot, and filed in the memory. -/
theorem Mirrors.written (h : σ.Mirrors (second :: held) m) (hn : σ.filed.get? second = some n)
    (hfree : second ∉ held) (v : Hour) :
    (((σ.write n v).unlock n).letGo n).Mirrors held (m.file second v) := by
  obtain ⟨hour, -, hslot⟩ := h.slot_eq hn
  have hused : m.used = true := by
    rw [h.used, decide_eq_true_eq]
    exact Nat.zero_lt_of_lt (h.numbered hn)
  rw [SlotMap.write, SlotMap.unlock, SlotMap.letGo, adjust_adjust, adjust_adjust]
  refine h.adjust hn hused.symm (Registry.get?_put_self ..)
    (fun other ho => (Registry.get?_put ..).trans (if_neg ho))
    (fun other ho => by simp [ho]) ?_
  simp [hslot, Slot.around, hfree]

/-- The slot is unlocked and let go of. -/
theorem Mirrors.unlocked (h : σ.Mirrors (second :: held) m) (hn : σ.filed.get? second = some n)
    (hfree : second ∉ held) : ((σ.unlock n).letGo n).Mirrors held m := by
  obtain ⟨hour, hhour, hslot⟩ := h.slot_eq hn
  rw [SlotMap.unlock, SlotMap.letGo, adjust_adjust]
  refine h.adjust hn rfl hhour (fun _ _ => rfl) (fun other ho => by simp [ho]) ?_
  simp [hslot, Slot.around, hfree]

/-- After a refusal the slot is taken out exactly if the memory drops its placeholder: there is no
other holder. -/
theorem Mirrors.released (h : σ.Mirrors (second :: held) m) (hn : σ.filed.get? second = some n)
    (hfree : second ∉ held) :
    (((σ.unlock n).takeOut second n).letGo n).Mirrors held (m.release second) := by
  obtain ⟨hour, hhour, hslot⟩ := h.slot_eq hn
  have hunlocked : (σ.unlock n).slot n = ⟨hour, false, 2⟩ := by
    simp [SlotMap.unlock, SlotMap.adjust, hslot, Slot.around]
  have hfiled : (σ.unlock n).filed.get? second = some n := hn
  cases hour with
  | some v =>
      have hrelease : m.release second = m := by simp [Memory.release, hhour]
      rw [SlotMap.takeOut, hunlocked, if_neg (by simp), hrelease]
      exact h.unlocked hn hfree
  | none =>
      have hrelease : m.release second = { m with hours := m.hours.erase second } := by
        simp [Memory.release, hhour]
      let letGoTwice (slot : Slot) : Slot :=
        { slot with locked := false, holders := slot.holders - 1 - 1 }
      have herase : { σ.adjust n letGoTwice with filed := σ.filed.erase second }.Mirrors held
          { m with hours := m.hours.erase second } :=
        h.erase hn rfl (Registry.get?_erase_self ..) hfree
          (fun other ho => (Registry.get?_erase ..).trans (if_neg ho)) fun other ho => by simp [ho]
      rw [SlotMap.takeOut, hunlocked, if_pos ⟨hfiled, rfl⟩, hrelease]
      simpa [SlotMap.letGo, SlotMap.unlock, SlotMap.adjust, letGoTwice] using herase

end updates

/-! ### Visits on both sides -/

/-- The slots mirror the memory of a world. -/
def Reflects (σ : SlotMap) (held : List Int) (w : World) : Prop :=
  ∃ m, w.store = .memory m ∧ σ.Mirrors held m

/-- Both sides ended in the same way and mirror each other, and the slots of held seconds are those that
they were in `σ`. -/
structure Alike {α : Type} (held : List Int) (σ : SlotMap) (r : Ending Failure α × World)
    (r' : Ending Failure α × SlotMap) : Prop where
  ending : r'.1 = r.1
  reflects : r'.2.Reflects held r.2
  kept : ∀ second ∈ held, r'.2.filed.get? second = σ.filed.get? second

namespace Alike

variable {α β : Type} {held : List Int} {σ σ' : SlotMap} {second : Int} {n : Nat}

theorem of_same {e : Ending Failure α} {w : World} (h : σ.Reflects held w) :
    Alike held σ (e, w) (e, σ) := ⟨rfl, h, fun _ _ => rfl⟩

theorem rebase {r : Ending Failure α × World} {r' : Ending Failure α × SlotMap}
    (h : Alike held σ' r r') (hkept : ∀ second ∈ held, σ'.filed.get? second = σ.filed.get? second) :
    Alike held σ r r' :=
  ⟨h.ending, h.reflects, fun second hs => (h.kept second hs).trans (hkept second hs)⟩

theorem follow {r : Ending Failure α × World} {r' : Ending Failure α × SlotMap}
    {next : Except Failure α → World → Ending Failure β × World}
    {next' : Except Failure α → SlotMap → Ending Failure β × SlotMap} (h : Alike held σ r r')
    (hnext : ∀ a w σ', σ'.Reflects held w → Alike held σ' (next a w) (next' a σ')) :
    Alike held σ (Ending.follow next r) (Ending.follow next' r') := by
  obtain ⟨e, w⟩ := r
  obtain ⟨e', σ'⟩ := r'
  obtain ⟨hend, hreflects, hkept⟩ := h
  obtain rfl : e' = e := hend
  cases e' with
  | done a => exact (hnext _ w σ' hreflects).rebase hkept
  | refused c => exact (hnext _ w σ' hreflects).rebase hkept
  | crashed => exact ⟨rfl, hreflects, hkept⟩

/-- Both sides close the slot. -/
theorem close {r : Ending Failure Hour × World} {r' : Ending Failure Hour × SlotMap}
    (h : Alike (second :: held) σ r r') (hn : σ.filed.get? second = some n)
    (hfree : second ∉ held) :
    Alike held σ (Repository.closeSlot second r) (SlotMap.close second n r') := by
  obtain ⟨e, w⟩ := r
  obtain ⟨e', σ'⟩ := r'
  obtain ⟨hend, ⟨m, hw, hm⟩, hkept⟩ := h
  obtain rfl : e' = e := hend
  have hn' : σ'.filed.get? second = some n := (hkept second List.mem_cons_self).trans hn
  have hkept' : ∀ other ∈ held, σ'.filed.get? other = σ.filed.get? other :=
    fun other ho => hkept other (List.mem_cons_of_mem _ ho)
  cases e' with
  | done v =>
      exact ⟨rfl, ⟨_, World.store_onMemory hw _, hm.written hn' hfree v⟩, hkept'⟩
  | crashed => exact ⟨rfl, ⟨m, hw, hm.unlocked hn' hfree⟩, hkept'⟩
  | refused c =>
      refine ⟨rfl, ⟨_, World.store_onMemory hw _, hm.released hn' hfree⟩, fun other ho => ?_⟩
      have hne : other ≠ second := by
        rintro rfl
        exact hfree ho
      refine Eq.trans ?_ (hkept' other ho)
      show ((σ'.unlock n).takeOut second n).filed.get? other = σ'.filed.get? other
      unfold takeOut
      split
      · exact (Registry.get?_erase ..).trans (if_neg hne)
      · rfl

end Alike

section calls

variable {s : Setting} {w : World} {σ : SlotMap} {time : Moment}

theorem starting_eq (m : Memory) (time : Moment) (s : Setting) :
    starting s.window s.now time (m.hour? time.second) = Repository.startingHour m time s := by
  unfold starting Repository.startingHour
  cases m.hour? time.second <;> rfl

theorem hour?_alike (h : σ.Reflects s.held.hours w) (time : Moment) :
    Alike s.held.hours σ (Repository.hour? time s w) (σ.hour? time.second, σ) := by
  obtain ⟨m, hw, hm⟩ := id h
  have hsame : σ.hour? time.second = (Repository.hour? time s w).1 := by
    rw [Repository.hour?_run hw, SlotMap.hour?]
    cases hn : σ.filed.get? time.second with
    | none => simp [hm.filed_eq_none_iff.mp hn]
    | some n =>
        obtain ⟨hour, hhour, hslot⟩ := hm.slot_eq hn
        simp [hhour, hslot, Slot.around]
  rw [hsame, Repository.hour?_run hw]
  exact .of_same h

theorem hoursBetween_alike (h : σ.Reflects s.held.hours w) (first last : Moment) :
    Alike s.held.hours σ (Repository.hoursBetween first last s w)
      (σ.hoursBetween first.second last.second, σ) := by
  obtain ⟨m, hw, hm⟩ := id h
  have hlocked : (∃ e ∈ m.slotsBetween first.second last.second, e.1 ∈ s.held.hours) ↔
      ∃ slot ∈ σ.slotsBetween first.second last.second, slot.locked = true := by
    rw [hm.slotsBetween_eq, SlotMap.slotsBetween]
    simp only [List.mem_map, exists_exists_and_eq_and]
    refine exists_congr fun e => and_congr_right fun he => ?_
    obtain ⟨hour, -, hslot⟩ := hm.slot_eq (Registry.mem_entries_iff.mp (List.mem_of_mem_filter he))
    simp [hslot, Slot.around]
  have hhours : (m.slotsBetween first.second last.second).filterMap Prod.snd =
      (σ.slotsBetween first.second last.second).filterMap Slot.hour := by
    rw [hm.slotsBetween_eq, SlotMap.slotsBetween, List.filterMap_map, List.filterMap_map]
    rfl
  have hsame : σ.hoursBetween first.second last.second =
      (Repository.hoursBetween first last s w).1 := by
    rw [Repository.hoursBetween_run hw, SlotMap.hoursBetween, hm.used, hhours]
    simp only [hlocked, decide_eq_true_eq]
  rw [hsame, Repository.hoursBetween_run hw]
  exact .of_same h

/-- Both sides update an hour by transitions that are alike. -/
theorem updateHour_alike (h : σ.Reflects s.held.hours w) {transition : Hour → Act Failure Hour}
    {transition' : Hour → SlotMap → Ending Failure Hour × SlotMap}
    (hturn : ∀ v w σ', σ'.Reflects (time.second :: s.held.hours) w →
      Alike (time.second :: s.held.hours) σ' (transition v (s.holdingHour time.second) w)
        (transition' v σ')) :
    Alike s.held.hours σ (Repository.updateHour time transition s w)
      (σ.updateHour time.second (starting s.window s.now time) transition') := by
  obtain ⟨m, hw, hm⟩ := h
  rw [Repository.updateHour_run hw, SlotMap.updateHour]
  by_cases hheld : time.second ∈ s.held.hours
  · obtain ⟨n, σ', hout, hlocked, hmirrors, hfiled⟩ := hm.handOut_held hheld
    rw [if_pos hheld, hout]
    dsimp only
    rw [if_pos hlocked]
    exact ⟨rfl, ⟨_, World.store_onMemory hw _, hmirrors⟩, fun _ _ => by rw [hfiled]⟩
  · obtain ⟨n, σ', hout, hslot, hn, hkept, hmirrors⟩ := hm.handOut hheld
    have hclaimed : (σ'.lock n).Reflects (time.second :: s.held.hours)
        (w.onMemory (Memory.claim time.second)) := ⟨_, World.store_onMemory hw _, hmirrors⟩
    rw [if_neg hheld, hout]
    dsimp only
    rw [hslot, if_neg Bool.false_ne_true]
    dsimp only
    rw [starting_eq, Repository.insideSlot]
    refine Alike.rebase (.close ?_ hn hheld) hkept
    cases Repository.startingHour m time s with
    | done v => exact hturn v _ _ hclaimed
    | refused c => exact .of_same hclaimed
    | crashed => exact .of_same hclaimed

end calls

end SlotMap

/-- **Sharing slots makes no difference.** -/
theorem Visit.share_alike (v : Visit) {s : Setting} {w : World} {σ : SlotMap}
    (h : σ.Reflects s.held.hours w) :
    SlotMap.Alike s.held.hours σ (v.run s w) (v.share s.window σ) := by
  induction v generalizing s w σ with
  | ending e => exact .of_same h
  | hour? time next ih =>
      exact (SlotMap.hour?_alike h time).follow fun a w σ' hr => ih a hr
  | hoursBetween first last next ih =>
      exact (SlotMap.hoursBetween_alike h first last).follow fun a w σ' hr => ih a hr
  | updateHour now time transition next ih ihnext =>
      refine SlotMap.Alike.follow ?_ fun a w σ' hr => ihnext a hr
      exact SlotMap.updateHour_alike (s := { s with now := now }) h fun v w σ' hr =>
        ih v (s := ({ s with now := now } : Setting).holdingHour time.second) hr

/-- Without placeholders in memory, every slot in the map holds an hour, is free, and is held by the map
alone. -/
theorem SlotMap.Mirrors.filled {σ : SlotMap} {m : Memory} (h : σ.Mirrors [] m)
    (hm : m.WrittenBut []) {second : Int} {n : Nat} (hn : σ.filed.get? second = some n) :
    ∃ v, m.hour? second = some v ∧ σ.slot n = ⟨some v, false, 1⟩ := by
  obtain ⟨hour, hhour, hslot⟩ := h.slot_eq hn
  cases hour with
  | none => exact absurd (hm second hhour) List.not_mem_nil
  | some v => exact ⟨v, by rw [Memory.hour?, hhour]; rfl, hslot⟩

/-- **The calendar in memory leaks no placeholders.**  Calls are made one after the other, from outside
where no hour is held, on a memory without placeholders: reads, and updates that call back as they like.
If none of them crashed, every slot holds an hour, which has the second of its slot if that was so in
the beginning and transitions keep times.  Shared slots go the same way: those in the map are free, hold
the same hours, and nobody else holds on to them.  And whatever is held, no read changes anything, and
an update of an hour that is held is timed out.

The first calls of a visit are a visit too, so this is how things are between any two of its calls. -/
theorem Visit.leaves_no_placeholder (v : Visit) {s : Setting} (hs : s.held.hours = []) {w : World}
    {m : Memory} (hw : w.store = .memory m) (hm : m.WrittenBut []) {σ : SlotMap}
    (hσ : σ.Mirrors [] m) (hend : (v.run s w).1 ≠ .crashed) :
    (∃ m', (v.run s w).2.store = .memory m' ∧
      (∀ second slot, m'.hours.get? second = some slot →
        ∃ h, slot = some h ∧ (m.Orderly → v.KeepsTimes s w → h.time.second = second)) ∧
      (v.share s.window σ).1 = (v.run s w).1 ∧ (v.share s.window σ).2.Mirrors [] m' ∧
      ∀ second n, (v.share s.window σ).2.filed.get? second = some n →
        ∃ h, m'.hour? second = some h ∧ (v.share s.window σ).2.slot n = ⟨some h, false, 1⟩) ∧
    ∀ (s' : Setting) (w' : World) (m' : Memory), w'.store = .memory m' →
      (∀ time, (Repository.hour? time s' w').2 = w') ∧
      (∀ first last, (Repository.hoursBetween first last s' w').2 = w') ∧
      ∀ time transition, time.second ∈ s'.held.hours →
        (Repository.updateHour time transition s' w').1 =
          .refused (Repository.held "trainer hour") := by
  have hwritten : w.WrittenBut s.held.hours := ⟨m, hw, hs ▸ hm⟩
  have hreflects : σ.Reflects s.held.hours w := ⟨m, hw, hs ▸ hσ⟩
  obtain ⟨hsame, ⟨m', hstore, hmirrors⟩, -⟩ := v.share_alike hreflects
  obtain ⟨written, hwstore, hleft⟩ := v.written hwritten hend
  obtain rfl : m' = written := Store.memory.inj (hstore.symm.trans hwstore)
  rw [hs] at hmirrors hleft
  refine ⟨⟨m', hstore, fun second slot hslot => ?_, hsame, hmirrors,
    fun second n hn => hmirrors.filled hleft hn⟩,
    fun s' w' m' hw' => ⟨fun time => ?_, fun first last => ?_, fun time transition hheld => ?_⟩⟩
  · cases slot with
    | none => exact absurd (hleft second hslot) List.not_mem_nil
    | some h =>
        refine ⟨h, rfl, fun horderly hkeeps => ?_⟩
        obtain ⟨kept, hkstore, hkept⟩ := v.orderly ⟨m, hw, horderly⟩ hkeeps hend
        obtain rfl : m' = kept := Store.memory.inj (hstore.symm.trans hkstore)
        exact hkept second h (by rw [Memory.hour?, hslot]; rfl)
  · rw [Repository.hour?_run hw']
  · rw [Repository.hoursBetween_run hw']
  · rw [Repository.updateHour_run hw', if_pos hheld]

namespace Visit

section samples

open Sample Desk.Command

/-- Makes an hour available. -/
def opened (h : Hour) : Visit := .ending (.done { h with availability := .available })

/-- One o'clock. -/
def oneTime : Moment := ⟨noonTime.nanos + 3600 * Moment.perSecond, 0⟩

/-- While noon is held, it is updated and read, and both are timed out; half past twelve is not
admitted.  Then noon is made available. -/
def noonOpened (h : Hour) : Visit :=
  .updateHour newYear noonTime opened fun _ =>
  .hour? noonTime fun _ =>
  .updateHour newYear ⟨noonTime.nanos + 1800 * Moment.perSecond, 0⟩ opened fun _ =>
  opened h

/-- Noon is opened, and then one o'clock is updated in vain. -/
def openingNoon : Visit :=
  .updateHour newYear noonTime noonOpened fun _ =>
  .updateHour newYear oneTime (fun _ => .ending (.refused (.rule .hourNotAvailable))) fun _ =>
  .ending (.refused (.rule .hourNotAvailable))

/-- The slots of a store in memory. -/
def slots : Store → List (Int × Option Hour)
  | .memory m => m.hours.entries
  | .tables _ => []

theorem keepsTimes_opened (h : Hour) (s : Setting) (w : World) :
    (opened h).KeepsTimes s w ∧ ∀ v, ((opened h).run s w).1 = .done v → v.time = h.time := by
  refine ⟨trivial, ?_⟩
  rintro v ⟨⟩
  rfl

theorem keepsTimes_openingNoon :
    openingNoon.KeepsTimes (.outer newYear .standard .bare) (world (.memory .empty)) := by
  refine ⟨fun h hgives => ?_, .of_forall (fun a w => ⟨fun h _ => ⟨trivial, nofun⟩, ?_⟩) _⟩
  · obtain ⟨m, hm, -, hstart⟩ := hgives
    cases hm
    have hfresh : Repository.startingHour .empty noonTime (.outer newYear .standard .bare) =
        .done ⟨noonTime, .notAvailable⟩ := by decide +kernel
    obtain rfl := Ending.done.inj (hfresh.symm.trans hstart)
    refine ⟨⟨fun h _ => keepsTimes_opened h _ _, .of_forall (fun a w => .of_forall (fun a w =>
      ⟨fun h _ => keepsTimes_opened h _ _, .of_forall (fun a w => trivial) _⟩) _) _⟩, ?_⟩
    -- The rest is run to its end: what it makes is noon, made available.
    intro v hv
    have hopened : ((noonOpened ⟨noonTime, .notAvailable⟩).run
        ((Setting.outer newYear .standard .bare).holdingHour noonTime.second)
        ((world (.memory .empty)).onMemory (Memory.claim noonTime.second))).1 =
        .done ⟨noonTime, .available⟩ := by decide +kernel
    obtain rfl := Ending.done.inj (hopened.symm.trans hv)
    rfl
  · exact .of_forall (fun a w => trivial) _

/-- Slots are made for noon, for half past twelve and for one o'clock.  Noon is written, and the two
others are gone. -/
theorem leaves_no_placeholder_noon :
    let s := Setting.outer newYear .standard .bare
    let w := world (.memory .empty)
    let left := openingNoon.run s w
    let shared := openingNoon.share s.window .empty
    s.held.hours = [] ∧ Memory.empty.WrittenBut [] ∧ SlotMap.empty.Mirrors [] .empty ∧
      left.1 ≠ .crashed ∧ Memory.empty.Orderly ∧ openingNoon.KeepsTimes s w ∧ shared.2.made = 3 ∧
      ∃ m', left.2.store = .memory m' ∧
        m'.hours.entries = [(noonTime.second, some ⟨noonTime, .available⟩)] ∧
        (∀ second slot, m'.hours.get? second = some slot →
          ∃ h, slot = some h ∧ h.time.second = second) ∧ shared.2.Mirrors [] m' := by
  intro s w left shared
  have hwritten : Memory.empty.WrittenBut [] := nofun
  have horderly : Memory.empty.Orderly := nofun
  have hend : left.1 ≠ .crashed := by decide +kernel
  obtain ⟨⟨m', hstore, hfull, -, hmirrors, -⟩, -⟩ :=
    leaves_no_placeholder openingNoon (s := s) rfl (w := w) rfl hwritten .empty hend
  have hslots : slots left.2.store = [(noonTime.second, some ⟨noonTime, .available⟩)] := by
    decide +kernel
  rw [hstore] at hslots
  refine ⟨rfl, hwritten, .empty, hend, horderly, keepsTimes_openingNoon, by decide +kernel,
    m', hstore, hslots, fun second slot hslot => ?_, hmirrors⟩
  obtain ⟨h, hh, htime⟩ := hfull second slot hslot
  exact ⟨h, hh, htime horderly keepsTimes_openingNoon⟩

end samples

end Visit

end TrainerBooking
