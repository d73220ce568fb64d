import TrainerBooking.Proofs.Updates

/-! # The contents of any store

What a store of either kind holds, in every state: rows may say nothing sensible, traps may be set,
and nothing is asked of availabilities, roles or balances.

* **Contents.** `Store.contents` forgets what nobody is shown, the placeholders of the memory; of
  tables it forgets nothing, so equal contents of tables are equal rows, row numbers and traps.
* **Keys.** `Contents.Keyed` is all that is assumed of a store: a training is filed under its own
  identifier, and no two hours share a row number.
* **Effects.** An `Effect` is one entry written.  `Effect.Takes` says from which contents to which it
  leads: the one entry is other than before, and nothing else is.
* **Paths.** `Contents.Path` takes effects one after the other. -/

namespace TrainerBooking

namespace Registry

variable {κ ν : Type} [KeyOrder κ] [DecidableEq κ]

/-- Replaces the value filed under a key, if there is one. -/
def adjust (r : Registry κ ν) (key : κ) (f : ν → ν) : Registry κ ν :=
  match r.get? key with
  | some v => r.put key (f v)
  | none => r

theorem adjust_eq {r : Registry κ ν} {key : κ} {v : ν} (h : r.get? key = some v) (f : ν → ν) :
    r.adjust key f = r.put key (f v) := by
  rw [adjust, h]

theorem get?_adjust (r : Registry κ ν) (key other : κ) (f : ν → ν) :
    (r.adjust key f).get? other = if other = key then (r.get? key).map f else r.get? other := by
  cases h : r.get? key with
  | some v => rw [adjust_eq h, get?_put, Option.map_some]
  | none =>
      have hsame : r.adjust key f = r := by rw [adjust, h]
      rw [hsame]
      split
      · next ho => rw [ho, h, Option.map_none]
      · rfl

end Registry

/-- What is read from a row that may be missing is decoded from one that is there. -/
theorem Row.exists_of_read {ρ α : Type} {row? : Option ρ} {decode : ρ → Except DatabaseFault α}
    {a : α} (h : (row?.bind fun r => (decode r).toOption) = some a) :
    ∃ row, row? = some row ∧ decode row = .ok a := by
  obtain ⟨row, hrow, hread⟩ := Option.bind_eq_some_iff.mp h
  refine ⟨row, hrow, ?_⟩
  cases hd : decode row with
  | error f => rw [hd] at hread; cases hread
  | ok a' => rw [hd] at hread; cases hread; rfl

/-! ### Contents -/

/-- What a store holds. -/
inductive Contents where
  /-- In memory: the written hours by Unix second, the trainings and the accounts. -/
  | memory (hours : Int → Option Hour) (trainings : Registry String Training)
      (accounts : Registry String Account)
  /-- In tables: the tables as they are. -/
  | tables (t : Tables)

/-- The contents of a store. -/
def Store.contents : Store → Contents
  | .memory m => .memory m.hour? m.trainings m.accounts
  | .tables t => .tables t

namespace Contents

/-- Is anything filed as the training of an identifier? -/
def hasTraining (id : String) : Contents → Bool
  | memory _ trainings _ => trainings.contains id
  | tables t => t.trainings.contains id

/-- The training of an identifier, if there is one that can be read. -/
def training? (id : String) : Contents → Option Training
  | memory _ trainings _ => trainings.get? id
  | tables t => (t.trainings.get? id).bind fun r => r.decode.toOption

/-- In tables, what is read is decoded from a row. -/
theorem exists_row_of_training? {tb : Tables} {id : String} {t : Training}
    (h : (tables tb).training? id = some t) :
    ∃ row, tb.trainings.get? id = some row ∧ row.decode = .ok t :=
  Row.exists_of_read h

/-- The availability of the hour of a second, if it was ever written and is known. -/
def availability? (second : Int) : Contents → Option Availability
  | memory hours _ _ => (hours second).map Hour.availability
  | tables t => (t.hours.rows.get? second).bind fun r => Availability.ofLabel? r.availability

/-- The balance of an account, as it is kept. -/
def balance? (id : String) : Contents → Option Int
  | memory _ _ accounts => (accounts.get? id).map Account.balance
  | tables t => (t.accounts.get? id).map AccountRow.balance

/-- The trap that a statement meets; in memory there are none. -/
def trap? (database : Database) (statement : Statement) : Contents → Option Trap
  | memory .. => none
  | tables t => t.trap? database statement

/-- What the try of a number to update the hour of a second finds: in tables it may have a mishap. -/
def inTry (second : Int) (number : Nat) : Contents → Contents
  | memory hours trainings accounts => memory hours trainings accounts
  | tables t => tables (t.inTry second number)

/-- Files a training under its identifier. -/
def fileTraining (t : Training) : Contents → Contents
  | memory hours trainings accounts => memory hours (trainings.put t.id t) accounts
  | tables tb => tables { tb with trainings := tb.trainings.put t.id (TrainingRow.encode t) }

/-- Sets the availability of the hour of a second, and nothing else about it. -/
def setAvailability (second : Int) (a : Availability) : Contents → Contents
  | memory hours trainings accounts =>
    let changed := (hours second).map fun h => { h with availability := a }
    memory (Function.update hours second changed) trainings accounts
  | tables t =>
    let rows := t.hours.rows.adjust second fun r => { r with availability := a.label }
    tables { t with hours := { t.hours with rows := rows } }

/-- Sets the balance of an account, and nothing else about it. -/
def setBalance (id : String) (n : Int) : Contents → Contents
  | memory hours trainings accounts =>
    memory hours trainings (accounts.adjust id fun a => { a with balance := n })
  | tables t =>
    tables { t with accounts := t.accounts.adjust id fun r => { r with balance := n } }

/-- Trainings are filed under their own identifiers, and no two hours share a row number. -/
def Keyed : Contents → Prop
  | memory _ trainings _ => ∀ id t, trainings.get? id = some t → t.id = id
  | tables t => (∀ id r, t.trainings.get? id = some r → r.id = id) ∧
      ∀ second second' r r', t.hours.rows.get? second = some r →
        t.hours.rows.get? second' = some r' → r.rowId = r'.rowId → second = second'

/-- The two hold the same trainings, and their traps are the same. -/
def SameTrainings : Contents → Contents → Prop
  | memory _ trainings _, memory _ trainings' _ => trainings' = trainings
  | tables t, tables t' => t'.trainings = t.trainings ∧ t'.traps = t.traps
  | _, _ => False

variable {c c' c'' : Contents}

theorem SameTrainings.refl (c : Contents) : c.SameTrainings c := by
  cases c with
  | memory hours trainings accounts => exact rfl
  | tables t => exact ⟨rfl, rfl⟩

theorem SameTrainings.trans (h : c.SameTrainings c') (h' : c'.SameTrainings c'') :
    c.SameTrainings c'' := by
  cases c <;> cases c' <;> cases c'' <;> try contradiction
  · exact Eq.trans h' h
  · exact ⟨h'.1.trans h.1, h'.2.trans h.2⟩

end Contents

/-- A store as the program makes it is keyed. -/
theorem Store.Sound.keyed {st : Store} (h : st.Sound) : st.contents.Keyed := by
  cases st with
  | memory m => exact fun _ _ ht => Memory.Sound.training_id h ht
  | tables t =>
      exact ⟨fun _ _ hr => Tables.Sound.training_id h hr,
        fun _ _ _ _ hr hr' he => (Tables.Sound.hours h).rowId_inj hr hr' he⟩

/-! ### Effects -/

/-- One entry written. -/
inductive Effect where
  /-- A new training is stored. -/
  | add (t : Training)
  /-- An amount is added to the balance of an account. -/
  | credit (owner : String) (amount : Int)
  /-- The hour of a time is turned from one availability to another. -/
  | turn (time : Moment) (old new : Availability)
  /-- A stored training is replaced. -/
  | save (t : Training)
deriving DecidableEq, Repr

namespace Effect

/-- The effect leads from the contents `c` to these. -/
inductive Takes (c : Contents) : Effect → Contents → Prop
  | added {t : Training} (htrap : c.trap? .trainings .insert = none)
      (hnew : c.hasTraining t.id = false) : Takes c (.add t) (c.fileTraining t)
  /-- The database takes the row without a word, and does not keep it. -/
  | passedOver {t : Training} {trap : Trap} (htrap : c.trap? .trainings .insert = some trap)
      (hsilent : trap.wording = none) : Takes c (.add t) c
  | credited {owner : String} {amount b : Int} (hold : c.balance? owner = some b)
      (hn : 0 ≤ b + amount) : Takes c (.credit owner amount) (c.setBalance owner (b + amount))
  | turned {time : Moment} {old : Availability} (new : Availability)
      (hold : c.availability? time.second = some old) :
      Takes c (.turn time old new) (c.setAvailability time.second new)
  | saved {t : Training} (hold : c.hasTraining t.id = true) : Takes c (.save t) (c.fileTraining t)

/-- Does the effect replace a stored training? -/
def isSave : Effect → Bool
  | save _ => true
  | _ => false

/-- Is the effect on the calendar or on the accounts? -/
def isElsewhere : Effect → Bool
  | credit _ _ | turn _ _ _ => true
  | _ => false

/-- The sum that the effect makes does not leave the 64-bit numbers. -/
def Fits (c : Contents) : Effect → Prop
  | credit owner amount =>
    ∀ b ∈ c.balance? owner, Column.fits b = true ∧ Column.fits (b + amount) = true
  | add _ | turn _ _ _ | save _ => True

instance (c : Contents) (e : Effect) : Decidable (e.Fits c) := by
  cases e <;> unfold Fits <;> infer_instance

variable {c c' : Contents} {e : Effect}

theorem keyed_fileTraining (hc : c.Keyed) (t : Training) : (c.fileTraining t).Keyed := by
  cases c with
  | memory hours trainings accounts =>
      intro id t' ht'
      rw [Registry.get?_put] at ht'
      split at ht'
      · next hid => rw [← Option.some.inj ht', hid]
      · exact hc id t' ht'
  | tables tb =>
      refine ⟨fun id r hr => ?_, hc.2⟩
      simp only [Registry.get?_put] at hr
      split at hr
      · next hid => rw [← Option.some.inj hr, hid, TrainingRow.id_encode]
      · exact hc.1 id r hr

/-- An effect keeps the keys. -/
theorem Takes.keyed (h : e.Takes c c') (hc : c.Keyed) : c'.Keyed := by
  cases h with
  | added => exact keyed_fileTraining hc _
  | saved => exact keyed_fileTraining hc _
  | passedOver => exact hc
  | credited => cases c <;> exact hc
  | @turned time old new hold =>
      cases c with
      | memory hours trainings accounts => exact hc
      | tables tb =>
          have key : ∀ second r, (tb.hours.rows.adjust time.second
              fun r => { r with availability := new.label }).get? second = some r →
              ∃ r', tb.hours.rows.get? second = some r' ∧ r'.rowId = r.rowId := by
            intro second r hr
            rw [Registry.get?_adjust] at hr
            split at hr
            · next hs =>
                obtain ⟨r', hr', rfl⟩ := Option.map_eq_some_iff.mp hr
                exact ⟨r', hs ▸ hr', rfl⟩
            · exact ⟨r, hr, rfl⟩
          refine ⟨hc.1, fun second second' r r' hr hr' he => ?_⟩
          obtain ⟨r₁, h₁, hid₁⟩ := key second r hr
          obtain ⟨r₂, h₂, hid₂⟩ := key second' r' hr'
          exact hc.2 second second' r₁ r₂ h₁ h₂ (by rw [hid₁, hid₂, he])

/-- A new training is no credit. -/
theorem Takes.balance?_add {t : Training} (h : (add t).Takes c c') (id : String) :
    c'.balance? id = c.balance? id := by
  cases h with
  | passedOver => rfl
  | added => cases c <;> rfl

/-- An effect elsewhere leaves the trainings and the traps as they are. -/
theorem Takes.sameTrainings (h : e.Takes c c') (he : e.isElsewhere = true) :
    c.SameTrainings c' := by
  cases h with
  | added => cases he
  | passedOver => cases he
  | saved => cases he
  | credited =>
      cases c with
      | memory hours trainings accounts => exact rfl
      | tables t => exact ⟨rfl, rfl⟩
  | turned =>
      cases c with
      | memory hours trainings accounts => exact rfl
      | tables t => exact ⟨rfl, rfl⟩

end Effect

namespace Contents

/-- The effects lead, one after the other, from the contents `c` to these. -/
inductive Path : Contents → List Effect → Contents → Prop
  | rest (c : Contents) : Path c [] c
  | step {c c' c'' : Contents} {e : Effect} {es : List Effect} (h : e.Takes c c')
      (hrest : Path c' es c'') : Path c (e :: es) c''

variable {c c' c'' : Contents} {es es' : List Effect}

theorem Path.append (h : Path c es c') (h' : Path c' es' c'') : Path c (es ++ es') c'' := by
  induction h with
  | rest => exact h'
  | step he _ ih => exact .step he (ih h')

theorem Path.single {e : Effect} (h : e.Takes c c') : Path c [e] c' := .step h (.rest c')

theorem Path.takes {e : Effect} (h : Path c [e] c') : e.Takes c c' := by
  cases h with
  | step he hrest =>
      cases hrest
      exact he

theorem Path.keyed (h : Path c es c') (hc : c.Keyed) : c'.Keyed := by
  induction h with
  | rest => exact hc
  | step he _ ih => exact ih (he.keyed hc)

theorem Path.sameTrainings (h : Path c es c') (hes : ∀ e ∈ es, e.isElsewhere = true) :
    c.SameTrainings c' := by
  induction h with
  | rest c => exact .refl c
  | step he _ ih =>
      have hhead := he.sameTrainings (hes _ List.mem_cons_self)
      exact hhead.trans (ih fun e hm => hes e (List.mem_cons_of_mem _ hm))

end Contents

end TrainerBooking
