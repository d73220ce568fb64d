import TrainerBooking.Repository.Hours

/-! # The trainings of the store

Acts on the trainings of a store of either kind.  Whoever reads or updates a single training does so
on behalf of a caller, who has to be one that may see it; that is checked before a transition runs.
An update runs its transition while the training is held, and if the transition is refused nothing is
written. -/

namespace TrainerBooking.Repository

/-- The failure that there is no such training. -/
def noTraining (id : String) : Failure := .missing "training" id

/-- Stores a new training. -/
def addTraining (training : Training) : Act Failure Unit := do
  let s ← Act.setting
  match ← Act.store with
  | .memory m =>
    let m ← (Act.ofExcept (m.addTraining training)).mapCause Failure.storage
    Act.setStore (.memory m)
  | .tables t =>
    ofDatabase (t.lease (!s.held.trainings.isEmpty) .writing)
    let (rows, _) ← ofDatabase (t.insertTraining (TrainingRow.encode training))
    Act.changeTables fun t => { t with trainings := rows }
    Act.note .info "Added training" [("training_uuid", .text training.id)]

/-- The training of an identifier, read on behalf of a caller. -/
def training (id : String) (caller : Caller) : Act Failure Training := do
  let s ← Act.setting
  match ← Act.store with
  | .memory m =>
    match m.trainings.get? id with
    | none => Act.refuse (noTraining id)
    | some t =>
      if s.held.trainings.contains id then Act.refuse (held "training")
      Act.ofRule (caller.checkSees t)
      return t
  | .tables t =>
    ofDatabase (t.lease (!s.held.trainings.isEmpty) .reading)
    match t.trainings.get? id with
    | none => Act.refuse (noTraining id)
    | some row =>
      let t ← ofDatabase row.decode
      Act.ofRule (caller.checkSees t)
      return t

/-- Updates a training in memory. -/
def updateTrainingInMemory (id : String) (caller : Caller)
    (transition : Training → Act Failure Training) (m : Memory) : Act Failure Training := do
  let s ← Act.setting
  match m.trainings.get? id with
  | none => Act.refuse (noTraining id)
  | some t =>
    if s.held.trainings.contains id then Act.refuse (held "training")
    Act.ofRule (caller.checkSees t)
    let updated ← (transition t).holding (Held.withTraining id)
    Act.changeMemory (Memory.fileTraining id updated)
    return updated

/-- Updates a training in tables. -/
def updateTrainingInTables (id : String) (caller : Caller)
    (transition : Training → Act Failure Training) (t : Tables) : Act Failure Training := do
  let s ← Act.setting
  ofDatabase (t.lease (!s.held.trainings.isEmpty) .writing)
  match t.trainings.get? id with
  | none => Act.refuse (noTraining id)
  | some row =>
    let stored ← ofDatabase row.decode
    Act.ofRule (caller.checkSees stored)
    let updated ← (transition stored).holding (Held.withTraining id)
    let rows ← ofDatabase (t.saveTraining (TrainingRow.encode updated))
    Act.changeTables fun t => { t with trainings := rows }
    return updated

/-- Runs a transition on a training while it is held, and writes the outcome. -/
def updateTraining (id : String) (caller : Caller) (transition : Training → Act Failure Training) :
    Act Failure Training := do
  match ← Act.store with
  | .memory m => updateTrainingInMemory id caller transition m
  | .tables t => updateTrainingInTables id caller transition t

/-- All trainings, by time and identifier. -/
def allTrainings : Act Failure (List Training) := do
  let s ← Act.setting
  match ← Act.store with
  | .memory m => return m.listTrainings fun _ => true
  | .tables t =>
    ofDatabase (t.lease (!s.held.trainings.isEmpty) .reading)
    ofDatabase ((t.listTrainings fun _ => true).mapM TrainingRow.decode)

/-- The trainings of an owner that are not canceled, by time and identifier. -/
def trainingsOf (owner : String) : Act Failure (List Training) := do
  let s ← Act.setting
  match ← Act.store with
  | .memory m => return m.listTrainings fun t => decide (t.owner = owner) && !t.canceled
  | .tables t =>
    ofDatabase (t.lease (!s.held.trainings.isEmpty) .reading)
    ofDatabase ((t.listTrainings fun r => decide (r.owner = owner) && decide (r.canceled = 0)).mapM
      TrainingRow.decode)

end TrainerBooking.Repository
