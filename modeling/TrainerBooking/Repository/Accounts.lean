import TrainerBooking.Repository.Hours

/-! # The accounts of the store

Acts on the accounts of a store of either kind.  Each of them is a single step, so a change of a
balance never mixes with another one. -/

namespace TrainerBooking.Repository

/-- The failure that there is no such account. -/
def noAccount (id : String) : Failure := .missing "user" id

/-- Stores a new account. -/
def addAccount (account : Account) : Act Failure Unit := do
  match ← Act.store with
  | .memory m =>
    let m ← (Act.ofExcept (m.addAccount account)).mapCause Failure.storage
    Act.setStore (.memory m)
  | .tables t =>
    let (rows, _) ← ofDatabase (t.insertAccount (AccountRow.encode account))
    Act.changeTables fun t => { t with accounts := rows }
    Act.note .info "Added user"
      [("user_uuid", .text account.id), ("user_type", .text account.role.label)]

/-- The account of an identifier. -/
def account (id : String) : Act Failure Account := do
  match ← Act.store with
  | .memory m =>
    match m.accounts.get? id with
    | none => Act.refuse (noAccount id)
    | some a => return a
  | .tables t =>
    match t.account? id with
    | none => Act.refuse (noAccount id)
    | some row => ofDatabase row.decode

/-- Adds an amount to a balance and returns the new balance. -/
def changeBalance (id : String) (amount : Int) : Act Failure Int := do
  match ← Act.store with
  | .memory m =>
    match m.accounts.get? id with
    | none => Act.refuse (noAccount id)
    | some a =>
      let changed ← Act.ofRule (a.change amount)
      Act.setStore (.memory (m.fileAccount id changed))
      return changed.balance
  | .tables t =>
    let (rows, changed) ← ofDatabase (t.changeBalance id amount)
    Act.changeTables fun t => { t with accounts := rows }
    match { t with accounts := rows }.account? id with
    | none => Act.refuse (noAccount id)
    | some row =>
      if changed then return row.balance
      else Act.refuse (.rule (.insufficientBalance id row.balance amount))

/-- Writes the address of the latest request. -/
def recordIp (id ip : String) : Act Failure Unit := do
  match ← Act.store with
  | .memory m =>
    match m.accounts.get? id with
    | none => Act.refuse (noAccount id)
    | some a => Act.setStore (.memory (m.fileAccount id (a.seenFrom ip)))
  | .tables t =>
    let (rows, written) ← ofDatabase (t.setLastIp id ip)
    Act.changeTables fun t => { t with accounts := rows }
    if !written then Act.refuse (noAccount id)

end TrainerBooking.Repository
