import TrainerBooking.Desk.Watched
import TrainerBooking.Repository.Accounts

/-! # The accounts desk

The operations on accounts: they are created, charged and credited, and shown to their owners. -/

namespace TrainerBooking.Desk

/-- Creates an account. -/
def createUser (id : String) (role : Role) (name : String) (balance : Int) : Act Failure Unit :=
  watched .createUser do
    let account ← (Act.ofRule (Account.new id role name balance)).within
      "invalid-user-data" "invalid user data"
    (Repository.addAccount account).within "create-user-failed" "unable to create user"

/-- Adds an amount to the balance of an account. -/
def changeBalance (id : String) (amount : Int) : Act Failure Unit :=
  watched .changeBalance do
    let _ ← (Repository.changeBalance id amount).within
      "update-balance-failed" "unable to change trainings balance"
    return ()

/-- Writes the address from which the owner of an account calls. -/
def recordIp (id ip : String) : Act Failure Unit :=
  watched .recordIp <|
    (Repository.recordIp id ip).within "update-last-ip-failed" "unable to update last IP"

/-- The account of an identifier. -/
def currentUser (id : String) : Act Failure Account :=
  watched .currentUser <| Repository.account id

end TrainerBooking.Desk
