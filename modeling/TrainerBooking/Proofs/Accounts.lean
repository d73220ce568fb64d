import TrainerBooking.Proofs.Hours
import TrainerBooking.Repository.Accounts

/-! # The accounts of the books

What the acts on accounts do to the books of a store of either kind.

* **Balances.** The books hold a balance as it is kept, which in tables may be more than a 64-bit
  number.  `Books.newBalance?` is the balance after a change, if the change is allowed: in memory
  the sum has to be a balance, in tables it only must not be negative.
* **Acts.** `Books.changeBalance` and `Books.recordIp` are the outcomes of the two updates. -/

namespace TrainerBooking

namespace Binary64

theorem nearest_pos {n : Nat} (h : 1 ≤ n) : 1 ≤ nearest n := by
  unfold nearest
  split
  · exact h
  · next hge =>
      have hunit : 0 < Nat.pow 2 (Nat.log2 n - 52) := Nat.pow_pos (by decide)
      have hle : Nat.pow 2 (Nat.log2 n - 52) ≤ n :=
        (Nat.pow_le_pow_right (by decide) (Nat.sub_le _ _)).trans (Nat.log2_self_le (by omega))
      have hlow : 1 ≤ n / Nat.pow 2 (Nat.log2 n - 52) := Nat.div_pos hle hunit
      dsimp only
      split
      · exact Nat.mul_pos (Nat.succ_pos _) hunit
      · exact Nat.mul_pos hlow hunit

end Binary64

namespace Column

theorem fits_iff {i : Int} :
    fits i = true ↔ -9223372036854775808 ≤ i ∧ i ≤ 9223372036854775807 := by
  rw [fits, Bool.and_eq_true, decide_eq_true_eq, decide_eq_true_eq]
  rfl

theorem rounded_nonneg {i : Int} (h : 0 ≤ i) : 0 ≤ rounded i := by
  rw [rounded, if_neg (Int.not_lt.mpr h)]
  exact Int.natCast_nonneg _

theorem sum_nonneg {i j : Int} (hi : 0 ≤ i) (hj : 0 ≤ j) : 0 ≤ sum i j := by
  unfold sum
  split
  · omega
  · have hi' := rounded_nonneg hi
    have hj' := rounded_nonneg hj
    exact rounded_nonneg (by omega)

/-- What is taken from a balance leaves a number of the column. -/
theorem sum_charge {i : Int} (hi : 0 ≤ i) (hle : i ≤ Account.greatestBalance) :
    sum i (-1) = i - 1 := by
  unfold Account.greatestBalance at hle
  have hbalance : fits i = true := fits_iff.mpr ⟨by omega, by omega⟩
  have hless : fits (i + -1) = true := fits_iff.mpr ⟨by omega, by omega⟩
  exact sum_of_fits hbalance (by decide) hless

theorem sum_charge_nonneg {i : Int} (h : 1 ≤ i) : 0 ≤ sum i (-1) := by
  unfold sum
  split
  · omega
  · refine rounded_nonneg ?_
    have hone : rounded (-1) = -1 := by decide
    have hpos := Binary64.nearest_pos (n := i.natAbs) (by omega)
    rw [hone, rounded, if_neg (by omega)]
    omega

theorem pos_of_read {i : Int} (h : 1 ≤ read i) : 1 ≤ i := by
  unfold read greatest least at h
  split at h
  · omega
  · split at h <;> omega

end Column

namespace AccountRow

theorem meaning?_encode (a : Account) : (encode a).meaning? = some a := by
  simp [meaning?, encode]

theorem decode_eq {r : AccountRow} {a : Account} (h : r.meaning? = some a) : r.decode = .ok a := by
  obtain ⟨role, hr, rfl⟩ := Option.map_eq_some_iff.mp h
  rw [decode, Row.decodeRole, Role.parse, hr]
  rfl

theorem meaning?_isSome {r : AccountRow} (h : r.isSound = true) : ∃ a, r.meaning? = some a := by
  rw [isSound, Bool.and_eq_true] at h
  obtain ⟨role, hr⟩ := Row.exists_of_isRole h.1
  exact ⟨_, by rw [meaning?, hr]; rfl⟩

theorem meaning?_balance {r : AccountRow} {a : Account} (h : r.meaning? = some a) (n : Int) :
    a.balance = r.balance ∧ { r with balance := n }.meaning? = some { a with balance := n } := by
  obtain ⟨role, hr, rfl⟩ := Option.map_eq_some_iff.mp h
  exact ⟨rfl, by rw [meaning?, hr]; rfl⟩

theorem isSound_balance {r : AccountRow} (h : r.isSound = true) {n : Int} (hn : 0 ≤ n) :
    { r with balance := n }.isSound = true := by
  rw [isSound, Bool.and_eq_true] at h ⊢
  exact ⟨h.1, decide_eq_true hn⟩

theorem meaning?_lastIp {r : AccountRow} {a : Account} (h : r.meaning? = some a) (ip : String) :
    { r with lastIp := some ip }.meaning? = some (a.seenFrom ip) := by
  obtain ⟨role, hr, rfl⟩ := Option.map_eq_some_iff.mp h
  rw [meaning?, hr]
  rfl

end AccountRow

/-! ### The outcomes -/

namespace Books

variable (b : Books)

/-- The balance of an account, as it is kept. -/
def balance? (id : String) : Option Int := (b.accounts id).map Account.balance

/-- The balance of an account after a change, as it is kept, if the change is allowed. -/
def newBalance? (a : Account) (amount : Int) : Option Int :=
  if b.inMemory then
    if 0 ≤ a.balance + amount ∧ a.balance + amount ≤ Account.greatestBalance then
      some (a.balance + amount)
    else none
  else if Column.sum a.balance amount < 0 then none
  else some (Column.sum a.balance amount)

/-- How the change of a balance ends, and the books then. -/
def changeBalance (id : String) (amount : Int) : Ending Failure Int × Books :=
  match b.accounts id with
  | none => (.refused (Repository.noAccount id), b)
  | some a =>
    match b.newBalance? a amount with
    | none => (.refused (.rule (.insufficientBalance id (b.shown a) amount)), b)
    | some n => (.done (b.shown { a with balance := n }), b.setAccount id { a with balance := n })

/-- How the record of an address ends, and the books then. -/
def recordIp (id ip : String) : Ending Failure Unit × Books :=
  match b.accounts id with
  | none => (.refused (Repository.noAccount id), b)
  | some a => (.done (), b.setAccount id (a.seenFrom ip))

variable {b}

theorem balance?_setAccount (b : Books) (id : String) (a : Account) :
    (b.setAccount id a).balance? = Function.update b.balance? id (some a.balance) := by
  funext other
  rw [balance?, setAccount_accounts, Function.update_apply]
  split <;> rfl

/-- A change of an account that leaves its balance leaves all of them. -/
theorem balance?_setAccount_same {id : String} {a a' : Account} (ha : b.accounts id = some a)
    (h : a'.balance = a.balance) : (b.setAccount id a').balance? = b.balance? := by
  have hold : b.balance? id = some a'.balance := by rw [balance?, ha, Option.map_some, h]
  rw [balance?_setAccount, ← hold, Function.update_eq_self]

/-- Only a sum beyond the greatest balance stops a credit. -/
theorem overflow_of_newBalance? {a : Account} {credit : Int} (ha : 0 ≤ a.balance)
    (hc : 0 ≤ credit) (h : b.newBalance? a credit = none) :
    Account.greatestBalance < a.balance + credit := by
  unfold newBalance? at h
  split at h
  · split at h
    · cases h
    · next hr => omega
  · split at h
    · next hneg =>
        have hsum := Column.sum_nonneg ha hc
        omega
    · cases h

theorem newBalance?_charge {a : Account} {n : Int} (ha : 0 ≤ a.balance)
    (hle : a.balance ≤ Account.greatestBalance) (hn : b.newBalance? a (-1) = some n) :
    n = a.balance - 1 := by
  unfold newBalance? at hn
  split at hn
  · split at hn
    · exact (Option.some.inj hn).symm
    · cases hn
  · rw [Column.sum_charge ha hle] at hn
    split at hn
    · cases hn
    · exact (Option.some.inj hn).symm

/-- An account with a credit can be charged. -/
theorem newBalance?_charge_isSome {a : Account} (hone : 1 ≤ b.shown a)
    (hle : b.shown a ≤ Account.greatestBalance) : b.newBalance? a (-1) ≠ none := by
  unfold newBalance?
  unfold shown at hone hle
  split
  · next hkind =>
      rw [if_pos hkind] at hone hle
      rw [if_pos (by omega)]
      exact nofun
  · next hkind =>
      rw [if_neg hkind] at hone
      have hsum := Column.sum_charge_nonneg (Column.pos_of_read hone)
      rw [if_neg (by omega)]
      exact nofun

end Books

/-! ### Statements on accounts -/

namespace Memory

variable {m : Memory}

theorem Sound.withAccount (hm : m.Sound) {id : String} {a : Account} (hid : a.id = id)
    (hn : 0 ≤ a.balance) : (m.fileAccount id a).Sound := by
  refine ⟨hm.training_id, ?_, ?_⟩
  · intro other a' ha'
    simp only [fileAccount, Registry.get?_put] at ha'
    split at ha'
    · next ho => rw [ho, ← Option.some.inj ha', hid]
    · exact hm.account_id ha'
  · intro id a' ha'
    simp only [fileAccount, Registry.get?_put] at ha'
    split at ha'
    · rw [← Option.some.inj ha']
      exact hn
    · exact hm.balance_nonneg ha'

theorem books_fileAccount (m : Memory) (id : String) (a : Account) :
    (m.fileAccount id a).books = m.books.setAccount id a := by
  simp only [books, fileAccount, Books.setAccount, Books.mk.injEq, true_and]
  refine ⟨rfl, funext fun other => ?_⟩
  rw [Registry.get?_put, Function.update_apply]

theorem books_newBalance? (m : Memory) (a : Account) (amount : Int) :
    m.books.newBalance? a amount =
      if 0 ≤ a.balance + amount ∧ a.balance + amount ≤ Account.greatestBalance then
        some (a.balance + amount)
      else none := if_pos rfl

theorem addAccount_taken {a a' : Account} (h : m.accounts.get? a.id = some a') :
    m.addAccount a = .error (.duplicate ("user '" ++ a.id ++ "' already exists")) := by
  rw [addAccount, Registry.contains, h]
  rfl

theorem addAccount_free {a : Account} (h : m.accounts.get? a.id = none) :
    m.addAccount a = .ok (m.fileAccount a.id a) := by
  rw [addAccount, Registry.contains, h]
  rfl

end Memory

namespace Tables

variable {t : Tables}

theorem Sound.withAccount (ht : t.Sound) {row : AccountRow} (hs : row.isSound = true) :
    { t with accounts := t.accounts.put row.id row }.Sound := by
  refine ⟨ht.traps, ht.mishaps, ht.hours, ht.training_id, ht.training_sound, ?_, ?_⟩
  · intro id r hr
    simp only [Registry.get?_put] at hr
    split at hr
    · next hid => rw [hid, ← Option.some.inj hr]
    · exact ht.account_id hr
  · intro id r hr
    simp only [Registry.get?_put] at hr
    split at hr
    · rw [← Option.some.inj hr]
      exact hs
    · exact ht.account_sound hr

theorem books_withAccount (t : Tables) {row : AccountRow} {a : Account}
    (hm : row.meaning? = some a) :
    { t with accounts := t.accounts.put row.id row }.books = t.books.setAccount row.id a := by
  simp only [books, Books.setAccount, Books.mk.injEq, true_and]
  funext other
  rw [Registry.get?_put, Function.update_apply]
  split
  · exact hm
  · rfl

theorem books_newBalance? (t : Tables) (a : Account) (amount : Int) :
    t.books.newBalance? a amount =
      if Column.sum a.balance amount < 0 then none else some (Column.sum a.balance amount) :=
  if_neg Bool.false_ne_true

theorem changeBalance_allowed (ht : t.traps = []) {id : String} {row : AccountRow} {amount : Int}
    (hg : t.accounts.get? id = some row) (hsum : ¬ Column.sum row.balance amount < 0) :
    t.changeBalance id amount =
      .ok (t.accounts.put id { row with balance := Column.sum row.balance amount }, true) := by
  simp only [changeBalance, hg, if_neg hsum, change_eq ht]
  rfl

theorem setLastIp_known (ht : t.traps = []) {id ip : String} {row : AccountRow}
    (hg : t.accounts.get? id = some row) :
    t.setLastIp id ip = .ok (t.accounts.put id { row with lastIp := some ip }, true) := by
  simp only [setLastIp, hg, change_eq ht]
  rfl

theorem insertAccount_taken (ht : t.traps = []) {row r : AccountRow} (hs : row.isSound = true)
    (h : t.accounts.get? row.id = some r) :
    t.insertAccount row =
      .error (.uniqueViolation "UNIQUE constraint failed: users.user_id") := by
  rw [AccountRow.isSound, Bool.and_eq_true] at hs
  rw [insertAccount, change_eq ht, hs.1, hs.2, Registry.contains, h]
  rfl

theorem insertAccount_free (ht : t.traps = []) {row : AccountRow} (hs : row.isSound = true)
    (h : t.accounts.get? row.id = none) :
    t.insertAccount row = .ok (t.accounts.put row.id row, true) := by
  rw [AccountRow.isSound, Bool.and_eq_true] at hs
  rw [insertAccount, change_eq ht, hs.1, hs.2, Registry.contains, h]
  rfl

end Tables

/-- Nobody is in debt. -/
theorem Store.Sound.balance_nonneg {st : Store} (hs : st.Sound) {id : String} {a : Account}
    (ha : st.books.accounts id = some a) : 0 ≤ a.balance := by
  cases st with
  | memory m => exact Memory.Sound.balance_nonneg hs ha
  | tables t =>
      obtain ⟨r, hr, hm⟩ := Option.bind_eq_some_iff.mp ha
      have hsound := Tables.Sound.account_sound hs hr
      rw [AccountRow.isSound, Bool.and_eq_true] at hsound
      rw [(AccountRow.meaning?_balance hm 0).1]
      exact of_decide_eq_true hsound.2

/-! ### Acts on accounts -/

namespace Act.Meets

variable {s : Setting} {b : Books}

/-- A new account is filed under its identifier, unless that is taken. -/
theorem addAccount {a : Account} (hn : 0 ≤ a.balance) {Q : Ending Failure Unit → Books → Prop}
    (htaken : ∀ detail, (b.accounts a.id).isSome → Q (.refused (.storage (.duplicate detail))) b)
    (hfree : b.accounts a.id = none → Q (.done ()) (b.setAccount a.id a)) :
    (Repository.addAccount a).Meets s b Q := by
  intro w hw hb
  subst hb
  cases hst : w.store with
  | memory m =>
      rw [hst] at hw htaken hfree
      simp only [Store.books, Memory.books_accounts] at htaken hfree
      cases hg : m.accounts.get? a.id with
      | some a' =>
          rw [hg] at htaken
          simpa [Repository.addAccount, bind_run, hst, Memory.addAccount_taken hg, mapCause_run,
            Act.ofExcept, Ending.ofExcept, Ending.mapCause] using ⟨hw, htaken _ rfl⟩
      | none =>
          have hsound := Memory.Sound.withAccount hw rfl hn
          have hq := hfree hg
          rw [← Memory.books_fileAccount] at hq
          simpa [Repository.addAccount, bind_run, hst, Memory.addAccount_free hg, mapCause_run,
            Act.ofExcept, Ending.ofExcept, Ending.mapCause, setStore] using ⟨hsound, hq⟩
  | tables t =>
      rw [hst] at hw htaken hfree
      simp only [Store.books, Tables.books_accounts] at htaken hfree
      have htraps := Tables.Sound.traps hw
      have hrow : (AccountRow.encode a).isSound = true := by
        simp [AccountRow.isSound, AccountRow.hasKnownRole, AccountRow.hasSoundBalance,
          AccountRow.encode, hn]
      have hid : (AccountRow.encode a).id = a.id := rfl
      cases hg : t.accounts.get? a.id with
      | some r =>
          obtain ⟨a', ha'⟩ := AccountRow.meaning?_isSome (Tables.Sound.account_sound hw hg)
          rw [hg, Option.bind_some, ha'] at htaken
          simpa [Repository.addAccount, bind_run, hst, Tables.insertAccount_taken htraps hrow hg]
            using ⟨hw, htaken _ rfl⟩
      | none =>
          rw [hg] at hfree
          have hsound := Tables.Sound.withAccount hw hrow
          have hbooks := t.books_withAccount (AccountRow.meaning?_encode a)
          have hq := hfree rfl
          rw [hid] at hsound hbooks
          rw [← hbooks] at hq
          simpa [Repository.addAccount, bind_run, hst, Tables.insertAccount_free htraps hrow hg,
            changeTables, Act.note, hid] using ⟨hsound, hq⟩

/-- Reading an account shows its balance as a 64-bit number. -/
theorem account {id : String} {Q : Ending Failure Account → Books → Prop}
    (hnone : b.accounts id = none → Q (.refused (Repository.noAccount id)) b)
    (hsome : ∀ a, b.accounts id = some a → Q (.done { a with balance := b.shown a }) b) :
    (Repository.account id).Meets s b Q := by
  intro w hw hb
  subst hb
  cases hst : w.store with
  | memory m =>
      rw [hst] at hw hnone hsome
      simp only [Store.books, Memory.books_accounts] at hnone hsome
      cases hg : m.accounts.get? id with
      | none => simpa [Repository.account, bind_run, hst, hg] using ⟨hw, hnone hg⟩
      | some a =>
          have hq := hsome a hg
          rw [Memory.books_shown] at hq
          simpa [Repository.account, bind_run, hst, hg] using ⟨hw, hq⟩
  | tables t =>
      rw [hst] at hw hnone hsome
      simp only [Store.books, Tables.books_accounts] at hnone hsome
      cases hg : t.accounts.get? id with
      | none =>
          rw [hg] at hnone
          simpa [Repository.account, bind_run, hst, Tables.account?, hg] using ⟨hw, hnone rfl⟩
      | some row =>
          obtain ⟨a, hm⟩ := AccountRow.meaning?_isSome (Tables.Sound.account_sound hw hg)
          obtain ⟨hbal, hread⟩ := AccountRow.meaning?_balance hm (Column.read row.balance)
          rw [hg, Option.bind_some, hm] at hsome
          have hq := hsome a rfl
          rw [Tables.books_shown, hbal] at hq
          simpa [Repository.account, bind_run, hst, Tables.account?, hg, AccountRow.decode_eq hread]
            using ⟨hw, hq⟩

/-- The change of a balance does what the books say. -/
theorem changeBalance {id : String} {amount : Int} {Q : Ending Failure Int → Books → Prop}
    (hQ : Q (b.changeBalance id amount).1 (b.changeBalance id amount).2) :
    (Repository.changeBalance id amount).Meets s b Q := by
  intro w hw hb
  subst hb
  cases hst : w.store with
  | memory m =>
      rw [hst] at hw hQ
      simp only [Books.changeBalance, Store.books, Memory.books_accounts] at hQ
      cases hg : m.accounts.get? id with
      | none =>
          simp only [hg] at hQ
          simpa [Repository.changeBalance, bind_run, hst, hg] using ⟨hw, hQ⟩
      | some a =>
          obtain rfl : a.id = id := Memory.Sound.account_id hw hg
          simp only [hg] at hQ
          by_cases hr : 0 ≤ a.balance + amount ∧ a.balance + amount ≤ Account.greatestBalance
          · have hnew : m.books.newBalance? a amount = some (a.balance + amount) := by
              rw [Memory.books_newBalance?, if_pos hr]
            have hchange : a.change amount = .ok { a with balance := a.balance + amount } := by
              rw [Account.change, if_pos hr]
            have hsound : (m.fileAccount a.id { a with balance := a.balance + amount }).Sound :=
              Memory.Sound.withAccount hw rfl hr.1
            simp only [hnew] at hQ
            rw [← Memory.books_fileAccount, Memory.books_shown] at hQ
            simpa [Repository.changeBalance, bind_run, hst, hg, Act.ofRule, mapCause_run, hchange,
              Act.ofExcept, Ending.ofExcept, Ending.mapCause, setStore] using ⟨hsound, hQ⟩
          · have hnew : m.books.newBalance? a amount = none := by
              rw [Memory.books_newBalance?, if_neg hr]
            have hchange : a.change amount =
                .error (.insufficientBalance a.id a.balance amount) := by
              rw [Account.change, if_neg hr]
            simp only [hnew] at hQ
            rw [Memory.books_shown] at hQ
            simpa [Repository.changeBalance, bind_run, hst, hg, Act.ofRule, mapCause_run, hchange,
              Act.ofExcept, Ending.ofExcept, Ending.mapCause] using ⟨hw, hQ⟩
  | tables t =>
      rw [hst] at hw hQ
      simp only [Books.changeBalance, Store.books, Tables.books_accounts] at hQ
      cases hg : t.accounts.get? id with
      | none =>
          simp only [hg, Option.bind_none] at hQ
          simpa [Repository.changeBalance, bind_run, hst, Tables.changeBalance, Tables.account?, hg,
            changeTables] using ⟨hw, hQ⟩
      | some row =>
          obtain rfl : row.id = id := Tables.Sound.account_id hw hg
          obtain ⟨a, hm⟩ := AccountRow.meaning?_isSome (Tables.Sound.account_sound hw hg)
          have hbal : a.balance = row.balance := (AccountRow.meaning?_balance hm 0).1
          simp only [hg, Option.bind_some, hm] at hQ
          by_cases hr : Column.sum row.balance amount < 0
          · have hnew : t.books.newBalance? a amount = none := by
              rw [Tables.books_newBalance?, hbal, if_pos hr]
            simp only [hnew] at hQ
            rw [Tables.books_shown, hbal] at hQ
            simpa [Repository.changeBalance, bind_run, hst, Tables.changeBalance, Tables.account?,
              hg, hr, changeTables] using ⟨hw, hQ⟩
          · have hnew : t.books.newBalance? a amount = some (Column.sum row.balance amount) := by
              rw [Tables.books_newBalance?, hbal, if_neg hr]
            have hm' := (AccountRow.meaning?_balance hm (Column.sum row.balance amount)).2
            have hchange := Tables.changeBalance_allowed hw.traps hg hr
            have hsound := AccountRow.isSound_balance (Tables.Sound.account_sound hw hg)
              (Int.not_lt.mp hr)
            have hs' := Tables.Sound.withAccount hw hsound
            have hb' := t.books_withAccount hm'
            simp only [hnew] at hQ
            rw [← hb', Tables.books_shown] at hQ
            simpa [Repository.changeBalance, bind_run, hst, hchange, Tables.account?, changeTables]
              using ⟨hs', hQ⟩

/-- The record of an address does what the books say. -/
theorem recordIp {id ip : String} {Q : Ending Failure Unit → Books → Prop}
    (hQ : Q (b.recordIp id ip).1 (b.recordIp id ip).2) :
    (Repository.recordIp id ip).Meets s b Q := by
  intro w hw hb
  subst hb
  cases hst : w.store with
  | memory m =>
      rw [hst] at hw hQ
      simp only [Books.recordIp, Store.books, Memory.books_accounts] at hQ
      cases hg : m.accounts.get? id with
      | none =>
          simp only [hg] at hQ
          simpa [Repository.recordIp, bind_run, hst, hg] using ⟨hw, hQ⟩
      | some a =>
          obtain rfl : a.id = id := Memory.Sound.account_id hw hg
          have hn : 0 ≤ a.balance := Memory.Sound.balance_nonneg hw hg
          have hsound : (m.fileAccount a.id (a.seenFrom ip)).Sound :=
            Memory.Sound.withAccount hw rfl hn
          simp only [hg] at hQ
          rw [← Memory.books_fileAccount] at hQ
          simpa [Repository.recordIp, bind_run, hst, hg, setStore] using ⟨hsound, hQ⟩
  | tables t =>
      rw [hst] at hw hQ
      simp only [Books.recordIp, Store.books, Tables.books_accounts] at hQ
      cases hg : t.accounts.get? id with
      | none =>
          simp only [hg, Option.bind_none] at hQ
          simpa [Repository.recordIp, bind_run, hst, Tables.setLastIp, hg, changeTables]
            using ⟨hw, hQ⟩
      | some row =>
          obtain rfl : row.id = id := Tables.Sound.account_id hw hg
          obtain ⟨a, hm⟩ := AccountRow.meaning?_isSome (Tables.Sound.account_sound hw hg)
          have hr : row.isSound = true := Tables.Sound.account_sound hw hg
          have hs : ({ row with lastIp := some ip } : AccountRow).isSound = true := hr
          have hwrite : t.setLastIp row.id ip = _ := Tables.setLastIp_known hw.traps hg
          have hs' := Tables.Sound.withAccount hw hs
          have hb' := t.books_withAccount (AccountRow.meaning?_lastIp hm ip)
          simp only [hg, Option.bind_some, hm] at hQ
          rw [← hb'] at hQ
          simpa [Repository.recordIp, bind_run, hst, hwrite, changeTables] using ⟨hs', hQ⟩

end Act.Meets

end TrainerBooking
