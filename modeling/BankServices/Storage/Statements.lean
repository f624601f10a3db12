/-
The SQL statements of the two endpoints, as H2 executes them on the tables.

A statement converts its values to the column types, tests the constraints and writes row versions, or fails with a
`DataAccessException` and writes nothing. `h2` packs the statements with their row locks: a SELECT ... FOR UPDATE, an
UPDATE and a DELETE lock the row they name when it exists; the foreign key tests of a payment insert read the two
account rows, the foreign key test of a delete reads the payments that refer to the row. Generated ids come from
sequences that never repeat a value, so the primary keys are not tested.
-/
import BankServices.Core.RowLock
import BankServices.Storage.Schema

namespace BankServices.Storage

open BankServices.Java BankServices.Txn

/-- the failures of a statement that jOOQ reports -/
inductive DataAccessException where
  | lockTimeout
  | valueTooLong (column : String)
  | nullNotAllowed (column : String)
  | checkViolated (constraint : String)
  | referentialIntegrity (constraint : String)
deriving DecidableEq, Repr

/-- the generated pojo of table PAYMENT, its id still to be generated -/
structure Payment where
  processed : LocalDateTime
  amount : BigDecimal
  withdrawalAccountId : ℤ
  depositAccountId : ℤ
  comment : Option JavaString

/-- the generated pojo of table ACCOUNT -/
structure Account where
  accountId : Option ℤ
  created : LocalDateTime
  ownerName : Option JavaString
  balance : BigDecimal
  balanceLastModified : LocalDateTime
  comment : Option JavaString

inductive Statement where
  /-- SELECT BALANCE, BALANCE_LAST_MODIFIED FROM ACCOUNT WHERE ACCOUNT_ID = ? FOR UPDATE -/
  | selectForUpdate (accountId : ℤ)
  | insertPayment (paymentId : ℤ) (values : Payment)
  /-- UPDATE ACCOUNT SET BALANCE = ?, BALANCE_LAST_MODIFIED = ? WHERE ACCOUNT_ID = ? -/
  | updateBalance (accountId : ℤ) (balance : BigDecimal) (balanceLastModified : LocalDateTime)
  | insertAccount (accountId : ℤ) (values : Account)
  /-- UPDATE ACCOUNT SET OWNER_NAME = ?, COMMENT = ? WHERE ACCOUNT_ID = ? -/
  | updateProfile (accountId : ℤ) (ownerName comment : Option JavaString)
  /-- DELETE FROM ACCOUNT WHERE ACCOUNT_ID = ? -/
  | deleteAccount (accountId : ℤ)

/-- a select answers with the record found, every other statement with the number of rows -/
abbrev Answer : Statement → Type
  | .selectForUpdate _ => Except DataAccessException (Option (BigDecimal × LocalDateTime))
  | _ => Except DataAccessException ℕ

inductive Write where
  | addAccount (r : AccountRow)
  | putAccount (r : AccountRow)
  | dropAccount (accountId : ℤ)
  | addPayment (r : PaymentRow)
deriving DecidableEq

def applyWrite (db : Tables) : Write → Tables
  | .addAccount r => { db with account := db.account ++ [r] }
  | .putAccount r => { db with account := KeyedList.replace AccountRow.accountId db.account r }
  | .dropAccount accountId => { db with account := KeyedList.remove AccountRow.accountId db.account accountId }
  | .addPayment r => { db with payment := db.payment ++ [r] }

/-! ## Column conversions -/

def toDecimal (column : String) (b : BigDecimal) : Except DataAccessException Decimal16_2 :=
  match Decimal16_2.ofBigDecimal? b with
  | some v => .ok v
  | none => .error (.valueTooLong column)

def toVarchar (column : String) (n : ℕ) (s : JavaString) : Except DataAccessException (Varchar n) :=
  if h : s.length ≤ n then .ok ⟨s, h⟩ else .error (.valueTooLong column)

def toNullable (column : String) (n : ℕ) : Option JavaString → Except DataAccessException (Option (Varchar n))
  | none => .ok none
  | some s => (toVarchar column n s).map some

def toNotNull (column : String) (n : ℕ) : Option JavaString → Except DataAccessException (Varchar n)
  | none => .error (.nullNotAllowed column)
  | some s => toVarchar column n s

def checkThat (constraint : String) (p : Prop) [Decidable p] : Except DataAccessException Unit :=
  if p then .ok () else .error (.checkViolated constraint)

def referenceTo (constraint : String) (db : Tables) (accountId : ℤ) : Except DataAccessException Unit :=
  if (db.findAccount accountId).isSome then .ok () else .error (.referentialIntegrity constraint)

/-! ## Rows written -/

/-- the row that an insert into PAYMENT stores -/
def paymentRow (db : Tables) (paymentId : ℤ) (p : Payment) : Except DataAccessException PaymentRow := do
  let amount ← toDecimal "AMOUNT" p.amount
  let comment ← toNullable "COMMENT" 256 p.comment
  checkThat "PAYMENT__POSITIVE_AMOUNT" (0 < amount.cents)
  referenceTo "PAYMENT__WITHDRAWAL_ACCOUNT__FK" db p.withdrawalAccountId
  referenceTo "PAYMENT__DEPOSIT_ACCOUNT__FK" db p.depositAccountId
  return ⟨paymentId, .ofLocalDateTime p.processed, amount, p.withdrawalAccountId, p.depositAccountId, comment⟩

/-- the row that an insert into ACCOUNT stores -/
def accountRow (accountId : ℤ) (a : Account) : Except DataAccessException AccountRow := do
  let ownerName ← toNotNull "OWNER_NAME" 128 a.ownerName
  let balance ← toDecimal "BALANCE" a.balance
  let comment ← toNullable "COMMENT" 256 a.comment
  checkThat "ACCOUNT__NOT_NEGATIVE_BALANCE" (0 ≤ balance.cents)
  return ⟨accountId, .ofLocalDateTime a.created, ownerName, balance, .ofLocalDateTime a.balanceLastModified, comment⟩

/-- the row version that a balance update stores over row `r` -/
def balanceRow (r : AccountRow) (balance : BigDecimal) (balanceLastModified : LocalDateTime) :
    Except DataAccessException AccountRow := do
  let balance ← toDecimal "BALANCE" balance
  checkThat "ACCOUNT__NOT_NEGATIVE_BALANCE" (0 ≤ balance.cents)
  return { r with balance, balanceLastModified := .ofLocalDateTime balanceLastModified }

/-- the row version that a profile update stores over row `r` -/
def profileRow (r : AccountRow) (ownerName comment : Option JavaString) : Except DataAccessException AccountRow := do
  let ownerName ← toNotNull "OWNER_NAME" 128 ownerName
  let comment ← toNullable "COMMENT" 256 comment
  return { r with ownerName, comment }

/-! ## Execution -/

/-- one row written, or the failure -/
def wrote : Except DataAccessException Write → Except DataAccessException ℕ × List Write
  | .ok w => (.ok 1, [w])
  | .error e => (.error e, [])

/-- an UPDATE or DELETE by primary key: no row, or the write for the row found -/
def onRow (db : Tables) (accountId : ℤ) (f : AccountRow → Except DataAccessException Write) :
    Except DataAccessException ℕ × List Write :=
  match db.findAccount accountId with
  | none => (.ok 0, [])
  | some r => wrote (f r)

/-- the foreign key tests of a delete from ACCOUNT, given the payments that refer to the row -/
def dropRow (accountId : ℤ) : List PaymentRow → Except DataAccessException Write
  | [] => .ok (.dropAccount accountId)
  | p :: _ => .error (.referentialIntegrity
      (if p.withdrawalAccountId = accountId then "PAYMENT__WITHDRAWAL_ACCOUNT__FK" else "PAYMENT__DEPOSIT_ACCOUNT__FK"))

def exec : (c : Statement) → Tables → Answer c × List Write
  | .selectForUpdate accountId, db =>
    (.ok ((db.findAccount accountId).map fun r => (r.balance.toBigDecimal, r.balanceLastModified.1)), [])
  | .insertPayment paymentId values, db => wrote ((paymentRow db paymentId values).map .addPayment)
  | .updateBalance accountId balance modified, db =>
    onRow db accountId fun r => (balanceRow r balance modified).map .putAccount
  | .insertAccount accountId values, _ => wrote ((accountRow accountId values).map .addAccount)
  | .updateProfile accountId ownerName comment, db =>
    onRow db accountId fun r => (profileRow r ownerName comment).map .putAccount
  | .deleteAccount accountId, db => onRow db accountId fun _ => dropRow accountId (db.paymentsOf accountId)

/-- a statement that waited for a row lock past the lock timeout -/
def lockTimeout : (c : Statement) → Answer c
  | .selectForUpdate _ => Except.error DataAccessException.lockTimeout
  | .insertPayment _ _ | .updateBalance _ _ _ | .insertAccount _ _ | .updateProfile _ _ _ | .deleteAccount _ =>
    Except.error DataAccessException.lockTimeout

def lockKey : Statement → Option ℤ
  | .selectForUpdate accountId | .updateBalance accountId _ _ | .updateProfile accountId _ _
  | .deleteAccount accountId => some accountId
  | .insertPayment _ _ | .insertAccount _ _ => none

def reads : Statement → List ℤ
  | .selectForUpdate accountId | .updateBalance accountId _ _ | .updateProfile accountId _ _
  | .deleteAccount accountId => [accountId]
  | .insertPayment _ values => [values.withdrawalAccountId, values.depositAccountId]
  | .insertAccount _ _ => []

def readOnly : Statement → Bool
  | .selectForUpdate _ => true
  | _ => false

/-- what the tables show about an account id: its row and the payments that refer to it -/
def look (db : Tables) (accountId : ℤ) : Option AccountRow × List PaymentRow :=
  (db.findAccount accountId, db.paymentsOf accountId)

def touch : Write → List ℤ
  | .addAccount _ => []
  | .putAccount r => [r.accountId]
  | .dropAccount accountId => [accountId]
  | .addPayment p => [p.withdrawalAccountId, p.depositAccountId]

end BankServices.Storage
