/-
`PaymentEndpoint`: the creation of a payment, and the list of an account's payments.

`create` checks the request, then locks both account rows (the smaller id first), tests the funds, inserts the payment
and writes both balances. What it does when it runs is in `PaymentRun`, its locks in `PaymentLocks`.

`list` compares the ends of its interval with PROCESSED as they are given: like the columns, it is taken to be bound
without a change (see `Storage.Schema`).
-/
import BankServices.Storage.H2
import BankServices.Webapp.Validation

namespace BankServices.Api

open BankServices.Java BankServices.Txn BankServices.Storage BankServices.Webapp

/-- application code inside a transaction of the service -/
abbrev Tx := Prog Statement Answer Sequence Throwable

/-- the number of rows a statement reports, a failed statement thrown on -/
def updatedRows : Except DataAccessException ℕ → Tx ℕ
  | .ok rows => .done rows
  | .error e => .fail (.dataAccessException e)

/-- payment input REST entity -/
structure NewPayment where
  amount : Option BigDecimal
  withdrawalAccountId : Option ℤ
  depositAccountId : Option ℤ
  comment : Option JavaString

namespace PaymentEndpoint

open ValidationUtils JooqAwareValidationUtils

/-! ## Creation -/

/-- the checks that `create` makes before it opens the transaction -/
def validated (now : LocalDateTime) (newPayment : NewPayment) : Except Throwable Payment := do
  let amount ← checkedPositive PAYMENT.AMOUNT newPayment.amount
  let withdrawalAccountId ← checkedNotNull PAYMENT.WITHDRAWAL_ACCOUNT_ID newPayment.withdrawalAccountId
  let depositAccountId ← checkedNotNull PAYMENT.DEPOSIT_ACCOUNT_ID newPayment.depositAccountId
  let comment ← checked PAYMENT.COMMENT newPayment.comment
  if withdrawalAccountId = depositAccountId then
    throw (JooqAwareValidationUtils.exception [.field PAYMENT.WITHDRAWAL_ACCOUNT_ID, .text " and ",
      .field PAYMENT.DEPOSIT_ACCOUNT_ID, .text " must reference to different accounts"])
  return ⟨now, amount, withdrawalAccountId, depositAccountId, comment⟩

def getBalanceExclusively (accountId : ℤ) (accountSide : String) : Tx BigDecimal :=
  .send (.selectForUpdate accountId) fun x =>
    match (x : Except DataAccessException (Option (BigDecimal × LocalDateTime))) with
    | .ok (some (balance, _)) => .done balance
    | .ok none => .fail (exception (accountSide ++ " account not exists by accountId=" ++ toString accountId))
    | .error _ => .fail (exceptionOf .CONFLICT (accountSide ++ " account with accountId=" ++ toString accountId ++
        " is temporary locked due to another payment or other operation"))

def getWithdrawalBalanceExclusively (accountId : ℤ) : Tx BigDecimal := getBalanceExclusively accountId "Withdrawal"

def getDepositBalanceExclusively (accountId : ℤ) : Tx BigDecimal := getBalanceExclusively accountId "Deposit"

def insertPaymentCheckUpdatedRows (rows : ℕ) : Tx Unit :=
  if rows ≠ 1 then .fail (.illegalStateException "Can't create payment record") else .done ()

def insertPayment (values : Payment) : Tx ℤ := do
  let paymentId ← Prog.draw Sequence.payment .done
  let rows ← Prog.send (.insertPayment paymentId values) updatedRows
  insertPaymentCheckUpdatedRows rows
  return paymentId

def updateAccountCheckUpdatedRows (rows : ℕ) (accountSide : String) : Tx Unit :=
  if rows ≠ 1 then .fail (.illegalStateException ("Can't update balance of " ++ accountSide ++ " account"))
  else .done ()

def updateAccount (accountId : ℤ) (balance : BigDecimal) (processingDatetime : LocalDateTime) (accountSide : String) :
    Tx Unit := do
  let rows ← Prog.send (.updateBalance accountId balance processingDatetime) updatedRows
  updateAccountCheckUpdatedRows rows accountSide

/-- both balances, withdrawal first; the rows are locked in the order of their ids -/
def getBalancesExclusively (payment : Payment) : Tx (BigDecimal × BigDecimal) :=
  if payment.withdrawalAccountId < payment.depositAccountId then do
    let withdrawalBalance ← getWithdrawalBalanceExclusively payment.withdrawalAccountId
    let depositBalance ← getDepositBalanceExclusively payment.depositAccountId
    return (withdrawalBalance, depositBalance)
  else do
    -- reorder to avoid a deadlock
    let depositBalance ← getDepositBalanceExclusively payment.depositAccountId
    let withdrawalBalance ← getWithdrawalBalanceExclusively payment.withdrawalAccountId
    return (withdrawalBalance, depositBalance)

/-- what follows once both rows are locked -/
def transfer (payment : Payment) (withdrawalBalance depositBalance : BigDecimal) : Tx Response := do
  if withdrawalBalance.compareTo payment.amount < 0 then
    Prog.fail (exception "Insufficient withdrawal balance")
  else do
    let paymentId ← insertPayment payment
    updateAccount payment.withdrawalAccountId (withdrawalBalance.subtract payment.amount) payment.processed "withdraw"
    updateAccount payment.depositAccountId (depositBalance.add payment.amount) payment.processed "deposit"
    return ⟨.OK, some .TEXT_PLAIN, some (.text (toString paymentId))⟩

def create (now : LocalDateTime) (newPayment : NewPayment) : Tx Response := do
  let payment ← Prog.ofExcept (validated now newPayment)
  let (withdrawalBalance, depositBalance) ← getBalancesExclusively payment
  transfer payment withdrawalBalance depositBalance

/-! ## List -/

/-- the payments of an account in an interval, both ends included and compared as they are given. The query sorts by
PROCESSED only; equal values are listed in the order of the table. -/
def list (db : Tables) (accountId : Option ℤ) (intervalFrom intervalTo : Option LocalDateTime) :
    Except Throwable (List PaymentRow) :=
  match accountId with
  | none => .error (exception "'accountId' is undefined")
  | some accountId =>
    match intervalFrom, intervalTo with
    | some intervalFrom, some intervalTo =>
      if intervalTo < intervalFrom then .error (exception "'from' must not be after 'to'")
      else
        let found := db.payment.filter fun p =>
          intervalFrom ≤ p.processed.1 ∧ p.processed.1 ≤ intervalTo ∧ p.refers accountId
        .ok (found.insertionSort fun p q => p.processed ≤ q.processed)
    | _, _ => .error .nullPointerException

end PaymentEndpoint

end BankServices.Api
