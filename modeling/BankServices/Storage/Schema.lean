/-
The two tables of `V1__create_schema.sql`, their column types and the migrated contents.

A column type is a subtype that holds exactly the values the column can hold: DECIMAL(16, 2) as a number of cents of at
most 16 digits, TIMESTAMP(3) as a date-time of whole milliseconds, VARCHAR(n) as at most n UTF-16 code units. The CHECK
and foreign key constraints are not part of the types: the statements test them.

A date-time bound to a statement is taken to reach the column, or the comparison with it, unchanged, so that rounding to
milliseconds is all that happens to it. Below the statement jOOQ passes it as a `java.sql.Timestamp` under a cast: that
conversion, which depends on the time zone of the JVM and the precision and range of the database's casts, is not
modelled.
-/
import BankServices.Core.KeyedList
import BankServices.Java.BigDecimal
import BankServices.Java.LocalDateTime

namespace BankServices.Storage

open BankServices.Java

/-! ## Column types -/

/-- a `java.lang.String`: its UTF-16 code units -/
abbrev JavaString := List UInt16

def ofChars (l : List Char) : JavaString := l.map fun c => UInt16.ofNat c.toNat

/-- a value of a DECIMAL(16, 2) column -/
structure Decimal16_2 where
  cents : ℤ
  fits : cents.natAbs < 10 ^ 16
deriving DecidableEq, Repr

namespace Decimal16_2

/-- rounded HALF_UP to two decimals, when the result has at most 16 digits -/
def ofBigDecimal? (b : BigDecimal) : Option Decimal16_2 :=
  if h : (b.setScaleHalfUp 2).unscaled.natAbs < 10 ^ 16 then some ⟨_, h⟩ else none

def toBigDecimal (v : Decimal16_2) : BigDecimal := ⟨v.cents, 2⟩

theorem cents_injective : Function.Injective cents := by
  rintro ⟨a, _⟩ ⟨b, _⟩ rfl
  rfl

end Decimal16_2

/-- a value of a TIMESTAMP(3) column -/
abbrev Timestamp3 := { t : LocalDateTime // t.WholeMillis }

/-- what the column keeps of a date-time that reaches it unchanged -/
def Timestamp3.ofLocalDateTime (t : LocalDateTime) : Timestamp3 := ⟨t.roundMillis, t.roundMillis_whole⟩

/-- a value of a VARCHAR(n) column -/
abbrev Varchar (n : ℕ) := { s : JavaString // s.length ≤ n }

/-! ## Tables -/

structure AccountRow where
  accountId : ℤ
  created : Timestamp3
  ownerName : Varchar 128
  balance : Decimal16_2
  balanceLastModified : Timestamp3
  comment : Option (Varchar 256)
deriving DecidableEq

structure PaymentRow where
  paymentId : ℤ
  processed : Timestamp3
  amount : Decimal16_2
  withdrawalAccountId : ℤ
  depositAccountId : ℤ
  comment : Option (Varchar 256)
deriving DecidableEq

structure Tables where
  account : List AccountRow
  payment : List PaymentRow
deriving DecidableEq

/-- the sequences behind the two AUTO_INCREMENT columns -/
inductive Sequence where
  | account
  | payment
deriving DecidableEq, Repr

namespace PaymentRow

/-- the payment withdraws from the account or deposits to it -/
def refers (p : PaymentRow) (accountId : ℤ) : Bool := p.withdrawalAccountId = accountId ∨ p.depositAccountId = accountId

end PaymentRow

namespace Tables

def findAccount (db : Tables) (accountId : ℤ) : Option AccountRow :=
  KeyedList.lookup AccountRow.accountId db.account accountId

/-- the payments that a foreign key binds to the account, in the order they were stored -/
def paymentsOf (db : Tables) (accountId : ℤ) : List PaymentRow := db.payment.filter fun p => p.refers accountId

end Tables

/-! ## Migrated contents -/

/-- noon of a day of January 2000 -/
def noonOfJanuary2000 (day : ℕ) (h : ValidDate 2000 1 day) : Timestamp3 :=
  have whole : 12 * 3600 * NANOS_PER_SECOND % NANOS_PER_MILLI = 0 := by decide
  ⟨⟨⟨2000, 1, day, h⟩, 12 * 3600 * NANOS_PER_SECOND, by decide⟩, whole⟩

def seededAccount (accountId : ℤ) (created : Timestamp3) (ownerName : Varchar 128) (units : ℕ) (h : units < 10 ^ 14)
    (comment : Option (Varchar 256)) : AccountRow :=
  ⟨accountId, created, ownerName, ⟨units * 100, by omega⟩, created, comment⟩

/-- the contents after the migration: three accounts, no payment -/
def migrated : Tables where
  account :=
    [seededAccount 0 (noonOfJanuary2000 1 (by decide)) ⟨ofChars ['B', 'a', 'n', 'k'], by decide⟩ 1000000000 (by decide)
      none,
     seededAccount 1 (noonOfJanuary2000 2 (by decide))
      ⟨ofChars ['J', 'a', 'm', 'e', 's', ' ', 'G', 'o', 's', 'l', 'i', 'n', 'g'], by decide⟩ 1000000 (by decide) none,
     seededAccount 2 (noonOfJanuary2000 3 (by decide))
      ⟨ofChars ['J', 'o', 'h', 'n', ' ', 'S', 'm', 'i', 't', 'h'], by decide⟩ 1000 (by decide)
      (some ⟨ofChars ['D', 'e', 'm', 'o', ' ', 'A', 'c', 'c', 'o', 'u', 'n', 't'], by decide⟩)]
  payment := []

/-- the next generated ids after the migration: an explicitly inserted id moves the sequence past it -/
def migratedSequences : Sequence → ℤ
  | .account => 3
  | .payment => 1

end BankServices.Storage
