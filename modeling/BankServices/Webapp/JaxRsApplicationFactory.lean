/-
`JaxRsApplicationFactory`: the JSON object that its object mapper writes for an account. The mapper sees the public
getters of the pojo, and writes a date-time with `DATE_TIME_FORMATTER`.

- `writeAccount_eq`: an account is always written.
- `writtenAlike_iff`: what two accounts have in common when they are written alike.
-/
import BankServices.Storage.Statements
import BankServices.Webapp.LocalDateTimeParamConverterProvider

namespace BankServices.Webapp.JaxRsApplicationFactory

open BankServices.Java BankServices.Storage
open BankServices.Webapp.LocalDateTimeParamConverterProvider

/-- the object as a client receives it -/
structure AccountJson where
  accountId : Option ℤ
  created : List Char
  ownerName : Option JavaString
  balance : BigDecimal
  balanceLastModified : List Char
  comment : Option JavaString
deriving DecidableEq

def writeAccount (account : Account) : Option AccountJson := do
  let created ← DATE_TIME_FORMATTER.format account.created
  let balanceLastModified ← DATE_TIME_FORMATTER.format account.balanceLastModified
  return ⟨account.accountId, created, account.ownerName, account.balance, balanceLastModified, account.comment⟩

/-- the same texts, numbers and date-times; the two balances may have different scales -/
structure AccountJson.Agrees (a b : AccountJson) : Prop where
  accountId : a.accountId = b.accountId
  created : a.created = b.created
  ownerName : a.ownerName = b.ownerName
  balance : a.balance.toRat = b.balance.toRat
  balanceLastModified : a.balanceLastModified = b.balanceLastModified
  comment : a.comment = b.comment

theorem writeAccount_eq (account : Account) : ∃ created balanceLastModified,
    DATE_TIME_FORMATTER.format account.created = some created ∧
      DATE_TIME_FORMATTER.format account.balanceLastModified = some balanceLastModified ∧
      writeAccount account = some ⟨account.accountId, created, account.ownerName, account.balance, balanceLastModified,
        account.comment⟩ := by
  obtain ⟨created, hcreated, -⟩ := fromString_format account.created
  obtain ⟨modified, hmodified, -⟩ := fromString_format account.balanceLastModified
  refine ⟨created, modified, hcreated, hmodified, ?_⟩
  simp [writeAccount, hcreated, hmodified]

/-- both accounts are written, and what is written agrees -/
def WrittenAlike (a b : Account) : Prop :=
  ∃ x y, writeAccount a = some x ∧ writeAccount b = some y ∧ x.Agrees y

theorem writtenAlike_iff (a b : Account) : WrittenAlike a b ↔
    a.accountId = b.accountId ∧ DATE_TIME_FORMATTER.format a.created = DATE_TIME_FORMATTER.format b.created ∧
      a.ownerName = b.ownerName ∧ a.balance.toRat = b.balance.toRat ∧
      DATE_TIME_FORMATTER.format a.balanceLastModified = DATE_TIME_FORMATTER.format b.balanceLastModified ∧
      a.comment = b.comment := by
  obtain ⟨created, modified, hcreated, hmodified, hwrite⟩ := writeAccount_eq a
  obtain ⟨created', modified', hcreated', hmodified', hwrite'⟩ := writeAccount_eq b
  rw [hcreated, hcreated', hmodified, hmodified', Option.some.injEq, Option.some.injEq]
  constructor
  · rintro ⟨x, y, hx, hy, hagrees⟩
    rw [hwrite] at hx
    rw [hwrite'] at hy
    cases hx
    cases hy
    obtain ⟨h1, h2, h3, h4, h5, h6⟩ := hagrees
    exact ⟨h1, h2, h3, h4, h5, h6⟩
  · rintro ⟨h1, h2, h3, h4, h5, h6⟩
    exact ⟨_, _, hwrite, hwrite', h1, h2, h3, h4, h5, h6⟩

end BankServices.Webapp.JaxRsApplicationFactory
