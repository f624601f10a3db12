/-
`AccountEndpoint`: creation, update and deletion of an account, each one statement after its checks, and reading one.

- `checkedAccount_ok_iff`, `checkedUpdate_ok_iff`: what the checks accept. Whatever they refuse is answered 400.
- `checkedAccount_fits`, `checkedUpdate_fits`: the values that they accept fit their columns.
-/
import BankServices.Api.PaymentEndpoint

namespace BankServices.Api

open BankServices.Java BankServices.Txn BankServices.Storage BankServices.Webapp BankServices.Fallible

/-- account input REST entity -/
structure NewAccount where
  ownerName : Option JavaString
  comment : Option JavaString

structure UpdateAccount where
  accountId : Option ℤ
  ownerName : Option JavaString
  comment : Option JavaString

namespace AccountEndpoint

open JooqAwareValidationUtils

/-- the account to be stored, with a zero balance -/
def checkedAccount (now : LocalDateTime) (newAccount : NewAccount) : Except Throwable Account := do
  let ownerName ← checked ACCOUNT.OWNER_NAME newAccount.ownerName
  let comment ← checked ACCOUNT.COMMENT newAccount.comment
  return ⟨none, now, ownerName, .zero, now, comment⟩

def create (now : LocalDateTime) (newAccount : NewAccount) : Tx Response := do
  let account ← Prog.ofExcept (checkedAccount now newAccount)
  let accountId ← Prog.draw Sequence.account .done
  let _ ← Prog.send (.insertAccount accountId account) updatedRows
  return ⟨.OK, some .APPLICATION_JSON, some (.account { account with accountId := some accountId })⟩

/-- the pojo filled from a row -/
def fetchInto (row : AccountRow) : Account :=
  ⟨some row.accountId, row.created.1, some row.ownerName.1, row.balance.toBigDecimal, row.balanceLastModified.1,
    row.comment.map Subtype.val⟩

/-- the account, answered 204 when there is none -/
def read (db : Tables) (accountId : ℤ) : Option Account := (db.findAccount accountId).map fetchInto

/-- the values and the id of the update statement, checked while it is built -/
def checkedUpdate (account : UpdateAccount) : Except Throwable (Option JavaString × Option JavaString × ℤ) := do
  let ownerName ← checked ACCOUNT.OWNER_NAME account.ownerName
  let comment ← checked ACCOUNT.COMMENT account.comment
  let accountId ← checkedNotNull ACCOUNT.ACCOUNT_ID account.accountId
  return (ownerName, comment, accountId)

def rowsResponse (rows : ℕ) : Response := ⟨if rows = 1 then .OK else .NOT_MODIFIED, none, none⟩

def update (account : UpdateAccount) : Tx Response := do
  let (ownerName, comment, accountId) ← Prog.ofExcept (checkedUpdate account)
  let rows ← Prog.send (.updateProfile accountId ownerName comment) updatedRows
  return rowsResponse rows

def delete (accountId : ℤ) : Tx Response := do
  let rows ← Prog.send (.deleteAccount accountId) updatedRows
  return rowsResponse rows

/-! ## Checked values fit -/

theorem checkedAccount_ok_iff {now : LocalDateTime} {na : NewAccount} {a : Account} : checkedAccount now na = .ok a ↔
    a = ⟨none, now, na.ownerName, .zero, now, na.comment⟩ ∧ na.ownerName.getD [] ≠ [] ∧
      (na.ownerName.getD []).length ≤ 128 ∧ (na.comment.getD []).length ≤ 256 := by
  simp only [checkedAccount, bind_ok_iff, checked_ok_iff]
  constructor
  · rintro ⟨_, ⟨rfl, hne, hlen⟩, _, ⟨rfl, -, hlen'⟩, h⟩
    cases h
    exact ⟨rfl, hne rfl, hlen, hlen'⟩
  · rintro ⟨rfl, hne, hlen, hlen'⟩
    exact ⟨_, ⟨rfl, fun _ => hne, hlen⟩, _, ⟨rfl, fun h => (by cases h), hlen'⟩, rfl⟩

theorem checkedAccount_error {now : LocalDateTime} {na : NewAccount} {t : Throwable}
    (h : checkedAccount now na = .error t) : BadRequest t := by
  simp only [checkedAccount, bind_error_iff] at h
  rcases h with h | ⟨_, _, h | ⟨_, _, h⟩⟩
  · exact checked_error h
  · exact checked_error h
  · cases h

theorem checkedUpdate_ok_iff {u : UpdateAccount} {n c : Option JavaString} {i : ℤ} : checkedUpdate u = .ok (n, c, i) ↔
    n = u.ownerName ∧ c = u.comment ∧ u.accountId = some i ∧ u.ownerName.getD [] ≠ [] ∧
      (u.ownerName.getD []).length ≤ 128 ∧ (u.comment.getD []).length ≤ 256 := by
  simp only [checkedUpdate, bind_ok_iff, checked_ok_iff, checkedNotNull_ok_iff]
  constructor
  · rintro ⟨_, ⟨rfl, hne, hlen⟩, _, ⟨rfl, -, hlen'⟩, _, hi, h⟩
    cases h
    exact ⟨rfl, rfl, hi, hne rfl, hlen, hlen'⟩
  · rintro ⟨rfl, rfl, hi, hne, hlen, hlen'⟩
    exact ⟨_, ⟨rfl, fun _ => hne, hlen⟩, _, ⟨rfl, fun h => (by cases h), hlen'⟩, _, hi, rfl⟩

theorem checkedUpdate_error {u : UpdateAccount} {t : Throwable} (h : checkedUpdate u = .error t) : BadRequest t := by
  simp only [checkedUpdate, bind_error_iff] at h
  rcases h with h | ⟨_, _, h | ⟨_, _, h | ⟨_, _, h⟩⟩⟩
  · exact checked_error h
  · exact checked_error h
  · exact checkedNotNull_error h
  · cases h

/-- a checked new account can always be stored -/
theorem checkedAccount_fits {now : LocalDateTime} {na : NewAccount} {a : Account} (h : checkedAccount now na = .ok a)
    (i : ℤ) : ∃ row, accountRow i a = .ok row := by
  obtain ⟨rfl, hne, hlen, hlen'⟩ := checkedAccount_ok_iff.1 h
  obtain ⟨name, hn⟩ : ∃ name, toNotNull "OWNER_NAME" 128 na.ownerName = .ok name :=
    toNotNull_fits (fun h0 => hne (by rw [h0]; rfl)) hlen
  obtain ⟨comment, hc⟩ : ∃ comment, toNullable "COMMENT" 256 na.comment = .ok comment := toNullable_fits hlen'
  have hzero : halfUpCents .zero = 0 := by decide
  exact ⟨⟨i, .ofLocalDateTime now, name, ⟨0, by decide⟩, .ofLocalDateTime now, comment⟩, accountRow_ok_iff.2
    ⟨rfl, rfl, toNotNull_ok_iff.1 hn, hzero.symm, rfl, toNullable_ok_iff.1 hc, hzero.ge⟩⟩

/-- the columns that a checked update writes, the same ones over any row -/
theorem checkedUpdate_columns {u : UpdateAccount} {n c : Option JavaString} {i : ℤ}
    (h : checkedUpdate u = .ok (n, c, i)) : ∃ (ownerName : Varchar 128) (comment : Option (Varchar 256)),
      ∀ r : AccountRow, profileRow r n c = .ok { r with ownerName, comment } := by
  obtain ⟨rfl, rfl, -, hne, hlen, hlen'⟩ := checkedUpdate_ok_iff.1 h
  obtain ⟨name, hn⟩ : ∃ name, toNotNull "OWNER_NAME" 128 u.ownerName = .ok name :=
    toNotNull_fits (fun h0 => hne (by rw [h0]; rfl)) hlen
  obtain ⟨comment, hc⟩ : ∃ comment, toNullable "COMMENT" 256 u.comment = .ok comment := toNullable_fits hlen'
  exact ⟨name, comment, fun r =>
    profileRow_ok_iff.2 ⟨name, comment, toNotNull_ok_iff.1 hn, toNullable_ok_iff.1 hc, rfl⟩⟩

/-- a checked update can always be stored -/
theorem checkedUpdate_fits {u : UpdateAccount} {n c : Option JavaString} {i : ℤ} (h : checkedUpdate u = .ok (n, c, i))
    (r : AccountRow) : ∃ r', profileRow r n c = .ok r' := by
  obtain ⟨name, comment, hrow⟩ := checkedUpdate_columns h
  exact ⟨_, hrow r⟩

end AccountEndpoint

end BankServices.Api
