/-
The checks of request values against the columns they are stored in: `ValidationUtils` and `JooqAwareValidationUtils`.

Every failed check is a 400 exception whose text names the field (`badRequest_status`), and each check returns the value
it was given (`checked_ok_iff`, `checkedPositive_ok_iff`, `checkedNotNull_ok_iff`).
-/
import BankServices.Webapp.Response

namespace BankServices.Webapp

open BankServices.Java BankServices.Storage

namespace ValidationUtils

def exceptionOf (status : Status) (msg : String) : Throwable :=
  .webApplicationException ⟨status, some .TEXT_PLAIN, some (.text msg)⟩

def exception (msg : String) : Throwable := exceptionOf .BAD_REQUEST msg

end ValidationUtils

/-- the generated meta-data of a column -/
structure TableField where
  table : String
  name : String
  notNull : Bool
  /-- the declared length of a VARCHAR column -/
  length : ℕ

def ACCOUNT.ACCOUNT_ID : TableField := ⟨"ACCOUNT", "ACCOUNT_ID", true, 0⟩
def ACCOUNT.OWNER_NAME : TableField := ⟨"ACCOUNT", "OWNER_NAME", true, 128⟩
def ACCOUNT.COMMENT : TableField := ⟨"ACCOUNT", "COMMENT", false, 256⟩
def PAYMENT.AMOUNT : TableField := ⟨"PAYMENT", "AMOUNT", true, 0⟩
def PAYMENT.WITHDRAWAL_ACCOUNT_ID : TableField := ⟨"PAYMENT", "WITHDRAWAL_ACCOUNT_ID", true, 0⟩
def PAYMENT.DEPOSIT_ACCOUNT_ID : TableField := ⟨"PAYMENT", "DEPOSIT_ACCOUNT_ID", true, 0⟩
def PAYMENT.COMMENT : TableField := ⟨"PAYMENT", "COMMENT", false, 256⟩

/-- WITHDRAWAL_ACCOUNT_ID becomes withdrawalAccountId; for names of letters and single underscores -/
def toCamelCaseLC (name : String) : String :=
  match name.toList.splitOn '_' with
  | [] => ""
  | w :: ws => String.ofList (w.map Char.toLower ++ (ws.map capitalised).flatten)
where
  capitalised : List Char → List Char
    | [] => []
    | c :: cs => c.toUpper :: cs.map Char.toLower

namespace JooqAwareValidationUtils

/-- an argument of a message: a text, or a field to be named -/
inductive Arg where
  | text (s : String)
  | field (f : TableField)

def exception (args : List Arg) : Throwable :=
  ValidationUtils.exception (String.join (args.map fun
    | .text s => s
    | .field f => toCamelCaseLC f.name))

def exceptionAt (field : TableField) (checkMsg : String) : Throwable :=
  ValidationUtils.exception
    ("'" ++ toCamelCaseLC field.table ++ "." ++ toCamelCaseLC field.name ++ "' field " ++ checkMsg)

/-- not empty for a column that is not nullable, and not longer than the column -/
def checked (field : TableField) (value : Option JavaString) : Except Throwable (Option JavaString) :=
  if (value.getD []).isEmpty then
    if field.notNull then .error (exceptionAt field "must not be empty") else .ok value
  else if field.length < (value.getD []).length then
    .error (exceptionAt field ("must not exceed " ++ toString field.length ++ " chars"))
  else .ok value

def checkedPositive (field : TableField) : Option BigDecimal → Except Throwable BigDecimal
  | none => .error (exceptionAt field "must be positive")
  | some value =>
    if value.compareTo .zero ≤ 0 then .error (exceptionAt field "must be positive") else .ok value

def checkedNotNull {T : Type} (field : TableField) : Option T → Except Throwable T
  | none => .error (exceptionAt field "must not be null")
  | some value => .ok value

/-! ## What the checks accept -/

/-- the throwable is a 400 with a text -/
def BadRequest (t : Throwable) : Prop := ∃ msg, t = ValidationUtils.exception msg

theorem badRequest_status {t : Throwable} (h : BadRequest t) :
    (ThrowableExceptionMapper.toResponse t).status = .BAD_REQUEST := by
  obtain ⟨msg, rfl⟩ := h
  rfl

theorem exceptionAt_badRequest (field : TableField) (checkMsg : String) : BadRequest (exceptionAt field checkMsg) :=
  ⟨_, rfl⟩

theorem checked_ok_iff {field : TableField} {value v : Option JavaString} : checked field value = .ok v ↔
    v = value ∧ (field.notNull = true → value.getD [] ≠ []) ∧ (value.getD []).length ≤ field.length := by
  unfold checked
  cases hv : value.getD [] with
  | nil =>
    cases hn : field.notNull with
    | true => simp
    | false => simp [eq_comm]
  | cons c cs =>
    simp only [List.isEmpty_cons, Bool.false_eq_true, if_false]
    split_ifs with hl
    · constructor
      · intro h; cases h
      · rintro ⟨-, -, h⟩; exact absurd h (by omega)
    · simp only [Except.ok.injEq, ne_eq, reduceCtorEq, not_false_eq_true, implies_true, true_and]
      constructor
      · intro h; exact ⟨h.symm, by omega⟩
      · rintro ⟨h, -⟩; exact h.symm

theorem checked_error {field : TableField} {value : Option JavaString} {t : Throwable}
    (h : checked field value = .error t) : BadRequest t := by
  unfold checked at h
  split_ifs at h <;> cases h
  all_goals exact exceptionAt_badRequest _ _

theorem checkedPositive_ok_iff {field : TableField} {value : Option BigDecimal} {v : BigDecimal} :
    checkedPositive field value = .ok v ↔ value = some v ∧ 0 < v.toRat := by
  cases value with
  | none => simp [checkedPositive]
  | some x =>
    have hx : x.compareTo .zero ≤ 0 ↔ ¬ 0 < x.toRat := by
      rw [BigDecimal.compareTo_le_iff, BigDecimal.toRat_zero, not_lt]
    simp only [checkedPositive]
    split_ifs with h
    · constructor
      · intro he; cases he
      · rintro ⟨he, hv⟩; cases he; exact absurd hv (hx.1 h)
    · constructor
      · intro he; cases he; exact ⟨rfl, not_not.1 (mt hx.2 h)⟩
      · rintro ⟨he, -⟩; cases he; rfl

theorem checkedPositive_error {field : TableField} {value : Option BigDecimal} {t : Throwable}
    (h : checkedPositive field value = .error t) : BadRequest t := by
  cases value with
  | none => cases h; exact exceptionAt_badRequest _ _
  | some x =>
    simp only [checkedPositive] at h
    split_ifs at h
    cases h
    exact exceptionAt_badRequest _ _

theorem checkedNotNull_ok_iff {T : Type} {field : TableField} {value : Option T} {v : T} :
    checkedNotNull field value = .ok v ↔ value = some v := by
  cases value <;> simp [checkedNotNull]

theorem checkedNotNull_error {T : Type} {field : TableField} {value : Option T} {t : Throwable}
    (h : checkedNotNull field value = .error t) : BadRequest t := by
  cases value with
  | none => cases h; exact exceptionAt_badRequest _ _
  | some x => cases h

end JooqAwareValidationUtils

end BankServices.Webapp
