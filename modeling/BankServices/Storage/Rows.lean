/-
The rows that statements write: for each conversion and each row, exactly which values it accepts and what it stores.

- `halfUpCents_add`, `halfUpCents_subtract`: the cents stored for a balance plus or minus an amount. They differ from
  the cents of the balance plus or minus the cents of the amount only in a withdrawal of a half cent.
- `toDecimal_ok_iff`: a DECIMAL(16, 2) column stores the cents of a number rounded HALF_UP, if they have 16 digits.
- `paymentRow_ok_iff`, `accountRow_ok_iff`, `balanceRow_ok_iff`, `profileRow_ok_iff`: the rows written.
-/
import BankServices.Core.Fallible
import BankServices.Storage.Statements

namespace BankServices.Storage

open BankServices.Java BankServices.Fallible

/-! ## Amounts -/

/-- the cents that a DECIMAL(16, 2) column makes of a number -/
def halfUpCents (b : BigDecimal) : ℤ := (b.setScaleHalfUp 2).unscaled

theorem halfUpCents_eq (b : BigDecimal) : halfUpCents b = HalfUp.round (b.toRat * 100) := by
  unfold halfUpCents
  rw [BigDecimal.unscaled_setScaleHalfUp]
  norm_num

/-- a stored amount is its number of cents -/
@[simp] theorem toRat_toBigDecimal (v : Decimal16_2) : v.toBigDecimal.toRat * 100 = v.cents := by
  unfold Decimal16_2.toBigDecimal BigDecimal.toRat
  norm_num
  ring

theorem halfUpCents_nonneg {a : BigDecimal} (ha : 0 ≤ a.toRat) : 0 ≤ halfUpCents a := by
  rw [halfUpCents_eq]
  exact HalfUp.round_nonneg (by linarith)

/-- an amount no greater than a stored balance has no more cents than it -/
theorem halfUpCents_le {v : Decimal16_2} {a : BigDecimal} (ha : 0 ≤ a.toRat) (h : a.toRat ≤ v.toBigDecimal.toRat) :
    halfUpCents a ≤ v.cents := by
  have hv := toRat_toBigDecimal v
  rw [halfUpCents_eq]
  exact HalfUp.round_le (by linarith) (by linarith)

theorem halfUpCents_add {v : Decimal16_2} {a : BigDecimal} (hv : 0 ≤ v.cents) (ha : 0 ≤ a.toRat) :
    halfUpCents (v.toBigDecimal.add a) = v.cents + halfUpCents a := by
  rw [halfUpCents_eq, halfUpCents_eq, BigDecimal.toRat_add, add_mul, toRat_toBigDecimal]
  exact HalfUp.round_add hv (by linarith)

theorem halfUpCents_subtract_eq {v : Decimal16_2} (a : BigDecimal) :
    halfUpCents (v.toBigDecimal.subtract a) = HalfUp.round ((v.cents : ℚ) - a.toRat * 100) := by
  rw [halfUpCents_eq, BigDecimal.toRat_subtract, sub_mul, toRat_toBigDecimal]

/-- an amount exactly halfway between two cents -/
def HalfCent (a : BigDecimal) : Prop := HalfUp.Tie (a.toRat * 100)

instance (a : BigDecimal) : Decidable (HalfCent a) := inferInstanceAs (Decidable (_ = _))

/-- the balance left after a withdrawal: a half cent stays in the account and is also counted in the amount -/
theorem halfUpCents_subtract {v : Decimal16_2} {a : BigDecimal} (ha : 0 ≤ a.toRat)
    (h : a.toRat ≤ v.toBigDecimal.toRat) :
    halfUpCents (v.toBigDecimal.subtract a) = v.cents - halfUpCents a + if HalfCent a then 1 else 0 := by
  have hv := toRat_toBigDecimal v
  rw [halfUpCents_subtract_eq, halfUpCents_eq]
  split_ifs with ht
  · exact HalfUp.round_sub_tie (by linarith) (by linarith) ht
  · rw [add_zero]
    exact HalfUp.round_sub (by linarith) (by linarith) ht

theorem halfUpCents_subtract_nonneg {v : Decimal16_2} {a : BigDecimal} (h : a.toRat ≤ v.toBigDecimal.toRat) :
    0 ≤ halfUpCents (v.toBigDecimal.subtract a) :=
  halfUpCents_nonneg (by rw [BigDecimal.toRat_subtract]; linarith)

theorem halfUpCents_subtract_le {v : Decimal16_2} {a : BigDecimal} (ha : 0 ≤ a.toRat)
    (h : a.toRat ≤ v.toBigDecimal.toRat) : halfUpCents (v.toBigDecimal.subtract a) ≤ v.cents :=
  halfUpCents_le (by rw [BigDecimal.toRat_subtract]; linarith) (by rw [BigDecimal.toRat_subtract]; linarith)

/-! ## Conversions -/

theorem toDecimal_ok_iff {column : String} {b : BigDecimal} {v : Decimal16_2} :
    toDecimal column b = .ok v ↔ v.cents = halfUpCents b := by
  unfold toDecimal Decimal16_2.ofBigDecimal?
  obtain ⟨cents, fits⟩ := v
  by_cases h : (b.setScaleHalfUp 2).unscaled.natAbs < 10 ^ 16
  · simp only [dif_pos h, Except.ok.injEq, Decimal16_2.mk.injEq, halfUpCents]
    exact eq_comm
  · simp only [dif_neg h, reduceCtorEq, false_iff, halfUpCents]
    intro hc
    exact h (hc ▸ fits)

theorem toVarchar_ok_iff {column : String} {n : ℕ} {s : JavaString} {v : Varchar n} :
    toVarchar column n s = .ok v ↔ v.1 = s := by
  unfold toVarchar
  obtain ⟨t, ht⟩ := v
  split_ifs with h
  · simp only [Except.ok.injEq, Subtype.mk.injEq]
    exact eq_comm
  · simp only [false_iff]
    intro hs
    exact h (hs ▸ ht)

theorem toNullable_ok_iff {column : String} {n : ℕ} {o : Option JavaString} {v : Option (Varchar n)} :
    toNullable column n o = .ok v ↔ v.map Subtype.val = o := by
  cases o with
  | none =>
    cases v with
    | none => simp [toNullable]
    | some v => simp [toNullable]
  | some s =>
    simp only [toNullable, map_ok_iff, toVarchar_ok_iff]
    cases v with
    | none => simp
    | some v => simp

theorem toNullable_fits {column : String} {n : ℕ} {o : Option JavaString} (h : (o.getD []).length ≤ n) :
    ∃ v, toNullable column n o = .ok v := by
  cases o with
  | none => exact ⟨none, rfl⟩
  | some s => exact ⟨some ⟨s, h⟩, toNullable_ok_iff.2 rfl⟩

theorem toNotNull_ok_iff {column : String} {n : ℕ} {o : Option JavaString} {v : Varchar n} :
    toNotNull column n o = .ok v ↔ o = some v.1 := by
  cases o with
  | none => simp [toNotNull]
  | some s =>
    simp only [toNotNull, toVarchar_ok_iff, Option.some.injEq]
    exact eq_comm

theorem toNotNull_fits {column : String} {n : ℕ} {o : Option JavaString} (h0 : o ≠ none)
    (h : (o.getD []).length ≤ n) : ∃ v, toNotNull column n o = .ok v := by
  cases o with
  | none => exact absurd rfl h0
  | some s => exact ⟨⟨s, h⟩, toNotNull_ok_iff.2 rfl⟩

theorem checkThat_ok_iff {constraint : String} {p : Prop} [Decidable p] {u : Unit} :
    checkThat constraint p = .ok u ↔ p := by
  unfold checkThat
  split_ifs with h <;> simp [h]

theorem referenceTo_ok_iff {constraint : String} {db : Tables} {i : ℤ} {u : Unit} :
    referenceTo constraint db i = .ok u ↔ (db.findAccount i).isSome = true := by
  unfold referenceTo
  split_ifs with h <;> simp [h]

/-! ## Rows -/

theorem paymentRow_ok_iff {db : Tables} {i : ℤ} {p : Payment} {row : PaymentRow} : paymentRow db i p = .ok row ↔
    row.paymentId = i ∧ row.processed = .ofLocalDateTime p.processed ∧ row.amount.cents = halfUpCents p.amount ∧
      row.withdrawalAccountId = p.withdrawalAccountId ∧ row.depositAccountId = p.depositAccountId ∧
      row.comment.map Subtype.val = p.comment ∧ 0 < halfUpCents p.amount ∧
      (db.findAccount p.withdrawalAccountId).isSome = true ∧ (db.findAccount p.depositAccountId).isSome = true := by
  simp only [paymentRow, bind_ok_iff, toDecimal_ok_iff, toNullable_ok_iff, checkThat_ok_iff, referenceTo_ok_iff]
  constructor
  · rintro ⟨amount, ha, comment, hc, -, hpos, -, hw, -, hd, h⟩
    cases h
    exact ⟨rfl, rfl, ha, rfl, rfl, hc, ha ▸ hpos, hw, hd⟩
  · obtain ⟨_, _, amount, _, _, comment⟩ := row
    rintro ⟨rfl, rfl, ha, rfl, rfl, hc, hpos, hw, hd⟩
    exact ⟨amount, ha, comment, hc, (), ha ▸ hpos, (), hw, (), hd, rfl⟩

theorem accountRow_ok_iff {i : ℤ} {a : Account} {row : AccountRow} : accountRow i a = .ok row ↔
    row.accountId = i ∧ row.created = .ofLocalDateTime a.created ∧ a.ownerName = some row.ownerName.1 ∧
      row.balance.cents = halfUpCents a.balance ∧ row.balanceLastModified = .ofLocalDateTime a.balanceLastModified ∧
      row.comment.map Subtype.val = a.comment ∧ 0 ≤ halfUpCents a.balance := by
  simp only [accountRow, bind_ok_iff, toDecimal_ok_iff, toNullable_ok_iff, toNotNull_ok_iff, checkThat_ok_iff]
  constructor
  · rintro ⟨name, hn, balance, hb, comment, hc, -, hpos, h⟩
    cases h
    exact ⟨rfl, rfl, hn, hb, rfl, hc, hb ▸ hpos⟩
  · obtain ⟨_, _, name, balance, _, comment⟩ := row
    rintro ⟨rfl, rfl, hn, hb, rfl, hc, hpos⟩
    exact ⟨name, hn, balance, hb, comment, hc, (), hb ▸ hpos, rfl⟩

theorem balanceRow_ok_iff {r r' : AccountRow} {b : BigDecimal} {t : LocalDateTime} : balanceRow r b t = .ok r' ↔
    ∃ v : Decimal16_2, v.cents = halfUpCents b ∧ 0 ≤ halfUpCents b ∧
      r' = { r with balance := v, balanceLastModified := .ofLocalDateTime t } := by
  simp only [balanceRow, bind_ok_iff, toDecimal_ok_iff, checkThat_ok_iff]
  constructor
  · rintro ⟨v, hv, -, hpos, h⟩
    cases h
    exact ⟨v, hv, hv ▸ hpos, rfl⟩
  · rintro ⟨v, hv, hpos, rfl⟩
    exact ⟨v, hv, (), hv ▸ hpos, rfl⟩

theorem paymentRow_fits {db : Tables} (i : ℤ) {p : Payment} (hcents : 0 < halfUpCents p.amount)
    (hfits : halfUpCents p.amount < 10 ^ 16) (hcomment : (p.comment.getD []).length ≤ 256)
    (hw : (db.findAccount p.withdrawalAccountId).isSome = true)
    (hd : (db.findAccount p.depositAccountId).isSome = true) :
    ∃ row, paymentRow db i p = .ok row := by
  obtain ⟨comment, hc⟩ : ∃ comment, toNullable "COMMENT" 256 p.comment = .ok comment := toNullable_fits hcomment
  exact ⟨⟨i, .ofLocalDateTime p.processed, ⟨halfUpCents p.amount, by omega⟩, p.withdrawalAccountId, p.depositAccountId,
    comment⟩, paymentRow_ok_iff.2 ⟨rfl, rfl, rfl, rfl, rfl, toNullable_ok_iff.1 hc, hcents, hw, hd⟩⟩

theorem balanceRow_fits (r : AccountRow) {b : BigDecimal} (t : LocalDateTime) (h0 : 0 ≤ halfUpCents b)
    (hfits : halfUpCents b < 10 ^ 16) : ∃ r', balanceRow r b t = .ok r' :=
  ⟨_, balanceRow_ok_iff.2 ⟨⟨halfUpCents b, by omega⟩, rfl, h0, rfl⟩⟩

theorem profileRow_ok_iff {r r' : AccountRow} {n c : Option JavaString} : profileRow r n c = .ok r' ↔
    ∃ (name : Varchar 128) (comment : Option (Varchar 256)), n = some name.1 ∧ comment.map Subtype.val = c ∧
      r' = { r with ownerName := name, comment } := by
  simp only [profileRow, bind_ok_iff, toNullable_ok_iff, toNotNull_ok_iff]
  constructor
  · rintro ⟨name, hn, comment, hc, h⟩
    cases h
    exact ⟨name, comment, hn, hc, rfl⟩
  · rintro ⟨name, comment, hn, hc, rfl⟩
    exact ⟨name, hn, comment, hc, rfl⟩

end BankServices.Storage
