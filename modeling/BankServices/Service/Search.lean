/-
The search for payments in an interval. The column holds whole milliseconds, so what the formatter cuts off is zero, and
no payment falls between two adjacent milliseconds.

- `found_by_printed_time`: a payment is found again by the text printed for its PROCESSED, given as both ends of the
  interval, and every payment found so has that PROCESSED.
- `windows_adjacent`: of two adjacent intervals, the second beginning one millisecond after the end of the first, the
  payments found are those of the whole, each exactly once, and the first ones come first.
-/
import BankServices.Api.PaymentList
import BankServices.Service.Ledger
import BankServices.Webapp.LocalDateTimeParamConverterProvider

namespace BankServices.Service

open BankServices.Java BankServices.Storage BankServices.Webapp BankServices.Api
open BankServices.Webapp.LocalDateTimeParamConverterProvider

/-- a date-time of a TIMESTAMP(3) column is parsed back from its printed text -/
theorem timestamp_printed (t : Timestamp3) :
    ∃ text, DATE_TIME_FORMATTER.format t.1 = some text ∧ fromString text = some t.1 := by
  obtain ⟨text, hformat, hparse⟩ := fromString_format t.1
  rw [LocalDateTime.truncMillis_of_whole t.2] at hparse
  exact ⟨text, hformat, hparse⟩

/-- the payments of an account at one instant -/
theorem list_instant (db : Tables) (k : ℤ) (t : Timestamp3) :
    ∃ found, PaymentEndpoint.list db (some k) (some t.1) (some t.1) = .ok found ∧
      ∀ q, q ∈ found ↔ q ∈ db.payment ∧ q.processed = t ∧ q.refers k = true := by
  obtain ⟨found, hlist, hperm, -⟩ := PaymentEndpoint.list_ok db k (le_refl t.1)
  refine ⟨found, hlist, fun q => ?_⟩
  rw [hperm.mem_iff, PaymentEndpoint.mem_selected]
  constructor
  · rintro ⟨hq, hle, hge, hk⟩
    exact ⟨hq, Subtype.ext (le_antisymm hge hle), hk⟩
  · rintro ⟨hq, rfl, hk⟩
    exact ⟨hq, le_refl _, le_refl _, hk⟩

/-- **Found by the printed time.** -/
theorem found_by_printed_time (ops : List Op) {p : PaymentRow} (hp : p ∈ (run ops).db.payment) {k : ℤ}
    (hk : p.refers k = true) : ∃ text t found, DATE_TIME_FORMATTER.format p.processed.1 = some text ∧
      fromString text = some t ∧ PaymentEndpoint.list (run ops).db (some k) (some t) (some t) = .ok found ∧
      p ∈ found ∧ ∀ q ∈ found, q.processed = p.processed := by
  obtain ⟨text, hformat, hparse⟩ := timestamp_printed p.processed
  obtain ⟨found, hlist, hmem⟩ := list_instant (run ops).db k p.processed
  refine ⟨text, p.processed.1, found, hformat, hparse, hlist, ?_, ?_⟩
  · exact (hmem p).2 ⟨hp, rfl, hk⟩
  · intro q hq
    exact ((hmem q).1 hq).2.1

/-- one payment of 1.00 from account 0 to account 1 -/
def onePayment : List Op := .begin 0 (.createPayment firstOf2020 (pay ⟨1, 0⟩)) :: toCommit 0

/-- the row that it stores -/
def oneRow : PaymentRow where
  paymentId := 1
  processed := .ofLocalDateTime firstOf2020
  amount := ⟨100, by decide⟩
  withdrawalAccountId := 0
  depositAccountId := 1
  comment := none

theorem found_by_printed_time_once : ∃ text t found, DATE_TIME_FORMATTER.format oneRow.processed.1 = some text ∧
    fromString text = some t ∧ PaymentEndpoint.list (run onePayment).db (some 1) (some t) (some t) = .ok found ∧
    oneRow ∈ found ∧ ∀ q ∈ found, q.processed = oneRow.processed :=
  found_by_printed_time onePayment (by decide) (by decide)

/-! ## Adjacent intervals -/

/-- the answer of `list`: sorted, with every payment of the account in the interval exactly once and no other -/
structure Shows (db : Tables) (k : ℤ) (intervalFrom intervalTo : LocalDateTime) (found : List PaymentRow) : Prop where
  answered : PaymentEndpoint.list db (some k) (some intervalFrom) (some intervalTo) = .ok found
  sorted : found.Pairwise fun p q => p.processed ≤ q.processed
  once : ∀ p, found.count p =
    if p ∈ db.payment ∧ intervalFrom ≤ p.processed.1 ∧ p.processed.1 ≤ intervalTo ∧
      (p.withdrawalAccountId = k ∨ p.depositAccountId = k) then 1 else 0

theorem list_shows {db : Tables} (hn : (db.payment.map PaymentRow.paymentId).Nodup) (k : ℤ)
    {intervalFrom intervalTo : LocalDateTime} (h : intervalFrom ≤ intervalTo) :
    ∃ found, Shows db k intervalFrom intervalTo found := by
  obtain ⟨found, hlist, hperm, hsorted⟩ := PaymentEndpoint.list_ok db k h
  refine ⟨found, hlist, hsorted, fun p => ?_⟩
  have hselected : (PaymentEndpoint.selected db k intervalFrom intervalTo).Nodup := (List.Nodup.of_map _ hn).filter _
  rw [hperm.count_eq, List.Nodup.count hselected]
  refine if_congr (PaymentEndpoint.mem_selected.trans ?_) rfl rfl
  simp only [PaymentRow.refers, decide_eq_true_eq]

theorem Shows.mem {db : Tables} {k : ℤ} {intervalFrom intervalTo : LocalDateTime} {found : List PaymentRow}
    (h : Shows db k intervalFrom intervalTo found) {p : PaymentRow} (hp : p ∈ found) :
    intervalFrom ≤ p.processed.1 ∧ p.processed.1 ≤ intervalTo := by
  have hcount := List.count_pos_iff.2 hp
  rw [h.once] at hcount
  split_ifs at hcount with hin
  · exact ⟨hin.2.1, hin.2.2.1⟩
  · cases hcount

/-- **Adjacent intervals.** -/
theorem windows_adjacent (ops : List Op) (k : ℤ) {a b next c : LocalDateTime} (hab : a ≤ b) (hb : b.WholeMillis)
    (hnext : b.plusMilli? = some next) (hc : next ≤ c) : ∃ first second full,
    Shows (run ops).db k a b first ∧ Shows (run ops).db k next c second ∧ Shows (run ops).db k a c full ∧
      full.Perm (first ++ second) ∧ full.Pairwise fun p q => q ∈ first → p ∉ second := by
  have hids := run_paymentIds ops
  obtain ⟨hlt, hcovers⟩ := LocalDateTime.plusMilli?_covers hb hnext
  obtain ⟨first, hfirst⟩ := list_shows hids k hab
  obtain ⟨second, hsecond⟩ := list_shows hids k hc
  obtain ⟨full, hfull⟩ := list_shows hids k (hab.trans (hlt.le.trans hc))
  refine ⟨first, second, full, hfirst, hsecond, hfull, List.perm_iff_count.2 fun p => ?_, ?_⟩
  · rw [List.count_append, hfirst.once, hsecond.once, hfull.once]
    have hside : p.processed.1 ≤ b ∧ p.processed.1 < next ∨ b < p.processed.1 ∧ next ≤ p.processed.1 := by
      rcases le_or_gt p.processed.1 b with hp | hp
      · exact Or.inl ⟨hp, hp.trans_lt hlt⟩
      · exact Or.inr ⟨hp, hcovers _ p.processed.2 hp⟩
    rcases hside with ⟨h1, h2⟩ | ⟨h1, h2⟩
    · have hle : p.processed.1 ≤ c := h1.trans (hlt.le.trans hc)
      simp only [h1, h2.not_ge, hle, true_and, false_and, and_false, if_false, add_zero]
    · have hge : a ≤ p.processed.1 := hab.trans h1.le
      simp only [h1.not_ge, h2, hge, true_and, false_and, and_false, if_false, zero_add]
  · refine hfull.sorted.imp fun {p q} hpq hq hp => ?_
    have hlate := (hsecond.mem hp).1
    have hearly := (hfirst.mem hq).2
    have hle : p.processed.1 ≤ q.processed.1 := hpq
    exact absurd (hlate.trans (hle.trans hearly)) (not_le.2 hlt)

theorem windows_adjacent_once : ∃ next, firstOf2020.plusMilli? = some next ∧ ∃ first second full,
    Shows (run onePayment).db 1 firstOf2020 firstOf2020 first ∧ Shows (run onePayment).db 1 next secondOf2020 second ∧
      Shows (run onePayment).db 1 firstOf2020 secondOf2020 full ∧
      full.Perm (first ++ second) ∧ full.Pairwise fun p q => q ∈ first → p ∉ second := by
  have hnext : firstOf2020.plusMilli? = some ⟨firstOf2020.date, NANOS_PER_MILLI, by decide⟩ := by decide
  exact ⟨_, hnext, windows_adjacent onePayment 1 (le_refl _) (by decide) hnext (by decide)⟩

end BankServices.Service
