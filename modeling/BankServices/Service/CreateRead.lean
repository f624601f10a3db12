/-
The account that a creation answers with, against the one that is read back. The first holds the clock value, the second
what the columns kept of it, and both are written as JSON.

- `create_read_agree_iff`: both show the same account if and only if the column does not round the clock value up and
  the text of the clock value is not longer than that of its whole milliseconds, whatever the tables hold.
- `create_read_differ`: half a millisecond after midnight they do not.
-/
import BankServices.Service.Alone
import BankServices.Webapp.JaxRsApplicationFactory

namespace BankServices.Service

open BankServices.Java BankServices.Txn BankServices.Storage BankServices.Webapp BankServices.Api
open BankServices.Webapp.LocalDateTimeParamConverterProvider BankServices.Webapp.JaxRsApplicationFactory

/-! ## Definitions -/

/-- the account in the response, and the one read by its id from the tables, are written alike -/
def ReadsBack (a : Response) (db : Tables) : Prop :=
  ∃ account accountId readBack, a.entity = some (.account account) ∧ account.accountId = some accountId ∧
    AccountEndpoint.read db accountId = some readBack ∧ WrittenAlike account readBack

/-- a TIMESTAMP(3) column cuts the clock value, it does not round it up; and the last digit of its whole milliseconds is
printed even if nothing is cut off -/
def KeepsText (now : LocalDateTime) : Prop :=
  (now.nanoOfDay % NANOS_PER_MILLI < NANOS_PER_MILLI / 2 ∨ now.truncMillis.plusMilli? = none) ∧
    (now.WholeMillis ∨ now.nanoOfDay / NANOS_PER_MILLI % 10 ≠ 0)

instance (now : LocalDateTime) : Decidable (KeepsText now) := inferInstanceAs (Decidable (_ ∧ _))

/-! ## Texts -/

/-- the text of a clock value is the text of what the column keeps of it -/
theorem format_stored_iff (now : LocalDateTime) :
    DATE_TIME_FORMATTER.format now = DATE_TIME_FORMATTER.format (Timestamp3.ofLocalDateTime now).1 ↔ KeepsText now := by
  show DATE_TIME_FORMATTER.format now = DATE_TIME_FORMATTER.format now.roundMillis ↔ KeepsText now
  unfold KeepsText
  rw [← LocalDateTime.roundMillis_eq_truncMillis_iff, ← format_truncMillis_iff]
  constructor
  · intro h
    -- equal texts are read back as equal
    obtain ⟨text, hformat, hread⟩ := fromString_format now
    obtain ⟨text', hformat', hread'⟩ := fromString_format now.roundMillis
    have htext : text = text' := Option.some.inj (hformat.symm.trans (h.trans hformat'))
    have hcut : now.roundMillis = now.truncMillis := by
      rw [← htext, hread, LocalDateTime.truncMillis_of_whole now.roundMillis_whole] at hread'
      exact (Option.some.inj hread').symm
    refine ⟨hcut, ?_⟩
    rw [h, hcut]
  · rintro ⟨hcut, htext⟩
    rw [htext, hcut]

/-! ## Creations -/

section Create

variable {now : LocalDateTime} {na : NewAccount} {account : Account} {row : AccountRow} {db : Tables} {x : ℤ}

/-- the row stored under a fresh id is read back -/
theorem read_created (hstored : accountRow x account = .ok row) (hfresh : db.findAccount x = none) :
    AccountEndpoint.read (applyWrite db (.addAccount row)) x = some (AccountEndpoint.fetchInto row) := by
  unfold AccountEndpoint.read
  rw [findAccount_addAccount, hfresh, (accountRow_ok_iff.1 hstored).1, Option.none_or, if_pos rfl, Option.map_some]

theorem created_readsBack_iff (hvalid : AccountEndpoint.checkedAccount now na = .ok account)
    (hstored : accountRow x account = .ok row) (hfresh : db.findAccount x = none) :
    ReadsBack ⟨.OK, some .APPLICATION_JSON, some (.account { account with accountId := some x })⟩
      (applyWrite db (.addAccount row)) ↔ KeepsText now := by
  obtain ⟨rfl, -⟩ := AccountEndpoint.checkedAccount_ok_iff.1 hvalid
  obtain ⟨hid, hcreated, hname, hbalance, hmodified, hcomment, -⟩ := accountRow_ok_iff.1 hstored
  have hname' : na.ownerName = some row.ownerName.1 := hname
  have hread := read_created hstored hfresh
  have hzero : BigDecimal.zero.toRat = row.balance.toBigDecimal.toRat := by
    have hcents := toRat_toBigDecimal row.balance
    rw [hbalance, show halfUpCents .zero = 0 by decide, Int.cast_zero] at hcents
    rw [BigDecimal.toRat_zero]
    linarith
  have halike : WrittenAlike ⟨some x, now, na.ownerName, .zero, now, na.comment⟩ (AccountEndpoint.fetchInto row) ↔
      KeepsText now := by
    rw [writtenAlike_iff, ← format_stored_iff]
    simp only [AccountEndpoint.fetchInto, hid, hcreated, hname', hmodified, hcomment, hzero, true_and, and_true, and_self]
  rw [← halike]
  constructor
  · rintro ⟨_, _, readBack, hentity, hx, hback, hsame⟩
    cases hentity
    cases hx
    cases hread.symm.trans hback
    exact hsame
  · intro hsame
    exact ⟨_, x, _, rfl, rfl, hread, hsame⟩

/-- a creation answered alone answers with the account that it stored -/
theorem alone_created {s : St} {a : Response} (h : (alone (.createAccount now na) s).1 = .ok a) :
    ∃ account row, AccountEndpoint.checkedAccount now na = .ok account ∧ accountRow (s.seq .account) account = .ok row ∧
      a = ⟨.OK, some .APPLICATION_JSON, some (.account { account with accountId := some (s.seq .account) })⟩ ∧
      (alone (.createAccount now na) s).2.2 = applyWrite s.db (.addAccount row) := by
  cases hvalid : AccountEndpoint.checkedAccount now na with
  | error t =>
    have hbody : body (.createAccount now na) = .fail t := AccountEndpoint.create_eq_fail hvalid
    rw [alone_of_error (by rw [hbody]; rfl)] at h
    cases h
  | ok account =>
    obtain ⟨row, hstored, hrun⟩ := AccountEndpoint.create_run counters s.seq s.db hvalid
    have halone := alone_of_ok (r := .createAccount now na) hrun
    rw [halone] at h ⊢
    cases h
    exact ⟨account, row, rfl, hstored, rfl, rfl⟩

end Create

/-- **Create and read.** -/
theorem create_read_agree_iff (ops : List Op) :
    (∀ s : St, s.db.findAccount (s.seq .account) = none → ∀ now na a, (alone (.createAccount now na) s).1 = .ok a →
      (ReadsBack a (alone (.createAccount now na) s).2.2 ↔ KeepsText now)) ∧
    (run ops).db.findAccount ((run ops).seq .account) = none ∧
    ∀ i t a now na, (run ops).slot i = .running t → t.rest = .done a → t.req = .createAccount now na →
      (ReadsBack a (step (run ops) (.commit i)).db ↔ KeepsText now) := by
  refine ⟨fun s hfresh now na a h => ?_, next_account_fresh ops, fun i t a now na hs hr hq => ?_⟩
  · obtain ⟨account, row, hvalid, hstored, ha, hdb⟩ := alone_created h
    rw [ha, hdb]
    exact created_readsBack_iff hvalid hstored hfresh
  · rcases commit_cases ops hs hr with hc | ⟨-, hrow, -⟩
    · have hfresh : ∀ x, (Sequence.account, x) ∈ t.ids → (run ops).db.findAccount x = none :=
        fun x hx => account_fresh (run_ledger ops) hs hx
      have he := hc.effect
      generalize (step (run ops) (.commit i)).db = db' at he ⊢
      generalize t.ids = ids at he hfresh
      rw [hq] at he
      cases he with
      | created hvalid hstored => exact created_readsBack_iff hvalid hstored (hfresh _ List.mem_cons_self)
    · rw [hq] at hrow
      exact absurd hrow id

/-- half a millisecond after midnight -/
def halfMilliOf2020 : LocalDateTime := ⟨firstOf2020.date, 500000, by decide⟩

theorem create_read_differ : ¬ ∀ s : St, s.db.findAccount (s.seq .account) = none → ∀ now na a,
    (alone (.createAccount now na) s).1 = .ok a → ReadsBack a (alone (.createAccount now na) s).2.2 := by
  intro h
  have hfresh : (init : St).db.findAccount (init.seq .account) = none := by decide
  obtain ⟨account, hvalid⟩ : ∃ account, AccountEndpoint.checkedAccount halfMilliOf2020 ⟨some (ofChars ['B']), none⟩ =
    .ok account := ⟨_, rfl⟩
  obtain ⟨row, hstored, hrun⟩ := AccountEndpoint.create_run counters init.seq init.db hvalid
  have halone := alone_of_ok (r := .createAccount halfMilliOf2020 ⟨some (ofChars ['B']), none⟩) (s := init) hrun
  have hback := h init hfresh halfMilliOf2020 ⟨some (ofChars ['B']), none⟩ _ (congrArg Prod.fst halone)
  rw [halone] at hback
  have hkeeps := (created_readsBack_iff hvalid hstored hfresh).1 hback
  exact absurd hkeeps (by decide)

end BankServices.Service
