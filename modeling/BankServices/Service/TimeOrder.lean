/-
The order of time in the ledger. A payment captures the clock before it waits for its row locks, and writes that value
into its row and into both accounts when it has them. PAYMENT rows are kept in the order of their commits
(`effect_cases`), so that order is the order of the list.

- `ledger_time_order`: in a run where no payment acquires the lock of a row that was changed after the payment's clock
  value (`punctual`), payments of an account are stored in the order of PROCESSED, BALANCE_LAST_MODIFIED never goes
  back and is the latest PROCESSED, and `list` shows the payments of an account in the order of their commits. A
  payment that commits after such a late lock sets BALANCE_LAST_MODIFIED back.
- `late_payment`: with a clock that never goes back, a payment that waited can be stored after a later one.
-/
import BankServices.Api.PaymentList
import BankServices.Service.Ledger

namespace BankServices.Service

open BankServices.Java BankServices.Txn BankServices.Storage BankServices.Webapp BankServices.Api
open BankServices.Api.PaymentEndpoint

/-! ## Definitions -/

/-- the two payments have an account in common -/
def shares (p q : PaymentRow) : Bool := q.refers p.withdrawalAccountId || q.refers p.depositAccountId

structure TimeOrdered (db : Tables) : Prop where
  ordered : db.payment.Pairwise fun p q => shares p q = true → p.processed ≤ q.processed
  modified : ∀ r ∈ db.account, db.paymentsOf r.accountId ≠ [] →
    IsGreatest {t | ∃ p ∈ db.paymentsOf r.accountId, p.processed = t} r.balanceLastModified
  listed : ∀ k intervalFrom intervalTo, intervalFrom ≤ intervalTo →
    list db (some k) (some intervalFrom) (some intervalTo) = .ok (selected db k intervalFrom intervalTo)

/-- no BALANCE_LAST_MODIFIED goes back from the one to the other -/
def NeverBack (db db' : Tables) : Prop := ∀ k r r', db.findAccount k = some r → db'.findAccount k = some r' →
  r.balanceLastModified ≤ r'.balanceLastModified

/-- unless the operation lets a payment acquire the lock of a row that was changed after the payment's clock value -/
def onTime (s : St) : Op → Bool
  | .exec i =>
    match s.slot i with
    | .running t =>
      match t.req, t.rest with
      | .createPayment now _, .send c _ =>
        match lockKey c with
        | some k =>
          match s.db.findAccount k with
          | some r =>
            RowLock.blocked h2 s i c || s.owner k = some i || r.balanceLastModified ≤ Timestamp3.ofLocalDateTime now
          | none => true
        | none => true
      | _, _ => true
    | _ => true
  | _ => true

/-- every operation of the run is on time -/
def punctual (ops : List Op) : Bool := along onTime ops

theorem onTime_lock {s : St} {i : ℕ} {t : Session}
    {now : LocalDateTime} {np : NewPayment} {c : Statement} {f : Answer c → Tx Response} {k : ℤ} {r : AccountRow}
    (h : onTime s (.exec i) = true) (hs : s.slot i = .running t) (hq : t.req = .createPayment now np)
    (hr : t.rest = .send c f) (hb : RowLock.blocked h2 s i c = false) (hk : lockKey c = some k)
    (hno : s.owner k ≠ some i) (hf : s.db.findAccount k = some r) :
    r.balanceLastModified ≤ Timestamp3.ofLocalDateTime now := by
  simp only [onTime, hs, hq, hr, hk, hf, hb, Bool.false_or, Bool.or_eq_true, decide_eq_true_eq] at h
  exact h.resolve_left hno

/-! ## The invariant -/

/-- a payment holds only rows that were last changed no later than its clock value -/
def HeldOnTime (s : St) : Prop := ∀ i t now np k r, s.slot i = .running t → t.req = .createPayment now np →
  s.owner k = some i → s.db.findAccount k = some r → r.balanceLastModified ≤ Timestamp3.ofLocalDateTime now

structure TimeInv (db : Tables) : Prop where
  ordered : db.payment.Pairwise fun p q => shares p q = true → p.processed ≤ q.processed
  upper : ∀ k r, db.findAccount k = some r → ∀ p ∈ db.paymentsOf k, p.processed ≤ r.balanceLastModified
  attained : ∀ k r, db.findAccount k = some r → db.paymentsOf k ≠ [] →
    ∃ p ∈ db.paymentsOf k, p.processed = r.balanceLastModified

theorem shares_iff (p q : PaymentRow) : shares p q = true ↔ ∃ k, p.refers k = true ∧ q.refers k = true := by
  unfold shares
  rw [Bool.or_eq_true]
  constructor
  · rintro (h | h)
    · exact ⟨_, (Moved.refers_iff _).2 (Or.inl rfl), h⟩
    · exact ⟨_, (Moved.refers_iff _).2 (Or.inr rfl), h⟩
  · rintro ⟨k, hp, hq⟩
    rcases (Moved.refers_iff k).1 hp with rfl | rfl
    · exact Or.inl hq
    · exact Or.inr hq

/-- the time order in its public form -/
theorem TimeInv.timeOrdered {db : Tables} (h : TimeInv db) (hk : (db.account.map AccountRow.accountId).Nodup) :
    TimeOrdered db := by
  refine ⟨h.ordered, fun r hr hp => ?_, fun k a b hab => ?_⟩
  · have hf := KeyedList.lookup_of_mem hk hr
    refine ⟨h.attained _ r hf hp, ?_⟩
    rintro t ⟨p, hp, rfl⟩
    exact h.upper _ r hf p hp
  · apply list_of_sorted hab
    refine (h.ordered.filter _).imp_of_mem fun {p q} hp hq hpq => hpq ?_
    exact (shares_iff p q).2 ⟨k, (mem_selected.1 hp).2.2.2, (mem_selected.1 hq).2.2.2⟩

theorem timeInv_init : TimeInv init.db := by
  refine ⟨List.Pairwise.nil, ?_, ?_⟩
  · intro k r _ p hp; cases hp
  · intro k r _ h; exact absurd rfl h

/-- the accounts of a committing payment were last changed no later than its clock value -/
theorem moved_onTime {ops : List Op} (hh : HeldOnTime (run ops)) {i : ℕ} {t : Session} {now : LocalDateTime}
    {np : NewPayment} (hs : (run ops).slot i = .running t) (hq : t.req = .createPayment now np) {amount : BigDecimal}
    {row : PaymentRow} {w d w' d' : AccountRow}
    (hm : Moved amount row w d w' d' (run ops).db (h2.view (run ops).db t.writes)) (hrec : Records now np amount row)
    {k : ℤ} {r : AccountRow} (hk : row.refers k = true) (hr : (run ops).db.findAccount k = some r) :
    r.balanceLastModified ≤ row.processed := by
  rw [hrec.processed]
  refine hh i t now np k r hs hq (RowLock.changed_owner (run_inv ops) hs ?_ ?_) hr
  · show ((run ops).db.findAccount k).isSome = true
    rw [hr]; rfl
  · intro hlook
    have hpay : (h2.view (run ops).db t.writes).paymentsOf k = (run ops).db.paymentsOf k := congrArg Prod.snd hlook
    rw [hm.paymentsOf, if_pos hk] at hpay
    exact absurd hpay (by simp)

section Effects

variable {s : St} {db' : Tables}

/-- a payment of accounts that were last changed no later than its clock value keeps the time order -/
theorem TimeInv.payment (h : TimeInv s.db) (hl : LedgerInv s) {amount : BigDecimal} {row : PaymentRow}
    {w d w' d' : AccountRow} (hm : Moved amount row w d w' d' s.db db')
    (honTime : ∀ k r, row.refers k = true → s.db.findAccount k = some r → r.balanceLastModified ≤ row.processed) :
    TimeInv db' ∧ NeverBack s.db db' := by
  refine ⟨⟨?_, fun k r' hr' p hp => ?_, fun k r' hr' hne => ?_⟩, fun k r r' hr hr' => ?_⟩
  · rw [hm.payment, List.pairwise_append]
    refine ⟨h.ordered, List.pairwise_singleton _ _, fun p hp q hq hsh => ?_⟩
    rw [List.mem_singleton.1 hq] at hsh ⊢
    obtain ⟨k, hpk, hrk⟩ := (shares_iff p row).1 hsh
    obtain ⟨r, hr⟩ := Option.isSome_iff_exists.1 (hl.refers_isSome hp hpk)
    exact (h.upper k r hr p (List.mem_filter.2 ⟨hp, hpk⟩)).trans (honTime k r hrk hr)
  · rw [hm.paymentsOf] at hp
    rcases hm.row_cases hr' with ⟨hk, hblm, r, hr⟩ | ⟨hk, hr⟩
    · rw [if_pos hk] at hp
      rw [hblm]
      rcases List.mem_append.1 hp with hp | hp
      · exact (h.upper k r hr p hp).trans (honTime k r hk hr)
      · rw [List.mem_singleton.1 hp]
    · rw [hk, if_neg (by decide), List.append_nil] at hp
      exact h.upper k r' hr p hp
  · rw [hm.paymentsOf] at hne ⊢
    rcases hm.row_cases hr' with ⟨hk, hblm, -⟩ | ⟨hk, hr⟩
    · rw [if_pos hk]
      exact ⟨row, List.mem_append_right _ (List.mem_singleton.2 rfl), hblm.symm⟩
    · rw [hk, if_neg (by decide), List.append_nil] at hne ⊢
      exact h.attained k r' hr hne
  · rcases hm.row_cases hr' with ⟨hk, hblm, -⟩ | ⟨-, hr0⟩
    · rw [hblm]
      exact honTime k r hk hr
    · cases hr.symm.trans hr0
      exact le_refl _

/-- so does an effect that stores no payment and moves no balance -/
theorem TimeInv.unmoved (h : TimeInv s.db) (hl : LedgerInv s) {ids : List (Sequence × ℤ)}
    (hp : db'.payment = s.db.payment) (hrows : ∀ k r', db'.findAccount k = some r' → OldOrNew s.db ids k r') :
    TimeInv db' ∧ NeverBack s.db db' := by
  have hpo : ∀ k, db'.paymentsOf k = s.db.paymentsOf k := by
    intro k
    unfold Tables.paymentsOf
    rw [hp]
  refine ⟨⟨by rw [hp]; exact h.ordered, fun k r' hr' p hpk => ?_, fun k r' hr' hne => ?_⟩, fun k r r' hr hr' => ?_⟩
  · rw [hpo] at hpk
    rcases hrows k r' hr' with ⟨q, hq, -, hblm⟩ | ⟨hnone, -, -⟩
    · rw [hblm]
      exact h.upper k q hq p hpk
    · rw [hl.paymentsOf_missing hnone] at hpk
      cases hpk
  · rw [hpo] at hne ⊢
    rcases hrows k r' hr' with ⟨q, hq, -, hblm⟩ | ⟨hnone, -, -⟩
    · rw [hblm]
      exact h.attained k q hq hne
    · exact absurd (hl.paymentsOf_missing hnone) hne
  · rcases hrows k r' hr' with ⟨q, hq, -, hblm⟩ | ⟨hnone, -, -⟩
    · cases hr.symm.trans hq
      exact hblm.ge
    · rw [hnone] at hr
      cases hr

end Effects

/-- what a step does to the tables keeps the time order, and no BALANCE_LAST_MODIFIED goes back -/
theorem step_timeInv (ops : List Op) (o : Op) (hh : HeldOnTime (run ops)) (h : TimeInv (run ops).db) :
    TimeInv (step (run ops) o).db ∧ NeverBack (run ops).db (step (run ops) o).db := by
  have hl := run_ledger ops
  rcases step_commit ops o with ⟨hdb, -⟩ | ⟨i, t, a, -, hs, -, -, hview, he, -, -⟩
  · rw [hdb]
    refine ⟨h, fun k r r' hr hr' => ?_⟩
    cases hr.symm.trans hr'
    exact le_refl _
  · rcases effect_cases he with ⟨hreq, -, hm, hrec⟩ | ⟨-, hp, hrows⟩
    · exact h.payment hl hm fun k r hk hr => moved_onTime hh hs hreq (hview ▸ hm) hrec hk hr
    · exact h.unmoved hl hp hrows

/-- an operation on time lets payments hold only rows changed no later than their clock values -/
theorem step_heldOnTime (ops : List Op) (o : Op) (ho : onTime (run ops) o = true) (h : HeldOnTime (run ops)) :
    HeldOnTime (step (run ops) o) := by
  have hinv := run_inv ops
  have hm := step_move (run ops) o
  generalize step (run ops) o = s' at hm ⊢
  intro j u now np k r hu hq hown hr
  cases hm with
  | idle => exact h j u now np k r hu hq hown hr
  | @begin i rq hs =>
    obtain ⟨v, hv⟩ := hinv.owned k j hown
    rcases RowLock.slot_update hu with ⟨rfl, -⟩ | ⟨-, hu⟩
    · rw [hs] at hv; cases hv
    · exact h j u now np k r hu hq hown hr
  | @sent i t c f hs hrest hb =>
    rcases RowLock.slot_update hu with ⟨rfl, hx⟩ | ⟨hj, hu⟩
    · cases hx
      rcases RowLock.grant_cases hown with hown | ⟨-, hk, -⟩
      · exact h j t now np k r hs hq hown hr
      · by_cases hold : (run ops).owner k = some j
        · exact h j t now np k r hs hq hold hr
        · exact onTime_lock ho hs hq hrest hb hk hold hr
    · exact h j u now np k r hu hq ((RowLock.grant_other hb hj k).1 hown) hr
  | @drew i t q f hs hrest =>
    rcases RowLock.slot_update hu with ⟨rfl, hx⟩ | ⟨-, hu⟩
    · cases hx
      exact h j t now np k r hs hq hown hr
    · exact h j u now np k r hu hq hown hr
  | @timedOut i t c f hs hrest hb =>
    rcases RowLock.slot_update hu with ⟨rfl, hx⟩ | ⟨-, hu⟩
    · cases hx
      exact h j t now np k r hs hq hown hr
    · exact h j u now np k r hu hq hown hr
  | @committed i t a hs hrest =>
    rcases RowLock.slot_update hu with ⟨-, hx⟩ | ⟨hj, hu⟩
    · cases hx
    · have hown' := (RowLock.release_iff.1 hown).1
      have hlook := RowLock.commit_look hinv hs hj hown'
      refine h j u now np k r hu hq hown' ?_
      exact (congrArg Prod.fst hlook).trans hr
  | @rolledBack i t e hs hrest =>
    rcases RowLock.slot_update hu with ⟨-, hx⟩ | ⟨-, hu⟩
    · cases hx
    · exact h j u now np k r hu hq (RowLock.release_iff.1 hown).1 hr

theorem punctual_inv {ops : List Op} (h : punctual ops = true) :
    ∀ pre, pre <+: ops → HeldOnTime (run pre) ∧ TimeInv (run pre).db := by
  apply along_induction h (P := fun s => HeldOnTime s ∧ TimeInv s.db)
  · refine ⟨?_, timeInv_init⟩
    intro i t now np k r hs
    cases hs
  · rintro pre o ho ⟨hh, ht⟩
    exact ⟨step_heldOnTime pre o ho hh, (step_timeInv pre o hh ht).1⟩

/-- a payment that commits later than its clock value says sets the row back to that value -/
theorem commit_sets_back (ops : List Op) {i : ℕ} {t : Session} {a : Response}
    {now : LocalDateTime} {np : NewPayment} (hs : (run ops).slot i = .running t) (hr : t.rest = .done a)
    (hq : t.req = .createPayment now np) {k : ℤ}
    (hk : np.withdrawalAccountId = some k ∨ np.depositAccountId = some k) :
    ∃ r', (step (run ops) (.commit i)).db.findAccount k = some r' ∧
      r'.balanceLastModified = Timestamp3.ofLocalDateTime now := by
  obtain ⟨amount, row, w, d, w', d', hm, hrec⟩ := commit_moved ops hs hr hq
  rw [hm.findAccount]
  rcases hk with hk | hk
  · cases hk.symm.trans hrec.withdrawal
    refine ⟨w', if_pos rfl, ?_⟩
    rw [hm.withdrawalRow]
    exact hrec.processed
  · cases hk.symm.trans hrec.deposit
    refine ⟨d', by rw [if_neg hm.different.symm, if_pos rfl], ?_⟩
    rw [hm.depositRow]
    exact hrec.processed

/-- **Time order of punctual runs.** -/
theorem ledger_time_order (ops : List Op) :
    (punctual ops = true → ∀ pre, pre <+: ops → TimeOrdered (run pre).db ∧
      ∀ o, pre ++ [o] <+: ops → NeverBack (run pre).db (run (pre ++ [o])).db) ∧
    ∀ i t a now np, (run ops).slot i = .running t → t.rest = .done a → t.req = .createPayment now np →
      ∀ k r, (np.withdrawalAccountId = some k ∨ np.depositAccountId = some k) → (run ops).db.findAccount k = some r →
        Timestamp3.ofLocalDateTime now < r.balanceLastModified →
        ¬ NeverBack (run ops).db (step (run ops) (.commit i)).db := by
  refine ⟨fun h pre hp => ?_, fun i t a now np hs hr hq k r hk hfind hlate hback => ?_⟩
  · obtain ⟨hh, ht⟩ := punctual_inv h pre hp
    refine ⟨ht.timeOrdered (run_ledger pre).keys, fun o _ => ?_⟩
    rw [run_snoc]
    exact (step_timeInv pre o hh ht).2
  · obtain ⟨r', hr', hblm⟩ := commit_sets_back ops hs hr hq hk
    have hle := hback k r r' hfind hr'
    rw [hblm] at hle
    exact absurd hle (not_le.2 hlate)

/-! ## A payment that waited -/

/-- the clock value that a request captures when it begins -/
def clockValue : Op → Option LocalDateTime
  | .begin _ (.createPayment now _) | .begin _ (.createAccount now _) => some now
  | _ => none

/-- two payments begin, on the first and on the second of the month, and run one after the other in the given order -/
def twoPayments (first second : ℕ) : List Op :=
  [.begin 0 (.createPayment firstOf2020 (pay ⟨1, 0⟩)), .begin 1 (.createPayment secondOf2020 (pay ⟨1, 0⟩))] ++
    toCommit first ++ toCommit second

theorem ledger_time_order_in_turn : TimeOrdered (run (twoPayments 0 1)).db :=
  (((ledger_time_order (twoPayments 0 1)).1 (by decide)) _ List.prefix_rfl).1

theorem late_payment :
    ¬ ∀ ops, (ops.filterMap clockValue).Pairwise (· ≤ ·) → TimeOrdered (run ops).db := by
  intro h
  have hordered := (h (twoPayments 1 0) (by decide)).ordered
  exact absurd hordered (by decide)

end BankServices.Service
