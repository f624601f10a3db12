/-
The money in the bank: the sum of all balances, over every run.

- `run_supply`: it is the opening balances of the accounts that exist, plus one cent for every committed payment of a
  half cent. A step that raises it commits such a payment, and adds that cent. A step that lowers it commits the deletion
  of a migrated account that never had a payment, and takes away its opening balance.
- `payment_fails_iff`, `run_failed_payment`: a balance cannot overflow its column before some 10^16 payments of half a
  cent. Until then a payment alone is answered 500 exactly when it passes all checks and is of less than half a cent,
  and no payment of a larger amount is ever answered 500, whatever runs beside it.
-/
import BankServices.Service.Books
import BankServices.Service.ExactlyOnce
import BankServices.Service.Linearized

namespace BankServices.Service

open BankServices.Java BankServices.Txn BankServices.Storage BankServices.Webapp BankServices.Api
open BankServices.Api.PaymentEndpoint

/-! ## Definitions -/

/-- the opening balances of the accounts that exist -/
def openings (db : Tables) : ℤ := (db.account.map fun r => opening r.accountId).sum

/-- the cents that a committed request adds to the sum of all balances -/
def Request.minted : Request → ℤ
  | .createPayment _ np => if HalfCent (np.amount.getD .zero) then 1 else 0
  | _ => 0

def minted (log : List (Request × List (Sequence × ℤ))) : ℤ := (log.map fun e => e.1.minted).sum

/-- the opening balance that a committed request takes out of the bank -/
def Request.withdrawn : Request → ℤ
  | .deleteAccount k => opening k
  | _ => 0

/-- the step commits a payment of a half cent, and adds a cent -/
def Mints (ops : List Op) (o : Op) : Prop := ∃ i t a, Committed (run ops) (step (run ops) o) i t a ∧
  t.req.OfHalfCent ∧ total (step (run ops) o).db = total (run ops).db + 1

/-- the step commits the deletion of a migrated account that never had a payment, with its opening balance -/
def Loses (ops : List Op) (o : Op) : Prop := ∃ i t a k r, Committed (run ops) (step (run ops) o) i t a ∧
  t.req = .deleteAccount k ∧ migrated.findAccount k = some r ∧
  (∀ pre, pre <+: ops → (run pre).db.paymentsOf k = []) ∧
  total (step (run ops) o).db = total (run ops).db - r.balance.cents

/-! ## One effect -/

theorem minted_snoc (log : List (Request × List (Sequence × ℤ))) (e : Request × List (Sequence × ℤ)) :
    minted (log ++ [e]) = minted log + e.1.minted := by
  simp [minted]

theorem surplus_unpaid {s : St} (h : LedgerInv s) {k : ℤ} (hk : s.db.paymentsOf k = []) : surplus s.log k = 0 := by
  unfold surplus
  refine List.sum_eq_zero fun x hx => ?_
  obtain ⟨e, he, rfl⟩ := List.mem_map.1 hx
  by_contra hne
  obtain ⟨-, now, np, hr, hw⟩ := request_surplus_ne_zero hne
  obtain ⟨p, hp, amount, hrec⟩ := h.recorded now np e.2 (by rw [← hr]; exact he)
  exact List.filter_eq_nil_iff.1 hk p hp (names_refers (Or.inl hw) hrec)

/-- an account without payments has its opening balance -/
theorem balance_unpaid (ops : List Op) {k : ℤ} {r : AccountRow} (hr : (run ops).db.findAccount k = some r)
    (hp : (run ops).db.paymentsOf k = []) : r.balance.cents = opening k := by
  rw [run_books ops k r hr, deposits_none hp, withdrawals_none hp, surplus_unpaid (run_ledger ops) hp]
  ring

theorem opening_created {k : ℤ} (h : 3 ≤ k) : opening k = 0 := by
  have hmig : migrated.findAccount k = none := by
    by_contra hsome
    have := migrated_lt (Option.isSome_iff_ne_none.2 hsome)
    omega
  unfold opening
  rw [hmig]
  rfl

section Effects

variable {db db' : Tables} {r : Request} {ids : List (Sequence × ℤ)} {a : Response}

theorem openings_replace (db : Tables) {db' : Tables} {q : AccountRow}
    (h : db'.account = KeyedList.replace AccountRow.accountId db.account q) : openings db' = openings db := by
  have hkeys : (KeyedList.replace AccountRow.accountId db.account q).map AccountRow.accountId = _ :=
    KeyedList.map_key_replace _ _
  unfold openings
  rw [show (fun r : AccountRow => opening r.accountId) = opening ∘ AccountRow.accountId from rfl, ← List.map_map,
    ← List.map_map, h, hkeys]

/-- an effect adds its half cents, and takes away what it deletes -/
theorem effect_total (h : Effect db r ids a db') (hkeys : (db.account.map AccountRow.accountId).Nodup)
    (hn : NonNegative db)
    (hunpaid : ∀ k q, db.findAccount k = some q → db.paymentsOf k = [] → q.balance.cents = opening k) :
    total db' = total db + r.minted - r.withdrawn := by
  cases h with
  | @payment now np p w d w' d' row x hacc hwr =>
    obtain ⟨hm, hrec, -⟩ := moved_of_written hacc hwr
    have hminted : (Request.createPayment now np).minted = if HalfCent p.amount then 1 else 0 := by
      show (if HalfCent (np.amount.getD .zero) then (1 : ℤ) else 0) = _
      rw [hrec.amount, Option.getD_some]
    rw [total_moved hkeys hm (hn _ d hm.deposit), hminted]
    exact (sub_zero _).symm
  | @created now na acc row x hv hs =>
    obtain ⟨-, -, -, hbalance, -, -, -⟩ := accountRow_ok_iff.1 hs
    obtain ⟨rfl, -⟩ := AccountEndpoint.checkedAccount_ok_iff.1 hv
    have hzero : row.balance.cents = 0 := by
      rw [hbalance]
      show halfUpCents .zero = 0
      decide
    unfold total
    show ((db.account ++ [row]).map _).sum = _ + 0 - 0
    simp [hzero]
  | @updated u n c i q r' hv hf hs =>
    obtain ⟨name, comment, -, -, rfl⟩ := profileRow_ok_iff.1 hs
    have hid := findAccount_id hf
    have hfind : KeyedList.lookup AccountRow.accountId db.account q.accountId = some q := by
      rw [hid]
      exact hf
    unfold total
    show ((KeyedList.replace AccountRow.accountId db.account _).map _).sum = _ + 0 - 0
    rw [KeyedList.sum_replace (a := { q with ownerName := name, comment := comment }) hkeys hfind]
    ring
  | @deleted i q hf hp =>
    unfold total
    show ((KeyedList.remove AccountRow.accountId db.account i).map _).sum = _ + 0 - opening i
    rw [KeyedList.sum_remove hkeys hf, hunpaid i q hf hp]
    ring

theorem opening_nonneg (k : ℤ) : 0 ≤ opening k := by
  unfold opening
  cases hr : migrated.findAccount k with
  | none => exact le_refl _
  | some r => exact ledger_init.nonneg k r hr

theorem Request.withdrawn_nonneg (r : Request) : 0 ≤ r.withdrawn := by
  cases r with
  | deleteAccount k => exact opening_nonneg k
  | _ => exact le_refl _

/-- no effect opens an account with money -/
theorem effect_openings (h : Effect db r ids a db') (hkeys : (db.account.map AccountRow.accountId).Nodup)
    (hdrawn : ∀ x, (Sequence.account, x) ∈ ids → 3 ≤ x) : openings db' = openings db - r.withdrawn := by
  cases h with
  | @payment now np p w d w' d' row x hacc hwr =>
    refine Eq.trans ?_ (sub_zero _).symm
    exact (openings_replace (applyWrite (applyWrite db (.addPayment row)) (.putAccount w')) rfl).trans
      (openings_replace db rfl)
  | @created now na acc row x hv hs =>
    have hopen : opening row.accountId = 0 :=
      opening_created (by rw [(accountRow_ok_iff.1 hs).1]; exact hdrawn x List.mem_cons_self)
    unfold openings
    show ((db.account ++ [row]).map _).sum = _ - 0
    simp [hopen]
  | updated hv hf hs => exact (openings_replace db rfl).trans (sub_zero _).symm
  | @deleted i q hf hp =>
    unfold openings
    show ((KeyedList.remove AccountRow.accountId db.account i).map _).sum = _ - opening i
    rw [KeyedList.sum_remove hkeys hf, findAccount_id hf]

theorem effect_free {k : ℤ} (h : Effect db (.deleteAccount k) ids a db') : db.paymentsOf k = [] := by
  cases h with
  | deleted hf hp => exact hp

end Effects

/-! ## Every run -/

theorem Request.minted_nonneg (r : Request) : 0 ≤ r.minted := by
  cases r with
  | createPayment now np =>
    show (0 : ℤ) ≤ if HalfCent (np.amount.getD .zero) then 1 else 0
    split_ifs
    · exact zero_le_one
    · exact le_refl _
  | _ => exact le_refl _

/-- what a commit does to the money in the bank, and to the opening balances in it -/
theorem commit_total {ops : List Op} {o : Op} {i : ℕ} {t : Session} {a : Response}
    (hc : Committed (run ops) (step (run ops) o) i t a) :
    total (step (run ops) o).db = total (run ops).db + t.req.minted - t.req.withdrawn ∧
      openings (step (run ops) o).db = openings (run ops).db - t.req.withdrawn := by
  have hl := run_ledger ops
  exact ⟨effect_total hc.effect hl.keys hl.nonneg fun k q => balance_unpaid ops,
    effect_openings hc.effect hl.keys fun x hx => ((run_drawn ops).opened i t hc.running _ hx).1⟩

/-- the money that is not an opening balance was paid in half cents -/
theorem run_unopened (ops : List Op) : total (run ops).db - openings (run ops).db = minted (run ops).log := by
  apply run_induction (P := fun s => total s.db - openings s.db = minted s.log)
  · decide
  · intro ops o ih
    rcases step_commit ops o with ⟨hdb, hlog⟩ | ⟨i, t, a, -, hc⟩
    · rw [hdb, hlog]
      exact ih
    · obtain ⟨htotal, hopen⟩ := commit_total hc
      rw [hc.log, minted_snoc, ← ih, htotal, hopen]
      ring

/-- money comes in by a half cent -/
theorem raise_mints {ops : List Op} {o : Op} (h : total (run ops).db < total (step (run ops) o).db) : Mints ops o := by
  rcases step_commit ops o with ⟨hdb, -⟩ | ⟨i, t, a, -, hc⟩
  · rw [hdb] at h
    exact absurd h (lt_irrefl _)
  · have htotal := (commit_total hc).1
    have hout := t.req.withdrawn_nonneg
    have hpos : 0 < t.req.minted := by omega
    refine ⟨i, t, a, hc, ?_⟩
    cases hreq : t.req with
    | createPayment now np =>
      rw [hreq] at hpos htotal
      have hminted : (Request.createPayment now np).minted = if HalfCent (np.amount.getD .zero) then 1 else 0 := rfl
      have hhalf : HalfCent (np.amount.getD .zero) := by
        by_contra hno
        rw [hminted, if_neg hno] at hpos
        exact lt_irrefl _ hpos
      obtain ⟨p, amount, -, -, hrec⟩ := effect_paid (hreq ▸ hc.effect)
      rw [hrec.amount, Option.getD_some] at hhalf
      refine ⟨⟨amount, hrec.amount, hhalf⟩, ?_⟩
      rw [htotal, hminted, hrec.amount, Option.getD_some, if_pos hhalf]
      exact sub_zero _
    | _ =>
      rw [hreq] at hpos
      exact absurd hpos (lt_irrefl _)

/-- money goes out with a migrated account that never had a payment -/
theorem fall_loses {ops : List Op} {o : Op} (h : total (step (run ops) o).db < total (run ops).db) : Loses ops o := by
  rcases step_commit ops o with ⟨hdb, -⟩ | ⟨i, t, a, -, hc⟩
  · rw [hdb] at h
    exact absurd h (lt_irrefl _)
  · have htotal := (commit_total hc).1
    have hin := t.req.minted_nonneg
    have hpos : 0 < t.req.withdrawn := by omega
    cases hreq : t.req with
    | deleteAccount k =>
      rw [hreq] at hpos htotal
      have hwithdrawn : (Request.deleteAccount k).withdrawn = opening k := rfl
      cases hmig : migrated.findAccount k with
      | none =>
        rw [hwithdrawn, opening, hmig] at hpos
        exact absurd hpos (lt_irrefl _)
      | some r =>
        have hfree : (run ops).db.paymentsOf k = [] := effect_free (hreq ▸ hc.effect)
        refine ⟨i, t, a, k, r, hc, hreq, hmig, fun pre hpre => ?_, ?_⟩
        · obtain ⟨more, rfl⟩ := hpre
          refine List.filter_eq_nil_iff.2 fun p hp => ?_
          exact List.filter_eq_nil_iff.1 hfree p ((payments_kept pre more).subset hp)
        · rw [htotal, hwithdrawn, opening, hmig]
          exact congrArg (· - _) (add_zero _)
    | _ =>
      rw [hreq] at hpos
      exact absurd hpos (lt_irrefl _)

/-- **Supply.** The money in the bank is the opening balances of the accounts that exist, and the half cents paid. A
step raises it by a half cent only, and lowers it by a deletion only. -/
theorem run_supply (ops : List Op) :
    total (run ops).db = openings (run ops).db + minted (run ops).log ∧
      ∀ o, (total (run ops).db < total (step (run ops) o).db → Mints ops o) ∧
        (total (step (run ops) o).db < total (run ops).db → Loses ops o) :=
  ⟨sub_eq_iff_eq_add'.1 (run_unopened ops), fun _ => ⟨raise_mints, fall_loses⟩⟩

theorem openings_le (ops : List Op) : openings (run ops).db ≤ total migrated := by
  apply run_induction (P := fun s => openings s.db ≤ total migrated)
  · decide
  · intro ops o ih
    rcases step_commit ops o with ⟨hdb, -⟩ | ⟨i, t, a, -, hc⟩
    · rw [hdb]
      exact ih
    · rw [(commit_total hc).2]
      exact (sub_le_self _ t.req.withdrawn_nonneg).trans ih

theorem minted_mono {pre ops : List Op} (h : pre <+: ops) : minted (run pre).log ≤ minted (run ops).log := by
  obtain ⟨later, rfl⟩ := h
  induction later using List.reverseRecOn with
  | nil => rw [List.append_nil]
  | append_singleton later o ih =>
    rw [← List.append_assoc, run_snoc]
    rcases step_commit (pre ++ later) o with ⟨-, hlog⟩ | ⟨i, t, a, -, hc⟩
    · rw [hlog]
      exact ih
    · rw [hc.log, minted_snoc]
      exact ih.trans (le_add_of_nonneg_right t.req.minted_nonneg)

/-! ## Overflow -/

/-- two balances are no more than all balances -/
theorem pair_le_total {db : Tables} (hkeys : (db.account.map AccountRow.accountId).Nodup) (hn : NonNegative db)
    {i j : ℤ} {r q : AccountRow} (hr : db.findAccount i = some r) (hq : db.findAccount j = some q) (hne : i ≠ j) :
    r.balance.cents + q.balance.cents ≤ total db := by
  have hsum := KeyedList.sum_remove hkeys hr fun r => r.balance.cents
  have hmem : q ∈ KeyedList.remove AccountRow.accountId db.account i := by
    refine List.mem_filter.2 ⟨findAccount_mem hq, decide_eq_true ?_⟩
    rw [findAccount_id hq]
    exact hne.symm
  have hle : q.balance.cents ≤
      ((KeyedList.remove AccountRow.accountId db.account i).map fun r => r.balance.cents).sum := by
    refine List.single_le_sum (fun x hx => ?_) _ (List.mem_map_of_mem hmem)
    obtain ⟨p, hp, rfl⟩ := List.mem_map.1 hx
    exact hn _ p (KeyedList.lookup_of_mem hkeys (List.mem_of_mem_filter hp))
  unfold total
  omega

/-- while the money in the bank is below the limit, what a payer can afford the payee can hold -/
theorem payee_has_room (ops : List Op) (hroom : total migrated + minted (run ops).log < Bank.limit) {i j : ℤ}
    {w d : AccountRow} (hw : (run ops).db.findAccount i = some w) (hd : (run ops).db.findAccount j = some d)
    (hne : i ≠ j) {cents : ℤ} (hfunds : cents ≤ w.balance.cents) : d.balance.cents + cents < Bank.limit := by
  have hl := run_ledger ops
  have hpair := pair_le_total hl.keys hl.nonneg hw hd hne
  have hsupply := run_unopened ops
  have hopen := openings_le ops
  omega

/-- **Failures.** -/
theorem payment_fails_iff (ops : List Op) (hroom : total migrated + minted (run ops).log < Bank.limit)
    (now : LocalDateTime) (np : NewPayment) :
    (answer (alone (.createPayment now np) (run ops)).1).status = .INTERNAL_SERVER_ERROR ↔
      ∃ p w d, Accepts (run ops).db now np p w d ∧ p.amount.toRat < 5 / 1000 := by
  have hn := (run_ledger ops).nonneg
  constructor
  · intro hst
    have hno : ¬ FitsColumns (run ops).db now np := fun h => ((createPayment_agrees hn np).2 h).2 hst
    unfold FitsColumns at hno
    push Not at hno
    obtain ⟨p, w, d, hacc, hsmall⟩ := hno
    refine ⟨p, w, d, hacc, ?_⟩
    by_contra hle
    obtain ⟨-, -, hpos, -, -, -, -, hne⟩ := validated_ok_iff.1 hacc.valid
    have hfits := payee_has_room ops hroom hacc.withdrawal hacc.deposit hne (halfUpCents_le hpos.le hacc.funds)
    exact absurd hfits (not_lt.2 (hsmall (not_lt.1 hle)))
  · rintro ⟨p, w, d, hacc, hsmall⟩
    have hpos := (validated_ok_iff.1 hacc.valid).2.2.1
    cases hs : written (run ops).db ((run ops).seq .payment) p w d with
    | error e =>
      rw [(alone_refused hacc hs).1]
      rfl
    | ok x =>
      have hcents := ((written_fits _ hacc (hn _ d hacc.deposit)).1 ⟨x, hs⟩).1
      rw [halfUpCents_pos_iff hpos] at hcents
      exact absurd hsmall (not_lt.2 hcents)

theorem tiny_payment_fails : (answer (alone (.createPayment firstOf2020 (pay ⟨4, 3⟩)) (run [])).1).status =
    .INTERNAL_SERVER_ERROR :=
  (payment_fails_iff [] (by decide) _ _).2 ⟨⟨firstOf2020, ⟨4, 3⟩, 0, 1, none⟩, _, _, ⟨rfl, rfl, rfl, by decide +kernel⟩, by
    unfold BigDecimal.toRat
    norm_num⟩

/-- the bank fails at a payment of no cent only -/
theorem fails_small {ops : List Op} (hroom : total migrated + minted (run ops).log < Bank.limit) {now : LocalDateTime}
    {np : NewPayment} (h : Fails (Bank.bank (run ops).db) (.createPayment now np)) :
    ∃ amount, np.amount = some amount ∧ 0 < amount.toRat ∧ amount.toRat < 5 / 1000 := by
  obtain ⟨o, p, q, ho, hparties, hfunds, hcause⟩ := h
  obtain ⟨hne, amount, hamount, heq, hpos⟩ := Bank.orderOf_valid ho
  obtain ⟨hp, hq⟩ := Bank.parties_ok hparties
  obtain ⟨w, hw, rfl⟩ := Option.map_eq_some_iff.1 hp
  obtain ⟨d, hd, rfl⟩ := Option.map_eq_some_iff.1 hq
  refine ⟨amount, hamount, heq ▸ hpos, ?_⟩
  have hreceived : Bank.received o.amount ≤ w.balance.cents := by
    have hfloor : Bank.received o.amount < w.balance.cents + 1 := by
      refine Int.floor_lt.2 ?_
      have : o.amount * 100 ≤ w.balance.cents := hfunds
      push_cast
      linarith
    omega
  have hfits := payee_has_room ops hroom hw hd hne hreceived
  have hnone := hcause.resolve_right (not_le.2 hfits)
  have hsmall : o.amount * 100 + 1 / 2 < 1 := by
    have hfloor : Bank.received o.amount < 1 := by omega
    exact_mod_cast Int.floor_lt.1 hfloor
  rw [heq]
  linarith

/-- **Failed payments.** In a run that stays below the limit, a payment answered 500 was of less than half a cent. -/
theorem run_failed_payment (ops : List Op) (hroom : total migrated + minted (run ops).log < Bank.limit) (i : ℕ)
    (now : LocalDateTime) (np : NewPayment) (out : Except Throwable Response)
    (hs : (run ops).slot i = .finished (.createPayment now np) out)
    (hst : (answer out).status = .INTERNAL_SERVER_ERROR) :
    ∃ amount, np.amount = some amount ∧ 0 < amount.toRat ∧ amount.toRat < 5 / 1000 := by
  rcases (explained hs).internalError hst with ⟨-, hrow⟩ | ⟨pre, hp, -, hfails⟩
  · exact absurd hrow id
  · have hmono := minted_mono hp
    exact fails_small (by omega) hfails

/-- a payment of 0.004 -/
def smallPayment : List Op :=
  .begin 0 (.createPayment firstOf2020 (pay ⟨4, 3⟩)) :: List.replicate 6 (.exec 0) ++ [.rollback 0]

theorem smallPayment_failed :
    ∃ amount, (pay ⟨4, 3⟩).amount = some amount ∧ 0 < amount.toRat ∧ amount.toRat < 5 / 1000 :=
  run_failed_payment smallPayment (by decide) 0 firstOf2020 _ _ (by rfl) (by rfl)

end BankServices.Service
