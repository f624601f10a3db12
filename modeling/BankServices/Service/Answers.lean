/-
The answers of `AccountEndpoint.update` and `delete` under contention.

- `answers_documented_iff`: in every run their answers are the documented ones exactly when no statement of theirs runs
  into the lock timeout and no delete executes on an account that has payments.
- `refused_internalError`: in these two cases the answer is 500. `PaymentEndpoint` turns a lock timeout into a 409, the
  account operations throw the storage failure on.
- `locked_update_500`: a run in which an update waits for a row that a payment has locked, and is answered 500.
-/
import BankServices.Service.Ledger

namespace BankServices.Service

open BankServices.Java BankServices.Txn BankServices.Storage BankServices.Webapp BankServices.Api
open JooqAwareValidationUtils AccountEndpoint

/-! ## Definitions -/

/-- the documented answers of an update or a deletion -/
def documented : Request → List Status
  | .updateAccount _ => [.OK, .NOT_MODIFIED, .BAD_REQUEST, .CONFLICT]
  | .deleteAccount _ => [.OK, .NOT_MODIFIED, .CONFLICT]
  | _ => []

/-- the outcome of a request whose program has ended, or whose transaction has -/
def outcome : RowLock.Slot Statement Answer Sequence Throwable Response Write Request →
    Option (Request × Except Throwable Response)
  | .free => none
  | .running t =>
    match t.rest with
    | .done a => some (t.req, .ok a)
    | .fail e => some (t.req, .error e)
    | _ => none
  | .finished r out => some (r, out)

/-- every update and every deletion that has ended is answered as documented -/
def Documented (s : St) : Prop :=
  ∀ i r out, outcome (s.slot i) = some (r, out) → r.OfRow → (answer out).status ∈ documented r

/-- the operation lets the statement of an update or a deletion time out, or executes a deletion of an account that has
payments -/
def refused (s : St) : Op → Bool
  | .timeout i =>
    match s.slot i with
    | .running t =>
      match t.req, t.rest with
      | .updateAccount _, .send c _ | .deleteAccount _, .send c _ => RowLock.blocked h2 s i c
      | _, _ => false
    | _ => false
  | .exec i =>
    match s.slot i with
    | .running t =>
      match t.req, t.rest with
      | .deleteAccount k, .send c _ => !RowLock.blocked h2 s i c && decide (s.db.paymentsOf k ≠ [])
      | _, _ => false
    | _ => false
  | _ => false

/-- no operation of the run is refused -/
def unrefused (ops : List Op) : Bool := along (fun s o => !refused s o) ops

/-! ## The one statement -/

/-- the program of an update or a deletion: a 400, or one statement and the answer to its count -/
inductive RowBody : Request → Tx Response → Prop where
  | rejected {u : UpdateAccount} {t : Throwable} (bad : BadRequest t) : RowBody (.updateAccount u) (.fail t)
  | updates {u : UpdateAccount} {n c : Option JavaString} {i : ℤ} (valid : checkedUpdate u = .ok (n, c, i)) :
      RowBody (.updateAccount u) (.send (.updateProfile i n c) answered)
  | deletes {i : ℤ} : RowBody (.deleteAccount i) (.send (.deleteAccount i) answered)

theorem body_row {r : Request} (h : r.OfRow) : RowBody r (body r) := by
  cases r with
  | createPayment now np => exact absurd h id
  | createAccount now na => exact absurd h id
  | updateAccount u =>
    rcases hv : checkedUpdate u with t | ⟨n, c, i⟩
    · rw [show body (.updateAccount u) = .fail t from update_eq_fail hv]
      exact .rejected (checkedUpdate_error hv)
    · rw [show body (.updateAccount u) = .send (.updateProfile i n c) answered from update_eq hv]
      exact .updates hv
  | deleteAccount i =>
    rw [show body (.deleteAccount i) = .send (.deleteAccount i) answered from delete_eq i]
    exact .deletes

/-- an update or a deletion that is open has sent nothing yet, or has nothing left to send -/
def OneStatement (s : St) : Prop := ∀ i t, s.slot i = .running t → t.req.OfRow →
  (t.rest = body t.req ∧ t.writes = []) ∨ t.rest.Settled

section Unsent

variable {s : St} {i : ℕ} {t : Session}

/-- an update or a deletion about to send its statement has sent nothing -/
theorem OneStatement.unsent (h : OneStatement s) (hs : s.slot i = .running t) (hq : t.req.OfRow) {c : Statement}
    {f : Answer c → Tx Response} (hr : t.rest = .send c f) : RowBody t.req (.send c f) ∧ t.writes = [] := by
  rcases h i t hs hq with ⟨hrest, hw⟩ | hset
  · have hbody := body_row hq
    rw [← hrest, hr] at hbody
    exact ⟨hbody, hw⟩
  · rw [hr] at hset
    exact absurd hset id

theorem OneStatement.no_draw (h : OneStatement s) (hs : s.slot i = .running t) (hq : t.req.OfRow) {q : Sequence}
    {f : ℤ → Tx Response} : t.rest ≠ .draw q f := by
  intro hr
  rcases h i t hs hq with ⟨hrest, -⟩ | hset
  · have hbody := body_row hq
    rw [← hrest, hr] at hbody
    generalize t.req = r at hbody
    cases hbody
  · rw [hr] at hset
    exact absurd hset id

end Unsent

theorem rowBody_settled {r : Request} {c : Statement} {f : Answer c → Tx Response} (h : RowBody r (.send c f))
    (a : Answer c) : (f a).Settled := by
  cases h with
  | updates => exact answered_settled a
  | deletes => exact answered_settled a

theorem run_oneStatement (ops : List Op) : OneStatement (run ops) := by
  apply run_induction
  · intro i t ht
    cases ht
  · intro ops o h i u hu hq
    rcases RowLock.step_running _ o hu with hs | ⟨r, rfl⟩ | ⟨t, hs, hadv⟩
    · exact h i u hs hq
    · exact Or.inl ⟨rfl, rfl⟩
    · cases hadv with
      | sent hr hb => exact Or.inr (rowBody_settled (h.unsent hs hq hr).1 _)
      | drew hr => exact absurd hr (h.no_draw hs hq)
      | timedOut hr hb => exact Or.inr (rowBody_settled (h.unsent hs hq hr).1 _)

/-! ## What the statement is answered -/

theorem outcome_running {t : Session} {r : Request} {out : Except Throwable Response} :
    outcome (.running t) = some (r, out) ↔ t.req = r ∧ t.rest = Prog.ofExcept out := by
  obtain ⟨req, ids, rest, ws⟩ := t
  simp only [outcome]
  cases rest with
  | done a => cases out <;> simp [Prog.ofExcept]
  | fail e => cases out <;> simp [Prog.ofExcept]
  | send c f => cases out <;> simp [Prog.ofExcept]
  | draw q f => cases out <;> simp [Prog.ofExcept]

theorem answered_ofExcept {x : Except DataAccessException ℕ} {out : Except Throwable Response}
    (h : answered x = Prog.ofExcept out) :
    (∃ n, x = .ok n ∧ out = .ok (rowsResponse n)) ∨ ∃ e, x = .error e ∧ out = .error (.dataAccessException e) := by
  cases x with
  | ok n => cases out <;> simp_all [answered, Prog.ofExcept]
  | error e => cases out <;> simp_all [answered, Prog.ofExcept]

/-- 200 and 304 are documented for both -/
theorem rowsResponse_documented {r : Request} (h : r.OfRow) (n : ℕ) : (rowsResponse n).status ∈ documented r := by
  cases r with
  | createPayment now np => exact absurd h id
  | createAccount now na => exact absurd h id
  | updateAccount u =>
    unfold rowsResponse
    split_ifs <;> simp [documented]
  | deleteAccount i =>
    unfold rowsResponse
    split_ifs <;> simp [documented]

/-- an undocumented answer: the internal error -/
theorem internalError_undocumented (r : Request) : Status.INTERNAL_SERVER_ERROR ∉ documented r := by
  cases r <;> simp [documented]

theorem update_never_fails {u : UpdateAccount} {n c : Option JavaString} {i : ℤ} (h : checkedUpdate u = .ok (n, c, i))
    (db : Tables) (e : DataAccessException) : (h2.exec (.updateProfile i n c) db).1 ≠ .error e := by
  show (onRow db i _).1 ≠ _
  cases hr : db.findAccount i with
  | none => simp [onRow_missing hr]
  | some r =>
    obtain ⟨r', hr'⟩ := checkedUpdate_fits h r
    simp [onRow_found hr, hr', wrote, Except.map]

/-- the only failure of a delete is an account that has payments -/
theorem delete_fails_iff (db : Tables) (i : ℤ) : (∃ e, (h2.exec (.deleteAccount i) db).1 = .error e) ↔
    (∃ r, db.findAccount i = some r) ∧ db.paymentsOf i ≠ [] := by
  show (∃ e, (onRow db i _).1 = _) ↔ _
  cases hr : db.findAccount i with
  | none => simp [onRow_missing hr]
  | some r =>
    rw [onRow_found hr]
    cases db.paymentsOf i with
    | nil => simp [dropRow, wrote]
    | cons p ps => simp [dropRow, wrote]

/-! ## Documented answers -/

section Documented

variable {s : St} {i : ℕ} {t : Session} {c : Statement} {f : Answer c → Tx Response} {r : Request}
  {out : Except Throwable Response}

/-- the statement was not refused: its answer is documented -/
theorem sent_documented (hone : OneStatement s) (hs : s.slot i = .running t) (hr : t.rest = .send c f)
    (hq : t.req.OfRow) (hb : RowLock.blocked h2 s i c = false) (ho : refused s (.exec i) = false)
    (hout : f (h2.exec c (h2.view s.db t.writes)).1 = Prog.ofExcept out) :
    (answer out).status ∈ documented t.req := by
  obtain ⟨hbody, hw⟩ := hone.unsent hs hq hr
  have hok : ∀ n, out = .ok (rowsResponse n) → (answer out).status ∈ documented t.req := by
    rintro n rfl
    exact rowsResponse_documented hq n
  rw [hw] at hout
  simp only [refused, hs, hr] at ho
  generalize t.req = r at hbody ho hok
  cases hbody with
  | updates hv =>
    rcases answered_ofExcept hout with ⟨n, -, hn⟩ | ⟨e, he, -⟩
    · exact hok n hn
    · exact absurd he (update_never_fails hv _ e)
  | deletes =>
    rcases answered_ofExcept hout with ⟨n, -, hn⟩ | ⟨e, he, -⟩
    · exact hok n hn
    · have hpay := ((delete_fails_iff _ _).1 ⟨e, he⟩).2
      simp only [hb, Bool.not_false, Bool.true_and, decide_eq_false_iff_not] at ho
      exact absurd hpay ho

theorem begun_documented (hq : r.OfRow) (hout : body r = Prog.ofExcept out) : (answer out).status ∈ documented r := by
  have hbody := body_row hq
  rw [hout] at hbody
  cases out with
  | ok a => cases hbody
  | error e =>
    cases hbody with
    | rejected hbad =>
      show (ThrowableExceptionMapper.toResponse e).status ∈ _
      rw [badRequest_status hbad]
      simp [documented]

/-- a statement of an update or a deletion that waits too long is refused -/
theorem timedOut_refused (hone : OneStatement s) (hs : s.slot i = .running t) (hr : t.rest = .send c f)
    (hq : t.req.OfRow) (hb : RowLock.blocked h2 s i c = true) : refused s (.timeout i) = true := by
  obtain ⟨hbody, -⟩ := hone.unsent hs hq hr
  simp only [refused, hs, hr]
  generalize t.req = r at hbody
  cases hbody with
  | updates => exact hb
  | deletes => exact hb

theorem step_documented (ops : List Op) (o : Op) (ho : refused (run ops) o = false) (h : Documented (run ops)) :
    Documented (step (run ops) o) := by
  have hone := run_oneStatement ops
  intro i r out hout hq
  cases hslot : (step (run ops) o).slot i with
  | free =>
    rw [hslot] at hout
    cases hout
  | running u =>
    rw [hslot] at hout
    obtain ⟨rfl, hrest⟩ := outcome_running.1 hout
    rcases RowLock.step_running _ o hslot with hs | ⟨r, rfl⟩ | ⟨t, hs, hadv⟩
    · rw [← hs] at hout
      exact h i _ _ hout hq
    · exact begun_documented hq hrest
    · cases hadv with
      | sent hr hb =>
        have hdoc := sent_documented hone hs hr hq hb ho hrest
        exact hdoc
      | drew hr => exact absurd hr (hone.no_draw hs hq)
      | timedOut hr hb =>
        have href := timedOut_refused hone hs hr hq hb
        rw [ho] at href
        cases href
  | finished r' out' =>
    rw [hslot] at hout
    cases hout
    rcases RowLock.step_answered _ o hslot with hs | ⟨t, hs, rfl, hans⟩
    · exact h i _ _ (by rw [hs]; rfl) hq
    · refine h i t.req _ ?_ hq
      rw [hs]
      cases hans with
      | committed hr => exact outcome_running.2 ⟨rfl, hr⟩
      | rolledBack hr => exact outcome_running.2 ⟨rfl, hr⟩

/-- the two kinds of refused operations -/
theorem refused_cases {o : Op} (h : refused s o = true) :
    (∃ i t c f, o = .timeout i ∧ s.slot i = .running t ∧ t.rest = .send c f ∧ RowLock.blocked h2 s i c = true ∧
      t.req.OfRow) ∨
    (∃ i t c f k, o = .exec i ∧ s.slot i = .running t ∧ t.rest = .send c f ∧ RowLock.blocked h2 s i c = false ∧
      t.req = .deleteAccount k ∧ s.db.paymentsOf k ≠ []) := by
  cases o with
  | timeout i =>
    simp only [refused] at h
    split at h
    · rename_i t hs
      split at h
      · rename_i hq hr
        exact Or.inl ⟨i, t, _, _, rfl, hs, hr, h, by rw [hq]; trivial⟩
      · rename_i hq hr
        exact Or.inl ⟨i, t, _, _, rfl, hs, hr, h, by rw [hq]; trivial⟩
      · cases h
    · cases h
  | exec i =>
    simp only [refused] at h
    split at h
    · rename_i t hs
      split at h
      · rename_i k c f hq hr
        rw [Bool.and_eq_true, Bool.not_eq_true', decide_eq_true_eq] at h
        exact Or.inr ⟨i, t, c, f, k, rfl, hs, hr, h.1, hq, h.2⟩
      · cases h
    · cases h
  | begin i r => cases h
  | commit i => cases h
  | rollback i => cases h

/-- a refused operation ends its request in an internal error -/
theorem refused_internalError (ops : List Op) (o : Op) (h : refused (run ops) o = true) :
    ∃ i r out, outcome ((step (run ops) o).slot i) = some (r, out) ∧ r.OfRow ∧
      (answer out).status = .INTERNAL_SERVER_ERROR := by
  have hone := run_oneStatement ops
  rcases refused_cases h with ⟨i, t, c, f, rfl, hs, hr, hb, hq⟩ | ⟨i, t, c, f, k, rfl, hs, hr, hb, hq, hpay⟩
  · refine ⟨i, t.req, .error (.dataAccessException .lockTimeout), ?_, hq, rfl⟩
    have hslot := RowLock.slot_timedOut h2 body hs hr hb
    refine (congrArg outcome hslot).trans (outcome_running.2 ⟨rfl, ?_⟩)
    obtain ⟨hbody, -⟩ := hone.unsent hs hq hr
    generalize t.req = r at hbody
    cases hbody with
    | updates => rfl
    | deletes => rfl
  · have hrow : t.req.OfRow := by
      rw [hq]
      trivial
    have hfound : ∃ r, (run ops).db.findAccount k = some r := by
      apply Option.ne_none_iff_exists'.1
      intro hnone
      exact hpay ((run_ledger ops).paymentsOf_missing hnone)
    have hstep : step (run ops) (.exec i) = RowLock.sent h2 (run ops) i t c f := RowLock.step_sent h2 body hs hr hb
    obtain ⟨hbody, hw⟩ := hone.unsent hs hrow hr
    rw [hq] at hbody
    cases hbody with
    | deletes =>
      obtain ⟨e, he⟩ := (delete_fails_iff _ _).2 ⟨hfound, hpay⟩
      refine ⟨i, t.req, .error (.dataAccessException e), ?_, hrow, rfl⟩
      rw [hstep, RowLock.slot_sent]
      refine outcome_running.2 ⟨rfl, ?_⟩
      rw [hw]
      show answered (h2.exec (.deleteAccount k) (run ops).db).1 = _
      rw [he]
      rfl

end Documented

/-- **Documented answers.** -/
theorem answers_documented_iff (ops : List Op) :
    (∀ pre, pre <+: ops → Documented (run pre)) ↔ unrefused ops = true := by
  constructor
  · intro h
    apply along_iff.2
    intro pre o hp
    by_contra hno
    have href : refused (run pre) o = true := by simpa using hno
    obtain ⟨i, r, out, hout, hq, hst⟩ := refused_internalError pre o href
    rw [← run_snoc] at hout
    have hdoc := h (pre ++ [o]) hp i r out hout hq
    rw [hst] at hdoc
    exact internalError_undocumented r hdoc
  · intro h
    apply along_induction h (P := Documented)
    · intro i r out hout
      cases hout
    · intro pre o ho hd
      exact step_documented pre o (by simpa using ho) hd

/-! ## A locked row -/

/-- a payment locks account 0, and an update of account 0 waits past the lock timeout -/
def lockedUpdate : List Op :=
  [.begin 0 (.createPayment firstOf2020 (pay ⟨1, 0⟩)), .exec 0,
    .begin 1 (.updateAccount ⟨some 0, some (ofChars ['B']), none⟩), .timeout 1, .rollback 1]

theorem locked_update_500 : ¬ ∀ ops, Documented (run ops) := by
  intro h
  have hdoc := h lockedUpdate 1 (.updateAccount ⟨some 0, some (ofChars ['B']), none⟩)
    (.error (.dataAccessException .lockTimeout)) rfl trivial
  exact absurd hdoc (internalError_undocumented _)

/-- a payment from account 0 to account 1, and then a deletion of account 1 -/
def paidDelete : List Op :=
  .begin 0 (.createPayment firstOf2020 (pay ⟨1, 0⟩)) :: toCommit 0 ++ [.begin 1 (.deleteAccount 1), .exec 1]

example : unrefused paidDelete = false := by decide

end BankServices.Service
