/-
The service as a whole: any number of requests to the two endpoints, side by side, from the migrated schema.

A state of the service is a state of `RowLock` over the H2 statements; `run` executes any list of operations in the
given order. A request carries the clock value it captured.

- `run_inv`, `run_order`, `run_ends`, `run_drawn`: the results about `RowLock`, for the programs of the endpoints.
- `run_alone_effect`: what a request that ends well has changed when it runs alone (`Effect`), one case per endpoint.
- `commit_cases`, `step_commit`: a step changes the committed tables only by such an effect, the one of the request it
  commits.
-/
import BankServices.Api.AccountRun
import BankServices.Api.PaymentLocks
import BankServices.Core.LockOrder
import BankServices.Core.Sessions

namespace BankServices.Service

open BankServices.Java BankServices.Txn BankServices.Storage BankServices.Webapp BankServices.Api

/-! ## Model -/

inductive Request where
  | createPayment (now : LocalDateTime) (newPayment : NewPayment)
  | createAccount (now : LocalDateTime) (newAccount : NewAccount)
  | updateAccount (account : UpdateAccount)
  | deleteAccount (accountId : ℤ)

def body : Request → Tx Response
  | .createPayment now newPayment => PaymentEndpoint.create now newPayment
  | .createAccount now newAccount => AccountEndpoint.create now newAccount
  | .updateAccount account => AccountEndpoint.update account
  | .deleteAccount accountId => AccountEndpoint.delete accountId

abbrev St := RowLock.St Statement Answer Sequence Throwable Response Tables Write ℤ Request

abbrev Op := RowLock.Op Request

abbrev Session := RowLock.Session Statement Answer Sequence Throwable Response Write Request

def init : St := RowLock.init migrated migratedSequences

def step (s : St) (o : Op) : St := RowLock.step h2 body s o

def run (ops : List Op) : St := RowLock.run h2 body init ops

/-- every operation of the run is good in the state that it meets -/
def along (good : St → Op → Bool) (ops : List Op) : Bool := RowLock.along h2 body good init ops

/-- a request run alone on the committed tables of a state: its outcome, the sequences and the tables after it -/
def alone (r : Request) (s : St) : Except Throwable Response × (Sequence → ℤ) × Tables :=
  (body r).transaction h2 counters s.seq s.db

/-! ## Example requests -/

def firstOf2020 : LocalDateTime := LocalDate.atStartOfDay ⟨2020, 1, 1, by decide⟩

def secondOf2020 : LocalDateTime := LocalDate.atStartOfDay ⟨2020, 1, 2, by decide⟩

/-- a payment from account 0 to account 1 -/
def pay (amount : BigDecimal) : NewPayment := ⟨some amount, some 0, some 1, none⟩

/-- all operations of a payment that has begun, up to its commit -/
def toCommit (i : ℕ) : List Op := List.replicate 6 (.exec i) ++ [.commit i]

/-! ## The programs keep the rules -/

theorem body_disciplined (r : Request) : (body r).Disciplined h2 [] false := by
  cases r with
  | createPayment now np => exact PaymentEndpoint.create_disciplined now np
  | createAccount now na => exact AccountEndpoint.create_disciplined now na
  | updateAccount u => exact AccountEndpoint.update_disciplined u
  | deleteAccount i => exact AccountEndpoint.delete_disciplined i

theorem body_ascending (r : Request) : (body r).Ascending h2 [] := by
  cases r with
  | createPayment now np => exact PaymentEndpoint.create_ascending now np
  | createAccount now na => exact AccountEndpoint.create_ascending now na
  | updateAccount u => exact AccountEndpoint.update_ascending u
  | deleteAccount i => exact AccountEndpoint.delete_ascending i

/-- how each request may end: a creation that ends well wrote something, the others are answered 304 without a write -/
def MayEnd : Request → List Write → Except Throwable Response → Prop
  | .createPayment _ _ | .createAccount _ _ => Wrote
  | .updateAccount _ | .deleteAccount _ => AccountEndpoint.WroteOrNotModified

theorem body_ends (r : Request) : (body r).Ends h2 (MayEnd r) [] := by
  cases r with
  | createPayment now np => exact PaymentEndpoint.create_ends now np
  | createAccount now na => exact AccountEndpoint.create_ends now na
  | updateAccount u => exact AccountEndpoint.update_ends u
  | deleteAccount i => exact AccountEndpoint.delete_ends i

/-! ## Reachable states -/

theorem run_snoc (ops : List Op) (o : Op) : run (ops ++ [o]) = step (run ops) o := RowLock.run_snoc _ _ _

theorem run_append (ops more : List Op) : run (ops ++ more) = RowLock.run h2 body (run ops) more :=
  RowLock.run_append _ _ _

theorem step_move (s : St) (o : Op) : RowLock.Move h2 body s o (step s o) := RowLock.step_move h2 body s o

/-- what holds at first and is kept by every step from a reached state holds of every state reached -/
theorem run_induction {P : St → Prop} (h0 : P init) (hstep : ∀ ops o, P (run ops) → P (step (run ops) o))
    (ops : List Op) : P (run ops) := by
  induction ops using List.reverseRecOn with
  | nil => exact h0
  | append_singleton ops o ih =>
    rw [run_snoc]
    exact hstep ops o ih

theorem along_iff {good : St → Op → Bool} {ops : List Op} :
    along good ops = true ↔ ∀ pre o, pre ++ [o] <+: ops → good (run pre) o = true := RowLock.along_iff

theorem along_induction {good : St → Op → Bool} {ops : List Op} (h : along good ops = true) {P : St → Prop}
    (h0 : P init) (hstep : ∀ pre o, good (run pre) o = true → P (run pre) → P (step (run pre) o)) :
    ∀ pre, pre <+: ops → P (run pre) := RowLock.along_induction h h0 hstep

theorem run_inv (ops : List Op) : RowLock.Inv h2 body migrated (run ops) := RowLock.run_inv body_disciplined ops

theorem run_order (ops : List Op) : LockOrder.OrderInv h2 (run ops) :=
  (LockOrder.run_orderInv body_ascending body_disciplined ops).2

theorem run_ends (ops : List Op) : RowLock.EndsInv h2 MayEnd (run ops) := RowLock.run_ends body_ends ops

theorem run_drawn (ops : List Op) : RowLock.DrawnInv migratedSequences (run ops) := RowLock.run_drawn ops

/-! ## What a request changes -/

/-- what request `r`, answered `a`, has changed; the list holds the values it drew -/
inductive Effect (db : Tables) : Request → List (Sequence × ℤ) → Response → Tables → Prop where
  | payment {now : LocalDateTime} {np : NewPayment} {p : Payment} {w d w' d' : AccountRow} {row : PaymentRow} {x : ℤ}
      (accepts : PaymentEndpoint.Accepts db now np p w d)
      (written : PaymentEndpoint.written db x p w d = .ok (row, w', d')) :
      Effect db (.createPayment now np) [(.payment, x)] (PaymentEndpoint.okResponse x)
        (PaymentEndpoint.transferred db row w' d')
  | created {now : LocalDateTime} {na : NewAccount} {a : Account} {row : AccountRow} {x : ℤ}
      (valid : AccountEndpoint.checkedAccount now na = .ok a) (stored : accountRow x a = .ok row) :
      Effect db (.createAccount now na) [(.account, x)]
        ⟨.OK, some .APPLICATION_JSON, some (.account { a with accountId := some x })⟩ (applyWrite db (.addAccount row))
  | updated {u : UpdateAccount} {n c : Option JavaString} {i : ℤ} {r r' : AccountRow}
      (valid : AccountEndpoint.checkedUpdate u = .ok (n, c, i)) (found : db.findAccount i = some r)
      (stored : profileRow r n c = .ok r') :
      Effect db (.updateAccount u) [] (AccountEndpoint.rowsResponse 1) (applyWrite db (.putAccount r'))
  | deleted {i : ℤ} {r : AccountRow} (found : db.findAccount i = some r) (free : db.paymentsOf i = []) :
      Effect db (.deleteAccount i) [] (AccountEndpoint.rowsResponse 1) (applyWrite db (.dropAccount i))

/-- an update or a deletion of an account that does not exist -/
def Unmatched (db : Tables) : Request → Prop
  | .updateAccount u => ∃ i, u.accountId = some i ∧ db.findAccount i = none
  | .deleteAccount i => db.findAccount i = none
  | _ => False

/-- a request that ends well alone has its effect, or matched no row -/
theorem run_alone_effect {r : Request} {ids : List (Sequence × ℤ)} {a : Response} {db db' : Tables}
    (h : ∀ more, (body r).run h2 tape (ids ++ more) db = (.ok a, more, db')) :
    Effect db r ids a db' ∨ (Unmatched db r ∧ a.status = .NOT_MODIFIED ∧ db' = db) := by
  have h0 := h []
  rw [List.append_nil] at h0
  cases r with
  | createPayment now np =>
    obtain ⟨p, w, d, row, w', d', hacc, hwr, rfl, -, rfl⟩ := (PaymentEndpoint.create_run_ok_iff tape ids).1 h0
    obtain ⟨x, rfl⟩ := tape_takes fun more =>
      let ⟨_, _, _, _, _, _, _, _, _, hg, _⟩ := (PaymentEndpoint.create_run_ok_iff tape (ids ++ more)).1 (h more)
      hg.symm
    exact Or.inl (.payment hacc hwr)
  | createAccount now na =>
    cases hv : AccountEndpoint.checkedAccount now na with
    | error t =>
      rw [show body (.createAccount now na) = .fail t from AccountEndpoint.create_eq_fail hv] at h0
      cases h0
    | ok acc =>
      obtain ⟨x, rfl⟩ : ∃ x, ids = [(.account, x)] := tape_takes fun more => by
        obtain ⟨row, -, hrun⟩ := AccountEndpoint.create_run tape (ids ++ more) db hv
        exact congrArg (fun z => z.2.1) (hrun.symm.trans (h more))
      obtain ⟨row, hrow, hrun⟩ := AccountEndpoint.create_run tape [(.account, x)] db hv
      cases hrun.symm.trans h0
      exact Or.inl (.created hv hrow)
  | updateAccount u =>
    rcases hv : AccountEndpoint.checkedUpdate u with t | ⟨n, c, i⟩
    · rw [show body (.updateAccount u) = .fail t from AccountEndpoint.update_eq_fail hv] at h0
      cases h0
    · have hi := (AccountEndpoint.checkedUpdate_ok_iff.1 hv).2.2.1
      rcases AccountEndpoint.update_run tape ids db hv with ⟨hr, hrun⟩ | ⟨r, r', hr, hr', hrun⟩
      · cases hrun.symm.trans h0
        exact Or.inr ⟨⟨i, hi, hr⟩, rfl, rfl⟩
      · cases hrun.symm.trans h0
        exact Or.inl (.updated hv hr hr')
  | deleteAccount i =>
    rcases AccountEndpoint.delete_run tape ids db i with ⟨hr, hrun⟩ | ⟨r, hr, ⟨hp, hrun⟩ | ⟨-, e, hrun⟩⟩
    · cases hrun.symm.trans h0
      exact Or.inr ⟨hr, rfl, rfl⟩
    · cases hrun.symm.trans h0
      exact Or.inl (.deleted hr hp)
    · cases hrun.symm.trans h0

/-- an update or a deletion -/
def Request.OfRow : Request → Prop
  | .updateAccount _ | .deleteAccount _ => True
  | _ => False

/-- a committing request has its effect on the committed tables, or is an update or a deletion answered 304 -/
theorem commit_effect (ops : List Op) {i : ℕ} {t : Session} {a : Response}
    (hs : (run ops).slot i = .running t) (hr : t.rest = .done a) :
    (t.writes ≠ [] ∧ Effect (run ops).db t.req t.ids a (h2.view (run ops).db t.writes)) ∨
      (t.writes = [] ∧ a.status = .NOT_MODIFIED ∧ t.req.OfRow) := by
  have hend := run_ends ops i t hs
  rw [hr] at hend
  by_cases hw : t.writes = []
  · refine Or.inr ⟨hw, ?_⟩
    cases hq : t.req with
    | createPayment now np => rw [hq] at hend; exact absurd hw (hend a rfl)
    | createAccount now na => rw [hq] at hend; exact absurd hw (hend a rfl)
    | updateAccount u => rw [hq] at hend; exact ⟨(hend a rfl).1 hw, trivial⟩
    | deleteAccount k => rw [hq] at hend; exact ⟨(hend a rfl).1 hw, trivial⟩
  · refine Or.inl ⟨hw, ?_⟩
    have hrun := (RowLock.commit_replay (run_inv ops) hs hr).resolve_right hw
    rcases run_alone_effect hrun with h | ⟨hun, hst, -⟩
    · exact h
    · cases hq : t.req with
      | createPayment now np => rw [hq] at hun; exact absurd hun id
      | createAccount now na => rw [hq] at hun; exact absurd hun id
      | updateAccount u => rw [hq] at hend; exact absurd ((hend a rfl).2 hst) hw
      | deleteAccount k => rw [hq] at hend; exact absurd ((hend a rfl).2 hst) hw

section Commit

variable {s : St} {i : ℕ} {t : Session} {a : Response}

theorem commit_db (hs : s.slot i = .running t) (hr : t.rest = .done a) :
    (step s (.commit i)).db = h2.view s.db t.writes := by
  unfold step
  simp only [RowLock.step, hs, hr]

theorem commit_slot (hs : s.slot i = .running t) (hr : t.rest = .done a) :
    (step s (.commit i)).slot i = .finished t.req (.ok a) := by
  unfold step
  simp only [RowLock.step, hs, hr, Function.update_self]

theorem commit_log (hs : s.slot i = .running t) (hr : t.rest = .done a) (hw : t.writes ≠ []) :
    (step s (.commit i)).log = s.log ++ [(t.req, t.ids)] := by
  unfold step
  simp only [RowLock.step, hs, hr]
  exact if_neg (by simpa using hw)

end Commit

/-- transaction `i`, answered `a`, commits its effect -/
structure Committed (s s' : St) (i : ℕ) (t : Session) (a : Response) : Prop where
  running : s.slot i = .running t
  done : t.rest = .done a
  wrote : t.writes ≠ []
  db : s'.db = h2.view s.db t.writes
  effect : Effect s.db t.req t.ids a s'.db
  log : s'.log = s.log ++ [(t.req, t.ids)]
  finished : s'.slot i = .finished t.req (.ok a)

/-- a commit has the effect of its request, or is the one of an update or a deletion answered 304 -/
theorem commit_cases (ops : List Op) {i : ℕ} {t : Session} {a : Response} (hs : (run ops).slot i = .running t)
    (hr : t.rest = .done a) : Committed (run ops) (step (run ops) (.commit i)) i t a ∨
      (a.status = .NOT_MODIFIED ∧ t.req.OfRow ∧ (step (run ops) (.commit i)).db = (run ops).db ∧
        (step (run ops) (.commit i)).log = (run ops).log) := by
  have hdb := commit_db hs hr
  rcases commit_effect ops hs hr with ⟨hw, he⟩ | ⟨hw, hst, hrow⟩
  · refine Or.inl ⟨hs, hr, hw, hdb, ?_, commit_log hs hr hw, commit_slot hs hr⟩
    rw [hdb]
    exact he
  · refine Or.inr ⟨hst, hrow, ?_, ?_⟩
    · rw [hdb, hw]
      rfl
    · unfold step
      simp only [RowLock.step, hs, hr]
      exact if_pos (by simp [hw])

/-- **One commit, one effect.** A step changes the tables and the log only when a request commits its effect. -/
theorem step_commit (ops : List Op) (o : Op) :
    ((step (run ops) o).db = (run ops).db ∧ (step (run ops) o).log = (run ops).log) ∨
      ∃ i t a, o = .commit i ∧ Committed (run ops) (step (run ops) o) i t a := by
  have hm := step_move (run ops) o
  generalize hs' : step (run ops) o = s' at hm ⊢
  cases hm with
  | idle => exact Or.inl ⟨rfl, rfl⟩
  | begin hs => exact Or.inl ⟨rfl, rfl⟩
  | sent hs hr hb => exact Or.inl ⟨rfl, rfl⟩
  | drew hs hr => exact Or.inl ⟨rfl, rfl⟩
  | timedOut hs hr hb => exact Or.inl ⟨rfl, rfl⟩
  | rolledBack hs hr => exact Or.inl ⟨rfl, rfl⟩
  | @committed i t a hs hr =>
    rw [← hs']
    rcases commit_cases ops hs hr with hc | ⟨-, -, hdb, hlog⟩
    · exact Or.inr ⟨i, t, a, rfl, hc⟩
    · exact Or.inl ⟨hdb, hlog⟩

end BankServices.Service
