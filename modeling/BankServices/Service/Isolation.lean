/-
Isolation of the requests: every interleaving commits what some serial execution commits, and none deadlocks.

- `committed_tables_serial`: the committed tables are the result of running the logged requests alone, in commit order,
  with the ids they drew and the clock values they captured. Nothing but a commit changes tables or log, the request
  committed would have answered the same alone, and only a 304 goes unlogged.
- `requests_deadlock_free`: no cycle of requests waits for row locks, and while a request is open one of the open
  requests can go on.
-/
import BankServices.Service.Machine

namespace BankServices.Service

open BankServices.Txn BankServices.Storage BankServices.Webapp

/-- a committing request that wrote something answers and writes what it does alone on the tables committed before -/
theorem commit_alone (ops : List Op) {i : ℕ} {t : Session} {a : Response}
    (hs : (run ops).slot i = .running t) (hr : t.rest = .done a) (hw : t.writes ≠ []) :
    (body t.req).transaction h2 tape t.ids (run ops).db = (.ok a, [], h2.view (run ops).db t.writes) := by
  have h := (RowLock.commit_replay (run_inv ops) hs hr).resolve_right hw []
  rw [List.append_nil] at h
  unfold Prog.transaction
  rw [h]

/-- **Serial equivalence.** -/
theorem committed_tables_serial (ops : List Op) :
    (run ops).db = (run ops).log.foldl (RowLock.replay h2 body) migrated ∧
      (∀ o, ((step (run ops) o).db = (run ops).db ∧ (step (run ops) o).log = (run ops).log) ∨
        ∃ i t a, o = .commit i ∧ (run ops).slot i = .running t ∧ t.rest = .done a ∧
          (body t.req).transaction h2 tape t.ids (run ops).db = (.ok a, [], (step (run ops) o).db) ∧
          (step (run ops) o).log = (run ops).log ++ [(t.req, t.ids)]) ∧
      ∀ i t a, (run ops).slot i = .running t → t.rest = .done a →
        (step (run ops) (.commit i)).log = (run ops).log ++ [(t.req, t.ids)] ∨
          (t.req.OfRow ∧ a.status = .NOT_MODIFIED ∧ (step (run ops) (.commit i)).db = (run ops).db) := by
  refine ⟨RowLock.serializable body_disciplined ops, fun o => ?_, fun i t a hs hr => ?_⟩
  · rcases step_commit ops o with h | ⟨i, t, a, ho, hc⟩
    · exact Or.inl h
    · refine Or.inr ⟨i, t, a, ho, hc.running, hc.done, ?_, hc.log⟩
      rw [hc.db]
      exact commit_alone ops hc.running hc.done hc.wrote
  · rcases commit_cases ops hs hr with hc | ⟨hst, hrow, hdb, -⟩
    · exact Or.inl hc.log
    · exact Or.inr ⟨hrow, hst, hdb⟩

/-- **Deadlock freedom.** -/
theorem requests_deadlock_free (ops : List Op) :
    (∀ i, ¬ Relation.TransGen (LockOrder.WaitsFor h2 (run ops)) i i) ∧
      ((∃ i t, (run ops).slot i = .running t) → ∃ i, LockOrder.Ready h2 (run ops) i) :=
  ⟨fun i => LockOrder.no_deadlock (run_order ops) i, fun h => LockOrder.progress (run_inv ops) (run_order ops) h⟩

end BankServices.Service
