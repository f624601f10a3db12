/-
`WebAppBase`: whether the server is shut down.

Every step leaves the hook alone, or is one of its thread, or registers the shutdown action (`step_touched`). An action
that the hook has was added before its thread found the deque empty (`run_registered`), and what was added before is
closed (`run_served`).

- `graceful_shutdown`: `HttpServer.shutdown` is called at most once and not before the exit. When the JVM has halted, it
  was called exactly if the shutdown action was added before the hook's thread found its deque empty, and then the wait
  for the server is over or the call threw.

An exit while the application starts can miss the server: the JVM halts with the server started and never shut down.
-/
import BankServices.Webapp.WebAppBase

namespace BankServices.Webapp.WebAppBase

variable {ε : Type}

/-! ## The hook -/

/-- what a step does to the hook -/
inductive Touched (s : St ε) (a : ShutdownHook.St Unit ε) (s' : St ε) : Prop where
  | same (h : s'.shutdownHook = some a)
  | thread (p : ShutdownHook.Op Unit ε) (hno : p.action = none) (h : s'.shutdownHook = some (ShutdownHook.step a p))
  | registered (hs : s.main = .addLast) (hs' : s'.main = .logDone)
      (h : s'.shutdownHook = some (ShutdownHook.addLast a ()))

theorem exit_touched {s : St ε} {a : ShutdownHook.St Unit ε} (h : s.shutdownHook = some a) : Touched s a (exit s) := by
  unfold exit
  cases s.jvm with
  | running => exact .thread .start rfl (by simp [h])
  | _ => exact .same h

theorem close_touched {s : St ε} {a : ShutdownHook.St Unit ε} (h : s.shutdownHook = some a) (thrown : Option ε) :
    Touched s a (close s thrown) := by
  unfold close
  cases s.completionHandler with
  | none =>
    cases thrown with
    | none => exact .same h
    | some ex => exact .thread (.closeEnds (some ex)) rfl (by simp [h])
  | some c =>
    cases hthread : c.thread with
    | running => exact .same (by simpa [hthread] using h)
    | waiting n => exact .same (by simpa [hthread] using h)
    | returned result => exact .thread (.closeEnds none) rfl (by simp [hthread, h])

theorem line_touched {s s' : St ε} {a : ShutdownHook.St Unit ε} (h : Hooked s a) (hl : Line s s') : Touched s a s' := by
  cases hl with
  | stays => exact .same h.shutdownHook
  | goes m hm => exact .same h.shutdownHook
  | hooked hs hjvm name => exact absurd (by simp [hs]) h.main
  | started hs => exact .same h.shutdownHook
  | failed hs e => exact .same h.shutdownHook
  | added hs => exact .registered hs rfl (by simp [h.shutdownHook, ShutdownHook.step])
  | exits hs =>
    cases exit_touched (s := { s with main := .exit }) h.shutdownHook with
    | same hsame => exact .same hsame
    | thread p hno hstep => exact .thread p hno hstep
    | registered hs' => cases hs'

theorem step_touched {s : St ε} {a : ShutdownHook.St Unit ε} (h : Hooked s a) (o : Op ε) : Touched s a (step s o) := by
  have hm := step_move s o
  generalize step s o = s' at hm ⊢
  cases hm with
  | start outcome hl => exact line_touched h hl
  | exit => exact exit_touched h.shutdownHook
  | poll hlive ha ht thrown =>
    rw [h.shutdownHook, Option.some.injEq] at ha
    exact .thread .poll rfl (by rw [ha])
  | close hlive ha ht thrown => exact close_touched h.shutdownHook thrown
  | _ => exact .same h.shutdownHook

/-- before there is a hook, a step leaves none, or one of which nothing was asked -/
theorem unhooked_row {s : St ε} (h : Unhooked s) {o : Op ε} {b : ShutdownHook.St Unit ε}
    (hb : (step s o).shutdownHook = some b) : b.closed ++ b.shutdownActions = [] := by
  have hnone := h.shutdownHook
  have hexit : ∀ s' : St ε, s'.shutdownHook = none → (exit s').shutdownHook = none := by
    intro s' h'
    cases hjvm : s'.jvm <;> simp [exit, hjvm, h']
  have hm := step_move s o
  generalize step s o = s' at hm hb
  cases hm with
  | start outcome hl =>
    cases hl with
    | hooked hs hjvm name =>
      cases hb
      rfl
    | exits hs => simp [hexit { s with main := .exit } hnone] at hb
    | _ => simp [hnone, log] at hb
  | exit => simp [hexit s hnone] at hb
  | poll hlive ha ht thrown => simp [hnone] at ha
  | close hlive ha ht thrown => simp [hnone] at ha
  | _ => simp [hnone, handler] at hb

/-! ## The server and the exit -/

/-- the shutdown action is added, and `start` is at its last line, before the hook's thread finds its deque empty -/
def RegisteredInTime (ops : List (Op ε)) : Prop :=
  ∃ pre, pre <+: ops ∧ (run pre).main = .logDone ∧ ∀ h, (run pre).shutdownHook = some h → h.thread ≠ .terminated

theorem RegisteredInTime.mono {ops : List (Op ε)} (h : RegisteredInTime ops) (o : Op ε) :
    RegisteredInTime (ops ++ [o]) := by
  obtain ⟨pre, hpre, hadded⟩ := h
  exact ⟨pre, hpre.trans (List.prefix_append ops [o]), hadded⟩

/-- an action that the hook has, in its deque or closed, was added before the loop ended, while the loop has not -/
theorem run_registered (ops : List (Op ε)) {a : ShutdownHook.St Unit ε} (ha : (run ops).shutdownHook = some a)
    (hrow : a.closed ++ a.shutdownActions ≠ []) (hlive : a.thread ≠ .terminated) : RegisteredInTime ops := by
  induction ops using List.reverseRecOn generalizing a with
  | nil => cases ha
  | append_singleton ops o ih =>
    rw [run_snoc] at ha
    rcases run_inv ops with h | ⟨b, h⟩
    · exact absurd (unhooked_row h ha) hrow
    · cases step_touched h o with
      | same hsame =>
        rw [hsame, Option.some.injEq] at ha
        exact (ih h.shutdownHook (ha ▸ hrow) (ha ▸ hlive)).mono o
      | thread p hno hstep =>
        rw [hstep, Option.some.injEq] at ha
        subst ha
        refine (ih h.shutdownHook (by rwa [ShutdownHook.any_row b hno] at hrow) fun hterm => hlive ?_).mono o
        rwa [ShutdownHook.step_terminated hterm hno]
      | registered hs hs' hadd =>
        refine ⟨ops ++ [o], List.prefix_rfl, by rwa [run_snoc], fun c hc => ?_⟩
        rw [run_snoc, ha, Option.some.injEq] at hc
        exact hc ▸ hlive

/-- only the shutdown action, being closed, shuts the server down -/
theorem step_shutdowns {s : St ε} {o : Op ε} (h : (step s o).shutdowns ≠ s.shutdowns) :
    ∃ a, s.shutdownHook = some a ∧ a.thread = .closing () := by
  have hm := step_move s o
  generalize step s o = s' at hm h
  cases hm with
  | close hlive ha ht thrown => exact ⟨_, ha, ht⟩
  | start outcome hl =>
    cases hl with
    | exits hs => exact absurd (exit_shutdowns _) h
    | _ => exact absurd rfl h
  | exit => exact absurd (exit_shutdowns s) h
  | _ => exact absurd rfl h

/-- what was called was registered -/
theorem run_called (ops : List (Op ε)) (h : (run ops).shutdowns = 1) : RegisteredInTime ops := by
  induction ops using List.reverseRecOn with
  | nil => cases h
  | append_singleton ops o ih =>
    by_cases hone : (run ops).shutdowns = 1
    · exact (ih hone).mono o
    · rw [run_snoc] at h
      obtain ⟨a, ha, hclosing⟩ := step_shutdowns (o := o) (h.trans_ne (Ne.symm hone))
      refine (run_registered ops ha ?_ (by simp [hclosing])).mono o
      rw [(((run_inv ops).hooked ha).stage.of_closing hclosing).1]
      simp

/-- the hook has the action, and has closed it when its loop has ended -/
def Served (s : St ε) : Prop := ∃ a, s.shutdownHook = some a ∧ a.closed ++ a.shutdownActions = [()] ∧
  (a.thread = .terminated → a.shutdownActions = [])

theorem step_served {s : St ε} (h : Inv s) (hs : Served s) (o : Op ε) : Served (step s o) := by
  obtain ⟨a, ha, hrow, hterm⟩ := hs
  have hhook := h.hooked ha
  cases step_touched hhook o with
  | same hsame => exact ⟨a, hsame, hrow, hterm⟩
  | thread p hno hstep =>
    refine ⟨_, hstep, (ShutdownHook.any_row a hno).trans hrow, fun hends => ?_⟩
    by_cases hlive : a.thread = .terminated
    · rw [ShutdownHook.step_terminated hlive hno]
      exact hterm hlive
    · exact ShutdownHook.step_ends hlive hno hends
  | registered hmain =>
    have hnone := hhook.unregistered (by simp [hmain, Main.registers])
    simp [hrow] at hnone

theorem foldl_served {s : St ε} (h : Inv s) (hs : Served s) (ops : List (Op ε)) : Served (ops.foldl step s) := by
  induction ops generalizing s with
  | nil => exact hs
  | cons o ops ih => exact ih (step_inv h o) (step_served h hs o)

/-- what was registered in time was called -/
theorem run_served (ops : List (Op ε)) (hs : (run ops).jvm = .halted) (h : RegisteredInTime ops) :
    (run ops).shutdowns = 1 := by
  obtain ⟨pre, ⟨rest, rfl⟩, hmain, hlive⟩ := h
  have hsplit : run (pre ++ rest) = rest.foldl step (run pre) := by simp [run, List.foldl_append]
  have hpre : Served (run pre) := by
    rcases run_inv pre with hinv | ⟨a, hinv⟩
    · exact absurd hinv.main (by simp [hmain])
    · exact ⟨a, hinv.shutdownHook, hinv.registered (by simp [hmain]), fun h => absurd h (hlive a hinv.shutdownHook)⟩
  obtain ⟨a, ha, hrow, hterm⟩ := foldl_served (run_inv pre) hpre rest
  rw [← hsplit] at ha
  have hinv := (run_inv (pre ++ rest)).hooked ha
  have hends := hinv.ended (hinv.halted hs)
  rcases hinv.stage.of_free (by simp [hends]) with ⟨hnone, -⟩ | ⟨-, hn, -⟩
  · simp [hnone, hterm hends] at hrow
  · exact hn

/-- **The graceful shutdown.** -/
theorem graceful_shutdown (ops : List (Op ε)) :
    (run ops).shutdowns ≤ 1 ∧ ((run ops).jvm = .running → (run ops).shutdowns = 0) ∧
      ((run ops).jvm = .halted → ((run ops).shutdowns = 1 ↔ RegisteredInTime ops) ∧
        ((run ops).shutdowns = 1 → ∃ h, (run ops).shutdownHook = some h ∧ Ended h (run ops).completionHandler)) := by
  refine ⟨?_, ?_, fun hhalted => ⟨⟨run_called ops, run_served ops hhalted⟩, fun hone => ?_⟩⟩
  · rcases run_inv ops with h | ⟨a, h⟩
    · simp [h.shutdowns]
    · exact h.stage.le_one
  · intro hrunning
    rcases run_inv ops with h | ⟨a, h⟩
    · exact h.shutdowns
    · exact (h.stage.of_new (h.started.2 hrunning)).2.2
  · rcases halted_cases (run_inv ops) hhalted with hzero | ⟨a, h, -, hended⟩
    · simp [hone] at hzero
    · exact ⟨a, h.shutdownHook, hended⟩

/-- the application is told to exit when its server has started and the shutdown action is not registered yet; it is,
after the hook's thread found nothing to close and before that thread ends -/
def missed : List (Op Unit) :=
  List.replicate 5 (.start .returns) ++ [.exit, .hook none, .start .returns, .start .returns, .hook none, .halt]

example : (run missed).jvm = .halted ∧ (run missed).started = true ∧ (run missed).main = .done ∧
    (run missed).shutdowns = 0 := by
  decide

end BankServices.Webapp.WebAppBase
