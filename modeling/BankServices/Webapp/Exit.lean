/-
`WebAppBase`: an exit completes.

What is left to do until the JVM halts (`work`) is lowered by every step of the exit, of the hook's thread, of the clock
while that thread waits for the server, and of the JVM, and is raised by none. An exit begins with one shutdown action
queued or yet to be registered at most, so its work is bounded by the timeout and seven steps.

- `exit_completes`: from the exit on, in every run, the number of steps of the exit is bounded, and until the JVM has
  halted one of them can be made.
-/
import BankServices.Core.Potential
import BankServices.Webapp.WebAppBase

namespace BankServices.Webapp.WebAppBase

open BankServices.Potential

variable {ε : Type}

/-! ## The work left -/

/-- the steps left of a shutdown action that is being closed -/
def handlerWork : Option (HttpServerCompletionHandler.St ε) → ℕ
  | none => timeoutMillis + 3
  | some c =>
    match c.thread with
    | .running => max c.timeoutMillis 1 + 2
    | .waiting n => max n 1 + 1
    | .returned _ => 1

/-- the steps of the hook's thread for one action, from the poll on -/
def actionWork : ℕ := timeoutMillis + 4

/-- the steps of the hook's thread until it ends -/
def hookWork (h : ShutdownHook.St Unit ε) (hookEnded : Bool) (c : Option (HttpServerCompletionHandler.St ε)) : ℕ :=
  match h.thread with
  | .new | .polling => h.shutdownActions.length * actionWork + 2
  | .closing _ => h.shutdownActions.length * actionWork + handlerWork c + 2
  | .terminated => if hookEnded = true then 0 else 1

/-- the work of the shutdown action that `start` can still register -/
def Main.work (m : Main) : ℕ := if m.registers = true then actionWork else 0

/-- the steps left until the JVM that exits has halted -/
def work (s : St ε) : ℕ :=
  if s.jvm = .halted then 0
  else s.main.work + s.shutdownHook.elim 0 (hookWork · s.hookEnded s.completionHandler) + 1

/-- the hook's thread waits for the server -/
def waits (c : Option (HttpServerCompletionHandler.St ε)) : Bool :=
  c.any fun c =>
    match c.thread with
    | .waiting _ => true
    | _ => false

/-- a step of the exit that can be made now -/
def goesOn (s : St ε) (o : Op ε) : Bool :=
  s.jvm = .exiting &&
    match o with
    | .hook _ =>
      match s.shutdownHook.map ShutdownHook.St.thread with
      | some .polling => true
      | some (.closing _) => !waits s.completionHandler
      | some .terminated => !s.hookEnded
      | _ => false
    | .tick =>
      match s.shutdownHook.map ShutdownHook.St.thread with
      | some (.closing _) => waits s.completionHandler
      | _ => false
    | .halt => s.shutdownHook.isNone || s.hookEnded
    | _ => false

/-- the steps of the exit made in a run -/
def progress (s : St ε) (ops : List (Op ε)) : ℕ := counted step goesOn s ops

/-- the wait for the server, when it is on, ends here -/
theorem handlerWork_interrupt (c : Option (HttpServerCompletionHandler.St ε)) :
    handlerWork (c.map (HttpServerCompletionHandler.step · .interrupt)) ≤ handlerWork c := by
  cases c with
  | none => exact le_rfl
  | some c =>
    cases hthread : c.thread with
    | waiting n =>
      simp [handlerWork, HttpServerCompletionHandler.step, hthread, HttpServerCompletionHandler.onInterrupted,
        HttpServerCompletionHandler.log]
    | _ => simp [handlerWork, HttpServerCompletionHandler.step, hthread]

theorem handlerWork_server (c : Option (HttpServerCompletionHandler.St ε)) {o : HttpServerCompletionHandler.Op ε}
    (ho : o.ofServer = true) : handlerWork (c.map (HttpServerCompletionHandler.step · o)) ≤ handlerWork c := by
  cases c with
  | none => exact le_rfl
  | some c =>
    have hcount : ∀ s : HttpServerCompletionHandler.St ε,
        handlerWork (some (HttpServerCompletionHandler.countDown s)) ≤ handlerWork (some s) := by
      intro s
      cases hthread : s.thread with
      | waiting n =>
        simp only [handlerWork, HttpServerCompletionHandler.countDown, hthread]
        split_ifs
        · simp
        · exact le_rfl
      | _ => simp [handlerWork, HttpServerCompletionHandler.countDown, hthread]
    cases o with
    | cancelled => exact hcount _
    | failed throwable => exact hcount _
    | completed => exact hcount _
    | updated => exact le_rfl
    | _ => cases ho

theorem handlerWork_tick (c : Option (HttpServerCompletionHandler.St ε)) :
    handlerWork (c.map (HttpServerCompletionHandler.step · .tick)) + (if waits c = true then 1 else 0) ≤
      handlerWork c := by
  cases c with
  | none => exact le_rfl
  | some c =>
    cases hthread : c.thread with
    | waiting n =>
      by_cases hlast : n ≤ 1
      · simp [handlerWork, waits, HttpServerCompletionHandler.step, hthread, hlast]
      · simp [handlerWork, waits, HttpServerCompletionHandler.step, hthread, hlast]
        omega
    | _ => simp [handlerWork, waits, HttpServerCompletionHandler.step, hthread]

theorem handlerWork_await {c : HttpServerCompletionHandler.St ε} (h : c.thread = .running) :
    handlerWork (some (HttpServerCompletionHandler.step c .await)) + 1 ≤ handlerWork (some c) := by
  have hstep : HttpServerCompletionHandler.step c .await = HttpServerCompletionHandler.await c := by
    simp only [HttpServerCompletionHandler.step, h]
  rw [hstep]
  simp only [handlerWork, h, HttpServerCompletionHandler.await]
  split_ifs <;> simp [HttpServerCompletionHandler.onInterrupted, HttpServerCompletionHandler.log]

/-- the work left when the hook is known -/
theorem work_hooked {s : St ε} {a : ShutdownHook.St Unit ε} (h : s.shutdownHook = some a) (hs : s.jvm ≠ .halted) :
    work s = s.main.work + hookWork a s.hookEnded s.completionHandler + 1 := by
  simp [work, hs, h]

/-- a step that lowers the hook's part of the work -/
theorem work_lower {s s' : St ε} {a a' : ShutdownHook.St Unit ε} (h : s.shutdownHook = some a)
    (h' : s'.shutdownHook = some a') (hs : s.jvm ≠ .halted) (hjvm : s'.jvm = s.jvm) (hmain : s'.main = s.main)
    (hwork : hookWork a' s'.hookEnded s'.completionHandler + 1 ≤ hookWork a s.hookEnded s.completionHandler) :
    work s' + 1 ≤ work s := by
  rw [work_hooked h hs, work_hooked h' (by rwa [hjvm]), hmain]
  omega

theorem close_work {s : St ε} {a : ShutdownHook.St Unit ε} (h : s.shutdownHook = some a) (hs : s.jvm ≠ .halted)
    (hclosing : a.thread = .closing ()) (thrown : Option ε) :
    work (close s thrown) + (if waits s.completionHandler = true then 0 else 1) ≤ work s := by
  -- the action ends
  have ends : ∀ ex, hookWork (ShutdownHook.step a (.closeEnds ex)) s.hookEnded s.completionHandler + 1 ≤
      hookWork a s.hookEnded s.completionHandler := by
    intro ex
    have hstep : ShutdownHook.step a (.closeEnds ex) = ShutdownHook.closeEnds a ex := by
      simp only [ShutdownHook.step, hclosing]
    have hpos : 0 < handlerWork s.completionHandler := by
      unfold handlerWork
      split
      · omega
      · split <;> omega
    simp only [hstep, hookWork, ShutdownHook.closeEnds_thread, ShutdownHook.closeEnds_shutdownActions, hclosing]
    omega
  have hookOf : ∀ ex, s.shutdownHook.map (ShutdownHook.step · (.closeEnds ex)) =
      some (ShutdownHook.step a (.closeEnds ex)) := fun ex => by rw [h, Option.map_some]
  cases hc : s.completionHandler with
  | none =>
    have hwaits : (if waits (none : Option (HttpServerCompletionHandler.St ε)) = true then 0 else 1) = 1 := rfl
    rw [hwaits]
    rw [hc] at ends
    cases thrown with
    | none =>
      simp only [close, hc]
      refine work_lower h h hs rfl rfl ?_
      simp [hookWork, hclosing, handlerWork, newHandler, HttpServerCompletionHandler.init, timeoutMillis, hc]
    | some ex =>
      simp only [close, hc]
      refine work_lower h (hookOf (some ex)) hs rfl rfl ?_
      simpa only [log, hc] using ends (some ex)
  | some c =>
    rw [hc] at ends
    cases hthread : c.thread with
    | running =>
      have hwaits : (if waits (some c) = true then 0 else 1) = 1 := by simp [waits, hthread]
      rw [hwaits]
      simp only [close, hc, hthread]
      refine work_lower h h hs rfl rfl ?_
      have hawait := handlerWork_await hthread
      simp only [hookWork, hclosing, hc]
      omega
    | waiting n =>
      have hwaits : waits (some c) = true := by simp [waits, hthread]
      simp [hwaits, close, hc, hthread]
    | returned result =>
      have hwaits : (if waits (some c) = true then 0 else 1) = 1 := by simp [waits, hthread]
      rw [hwaits]
      simp only [close, hc, hthread]
      refine work_lower h (hookOf none) hs rfl rfl ?_
      simpa only [log, hc] using ends none

theorem poll_work {s : St ε} {a : ShutdownHook.St Unit ε} (h : Hooked s a) (hlive : s.jvm ≠ .halted)
    (hpolling : a.thread = .polling) :
    work { s with shutdownHook := some (ShutdownHook.step a .poll) } + 1 ≤ work s := by
  refine work_lower h.shutdownHook rfl hlive rfl rfl ?_
  cases hqueue : a.shutdownActions with
  | nil =>
    have hended : s.hookEnded = false := by
      by_contra hno
      exact absurd (h.ended (by simpa using hno)) (by simp [hpolling])
    simp [ShutdownHook.step, hpolling, ShutdownHook.poll, hqueue, hookWork, hended]
  | cons u rest =>
    have hc : s.completionHandler = none := by
      rcases h.stage.of_free (by simp [hpolling]) with ⟨-, hc, -⟩ | ⟨hclosed, -, -⟩
      · exact hc
      · have hlen := h.row.imp (congrArg List.length) (congrArg List.length)
        simp [hclosed, hqueue] at hlen
    simp only [ShutdownHook.step, hpolling, ShutdownHook.poll, hqueue, hookWork, hc, handlerWork, actionWork,
      List.length_cons, Nat.succ_mul]
    omega

theorem hook_work {s : St ε} (h : Inv s) (hs : s.jvm = .exiting) (thrown : Option ε) :
    work (hook s thrown) + (if goesOn s (.hook thrown) = true then 1 else 0) ≤ work s := by
  have hlive : s.jvm ≠ .halted := by simp [hs]
  rcases h with h | ⟨a, h⟩
  · simp [goesOn, hook, h.shutdownHook]
  · cases hthread : a.thread with
    | new => simp [goesOn, hook, h.shutdownHook, hthread]
    | terminated =>
      cases hended : s.hookEnded <;>
        simp [goesOn, hook, h.shutdownHook, hthread, work, hs, hookWork, hended]
    | closing u =>
      have hhook : hook s thrown = close s thrown := by simp only [hook, h.shutdownHook, hthread]
      have hclose := close_work h.shutdownHook hlive hthread thrown
      rw [hhook]
      cases hwaits : waits s.completionHandler <;> simpa [goesOn, hs, h.shutdownHook, hthread, hwaits] using hclose
    | polling =>
      have hgoes : goesOn s (.hook thrown) = true := by simp [goesOn, hs, h.shutdownHook, hthread]
      have hhook : hook s thrown = { s with shutdownHook := some (ShutdownHook.step a .poll) } := by
        simp only [hook, h.shutdownHook, hthread]
      rw [hgoes, hhook, if_pos rfl]
      exact poll_work h hlive hthread

theorem Main.work_le {m m' : Main} (h : m'.registers = true → m.registers = true) : m'.work ≤ m.work := by
  unfold Main.work
  split_ifs with h' hm
  · exact le_rfl
  · exact absurd (h h') hm
  · exact Nat.zero_le _
  · exact le_rfl

/-- once the JVM exits `start` registers one action at most -/
theorem line_work {s s' : St ε} (h : Inv s) (hs : s.jvm = .exiting) (hl : Line s s') : work s' ≤ work s := by
  -- the work of the hook's thread is the same, that of `start` not more
  have next : ∀ s' : St ε, s'.jvm = s.jvm → s'.shutdownHook = s.shutdownHook → s'.hookEnded = s.hookEnded →
      s'.completionHandler = s.completionHandler → (s'.main.registers = true → s.main.registers = true) →
      work s' ≤ work s := by
    intro s' hjvm hhook hended hhandler hmain
    simp only [work, hjvm, hhook, hended, hhandler, hs]
    simpa using Main.work_le hmain
  cases hl with
  | stays => exact le_rfl
  | goes m hm => exact next _ rfl rfl rfl rfl (Main.goesTo_registers hm)
  | hooked hmain hjvm name => simp [hs] at hjvm
  | started hmain => exact next _ rfl rfl rfl rfl (by simp [hmain, Main.registers])
  | failed hmain e => exact next _ rfl rfl rfl rfl (by simp [hmain, Main.registers])
  | added hmain =>
    rcases h with h | ⟨a, h⟩
    · exact absurd h.main (by simp [hmain])
    · have hadd : s.shutdownHook.map (ShutdownHook.step · (.addLast ())) = some (ShutdownHook.addLast a ()) := by
        simp [h.shutdownHook, ShutdownHook.step]
      simp only [hadd]
      rw [work_hooked h.shutdownHook (by simp [hs]), work_hooked rfl (by simp [hs])]
      cases hthread : a.thread with
      | terminated => simp [hookWork, ShutdownHook.addLast, hthread, Main.work, Main.registers]
      | _ =>
        simp [hookWork, ShutdownHook.addLast, hthread, Main.work, Main.registers, hmain, Nat.add_mul]
        omega
  | exits hmain => simpa only [exit, hs] using next { s with main := .exit } rfl rfl rfl rfl (by simp [Main.registers])

/-- what raises the work of no handler raises none -/
theorem handler_work {s : St ε} (hs : s.jvm = .exiting) {o : HttpServerCompletionHandler.Op ε}
    (ho : handlerWork (s.completionHandler.map (HttpServerCompletionHandler.step · o)) ≤
      handlerWork s.completionHandler) : work (handler s o) ≤ work s := by
  cases hhook : s.shutdownHook with
  | none => simp [handler, work, hs, hhook]
  | some a =>
    rw [work_hooked (s := handler s o) hhook (by simp [handler, hs]), work_hooked hhook (by simp [hs])]
    cases hthread : a.thread with
    | closing u =>
      simp only [handler, hookWork, hthread]
      omega
    | terminated =>
      simp only [handler, hookWork, hthread]
      exact le_rfl
    | _ => simp [handler, hookWork, hthread]

theorem interrupt_work {s : St ε} (hs : s.jvm = .exiting) : work (interrupt s) ≤ work s := by
  have hinterrupted : work { handler s .interrupt with interrupted := true } ≤ work s :=
    handler_work hs (handlerWork_interrupt s.completionHandler)
  unfold interrupt
  split
  · exact hinterrupted
  · exact hinterrupted
  · exact le_rfl

theorem tick_work {s : St ε} (hs : s.jvm = .exiting) :
    work (handler s .tick) + (if goesOn s .tick = true then 1 else 0) ≤ work s := by
  cases hhook : s.shutdownHook with
  | none => simp [handler, goesOn, work, hs, hhook]
  | some a =>
    have htick := handlerWork_tick s.completionHandler
    rw [work_hooked (s := handler s .tick) hhook (by simp [handler, hs]), work_hooked hhook (by simp [hs])]
    cases hthread : a.thread with
    | closing u =>
      have hgoes : goesOn s .tick = waits s.completionHandler := by simp [goesOn, hs, hhook, hthread]
      rw [hgoes]
      simp only [handler, hookWork, hthread]
      omega
    | _ => simp [handler, goesOn, hookWork, hhook, hthread]

theorem halt_work {s : St ε} (hs : s.jvm = .exiting) :
    work (halt s) + (if goesOn s .halt = true then 1 else 0) ≤ work s := by
  unfold halt
  cases hended : s.shutdownHook.isNone || s.hookEnded with
  | true => simp [goesOn, work, hs, hended]
  | false => simp [goesOn, work, hs, hended]

theorem close_jvm (s : St ε) (thrown : Option ε) : (close s thrown).jvm = s.jvm := by
  unfold close
  cases s.completionHandler with
  | none => cases thrown <;> rfl
  | some c => cases hthread : c.thread <;> simp [hthread, log]

/-- an exit is final -/
theorem step_exiting {s : St ε} (h : s.jvm ≠ .running) (o : Op ε) : (step s o).jvm ≠ .running := by
  have hexit : ∀ s' : St ε, (exit s').jvm ≠ .running := by
    intro s'
    cases hjvm : s'.jvm <;> simp [exit, hjvm]
  have hm := step_move s o
  generalize step s o = s' at hm ⊢
  cases hm with
  | start outcome hl =>
    cases hl with
    | exits hs => exact hexit _
    | _ => exact h
  | exit => exact hexit s
  | close hlive ha ht thrown => rwa [close_jvm]
  | halt hs hends =>
    intro hrunning
    cases hrunning
  | _ => exact h

/-- a step of the exit lowers the work, and no other step raises it -/
theorem step_work {s : St ε} (h : Inv s) (hs : s.jvm ≠ .running) (o : Op ε) :
    work (step s o) + (if goesOn s o = true then 1 else 0) ≤ work s := by
  unfold step
  cases hjvm : s.jvm with
  | running => exact absurd hjvm hs
  | halted => simp [goesOn, hjvm]
  | exiting =>
    rw [if_neg (by decide)]
    cases o with
    | start outcome => simpa [goesOn] using line_work h hjvm (start_line s outcome)
    | exit => simp [goesOn, exit, hjvm]
    | hook thrown => exact hook_work h hjvm thrown
    | interrupt => simpa [goesOn] using interrupt_work hjvm
    | server callback => simpa [goesOn] using handler_work hjvm (handlerWork_server s.completionHandler callback.2)
    | tick => exact tick_work hjvm
    | halt => exact halt_work hjvm

theorem exit_spends (o : Op ε) :
    Spends step goesOn (fun s n => Inv s ∧ s.jvm ≠ .running ∧ work s ≤ n) o := by
  intro s n h
  obtain ⟨hinv, hs, hwork⟩ := h
  have hstep := step_work hinv hs o
  exact ⟨work (step s o), ⟨step_inv hinv o, step_exiting hs o, le_rfl⟩, by omega⟩

theorem foldl_exiting {s : St ε} (h : s.jvm ≠ .running) (ops : List (Op ε)) : (ops.foldl step s).jvm ≠ .running := by
  induction ops generalizing s with
  | nil => exact h
  | cons o ops ih => exact ih (step_exiting h o)

/-- before the exit nothing is called -/
theorem step_handler {s : St ε} (h : Inv s) (hs : s.jvm = .running) (o : Op ε) :
    (step s o).completionHandler = none := by
  have hnone : s.completionHandler = none := by
    rcases h with h | ⟨a, h⟩
    · exact h.completionHandler
    · exact (h.stage.of_new (h.started.2 hs)).2.1
  have hm := step_move s o
  generalize step s o = s' at hm ⊢
  cases hm with
  | start outcome hl =>
    cases hl with
    | exits hs' => simp [hnone]
    | _ => exact hnone
  | exit => simp [hnone]
  | close hlive ha ht thrown =>
    have hnew := (h.hooked ha).started.2 hs
    rw [ht] at hnew
    cases hnew
  | interrupt => simp [handler, hnone]
  | server callback => simp [handler, hnone]
  | tick => simp [handler, hnone]
  | _ => exact hnone

/-- one action at most is queued, polled or yet to be registered -/
theorem work_uncalled {s : St ε} (h : Inv s) (hc : s.completionHandler = none) : work s ≤ timeoutMillis + 7 := by
  unfold work
  split_ifs
  · omega
  rcases h with h | ⟨a, h⟩
  · have hmain : s.main.work = 0 := by
      have hm := h.main
      simp at hm
      rcases hm with hm | hm | hm | hm | hm <;> simp [hm, Main.work, Main.registers]
    simp [h.shutdownHook, hmain]
  · have hwork : hookWork a s.hookEnded none ≤
        a.shutdownActions.length * actionWork + a.closed.length * (timeoutMillis + 3) + 2 := by
      cases hthread : a.thread with
      | closing u => simp [hookWork, hthread, (h.stage.of_closing hthread).1, handlerWork]
      | terminated =>
        simp only [hookWork, hthread]
        split_ifs <;> omega
      | _ => simp [hookWork, hthread]
    have hrow := h.row.imp (congrArg List.length) (congrArg List.length)
    rw [List.length_append, List.length_nil, List.length_singleton] at hrow
    rw [h.shutdownHook, Option.elim_some, hc]
    cases hmain : s.main.registers with
    | false =>
      have hzero : s.main.work = 0 := by simp [Main.work, hmain]
      have hcases : (a.shutdownActions.length = 0 ∧ a.closed.length = 0) ∨
          (a.shutdownActions.length = 1 ∧ a.closed.length = 0) ∨
          (a.shutdownActions.length = 0 ∧ a.closed.length = 1) := by omega
      rcases hcases with ⟨hq, hcl⟩ | ⟨hq, hcl⟩ | ⟨hq, hcl⟩ <;> rw [hq, hcl, actionWork] at hwork <;> omega
    | true =>
      have haction : s.main.work = actionWork := by simp [Main.work, hmain]
      have hempty := congrArg List.length (h.unregistered hmain)
      rw [List.length_append, List.length_nil] at hempty
      have hzero : a.shutdownActions.length = 0 ∧ a.closed.length = 0 := by omega
      rw [hzero.1, hzero.2] at hwork
      rw [haction, actionWork]
      omega

/-- the work of an exit, from its begin on -/
theorem exit_work (ops : List (Op ε)) (h : (run ops).jvm ≠ .running) : work (run ops) ≤ timeoutMillis + 7 := by
  induction ops using List.reverseRecOn with
  | nil => exact absurd rfl h
  | append_singleton ops o ih =>
    rw [run_snoc] at h ⊢
    by_cases hrunning : (run ops).jvm = .running
    · exact work_uncalled (step_inv (run_inv ops) o) (step_handler (run_inv ops) hrunning o)
    · have hstep := step_work (run_inv ops) hrunning o
      have hbefore := ih hrunning
      omega

/-- until the JVM has halted one of the three has a step to make -/
theorem exit_goes_on {s : St ε} (h : Inv s) (hs : s.jvm = .exiting) :
    ∃ o ∈ [.hook none, .tick, .halt], goesOn s o = true := by
  rcases h with h | ⟨a, h⟩
  · exact ⟨.halt, by simp, by simp [goesOn, hs, h.shutdownHook]⟩
  · cases hthread : a.thread with
    | new => exact absurd (h.started.1 hthread) (by simp [hs])
    | polling => exact ⟨.hook none, by simp, by simp [goesOn, hs, h.shutdownHook, hthread]⟩
    | terminated =>
      cases hended : s.hookEnded with
      | true => exact ⟨.halt, by simp, by simp [goesOn, hs, hended]⟩
      | false => exact ⟨.hook none, by simp, by simp [goesOn, hs, h.shutdownHook, hthread, hended]⟩
    | closing u =>
      cases hwaits : waits s.completionHandler with
      | true => exact ⟨.tick, by simp, by simp [goesOn, hs, h.shutdownHook, hthread, hwaits]⟩
      | false => exact ⟨.hook none, by simp, by simp [goesOn, hs, h.shutdownHook, hthread, hwaits]⟩

/-- **The exit completes.** -/
theorem exit_completes (ops more : List (Op ε)) (h : (run ops).jvm ≠ .running) :
    progress (run ops) more ≤ timeoutMillis + 7 ∧ ((run (ops ++ more)).jvm = .halted ∨
      ∃ o ∈ [.hook none, .tick, .halt], goesOn (run (ops ++ more)) o = true) := by
  have hsplit : run (ops ++ more) = more.foldl step (run ops) := by simp [run, List.foldl_append]
  refine ⟨counted_le (fun o _ => exit_spends o) ⟨run_inv ops, h, exit_work ops h⟩, ?_⟩
  cases hjvm : (run (ops ++ more)).jvm with
  | running => exact absurd (hsplit ▸ hjvm) (foldl_exiting h more)
  | exiting => exact Or.inr (exit_goes_on (run_inv (ops ++ more)) hjvm)
  | halted => exact Or.inl rfl

/-- the started application is told to exit, and its server tells that it completed -/
def told : List (Op Unit) := List.replicate 7 (.start .returns) ++ [.exit]

def served : List (Op Unit) :=
  [.hook none, .hook none, .hook none, .server ⟨.completed, rfl⟩, .hook none, .hook none, .hook none, .halt]

theorem served_completes : progress (run told) served ≤ timeoutMillis + 7 ∧
    ((run (told ++ served)).jvm = .halted ∨
      ∃ o ∈ [.hook none, .tick, .halt], goesOn (run (told ++ served)) o = true) :=
  exit_completes told served (by decide)

example : (run (told ++ served)).jvm = .halted ∧ (run (told ++ served)).shutdowns = 1 := ⟨rfl, rfl⟩

end BankServices.Webapp.WebAppBase
