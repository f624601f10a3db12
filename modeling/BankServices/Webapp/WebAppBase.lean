/-
`WebAppBase`: the application from its start to the halt of the JVM.

Three threads share the state: the one that runs `WebAppBase.start` and in it `WebServer.start`, the one of the shutdown
hook, which closes the action of `WebServer.createShutdownAction`, and the threads of the server, which call back. The
JVM can begin to exit at any point, the hook's thread can be interrupted, and the JVM halts when that thread has ended.
A run is any list of steps of these, in any order. Any line of `start` may throw, also the last one, which only logs,
and the one that logs what was caught. Of the hook's thread the call of `HttpServer.shutdown` may; its own lines of log
are taken to return.

The hook's thread leaves its loop with the poll that finds the deque empty, and ends one step later. What is added in
between is never closed.

- `start_line`, `step_move`: all that a line of `start`, and a step, can do.
- `run_inv`: in every run one shutdown action at most is registered, by one line of `start` and when the hook is there,
  and how far it has come agrees with the hook's thread (`Stage`).
- `halted_cases`: when the JVM has halted the server was not shut down, or the wait for it is over, or the call threw.
-/
import Mathlib.Tactic
import BankServices.Webapp.ShutdownHook
import BankServices.Webapp.HttpServerCompletionHandler

namespace BankServices.Webapp.WebAppBase

open HttpServerCompletionHandler (MSG_PREFIX)

/-! ## Model -/

/-- the next line of `WebAppBase.start`, with the lines before it that only log or measure the time;
`createHttpServer`, for all that comes before the server is started, and `httpServerStart` are those of
`WebServer.start` -/
inductive Main where
  | initLogging
  | instantiateShutdownHook
  | createResourceConfig
  | createHttpServer
  | httpServerStart
  | addLast
  /-- the last line logs that the start is done -/
  | logDone
  | done
  /-- what was thrown is caught, and is logged before the exit -/
  | caught
  /-- the call of `exit` does not return -/
  | exit
  /-- thrown where nothing catches it: before the block, or while the caught one is logged -/
  | died
deriving DecidableEq, Repr

/-- the lines between the hook and the registration of the shutdown action -/
def Main.registers : Main → Bool
  | .createResourceConfig | .createHttpServer | .httpServerStart | .addLast => true
  | _ => false

inductive Jvm where
  | running
  | exiting
  | halted
deriving DecidableEq, Repr

/-- how a line ends -/
inductive Outcome (ε : Type) where
  | returns
  | ioException (e : ε)
  | throws (ex : ε)
deriving DecidableEq, Repr

/-- a callback of the server -/
abbrev Callback (ε : Type) := { o : HttpServerCompletionHandler.Op ε // o.ofServer = true }

structure St (ε : Type) where
  main : Main
  jvm : Jvm
  shutdownHook : Option (ShutdownHook.St Unit ε)
  /-- the hook's thread has ended, after its loop -/
  hookEnded : Bool
  /-- the hook's thread was interrupted while it ran -/
  interrupted : Bool
  /-- `HttpServer.start` has returned -/
  started : Bool
  /-- the calls of `HttpServer.shutdown` -/
  shutdowns : ℕ
  completionHandler : Option (HttpServerCompletionHandler.St ε)
  /-- what `WebServer` logs -/
  LOG : List (String × Option ε)

inductive Op (ε : Type) where
  /-- the next line of `start` -/
  | start (outcome : Outcome ε)
  /-- the JVM is told to exit -/
  | exit
  /-- the next line of the hook's thread; the call of `HttpServer.shutdown` may throw -/
  | hook (thrown : Option ε)
  /-- the hook's thread is interrupted -/
  | interrupt
  /-- the server calls back -/
  | server (callback : Callback ε)
  /-- a millisecond passes -/
  | tick
  /-- the JVM halts, when the hook's thread has ended -/
  | halt
deriving DecidableEq

variable {ε : Type}

def init : St ε := ⟨.initLogging, .running, none, false, false, false, 0, none, []⟩

def timeoutMillis : ℕ := 60000

def log (s : St ε) (message : String) (throwable : Option ε) : St ε := { s with LOG := s.LOG ++ [(message, throwable)] }

/-- the first exit starts the hook's thread -/
def exit (s : St ε) : St ε :=
  match s.jvm with
  | .running => { s with jvm := .exiting, shutdownHook := s.shutdownHook.map (ShutdownHook.step · .start) }
  | _ => s

@[simp] theorem exit_shutdowns (s : St ε) : (exit s).shutdowns = s.shutdowns := by
  unfold exit
  cases s.jvm <;> rfl

@[simp] theorem exit_interrupted (s : St ε) : (exit s).interrupted = s.interrupted := by
  unfold exit
  cases s.jvm <;> rfl

@[simp] theorem exit_completionHandler (s : St ε) : (exit s).completionHandler = s.completionHandler := by
  unfold exit
  cases s.jvm <;> rfl

@[simp] theorem exit_LOG (s : St ε) : (exit s).LOG = s.LOG := by
  unfold exit
  cases s.jvm <;> rfl

def caught (s : St ε) : St ε := { s with main := .caught }

/-- a shutdown hook cannot be added to a JVM that exits -/
def instantiateShutdownHook (s : St ε) (name : String) : St ε :=
  match s.jvm with
  | .running => { s with shutdownHook := some (ShutdownHook.init name), main := .createResourceConfig }
  | _ => caught s

def start (s : St ε) (outcome : Outcome ε) : St ε :=
  match s.main with
  | .initLogging =>
    match outcome with
    | .returns => { s with main := .instantiateShutdownHook }
    | _ => { s with main := .died }
  | .instantiateShutdownHook =>
    match outcome with
    | .returns => instantiateShutdownHook s "graceful shutdown"
    | _ => caught s
  | .createResourceConfig =>
    match outcome with
    | .returns => { s with main := .createHttpServer }
    | _ => caught s
  | .createHttpServer =>
    match outcome with
    | .returns => { s with main := .httpServerStart }
    | _ => caught s
  | .httpServerStart =>
    match outcome with
    | .returns => { s with started := true, main := .addLast }
    -- only this is caught in `WebServer.start`, which returns the shutdown action all the same
    | .ioException e => { log s "Start server - failed" (some e) with main := .addLast }
    | .throws _ => caught s
  | .addLast =>
    match outcome with
    | .returns => { s with shutdownHook := s.shutdownHook.map (ShutdownHook.step · (.addLast ())), main := .logDone }
    | _ => caught s
  | .logDone =>
    match outcome with
    | .returns => { s with main := .done }
    | _ => caught s
  | .caught =>
    match outcome with
    | .returns => exit { s with main := .exit }
    | _ => { s with main := .died }
  | .done | .exit | .died => s

/-- what the shutdown action logs at its end -/
def message (result : Bool) : String :=
  if result = true then "Shutdown HTTP server - completed" else "Shutdown HTTP server - forced exit"

/-- the handler of a thread that may have been interrupted before -/
def newHandler (interrupted : Bool) : HttpServerCompletionHandler.St ε :=
  { HttpServerCompletionHandler.init timeoutMillis with interrupted := interrupted }

/-- the next line of the shutdown action -/
def close (s : St ε) (thrown : Option ε) : St ε :=
  match s.completionHandler with
  | none =>
    let s' := { log s (MSG_PREFIX ++ " initiated...") none with shutdowns := s.shutdowns + 1 }
    match thrown with
    | none => { s' with completionHandler := some (newHandler s.interrupted) }
    | some ex => { s' with shutdownHook := s.shutdownHook.map (ShutdownHook.step · (.closeEnds (some ex))) }
  | some completionHandler =>
    match completionHandler.thread with
    | .running => { s with completionHandler := some (HttpServerCompletionHandler.step completionHandler .await) }
    | .waiting _ => s
    | .returned result =>
      { log s (message result) none with shutdownHook := s.shutdownHook.map (ShutdownHook.step · (.closeEnds none)) }

def hook (s : St ε) (thrown : Option ε) : St ε :=
  match s.shutdownHook with
  | none => s
  | some shutdownHook =>
    match shutdownHook.thread with
    | .new => s
    | .polling => { s with shutdownHook := some (ShutdownHook.step shutdownHook .poll) }
    | .closing _ => close s thrown
    -- the loop is left already
    | .terminated => { s with hookEnded := true }

/-- an operation of the handler -/
def handler (s : St ε) (o : HttpServerCompletionHandler.Op ε) : St ε :=
  { s with completionHandler := s.completionHandler.map (HttpServerCompletionHandler.step · o) }

/-- the thread keeps an interrupt until it waits; an interrupt has no effect before its loop, nor after it -/
def interrupt (s : St ε) : St ε :=
  match s.shutdownHook.map ShutdownHook.St.thread with
  | some .polling | some (.closing _) => { handler s .interrupt with interrupted := true }
  | _ => s

def halt (s : St ε) : St ε :=
  if s.jvm = .exiting ∧ (s.shutdownHook.isNone || s.hookEnded) = true then { s with jvm := .halted } else s

def step (s : St ε) (o : Op ε) : St ε :=
  if s.jvm = .halted then s
  else
    match o with
    | .start outcome => start s outcome
    | .exit => exit s
    | .hook thrown => hook s thrown
    | .interrupt => interrupt s
    | .server callback => handler s callback.1
    | .tick => handler s .tick
    | .halt => halt s

def run (ops : List (Op ε)) : St ε := ops.foldl step init

/-! ## What a step does -/

/-- the lines of `start` that leave the hook alone, by the line that follows -/
def Main.goesTo : Main → Main → Bool
  | .initLogging, .instantiateShutdownHook | .initLogging, .died => true
  | .createResourceConfig, .createHttpServer | .createHttpServer, .httpServerStart | .httpServerStart, .addLast => true
  | .logDone, .done | .caught, .exit | .caught, .died => true
  | .instantiateShutdownHook, .caught | .createResourceConfig, .caught | .createHttpServer, .caught => true
  | .httpServerStart, .caught | .addLast, .caught | .logDone, .caught => true
  | _, _ => false

theorem Main.goesTo_unhooked {m m' : Main} (h : m.goesTo m' = true)
    (hm : m ∈ [.initLogging, .instantiateShutdownHook, .caught, .exit, .died]) :
    m' ∈ [.initLogging, .instantiateShutdownHook, .caught, .exit, .died] := by
  revert h hm
  cases m <;> cases m' <;> decide

theorem Main.goesTo_hooked {m m' : Main} (h : m.goesTo m' = true) (hm : m ∉ [.initLogging, .instantiateShutdownHook]) :
    m' ∉ [.initLogging, .instantiateShutdownHook] ∧ (m' ∈ [.logDone, .done] → m ∈ [.logDone, .done]) := by
  revert h hm
  cases m <;> cases m' <;> decide

theorem Main.goesTo_registers {m m' : Main} (h : m.goesTo m' = true) (hm : m'.registers = true) :
    m.registers = true := by
  revert h hm
  cases m <;> cases m' <;> decide

/-- what a line of `start` does -/
inductive Line (s : St ε) : St ε → Prop where
  | stays : Line s s
  | goes (m : Main) (hm : s.main.goesTo m = true) : Line s { s with main := m }
  | hooked (hs : s.main = .instantiateShutdownHook) (hjvm : s.jvm = .running) (name : String) :
      Line s { s with shutdownHook := some (ShutdownHook.init name), main := .createResourceConfig }
  | started (hs : s.main = .httpServerStart) : Line s { s with started := true, main := .addLast }
  | failed (hs : s.main = .httpServerStart) (e : ε) :
      Line s { log s "Start server - failed" (some e) with main := .addLast }
  | added (hs : s.main = .addLast) :
      Line s { s with shutdownHook := s.shutdownHook.map (ShutdownHook.step · (.addLast ())), main := .logDone }
  | exits (hs : s.main = .caught) : Line s (exit { s with main := .exit })

theorem start_line (s : St ε) (outcome : Outcome ε) : Line s (start s outcome) := by
  have goes : ∀ m m', s.main = m → m.goesTo m' = true → Line s { s with main := m' } :=
    fun m m' hm h => .goes m' (hm ▸ h)
  unfold start
  cases hmain : s.main with
  | initLogging => cases outcome <;> exact goes _ _ hmain rfl
  | instantiateShutdownHook =>
    cases outcome with
    | returns =>
      cases hjvm : s.jvm with
      | running => simpa only [instantiateShutdownHook, hjvm] using Line.hooked hmain hjvm "graceful shutdown"
      | _ =>
        have hcaught : instantiateShutdownHook s "graceful shutdown" = caught s := by
          simp only [instantiateShutdownHook, hjvm]
        rw [hcaught]
        exact goes _ _ hmain rfl
    | _ => exact goes _ _ hmain rfl
  | httpServerStart =>
    cases outcome with
    | returns => exact .started hmain
    | ioException e => exact .failed hmain e
    | throws ex => exact goes _ _ hmain rfl
  | addLast =>
    cases outcome with
    | returns => exact .added hmain
    | _ => exact goes _ _ hmain rfl
  | caught =>
    cases outcome with
    | returns => exact .exits hmain
    | _ => exact goes _ _ hmain rfl
  | done => exact .stays
  | exit => exact .stays
  | died => exact .stays
  | _ => cases outcome <;> exact goes _ _ hmain rfl

/-- what a step does; none is made when the JVM has halted or there is nothing to do -/
inductive Move (s : St ε) : Op ε → St ε → Prop where
  | idle (o : Op ε) : Move s o s
  | start (outcome : Outcome ε) {s' : St ε} (h : Line s s') : Move s (.start outcome) s'
  | exit : Move s .exit (exit s)
  | poll {a : ShutdownHook.St Unit ε} (hlive : s.jvm ≠ .halted) (ha : s.shutdownHook = some a)
      (ht : a.thread = .polling) (thrown : Option ε) :
      Move s (.hook thrown) { s with shutdownHook := some (ShutdownHook.step a .poll) }
  | close {a : ShutdownHook.St Unit ε} (hlive : s.jvm ≠ .halted) (ha : s.shutdownHook = some a)
      (ht : a.thread = .closing ()) (thrown : Option ε) : Move s (.hook thrown) (close s thrown)
  | ended {a : ShutdownHook.St Unit ε} (ha : s.shutdownHook = some a) (ht : a.thread = .terminated)
      (thrown : Option ε) : Move s (.hook thrown) { s with hookEnded := true }
  | interrupt : Move s .interrupt { handler s .interrupt with interrupted := true }
  | server (callback : Callback ε) : Move s (.server callback) (handler s callback.1)
  | tick : Move s .tick (handler s .tick)
  | halt (hs : s.jvm = .exiting) (h : (s.shutdownHook.isNone || s.hookEnded) = true) :
      Move s .halt { s with jvm := .halted }

theorem step_move (s : St ε) (o : Op ε) : Move s o (step s o) := by
  unfold step
  by_cases hs : s.jvm = .halted
  · rw [if_pos hs]
    exact .idle o
  rw [if_neg hs]
  cases o with
  | start outcome => exact .start outcome (start_line s outcome)
  | exit => exact .exit
  | hook thrown =>
    have hmove : ∀ s', hook s thrown = s' → Move s (.hook thrown) s' → Move s (.hook thrown) (hook s thrown) :=
      fun s' h hm => h ▸ hm
    cases ha : s.shutdownHook with
    | none => exact hmove s (by simp only [hook, ha]) (.idle _)
    | some a =>
      cases ht : a.thread with
      | new => exact hmove s (by simp only [hook, ha, ht]) (.idle _)
      | polling => exact hmove _ (by simp only [hook, ha, ht]) (.poll hs ha ht thrown)
      | closing u => exact hmove _ (by simp only [hook, ha, ht]) (.close hs ha ht thrown)
      | terminated => exact hmove _ (by simp only [hook, ha, ht]) (.ended ha ht thrown)
  | interrupt =>
    simp only [interrupt]
    split
    · exact .interrupt
    · exact .interrupt
    · exact .idle _
  | server callback => exact .server callback
  | tick => exact .tick
  | halt =>
    simp only [halt]
    split_ifs with h
    · exact .halt h.1 h.2
    · exact .idle _

/-! ## What holds in every run -/

/-- the wait for the server is over, or the call of `shutdown` threw -/
def Ended (h : ShutdownHook.St Unit ε) (c : Option (HttpServerCompletionHandler.St ε)) : Prop :=
  (c = none ∧ h.LOG ≠ []) ∨ ∃ c' result, c = some c' ∧ c'.thread = .returned result

/-- how far the shutdown of the server has come -/
inductive Stage (h : ShutdownHook.St Unit ε) : Option (HttpServerCompletionHandler.St ε) → ℕ → Prop where
  | idle (hclosed : h.closed = []) (hthread : ∀ a, h.thread ≠ .closing a) : Stage h none 0
  | polled (hclosed : h.closed = [()]) (hthread : h.thread = .closing ()) : Stage h none 0
  | called (c : HttpServerCompletionHandler.St ε) (hclosed : h.closed = [()]) (hthread : h.thread = .closing ()) :
      Stage h (some c) 1
  | ended (c : Option (HttpServerCompletionHandler.St ε)) (hclosed : h.closed = [()])
      (hthread : h.thread = .polling ∨ h.thread = .terminated) (hended : Ended h c) : Stage h c 1

variable {h : ShutdownHook.St Unit ε} {c : Option (HttpServerCompletionHandler.St ε)} {n : ℕ}

theorem Stage.of_new (hstage : Stage h c n) (hthread : h.thread = .new) : h.closed = [] ∧ c = none ∧ n = 0 := by
  cases hstage with
  | idle hclosed _ => exact ⟨hclosed, rfl, rfl⟩
  | polled _ hclosing => simp [hthread] at hclosing
  | called _ _ hclosing => simp [hthread] at hclosing
  | ended _ _ hafter _ => simp [hthread] at hafter

theorem Stage.of_unclosed (hstage : Stage h c n) (hclosed : h.closed = []) :
    c = none ∧ n = 0 ∧ ∀ a, h.thread ≠ .closing a := by
  cases hstage with
  | idle _ hthread => exact ⟨rfl, rfl, hthread⟩
  | polled hone _ => simp [hclosed] at hone
  | called _ hone _ => simp [hclosed] at hone
  | ended _ hone _ _ => simp [hclosed] at hone

theorem Stage.of_closing (hstage : Stage h c n) (hclosing : h.thread = .closing ()) :
    h.closed = [()] ∧ n = if c.isSome = true then 1 else 0 := by
  cases hstage with
  | idle _ hthread => exact absurd hclosing (hthread ())
  | polled hclosed _ => exact ⟨hclosed, rfl⟩
  | called _ hclosed _ => exact ⟨hclosed, rfl⟩
  | ended _ _ hafter _ => simp [hclosing] at hafter

/-- between two actions, or after the last one -/
theorem Stage.of_free (hstage : Stage h c n) (hthread : ∀ a, h.thread ≠ .closing a) :
    (h.closed = [] ∧ c = none ∧ n = 0) ∨ (h.closed = [()] ∧ n = 1 ∧ Ended h c) := by
  cases hstage with
  | idle hclosed _ => exact Or.inl ⟨hclosed, rfl, rfl⟩
  | polled _ hclosing => exact absurd hclosing (hthread ())
  | called _ _ hclosing => exact absurd hclosing (hthread ())
  | ended _ hclosed _ hended => exact Or.inr ⟨hclosed, rfl, hended⟩

theorem Stage.of_uncalled (hstage : Stage h c 0) : c = none := by
  cases hstage <;> rfl

theorem Stage.le_one (hstage : Stage h c n) : n ≤ 1 := by
  cases hstage <;> decide

structure Unhooked (s : St ε) : Prop where
  main : s.main ∈ [.initLogging, .instantiateShutdownHook, .caught, .exit, .died]
  shutdownHook : s.shutdownHook = none
  hookEnded : s.hookEnded = false
  completionHandler : s.completionHandler = none
  shutdowns : s.shutdowns = 0

structure Hooked (s : St ε) (h : ShutdownHook.St Unit ε) : Prop where
  main : s.main ∉ [.initLogging, .instantiateShutdownHook]
  shutdownHook : s.shutdownHook = some h
  row : h.closed ++ h.shutdownActions = [] ∨ h.closed ++ h.shutdownActions = [()]
  unregistered : s.main.registers = true → h.closed ++ h.shutdownActions = []
  registered : s.main ∈ [.logDone, .done] → h.closed ++ h.shutdownActions = [()]
  started : h.thread = .new ↔ s.jvm = .running
  ended : s.hookEnded = true → h.thread = .terminated
  halted : s.jvm = .halted → s.hookEnded = true
  stage : Stage h s.completionHandler s.shutdowns

def Inv (s : St ε) : Prop := Unhooked s ∨ ∃ h, Hooked s h

theorem init_inv : Inv (init : St ε) := Or.inl ⟨by simp [init], rfl, rfl, rfl, rfl⟩

/-- what the hook and `start` do not look at -/
theorem Inv.congr {s s' : St ε} (h : Inv s) (hmain : s'.main = s.main) (hjvm : s'.jvm = s.jvm)
    (hhook : s'.shutdownHook = s.shutdownHook) (hended : s'.hookEnded = s.hookEnded)
    (hc : s'.completionHandler = s.completionHandler) (hn : s'.shutdowns = s.shutdowns) : Inv s' := by
  obtain ⟨main, jvm, shutdownHook, hookEnded, interrupted, started, shutdowns, completionHandler, LOG⟩ := s'
  cases hmain
  cases hjvm
  cases hhook
  cases hended
  cases hc
  cases hn
  exact h.imp (fun h => ⟨h.1, h.2, h.3, h.4, h.5⟩) fun ⟨a, h⟩ => ⟨a, h.1, h.2, h.3, h.4, h.5, h.6, h.7, h.8, h.9⟩

theorem Inv.hooked {s : St ε} {a : ShutdownHook.St Unit ε} (h : Inv s) (ha : s.shutdownHook = some a) : Hooked s a := by
  rcases h with h | ⟨b, h⟩
  · rw [h.shutdownHook] at ha
    cases ha
  · have hb := h.shutdownHook
    rw [ha, Option.some.injEq] at hb
    exact hb ▸ h

/-- a line of `start` that leaves the hook alone -/
theorem Inv.line {s : St ε} (h : Inv s) {m : Main} (hm : s.main.goesTo m = true) : Inv { s with main := m } := by
  rcases h with h | ⟨a, h⟩
  · exact Or.inl ⟨Main.goesTo_unhooked hm h.main, h.shutdownHook, h.hookEnded, h.completionHandler, h.shutdowns⟩
  · obtain ⟨hmain, hafter⟩ := Main.goesTo_hooked hm h.main
    exact Or.inr ⟨a, hmain, h.shutdownHook, h.row, fun hr => h.unregistered (Main.goesTo_registers hm hr),
      fun hr => h.registered (hafter hr), h.started, h.ended, h.halted, h.stage⟩

/-- what the hook's thread does moves actions from the deque to the closed ones -/
theorem Hooked.thread {s : St ε} {h h' : ShutdownHook.St Unit ε} (hh : Hooked s h) (hs : s.jvm = .exiting)
    (hrow : h'.closed ++ h'.shutdownActions = h.closed ++ h.shutdownActions) (hlive : h.thread ≠ .terminated)
    (hnew : h'.thread ≠ .new) {c : Option (HttpServerCompletionHandler.St ε)} {n : ℕ} (hstage : Stage h' c n)
    {LOG : List (String × Option ε)} :
    Hooked { s with shutdownHook := some h', completionHandler := c, shutdowns := n, LOG := LOG } h' := by
  refine ⟨hh.main, rfl, ?_, ?_, ?_, ?_, ?_, hh.halted, hstage⟩
  · rw [hrow]
    exact hh.row
  · rw [hrow]
    exact hh.unregistered
  · rw [hrow]
    exact hh.registered
  · simp [hnew, hs]
  · intro hended
    exact absurd (hh.ended hended) hlive

theorem exit_inv {s : St ε} (h : Inv s) : Inv (exit s) := by
  unfold exit
  cases hjvm : s.jvm with
  | running =>
    rcases h with h | ⟨a, h⟩
    · exact Or.inl ⟨h.main, by simp [h.shutdownHook], h.hookEnded, h.completionHandler, h.shutdowns⟩
    · have hnew := h.started.2 hjvm
      have hstart : ShutdownHook.step a .start = { a with thread := .polling } := by simp only [ShutdownHook.step, hnew]
      obtain ⟨hclosed, hc, hn⟩ := h.stage.of_new hnew
      refine Or.inr ⟨{ a with thread := .polling }, h.main, by simp [h.shutdownHook, hstart], h.row, h.unregistered,
        h.registered, by simp, ?_, ?_, ?_⟩
      · intro hended
        exact absurd (h.ended hended) (by simp [hnew])
      · intro hhalted
        cases hhalted
      · simp only [hc, hn]
        exact .idle hclosed (by simp)
  | _ => exact h

theorem hooked_inv {s : St ε} (h : Inv s) (hs : s.main = .instantiateShutdownHook) (hjvm : s.jvm = .running)
    (name : String) :
    Inv { s with shutdownHook := some (ShutdownHook.init name), main := .createResourceConfig } := by
  rcases h with h | ⟨a, h⟩
  · refine Or.inr ⟨ShutdownHook.init name, by simp, rfl, Or.inl rfl, fun _ => rfl, by simp,
      by simp [ShutdownHook.init, hjvm], by simp [h.hookEnded], by simp [hjvm], ?_⟩
    simp only [h.completionHandler, h.shutdowns]
    exact .idle rfl (by simp [ShutdownHook.init])
  · exact absurd (by simp [hs]) h.main

/-- the shutdown action is registered once -/
theorem addLast_inv {s : St ε} (h : Inv s) (hs : s.main = .addLast) :
    Inv { s with shutdownHook := s.shutdownHook.map (ShutdownHook.step · (.addLast ())), main := .logDone } := by
  rcases h with h | ⟨a, h⟩
  · exact absurd h.main (by simp [hs])
  · have hrow := List.append_eq_nil_iff.1 (h.unregistered (by simp [hs, Main.registers]))
    have hone : (ShutdownHook.addLast a ()).closed ++ (ShutdownHook.addLast a ()).shutdownActions = [()] := by
      simp [ShutdownHook.addLast, hrow.1, hrow.2]
    refine Or.inr ⟨ShutdownHook.addLast a (), by simp, by simp [h.shutdownHook, ShutdownHook.step], Or.inr hone, ?_,
      fun _ => hone, h.started, h.ended, h.halted, ?_⟩
    · intro hregisters
      cases hregisters
    · obtain ⟨hc, hn, hthread⟩ := h.stage.of_unclosed hrow.1
      simp only [hc, hn]
      exact .idle hrow.1 hthread

theorem line_inv {s s' : St ε} (h : Inv s) (hl : Line s s') : Inv s' := by
  cases hl with
  | stays => exact h
  | goes m hm => exact h.line hm
  | hooked hs hjvm name => exact hooked_inv h hs hjvm name
  | started hs => exact (h.line (m := .addLast) (by rw [hs]; rfl)).congr rfl rfl rfl rfl rfl rfl
  | failed hs e => exact (h.line (m := .addLast) (by rw [hs]; rfl)).congr rfl rfl rfl rfl rfl rfl
  | added hs => exact addLast_inv h hs
  | exits hs => exact exit_inv (h.line (by rw [hs]; rfl))

/-- the server, the clock and an interrupt change the handler only -/
theorem handler_inv {s : St ε} (h : Inv s) (o : HttpServerCompletionHandler.Op ε) :
    Inv (handler s o) := by
  unfold handler
  rcases h with h | ⟨a, h⟩
  · exact Or.inl ⟨h.main, h.shutdownHook, h.hookEnded, by simp [h.completionHandler], h.shutdowns⟩
  · refine Or.inr ⟨a, h.main, h.shutdownHook, h.row, h.unregistered, h.registered, h.started, h.ended, h.halted, ?_⟩
    have hstage := h.stage
    generalize s.completionHandler = c at hstage ⊢
    generalize s.shutdowns = n at hstage ⊢
    cases hstage with
    | idle hclosed hthread => exact .idle hclosed hthread
    | polled hclosed hthread => exact .polled hclosed hthread
    | called c hclosed hthread => exact .called _ hclosed hthread
    | ended c hclosed hthread hended =>
      refine .ended _ hclosed hthread ?_
      rcases hended with ⟨rfl, hlog⟩ | ⟨c', result, rfl, hc⟩
      · exact Or.inl ⟨rfl, hlog⟩
      · exact Or.inr ⟨_, result, rfl, HttpServerCompletionHandler.step_returned hc o⟩

theorem close_inv {s : St ε} {a : ShutdownHook.St Unit ε} (h : Hooked s a) (hs : s.jvm = .exiting)
    (hclosing : a.thread = .closing ()) (thrown : Option ε) : Inv (close s thrown) := by
  -- the call of `close` ends
  have ends : ∀ ex, ShutdownHook.step a (.closeEnds ex) = ShutdownHook.closeEnds a ex := fun ex => by
    simp only [ShutdownHook.step, hclosing]
  have hlive : a.thread ≠ .terminated := by simp [hclosing]
  have hstage := h.stage
  unfold close
  cases hc : s.completionHandler with
  | none =>
    rw [hc] at hstage
    have hclosed : a.closed = [()] ∧ s.shutdowns = 0 := hstage.of_closing hclosing
    cases thrown with
    | none =>
      simp only [hclosed.2, h.shutdownHook, log]
      exact Or.inr ⟨a, h.thread hs rfl hlive (by simp [hclosing]) (.called _ hclosed.1 hclosing)⟩
    | some ex =>
      simp only [hclosed.2, h.shutdownHook, log, Option.map_some, ends, hc]
      have hended : Stage (ShutdownHook.closeEnds a (some ex)) (none : Option (HttpServerCompletionHandler.St ε)) 1 :=
        .ended none (by simp [hclosed.1]) (by simp) (Or.inl ⟨rfl, by simp [ShutdownHook.closeEnds]⟩)
      exact Or.inr ⟨_, h.thread hs (by simp) hlive (by simp) hended⟩
  | some c =>
    rw [hc] at hstage
    have hclosed : a.closed = [()] ∧ s.shutdowns = 1 := hstage.of_closing hclosing
    cases hthread : c.thread with
    | running =>
      simp only [hthread, h.shutdownHook]
      exact Or.inr ⟨a, h.thread hs rfl hlive (by simp [hclosing]) (hclosed.2 ▸ .called _ hclosed.1 hclosing)⟩
    | waiting n =>
      simp only [hthread]
      exact Or.inr ⟨a, h⟩
    | returned result =>
      simp only [hthread, h.shutdownHook, log, Option.map_some, ends, hc, hclosed.2]
      have hended : Stage (ShutdownHook.closeEnds a none) (some c) 1 :=
        .ended _ (by simp [hclosed.1]) (by simp) (Or.inr ⟨c, result, rfl, hthread⟩)
      exact Or.inr ⟨_, h.thread hs (by simp) hlive (by simp) hended⟩

theorem poll_inv {s : St ε} {a : ShutdownHook.St Unit ε} (h : Hooked s a) (hs : s.jvm = .exiting)
    (hpolling : a.thread = .polling) :
    Hooked { s with shutdownHook := some (ShutdownHook.step a .poll) } (ShutdownHook.step a .poll) := by
  have hlive : a.thread ≠ .terminated := by simp [hpolling]
  have hstep : ShutdownHook.step a .poll = ShutdownHook.poll a := by simp only [ShutdownHook.step, hpolling]
  rw [hstep]
  unfold ShutdownHook.poll
  cases hqueue : a.shutdownActions with
  | nil =>
    refine h.thread hs (by simp [hqueue]) hlive (by simp) ?_
    rcases h.stage.of_free (by simp [hpolling]) with ⟨hclosed, hc, hn⟩ | ⟨hclosed, hn, hended⟩
    · rw [hc, hn]
      exact .idle hclosed (by simp)
    · rw [hn]
      exact .ended _ hclosed (Or.inr rfl) hended
  | cons u rest =>
    -- one action was registered at most, so it is the first one closed
    have hclosed : a.closed = [] := by
      have hlen := h.row.imp (congrArg List.length) (congrArg List.length)
      simp only [hqueue, List.length_append, List.length_cons, List.length_nil] at hlen
      exact List.length_eq_zero_iff.1 (by omega)
    refine h.thread hs (by simp [hqueue]) hlive (by simp) ?_
    obtain ⟨hc, hn, -⟩ := h.stage.of_unclosed hclosed
    rw [hc, hn]
    exact .polled (by simp [hclosed]) rfl

/-- a hook's thread that is started, and a JVM that has not halted -/
theorem Hooked.exiting {s : St ε} {a : ShutdownHook.St Unit ε} (h : Hooked s a) (hlive : s.jvm ≠ .halted)
    (hnew : a.thread ≠ .new) : s.jvm = .exiting := by
  cases hjvm : s.jvm with
  | running => exact absurd (h.started.2 hjvm) hnew
  | exiting => rfl
  | halted => exact absurd hjvm hlive

theorem step_inv {s : St ε} (h : Inv s) (o : Op ε) : Inv (step s o) := by
  have hm := step_move s o
  generalize step s o = s' at hm ⊢
  cases hm with
  | idle => exact h
  | start outcome hl => exact line_inv h hl
  | exit => exact exit_inv h
  | poll hlive ha ht thrown =>
    have hhook := h.hooked ha
    exact Or.inr ⟨_, poll_inv hhook (hhook.exiting hlive (by simp [ht])) ht⟩
  | close hlive ha ht thrown =>
    have hhook := h.hooked ha
    exact close_inv hhook (hhook.exiting hlive (by simp [ht])) ht thrown
  | ended ha ht thrown =>
    have hhook := h.hooked ha
    exact Or.inr ⟨_, hhook.main, ha, hhook.row, hhook.unregistered, hhook.registered, hhook.started, fun _ => ht,
      fun _ => rfl, hhook.stage⟩
  | interrupt => exact (handler_inv h .interrupt).congr rfl rfl rfl rfl rfl rfl
  | server callback => exact handler_inv h callback.1
  | tick => exact handler_inv h .tick
  | halt hs hends =>
    rcases h with h | ⟨a, h⟩
    · exact Or.inl ⟨h.main, h.shutdownHook, h.hookEnded, h.completionHandler, h.shutdowns⟩
    · have hended : s.hookEnded = true := by simpa [h.shutdownHook] using hends
      exact Or.inr ⟨a, h.main, h.shutdownHook, h.row, h.unregistered, h.registered, by simp [h.ended hended], h.ended,
        fun _ => hended, h.stage⟩

theorem run_snoc (ops : List (Op ε)) (o : Op ε) : run (ops ++ [o]) = step (run ops) o := by
  simp [run, List.foldl_append]

theorem run_inv (ops : List (Op ε)) : Inv (run ops) := by
  unfold run
  induction ops using List.reverseRecOn with
  | nil => exact init_inv
  | append_singleton ops o ih =>
    rw [List.foldl_append]
    exact step_inv ih o

/-- the JVM that has halted, after `start` or not -/
theorem halted_cases {s : St ε} (h : Inv s) (hs : s.jvm = .halted) : s.shutdowns = 0 ∨
    ∃ a, Hooked s a ∧ a.thread = .terminated ∧ Ended a s.completionHandler := by
  rcases h with h | ⟨a, h⟩
  · exact Or.inl h.shutdowns
  · have hterm := h.ended (h.halted hs)
    rcases h.stage.of_free (by simp [hterm]) with ⟨-, -, hn⟩ | ⟨-, -, hended⟩
    · exact Or.inl hn
    · exact Or.inr ⟨a, h, hterm, hended⟩

end BankServices.Webapp.WebAppBase
