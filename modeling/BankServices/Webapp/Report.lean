/-
`WebAppBase`: what is logged of the shutdown.

The handler that the shutdown action awaits is in a run of its own, of callbacks, milliseconds and interrupts of the
hook's thread (`foldl_handler`), and its outcome is that of `HttpServerCompletionHandler`.

- `shutdown_reported`: that the server completed is logged only if it told of its end after the call, a forced exit only
  if the timeout has passed since or the hook's thread was interrupted, and never both. A halted JVM whose server was
  shut down has logged one of them, or what the call threw.
-/
import BankServices.Webapp.Exit

namespace BankServices.Webapp.WebAppBase

open HttpServerCompletionHandler (MSG_PREFIX)

variable {ε : Type}

/-! ## Definitions -/

/-- the entry of the log with which the shutdown action ends -/
def verdict (result : Bool) : String × Option ε := (message result, none)

def Op.isTick : Op ε → Bool
  | .tick => true
  | _ => false

/-- the server tells of its end among the operations -/
def ToldOfEnd (ops : List (Op ε)) : Prop := ∃ p : Callback ε, .server p ∈ ops ∧ p.1.final = true

/-- operations of the handler that a run made -/
structure Made (hops : List (HttpServerCompletionHandler.Op ε)) (ops : List (Op ε)) (interrupted : Bool) : Prop where
  loud : ∀ p ∈ hops, p.isInterrupt = true → interrupted = true
  told : ∀ p ∈ hops, p.final = true → ToldOfEnd ops
  ticks : HttpServerCompletionHandler.ticks hops ≤ ops.countP Op.isTick

/-- what a step does to the handler -/
inductive Handled (s : St ε) (o : Op ε) (s' : St ε) : Prop where
  | same (h : s'.completionHandler = s.completionHandler)
  | created (hnone : s.completionHandler = none) (h : s'.completionHandler = some (newHandler s.interrupted))
  | made (p : HttpServerCompletionHandler.Op ε) (hloud : p.isInterrupt = true → s'.interrupted = true)
      (htold : p.final = true → ToldOfEnd [o]) (htick : p.isTick = true → o = .tick)
      (h : s'.completionHandler = s.completionHandler.map (HttpServerCompletionHandler.step · p))

/-! ## One step -/

/-- `start` and the exit touch neither the handler nor the interrupts -/
structure Quiet (s s' : St ε) : Prop where
  completionHandler : s'.completionHandler = s.completionHandler
  interrupted : s'.interrupted = s.interrupted
  LOG : s'.LOG = s.LOG ∨ ∃ e, s'.LOG = s.LOG ++ [("Start server - failed", some e)]

theorem exit_quiet (s : St ε) : Quiet s (exit s) := ⟨by simp, by simp, Or.inl (by simp)⟩

theorem line_quiet {s s' : St ε} (hl : Line s s') : Quiet s s' := by
  cases hl with
  | failed hs e => exact ⟨rfl, rfl, Or.inr ⟨e, rfl⟩⟩
  | exits hs => exact ⟨by simp, by simp, Or.inl (by simp)⟩
  | _ => exact ⟨rfl, rfl, Or.inl rfl⟩

theorem close_interrupted (s : St ε) (thrown : Option ε) : (close s thrown).interrupted = s.interrupted := by
  unfold close
  cases s.completionHandler with
  | none => cases thrown <;> rfl
  | some c => cases hthread : c.thread <;> simp [hthread, log]

/-- an interrupt is not forgotten -/
theorem step_interrupted {s : St ε} (h : s.interrupted = true) (o : Op ε) : (step s o).interrupted = true := by
  have hm := step_move s o
  generalize step s o = s' at hm ⊢
  cases hm with
  | start outcome hl => exact (line_quiet hl).interrupted.trans h
  | exit => exact (exit_quiet s).interrupted.trans h
  | close hlive ha ht thrown => exact (close_interrupted s thrown).trans h
  | interrupt => rfl
  | _ => exact h

theorem close_handled (s : St ε) (o : Op ε) (thrown : Option ε) : Handled s o (close s thrown) := by
  unfold close
  cases hc : s.completionHandler with
  | none =>
    cases thrown with
    | none => exact .created hc rfl
    | some ex => exact .same rfl
  | some c =>
    cases hthread : c.thread with
    | running =>
      refine .made .await ?_ ?_ ?_ (by simp [hthread, hc]) <;>
        · intro h
          cases h
    | waiting n => exact .same (by simp [hthread])
    | returned result => exact .same (by simp [hthread, log])

theorem step_handled (s : St ε) (o : Op ε) : Handled s o (step s o) := by
  have hm := step_move s o
  generalize step s o = s' at hm ⊢
  cases hm with
  | start outcome hl => exact .same (line_quiet hl).completionHandler
  | exit => exact .same (exit_quiet s).completionHandler
  | close hlive ha ht thrown => exact close_handled s (.hook thrown) thrown
  | interrupt =>
    refine .made .interrupt (fun _ => rfl) ?_ ?_ rfl <;>
      · intro h
        cases h
  | server callback =>
    obtain ⟨hquiet, htick⟩ := HttpServerCompletionHandler.Op.ofServer_quiet callback.2
    exact .made callback.1 (by simp [hquiet]) (fun hf => ⟨callback, by simp, hf⟩) (by simp [htick]) rfl
  | tick =>
    refine .made .tick ?_ ?_ (fun _ => rfl) rfl <;>
      · intro h
        cases h
  | _ => exact .same rfl

theorem message_ne_initiated (result : Bool) : message result ≠ MSG_PREFIX ++ " initiated..." := by
  cases result <;> decide

theorem message_injective {r r' : Bool} (h : message r = message r') : r = r' := by
  cases r <;> cases r' <;> first | rfl | exact absurd h (by decide)

/-- what a line of the shutdown action logs -/
theorem close_log (s : St ε) (thrown : Option ε) : (close s thrown).LOG = s.LOG ∨
    (close s thrown).LOG = s.LOG ++ [(MSG_PREFIX ++ " initiated...", none)] ∨
    ∃ c result, s.completionHandler = some c ∧ c.thread = .returned result ∧
      (close s thrown).LOG = s.LOG ++ [verdict result] := by
  unfold close
  cases hc : s.completionHandler with
  | none => cases thrown <;> exact Or.inr (Or.inl rfl)
  | some c =>
    cases hthread : c.thread with
    | returned result => exact Or.inr (Or.inr ⟨c, result, rfl, hthread, by simp only [hthread, log, verdict]⟩)
    | _ => exact Or.inl (by simp [hthread])

/-- a verdict is logged for a call of `await` that has returned with it -/
theorem step_verdict {s : St ε} {o : Op ε} {result : Bool} (h : verdict result ∈ (step s o).LOG) :
    verdict result ∈ s.LOG ∨ ∃ c, s.completionHandler = some c ∧ c.thread = .returned result := by
  have hm := step_move s o
  generalize step s o = s' at hm h
  cases hm with
  | start outcome hl =>
    rcases (line_quiet hl).LOG with hlog | ⟨e, hlog⟩
    · exact Or.inl (hlog ▸ h)
    · simp only [hlog, List.mem_append, List.mem_singleton] at h
      exact h.imp_right fun h => absurd (congrArg Prod.snd h) (by simp [verdict])
  | exit => exact Or.inl (exit_LOG s ▸ h)
  | close hlive ha ht thrown =>
    rcases close_log s thrown with hlog | hlog | ⟨c, r, hc, hreturned, hlog⟩
    · exact Or.inl (hlog ▸ h)
    · simp only [hlog, List.mem_append, List.mem_singleton] at h
      exact h.imp_right fun h => absurd (congrArg Prod.fst h) (message_ne_initiated result)
    · simp only [hlog, List.mem_append, List.mem_singleton] at h
      refine h.imp_right fun h => ⟨c, hc, ?_⟩
      rw [hreturned, message_injective (congrArg Prod.fst h)]
  | _ => exact Or.inl h

theorem step_log (s : St ε) (o : Op ε) : s.LOG <+: (step s o).LOG := by
  have hm := step_move s o
  generalize step s o = s' at hm ⊢
  cases hm with
  | start outcome hl => rcases (line_quiet hl).LOG with hlog | ⟨e, hlog⟩ <;> simp [hlog]
  | exit => rw [exit_LOG]
  | close hlive ha ht thrown =>
    rcases close_log s thrown with hlog | hlog | ⟨c, r, -, -, hlog⟩ <;> simp [hlog]
  | _ => exact List.prefix_refl _

/-- where a shutdown action that awaited the server has ended, its verdict is logged -/
def Logged (s : St ε) : Prop :=
  ∀ a c, s.shutdownHook = some a → a.thread ≠ .closing () → s.completionHandler = some c →
    ∃ result, verdict result ∈ s.LOG

/-- a line of `start` leaves the thread of the hook as it is, once the JVM exits -/
theorem line_thread {s s' : St ε} (hs : s.jvm = .exiting) (hl : Line s s') :
    s'.shutdownHook.map ShutdownHook.St.thread = s.shutdownHook.map ShutdownHook.St.thread := by
  cases hl with
  | hooked _ hjvm _ => simp [hs] at hjvm
  | added _ => cases s.shutdownHook <;> rfl
  | exits _ => simp [exit, hs]
  | _ => rfl

/-- a line of the shutdown action that is no verdict leaves it at work, or has no handler -/
theorem close_logged {s : St ε} {a : ShutdownHook.St Unit ε} (h : s.shutdownHook = some a)
    (hclosing : a.thread = .closing ()) (thrown : Option ε) : Logged (close s thrown) := by
  intro b c hb hfree hc
  unfold close at hb hc ⊢
  cases hhandler : s.completionHandler with
  | none =>
    cases thrown with
    | none =>
      simp only [hhandler, log, h, Option.some.injEq] at hb
      exact absurd (hb ▸ hclosing) hfree
    | some ex => simp [hhandler, log] at hc
  | some c' =>
    simp only [hhandler] at hb hc ⊢
    cases hthread : c'.thread with
    | returned result => exact ⟨result, by simp [log, verdict]⟩
    | _ =>
      simp only [hthread, h, Option.some.injEq] at hb
      exact absurd (hb ▸ hclosing) hfree

/-- a step that leaves the hook's thread where it is -/
theorem Logged.kept {s s' : St ε} (h : Logged s) (hlog : s.LOG <+: s'.LOG)
    (hthread : s'.shutdownHook.map ShutdownHook.St.thread = s.shutdownHook.map ShutdownHook.St.thread)
    (hhandler : s'.completionHandler.isSome = s.completionHandler.isSome) : Logged s' := by
  intro b c hb hfree hc
  rw [hb, Option.map_some, eq_comm, Option.map_eq_some_iff] at hthread
  obtain ⟨a, ha, hab⟩ := hthread
  rw [hc, Option.isSome_some, eq_comm, Option.isSome_iff_exists] at hhandler
  obtain ⟨c', hc'⟩ := hhandler
  obtain ⟨result, hresult⟩ := h a c' ha (by rwa [hab]) hc'
  exact ⟨result, hlog.subset hresult⟩

theorem step_logged {s : St ε} (hinv : Inv s) (h : Logged s) (o : Op ε) : Logged (step s o) := by
  by_cases hrunning : s.jvm = .running
  · intro b c hb hfree hc
    rw [step_handler hinv hrunning] at hc
    cases hc
  have hlog := step_log s o
  by_cases hhalted : s.jvm = .halted
  · simpa [step, hhalted] using h
  have hjvm : s.jvm = .exiting := by
    cases hjvm : s.jvm with
    | exiting => rfl
    | running => exact absurd hjvm hrunning
    | halted => exact absurd hjvm hhalted
  have hm := step_move s o
  generalize step s o = s' at hm hlog ⊢
  cases hm with
  | start outcome hl => exact h.kept hlog (line_thread hjvm hl) (by rw [(line_quiet hl).completionHandler])
  | exit => simpa [exit, hjvm] using h
  | poll hlive ha ht thrown =>
    intro b c hb hfree hc
    obtain ⟨result, hresult⟩ := h _ c ha (by simp [ht]) hc
    exact ⟨result, hresult⟩
  | close hlive ha ht thrown => exact close_logged ha ht thrown
  | interrupt => exact h.kept hlog rfl (by simp [handler])
  | server callback => exact h.kept hlog rfl (by simp [handler])
  | tick => exact h.kept hlog rfl (by simp [handler])
  | _ => exact h.kept hlog rfl rfl

/-! ## The handler's own run -/

theorem ToldOfEnd.append {ops : List (Op ε)} (h : ToldOfEnd ops) (o : Op ε) : ToldOfEnd (ops ++ [o]) := by
  obtain ⟨p, hp, hf⟩ := h
  exact ⟨p, List.mem_append_left _ hp, hf⟩

theorem Made.mono {hops : List (HttpServerCompletionHandler.Op ε)} {ops : List (Op ε)} {b b' : Bool}
    (h : Made hops ops b) (hb : b = true → b' = true) (o : Op ε) : Made hops (ops ++ [o]) b' := by
  refine ⟨fun p hp hi => hb (h.loud p hp hi), fun p hp hf => (h.told p hp hf).append o, h.ticks.trans ?_⟩
  rw [List.countP_append]
  exact Nat.le_add_right _ _

theorem Made.snoc {hops : List (HttpServerCompletionHandler.Op ε)} {ops : List (Op ε)} {b b' : Bool}
    (h : Made hops ops b) (hb : b = true → b' = true) {o : Op ε} {p : HttpServerCompletionHandler.Op ε}
    (hloud : p.isInterrupt = true → b' = true) (htold : p.final = true → ToldOfEnd [o])
    (htick : p.isTick = true → o = .tick) : Made (hops ++ [p]) (ops ++ [o]) b' := by
  refine ⟨?_, ?_, ?_⟩
  · intro q hq hi
    rcases List.mem_append.1 hq with hq | hq
    · exact hb (h.loud q hq hi)
    · rw [List.mem_singleton.1 hq] at hi
      exact hloud hi
  · intro q hq hf
    rcases List.mem_append.1 hq with hq | hq
    · exact (h.told q hq hf).append o
    · rw [List.mem_singleton.1 hq] at hf
      obtain ⟨c, hc, hfinal⟩ := htold hf
      exact ⟨c, List.mem_append_right _ hc, hfinal⟩
  · have hticks := h.ticks
    unfold HttpServerCompletionHandler.ticks at hticks ⊢
    rw [List.countP_append, List.countP_append, List.countP_singleton, List.countP_singleton]
    refine Nat.add_le_add hticks ?_
    split_ifs with hp ho
    · exact le_rfl
    · rw [htick hp] at ho
      exact absurd rfl ho
    · exact Nat.zero_le _
    · exact le_rfl

/-- an interrupt that came before the handler is its first operation -/
theorem newHandler_run (interrupted : Bool) : (newHandler interrupted : HttpServerCompletionHandler.St ε) =
    HttpServerCompletionHandler.run timeoutMillis (if interrupted = true then [.interrupt] else []) := by
  cases interrupted <;> rfl

/-- the handler of a run is in a run of its own -/
theorem foldl_handler {s : St ε} (hs : s.completionHandler = none) (ops : List (Op ε))
    {c : HttpServerCompletionHandler.St ε} (hc : (ops.foldl step s).completionHandler = some c) :
    ∃ hops, c = HttpServerCompletionHandler.run timeoutMillis hops ∧ Made hops ops (ops.foldl step s).interrupted := by
  induction ops using List.reverseRecOn generalizing c with
  | nil =>
    rw [List.foldl_nil, hs] at hc
    cases hc
  | append_singleton ops o ih =>
    rw [List.foldl_append, List.foldl_cons, List.foldl_nil] at hc ⊢
    have hkept : (ops.foldl step s).interrupted = true → (step (ops.foldl step s) o).interrupted = true :=
      fun h => step_interrupted h o
    cases step_handled (ops.foldl step s) o with
    | same h =>
      rw [h] at hc
      obtain ⟨hops, hrun, hmade⟩ := ih hc
      exact ⟨hops, hrun, hmade.mono hkept o⟩
    | created hnone h =>
      rw [h, Option.some.injEq] at hc
      refine ⟨_, hc ▸ newHandler_run _, ?_⟩
      cases hint : (ops.foldl step s).interrupted with
      | false => exact ⟨by simp, by simp, by simp [HttpServerCompletionHandler.ticks]⟩
      | true =>
        refine ⟨fun p hp hi => hkept hint, fun p hp hf => ?_, ?_⟩
        · simp only [if_true, List.mem_singleton] at hp
          subst hp
          cases hf
        · simp [HttpServerCompletionHandler.ticks, HttpServerCompletionHandler.Op.isTick]
    | made p hloud htold htick h =>
      rw [h] at hc
      obtain ⟨c', hc', rfl⟩ := Option.map_eq_some_iff.1 hc
      obtain ⟨hops, rfl, hmade⟩ := ih hc'
      refine ⟨hops ++ [p], ?_, hmade.snoc hkept hloud htold htick⟩
      simp [HttpServerCompletionHandler.run, List.foldl_append]

/-- a handler that has returned was told by the server, or gave up after the timeout or an interrupt -/
theorem returned_made {hops : List (HttpServerCompletionHandler.Op ε)} {ops : List (Op ε)} {interrupted : Bool}
    (h : Made hops ops interrupted) {result : Bool}
    (hr : (HttpServerCompletionHandler.run timeoutMillis hops).thread = .returned result) :
    (result = true → ToldOfEnd ops) ∧
      (result = false → timeoutMillis ≤ ops.countP Op.isTick ∨ interrupted = true) := by
  have hawait : HttpServerCompletionHandler.Op.await ∈ hops := by
    by_contra hno
    have hearly := HttpServerCompletionHandler.run_early timeoutMillis hops fun o ho => by
      cases o with
      | await => exact absurd ho hno
      | _ => rfl
    rw [hearly.thread] at hr
    cases hr
  obtain ⟨before, after, rfl, hfirst⟩ := List.eq_append_cons_of_mem hawait
  have hbefore : ∀ o ∈ before, o.isAwait = false := by
    intro o ho
    cases o with
    | await => exact absurd ho hfirst
    | _ => rfl
  have hends := (HttpServerCompletionHandler.run_awaited timeoutMillis before after hbefore result).1 hr
  constructor
  · rintro rfl
    obtain ⟨-, ⟨p, hp, hf⟩ | ⟨pre, p, hp, hf, -⟩⟩ := hends
    · exact h.told p (List.mem_append_left _ hp) hf
    · have hmem : p ∈ after := hp.subset (by simp)
      exact h.told p (List.mem_append_right _ (List.mem_cons_of_mem _ hmem)) hf
  · rintro rfl
    rcases hends with ⟨p, hp, hi⟩ | ⟨-, pre, hp, -, hover | ⟨p, hpre, hi⟩⟩
    · exact Or.inr (h.loud p (List.mem_append_left _ hp) hi)
    · refine Or.inl (le_trans hover (le_trans ?_ h.ticks))
      unfold HttpServerCompletionHandler.ticks
      rw [List.countP_append]
      have hle := hp.sublist.countP_le (p := HttpServerCompletionHandler.Op.isTick)
      have hcons := (List.sublist_cons_self .await after).countP_le (p := HttpServerCompletionHandler.Op.isTick)
      omega
    · exact Or.inr (h.loud p (List.mem_append_right _ (List.mem_cons_of_mem _ (hp.subset hpre))) hi)

/-! ## Every run -/

theorem run_logged (ops : List (Op ε)) : Logged (run ops) := by
  unfold run
  induction ops using List.reverseRecOn with
  | nil =>
    intro a c ha hfree hc
    cases hc
  | append_singleton ops o ih =>
    rw [List.foldl_append]
    exact step_logged (run_inv ops) ih o

/-- what is logged is the outcome of the wait -/
theorem run_verdict (ops : List (Op ε)) {result : Bool} (h : verdict result ∈ (run ops).LOG) :
    ∃ c, (run ops).completionHandler = some c ∧ c.thread = .returned result := by
  induction ops using List.reverseRecOn with
  | nil => cases h
  | append_singleton ops o ih =>
    rw [run_snoc] at h ⊢
    have hbefore : ∃ c, (run ops).completionHandler = some c ∧ c.thread = .returned result := by
      rcases step_verdict h with hold | hnew
      · exact ih hold
      · exact hnew
    obtain ⟨c, hc, hr⟩ := hbefore
    cases step_handled (run ops) o with
    | same h => exact ⟨c, by rw [h, hc], hr⟩
    | created hnone h =>
      rw [hc] at hnone
      cases hnone
    | made p _ _ _ h =>
      exact ⟨_, by rw [h, hc, Option.map_some], HttpServerCompletionHandler.step_returned hr p⟩

/-- **What is logged.** -/
theorem shutdown_reported (before after : List (Op ε)) (h : (run before).shutdowns = 0) :
    (verdict true ∈ (run (before ++ after)).LOG → ToldOfEnd after) ∧
    (verdict false ∈ (run (before ++ after)).LOG →
      timeoutMillis ≤ after.countP Op.isTick ∨ (run (before ++ after)).interrupted = true) ∧
    ¬ (verdict true ∈ (run (before ++ after)).LOG ∧ verdict false ∈ (run (before ++ after)).LOG) ∧
    ((run (before ++ after)).jvm = .halted → (run (before ++ after)).shutdowns = 1 →
      (∃ result, verdict result ∈ (run (before ++ after)).LOG) ∨
        ∃ a, (run (before ++ after)).shutdownHook = some a ∧ a.LOG ≠ []) := by
  have hsplit : run (before ++ after) = after.foldl step (run before) := by simp [run, List.foldl_append]
  have hnone : (run before).completionHandler = none := by
    rcases run_inv before with hinv | ⟨a, hinv⟩
    · exact hinv.completionHandler
    · exact (h ▸ hinv.stage).of_uncalled
  -- a verdict is the outcome of the handler's own run
  have hverdict : ∀ result, verdict result ∈ (run (before ++ after)).LOG →
      (result = true → ToldOfEnd after) ∧ (result = false →
        timeoutMillis ≤ after.countP Op.isTick ∨ (run (before ++ after)).interrupted = true) := by
    intro result hresult
    obtain ⟨c, hc, hr⟩ := run_verdict (before ++ after) hresult
    rw [hsplit] at hc ⊢
    obtain ⟨hops, rfl, hmade⟩ := foldl_handler hnone after hc
    exact returned_made hmade hr
  refine ⟨fun hv => (hverdict true hv).1 rfl, fun hv => (hverdict false hv).2 rfl, ?_, fun hhalted hone => ?_⟩
  · intro hboth
    obtain ⟨c, hc, hr⟩ := run_verdict (before ++ after) hboth.1
    obtain ⟨c', hc', hr'⟩ := run_verdict (before ++ after) hboth.2
    rw [hc, Option.some.injEq] at hc'
    rw [← hc', hr] at hr'
    cases hr'
  · rcases halted_cases (run_inv (before ++ after)) hhalted with hzero | ⟨a, hinv, hterm, hended⟩
    · rw [hone] at hzero
      cases hzero
    · rcases hended with ⟨-, hthrown⟩ | ⟨c, result, hc, -⟩
      · exact Or.inr ⟨a, hinv.shutdownHook, hthrown⟩
      · exact Or.inl (run_logged (before ++ after) a c hinv.shutdownHook (by simp [hterm]) hc)

/-- the log of a run whose server completes -/
theorem served_reported :
    (verdict true ∈ (run (told ++ served)).LOG → ToldOfEnd served) ∧
    (verdict false ∈ (run (told ++ served)).LOG →
      timeoutMillis ≤ served.countP Op.isTick ∨ (run (told ++ served)).interrupted = true) ∧
    ¬ (verdict true ∈ (run (told ++ served)).LOG ∧ verdict false ∈ (run (told ++ served)).LOG) ∧
    ((run (told ++ served)).jvm = .halted → (run (told ++ served)).shutdowns = 1 →
      (∃ result, verdict result ∈ (run (told ++ served)).LOG) ∨
        ∃ a, (run (told ++ served)).shutdownHook = some a ∧ a.LOG ≠ []) :=
  shutdown_reported told served rfl

/-- interrupted before it waits for the server, the hook's thread logs a forced exit at once -/
example : (run (told ++ [.hook none, .interrupt, .hook none, .hook none, .hook none] : List (Op Unit))).LOG =
    [(MSG_PREFIX ++ " initiated...", none), verdict false] := rfl

end BankServices.Webapp.WebAppBase
