/-
`HttpServerCompletionHandler`: a latch of one that callbacks of the server count down, and the thread that awaits it,
for no longer than a timeout.

A run is any list of operations, in any order: the callbacks, each any number of times, the call of `await`,
milliseconds that pass, and interrupts of the awaiting thread.

- `await_outcome`: `await` has returned once its timeout has passed. It returns true exactly when the server told, in
  time and before an interrupt, that it completed, failed or was cancelled, and false exactly when the time was over, or
  an interrupt came, before that. An update does not count.
-/
import Mathlib.Tactic

namespace BankServices.Webapp.HttpServerCompletionHandler

/-! ## Model -/

def MSG_PREFIX : String := "Shutdown HTTP server"

/-- the thread that calls `await` -/
inductive Thread where
  | running
  | waiting (remainingMillis : ℕ)
  | returned (result : Bool)
deriving DecidableEq, Repr

structure St (ε : Type) where
  timeoutMillis : ℕ
  countDownLatch : ℕ
  thread : Thread
  interrupted : Bool
  LOG : List (String × Option ε)

inductive Op (ε : Type) where
  | cancelled
  | failed (throwable : ε)
  | completed
  | updated
  | await
  /-- a millisecond passes -/
  | tick
  /-- the awaiting thread is interrupted -/
  | interrupt
deriving DecidableEq, Repr

variable {ε : Type}

def init (timeoutMillis : ℕ) : St ε := ⟨timeoutMillis, 1, .running, false, []⟩

def log (s : St ε) (message : String) (throwable : Option ε) : St ε :=
  { s with LOG := s.LOG ++ [(MSG_PREFIX ++ message, throwable)] }

/-- the thread that waits goes on when the count comes to zero -/
def countDown (s : St ε) : St ε :=
  { s with
    countDownLatch := s.countDownLatch - 1
    thread :=
      match s.thread with
      | .waiting _ => if s.countDownLatch - 1 = 0 then .returned true else s.thread
      | _ => s.thread }

/-- an interrupt ends the wait, or the call if it came before; the exception is logged -/
def onInterrupted (s : St ε) : St ε :=
  log { s with thread := .returned false, interrupted := false } " - interrupted" none

def await (s : St ε) : St ε :=
  if s.interrupted then onInterrupted s
  else if s.countDownLatch = 0 then { s with thread := .returned true }
  else if s.timeoutMillis = 0 then { s with thread := .returned false }
  else { s with thread := .waiting s.timeoutMillis }

def step (s : St ε) : Op ε → St ε
  | .cancelled => countDown (log s " - cancelled" none)
  | .failed throwable => countDown (log s " - failed" (some throwable))
  | .completed => countDown (log s " - on-complete" none)
  | .updated => log s " - updated" none
  | .await =>
    match s.thread with
    | .running => await s
    | _ => s
  | .tick =>
    match s.thread with
    | .waiting n => { s with thread := if n ≤ 1 then .returned false else .waiting (n - 1) }
    | _ => s
  | .interrupt =>
    match s.thread with
    | .waiting _ => onInterrupted s
    | _ => { s with interrupted := true }

def run (timeoutMillis : ℕ) (ops : List (Op ε)) : St ε := ops.foldl step (init timeoutMillis)

namespace Op

/-- a callback that counts the latch down -/
def final : Op ε → Bool
  | .cancelled | .failed _ | .completed => true
  | _ => false

/-- a callback of the server -/
def ofServer : Op ε → Bool
  | .cancelled | .failed _ | .completed | .updated => true
  | _ => false

def isTick : Op ε → Bool
  | .tick => true
  | _ => false

def isInterrupt : Op ε → Bool
  | .interrupt => true
  | _ => false

def isAwait : Op ε → Bool
  | .await => true
  | _ => false

theorem ofServer_quiet {o : Op ε} (h : o.ofServer = true) : o.isInterrupt = false ∧ o.isTick = false := by
  cases o with
  | cancelled => exact ⟨rfl, rfl⟩
  | failed throwable => exact ⟨rfl, rfl⟩
  | completed => exact ⟨rfl, rfl⟩
  | updated => exact ⟨rfl, rfl⟩
  | _ => cases h

end Op

def ticks (ops : List (Op ε)) : ℕ := ops.countP Op.isTick

theorem ticks_cons (o : Op ε) (ops : List (Op ε)) : ticks (o :: ops) = ticks [o] + ticks ops := by
  unfold ticks
  rw [← List.countP_append, List.singleton_append]

/-- the server tells of its end before the time is over and before an interrupt -/
def ToldInTime (timeoutMillis : ℕ) (ops : List (Op ε)) : Prop :=
  ∃ pre o, pre ++ [o] <+: ops ∧ o.final = true ∧ ticks pre < timeoutMillis ∧ ∀ p ∈ pre, p.isInterrupt = false

/-- the time is over, or an interrupt comes, before the server tells of its end -/
def GaveUp (timeoutMillis : ℕ) (ops : List (Op ε)) : Prop :=
  ∃ pre, pre <+: ops ∧ (∀ p ∈ pre, p.final = false) ∧ (timeoutMillis ≤ ticks pre ∨ ∃ p ∈ pre, p.isInterrupt = true)

/-- how a wait ends -/
def Ends (timeoutMillis : ℕ) (ops : List (Op ε)) : Bool → Prop
  | true => ToldInTime timeoutMillis ops
  | false => GaveUp timeoutMillis ops

/-! ## The wait -/

/-- an answer given is final -/
theorem step_returned {s : St ε} {result : Bool} (h : s.thread = .returned result) (o : Op ε) :
    (step s o).thread = .returned result := by
  cases o <;> simp [step, countDown, log, h]

theorem foldl_returned {s : St ε} {result : Bool} (h : s.thread = .returned result) (ops : List (Op ε)) :
    (ops.foldl step s).thread = .returned result := by
  induction ops generalizing s with
  | nil => exact h
  | cons o ops ih => exact ih (step_returned h o)

/-- a final callback ends the wait -/
theorem step_final {s : St ε} {n : ℕ} (hs : s.thread = .waiting n) (hc : s.countDownLatch = 1) {o : Op ε}
    (ho : o.final = true) : (step s o).thread = .returned true := by
  cases o with
  | cancelled => simp [step, countDown, log, hs, hc]
  | failed throwable => simp [step, countDown, log, hs, hc]
  | completed => simp [step, countDown, log, hs, hc]
  | _ => cases ho

theorem not_toldInTime_zero (ops : List (Op ε)) : ¬ ToldInTime 0 ops := by
  intro h
  obtain ⟨pre, o, -, -, hticks, -⟩ := h
  exact absurd hticks (Nat.not_lt_zero _)

theorem gaveUp_zero (ops : List (Op ε)) : GaveUp 0 ops := ⟨[], List.nil_prefix, by simp, Or.inl (Nat.zero_le _)⟩

theorem ends_zero (ops : List (Op ε)) (result : Bool) : Ends 0 ops result ↔ result = false := by
  cases result with
  | true => simp [Ends, not_toldInTime_zero]
  | false => simp [Ends, gaveUp_zero]

theorem ends_nil {n : ℕ} (hn : 0 < n) (result : Bool) : ¬ Ends n ([] : List (Op ε)) result := by
  cases result with
  | true => simp [Ends, ToldInTime]
  | false =>
    have hticks : ticks ([] : List (Op ε)) = 0 := rfl
    simp [Ends, GaveUp, hticks]
    omega

theorem ends_final {n : ℕ} (hn : 0 < n) {o : Op ε} (ho : o.final = true) (ops : List (Op ε)) (result : Bool) :
    Ends n (o :: ops) result ↔ result = true := by
  cases result with
  | true =>
    have hticks : ticks ([] : List (Op ε)) = 0 := rfl
    exact ⟨fun _ => rfl, fun _ => ⟨[], o, by simp, ho, by rwa [hticks], by simp⟩⟩
  | false =>
    refine ⟨fun h => ?_, fun h => absurd h (by simp)⟩
    obtain ⟨pre, hp, hquiet, hover⟩ := h
    cases pre with
    | nil =>
      rcases hover with hover | ⟨p, hp, -⟩
      · exact absurd hn (not_lt.2 hover)
      · cases hp
    | cons p pre =>
      obtain ⟨rfl, -⟩ := List.cons_prefix_cons.1 hp
      rw [hquiet p List.mem_cons_self] at ho
      cases ho

theorem toldInTime_cons {n : ℕ} {o : Op ε} {ops : List (Op ε)} (ho : o.final = false) :
    ToldInTime n (o :: ops) ↔ o.isInterrupt = false ∧ ToldInTime (n - ticks [o]) ops := by
  constructor
  · intro h
    obtain ⟨pre, q, hp, hq, hticks, hinterrupt⟩ := h
    cases pre with
    | nil =>
      obtain ⟨rfl, -⟩ := List.cons_prefix_cons.1 hp
      rw [ho] at hq
      cases hq
    | cons p pre =>
      obtain ⟨rfl, hrest⟩ := List.cons_prefix_cons.1 hp
      refine ⟨hinterrupt p List.mem_cons_self, pre, q, hrest, hq, ?_, fun x hx =>
        hinterrupt x (List.mem_cons_of_mem p hx)⟩
      have hsum := ticks_cons p pre
      omega
  · intro h
    obtain ⟨hno, pre, q, hp, hq, hticks, hinterrupt⟩ := h
    refine ⟨o :: pre, q, List.cons_prefix_cons.2 ⟨rfl, hp⟩, hq, ?_, ?_⟩
    · have hsum := ticks_cons o pre
      omega
    · intro x hx
      rcases List.mem_cons.1 hx with rfl | hx
      · exact hno
      · exact hinterrupt x hx

theorem gaveUp_cons {n : ℕ} {o : Op ε} {ops : List (Op ε)} (ho : o.final = false) :
    GaveUp n (o :: ops) ↔ o.isInterrupt = true ∨ GaveUp (n - ticks [o]) ops := by
  constructor
  · intro h
    obtain ⟨pre, hp, hquiet, hover⟩ := h
    cases pre with
    | nil =>
      have hzero : n = 0 := by simpa [ticks] using hover
      exact Or.inr (by simpa [hzero] using gaveUp_zero ops)
    | cons p pre =>
      obtain ⟨rfl, hrest⟩ := List.cons_prefix_cons.1 hp
      have hsum := ticks_cons p pre
      rcases hover with hover | ⟨q, hq, hqi⟩
      · exact Or.inr ⟨pre, hrest, fun x hx => hquiet x (List.mem_cons_of_mem p hx), Or.inl (by omega)⟩
      · rcases List.mem_cons.1 hq with rfl | hq
        · exact Or.inl hqi
        · exact Or.inr ⟨pre, hrest, fun x hx => hquiet x (List.mem_cons_of_mem p hx), Or.inr ⟨q, hq, hqi⟩⟩
  · intro h
    rcases h with hi | ⟨pre, hp, hquiet, hover⟩
    · exact ⟨[o], by simp, by simpa using ho, Or.inr ⟨o, by simp, hi⟩⟩
    · refine ⟨o :: pre, List.cons_prefix_cons.2 ⟨rfl, hp⟩, ?_, ?_⟩
      · intro x hx
        rcases List.mem_cons.1 hx with rfl | hx
        · exact ho
        · exact hquiet x hx
      · have hsum := ticks_cons o pre
        exact hover.imp (fun hle => by omega) fun ⟨q, hq, hqi⟩ => ⟨q, List.mem_cons_of_mem o hq, hqi⟩

/-- an operation that is no final callback takes its time, or ends the wait -/
theorem ends_cons {n : ℕ} {o : Op ε} {ops : List (Op ε)} (ho : o.final = false) (result : Bool) :
    Ends n (o :: ops) result ↔
      (o.isInterrupt = true ∧ result = false) ∨ (o.isInterrupt = false ∧ Ends (n - ticks [o]) ops result) := by
  cases result with
  | true => simp [Ends, toldInTime_cons ho]
  | false => cases hi : o.isInterrupt <;> simp [Ends, gaveUp_cons ho, hi]

/-- the outcome of a wait that has begun -/
theorem waiting_outcome {s : St ε} {n : ℕ} (hs : s.thread = .waiting n) (hn : 0 < n) (hc : s.countDownLatch = 1)
    (ops : List (Op ε)) (result : Bool) : (ops.foldl step s).thread = .returned result ↔ Ends n ops result := by
  induction ops generalizing s n with
  | nil => simp [hs, ends_nil hn]
  | cons o ops ih =>
    -- the wait goes on, for the time that is left
    have goOn : (step s o).thread = .waiting (n - ticks [o]) → (step s o).countDownLatch = 1 → o.final = false →
        o.isInterrupt = false → 0 < n - ticks [o] →
        (((o :: ops).foldl step s).thread = .returned result ↔ Ends n (o :: ops) result) := by
      intro hs' hc' ho hi hpos
      rw [List.foldl_cons, ih hs' hpos hc', ends_cons ho]
      simp [hi]
    -- the wait ends
    have ended : ∀ r, (step s o).thread = .returned r → (Ends n (o :: ops) result ↔ result = r) →
        (((o :: ops).foldl step s).thread = .returned result ↔ Ends n (o :: ops) result) := by
      intro r hstep hiff
      rw [List.foldl_cons, foldl_returned hstep ops, hiff, Thread.returned.injEq]
      exact eq_comm
    have told := fun ho => ended true (step_final hs hc ho) (ends_final hn ho ops result)
    cases o with
    | cancelled => exact told rfl
    | failed throwable => exact told rfl
    | completed => exact told rfl
    | updated => exact goOn hs hc rfl rfl hn
    | await =>
      have hstep : step s .await = s := by simp [step, hs]
      exact goOn (by rw [hstep]; exact hs) (by rw [hstep]; exact hc) rfl rfl hn
    | interrupt =>
      refine ended false (by simp [step, hs, onInterrupted, log]) ?_
      rw [ends_cons rfl]
      simp [Op.isInterrupt]
    | tick =>
      have hone : ticks [Op.tick (ε := ε)] = 1 := rfl
      by_cases hlast : n ≤ 1
      · refine ended false (by simp [step, hs, hlast]) ?_
        rw [ends_cons rfl, hone, Nat.sub_eq_zero_of_le hlast, ends_zero]
        simp [Op.isInterrupt]
      · exact goOn (by simp [step, hs, hlast, hone]) (by simp [step, hs, hc]) rfl rfl (by omega)

/-! ## Every run -/

/-- before the call the count is zero exactly when the server has told of its end -/
structure Early (timeoutMillis : ℕ) (ops : List (Op ε)) (s : St ε) : Prop where
  thread : s.thread = .running
  timeoutMillis : s.timeoutMillis = timeoutMillis
  countDownLatch : s.countDownLatch = if ops.any Op.final then 0 else 1
  interrupted : s.interrupted = ops.any Op.isInterrupt

theorem Early.countDown {timeoutMillis : ℕ} {ops : List (Op ε)} {s : St ε} (h : Early timeoutMillis ops s) {o : Op ε}
    (ho : o.final = true) (hno : o.isInterrupt = false) (message : String) (throwable : Option ε) :
    Early timeoutMillis (ops ++ [o]) (countDown (log s message throwable)) := by
  obtain ⟨hthread, htimeout, hcount, hinterrupt⟩ := h
  refine ⟨by simp [HttpServerCompletionHandler.countDown, log, hthread], htimeout, ?_, ?_⟩
  · have hzero : s.countDownLatch - 1 = 0 := by
      rw [hcount]
      split_ifs <;> rfl
    simpa [HttpServerCompletionHandler.countDown, log, ho] using hzero
  · simpa [HttpServerCompletionHandler.countDown, log, hno] using hinterrupt

theorem step_early {timeoutMillis : ℕ} {ops : List (Op ε)} {s : St ε} (h : Early timeoutMillis ops s) {o : Op ε}
    (ho : o.isAwait = false) : Early timeoutMillis (ops ++ [o]) (step s o) := by
  obtain ⟨hthread, htimeout, hcount, hinterrupt⟩ := id h
  cases o with
  | await => cases ho
  | cancelled => exact h.countDown rfl rfl _ _
  | failed throwable => exact h.countDown rfl rfl _ _
  | completed => exact h.countDown rfl rfl _ _
  | updated =>
    exact ⟨hthread, htimeout, by simp [step, log, hcount, Op.final], by simp [step, log, hinterrupt, Op.isInterrupt]⟩
  | tick =>
    have hstep : step s .tick = s := by simp [step, hthread]
    rw [hstep]
    exact ⟨hthread, htimeout, by simp [hcount, Op.final], by simp [hinterrupt, Op.isInterrupt]⟩
  | interrupt =>
    have hstep : step s .interrupt = { s with interrupted := true } := by simp [step, hthread]
    rw [hstep]
    exact ⟨hthread, htimeout, by simp [hcount, Op.final], by simp [Op.isInterrupt]⟩

theorem run_early (timeoutMillis : ℕ) (ops : List (Op ε)) (h : ∀ o ∈ ops, o.isAwait = false) :
    Early timeoutMillis ops (run timeoutMillis ops) := by
  induction ops using List.reverseRecOn with
  | nil => exact ⟨rfl, rfl, rfl, rfl⟩
  | append_singleton ops o ih =>
    have hbefore := ih fun x hx => h x (List.mem_append_left _ hx)
    unfold run at hbefore ⊢
    rw [List.foldl_append]
    exact step_early hbefore (h o (by simp))

/-- how a call of `await` ends: `before` is what happened before it, `after` what follows -/
def Awaited (timeoutMillis : ℕ) (before after : List (Op ε)) : Bool → Prop
  | true => (∀ o ∈ before, o.isInterrupt = false) ∧ ((∃ o ∈ before, o.final = true) ∨ ToldInTime timeoutMillis after)
  | false => (∃ o ∈ before, o.isInterrupt = true) ∨ ((∀ o ∈ before, o.final = false) ∧ GaveUp timeoutMillis after)

theorem run_awaited (timeoutMillis : ℕ) (before after : List (Op ε)) (h : ∀ o ∈ before, o.isAwait = false)
    (result : Bool) : (run timeoutMillis (before ++ .await :: after)).thread = .returned result ↔
      Awaited timeoutMillis before after result := by
  have hsplit : run timeoutMillis (before ++ .await :: after) =
      after.foldl step (step (run timeoutMillis before) .await) := by
    simp [run, List.foldl_append]
  obtain ⟨hthread, htimeout, hcount, hinterrupt⟩ := run_early timeoutMillis before h
  have hawait : step (run timeoutMillis before) .await = await (run timeoutMillis before) := by
    simp only [step, hthread]
  rw [hsplit, hawait]
  generalize run timeoutMillis before = s at hthread htimeout hcount hinterrupt
  -- the call returns at once
  have atOnce : ∀ r, (await s).thread = .returned r → (Awaited timeoutMillis before after result ↔ result = r) →
      ((after.foldl step (await s)).thread = .returned result ↔ Awaited timeoutMillis before after result) := by
    intro r hres hiff
    rw [foldl_returned hres after, hiff, Thread.returned.injEq]
    exact eq_comm
  cases hint : before.any Op.isInterrupt with
  | true =>
    refine atOnce false (by simp [await, hinterrupt, hint, onInterrupted, log]) ?_
    obtain ⟨o, ho, hoi⟩ := List.any_eq_true.1 hint
    cases result with
    | true => exact ⟨fun hno => absurd (hno.1 o ho) (by simp [hoi]), fun hfalse => absurd hfalse (by simp)⟩
    | false => exact ⟨fun _ => rfl, fun _ => Or.inl ⟨o, ho, hoi⟩⟩
  | false =>
    have hquiet : ∀ o ∈ before, o.isInterrupt = false := by simpa using hint
    have hloud : ¬ ∃ o ∈ before, o.isInterrupt = true := by simpa using hint
    have hnone : s.interrupted = false := hinterrupt.trans hint
    cases hfin : before.any Op.final with
    | true =>
      refine atOnce true (by simp [await, hnone, hcount, hfin]) ?_
      obtain ⟨o, ho, hof⟩ := List.any_eq_true.1 hfin
      cases result with
      | true => exact ⟨fun _ => rfl, fun _ => ⟨hquiet, Or.inl ⟨o, ho, hof⟩⟩⟩
      | false =>
        refine ⟨fun hgave => ?_, fun hfalse => absurd hfalse (by simp)⟩
        exact absurd ((hgave.resolve_left hloud).1 o ho) (by simp [hof])
    | false =>
      have hone : s.countDownLatch = 1 := by simp [hcount, hfin]
      have hopen : ∀ o ∈ before, o.final = false := by simpa using hfin
      have hends : Awaited timeoutMillis before after result ↔ Ends timeoutMillis after result := by
        cases result with
        | true =>
          refine ⟨fun hall => hall.2.resolve_left fun ⟨o, ho, hof⟩ => ?_, fun htold => ⟨hquiet, Or.inr htold⟩⟩
          exact absurd (hopen o ho) (by simp [hof])
        | false => exact ⟨fun hgave => (hgave.resolve_left hloud).2, fun hgave => Or.inr ⟨hopen, hgave⟩⟩
      rcases Nat.eq_zero_or_pos timeoutMillis with hzero | hpos
      · refine atOnce false (by simp [await, hnone, hone, htimeout, hzero]) ?_
        rw [hends, hzero, ends_zero]
      · have hwaits : await s = { s with thread := .waiting timeoutMillis } := by
          simp [await, hnone, hone, htimeout, hpos.ne']
        rw [hends]
        exact waiting_outcome (s := await s) (by rw [hwaits]) hpos (by rw [hwaits]; exact hone) after result

end BankServices.Webapp.HttpServerCompletionHandler
