/-
Every run of the service is a sequential run of the bank, whatever the interleaving.

`history` lists the requests in the order in which they take effect. They are one execution of the bank
(`Takes`), in real-time order, each once and with its answer; what a client reads in between is the bank at that moment.

- `run_linearized`: so it is for every run. An answered request that is not in the history waited past the lock timeout
  and is told so: a payment by a conflict that names the account, an update or a deletion by an internal error.
- `run_answers`: hence every answer in every run is one of the bank, or such a refusal. No run ends a request with an
  `IllegalStateException` or a `NullPointerException`.
-/
import BankServices.Api.Refusals
import BankServices.Service.Refinement

namespace BankServices.Service

open BankServices.Java BankServices.Txn BankServices.Storage BankServices.Webapp BankServices.Api BankServices.Bank
open BankServices.Sequential

/-! ## Definitions -/

abbrev Event := RowLock.Event Sequence Throwable Response Request

/-- the requests that take effect along a run, in that order -/
def history (ops : List Op) : List Event := RowLock.history h2 body init ops

/-- the next value of each sequence, as the request met it -/
def offered (e : Event) (q : Sequence) : ℤ := (tape q e.ids).1

/-- the bank performs the request, and the code ends as it says -/
def Takes (b : State) (e : Event) (b' : State) : Prop :=
  ∃ v, perform b (offered e) e.req = (v, b') ∧ Told v e.outcome

/-- a statement of the slot's request waited past the lock timeout -/
def LockedOut (ops : List Op) (i : ℕ) : Prop := RowLock.TimedOut h2 body init ops i

/-- what a request is told whose statement waited past the lock timeout -/
def Refusal : Request → Throwable → Prop
  | .createPayment _ np, t => PaymentEndpoint.Conflict np t
  | .createAccount _ _, _ => False
  | .updateAccount _, t | .deleteAccount _, t => t = .dataAccessException .lockTimeout

/-- the bank fails although nothing is wrong with the request: a payment of no cent, or of more than the payee can hold,
or a deletion of an account with transfers -/
def Fails (b : State) : Request → Prop
  | .createPayment _ np => ∃ o p q, orderOf np = .ok o ∧ parties b o.payer o.payee = .ok (p, q) ∧
      o.amount * 100 ≤ p.cents ∧ (received o.amount ≤ 0 ∨ limit ≤ q.cents + received o.amount)
  | .deleteAccount k => (b.account k).isSome = true ∧ b.transfersOf k ≠ []
  | _ => False

/-- the slot's request was open at the end of the run -/
def OpenAt (ops : List Op) (i : ℕ) (r : Request) : Prop := ∃ t, (run ops).slot i = .running t ∧ t.req = r

/-- where an answer comes from -/
structure Explained (ops : List Op) (i : ℕ) (r : Request) (out : Except Throwable Response) : Prop where
  cause : (LockedOut ops i ∧ ∃ t, out = .error t ∧ Refusal r t) ∨ ∃ pre next v, pre <+: ops ∧ OpenAt pre i r ∧
    (perform (bank (run pre).db) next r).1 = v ∧ Told v out
  thrown : (∀ m, out ≠ .error (.illegalStateException m)) ∧ out ≠ .error .nullPointerException
  conflict : (answer out).status = .CONFLICT ↔ LockedOut ops i ∧ ∃ now np, r = .createPayment now np
  internalError : (answer out).status = .INTERNAL_SERVER_ERROR →
    (LockedOut ops i ∧ r.OfRow) ∨ ∃ pre, pre <+: ops ∧ OpenAt pre i r ∧ Fails (bank (run pre).db) r

/-- a run of the service seen as one run of the bank -/
structure Linearized (ops : List Op) : Prop where
  sequential : ∀ pre, pre <+: ops →
    history pre <+: history ops ∧ Legal Takes (bank migrated) (history pre) (bank (run pre).db)
  once : ((history ops).map RowLock.Event.slot).Nodup
  begun : ∀ e ∈ history ops, (run ops).slot e.slot = .finished e.req e.outcome ∨
    ∃ t, (run ops).slot e.slot = .running t ∧ t.req = e.req ∧ t.rest = Prog.ofExcept e.outcome
  answered : ∀ i r out, (run ops).slot i = .finished r out →
    (∃ e ∈ history ops, e.slot = i ∧ e.req = r ∧ e.outcome = out) ∨
      (LockedOut ops i ∧ ∃ t, out = .error t ∧ Refusal r t)
  realTime : ∀ pre, pre <+: ops → ∀ e ∈ history ops, ∀ e' ∈ history ops,
    (∃ r out, (run pre).slot e.slot = .finished r out) → (run pre).slot e'.slot = .free →
    List.Sublist [e, e'] (history ops)

/-! ## The bank performs the history -/

theorem body_guarded (r : Request) : (body r).Guarded h2 (GivesUp h2 (Refusal r)) [] := by
  cases r with
  | createPayment now np => exact PaymentEndpoint.create_guarded now np
  | createAccount now na => exact AccountEndpoint.create_guarded now na
  | updateAccount u => exact AccountEndpoint.update_guarded u
  | deleteAccount i => exact AccountEndpoint.delete_guarded i

/-- a valid creation draws its account id, and nothing else -/
theorem createAccount_ids {now : LocalDateTime} {na : NewAccount} {a : Account} {db : Tables}
    (hv : AccountEndpoint.checkedAccount now na = .ok a) {ids : List (Sequence × ℤ)} {out : Except Throwable Response}
    {db' : Tables}
    (h : ∀ more, (body (.createAccount now na)).transaction h2 tape (ids ++ more) db = (out, more, db')) :
    ∃ x, ids = [(.account, x)] := by
  refine tape_takes fun more => ?_
  obtain ⟨row, -, hrun⟩ := AccountEndpoint.create_run tape (ids ++ more) db hv
  have hmore := h more
  unfold Prog.transaction at hmore
  rw [show body (.createAccount now na) = AccountEndpoint.create now na from rfl, hrun] at hmore
  exact congrArg (fun z => z.2.1) hmore

/-- a request that takes effect on the tables of a run takes effect on their bank -/
theorem takesEffect_takes {ops : List Op} {d d' : Tables} {e : Event}
    (h : RowLock.TakesEffect h2 body init ops d e d') : Takes (bank d) e (bank d') := by
  obtain ⟨halone, pre, t, -, hdb, hs, hreq, hids, -⟩ := h
  have h0 := halone []
  rw [List.append_nil] at h0
  have hledger := run_ledger pre
  have hn : NonNegative d := hdb ▸ hledger.nonneg
  obtain ⟨v, hv, ht⟩ := transaction_performs tape e.ids hn e.req fun now na a hr hvalid => by
    have hdrawn := halone
    rw [hr] at hdrawn
    obtain ⟨x, hx⟩ := createAccount_ids hvalid hdrawn
    have hfresh := account_fresh hledger hs (x := x) (by rw [hids, hx]; exact List.mem_singleton.2 rfl)
    rw [hx, tape_cons]
    exact hdb ▸ hfresh
  rw [h0] at hv ht
  exact ⟨v, hv, ht⟩

/-- an answered request that waited past the lock timeout is refused -/
theorem lockedOut_refused {ops : List Op} {i : ℕ} {r : Request} {out : Except Throwable Response}
    (hs : (run ops).slot i = .finished r out) (h : LockedOut ops i) : ∃ t, out = .error t ∧ Refusal r t := by
  have hgave := RowLock.run_gaveUp body_disciplined body_guarded h
  rw [show (RowLock.run h2 body (RowLock.init migrated migratedSequences) ops).slot i = _ from hs] at hgave
  exact hgave

theorem history_legal (ops : List Op) : Legal Takes (bank migrated) (history ops) (bank (run ops).db) :=
  (RowLock.run_stage body_disciplined migrated migratedSequences ops).legal.map bank fun _ _ _ => takesEffect_takes

/-- an answered request is in the history, with its answer, or was refused -/
theorem answered_cases {ops : List Op} {i : ℕ} {r : Request} {out : Except Throwable Response}
    (hs : (run ops).slot i = .finished r out) :
    (∃ e ∈ history ops, e.slot = i ∧ e.req = r ∧ e.outcome = out) ∨
      (LockedOut ops i ∧ ∃ t, out = .error t ∧ Refusal r t) := by
  have hstage := RowLock.run_stage body_disciplined migrated migratedSequences ops
  have hslot : (RowLock.run h2 body (RowLock.init migrated migratedSequences) ops).slot i = .finished r out := hs
  rcases hstage.answered i r out hslot with ⟨e, he, rfl⟩ | hlate
  · refine Or.inl ⟨e, he, rfl, ?_⟩
    rcases hstage.begun e he with hfin | ⟨t, ht, -⟩
    · rw [hslot] at hfin
      cases hfin
      exact ⟨rfl, rfl⟩
    · rw [hslot] at ht
      cases ht
  · exact Or.inr ⟨hlate, lockedOut_refused hs hlate⟩

/-- **Linearizability.** -/
theorem run_linearized (ops : List Op) : Linearized ops := by
  have hstage := RowLock.run_stage body_disciplined migrated migratedSequences ops
  refine ⟨fun pre hp => ⟨RowLock.history_prefix h2 body init hp, history_legal pre⟩, hstage.once, fun e he => ?_,
    fun i r out => answered_cases, fun pre hp e he e' he' hfin hfree => ?_⟩
  · refine (hstage.begun e he).imp_right ?_
    rintro ⟨t, ht, hreq, -, hrest, -⟩
    exact ⟨t, ht, hreq, hrest⟩
  · exact RowLock.history_real_time body_disciplined migrated migratedSequences hp he he' hfin hfree

/-! ## Answers -/

/-- the bank fails for no other reason -/
theorem fails_of_failed {b : State} {next : Sequence → ℤ} {r : Request} (h : (perform b next r).1 = .failed) :
    Fails b r := by
  cases r with
  | createPayment now np =>
    simp only [perform] at h
    cases ho : orderOf np with
    | error f =>
      rw [pay_invalid ho] at h
      cases h
    | ok o =>
      cases hp : parties b o.payer o.payee with
      | error f =>
        rw [pay_missing ho hp] at h
        cases h
      | ok pq =>
        rw [pay_valid ho hp] at h
        split_ifs at h with hfunds hfits
        refine ⟨o, pq.1, pq.2, ho, hp, hfunds, ?_⟩
        rw [not_and_or, not_lt, not_lt] at hfits
        exact hfits
  | createAccount now na =>
    simp only [perform] at h
    cases hv : profileOf na.ownerName na.comment with
    | error f =>
      rw [hv] at h
      cases h
    | ok x =>
      rw [hv] at h
      cases h
  | updateAccount u =>
    simp only [perform] at h
    cases hv : updateOf u with
    | error f =>
      rw [hv] at h
      cases h
    | ok x =>
      cases hh : b.account x.2.2 with
      | none => simp [hv, hh] at h
      | some y => simp [hv, hh] at h
  | deleteAccount k =>
    simp only [perform] at h
    cases hh : b.account k with
    | none => simp [hh] at h
    | some y =>
      rw [hh] at h
      simp only at h
      split_ifs at h with hfree
      exact ⟨by rw [hh]; rfl, hfree⟩

theorem told_thrown {v : Verdict} {out : Except Throwable Response} (h : Told v out) :
    (∀ m, out ≠ .error (.illegalStateException m)) ∧ out ≠ .error .nullPointerException := by
  cases h <;> exact ⟨fun m => by rintro ⟨⟩, by rintro ⟨⟩⟩

theorem told_status {v : Verdict} {out : Except Throwable Response} (h : Told v out) :
    (answer out).status ≠ .CONFLICT ∧ ((answer out).status = .INTERNAL_SERVER_ERROR → v = .failed) := by
  cases h <;> exact ⟨by rintro ⟨⟩, by rintro ⟨⟩ <;> rfl⟩

/-- a refused payment is told of the conflict, a refused update or deletion ends in an internal error -/
theorem refusal_status {r : Request} {t : Throwable} (h : Refusal r t) :
    (∀ m, t ≠ .illegalStateException m) ∧ t ≠ .nullPointerException ∧
      (((answer (.error t)).status = .CONFLICT ∧ ∃ now np, r = .createPayment now np) ∨
        ((answer (.error t)).status = .INTERNAL_SERVER_ERROR ∧ r.OfRow)) := by
  cases r with
  | createPayment now np =>
    have htext : ∃ side k, t = PaymentEndpoint.locked side k := by
      rcases h with ⟨k, -, ht⟩ | ⟨k, -, ht⟩
      · exact ⟨_, k, ht⟩
      · exact ⟨_, k, ht⟩
    obtain ⟨side, k, rfl⟩ := htext
    exact ⟨fun m => by rintro ⟨⟩, by rintro ⟨⟩, Or.inl ⟨rfl, now, np, rfl⟩⟩
  | createAccount now na => exact absurd h id
  | updateAccount u =>
    cases h
    exact ⟨fun m => by rintro ⟨⟩, by rintro ⟨⟩, Or.inr ⟨rfl, trivial⟩⟩
  | deleteAccount k =>
    cases h
    exact ⟨fun m => by rintro ⟨⟩, by rintro ⟨⟩, Or.inr ⟨rfl, trivial⟩⟩

/-- a request in the history took effect at a moment at which it was open, on the bank of that moment -/
theorem history_moment {ops : List Op} {e : Event} (he : e ∈ history ops) : ∃ pre, pre <+: ops ∧
    OpenAt pre e.slot e.req ∧ ∃ b', Takes (bank (run pre).db) e b' := by
  obtain ⟨d, d', htakes⟩ :=
    (RowLock.run_stage body_disciplined migrated migratedSequences ops).legal.exists_step he
  obtain ⟨pre, t, hp, hdb, hs, hreq, -⟩ := htakes.moment
  exact ⟨pre, hp, ⟨t, hs, hreq⟩, bank d', hdb ▸ takesEffect_takes htakes⟩

/-- the answer of the slot's request is explained -/
theorem explained {ops : List Op} {i : ℕ} {r : Request} {out : Except Throwable Response}
    (hs : (run ops).slot i = .finished r out) : Explained ops i r out := by
  have hconflict : LockedOut ops i → (∃ now np, r = .createPayment now np) → (answer out).status = .CONFLICT := by
    rintro hl ⟨now, np, rfl⟩
    obtain ⟨t, rfl, href⟩ := lockedOut_refused hs hl
    rcases (refusal_status href).2.2 with ⟨hst, -⟩ | ⟨-, hrow⟩
    · exact hst
    · exact absurd hrow id
  rcases answered_cases hs with ⟨e, he, rfl, rfl, rfl⟩ | ⟨hl, t, rfl, href⟩
  · obtain ⟨pre, hp, hopen, b', v, hv, htold⟩ := history_moment he
    obtain ⟨hno, hfailed⟩ := told_status htold
    have hperform := congrArg Prod.fst hv
    refine ⟨Or.inr ⟨pre, _, v, hp, hopen, hperform, htold⟩, told_thrown htold, ?_, fun h => ?_⟩
    · exact ⟨fun h => absurd h hno, fun h => hconflict h.1 h.2⟩
    · rw [hfailed h] at hperform
      exact Or.inr ⟨pre, hp, hopen, fails_of_failed hperform⟩
  · obtain ⟨hill, hnull, hstatus⟩ := refusal_status href
    refine ⟨Or.inl ⟨hl, t, rfl, href⟩, ⟨fun m h => hill m (Except.error.inj h), fun h => hnull (Except.error.inj h)⟩,
      ⟨fun h => ?_, fun h => hconflict h.1 h.2⟩, fun h => ?_⟩
    · rcases hstatus with ⟨-, hpay⟩ | ⟨hst, -⟩
      · exact ⟨hl, hpay⟩
      · rw [hst] at h
        cases h
    · rcases hstatus with ⟨hst, -⟩ | ⟨-, hrow⟩
      · rw [hst] at h
        cases h
      · exact Or.inl ⟨hl, hrow⟩

/-- a payment from account 0 to account 1, and an update of account 2 -/
def apart : List Op :=
  .begin 0 (.createPayment firstOf2020 (pay ⟨1, 0⟩)) :: toCommit 0 ++
    [.begin 1 (.updateAccount ⟨some 2, some (ofChars ['B']), none⟩), .exec 1, .commit 1]

/-- the request in the history is about the account -/
def About (e : Event) (k : ℤ) : Bool := names (offered e) e.req k

theorem takes_local : Local Takes About State.view where
  frame := by
    rintro a e b ⟨v, hv, -⟩ k hk
    have hframe := perform_frame (b := a) e.req hk
    rw [hv] at hframe
    exact hframe
  alike := by
    rintro a e b a' ⟨v, hv, ht⟩ hview
    obtain ⟨hverdict, hviews⟩ := perform_alike e.req hview
    rw [hv] at hverdict hviews
    exact ⟨(perform a' (offered e) e.req).2, ⟨v, Prod.ext hverdict rfl, ht⟩, hviews⟩

/-- **Only the order at each account matters.** The history in any other order that keeps, for each account, the order
of the requests about it, gives the same answers, the same accounts and the same payments of each account. -/
theorem history_reorder (ops : List Op) (l : List Event) (hperm : l.Perm (history ops))
    (horder : ∀ k, (l.filter fun e => About e k) = (history ops).filter fun e => About e k) :
    ∃ b, Legal Takes (bank migrated) l b ∧ ∀ k, b.view k = (bank (run ops).db).view k :=
  (history_legal ops).reorder takes_local hperm horder

theorem apart_reordered : ∃ b, Legal Takes (bank migrated) (history apart).reverse b ∧
    ∀ k, b.view k = (bank (run apart).db).view k := by
  refine history_reorder apart _ (List.reverse_perm _) fun k => ?_
  obtain ⟨e, e', hhistory, he'⟩ : ∃ e e', history apart = [e, e'] ∧ ∀ k, k ≠ 2 → About e' k = false := by
    refine ⟨_, _, rfl, fun k hk => ?_⟩
    simpa [About, names] using Ne.symm hk
  by_cases hk : k = 2
  · subst hk
    rfl
  · rw [hhistory]
    show ([e', e].filter fun e => About e k) = [e, e'].filter fun e => About e k
    simp [List.filter_cons, he' k hk]

end BankServices.Service
