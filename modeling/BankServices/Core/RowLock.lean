/-
Concurrent transactions over a store with row locks, at read-committed isolation.

Any number of requests run side by side, one `Op` at a time, in any order: a request begins, its transaction sends its
next statement or draws its next sequence value, a waiting statement times out, the transaction commits or rolls back.
A statement is blocked while a row it depends on is locked by another transaction. When it runs, it sees the committed
store under the transaction's own writes, locks its row if the row exists, and the lock stays until the transaction
ends. Writes stay private until the commit.

- `serializable`: for programs that keep the locking discipline, the committed store of every run is the store after
  replaying the logged requests alone, in commit order, with the sequence values they drew. A transaction that
  committed without a write is not logged.
- `step_inv`: an open transaction is always at a point that its own replay from the present committed store passes
  through (`Ran`), unless it met a missing or locked row and has nothing left to do.
No novelty is claimed: this is strict two-phase locking with single-row locks.
-/
import BankServices.Core.Txn

namespace BankServices.RowLock

open BankServices.Txn

/-! ## Model -/

/-- an open transaction: its request, the values it drew, what is left of its program, its pending writes -/
structure Session (Stmt : Type) (Ans : Stmt → Type) (Seq ε α Write R : Type) where
  req : R
  ids : List (Seq × ℤ)
  rest : Prog Stmt Ans Seq ε α
  writes : List Write

inductive Slot (Stmt : Type) (Ans : Stmt → Type) (Seq ε α Write R : Type) where
  | free
  | running (t : Session Stmt Ans Seq ε α Write R)
  | finished (req : R) (outcome : Except ε α)

structure St (Stmt : Type) (Ans : Stmt → Type) (Seq ε α Db Write Key R : Type) where
  /-- the committed store -/
  db : Db
  /-- the next value of each sequence -/
  seq : Seq → ℤ
  /-- the transaction that holds the lock of a row -/
  owner : Key → Option ℕ
  slot : ℕ → Slot Stmt Ans Seq ε α Write R
  /-- the requests that committed writes, in commit order, with the values they drew -/
  log : List (R × List (Seq × ℤ))

inductive Op (R : Type) where
  | begin (i : ℕ) (r : R)
  | exec (i : ℕ)
  | timeout (i : ℕ)
  | commit (i : ℕ)
  | rollback (i : ℕ)
deriving DecidableEq, Repr

variable {Stmt : Type} {Ans : Stmt → Type} {Seq ε α Db Write Key Face R : Type}

section Machine

variable [DecidableEq Seq] [DecidableEq Key]

def init (d : Db) (q : Seq → ℤ) : St Stmt Ans Seq ε α Db Write Key R := ⟨d, q, fun _ => none, fun _ => .free, []⟩

/-- a row that the statement depends on is locked by another transaction -/
def blocked (E : Engine Stmt Ans Db Write Key Face) (s : St Stmt Ans Seq ε α Db Write Key R) (i : ℕ) (c : Stmt) :
    Bool :=
  (E.reads c).any fun k => s.owner k ≠ none ∧ s.owner k ≠ some i

/-- the lock table after statement `c` of transaction `i`: a missing row is not locked -/
def grant (E : Engine Stmt Ans Db Write Key Face) (s : St Stmt Ans Seq ε α Db Write Key R) (i : ℕ) (c : Stmt) :
    Key → Option ℕ :=
  match E.lockKey c with
  | none => s.owner
  | some k => if E.present (E.look s.db k) then Function.update s.owner k (some i) else s.owner

/-- the lock table after transaction `i` ended -/
def release (s : St Stmt Ans Seq ε α Db Write Key R) (i : ℕ) : Key → Option ℕ :=
  fun k => if s.owner k = some i then none else s.owner k

/-- a statement of transaction `i` runs on the committed store under its own writes -/
def sent (E : Engine Stmt Ans Db Write Key Face) (s : St Stmt Ans Seq ε α Db Write Key R) (i : ℕ)
    (t : Session Stmt Ans Seq ε α Write R) (c : Stmt) (k : Ans c → Prog Stmt Ans Seq ε α) :
    St Stmt Ans Seq ε α Db Write Key R :=
  let r := E.exec c (E.view s.db t.writes)
  { s with
    owner := grant E s i c
    slot := Function.update s.slot i (.running { t with rest := k r.1, writes := t.writes ++ r.2 }) }

def step (E : Engine Stmt Ans Db Write Key Face) (body : R → Prog Stmt Ans Seq ε α)
    (s : St Stmt Ans Seq ε α Db Write Key R) : Op R → St Stmt Ans Seq ε α Db Write Key R
  | .begin i r =>
    match s.slot i with
    | .free => { s with slot := Function.update s.slot i (.running ⟨r, [], body r, []⟩) }
    | _ => s
  | .exec i =>
    match s.slot i with
    | .running t =>
      match t.rest with
      | .send c k => if blocked E s i c then s else sent E s i t c k
      | .draw q k =>
        { s with
          seq := (counters q s.seq).2
          slot := Function.update s.slot i (.running { t with rest := k (s.seq q), ids := t.ids ++ [(q, s.seq q)] }) }
      | _ => s
    | _ => s
  | .timeout i =>
    match s.slot i with
    | .running t =>
      match t.rest with
      | .send c k =>
        if blocked E s i c then
          { s with slot := Function.update s.slot i (.running { t with rest := k (E.timeout c) }) }
        else s
      | _ => s
    | _ => s
  | .commit i =>
    match s.slot i with
    | .running t =>
      match t.rest with
      | .done a =>
        { s with
          db := E.view s.db t.writes
          owner := release s i
          slot := Function.update s.slot i (.finished t.req (.ok a))
          log := if t.writes.isEmpty then s.log else s.log ++ [(t.req, t.ids)] }
      | _ => s
    | _ => s
  | .rollback i =>
    match s.slot i with
    | .running t =>
      match t.rest with
      | .fail e =>
        { s with owner := release s i, slot := Function.update s.slot i (.finished t.req (.error e)) }
      | _ => s
    | _ => s

def run (E : Engine Stmt Ans Db Write Key Face) (body : R → Prog Stmt Ans Seq ε α)
    (s : St Stmt Ans Seq ε α Db Write Key R) (ops : List (Op R)) : St Stmt Ans Seq ε α Db Write Key R :=
  ops.foldl (step E body) s

variable {E : Engine Stmt Ans Db Write Key Face} {body : R → Prog Stmt Ans Seq ε α}
  {s s' : St Stmt Ans Seq ε α Db Write Key R}

theorem run_snoc (s : St Stmt Ans Seq ε α Db Write Key R) (l : List (Op R)) (o : Op R) :
    run E body s (l ++ [o]) = step E body (run E body s l) o := by
  simp [run, List.foldl_append]

theorem run_cons (s : St Stmt Ans Seq ε α Db Write Key R) (o : Op R) (l : List (Op R)) :
    run E body s (o :: l) = run E body (step E body s o) l := rfl

theorem run_append (s : St Stmt Ans Seq ε α Db Write Key R) (a b : List (Op R)) :
    run E body s (a ++ b) = run E body (run E body s a) b := by
  simp [run, List.foldl_append]

/-- an invariant of the initial state that every step keeps holds after every run -/
theorem run_induction {P : St Stmt Ans Seq ε α Db Write Key R → Prop} (s : St Stmt Ans Seq ε α Db Write Key R)
    (h0 : P s) (hstep : ∀ s o, P s → P (step E body s o)) (ops : List (Op R)) : P (run E body s ops) := by
  induction ops generalizing s with
  | nil => exact h0
  | cons o ops ih => exact ih _ (hstep s o h0)

/-- every operation of the run is good in the state that it meets -/
def along (E : Engine Stmt Ans Db Write Key Face) (body : R → Prog Stmt Ans Seq ε α)
    (good : St Stmt Ans Seq ε α Db Write Key R → Op R → Bool) (s : St Stmt Ans Seq ε α Db Write Key R) :
    List (Op R) → Bool
  | [] => true
  | o :: ops => good s o && along E body good (step E body s o) ops

theorem along_iff {good : St Stmt Ans Seq ε α Db Write Key R → Op R → Bool} {ops : List (Op R)} :
    along E body good s ops = true ↔ ∀ pre o, pre ++ [o] <+: ops → good (run E body s pre) o = true := by
  induction ops generalizing s with
  | nil => simp [along]
  | cons a ops ih =>
    simp only [along, Bool.and_eq_true, ih]
    constructor
    · rintro ⟨ha, h⟩ pre o hp
      cases pre with
      | nil =>
        obtain ⟨rfl, -⟩ := List.cons_prefix_cons.1 hp
        exact ha
      | cons b pre =>
        obtain ⟨rfl, hrest⟩ := List.cons_prefix_cons.1 hp
        exact h pre o hrest
    · intro h
      refine ⟨h [] a (by simp), fun pre o hp => ?_⟩
      exact h (a :: pre) o (List.cons_prefix_cons.2 ⟨rfl, hp⟩)

/-- what holds at first and is kept by every good operation holds after every part of a run of good operations -/
theorem along_induction {good : St Stmt Ans Seq ε α Db Write Key R → Op R → Bool} {ops : List (Op R)}
    (h : along E body good s ops = true) {P : St Stmt Ans Seq ε α Db Write Key R → Prop} (h0 : P s)
    (hstep : ∀ pre o, good (run E body s pre) o = true → P (run E body s pre) →
      P (step E body (run E body s pre) o)) : ∀ pre, pre <+: ops → P (run E body s pre) := by
  intro pre hp
  induction pre using List.reverseRecOn with
  | nil => exact h0
  | append_singleton pre o ih =>
    rw [run_snoc]
    apply hstep
    · exact along_iff.1 h pre o hp
    · exact ih ((List.prefix_append pre [o]).trans hp)

/-- what one operation can do: nothing, or one of the six moves -/
inductive Move (E : Engine Stmt Ans Db Write Key Face) (body : R → Prog Stmt Ans Seq ε α)
    (s : St Stmt Ans Seq ε α Db Write Key R) : Op R → St Stmt Ans Seq ε α Db Write Key R → Prop where
  | idle (o : Op R) : Move E body s o s
  | begin {i : ℕ} {r : R} (hs : s.slot i = .free) :
      Move E body s (.begin i r) { s with slot := Function.update s.slot i (.running ⟨r, [], body r, []⟩) }
  | sent {i : ℕ} {t : Session Stmt Ans Seq ε α Write R} {c : Stmt} {k : Ans c → Prog Stmt Ans Seq ε α}
      (hs : s.slot i = .running t) (hr : t.rest = .send c k) (hb : blocked E s i c = false) :
      Move E body s (.exec i) (sent E s i t c k)
  | drew {i : ℕ} {t : Session Stmt Ans Seq ε α Write R} {q : Seq} {k : ℤ → Prog Stmt Ans Seq ε α}
      (hs : s.slot i = .running t) (hr : t.rest = .draw q k) :
      Move E body s (.exec i)
        { s with
          seq := (counters q s.seq).2
          slot := Function.update s.slot i (.running { t with rest := k (s.seq q), ids := t.ids ++ [(q, s.seq q)] }) }
  | timedOut {i : ℕ} {t : Session Stmt Ans Seq ε α Write R} {c : Stmt} {k : Ans c → Prog Stmt Ans Seq ε α}
      (hs : s.slot i = .running t) (hr : t.rest = .send c k) (hb : blocked E s i c = true) :
      Move E body s (.timeout i)
        { s with slot := Function.update s.slot i (.running { t with rest := k (E.timeout c) }) }
  | committed {i : ℕ} {t : Session Stmt Ans Seq ε α Write R} {a : α}
      (hs : s.slot i = .running t) (hr : t.rest = .done a) :
      Move E body s (.commit i)
        { s with
          db := E.view s.db t.writes
          owner := release s i
          slot := Function.update s.slot i (.finished t.req (.ok a))
          log := if t.writes.isEmpty then s.log else s.log ++ [(t.req, t.ids)] }
  | rolledBack {i : ℕ} {t : Session Stmt Ans Seq ε α Write R} {e : ε}
      (hs : s.slot i = .running t) (hr : t.rest = .fail e) :
      Move E body s (.rollback i)
        { s with owner := release s i, slot := Function.update s.slot i (.finished t.req (.error e)) }

theorem step_move (E : Engine Stmt Ans Db Write Key Face) (body : R → Prog Stmt Ans Seq ε α)
    (s : St Stmt Ans Seq ε α Db Write Key R) (o : Op R) : Move E body s o (step E body s o) := by
  cases o with
  | begin i r =>
    simp only [step]
    split
    · rename_i hs; exact .begin hs
    · exact .idle _
  | exec i =>
    simp only [step]
    split
    · rename_i t hs
      split
      · rename_i c k hr
        split
        · exact .idle _
        · rename_i hb; exact .sent hs hr (by simpa using hb)
      · rename_i q k hr; exact .drew hs hr
      · exact .idle _
    · exact .idle _
  | timeout i =>
    simp only [step]
    split
    · rename_i t hs
      split
      · rename_i c k hr
        split
        · rename_i hb; exact .timedOut hs hr hb
        · exact .idle _
      · exact .idle _
    · exact .idle _
  | commit i =>
    simp only [step]
    split
    · rename_i t hs
      split
      · rename_i a hr; exact .committed hs hr
      · exact .idle _
    · exact .idle _
  | rollback i =>
    simp only [step]
    split
    · rename_i t hs
      split
      · rename_i e hr; exact .rolledBack hs hr
      · exact .idle _
    · exact .idle _

theorem step_sent (E : Engine Stmt Ans Db Write Key Face) (body : R → Prog Stmt Ans Seq ε α)
    {s : St Stmt Ans Seq ε α Db Write Key R} {i : ℕ} {t : Session Stmt Ans Seq ε α Write R} {c : Stmt}
    {k : Ans c → Prog Stmt Ans Seq ε α} (hs : s.slot i = .running t) (hr : t.rest = .send c k)
    (hb : blocked E s i c = false) : step E body s (.exec i) = sent E s i t c k := by
  simp [step, hs, hr, hb]

omit [DecidableEq Seq] in
theorem slot_sent (E : Engine Stmt Ans Db Write Key Face) (s : St Stmt Ans Seq ε α Db Write Key R) (i : ℕ)
    (t : Session Stmt Ans Seq ε α Write R) (c : Stmt) (k : Ans c → Prog Stmt Ans Seq ε α) :
    (sent E s i t c k).slot i = .running { t with
      rest := k (E.exec c (E.view s.db t.writes)).1, writes := t.writes ++ (E.exec c (E.view s.db t.writes)).2 } :=
  Function.update_self _ _ _

theorem slot_timedOut (E : Engine Stmt Ans Db Write Key Face) (body : R → Prog Stmt Ans Seq ε α)
    {s : St Stmt Ans Seq ε α Db Write Key R} {i : ℕ} {t : Session Stmt Ans Seq ε α Write R} {c : Stmt}
    {k : Ans c → Prog Stmt Ans Seq ε α} (hs : s.slot i = .running t) (hr : t.rest = .send c k)
    (hb : blocked E s i c = true) :
    (step E body s (.timeout i)).slot i = .running { t with rest := k (E.timeout c) } := by
  simp [step, hs, hr, hb]

end Machine

/-! ## Replay -/

variable {E : Engine Stmt Ans Db Write Key Face} {body : R → Prog Stmt Ans Seq ε α}
  {s : St Stmt Ans Seq ε α Db Write Key R}

/-- a logged request replayed alone on a store, with the values it drew -/
def replay [DecidableEq Seq] (E : Engine Stmt Ans Db Write Key Face) (body : R → Prog Stmt Ans Seq ε α) (d : Db)
    (e : R × List (Seq × ℤ)) : Db :=
  ((body e.1).transaction E tape e.2 d).2.2

/-- running program `p` alone from store `d` passes through the point (drawn values, rest, writes), and every row its
statements depended on so far is in `H` -/
inductive Ran (E : Engine Stmt Ans Db Write Key Face) (d : Db) (H : Key → Prop) (p : Prog Stmt Ans Seq ε α) :
    List (Seq × ℤ) → Prog Stmt Ans Seq ε α → List Write → Prop where
  | start : Ran E d H p [] p []
  | sent {ids : List (Seq × ℤ)} {ws : List Write} {c : Stmt} {k : Ans c → Prog Stmt Ans Seq ε α}
      (h : Ran E d H p ids (.send c k) ws) (hH : ∀ x ∈ E.reads c, H x) :
      Ran E d H p ids (k (E.exec c (E.view d ws)).1) (ws ++ (E.exec c (E.view d ws)).2)
  | drew {ids : List (Seq × ℤ)} {ws : List Write} {q : Seq} {k : ℤ → Prog Stmt Ans Seq ε α}
      (h : Ran E d H p ids (.draw q k) ws) (x : ℤ) : Ran E d H p (ids ++ [(q, x)]) (k x) ws

namespace Ran

variable {d d' : Db} {H H' : Key → Prop} {p rest : Prog Stmt Ans Seq ε α} {ids : List (Seq × ℤ)} {ws : List Write}

/-- a point depends on the store only through the rows read so far -/
theorem congr (h : Ran E d H p ids rest ws) (hH : ∀ k, H k → H' k)
    (hd : ∀ k, H k → E.look d k = E.look d' k) : Ran E d' H' p ids rest ws := by
  induction h with
  | start => exact .start
  | @sent ids ws c k _ hc ih =>
    have he : E.exec c (E.view d ws) = E.exec c (E.view d' ws) :=
      E.exec_congr _ _ _ fun x hx => E.look_view_congr d d' ws x (hd x (hc x hx))
    rw [he]
    exact .sent ih fun x hx => hH x (hc x hx)
  | drew _ x ih => exact .drew ih x

/-- the replay reaches the point and goes on from it -/
theorem run_eq [DecidableEq Seq] (h : Ran E d H p ids rest ws) (more : List (Seq × ℤ)) :
    p.run E tape (ids ++ more) d = rest.run E tape more (E.view d ws) := by
  induction h generalizing more with
  | start => rfl
  | @sent ids ws c k _ _ ih =>
    rw [ih more, run_send, E.view_append]
    rfl
  | @drew ids ws q k _ x ih =>
    rw [List.append_assoc, ih ([(q, x)] ++ more), List.singleton_append, run_draw, tape_cons]

/-- the replay that ends consumes exactly the drawn values -/
theorem run_done [DecidableEq Seq] {a : α} (h : Ran E d H p ids (.done a) ws) (more : List (Seq × ℤ)) :
    p.run E tape (ids ++ more) d = (.ok a, more, E.view d ws) :=
  h.run_eq more

/-- what holds of every statement that a run from `d` sends holds of the statements sent after the point -/
theorem holds {Q : Stmt → Db → Prop} (h : Ran E d H p ids rest ws) (hq : p.Holds E Q d) :
    rest.Holds E Q (E.view d ws) := by
  induction h with
  | start => exact hq
  | @sent ids ws c k _ _ ih =>
    rw [E.view_append]
    exact ih.2
  | drew _ x ih => exact ih x

end Ran

/-! ## The invariant -/

/-- an open transaction that holds the rows in `H` of the committed store `d` -/
structure Covered (E : Engine Stmt Ans Db Write Key Face) (body : R → Prog Stmt Ans Seq ε α) (d : Db) (H : Key → Prop)
    (t : Session Stmt Ans Seq ε α Write R) : Prop where
  ran : Ran E d H (body t.req) t.ids t.rest t.writes
  disc : ∃ L w, (∀ k ∈ L, H k) ∧ t.rest.Disciplined E L w ∧ (w = false → t.writes = [])

/-- every open transaction either is covered by its locks or has given up without a write -/
structure SessionInv (E : Engine Stmt Ans Db Write Key Face) (body : R → Prog Stmt Ans Seq ε α) (d : Db)
    (H : Key → Prop) (t : Session Stmt Ans Seq ε α Write R) : Prop where
  touched : ∀ w ∈ t.writes, ∀ k ∈ E.touch w, H k
  point : Covered E body d H t ∨ (t.rest.Settled ∧ t.writes = [])

structure Inv [DecidableEq Seq] (E : Engine Stmt Ans Db Write Key Face) (body : R → Prog Stmt Ans Seq ε α) (d0 : Db)
    (s : St Stmt Ans Seq ε α Db Write Key R) : Prop where
  session : ∀ i t, s.slot i = .running t → SessionInv E body s.db (fun k => s.owner k = some i) t
  present : ∀ k i, s.owner k = some i → E.present (E.look s.db k) = true
  owned : ∀ k i, s.owner k = some i → ∃ t, s.slot i = .running t
  serial : s.db = s.log.foldl (replay E body) d0

theorem SessionInv.congr {d d' : Db} {H H' : Key → Prop} {t : Session Stmt Ans Seq ε α Write R}
    (h : SessionInv E body d H t) (hH : ∀ k, H k → H' k) (hd : ∀ k, H k → E.look d k = E.look d' k) :
    SessionInv E body d' H' t := by
  refine ⟨fun w hw k hk => hH k (h.touched w hw k hk), ?_⟩
  rcases h.point with ⟨hr, L, w, hL, hdisc, hw⟩ | hs
  · exact Or.inl ⟨hr.congr hH hd, L, w, fun k hk => hH k (hL k hk), hdisc, hw⟩
  · exact Or.inr hs

theorem inv_init [DecidableEq Seq] (d0 : Db) (q : Seq → ℤ) : Inv E body d0 (init d0 q) := by
  constructor <;> simp [init]

/-- a statement that timed out is answered with the timeout: the program gives up, and wrote nothing -/
theorem timedOut_session {i : ℕ} {t : Session Stmt Ans Seq ε α Write R} {c : Stmt} {k : Ans c → Prog Stmt Ans Seq ε α}
    (h : SessionInv E body s.db (fun x => s.owner x = some i) t) (hr : t.rest = .send c k)
    (hb : blocked E s i c = true) : (k (E.timeout c)).Settled ∧ t.writes = [] := by
  rcases h.point with ⟨_, L, w, hL, hdisc, hw⟩ | ⟨hset, _⟩
  · rw [hr] at hdisc
    obtain ⟨hreads, hlock, -⟩ := hdisc
    obtain ⟨x, hx, hxo⟩ := List.any_eq_true.1 hb
    simp only [ne_eq, decide_eq_true_eq] at hxo
    have hxL : x ∉ L := fun hm => hxo.2 (hL x hm)
    have hc : E.lockKey c = some x := (hreads x hx).resolve_left hxL
    obtain ⟨hwf, hs, -⟩ := hlock x hc hxL
    exact ⟨hs, hw hwf⟩
  · rw [hr] at hset; exact absurd hset id

/-- a statement that finds its row missing: the program gives up, and wrote nothing -/
theorem missing_settled {i : ℕ} {t : Session Stmt Ans Seq ε α Write R} {c : Stmt} {k : Ans c → Prog Stmt Ans Seq ε α}
    {x : Key} (h : SessionInv E body s.db (fun y => s.owner y = some i) t) (hr : t.rest = .send c k)
    (hc : E.lockKey c = some x) (hx : s.owner x ≠ some i) (hp : E.present (E.look s.db x) = false) :
    (k (E.exec c (E.view s.db t.writes)).1).Settled ∧ t.writes = [] ∧ (E.exec c (E.view s.db t.writes)).2 = [] := by
  rcases h.point with ⟨_, L, w, hL, hdisc, hw⟩ | ⟨hset, _⟩
  · rw [hr] at hdisc
    obtain ⟨hwf, -, habs⟩ := hdisc.2.1 x hc fun hm => hx (hL x hm)
    obtain ⟨h1, h2⟩ := habs s.db hp
    rw [hw hwf, Engine.view_nil]
    exact ⟨h1, rfl, h2⟩
  · rw [hr] at hset; exact absurd hset id

theorem release_iff {i j : ℕ} {k : Key} : release s i k = some j ↔ s.owner k = some j ∧ j ≠ i := by
  unfold release
  split_ifs with h
  · constructor
    · intro hn; cases hn
    · rintro ⟨h1, h2⟩; rw [h] at h1; exact absurd (Option.some.inj h1).symm h2
  · constructor
    · intro hj; exact ⟨hj, fun e => h (by rw [hj, e])⟩
    · exact And.left

theorem slot_update {i j : ℕ} {x y : Slot Stmt Ans Seq ε α Write R} (h : Function.update s.slot i x j = y) :
    (j = i ∧ x = y) ∨ (j ≠ i ∧ s.slot j = y) := by
  by_cases hj : j = i
  · subst hj; rw [Function.update_self] at h; exact Or.inl ⟨rfl, h⟩
  · rw [Function.update_of_ne hj] at h; exact Or.inr ⟨hj, h⟩

/-- a commit of another transaction changes nothing at the rows held -/
theorem commit_look [DecidableEq Seq] {d0 : Db} (h : Inv E body d0 s) {i j : ℕ} {t : Session Stmt Ans Seq ε α Write R}
    (hs : s.slot i = .running t) (hij : j ≠ i) {k : Key} (hk : s.owner k = some j) :
    E.look s.db k = E.look (E.view s.db t.writes) k := by
  refine (E.look_view_frame s.db t.writes k (h.present k j hk) fun w hw hkw => ?_).symm
  have := (h.session i t hs).touched w hw k hkw
  rw [hk] at this
  exact hij (Option.some.inj this)

/-- a transaction holds the lock of every existing row that its writes change -/
theorem changed_owner [DecidableEq Seq] {d0 : Db} (h : Inv E body d0 s) {i : ℕ}
    {t : Session Stmt Ans Seq ε α Write R} (hs : s.slot i = .running t) {k : Key}
    (hp : E.present (E.look s.db k) = true) (hne : E.look (E.view s.db t.writes) k ≠ E.look s.db k) :
    s.owner k = some i := by
  by_contra hno
  exact hne (E.look_view_frame s.db t.writes k hp fun w hw hk => hno ((h.session i t hs).touched w hw k hk))

/-- a committing transaction does what its replay on the committed store does, or commits no write -/
theorem commit_replay [DecidableEq Seq] {d0 : Db} (h : Inv E body d0 s) {i : ℕ}
    {t : Session Stmt Ans Seq ε α Write R} {a : α} (hs : s.slot i = .running t) (hr : t.rest = .done a) :
    (∀ more, (body t.req).run E tape (t.ids ++ more) s.db = (.ok a, more, E.view s.db t.writes)) ∨ t.writes = [] := by
  rcases (h.session i t hs).point with ⟨hran, -⟩ | ⟨_, hnil⟩
  · rw [hr] at hran; exact Or.inl hran.run_done
  · exact Or.inr hnil

/-- the store after a commit is the replay of the log after it -/
theorem commit_serial [DecidableEq Seq] {d0 : Db} (h : Inv E body d0 s) {i : ℕ}
    {t : Session Stmt Ans Seq ε α Write R} {a : α} (hs : s.slot i = .running t) (hr : t.rest = .done a) :
    E.view s.db t.writes =
      (if t.writes.isEmpty then s.log else s.log ++ [(t.req, t.ids)]).foldl (replay E body) d0 := by
  by_cases he : t.writes = []
  · simp only [he, List.isEmpty_nil, if_true, Engine.view_nil]
    exact h.serial
  · have hrun := (commit_replay h hs hr).resolve_right he []
    rw [List.append_nil] at hrun
    rw [if_neg (by simpa using he), List.foldl_append, ← h.serial]
    simp only [List.foldl_cons, List.foldl_nil, replay, Prog.transaction, hrun]

section Locks

variable [DecidableEq Key]

/-- a row granted to `i` was free or already its own, so nobody else loses a lock -/
theorem grant_other {i j : ℕ} {c : Stmt} (hb : blocked E s i c = false) (hij : j ≠ i) (k : Key) :
    grant E s i c k = some j ↔ s.owner k = some j := by
  unfold grant
  cases hc : E.lockKey c with
  | none => rfl
  | some x =>
    simp only
    split_ifs with hp
    · by_cases hk : k = x
      · subst hk
        have hf := List.any_eq_false.1 hb k (E.lock_reads c k hc)
        simp only [Function.update_self, Option.some.injEq, decide_eq_true_eq, not_and, not_not] at hf ⊢
        constructor
        · intro h; exact absurd h.symm hij
        · intro h
          have := hf (by rw [h]; simp)
          rw [h] at this
          exact absurd (Option.some.inj this) hij
      · rw [Function.update_of_ne hk]
    · rfl

theorem grant_mono {i : ℕ} {c : Stmt} {k : Key} (h : s.owner k = some i) : grant E s i c k = some i := by
  unfold grant
  cases E.lockKey c with
  | none => exact h
  | some x =>
    simp only
    split_ifs
    · by_cases hk : k = x
      · rw [hk, Function.update_self]
      · rwa [Function.update_of_ne hk]
    · exact h

theorem grant_lock {i : ℕ} {c : Stmt} {x : Key} (hc : E.lockKey c = some x)
    (hp : E.present (E.look s.db x) = true) : grant E s i c x = some i := by
  simp [grant, hc, hp]

/-- a new owner of a row after a grant: the row exists and the owner is the granted transaction -/
theorem grant_cases {i j : ℕ} {c : Stmt} {k : Key} (h : grant E s i c k = some j) :
    s.owner k = some j ∨ (j = i ∧ E.lockKey c = some k ∧ E.present (E.look s.db k) = true) := by
  unfold grant at h
  cases hc : E.lockKey c with
  | none => rw [hc] at h; exact Or.inl h
  | some x =>
    rw [hc] at h
    simp only at h
    split_ifs at h with hp
    · by_cases hk : k = x
      · subst hk
        rw [Function.update_self] at h
        exact Or.inr ⟨(Option.some.inj h).symm, rfl, hp⟩
      · rw [Function.update_of_ne hk] at h
        exact Or.inl h
    · exact Or.inl h

/-- the sending transaction keeps its invariant: its statement reads only rows it now holds, or it has given up -/
theorem sent_session {i : ℕ} {t : Session Stmt Ans Seq ε α Write R} {c : Stmt} {k : Ans c → Prog Stmt Ans Seq ε α}
    (h : SessionInv E body s.db (fun x => s.owner x = some i) t) (hr : t.rest = .send c k) :
    SessionInv E body s.db (fun x => grant E s i c x = some i)
      { t with rest := k (E.exec c (E.view s.db t.writes)).1,
               writes := t.writes ++ (E.exec c (E.view s.db t.writes)).2 } := by
  by_cases hkey : ∀ x, E.lockKey c = some x → grant E s i c x = some i
  · obtain ⟨touched, ⟨hran, L, w, hL, hdisc, hw⟩ | ⟨hset, _⟩⟩ := h
    · rw [hr] at hran hdisc
      obtain ⟨hreads, -, hnext⟩ := hdisc
      have hmono : ∀ x, s.owner x = some i → grant E s i c x = some i := fun x hx => grant_mono hx
      have hheld : ∀ x ∈ E.reads c, grant E s i c x = some i := fun x hx =>
        (hreads x hx).elim (fun hm => hmono x (hL x hm)) (hkey x)
      refine ⟨fun v hv x hx => ?_, Or.inl ⟨.sent (hran.congr hmono fun _ _ => rfl) hheld, _, _, ?_, hnext _, ?_⟩⟩
      · rcases List.mem_append.1 hv with hv | hv
        · exact hmono x (touched v hv x hx)
        · exact hheld x (E.exec_touch c _ v hv x hx)
      · intro x hx
        rcases List.mem_append.1 hx with hx | hx
        · exact hkey x (by simpa using hx)
        · exact hmono x (hL x hx)
      · intro hf
        obtain ⟨hf1, hf2⟩ := Bool.or_eq_false_iff.1 hf
        rw [hw hf1, E.exec_readOnly c _ (by simpa using hf2)]
        rfl
    · rw [hr] at hset; exact absurd hset id
  · -- the lock was not granted although nobody else has it: the row is missing
    push Not at hkey
    obtain ⟨y, hc, hy⟩ := hkey
    have hp : E.present (E.look s.db y) = false := by
      by_contra hp
      exact hy (grant_lock hc (by simpa using hp))
    obtain ⟨hset, hnil, hno⟩ := missing_settled h hr hc (fun hx => hy (grant_mono hx)) hp
    have hws : t.writes ++ (E.exec c (E.view s.db t.writes)).2 = [] := by rw [hno, hnil]; rfl
    exact ⟨by simp [hws], Or.inr ⟨hset, hws⟩⟩

end Locks

section Runs

variable [DecidableEq Seq] [DecidableEq Key]

theorem step_inv {d0 : Db} (s : St Stmt Ans Seq ε α Db Write Key R) (o : Op R)
    (hbody : ∀ r, (body r).Disciplined E [] false) (h : Inv E body d0 s) : Inv E body d0 (step E body s o) := by
  have hm := step_move E body s o
  generalize step E body s o = s' at hm ⊢
  -- a slot that goes on running keeps the owners' slots running
  have keep : ∀ (i : ℕ) (t : Session Stmt Ans Seq ε α Write R) (k : Key) (j : ℕ), s.owner k = some j →
      ∃ u, Function.update s.slot i (.running t) j = .running u := by
    intro i t k j hk
    by_cases hj : j = i
    · exact ⟨t, by rw [hj, Function.update_self]⟩
    · obtain ⟨u, hu⟩ := h.owned k j hk
      exact ⟨u, by rw [Function.update_of_ne hj]; exact hu⟩
  cases hm with
  | idle => exact h
  | @begin i r hs =>
    refine ⟨fun j t ht => ?_, h.present, fun k j hk => keep i _ k j hk, h.serial⟩
    rcases slot_update ht with ⟨rfl, hx⟩ | ⟨_, ht⟩
    · cases hx
      exact ⟨by simp, Or.inl ⟨.start, [], false, by simp, hbody r, fun _ => rfl⟩⟩
    · exact h.session j t ht
  | @sent i t c k hs hr hb =>
    refine ⟨fun j u hu => ?_, fun x j hx => ?_, fun x j hx => ?_, h.serial⟩
    · rcases slot_update hu with ⟨rfl, hx⟩ | ⟨hj, hu⟩
      · cases hx
        exact sent_session (h.session j t hs) hr
      · exact (h.session j u hu).congr (fun x hx => (grant_other hb hj x).2 hx) fun _ _ => rfl
    · rcases grant_cases hx with hx | ⟨_, _, hp⟩
      · exact h.present x j hx
      · exact hp
    · rcases grant_cases hx with hx | ⟨rfl, _, _⟩
      · exact keep i _ x j hx
      · exact ⟨_, Function.update_self _ _ _⟩
  | @drew i t q k hs hr =>
    refine ⟨fun j u hu => ?_, h.present, fun x j hx => keep i _ x j hx, h.serial⟩
    rcases slot_update hu with ⟨rfl, hx⟩ | ⟨_, hu⟩
    · cases hx
      obtain ⟨touched, ⟨hran, L, w, hL, hdisc, hw⟩ | ⟨hset, _⟩⟩ := h.session j t hs
      · rw [hr] at hran hdisc
        exact ⟨touched, Or.inl ⟨.drew hran _, L, w, hL, hdisc _, hw⟩⟩
      · rw [hr] at hset; exact absurd hset id
    · exact h.session j u hu
  | @timedOut i t c k hs hr hb =>
    refine ⟨fun j u hu => ?_, h.present, fun x j hx => keep i _ x j hx, h.serial⟩
    rcases slot_update hu with ⟨rfl, hx⟩ | ⟨_, hu⟩
    · cases hx
      obtain ⟨hset, hnil⟩ := timedOut_session (h.session j t hs) hr hb
      exact ⟨(h.session j t hs).touched, Or.inr ⟨hset, hnil⟩⟩
    · exact h.session j u hu
  | @committed i t a hs hr =>
    refine ⟨fun j u hu => ?_, fun x j hx => ?_, fun x j hx => ?_, ?_⟩
    · rcases slot_update hu with ⟨_, hx⟩ | ⟨hj, hu⟩
      · cases hx
      · exact (h.session j u hu).congr (fun x hx => release_iff.2 ⟨hx, hj⟩) fun x hx => commit_look h hs hj hx
    · obtain ⟨hx, hj⟩ := release_iff.1 hx
      rw [← commit_look h hs hj hx]
      exact h.present x j hx
    · obtain ⟨hx, hj⟩ := release_iff.1 hx
      obtain ⟨u, hu⟩ := h.owned x j hx
      exact ⟨u, (Function.update_of_ne hj _ _).trans hu⟩
    · exact commit_serial h hs hr
  | @rolledBack i t e hs hr =>
    refine ⟨fun j u hu => ?_, fun x j hx => ?_, fun x j hx => ?_, h.serial⟩
    · rcases slot_update hu with ⟨_, hx⟩ | ⟨hj, hu⟩
      · cases hx
      · exact (h.session j u hu).congr (fun x hx => release_iff.2 ⟨hx, hj⟩) fun _ _ => rfl
    · exact h.present x j (release_iff.1 hx).1
    · obtain ⟨hx, hj⟩ := release_iff.1 hx
      obtain ⟨u, hu⟩ := h.owned x j hx
      exact ⟨u, (Function.update_of_ne hj _ _).trans hu⟩

theorem run_inv {d0 : Db} {q0 : Seq → ℤ} (hbody : ∀ r, (body r).Disciplined E [] false) (ops : List (Op R)) :
    Inv E body d0 (run E body (init d0 q0) ops) :=
  run_induction _ (inv_init d0 q0) (fun s o h => step_inv s o hbody h) ops

/-- **Serializability.** The committed store of every run is the replay of its log. -/
theorem serializable {d0 : Db} {q0 : Seq → ℤ} (hbody : ∀ r, (body r).Disciplined E [] false) (ops : List (Op R)) :
    (run E body (init d0 q0) ops).db = (run E body (init d0 q0) ops).log.foldl (replay E body) d0 :=
  (run_inv hbody ops).serial

end Runs

end BankServices.RowLock
