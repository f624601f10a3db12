/-
Counting the steps of a run that do something, by what is left to do.

- `counted_le`: where a step that counts takes one from what is left, and no step adds to it, a run has at most as many
  steps that count as were left at its begin.
-/
import Mathlib.Tactic

namespace BankServices.Potential

variable {σ ο : Type*} {step : σ → ο → σ} {counts : σ → ο → Bool}

/-- the steps of a run that count in the state that they meet -/
def counted (step : σ → ο → σ) (counts : σ → ο → Bool) : σ → List ο → ℕ
  | _, [] => 0
  | s, o :: ops => (if counts s o = true then 1 else 0) + counted step counts (step s o) ops

/-- the step takes one from what is left if it counts, and adds nothing -/
def Spends (step : σ → ο → σ) (counts : σ → ο → Bool) (Left : σ → ℕ → Prop) (o : ο) : Prop :=
  ∀ s n, Left s n → ∃ m, Left (step s o) m ∧ m + (if counts s o = true then 1 else 0) ≤ n

theorem counted_le {Left : σ → ℕ → Prop} {ops : List ο} (h : ∀ o ∈ ops, Spends step counts Left o) {s : σ} {n : ℕ}
    (hs : Left s n) : counted step counts s ops ≤ n := by
  induction ops generalizing s n with
  | nil => exact Nat.zero_le n
  | cons o ops ih =>
    obtain ⟨m, hm, hle⟩ := h o List.mem_cons_self s n hs
    have hrest := ih (fun o' ho' => h o' (List.mem_cons_of_mem o ho')) hm
    unfold counted
    omega

end BankServices.Potential
