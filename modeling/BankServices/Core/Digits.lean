/-
Decimal digits, highest first: of a number at a fixed width, of a text, and the number that digits stand for.

- `ofDigits_fixed`: the digits of a number at a width that it fits stand for it.
- `takeDigits_append`: reading digits from a text takes exactly the digits that were written, when none follows them.
- `scaled_take_strip`: digits of a fraction, without their trailing zeros and cut after some place, stand for the
  fraction cut after that place.
- `length_strip_fixed_iff`: only the digits of a number that ends in zero get fewer without their trailing zeros.
-/
import Mathlib.Data.List.DropRight
import Mathlib.Tactic

namespace BankServices.Digits

/-! ## Digits of numbers -/

/-- the lowest `w` digits of `n` -/
def fixed : ℕ → ℕ → List ℕ
  | 0, _ => []
  | w + 1, n => fixed w (n / 10) ++ [n % 10]

/-- the number of digits of `n`; zero has one -/
def count (n : ℕ) : ℕ := Nat.log 10 n + 1

def ofDigits (l : List ℕ) : ℕ := l.foldl (fun v d => 10 * v + d) 0

/-- the digits without trailing zeros -/
def strip (l : List ℕ) : List ℕ := l.rdropWhile (· = 0)

/-- what digits after the decimal point stand for, in units of the place `w` -/
def scaled (w : ℕ) (l : List ℕ) : ℕ := ofDigits l * 10 ^ (w - l.length)

@[simp] theorem length_fixed (w n : ℕ) : (fixed w n).length = w := by
  induction w generalizing n with
  | zero => rfl
  | succ w ih => simp [fixed, ih]

theorem lt_ten_of_mem_fixed {w n d : ℕ} (h : d ∈ fixed w n) : d < 10 := by
  induction w generalizing n with
  | zero => simp [fixed] at h
  | succ w ih =>
    simp only [fixed, List.mem_append, List.mem_singleton] at h
    rcases h with h | rfl
    · exact ih h
    · exact Nat.mod_lt _ (by omega)

theorem fixed_add (a b n : ℕ) : fixed (a + b) n = fixed a (n / 10 ^ b) ++ fixed b n := by
  induction b generalizing n with
  | zero => simp [fixed]
  | succ b ih =>
    rw [← Nat.add_assoc]
    simp only [fixed, ih, Nat.div_div_eq_div_mul, pow_succ', List.append_assoc]

theorem take_fixed (a b n : ℕ) : (fixed (a + b) n).take a = fixed a (n / 10 ^ b) := by
  rw [fixed_add, List.take_left' (length_fixed _ _)]

theorem lt_pow_count (n : ℕ) : n < 10 ^ count n := Nat.lt_pow_succ_log_self (by omega) n

theorem count_le {n w : ℕ} (hw : 0 < w) (h : n < 10 ^ w) : count n ≤ w := Nat.log_lt_of_lt_pow' (by omega) h

theorem lt_count {n w : ℕ} (h : 10 ^ w ≤ n) : w < count n := by
  by_contra hle
  have hpow : 10 ^ count n ≤ 10 ^ w := Nat.pow_le_pow_right (by omega) (not_lt.1 hle)
  have hn := lt_pow_count n
  omega

@[simp] theorem ofDigits_nil : ofDigits [] = 0 := rfl

theorem ofDigits_snoc (l : List ℕ) (d : ℕ) : ofDigits (l ++ [d]) = 10 * ofDigits l + d := by
  simp [ofDigits, List.foldl_append]

theorem ofDigits_fixed {w n : ℕ} (h : n < 10 ^ w) : ofDigits (fixed w n) = n := by
  induction w generalizing n with
  | zero => simp_all [fixed]
  | succ w ih =>
    have hdiv : n / 10 < 10 ^ w := by
      rw [pow_succ] at h
      omega
    rw [fixed, ofDigits_snoc, ih hdiv]
    omega

theorem ofDigits_append_zeros (l : List ℕ) (k : ℕ) : ofDigits (l ++ List.replicate k 0) = ofDigits l * 10 ^ k := by
  induction k with
  | zero => simp
  | succ k ih =>
    rw [List.replicate_succ', ← List.append_assoc, ofDigits_snoc, ih, pow_succ]
    ring

/-! ## Fractions -/

theorem strip_append_zeros (l : List ℕ) : ∃ k, l = strip l ++ List.replicate k 0 := by
  induction l using List.reverseRecOn with
  | nil => exact ⟨0, by simp [strip]⟩
  | append_singleton l d ih =>
    by_cases hd : d = 0
    · obtain ⟨k, hk⟩ := ih
      refine ⟨k + 1, ?_⟩
      have hstrip : strip (l ++ [d]) = strip l := List.rdropWhile_concat_pos _ _ _ (by simpa using hd)
      rw [hstrip, List.replicate_succ', ← List.append_assoc, ← hk, hd]
    · refine ⟨0, ?_⟩
      have hstrip : strip (l ++ [d]) = l ++ [d] := List.rdropWhile_concat_neg _ _ _ (by simpa using hd)
      rw [hstrip]
      simp

theorem scaled_append_zeros {w : ℕ} {l : List ℕ} {k : ℕ} (h : (l ++ List.replicate k 0).length ≤ w) :
    scaled w (l ++ List.replicate k 0) = scaled w l := by
  simp only [List.length_append, List.length_replicate] at h
  unfold scaled
  rw [ofDigits_append_zeros, List.length_append, List.length_replicate, mul_assoc, ← pow_add]
  congr 2
  omega

/-- trailing zeros do not matter, also when the digits are cut after `m` places -/
theorem scaled_take_strip {w : ℕ} (m : ℕ) {l : List ℕ} (h : l.length ≤ w) :
    scaled w ((strip l).take m) = scaled w (l.take m) := by
  obtain ⟨k, hk⟩ := strip_append_zeros l
  have htake : l.take m = (strip l).take m ++ List.replicate (min (m - (strip l).length) k) 0 := by
    conv_lhs => rw [hk]
    rw [List.take_append, List.take_replicate]
  have hlen : (l.take m).length ≤ w := by
    rw [List.length_take]
    omega
  rw [htake] at hlen ⊢
  exact (scaled_append_zeros hlen).symm

theorem scaled_take_fixed {a b n : ℕ} (h : n < 10 ^ (a + b)) :
    scaled (a + b) ((fixed (a + b) n).take a) = n / 10 ^ b * 10 ^ b := by
  have hdiv : n / 10 ^ b < 10 ^ a := by
    rw [Nat.div_lt_iff_lt_mul (by positivity), ← pow_add]
    exact h
  rw [take_fixed]
  unfold scaled
  rw [ofDigits_fixed hdiv, length_fixed, Nat.add_sub_cancel_left]

theorem strip_append (l r : List ℕ) : strip (l ++ r) = if strip r = [] then strip l else l ++ strip r := by
  induction r using List.reverseRecOn with
  | nil => simp [strip]
  | append_singleton r d ih =>
    by_cases hd : d = 0
    · have hdrop : ∀ m : List ℕ, strip (m ++ [d]) = strip m := fun m => List.rdropWhile_concat_pos _ _ _ (by simpa using hd)
      rw [← List.append_assoc, hdrop, hdrop, ih]
    · have hkeep : ∀ m : List ℕ, strip (m ++ [d]) = m ++ [d] := fun m =>
        List.rdropWhile_concat_neg _ _ _ (by simpa using hd)
      rw [← List.append_assoc, hkeep, hkeep]
      simp

theorem strip_fixed_eq_nil_iff {w n : ℕ} : strip (fixed w n) = [] ↔ n % 10 ^ w = 0 := by
  induction w generalizing n with
  | zero => simp [fixed, strip, Nat.mod_one]
  | succ w ih =>
    have hmod : n % 10 ^ (w + 1) = n % 10 + 10 * (n / 10 % 10 ^ w) := by rw [pow_succ', Nat.mod_mul]
    rw [fixed, strip_append, hmod, Nat.add_eq_zero_iff, Nat.mul_eq_zero]
    by_cases hd : n % 10 = 0
    · have hzero : strip [n % 10] = [] := by simp [strip, hd]
      rw [if_pos hzero, ih, hd]
      simp
    · have hkeep : strip [n % 10] = [n % 10] := by simp [strip, hd]
      rw [hkeep]
      simp [hd]

/-- the digits of a number that does not end in zero are kept -/
theorem length_strip_fixed_iff {w n : ℕ} : (strip (fixed (w + 1) n)).length = w + 1 ↔ n % 10 ≠ 0 := by
  rw [fixed, strip_append]
  by_cases hd : n % 10 = 0
  · have hzero : strip [n % 10] = [] := by simp [strip, hd]
    have hle : (strip (fixed w (n / 10))).length ≤ w := by
      calc (strip (fixed w (n / 10))).length
          _ ≤ (fixed w (n / 10)).length := (List.rdropWhile_prefix _ _).length_le
          _ = w := length_fixed _ _
    rw [if_pos hzero]
    constructor
    · intro h
      omega
    · intro h
      exact absurd hd h
  · have hkeep : strip [n % 10] = [n % 10] := by simp [strip, hd]
    rw [hkeep]
    simp [hd]

/-! ## Digits of texts -/

def digitText (l : List ℕ) : List Char := l.map Nat.digitChar

def convertToDigit (c : Char) : Option ℕ := if '0' ≤ c ∧ c ≤ '9' then some (c.toNat - 48) else none

/-- the digits at the head of a text, at most `n` of them, and the rest of the text -/
def takeDigits : ℕ → List Char → List ℕ × List Char
  | 0, text => ([], text)
  | _ + 1, [] => ([], [])
  | n + 1, c :: text =>
    match convertToDigit c with
    | some d => (d :: (takeDigits n text).1, (takeDigits n text).2)
    | none => ([], c :: text)

/-- no digit at the head of the text -/
def NoDigit (text : List Char) : Prop := ∀ c ∈ text.head?, convertToDigit c = none

theorem convertToDigit_digitChar {d : ℕ} (h : d < 10) : convertToDigit (Nat.digitChar d) = some d := by
  interval_cases d <;> decide

theorem takeDigits_append {n : ℕ} {l : List ℕ} {text : List Char} (hl : ∀ d ∈ l, d < 10) (hn : l.length ≤ n)
    (h : NoDigit text) : takeDigits n (digitText l ++ text) = (l, text) := by
  induction l generalizing n with
  | nil =>
    cases n with
    | zero => rfl
    | succ n =>
      cases text with
      | nil => rfl
      | cons c text => simp [digitText, takeDigits, h c rfl]
  | cons d l ih =>
    cases n with
    | zero => simp at hn
    | succ n =>
      have hd := convertToDigit_digitChar (hl d List.mem_cons_self)
      have hrest := ih (fun x hx => hl x (List.mem_cons_of_mem d hx)) (by simpa using hn)
      simp only [digitText, List.map_cons, List.cons_append, takeDigits, hd]
      rw [← digitText, hrest]

end BankServices.Digits
