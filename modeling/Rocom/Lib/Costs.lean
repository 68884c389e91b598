import Rocom.Lib.Runs

/-! What a run costs. Each step is charged in the state it is taken from, and a potential of the
states pays for what a step costs beyond its own credit. -/
namespace Runs

variable {S A : Type*}

def total (step : S → A → S) (cost : S → A → Nat) : S → List A → Nat
  | _, [] => 0
  | s, a :: as => cost s a + total step cost (step s a) as

/-- How many steps pass a test. -/
def count (step : S → A → S) (test : S → A → Bool) : S → List A → Nat :=
  total step fun s a => (test s a).toNat

variable {step : S → A → S} {cost credit : S → A → Nat} {test : S → A → Bool}

theorem total_add (s : S) (as : List A) :
    total step (fun s a => cost s a + credit s a) s as =
      total step cost s as + total step credit s as := by
  induction as generalizing s with
  | nil => rfl
  | cons a as ih =>
    simp only [total, ih]
    omega

theorem total_mul (n : Nat) (s : S) (as : List A) :
    total step (fun s a => n * cost s a) s as = n * total step cost s as := by
  induction as generalizing s with
  | nil => rfl
  | cons a as ih => simp only [total, ih, Nat.mul_add]

/-- The steps cost no more than their credit and the potential that is used up. -/
theorem total_le_of_potential {I : S → Prop} (pot : S → Nat) (keeps : ∀ s a, I s → I (step s a))
    (pays : ∀ s a, I s → cost s a + pot (step s a) ≤ pot s + credit s a)
    (s : S) (hs : I s) (as : List A) :
    total step cost s as + pot (as.foldl step s) ≤ pot s + total step credit s as := by
  induction as generalizing s with
  | nil => exact Nat.le_of_eq (Nat.zero_add _)
  | cons a as ih =>
    have now := pays s a hs
    have later := ih (step s a) (keeps s a hs)
    rw [List.foldl_cons, total, total]
    omega

/-- A number that each step of a guarded run moves by its cost. -/
theorem gain_eq_total (ok : S → A → Prop) (gain : S → Int)
    (gains : ∀ s a, ok s a → gain (step s a) = gain s + cost s a)
    (s : S) (as : List A) (h : Along step ok s as) :
    gain (as.foldl step s) = gain s + total step cost s as := by
  induction as generalizing s with
  | nil => exact (Int.add_zero _).symm
  | cons a as ih =>
    rw [List.foldl_cons, ih (step s a) h.2, gains s a h.1, total]
    omega

/-- A run that ends in a property which no step can restore, and none of whose steps passes the
test. -/
theorem along_of_end {P : S → Prop} (back : ∀ s a, P (step s a) → P s) (s : S) (as : List A)
    (h : P (as.foldl step s)) (none_passes : count step test s as = 0) :
    P s ∧ Along step (fun s a => test s a = false ∧ P (step s a)) s as := by
  induction as generalizing s with
  | nil => exact ⟨h, trivial⟩
  | cons a as ih =>
    rw [count, total] at none_passes
    obtain ⟨later, rest⟩ := ih (step s a) h (Nat.eq_zero_of_add_eq_zero_left none_passes)
    have failed : test s a = false := by
      rw [← Bool.toNat_eq_zero]
      exact Nat.eq_zero_of_add_eq_zero_right none_passes
    exact ⟨back s a later, ⟨failed, later⟩, rest⟩

end Runs
