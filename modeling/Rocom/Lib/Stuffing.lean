import Mathlib.Data.List.Basic

/-! Byte stuffing by doubling one symbol. A machine that treats a doubled symbol as one
occurrence of it, and every other symbol as itself, does not see the stuffing. -/
namespace Stuffing

variable {α S : Type*} [DecidableEq α]

def double (x : α) (data : List α) : List α :=
  data.flatMap fun c => if c = x then [x, x] else [c]

variable {x : α}

@[simp] theorem double_nil : double x [] = [] := rfl

theorem double_cons_self (data : List α) : double x (x :: data) = x :: x :: double x data := by
  simp [double]

theorem double_cons_of_ne {c : α} (h : c ≠ x) (data : List α) :
    double x (c :: data) = c :: double x data := by
  simp [double, h]

@[simp] theorem double_append (xs ys : List α) :
    double x (xs ++ ys) = double x xs ++ double x ys := List.flatMap_append

theorem double_of_not_mem {data : List α} (h : x ∉ data) : double x data = data := by
  induction data with
  | nil => rfl
  | cons c data ih =>
    have hc : c ≠ x := fun e => h (e ▸ List.mem_cons_self)
    rw [double_cons_of_ne hc, ih fun hd => h (List.mem_cons_of_mem c hd)]

/-- A doubled string starts another one only where the strings do. -/
theorem prefix_of_doubled {as bs : List α} (h : double x as <+: double x bs) :
    as <+: bs := by
  induction as generalizing bs with
  | nil => exact List.nil_prefix
  | cons a as ih =>
    cases bs with
    | nil =>
      by_cases ha : a = x
      · simp [double, ha] at h
      · simp [double, ha] at h
    | cons b bs =>
      by_cases ha : a = x
      · by_cases hb : b = x
        · subst ha hb
          simp only [double_cons_self, List.cons_prefix_cons, true_and] at h
          exact List.cons_prefix_cons.mpr ⟨rfl, ih h⟩
        · subst ha
          rw [double_cons_self, double_cons_of_ne hb, List.cons_prefix_cons] at h
          exact absurd h.1.symm hb
      · by_cases hb : b = x
        · subst hb
          rw [double_cons_self, double_cons_of_ne ha, List.cons_prefix_cons] at h
          exact absurd h.1 ha
        · rw [double_cons_of_ne ha, double_cons_of_ne hb, List.cons_prefix_cons] at h
          exact List.cons_prefix_cons.mpr ⟨h.1, ih h.2⟩

/-- A doubled string can be read back. -/
theorem double_injective (x : α) : Function.Injective (double x) := by
  intro as bs h
  have there : double x as <+: double x bs := h ▸ List.prefix_rfl
  have back : double x bs <+: double x as := h ▸ List.prefix_rfl
  exact (prefix_of_doubled there).eq_of_length_le (prefix_of_doubled back).length_le

/-- A cut through a doubled string: between two symbols, or inside of a doubled one. -/
theorem prefix_double {p data : List α} (h : p <+: double x data) :
    ∃ body, body <+: data ∧ (p = double x body ∨ p = double x body ++ [x]) := by
  induction data generalizing p with
  | nil =>
    obtain rfl := List.prefix_nil.mp h
    exact ⟨[], List.nil_prefix, .inl rfl⟩
  | cons c data ih =>
    cases p with
    | nil => exact ⟨[], List.nil_prefix, .inl rfl⟩
    | cons b p =>
      by_cases hc : c = x
      · subst hc
        rw [double_cons_self] at h
        obtain ⟨rfl, first⟩ := List.cons_prefix_cons.mp h
        cases p with
        | nil => exact ⟨[], List.nil_prefix, .inr rfl⟩
        | cons d p =>
          obtain ⟨rfl, second⟩ := List.cons_prefix_cons.mp first
          obtain ⟨body, within, cut⟩ := ih second
          refine ⟨d :: body, List.cons_prefix_cons.mpr ⟨rfl, within⟩, ?_⟩
          rw [double_cons_self]
          rcases cut with rfl | rfl
          · exact .inl rfl
          · exact .inr rfl
      · rw [double_cons_of_ne hc] at h
        obtain ⟨same, rest⟩ := List.cons_prefix_cons.mp h
        obtain ⟨body, within, cut⟩ := ih rest
        refine ⟨c :: body, List.cons_prefix_cons.mpr ⟨rfl, within⟩, ?_⟩
        rw [double_cons_of_ne hc, same]
        rcases cut with rfl | rfl
        · exact .inl rfl
        · exact .inr rfl

/-- `act` is what one unstuffed symbol does. -/
theorem foldl_double {step act : S → α → S} {I : S → Prop}
    (plain : ∀ s c, I s → c ≠ x → step s c = act s c)
    (escaped : ∀ s, I s → step (step s x) x = act s x)
    (keeps : ∀ s c, I s → I (act s c)) (s : S) (hs : I s) (data : List α) :
    (double x data).foldl step s = data.foldl act s := by
  induction data generalizing s with
  | nil => rfl
  | cons c data ih =>
    have hact := keeps s c hs
    by_cases h : c = x
    · subst h
      rw [double_cons_self, List.foldl_cons, List.foldl_cons, escaped s hs, ih _ hact,
        List.foldl_cons]
    · rw [double_cons_of_ne h, List.foldl_cons, plain s c hs h, ih _ hact, List.foldl_cons]

end Stuffing
