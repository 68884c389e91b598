import Mathlib.Data.List.Count
import Rocom.Lib.CString

/-! Consecutive NUL-terminated strings in a list of bytes, counted from 0. -/
namespace CString

/-- Field `k` with its NUL, if it is terminated. -/
def field : Nat → List UInt8 → Option (List UInt8)
  | 0, bs => if 0 ∈ bs then some (text bs ++ [0]) else none
  | k + 1, bs => if 0 ∈ bs then field k (bs.drop ((text bs).length + 1)) else none

/-- Behind `k` whole fields come these characters and their NUL. -/
structure IsField (k : Nat) (bs f : List UInt8) : Prop where
  split : ∃ before chars rest, bs = before ++ chars ++ 0 :: rest ∧ f = chars ++ [0] ∧
    0 ∉ chars ∧ before.count 0 = k ∧ (before = [] ∨ before.getLast? = some 0)

theorem field_zero_append {chars : List UInt8} (noNul : 0 ∉ chars) (rest : List UInt8) :
    field 0 (chars ++ 0 :: rest) = some (chars ++ [0]) := by
  rw [field, if_pos (by simp), text_append_nul, text_of_notMem noNul]

theorem field_succ_append {chars : List UInt8} (noNul : 0 ∉ chars) (k : Nat) (rest : List UInt8) :
    field (k + 1) (chars ++ 0 :: rest) = field k rest := by
  have behind : (chars ++ 0 :: rest).drop (chars.length + 1) = rest := by
    rw [← List.drop_drop, List.drop_left]
    rfl
  rw [field, if_pos (by simp), text_append_nul, text_of_notMem noNul, behind]

theorem field_of_notMem {bs : List UInt8} (unterminated : 0 ∉ bs) (k : Nat) :
    field k bs = none := by
  cases k with
  | zero => exact if_neg unterminated
  | succ k => exact if_neg unterminated

theorem first_field (bs : List UInt8) :
    0 ∉ bs ∨ ∃ chars rest, bs = chars ++ 0 :: rest ∧ 0 ∉ chars := by
  by_cases terminated : 0 ∈ bs
  · exact .inr (List.eq_append_cons_of_mem terminated)
  · exact .inl terminated

theorem append_nul_inj {chars chars' rest rest' : List UInt8} (noNul : 0 ∉ chars)
    (noNul' : 0 ∉ chars') (same : chars ++ 0 :: rest = chars' ++ 0 :: rest') :
    chars = chars' ∧ rest = rest' := by
  have texts := congrArg text same
  rw [text_append_nul, text_append_nul, text_of_notMem noNul, text_of_notMem noNul'] at texts
  subst texts
  exact ⟨rfl, (List.cons.inj (List.append_cancel_left same)).2⟩

/-- A check of the first field that only the wanted text passes. -/
theorem first_field_passes_iff {refuses : List UInt8 → Bool} {wanted : List UInt8}
    (noNul : 0 ∉ wanted)
    (check : ∀ chars, 0 ∉ chars → (refuses (chars ++ [0]) = false ↔ chars = wanted))
    (bs : List UInt8) :
    (field 0 bs).all refuses = false ↔ ∃ rest, bs = wanted ++ 0 :: rest := by
  rcases first_field bs with unterminated | ⟨chars, rest, rfl, noNul'⟩
  · rw [field_of_notMem unterminated]
    refine iff_of_false (by simp) ?_
    rintro ⟨rest, rfl⟩
    exact unterminated (by simp)
  · rw [field_zero_append noNul', Option.all_some, check chars noNul']
    constructor
    · rintro rfl
      exact ⟨rest, rfl⟩
    · rintro ⟨rest', same⟩
      exact (append_nul_inj noNul' noNul same).1

theorem count_field {chars : List UInt8} (noNul : 0 ∉ chars) (rest : List UInt8) :
    (chars ++ 0 :: rest).count 0 = rest.count 0 + 1 := by
  rw [List.count_append, List.count_eq_zero_of_not_mem noNul, List.count_cons_self, Nat.zero_add]

theorem field_eq_none_iff (k : Nat) (bs : List UInt8) : field k bs = none ↔ bs.count 0 < k + 1 := by
  induction k generalizing bs with
  | zero =>
    rcases first_field bs with unterminated | ⟨chars, rest, rfl, noNul⟩
    · rw [field_of_notMem unterminated, List.count_eq_zero_of_not_mem unterminated]
      simp
    · rw [field_zero_append noNul, count_field noNul]
      simp
  | succ k ih =>
    rcases first_field bs with unterminated | ⟨chars, rest, rfl, noNul⟩
    · rw [field_of_notMem unterminated, List.count_eq_zero_of_not_mem unterminated]
      simp
    · rw [field_succ_append noNul, count_field noNul, ih]
      omega

theorem isField_of_field {k : Nat} {bs f : List UInt8} (h : field k bs = some f) :
    IsField k bs f := by
  induction k generalizing bs with
  | zero =>
    rcases first_field bs with unterminated | ⟨chars, rest, rfl, noNul⟩
    · rw [field_of_notMem unterminated] at h
      cases h
    · rw [field_zero_append noNul] at h
      exact ⟨[], chars, rest, rfl, (Option.some.inj h).symm, noNul, rfl, .inl rfl⟩
  | succ k ih =>
    rcases first_field bs with unterminated | ⟨first, bs, rfl, noNul⟩
    · rw [field_of_notMem unterminated] at h
      cases h
    · rw [field_succ_append noNul] at h
      obtain ⟨before, chars, rest, rfl, same, inner, count, ends⟩ := ih h
      refine ⟨first ++ 0 :: before, chars, rest, by simp, same, inner, ?_, .inr ?_⟩
      · rw [count_field noNul, count]
      · rcases ends with rfl | ends
        · simp
        · simp [List.getLast?_cons, ends]

end CString
