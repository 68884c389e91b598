import Mathlib.Data.List.Nodup
import Mathlib.Data.List.Perm.Basic
import Mathlib.Logic.Function.Basic

/-! A list of records as a finite map from keys to records. While no key occurs twice, each
edit of the list is a point update of the map. -/
namespace KeyedList

variable {α κ : Type*} (key : α → κ)

def Unique (l : List α) : Prop := (l.map key).Nodup

/-- Remove the record at `i` by moving the last one there. -/
def swapRemove (l : List α) (i : Fin l.length) : List α :=
  (l.set i (l.getLast (List.ne_nil_of_length_pos i.pos))).dropLast

section Edits
variable {key} {l m : List α}

theorem unique_perm (p : l.Perm m) : Unique key l ↔ Unique key m := (p.map key).nodup_iff

theorem mem_set_of_ne {a : α} (h : a ∈ l) {i : Fin l.length} (other : a ≠ l[i]) (b : α) :
    a ∈ l.set i b := by
  obtain ⟨k, hk, rfl⟩ := List.getElem_of_mem h
  have apart : i.val ≠ k := by
    rintro rfl
    exact other rfl
  rw [← List.getElem_set_ne apart (by simpa using hk)]
  exact List.getElem_mem _

theorem unique_set (h : Unique key l) {i : Fin l.length} {b : α} (same : key b = key l[i]) :
    Unique key (l.set i b) := by
  have whole := (unique_perm (List.getElem_cons_eraseIdx_perm i.isLt)).mpr h
  apply (unique_perm (List.set_perm_cons_eraseIdx i.isLt b)).mpr
  rw [Unique, List.map_cons, same]
  exact whole

theorem swapRemove_perm (l : List α) (i : Fin l.length) :
    (swapRemove l i).Perm (l.eraseIdx i) := by
  have ne : l ≠ [] := List.ne_nil_of_length_pos i.pos
  have kept : l.set i (l.getLast ne) ≠ [] := by simpa using ne
  have last : (l.set i (l.getLast ne)).getLast kept = l.getLast ne := by
    simp [List.getLast_eq_getElem, List.getElem_set]
  have moved := List.set_perm_cons_eraseIdx i.isLt (l.getLast ne)
  have back : (l.getLast ne :: swapRemove l i).Perm (l.set i (l.getLast ne)) := by
    conv_rhs => rw [← List.dropLast_append_getLast kept, last]
    exact (List.perm_append_singleton _ _).symm
  exact (List.perm_cons _).mp (back.trans moved)

theorem unique_swapRemove (h : Unique key l) (i : Fin l.length) : Unique key (swapRemove l i) := by
  have whole := (unique_perm (List.getElem_cons_eraseIdx_perm i.isLt)).mpr h
  exact (unique_perm (swapRemove_perm l i)).mpr (List.nodup_cons.mp whole).2

end Edits

variable [DecidableEq κ]

def lookup (l : List α) (k : κ) : Option α := l.find? (key · = k)

variable {key} {l m : List α}

theorem lookup_eq_none_iff {k : κ} : lookup key l k = none ↔ ∀ a ∈ l, key a ≠ k := by
  simp [lookup]

theorem key_of_lookup {k : κ} {a : α} (h : lookup key l k = some a) : key a = k := by
  simpa using List.find?_some h

theorem mem_of_lookup {k : κ} {a : α} (h : lookup key l k = some a) : a ∈ l :=
  List.mem_of_find?_eq_some h

theorem lookup_eq_some_iff (h : Unique key l) {k : κ} {a : α} :
    lookup key l k = some a ↔ a ∈ l ∧ key a = k := by
  constructor
  · intro found
    exact ⟨mem_of_lookup found, key_of_lookup found⟩
  · rintro ⟨ha, rfl⟩
    cases found : lookup key l (key a) with
    | none => exact absurd rfl (lookup_eq_none_iff.mp found a ha)
    | some b =>
      have hb := mem_of_lookup found
      rw [List.inj_on_of_nodup_map h hb ha (key_of_lookup found)]

/-- The records of one key, listed. -/
theorem filter_key (h : Unique key l) (k : κ) :
    l.filter (key · = k) = (lookup key l k).toList := by
  induction l with
  | nil => rfl
  | cons a l ih =>
    obtain ⟨fresh, rest⟩ := List.nodup_cons.mp h
    by_cases ha : key a = k
    · have none_left : l.filter (key · = k) = [] := by
        apply List.filter_eq_nil_iff.mpr
        intro b hb hk
        have same : key b = key a := (of_decide_eq_true hk).trans ha.symm
        exact fresh (same ▸ List.mem_map_of_mem hb)
      simp [lookup, ha, none_left]
    · simpa [lookup, ha] using ih rest

theorem lookup_perm (h : Unique key l) (p : l.Perm m) : lookup key l = lookup key m := by
  have hm : Unique key m := (p.map key).nodup_iff.mp h
  funext k
  apply Option.ext
  intro a
  rw [lookup_eq_some_iff h, lookup_eq_some_iff hm, p.mem_iff]

theorem lookup_cons (a : α) (l : List α) :
    lookup key (a :: l) = Function.update (lookup key l) (key a) (some a) := by
  funext k
  by_cases hk : key a = k
  · subst hk
    simp [lookup]
  · simp [lookup, hk, Function.update_of_ne (Ne.symm hk)]

theorem lookup_tail {a : α} (h : Unique key (a :: l)) :
    lookup key l = Function.update (lookup key (a :: l)) (key a) none := by
  have fresh : lookup key l (key a) = none := by
    apply lookup_eq_none_iff.mpr
    intro b hb same
    exact (List.nodup_cons.mp h).1 (same ▸ List.mem_map_of_mem hb)
  rw [lookup_cons, Function.update_idem, ← fresh, Function.update_eq_self]

theorem unique_concat (h : Unique key l) {a : α} (fresh : lookup key l (key a) = none) :
    Unique key (l ++ [a]) := by
  apply (unique_perm (List.perm_append_singleton a l)).mpr
  apply List.nodup_cons.mpr
  refine ⟨fun ha => ?_, h⟩
  obtain ⟨b, hb, same⟩ := List.mem_map.mp ha
  exact lookup_eq_none_iff.mp fresh b hb same

theorem lookup_concat (h : Unique key l) {a : α} (fresh : lookup key l (key a) = none) :
    lookup key (l ++ [a]) = Function.update (lookup key l) (key a) (some a) := by
  rw [lookup_perm (unique_concat h fresh) (List.perm_append_singleton a l), lookup_cons]

/-- Replacing a record by another one of its key. -/
theorem lookup_set (h : Unique key l) {i : Fin l.length} {b : α} (same : key b = key l[i]) :
    lookup key (l.set i b) = Function.update (lookup key l) (key b) (some b) := by
  have split := lookup_perm h (List.getElem_cons_eraseIdx_perm i.isLt).symm
  rw [lookup_perm (unique_set h same) (List.set_perm_cons_eraseIdx i.isLt b), lookup_cons, split,
    lookup_cons, same]
  exact (Function.update_idem _ _ _).symm

theorem lookup_swapRemove (h : Unique key l) (i : Fin l.length) :
    lookup key (swapRemove l i) = Function.update (lookup key l) (key l[i]) none := by
  have whole := List.getElem_cons_eraseIdx_perm i.isLt
  rw [lookup_perm (unique_swapRemove h i) (swapRemove_perm l i),
    lookup_tail ((unique_perm whole).mpr h), ← lookup_perm h whole.symm]
  rfl

/-! A loop over the list stops at the first record that passes its test. -/

/-- A test that tells the records of one key from the others finds what the key finds. -/
theorem findFinIdx_test {p : α → Bool} {k : κ} (test : ∀ a ∈ l, p a = true ↔ key a = k) :
    l.findFinIdx? p = l.findFinIdx? fun a => key a = k := by
  induction l with
  | nil => rfl
  | cons a l ih =>
    have here : p a = decide (key a = k) := by
      rw [Bool.eq_iff_iff, decide_eq_true_iff]
      exact test a List.mem_cons_self
    have later := ih fun b hb => test b (List.mem_cons_of_mem a hb)
    rw [List.findFinIdx?_cons, List.findFinIdx?_cons, here, later]

theorem findFinIdx_key (h : Unique key l) {i : Fin l.length} {k : κ} (keyed : key l[i] = k) :
    (l.findFinIdx? fun a => key a = k) = some i := by
  apply List.findFinIdx?_eq_some_iff.mpr
  refine ⟨decide_eq_true keyed, ?_⟩
  intro j before hit
  have same : key l[j] = key l[i] := (of_decide_eq_true hit).trans keyed.symm
  have distinct : List.Pairwise (· ≠ ·) (l.map key) := h
  have apart := List.pairwise_iff_getElem.mp distinct j i (by simp) (by simp) before
  exact apart (by simpa using same)

end KeyedList
