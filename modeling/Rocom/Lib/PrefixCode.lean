import Mathlib.Data.List.Infix
import Mathlib.Logic.ExistsUnique

/-! Prefix codes. No code word stands in front of another one, so a stream has one reading: the
words it is made of and the front of a word that is still to come. -/
namespace PrefixCode

variable {W A S : Type*} {code : W → List A}

structure IsPrefixCode (code : W → List A) : Prop where
  nonempty : ∀ w, code w ≠ []
  free : ∀ v w, code v <+: code w → v = w

def encode (code : W → List A) (ws : List W) : List A := ws.flatMap code

@[simp] theorem encode_cons (w : W) (ws : List W) :
    encode code (w :: ws) = code w ++ encode code ws := List.flatMap_cons

/-- No whole word stands in front. -/
def Unfinished (code : W → List A) (rest : List A) : Prop := ∀ w, ¬ code w <+: rest

/-- A reading of a stream. -/
structure Reads (code : W → List A) (stream : List A) (ws : List W) (rest : List A) : Prop where
  stream_eq : stream = encode code ws ++ rest
  unfinished : Unfinished code rest

theorem front_unique (h : IsPrefixCode code) {v w : W} {as bs : List A}
    (same : code v ++ as = code w ++ bs) : v = w ∧ as = bs := by
  have one : v = w := by
    have left : code v <+: code w ++ bs := ⟨as, same⟩
    rcases List.prefix_or_prefix_of_prefix left (List.prefix_append (code w) bs) with short | long
    · exact h.free v w short
    · exact (h.free w v long).symm
  subst one
  exact ⟨rfl, List.append_cancel_left same⟩

theorem reads_unique (h : IsPrefixCode code) {stream rest rest' : List A} {ws ws' : List W}
    (one : Reads code stream ws rest) (other : Reads code stream ws' rest') :
    ws = ws' ∧ rest = rest' := by
  induction ws generalizing stream ws' with
  | nil =>
    have same : rest = encode code ws' ++ rest' := one.stream_eq.symm.trans other.stream_eq
    cases ws' with
    | nil => exact ⟨rfl, same⟩
    | cons w ws' =>
      rw [encode_cons, List.append_assoc] at same
      exact absurd ⟨_, same.symm⟩ (one.unfinished w)
  | cons w ws ih =>
    have same := one.stream_eq.symm.trans other.stream_eq
    rw [encode_cons, List.append_assoc] at same
    cases ws' with
    | nil => exact absurd ⟨_, same⟩ (other.unfinished w)
    | cons v ws' =>
      rw [encode_cons, List.append_assoc] at same
      obtain ⟨rfl, tail⟩ := front_unique h same
      obtain ⟨rfl, rfl⟩ := ih ⟨rfl, one.unfinished⟩ ⟨tail, other.unfinished⟩
      exact ⟨rfl, rfl⟩

theorem reads_exists (h : IsPrefixCode code) (stream : List A) :
    ∃ ws rest, Reads code stream ws rest := by
  by_cases unfinished : Unfinished code stream
  · exact ⟨[], stream, rfl, unfinished⟩
  · obtain ⟨w, tail, split⟩ : ∃ w, code w <+: stream := by
      by_contra none_found
      exact unfinished fun w front => none_found ⟨w, front⟩
    have shorter : tail.length < stream.length := by
      have positive := List.length_pos_iff.mpr (h.nonempty w)
      rw [← split, List.length_append]
      omega
    obtain ⟨ws, rest, same, later⟩ := reads_exists h tail
    refine ⟨w :: ws, rest, ?_, later⟩
    rw [encode_cons, List.append_assoc, ← same, split]
termination_by stream.length

/-- `act` is what one word does to a machine that takes the symbols one by one. -/
theorem foldl_encode {step : S → A → S} {act : S → W → S} {I : S → Prop}
    (word : ∀ s w, I s → (code w).foldl step s = act s w) (keeps : ∀ s w, I s → I (act s w))
    (s : S) (hs : I s) (ws : List W) :
    (encode code ws).foldl step s = ws.foldl act s ∧ I (ws.foldl act s) := by
  induction ws generalizing s with
  | nil => exact ⟨rfl, hs⟩
  | cons w ws ih =>
    rw [encode_cons, List.foldl_append, word s w hs, List.foldl_cons]
    exact ih _ (keeps s w hs)

end PrefixCode
