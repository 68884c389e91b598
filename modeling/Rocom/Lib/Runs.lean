import Mathlib.Data.List.Infix

/-! Runs of a deterministic machine: `xs.foldl step s`. A guard on the steps and an
invariant of the states are related once here, for every machine. -/
namespace Runs

variable {S T A : Type*}

/-- Every step meets `ok` in the state it is taken from. -/
def Along (step : S → A → S) (ok : S → A → Prop) : S → List A → Prop
  | _, [] => True
  | s, a :: as => ok s a ∧ Along step ok (step s a) as

/-- `P` holds in the start state and in every state the run passes through. -/
def Throughout (step : S → A → S) (P : S → Prop) : S → List A → Prop
  | s, [] => P s
  | s, a :: as => P s ∧ Throughout step P (step s a) as

/-- Every step meets `ok`, up to the first one that meets `done`. -/
def Until (step : S → A → S) (ok done : S → A → Prop) : S → List A → Prop
  | _, [] => True
  | s, a :: as => ok s a ∧ (done s a ∨ Until step ok done (step s a) as)

variable {step : S → A → S} {ok : S → A → Prop} {P : S → Prop}

instance decidableAlong [∀ s a, Decidable (ok s a)] :
    ∀ (s : S) (as : List A), Decidable (Along step ok s as)
  | _, [] => isTrue trivial
  | s, a :: as =>
    have := decidableAlong (step s a) as
    inferInstanceAs (Decidable (ok s a ∧ Along step ok (step s a) as))

instance decidableUntil {done : S → A → Prop} [∀ s a, Decidable (ok s a)]
    [∀ s a, Decidable (done s a)] :
    ∀ (s : S) (as : List A), Decidable (Until step ok done s as)
  | _, [] => isTrue trivial
  | s, a :: as =>
    have : Decidable (Until step ok done (step s a) as) := decidableUntil (step s a) as
    inferInstanceAs (Decidable (ok s a ∧ (done s a ∨ Until step ok done (step s a) as)))

theorem along_append (s : S) (as bs : List A) :
    Along step ok s (as ++ bs) ↔ Along step ok s as ∧ Along step ok (as.foldl step s) bs := by
  induction as generalizing s with
  | nil => simp [Along]
  | cons a as ih => simp only [List.cons_append, Along, ih, List.foldl_cons, and_assoc]

theorem along_of_prefix {s : S} {as bs : List A} (h : Along step ok s bs) (hp : as <+: bs) :
    Along step ok s as := by
  obtain ⟨cs, rfl⟩ := hp
  exact ((along_append s as cs).mp h).1

theorem along_of_forall (s : S) (as : List A) (h : ∀ s, ∀ a ∈ as, ok s a) :
    Along step ok s as := by
  induction as generalizing s with
  | nil => trivial
  | cons a as ih =>
    exact ⟨h s a List.mem_cons_self, ih _ fun s b hb => h s b (List.mem_cons_of_mem a hb)⟩

theorem along_congr {ok' : S → A → Prop} (h : ∀ s a, ok s a ↔ ok' s a) (s : S) (as : List A) :
    Along step ok s as ↔ Along step ok' s as := by
  induction as generalizing s with
  | nil => exact Iff.rfl
  | cons a as ih => exact and_congr (h s a) (ih (step s a))

theorem along_and {ok' : S → A → Prop} {s : S} {as : List A} (h : Along step ok s as)
    (h' : Along step ok' s as) : Along step (fun s a => ok s a ∧ ok' s a) s as := by
  induction as generalizing s with
  | nil => trivial
  | cons a as ih => exact ⟨⟨h.1, h'.1⟩, ih h.2 h'.2⟩

/-- Two guards that say the same in the states of an invariant that one of them keeps. -/
theorem along_congr_of_invariant {ok' : S → A → Prop} {I : S → Prop}
    (keeps : ∀ s a, I s → ok' s a → I (step s a)) (same : ∀ s a, I s → (ok s a ↔ ok' s a))
    (s : S) (hs : I s) (as : List A) : Along step ok s as ↔ Along step ok' s as := by
  induction as generalizing s with
  | nil => exact Iff.rfl
  | cons a as ih =>
    rw [Along, Along, same s a hs]
    exact and_congr_right fun now => ih (step s a) (keeps s a hs now)

/-- A guard that keeps an invariant and implies another one in its states. -/
theorem along_of_guarded_invariant {ok' : S → A → Prop}
    (keeps : ∀ s a, P s → ok s a → P (step s a)) (gives : ∀ s a, P s → ok s a → ok' s a)
    (s : S) (hs : P s) (as : List A) (h : Along step ok s as) : Along step ok' s as := by
  induction as generalizing s with
  | nil => trivial
  | cons a as ih => exact ⟨gives s a hs h.1, ih _ (keeps s a hs h.1) h.2⟩

/-- A run of a machine with more in its state. -/
theorem along_comap {stepT : T → A → T} (f : T → S) (follows : ∀ t a, f (stepT t a) = step (f t) a)
    (t : T) (as : List A) :
    Along stepT (fun t a => ok (f t) a) t as ↔ Along step ok (f t) as := by
  induction as generalizing t with
  | nil => exact Iff.rfl
  | cons a as ih => rw [Along, Along, ih, follows]

theorem along_of_invariant (inv : ∀ s a, P s → P (step s a)) (guard : ∀ s a, P s → ok s a)
    (s : S) (hs : P s) (as : List A) : Along step ok s as := by
  induction as generalizing s with
  | nil => trivial
  | cons a as ih => exact ⟨guard s a hs, ih _ (inv s a hs)⟩

/-- The first step that misses the guard. -/
theorem exists_first_violation (s : S) (as : List A) (h : ¬ Along step ok s as) :
    ∃ bs b cs, as = bs ++ b :: cs ∧ Along step ok s bs ∧ ¬ ok (bs.foldl step s) b := by
  induction as generalizing s with
  | nil => exact absurd trivial h
  | cons a as ih =>
    by_cases ha : ok s a
    · obtain ⟨bs, b, cs, rfl, hbs, hb⟩ := ih (step s a) fun hrest => h ⟨ha, hrest⟩
      exact ⟨a :: bs, b, cs, rfl, ⟨ha, hbs⟩, hb⟩
    · exact ⟨[], a, as, rfl, trivial, ha⟩

theorem throughout_start {s : S} {as : List A} (h : Throughout step P s as) : P s := by
  cases as with
  | nil => exact h
  | cons a as => exact h.1

theorem throughout_iff_prefix (s : S) (as : List A) :
    Throughout step P s as ↔ ∀ p, p <+: as → P (p.foldl step s) := by
  induction as generalizing s with
  | nil => simp [Throughout]
  | cons a as ih =>
    rw [Throughout, ih]
    constructor
    · rintro ⟨hs, hrest⟩ p hp
      cases p with
      | nil => exact hs
      | cons b p =>
        obtain ⟨rfl, htail⟩ := List.cons_prefix_cons.mp hp
        exact hrest p htail
    · intro h
      exact ⟨h [] List.nil_prefix, fun p hp => h (a :: p) (List.cons_prefix_cons.mpr ⟨rfl, hp⟩)⟩

theorem invariant (inv : ∀ s a, P s → P (step s a)) (s : S) (hs : P s) (as : List A) :
    P (as.foldl step s) := by
  induction as generalizing s with
  | nil => exact hs
  | cons a as ih => exact ih (step s a) (inv s a hs)

theorem guarded_invariant (inv : ∀ s a, P s → ok s a → P (step s a)) (s : S) (hs : P s)
    (as : List A) (h : Along step ok s as) : P (as.foldl step s) := by
  induction as generalizing s with
  | nil => exact hs
  | cons a as ih => exact ih (step s a) (inv s a hs h.1) h.2

theorem until_and_along {ok' done : S → A → Prop} {s : S} {as : List A}
    (h : Until step ok done s as) (h' : Along step ok' s as) :
    Until step (fun s a => ok s a ∧ ok' s a) done s as := by
  induction as generalizing s with
  | nil => trivial
  | cons a as ih => exact ⟨⟨h.1, h'.1⟩, h.2.imp_right fun later => ih later h'.2⟩

/-- A run waits in `P` until a step meets `done`, and from then on is in `Q`. -/
theorem reached_iff {Q : S → Prop} {done : S → A → Prop}
    (waits : ∀ s a, P s → ok s a → ¬ done s a → P (step s a))
    (reaches : ∀ s a, P s → ok s a → done s a → Q (step s a))
    (stays : ∀ s a, Q s → Q (step s a)) (apart : ∀ s, P s → ¬ Q s)
    (s : S) (hs : P s) (as : List A) (h : Until step ok done s as) :
    Q (as.foldl step s) ↔ ¬ Along step (fun s a => ¬ done s a) s as := by
  induction as generalizing s with
  | nil => exact iff_of_false (apart s hs) fun open_end => open_end trivial
  | cons a as ih =>
    obtain ⟨allowed, later⟩ := h
    by_cases now : done s a
    · have reached := invariant stays (step s a) (reaches s a hs allowed now) as
      exact iff_of_true reached fun idle => idle.1 now
    · rw [List.foldl_cons, ih (step s a) (waits s a hs allowed now) (later.resolve_left now)]
      exact not_congr ⟨fun idle => ⟨now, idle⟩, fun idle => idle.2⟩

/-- When the guard decides, step by step, whether `P` survives, it decides it for runs. -/
theorem throughout_iff_along {I : S → Prop} (inv : ∀ s a, I s → I (step s a))
    (exact_guard : ∀ s a, I s → P s → (P (step s a) ↔ ok s a))
    (s : S) (hi : I s) (hs : P s) (as : List A) :
    Throughout step P s as ↔ Along step ok s as := by
  induction as generalizing s with
  | nil => exact iff_of_true hs trivial
  | cons a as ih =>
    constructor
    · rintro ⟨_, hrest⟩
      have hp := throughout_start hrest
      exact ⟨(exact_guard s a hi hs).mp hp, (ih _ (inv s a hi) hp).mp hrest⟩
    · rintro ⟨ha, hrest⟩
      have hp := (exact_guard s a hi hs).mpr ha
      exact ⟨hs, (ih _ (inv s a hi) hp).mpr hrest⟩

/-- The guard is exact for `P`: a run that keeps it stays in `P`, and behind the first step that
misses it there is a run that keeps it and leaves `P`. -/
structure Exact (step : S → A → S) (ok : S → A → Prop) (P : S → Prop) (s : S) (as : List A) :
    Prop where
  enough : Along step ok s as → Throughout step P s as
  needed : ¬ Along step ok s as → ∃ bs b cs, bs ++ [b] <+: as ∧ Along step ok s bs ∧
    ¬ ok (bs.foldl step s) b ∧ Along step ok (step (bs.foldl step s) b) cs ∧
    ¬ P (cs.foldl step (step (bs.foldl step s) b))

theorem guarded_throughout {I : S → Prop} (inv : ∀ s a, I s → ok s a → I (step s a))
    (safe : ∀ s, I s → P s) (s : S) (hs : I s) (as : List A) (h : Along step ok s as) :
    Throughout step P s as := by
  induction as generalizing s with
  | nil => exact safe s hs
  | cons a as ih => exact ⟨safe s hs, ih (step s a) (inv s a hs h.1) h.2⟩

/-- An invariant of the guarded steps from which every other step can be made fatal. -/
theorem exact_of_invariant {I : S → Prop} (inv : ∀ s a, I s → ok s a → I (step s a))
    (safe : ∀ s, I s → P s)
    (fatal : ∀ s a, I s → ¬ ok s a →
      ∃ cs, Along step ok (step s a) cs ∧ ¬ P (cs.foldl step (step s a)))
    (s : S) (hs : I s) (as : List A) : Exact step ok P s as where
  enough h := guarded_throughout inv safe s hs as h
  needed h := by
    obtain ⟨bs, b, rest, rfl, kept, missed⟩ := exists_first_violation s as h
    obtain ⟨cs, after, out⟩ := fatal _ b (guarded_invariant inv s hs bs kept) missed
    refine ⟨bs, b, cs, ?_, kept, missed, after, out⟩
    exact ⟨rest, by simp⟩

/-- Two machines that keep a relation on guarded steps end related. -/
theorem guarded_simulation {stepT : T → A → T} {R : S → T → Prop}
    (keeps : ∀ s t a, R s t → ok s a → R (step s a) (stepT t a))
    {s : S} {t : T} (hr : R s t) (as : List A) (h : Along step ok s as) :
    R (as.foldl step s) (as.foldl stepT t) := by
  induction as generalizing s t with
  | nil => exact hr
  | cons a as ih => exact ih (keeps s t a hr h.1) h.2

theorem simulation {stepT : T → A → T} {R : S → T → Prop}
    (keeps : ∀ s t a, R s t → R (step s a) (stepT t a))
    {s : S} {t : T} (hr : R s t) (as : List A) :
    R (as.foldl step s) (as.foldl stepT t) := by
  have free : Along step (fun _ _ => True) s as := along_of_forall s as fun _ _ _ => trivial
  exact guarded_simulation (fun s t a h _ => keeps s t a h) hr as free

/-- A property of all states carries over to a simulating machine. -/
theorem throughout_simulation {stepT : T → A → T} {R : S → T → Prop} {Q : T → Prop}
    (keeps : ∀ s t a, R s t → R (step s a) (stepT t a)) (agree : ∀ s t, R s t → (P s ↔ Q t))
    {s : S} {t : T} (hr : R s t) (as : List A) :
    Throughout step P s as ↔ Throughout stepT Q t as := by
  induction as generalizing s t with
  | nil => exact agree s t hr
  | cons a as ih => exact and_congr (agree s t hr) (ih (keeps s t a hr))

end Runs
