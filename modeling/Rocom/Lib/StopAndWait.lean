import Mathlib.Data.List.Count
import Mathlib.Tactic.SplitIfs

/-! The receiving side of a stop-and-wait transfer of numbered blocks. A timeout and a repeat of
the block before are answered with the last acknowledgement, and only so many timeouts are borne
while one block is waited for. The first block is not waited for at all. -/
namespace StopAndWait

inductive Arrival where
  | timeout
  | data (n : ℕ)
deriving DecidableEq

/-- `left` timeouts are still borne. -/
inductive State where
  | waiting (block left : ℕ)
  | done
  | failed
deriving DecidableEq

section
variable (patience count : ℕ)

def step : State → Arrival → State
  | .waiting block left, .timeout =>
    if 1 < block ∧ 0 < left then .waiting block (left - 1) else .failed
  | .waiting block left, .data n =>
    if n = block then if block = count then .done else .waiting (block + 1) patience
    else if n + 1 = block then .waiting block left
    else .failed
  | .done, _ => .done
  | .failed, _ => .failed

/-- The blocks that a step acknowledges. -/
def answer : State → Arrival → List ℕ
  | .waiting block left, .timeout => if 1 < block ∧ 0 < left then [block - 1] else []
  | .waiting block _, .data n =>
    if n = block then [block] else if n + 1 = block then [block - 1] else []
  | .done, _ | .failed, _ => []

def answers : State → List Arrival → List ℕ
  | _, [] => []
  | s, a :: as => answer s a ++ answers (step patience count s a) as

end

/-! A schedule is cut into the rounds of its blocks. -/

/-- What can come while a block is waited for. -/
inductive Wait where
  | timeout
  | repeated
deriving DecidableEq

def Wait.arrival (block : ℕ) : Wait → Arrival
  | .timeout => .timeout
  | .repeated => .data (block - 1)

def round (block : ℕ) (waits : List Wait) : List Arrival :=
  waits.map (Wait.arrival block) ++ [.data block]

/-- The rounds of the blocks from `block` on. -/
def schedule : ℕ → List (List Wait) → List Arrival
  | _, [] => []
  | block, waits :: rounds => round block waits ++ schedule (block + 1) rounds

/-- Every wait is answered with the block before, and then the block itself. -/
def scheduleAnswers : ℕ → List (List Wait) → List ℕ
  | _, [] => []
  | block, waits :: rounds =>
    List.replicate waits.length (block - 1) ++ block :: scheduleAnswers (block + 1) rounds

def timeouts (waits : List Wait) : ℕ := waits.count .timeout

theorem timeouts_timeout (waits : List Wait) : timeouts (.timeout :: waits) = timeouts waits + 1 :=
  List.count_cons_self

theorem timeouts_repeated (waits : List Wait) : timeouts (.repeated :: waits) = timeouts waits :=
  List.count_cons_of_ne (by decide)

/-- The timeouts that are borne while `block` is waited for, of those that are left. -/
def bearable (block left : ℕ) : ℕ := if 1 < block then left else 0

/-- All blocks arrive, each before patience is lost. -/
structure Served (patience count : ℕ) (rounds : List (List Wait)) : Prop where
  all : rounds.length = count
  first : ∀ waits ∈ rounds.head?, timeouts waits = 0
  borne : ∀ waits ∈ rounds, timeouts waits ≤ patience

variable {patience count : ℕ}

@[simp] theorem foldl_done (as : List Arrival) : as.foldl (step patience count) .done = .done := by
  induction as with
  | nil => rfl
  | cons a as ih => exact ih

@[simp] theorem foldl_failed (as : List Arrival) :
    as.foldl (step patience count) .failed = .failed := by
  induction as with
  | nil => rfl
  | cons a as ih => exact ih

theorem answers_done (as : List Arrival) : answers patience count .done as = [] := by
  induction as with
  | nil => rfl
  | cons a as ih => exact ih

/-- A schedule starts with a wait for its first block, or with that block. -/
theorem schedule_cons {block : ℕ} {waits : List Wait} {rounds : List (List Wait)} {a : Arrival}
    {as : List Arrival} :
    schedule block (waits :: rounds) <+: a :: as ↔
      (waits = [] ∧ a = .data block ∧ schedule (block + 1) rounds <+: as) ∨
      ∃ w rest, waits = w :: rest ∧ a = w.arrival block ∧
        schedule block (rest :: rounds) <+: as := by
  cases waits with
  | nil => simp [schedule, round, List.cons_prefix_cons, eq_comm]
  | cons w rest => simp [schedule, round, List.cons_prefix_cons, eq_comm]

/-- What still has to come for the transfer to be done. -/
def Remains (patience count block left : ℕ) (as : List Arrival) : Prop :=
  ∃ waits rounds, timeouts waits ≤ bearable block left ∧
    (∀ waits ∈ rounds, timeouts waits ≤ patience) ∧ block + rounds.length = count ∧
    schedule block (waits :: rounds) <+: as

theorem not_remains_nil {block left : ℕ} : ¬ Remains patience count block left [] := by
  rintro ⟨waits, rounds, -, -, -, started⟩
  cases waits <;> simp [schedule, round] at started

theorem remains_timeout {block left : ℕ} {as : List Arrival} :
    Remains patience count block left (.timeout :: as) ↔
      (1 < block ∧ 0 < left) ∧ Remains patience count block (left - 1) as := by
  constructor
  · rintro ⟨waits, rounds, few, borne, all, started⟩
    rcases schedule_cons.mp started with ⟨-, now, -⟩ | ⟨w, rest, rfl, now, more⟩
    · cases now
    · cases w with
      | repeated => cases now
      | timeout =>
        rw [timeouts_timeout, bearable] at few
        split_ifs at few with waited
        · refine ⟨⟨waited, by omega⟩, rest, rounds, ?_, borne, all, more⟩
          rw [bearable, if_pos waited]
          omega
        · omega
  · rintro ⟨⟨waited, more⟩, waits, rounds, few, borne, all, started⟩
    refine ⟨.timeout :: waits, rounds, ?_, borne, all,
      schedule_cons.mpr (.inr ⟨_, _, rfl, rfl, started⟩)⟩
    rw [bearable, if_pos waited] at few ⊢
    rw [timeouts_timeout]
    omega

theorem remains_block {block left : ℕ} (positive : 1 ≤ block) {as : List Arrival} :
    Remains patience count block left (.data block :: as) ↔
      block = count ∨ Remains patience count (block + 1) patience as := by
  have waited : bearable (block + 1) patience = patience := if_pos (Nat.lt_succ_of_le positive)
  constructor
  · rintro ⟨waits, rounds, few, borne, all, started⟩
    rcases schedule_cons.mp started with ⟨rfl, -, started⟩ | ⟨w, rest, rfl, now, started⟩
    · cases rounds with
      | nil => exact .inl all
      | cons waits rounds =>
        have first := borne waits List.mem_cons_self
        refine .inr ⟨waits, rounds, waited.symm ▸ first, ?_, ?_, started⟩
        · exact fun waits member => borne waits (List.mem_cons_of_mem _ member)
        · rw [List.length_cons] at all
          omega
    · cases w with
      | timeout => cases now
      | repeated =>
        injection now with same
        omega
  · rintro (rfl | ⟨waits, rounds, few, borne, all, started⟩)
    · refine ⟨[], [], Nat.zero_le _, nofun, rfl, schedule_cons.mpr (.inl ⟨rfl, rfl, ?_⟩)⟩
      exact List.nil_prefix
    · refine ⟨[], waits :: rounds, Nat.zero_le _, ?_, ?_,
        schedule_cons.mpr (.inl ⟨rfl, rfl, started⟩)⟩
      · exact List.forall_mem_cons.mpr ⟨waited ▸ few, borne⟩
      · rw [List.length_cons]
        omega

theorem remains_repeated {block left n : ℕ} (before : n + 1 = block) {as : List Arrival} :
    Remains patience count block left (.data n :: as) ↔ Remains patience count block left as := by
  constructor
  · rintro ⟨waits, rounds, few, borne, all, started⟩
    rcases schedule_cons.mp started with ⟨-, now, -⟩ | ⟨w, rest, rfl, now, started⟩
    · injection now with same
      omega
    · refine ⟨rest, rounds, Nat.le_trans ?_ few, borne, all, started⟩
      exact List.count_le_count_cons
  · rintro ⟨waits, rounds, few, borne, all, started⟩
    refine ⟨.repeated :: waits, rounds, ?_, borne, all,
      schedule_cons.mpr (.inr ⟨_, _, rfl, ?_, started⟩)⟩
    · rwa [timeouts_repeated]
    · rw [Wait.arrival, ← before, Nat.add_sub_cancel]

theorem not_remains_other {block left n : ℕ} (other : n ≠ block) (later : n + 1 ≠ block)
    (positive : 1 ≤ block) {as : List Arrival} :
    ¬ Remains patience count block left (.data n :: as) := by
  rintro ⟨waits, rounds, few, borne, all, started⟩
  rcases schedule_cons.mp started with ⟨-, now, -⟩ | ⟨w, rest, rfl, now, started⟩
  · injection now with same
    exact other same
  · cases w with
    | timeout => cases now
    | repeated =>
      injection now with same
      omega

/-- From any point on: the transfer is done exactly after a schedule of the blocks that miss. -/
theorem waiting_done_iff {block : ℕ} (positive : 1 ≤ block) (within : block ≤ count) (left : ℕ)
    (as : List Arrival) :
    as.foldl (step patience count) (.waiting block left) = .done ↔
      Remains patience count block left as := by
  induction as generalizing block left with
  | nil => exact iff_of_false nofun not_remains_nil
  | cons a as ih =>
    rw [List.foldl_cons]
    cases a with
    | timeout =>
      rw [remains_timeout, step]
      split_ifs with borne
      · rw [ih positive within, and_iff_right borne]
      · simp [borne]
    | data n =>
      rw [step]
      split_ifs with next last before
      · rw [next, remains_block positive, foldl_done]
        simp [last]
      · rw [next, remains_block positive, ih (Nat.le_add_left 1 block) (by omega),
          or_iff_right last]
      · rw [remains_repeated before, ih positive within]
      · rw [foldl_failed]
        exact iff_of_false nofun (not_remains_other next before positive)

/-- A transfer is done exactly after a schedule of all its blocks. -/
theorem done_iff (some_block : 1 ≤ count) (as : List Arrival) :
    as.foldl (step patience count) (.waiting 1 patience) = .done ↔
      ∃ rounds, Served patience count rounds ∧ schedule 1 rounds <+: as := by
  rw [waiting_done_iff (Nat.le_refl 1) some_block]
  constructor
  · rintro ⟨waits, rounds, few, borne, all, started⟩
    have none_left : timeouts waits = 0 := Nat.le_zero.mp few
    refine ⟨waits :: rounds, ⟨?_, ?_, ?_⟩, started⟩
    · rw [List.length_cons]
      omega
    · intro first here
      cases here
      exact none_left
    · exact List.forall_mem_cons.mpr ⟨by omega, borne⟩
  · rintro ⟨rounds, served, started⟩
    cases rounds with
    | nil =>
      have all := served.all
      rw [List.length_nil] at all
      omega
    | cons waits rounds =>
      obtain ⟨-, borne⟩ := List.forall_mem_cons.mp served.borne
      have all := served.all
      rw [List.length_cons] at all
      exact ⟨waits, rounds, Nat.le_of_eq (served.first waits rfl), borne, by omega, started⟩

/-! What is acknowledged on the way. -/

theorem answers_round {block left : ℕ} (waits : List Wait)
    (few : timeouts waits ≤ bearable block left) (as : List Arrival) (positive : 1 ≤ block) :
    answers patience count (.waiting block left) (round block waits ++ as) =
      List.replicate waits.length (block - 1) ++ block ::
        answers patience count
          (if block = count then .done else .waiting (block + 1) patience) as := by
  induction waits generalizing left with
  | nil => simp [round, answers, answer, step]
  | cons w waits ih =>
    cases w with
    | timeout =>
      rw [timeouts_timeout, bearable] at few
      split_ifs at few with waited
      · have borne : 1 < block ∧ 0 < left := ⟨waited, by omega⟩
        have rest := @ih (left - 1) (by rw [bearable, if_pos waited]; omega)
        rw [round] at rest
        simp only [round, List.map_cons, List.cons_append, Wait.arrival, answers, answer, step,
          if_pos borne, rest, List.length_cons, List.replicate_succ, List.nil_append]
      · omega
    | repeated =>
      rw [timeouts_repeated] at few
      have rest := ih few
      have other : block - 1 ≠ block := by omega
      have before : block - 1 + 1 = block := by omega
      rw [round] at rest
      simp only [round, List.map_cons, List.cons_append, Wait.arrival, answers, answer, step,
        if_neg other, if_pos before, rest, List.length_cons, List.replicate_succ, List.nil_append]

theorem answers_schedule {block left : ℕ} {waits : List Wait} {rounds : List (List Wait)}
    (few : timeouts waits ≤ bearable block left)
    (borne : ∀ waits ∈ rounds, timeouts waits ≤ patience)
    (all : block + rounds.length = count) (positive : 1 ≤ block) (as : List Arrival) :
    answers patience count (.waiting block left) (schedule block (waits :: rounds) ++ as) =
      scheduleAnswers block (waits :: rounds) := by
  induction rounds generalizing block left waits with
  | nil =>
    rw [List.length_nil] at all
    have last : block = count := all
    rw [schedule, List.append_assoc, answers_round waits few _ positive, if_pos last, answers_done]
    rfl
  | cons next rounds ih =>
    obtain ⟨first, borne⟩ := List.forall_mem_cons.mp borne
    rw [List.length_cons] at all
    have more : block ≠ count := by omega
    have waited : bearable (block + 1) patience = patience := if_pos (Nat.lt_succ_of_le positive)
    rw [schedule, List.append_assoc, answers_round waits few _ positive, if_neg more,
      ih (waited.symm ▸ first) borne (by omega) (Nat.le_add_left 1 block)]
    rfl

theorem answers_served (some_block : 1 ≤ count) {rounds : List (List Wait)}
    (served : Served patience count rounds) {as : List Arrival} (whole : schedule 1 rounds <+: as) :
    answers patience count (.waiting 1 patience) as = scheduleAnswers 1 rounds := by
  obtain ⟨rest, rfl⟩ := whole
  have all := served.all
  cases rounds with
  | nil =>
    rw [List.length_nil] at all
    omega
  | cons waits rounds =>
    obtain ⟨-, borne⟩ := List.forall_mem_cons.mp served.borne
    rw [List.length_cons] at all
    exact answers_schedule (Nat.le_of_eq (served.first waits rfl)) borne (by omega) (Nat.le_refl 1)
      rest

end StopAndWait
