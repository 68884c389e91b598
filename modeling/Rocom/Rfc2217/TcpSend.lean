import Mathlib.Data.List.Flatten
import Mathlib.Logic.Function.Basic
import Rocom.Rfc2217.Wire

/-! `tcp_send`, called by the relay task and by the receive thread of one connection. Here a
buffer is written piece by piece, as `send` takes it. -/
namespace Rocom.Rfc2217

inductive Sender where
  | relay
  | receive
deriving DecidableEq, Repr

/-- Where a thread is in `tcp_send`: waiting for the mutex, or in the loop with `to_write` bytes
at `cbuf`. -/
inductive SendStage where
  | idle
  | locking (buf : List UInt8)
  | writing (cbuf : List UInt8)
deriving DecidableEq

/-- A call that got the mutex, with the number of bytes that `send` has taken. -/
structure SendCall where
  buf : List UInt8
  written : Nat
deriving DecidableEq

def SendCall.bytes (c : SendCall) : List UInt8 := c.buf.take c.written

/-- Some of the frame was taken, but not all. -/
def SendCall.cut (c : SendCall) : Bool := 0 < c.written && c.written < c.buf.length

/-- `calls` has the newest first. -/
structure SendState where
  stage : Sender → SendStage
  mutex : Option Sender
  calls : List SendCall
  client : List UInt8

def SendState.start : SendState := ⟨fun _ => .idle, none, [], []⟩

/-- `send` returns a count, or an error. -/
inductive SendMove where
  | call (who : Sender) (buf : List UInt8)
  | lock (who : Sender)
  | send (who : Sender) (written : Option Nat)
  | unlock (who : Sender)
deriving DecidableEq

def noteWritten (n : Nat) : List SendCall → List SendCall
  | [] => []
  | c :: calls => { c with written := c.written + n } :: calls

namespace SendState

def goes (s : SendState) (who : Sender) (stage : SendStage) : SendState :=
  { s with stage := Function.update s.stage who stage }

/-- The end of `tcp_send`, also after an error. -/
def returns (s : SendState) (who : Sender) : SendState := { s.goes who .idle with mutex := none }

def sends (s : SendState) (who : Sender) (cbuf : List UInt8) (written : Option Nat) : SendState :=
  match written with
  | none => s.returns who
  | some n =>
    if 0 < n ∧ n ≤ cbuf.length then
      { s.goes who (.writing (cbuf.drop n)) with
        calls := noteWritten n s.calls
        client := s.client ++ cbuf.take n }
    else s

/-- A move that is not due changes nothing. -/
def step (s : SendState) : SendMove → SendState
  | .call who buf => if s.stage who = .idle then s.goes who (.locking buf) else s
  | .lock who =>
    match s.stage who with
    | .locking buf =>
      if s.mutex = none then
        { s.goes who (.writing buf) with mutex := some who, calls := ⟨buf, 0⟩ :: s.calls }
      else s
    | .idle | .writing _ => s
  | .send who written =>
    match s.stage who with
    | .writing cbuf => if cbuf = [] then s else s.sends who cbuf written
    | .idle | .locking _ => s
  | .unlock who => if s.stage who = .writing [] then s.returns who else s

/-- The client has whole frames and the start of one more, and a frame that was cut is the last
one it has bytes of. -/
structure Untorn (s : SendState) : Prop where
  frames : ∃ frames : List (List UInt8), frames.Sublist (s.calls.reverse.map SendCall.buf) ∧
    s.client <+: frames.flatten
  last : s.calls.Pairwise fun later earlier => earlier.cut = true → later.written = 0

/-- `send` takes bytes of a frame after another one was cut. -/
def Tears (s : SendState) : SendMove → Prop
  | .send who (some n) =>
    ∃ cbuf, s.stage who = .writing cbuf ∧ 0 < n ∧ n ≤ cbuf.length ∧ ∃ c ∈ s.calls.tail, c.cut = true
  | _ => False

/-- The thread in the loop holds the mutex, and its call is the newest. -/
structure Locked (s : SendState) : Prop where
  client : s.client = s.calls.reverse.flatMap SendCall.bytes
  held : ∀ who cbuf, s.stage who = .writing cbuf → s.mutex = some who ∧
    ∃ c calls, s.calls = c :: calls ∧ c.written ≤ c.buf.length ∧ c.buf.drop c.written = cbuf

/-- What a move may do. -/
inductive Moved (s n : SendState) (a : SendMove) : Prop where
  | kept (calls : n.calls = s.calls) (client : n.client = s.client) (mutex : n.mutex = s.mutex)
      (stages : ∀ who cbuf, n.stage who = .writing cbuf → s.stage who = .writing cbuf)
      (quiet : ¬ s.Tears a)
  | locked (who : Sender) (buf : List UInt8) (free : s.mutex = none) (quiet : ¬ s.Tears a)
      (moved : n = { s.goes who (.writing buf) with
        mutex := some who, calls := ⟨buf, 0⟩ :: s.calls })
  | sent (who : Sender) (cbuf : List UInt8) (count : Nat) (due : s.stage who = .writing cbuf)
      (positive : 0 < count) (fits : count ≤ cbuf.length) (move : a = .send who (some count))
      (moved : n = { s.goes who (.writing (cbuf.drop count)) with
        calls := noteWritten count s.calls
        client := s.client ++ cbuf.take count })
  | returned (who : Sender) (cbuf : List UInt8) (due : s.stage who = .writing cbuf)
      (ended : cbuf = [] ∨ a = .send who none) (quiet : ¬ s.Tears a) (moved : n = s.returns who)

theorem goes_self (s : SendState) (who : Sender) (stage : SendStage) :
    (s.goes who stage).stage who = stage := Function.update_self _ _ _

theorem goes_other (s : SendState) {who other : Sender} (ne : other ≠ who) (stage : SendStage) :
    (s.goes who stage).stage other = s.stage other := Function.update_of_ne ne _ _

theorem step_moved (s : SendState) (a : SendMove) : Moved s (s.step a) a := by
  have same : ¬ s.Tears a → Moved s s a := .kept rfl rfl rfl fun _ _ h => h
  cases a with
  | call who buf =>
    rw [step]
    split
    · refine .kept rfl rfl rfl ?_ id
      intro other cbuf writing
      by_cases own : other = who
      · subst own
        rw [goes_self] at writing
        cases writing
      · rwa [goes_other s own] at writing
    · exact same id
  | lock who =>
    rw [step]
    cases s.stage who with
    | idle => exact same id
    | writing cbuf => exact same id
    | locking buf =>
      dsimp only
      split
      · rename_i free
        exact .locked who buf free id rfl
      · exact same id
  | send who written =>
    have undue : (∀ cbuf, s.stage who ≠ .writing cbuf) → ¬ s.Tears (.send who written) := by
      intro away tears
      cases written with
      | none => exact tears
      | some n =>
        obtain ⟨cbuf, due, _⟩ := tears
        exact away cbuf due
    rw [step]
    cases due : s.stage who with
    | idle => exact same (undue fun cbuf h => by rw [due] at h; cases h)
    | locking buf => exact same (undue fun cbuf h => by rw [due] at h; cases h)
    | writing cbuf =>
      dsimp only
      split
      · rename_i ended
        subst ended
        apply same
        cases written with
        | none => exact id
        | some n =>
          rintro ⟨left, due', positive, fits, _⟩
          obtain rfl : [] = left := by simpa [due] using due'
          exact absurd fits (Nat.not_le_of_lt positive)
      · cases written with
        | none => exact .returned who cbuf due (.inr rfl) id rfl
        | some n =>
          rw [sends]
          split
          · rename_i taken
            exact .sent who cbuf n due taken.1 taken.2 rfl rfl
          · rename_i refused
            apply same
            rintro ⟨left, due', positive, fits, _⟩
            obtain rfl : cbuf = left := by simpa [due] using due'
            exact refused ⟨positive, fits⟩
  | unlock who =>
    rw [step]
    split
    · rename_i due
      exact .returned who [] due (.inl rfl) id rfl
    · exact same id

section Moves
variable {s n : SendState} {a : SendMove}

theorem Locked.alone (h : Locked s) {who other : Sender} {cbuf left : List UInt8}
    (due : s.stage who = .writing cbuf) (due' : s.stage other = .writing left) : other = who := by
  have first := (h.held who cbuf due).1
  have second := (h.held other left due').1
  exact Option.some.inj (second.symm.trans first)

theorem Moved.keeps_locked (h : Locked s) (moved : Moved s n a) : Locked n := by
  cases moved with
  | kept calls client mutex stages =>
    refine ⟨by rw [client, calls]; exact h.client, ?_⟩
    intro who cbuf writing
    rw [mutex, calls]
    exact h.held who cbuf (stages who cbuf writing)
  | locked who buf free _ moved =>
    subst moved
    refine ⟨?_, ?_⟩
    · show s.client = (⟨buf, 0⟩ :: s.calls : List SendCall).reverse.flatMap SendCall.bytes
      rw [List.reverse_cons, List.flatMap_append, h.client]
      simp [SendCall.bytes]
    · intro other cbuf writing
      by_cases own : other = who
      · subst own
        obtain rfl : buf = cbuf := by simpa [goes_self] using writing
        exact ⟨rfl, ⟨buf, 0⟩, s.calls, rfl, Nat.zero_le _, rfl⟩
      · have before : s.stage other = .writing cbuf := (goes_other s own _).symm.trans writing
        rw [(h.held other cbuf before).1] at free
        cases free
  | sent who cbuf count due positive fits _ moved =>
    subst moved
    obtain ⟨owner, c, calls, list, within, left⟩ := h.held who cbuf due
    have room : cbuf.length = c.buf.length - c.written := by rw [← left, List.length_drop]
    refine ⟨?_, ?_⟩
    · show s.client ++ cbuf.take count = (noteWritten count s.calls).reverse.flatMap SendCall.bytes
      rw [h.client, list, noteWritten, List.reverse_cons, List.reverse_cons, List.flatMap_append,
        List.flatMap_append, List.append_assoc]
      congr 1
      simp [SendCall.bytes, List.take_add, left]
    · intro other rest writing
      by_cases own : other = who
      · subst own
        obtain rfl : cbuf.drop count = rest := by simpa [goes_self] using writing
        refine ⟨owner, { c with written := c.written + count }, calls, ?_, ?_, ?_⟩
        · exact congrArg (noteWritten count) list
        · show c.written + count ≤ c.buf.length
          omega
        · rw [← left, List.drop_drop]
      · have before : s.stage other = .writing rest := (goes_other s own _).symm.trans writing
        exact absurd (h.alone due before) own
  | returned who cbuf due _ _ moved =>
    subst moved
    refine ⟨h.client, ?_⟩
    intro other left writing
    by_cases own : other = who
    · subst own
      have idle : SendStage.idle = .writing left := (goes_self s other .idle).symm.trans writing
      cases idle
    · have before : s.stage other = .writing left := (goes_other s own _).symm.trans writing
      exact absurd (h.alone due before) own

/-- The frames of the earlier calls, and of one that has nothing on the wire. -/
theorem frames_skip {calls : List SendCall} {frames : List (List UInt8)} (c : SendCall)
    (listed : frames.Sublist (calls.reverse.map SendCall.buf)) :
    frames.Sublist ((c :: calls).reverse.map SendCall.buf) := by
  rw [List.reverse_cons, List.map_append]
  exact listed.trans (List.sublist_append_left _ _)

theorem frames_take {calls : List SendCall} {frames : List (List UInt8)} (c : SendCall)
    (listed : frames.Sublist (calls.reverse.map SendCall.buf)) :
    (frames ++ [c.buf]).Sublist ((c :: calls).reverse.map SendCall.buf) := by
  rw [List.reverse_cons, List.map_append]
  exact listed.append (List.Sublist.refl _)

theorem bytes_cons (c : SendCall) (calls : List SendCall) :
    (c :: calls).reverse.flatMap SendCall.bytes =
      calls.reverse.flatMap SendCall.bytes ++ c.bytes := by
  simp

/-- Calls none of which was cut have whole frames or nothing on the wire. -/
theorem whole_frames (calls : List SendCall) (uncut : ∀ c ∈ calls, c.cut = false) :
    ∃ frames : List (List UInt8), frames.Sublist (calls.reverse.map SendCall.buf) ∧
      calls.reverse.flatMap SendCall.bytes = frames.flatten := by
  induction calls with
  | nil => exact ⟨[], List.Sublist.refl _, rfl⟩
  | cons c calls ih =>
    obtain ⟨frames, listed, same⟩ := ih fun c hc => uncut c (List.mem_cons_of_mem _ hc)
    have own := uncut c List.mem_cons_self
    rw [SendCall.cut, Bool.and_eq_false_iff, decide_eq_false_iff_not,
      decide_eq_false_iff_not] at own
    rw [bytes_cons, same]
    rcases own with nothing | whole
    · refine ⟨frames, frames_skip c listed, ?_⟩
      rw [SendCall.bytes, Nat.eq_zero_of_not_pos nothing, List.take_zero, List.append_nil]
    · refine ⟨frames ++ [c.buf], frames_take c listed, ?_⟩
      rw [SendCall.bytes, List.take_of_length_le (Nat.le_of_not_lt whole)]
      simp

/-- A frame that was cut being the last, the client has whole frames and the start of one. -/
theorem frames_of_last {calls : List SendCall}
    (last : calls.Pairwise fun later earlier => earlier.cut = true → later.written = 0) :
    ∃ frames : List (List UInt8), frames.Sublist (calls.reverse.map SendCall.buf) ∧
      calls.reverse.flatMap SendCall.bytes <+: frames.flatten := by
  induction calls with
  | nil => exact ⟨[], List.Sublist.refl _, List.prefix_refl _⟩
  | cons c calls ih =>
    obtain ⟨after_cut, earlier⟩ := List.pairwise_cons.mp last
    rw [bytes_cons]
    rcases Nat.eq_zero_or_pos c.written with nothing | some_written
    · obtain ⟨frames, listed, start⟩ := ih earlier
      refine ⟨frames, frames_skip c listed, ?_⟩
      rw [SendCall.bytes, nothing, List.take_zero, List.append_nil]
      exact start
    · have uncut : ∀ e ∈ calls, e.cut = false := by
        intro e he
        cases cut : e.cut with
        | false => rfl
        | true => exact absurd (after_cut e he cut) (Nat.ne_of_gt some_written)
      obtain ⟨frames, listed, same⟩ := whole_frames calls uncut
      refine ⟨frames ++ [c.buf], frames_take c listed, ?_⟩
      rw [same, List.flatten_append, List.flatten_singleton]
      exact (List.prefix_append_right_inj _).mpr (List.take_prefix _ _)

theorem Locked.untorn (h : Locked s)
    (last : s.calls.Pairwise fun later earlier => earlier.cut = true → later.written = 0) :
    Untorn s := ⟨h.client ▸ frames_of_last last, last⟩

theorem Moved.keeps_untorn (h : Locked s) (untorn : Untorn s) (moved : Moved s n a) :
    Untorn n ↔ ¬ s.Tears a := by
  have after := moved.keeps_locked h
  cases moved with
  | kept calls _ _ _ quiet =>
    refine iff_of_true (after.untorn ?_) quiet
    rw [calls]
    exact untorn.last
  | locked who buf _ quiet moved =>
    subst moved
    refine iff_of_true (after.untorn ?_) quiet
    exact List.pairwise_cons.mpr ⟨fun _ _ _ => rfl, untorn.last⟩
  | returned who cbuf _ _ quiet moved =>
    subst moved
    exact iff_of_true (after.untorn untorn.last) quiet
  | sent who cbuf count due positive fits move moved =>
    subst move
    subst moved
    obtain ⟨_, c, calls, list, _, _⟩ := h.held who cbuf due
    have written : noteWritten count s.calls = { c with written := c.written + count } :: calls :=
      congrArg (noteWritten count) list
    have earlier : calls.Pairwise fun later earlier => earlier.cut = true → later.written = 0 := by
      have last := untorn.last
      rw [list] at last
      exact last.of_cons
    constructor
    · rintro torn ⟨_, _, _, _, e, he, cut⟩
      have last := torn.last
      rw [list] at he
      dsimp only at last
      rw [written] at last
      have nothing := (List.pairwise_cons.mp last).1 e he cut
      exact absurd nothing (Nat.ne_of_gt (Nat.add_pos_right _ positive))
    · intro whole
      apply after.untorn
      dsimp only
      rw [written]
      refine List.pairwise_cons.mpr ⟨fun e he cut => ?_, earlier⟩
      refine absurd ⟨cbuf, due, positive, fits, e, ?_, cut⟩ whole
      rw [list]
      exact he

theorem start_locked : Locked .start := ⟨rfl, fun _ _ writing => by cases writing⟩

theorem start_untorn : Untorn .start := ⟨⟨[], List.Sublist.refl _, List.prefix_refl _⟩, .nil⟩

/-- Every call that has returned had its whole buffer taken. -/
structure Delivers (s : SendState) : Prop where
  locked : Locked s
  earlier : ∀ c ∈ s.calls.tail, c.bytes = c.buf
  idle : s.mutex = none → ∀ c ∈ s.calls, c.bytes = c.buf

theorem Moved.delivers (h : Delivers s) (moved : Moved s n a) (taken : ∀ who, a ≠ .send who none) :
    Delivers n := by
  have after := moved.keeps_locked h.locked
  cases moved with
  | kept calls _ mutex _ _ =>
    refine ⟨after, ?_, ?_⟩
    · rw [calls]
      exact h.earlier
    · rw [calls, mutex]
      exact h.idle
  | locked who buf free _ moved =>
    subst moved
    exact ⟨after, h.idle free, fun unlocked => by cases unlocked⟩
  | sent who cbuf count due _ _ _ moved =>
    subst moved
    obtain ⟨owner, c, calls, list, _, _⟩ := h.locked.held who cbuf due
    refine ⟨after, ?_, fun unlocked => ?_⟩
    · have earlier := h.earlier
      rw [list] at earlier
      show ∀ c ∈ (noteWritten count s.calls).tail, c.bytes = c.buf
      rw [list]
      exact earlier
    · rw [show s.mutex = none from unlocked] at owner
      cases owner
  | returned who cbuf due ended _ moved =>
    subst moved
    obtain ⟨_, c, calls, list, _, left⟩ := h.locked.held who cbuf due
    have nothing_left : cbuf = [] := ended.resolve_right (taken who)
    have whole : c.bytes = c.buf := by
      rw [nothing_left, List.drop_eq_nil_iff] at left
      exact List.take_of_length_le left
    have earlier := h.earlier
    refine ⟨after, earlier, fun _ => ?_⟩
    show ∀ c ∈ s.calls, c.bytes = c.buf
    rw [list] at earlier ⊢
    intro e he
    rcases List.mem_cons.mp he with rfl | he
    · exact whole
    · exact earlier e he

/-- While `send` takes everything, the client has the buffers one after the other, as the trace
of a session lists them. -/
theorem delivered_in_order (moves : List SendMove)
    (taken : Runs.Along step (fun _ a => ∀ who, a ≠ .send who none) .start moves)
    (idle : (moves.foldl step .start).mutex = none) :
    (moves.foldl step .start).client =
      sentBytes ((moves.foldl step .start).calls.reverse.map fun c => .send c.buf) := by
  have start : Delivers .start :=
    ⟨start_locked, fun _ h => absurd h List.not_mem_nil, fun _ _ h => absurd h List.not_mem_nil⟩
  have delivers := Runs.guarded_invariant (P := Delivers)
    (fun s a h taken => (step_moved s a).delivers h taken) _ start moves taken
  have whole := delivers.idle idle
  rw [delivers.locked.client, sentBytes, List.flatMap_map]
  apply List.flatMap_congr
  intro c hc
  exact whole c (List.mem_reverse.mp hc)

/-- No frame is torn exactly in the runs in which nothing is sent after one was cut. -/
theorem untorn_iff (moves : List SendMove) :
    Runs.Throughout step Untorn .start moves ↔
      Runs.Along step (fun s a => ¬ s.Tears a) .start moves := by
  apply Runs.throughout_iff_along (I := Locked)
  · intro s a h
    exact (step_moved s a).keeps_locked h
  · intro s a h untorn
    exact (step_moved s a).keeps_untorn h untorn
  · exact start_locked
  · exact start_untorn

end Moves

/-- The relay sends data, `send` fails after the first byte, and the receive thread answers a
request. -/
def cutAnswer : List SendMove :=
  [.call .relay [0xff, 0xff], .lock .relay, .send .relay (some 1), .send .relay none,
    .call .receive [tIac, tWill, tComPortOption], .lock .receive, .send .receive (some 3),
    .unlock .receive]

/-- The client takes the answer for the rest of the data. -/
theorem frame_torn :
    (cutAnswer.foldl step .start).client = [0xff, tIac, tWill, tComPortOption] ∧
      ¬ Runs.Throughout step Untorn .start cutAnswer := by
  refine ⟨by decide, ?_⟩
  intro untorn
  have last := (Runs.throughout_iff_prefix _ _).mp untorn cutAnswer (List.prefix_refl _)
  exact absurd last.last (by decide)

end SendState

end Rocom.Rfc2217
