import Rocom.Ota.InTurn
import Rocom.Ota.Turns

/-! The body of an upload on its way through `cgi_flash_upload`: what is passed to
`esp_ota_write`, the counters, and the end of the handle. -/
namespace Rocom.Ota

structure HttpRequest where
  contentLen : UInt32
  body : List UInt8
  whole : body.length = contentLen.toNat

/-- The result of a call, where `httpd_req_recv` gives how many bytes of the body it stores. -/
inductive BodyInput where
  | err (e : Int)
  | recv (count : Nat)
  | failed (e : RecvError)
deriving DecidableEq, Repr

namespace HttpCall

/-- The bytes that `esp_ota_write` is called with. -/
def passed : HttpCall → List UInt8
  | .otaWrite data _ => data
  | _ => []

def isWrite : HttpCall → Bool
  | .otaWrite _ _ => true
  | _ => false

def closes : HttpCall → Bool
  | .otaAbort | .otaEnd _ => true
  | _ => false

end HttpCall

/-- The body is handed out in its order. -/
def BodyInput.result (body : List UInt8) (u : HttpUpload) : BodyInput → HttpInput
  | .err e => .err e
  | .recv count => .recv (.data ((body.drop u.received.length).take count))
  | .failed e => .recv (.failed e)

/-- One end of the handle after its begin, and neither a write nor an end behind it. -/
def ClosedOnce (calls : List HttpCall) : Prop :=
  ∃ before close after, calls = before ++ close :: after ∧ close.closes = true ∧
    (∃ imageSize, .otaBegin imageSize espOk ∈ before) ∧ (∀ c ∈ before, c.closes = false) ∧
    ∀ c ∈ after, c.closes = false ∧ c.isWrite = false

namespace HttpUpload

def serve (body : List UInt8) (u : HttpUpload) (a : BodyInput) : HttpUpload :=
  u.step (a.result body u)

def passed (u : HttpUpload) : List UInt8 := u.calls.flatMap HttpCall.passed

def Opened (u : HttpUpload) : Prop := ∃ imageSize, .otaBegin imageSize espOk ∈ u.calls

/-- The handler goes on: all writes have succeeded, and what is received but not written is in its
buffer. -/
structure Running (q : HttpRequest) (u : HttpUpload) : Prop where
  live : u.Live
  counted : u.Counted
  contentLen : u.contentLen = q.contentLen
  total : u.Begun → u.total = q.contentLen
  unbegun : u.point = .begin → u.written = []
  received : u.received <+: q.body
  written : u.passed = u.written
  inHand : u.received = u.passed ++ u.inHand
  finishing : u.point = .finish ∨ u.point = .setBoot → u.remaining = 0
  unended : (∃ err, .otaEnd err ∈ u.calls) → u.point = .setBoot

structure Returned (q : HttpRequest) (u : HttpUpload) : Prop where
  returned : u.point = .returned
  passed : u.passed <+: q.body
  ended : (∃ err, .otaEnd err ∈ u.calls) → u.passed = q.body

theorem running_start (q : HttpRequest) (total remaining : UInt32) :
    (start q.contentLen total remaining).Running q where
  live := nofun
  counted := ⟨fun begun => absurd rfl begun.2, fun begun => absurd rfl begun.2⟩
  contentLen := rfl
  total begun := absurd rfl begun.2
  unbegun _ := rfl
  received := List.nil_prefix
  written := rfl
  inHand := rfl
  finishing := nofun
  unended := by
    rintro ⟨err, mem⟩
    exact absurd (List.mem_singleton.mp mem) nofun

variable {q : HttpRequest} {u v : HttpUpload}

theorem Running.passed (h : u.Running q) : u.passed <+: q.body := by
  refine List.IsPrefix.trans ?_ h.received
  rw [h.inHand]
  exact List.prefix_append _ _

theorem Running.complete (h : u.Running q) (done : u.point = .finish ∨ u.point = .setBoot) :
    u.passed = q.body := by
  have begun : u.Begun := by
    refine ⟨h.live, ?_⟩
    rcases done with at_finish | at_switch
    · exact at_finish ▸ nofun
    · exact at_switch ▸ nofun
  have rest := h.counted.rest begun
  rw [h.finishing done, h.contentLen, ← q.whole, ← h.written] at rest
  exact h.passed.eq_of_length rest

/-- The handler returns: at most the bytes in hand are passed once more. -/
theorem Running.returns (h : u.Running q) {new : List HttpCall} (calls : v.calls = u.calls ++ new)
    (returned : v.point = .returned) (more : new.flatMap HttpCall.passed <+: u.inHand)
    (ended : (∃ err, .otaEnd err ∈ new) → u.point = .finish) : v.Returned q := by
  have passed : v.passed = u.passed ++ new.flatMap HttpCall.passed := by
    rw [HttpUpload.passed, calls, List.flatMap_append]
    rfl
  have within : v.passed <+: q.body := by
    refine List.IsPrefix.trans ?_ h.received
    rw [passed, h.inHand]
    exact (List.prefix_append_right_inj _).mpr more
  refine ⟨returned, within, ?_⟩
  rintro ⟨err, mem⟩
  have done : u.point = .finish ∨ u.point = .setBoot := by
    rw [calls] at mem
    rcases List.mem_append.mp mem with old | new
    · exact .inr (h.unended ⟨err, old⟩)
    · exact .inl (ended ⟨err, new⟩)
  have whole := h.complete done
  have longer : q.body <+: v.passed := by
    rw [passed, whole]
    exact List.prefix_append _ _
  exact within.eq_of_length_le longer.length_le

/-- The handler goes on: the bytes in hand and what is received are what is passed and what is then
in hand. -/
theorem Running.goesOn (h : u.Running q) {new : List HttpCall} (calls : v.calls = u.calls ++ new)
    (now : v.Begun) (counted : v.Counted)
    (sizes : v.contentLen = q.contentLen ∧ v.total = q.contentLen)
    (received : u.received ++ new.flatMap HttpCall.received <+: q.body)
    (written : new.flatMap HttpCall.passed = new.flatMap HttpCall.stored)
    (inHand : u.inHand ++ new.flatMap HttpCall.received =
      new.flatMap HttpCall.passed ++ v.inHand)
    (finishing : v.point = .finish ∨ v.point = .setBoot → v.remaining = 0)
    (unended : ∀ err, .otaEnd err ∈ v.calls → v.point = .setBoot) : v.Running q := by
  have passed_now : v.passed = u.passed ++ new.flatMap HttpCall.passed := by
    rw [HttpUpload.passed, calls, List.flatMap_append]
    rfl
  have written_now : v.written = u.written ++ new.flatMap HttpCall.stored := by
    rw [HttpUpload.written, calls, List.flatMap_append]
    rfl
  have received_now : v.received = u.received ++ new.flatMap HttpCall.received := by
    rw [HttpUpload.received, calls, List.flatMap_append]
    rfl
  refine ⟨now.1, counted, sizes.1, fun _ => sizes.2, fun first => absurd first now.2, ?_, ?_,
    ?_, finishing, fun ended => ended.elim unended⟩
  · rw [received_now]
    exact received
  · rw [passed_now, written_now, h.written, written]
  · rw [received_now, passed_now, h.inHand, List.append_assoc, inHand, List.append_assoc]

/-- The lengths that a step inside the loop leaves as they are. -/
theorem Running.sizes (h : u.Running q) (begun : u.Begun) {remaining : UInt32}
    (counters : v.counters = ⟨u.contentLen, u.total, remaining⟩) :
    v.contentLen = q.contentLen ∧ v.total = q.contentLen :=
  ⟨(congrArg Counters.contentLen counters).trans h.contentLen,
    (congrArg Counters.total counters).trans (h.total begun)⟩

theorem begun_of {p : HttpPoint} (here : u.point = p) (going : p ≠ .returned ∧ p ≠ .begin) :
    u.Begun := by
  rw [Begun, Live, here]
  exact going

theorem Tested.begun (tested : v.Tested) : v.Begun := by
  rcases tested.at_loop with at_recv | at_finish
  · exact begun_of at_recv ⟨nofun, nofun⟩
  · exact begun_of at_finish ⟨nofun, nofun⟩

theorem prefix_take_drop {α : Type} {xs ys : List α} (h : xs <+: ys) (n m : Nat) :
    xs ++ ((ys.drop xs.length).take n).take m <+: ys := by
  obtain ⟨rest, rfl⟩ := h
  rw [List.drop_left, List.take_take, List.prefix_append_right_inj]
  exact List.take_prefix _ _

theorem tested_remaining (tested : v.Tested) (finish : v.point = .finish ∨ v.point = .setBoot) :
    v.remaining = 0 := by
  unfold Tested at tested
  split at tested
  · rcases finish with at_end | at_end
    · exact absurd (tested.symm.trans at_end) nofun
    · exact absurd (tested.symm.trans at_end) nofun
  · rename_i none_left
    exact UInt32.le_zero_iff.mp (UInt32.not_lt.mp none_left)

theorem serve_account (h : u.Running q) (b : BodyInput) :
    (u.serve q.body b).Running q ∨ (u.serve q.body b).Returned q := by
  have counted : (u.serve q.body b).Counted := step_counted h.counted h.unbegun (b.result q.body u)
  have turn := step_turn u (b.result q.body u)
  unfold serve at counted ⊢
  generalize bytes : b.result q.body u = a at turn counted ⊢
  generalize u.step a = v at turn counted ⊢
  have unended (later : u.point ≠ .setBoot) (err : Int) : .otaEnd err ∉ u.calls :=
    fun mem => later (h.unended ⟨err, mem⟩)
  cases turn with
  | stays => exact .inl h
  | refused before failed calls after =>
    exact .inr (h.returns calls after List.nil_prefix (by simp))
  | begun before calls counters after =>
    have none_in_hand : u.inHand = [] := by rw [inHand, before]
    have later := unended (by simp [before])
    left
    refine h.goesOn calls after.begun counted ⟨?_, ?_⟩ ?_ rfl ?_ (tested_remaining after) ?_
    · exact (congrArg Counters.contentLen counters).trans h.contentLen
    · exact (congrArg Counters.total counters).trans h.contentLen
    · simpa [HttpCall.received] using h.received
    · simp [none_in_hand, inHand_of_loop after.at_loop, HttpCall.received, HttpCall.passed]
    · simp [calls, later]
  | @received v before bytes' some_bytes calls counters after =>
    have begun := begun_of before (by simp)
    have none_in_hand : u.inHand = [] := by rw [inHand, before]
    have in_hand : v.inHand = bytes'.take u.recvSize.toNat := by rw [inHand, after]
    have later := unended (by simp [before])
    left
    refine h.goesOn calls (begun_of after (by simp)) counted (h.sizes begun counters) ?_ rfl ?_
      (by simp [after]) ?_
    · cases b with
      | recv count =>
        cases bytes
        simpa [HttpCall.received] using prefix_take_drop h.received count u.recvSize.toNat
      | err e => cases bytes
      | failed e => cases bytes
    · simp [none_in_hand, in_hand, HttpCall.received, HttpCall.passed]
    · simp [calls, later]
  | @waits v before e timeout calls counters after =>
    have begun := begun_of before (by simp)
    have none_in_hand : u.inHand = [] := by rw [inHand, before]
    have still_none : v.inHand = [] := by rw [inHand, after]
    have later := unended (by simp [before])
    left
    refine h.goesOn calls (begun_of after (by simp)) counted (h.sizes begun counters) ?_ rfl ?_
      (by simp [after]) ?_
    · simpa [HttpCall.received] using h.received
    · simp [none_in_hand, still_none, HttpCall.received, HttpCall.passed]
    · simp [calls, later]
  | aborted before got nothing calls after =>
    exact .inr (h.returns calls after List.nil_prefix (by simp))
  | @wrote v buff before calls counters after =>
    have begun := begun_of before (by simp)
    have in_hand : u.inHand = buff := by rw [inHand, before]
    have later := unended (by simp [before])
    left
    refine h.goesOn calls after.begun counted (h.sizes begun counters) ?_ rfl ?_
      (tested_remaining after) ?_
    · simpa [HttpCall.received] using h.received
    · simp [in_hand, inHand_of_loop after.at_loop, HttpCall.received, HttpCall.passed]
    · simp [calls, later]
  | @broken v buff before err failed calls after =>
    have in_hand : u.inHand = buff := by rw [inHand, before]
    refine .inr (h.returns calls after ?_ (by simp))
    simp [in_hand, HttpCall.passed]
  | invalid before failed calls after =>
    exact .inr (h.returns calls after List.nil_prefix fun _ => before)
  | @ended v before calls counters err after =>
    have begun := begun_of before (by simp)
    have none_in_hand : u.inHand = [] := by rw [inHand, before]
    have still_none : v.inHand = [] := by rw [inHand, after]
    left
    refine h.goesOn calls (begun_of after (by simp)) counted (h.sizes begun counters) ?_ rfl ?_
      ?_ fun _ _ => after
    · simpa [HttpCall.received] using h.received
    · simp [none_in_hand, still_none, HttpCall.received, HttpCall.passed]
    · intro _
      exact (congrArg Counters.remaining counters).trans (h.finishing (.inl before))
  | switched before result calls after =>
    exact .inr (h.returns calls after List.nil_prefix (by simp))

/-! ### The handle -/

/-- No handle was opened, or it is open, or it was closed once and is left alone. -/
inductive Hold (u : HttpUpload) : Prop
  | unopened (here : u.point = .begin ∨ u.point = .returned) (unopened : ¬ u.Opened)
      (unused : ∀ c ∈ u.calls, c.closes = false ∧ c.isWrite = false)
  | opened (here : u.point ≠ .begin ∧ u.point ≠ .setBoot ∧ u.point ≠ .returned)
      (opened : u.Opened) (unclosed : ∀ c ∈ u.calls, c.closes = false)
  | closed (here : u.point = .setBoot ∨ u.point = .returned) (once : ClosedOnce u.calls)

theorem opened_append {new : List HttpCall} (calls : v.calls = u.calls ++ new) (h : u.Opened) :
    v.Opened := by
  obtain ⟨imageSize, mem⟩ := h
  exact ⟨imageSize, calls ▸ List.mem_append_left _ mem⟩

theorem Hold.uses {new : List HttpCall} (calls : v.calls = u.calls ++ new) (opened : u.Opened)
    (unclosed : ∀ c ∈ u.calls, c.closes = false) (more : ∀ c ∈ new, c.closes = false)
    (here : v.point ≠ .begin ∧ v.point ≠ .setBoot ∧ v.point ≠ .returned) : v.Hold := by
  refine .opened here (opened_append calls opened) ?_
  rw [calls]
  exact List.forall_mem_append.mpr ⟨unclosed, more⟩

theorem Hold.ends (between : List HttpCall) {after : List HttpCall} {close : HttpCall}
    (calls : v.calls = u.calls ++ (between ++ close :: after)) (opened : u.Opened)
    (unclosed : ∀ c ∈ u.calls, c.closes = false) (more : ∀ c ∈ between, c.closes = false)
    (closes : close.closes = true) (rest : ∀ c ∈ after, c.closes = false ∧ c.isWrite = false)
    (here : v.point = .setBoot ∨ v.point = .returned) : v.Hold := by
  obtain ⟨imageSize, mem⟩ := opened
  refine .closed here ⟨u.calls ++ between, close, after, ?_, closes,
    ⟨imageSize, List.mem_append_left _ mem⟩, ?_, rest⟩
  · rw [calls, List.append_assoc]
  · exact List.forall_mem_append.mpr ⟨unclosed, more⟩

theorem closedOnce_append {calls new : List HttpCall} (h : ClosedOnce calls)
    (more : ∀ c ∈ new, c.closes = false ∧ c.isWrite = false) : ClosedOnce (calls ++ new) := by
  obtain ⟨before, close, after, rfl, closes, opened, unclosed, rest⟩ := h
  refine ⟨before, close, after ++ new, ?_, closes, opened, unclosed, ?_⟩
  · rw [List.append_assoc, List.cons_append]
  · exact List.forall_mem_append.mpr ⟨rest, more⟩

theorem Tested.inside (tested : v.Tested) :
    v.point ≠ .begin ∧ v.point ≠ .setBoot ∧ v.point ≠ .returned := by
  rcases tested.at_loop with here | here
  · rw [here]
    exact ⟨nofun, nofun, nofun⟩
  · rw [here]
    exact ⟨nofun, nofun, nofun⟩

/-- Between the begin and the end of a handle. -/
theorem Hold.inside (h : u.Hold) {p : HttpPoint} (here : u.point = p)
    (between : p ≠ .begin ∧ p ≠ .setBoot ∧ p ≠ .returned) :
    u.Opened ∧ ∀ c ∈ u.calls, c.closes = false := by
  subst here
  obtain ⟨first, last, live⟩ := between
  cases h with
  | unopened at_end => exact absurd at_end (not_or.mpr ⟨first, live⟩)
  | opened _ opened unclosed => exact ⟨opened, unclosed⟩
  | closed at_end => exact absurd at_end (not_or.mpr ⟨last, live⟩)

theorem step_hold (h : u.Hold) (a : HttpInput) : (u.step a).Hold := by
  have turn := step_turn u a
  generalize u.step a = v at turn ⊢
  cases turn with
  | stays => exact h
  | refused before failed calls after =>
    cases h with
    | unopened here unopened unused =>
      refine .unopened (.inr after) ?_ ?_
      · rintro ⟨imageSize, mem⟩
        rw [calls] at mem
        rcases List.mem_append.mp mem with old | new
        · exact unopened ⟨imageSize, old⟩
        · simp at new
          exact failed new.2.symm
      · rw [calls]
        refine List.forall_mem_append.mpr ⟨unused, ?_⟩
        simp [HttpCall.closes, HttpCall.isWrite]
    | opened here => exact absurd before here.1
    | closed here => simp [before] at here
  | begun before calls counters after =>
    cases h with
    | unopened here unopened unused =>
      refine .opened after.inside ⟨u.imageSize, by simp [calls]⟩ ?_
      rw [calls]
      refine List.forall_mem_append.mpr ⟨fun c mem => (unused c mem).1, ?_⟩
      simp [HttpCall.closes]
    | opened here => exact absurd before here.1
    | closed here => simp [before] at here
  | received before some_bytes calls counters after =>
    obtain ⟨opened, unclosed⟩ := h.inside before (by simp)
    refine .uses calls opened unclosed (by simp [HttpCall.closes]) ?_
    rw [after]
    exact ⟨nofun, nofun, nofun⟩
  | waits before timeout calls counters after =>
    obtain ⟨opened, unclosed⟩ := h.inside before (by simp)
    refine .uses calls opened unclosed (by simp [HttpCall.closes]) ?_
    rw [after]
    exact ⟨nofun, nofun, nofun⟩
  | aborted before got nothing calls after =>
    obtain ⟨opened, unclosed⟩ := h.inside before (by simp)
    exact .ends [.reqRecv u.recvSize got] calls opened unclosed
      (by simp [HttpCall.closes]) rfl (by simp [HttpCall.closes, HttpCall.isWrite]) (.inr after)
  | wrote before calls counters after =>
    obtain ⟨opened, unclosed⟩ := h.inside before (by simp)
    exact .uses calls opened unclosed (by simp [HttpCall.closes]) after.inside
  | @broken v buff before err failed calls after =>
    obtain ⟨opened, unclosed⟩ := h.inside before (by simp)
    exact .ends [.otaWrite buff err, .respSend (errorObject "Failed to write OTA")]
      calls opened unclosed (by simp [HttpCall.closes]) rfl nofun (.inr after)
  | invalid before failed calls after =>
    obtain ⟨opened, unclosed⟩ := h.inside before (by simp)
    exact .ends [] calls opened unclosed nofun rfl
      (by simp [HttpCall.closes, HttpCall.isWrite]) (.inr after)
  | ended before calls counters err after =>
    obtain ⟨opened, unclosed⟩ := h.inside before (by simp)
    exact .ends [] calls opened unclosed nofun rfl nofun (.inl after)
  | switched before result calls after =>
    cases h with
    | unopened here => simp [before] at here
    | opened here => exact absurd before here.2.1
    | closed here once =>
      refine .closed (.inr after) ?_
      rw [calls]
      exact closedOnce_append once (by simp [HttpCall.closes, HttpCall.isWrite])

theorem hold_start (contentLen total remaining : UInt32) :
    (start contentLen total remaining).Hold :=
  .unopened (.inl rfl) (by simp [Opened, start])
    (by simp [start, HttpCall.closes, HttpCall.isWrite])

theorem Hold.closed_once (h : u.Hold) (returned : u.point = .returned) (opened : u.Opened) :
    ClosedOnce u.calls := by
  cases h with
  | unopened _ unopened => exact absurd opened unopened
  | opened here => exact absurd returned here.2.2
  | closed _ once => exact once

theorem Hold.unused (h : u.Hold) (unopened : ¬ u.Opened) :
    ∀ c ∈ u.calls, c.closes = false ∧ c.isWrite = false := by
  cases h with
  | unopened _ _ unused => exact unused
  | opened _ opened => exact absurd opened unopened
  | closed _ once =>
    obtain ⟨before, close, after, calls, _, ⟨imageSize, mem⟩, _⟩ := once
    exact absurd ⟨imageSize, calls ▸ List.mem_append_left _ mem⟩ unopened

/-! ### A run -/

/-- The buffer that is written next leaves no wrap of `remaining`. -/
theorem Running.room (h : u.Running q) {buff : List UInt8} (writing : u.point = .write buff) :
    buff.length ≤ u.remaining.toNat := by
  have part := h.counted.inHand (begun_of writing (by simp))
  rwa [HttpUpload.inHand, writing] at part

theorem Running.counts_passed (h : u.Running q) (begun : u.Begun) :
    u.remaining ≤ u.total ∧ (u.total - u.remaining).toNat = u.passed.length := by
  have rest := h.counted.rest begun
  rw [h.contentLen, ← h.total begun, ← h.written] at rest
  have within : u.remaining ≤ u.total := UInt32.le_iff_toNat_le.mpr (by omega)
  refine ⟨within, ?_⟩
  rw [UInt32.toNat_sub_of_le _ _ within]
  omega

theorem run_account (q : HttpRequest) (total remaining : UInt32) (as : List BodyInput) :
    (as.foldl (serve q.body) (start q.contentLen total remaining)).Running q ∨
      (as.foldl (serve q.body) (start q.contentLen total remaining)).Returned q := by
  refine Runs.invariant (P := fun u : HttpUpload => u.Running q ∨ u.Returned q) ?_ _
    (.inl (running_start q total remaining)) as
  intro u b h
  rcases h with running | returned
  · exact serve_account running b
  · have same : u.serve q.body b = u := by
      cases b <;> simp only [serve, BodyInput.result, step, returned.returned]
    exact .inr (same.symm ▸ returned)

/-- For every request and all results of the calls: what is passed to `esp_ota_write` is a prefix
of the body, and all of it where `esp_ota_end` is called; `remaining` does not wrap and counts what
is not written; and the handle is closed once. -/
theorem body_carried (q : HttpRequest) (total remaining : UInt32) (as : List BodyInput) :
    let u := as.foldl (serve q.body) (start q.contentLen total remaining)
    u.passed <+: q.body ∧
      ((∃ err, .otaEnd err ∈ u.calls) → u.passed = q.body) ∧
      (∀ buff, u.point = .write buff → buff.length ≤ u.remaining.toNat) ∧
      (u.point = .recv ∨ u.point = .finish →
        u.remaining ≤ u.total ∧ (u.total - u.remaining).toNat = u.passed.length) ∧
      (u.point = .returned → u.Opened → ClosedOnce u.calls) ∧
      (¬ u.Opened → ∀ c ∈ u.calls, c.closes = false ∧ c.isWrite = false) := by
  intro u
  have hold : u.Hold := Runs.invariant (P := Hold) (fun _ b h => step_hold h _) _
    (hold_start q.contentLen total remaining) as
  have account : u.Running q ∨ u.Returned q := run_account q total remaining as
  have running (live : u.point ≠ .returned) : u.Running q :=
    account.resolve_right fun ended => live ended.returned
  refine ⟨?_, ?_, ?_, ?_, hold.closed_once, hold.unused⟩
  · rcases account with running | returned
    · exact running.passed
    · exact returned.passed
  · rcases account with running | returned
    · exact fun ended => running.complete (.inr (running.unended ended))
    · exact returned.ended
  · intro buff writing
    exact (running (by simp [writing])).room writing
  · intro looping
    have begun : u.Begun := by
      rcases looping with here | here
      · exact begun_of here (by simp)
      · exact begun_of here (by simp)
    exact (running begun.1).counts_passed begun

end HttpUpload

end Rocom.Ota
