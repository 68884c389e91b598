import Rocom.Lib.Runs
import Rocom.Ota.Turns

/-! What `cgi_flash_upload` answers, next to what its calls returned. -/
namespace Rocom.Ota

/-- The call returned what the handler goes on with. -/
def HttpCall.Succeeded : HttpCall → Prop
  | .otaBegin _ err | .otaWrite _ err | .otaEnd err | .setBootPartition err => err = espOk
  | .reqRecv _ (.data bytes) => bytes ≠ []
  | .reqRecv _ (.failed e) => e.code = httpdSockErrTimeout
  | .respSetType _ | .respSetHdr _ _ | .otaAbort | .respSend _ => True

def HttpCall.response : HttpCall → Option String
  | .respSend msg => some msg
  | _ => none

def HttpCall.isSwitch : HttpCall → Bool
  | .setBootPartition _ => true
  | _ => false

theorem success_ne_error (text : String) : success ≠ errorObject text := by
  intro same
  have starts := congrArg (fun s => s.toList.take 3) same
  simp [success, errorObject] at starts

/-- A call before the switch that succeeded, and no answer. -/
structure HttpCall.Smooth (c : HttpCall) : Prop where
  succeeded : c.Succeeded
  silent : c.response = none
  stays : c.isSwitch = false

namespace HttpUpload

def responses (u : HttpUpload) : List String := u.calls.filterMap HttpCall.response

def AllSucceeded (u : HttpUpload) : Prop := ∀ c ∈ u.calls, c.Succeeded

/-- A success is answered exactly when every call succeeded, and an error object otherwise. -/
structure Reports (u : HttpUpload) : Prop where
  success : u.responses = [success] ↔ u.AllSucceeded
  failure : ¬ u.AllSucceeded → ∃ text, u.responses = [errorObject text]

/-- What the handler has come to: it goes on, it has answered an error before the switch, or a
success after it. -/
inductive Stage (u : HttpUpload) : Prop
  | running (live : u.point ≠ .returned) (smooth : ∀ c ∈ u.calls, c.Smooth)
      (ended : u.point = .setBoot → u.err = espOk)
  | failed (returned : u.point = .returned) (before after : List HttpCall) (text : String)
      (calls : u.calls = before ++ after) (smooth : ∀ c ∈ before, c.Smooth)
      (failure : ∃ c ∈ after, ¬ c.Succeeded) (unswitched : ∀ c ∈ after, c.isSwitch = false)
      (answer : after.filterMap HttpCall.response = [errorObject text])
  | switched (returned : u.point = .returned) (before : List HttpCall) (result : Int)
      (calls : u.calls = before ++ [.setBootPartition result, .respSend Ota.success])
      (smooth : ∀ c ∈ before, c.Smooth)

theorem silent_of_smooth {calls : List HttpCall} (smooth : ∀ c ∈ calls, c.Smooth) :
    calls.filterMap HttpCall.response = [] :=
  List.filterMap_eq_nil_iff.mpr fun c mem => (smooth c mem).silent

variable {u : HttpUpload}

theorem Stage.goesOn {v : HttpUpload} {new : List HttpCall} (smooth : ∀ c ∈ u.calls, c.Smooth)
    (calls : v.calls = u.calls ++ new) (more : ∀ c ∈ new, c.Smooth) (live : v.point ≠ .returned)
    (ended : v.point = .setBoot → v.err = espOk) : v.Stage := by
  refine .running live ?_ ended
  rw [calls]
  exact List.forall_mem_append.mpr ⟨smooth, more⟩

theorem Stage.loops {v : HttpUpload} {new : List HttpCall} (smooth : ∀ c ∈ u.calls, c.Smooth)
    (calls : v.calls = u.calls ++ new) (more : ∀ c ∈ new, c.Smooth) (tested : v.Tested) :
    v.Stage := by
  refine .goesOn smooth calls more ?_ ?_
  · rcases tested.at_loop with at_recv | at_finish
    · exact at_recv ▸ nofun
    · exact at_finish ▸ nofun
  · intro at_switch
    rcases tested.at_loop with at_recv | at_finish
    · exact absurd (at_recv.symm.trans at_switch) nofun
    · exact absurd (at_finish.symm.trans at_switch) nofun

theorem turn_stage {a : HttpInput} {v : HttpUpload} (turn : Turn u a v)
    (smooth : ∀ c ∈ u.calls, c.Smooth) (live : u.point ≠ .returned)
    (ended : u.point = .setBoot → u.err = espOk) : v.Stage := by
  cases turn with
  | stays => exact .running live smooth ended
  | refused _ failed calls after =>
    exact .failed after u.calls _ _ calls smooth ⟨_, List.mem_cons_self, failed⟩
      (by simp [HttpCall.isSwitch]) rfl
  | begun _ calls _ after =>
    refine .loops smooth calls ?_ after
    simp only [List.forall_mem_cons]
    exact ⟨⟨rfl, rfl, rfl⟩, ⟨trivial, rfl, rfl⟩, nofun⟩
  | received _ some_bytes calls _ after =>
    exact .goesOn smooth calls (List.forall_mem_singleton.mpr ⟨some_bytes, rfl, rfl⟩)
      (after ▸ nofun) fun at_switch => absurd (after.symm.trans at_switch) nofun
  | waits _ timeout calls _ after =>
    exact .goesOn smooth calls (List.forall_mem_singleton.mpr ⟨timeout, rfl, rfl⟩)
      (after ▸ nofun) fun at_switch => absurd (after.symm.trans at_switch) nofun
  | aborted _ got nothing calls after =>
    have failed : ¬ (HttpCall.reqRecv u.recvSize got).Succeeded := by
      rcases nothing with rfl | ⟨e, rfl, other⟩
      · exact fun some_bytes => some_bytes rfl
      · exact other
    exact .failed after u.calls _ _ calls smooth ⟨_, List.mem_cons_self, failed⟩
      (by simp [HttpCall.isSwitch]) rfl
  | wrote _ calls _ after =>
    exact .loops smooth calls (List.forall_mem_singleton.mpr ⟨rfl, rfl, rfl⟩) after
  | broken _ failed calls after =>
    exact .failed after u.calls _ _ calls smooth ⟨_, List.mem_cons_self, failed⟩
      (by simp [HttpCall.isSwitch]) rfl
  | invalid _ failed calls after =>
    exact .failed after u.calls _ _ calls smooth ⟨_, List.mem_cons_self, failed⟩
      (by simp [HttpCall.isSwitch]) rfl
  | ended _ calls _ err after =>
    exact .goesOn smooth calls (List.forall_mem_singleton.mpr ⟨rfl, rfl, rfl⟩) (after ▸ nofun)
      fun _ => err
  | switched before result calls after =>
    rw [if_neg (not_not.mpr (ended before))] at calls
    exact .switched after u.calls result calls smooth

theorem step_stage (h : u.Stage) (a : HttpInput) : (u.step a).Stage := by
  have done (returned : u.point = .returned) : u.step a = u := by
    cases a <;> simp only [step, returned]
  cases h with
  | running live smooth ended => exact turn_stage (step_turn u a) smooth live ended
  | failed returned before after text calls smooth failure unswitched answer =>
    rw [done returned]
    exact .failed returned before after text calls smooth failure unswitched answer
  | switched returned before result calls smooth =>
    rw [done returned]
    exact .switched returned before result calls smooth

theorem stage_start (contentLen total remaining : UInt32) :
    (start contentLen total remaining).Stage :=
  .running nofun (List.forall_mem_singleton.mpr ⟨trivial, rfl, rfl⟩) nofun

def Switched (u : HttpUpload) : Prop :=
  ∀ result, .setBootPartition result ∈ u.calls → result = espOk

theorem switched_of_calls {before : List HttpCall} {result : Int} {msg : String}
    (calls : u.calls = before ++ [.setBootPartition result, .respSend msg]) :
    u.Switched ↔ (∀ r, .setBootPartition r ∈ before → r = espOk) ∧ result = espOk := by
  rw [Switched, calls]
  constructor
  · intro all
    exact ⟨fun r mem => all r (List.mem_append_left _ mem), all result (by simp)⟩
  · rintro ⟨earlier, ok⟩ r mem
    rcases List.mem_append.mp mem with mem | mem
    · exact earlier r mem
    · obtain rfl : r = result := by simpa using mem
      exact ok

theorem reports_of_failed {before after : List HttpCall} {text : String}
    (calls : u.calls = before ++ after) (smooth : ∀ c ∈ before, c.Smooth)
    (failure : ∃ c ∈ after, ¬ c.Succeeded)
    (answer : after.filterMap HttpCall.response = [errorObject text]) : u.Reports := by
  have responses : u.responses = [errorObject text] := by
    rw [HttpUpload.responses, calls, List.filterMap_append, silent_of_smooth smooth, answer]
    rfl
  have some_failed : ¬ u.AllSucceeded := by
    intro all
    obtain ⟨c, mem, failed⟩ := failure
    exact failed (all c (calls ▸ List.mem_append_right _ mem))
  refine ⟨iff_of_false ?_ some_failed, fun _ => ⟨text, responses⟩⟩
  rw [responses]
  exact fun same => success_ne_error text (List.singleton_inj.mp same).symm

theorem reports_of_switched {before : List HttpCall} {result : Int}
    (calls : u.calls = before ++ [.setBootPartition result, .respSend Ota.success])
    (smooth : ∀ c ∈ before, c.Smooth) : u.Reports ↔ result = espOk := by
  have responses : u.responses = [Ota.success] := by
    rw [HttpUpload.responses, calls, List.filterMap_append, silent_of_smooth smooth]
    rfl
  have succeeded : u.AllSucceeded ↔ result = espOk := by
    rw [AllSucceeded, calls]
    constructor
    · intro all
      exact all (.setBootPartition result) (by simp)
    · intro ok
      refine List.forall_mem_append.mpr ⟨fun c mem => (smooth c mem).succeeded, ?_⟩
      simp only [List.forall_mem_cons]
      exact ⟨ok, trivial, nofun⟩
  rw [← succeeded]
  constructor
  · intro reports
    exact reports.success.mp responses
  · intro all
    exact ⟨iff_of_true responses all, fun some_failed => absurd all some_failed⟩

/-- A handler that has returned is honest unless the switch failed. -/
theorem Stage.reports_iff (h : u.Stage) (returned : u.point = .returned) :
    u.Reports ↔ u.Switched := by
  have unswitched {before : List HttpCall} (smooth : ∀ c ∈ before, c.Smooth) (r : Int) :
      .setBootPartition r ∉ before := fun mem => nomatch (smooth _ mem).stays
  cases h with
  | running live _ _ => exact absurd returned live
  | failed _ before after text calls smooth failure none_switched answer =>
    refine iff_of_true (reports_of_failed calls smooth failure answer) fun r mem => ?_
    rw [calls] at mem
    rcases List.mem_append.mp mem with mem | mem
    · exact absurd mem (unswitched smooth r)
    · exact nomatch none_switched _ mem
  | switched _ before result calls smooth =>
    rw [reports_of_switched calls smooth, switched_of_calls calls]
    exact (and_iff_right fun r mem => absurd mem (unswitched smooth r)).symm

/-- `esp_ota_set_boot_partition` succeeds if it is the call of the step. -/
def SwitchSucceeds (u : HttpUpload) : HttpInput → Prop
  | .err result => u.point = .setBoot → result = espOk
  | .recv _ => True

theorem switched_append {v : HttpUpload} {new : List HttpCall} (calls : v.calls = u.calls ++ new)
    (unswitched : ∀ c ∈ new, c.isSwitch = false) : v.Switched ↔ u.Switched := by
  refine forall_congr' fun result => ?_
  rw [calls, List.mem_append, or_iff_left]
  intro mem
  exact nomatch unswitched _ mem

theorem turn_switched {a : HttpInput} {v : HttpUpload} (turn : Turn u a v)
    (elsewhere : u.point ≠ .setBoot) : v.Switched ↔ u.Switched := by
  cases turn with
  | stays => exact Iff.rfl
  | refused _ _ calls _ | begun _ calls _ _ | received _ _ calls _ _ | waits _ _ calls _ _
  | aborted _ _ _ calls _ | wrote _ calls _ _ | broken _ _ calls _ | invalid _ _ calls _
  | ended _ calls _ _ _ => exact switched_append calls (by simp [HttpCall.isSwitch])
  | switched before => exact absurd before elsewhere

theorem setBootPartition_switched (u : HttpUpload) (result : Int) :
    (u.setBootPartition result).Switched ↔ u.Switched ∧ result = espOk := by
  apply switched_of_calls
  rw [setBootPartition_eq]
  exact List.append_assoc _ _ _

theorem step_switched (u : HttpUpload) (a : HttpInput) :
    (u.step a).Switched ↔ u.Switched ∧ u.SwitchSucceeds a := by
  by_cases before : u.point = .setBoot
  · cases a with
    | err result =>
      have call : u.step (.err result) = u.setBootPartition result := by
        simp only [step, before]
      rw [call, setBootPartition_switched]
      exact and_congr_right fun _ => ⟨fun ok _ => ok, fun ok => ok before⟩
    | recv r =>
      have idle : u.step (.recv r) = u := by simp only [step, before]
      rw [idle]
      exact (and_iff_left trivial).symm
  · have free : u.SwitchSucceeds a := by
      cases a with
      | err result => exact fun at_switch => absurd at_switch before
      | recv r => trivial
    rw [turn_switched (step_turn u a) before]
    exact (and_iff_left free).symm

theorem run_switched (u : HttpUpload) (as : List HttpInput) :
    (as.foldl step u).Switched ↔ u.Switched ∧ Runs.Along step SwitchSucceeds u as := by
  induction as generalizing u with
  | nil => exact (and_iff_left trivial).symm
  | cons a as ih => rw [List.foldl_cons, ih, step_switched, Runs.Along, and_assoc]

/-- Whatever the request and the calls, the answer is right exactly when
`esp_ota_set_boot_partition` succeeds or is not called. -/
theorem upload_reports_iff (contentLen total remaining : UInt32) (as : List HttpInput)
    (returned : (as.foldl step (start contentLen total remaining)).point = .returned) :
    (as.foldl step (start contentLen total remaining)).Reports ↔
      Runs.Along step SwitchSucceeds (start contentLen total remaining) as := by
  have stage := Runs.invariant (P := Stage) (fun _ a h => step_stage h a) _
    (stage_start contentLen total remaining) as
  have none : (start contentLen total remaining).Switched := by simp [Switched, start]
  rw [stage.reports_iff returned, run_switched]
  exact and_iff_right none

/-- One byte is uploaded and written, and the switch returns `result`. -/
def oneByte (result : Int) : List HttpInput :=
  [.err espOk, .recv (.data [0x41]), .err espOk, .err espOk, .err result]

theorem upload_reports_iff_oneByte :
    ((oneByte espOk).foldl step (start 1 0 0)).Reports ↔
      Runs.Along step SwitchSucceeds (start 1 0 0) (oneByte espOk) :=
  upload_reports_iff 1 0 0 (oneByte espOk) (by decide)

/-- ESP_ERR_OTA_VALIDATE_FAILED of `esp_ota_set_boot_partition` is answered as a success. -/
theorem failed_switch_reported : ¬ ((oneByte 0x1503).foldl step (start 1 0 0)).Reports := by
  intro reports
  have answered : ((oneByte 0x1503).foldl step (start 1 0 0)).responses = [Ota.success] := by decide
  have failed : HttpCall.Succeeded (.setBootPartition 0x1503) :=
    reports.success.mp answered _ (by decide)
  cases failed

end HttpUpload

end Rocom.Ota
