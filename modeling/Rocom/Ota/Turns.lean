import Rocom.Ota.Http

/-! What one step of `cgi_flash_upload` can do: its calls with their results, the counters, and the
call that is next. -/
namespace Rocom.Ota

def success : String := "\x7b\"success\": true\x7d"

def errorObject (text : String) : String := "\x7b\"error\": \"" ++ text ++ "\"\x7d"

/-- `content_len`, `total` and `remaining`. -/
structure Counters where
  contentLen : UInt32
  total : UInt32
  remaining : UInt32

namespace HttpUpload

def counters (u : HttpUpload) : Counters := ⟨u.contentLen, u.total, u.remaining⟩

/-- The condition of the loop has been tested. -/
def Tested (u : HttpUpload) : Prop := u.point = if 0 < u.remaining then .recv else .finish

/-- A step from `u` to `v` with the result that its call gives. -/
inductive Turn (u : HttpUpload) : HttpInput → HttpUpload → Prop
  | stays (a : HttpInput) : Turn u a u
  | refused {v : HttpUpload} (before : u.point = .begin) {err : Int} (failed : err ≠ espOk)
      (calls : v.calls = u.calls ++
        [.otaBegin u.imageSize err, .respSend (errorObject "Failed to begin the update")])
      (after : v.point = .returned) : Turn u (.err err) v
  | begun {v : HttpUpload} (before : u.point = .begin)
      (calls : v.calls = u.calls ++
        [.otaBegin u.imageSize espOk, .respSetHdr "Connection" "close"])
      (counters : v.counters = ⟨u.contentLen, u.contentLen, u.contentLen⟩) (after : v.Tested) :
      Turn u (.err espOk) v
  | received {v : HttpUpload} (before : u.point = .recv) {bytes : List UInt8}
      (some_bytes : bytes.take u.recvSize.toNat ≠ [])
      (calls : v.calls = u.calls ++
        [.reqRecv u.recvSize (.data (bytes.take u.recvSize.toNat))])
      (counters : v.counters = u.counters)
      (after : v.point = .write (bytes.take u.recvSize.toNat)) : Turn u (.recv (.data bytes)) v
  | waits {v : HttpUpload} (before : u.point = .recv) {e : RecvError}
      (timeout : e.code = httpdSockErrTimeout)
      (calls : v.calls = u.calls ++ [.reqRecv u.recvSize (.failed e)])
      (counters : v.counters = u.counters) (after : v.point = .recv) : Turn u (.recv (.failed e)) v
  | aborted {v : HttpUpload} (before : u.point = .recv) {r : HttpRecv} (got : HttpRecv)
      (nothing : got = .data [] ∨ ∃ e, got = .failed e ∧ e.code ≠ httpdSockErrTimeout)
      (calls : v.calls = u.calls ++ [.reqRecv u.recvSize got, .otaAbort,
        .respSend (errorObject "Failed to receive file")])
      (after : v.point = .returned) : Turn u (.recv r) v
  | wrote {v : HttpUpload} {buff : List UInt8} (before : u.point = .write buff)
      (calls : v.calls = u.calls ++ [.otaWrite buff espOk])
      (counters : v.counters =
        ⟨u.contentLen, u.total, u.remaining - UInt32.ofNat buff.length⟩)
      (after : v.Tested) : Turn u (.err espOk) v
  | broken {v : HttpUpload} {buff : List UInt8} (before : u.point = .write buff) {err : Int}
      (failed : err ≠ espOk)
      (calls : v.calls = u.calls ++
        [.otaWrite buff err, .respSend (errorObject "Failed to write OTA"), .otaAbort])
      (after : v.point = .returned) : Turn u (.err err) v
  | invalid {v : HttpUpload} (before : u.point = .finish) {err : Int} (failed : err ≠ espOk)
      (calls : v.calls = u.calls ++
        [.otaEnd err, .respSend (errorObject "Failed to complete OTA")])
      (after : v.point = .returned) : Turn u (.err err) v
  | ended {v : HttpUpload} (before : u.point = .finish)
      (calls : v.calls = u.calls ++ [.otaEnd espOk]) (counters : v.counters = u.counters)
      (err : v.err = espOk) (after : v.point = .setBoot) : Turn u (.err espOk) v
  | switched {v : HttpUpload} (before : u.point = .setBoot) (result : Int)
      (calls : v.calls = u.calls ++ [.setBootPartition result,
        .respSend (if u.err ≠ espOk then errorObject "Failed to set new boot partition"
          else success)])
      (after : v.point = .returned) : Turn u (.err result) v

variable {u : HttpUpload}

theorem otaBegin_turn (before : u.point = .begin) (err : Int) :
    Turn u (.err err) (u.otaBegin err) := by
  by_cases ok : err = espOk
  · subst ok
    exact .begun before (List.append_assoc _ _ _) rfl rfl
  · have fails : u.otaBegin err = ({ u.log (.otaBegin u.imageSize err) with err := err }).respond
        (errorObject "Failed to begin the update") := if_pos ok
    rw [fails]
    exact .refused before ok (List.append_assoc _ _ _) rfl

theorem recvFailed_calls {v : HttpUpload} {c : HttpCall} (calls : v.calls = u.calls ++ [c]) :
    v.recvFailed.calls = u.calls ++
      [c, .otaAbort, .respSend (errorObject "Failed to receive file")] := by
  simp only [recvFailed, respond, log, calls, List.append_assoc, List.cons_append, List.nil_append]
  rfl

theorem reqRecv_turn (before : u.point = .recv) (r : HttpRecv) :
    Turn u (.recv r) (u.reqRecv r) := by
  cases r with
  | data bytes =>
    unfold reqRecv
    dsimp only
    split
    · rename_i nothing
      exact .aborted before _ (.inl (congrArg HttpRecv.data nothing)) (recvFailed_calls rfl) rfl
    · rename_i some_bytes
      exact .received before some_bytes rfl rfl rfl
  | failed e =>
    unfold reqRecv
    dsimp only
    split
    · rename_i timeout
      exact .waits before timeout rfl rfl before
    · rename_i failed
      exact .aborted before _ (.inr ⟨e, rfl, failed⟩) (recvFailed_calls rfl) rfl

theorem otaWrite_turn {buff : List UInt8} (before : u.point = .write buff) (err : Int) :
    Turn u (.err err) (u.otaWrite buff err) := by
  by_cases ok : err = espOk
  · subst ok
    exact .wrote before rfl rfl rfl
  · have fails : u.otaWrite buff err = (({ u.log (.otaWrite buff err) with err := err }).respond
        (errorObject "Failed to write OTA")).log .otaAbort := if_pos ok
    rw [fails]
    refine .broken before ok ?_ rfl
    simp only [respond, log, List.append_assoc, List.cons_append, List.nil_append]

theorem otaEnd_turn (before : u.point = .finish) (err : Int) :
    Turn u (.err err) (u.otaEnd err) := by
  by_cases ok : err = espOk
  · subst ok
    exact .ended before rfl rfl rfl rfl
  · have fails : u.otaEnd err = ({ u.log (.otaEnd err) with err := err }).respond
        (errorObject "Failed to complete OTA") := if_pos ok
    rw [fails]
    exact .invalid before ok (List.append_assoc _ _ _) rfl

theorem setBootPartition_eq (u : HttpUpload) (result : Int) :
    u.setBootPartition result = (u.log (.setBootPartition result)).respond
      (if u.err ≠ espOk then errorObject "Failed to set new boot partition" else success) := by
  have kept : (u.log (.setBootPartition result)).err = u.err := rfl
  unfold setBootPartition
  dsimp only
  rw [kept]
  split <;> rfl

theorem setBootPartition_turn (before : u.point = .setBoot) (result : Int) :
    Turn u (.err result) (u.setBootPartition result) := by
  rw [setBootPartition_eq]
  exact .switched before result (List.append_assoc _ _ _) rfl

theorem step_turn (u : HttpUpload) (a : HttpInput) : Turn u a (u.step a) := by
  cases a with
  | err e =>
    simp only [step]
    cases before : u.point with
    | begin => exact otaBegin_turn before e
    | write buff => exact otaWrite_turn before e
    | finish => exact otaEnd_turn before e
    | setBoot => exact setBootPartition_turn before e
    | recv | returned => exact .stays _
  | recv r =>
    simp only [step]
    cases before : u.point with
    | recv => exact reqRecv_turn before r
    | begin | write | finish | setBoot | returned => exact .stays _

theorem Tested.at_loop (h : u.Tested) : u.point = .recv ∨ u.point = .finish := by
  rw [Tested] at h
  rw [h]
  split
  · exact .inl rfl
  · exact .inr rfl

end HttpUpload

end Rocom.Ota
