import Rocom.Lib.Runs
import Rocom.Ota.Uploads

/-! What the boot partition holds when one of two uploads switches to it. -/
namespace Rocom.Ota

open Tftp

/-- A call that neither gets nor stores a byte. -/
structure HttpCall.Quiet (c : HttpCall) : Prop where
  op : ∀ offs, c.op offs = none
  received : c.received = []
  stored : c.stored = []
  switches : c ≠ .setBootPartition espOk

namespace HttpUpload

/-- What one step of the handler does, with its calls. -/
inductive Move (u v : HttpUpload) (new : List HttpCall) : Prop
  | quiet (silent : ∀ c ∈ new, c.Quiet)
      (next : v.point = u.point ∨ v.point = .returned ∨ u.point = .finish ∧ v.point = .setBoot)
  | begins (before : u.point = .begin)
      (calls : new = [.otaBegin u.imageSize espOk, .respSetHdr "Connection" "close"])
      (next : v.point = .recv ∨ v.point = .finish)
  | receives (size : UInt32) (buff : List UInt8) (before : u.point = .recv)
      (calls : new = [.reqRecv size (.data buff)]) (next : v.point = .write buff)
  | writes (buff : List UInt8) (before : u.point = .write buff)
      (calls : new = [.otaWrite buff espOk]) (next : v.point = .recv ∨ v.point = .finish)
  | switches (result : Int) (msg : String) (before : u.point = .setBoot)
      (calls : new = [.setBootPartition result, .respSend msg]) (next : v.point = .returned)

theorem loop_point (u : HttpUpload) : u.loop.point = .recv ∨ u.loop.point = .finish := by
  unfold loop
  dsimp only
  split
  · exact Or.inl rfl
  · exact Or.inr rfl

theorem respSend_quiet (msg : String) : (HttpCall.respSend msg).Quiet :=
  ⟨fun _ => rfl, rfl, rfl, nofun⟩

theorem quiet_responds {c : HttpCall} (quiet : c.Quiet) (msg : String) :
    ∀ d ∈ [c, .respSend msg], d.Quiet :=
  List.forall_mem_cons.mpr ⟨quiet, List.forall_mem_singleton.mpr (respSend_quiet msg)⟩

theorem otaAbort_quiet : HttpCall.otaAbort.Quiet := ⟨fun _ => rfl, rfl, rfl, nofun⟩

theorem reqRecv_quiet (size : UInt32) {r : HttpRecv}
    (nothing : ∀ bytes, r = .data bytes → bytes = []) :
    (HttpCall.reqRecv size r).Quiet := by
  refine ⟨fun _ => rfl, ?_, rfl, nofun⟩
  cases r with
  | data bytes => exact nothing bytes rfl
  | failed e => rfl

theorem otaEnd_quiet (err : Int) : (HttpCall.otaEnd err).Quiet := ⟨fun _ => rfl, rfl, rfl, nofun⟩

theorem otaBegin_quiet (imageSize : UInt32) {err : Int} (failed : err ≠ espOk) :
    (HttpCall.otaBegin imageSize err).Quiet := ⟨fun _ => if_neg failed, rfl, rfl, nofun⟩

theorem otaWrite_quiet (data : List UInt8) {err : Int} (failed : err ≠ espOk) :
    (HttpCall.otaWrite data err).Quiet := ⟨fun _ => if_neg failed, rfl, if_neg failed, nofun⟩

variable {u : HttpUpload}

/-- The calls of a step, and the move that it is. -/
def MovesTo (u v : HttpUpload) : Prop := ∃ new, v.calls = u.calls ++ new ∧ Move u v new

theorem stays : MovesTo u u := ⟨[], (List.append_nil _).symm, .quiet nofun (Or.inl rfl)⟩

theorem otaBegin_moves (before : u.point = .begin) (err : Int) : MovesTo u (u.otaBegin err) := by
  unfold otaBegin
  cases ok : decide (err = espOk) with
  | true =>
    obtain rfl := of_decide_eq_true ok
    exact ⟨_, List.append_assoc _ _ _, .begins before rfl (loop_point _)⟩
  | false =>
    have failed := of_decide_eq_false ok
    simp only [failed, ne_eq, not_false_eq_true, if_true]
    refine ⟨_, List.append_assoc _ _ _, .quiet ?_ (Or.inr (Or.inl rfl))⟩
    exact quiet_responds (otaBegin_quiet _ failed) _

theorem recvFailed_moves {v : HttpUpload} {c : HttpCall} (quiet : c.Quiet)
    (calls : v.calls = u.calls ++ [c]) : MovesTo u v.recvFailed := by
  refine ⟨[c, .otaAbort, .respSend "\x7b\"error\": \"Failed to receive file\"\x7d"], ?_,
    .quiet ?_ (Or.inr (Or.inl rfl))⟩
  · simp only [recvFailed, respond, log, calls, List.append_assoc, List.cons_append, List.nil_append]
  · simp only [List.forall_mem_cons]
    exact ⟨quiet, otaAbort_quiet, respSend_quiet _, nofun⟩

theorem reqRecv_moves (before : u.point = .recv) (r : HttpRecv) : MovesTo u (u.reqRecv r) := by
  cases r with
  | data bytes =>
    unfold reqRecv
    dsimp only
    split
    · rename_i nothing
      exact recvFailed_moves (reqRecv_quiet _ fun _ same => HttpRecv.data.inj same ▸ nothing) rfl
    · exact ⟨_, rfl, .receives _ _ before rfl rfl⟩
  | failed e =>
    have quiet : (HttpCall.reqRecv u.recvSize (.failed e)).Quiet := reqRecv_quiet _ nofun
    unfold reqRecv
    dsimp only
    split
    · exact ⟨_, rfl, .quiet (List.forall_mem_singleton.mpr quiet) (Or.inl rfl)⟩
    · exact recvFailed_moves quiet rfl

theorem otaWrite_moves {buff : List UInt8} (before : u.point = .write buff) (err : Int) :
    MovesTo u (u.otaWrite buff err) := by
  unfold otaWrite
  cases ok : decide (err = espOk) with
  | true =>
    obtain rfl := of_decide_eq_true ok
    exact ⟨_, rfl, .writes buff before rfl (loop_point _)⟩
  | false =>
    have failed := of_decide_eq_false ok
    simp only [failed, ne_eq, not_false_eq_true, if_true]
    refine ⟨[.otaWrite buff err, .respSend "\x7b\"error\": \"Failed to write OTA\"\x7d", .otaAbort],
      ?_, .quiet ?_ (Or.inr (Or.inl rfl))⟩
    · simp only [respond, log, List.append_assoc, List.cons_append, List.nil_append]
    · simp only [List.forall_mem_cons]
      exact ⟨otaWrite_quiet buff failed, respSend_quiet _, otaAbort_quiet, nofun⟩

theorem otaEnd_moves (before : u.point = .finish) (err : Int) : MovesTo u (u.otaEnd err) := by
  unfold otaEnd
  dsimp only
  split
  · refine ⟨_, List.append_assoc _ _ _, .quiet ?_ (Or.inr (Or.inl rfl))⟩
    exact quiet_responds (otaEnd_quiet err) _
  · exact ⟨_, rfl, .quiet (List.forall_mem_singleton.mpr (otaEnd_quiet err))
      (Or.inr (Or.inr ⟨before, rfl⟩))⟩

theorem setBootPartition_moves (before : u.point = .setBoot) (result : Int) :
    MovesTo u (u.setBootPartition result) := by
  unfold setBootPartition
  dsimp only
  split
  · exact ⟨_, List.append_assoc _ _ _, .switches result _ before rfl rfl⟩
  · exact ⟨_, List.append_assoc _ _ _, .switches result _ before rfl rfl⟩

theorem step_moves (u : HttpUpload) (a : HttpInput) : MovesTo u (u.step a) := by
  cases a with
  | err e =>
    simp only [step]
    cases before : u.point with
    | begin => exact otaBegin_moves before e
    | write buff => exact otaWrite_moves before e
    | finish => exact otaEnd_moves before e
    | setBoot => exact setBootPartition_moves before e
    | recv | returned => exact stays
  | recv r =>
    simp only [step]
    cases before : u.point with
    | recv => exact reqRecv_moves before r
    | begin | write | finish | setBoot | returned => exact stays

theorem step_calls (u : HttpUpload) (a : HttpInput) :
    (u.step a).calls = u.calls ++ u.newCalls a ∧ Move u (u.step a) (u.newCalls a) := by
  obtain ⟨new, calls, move⟩ := step_moves u a
  have taken : u.newCalls a = new := by rw [newCalls, calls, List.drop_left]
  exact taken ▸ ⟨calls, move⟩

theorem step_received (u : HttpUpload) (a : HttpInput) :
    (u.step a).received = u.received ++ (u.newCalls a).flatMap HttpCall.received := by
  rw [received, (u.step_calls a).1, List.flatMap_append]
  rfl

theorem step_written (u : HttpUpload) (a : HttpInput) :
    (u.step a).written = u.written ++ (u.newCalls a).flatMap HttpCall.stored := by
  rw [written, (u.step_calls a).1, List.flatMap_append]
  rfl

/-- The bytes between `httpd_req_recv` and `esp_ota_write`. -/
def inHand (u : HttpUpload) : List UInt8 :=
  match u.point with
  | .write buff => buff
  | _ => []

theorem inHand_of_loop {v : HttpUpload} (next : v.point = .recv ∨ v.point = .finish) :
    v.inHand = [] := by
  unfold inHand
  rcases next with at_recv | at_finish
  · rw [at_recv]
  · rw [at_finish]

/-- The handler has not returned. -/
def Live (u : HttpUpload) : Prop := u.point ≠ .returned

instance (u : HttpUpload) : Decidable u.Live := inferInstanceAs (Decidable (_ ≠ _))

/-- The partition begins with what the handler has written, and this is all it has received but for
the bytes in hand. -/
structure Held (u : HttpUpload) (flash : Nat → UInt8) : Prop where
  unbegun : u.point = .begin → u.written = []
  received : u.Live → u.received = u.written ++ u.inHand
  held : u.Live → Flash.read flash u.written.length = u.written

end HttpUpload

instance (result : Option Int) : Decidable (Fine result) := inferInstanceAs (Decidable (_ ∨ _))

namespace Uploads

/-- `tftp_receive_data` goes on or has returned well, and its handle is open. -/
def TftpLive (w : Uploads) : Prop := w.handle = true ∧ ∃ s ∈ w.tftp.session, Fine s.result

instance (w : Uploads) : Decidable w.TftpLive := inferInstanceAs (Decidable (_ ∧ _))

/-- What the path has uploaded that does not take this step. -/
def otherHeld (w : Uploads) : UploadsInput → Nat
  | .http _ => if w.TftpLive then w.stored.length else 0
  | _ => if w.http.Live then w.http.written.length else 0

/-- The path that takes the step may still switch. -/
def OwnLive (w : Uploads) : UploadsInput → Prop
  | .http _ => True
  | _ => w.TftpLive

def accepts (w : Uploads) : UploadsInput → Option Netbuf
  | .receive r _ => w.tftp.session.bind fun s =>
    if s.result = none ∧ w.writes = [] then acceptedDatagram s.receiver r else none
  | _ => none

/-- The step changes no byte that the other path has uploaded, what it writes can be read back,
and the header of a datagram that it accepts lies in the first segment. -/
def Spares (c : Flash.Cell UInt8) (w : Uploads) (a : UploadsInput) : Prop :=
  w.restarted = false →
    (∀ op ∈ w.op a, op.Keeps c w.flash (w.otherHeld a) ∧ (w.OwnLive a → op.Takes c w.flash)) ∧
      ∀ n ∈ w.accepts a, n.Whole

instance (w : Uploads) : (a : UploadsInput) → Decidable (w.OwnLive a)
  | .http _ => isTrue trivial
  | .request _ _ _ | .receive _ _ | .tftpWrite | .tftpFinish _ =>
    inferInstanceAs (Decidable w.TftpLive)

instance (c : Flash.Cell UInt8) (w : Uploads) (a : UploadsInput) : Decidable (w.Spares c a) :=
  inferInstanceAs (Decidable (w.restarted = false → _ ∧ _))

/-- At every switch the partition holds what the path has received. -/
def Right (w : Uploads) : Prop := ∀ s ∈ w.switches, s.contents = s.received

structure TftpHeld (w : Uploads) : Prop where
  unopened : w.handle = false → ∀ s ∈ w.tftp.session, s.result ≠ some errOk
  image : w.TftpLive → w.tftp.image = w.stored ++ w.writes.flatten
  accepted : w.TftpLive → payloads w.tftp.accepted = w.tftp.image
  held : w.TftpLive → Flash.read w.flash w.stored.length = w.stored

structure Held (w : Uploads) : Prop where
  http : w.http.Held w.flash
  tftp : w.TftpHeld
  right : w.Right

variable {c : Flash.Cell UInt8} {w : Uploads}

/-- The partition after the step. -/
def flashAfter (c : Flash.Cell UInt8) (w : Uploads) (a : UploadsInput) : Nat → UInt8 :=
  (w.op a).elim w.flash fun op => op.apply c w.flash

theorem flashAfter_none {a : UploadsInput} (idle : w.op a = none) : w.flashAfter c a = w.flash := by
  rw [flashAfter, idle]
  rfl

theorem read_flashAfter {a : UploadsInput} {len : Nat}
    (keeps : ∀ op ∈ w.op a, op.Keeps c w.flash len) :
    Flash.read (w.flashAfter c a) len = Flash.read w.flash len := by
  unfold flashAfter
  cases done : w.op a with
  | none => rfl
  | some op => exact (keeps op done).read

theorem httpHeld_keeps {a : UploadsInput} (h : w.http.Held w.flash)
    (other : w.http.Live → w.otherHeld a = w.http.written.length)
    (spares : ∀ op ∈ w.op a, op.Keeps c w.flash (w.otherHeld a)) :
    w.http.Held (w.flashAfter c a) where
  unbegun := h.unbegun
  received := h.received
  held live := by
    rw [other live] at spares
    exact (read_flashAfter spares).trans (h.held live)

theorem TftpHeld.keeps {v : Uploads} {a : UploadsInput} (h : w.TftpHeld) (tftp : v.tftp = w.tftp)
    (handle : v.handle = w.handle) (stored : v.stored = w.stored) (writes : v.writes = w.writes)
    (flash : v.flash = w.flashAfter c a) (other : w.TftpLive → w.otherHeld a = w.stored.length)
    (spares : ∀ op ∈ w.op a, op.Keeps c w.flash (w.otherHeld a)) : v.TftpHeld := by
  obtain ⟨unopened, image, accepted, held⟩ := h
  have same : v.TftpLive ↔ w.TftpLive := by rw [TftpLive, tftp, handle, TftpLive]
  constructor
  · rw [handle, tftp]
    exact unopened
  · intro live
    rw [tftp, stored, writes]
    exact image (same.mp live)
  · intro live
    rw [tftp]
    exact accepted (same.mp live)
  · intro live
    rw [stored, flash]
    rw [other (same.mp live)] at spares
    exact (read_flashAfter spares).trans (held (same.mp live))

/-- Calls that get and store nothing. -/
structure QuietCalls (new : List HttpCall) : Prop where
  received : new.flatMap HttpCall.received = []
  stored : new.flatMap HttpCall.stored = []
  op : ∀ offs, new.findSome? (HttpCall.op offs) = none
  switches : .setBootPartition espOk ∉ new

theorem quietCalls {new : List HttpCall} (silent : ∀ c ∈ new, c.Quiet) : QuietCalls new where
  received := List.flatMap_eq_nil_iff.mpr fun c mem => (silent c mem).received
  stored := List.flatMap_eq_nil_iff.mpr fun c mem => (silent c mem).stored
  op offs := List.findSome?_eq_none_iff.mpr fun c mem => (silent c mem).op offs
  switches mem := (silent _ mem).switches rfl

theorem op_http (w : Uploads) (a : HttpInput) :
    w.op (.http a) = (w.http.newCalls a).findSome? (HttpCall.op w.http.written.length) := rfl

/-- The handler takes a step. -/
theorem httpStep_held (h : w.http.Held w.flash) (a : HttpInput)
    (takes : ∀ op ∈ w.op (.http a), op.Takes c w.flash) :
    (w.http.step a).Held (w.flashAfter c (.http a)) := by
  obtain ⟨unbegun, received, held⟩ := h
  have got := w.http.step_received a
  have put := w.http.step_written a
  have op_eq := w.op_http a
  cases (w.http.step_calls a).2 with
  | quiet silent next =>
    obtain ⟨no_byte, nothing, no_op, -⟩ := quietCalls silent
    rw [no_byte, List.append_nil] at got
    rw [nothing, List.append_nil] at put
    have flash : w.flashAfter c (.http a) = w.flash := by rw [flashAfter, op_eq, no_op]; rfl
    have live : (w.http.step a).Live →
        w.http.Live ∧ (w.http.step a).inHand = w.http.inHand := by
      intro going
      rcases next with same | returned | ⟨before, after⟩
      · exact ⟨fun returned => going (same.trans returned),
          by rw [HttpUpload.inHand, same, HttpUpload.inHand]⟩
      · exact absurd returned going
      · exact ⟨by simp [HttpUpload.Live, before], by simp [HttpUpload.inHand, before, after]⟩
    constructor
    · intro begun
      rw [put]
      rcases next with same | returned | ⟨-, after⟩
      · exact unbegun (same.symm.trans begun)
      · exact absurd (returned.symm.trans begun) nofun
      · exact absurd (after.symm.trans begun) nofun
    · intro going
      rw [got, put, (live going).2]
      exact received (live going).1
    · intro going
      rw [put, flash]
      exact held (live going).1
  | begins before new next =>
    rw [new] at got put
    have empty := unbegun before
    have live : w.http.Live := by simp [HttpUpload.Live, before]
    have none_yet : (w.http.step a).written = [] := by rw [put, empty]; rfl
    constructor
    · exact fun _ => none_yet
    · intro _
      rw [got, none_yet, HttpUpload.inHand_of_loop next, received live, empty]
      simp [HttpUpload.inHand, before, HttpCall.received]
    · intro _
      rw [none_yet]
      rfl
  | receives size buff before new next =>
    rw [new] at got put op_eq
    have live : w.http.Live := by simp [HttpUpload.Live, before]
    have same : (w.http.step a).written = w.http.written := by simpa [HttpCall.stored] using put
    have flash : w.flashAfter c (.http a) = w.flash := by rw [flashAfter, op_eq]; rfl
    constructor
    · exact fun begun => absurd (next.symm.trans begun) nofun
    · intro _
      rw [got, same, received live]
      simp [HttpUpload.inHand, before, next, HttpCall.received]
    · intro _
      rw [same, flash]
      exact held live
  | writes buff before new next =>
    rw [new] at got put op_eq
    have live : w.http.Live := by simp [HttpUpload.Live, before]
    have more : (w.http.step a).written = w.http.written ++ buff := by
      simpa [HttpCall.stored] using put
    have op_write : w.op (.http a) = some (.write w.http.written.length buff) := by
      rw [op_eq]
      rfl
    have flash : w.flashAfter c (.http a) =
        (Flash.Op.write w.http.written.length buff).apply c w.flash := by
      rw [flashAfter, op_write]
      rfl
    constructor
    · intro begun
      rcases next with at_recv | at_finish
      · exact absurd (at_recv.symm.trans begun) nofun
      · exact absurd (at_finish.symm.trans begun) nofun
    · intro _
      rw [got, more, HttpUpload.inHand_of_loop next, received live]
      simp [HttpUpload.inHand, before, HttpCall.received]
    · intro _
      have written : (Flash.Op.write w.http.written.length buff).Takes c w.flash := takes _ op_write
      rw [more, flash, List.length_append, written.read, held live]
  | switches result msg before new next =>
    constructor
    · exact fun begun => absurd (next.symm.trans begun) nofun
    · exact fun going => absurd next going
    · exact fun going => absurd next going

theorem httpStep_right (h : w.http.Held w.flash) (right : w.Right) (a : HttpInput) :
    (w.httpStep a).Right := by
  unfold httpStep Right
  intro s hs
  rcases List.mem_append.mp hs with old | new
  · exact right s old
  · split at new
    · rename_i switches
      obtain rfl := List.mem_singleton.mp new
      cases (w.http.step_calls a).2 with
      | quiet silent next => exact absurd switches (quietCalls silent).switches
      | begins before calls next | receives size buff before calls next
        | writes buff before calls next =>
        rw [calls] at switches
        simp at switches
      | switches result msg before calls next =>
        have live : w.http.Live := by simp [HttpUpload.Live, before]
        have all : w.http.received = w.http.written := by
          rw [h.received live]
          simp [HttpUpload.inHand, before]
        unfold switched
        rw [all]
        exact h.held live
    · cases new

/-- A request that is served begins a session, with an empty image if its handle was opened. -/
theorem request_begun {t : Task} {n : Netbuf} {ackErr : Int} {i : OtaInit} {s : Session}
    (idle : t.session = none) (begun : s ∈ (t.request n ackErr i).session) :
    s.result = none ∧ (t.request n ackErr i).accepted = [] ∧
      ((t.otaTftpInit i).2 = errOk → (t.request n ackErr i).image = []) := by
  unfold Task.request at begun ⊢
  cases checked : checkRequest n with
  | error reply =>
    cases reply <;> simp [checked, Task.log, idle] at begun
  | ok =>
    simp only [checked] at begun ⊢
    split at begun
    · simp [Task.log, idle] at begun
    · rename_i sent
      rw [if_neg sent]
      cases begun
      refine ⟨rfl, rfl, ?_⟩
      unfold Task.otaTftpInit
      dsimp only
      split
      · exact fun ok => absurd ok (show errVal ≠ errOk by decide)
      · split
        · exact fun ok => absurd ok (show errVal ≠ errOk by decide)
        · split
          · exact fun ok => absurd ok (show errVal ≠ errOk by decide)
          · exact fun _ => rfl

theorem finish_session (t : Task) (recvErr bootErr : Int) :
    (t.finish recvErr bootErr).session = none := by
  unfold Task.finish
  dsimp only
  split
  · split <;> rfl
  · rfl

/-- The writes of a pass store what it appends to the image. -/
theorem flatten_writes (behind : Nat → UInt8) (new : List Event) :
    ((new.filter Event.isWrite).map (Event.stored behind)).flatten =
      new.flatMap (Event.stored behind) := by
  induction new with
  | nil => rfl
  | cons e new ih =>
    cases e with
    | otaWrite segment len err =>
      rw [List.filter_cons_of_pos rfl, List.map_cons, List.flatten_cons, ih, List.flatMap_cons]
    | disconnect | connect | ack | error | progress => exact ih

/-- Without a handle the first write of a datagram fails. -/
theorem unopened_fails (s : Session) (running : s.result ≠ some errOk) (r : Reception)
    (fails : ∀ i, r.otaErr i ≠ errOk) : (s.step r).result ≠ some errOk := by
  unfold Session.step
  cases result : s.result with
  | some e =>
    rw [result] at running
    simpa [result] using running
  | none =>
    have no_block : ∀ (v : Receiver) (n : Netbuf), (acceptBlock v r n).2 = some errVal := by
      intro v n
      simp [acceptBlock, chunks, writeChunks, fails 0]
    unfold receivePass
    cases received : r.result with
    | timeout =>
      dsimp only
      split
      · exact fun ended => absurd ended (by simp)
      · exact fun ended => absurd (Option.some.inj ended) (by decide)
    | failed e => exact fun ended => e.ne_ok (Option.some.inj ended)
    | datagram n =>
      unfold receiveDatagram
      dsimp only
      split
      · exact fun ended => absurd (Option.some.inj ended) (by decide)
      · split
        · split
          · exact fun ended => absurd ended (by simp)
          · exact fun ended => absurd (Option.some.inj ended) (by decide)
        · rw [no_block]
          exact fun ended => absurd (Option.some.inj ended) (by decide)

theorem request_held (idle : w.tftp.session = none) (n : Netbuf) (ackErr : Int) (i : OtaInit)
    (flash : Nat → UInt8) : TftpHeld { w.request n ackErr i with flash := flash } := by
  constructor
  · intro _ s begun
    rw [(request_begun idle begun).1]
    exact nofun
  · rintro ⟨opened, s, begun, -⟩
    have init : (w.tftp.otaTftpInit i).2 = errOk :=
      of_decide_eq_true (Bool.and_eq_true_iff.mp opened).2
    exact (request_begun idle begun).2.2 init
  · rintro ⟨opened, s, begun, -⟩
    have init : (w.tftp.otaTftpInit i).2 = errOk :=
      of_decide_eq_true (Bool.and_eq_true_iff.mp opened).2
    obtain ⟨-, none_yet, empty⟩ := request_begun idle begun
    exact (congrArg payloads none_yet).trans (empty init).symm
  · exact fun _ => rfl

theorem receive_held (h : w.TftpHeld) {s : Session} (running : w.tftp.session = some s)
    (going : s.result = none) (done : w.writes = []) (r : Reception) (behind : Nat → UInt8)
    (whole : ∀ n ∈ acceptedDatagram s.receiver r, n.Whole) : (w.receive s r behind).TftpHeld := by
  have live : (w.receive s r behind).TftpLive → w.TftpLive :=
    fun now => ⟨now.1, s, running, Or.inl going⟩
  have same_datagram : acceptedDatagram s.receiver (throughHandle w.handle r) =
      acceptedDatagram s.receiver r := by
    unfold throughHandle
    split <;> rfl
  constructor
  · intro closed t stepped
    obtain rfl : s.step (throughHandle w.handle r) = t := Option.some.inj stepped
    apply unopened_fails s (by simp [going])
    intro i
    rw [throughHandle, show w.handle = false from closed]
    exact (by decide : espErrInvalidArg ≠ errOk)
  · intro now
    have before := h.image (live now)
    rw [done, List.flatten_nil, List.append_nil] at before
    simp only [receive, Task.receive, flatten_writes, before]
  · intro now
    obtain ⟨t, stepped, fine⟩ := now.2
    obtain rfl : s.step (throughHandle w.handle r) = t := Option.some.inj stepped
    have new := stepped_stored going (throughHandle w.handle r) behind fine
    have before := h.accepted (live now)
    have stored_payload : (acceptedDatagram s.receiver r).toList.flatMap (Netbuf.stored behind) =
        payloads (acceptedDatagram s.receiver r).toList := by
      cases next : acceptedDatagram s.receiver r with
      | none => rfl
      | some n => simp [payloads, stored_of_whole behind (whole n next)]
    simp only [receive, Task.receive, new, same_datagram, stored_payload, ← before]
    exact List.flatMap_append
  · exact fun now => h.held (live now)

theorem tftpWrite_http (w : Uploads) :
    w.tftpWrite.http = w.http ∧ w.tftpWrite.switches = w.switches := by
  unfold tftpWrite
  split
  · exact ⟨rfl, rfl⟩
  · exact ⟨rfl, rfl⟩

theorem tftpWrite_held (h : w.TftpHeld)
    (takes : ∀ op ∈ w.op .tftpWrite, w.TftpLive → op.Takes c w.flash) :
    TftpHeld { w.tftpWrite with flash := w.flashAfter c .tftpWrite } := by
  unfold tftpWrite flashAfter
  unfold op at takes ⊢
  cases next : w.writes with
  | nil => exact ⟨h.unopened, h.image, h.accepted, h.held⟩
  | cons data rest =>
    rw [next] at takes
    refine ⟨h.unopened, ?_, h.accepted, ?_⟩
    · intro live
      rw [h.image live, next, List.flatten_cons, List.append_assoc]
    · intro live
      have written : (Flash.Op.write w.stored.length data).Takes c w.flash := takes _ rfl live
      have read := written.read
      rw [h.held live, ← List.length_append] at read
      exact read

theorem tftpFinish_held (recvErr bootErr : Int) (flash : Nat → UInt8) :
    TftpHeld { w.tftpFinish recvErr bootErr with flash := flash } := by
  have closed := finish_session w.tftp recvErr bootErr
  have dead : ¬ TftpLive { w.tftpFinish recvErr bootErr with flash := flash } := by
    rintro ⟨-, s, running, -⟩
    exact absurd (closed.symm.trans running) nofun
  constructor
  · intro _ s running
    exact absurd (closed.symm.trans running) nofun
  · exact fun live => absurd live dead
  · exact fun live => absurd live dead
  · exact fun live => absurd live dead

theorem tftpFinish_right (h : w.TftpHeld) (right : w.Right) {s : Session} {recvErr : Int}
    (running : w.tftp.session = some s) (result : s.result = some recvErr) (done : w.writes = [])
    (bootErr : Int) : (w.tftpFinish recvErr bootErr).Right := by
  unfold tftpFinish Right
  intro t ht
  rcases List.mem_append.mp ht with old | new
  · exact right t old
  · split at new
    · rename_i boots
      obtain rfl := List.mem_singleton.mp new
      have ended : s.result = some errOk := boots.1 ▸ result
      have opened : w.handle = true := by
        cases closed : w.handle with
        | true => rfl
        | false => exact absurd ended (h.unopened closed s running)
      have live : w.TftpLive := ⟨opened, s, running, Or.inr ended⟩
      have all : payloads w.tftp.accepted = w.stored := by
        rw [h.accepted live, h.image live, done, List.flatten_nil, List.append_nil]
      unfold switched
      rw [all]
      exact h.held live
    · cases new

theorem step_held (h : w.Held) (a : UploadsInput) (spares : w.Spares c a) : (w.step c a).Held := by
  unfold step
  split
  · exact h
  · rename_i going
    obtain ⟨ops, whole⟩ := spares (Bool.not_eq_true _ |>.mp going)
    have keeps : ∀ op ∈ w.op a, op.Keeps c w.flash (w.otherHeld a) := fun op mem => (ops op mem).1
    change Held { w.handleInput a with flash := w.flashAfter c a }
    cases a with
    | http a =>
      refine ⟨httpStep_held h.http a fun op mem => (ops op mem).2 trivial, ?_,
        httpStep_right h.http h.right a⟩
      exact h.tftp.keeps rfl rfl rfl rfl rfl (fun live => if_pos live) keeps
    | request n ackErr i =>
      have http := httpHeld_keeps (a := .request n ackErr i) h.http (fun live => if_pos live) keeps
      unfold handleInput
      dsimp only
      split
      · rename_i free
        exact ⟨http, request_held (Option.isNone_iff_eq_none.mp free.1) n ackErr i _, h.right⟩
      · rename_i busy
        have idle : w.op (.request n ackErr i) = none :=
          if_neg fun opens => busy ⟨opens.1, opens.2.1⟩
        rw [flashAfter_none idle]
        exact h
    | receive r behind =>
      rw [flashAfter_none rfl]
      unfold handleInput
      dsimp only
      cases running : w.tftp.session with
      | none => exact h
      | some s =>
        dsimp only
        split
        · rename_i free
          refine ⟨h.http, receive_held h.tftp running free.1 free.2 r behind ?_, h.right⟩
          simpa [accepts, running, free] using whole
        · exact h
    | tftpWrite =>
      have http := httpHeld_keeps (a := .tftpWrite) h.http (fun live => if_pos live) keeps
      obtain ⟨same, no_switch⟩ := tftpWrite_http w
      refine ⟨?_, tftpWrite_held h.tftp fun op mem => (ops op mem).2, ?_⟩
      · exact same ▸ http
      · exact fun s hs => h.right s (no_switch ▸ hs)
    | tftpFinish bootErr =>
      rw [flashAfter_none rfl]
      unfold handleInput
      dsimp only
      cases running : w.tftp.session with
      | none => exact h
      | some s =>
        cases result : s.result with
        | none => simpa [result] using h
        | some recvErr =>
          simp only [Option.bind_some, result]
          split
          · rename_i done
            exact ⟨h.http, tftpFinish_held recvErr bootErr _,
              tftpFinish_right h.tftp h.right running result done bootErr⟩
          · exact h

theorem start_held (flash : Nat → UInt8) (contentLen total remaining : UInt32) :
    (start flash contentLen total remaining).Held where
  http := ⟨fun _ => rfl, fun _ => rfl, fun _ => rfl⟩
  tftp := ⟨nofun, fun live => absurd live.1 nofun, fun live => absurd live.1 nofun,
    fun live => absurd live.1 nofun⟩
  right := nofun

/-- While every step spares the other upload, each switch finds what its path has received. -/
theorem right_of_spares (c : Flash.Cell UInt8) (flash : Nat → UInt8)
    (contentLen total remaining : UInt32) (as : List UploadsInput)
    (spares : Runs.Along (step c) (Spares c) (start flash contentLen total remaining) as) :
    Runs.Throughout (step c) Right (start flash contentLen total remaining) as :=
  Runs.guarded_throughout (I := Held) (fun _ a h spares => step_held h a spares)
    (fun _ h => h.right) _ (start_held flash contentLen total remaining) as spares

/-- NOR flash: programming only clears bits. -/
def norCell : Flash.Cell UInt8 where
  erased := 0xff
  program := (· &&& ·)
  program_erased a := by
    apply UInt8.toBitVec_inj.mp
    exact BitVec.allOnes_and

/-- DATA 1 with the byte 42. -/
def lastDatagram : UploadsInput :=
  .receive ⟨.datagram ⟨[0, 3, 0, 1, 0x42], [], Task.client, by simp⟩, (0, 0), (0, 0), fun _ => errOk,
    errOk⟩ fun _ => 0

def serveRequest : UploadsInput := .request Task.writeRequest 0 ⟨some 0, some 0, some 1, errOk⟩

/-- The handler writes two bytes. -/
def httpWrites : List UploadsInput :=
  [.http (.err espOk), .http (.recv (.data [0x41, 0x41])), .http (.err espOk)]

def httpEnds : List UploadsInput := [.http (.err espOk), .http (.err espOk)]

theorem right_of_spares_in_turn :
    Runs.Throughout (step norCell) Right (start (fun _ => 0xff) 2 0 0)
      (httpWrites ++ httpEnds ++ [serveRequest, lastDatagram, .tftpWrite, .tftpFinish espOk]) :=
  right_of_spares norCell _ 2 0 0 _ (by decide)

/-- The upload by TFTP begins and writes its byte before the handler switches the partition. -/
theorem mixed_image_switched :
    ¬ Runs.Throughout (step norCell) Right (start (fun _ => 0xff) 2 0 0)
      (httpWrites ++ [serveRequest, lastDatagram, .tftpWrite] ++ httpEnds) := by
  intro right
  have last := (Runs.throughout_iff_prefix _ _).mp right _ (List.prefix_refl _)
  have switches : ((httpWrites ++ [serveRequest, lastDatagram, .tftpWrite] ++ httpEnds).foldl
      (step norCell) (start (fun _ => 0xff) 2 0 0)).switches = [⟨[0x41, 0x41], [0x42, 0xff]⟩] := by
    decide
  have same := last ⟨[0x41, 0x41], [0x42, 0xff]⟩ (by rw [switches]; exact List.mem_cons_self)
  exact absurd same (by decide)

end Uploads

end Rocom.Ota
