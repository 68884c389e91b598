import Rocom.SerialPort.Steps

/-! On which sockets the drain task sends. `client_socket` keeps the number of a closed socket
until the next `accept` returns, and `tcp_receive_thread` is not cleared either, so the two checks
of `rfc2217_server_send_data` hold between two clients as well. -/
namespace Rocom.SerialPort

open Rfc2217

/-- The socket has been accepted and not been closed. -/
def Record.OnLive : Record → Prop
  | .checksPassed socket live => live = some socket
  | .sent socket live _ _ => live = some socket
  | _ => True

instance : (r : Record) → Decidable r.OnLive
  | .checksPassed socket live | .sent socket live _ _ =>
    inferInstanceAs (Decidable (live = some socket))
  | .received _ | .handed _ | .returned _ => isTrue trivial

namespace Relay

/-- A call gets past its checks only with a client, and sends only to that client's socket. -/
def SocketsLive (w : Relay) : Prop := ∀ r ∈ w.log, r.OnLive

instance (w : Relay) : Decidable w.SocketsLive :=
  inferInstanceAs (Decidable (∀ r ∈ w.log, r.OnLive))

/-- A step past the second check, or a call of `send`, while no client is there. -/
def SendsUnserved (w : Relay) (a : Input) : Prop :=
  w.aborted = false ∧ w.Unserved ∧
    match a, w.drain with
    | .drainCheckThread, .checkThread _ => w.session.server.tcpReceiveThread ≠ 0
    | .drainSend _, .send toWrite => toWrite ≠ []
    | _, _ => False

theorem socketsLive_note (w : Relay) (r : Record) :
    (w.note r).SocketsLive ↔ w.SocketsLive ∧ r.OnLive := by
  simp only [SocketsLive, note, List.mem_append, List.mem_singleton, or_imp, forall_and,
    forall_eq]

theorem SocketsLive.of_log {w n : Relay} (h : w.SocketsLive) (same : n.log = w.log) :
    n.SocketsLive := by
  unfold SocketsLive
  rw [same]
  exact h

theorem SocketsLive.sendDataReturns {w : Relay} (h : w.SocketsLive) (result : Int) :
    (w.sendDataReturns result).SocketsLive :=
  (socketsLive_note _ _).mpr ⟨h.of_log rfl, trivial⟩

theorem sendsUnserved_checkThread {w : Relay} {item : List SerialByte} (running : w.aborted = false)
    (at_check : w.drain = .checkThread item) :
    w.SendsUnserved .drainCheckThread ↔ w.Unserved ∧ w.session.server.tcpReceiveThread ≠ 0 := by
  simp only [SendsUnserved, at_check, running, true_and]

theorem sendsUnserved_send {w : Relay} {toWrite : List SerialByte} {written : Int}
    (running : w.aborted = false) (at_send : w.drain = .send toWrite) :
    w.SendsUnserved (.drainSend written) ↔ w.Unserved ∧ toWrite ≠ [] := by
  simp only [SendsUnserved, at_send, running, true_and]

theorem SendsUnserved.ready {w : Relay} {a : Input} (sends : w.SendsUnserved a) : w.Ready a := by
  obtain ⟨_, _, at_point⟩ := sends
  split at at_point
  · rename_i item at_check
    exact ⟨item, at_check⟩
  · rename_i toWrite at_send
    exact ⟨toWrite, at_send⟩
  · exact at_point.elim

/-- A record of the socket in use is on a live one exactly while a client is served. -/
theorem SocketsLive.note_iff {w : Relay} (live : w.SocketsLive) {r : Record}
    (served : r.OnLive ↔ ¬ w.Unserved) {p : Prop} (uses : p) :
    (w.note r).SocketsLive ↔ ¬ (w.Unserved ∧ p) := by
  rw [socketsLive_note, served]
  exact ⟨fun h sends => h.2 sends.1, fun h => ⟨live, fun none => h ⟨none, uses⟩⟩⟩

/-- One step keeps to live sockets exactly when it does not send while no client is there. -/
theorem handle_socketsLive {w : Relay} (tracked : w.SocketTracked) (sized : w.ItemSized)
    (live : w.SocketsLive) (running : w.aborted = false) (a : Input) :
    (w.handle a).SocketsLive ↔ ¬ w.SendsUnserved a := by
  have sent : ∀ client bytes,
      (Record.sent w.session.server.clientSocket w.liveSocket client bytes).OnLive ↔
        ¬ w.Unserved := fun _ _ => tracked.live_iff
  cases server : a.isServer with
  | true =>
    have same := congrArg UsbSide.log (handle_usbSide w a server)
    refine iff_of_true (live.of_log same) ?_
    intro sends
    cases a with
    | accept | createThread | recv | recvEnds | close | stop => exact sends.2.2
    | usbReceive | usbStore | drainReceive | drainCheckSocket | drainCheckThread | drainSend
    | drainReturn => cases server
  | false =>
    have move := w.usbMove a server
    generalize w.handle a = n at move ⊢
    cases move with
    | waits idle => exact iff_of_true live fun sends => idle sends.ready
    | @drops data | @takes data =>
      have noted := (socketsLive_note w (.received data)).mpr ⟨live, trivial⟩
      exact iff_of_true (noted.of_log rfl) fun sends => sends.2.2
    | overflows | stores | givesBack | socket =>
      exact iff_of_true (live.of_log rfl) fun sends => sends.2.2
    | receives =>
      exact iff_of_true ((socketsLive_note _ _).mpr ⟨live.of_log rfl, trivial⟩)
        fun sends => sends.2.2
    | noSocket => exact iff_of_true (live.sendDataReturns (-1)) fun sends => sends.2.2
    | noThread at_check none_started =>
      rw [sendsUnserved_checkThread running at_check]
      exact iff_of_true (live.sendDataReturns (-1)) fun sends => sends.2 none_started
    | asserts at_check _ large =>
      simp only [ItemSized, at_check] at sized
      exact absurd large (Nat.not_lt.mpr sized.2)
    | @copies item at_check started =>
      have passed : (Record.checksPassed w.session.server.clientSocket w.liveSocket).OnLive ↔
          ¬ w.Unserved := tracked.live_iff
      rw [sendsUnserved_checkThread running at_check, ← live.note_iff passed started]
      exact ⟨fun h => h.of_log rfl, fun h => h.of_log rfl⟩
    | sent at_send =>
      rw [sendsUnserved_send running at_send]
      exact iff_of_true (live.sendDataReturns 0) fun sends => sends.2 rfl
    | @fails written toWrite at_send left =>
      rw [sendsUnserved_send running at_send, sendDataReturns, socketsLive_note,
        ← live.note_iff (sent w.clients (toWrite.take written.toNat)) left]
      exact ⟨fun h => h.1.of_log rfl, fun h => ⟨h.of_log rfl, trivial⟩⟩
    | @writes written toWrite at_send left =>
      rw [sendsUnserved_send running at_send,
        ← live.note_iff (sent w.clients (toWrite.take written.toNat)) left]
      exact ⟨fun h => h.of_log rfl, fun h => h.of_log rfl⟩

/-- Every send goes to the socket of a connected client exactly in the runs without a send while
the server thread waits for one. -/
theorem sends_to_live_iff (as : List Input) :
    Runs.Throughout step SocketsLive start as ↔
      Runs.Along step (fun w a => ¬ w.SendsUnserved a) start as := by
  apply Runs.throughout_iff_along (I := fun w => w.SocketTracked ∧ w.ItemSized)
  · intro w a h
    exact ⟨step_socketTracked w a h.1, step_itemSized w a h.2⟩
  · intro w a h live
    cases running : w.aborted with
    | false =>
      rw [step_of_running a running]
      exact handle_socketsLive h.1 h.2 live running a
    | true =>
      have same : w.step a = w := if_pos running
      rw [same]
      exact iff_of_true live fun sends => Bool.false_ne_true (sends.1.symm.trans running)
  · exact ⟨rfl, trivial⟩
  · exact fun r hr => absurd hr List.not_mem_nil

/-- A client negotiates COM-PORT-OPTION, one byte arrives from USB, and the client leaves. -/
def firstClient : List Input :=
  [.accept 54, .createThread (some 1), .recv [tIac, tDo, tComPortOption], .usbReceive [0x41],
    .usbStore, .recvEnds, .close]

def drainOne : List Input :=
  [.drainReceive 1, .drainCheckSocket, .drainCheckThread, .drainSend 1, .drainSend 0, .drainReturn]

/-- The byte is sent to the socket that was closed. -/
theorem closed_socket_used :
    ¬ Runs.Throughout step SocketsLive start (firstClient ++ drainOne) := by
  intro live
  have last := (Runs.throughout_iff_prefix _ _).mp live _ (List.prefix_refl _)
  exact absurd last (by decide)

end Relay

end Rocom.SerialPort
