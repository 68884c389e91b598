import Rocom.SerialPort.Lossless

/-! The relay's own part of the way from the USB device to the client. The bytes of a call of
`rfc2217_server_send_data` are on their way until the loop of `tcp_send` has written them. -/
namespace Rocom.SerialPort

open Rfc2217

/-- What a call of `send` put on the wire of a socket. -/
def Record.writtenTo (socket : Int) : Record → List UInt8
  | .sent s _ _ bytes => if s = socket then values bytes else []
  | _ => []

/-- The wire bytes of the item in hand. -/
def DrainTask.onTheWay : DrainTask → List UInt8
  | .checkSocket item | .checkThread item => escapeIac (values item)
  | .send toWrite => values toWrite
  | .receiveUpTo | .returnItem => []

namespace Relay

/-- What the drain task has written to a socket. The receive thread writes to the same one. -/
def drained (socket : Int) (w : Relay) : List UInt8 := w.log.flatMap (Record.writtenTo socket)

/-- The wire bytes that are still to come. -/
def unwritten (w : Relay) : List UInt8 := w.drain.onTheWay ++ escapeIac w.held

/-- The relay has not aborted, and has written or will write what it was given, in order and with
every IAC doubled. `before` is what it held to begin with. -/
def Delivers (socket : Int) (before : List UInt8) (w : Relay) : Prop :=
  w.aborted = false ∧ w.drained socket ++ w.unwritten = escapeIac (before ++ w.received)

/-- A packet without room, or a failed `send`: `tcp_send` gives up what it has not written. -/
def Loses (w : Relay) : Input → Prop
  | .usbStore => w.Overflows .usbStore
  | .drainSend result => result < 0 ∧ ∃ toWrite, toWrite ≠ [] ∧ w.drain = .send toWrite
  | _ => False

/-- The client on `socket` stays, and its receive thread runs. -/
structure Attached (socket : Int) (w : Relay) : Prop where
  serving : w.Serving
  own : w.session.server.clientSocket = socket
  live : Live w.session.server

variable {socket : Int} {before : List UInt8} {w n : Relay} {a : Input}

theorem attached_of_connection (serving : n.Serving) (h : w.Attached socket)
    (same : connection n.session.server = connection w.session.server) : n.Attached socket := by
  simp only [connection, Prod.mk.injEq] at same
  refine ⟨serving, same.1.trans h.own, ?_, ?_⟩
  · rw [same.1]
    exact h.live.socket
  · rw [same.2]
    exact h.live.thread

theorem handle_connection (serving : w.Serving) (a : Input) (stays : a ≠ .recvEnds) :
    connection (w.handle a).session.server = connection w.session.server := by
  cases server : a.isServer with
  | false =>
    have kept := congrArg ServerSide.session (handle_serverSide w a server)
    rw [show (w.handle a).session = w.session from kept]
  | true =>
    cases a with
    | recv chunk =>
      simp only [handle, recv, serving.joining]
      exact receive_connection serialConfig w.session chunk
    | recvEnds => exact absurd rfl stays
    | accept | createThread | close | stop =>
      simp only [handle, accept, createThread, close, stop, serving.joining]
    | usbReceive | usbStore | drainReceive | drainCheckSocket | drainCheckThread | drainSend
    | drainReturn => cases server

theorem step_attached (stays : a ≠ .recvEnds) (h : w.Attached socket) :
    (w.step a).Attached socket := by
  have serving := step_serving w a stays h.serving
  rcases step_cases w a with same | handled
  · rw [same]
    exact h
  · rw [handled] at serving ⊢
    exact attached_of_connection serving h (handle_connection h.serving a stays)

theorem drained_note (w : Relay) (r : Record) :
    (w.note r).drained socket = w.drained socket ++ r.writtenTo socket := by
  simp [drained, note]

/-- A step that only moves bytes towards the wire. -/
theorem Delivers.moves (h : w.Delivers socket before) (running : n.aborted = w.aborted)
    (received : n.received = w.received)
    (wire : n.drained socket ++ n.unwritten = w.drained socket ++ w.unwritten) :
    n.Delivers socket before := by
  refine ⟨running.trans h.1, ?_⟩
  rw [wire, received]
  exact h.2

theorem Loses.ready (loses : w.Loses a) : w.Ready a := by
  unfold Loses at loses
  split at loses
  · exact loses.ready
  · obtain ⟨-, toWrite, -, at_send⟩ := loses
    exact ⟨toWrite, at_send⟩
  · exact loses.elim

theorem Delivers.takes (h : w.Delivers socket before) (free : w.storing = none)
    (data : List UInt8) :
    ({ w.note (.received data) with storing := some data } : Relay).Delivers socket before := by
  have balance := h.2
  refine ⟨h.1, ?_⟩
  simp only [unwritten, held, free, Option.getD_none, List.append_nil] at balance
  have given : ({ w.note (.received data) with storing := some data } : Relay).received =
      w.received ++ data := received_note w (.received data)
  have wire : ({ w.note (.received data) with storing := some data } : Relay).drained socket =
      w.drained socket := (drained_note w (.received data)).trans (List.append_nil _)
  rw [given, wire, ← List.append_assoc before, escapeIac, Stuffing.double_append, ← escapeIac,
    ← escapeIac, ← balance]
  simp only [unwritten, held, note, Option.getD_some, escapeIac, Stuffing.double_append,
    List.append_assoc]

theorem unwritten_receives (waiting : w.drain = .receiveUpTo) (k : Nat) :
    escapeIac (values (w.ring.stored.take k)) ++
        escapeIac (values (w.ring.stored.drop k) ++ w.storing.getD []) = w.unwritten := by
  have parts : values (w.ring.stored.take k) ++ values (w.ring.stored.drop k) =
      values w.ring.stored := by
    rw [values, values, values, ← List.map_append, List.take_append_drop]
  rw [unwritten, waiting, held, ← parts]
  simp only [DrainTask.onTheWay, escapeIac, Stuffing.double_append, List.append_assoc,
    List.nil_append]

theorem drained_writes {toWrite : List SerialByte} (own : w.session.server.clientSocket = socket)
    (at_send : w.drain = .send toWrite) (k : Nat) :
    w.drained socket ++
        (Record.sent w.session.server.clientSocket w.liveSocket w.clients
          (toWrite.take k)).writtenTo socket ++
        (values (toWrite.drop k) ++ escapeIac w.held) = w.drained socket ++ w.unwritten := by
  have parts : values (toWrite.take k) ++ values (toWrite.drop k) = values toWrite := by
    rw [values, values, values, ← List.map_append, List.take_append_drop]
  rw [unwritten, at_send, DrainTask.onTheWay, ← parts, Record.writtenTo, if_pos own]
  simp only [List.append_assoc]

/-- A failed `send` writes nothing, and what was left to write is gone. -/
theorem not_delivers_fails {toWrite : List SerialByte} (h : w.Delivers socket before)
    (at_send : w.drain = .send toWrite) (left : toWrite ≠ []) {result : Int} (error : result < 0) :
    ¬ ((w.note (.sent w.session.server.clientSocket w.liveSocket w.clients
      (toWrite.take result.toNat))).sendDataReturns 0).Delivers socket before := by
  have nothing : toWrite.take result.toNat = [] := by
    rw [Int.toNat_of_nonpos (Int.le_of_lt error), List.take_zero]
  have silent : (Record.sent w.session.server.clientSocket w.liveSocket w.clients []).writtenTo
      socket = [] := by
    simp [Record.writtenTo, values]
  rintro ⟨-, balance⟩
  have wire : ((w.note (.sent w.session.server.clientSocket w.liveSocket w.clients
      [])).sendDataReturns 0).drained socket = w.drained socket := by
    rw [sendDataReturns, drained_note]
    exact (List.append_nil _).trans ((drained_note w _).trans (by rw [silent, List.append_nil]))
  have given : ((w.note (.sent w.session.server.clientSocket w.liveSocket w.clients
      [])).sendDataReturns 0).received = w.received := by
    rw [sendDataReturns, received_note]
    exact (List.append_nil _).trans ((received_note w _).trans (List.append_nil _))
  have was := h.2
  rw [nothing, wire, given, ← was, unwritten, unwritten, at_send, DrainTask.onTheWay] at balance
  have lengths := congrArg List.length (List.append_cancel_left balance)
  simp only [sendDataReturns, note, DrainTask.onTheWay, held, List.nil_append, List.length_append,
    values, List.length_map] at lengths
  exact left (List.length_eq_zero_iff.mp (by omega))

/-- A step of the callback or of the drain task. -/
theorem usbMove_delivers_iff (attached : w.Attached socket) (h : w.Delivers socket before)
    (move : w.UsbMove a n) : n.Delivers socket before ↔ ¬ w.Loses a := by
  have noted {m : Relay} (r : Record) (quiet : r.receivedBytes = [])
      (wire : r.writtenTo socket = []) (same : m.unwritten = w.unwritten)
      (running : m.aborted = w.aborted) (log : m.log = w.log) : (m.note r).Delivers socket before := by
    refine h.moves running ?_ ?_
    · rw [received_note, quiet, List.append_nil, received, log, received]
    · rw [drained_note, wire, List.append_nil, drained, log]
      exact congrArg (w.drained socket ++ ·) same
  cases move with
  | waits idle => exact iff_of_true h fun loses => idle loses.ready
  | drops _ flag => exact absurd (flag.symm.trans attached.serving.flag) Bool.false_ne_true
  | takes free => exact iff_of_true (h.takes free _) id
  | overflows storing full =>
    exact iff_of_false (fun delivers => Bool.noConfusion delivers.1)
      (fun fits => fits ((overflows_iff storing).mpr full))
  | stores storing sent =>
    have fits : ¬ w.Overflows .usbStore := by
      rw [overflows_iff storing, sent]
      exact Option.some_ne_none _
    refine iff_of_true (h.moves rfl rfl ?_) fits
    have stored := ByteRing.stored_send sent
    simp only [unwritten, held, stored, storing, Option.getD_some, Option.getD_none, values,
      List.map_append, List.map_map, List.append_nil, Function.comp_def, List.map_id']
    rfl
  | @receives available item waiting taken =>
    rw [taken]
    refine iff_of_true (h.moves rfl ?_ ?_) id
    · exact (received_note _ _).trans (List.append_nil _)
    · rw [drained_note]
      have wire := congrArg (w.drained socket ++ ·) 
        (unwritten_receives waiting (min available lengthMax))
      exact (congrArg (· ++ _) (List.append_nil _)).trans wire
  | noSocket at_check socket =>
    exact absurd attached.live.socket (Int.not_le.mpr socket)
  | socket at_check =>
    refine iff_of_true (h.moves rfl rfl ?_) id
    simp only [unwritten, at_check, DrainTask.onTheWay]
    rfl
  | noThread at_check thread => exact absurd thread attached.live.thread
  | asserts at_check _ large =>
    have sized := attached.serving.sized
    simp only [ItemSized, at_check] at sized
    exact absurd large (Nat.not_lt.mpr sized.2)
  | copies at_check =>
    refine iff_of_true (noted _ rfl rfl ?_ rfl rfl) id
    simp only [unwritten, at_check, DrainTask.onTheWay, values_escapeItem]
    rfl
  | sent at_send =>
    refine iff_of_true (noted _ rfl rfl ?_ rfl rfl) fun loses => ?_
    · simp only [unwritten, at_send, DrainTask.onTheWay]
      rfl
    · obtain ⟨-, toWrite, left, again⟩ := loses
      rw [at_send] at again
      cases again
      exact left rfl
  | fails at_send left error =>
    exact iff_of_false (not_delivers_fails h at_send left error)
      fun keeps => keeps ⟨error, _, left, at_send⟩
  | writes at_send left some_written =>
    refine iff_of_true (h.moves rfl ?_ ?_) fun loses => some_written loses.1
    · exact (received_note _ _).trans (List.append_nil _)
    · exact (congrArg (· ++ _) (drained_note _ _)).trans (drained_writes attached.own at_send _)
  | givesBack at_return =>
    refine iff_of_true (h.moves rfl rfl ?_) id
    simp only [unwritten, at_return, DrainTask.onTheWay]
    rfl

theorem handle_delivers_iff (attached : w.Attached socket) (h : w.Delivers socket before)
    (a : Input) : (w.handle a).Delivers socket before ↔ ¬ w.Loses a := by
  cases server : a.isServer with
  | true =>
    have kept := handle_usbSide w a server
    simp only [usbSide, UsbSide.mk.injEq] at kept
    obtain ⟨storing, ring, drain, aborted, log⟩ := kept
    refine iff_of_true (h.moves aborted ?_ ?_) ?_
    · rw [received, log, received]
    · rw [drained, log, unwritten, drain, held, ring, storing]
      rfl
    · cases a <;> first | exact id | cases server
  | false => exact usbMove_delivers_iff attached h (w.usbMove a server)

/-! ### Nothing stays behind -/

end Relay

/-- The steps of the drain task before it waits again. -/
def DrainTask.stepsLeft : DrainTask → Nat
  | .receiveUpTo => 0
  | .returnItem => 1
  | .send [] => 2
  | .send (_ :: _) => 3
  | .checkThread _ => 4
  | .checkSocket _ => 5

namespace Relay

variable {socket : Int} {before : List UInt8} {w n : Relay}

/-- A byte in the ring buffer costs at most a whole turn of the drain task. -/
def stepsLeft (w : Relay) : Nat := 6 * w.ring.stored.length + w.drain.stepsLeft

/-- A step that loses nothing in any state. -/
def Harmless (a : StayInput) : Prop := ∀ w : Relay, ¬ w.Loses a.1

/-- A step forward of the drain task that leaves the rest alone. -/
structure Forward (w : Relay) (a : StayInput) : Prop where
  harmless : Harmless a
  fewer : (w.stayStep a).stepsLeft < w.stepsLeft
  storing : (w.stayStep a).storing = w.storing
  received : (w.stayStep a).received = w.received

theorem forward_of_eq {a : StayInput} (harmless : Harmless a) (running : w.aborted = false)
    (same : w.handle a.1 = n) (fewer : n.stepsLeft < w.stepsLeft) (storing : n.storing = w.storing)
    (received : n.received = w.received) : w.Forward a := by
  have taken : w.stayStep a = n := (step_of_running a.1 running).trans same
  exact ⟨harmless, taken ▸ fewer, taken ▸ storing, taken ▸ received⟩

theorem forward_receive (running : w.aborted = false) (waiting : w.drain = .receiveUpTo)
    (stored : w.ring.stored ≠ []) : w.Forward ⟨.drainReceive lengthMax, nofun⟩ := by
  have some_bytes : w.ring.stored.take (min lengthMax lengthMax) ≠ [] := by
    rw [Nat.min_self]
    exact fun none => stored ((List.take_eq_nil_iff.mp none).resolve_left (by decide))
  have taken : w.handle (.drainReceive lengthMax) =
      { w with
        ring := w.ring.receive (min lengthMax lengthMax)
        drain := .checkSocket (w.ring.stored.take (min lengthMax lengthMax)) }.note
          (.handed (values (w.ring.stored.take (min lengthMax lengthMax)))) := by
    simp only [handle, ringbufferReceiveUpTo, waiting, if_neg some_bytes]
  refine forward_of_eq (fun _ => id) running taken ?_ rfl ?_
  · have positive := List.length_pos_iff.mpr stored
    simp only [stepsLeft, note, waiting, DrainTask.stepsLeft, ByteRing.stored_receive,
      List.length_drop, Nat.min_self, lengthMax]
    omega
  · exact (received_note _ _).trans (List.append_nil _)

theorem forward_checkSocket (live : Live w.session.server) (running : w.aborted = false)
    {item : List SerialByte} (at_check : w.drain = .checkSocket item) :
    w.Forward ⟨.drainCheckSocket, nofun⟩ := by
  have passed : w.handle .drainCheckSocket = { w with drain := .checkThread item } := by
    simp only [handle, checkSocket, at_check, if_neg (Int.not_lt.mpr live.socket)]
  refine forward_of_eq (fun _ => id) running passed ?_ rfl rfl
  simp [stepsLeft, at_check, DrainTask.stepsLeft]

theorem forward_checkThread (live : Live w.session.server) (running : w.aborted = false)
    {item : List SerialByte} (at_check : w.drain = .checkThread item)
    (sized : item.length ≤ lengthMax) : w.Forward ⟨.drainCheckThread, nofun⟩ := by
  have small : ¬ sendDataCapacity / 2 < item.length := Nat.not_lt.mpr sized
  have passed : w.handle .drainCheckThread =
      { w with drain := .send (escapeItem item) }.note
        (.checksPassed w.session.server.clientSocket w.liveSocket) := by
    simp only [handle, checkThread, at_check, if_neg live.thread, if_neg small]
  refine forward_of_eq (fun _ => id) running passed ?_ rfl ?_
  · cases escapeItem item <;> simp [stepsLeft, note, at_check, DrainTask.stepsLeft]
  · exact (received_note _ _).trans (List.append_nil _)

theorem forward_send (running : w.aborted = false) {toWrite : List SerialByte}
    (at_send : w.drain = .send toWrite) :
    w.Forward ⟨.drainSend toWrite.length, nofun⟩ := by
  have positive : ¬ (toWrite.length : Int) < 0 := Int.not_lt.mpr (Int.natCast_nonneg _)
  have harmless : Harmless ⟨.drainSend toWrite.length, nofun⟩ := fun _ loses => positive loses.1
  by_cases done : toWrite = []
  · have returned : w.handle (.drainSend toWrite.length) = w.sendDataReturns 0 := by
      simp only [handle, tcpSendTurn, at_send, if_pos done]
    refine forward_of_eq harmless running returned ?_ rfl ?_
    · simp [stepsLeft, sendDataReturns, note, at_send, done, DrainTask.stepsLeft]
    · exact (received_note _ _).trans (List.append_nil _)
  · have wrote : w.handle (.drainSend toWrite.length) =
        { w.note (.sent w.session.server.clientSocket w.liveSocket w.clients
            (toWrite.take (toWrite.length : Int).toNat)) with
          drain := .send (toWrite.drop (toWrite.length : Int).toNat) } := by
      simp only [handle, tcpSendTurn, at_send, if_neg done, if_neg positive]
    refine forward_of_eq harmless running wrote ?_ rfl ?_
    · obtain ⟨b, rest, rfl⟩ := List.exists_cons_of_ne_nil done
      simp [stepsLeft, note, at_send, DrainTask.stepsLeft]
    · exact (received_note _ _).trans (List.append_nil _)

theorem forward_return (running : w.aborted = false) (at_return : w.drain = .returnItem) :
    w.Forward ⟨.drainReturn, nofun⟩ := by
  have given : w.handle .drainReturn =
      { w with ring := w.ring.giveBack, drain := .receiveUpTo } := by
    simp only [handle, ringbufferReturnItem, at_return]
  refine forward_of_eq (fun _ => id) running given ?_ rfl rfl
  simp [stepsLeft, at_return, DrainTask.stepsLeft, ByteRing.giveBack]

/-- The drain task always has a step, as long as something is left. -/
theorem exists_forward (attached : w.Attached socket) (running : w.aborted = false)
    (left : w.stepsLeft ≠ 0) : ∃ a, w.Forward a := by
  have sized := attached.serving.sized
  cases at_drain : w.drain with
  | receiveUpTo =>
    refine ⟨_, forward_receive running at_drain fun empty => left ?_⟩
    rw [stepsLeft, at_drain, empty]
    rfl
  | checkSocket item => exact ⟨_, forward_checkSocket attached.live running at_drain⟩
  | checkThread item =>
    rw [ItemSized, at_drain] at sized
    exact ⟨_, forward_checkThread attached.live running at_drain sized.2⟩
  | send toWrite => exact ⟨_, forward_send running at_drain⟩
  | returnItem => exact ⟨_, forward_return running at_drain⟩

theorem unwritten_of_done (done : w.stepsLeft = 0) (idle : w.storing = none) :
    w.unwritten = [] := by
  obtain ⟨stored, drain⟩ := Nat.add_eq_zero_iff.mp done
  have empty : w.ring.stored = [] :=
    List.length_eq_zero_iff.mp ((Nat.mul_eq_zero.mp stored).resolve_left (by decide))
  have waiting : w.drain.onTheWay = [] := by
    cases at_drain : w.drain with
    | send toWrite => cases toWrite <;> simp [at_drain, DrainTask.stepsLeft] at drain
    | receiveUpTo | returnItem => rfl
    | checkThread | checkSocket => simp [at_drain, DrainTask.stepsLeft] at drain
  rw [unwritten, waiting, held, empty, idle]
  rfl

end Relay

end Rocom.SerialPort
