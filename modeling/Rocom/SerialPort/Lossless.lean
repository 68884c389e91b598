import Rocom.Rfc2217.Context
import Rocom.Rfc2217.Wire
import Rocom.SerialPort.Steps

/-! The way from USB to the client while one client stays connected. Nothing holds the USB side
back, so the relay lives as long as every packet finds room in the ring buffer. -/
namespace Rocom.SerialPort

open Rfc2217

def Record.receivedBytes : Record → List UInt8
  | .received data => data
  | _ => []

def Record.handedBytes : Record → List UInt8
  | .handed data => data
  | _ => []

theorem values_escapeItem (item : List SerialByte) :
    values (escapeItem item) = escapeIac (values item) := by
  unfold escapeItem escapeIac Stuffing.double values
  rw [List.map_flatMap, List.flatMap_map]
  congr 1
  funext b
  split
  · rename_i isIac
    simp [isIac]
  · simp

theorem send_data_eq (s : Session Bool) (live : Live s.server) {item : List SerialByte}
    (sized : item.length ≤ lengthMax) :
    rfc2217ServerSendData s (values item) = .ok (tcpSend s (values (escapeItem item)), 0) := by
  have small : ¬ sendDataCapacity / 2 < (values item).length := by
    rw [values, List.length_map]
    exact Nat.not_lt.mpr sized
  have room : 0 + 2 * (values item).length ≤ sendDataCapacity := by
    rw [values, List.length_map, sendDataCapacity]
    simp only [lengthMax] at sized
    omega
  have copied := copyEscaped_ok [] (values item) room
  simp only [rfc2217ServerSendData, if_neg (Int.not_lt.mpr live.socket), if_neg live.thread,
    if_neg small, copied, bind, Except.bind, List.nil_append, values_escapeItem]

namespace Relay

/-- The two checks of one call, undisturbed, leave what `rfc2217_server_send_data` sends. -/
theorem checks_send_data (w : Relay) (live : Live w.session.server) {item : List SerialByte}
    (called : w.drain = .checkSocket item) (sized : item.length ≤ lengthMax) :
    w.checkSocket.checkThread.drain = .send (escapeItem item) ∧
      rfc2217ServerSendData w.session (values item) =
        .ok (tcpSend w.session (values (escapeItem item)), 0) := by
  have passes : ¬ sendDataCapacity / 2 < item.length := by
    rw [sendDataCapacity]
    simp only [lengthMax] at sized
    omega
  have first : w.checkSocket = { w with drain := .checkThread item } := by
    simp only [checkSocket, called, if_neg (Int.not_lt.mpr live.socket)]
  refine ⟨?_, send_data_eq w.session live sized⟩
  rw [first]
  simp only [checkThread, if_neg live.thread, if_neg passes]
  rfl

/-- The bytes that came from USB. -/
def received (w : Relay) : List UInt8 := w.log.flatMap Record.receivedBytes

/-- The payload given to `rfc2217_server_send_data`. -/
def handed (w : Relay) : List UInt8 := w.log.flatMap Record.handedBytes

/-- The bytes in the ring buffer, and behind them the packet of a callback that has not returned. -/
def held (w : Relay) : List UInt8 := values w.ring.stored ++ w.storing.getD []

/-- The relay has not aborted, and what it was given is handed on or held, in order. `before` is
what it held to begin with. -/
def Lossless (before : List UInt8) (w : Relay) : Prop :=
  w.aborted = false ∧ w.handed ++ w.held = before ++ w.received

instance (before : List UInt8) (w : Relay) : Decidable (w.Lossless before) :=
  inferInstanceAs (Decidable (_ ∧ _))

/-- The packet of the callback is larger than the room that is free. -/
def Overflows (w : Relay) : Input → Prop
  | .usbStore => ∃ data ∈ w.storing, w.ring.room < data.length
  | _ => False

/-- A state of the relay with a client that has negotiated. -/
structure Connected (w : Relay) : Prop where
  reached : ∃ before : List Input, w = before.foldl step start
  joining : w.serverThread = .join
  flag : w.session.ctx = true
  running : w.aborted = false

/-- What holds as long as the client stays. -/
structure Serving (w : Relay) : Prop where
  joining : w.serverThread = .join
  flag : w.session.ctx = true
  sized : w.ItemSized

theorem serialConfig_keeps : Keeps serialConfig (· = true) where
  connected _ h _ _ := by
    cases h
    rfl
  baudrate _ h _ _ ctx := by
    cases h
    exact ctx
  control _ h _ _ ctx := by
    cases h
    exact ctx
  purge _ h _ _ _ := by cases h

theorem handle_serving {w : Relay} (h : w.Serving) (a : Input) (stays : a ≠ .recvEnds) :
    (w.handle a).serverThread = .join ∧ (w.handle a).session.ctx = true := by
  cases server : a.isServer with
  | false =>
    have kept := handle_serverSide w a server
    simp only [serverSide, ServerSide.mk.injEq] at kept
    rw [kept.1, kept.2.1]
    exact ⟨h.joining, h.flag⟩
  | true =>
    cases a with
    | accept socket =>
      simp only [handle, accept, h.joining]
      exact ⟨trivial, h.flag⟩
    | createThread thread =>
      simp only [handle, createThread, h.joining]
      exact ⟨trivial, h.flag⟩
    | recv chunk =>
      simp only [handle, recv, h.joining]
      exact ⟨trivial, processReceivedOverTcp_ctx serialConfig_keeps w.session h.flag chunk⟩
    | recvEnds => exact absurd rfl stays
    | close =>
      simp only [handle, close, h.joining]
      exact ⟨trivial, h.flag⟩
    | stop =>
      simp only [handle, stop, h.joining]
      exact ⟨trivial, h.flag⟩
    | usbReceive | usbStore | drainReceive | drainCheckSocket | drainCheckThread | drainSend
    | drainReturn => cases server

theorem step_serving (w : Relay) (a : Input) (stays : a ≠ .recvEnds) (h : w.Serving) :
    (w.step a).Serving := by
  have sized := step_itemSized w a h.sized
  rcases step_cases w a with same | handled
  · rw [same]
    exact h
  · obtain ⟨joining, flag⟩ := handle_serving h a stays
    rw [handled] at sized ⊢
    exact ⟨joining, flag, sized⟩

theorem received_note (w : Relay) (r : Record) :
    (w.note r).received = w.received ++ r.receivedBytes := by
  simp [received, note]

theorem handed_note (w : Relay) (r : Record) :
    (w.note r).handed = w.handed ++ r.handedBytes := by
  simp [handed, note]

theorem handed_held_note (w : Relay) (r : Record) :
    (w.note r).handed ++ (w.note r).held = w.handed ++ r.handedBytes ++ w.held := by
  rw [handed_note]
  rfl

/-- Steps that neither store nor hand on a byte. -/
theorem Lossless.note {before : List UInt8} {w : Relay} (h : w.Lossless before) {r : Record}
    (received : r.receivedBytes = []) (handed : r.handedBytes = []) :
    (w.note r).Lossless before := by
  refine ⟨h.1, ?_⟩
  rw [handed_held_note, received_note, received, handed, List.append_nil, List.append_nil]
  exact h.2

theorem Lossless.sendDataReturns {before : List UInt8} {w : Relay} (h : w.Lossless before)
    (result : Int) : (w.sendDataReturns result).Lossless before := by
  have moved : ({ w with drain := .returnItem } : Relay).Lossless before := h
  exact moved.note rfl rfl

theorem Lossless.of_usbSide {before : List UInt8} {w n : Relay} (h : w.Lossless before)
    (same : n.usbSide = w.usbSide) : n.Lossless before := by
  simp only [usbSide, UsbSide.mk.injEq] at same
  obtain ⟨storing, ring, -, aborted, log⟩ := same
  unfold Lossless Relay.handed Relay.held Relay.received
  rw [storing, ring, aborted, log]
  exact h

theorem Overflows.ready {w : Relay} {a : Input} (overflow : w.Overflows a) : w.Ready a := by
  unfold Overflows at overflow
  split at overflow
  · obtain ⟨data, storing, _⟩ := overflow
    exact fun idle => Option.some_ne_none data (storing.symm.trans idle)
  · exact overflow.elim

/-- The packet of the callback is between the ring buffer and the device. -/
theorem Lossless.takes {before : List UInt8} {w : Relay} (h : w.Lossless before)
    (free : w.storing = none) (data : List UInt8) :
    ({ w.note (.received data) with storing := some data } : Relay).Lossless before := by
  refine ⟨h.1, ?_⟩
  have balance := h.2
  simp only [held, free, Option.getD_none, List.append_nil] at balance
  simp only [Relay.note, Relay.handed, held, Option.getD_some, Relay.received,
    List.flatMap_append]
  simp only [Relay.handed, Relay.received] at balance
  simp [← List.append_assoc, balance, Record.handedBytes, Record.receivedBytes]

theorem Lossless.stores {before : List UInt8} {w : Relay} (h : w.Lossless before)
    {data : List UInt8} {ring : ByteRing SerialByte} (storing : w.storing = some data)
    (sent : w.ring.send (data.map (⟨·, w.clients⟩)) = some ring) :
    ({ w with ring := ring, storing := none } : Relay).Lossless before := by
  refine ⟨h.1, ?_⟩
  have balance := h.2
  have stored := ByteRing.stored_send sent
  simp only [held, storing, Option.getD_some] at balance
  simpa [held, stored, values, Function.comp_def, Relay.handed, Relay.received] using balance

theorem Lossless.receives {before : List UInt8} {w : Relay} (h : w.Lossless before) (n : Nat) :
    ({ w with
      ring := w.ring.receive n
      drain := .checkSocket (w.ring.stored.take n) }.note
        (.handed (values (w.ring.stored.take n)))).Lossless before := by
  refine ⟨h.1, ?_⟩
  rw [handed_held_note, received_note]
  have balance := h.2
  have parts :
      values (w.ring.stored.take n) ++ values (w.ring.stored.drop n) = values w.ring.stored := by
    rw [values, values, values, ← List.map_append, List.take_append_drop]
  rw [held, ← parts] at balance
  simpa only [held, Record.handedBytes, Record.receivedBytes, ByteRing.stored_receive,
    Relay.handed, Relay.received, List.append_assoc, List.append_nil] using balance

theorem overflows_iff {w : Relay} {data : List UInt8} (storing : w.storing = some data) :
    w.Overflows .usbStore ↔ w.ring.send (data.map (⟨·, w.clients⟩)) = none := by
  rw [ByteRing.send_eq_none_iff, List.length_map]
  simp only [Overflows, storing, Option.mem_def, Option.some.injEq, exists_eq_left']

/-- A step of the callback or of the drain task. Only a packet without room is lost. -/
theorem usbMove_lossless_iff {before : List UInt8} {w n : Relay} {a : Input} (serving : w.Serving)
    (h : w.Lossless before) (move : w.UsbMove a n) :
    n.Lossless before ↔ ¬ w.Overflows a := by
  cases move with
  | waits idle => exact iff_of_true h fun overflow => idle overflow.ready
  | drops _ flag => exact absurd (flag.symm.trans serving.flag) Bool.false_ne_true
  | takes free => exact iff_of_true (h.takes free _) id
  | overflows storing full =>
    exact iff_of_false (fun lossless => Bool.noConfusion lossless.1)
      (fun fits => fits ((overflows_iff storing).mpr full))
  | stores storing sent =>
    refine iff_of_true (h.stores storing sent) ?_
    rw [overflows_iff storing, sent]
    exact Option.some_ne_none _
  | receives _ taken =>
    rw [taken]
    exact iff_of_true (h.receives _) id
  | noSocket | noThread | sent => exact iff_of_true (h.sendDataReturns _) id
  | socket | givesBack => exact iff_of_true h id
  | asserts at_check _ large =>
    -- An item of one receive call passes the assertion of rfc2217_server_send_data.
    have sized := serving.sized
    simp only [ItemSized, at_check] at sized
    exact absurd large (Nat.not_lt.mpr sized.2)
  | @copies item =>
    have moved : ({ w with drain := .send (escapeItem item) } : Relay).Lossless before := h
    exact iff_of_true (moved.note rfl rfl) id
  | fails => exact iff_of_true (Lossless.sendDataReturns (h.note rfl rfl) 0) id
  | @writes written toWrite =>
    have noted : (w.note (.sent w.session.server.clientSocket w.liveSocket w.clients
        (toWrite.take written.toNat))).Lossless before := h.note rfl rfl
    exact iff_of_true noted id

theorem handle_lossless_iff {before : List UInt8} {w : Relay} (serving : w.Serving)
    (h : w.Lossless before) (a : Input) :
    (w.handle a).Lossless before ↔ ¬ w.Overflows a := by
  cases server : a.isServer with
  | true =>
    refine iff_of_true (h.of_usbSide (handle_usbSide w a server)) ?_
    cases a <;> first | exact id | cases server
  | false => exact usbMove_lossless_iff serving h (w.usbMove a server)

/-- The steps of all tasks while the client stays connected. -/
abbrev StayInput := { a : Input // a ≠ .recvEnds }

def stayStep (w : Relay) (a : StayInput) : Relay := w.step a.1

/-- The state with an empty history. -/
def fresh (w : Relay) : Relay := { w with log := [] }

theorem Connected.serving {w : Relay} (h : w.Connected) : w.fresh.Serving where
  joining := h.joining
  flag := h.flag
  sized := by
    obtain ⟨before, rfl⟩ := h.reached
    exact Runs.invariant step_itemSized start trivial before

/-- While one client stays connected, the relay loses nothing and lives on exactly as long as
every packet from USB finds room in the ring buffer. -/
theorem lossless_iff_room {w : Relay} (h : w.Connected) (as : List StayInput) :
    Runs.Throughout stayStep (Lossless w.held) w.fresh as ↔
      Runs.Along stayStep (fun n a => ¬ n.Overflows a.1) w.fresh as := by
  have decides : ∀ (n : Relay) (a : StayInput), n.Serving → n.Lossless w.held →
      ((n.stayStep a).Lossless w.held ↔ ¬ n.Overflows a.1) := by
    intro n a serving lossless
    rw [stayStep, step_of_running a.1 lossless.1]
    exact handle_lossless_iff serving lossless a.1
  have first : w.fresh.Lossless w.held := ⟨h.running, by
    simp [Relay.handed, Relay.received, fresh, held]⟩
  exact Runs.throughout_iff_along (fun n a => step_serving n a.1 a.2) decides w.fresh h.serving
    first as

/-- A client that asked for COM-PORT-OPTION. -/
def negotiated : Relay :=
  List.foldl step start [.accept 54, .createThread (some 1), .recv [tIac, tDo, tComPortOption]]

theorem negotiated_connected : negotiated.Connected where
  reached := ⟨_, rfl⟩
  joining := by decide
  flag := by decide
  running := by decide

/-- A byte on its whole way: stored, taken out, sent and given back. -/
def oneByteSteps : List Input :=
  [.usbReceive [65], .usbStore, .drainReceive 1, .drainCheckSocket, .drainCheckThread,
    .drainSend 1, .drainSend 0, .drainReturn]

theorem oneByteSteps_stay : ∀ a ∈ oneByteSteps, a ≠ .recvEnds := by decide

def oneByte : List StayInput := oneByteSteps.attachWith (· ≠ .recvEnds) oneByteSteps_stay

theorem oneByte_fits :
    Runs.Along stayStep (fun n a => ¬ n.Overflows a.1) negotiated.fresh oneByte := by
  refine ⟨id, ?_, id, id, id, id, id, id, trivial⟩
  rintro ⟨data, storing, full⟩
  cases storing
  exact absurd full (by decide)

theorem lossless_iff_room_negotiated :
    Runs.Throughout stayStep (Lossless []) negotiated.fresh oneByte :=
  (lossless_iff_room negotiated_connected oneByte).mpr oneByte_fits

/-- One full packet and one more byte, with the drain task waiting for the processor. -/
def twoPackets : List StayInput :=
  [⟨.usbReceive (List.replicate 1024 0), nofun⟩, ⟨.usbStore, nofun⟩, ⟨.usbReceive [0], nofun⟩,
    ⟨.usbStore, nofun⟩]

theorem second_packet_aborts :
    negotiated.Connected ∧ (twoPackets.foldl stayStep negotiated.fresh).aborted = true ∧
      ¬ Runs.Throughout stayStep (Lossless negotiated.held) negotiated.fresh twoPackets := by
  have aborts : (twoPackets.foldl stayStep negotiated.fresh).aborted = true := by
    decide +kernel
  refine ⟨negotiated_connected, aborts, fun lossless => ?_⟩
  have last := (Runs.throughout_iff_prefix _ _).mp lossless twoPackets (List.prefix_refl _)
  rw [last.1] at aborts
  cases aborts

end Relay

end Rocom.SerialPort
