import Rocom.Rfc2217.Reachable
import Rocom.SerialPort.Tasks

/-! What a step of each task leaves alone, and what holds in every state of the relay. -/
namespace Rocom.SerialPort

open Rfc2217

/-- The steps of the accept loop, the receive thread and `rfc2217_server_stop`. -/
def Input.isServer : Input → Bool
  | .accept _ | .createThread _ | .recv _ | .recvEnds | .close | .stop => true
  | _ => false

/-- What the server's threads write. -/
structure ServerSide where
  session : Session Bool
  serverThread : ServerThread
  liveSocket : Option Int
  clients : Nat

/-- What the callback and the drain task write. -/
structure UsbSide where
  storing : Option (List UInt8)
  ring : ByteRing SerialByte
  drain : DrainTask
  aborted : Bool
  log : List Record

namespace Relay

def serverSide (w : Relay) : ServerSide := ⟨w.session, w.serverThread, w.liveSocket, w.clients⟩

def usbSide (w : Relay) : UsbSide := ⟨w.storing, w.ring, w.drain, w.aborted, w.log⟩

/-- The task of the USB side that takes the step is at its point. -/
def Ready (w : Relay) : Input → Prop
  | .usbReceive _ => w.storing = none
  | .usbStore => w.storing ≠ none
  | .drainReceive available =>
    w.drain = .receiveUpTo ∧ w.ring.stored.take (min available lengthMax) ≠ []
  | .drainCheckSocket => ∃ item, w.drain = .checkSocket item
  | .drainCheckThread => ∃ item, w.drain = .checkThread item
  | .drainSend _ => ∃ toWrite, w.drain = .send toWrite
  | .drainReturn => w.drain = .returnItem
  | _ => False

/-- Everything that a step of the callback or of the drain task can do. -/
inductive UsbMove (w : Relay) : Input → Relay → Prop
  | waits {a : Input} (idle : ¬ w.Ready a) : UsbMove w a w
  | drops {data : List UInt8} (free : w.storing = none) (flag : w.session.ctx = false) :
      UsbMove w (.usbReceive data) (w.note (.received data))
  | takes {data : List UInt8} (free : w.storing = none) (flag : w.session.ctx = true) :
      UsbMove w (.usbReceive data) { w.note (.received data) with storing := some data }
  | overflows {data : List UInt8} (storing : w.storing = some data)
      (full : w.ring.send (data.map (⟨·, w.clients⟩)) = none) : UsbMove w .usbStore w.abort
  | stores {data : List UInt8} {ring : ByteRing SerialByte} (storing : w.storing = some data)
      (sent : w.ring.send (data.map (⟨·, w.clients⟩)) = some ring) :
      UsbMove w .usbStore { w with ring := ring, storing := none }
  | receives {available : Nat} {item : List SerialByte} (waiting : w.drain = .receiveUpTo)
      (taken : item = w.ring.stored.take (min available lengthMax)) (some_bytes : item ≠ []) :
      UsbMove w (.drainReceive available)
        ({ w with
          ring := w.ring.receive (min available lengthMax)
          drain := .checkSocket item }.note (.handed (values item)))
  | noSocket {item : List SerialByte} (at_check : w.drain = .checkSocket item)
      (socket : w.session.server.clientSocket < 0) :
      UsbMove w .drainCheckSocket (w.sendDataReturns (-1))
  | socket {item : List SerialByte} (at_check : w.drain = .checkSocket item)
      (socket : ¬ w.session.server.clientSocket < 0) :
      UsbMove w .drainCheckSocket { w with drain := .checkThread item }
  | noThread {item : List SerialByte} (at_check : w.drain = .checkThread item)
      (thread : w.session.server.tcpReceiveThread = 0) :
      UsbMove w .drainCheckThread (w.sendDataReturns (-1))
  | asserts {item : List SerialByte} (at_check : w.drain = .checkThread item)
      (thread : w.session.server.tcpReceiveThread ≠ 0)
      (large : sendDataCapacity / 2 < item.length) : UsbMove w .drainCheckThread w.abort
  | copies {item : List SerialByte} (at_check : w.drain = .checkThread item)
      (thread : w.session.server.tcpReceiveThread ≠ 0)
      (small : ¬ sendDataCapacity / 2 < item.length) :
      UsbMove w .drainCheckThread
        ({ w with drain := .send (escapeItem item) }.note
          (.checksPassed w.session.server.clientSocket w.liveSocket))
  | sent {written : Int} (at_send : w.drain = .send []) :
      UsbMove w (.drainSend written) (w.sendDataReturns 0)
  | fails {written : Int} {toWrite : List SerialByte} (at_send : w.drain = .send toWrite)
      (left : toWrite ≠ []) (error : written < 0) :
      UsbMove w (.drainSend written)
        ((w.note (.sent w.session.server.clientSocket w.liveSocket w.clients
          (toWrite.take written.toNat))).sendDataReturns 0)
  | writes {written : Int} {toWrite : List SerialByte} (at_send : w.drain = .send toWrite)
      (left : toWrite ≠ []) (some_written : ¬ written < 0) :
      UsbMove w (.drainSend written)
        { w.note (.sent w.session.server.clientSocket w.liveSocket w.clients
            (toWrite.take written.toNat)) with
          drain := .send (toWrite.drop written.toNat) }
  | givesBack (at_return : w.drain = .returnItem) :
      UsbMove w .drainReturn { w with ring := w.ring.giveBack, drain := .receiveUpTo }

theorem usbMove (w : Relay) (a : Input) (h : a.isServer = false) : UsbMove w a (w.handle a) := by
  cases a with
  | usbReceive data =>
    simp only [handle, onDataReceivedFromUsb]
    cases free : w.storing with
    | some data => exact .waits fun ready => by simp [Ready, free] at ready
    | none =>
      cases flag : w.session.ctx with
      | false =>
        rw [if_pos (by simp [note, flag])]
        exact .drops free flag
      | true =>
        rw [if_neg (by simp [note, flag])]
        exact .takes free flag
  | usbStore =>
    simp only [handle, ringbufferSend]
    split
    · rename_i idle
      exact .waits fun ready => ready idle
    · rename_i data storing
      split
      · rename_i full
        exact .overflows storing full
      · rename_i ring sent
        exact .stores storing sent
  | drainReceive available =>
    simp only [handle, ringbufferReceiveUpTo]
    split
    · rename_i waiting
      split
      · rename_i empty
        exact .waits fun ready => ready.2 empty
      · rename_i some_bytes
        exact .receives waiting rfl some_bytes
    · rename_i elsewhere
      exact .waits fun ready => elsewhere ready.1
  | drainCheckSocket =>
    simp only [handle, checkSocket]
    split
    · rename_i item at_check
      split
      · rename_i none_yet
        exact .noSocket at_check none_yet
      · rename_i some_socket
        exact .socket at_check some_socket
    · rename_i elsewhere
      exact .waits fun ready => elsewhere _ ready.choose_spec
  | drainCheckThread =>
    simp only [handle, checkThread]
    split
    · rename_i item at_check
      split
      · rename_i none_started
        exact .noThread at_check none_started
      · rename_i started
        split
        · rename_i large
          exact .asserts at_check started large
        · rename_i small
          exact .copies at_check started small
    · rename_i elsewhere
      exact .waits fun ready => elsewhere _ ready.choose_spec
  | drainSend written =>
    simp only [handle, tcpSendTurn]
    split
    · rename_i toWrite at_send
      split
      · rename_i done
        rw [done] at at_send
        exact .sent at_send
      · rename_i left
        split
        · rename_i error
          exact .fails at_send left error
        · rename_i some_written
          exact .writes at_send left some_written
    · rename_i elsewhere
      exact .waits fun ready => elsewhere _ ready.choose_spec
  | drainReturn =>
    simp only [handle, ringbufferReturnItem]
    split
    · rename_i at_return
      exact .givesBack at_return
    · rename_i elsewhere
      exact .waits fun ready => elsewhere ready
  | accept | createThread | recv | recvEnds | close | stop => cases h

theorem handle_serverSide (w : Relay) (a : Input) (h : a.isServer = false) :
    (w.handle a).serverSide = w.serverSide := by
  have move := w.usbMove a h
  generalize w.handle a = n at move
  cases move <;> rfl

theorem handle_usbSide (w : Relay) (a : Input) (h : a.isServer = true) :
    (w.handle a).usbSide = w.usbSide := by
  cases a with
  | accept socket =>
    simp only [handle, accept]
    split
    · split <;> rfl
    · rfl
  | createThread thread =>
    simp only [handle, createThread]
    split
    · split <;> rfl
    · rfl
  | recv chunk =>
    simp only [handle, recv]
    split <;> rfl
  | recvEnds =>
    simp only [handle, recvEnds]
    split <;> rfl
  | close =>
    simp only [handle, close]
    split <;> rfl
  | stop =>
    simp only [handle, stop]
    split <;> rfl
  | usbReceive | usbStore | drainReceive | drainCheckSocket | drainCheckThread | drainSend
  | drainReturn => cases h

end Relay

/-! The receive thread leaves the socket and the thread alone. -/

def connection (server : Server) : Int × Nat := (server.clientSocket, server.tcpReceiveThread)

section Parser
variable {σ : Type} (cfg : Config σ) (s : Session σ)

theorem collectSuboption_connection (c : UInt8) :
    connection (collectSuboption s c).server = connection s.server := by
  by_cases room : s.server.suboptionSize < suboptionCapacity
  · rw [collectSuboption_room s c room]
    rfl
  · rw [collectSuboption_full s c room]
    rfl

theorem parseStore_connection (c : UInt8) :
    connection (parseStore cfg s c).server = connection s.server := by
  unfold parseStore
  split
  · exact collectSuboption_connection s c
  · rw [onDataReceived_server]

theorem afterIac_connection (c : UInt8) :
    connection (afterIac cfg s c).server = connection s.server := by
  unfold afterIac
  split
  · rfl
  · split
    · have kept := congrArg connection (processSubnegotiation_server cfg s)
      exact kept
    · split <;> rfl

theorem parseByte_connection (c : UInt8) :
    connection (parseByte cfg s c).server = connection s.server := by
  unfold parseByte
  split
  · split
    · rfl
    · exact parseStore_connection cfg s c
  · split
    · exact parseStore_connection cfg s c
    · exact afterIac_connection cfg s c
  · obtain ⟨_, _, same⟩ := telnetNegotiateOption_server cfg s s.server.telnetCommand c
    have kept := congrArg connection same
    exact kept

theorem receive_connection (chunk : List UInt8) :
    connection (processReceivedOverTcp cfg s chunk).server = connection s.server := by
  rcases process_server_cases cfg s chunk with same | parsed
  · rw [same]
  · rw [parsed]
    exact Runs.invariant (P := fun t : Session σ => connection t.server = connection s.server)
      (fun t c ht => (parseByte_connection cfg t c).trans ht) s rfl chunk

end Parser

namespace Relay

/-- `client_socket` is the accepted socket from `accept` to `close`. -/
def SocketTracked (w : Relay) : Prop :=
  match w.serverThread with
  | .createThread | .join | .close =>
    0 ≤ w.session.server.clientSocket ∧ w.liveSocket = some w.session.server.clientSocket
  | .accept | .exited => w.liveSocket = none

theorem step_of_running {w : Relay} (a : Input) (running : w.aborted = false) :
    w.step a = w.handle a := by
  unfold step
  rw [running]
  rfl

theorem step_cases (w : Relay) (a : Input) : w.step a = w ∨ w.step a = w.handle a := by
  unfold step
  split
  · exact Or.inl rfl
  · exact Or.inr rfl

theorem step_socketTracked (w : Relay) (a : Input) (h : w.SocketTracked) :
    (w.step a).SocketTracked := by
  rcases step_cases w a with same | handled
  · rw [same]
    exact h
  rw [handled]
  cases server : a.isServer with
  | false =>
    have kept := handle_serverSide w a server
    simp only [serverSide, ServerSide.mk.injEq] at kept
    obtain ⟨session, thread, live, _⟩ := kept
    unfold SocketTracked
    rw [session, thread, live]
    exact h
  | true =>
    unfold SocketTracked at h
    cases a with
    | accept socket =>
      simp only [handle, accept]
      split
      · rename_i waiting
        simp only [waiting] at h
        split
        · exact h
        · rename_i accepted
          exact ⟨Int.not_lt.mp accepted, rfl⟩
      · exact h
    | createThread thread =>
      simp only [handle, createThread]
      split
      · rename_i creating
        simp only [creating] at h
        split <;> exact h
      · exact h
    | recv chunk =>
      simp only [handle, recv]
      split
      · rename_i joining
        have socket := congrArg Prod.fst (receive_connection serialConfig w.session chunk)
        simp only [connection] at socket
        simp only [joining] at h
        unfold SocketTracked
        simp only [joining, socket]
        exact h
      · exact h
    | recvEnds =>
      simp only [handle, recvEnds]
      split
      · rename_i joining
        simp only [joining] at h
        exact h
      · exact h
    | close =>
      simp only [handle, close]
      split
      · rfl
      · exact h
    | stop =>
      simp only [handle, stop]
      split <;> exact h
    | usbReceive | usbStore | drainReceive | drainCheckSocket | drainCheckThread | drainSend
    | drainReturn => cases server

/-- While the server thread waits for a client, no accepted socket is open. -/
def Unserved (w : Relay) : Prop := w.serverThread = .accept ∨ w.serverThread = .exited

instance (w : Relay) : Decidable w.Unserved :=
  inferInstanceAs (Decidable (w.serverThread = .accept ∨ w.serverThread = .exited))

theorem SocketTracked.live_iff {w : Relay} (h : w.SocketTracked) :
    w.liveSocket = some w.session.server.clientSocket ↔ ¬ w.Unserved := by
  unfold SocketTracked at h
  unfold Unserved
  cases thread : w.serverThread with
  | accept | exited =>
    simp only [thread] at h
    simp [h]
  | createThread | join | close =>
    simp only [thread] at h
    simp [h.2]

/-- The item of a call is what one receive call returned. -/
def ItemSized (w : Relay) : Prop :=
  match w.drain with
  | .checkSocket item | .checkThread item => item ≠ [] ∧ item.length ≤ lengthMax
  | _ => True

theorem step_itemSized (w : Relay) (a : Input) (h : w.ItemSized) : (w.step a).ItemSized := by
  rcases step_cases w a with same | handled
  · rw [same]
    exact h
  rw [handled]
  cases server : a.isServer with
  | true =>
    have kept := congrArg UsbSide.drain (handle_usbSide w a server)
    simp only [usbSide] at kept
    unfold ItemSized
    rw [kept]
    exact h
  | false =>
    have move := w.usbMove a server
    generalize w.handle a = n at move ⊢
    cases move with
    | waits | drops | takes | overflows | stores | asserts => exact h
    | receives waiting taken some_bytes =>
      refine ⟨some_bytes, ?_⟩
      rw [taken, List.length_take]
      omega
    | socket at_check =>
      simp only [ItemSized, at_check] at h
      exact h
    | noSocket | noThread | copies | sent | fails | writes | givesBack => trivial

end Relay

end Rocom.SerialPort
