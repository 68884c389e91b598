import Rocom.Lib.ByteRing
import Rocom.Lib.Runs
import Rocom.Rfc2217.Server

/-! The way from the USB device to the client: the callback and the drain task of
main/serial_port_relay.c with the accept loop and the receive thread of main/rfc2217_server.c.
A step is one step of one of them. What `recv` returns is handled in one step.

Of the FreeRTOS byte buffer (`RINGBUF_TYPE_BYTEBUF`) this takes what is documented:
`xRingbufferSend` stores all of the data or, with no time to wait, none of it;
`xRingbufferReceiveUpTo` lends the oldest bytes, not beyond the wrap; and lent bytes take up room
until `vRingbufferReturnItem`. -/
namespace Rocom.SerialPort

open Rfc2217

/-- A byte of the ring buffer, with the number of clients accepted when it was put there. -/
structure SerialByte where
  value : UInt8
  client : Nat
deriving DecidableEq, Repr

def values (item : List SerialByte) : List UInt8 := item.map (·.value)

/-- Where `usb_to_network` is: at one of its calls of the ring buffer, at one of the two checks of
`rfc2217_server_send_data`, or in the loop of `tcp_send` with what is still to write. -/
inductive DrainTask where
  | receiveUpTo
  | checkSocket (item : List SerialByte)
  | checkThread (item : List SerialByte)
  | send (toWrite : List SerialByte)
  | returnItem
deriving DecidableEq, Repr

/-- Where `server_thread_fn` is. -/
inductive ServerThread where
  | accept
  | createThread
  | join
  | close
  | exited
deriving DecidableEq, Repr

/-- What happened so far. `live` is the accepted socket that has not been closed, `client` the
number of clients accepted. -/
inductive Record where
  | received (data : List UInt8)
  | handed (data : List UInt8)
  | checksPassed (socket : Int) (live : Option Int)
  | sent (socket : Int) (live : Option Int) (client : Nat) (bytes : List SerialByte)
  | returned (result : Int)
deriving DecidableEq, Repr

/-- `s_client_connected` is the context of the session. `storing` is the packet of a callback that
found it set. The last three fields are history. -/
structure Relay where
  session : Session Bool
  serverThread : ServerThread
  storing : Option (List UInt8)
  ring : ByteRing SerialByte
  drain : DrainTask
  aborted : Bool
  liveSocket : Option Int
  clients : Nat
  log : List Record
deriving DecidableEq

/-- `rfc2217_config`, as far as it concerns the way to the client. -/
def serialConfig : Config Bool where
  onClientConnected := some fun _ => true
  onClientDisconnected := some fun _ => false
  onBaudrate := some fun ctx baudrate => (baudrate, ctx)
  onControl := some fun ctx control => (control, ctx)
  onPurge := none
  onDataReceived := some fun ctx _ => ctx
  onDataReceived_keeps := keeps_context
  dataBufferSize := 2048
  dataBufferSize_pos := relayConfig.dataBufferSize_pos

abbrev ringBufferSize : Nat := 1024
abbrev lengthMax : Nat := 1024

/-- The copy into `send_data` with every 0xff doubled. -/
def escapeItem (item : List SerialByte) : List SerialByte :=
  item.flatMap fun b => if b.value = tIac then [b, b] else [b]

namespace Relay

def note (w : Relay) (r : Record) : Relay := { w with log := w.log ++ [r] }

def abort (w : Relay) : Relay := { w with aborted := true }

/-- `on_data_received_from_usb` up to its test. -/
def onDataReceivedFromUsb (w : Relay) (data : List UInt8) : Relay :=
  match w.storing with
  | some _ => w
  | none =>
    let w := w.note (.received data)
    if !w.session.ctx then w else { w with storing := some data }

/-- `xRingbufferSend` of the callback. -/
def ringbufferSend (w : Relay) : Relay :=
  match w.storing with
  | none => w
  | some data =>
    match w.ring.send (data.map (⟨·, w.clients⟩)) with
    | none => w.abort
    | some ring => { w with ring := ring, storing := none }

/-- `xRingbufferReceiveUpTo` waits for a byte and returns at most `length_max` of them, fewer
where the buffer wraps. -/
def ringbufferReceiveUpTo (w : Relay) (available : Nat) : Relay :=
  match w.drain with
  | .receiveUpTo =>
    let item := w.ring.stored.take (min available lengthMax)
    if item = [] then w
    else
      { w with
        ring := w.ring.receive (min available lengthMax)
        drain := .checkSocket item }.note (.handed (values item))
  | _ => w

def sendDataReturns (w : Relay) (result : Int) : Relay :=
  { w with drain := .returnItem }.note (.returned result)

def checkSocket (w : Relay) : Relay :=
  match w.drain with
  | .checkSocket item =>
    if w.session.server.clientSocket < 0 then w.sendDataReturns (-1)
    else { w with drain := .checkThread item }
  | _ => w

/-- The second check, the assertion and the copy. -/
def checkThread (w : Relay) : Relay :=
  match w.drain with
  | .checkThread item =>
    if w.session.server.tcpReceiveThread = 0 then w.sendDataReturns (-1)
    else if sendDataCapacity / 2 < item.length then w.abort
    else
      { w with drain := .send (escapeItem item) }.note
        (.checksPassed w.session.server.clientSocket w.liveSocket)
  | _ => w

/-- One turn of the loop of `tcp_send`: `send` wrote some bytes or failed. -/
def tcpSendTurn (w : Relay) (written : Int) : Relay :=
  match w.drain with
  | .send toWrite =>
    if toWrite = [] then w.sendDataReturns 0
    else
      let bytes := toWrite.take written.toNat
      let w := w.note (.sent w.session.server.clientSocket w.liveSocket w.clients bytes)
      if written < 0 then w.sendDataReturns 0
      else { w with drain := .send (toWrite.drop written.toNat) }
  | _ => w

def ringbufferReturnItem (w : Relay) : Relay :=
  match w.drain with
  | .returnItem => { w with ring := w.ring.giveBack, drain := .receiveUpTo }
  | _ => w

/-- `accept` returns a socket or -1. -/
def accept (w : Relay) (socket : Int) : Relay :=
  match w.serverThread with
  | .accept =>
    let session := w.session.modify ({ · with clientSocket := socket })
    if socket < 0 then { w with session := session, serverThread := .exited }
    else
      { w with
        session := session
        serverThread := .createThread
        liveSocket := some socket
        clients := w.clients + 1 }
  | _ => w

/-- `pthread_create`, and the start of the thread it made. -/
def createThread (w : Relay) (thread : Option Nat) : Relay :=
  match w.serverThread with
  | .createThread =>
    match thread with
    | none => { w with serverThread := .close }
    | some thread =>
      { w with
        session := startConnection (w.session.modify ({ · with tcpReceiveThread := thread }))
        serverThread := .join }
  | _ => w

def recv (w : Relay) (chunk : List UInt8) : Relay :=
  match w.serverThread with
  | .join => { w with session := processReceivedOverTcp serialConfig w.session chunk }
  | _ => w

/-- `recv` returned 0 or an error: the receive thread ends and is joined. -/
def recvEnds (w : Relay) : Relay :=
  match w.serverThread with
  | .join =>
    { w with
      session := { w.session.log .clientDisconnected with ctx := false }
      serverThread := .close }
  | _ => w

def close (w : Relay) : Relay :=
  match w.serverThread with
  | .close => { w with serverThread := .accept, liveSocket := none }
  | _ => w

/-- `rfc2217_server_stop`, which waits for the receive thread and then for the server thread. -/
def stop (w : Relay) : Relay :=
  match w.serverThread with
  | .join => w
  | _ => { w with session := w.session.modify ({ · with tcpReceiveThread := 0 }) }

end Relay

inductive Input where
  | usbReceive (data : List UInt8)
  | usbStore
  | drainReceive (available : Nat)
  | drainCheckSocket
  | drainCheckThread
  | drainSend (written : Int)
  | drainReturn
  | accept (socket : Int)
  | createThread (thread : Option Nat)
  | recv (chunk : List UInt8)
  | recvEnds
  | close
  | stop
deriving DecidableEq, Repr

namespace Relay

def handle (w : Relay) : Input → Relay
  | .usbReceive data => w.onDataReceivedFromUsb data
  | .usbStore => w.ringbufferSend
  | .drainReceive available => w.ringbufferReceiveUpTo available
  | .drainCheckSocket => w.checkSocket
  | .drainCheckThread => w.checkThread
  | .drainSend written => w.tcpSendTurn written
  | .drainReturn => w.ringbufferReturnItem
  | .accept socket => w.accept socket
  | .createThread thread => w.createThread thread
  | .recv chunk => w.recv chunk
  | .recvEnds => w.recvEnds
  | .close => w.close
  | .stop => w.stop

/-- A step of a task that is not at that point does nothing, and nothing runs after `abort`. -/
def step (w : Relay) (a : Input) : Relay := if w.aborted then w else w.handle a

def start : Relay where
  session := rfc2217ServerCreate false
  serverThread := .accept
  storing := none
  ring := .empty ringBufferSize
  drain := .receiveUpTo
  aborted := false
  liveSocket := none
  clients := 0
  log := []

end Relay

end Rocom.SerialPort
