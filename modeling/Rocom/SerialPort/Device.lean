import Rocom.Lib.Runs
import Rocom.Rfc2217.Server

/-! The way from the client to the USB device: the open loop, the event callback and the three
callbacks of the client in main/serial_port_relay.c. A step is one step of the relay task, of the
driver's task or of the client's receive thread; a call of the driver is a step of its own. -/
namespace Rocom.SerialPort

abbrev controlSetDtr : UInt32 := 8
abbrev controlClearDtr : UInt32 := 9
abbrev controlSetRts : UInt32 := 11
abbrev controlClearRts : UInt32 := 12

def IsDtr (control : UInt32) : Prop := control = controlSetDtr ∨ control = controlClearDtr

def IsRts (control : UInt32) : Prop := control = controlSetRts ∨ control = controlClearRts

abbrev Handle := Nat

structure LineCoding where
  dwDTERate : UInt32
  bCharFormat : UInt8
  bParityType : UInt8
  bDataBits : UInt8
deriving DecidableEq, Repr

/-- A device the driver holds open, with DTR and RTS as they were last driven. -/
structure OpenDevice where
  handle : Handle
  coding : LineCoding
  lines : Option (Bool × Bool)
deriving DecidableEq, Repr

/-- Where the loop of `serial_port_relay` is. -/
inductive RelayTask where
  | opening
  | resetBaudrate
  | driveLines
  | waiting
deriving DecidableEq, Repr

/-- Where `handle_event` is. -/
inductive EventCallback where
  | idle
  | give
deriving DecidableEq, Repr

/-- Where the receive thread is: outside the callbacks, or at the next call of one of them. -/
inductive ClientThread where
  | idle
  | setControlLineState (control : UInt32)
  | compareBaudrate (baudrate : UInt32)
  | lineCodingGet (baudrate : UInt32)
  | lineCodingSet (baudrate : UInt32) (coding : LineCoding)
  | dataTx (data : List UInt8)
deriving DecidableEq, Repr

inductive Operation where
  | setControlLineState (dtr rts : Bool)
  | lineCodingGet
  | lineCodingSet (coding : LineCoding)
  | dataTxBlocking (data : List UInt8)
deriving DecidableEq, Repr

/-- A call made for the client, with whether its handle was open, or what a callback returned. -/
inductive DeviceRecord where
  | called (operation : Operation) (handle : Option Handle) (opened : Bool)
  | controlAnswered (control answer : UInt32)
  | baudrateAnswered (baudrate answer : UInt32)
deriving DecidableEq, Repr

/-- `openDevices` is the driver's; `semaphore` is `s_device_disconnected_sem`. -/
structure DeviceRelay where
  cdcDev : Option Handle
  sBaudrate : UInt32
  sDtr : Bool
  sRts : Bool
  relayTask : RelayTask
  event : EventCallback
  semaphore : Bool
  client : ClientThread
  openDevices : List OpenDevice
  aborted : Bool
  log : List DeviceRecord
deriving DecidableEq

namespace DeviceRelay

def note (w : DeviceRelay) (r : DeviceRecord) : DeviceRelay := { w with log := w.log ++ [r] }

def abort (w : DeviceRelay) : DeviceRelay := { w with aborted := true }

/-- `cdc_dev` is the handle of an open device. -/
def opened (w : DeviceRelay) : Bool := w.openDevices.any (some ·.handle == w.cdcDev)

def goto (w : DeviceRelay) (client : ClientThread) : DeviceRelay := { w with client := client }

/-- The device of `cdc_dev` after a successful call. -/
def update (w : DeviceRelay) (f : OpenDevice → OpenDevice) : DeviceRelay :=
  { w with openDevices := w.openDevices.map fun d => if some d.handle = w.cdcDev then f d else d }

def setLines (w : DeviceRelay) (dtr rts : Bool) : DeviceRelay :=
  w.update fun d => { d with lines := some (dtr, rts) }

def setCoding (w : DeviceRelay) (coding : LineCoding) : DeviceRelay :=
  w.update fun d => { d with coding := coding }

/-- A call with `cdc_dev` for the client. -/
def call (w : DeviceRelay) (operation : Operation) : DeviceRelay :=
  w.note (.called operation w.cdcDev w.opened)

/-- `cdc_acm_host_open` returns. A failed one may clear the handle. -/
def openReturns (w : DeviceRelay) (device : Option (Handle × LineCoding)) (clears : Bool) :
    DeviceRelay :=
  match w.relayTask with
  | .opening =>
    match device with
    | none => if clears then { w with cdcDev := none } else w
    | some (handle, coding) =>
      { w with
        cdcDev := some handle
        openDevices := ⟨handle, coding, none⟩ :: w.openDevices
        relayTask := .resetBaudrate }
  | _ => w

def resetBaudrate (w : DeviceRelay) : DeviceRelay :=
  match w.relayTask with
  | .resetBaudrate => { w with sBaudrate := 115200, relayTask := .driveLines }
  | _ => w

/-- The relay task's own `cdc_acm_host_set_control_line_state`, under `ESP_ERROR_CHECK`. -/
def driveLines (w : DeviceRelay) (ok : Bool) : DeviceRelay :=
  match w.relayTask with
  | .driveLines =>
    if ok then { w.setLines true false with relayTask := .waiting }
    else w.abort
  | _ => w

def takeSemaphore (w : DeviceRelay) : DeviceRelay :=
  match w.relayTask with
  | .waiting => if w.semaphore then { w with semaphore := false, relayTask := .opening } else w
  | _ => w

/-- `CDC_ACM_HOST_DEVICE_DISCONNECTED` for an open device, up to the checked close. -/
def disconnected (w : DeviceRelay) (handle : Handle) (ok : Bool) : DeviceRelay :=
  match w.event with
  | .idle =>
    if w.openDevices.any (·.handle == handle) then
      if ok then
        { w with
          openDevices := w.openDevices.filter (·.handle != handle)
          event := .give }
      else w.abort
    else w
  | .give => w

def giveSemaphore (w : DeviceRelay) : DeviceRelay :=
  match w.event with
  | .give => { w with semaphore := true, event := .idle }
  | .idle => w

/-- The assignments of `on_control`, none for a request it does not know. -/
def setLine (w : DeviceRelay) (control : UInt32) : Option DeviceRelay :=
  if control = controlSetDtr then some { w with sDtr := true }
  else if control = controlClearDtr then some { w with sDtr := false }
  else if control = controlSetRts then some { w with sRts := true }
  else if control = controlClearRts then some { w with sRts := false }
  else none

def onControl (w : DeviceRelay) (control : UInt32) : DeviceRelay :=
  match w.client with
  | .idle =>
    match w.setLine control with
    | none => w.note (.controlAnswered control control)
    | some w =>
      if w.cdcDev ≠ none then w.goto (.setControlLineState control)
      else w.note (.controlAnswered control control)
  | _ => w

def callSetControlLineState (w : DeviceRelay) (ok : Bool) : DeviceRelay :=
  match w.client with
  | .setControlLineState control =>
    let w := w.call (.setControlLineState w.sDtr w.sRts)
    let w := if ok then w.setLines w.sDtr w.sRts else w
    (w.goto .idle).note (.controlAnswered control control)
  | _ => w

def onBaudrate (w : DeviceRelay) (baudrate : UInt32) : DeviceRelay :=
  match w.client with
  | .idle =>
    if w.cdcDev = none then w.note (.baudrateAnswered baudrate baudrate)
    else w.goto (.compareBaudrate baudrate)
  | _ => w

def compareBaudrate (w : DeviceRelay) : DeviceRelay :=
  match w.client with
  | .compareBaudrate baudrate =>
    if baudrate = w.sBaudrate then
      (w.goto .idle).note (.baudrateAnswered baudrate w.sBaudrate)
    else { w with sBaudrate := baudrate, client := .lineCodingGet baudrate }
  | _ => w

/-- `cdc_acm_host_line_coding_get` reads `coding`, or fails. -/
def callLineCodingGet (w : DeviceRelay) (result : Option LineCoding) : DeviceRelay :=
  match w.client with
  | .lineCodingGet baudrate =>
    let w := w.call .lineCodingGet
    match result with
    | none => w.abort
    | some coding => w.goto (.lineCodingSet baudrate { coding with dwDTERate := baudrate })
  | _ => w

def callLineCodingSet (w : DeviceRelay) (ok : Bool) : DeviceRelay :=
  match w.client with
  | .lineCodingSet baudrate coding =>
    let w := w.call (.lineCodingSet coding)
    if ok then ((w.setCoding coding).goto .idle).note (.baudrateAnswered baudrate baudrate)
    else w.abort
  | _ => w

def onDataReceivedFromRfc2217 (w : DeviceRelay) (data : List UInt8) : DeviceRelay :=
  match w.client with
  | .idle => if w.cdcDev ≠ none then w.goto (.dataTx data) else w
  | _ => w

/-- A failed transfer is only logged. -/
def callDataTxBlocking (w : DeviceRelay) : DeviceRelay :=
  match w.client with
  | .dataTx data => (w.call (.dataTxBlocking data)).goto .idle
  | _ => w

end DeviceRelay

inductive DeviceInput where
  | openReturns (device : Option (Handle × LineCoding)) (clears : Bool)
  | resetBaudrate
  | driveLines (ok : Bool)
  | takeSemaphore
  | disconnected (handle : Handle) (ok : Bool)
  | giveSemaphore
  | onControl (control : UInt32)
  | callSetControlLineState (ok : Bool)
  | onBaudrate (baudrate : UInt32)
  | compareBaudrate
  | callLineCodingGet (result : Option LineCoding)
  | callLineCodingSet (ok : Bool)
  | onDataReceived (data : List UInt8)
  | callDataTxBlocking
deriving DecidableEq, Repr

namespace DeviceRelay

def handle (w : DeviceRelay) : DeviceInput → DeviceRelay
  | .openReturns device clears => w.openReturns device clears
  | .resetBaudrate => w.resetBaudrate
  | .driveLines ok => w.driveLines ok
  | .takeSemaphore => w.takeSemaphore
  | .disconnected handle ok => w.disconnected handle ok
  | .giveSemaphore => w.giveSemaphore
  | .onControl control => w.onControl control
  | .callSetControlLineState ok => w.callSetControlLineState ok
  | .onBaudrate baudrate => w.onBaudrate baudrate
  | .compareBaudrate => w.compareBaudrate
  | .callLineCodingGet result => w.callLineCodingGet result
  | .callLineCodingSet ok => w.callLineCodingSet ok
  | .onDataReceived data => w.onDataReceivedFromRfc2217 data
  | .callDataTxBlocking => w.callDataTxBlocking

/-- A step of a task that is not at that point does nothing, and nothing runs after `abort`. -/
def step (w : DeviceRelay) (a : DeviceInput) : DeviceRelay := if w.aborted then w else w.handle a

def start : DeviceRelay where
  cdcDev := none
  sBaudrate := 115200
  sDtr := false
  sRts := false
  relayTask := .opening
  event := .idle
  semaphore := false
  client := .idle
  openDevices := []
  aborted := false
  log := []

end DeviceRelay

end Rocom.SerialPort
