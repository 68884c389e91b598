import Rocom.Lib.Runs

/-! The class driver of main/class_driver.c: its table of devices, the loop over the pending
actions of a device, the event callback, the loop of `class_driver_task` and
`class_driver_client_deregister`. A step is what one task does under the mutex, or one read of a
flag outside of it. -/
namespace Rocom.Usb

abbrev Client := Nat

/-- A pointer other than NULL. -/
abbrev Handle := Nat

/-- `action_t`, one field for each of its bits. -/
structure Actions where
  openDev : Bool
  getDevInfo : Bool
  getDevDesc : Bool
  getConfigDesc : Bool
  getStrDesc : Bool
  closeDev : Bool
deriving DecidableEq, Repr

def Actions.none : Actions := ⟨false, false, false, false, false, false⟩

/-- `ACTION_CLOSE_DEV` alone. -/
def Actions.close : Actions := { Actions.none with closeDev := true }

def Actions.any (a : Actions) : Bool :=
  a.openDev || a.getDevInfo || a.getDevDesc || a.getConfigDesc || a.getStrDesc || a.closeDev

structure UsbDevice where
  clientHdl : Client
  devAddr : Nat
  devHdl : Option Handle
  actions : Actions
deriving DecidableEq, Repr

/-- The calls of the USB host library that returned ESP_OK. -/
inductive Record where
  | opened (client : Client) (address : Nat) (handle : Handle)
  | info (handle : Handle)
  | parentInfo (handle : Handle)
  | deviceDescriptor (handle : Handle)
  | configDescriptor (handle : Handle)
  | closed (client : Client) (handle : Handle)
deriving DecidableEq, Repr

/-- The USB host library: what a call returns may depend on the calls before it. `none` and
`false` stand for an error; `deviceInfo` returns the handle of the parent. -/
structure Host where
  deviceOpen : List Record → Nat → Option Handle
  deviceInfo : List Record → Handle → Option (Option Handle)
  getDeviceDescriptor : List Record → Handle → Bool
  getActiveConfigDescriptor : List Record → Handle → Bool
  deviceClose : List Record → Handle → Bool
  clientDeregister : List Record → Bool

inductive Fault where
  | assertFailed | checkFailed | aborted | indexOutOfRange
deriving DecidableEq, Repr

/-- A device being handled, and the calls made so far. -/
structure Work where
  log : List Record
  dev : UsbDevice
deriving DecidableEq

namespace Work

def note (w : Work) (r : Record) : Work := { w with log := w.log ++ [r] }

/-- `device_obj->actions |= …` -/
def demand (w : Work) (f : Actions → Actions) : Work :=
  { w with dev := { w.dev with actions := f w.dev.actions } }

def actionOpenDev (host : Host) (w : Work) : Except Fault Work :=
  if w.dev.devAddr = 0 then .error .assertFailed
  else
    match host.deviceOpen w.log w.dev.devAddr with
    | some handle =>
      let w := w.note (.opened w.dev.clientHdl w.dev.devAddr handle)
      .ok ({ w with dev := { w.dev with devHdl := some handle } }.demand
        fun a => { a with getDevInfo := true })
    | none => .error .checkFailed

/-- `usb_host_device_info` of the device, and of its parent where it has one. -/
def actionGetInfo (host : Host) (w : Work) : Except Fault Work :=
  match w.dev.devHdl with
  | none => .error .assertFailed
  | some handle =>
    match host.deviceInfo w.log handle with
    | none => .error .checkFailed
    | some none => .ok ((w.note (.info handle)).demand fun a => { a with getDevDesc := true })
    | some (some parent) =>
      let w := w.note (.info handle)
      match host.deviceInfo w.log parent with
      | none => .error .checkFailed
      | some _ => .ok ((w.note (.parentInfo parent)).demand fun a => { a with getDevDesc := true })

def actionGetDevDesc (host : Host) (w : Work) : Except Fault Work :=
  match w.dev.devHdl with
  | none => .error .assertFailed
  | some handle =>
    if host.getDeviceDescriptor w.log handle then
      .ok ((w.note (.deviceDescriptor handle)).demand fun a => { a with getConfigDesc := true })
    else .error .checkFailed

def actionGetConfigDesc (host : Host) (w : Work) : Except Fault Work :=
  match w.dev.devHdl with
  | none => .error .assertFailed
  | some handle =>
    if host.getActiveConfigDescriptor w.log handle then
      .ok ((w.note (.configDescriptor handle)).demand fun a => { a with getStrDesc := true })
    else .error .checkFailed

def actionGetStrDesc (host : Host) (w : Work) : Except Fault Work :=
  match w.dev.devHdl with
  | none => .error .assertFailed
  | some handle =>
    match host.deviceInfo w.log handle with
    | none => .error .checkFailed
    | some _ => .ok (w.note (.info handle))

/-- No assertion guards this one; the library refuses NULL. -/
def actionCloseDev (host : Host) (w : Work) : Except Fault Work :=
  match w.dev.devHdl with
  | none => .error .checkFailed
  | some handle =>
    if host.deviceClose w.log handle then
      let w := w.note (.closed w.dev.clientHdl handle)
      .ok { w with dev := { w.dev with devHdl := none, devAddr := 0 } }
    else .error .checkFailed

/-- One pass of the loop, with the actions that were read and cleared before it. -/
def pass (host : Host) (actions : Actions) (w : Work) : Except Fault Work := do
  let w ← if actions.openDev then w.actionOpenDev host else .ok w
  let w ← if actions.getDevInfo then w.actionGetInfo host else .ok w
  let w ← if actions.getDevDesc then w.actionGetDevDesc host else .ok w
  let w ← if actions.getConfigDesc then w.actionGetConfigDesc host else .ok w
  let w ← if actions.getStrDesc then w.actionGetStrDesc host else .ok w
  if actions.closeDev then w.actionCloseDev host else .ok w

/-- At most this many passes of the loop. -/
def passes (host : Host) : Nat → Work → Except Fault Work
  | 0, w => .ok w
  | n + 1, w =>
    if w.dev.actions.any then do
      let w ← pass host w.dev.actions (w.demand fun _ => .none)
      passes host n w
    else .ok w

end Work

/-- `class_driver_device_handle`. An action asks for later ones only, so five passes are all. -/
def classDriverDeviceHandle (host : Host) (w : Work) : Except Fault Work :=
  w.passes host 5

abbrev devMaxCount : Nat := 128

/-- Where the loop of `class_driver_task` is: before it reads the first flag, with what it read
of the flags, in `usb_host_client_handle_events`, behind the loop, and at its end. -/
inductive DriverTask where
  | top
  | handling
  | checkShutdown
  | events
  | stopped
  | suspended
deriving DecidableEq, Repr

structure ClassDriver where
  device : List UsbDevice
  unhandledDevices : Bool
  shutdown : Bool
  task : DriverTask
  fault : Option Fault
  log : List Record
deriving DecidableEq

namespace ClassDriver

/-- What `class_driver_task` sets up. -/
def start (client : Client) : ClassDriver where
  device := List.replicate devMaxCount ⟨client, 0, none, .none⟩
  unhandledDevices := false
  shutdown := false
  task := .top
  fault := none
  log := []

def goto (s : ClassDriver) (task : DriverTask) : ClassDriver := { s with task := task }

/-- The loop over the devices that have an action. -/
def handleDevices (host : Host) (log : List Record) :
    List UsbDevice → Except Fault (List Record × List UsbDevice)
  | [] => .ok (log, [])
  | d :: ds =>
    if d.actions.any then do
      let w ← classDriverDeviceHandle host ⟨log, d⟩
      let (log, ds) ← handleDevices host w.log ds
      .ok (log, w.dev :: ds)
    else do
      let (log, ds) ← handleDevices host log ds
      .ok (log, d :: ds)

def announce (d : UsbDevice) (address : Nat) : UsbDevice :=
  { d with devAddr := address, devHdl := none, actions := { d.actions with openDev := true } }

/-- `client_event_cb` for USB_HOST_CLIENT_EVENT_NEW_DEV. -/
def newDev (s : ClassDriver) (address : Nat) : Except Fault ClassDriver :=
  if address < devMaxCount then
    .ok { s with device := s.device.modify address (announce · address), unhandledDevices := true }
  else .error .indexOutOfRange

/-- `client_event_cb` for USB_HOST_CLIENT_EVENT_DEV_GONE. -/
def devGone (s : ClassDriver) (handle : Handle) : ClassDriver :=
  { s with
    device := s.device.map fun d =>
      if d.devHdl = some handle then { d with actions := .close } else d
    unhandledDevices := s.unhandledDevices || s.device.any (·.devHdl = some handle) }

/-- `class_driver_client_deregister` up to its last call, which wakes the task. -/
def classDriverClientDeregister (s : ClassDriver) : ClassDriver :=
  { s with
    device := s.device.map fun d =>
      if d.devHdl ≠ none then { d with actions := { d.actions with closeDev := true } } else d
    unhandledDevices := s.unhandledDevices || s.device.any (·.devHdl ≠ none)
    shutdown := true }

inductive Input where
  | readUnhandled
  | handle
  | readShutdown
  | newDev (address : Nat)
  | devGone (handle : Handle)
  | otherEvent
  | eventsHandled
  | deregisterClient
  | deregister
deriving DecidableEq, Repr

/-- The step of a task that is there to take it; the mutex is deleted at the end of the task. -/
def exec (host : Host) (s : ClassDriver) : Input → Except Fault ClassDriver
  | .readUnhandled =>
    match s.task with
    | .top => .ok (s.goto (if s.unhandledDevices then .handling else .checkShutdown))
    | _ => .ok s
  | .handle =>
    match s.task with
    | .handling => do
      let (log, device) ← handleDevices host s.log s.device
      .ok { s with log := log, device := device, unhandledDevices := false, task := .top }
    | _ => .ok s
  | .readShutdown =>
    match s.task with
    | .checkShutdown => .ok (s.goto (if s.shutdown then .stopped else .events))
    | _ => .ok s
  | .newDev address =>
    match s.task with
    | .events => s.newDev address
    | _ => .ok s
  | .devGone handle =>
    match s.task with
    | .events => .ok (s.devGone handle)
    | _ => .ok s
  | .otherEvent =>
    match s.task with
    | .events => .error .aborted
    | _ => .ok s
  | .eventsHandled =>
    match s.task with
    | .events => .ok (s.goto .top)
    | _ => .ok s
  | .deregisterClient =>
    match s.task with
    | .stopped =>
      if host.clientDeregister s.log then .ok (s.goto .suspended) else .error .checkFailed
    | _ => .ok s
  | .deregister =>
    match s.task with
    | .suspended => .ok s
    | _ => .ok s.classDriverClientDeregister

/-- A fault ends the run. -/
def step (host : Host) (s : ClassDriver) (i : Input) : ClassDriver :=
  match s.fault with
  | some _ => s
  | none =>
    match s.exec host i with
    | .ok s => s
    | .error fault => { s with fault := some fault }

end ClassDriver

end Rocom.Usb
