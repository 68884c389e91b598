import Rocom.Wilma.Manager

/-! The connection manager with the driver under it. The driver posts its events and the event
loop hands them to `wifi_event_handler` in this order. `esp_wifi_disconnect` causes one
STA_DISCONNECTED if the station is connected and none if it is not. -/
namespace Rocom.Wilma

open CString

abbrev wifiReasonAssocLeave : UInt8 := 8

/-- Why the driver reports STA_DISCONNECTED. -/
inductive Cause where
  | told
  | failed
  | lost
deriving DecidableEq, Repr

inductive DriverEvent where
  | staConnected (ssid : Field 32) (ssidLen : UInt8) (answered : Nat)
  | staDisconnected (cause : Cause) (ssid : Field 32) (reason : UInt8) (answered : Nat)
  | scanDone (r : ScanResult)
  | gotIp

def DriverEvent.input : DriverEvent → Input
  | .staConnected ssid ssidLen answered => .staConnected ssid ssidLen answered
  | .staDisconnected _ ssid reason answered => .staDisconnected ssid reason answered
  | .scanDone r => .scanDone r
  | .gotIp => .gotIp

def DriverEvent.isTold : DriverEvent → Bool
  | .staDisconnected .told _ _ _ => true
  | _ => false

def DriverEvent.isDisconnected : DriverEvent → Bool
  | .staDisconnected _ _ _ _ => true
  | _ => false

/-- What the event loop hands to the manager. -/
def Input.isEvent : Input → Bool
  | .staConnected _ _ _ | .staDisconnected _ _ _ | .scanDone _ | .gotIp => true
  | _ => false

/-- A step of the manager's task, its timer or a caller of its functions. -/
abbrev TaskInput := { a : Input // a.isEvent = false }

def TaskInput.order : TaskInput := ⟨.order, rfl⟩

def TaskInput.addSsid (ssid password : Str) : TaskInput := ⟨.addSsid ssid password, rfl⟩

/-- `link` is the network the station is connected to, `events` what was posted and not yet
handled. `absorbed` is history: the causes of the events for which the handler took the branch
"ignoring because we were told to disconnect". -/
structure Radio where
  manager : Manager
  link : Option (Field 32)
  events : List DriverEvent
  absorbed : List Cause

inductive RadioInput where
  | task (a : TaskInput)
  | deliver
  | associated (ssid : Field 32) (ssidLen : UInt8) (answered : Nat)
  | attemptFailed (ssid : Field 32) (reason : UInt8) (answered : Nat)
  | linkLost (reason : UInt8)
  | scanFinished (r : ScanResult)
  | addressAssigned

namespace Radio

def post (w : Radio) (e : DriverEvent) : Radio := { w with events := w.events ++ [e] }

/-- What a call of the manager does in the driver. -/
def obey (w : Radio) : Call → Radio
  | .disconnect =>
    match w.link with
    | none => w
    | some ssid => { w with link := none }.post (.staDisconnected .told ssid wifiReasonAssocLeave 0)
  | _ => w

/-- The manager takes a step, and the driver follows its calls. -/
def run (p : Platform) (w : Radio) (a : Input) : Radio :=
  let next := w.manager.step p a
  (next.calls.drop w.manager.calls.length).foldl obey { w with manager := next }

/-- The second branch of STA_DISCONNECTED. -/
def takesToldBranch (bits : EventBits) : Bool := !bits.retryConnection && bits.disconnected

def absorb (w : Radio) : DriverEvent → Radio
  | .staDisconnected cause _ _ _ =>
    if takesToldBranch w.manager.bits then { w with absorbed := w.absorbed ++ [cause] } else w
  | _ => w

def deliver (p : Platform) (w : Radio) : Radio :=
  match w.events with
  | [] => w
  | e :: rest => ({ w with events := rest }.absorb e).run p e.input

def handle (p : Platform) (w : Radio) : RadioInput → Radio
  | .task a => w.run p a.1
  | .deliver => w.deliver p
  | .associated ssid ssidLen answered =>
    { w with link := some ssid }.post (.staConnected ssid ssidLen answered)
  | .attemptFailed ssid reason answered => w.post (.staDisconnected .failed ssid reason answered)
  | .linkLost reason =>
    match w.link with
    | none => w
    | some ssid => { w with link := none }.post (.staDisconnected .lost ssid reason 0)
  | .scanFinished r => w.post (.scanDone r)
  | .addressAssigned => w.post .gotIp

/-- After WM_ORDER_SHUTDOWN the driver is stopped and the handlers are gone. -/
def step (p : Platform) (w : Radio) (a : RadioInput) : Radio :=
  if w.manager.running then w.handle p a else w

def start (p : Platform) (saved : Saved) (ap : ApSettings) (staConfig : Credentials) : Radio where
  manager := .start p saved ap staConfig
  link := none
  events := []
  absorbed := []

end Radio

end Rocom.Wilma
