import Mathlib.Algebra.Group.Int.Defs
import Rocom.Wilma.AccessPoint
import Rocom.Wilma.Directory
import Rocom.Wilma.Scan

/-! The connection manager of components/wilma/wilma.c: the orders of `wilma_thread`, the driver
events of `wifi_event_handler`, the retry timer, and the calls of the HTTP server. Each of them
is one step. NVS, heap and driver calls succeed, but for those of a scan. -/
namespace Rocom.Wilma

open CString

abbrev wilmaRetriesBeforeContinuing : Nat := 2
abbrev wifiReason4wayHandshakeTimeout : UInt8 := 15

structure EventBits where
  disconnected : Bool
  fail : Bool
  connected : Bool
  connecting : Bool
  connectAfterScan : Bool
  retryConnection : Bool
  scan : Bool
deriving DecidableEq, Repr

def EventBits.clear : EventBits := ⟨false, false, false, false, false, false, false⟩

/-- A network and its password: an explicit connect order, and what is read back of the
driver's station configuration. -/
structure Credentials where
  ssid : Field 32
  password : Field 64
deriving DecidableEq

def Credentials.zero : Credentials := ⟨Field.zero 32, Field.zero 64⟩

def ConnectionEntry.credentials (e : ConnectionEntry) : Credentials := ⟨e.ssid, e.password⟩

inductive Order where
  | startWifiScan
  | startWifiScanThenConnect
  | connectSta (param : Option Credentials)
  | forgetConfig
  | shutdown
deriving DecidableEq

/-- The calls of the driver and the timer. `setCandidate` is the `esp_wifi_set_config` of
`connect_to_station_index`, with the stations that are saved at that moment. -/
inductive Call where
  | connect
  | disconnect
  | scanStart
  | setConfig (conf : Credentials)
  | setCandidate (conf : Credentials) (saved : Saved)
  | setMode (mode : WifiMode)
  | timerStart
  | timerStop
  | stop
deriving DecidableEq

/-- What this file does not define of the program. -/
structure Platform where
  qsort : (ApRecord → ApRecord → Int) → List ApRecord → List ApRecord
  apDefaults : ApDefaults

/-- The last three fields follow the driver: the connect calls that no event has answered yet,
whether the last event of the link was CONNECTED, and whether a scan is in progress. -/
structure Manager where
  bits : EventBits
  retryNum : Nat
  retryTimer : Bool
  queue : List Order
  lists : ScanLists
  connectionIndex : UInt32
  stationSsid : Field 33
  saved : Saved
  ap : ApSettings
  running : Bool
  calls : List Call
  staConfig : Credentials
  attempts : Nat
  linked : Bool
  scanning : Bool
deriving DecidableEq

namespace Manager

def call (m : Manager) (c : Call) : Manager := { m with calls := m.calls ++ [c] }

def espWifiConnect (m : Manager) : Manager := { m.call .connect with attempts := m.attempts + 1 }

def espWifiDisconnect (m : Manager) : Manager := m.call .disconnect

def espWifiScanStart (m : Manager) : Manager := { m.call .scanStart with scanning := true }

def espWifiSetConfig (m : Manager) (conf : Credentials) : Manager :=
  { m.call (.setConfig conf) with staConfig := conf }

def timerStart (m : Manager) : Manager := { m.call .timerStart with retryTimer := true }

def timerStop (m : Manager) : Manager := { m.call .timerStop with retryTimer := false }

def sendMessage (m : Manager) (order : Order) : Manager := { m with queue := m.queue ++ [order] }

def wilmaStartScan (m : Manager) : Manager := m.sendMessage .startWifiScan

def wilmaScanThenConnect (m : Manager) : Manager := m.sendMessage .startWifiScanThenConnect

def wilmaForgetConfigFromIsr (m : Manager) : Manager := m.sendMessage .forgetConfig

def wilmaStop (m : Manager) : Manager := m.sendMessage .shutdown

def setBits (m : Manager) (f : EventBits → EventBits) : Manager := { m with bits := f m.bits }

def softap (p : Platform) (m : Manager) (forceOn : Bool) : Manager :=
  let (mode, ap) :=
    wifiConfigureSoftap p.apDefaults forceOn (m.bits.connecting || m.bits.connected) m.ap
  { m.call (.setMode mode) with ap := ap }

def startScan (m : Manager) : Manager :=
  if m.bits.scan then m
  else ((m.setBits ({ · with scan := true })).espWifiDisconnect).espWifiScanStart

def storeSsidState (m : Manager) (ssid : Field 32) (newState : StaState) : Manager :=
  { m with saved := (updateSsidState m.saved .none ssid newState).1 }

def connectToStationIndex (p : Platform) (m : Manager) (index : UInt32) : Manager × Int :=
  match m.lists.connectionList with
  | [] => (m.softap p true, espFail)
  | first :: rest =>
    let count := rest.length + 1
    let index := if count ≤ index.toNat then 0 else index
    let conf := ((first :: rest).getD index.toNat first).credentials
    ({ m.call (.setCandidate conf m.saved) with connectionIndex := index, staConfig := conf }, espOk)

/-- The call fails exactly when there is no candidate; an index behind the list becomes 0. -/
theorem connectToStationIndex_cases (p : Platform) (m : Manager) (index : UInt32) :
    (m.lists.connectionList = [] ∧ m.connectToStationIndex p index = (m.softap p true, espFail)) ∨
      ∃ (chosen : UInt32) (entry : ConnectionEntry),
        m.lists.connectionList[chosen.toNat]? = some entry ∧
        m.connectToStationIndex p index =
          ({ m.call (.setCandidate entry.credentials m.saved) with
              connectionIndex := chosen
              staConfig := entry.credentials }, espOk) := by
  unfold connectToStationIndex
  cases m.lists.connectionList with
  | nil => exact .inl ⟨rfl, rfl⟩
  | cons first rest =>
    refine .inr ⟨_, _, ?_, rfl⟩
    have within : (if rest.length + 1 ≤ index.toNat then 0 else index).toNat <
        (first :: rest).length := by
      rw [List.length_cons]
      split
      · exact Nat.succ_pos _
      · omega
    rw [List.getD_eq_getElem?_getD, List.getElem?_eq_getElem within]
    rfl

/-- Set CONNECTING and connect. -/
def beginConnecting (m : Manager) : Manager :=
  (m.setBits ({ · with connecting := true })).espWifiConnect

def clearStaConfig (m : Manager) : Manager :=
  let m := if m.bits.connected then m.setBits ({ · with disconnected := true }) else m
  let m := m.setBits ({ · with connected := false, connecting := false })
  m.espWifiDisconnect.espWifiSetConfig .zero

/-- An explicit disconnect is marked where a station is connected. -/
theorem clearStaConfig_eq (m : Manager) :
    m.clearStaConfig =
      { m with
        bits := { m.bits with
          disconnected := m.bits.disconnected || m.bits.connected
          connected := false
          connecting := false }
        calls := m.calls ++ [.disconnect, .setConfig .zero]
        staConfig := .zero } := by
  unfold clearStaConfig
  cases connected : m.bits.connected with
  | false => simp [setBits, espWifiDisconnect, espWifiSetConfig, call]
  | true => simp [setBits, espWifiDisconnect, espWifiSetConfig, call]

@[simp] theorem clearStaConfig_saved (m : Manager) : m.clearStaConfig.saved = m.saved := by
  rw [clearStaConfig_eq]

@[simp] theorem clearStaConfig_lists (m : Manager) : m.clearStaConfig.lists = m.lists := by
  rw [clearStaConfig_eq]

@[simp] theorem clearStaConfig_calls (m : Manager) :
    m.clearStaConfig.calls = m.calls ++ [.disconnect, .setConfig .zero] := by
  rw [clearStaConfig_eq]

end Manager

/-- `WILMA_CONNECTION_INDEX < WILMA_CONNECTION_LIST_COUNT - 1`: the difference is an `int`, the
comparison is made in 32 unsigned bits. -/
def nextStationLeft (index : UInt32) (count : Nat) : Bool :=
  (index.toNat : Int) < ((count : Int) - 1) % 2 ^ 32

namespace Manager

def staConnected (m : Manager) (ssid : Field 32) (ssidLen : UInt8) : Manager :=
  -- 33 bytes from a 32-byte field: the last one is the length that follows it
  let m := { m with stationSsid := pad 33 (ssid.bytes ++ [ssidLen]) }
  if m.bits.retryConnection then
    (m.setBits ({ · with retryConnection := false })).espWifiConnect
  else m

def noteAuthFailure (m : Manager) (ssid : Field 32) (reason : UInt8) : Manager :=
  if reason = wifiReason4wayHandshakeTimeout then m.storeSsidState ssid .authFailure else m

/-- Move on to the next candidate, or give up until the timer ticks. -/
def nextStation (p : Platform) (m : Manager) : Manager :=
  if nextStationLeft m.connectionIndex m.lists.connectionList.length then
    let (m, err) := m.connectToStationIndex p (m.connectionIndex + 1)
    if espOk ≠ err then { m.beginConnecting with retryNum := 0 } else m
  else ((m.clearStaConfig).softap p true).timerStart

/-- The last branch of STA_DISCONNECTED. -/
def retriesExhausted (p : Platform) (m : Manager) (ssid : Field 32) (reason : UInt8) : Manager :=
  ((m.setBits ({ · with fail := true, connecting := false })).noteAuthFailure ssid reason).nextStation
    p

def staDisconnected (p : Platform) (m : Manager) (ssid : Field 32) (reason : UInt8) : Manager :=
  if m.bits.retryConnection then
    (m.setBits ({ · with retryConnection := false })).espWifiConnect
  else if m.bits.disconnected then
    let (m, err) := (m.setBits ({ · with disconnected := false })).connectToStationIndex p 0
    if espOk ≠ err then m.timerStart else m.beginConnecting
  else if m.bits.scan then m
  else if m.retryNum < wilmaRetriesBeforeContinuing then
    { m with retryNum := m.retryNum + 1 }.espWifiConnect
  else m.retriesExhausted p ssid reason

def refreshLists (p : Platform) (m : Manager) (r : ScanResult) : Manager :=
  { m with lists := (updateSsidList p.qsort m.saved r m.lists).1 }

/-- The end of SCAN_DONE: reconnect, or go on with the order that asked for the scan. -/
def resumeAfterScan (m : Manager) : Manager :=
  if m.bits.connected || m.bits.connecting then m.espWifiConnect
  else if m.bits.connectAfterScan then
    (m.setBits ({ · with connectAfterScan := false })).sendMessage (.connectSta none)
  else m

def scanDone (p : Platform) (m : Manager) (r : ScanResult) : Manager :=
  ((m.setBits ({ · with scan := false })).refreshLists p r).resumeAfterScan

def gotIp (p : Platform) (m : Manager) : Manager :=
  let m := { m with retryNum := 0 }.timerStop
  let m := m.setBits ({ · with connecting := false, connected := true })
  (m.storeSsidState (m.stationSsid.prefixOf 32) .ok).softap p false

/-- The end of WM_ORDER_CONNECT_STA: connect, unless a scan or another attempt is under way. -/
def initiateConnection (m : Manager) : Manager :=
  if m.bits.scan || m.bits.connecting then m.setBits ({ · with retryConnection := true })
  else m.espWifiConnect

def connectStaOrder (p : Platform) (m : Manager) (param : Option Credentials) : Manager :=
  let m := { m with retryNum := 0 }
  match param with
  | none =>
    let (m, err) := m.connectToStationIndex p 0
    if espOk ≠ err then m.timerStart else m.initiateConnection
  | some conf => (m.clearStaConfig.espWifiSetConfig conf).initiateConnection

def forgetConfig (p : Platform) (m : Manager) : Manager :=
  ({ m with saved := none, ap := .erased }.clearStaConfig).softap p true

def process (p : Platform) (m : Manager) : Order → Manager
  | .startWifiScanThenConnect =>
    (m.setBits ({ · with connectAfterScan := true })).startScan
  | .startWifiScan => m.startScan
  | .forgetConfig => m.forgetConfig p
  | .connectSta param => m.connectStaOrder p param
  | .shutdown => { m.call .stop with running := false }

/-- One turn of the loop of `wilma_thread`. With an empty queue it waits. -/
def takeOrder (p : Platform) (m : Manager) : Manager :=
  match m.queue with
  | [] => m
  | order :: rest => { m with queue := rest }.process p order

def retryTimerCb (m : Manager) : Manager :=
  let m := m.timerStop
  if getSavedStationCount m.saved ≤ 0 then m
  else m.wilmaScanThenConnect

def connectParam (ssid password : Str) : Credentials :=
  ⟨Field.copy 32 ssid 32, Field.copy 64 password 64⟩

def wilmaAddSsid (p : Platform) (m : Manager) (ssid password : Str) : Manager × Int :=
  let (saved, next) := addStation m.saved .none false ssid password
  let m := { m with saved := saved }
  match next with
  | .connectFirst =>
    let (m, err) := m.connectToStationIndex p 0
    (if espOk = err then m.beginConnecting else m, espOk)
  | .sendConnectSta => (m.sendMessage (.connectSta (some (connectParam ssid password))), espOk)
  | .fail => (m, espFail)

def wilmaRemoveSsid (m : Manager) (ssid : Str) : Manager × Int :=
  let (saved, removed) := removeStation m.saved .none ssid
  let m := { m with saved := saved }
  if removed && strncmp 32 m.staConfig.ssid.bytes ssid.chars = 0 then
    let lists := { m.lists with connectionList := [] }
    (({ m with lists := lists, stationSsid := Field.zero 33 }).clearStaConfig, espOk)
  else (m, espOk)

def wilmaSetApEnabled (p : Platform) (m : Manager) (enabled : Bool) : Manager :=
  { m with ap := { m.ap with enabled := some (if enabled then 1 else 0) } }.softap p false

end Manager

/-- What happens next. `answered` counts the connect calls that an event of the link answers. -/
inductive Input where
  | order
  | staConnected (ssid : Field 32) (ssidLen : UInt8) (answered : Nat)
  | staDisconnected (ssid : Field 32) (reason : UInt8) (answered : Nat)
  | scanDone (r : ScanResult)
  | gotIp
  | timerTick
  | addSsid (ssid password : Str)
  | removeSsid (ssid : Str)
  | startScan
  | scanThenConnect
  | forgetConfigFromIsr
  | stop
  | setApEnabled (enabled : Bool)
  | setApSsidPassword (ssid password : Str)

namespace Manager

/-- A handled event of the link. -/
def linkEvent (m : Manager) (linked : Bool) (answered : Nat) : Manager :=
  { m with attempts := m.attempts - answered, linked := linked }

def handle (p : Platform) (m : Manager) : Input → Manager
  | .order => m.takeOrder p
  | .staConnected ssid ssidLen answered => (m.linkEvent true answered).staConnected ssid ssidLen
  | .staDisconnected ssid reason answered =>
    (m.linkEvent false answered).staDisconnected p ssid reason
  | .scanDone r => { m with scanning := false }.scanDone p r
  | .gotIp => m.gotIp p
  | .timerTick => m.retryTimerCb
  | .addSsid ssid password => (m.wilmaAddSsid p ssid password).1
  | .removeSsid ssid => (m.wilmaRemoveSsid ssid).1
  | .startScan => m.wilmaStartScan
  | .scanThenConnect => m.wilmaScanThenConnect
  | .forgetConfigFromIsr => m.wilmaForgetConfigFromIsr
  | .stop => m.wilmaStop
  | .setApEnabled enabled => m.wilmaSetApEnabled p enabled
  | .setApSsidPassword ssid password =>
    { m with ap := wilmaSetApSsidPassword m.ap ssid password }

/-- After WM_ORDER_SHUTDOWN nothing of the manager is left. -/
def step (p : Platform) (m : Manager) (a : Input) : Manager :=
  if m.running then m.handle p a else m

/-- The state when `wilma_thread` reaches its loop. The NVS and the driver's station
configuration come from before the start. -/
def start (p : Platform) (saved : Saved) (ap : ApSettings) (staConfig : Credentials) : Manager :=
  let m : Manager :=
    { bits := .clear
      retryNum := 0
      retryTimer := false
      queue := []
      lists := ⟨List.replicate maxScanResults .zero, 0, []⟩
      connectionIndex := 0
      stationSsid := Field.zero 33
      saved := saved
      ap := ap
      running := true
      calls := []
      staConfig := staConfig
      attempts := 0
      linked := false
      scanning := false }
  (m.softap p false).wilmaScanThenConnect

end Manager

/-! ### Fixed inputs -/

def insertBy (compare : ApRecord → ApRecord → Int) (a : ApRecord) : List ApRecord → List ApRecord
  | [] => [a]
  | b :: rest => if compare a b ≤ 0 then a :: b :: rest else b :: insertBy compare a rest

/-- Insertion sort, and an open access point without a name. -/
def plainPlatform : Platform where
  qsort compare list := list.foldr (insertBy compare) []
  apDefaults := ⟨Field.zero 32, 0, ⟨[], List.not_mem_nil⟩⟩

def lab : Str := ⟨[108, 97, 98], by decide⟩

def hall : Str := ⟨[104, 97, 108, 108], by decide⟩

def secret : Str := ⟨[115, 51, 99, 114, 51, 116], by decide⟩

/-- An access point of this name in a scan. -/
def seen (name : Str) (rssi : Int8) : ApRecord := ⟨Field.zero 6, pad 33 name.chars, 1, rssi, 3⟩

def scanOf (records : List ApRecord) : Input :=
  .scanDone ⟨true, some (UInt16.ofNat records.length), true, some records⟩

/-- Start-up with these stations saved. -/
def startWith (history : List Operation) : Manager :=
  .start plainPlatform (history.foldl Operation.apply none) .erased .zero

end Rocom.Wilma
