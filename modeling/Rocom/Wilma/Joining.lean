import Rocom.Wilma.Adding
import Rocom.Wilma.Parked

/-! Whether a station that is added is the one the driver connects to next. -/
namespace Rocom.Wilma

open CString

/-- The last station configuration the driver was given, and whether it was told to connect
after that. -/
structure Given where
  conf : Option Credentials
  connected : Bool
deriving DecidableEq

def Given.after (g : Given) : Call → Given
  | .setConfig conf => ⟨some conf, false⟩
  | .setCandidate conf _ => ⟨some conf, false⟩
  | .connect => { g with connected := true }
  | .disconnect | .scanStart | .setMode _ | .timerStart | .timerStop | .stop => g

def lastGiven (calls : List Call) : Given := calls.foldl Given.after ⟨none, false⟩

def Order.startsScan : Order → Bool
  | .startWifiScan | .startWifiScanThenConnect => true
  | .connectSta _ | .forgetConfig | .shutdown => false

namespace Manager

def ConnectsTo (m : Manager) (asked : Credentials) : Prop := lastGiven m.calls = ⟨some asked, true⟩

instance (m : Manager) (asked : Credentials) : Decidable (m.ConnectsTo asked) :=
  inferInstanceAs (Decidable (lastGiven m.calls = ⟨some asked, true⟩))

def takeOrders (p : Platform) (m : Manager) (turns : Nat) : Manager :=
  (List.replicate turns Input.order).foldl (step p) m

/-- `wilma_add_ssid`, and the turns of `wilma_thread` until the order that it sent is done. -/
def addAndProcess (p : Platform) (m : Manager) (ssid password : Str) : Manager :=
  let added := m.step p (.addSsid ssid password)
  added.takeOrders p (if added.queue = m.queue then 0 else added.queue.length)

section Turns
variable {p : Platform} {m : Manager}

theorem clearStaConfig_bits (m : Manager) :
    m.clearStaConfig.bits.scan = m.bits.scan ∧ m.clearStaConfig.bits.connecting = false := by
  rw [clearStaConfig_eq]
  exact ⟨rfl, rfl⟩

/-- What one turn leaves for the next. -/
structure Turned (m n : Manager) (order : Order) (rest : List Order) : Prop where
  queue : n.queue = rest
  scan : n.bits.scan = (m.bits.scan || order.startsScan)
  running : n.running = true → order ≠ .shutdown

theorem clearStaConfig_queue (m : Manager) : m.clearStaConfig.queue = m.queue := by
  rw [clearStaConfig_eq]

theorem initiateConnection_turned (rest : List Order) (order : Order) {n : Manager}
    (queue : n.queue = rest) (scan : n.bits.scan = (m.bits.scan || order.startsScan))
    (stays : order ≠ .shutdown) : Turned m n.initiateConnection order rest := by
  unfold initiateConnection
  split
  · exact ⟨queue, scan, fun _ => stays⟩
  · exact ⟨queue, scan, fun _ => stays⟩

theorem initiateConnection_calls (m : Manager) : m.initiateConnection.calls =
    m.calls ++ if m.bits.scan || m.bits.connecting then [] else [.connect] := by
  unfold initiateConnection
  split
  · exact (List.append_nil _).symm
  · rfl

theorem startScan_turned (rest : List Order) (order : Order) {n : Manager}
    (queue : n.queue = rest) (starts : order.startsScan = true) (stays : order ≠ .shutdown) :
    Turned m n.startScan order rest := by
  unfold startScan
  split
  · rename_i under_way
    refine ⟨queue, ?_, fun _ => stays⟩
    rw [starts, Bool.or_true, under_way]
  · refine ⟨queue, ?_, fun _ => stays⟩
    rw [starts, Bool.or_true]
    rfl

theorem connectToStationIndex_queue (index : UInt32) :
    (m.connectToStationIndex p index).1.queue = m.queue ∧
      (m.connectToStationIndex p index).1.bits = m.bits := by
  rcases connectToStationIndex_cases p m index with ⟨_, failed⟩ | ⟨chosen, entry, _, made⟩
  · rw [failed]
    exact ⟨rfl, rfl⟩
  · rw [made]
    exact ⟨rfl, rfl⟩

theorem process_turned (order : Order) (rest : List Order) :
    Turned m (({ m with queue := rest } : Manager).process p order) order rest := by
  cases order with
  | startWifiScan => exact startScan_turned rest _ rfl rfl (by decide)
  | startWifiScanThenConnect => exact startScan_turned rest _ rfl rfl (by decide)
  | connectSta param =>
    cases param with
    | none =>
      obtain ⟨queue, bits⟩ := connectToStationIndex_queue (p := p)
        (m := { m with queue := rest, retryNum := 0 }) 0
      have scan := (congrArg EventBits.scan bits).trans (Bool.or_false _).symm
      simp only [process, connectStaOrder]
      split
      · exact ⟨queue, scan, fun _ => by decide⟩
      · exact initiateConnection_turned rest _ queue scan (by decide)
    | some conf =>
      have queue := clearStaConfig_queue { m with queue := rest, retryNum := 0 }
      have scan := (clearStaConfig_bits { m with queue := rest, retryNum := 0 }).1
      exact initiateConnection_turned rest _ queue (scan.trans (Bool.or_false _).symm)
        fun stops => by cases stops
  | forgetConfig =>
    have queue := clearStaConfig_queue { m with queue := rest, saved := none, ap := .erased }
    have scan := (clearStaConfig_bits { m with queue := rest, saved := none, ap := .erased }).1
    exact ⟨queue, scan.trans (Bool.or_false _).symm, fun _ => by decide⟩
  | shutdown => exact ⟨rfl, (Bool.or_false _).symm, fun runs => by cases runs⟩

theorem step_turned (running : m.running = true) {order : Order} {rest : List Order}
    (queue : m.queue = order :: rest) : Turned m (m.step p .order) order rest := by
  unfold step handle takeOrder
  rw [if_pos running, queue]
  exact process_turned order rest

theorem takeOrders_stopped (stopped : m.running = false) (turns : Nat) :
    m.takeOrders p turns = m := by
  induction turns with
  | zero => rfl
  | succ n ih =>
    have still : m.step p .order = m := if_neg (Bool.eq_false_iff.mp stopped)
    rw [takeOrders, List.replicate_succ, List.foldl_cons, still]
    exact ih

theorem lastGiven_append (calls more : List Call) :
    lastGiven (calls ++ more) = more.foldl Given.after (lastGiven calls) := List.foldl_append

/-- The order with an SSID gives it to the driver, and connects unless a scan is under way. -/
theorem explicit_taken (running : m.running = true) {asked : Credentials} {rest : List Order}
    (queue : m.queue = .connectSta (some asked) :: rest) :
    lastGiven (m.step p .order).calls = ⟨some asked, !m.bits.scan⟩ := by
  let cleared := clearStaConfig { m with queue := rest, retryNum := 0 }
  obtain ⟨scan, idle⟩ := clearStaConfig_bits { m with queue := rest, retryNum := 0 }
  have stepped : m.step p .order = (cleared.espWifiSetConfig asked).initiateConnection := by
    unfold step handle takeOrder
    rw [if_pos running, queue]
    rfl
  have given : lastGiven (cleared.espWifiSetConfig asked).calls = ⟨some asked, false⟩ :=
    lastGiven_append cleared.calls [.setConfig asked]
  have busy : ((cleared.espWifiSetConfig asked).bits.scan ||
      (cleared.espWifiSetConfig asked).bits.connecting) = m.bits.scan := by
    show (cleared.bits.scan || cleared.bits.connecting) = m.bits.scan
    rw [scan, idle, Bool.or_false]
  rw [stepped, initiateConnection_calls, lastGiven_append, given, busy]
  cases m.bits.scan <;> rfl

/-- The turns up to an order with an SSID, none of which is the last one of the manager. -/
theorem takeOrders_explicit {asked : Credentials} (ahead : List Order) (running : m.running = true)
    (queue : m.queue = ahead ++ [.connectSta (some asked)])
    (runs : (m.takeOrders p (ahead.length + 1)).running = true) :
    lastGiven (m.takeOrders p (ahead.length + 1)).calls =
      ⟨some asked, !(m.bits.scan || ahead.any Order.startsScan)⟩ := by
  induction ahead generalizing m with
  | nil =>
    rw [List.any_nil, Bool.or_false]
    exact explicit_taken running queue
  | cons order ahead ih =>
    have turned := step_turned (p := p) running queue
    have first : m.takeOrders p (ahead.length + 2) =
        (m.step p .order).takeOrders p (ahead.length + 1) := rfl
    have next : (m.step p .order).running = true := by
      cases still : (m.step p .order).running with
      | true => rfl
      | false =>
        rw [List.length_cons, first, takeOrders_stopped still, still] at runs
        cases runs
    have later := ih next turned.queue runs
    rw [turned.scan, Bool.or_assoc] at later
    exact later

section Adding
variable (running : m.running = true) (ssid password : Str)
include running

/-- The empty store, with the new entry. -/
theorem addSsid_first (empty : stations m.saved = []) : ∃ stored : Manager,
    stored.queue = m.queue ∧ stored.calls = m.calls ∧ stored.lists = m.lists ∧
      m.step p (.addSsid ssid password) =
        if espOk = (stored.connectToStationIndex p 0).2 then
          (stored.connectToStationIndex p 0).1.beginConnecting
        else (stored.connectToStationIndex p 0).1 := by
  refine ⟨{ m with saved := updateSavedStations [firstEntry ssid password] }, rfl, rfl, rfl, ?_⟩
  have added : m.step p (.addSsid ssid password) = (m.wilmaAddSsid p ssid password).1 :=
    if_pos running
  rw [added, wilmaAddSsid, addStation_first empty]

theorem addSsid_later (held : stations m.saved ≠ []) : ∃ stored : Manager,
    stored.queue = m.queue ∧ stored.bits = m.bits ∧ stored.running = true ∧
      m.step p (.addSsid ssid password) =
        stored.sendMessage (.connectSta (some (connectParam ssid password))) := by
  refine ⟨{ m with saved := (addStation m.saved .none false ssid password).1 }, rfl, rfl,
    running, ?_⟩
  have added : m.step p (.addSsid ssid password) = (m.wilmaAddSsid p ssid password).1 :=
    if_pos running
  rw [added, wilmaAddSsid]
  dsimp only
  rw [addStation_later held]

/-- On an empty store the first candidate is what the driver gets, if there is one. -/
theorem addFirst_connects_iff (empty : stations m.saved = []) (asked : Credentials) :
    (m.addAndProcess p ssid password).ConnectsTo asked ↔
      m.firstCandidate = some asked ∨ m.firstCandidate = none ∧ m.ConnectsTo asked := by
  obtain ⟨stored, queue, calls, lists, added⟩ :=
    addSsid_first (p := p) running ssid password empty
  unfold addAndProcess ConnectsTo
  dsimp only
  rw [added]
  cases list : stored.lists.connectionList with
  | nil =>
    have none_listed : m.firstCandidate = none := by simp [firstCandidate, ← lists, list]
    have same : (stored.softap p true).queue = m.queue := queue
    have given : lastGiven (stored.softap p true).calls = lastGiven m.calls := by
      rw [← calls]
      exact lastGiven_append stored.calls [.setMode _]
    have failed : ¬ espOk = espFail := by decide
    rw [connectFirst_none p list, if_neg failed, if_pos same, none_listed]
    simp [takeOrders, given]
  | cons first others =>
    have listed : m.firstCandidate = some first.credentials := by
      simp [firstCandidate, ← lists, list]
    let chosen : Manager :=
      { stored.call (.setCandidate first.credentials stored.saved) with
        connectionIndex := 0
        staConfig := first.credentials }
    have same : chosen.beginConnecting.queue = m.queue := queue
    have given : lastGiven chosen.beginConnecting.calls = ⟨some first.credentials, true⟩ := by
      have made : chosen.beginConnecting.calls =
          stored.calls ++ [.setCandidate first.credentials stored.saved, .connect] :=
        List.append_assoc _ _ _
      rw [made, lastGiven_append]
      rfl
    rw [connectFirst_eq p list, if_pos rfl, if_pos same, listed]
    simp [takeOrders, given, chosen]

/-- On another one it is the explicit order. -/
theorem addLater_connects_iff (noScan : m.bits.scan = false) (held : stations m.saved ≠ [])
    (processed : (m.addAndProcess p ssid password).running = true) :
    (m.addAndProcess p ssid password).ConnectsTo (connectParam ssid password) ↔
      ∀ order ∈ m.queue, order.startsScan = false := by
  obtain ⟨stored, queue, bits, runs, added⟩ :=
    addSsid_later (p := p) running ssid password held
  have turns : m.addAndProcess p ssid password =
      (stored.sendMessage (.connectSta (some (connectParam ssid password)))).takeOrders p
        (m.queue.length + 1) := by
    unfold addAndProcess
    dsimp only
    rw [added, sendMessage, queue, if_neg (by simp), List.length_append, List.length_singleton]
  rw [turns] at processed ⊢
  have given := takeOrders_explicit (p := p)
    (m := stored.sendMessage (.connectSta (some (connectParam ssid password)))) m.queue runs
    (congrArg (· ++ _) queue) processed
  have scan :
      (stored.sendMessage (.connectSta (some (connectParam ssid password)))).bits.scan = false :=
    (congrArg EventBits.scan bits).trans noScan
  rw [ConnectsTo, given, scan]
  simp

end Adding

/-- An added station is connected to next: on a store that is not empty unless an order to scan
waits ahead of it, on an empty one only if the first candidate of the last scan is this station
with this password, or without candidates if the driver was told to connect to it before. -/
theorem added_connects_iff (p : Platform) (m : Manager) (running : m.running = true)
    (noScan : m.bits.scan = false) (ssid password : Str)
    (processed : (m.addAndProcess p ssid password).running = true) :
    let asked := connectParam ssid password
    (m.addAndProcess p ssid password).ConnectsTo asked ↔
      if stations m.saved = [] then
        m.firstCandidate = some asked ∨ m.firstCandidate = none ∧ m.ConnectsTo asked
      else ∀ order ∈ m.queue, order.startsScan = false := by
  intro asked
  split
  · rename_i empty
    exact addFirst_connects_iff running ssid password empty asked
  · rename_i held
    exact addLater_connects_iff running ssid password noScan held processed

end Turns

/-- The first scan is done, and nothing is connected. -/
def looked (history : List Operation) (records : List ApRecord) : Manager :=
  [.order, scanOf records, .order].foldl (step plainPlatform) (startWith history)

theorem added_connects_hall :
    ((looked [.add lab secret] []).addAndProcess plainPlatform hall secret).ConnectsTo
      (connectParam hall secret) := by
  apply (added_connects_iff plainPlatform (looked [.add lab secret] []) (by decide) (by decide) hall
    secret (by decide)).mpr
  decide

/-- The very first station is in range, and nothing connects to it. -/
theorem first_station_ignored :
    let m := looked [] [seen lab (-40)]
    m.running = true ∧ m.bits.scan = false ∧ m.attempts = 0 ∧
      (m.wilmaAddSsid plainPlatform lab secret).2 = espOk ∧
      ¬ (m.addAndProcess plainPlatform lab secret).ConnectsTo (connectParam lab secret) := by
  decide

end Manager

end Rocom.Wilma
