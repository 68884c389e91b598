import Rocom.Wilma.Told

/-! An explicit connect request that is taken during a scan. It is parked in
WILMA_RETRY_CONNECTION_BIT, and only the events of the link look at this bit. -/
namespace Rocom.Wilma

open CString

/-- The station configuration after these calls. -/
def lastConfig : Credentials → List Call → Credentials
  | conf, [] => conf
  | _, .setConfig conf :: calls => lastConfig conf calls
  | _, .setCandidate conf _ :: calls => lastConfig conf calls
  | conf, _ :: calls => lastConfig conf calls

/-- `esp_wifi_connect` is called while the station configuration is `asked`. -/
def connectsWith (asked : Credentials) : Credentials → List Call → Bool
  | _, [] => false
  | conf, .connect :: calls => conf = asked || connectsWith asked conf calls
  | _, .setConfig conf :: calls => connectsWith asked conf calls
  | _, .setCandidate conf _ :: calls => connectsWith asked conf calls
  | conf, _ :: calls => connectsWith asked conf calls

theorem lastConfig_append (conf : Credentials) (calls more : List Call) :
    lastConfig conf (calls ++ more) = lastConfig (lastConfig conf calls) more := by
  induction calls generalizing conf with
  | nil => rfl
  | cons c calls ih => cases c <;> exact ih _

theorem connectsWith_append (asked conf : Credentials) (calls more : List Call) :
    connectsWith asked conf (calls ++ more) =
      (connectsWith asked conf calls || connectsWith asked (lastConfig conf calls) more) := by
  induction calls generalizing conf with
  | nil => rfl
  | cons c calls ih =>
    cases c with
    | connect => simp only [List.cons_append, connectsWith, lastConfig, ih, Bool.or_assoc]
    | disconnect | scanStart | setConfig | setCandidate | setMode | timerStart | timerStop | stop =>
      exact ih _

/-- CONNECT_STA with an SSID and a password. -/
def Order.isExplicit : Order → Bool
  | .connectSta (some _) => true
  | _ => false

namespace Manager

/-- The request waits for an event of the link. -/
structure Parked (asked : Credentials) (m : Manager) : Prop where
  running : m.running = true
  retry : m.bits.retryConnection = true
  config : m.staConfig = asked

/-- The first candidate of the last scan. -/
def firstCandidate (m : Manager) : Option Credentials :=
  m.lists.connectionList.head?.map ConnectionEntry.credentials

/-- A later connect request with an SSID of its own is taken. -/
def Supersedes (m : Manager) : Input → Prop
  | .order => ∃ order ∈ m.queue.head?, order.isExplicit = true
  | _ => False

/-- The step puts another station configuration in place, or ends the manager. -/
def Replaces (asked : Credentials) (m : Manager) : Input → Prop
  | .order =>
    m.queue.head? = some .forgetConfig ∨ m.queue.head? = some .shutdown ∨
      m.queue.head? = some (.connectSta none) ∧ ∃ other ∈ m.firstCandidate, other ≠ asked
  | .removeSsid ssid =>
    (removeStation m.saved .none ssid).2 = true ∧ strncmp 32 m.staConfig.ssid.bytes ssid.chars = 0
  | .addSsid _ _ => stations m.saved = [] ∧ ∃ other ∈ m.firstCandidate, other ≠ asked
  | _ => False

/-- The step connects while a request is parked. -/
def Settles (asked : Credentials) (m : Manager) : Input → Prop
  | .staConnected _ _ _ | .staDisconnected _ _ _ => True
  | .scanDone _ => m.bits.connected = true ∨ m.bits.connecting = true
  | .order =>
    m.queue.head? = some (.connectSta none) ∧ m.firstCandidate = some asked ∧
      m.bits.scan = false ∧ m.bits.connecting = false
  | .addSsid _ _ => stations m.saved = [] ∧ m.firstCandidate = some asked
  | _ => False

instance (m : Manager) (a : Input) : Decidable (m.Supersedes a) := by
  cases a <;> (dsimp only [Supersedes]; infer_instance)

instance (asked : Credentials) (m : Manager) (a : Input) : Decidable (m.Replaces asked a) := by
  cases a <;> (dsimp only [Replaces]; infer_instance)

instance (asked : Credentials) (m : Manager) (a : Input) : Decidable (m.Settles asked a) := by
  cases a <;> (dsimp only [Settles]; infer_instance)

/-- No connect call, and the request is still parked. -/
def Waits (asked : Credentials) (m n : Manager) : Prop :=
  n.Parked asked ∧ ∃ calls, n.calls = m.calls ++ calls ∧ connectsWith asked asked calls = false ∧
    lastConfig asked calls = asked

/-- A connect call for the request. -/
def Serves (asked : Credentials) (m n : Manager) : Prop :=
  ∃ calls, n.calls = m.calls ++ calls ∧ connectsWith asked asked calls = true

/-- A step serves the request or leaves it parked. -/
structure Handled (asked : Credentials) (m n : Manager) (settles : Prop) : Prop where
  waits : ¬ settles → Waits asked m n
  serves : settles → Serves asked m n

section Handle
variable {p : Platform} {asked : Credentials} {m n : Manager}

theorem Handled.of_waits {settles : Prop} (waits : Waits asked m n) (idle : ¬ settles) :
    Handled asked m n settles := ⟨fun _ => waits, fun now => absurd now idle⟩

theorem Handled.of_serves {settles : Prop} (serves : Serves asked m n) (now : settles) :
    Handled asked m n settles := ⟨fun idle => absurd now idle, fun _ => serves⟩

/-- Steps that leave the driver's station configuration alone. -/
theorem Parked.waits (h : m.Parked asked) (calls : List Call) (running : n.running = m.running)
    (retry : n.bits.retryConnection = m.bits.retryConnection)
    (config : n.staConfig = m.staConfig) (made : n.calls = m.calls ++ calls)
    (quiet : connectsWith asked asked calls = false) (kept : lastConfig asked calls = asked) :
    Waits asked m n :=
  ⟨⟨running.trans h.running, retry.trans h.retry, config.trans h.config⟩, calls, made, quiet, kept⟩

theorem Parked.waits_silent (h : m.Parked asked) (running : n.running = m.running)
    (retry : n.bits.retryConnection = m.bits.retryConnection)
    (config : n.staConfig = m.staConfig) (calls : n.calls = m.calls) : Waits asked m n :=
  h.waits [] running retry config (by simpa using calls) rfl rfl

theorem serves_connect (calls : n.calls = m.calls ++ [.connect]) : Serves asked m n :=
  ⟨[.connect], calls, by simp [connectsWith]⟩

theorem startScan_waits {q : Manager} (h : m.Parked asked) (running : q.running = m.running)
    (retry : q.bits.retryConnection = m.bits.retryConnection) (config : q.staConfig = m.staConfig)
    (calls : q.calls = m.calls) : Waits asked m q.startScan := by
  unfold startScan
  split
  · exact h.waits_silent running retry config calls
  · refine h.waits [.disconnect, .scanStart] running retry config ?_ rfl rfl
    simp [espWifiScanStart, espWifiDisconnect, setBits, call, calls]

/-- `connect_to_station_index (0)` configures the first candidate. -/
theorem connectFirst_eq (p : Platform) {first : ConnectionEntry} {rest : List ConnectionEntry}
    (list : m.lists.connectionList = first :: rest) :
    m.connectToStationIndex p 0 =
      ({ m.call (.setCandidate first.credentials m.saved) with
          connectionIndex := 0
          staConfig := first.credentials }, espOk) := by
  simp [connectToStationIndex, list]

theorem connectFirst_none (p : Platform) (list : m.lists.connectionList = []) :
    m.connectToStationIndex p 0 = (m.softap p true, espFail) := by
  simp [connectToStationIndex, list]

theorem connectStaNone_handled (h : m.Parked asked) (rest : List Order)
    (fits : ∀ other ∈ m.firstCandidate, other = asked) :
    Handled asked m (({ m with queue := rest } : Manager).connectStaOrder p none)
      (m.firstCandidate = some asked ∧ m.bits.scan = false ∧ m.bits.connecting = false) := by
  unfold connectStaOrder
  dsimp only
  cases list : m.lists.connectionList with
  | nil =>
    have none_listed : m.firstCandidate = none := by simp [firstCandidate, list]
    simp only [connectFirst_none p (m := { m with queue := rest, retryNum := 0 }) list]
    refine .of_waits ?_ fun now => by simp [none_listed] at now
    exact h.waits [.setMode _, .timerStart] rfl rfl rfl
      (List.append_assoc _ _ _) rfl rfl
  | cons first others =>
    have listed : m.firstCandidate = some first.credentials := by simp [firstCandidate, list]
    have chosen : first.credentials = asked := fits _ listed
    simp only [connectFirst_eq p (m := { m with queue := rest, retryNum := 0 }) list, listed, chosen,
      espOk, ne_eq, not_true, if_false, true_and]
    unfold initiateConnection
    cases scan : m.bits.scan || m.bits.connecting with
    | true =>
      refine .of_waits ?_ ?_
      · simp only [call, scan, if_true]
        exact ⟨⟨h.running, rfl, rfl⟩, [.setCandidate asked m.saved], rfl, rfl, rfl⟩
      · rintro ⟨idle, free⟩
        simp [idle, free] at scan
    | false =>
      refine .of_serves ?_ (by simpa using scan)
      simp only [call, scan, Bool.false_eq_true, if_false]
      refine ⟨[.setCandidate asked m.saved, .connect], List.append_assoc _ _ _, ?_⟩
      simp [connectsWith]

theorem takeOrder_handled (h : m.Parked asked) (sole : ¬ m.Supersedes .order)
    (kept : ¬ m.Replaces asked .order) :
    Handled asked m (m.takeOrder p) (m.Settles asked .order) := by
  unfold takeOrder
  unfold Supersedes at sole
  unfold Replaces at kept
  unfold Settles
  cases queue : m.queue with
  | nil => exact .of_waits (h.waits_silent rfl rfl rfl rfl) fun now => nomatch now.1
  | cons order rest =>
    simp only [queue, List.head?_cons] at sole kept ⊢
    cases order with
    | startWifiScan =>
      exact .of_waits (startScan_waits h rfl rfl rfl rfl) fun now => nomatch now.1
    | startWifiScanThenConnect =>
      exact .of_waits (startScan_waits h rfl rfl rfl rfl) fun now => nomatch now.1
    | forgetConfig => exact absurd (Or.inl rfl) kept
    | shutdown => exact absurd (Or.inr (Or.inl rfl)) kept
    | connectSta param =>
      cases param with
      | some conf => exact absurd ⟨_, rfl, rfl⟩ sole
      | none =>
        have fits : ∀ other ∈ m.firstCandidate, other = asked := by
          intro other listed
          by_contra ne
          exact kept (Or.inr (Or.inr ⟨rfl, other, listed, ne⟩))
        have handled := connectStaNone_handled (p := p) h rest fits
        exact ⟨fun idle => handled.waits fun now => idle ⟨rfl, now⟩, fun now => handled.serves now.2⟩

theorem addSsid_handled (h : m.Parked asked) (ssid password : Str)
    (kept : ¬ m.Replaces asked (.addSsid ssid password)) :
    Handled asked m (m.wilmaAddSsid p ssid password).1 (m.Settles asked (.addSsid ssid password)) := by
  unfold wilmaAddSsid
  unfold Replaces at kept
  unfold Settles
  by_cases empty : stations m.saved = []
  · rw [addStation_first empty]
    cases list : m.lists.connectionList with
    | nil =>
      have none_listed : m.firstCandidate = none := by simp [firstCandidate, list]
      simp only [connectFirst_none p
        (m := { m with saved := updateSavedStations [firstEntry ssid password] }) list]
      refine .of_waits ?_ fun now => by simp [none_listed] at now
      exact h.waits [.setMode _] rfl rfl rfl rfl rfl rfl
    | cons first others =>
      have listed : m.firstCandidate = some first.credentials := by simp [firstCandidate, list]
      have chosen : first.credentials = asked := by
        by_contra ne
        exact kept ⟨empty, _, listed, ne⟩
      simp only [connectFirst_eq p
        (m := { m with saved := updateSavedStations [firstEntry ssid password] }) list, chosen]
      refine .of_serves ?_ ⟨empty, listed.trans (congrArg some chosen)⟩
      refine ⟨[.setCandidate asked (updateSavedStations [firstEntry ssid password]), .connect],
        List.append_assoc _ _ _, ?_⟩
      simp [connectsWith]
  · dsimp only
    rw [addStation_later empty]
    exact .of_waits (h.waits_silent rfl rfl rfl rfl) fun now => empty now.1

theorem resumeAfterScan_waits {q : Manager} (h : m.Parked asked) (running : q.running = m.running)
    (retry : q.bits.retryConnection = m.bits.retryConnection) (config : q.staConfig = m.staConfig)
    (calls : q.calls = m.calls) (busy : (q.bits.connected || q.bits.connecting) = false) :
    Waits asked m q.resumeAfterScan := by
  unfold resumeAfterScan
  simp only [busy, Bool.false_eq_true, if_false]
  split
  · exact h.waits_silent running retry config calls
  · exact h.waits_silent running retry config calls

theorem scanDone_handled (h : m.Parked asked) (r : ScanResult) :
    Handled asked m (({ m with scanning := false } : Manager).scanDone p r)
      (m.bits.connected = true ∨ m.bits.connecting = true) := by
  unfold scanDone
  rw [← Bool.or_eq_true]
  cases busy : m.bits.connected || m.bits.connecting with
  | true =>
    refine .of_serves (serves_connect ?_) rfl
    exact congrArg calls (if_pos busy)
  | false => exact .of_waits (resumeAfterScan_waits h rfl rfl rfl rfl busy) nofun

theorem handle_handled (h : m.Parked asked) (a : Input) (sole : ¬ m.Supersedes a)
    (kept : ¬ m.Replaces asked a) : Handled asked m (m.handle p a) (m.Settles asked a) := by
  cases a with
  | order => exact takeOrder_handled h sole kept
  | staConnected ssid ssidLen answered =>
    refine .of_serves (serves_connect ?_) trivial
    simp only [handle, linkEvent, staConnected, h.retry, if_true]
    rfl
  | staDisconnected ssid reason answered =>
    refine .of_serves (serves_connect ?_) trivial
    simp only [handle, linkEvent, staDisconnected, h.retry, if_true]
    rfl
  | scanDone r => exact scanDone_handled h r
  | gotIp =>
    exact .of_waits (h.waits [.timerStop, .setMode _] rfl rfl rfl
      (List.append_assoc _ _ _) rfl rfl) id
  | timerTick =>
    refine .of_waits ?_ id
    simp only [handle, retryTimerCb]
    split
    · exact h.waits [.timerStop] rfl rfl rfl rfl rfl rfl
    · exact h.waits [.timerStop] rfl rfl rfl rfl rfl rfl
  | addSsid ssid password => exact addSsid_handled h ssid password kept
  | removeSsid ssid =>
    refine .of_waits ?_ id
    simp only [handle, wilmaRemoveSsid]
    split
    · rename_i configured
      have replaced : m.Replaces asked (.removeSsid ssid) := by simpa [Replaces] using configured
      exact absurd replaced kept
    · exact h.waits_silent rfl rfl rfl rfl
  | startScan | scanThenConnect | forgetConfigFromIsr | stop =>
    exact .of_waits (h.waits_silent rfl rfl rfl rfl) id
  | setApEnabled enabled => exact .of_waits (h.waits [.setMode _] rfl rfl rfl rfl rfl rfl) id
  | setApSsidPassword ssid password => exact .of_waits (h.waits_silent rfl rfl rfl rfl) id

theorem Waits.trans {q : Manager} (h : Waits asked m n) (h' : Waits asked n q) : Waits asked m q := by
  obtain ⟨_, first, made, quiet, kept⟩ := h
  obtain ⟨parked, more, made', quiet', kept'⟩ := h'
  refine ⟨parked, first ++ more, by rw [made', made, List.append_assoc], ?_, ?_⟩
  · rw [connectsWith_append, quiet, kept, quiet', Bool.or_self]
  · rw [lastConfig_append, kept, kept']

theorem Waits.serves {q : Manager} (h : Waits asked m n) (h' : Serves asked n q) :
    Serves asked m q := by
  obtain ⟨_, first, made, quiet, kept⟩ := h
  obtain ⟨more, made', served⟩ := h'
  refine ⟨first ++ more, by rw [made', made, List.append_assoc], ?_⟩
  rw [connectsWith_append, kept, served, Bool.or_true]

theorem Serves.mono {q : Manager} (h : Serves asked m n) (more : n.calls <+: q.calls) :
    Serves asked m q := by
  obtain ⟨first, made, served⟩ := h
  obtain ⟨rest, made'⟩ := more
  refine ⟨first ++ rest, by rw [← made', made, List.append_assoc], ?_⟩
  rw [connectsWith_append, served, Bool.true_or]

theorem Waits.not_serves (h : Waits asked m n) : ¬ Serves asked m n := by
  obtain ⟨_, first, made, quiet, _⟩ := h
  rintro ⟨calls, made', served⟩
  rw [made] at made'
  rw [← List.append_cancel_left made', quiet] at served
  cases served

/-- The explicit connect request finds a scan. -/
theorem order_parks (p : Platform) (running : m.running = true)
    (head : m.queue.head? = some (.connectSta (some asked))) (scan : m.bits.scan = true) :
    (m.step p .order).Parked asked ∧
      (m.step p .order).calls = m.calls ++ [.disconnect, .setConfig .zero, .setConfig asked] := by
  obtain ⟨rest, queue⟩ := List.head?_eq_some_iff.mp head
  have stepped : m.step p .order =
      (({ m with queue := rest, retryNum := 0 } : Manager).clearStaConfig.espWifiSetConfig
        asked).initiateConnection := by
    unfold step handle takeOrder
    rw [if_pos running, queue]
    rfl
  rw [stepped, clearStaConfig_eq]
  unfold initiateConnection
  simp only [espWifiSetConfig, call, scan, Bool.true_or, if_true]
  exact ⟨⟨running, rfl, rfl⟩, List.append_assoc _ _ _⟩

theorem step_calls (p : Platform) (m : Manager) (a : Input) : m.calls <+: (m.step p a).calls := by
  have marked := m.handle_marked p a
  unfold step
  split
  · cases effect : m.markEffect a with
    | keeps | takesDown =>
      rw [effect] at marked
      exact marked.2
    | clearsConfig =>
      rw [effect] at marked
      exact (List.prefix_append _ _).trans marked.2
  · exact List.prefix_rfl

end Handle

end Manager

def DriverEvent.isLink : DriverEvent → Bool
  | .staConnected _ _ _ | .staDisconnected _ _ _ _ => true
  | _ => false

def RadioInput.isDeliver : RadioInput → Bool
  | .deliver => true
  | _ => false

def RadioInput.isOrder : RadioInput → Bool
  | .task ⟨.order, _⟩ => true
  | _ => false

namespace Radio

/-- The step that the manager takes. -/
def managerInput (w : Radio) : RadioInput → Option Input
  | .task a => some a.1
  | .deliver => w.events.head?.map DriverEvent.input
  | _ => none

/-- The manager takes a step like this. -/
def Takes (kind : Manager → Input → Prop) (w : Radio) (a : RadioInput) : Prop :=
  ∃ b ∈ w.managerInput a, kind w.manager b

instance (kind : Manager → Input → Prop) [∀ m b, Decidable (kind m b)] (w : Radio)
    (a : RadioInput) : Decidable (w.Takes kind a) :=
  inferInstanceAs (Decidable (∃ b ∈ w.managerInput a, kind w.manager b))

variable (p : Platform)

theorem step_manager (w : Radio) (a : RadioInput) :
    (w.step p a).manager = (w.managerInput a).elim w.manager (w.manager.step p) := by
  unfold step
  split
  · cases a with
    | task a => exact run_manager p w a.1
    | deliver =>
      unfold handle deliver managerInput
      cases w.events with
      | nil => rfl
      | cons e rest =>
        refine (run_manager p _ _).trans ?_
        cases e with
        | staDisconnected => simp only [absorb]; split <;> rfl
        | staConnected | scanDone | gotIp => rfl
    | linkLost reason =>
      unfold handle
      cases w.link <;> rfl
    | associated | attemptFailed | scanFinished | addressAssigned => rfl
  · rename_i stopped
    cases w.managerInput a with
    | none => rfl
    | some b => exact (if_neg stopped).symm

theorem step_events (w : Radio) (a : RadioInput) (other : a.isDeliver = false) :
    w.events <+: (w.step p a).events := by
  unfold step
  split
  · cases a with
    | task a => exact run_events p w a.1
    | deliver => cases other
    | linkLost reason =>
      unfold handle
      cases w.link with
      | none => exact List.prefix_rfl
      | some ssid => exact List.prefix_append _ _
    | associated | attemptFailed | scanFinished | addressAssigned => exact List.prefix_append _ _
  · exact List.prefix_rfl

theorem deliver_events (w : Radio) (running : w.manager.running = true) :
    w.events.tail <+: (w.step p .deliver).events := by
  unfold step handle deliver
  rw [if_pos running]
  cases w.events with
  | nil => exact List.nil_prefix
  | cons e rest =>
    refine List.IsPrefix.trans ?_ (run_events p _ _)
    cases e with
    | staDisconnected => simp only [absorb]; split <;> exact List.prefix_rfl
    | staConnected | scanDone | gotIp => exact List.prefix_rfl

/-- From `w` on, the driver was told to connect with these credentials. -/
def Served (asked : Credentials) (w v : Radio) : Prop :=
  connectsWith asked w.manager.staConfig (v.manager.calls.drop w.manager.calls.length) = true

instance (asked : Credentials) (w v : Radio) : Decidable (Served asked w v) :=
  inferInstanceAs (Decidable (_ = true))

def IsScanDone (_ : Manager) : Input → Prop
  | .scanDone _ => True
  | _ => False

instance (m : Manager) (a : Input) : Decidable (IsScanDone m a) := by
  cases a <;> (dsimp only [IsScanDone]; infer_instance)

/-- SCAN_DONE and everything that was pending in `w` have been handled. -/
structure Complete (w : Radio) (as : List RadioInput) : Prop where
  events : w.events.length ≤ as.countP RadioInput.isDeliver
  orders : w.manager.queue.length ≤ as.countP RadioInput.isOrder
  scanDone : ¬ Runs.Along (step p) (fun v a => ¬ v.Takes IsScanDone a) w as

/-- The network is up, or an event of the link is on its way. -/
def LinkDue (w : Radio) : Prop := w.link ≠ none ∨ ∃ e ∈ w.events, e.isLink = true

instance (w : Radio) (as : List RadioInput) : Decidable (Complete p w as) :=
  decidable_of_iff (_ ∧ _ ∧ _)
    ⟨fun h => ⟨h.1, h.2.1, h.2.2⟩, fun h => ⟨h.events, h.orders, h.scanDone⟩⟩

/-- One turn of the loop of `wilma_thread`. -/
def takeOrder (w : Radio) : Radio := w.step p (.task TaskInput.order)

section Run
variable {p : Platform} {asked : Credentials}

/-- No other request and no other configuration while this one waits. -/
abbrev Undisturbed (asked : Credentials) (w : Radio) (a : RadioInput) : Prop :=
  ¬ w.Takes (Manager.Replaces asked) a ∧ ¬ w.Takes Manager.Supersedes a

theorem step_waits {m : Manager} {w : Radio} (h : m.Waits asked w.manager) (a : RadioInput)
    (kept : w.Undisturbed asked a) (idle : ¬ w.Takes (Manager.Settles asked) a) :
    m.Waits asked (w.step p a).manager := by
  rw [step_manager]
  cases taken : w.managerInput a with
  | none => exact h
  | some b =>
    have stepped : w.manager.step p b = w.manager.handle p b := if_pos h.1.running
    have handled := Manager.handle_handled (p := p) h.1 b (fun s => kept.2 ⟨b, taken, s⟩)
      fun r => kept.1 ⟨b, taken, r⟩
    rw [← stepped] at handled
    exact h.trans (handled.waits fun now => idle ⟨b, taken, now⟩)

theorem step_serves {m : Manager} {w : Radio} (h : m.Waits asked w.manager) (a : RadioInput)
    (kept : w.Undisturbed asked a) (now : w.Takes (Manager.Settles asked) a) :
    m.Serves asked (w.step p a).manager := by
  obtain ⟨b, taken, settles⟩ := now
  have stepped : w.manager.step p b = w.manager.handle p b := if_pos h.1.running
  have handled := Manager.handle_handled (p := p) h.1 b (fun s => kept.2 ⟨b, taken, s⟩)
    fun r => kept.1 ⟨b, taken, r⟩
  rw [← stepped] at handled
  rw [step_manager, taken]
  exact h.serves (handled.serves settles)

theorem step_calls (w : Radio) (a : RadioInput) :
    w.manager.calls <+: (w.step p a).manager.calls := by
  rw [step_manager]
  cases w.managerInput a with
  | none => exact List.prefix_rfl
  | some b => exact w.manager.step_calls p b

/-- A parked request is served by the first step that settles it. -/
theorem serves_iff (w : Radio) (parked : w.manager.Parked asked) (as : List RadioInput)
    (kept : Runs.Until (step p) (Undisturbed asked) (Takes (Manager.Settles asked)) w as) :
    w.manager.Serves asked (as.foldl (step p) w).manager ↔
      ¬ Runs.Along (step p) (fun v a => ¬ v.Takes (Manager.Settles asked) a) w as := by
  refine Runs.reached_iff (P := fun v => w.manager.Waits asked v.manager)
    (Q := fun v => w.manager.Serves asked v.manager) ?_ ?_ ?_ ?_ w ?_ as kept
  · exact fun v a waits kept idle => step_waits waits a kept idle
  · exact fun v a waits kept now => step_serves waits a kept now
  · exact fun v a serves => serves.mono (step_calls v a)
  · exact fun v waits => waits.not_serves
  · exact parked.waits_silent rfl rfl rfl rfl

/-- Until the request is settled no event of the link has been handled. -/
theorem pending_handled (w : Radio) (parked : w.manager.Parked asked) (as : List RadioInput)
    (kept : Runs.Until (step p) (Undisturbed asked) (Takes (Manager.Settles asked)) w as)
    (idle : Runs.Along (step p) (fun v a => ¬ v.Takes (Manager.Settles asked) a) w as) :
    ∀ e ∈ w.events.take (as.countP RadioInput.isDeliver), e.isLink = false := by
  induction as generalizing w with
  | nil => simp
  | cons a as ih =>
    have waits : w.manager.Waits asked w.manager := parked.waits_silent rfl rfl rfl rfl
    have parked' := (step_waits (p := p) waits a kept.1 idle.1).1
    have later := ih (w.step p a) parked' (kept.2.resolve_left idle.1) idle.2
    cases delivers : a.isDeliver with
    | false =>
      intro e he
      rw [List.countP_cons_of_neg (by simp [delivers])] at he
      exact later e (((step_events p w a delivers).take _).subset he)
    | true =>
      obtain rfl : a = .deliver := by cases a <;> first | rfl | cases delivers
      rw [List.countP_cons_of_pos delivers]
      have moved := deliver_events p w parked.running
      cases next : w.events with
      | nil => simp
      | cons e rest =>
        rw [next] at moved
        rw [List.take_succ_cons, List.forall_mem_cons]
        constructor
        · by_contra link
          refine idle.1 ⟨e.input, by simp [managerInput, next], ?_⟩
          cases e with
          | staConnected | staDisconnected => trivial
          | scanDone | gotIp => exact absurd rfl link
        · exact fun d hd => later d ((moved.take _).subset hd)

theorem served_iff_serves (w v u : Radio)
    (order : v.manager.calls = w.manager.calls ++ [.disconnect, .setConfig .zero, .setConfig asked])
    (later : v.manager.calls <+: u.manager.calls) :
    Served asked w u ↔ v.manager.Serves asked u.manager := by
  obtain ⟨calls, made⟩ := later
  have since : u.manager.calls.drop w.manager.calls.length =
      [.disconnect, .setConfig .zero, .setConfig asked] ++ calls := by
    rw [← made, order, List.append_assoc, List.drop_left]
  unfold Served Manager.Serves
  rw [since, connectsWith_append]
  constructor
  · intro served
    exact ⟨calls, made.symm, served⟩
  · rintro ⟨calls', made', served⟩
    rw [← made] at made'
    rw [List.append_cancel_left made']
    exact served

/-- A request that is taken during a scan is connected to if a link event finds it parked. -/
theorem parked_request_served_iff (p : Platform) (asked : Credentials) (w : Radio)
    (running : w.manager.running = true)
    (head : w.manager.queue.head? = some (.connectSta (some asked)))
    (scan : w.manager.bits.scan = true) (as : List RadioInput)
    (sole : Runs.Along (step p) (fun v a => ¬ v.Takes Manager.Supersedes a) (w.takeOrder p) as)
    (kept : Runs.Until (step p) (fun v a => ¬ v.Takes (Manager.Replaces asked) a)
      (Takes (Manager.Settles asked)) (w.takeOrder p) as) :
    (Served asked w (as.foldl (step p) (w.takeOrder p)) ↔
      ¬ Runs.Along (step p) (fun v a => ¬ v.Takes (Manager.Settles asked) a) (w.takeOrder p) as) ∧
    (w.LinkDue → Complete p (w.takeOrder p) as →
      Served asked w (as.foldl (step p) (w.takeOrder p))) := by
  have ordered : (w.takeOrder p).manager = w.manager.step p .order := step_manager p w _
  obtain ⟨parked, calls⟩ := w.manager.order_parks p running head scan
  have taken : w.takeOrder p = w.run p .order := if_pos running
  rw [← ordered] at parked calls
  have undisturbed := Runs.until_and_along kept sole
  have later : (w.takeOrder p).manager.calls <+: (as.foldl (step p) (w.takeOrder p)).manager.calls :=
    Runs.invariant (P := fun v => (w.takeOrder p).manager.calls <+: v.manager.calls)
      (fun v a before => before.trans (step_calls v a)) _ List.prefix_rfl as
  have served := (served_iff_serves w _ _ calls later).trans
    (serves_iff (w.takeOrder p) parked as undisturbed)
  refine ⟨served, fun due complete => ?_⟩
  rw [served]
  intro idle
  have handled := pending_handled (w.takeOrder p) parked as undisturbed idle
  rw [List.take_of_length_le complete.events] at handled
  have pending : ∃ e ∈ (w.takeOrder p).events, e.isLink = true := by
    rw [taken]
    rcases due with linked | ⟨e, he, link⟩
    · have disconnects : w.manager.calls ++ [.disconnect] <+: (w.manager.step p .order).calls := by
        rw [← ordered, calls]
        exact ⟨[.setConfig .zero, .setConfig asked], List.append_assoc _ _ _⟩
      obtain ⟨e, he, told⟩ := (told_disconnects p w .order disconnects).mpr (Or.inr linked)
      refine ⟨e, he, ?_⟩
      cases e with
      | staDisconnected => rfl
      | staConnected | scanDone | gotIp => cases told
    · exact ⟨e, (run_events p w .order).subset he, link⟩
  obtain ⟨e, he, link⟩ := pending
  exact absurd link (by simp [handled e he])

end Run

/-- The station is connected to `lab` and scans when `hall` is added. -/
def scanWhileConnected : List RadioInput :=
  [.task TaskInput.order, .scanFinished ⟨true, some 1, true, some [seen lab (-40)]⟩, .deliver,
    .task TaskInput.order, .associated (ssidKey lab) 3 1, .deliver, .addressAssigned, .deliver,
    .task ⟨.startScan, rfl⟩, .task (TaskInput.addSsid hall secret), .task TaskInput.order]

/-- The first scan is under way when `hall` is added. -/
def scanAtStart : List RadioInput := [.task TaskInput.order, .task (TaskInput.addSsid hall secret)]

/-- `lab` is saved. -/
def labSaved : Radio :=
  start plainPlatform ([Operation.add lab secret].foldl Operation.apply none) .erased .zero

theorem parked_request_served_iff_hall :
    Served (Manager.connectParam hall secret) (scanWhileConnected.foldl (step plainPlatform) labSaved)
      ([.deliver, .scanFinished ⟨true, some 0, true, some []⟩, .deliver].foldl (step plainPlatform)
        ((scanWhileConnected.foldl (step plainPlatform) labSaved).takeOrder plainPlatform)) :=
  (parked_request_served_iff plainPlatform (Manager.connectParam hall secret) _ (by decide) (by decide)
    (by decide) _ (by decide) (by decide)).1.mpr (by decide)

/-- Without a link no event comes for the request, and SCAN_DONE leaves it parked. -/
theorem request_without_link_lost :
    ∃ w as, w = scanAtStart.foldl (step plainPlatform) labSaved ∧
      w.manager.running = true ∧
      w.manager.queue.head? = some (.connectSta (some (Manager.connectParam hall secret))) ∧
      w.manager.bits.scan = true ∧
      Runs.Along (step plainPlatform) (fun v a => ¬ v.Takes Manager.Supersedes a)
        (w.takeOrder plainPlatform) as ∧
      Complete plainPlatform (w.takeOrder plainPlatform) as ∧
      (as.foldl (step plainPlatform) (w.takeOrder plainPlatform)).events = [] ∧
      (as.foldl (step plainPlatform) (w.takeOrder plainPlatform)).manager.queue = [] ∧
      ¬ Served (Manager.connectParam hall secret) w
        (as.foldl (step plainPlatform) (w.takeOrder plainPlatform)) :=
  ⟨_, [.scanFinished ⟨true, some 0, true, some []⟩, .deliver, .task TaskInput.order], rfl,
    by decide, by decide, by decide, by decide, by decide, by decide, by decide, by decide⟩

end Radio

end Rocom.Wilma
