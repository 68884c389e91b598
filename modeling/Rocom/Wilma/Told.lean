import Rocom.Wilma.Alive
import Rocom.Wilma.Radio

/-! The mark WILMA_DISCONNECTED_BIT. It is set from WILMA_CONNECTED_BIT, which a lost link leaves
set, and taken down by the next STA_DISCONNECTED that finds no retry to make. -/
namespace Rocom.Wilma

open CString

/-- What a step does to the mark. -/
inductive MarkEffect where
  | keeps
  | takesDown
  | clearsConfig
deriving DecidableEq, Repr

namespace Manager

def staDisconnectedEffect (m : Manager) : MarkEffect :=
  if m.bits.retryConnection then .keeps
  else if m.bits.disconnected then .takesDown
  else if m.bits.scan then .keeps
  else if m.retryNum < wilmaRetriesBeforeContinuing then .keeps
  else if nextStationLeft m.connectionIndex m.lists.connectionList.length then .keeps
  else .clearsConfig

/-- The steps with `clear_sta_config`, and the branch that takes the mark down. -/
def markEffect (m : Manager) : Input → MarkEffect
  | .order =>
    match m.queue.head? with
    | some .forgetConfig | some (.connectSta (some _)) => .clearsConfig
    | _ => .keeps
  | .staDisconnected _ _ _ => m.staDisconnectedEffect
  | .removeSsid ssid =>
    if (removeStation m.saved .none ssid).2 && strncmp 32 m.staConfig.ssid.bytes ssid.chars = 0 then
      .clearsConfig
    else .keeps
  | _ => .keeps

/-- The mark and the calls after a step with this effect. -/
def Marked (m n : Manager) : MarkEffect → Prop
  | .keeps => n.bits.disconnected = m.bits.disconnected ∧ m.calls <+: n.calls
  | .takesDown => n.bits.disconnected = false ∧ m.calls <+: n.calls
  | .clearsConfig =>
    n.bits.disconnected = (m.bits.disconnected || m.bits.connected) ∧
      m.calls ++ [.disconnect] <+: n.calls

theorem clearStaConfig_mark (m : Manager) :
    m.clearStaConfig.bits.disconnected = (m.bits.disconnected || m.bits.connected) := by
  rw [clearStaConfig_eq]

/-- The mark stays, and calls are only added. -/
structure KeepsMark (m n : Manager) : Prop where
  mark : n.bits.disconnected = m.bits.disconnected
  calls : m.calls <+: n.calls

namespace KeepsMark
variable {m n : Manager}

theorem refl (m : Manager) : KeepsMark m m := ⟨rfl, List.prefix_rfl⟩

theorem trans {q : Manager} (k : KeepsMark m n) (k' : KeepsMark n q) : KeepsMark m q :=
  ⟨k'.mark.trans k.mark, k.calls.trans k'.calls⟩

theorem of_call {c : List Call} (mark : n.bits.disconnected = m.bits.disconnected)
    (calls : n.calls = m.calls ++ c) : KeepsMark m n :=
  ⟨mark, calls ▸ List.prefix_append _ _⟩

theorem espWifiConnect (k : KeepsMark m n) : KeepsMark m n.espWifiConnect :=
  k.trans (of_call (c := [.connect]) rfl rfl)

theorem espWifiSetConfig (k : KeepsMark m n) (conf : Credentials) :
    KeepsMark m (n.espWifiSetConfig conf) :=
  k.trans (of_call (c := [.setConfig conf]) rfl rfl)

theorem stop (k : KeepsMark m n) : KeepsMark m { n.call .stop with running := false } :=
  k.trans (of_call (c := [.stop]) rfl rfl)

theorem timerStart (k : KeepsMark m n) : KeepsMark m n.timerStart :=
  k.trans (of_call (c := [.timerStart]) rfl rfl)

theorem timerStop (k : KeepsMark m n) : KeepsMark m n.timerStop :=
  k.trans (of_call (c := [.timerStop]) rfl rfl)

theorem sendMessage (k : KeepsMark m n) (order : Order) : KeepsMark m (n.sendMessage order) :=
  k.trans ⟨rfl, List.prefix_rfl⟩

theorem beginConnecting (k : KeepsMark m n) : KeepsMark m n.beginConnecting :=
  k.trans (of_call (c := [.connect]) rfl rfl)

theorem startScan (k : KeepsMark m n) : KeepsMark m n.startScan := by
  unfold Manager.startScan
  split
  · exact k
  · exact k.trans (of_call (c := [.disconnect, .scanStart]) rfl (List.append_assoc _ _ _))

theorem initiateConnection (k : KeepsMark m n) : KeepsMark m n.initiateConnection := by
  unfold Manager.initiateConnection
  split
  · exact k.trans ⟨rfl, List.prefix_rfl⟩
  · exact k.espWifiConnect

theorem noteAuthFailure (k : KeepsMark m n) (ssid : Field 32) (reason : UInt8) :
    KeepsMark m (n.noteAuthFailure ssid reason) := by
  unfold Manager.noteAuthFailure
  split
  · exact k.trans ⟨rfl, List.prefix_rfl⟩
  · exact k

theorem resumeAfterScan (k : KeepsMark m n) : KeepsMark m n.resumeAfterScan := by
  unfold Manager.resumeAfterScan
  split
  · exact k.espWifiConnect
  · split
    · exact k.trans ⟨rfl, List.prefix_rfl⟩
    · exact k

variable (p : Platform)

theorem softap (k : KeepsMark m n) (forceOn : Bool) : KeepsMark m (n.softap p forceOn) :=
  k.trans (of_call (c := [.setMode _]) rfl rfl)

theorem connectToStationIndex (k : KeepsMark m n) (index : UInt32) :
    KeepsMark m (n.connectToStationIndex p index).1 := by
  rcases connectToStationIndex_cases p n index with ⟨_, failed⟩ | ⟨chosen, entry, _, made⟩
  · rw [failed]
    exact k.softap p true
  · rw [made]
    exact k.trans (of_call (c := [.setCandidate _ _]) rfl rfl)

theorem gotIp (k : KeepsMark m n) : KeepsMark m (n.gotIp p) := by
  have stopped : KeepsMark n { n with retryNum := 0 }.timerStop :=
    of_call (c := [.timerStop]) rfl rfl
  have connected : KeepsMark n (({ n with retryNum := 0 }.timerStop).setBits
      ({ · with connecting := false, connected := true })) := stopped.trans ⟨rfl, List.prefix_rfl⟩
  have stored := connected.trans (q := (({ n with retryNum := 0 }.timerStop).setBits
    ({ · with connecting := false, connected := true })).storeSsidState
      (n.stationSsid.prefixOf 32) .ok) ⟨rfl, List.prefix_rfl⟩
  exact k.trans (stored.softap p false)

theorem retryTimerCb (k : KeepsMark m n) : KeepsMark m n.retryTimerCb := by
  unfold Manager.retryTimerCb
  dsimp only
  split
  · exact k.timerStop
  · exact k.timerStop.sendMessage _

theorem staConnected (k : KeepsMark m n) (ssid : Field 32) (ssidLen : UInt8) :
    KeepsMark m (n.staConnected ssid ssidLen) := by
  unfold Manager.staConnected
  dsimp only
  split
  · exact k.trans (of_call (c := [.connect]) rfl rfl)
  · exact k.trans ⟨rfl, List.prefix_rfl⟩

theorem connectStaNone (k : KeepsMark m n) : KeepsMark m (n.connectStaOrder p none) := by
  have reset : KeepsMark m { n with retryNum := 0 } := k.trans ⟨rfl, List.prefix_rfl⟩
  unfold Manager.connectStaOrder
  dsimp only
  split
  · exact (reset.connectToStationIndex p 0).timerStart
  · exact (reset.connectToStationIndex p 0).initiateConnection

theorem addSsid (k : KeepsMark m n) (ssid password : Str) :
    KeepsMark m (n.wilmaAddSsid p ssid password).1 := by
  have stored : KeepsMark m { n with saved := (addStation n.saved .none false ssid password).1 } :=
    k.trans ⟨rfl, List.prefix_rfl⟩
  unfold Manager.wilmaAddSsid
  dsimp only
  split
  · dsimp only
    split
    · exact (stored.connectToStationIndex p 0).beginConnecting
    · exact stored.connectToStationIndex p 0
  · exact stored.sendMessage _
  · exact stored

end KeepsMark

theorem KeepsMark.marked {m n : Manager} (k : KeepsMark m n) : Marked m n .keeps := ⟨k.mark, k.calls⟩

/-- `clear_sta_config`, and steps that keep the mark before and after it. -/
theorem clears_marked {m n q : Manager} (before : n.bits.disconnected = m.bits.disconnected ∧
    n.bits.connected = m.bits.connected ∧ n.calls = m.calls) (after : KeepsMark n.clearStaConfig q) :
    Marked m q .clearsConfig := by
  obtain ⟨mark, connected, calls⟩ := before
  constructor
  · rw [after.mark, clearStaConfig_mark, mark, connected]
  · have cleared := after.calls
    rw [clearStaConfig_calls, calls] at cleared
    exact (List.prefix_append_right_inj m.calls |>.mpr ⟨[.setConfig .zero], rfl⟩).trans cleared

theorem takeOrder_marked (p : Platform) (m : Manager) :
    Marked m (m.takeOrder p) (m.markEffect .order) := by
  unfold takeOrder markEffect
  cases queue : m.queue with
  | nil => exact (KeepsMark.refl m).marked
  | cons order rest =>
    have taken : KeepsMark m { m with queue := rest } := ⟨rfl, List.prefix_rfl⟩
    cases order with
    | startWifiScan => exact taken.startScan.marked
    | startWifiScanThenConnect =>
      have due := taken.trans (q := ({ m with queue := rest } : Manager).setBits
        ({ · with connectAfterScan := true })) ⟨rfl, List.prefix_rfl⟩
      exact due.startScan.marked
    | connectSta param =>
      cases param with
      | none => exact (taken.connectStaNone p).marked
      | some conf =>
        refine clears_marked (n := { m with queue := rest, retryNum := 0 }) ⟨rfl, rfl, rfl⟩ ?_
        exact ((KeepsMark.refl _).espWifiSetConfig conf).initiateConnection
    | forgetConfig =>
      exact clears_marked (n := { m with queue := rest, saved := none, ap := .erased })
        ⟨rfl, rfl, rfl⟩ ((KeepsMark.refl _).softap p true)
    | shutdown => exact taken.stop.marked

theorem removeSsid_marked (m : Manager) (ssid : Str) :
    Marked m (m.wilmaRemoveSsid ssid).1 (m.markEffect (.removeSsid ssid)) := by
  unfold wilmaRemoveSsid markEffect
  dsimp only
  split
  · exact clears_marked
      (n := { m with
        saved := (removeStation m.saved .none ssid).1
        lists := { m.lists with connectionList := [] }
        stationSsid := Field.zero 33 }) ⟨rfl, rfl, rfl⟩ (KeepsMark.refl _)
  · exact ⟨rfl, List.prefix_rfl⟩

theorem nextStation_marked (p : Platform) {m n : Manager} (before : n.bits.disconnected =
    m.bits.disconnected ∧ n.bits.connected = m.bits.connected ∧ n.calls = m.calls)
    (index : n.connectionIndex = m.connectionIndex) (lists : n.lists = m.lists) :
    Marked m (n.nextStation p)
      (if nextStationLeft m.connectionIndex m.lists.connectionList.length then .keeps
        else .clearsConfig) := by
  have same : KeepsMark m n := ⟨before.1, before.2.2 ▸ List.prefix_rfl⟩
  unfold nextStation
  rw [index, lists]
  dsimp only
  split
  · split
    · exact (((same.connectToStationIndex p _).beginConnecting).trans ⟨rfl, List.prefix_rfl⟩).marked
    · exact (same.connectToStationIndex p _).marked
  · exact clears_marked before (((KeepsMark.refl _).softap p true).timerStart)

theorem staDisconnected_marked (p : Platform) (m : Manager) (ssid : Field 32) (reason : UInt8) :
    Marked m (m.staDisconnected p ssid reason) m.staDisconnectedEffect := by
  unfold staDisconnected staDisconnectedEffect
  dsimp only
  split
  · have retried : KeepsMark m (m.setBits ({ · with retryConnection := false })) :=
      ⟨rfl, List.prefix_rfl⟩
    exact retried.espWifiConnect.marked
  · split
    · have down := (KeepsMark.refl (m.setBits ({ · with disconnected := false }))).connectToStationIndex
        p 0
      split
      · exact ⟨down.timerStart.mark, down.timerStart.calls⟩
      · exact ⟨down.beginConnecting.mark, down.beginConnecting.calls⟩
    · split
      · exact (KeepsMark.refl m).marked
      · split
        · have counted : KeepsMark m { m with retryNum := m.retryNum + 1 } := ⟨rfl, List.prefix_rfl⟩
          exact counted.espWifiConnect.marked
        · unfold retriesExhausted
          have index := noteAuthFailure_index
            (m.setBits ({ · with fail := true, connecting := false })) ssid reason
          apply nextStation_marked p _ index
          · unfold noteAuthFailure
            split <;> rfl
          · unfold noteAuthFailure
            split <;> exact ⟨rfl, rfl, rfl⟩

theorem handle_marked (p : Platform) (m : Manager) (a : Input) :
    Marked m (m.handle p a) (m.markEffect a) := by
  cases a with
  | order => exact takeOrder_marked p m
  | staConnected ssid ssidLen answered =>
    have linked : KeepsMark m (m.linkEvent true answered) := ⟨rfl, List.prefix_rfl⟩
    exact (linked.staConnected ssid ssidLen).marked
  | staDisconnected ssid reason answered =>
    exact staDisconnected_marked p (m.linkEvent false answered) ssid reason
  | scanDone r =>
    have scanned : KeepsMark m ((({ m with scanning := false } : Manager).setBits
        ({ · with scan := false })).refreshLists p r) := ⟨rfl, List.prefix_rfl⟩
    exact scanned.resumeAfterScan.marked
  | gotIp => exact ((KeepsMark.refl m).gotIp p).marked
  | timerTick => exact (KeepsMark.refl m).retryTimerCb.marked
  | addSsid ssid password => exact ((KeepsMark.refl m).addSsid p ssid password).marked
  | removeSsid ssid => exact removeSsid_marked m ssid
  | startScan => exact ((KeepsMark.refl m).sendMessage _).marked
  | scanThenConnect => exact ((KeepsMark.refl m).sendMessage _).marked
  | forgetConfigFromIsr => exact ((KeepsMark.refl m).sendMessage _).marked
  | stop => exact ((KeepsMark.refl m).sendMessage _).marked
  | setApEnabled enabled =>
    have stored :
        KeepsMark m { m with ap := { m.ap with enabled := some (if enabled then 1 else 0) } } :=
      ⟨rfl, List.prefix_rfl⟩
    exact (stored.softap p false).marked
  | setApSsidPassword ssid password => exact ⟨rfl, List.prefix_rfl⟩

theorem step_marked (p : Platform) {m : Manager} (running : m.running = true) (a : Input) :
    Marked m (m.step p a) (m.markEffect a) := by
  have stepped : m.step p a = m.handle p a := if_pos running
  rw [stepped]
  exact handle_marked p m a

end Manager

/-- A STA_DISCONNECTED that the manager asked for is still to be handled. -/
def ToldPending (events : List DriverEvent) : Prop := ∃ e ∈ events, e.isTold = true

instance (events : List DriverEvent) : Decidable (ToldPending events) :=
  inferInstanceAs (Decidable (∃ e ∈ events, e.isTold = true))

theorem ToldPending.mono {events more : List DriverEvent} (h : ToldPending events)
    (kept : events <+: more) : ToldPending more := by
  obtain ⟨e, he, told⟩ := h
  exact ⟨e, kept.subset he, told⟩

theorem toldPending_cons (e : DriverEvent) (rest : List DriverEvent) :
    ToldPending (e :: rest) ↔ e.isTold = true ∨ ToldPending rest := by
  simp [ToldPending]

/-- The first STA_DISCONNECTED that is still to be handled was asked for. -/
def ToldFirst (events : List DriverEvent) : Prop :=
  ∃ e ∈ events.find? DriverEvent.isDisconnected, e.isTold = true

theorem toldFirst_cons_disconnected {e : DriverEvent} (h : e.isDisconnected = true)
    (rest : List DriverEvent) : ToldFirst (e :: rest) ↔ e.isTold = true := by
  simp [ToldFirst, List.find?_cons_of_pos h]

theorem toldFirst_cons_other {e : DriverEvent} (h : e.isDisconnected = false)
    (rest : List DriverEvent) : ToldFirst (e :: rest) ↔ ToldFirst rest := by
  simp [ToldFirst, h]

theorem ToldFirst.pending {events : List DriverEvent} (h : ToldFirst events) :
    ToldPending events := by
  obtain ⟨e, first, told⟩ := h
  exact ⟨e, List.mem_of_find?_eq_some first, told⟩

theorem ToldFirst.mono {events more : List DriverEvent} (h : ToldFirst events)
    (kept : events <+: more) : ToldFirst more := by
  obtain ⟨e, first, told⟩ := h
  obtain ⟨new, rfl⟩ := kept
  refine ⟨e, ?_, told⟩
  rw [Option.mem_def] at first ⊢
  rw [List.find?_append, first, Option.some_or]

theorem toldFirst_posted {events : List DriverEvent}
    (others : ∀ e ∈ events, ¬ e.isDisconnected = true) (ssid : Field 32) (reason : UInt8)
    (answered : Nat) : ToldFirst (events ++ [.staDisconnected .told ssid reason answered]) := by
  refine ⟨.staDisconnected .told ssid reason answered, ?_, rfl⟩
  rw [Option.mem_def, List.find?_append, List.find?_eq_none.mpr others]
  rfl

namespace Radio

/-- The mark stands for an event that is still to come, and no other event took its branch. -/
def MarkFounded (w : Radio) : Prop :=
  (∀ cause ∈ w.absorbed, cause = .told) ∧
    (w.manager.bits.disconnected = true → ToldPending w.events)

instance (w : Radio) : Decidable w.MarkFounded := inferInstanceAs (Decidable (_ ∧ _))

/-- `clear_sta_config` finds CONNECTED set, but there is no link, and no event of an earlier
disconnect is on its way. -/
def MarksGoneLink (w : Radio) (a : Input) : Prop :=
  w.manager.markEffect a = .clearsConfig ∧ w.manager.bits.connected = true ∧ w.link = none ∧
    ¬ ToldPending w.events

/-- A step after which the mark stands for nothing, or an event takes its branch that it does not
stand for. -/
def Misreads (w : Radio) (a : RadioInput) : Prop :=
  w.manager.running = true ∧
    match a with
    | .task a => w.MarksGoneLink a.1
    | .deliver =>
      match w.events with
      | .staDisconnected cause ssid reason answered :: rest =>
        if w.manager.bits.disconnected then
          -- the last event that was asked for is spent on a retry, or another one is before it
          if w.manager.bits.retryConnection then cause = .told ∧ ¬ ToldPending rest
          else ¬ ToldFirst w.events
        else
          { w with events := rest }.MarksGoneLink (.staDisconnected ssid reason answered)
      | _ => False
    | _ => False

/-- Only the first disconnect of a step finds the link. -/
theorem obey_calls (w : Radio) (calls : List Call) :
    calls.foldl obey w =
      match w.link with
      | none => w
      | some ssid =>
        if Call.disconnect ∈ calls then
          { w with link := none }.post (.staDisconnected .told ssid wifiReasonAssocLeave 0)
        else w := by
  induction calls generalizing w with
  | nil => cases w.link <;> rfl
  | cons c calls ih =>
    rw [List.foldl_cons, ih]
    cases c with
    | disconnect =>
      cases link : w.link with
      | none => simp [obey, link]
      | some ssid => simp [obey, link, post]
    | connect | scanStart | setConfig | setCandidate | setMode | timerStart | timerStop | stop =>
      cases link : w.link with
      | none => simp [obey, link]
      | some ssid => simp [obey, link]

variable (p : Platform)

theorem run_manager (w : Radio) (a : Input) : (w.run p a).manager = w.manager.step p a := by
  unfold run
  rw [obey_calls]
  split
  · rfl
  · split <;> rfl

theorem run_absorbed (w : Radio) (a : Input) : (w.run p a).absorbed = w.absorbed := by
  unfold run
  rw [obey_calls]
  split
  · rfl
  · split <;> rfl

theorem run_events (w : Radio) (a : Input) : w.events <+: (w.run p a).events := by
  unfold run
  rw [obey_calls]
  split
  · exact List.prefix_rfl
  · split
    · exact List.prefix_append _ _
    · exact List.prefix_rfl

/-- A step that calls `esp_wifi_disconnect` leaves its event on the way, if there was a link. -/
theorem run_disconnects (w : Radio) (a : Input)
    (calls : w.manager.calls ++ [.disconnect] <+: (w.manager.step p a).calls) :
    (w.run p a).events = w.events ++
      (w.link.map (.staDisconnected .told · wifiReasonAssocLeave 0)).toList := by
  obtain ⟨more, same⟩ := calls
  have called : Call.disconnect ∈ (w.manager.step p a).calls.drop w.manager.calls.length := by
    rw [← same, List.append_assoc, List.drop_left]
    exact List.mem_cons_self
  unfold run
  rw [obey_calls]
  simp only [if_pos called]
  cases w.link with
  | none => exact (List.append_nil _).symm
  | some ssid => rfl

theorem told_disconnects (w : Radio) (a : Input)
    (calls : w.manager.calls ++ [.disconnect] <+: (w.manager.step p a).calls) :
    ToldPending (w.run p a).events ↔ ToldPending w.events ∨ w.link ≠ none := by
  rw [run_disconnects p w a calls]
  cases w.link with
  | none => simp
  | some ssid =>
    refine iff_of_true ?_ (Or.inr nofun)
    exact ⟨_, List.mem_append_right _ List.mem_cons_self, rfl⟩

theorem run_connects (w : Radio) (a : Input)
    (calls : (w.manager.step p a).calls = w.manager.calls ++ [.connect]) :
    (w.run p a).events = w.events := by
  unfold run
  rw [obey_calls, calls, List.drop_left]
  split
  · rfl
  · simp

/-- The mark stays founded exactly if the step does not set it for a link that is gone. -/
theorem run_founded_iff (w : Radio) (a : Input) (running : w.manager.running = true)
    (held : w.manager.bits.disconnected = true → ToldPending w.events) :
    ((w.run p a).manager.bits.disconnected = true → ToldPending (w.run p a).events) ↔
      ¬ w.MarksGoneLink a := by
  have marked := Manager.step_marked p running a
  have events := run_events p w a
  have disconnects := told_disconnects p w a
  rw [run_manager]
  unfold MarksGoneLink
  cases effect : w.manager.markEffect a with
  | keeps =>
    rw [effect] at marked
    refine iff_of_true ?_ nofun
    intro mark
    rw [marked.1] at mark
    exact (held mark).mono events
  | takesDown =>
    rw [effect] at marked
    refine iff_of_true ?_ nofun
    intro mark
    rw [marked.1] at mark
    cases mark
  | clearsConfig =>
    rw [effect] at marked
    rw [disconnects marked.2, marked.1, Bool.or_eq_true]
    constructor
    · rintro founded ⟨_, connected, gone, none_told⟩
      rcases founded (Or.inr connected) with told | linked
      · exact none_told told
      · exact linked gone
    · intro fine mark
      by_contra unfounded
      obtain ⟨none_told, gone⟩ := not_or.mp unfounded
      rcases mark with already | connected
      · exact none_told (held already)
      · exact fine ⟨rfl, connected, not_not.mp gone, none_told⟩

theorem founded_run_iff {w v : Radio} (absorbed : w.absorbed = v.absorbed)
    (told : ∀ cause ∈ v.absorbed, cause = .told) :
    w.MarkFounded ↔ (w.manager.bits.disconnected = true → ToldPending w.events) := by
  unfold MarkFounded
  rw [absorbed]
  exact and_iff_right told

theorem founded_posted {w v : Radio} (h : w.MarkFounded) (manager : v.manager = w.manager)
    (absorbed : v.absorbed = w.absorbed) (events : w.events <+: v.events) : v.MarkFounded := by
  rw [founded_run_iff absorbed h.1, manager]
  exact fun mark => (h.2 mark).mono events

/-- Any event but STA_DISCONNECTED. -/
theorem deliver_other (w : Radio) (e : DriverEvent) (rest : List DriverEvent)
    (running : w.manager.running = true) (h : w.MarkFounded) (next : w.events = e :: rest)
    (other : ∀ cause ssid reason answered, e ≠ .staDisconnected cause ssid reason answered) :
    (w.deliver p).MarkFounded := by
  have plain : w.deliver p = ({ w with events := rest } : Radio).run p e.input := by
    unfold deliver
    rw [next]
    cases e with
    | staDisconnected cause ssid reason answered => exact absurd rfl (other cause ssid reason answered)
    | staConnected | scanDone | gotIp => rfl
  have untold : e.isTold = false := by
    cases e with
    | staDisconnected cause ssid reason answered => exact absurd rfl (other cause ssid reason answered)
    | staConnected | scanDone | gotIp => rfl
  have held : w.manager.bits.disconnected = true → ToldPending rest := by
    intro mark
    have pending := h.2 mark
    rw [next, toldPending_cons, untold] at pending
    exact pending.resolve_left nofun
  have keeps : w.manager.markEffect e.input ≠ .clearsConfig := by
    cases e with
    | staDisconnected cause ssid reason answered => exact absurd rfl (other cause ssid reason answered)
    | staConnected | scanDone | gotIp => nofun
  rw [plain, founded_run_iff (run_absorbed p { w with events := rest } e.input) h.1]
  exact (run_founded_iff p { w with events := rest } e.input running held).mpr
    fun marks => keeps marks.1

theorem deliver_disconnected (w : Radio) (cause : Cause) (ssid : Field 32) (reason : UInt8)
    (answered : Nat) (rest : List DriverEvent) (running : w.manager.running = true)
    (h : w.MarkFounded) (next : w.events = .staDisconnected cause ssid reason answered :: rest) :
    (w.deliver p).MarkFounded ↔ ¬ w.Misreads .deliver := by
  have told_iff : (DriverEvent.staDisconnected cause ssid reason answered).isTold = true ↔
      cause = .told := by
    cases cause <;> simp [DriverEvent.isTold]
  have stepped : ∀ m : Manager, m.running = true →
      m.step p (.staDisconnected ssid reason answered) =
        (m.linkEvent false answered).staDisconnected p ssid reason := fun m on => if_pos on
  unfold Misreads deliver
  simp only [running, next, true_and]
  cases mark : w.manager.bits.disconnected with
  | false =>
    -- the branch is not taken
    have plain : absorb { w with events := rest } (.staDisconnected cause ssid reason answered) =
        { w with events := rest } := by
      simp [absorb, takesToldBranch, mark]
    rw [plain, founded_run_iff (run_absorbed p { w with events := rest } _) h.1]
    refine run_founded_iff p { w with events := rest } _ running fun marked => ?_
    exact absurd (mark.symm.trans marked) nofun
  | true =>
    cases retry : w.manager.bits.retryConnection with
    | true =>
      have plain : absorb { w with events := rest } (.staDisconnected cause ssid reason answered) =
          { w with events := rest } := by
        simp [absorb, takesToldBranch, retry]
      have retries : (w.manager.step p (.staDisconnected ssid reason answered)) =
          ((w.manager.linkEvent false answered).setBits
            ({ · with retryConnection := false })).espWifiConnect := by
        rw [stepped w.manager running]
        exact if_pos retry
      have events := run_connects p { w with events := rest }
        (.staDisconnected ssid reason answered) (by rw [retries]; rfl)
      have marked : (w.manager.step p (.staDisconnected ssid reason answered)).bits.disconnected =
          true := by
        rw [retries]
        exact mark
      rw [plain, founded_run_iff (run_absorbed p { w with events := rest } _) h.1]
      simp only [DriverEvent.input, run_manager, marked, events, forall_const, if_true]
      have pending := h.2 mark
      rw [next, toldPending_cons, told_iff] at pending
      constructor
      · rintro left ⟨_, none_left⟩
        exact none_left left
      · intro fine
        by_contra none_left
        exact fine ⟨pending.resolve_right none_left, none_left⟩
    | false =>
      have taken : absorb { w with events := rest } (.staDisconnected cause ssid reason answered) =
          { w with events := rest, absorbed := w.absorbed ++ [cause] } := by
        simp [absorb, takesToldBranch, mark, retry]
      have effect : w.manager.markEffect (.staDisconnected ssid reason answered) = .takesDown := by
        simp [Manager.markEffect, Manager.staDisconnectedEffect, mark, retry]
      have down := Manager.step_marked p running (.staDisconnected ssid reason answered)
      rw [effect] at down
      have unmarked : (w.manager.step p (.staDisconnected ssid reason answered)).bits.disconnected =
          false := down.1
      rw [taken]
      unfold MarkFounded
      simp only [DriverEvent.input, run_absorbed, run_manager, unmarked, Bool.false_eq_true,
        false_implies, and_true, if_true, if_false, List.forall_mem_append, List.forall_mem_singleton]
      rw [and_iff_right h.1, toldFirst_cons_disconnected rfl, told_iff]
      exact not_not.symm

theorem handle_founded_iff (w : Radio) (running : w.manager.running = true) (h : w.MarkFounded)
    (a : RadioInput) : (w.handle p a).MarkFounded ↔ ¬ w.Misreads a := by
  have kept {v : Radio} (founded : v.MarkFounded) (reads : ¬ w.Misreads a) :
      v.MarkFounded ↔ ¬ w.Misreads a := iff_of_true founded reads
  cases a with
  | task a =>
    have set_iff := run_founded_iff p w a.1 running h.2
    simp only [handle, Misreads, running, true_and]
    rw [founded_run_iff (run_absorbed p w a.1) h.1, set_iff]
  | deliver =>
    simp only [handle]
    cases next : w.events with
    | nil =>
      refine kept ?_ ?_
      · unfold deliver
        rw [next]
        exact h
      · simp [Misreads, next]
    | cons e rest =>
      cases e with
      | staDisconnected cause ssid reason answered =>
        exact deliver_disconnected p w cause ssid reason answered rest running h next
      | staConnected ssid ssidLen answered =>
        exact kept (deliver_other p w _ rest running h next nofun) (by simp [Misreads, next])
      | scanDone | gotIp =>
        exact kept (deliver_other p w _ rest running h next nofun) (by simp [Misreads, next])
  | linkLost reason =>
    refine kept ?_ fun misreads => misreads.2
    simp only [handle]
    split
    · exact h
    · exact founded_posted h rfl rfl (List.prefix_append _ _)
  | associated | attemptFailed | scanFinished | addressAssigned =>
    exact kept (founded_posted h rfl rfl (List.prefix_append _ _)) fun misreads => misreads.2

/-! ### Where the mark is set -/

/-- The mark is up, no retry is due before it is read, and the event that will read it was asked
for. -/
def Orderly (w : Radio) : Prop :=
  w.manager.bits.disconnected = true →
    w.manager.bits.retryConnection = false ∧ ToldFirst w.events

/-- The step sets the mark although there is no link, or another STA_DISCONNECTED is on its way; or
it leaves a retry due under the mark. -/
def SetsAmiss (p : Platform) (w : Radio) (a : Input) : Prop :=
  (w.manager.step p a).bits.disconnected = true ∧
    ((w.manager.step p a).bits.retryConnection = true ∨
      w.manager.bits.disconnected = false ∧
        (w.link = none ∨ ∃ e ∈ w.events, e.isDisconnected = true))

def MarksAmiss (p : Platform) (w : Radio) : RadioInput → Prop
  | .task a => w.SetsAmiss p a.1
  | .deliver =>
    match w.events with
    | e :: rest => { w with events := rest }.SetsAmiss p e.input
    | [] => False
  | _ => False

/-- A mark that a step sets comes with the event of its `esp_wifi_disconnect`. -/
theorem run_posts (w : Radio) (a : Input) (running : w.manager.running = true)
    (unmarked : w.manager.bits.disconnected = false)
    (marks : (w.manager.step p a).bits.disconnected = true) {ssid : Field 32}
    (linked : w.link = some ssid) :
    (w.run p a).events =
      w.events ++ [.staDisconnected .told ssid wifiReasonAssocLeave 0] := by
  have marked := Manager.step_marked p running a
  cases effect : w.manager.markEffect a with
  | keeps =>
    rw [effect] at marked
    exact absurd ((marked.1.symm.trans marks).symm.trans unmarked) nofun
  | takesDown =>
    rw [effect] at marked
    exact absurd (marked.1.symm.trans marks) nofun
  | clearsConfig =>
    rw [effect] at marked
    rw [run_disconnects p w a marked.2, linked]
    rfl

theorem run_orderly (w : Radio) (a : Input) (running : w.manager.running = true)
    (first : w.manager.bits.disconnected = true → ToldFirst w.events)
    (fine : ¬ w.SetsAmiss p a) : (w.run p a).Orderly := by
  intro mark
  rw [run_manager] at mark ⊢
  have quiet : (w.manager.step p a).bits.retryConnection = false := by
    rw [← Bool.not_eq_true]
    exact fun retry => fine ⟨mark, .inl retry⟩
  refine ⟨quiet, ?_⟩
  cases unmarked : w.manager.bits.disconnected with
  | true => exact (first unmarked).mono (run_events p w a)
  | false =>
    cases linked : w.link with
    | none => exact absurd ⟨mark, .inr ⟨unmarked, .inl linked⟩⟩ fine
    | some ssid =>
      rw [run_posts p w a running unmarked mark linked]
      apply toldFirst_posted
      intro e waiting disconnected
      exact fine ⟨mark, .inr ⟨unmarked, .inr ⟨e, waiting, disconnected⟩⟩⟩

theorem run_marks (w : Radio) (a : Input) (running : w.manager.running = true)
    (first : w.manager.bits.disconnected = true → ToldFirst w.events)
    (fine : ¬ w.SetsAmiss p a) : ¬ w.MarksGoneLink a := by
  rintro ⟨clears, connected, gone, none_told⟩
  have marked := Manager.step_marked p running a
  rw [clears] at marked
  have mark : (w.manager.step p a).bits.disconnected = true := by
    rw [marked.1, connected, Bool.or_true]
  cases unmarked : w.manager.bits.disconnected with
  | true => exact none_told (first unmarked).pending
  | false => exact fine ⟨mark, .inr ⟨unmarked, .inl gone⟩⟩

theorem run_takesDown (w : Radio) {ssid : Field 32} {reason : UInt8} {answered : Nat}
    (running : w.manager.running = true) (taken : takesToldBranch w.manager.bits = true) :
    (w.run p (.staDisconnected ssid reason answered)).Orderly := by
  obtain ⟨retry, mark⟩ := Bool.and_eq_true_iff.mp taken
  have effect : w.manager.markEffect (.staDisconnected ssid reason answered) = .takesDown := by
    simp only [Bool.not_eq_eq_eq_not, Bool.not_true] at retry
    simp [Manager.markEffect, Manager.staDisconnectedEffect, mark, retry]
  have down := Manager.step_marked p running (.staDisconnected ssid reason answered)
  rw [effect] at down
  intro marked
  rw [run_manager, down.1] at marked
  cases marked

/-- An event that is handled leaves the first STA_DISCONNECTED behind it, or is it. -/
theorem first_of_rest {w : Radio} (h : w.Orderly) {e : DriverEvent} {rest : List DriverEvent}
    (next : w.events = e :: rest) (other : e.isDisconnected = false) :
    w.manager.bits.disconnected = true → ToldFirst rest := by
  intro mark
  have first := (h mark).2
  rwa [next, toldFirst_cons_other other] at first

theorem orderly_reads (w : Radio) (a : RadioInput) (h : w.Orderly) (fine : ¬ w.MarksAmiss p a) :
    ¬ w.Misreads a := by
  rintro ⟨running, reads⟩
  cases a with
  | task a => exact run_marks p w a.1 running (fun mark => (h mark).2) fine reads
  | deliver =>
    cases next : w.events with
    | nil => simp [next] at reads
    | cons e rest =>
      simp only [MarksAmiss, next] at fine
      cases e with
      | staDisconnected cause ssid reason answered =>
        simp only [next] at reads
        split at reads
        · rename_i mark
          obtain ⟨quiet, first⟩ := h mark
          rw [next] at first
          rw [quiet] at reads
          exact reads first
        · rename_i unmarked
          refine run_marks p { w with events := rest } _ running (fun mark => ?_) fine reads
          exact absurd mark unmarked
      | staConnected | scanDone | gotIp => simp [next] at reads
  | associated | attemptFailed | linkLost | scanFinished | addressAssigned => exact reads

theorem orderly_step (w : Radio) (a : RadioInput) (h : w.Orderly) (fine : ¬ w.MarksAmiss p a) :
    (w.step p a).Orderly := by
  have posted {v : Radio} (manager : v.manager = w.manager) (events : w.events <+: v.events) :
      v.Orderly := by
    intro mark
    rw [manager] at mark ⊢
    exact ⟨(h mark).1, (h mark).2.mono events⟩
  unfold step
  split
  · rename_i running
    cases a with
    | task a => exact run_orderly p w a.1 running (fun mark => (h mark).2) fine
    | deliver =>
      simp only [handle, deliver]
      cases next : w.events with
      | nil => exact h
      | cons e rest =>
        simp only [MarksAmiss, next] at fine
        cases e with
        | staDisconnected cause ssid reason answered =>
          simp only [absorb]
          split
          · rename_i taken
            exact run_takesDown p _ running taken
          · rename_i plain
            refine run_orderly p { w with events := rest } _ running (fun mark => ?_) fine
            have retry := (h mark).1
            exact absurd (Bool.and_eq_true_iff.mpr ⟨by simp [retry], mark⟩) plain
        | staConnected ssid ssidLen answered =>
          exact run_orderly p { w with events := rest } _ running (first_of_rest h next rfl) fine
        | scanDone | gotIp =>
          exact run_orderly p { w with events := rest } _ running (first_of_rest h next rfl) fine
    | linkLost reason =>
      simp only [handle]
      split
      · exact h
      · exact posted rfl (List.prefix_append _ _)
    | associated | attemptFailed | scanFinished | addressAssigned =>
      exact posted rfl (List.prefix_append _ _)
  · exact h

/-- A mark that is only set for a link that is up, with no other STA_DISCONNECTED on its way and no
retry due, is read by the event it stands for. -/
theorem misreads_only_where_set (saved : Saved) (ap : ApSettings) (staConfig : Credentials)
    (as : List RadioInput)
    (fine : Runs.Along (step p) (fun w a => ¬ w.MarksAmiss p a) (start p saved ap staConfig) as) :
    Runs.Along (step p) (fun w a => ¬ w.Misreads a) (start p saved ap staConfig) as :=
  Runs.along_of_guarded_invariant (P := Orderly) (orderly_step p) (orderly_reads p)
    (start p saved ap staConfig) (fun mark => absurd mark Bool.false_ne_true) as fine

/-- In every reachable state the mark stands for an event of an explicit disconnect that is still
to come, exactly in the runs without a step that sets or reads it otherwise. -/
theorem mark_founded_iff (saved : Saved) (ap : ApSettings) (staConfig : Credentials)
    (as : List RadioInput) :
    Runs.Throughout (step p) MarkFounded (start p saved ap staConfig) as ↔
      Runs.Along (step p) (fun w a => ¬ w.Misreads a) (start p saved ap staConfig) as := by
  apply Runs.throughout_iff_along (I := fun _ => True)
  · exact fun _ _ _ => trivial
  · intro w a _ h
    unfold step
    split
    · rename_i running
      exact handle_founded_iff p w running h a
    · rename_i stopped
      exact iff_of_true h fun misreads => stopped misreads.1
  · trivial
  · exact ⟨nofun, nofun⟩

/-- The station is connected, the link is lost, and then a connect request arrives and fails. -/
def requestAfterLoss : List RadioInput :=
  [.task TaskInput.order, .scanFinished ⟨true, some 1, true, some [seen lab (-40)]⟩, .deliver,
    .task TaskInput.order, .associated (ssidKey lab) 3 1, .deliver, .addressAssigned, .deliver,
    .linkLost 200, .deliver, .task (TaskInput.addSsid hall secret), .task TaskInput.order,
    .attemptFailed (ssidKey hall) 201 1, .deliver]

/-- The failed attempt is taken for the disconnect that was asked for. -/
theorem failed_attempt_absorbed :
    ¬ Runs.Throughout (step plainPlatform) MarkFounded
      (start plainPlatform ([Operation.add lab secret].foldl Operation.apply none) .erased .zero)
      requestAfterLoss := by
  intro founded
  have last := (Runs.throughout_iff_prefix _ _).mp founded requestAfterLoss (List.prefix_refl _)
  exact absurd last.1 (by decide)

end Radio

end Rocom.Wilma
