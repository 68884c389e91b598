import Rocom.Usb.Slots

/-! What the class driver keeps in every run: its slots stay well formed, an action is never
pending without the flag that wakes the loop, and the library is only called with open handles. -/
namespace Rocom.Usb

open ClassDriver

/-- What the library promises of its events: an address in range whose device was closed, and no
third kind of event. -/
def Promised (s : ClassDriver) : Input → Prop
  | .newDev address =>
    0 < address ∧ address < devMaxCount ∧ s.device[address]?.bind (·.devHdl) = none
  | .otherEvent => False
  | _ => True

instance (s : ClassDriver) : ∀ i, Decidable (Promised s i)
  | .newDev address => inferInstanceAs (Decidable (0 < address ∧ address < devMaxCount ∧ _ = none))
  | .otherEvent => isFalse fun h => h
  | .readUnhandled | .handle | .readShutdown | .devGone _ | .eventsHandled | .deregisterClient
  | .deregister => isTrue trivial

structure Sound (client : Client) (s : ClassDriver) : Prop where
  count : s.device.length = devMaxCount
  slots : Slots client 0 s.device
  flagged : ∀ d ∈ s.device, d.actions ≠ .none → s.unhandledDevices = true
  ledger : Ledger s.log (handles s.device)

/-! ### The table under the three callers -/

theorem slots_map {client : Client} {f : UsbDevice → UsbDevice}
    (keeps : ∀ index d, Slot client index d → Slot client index (f d)) (ds : List UsbDevice)
    (index : Nat) (slots : Slots client index ds) : Slots client index (ds.map f) := by
  induction ds generalizing index with
  | nil => trivial
  | cons d ds ih => exact ⟨keeps index d slots.1, ih (index + 1) slots.2⟩

theorem slots_getElem {client : Client} {ds : List UsbDevice} {index i : Nat}
    (slots : Slots client index ds) {d : UsbDevice} (here : ds[i]? = some d) :
    Slot client (index + i) d := by
  induction ds generalizing index i with
  | nil => simp at here
  | cons e ds ih =>
    cases i with
    | zero =>
      simp only [List.getElem?_cons_zero, Option.some.injEq] at here
      exact here ▸ slots.1
    | succ i =>
      have rest := ih slots.2 here
      rwa [Nat.add_assoc, Nat.add_comm 1] at rest

theorem slots_modify {client : Client} {f : UsbDevice → UsbDevice} (ds : List UsbDevice)
    (index i : Nat) (keeps : ∀ d, ds[i]? = some d → Slot client (index + i) (f d))
    (slots : Slots client index ds) : Slots client index (ds.modify i f) := by
  induction ds generalizing index i with
  | nil => simpa using slots
  | cons d ds ih =>
    cases i with
    | zero => exact ⟨keeps d rfl, slots.2⟩
    | succ i =>
      refine ⟨slots.1, ih (index + 1) i (fun e here => ?_) slots.2⟩
      have kept := keeps e here
      rwa [Nat.add_comm i 1, ← Nat.add_assoc] at kept

theorem handles_map {f : UsbDevice → UsbDevice} (keeps : ∀ d, (f d).devHdl = d.devHdl)
    (ds : List UsbDevice) : handles (ds.map f) = handles ds := by
  rw [handles, List.filterMap_map, handles]
  exact List.filterMap_congr fun d _ => keeps d

theorem handles_modify {f : UsbDevice → UsbDevice} (ds : List UsbDevice) (i : Nat)
    (keeps : ∀ d, ds[i]? = some d → (f d).devHdl = d.devHdl) :
    handles (ds.modify i f) = handles ds := by
  induction ds generalizing i with
  | nil => simp
  | cons d ds ih =>
    cases i with
    | zero =>
      rw [List.modify_zero_cons, handles_cons, handles_cons, keeps d rfl]
    | succ i =>
      rw [List.modify_succ_cons, handles_cons, handles_cons, ih i keeps]

theorem sound_start (client : Client) : Sound client (start client) := by
  have absent : ∀ n index, Slots client index (List.replicate n ⟨client, 0, none, .none⟩) := by
    intro n
    induction n with
    | zero => intro index; trivial
    | succ n ih => intro index; exact ⟨.absent, ih (index + 1)⟩
  refine ⟨List.length_replicate, absent devMaxCount 0, ?_, trivial, ?_, ?_⟩
  · intro d mem active
    exact absurd (congrArg UsbDevice.actions (List.eq_of_mem_replicate mem)) active
  · intro h
    simp [start, handles, opens, closes]
  · simp [start, handles]

variable {client : Client} {host : Host} {s : ClassDriver}

theorem sound_newDev (sound : Sound client s) {address : Nat}
    (promised : Promised s (.newDev address)) :
    Sound client { s with
      device := s.device.modify address (announce · address), unhandledDevices := true } := by
  obtain ⟨nonzero, inside, unused⟩ := promised
  have free : ∀ d, s.device[address]? = some d → d.devHdl = none := by
    intro d here
    rw [here] at unused
    exact unused
  refine ⟨?_, ?_, fun _ _ _ => rfl, ?_⟩
  · exact (List.length_modify _ _ _).trans sound.count
  · refine slots_modify s.device 0 address (fun d here => ?_) sound.slots
    have slot := slots_getElem sound.slots here
    have closed := free d here
    rw [Nat.zero_add] at slot ⊢
    cases slot with
    | absent => exact .announced (by omega)
    | announced => exact .announced (by omega)
    | opened | leaving => cases closed
  · rw [handles_modify s.device address fun d here => (free d here).symm]
    exact sound.ledger

theorem sound_devGone (sound : Sound client s) (handle : Handle) :
    Sound client (s.devGone handle) := by
  refine ⟨(List.length_map _).trans sound.count, ?_, ?_, ?_⟩
  · refine slots_map (fun index d slot => ?_) s.device 0 sound.slots
    split
    · cases slot with
      | absent => rename_i same; cases same
      | announced => rename_i same; cases same
      | opened handle => exact .leaving handle
      | leaving handle => exact .leaving handle
    · exact slot
  · intro d mem active
    obtain ⟨e, before, rfl⟩ := List.mem_map.mp mem
    by_cases gone : e.devHdl = some handle
    · have some_gone : s.device.any (·.devHdl = some handle) = true :=
        List.any_eq_true.mpr ⟨e, before, decide_eq_true gone⟩
      simp [devGone, some_gone]
    · rw [if_neg gone] at active
      simp [devGone, sound.flagged e before active]
  · have same : handles (s.devGone handle).device = handles s.device :=
      handles_map (fun d => by split <;> rfl) s.device
    rw [same]
    exact sound.ledger

theorem sound_deregister (sound : Sound client s) :
    Sound client s.classDriverClientDeregister := by
  refine ⟨(List.length_map _).trans sound.count, ?_, ?_, ?_⟩
  · refine slots_map (fun index d slot => ?_) s.device 0 sound.slots
    cases slot with
    | absent => exact .absent
    | announced nonzero => exact .announced nonzero
    | opened handle => exact .leaving handle
    | leaving handle => exact .leaving handle
  · intro d mem active
    obtain ⟨e, before, rfl⟩ := List.mem_map.mp mem
    by_cases opened : e.devHdl ≠ none
    · have some_open : s.device.any (·.devHdl ≠ none) = true :=
        List.any_eq_true.mpr ⟨e, before, decide_eq_true opened⟩
      exact (congrArg (s.unhandledDevices || ·) some_open).trans (Bool.or_true _)
    · rw [if_neg opened] at active
      simp [classDriverClientDeregister, sound.flagged e before active]
  · have same : handles s.classDriverClientDeregister.device = handles s.device :=
      handles_map (fun d => by split <;> rfl) s.device
    rw [same]
    exact sound.ledger

/-! ### Steps and runs -/

/-- The task that takes a step is there to take it. -/
def Enabled (s : ClassDriver) : Input → Prop
  | .readUnhandled => s.task = .top
  | .handle => s.task = .handling
  | .readShutdown => s.task = .checkShutdown
  | .newDev _ | .devGone _ | .otherEvent | .eventsHandled => s.task = .events
  | .deregisterClient => s.task = .stopped
  | .deregister => s.task ≠ .suspended

/-- The ways of one step that keeps the library's promise. -/
inductive Took (host : Host) (client : Client) (s : ClassDriver) : Input → ClassDriver → Prop
  | elsewhere (i : Input) (disabled : ¬ Enabled s i) : Took host client s i s
  | failed (i : Input) : Took host client s i { s with fault := some .checkFailed }
  | pending (task : s.task = .top) (flag : s.unhandledDevices = true) :
      Took host client s .readUnhandled (s.goto .handling)
  | settled (task : s.task = .top) (flag : s.unhandledDevices = false) :
      Took host client s .readUnhandled (s.goto .checkShutdown)
  | swept (task : s.task = .handling) (log : List Record) (device : List UsbDevice)
      (swept : Swept client 0 s.device device) (ledger : Ledger log (handles device)) :
      Took host client s .handle { s with
        log := log, device := device, unhandledDevices := false, task := .top }
  | stopped (task : s.task = .checkShutdown) (flag : s.shutdown = true) :
      Took host client s .readShutdown (s.goto .stopped)
  | listening (task : s.task = .checkShutdown) (flag : s.shutdown = false) :
      Took host client s .readShutdown (s.goto .events)
  | newDev (task : s.task = .events) (address : Nat) (promised : Promised s (.newDev address)) :
      Took host client s (.newDev address) { s with
        device := s.device.modify address (announce · address), unhandledDevices := true }
  | devGone (task : s.task = .events) (handle : Handle) :
      Took host client s (.devGone handle) (s.devGone handle)
  | eventsHandled (task : s.task = .events) : Took host client s .eventsHandled (s.goto .top)
  | suspended (task : s.task = .stopped) (left : host.clientDeregister s.log = true) :
      Took host client s .deregisterClient (s.goto .suspended)
  | deregister (task : s.task ≠ .suspended) :
      Took host client s .deregister s.classDriverClientDeregister

theorem exec_elsewhere (i : Input) (disabled : ¬ Enabled s i) : s.exec host i = .ok s := by
  cases i <;> cases task : s.task <;> simp_all [Enabled, exec]

theorem step_ok (fault : s.fault = none) {i : Input} (s' : ClassDriver)
    (done : s.exec host i = .ok s') : step host s i = s' := by
  simp only [step, fault, done]

theorem step_error (fault : s.fault = none) {i : Input} (f : Fault)
    (error : s.exec host i = .error f) : step host s i = { s with fault := some f } := by
  simp only [step, fault, error]

theorem step_took (fresh : host.Fresh) (sound : Sound client s) (fault : s.fault = none)
    (i : Input) (promised : Promised s i) : Took host client s i (step host s i) := by
  by_cases enabled : Enabled s i
  · cases i with
    | readUnhandled =>
      have task : s.task = .top := enabled
      cases flag : s.unhandledDevices with
      | true =>
        rw [step_ok fault (s.goto .handling) (by simp [exec, task, flag])]
        exact .pending task flag
      | false =>
        rw [step_ok fault (s.goto .checkShutdown) (by simp [exec, task, flag])]
        exact .settled task flag
    | handle =>
      have task : s.task = .handling := enabled
      rcases handleDevices_spec fresh 0 s.device sound.slots []
        sound.ledger with error | ⟨log, device, done, swept, ledger⟩
      · rw [step_error fault .checkFailed (by simp [exec, task, error, bind, Except.bind])]
        exact .failed _
      · rw [step_ok fault { s with
            log := log, device := device, unhandledDevices := false, task := .top }
          (by simp [exec, task, done, bind, Except.bind])]
        exact .swept task log device swept ledger
    | readShutdown =>
      have task : s.task = .checkShutdown := enabled
      cases flag : s.shutdown with
      | true =>
        rw [step_ok fault (s.goto .stopped) (by simp [exec, task, flag])]
        exact .stopped task flag
      | false =>
        rw [step_ok fault (s.goto .events) (by simp [exec, task, flag])]
        exact .listening task flag
    | newDev address =>
      have task : s.task = .events := enabled
      rw [step_ok fault { s with
          device := s.device.modify address (announce · address), unhandledDevices := true }
        (by simp [exec, task, ClassDriver.newDev, promised.2.1])]
      exact .newDev task address promised
    | devGone handle =>
      have task : s.task = .events := enabled
      rw [step_ok fault (s.devGone handle) (by simp only [exec, task])]
      exact .devGone task handle
    | otherEvent => exact promised.elim
    | eventsHandled =>
      have task : s.task = .events := enabled
      rw [step_ok fault (s.goto .top) (by simp only [exec, task])]
      exact .eventsHandled task
    | deregisterClient =>
      have task : s.task = .stopped := enabled
      cases left : host.clientDeregister s.log with
      | true =>
        rw [step_ok fault (s.goto .suspended) (by simp [exec, task, left])]
        exact .suspended task left
      | false =>
        rw [step_error fault .checkFailed (by simp [exec, task, left])]
        exact .failed _
    | deregister =>
      have done : s.exec host .deregister = .ok s.classDriverClientDeregister := by
        cases task : s.task <;> simp_all [Enabled, exec]
      rw [step_ok fault _ done]
      exact .deregister enabled
  · rw [step_ok fault s (exec_elsewhere i enabled)]
    exact .elsewhere i enabled

theorem took_sound (sound : Sound client s) {i : Input} {s' : ClassDriver}
    (took : Took host client s i s') : Sound client s' := by
  have same : ∀ task fault, Sound client { s with task := task, fault := fault } := fun _ _ =>
    ⟨sound.count, sound.slots, sound.flagged, sound.ledger⟩
  cases took with
  | elsewhere => exact sound
  | failed => exact same s.task _
  | pending | settled | stopped | listening | eventsHandled | suspended => exact same _ s.fault
  | swept task log device swept ledger =>
    exact ⟨swept.handled.length_eq.symm.trans sound.count, swept.slots,
      fun d mem active => absurd (swept.idle d mem) active, ledger⟩
  | newDev task address promised => exact sound_newDev sound promised
  | devGone task handle => exact sound_devGone sound handle
  | deregister => exact sound_deregister sound

/-- A sound run is ended by an error of the library only. -/
structure Healthy (client : Client) (s : ClassDriver) : Prop where
  sound : Sound client s
  fault : s.fault = none ∨ s.fault = some .checkFailed

theorem step_healthy (fresh : host.Fresh) (s : ClassDriver) (i : Input)
    (healthy : Healthy client s) (promised : Promised s i) : Healthy client (step host s i) := by
  rcases healthy.fault with running | ended
  · have took := step_took fresh healthy.sound running i promised
    refine ⟨took_sound healthy.sound took, ?_⟩
    generalize step host s i = s' at took
    cases took with
    | failed => exact .inr rfl
    | _ => exact .inl running
  · have same : step host s i = s := by simp only [step, ended]
    rw [same]
    exact healthy

theorem run_healthy (fresh : host.Fresh) (client : Client) (inputs : List Input)
    (promised : Runs.Along (step host) Promised (start client) inputs) :
    Healthy client (inputs.foldl (step host) (start client)) :=
  Runs.guarded_invariant (step_healthy fresh) _ ⟨sound_start client, .inl rfl⟩ inputs promised

/-- In every run against a library that keeps its promises no assertion fails and no index is out
of range; every handle is used while it is open only and closed at most once; the open handles are
those of the slots; a pending action keeps the flag set, so that the task goes from the top of its
loop to the table, and that pass leaves no action pending, every announced device open and every
device that is gone closed, unless the library fails. -/
theorem driver_safe (host : Host) (fresh : host.Fresh) (client : Client) (inputs : List Input)
    (promised : Runs.Along (step host) Promised (start client) inputs) :
    let s := inputs.foldl (step host) (start client)
    (s.fault = none ∨ s.fault = some .checkFailed) ∧ Proper s.log ∧
      (∀ h, opens s.log h = closes s.log h + (handles s.device).count h) ∧
      (handles s.device).Nodup ∧ Slots client 0 s.device ∧
      (s.fault = none → s.task = .top → (∃ d ∈ s.device, d.actions ≠ .none) →
        (step host s .readUnhandled).task = .handling) ∧
      (s.fault = none → s.task = .handling →
        (step host s .handle).fault = some .checkFailed ∨
          Swept client 0 s.device (step host s .handle).device) := by
  intro s
  obtain ⟨sound, fault⟩ := run_healthy fresh client inputs promised
  refine ⟨fault, sound.ledger.proper, sound.ledger.balance, sound.ledger.unique, sound.slots, ?_, ?_⟩
  · rintro running task ⟨d, mem, active⟩
    have flag := sound.flagged d mem active
    rw [step_ok running (s.goto .handling) (by simp only [exec]; rw [task]; simp [flag, s])]
    rfl
  · intro running task
    have took := step_took fresh sound running .handle trivial
    generalize step host s .handle = s' at took ⊢
    cases took with
    | elsewhere _ disabled => exact absurd task disabled
    | failed => exact .inl rfl
    | swept _ _ _ swept _ => exact .inr swept

/-- A library whose calls succeed where they are allowed; a device is its own handle. -/
def ledgerHost : Host where
  deviceOpen log address := if opens log address = closes log address then some address else none
  deviceInfo log handle := if opens log handle = closes log handle + 1 then some none else none
  getDeviceDescriptor log handle := opens log handle = closes log handle + 1
  getActiveConfigDescriptor log handle := opens log handle = closes log handle + 1
  deviceClose log handle := opens log handle = closes log handle + 1
  clientDeregister log := log.all fun
    | .opened _ _ h | .closed _ h => opens log h = closes log h
    | _ => true

theorem fresh_ledgerHost : ledgerHost.Fresh := by
  intro log address handle given
  simp only [ledgerHost, Option.ite_none_right_eq_some, Option.some.injEq] at given
  exact given.2 ▸ given.1

/-- A device is plugged in, opened and gone again. -/
def visit : List Input :=
  [.readUnhandled, .readShutdown, .newDev 1, .eventsHandled, .readUnhandled, .handle,
    .readUnhandled, .readShutdown, .devGone 1, .eventsHandled, .readUnhandled]

theorem driver_safe_visit :
    (handles (visit.foldl (step ledgerHost) (start 7)).device).Nodup ∧
      ((step ledgerHost (visit.foldl (step ledgerHost) (start 7)) .handle).fault =
          some .checkFailed ∨
        Swept 7 0 (visit.foldl (step ledgerHost) (start 7)).device
          (step ledgerHost (visit.foldl (step ledgerHost) (start 7)) .handle).device) := by
  have safe := driver_safe ledgerHost fresh_ledgerHost 7 visit (by decide +kernel)
  obtain ⟨-, -, -, unique, -, -, handled⟩ := safe
  exact ⟨unique, handled (by decide +kernel) (by decide +kernel)⟩

end Rocom.Usb
