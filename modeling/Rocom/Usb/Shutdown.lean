import Rocom.Usb.Safety

/-! The end of the class driver. `class_driver_client_deregister` marks the open devices and asks
the task to leave its loop; a device that is opened after that, and one that is marked between the
two reads of the flags, is left open. Nothing else is. -/
namespace Rocom.Usb

open ClassDriver

variable {client : Client} {host : Host} {s : ClassDriver}

/-- The library's promises, and a caller that deregisters once. -/
def PromisedOnce (s : ClassDriver) (i : Input) : Prop :=
  Promised s i ∧ (i = .deregister → s.shutdown = false)

instance (s : ClassDriver) (i : Input) : Decidable (PromisedOnce s i) :=
  inferInstanceAs (Decidable (_ ∧ _))

/-- No device waits to be opened when the driver is deregistered, none is open if the task has
read the first flag and not the second one, and none is announced afterwards. -/
def Orderly (s : ClassDriver) : Input → Prop
  | .deregister => (∀ d ∈ s.device, d.actions.openDev = false) ∧
      (s.task = .checkShutdown → handles s.device = [])
  | .newDev _ => s.task = .events → s.shutdown = false
  | _ => True

instance (s : ClassDriver) : ∀ i, Decidable (Orderly s i)
  | .deregister => inferInstanceAs (Decidable (_ ∧ (_ → _)))
  | .newDev _ => inferInstanceAs (Decidable (_ → _))
  | .otherEvent | .readUnhandled | .handle | .readShutdown | .devGone _ | .eventsHandled
  | .deregisterClient => isTrue trivial

/-- The task has read that nothing is pending. -/
def Passed (s : ClassDriver) : Prop :=
  s.task = .checkShutdown ∨ s.task = .stopped ∨ s.task = .suspended

/-- What the flags stand for where the task has read them. -/
structure Flags (s : ClassDriver) : Prop where
  checked : s.task = .checkShutdown → s.shutdown = false → ∀ d ∈ s.device, d.actions = .none
  left : s.task = .stopped ∨ s.task = .suspended → s.shutdown = true

/-- A driver that closes every device if it is deregistered. -/
structure Closing (s : ClassDriver) : Prop where
  unopened : s.shutdown = true → ∀ d ∈ s.device, d.actions.openDev = false
  marked : s.shutdown = true → ∀ d ∈ s.device, d.devHdl ≠ none → d.actions ≠ .none
  closed : s.shutdown = true → Passed s → handles s.device = []

/-- A driver that is deregistered and will leave a device open. -/
inductive Leaking (s : ClassDriver) : Prop
  | waiting (active : ¬ Passed s) (d : UsbDevice) (mem : d ∈ s.device)
      (asked : d.actions.openDev = true)
  | opened (task : s.task = .top) (flag : s.unhandledDevices = false)
      (held : handles s.device ≠ [])
  | left (passed : Passed s) (held : handles s.device ≠ [])

/-! ### One step -/

theorem handles_eq_nil {ds : List UsbDevice} :
    handles ds = [] ↔ ∀ d ∈ ds, d.devHdl = none := List.filterMap_eq_nil_iff

theorem slots_mem {ds : List UsbDevice} {index : Nat} (slots : Slots client index ds)
    {d : UsbDevice} (mem : d ∈ ds) : ∃ i, Slot client i d := by
  obtain ⟨i, here⟩ := List.getElem?_of_mem mem
  exact ⟨index + i, slots_getElem slots here⟩

/-- A device that waits to be opened has no handle yet. -/
theorem unopened_of_asked (sound : Sound client s) {d : UsbDevice} (mem : d ∈ s.device)
    (asked : d.actions.openDev = true) : d.devHdl = none := by
  obtain ⟨i, slot⟩ := slots_mem sound.slots mem
  cases slot with
  | announced => rfl
  | absent | opened | leaving => exact absurd asked Bool.false_ne_true

theorem swept_mem {index : Nat} {before after : List UsbDevice}
    (swept : Swept client index before after)
    {d : UsbDevice} (mem : d ∈ after) : ∃ e ∈ before, Handled e d := by
  have handled := swept.handled
  clear swept
  induction handled with
  | nil => cases mem
  | cons one _ ih =>
    rcases List.mem_cons.mp mem with rfl | mem
    · exact ⟨_, List.mem_cons_self, one⟩
    · obtain ⟨e, before, h⟩ := ih mem
      exact ⟨e, List.mem_cons_of_mem _ before, h⟩

theorem mem_swept {index : Nat} {before after : List UsbDevice}
    (swept : Swept client index before after)
    {e : UsbDevice} (mem : e ∈ before) : ∃ d ∈ after, Handled e d := by
  have handled := swept.handled
  clear swept
  induction handled with
  | nil => cases mem
  | cons one _ ih =>
    rcases List.mem_cons.mp mem with rfl | mem
    · exact ⟨_, List.mem_cons_self, one⟩
    · obtain ⟨d, after, h⟩ := ih mem
      exact ⟨d, List.mem_cons_of_mem _ after, h⟩

theorem took_flags (sound : Sound client s) (flags : Flags s) {i : Input} {s' : ClassDriver}
    (took : Took host client s i s') : Flags s' := by
  cases took with
  | elsewhere => exact flags
  | failed => exact ⟨flags.checked, flags.left⟩
  | pending | listening | eventsHandled => exact ⟨by simp [goto], by simp [goto]⟩
  | swept => exact ⟨by simp, by simp⟩
  | settled task flag =>
    refine ⟨fun _ _ d mem => ?_, by simp [goto]⟩
    by_contra active
    exact Bool.false_ne_true (flag.symm.trans (sound.flagged d mem active))
  | stopped task flag => exact ⟨by simp [goto], fun _ => flag⟩
  | newDev task | devGone task => exact ⟨by simp [task, devGone], by simp [task, devGone]⟩
  | suspended task => exact ⟨by simp [goto], fun _ => flags.left (.inl task)⟩
  | deregister => exact ⟨fun _ up => absurd up (by simp [classDriverClientDeregister]), fun _ => rfl⟩

/-- An orderly step keeps a driver on the way to close every device. -/
theorem took_closing (sound : Sound client s) (flags : Flags s) (closing : Closing s) {i : Input}
    (promised : PromisedOnce s i) (orderly : Orderly s i) {s' : ClassDriver}
    (took : Took host client s i s') (running : s'.fault = none) : Closing s' := by
  cases took with
  | elsewhere => exact closing
  | failed => cases running
  | pending | eventsHandled =>
    exact ⟨closing.unopened, closing.marked, fun _ passed => by simp [Passed, goto] at passed⟩
  | settled task flag =>
    refine ⟨closing.unopened, closing.marked, fun down _ => handles_eq_nil.mpr fun d mem => ?_⟩
    by_contra held
    have active := closing.marked down d mem held
    exact Bool.false_ne_true (flag.symm.trans (sound.flagged d mem active))
  | swept task log device swept ledger =>
    have none_held : s.shutdown = true → ∀ d ∈ device, d.devHdl = none := by
      intro down d mem
      obtain ⟨e, before, handled⟩ := swept_mem swept mem
      cases handled with
      | idle _ idle =>
        by_contra held
        exact closing.marked down d before held idle
      | opened client index handle =>
        exact absurd (closing.unopened down _ before) (fun h => Bool.false_ne_true h.symm)
      | left => rfl
    refine ⟨fun _ d mem => ?_, fun down d mem held => absurd (none_held down d mem) held,
      fun _ passed => by simp [Passed] at passed⟩
    rw [swept.idle d mem]
    rfl
  | stopped task flag =>
    exact ⟨closing.unopened, closing.marked, fun down _ => closing.closed down (.inl task)⟩
  | listening task flag =>
    have up : ¬ s.shutdown = true := by simp [flag]
    exact ⟨fun down => absurd down up, fun down => absurd down up, fun down => absurd down up⟩
  | newDev task address =>
    have up : ¬ s.shutdown = true := by simp [orderly task]
    exact ⟨fun down => absurd down up, fun down => absurd down up, fun down => absurd down up⟩
  | devGone task handle =>
    refine ⟨fun down d mem => ?_, fun down d mem held => ?_, fun _ passed => ?_⟩
    · obtain ⟨e, before, rfl⟩ := List.mem_map.mp mem
      split
      · rfl
      · exact closing.unopened down e before
    · obtain ⟨e, before, rfl⟩ := List.mem_map.mp mem
      split
      · simp [Actions.close, Actions.none]
      · rename_i other
        rw [if_neg other] at held
        exact closing.marked down e before held
    · simp [Passed, task, devGone] at passed
  | suspended task =>
    exact ⟨closing.unopened, closing.marked, fun down _ => closing.closed down (.inr (.inl task))⟩
  | deregister task =>
    have once := promised.2 rfl
    refine ⟨fun _ d mem => ?_, fun _ d mem held => ?_, fun _ passed => ?_⟩
    · obtain ⟨e, before, rfl⟩ := List.mem_map.mp mem
      split
      · exact orderly.1 e before
      · exact orderly.1 e before
    · obtain ⟨e, before, rfl⟩ := List.mem_map.mp mem
      split
      · simp [Actions.none]
      · rename_i unheld
        rw [if_neg unheld] at held
        exact absurd held unheld
    · have same : handles s.classDriverClientDeregister.device = handles s.device :=
        handles_map (fun d => by split <;> rfl) s.device
      rw [same]
      rcases passed with checking | stopped | suspended
      · exact orderly.2 checking
      · exact absurd (flags.left (.inl stopped)) (by simp [once])
      · exact absurd suspended task

/-- A step that is not leaves a device behind. -/
theorem took_leaks (sound : Sound client s) (flags : Flags s) {i : Input}
    (promised : PromisedOnce s i) (disorder : ¬ Orderly s i) {s' : ClassDriver}
    (took : Took host client s i s') (running : s'.fault = none) :
    s'.shutdown = true ∧ Leaking s' := by
  cases took with
  | failed => cases running
  | pending | settled | swept | stopped | listening | devGone | eventsHandled | suspended =>
    exact absurd trivial disorder
  | elsewhere i disabled =>
    cases i with
    | newDev address => exact absurd (fun task => absurd task disabled) disorder
    | deregister =>
      have task : s.task = .suspended := not_not.mp disabled
      exact absurd (flags.left (.inr task)) (by simp [promised.2 rfl])
    | _ => exact absurd trivial disorder
  | newDev task address inside =>
    have down : s.shutdown = true := by
      by_contra up
      exact disorder fun _ => Bool.not_eq_true _ ▸ up
    refine ⟨down, .waiting (by simp [Passed, task]) ?_ ?_ ?_⟩
    · exact announce (s.device.get ⟨address, sound.count ▸ inside.2.1⟩) address
    · have here : (s.device.modify address (announce · address))[address]? =
          some (announce (s.device.get ⟨address, sound.count ▸ inside.2.1⟩) address) := by
        simp [sound.count, inside.2.1]
      exact List.mem_of_getElem? here
    · rfl
  | deregister task =>
    refine ⟨rfl, ?_⟩
    have up : s.shutdown = false := promised.2 rfl
    have unstopped : s.task ≠ .stopped := fun stopped => by simp [flags.left (.inl stopped)] at up
    by_cases asked : ∀ d ∈ s.device, d.actions.openDev = false
    · have left : s.task = .checkShutdown ∧ handles s.device ≠ [] := by
        by_contra neither
        exact disorder ⟨asked, fun checking => by_contra fun held => neither ⟨checking, held⟩⟩
      have same : handles s.classDriverClientDeregister.device = handles s.device :=
        handles_map (fun d => by split <;> rfl) s.device
      exact .left (.inl left.1) (same ▸ left.2)
    · obtain ⟨d, mem, waits⟩ : ∃ d ∈ s.device, d.actions.openDev = true := by
        simpa using asked
      have unopened := unopened_of_asked sound mem waits
      refine .waiting ?_ d (List.mem_map.mpr ⟨d, mem, by simp [unopened]⟩) waits
      rintro (checking | stopped | suspended)
      · rw [flags.checked checking up d mem] at waits
        cases waits
      · exact unstopped stopped
      · exact task suspended

/-- It stays behind. -/
theorem took_leaking (sound : Sound client s) (down : s.shutdown = true) (leaking : Leaking s)
    {i : Input} (promised : PromisedOnce s i) {s' : ClassDriver} (took : Took host client s i s')
    (running : s'.fault = none) : s'.shutdown = true ∧ Leaking s' := by
  cases took with
  | elsewhere => exact ⟨down, leaking⟩
  | failed => cases running
  | deregister => exact absurd down (by simp [promised.2 rfl])
  | listening _ flag => exact absurd down (by simp [flag])
  | pending task flag =>
    refine ⟨down, ?_⟩
    cases leaking with
    | waiting _ d mem asked => exact .waiting (by simp [Passed, goto]) d mem asked
    | opened _ down => exact absurd flag (by simp [down])
    | left passed => simp [Passed, task] at passed
  | settled task flag =>
    refine ⟨down, ?_⟩
    cases leaking with
    | waiting _ d mem asked =>
      have raised := sound.flagged d mem fun idle => by simp [idle, Actions.none] at asked
      exact absurd flag (by simp [raised])
    | opened _ _ held => exact .left (.inl rfl) held
    | left passed => simp [Passed, task] at passed
  | swept task log device swept ledger =>
    refine ⟨down, ?_⟩
    cases leaking with
    | waiting _ d mem asked =>
      obtain ⟨e, after, handled⟩ := mem_swept swept mem
      refine .opened rfl rfl fun none_open => ?_
      have closed := handles_eq_nil.mp none_open e after
      cases handled with
      | idle _ idle => simp [idle, Actions.none] at asked
      | opened => cases closed
      | left => cases asked
    | opened top => simp [task] at top
    | left passed => simp [Passed, task] at passed
  | stopped task flag =>
    refine ⟨down, ?_⟩
    cases leaking with
    | waiting active => exact absurd (.inl task) active
    | opened top => simp [task] at top
    | left _ held => exact .left (.inr (.inl rfl)) held
  | newDev task address inside =>
    refine ⟨down, ?_⟩
    cases leaking with
    | waiting _ d mem asked =>
      obtain ⟨j, here⟩ := List.getElem?_of_mem mem
      have there : (s.device.modify address (announce · address))[j]? =
          some (if address = j then announce d address else d) := by
        rw [List.getElem?_modify, here]
        split <;> rfl
      refine .waiting (by simp [Passed, task]) _ (List.mem_of_getElem? there) ?_
      split
      · rfl
      · exact asked
    | opened top => simp [task] at top
    | left passed => simp [Passed, task] at passed
  | devGone task handle =>
    refine ⟨down, ?_⟩
    cases leaking with
    | waiting _ d mem asked =>
      have unopened := unopened_of_asked sound mem asked
      exact .waiting (by simp [Passed, task, devGone]) d
        (List.mem_map.mpr ⟨d, mem, by simp [unopened]⟩) asked
    | opened top => simp [task] at top
    | left passed => simp [Passed, task] at passed
  | eventsHandled task =>
    refine ⟨down, ?_⟩
    cases leaking with
    | waiting _ d mem asked => exact .waiting (by simp [Passed, goto]) d mem asked
    | opened top => simp [task] at top
    | left passed => simp [Passed, task] at passed
  | suspended task =>
    refine ⟨down, ?_⟩
    cases leaking with
    | waiting active => exact absurd (.inr (.inl task)) active
    | opened top => simp [task] at top
    | left _ held => exact .left (.inr (.inr rfl)) held

/-! ### Runs -/

theorem step_fault {f : Fault} (ended : s.fault = some f) (i : Input) : step host s i = s := by
  simp only [step, ended]

/-- A healthy driver, with what its task knows. -/
structure Alive (client : Client) (s : ClassDriver) : Prop where
  healthy : Healthy client s
  flags : Flags s

theorem step_alive (fresh : host.Fresh) (s : ClassDriver) (i : Input) (alive : Alive client s)
    (promised : PromisedOnce s i) : Alive client (step host s i) := by
  refine ⟨step_healthy fresh s i alive.healthy promised.1, ?_⟩
  rcases alive.healthy.fault with running | ended
  · exact took_flags alive.healthy.sound alive.flags
      (step_took fresh alive.healthy.sound running i promised.1)
  · rw [step_fault ended]
    exact alive.flags

/-- A run that is not ended took all of its steps. -/
theorem took_of_running (fresh : host.Fresh) (alive : Alive client s) {i : Input}
    (promised : PromisedOnce s i) (running : (step host s i).fault = none) :
    s.fault = none ∧ Took host client s i (step host s i) := by
  have before : s.fault = none := by
    by_contra ended
    obtain ⟨f, ended⟩ := Option.ne_none_iff_exists'.mp ended
    rw [step_fault ended, ended] at running
    cases running
  exact ⟨before, step_took fresh alive.healthy.sound before i promised.1⟩

theorem alive_start (client : Client) : Alive client (start client) := by
  refine ⟨⟨sound_start client, .inl rfl⟩, ⟨fun checking => ?_, fun stopped => ?_⟩⟩
  · cases checking
  · rcases stopped with stopped | stopped <;> cases stopped

/-- An orderly run stays on the way to close every device. -/
theorem run_closing (fresh : host.Fresh) (inputs : List Input)
    (promised : Runs.Along (step host) PromisedOnce (start client) inputs)
    (orderly : Runs.Along (step host) Orderly (start client) inputs) :
    let s := inputs.foldl (step host) (start client)
    Alive client s ∧ (s.fault = none → Closing s) := by
  refine Runs.guarded_invariant (P := fun s => Alive client s ∧ (s.fault = none → Closing s)) ?_ _
    ⟨alive_start client, fun _ => ?_⟩ inputs (Runs.along_and promised orderly)
  · rintro s i ⟨alive, closing⟩ ⟨promised, orderly⟩
    refine ⟨step_alive fresh s i alive promised, fun running => ?_⟩
    obtain ⟨before, took⟩ := took_of_running fresh alive promised running
    exact took_closing alive.healthy.sound alive.flags (closing before) promised orderly took running
  · have up : (start client).shutdown ≠ true := by simp [start]
    exact ⟨fun down => absurd down up, fun down => absurd down up, fun down => absurd down up⟩

/-- A run that is not ends with a device left open. -/
theorem run_leaking (fresh : host.Fresh) (inputs : List Input)
    (promised : Runs.Along (step host) PromisedOnce (start client) inputs)
    (disorder : ¬ Runs.Along (step host) Orderly (start client) inputs) :
    let s := inputs.foldl (step host) (start client)
    s.fault = none → s.shutdown = true ∧ Leaking s := by
  obtain ⟨bs, b, cs, rfl, before, missed⟩ := Runs.exists_first_violation _ _ disorder
  obtain ⟨first, this, rest⟩ := (Runs.along_append _ bs (b :: cs)).mp promised
  have alive := (run_closing fresh bs first before).1
  rw [List.foldl_append, List.foldl_cons]
  refine (Runs.guarded_invariant
    (P := fun s => Alive client s ∧ (s.fault = none → s.shutdown = true ∧ Leaking s))
    (fun s i known (promised : PromisedOnce s i) => ?_) _
    ⟨step_alive fresh _ b alive this, fun running => ?_⟩ cs rest).2
  · obtain ⟨alive, leaking⟩ := known
    refine ⟨step_alive fresh s i alive promised, fun running => ?_⟩
    obtain ⟨before, took⟩ := took_of_running fresh alive promised running
    obtain ⟨down, leaking⟩ := leaking before
    exact took_leaking alive.healthy.sound down leaking promised took running
  · obtain ⟨-, took⟩ := took_of_running fresh alive this running
    exact took_leaks alive.healthy.sound alive.flags this missed took running

/-- A driver that is asked once to deregister and comes to the end of its loop has closed every
device it opened, and may deregister its client, exactly if no device waited to be opened when it
was asked, none was open between the two reads of the flags, and none was announced afterwards. -/
theorem clean_shutdown_iff (host : Host) (fresh : host.Fresh)
    (refuses : ∀ log, host.clientDeregister log = true ↔ ∀ h, opens log h = closes log h)
    (client : Client) (inputs : List Input)
    (promised : Runs.Along (step host) PromisedOnce (start client) inputs) :
    let s := inputs.foldl (step host) (start client)
    s.task = .stopped → s.fault = none →
      ((∀ h, opens s.log h = closes s.log h) ↔
        Runs.Along (step host) Orderly (start client) inputs) ∧
      ((step host s .deregisterClient).task = .suspended ↔
        Runs.Along (step host) Orderly (start client) inputs) ∧
      ((step host s .deregisterClient).fault = some .checkFailed ↔
        ¬ Runs.Along (step host) Orderly (start client) inputs) := by
  intro s stopped running
  have healthy : Healthy client s := run_healthy fresh client inputs
    (Runs.along_of_guarded_invariant (P := fun _ => True) (fun _ _ _ _ => trivial)
      (fun _ _ _ once => once.1) _ trivial inputs promised)
  have closed_iff : (∀ h, opens s.log h = closes s.log h) ↔ handles s.device = [] := by
    constructor
    · intro balanced
      refine List.eq_nil_iff_forall_not_mem.mpr fun h mem => ?_
      have counted := healthy.sound.ledger.open_of_mem mem
      rw [balanced h] at counted
      omega
    · intro none_held h
      have counted := healthy.sound.ledger.balance h
      rwa [none_held] at counted
  have orderly_iff : handles s.device = [] ↔
      Runs.Along (step host) Orderly (start client) inputs := by
    constructor
    · intro none_held
      by_contra disorder
      obtain ⟨-, leaking⟩ := run_leaking fresh inputs promised disorder running
      cases leaking with
      | waiting active => exact active (.inr (.inl stopped))
      | opened top => exact absurd (top.symm.trans stopped) (by simp)
      | left _ held => exact held none_held
    · intro orderly
      obtain ⟨alive, closing⟩ := run_closing fresh inputs promised orderly
      exact (closing running).closed (alive.flags.left (.inl stopped)) (.inr (.inl stopped))
  have left_iff : host.clientDeregister s.log = true ↔
      Runs.Along (step host) Orderly (start client) inputs :=
    (refuses s.log).trans (closed_iff.trans orderly_iff)
  refine ⟨closed_iff.trans orderly_iff, ?_⟩
  cases left : host.clientDeregister s.log with
  | true =>
    rw [step_ok running (s.goto .suspended) (by simp only [exec]; rw [stopped]; simp [left])]
    exact ⟨iff_of_true rfl (left_iff.mp left),
      iff_of_false (by simp [goto, running]) (not_not.mpr (left_iff.mp left))⟩
  | false =>
    have disorder := mt left_iff.mpr (by simp [left])
    rw [step_error running .checkFailed (by simp only [exec]; rw [stopped]; simp [left])]
    exact ⟨iff_of_false (by simp [stopped]) disorder, iff_of_true rfl disorder⟩

theorem ledgerHost_refuses (log : List Record) :
    ledgerHost.clientDeregister log = true ↔ ∀ h, opens log h = closes log h := by
  simp only [ledgerHost, List.all_eq_true]
  constructor
  · intro balanced h
    by_cases used : ∃ r ∈ log, r.opensHandle h = true ∨ r.closesHandle h = true
    · obtain ⟨r, mem, kind⟩ := used
      have equal := balanced r mem
      cases r <;> simp_all [Record.opensHandle, Record.closesHandle]
    · simp only [not_exists, not_and, not_or] at used
      have unopened : opens log h = 0 := List.countP_eq_zero.mpr fun r mem => (used r mem).1
      have unclosed : closes log h = 0 := List.countP_eq_zero.mpr fun r mem => (used r mem).2
      rw [unopened, unclosed]
  · intro balanced r _
    cases r <;> simp [balanced]

/-- A device is opened, the driver is deregistered, and these events come before the task wakes. -/
def farewell (events : List Input) : List Input :=
  [.readUnhandled, .readShutdown, .newDev 1, .eventsHandled, .readUnhandled, .handle,
    .readUnhandled, .readShutdown, .deregister] ++ events ++
  [.eventsHandled, .readUnhandled, .handle, .readUnhandled, .readShutdown]

theorem clean_shutdown_iff_farewell :
    (step ledgerHost ((farewell []).foldl (step ledgerHost) (start 7)) .deregisterClient).task =
        .suspended ∧
      (step ledgerHost ((farewell [.newDev 2]).foldl (step ledgerHost) (start 7))
        .deregisterClient).fault = some .checkFailed := by
  have clean := clean_shutdown_iff ledgerHost fresh_ledgerHost ledgerHost_refuses 7 (farewell [])
    (by decide +kernel) (by decide +kernel) (by decide +kernel)
  have late := clean_shutdown_iff ledgerHost fresh_ledgerHost ledgerHost_refuses 7
    (farewell [.newDev 2]) (by decide +kernel) (by decide +kernel) (by decide +kernel)
  exact ⟨clean.2.1.mpr (by decide +kernel), late.2.2.mpr (by decide +kernel)⟩

end Rocom.Usb
