import Rocom.SerialPort.Moves

/-! The handle the client's callbacks use. `cdc_dev` is set by a successful open and left as it is
by the disconnect, so it is the open device's only until the event callback has closed it. -/
namespace Rocom.SerialPort

def DeviceRecord.OnOpen : DeviceRecord → Prop
  | .called _ _ opened => opened = true
  | .controlAnswered _ _ | .baudrateAnswered _ _ => True

/-- What the relay task and the event callback write, and the handles that are open. -/
structure Attachment where
  cdcDev : Option Handle
  relayTask : RelayTask
  event : EventCallback
  semaphore : Bool
  handles : List Handle

/-- The steps of the relay task and of the driver's task. -/
def DeviceInput.isAttachment : DeviceInput → Bool
  | .openReturns _ _ | .resetBaudrate | .driveLines _ | .takeSemaphore | .disconnected _ _
  | .giveSemaphore => true
  | _ => false

namespace DeviceRelay

/-- Every call made for the client used a handle that was open. -/
def UsesOpen (w : DeviceRelay) : Prop := ∀ r ∈ w.log, r.OnOpen

/-- The relay task has a device, and `handle_event` has not closed it. -/
def Present (w : DeviceRelay) : Prop :=
  w.relayTask ≠ .opening ∧ w.event = .idle ∧ w.semaphore = false

/-- A step that calls the driver for the client. -/
def Calls (w : DeviceRelay) (a : DeviceInput) : Prop :=
  w.aborted = false ∧
    match a, w.client with
    | .callSetControlLineState _, .setControlLineState _ => True
    | .callLineCodingGet _, .lineCodingGet _ => True
    | .callLineCodingSet _, .lineCodingSet _ _ => True
    | .callDataTxBlocking, .dataTx _ => True
    | _, _ => False

def handles (w : DeviceRelay) : List Handle := w.openDevices.map (·.handle)

def attachment (w : DeviceRelay) : Attachment :=
  ⟨w.cdcDev, w.relayTask, w.event, w.semaphore, w.handles⟩

@[simp] theorem attachment_note (w : DeviceRelay) (r : DeviceRecord) :
    (w.note r).attachment = w.attachment := rfl

@[simp] theorem attachment_abort (w : DeviceRelay) : w.abort.attachment = w.attachment := rfl

@[simp] theorem attachment_goto (w : DeviceRelay) (client : ClientThread) :
    (w.goto client).attachment = w.attachment := rfl

@[simp] theorem attachment_call (w : DeviceRelay) (operation : Operation) :
    (w.call operation).attachment = w.attachment := rfl

theorem attachment_update (w : DeviceRelay) (f : OpenDevice → OpenDevice)
    (same : ∀ d, (f d).handle = d.handle) : (w.update f).attachment = w.attachment := by
  have handles : (w.update f).handles = w.handles := by
    unfold handles update
    rw [List.map_map]
    apply List.map_congr_left
    intro d _
    simp only [Function.comp_apply]
    split
    · exact same d
    · rfl
  unfold attachment
  rw [handles]
  rfl

@[simp] theorem attachment_setLines (w : DeviceRelay) (dtr rts : Bool) :
    (w.setLines dtr rts).attachment = w.attachment := attachment_update w _ fun _ => rfl

@[simp] theorem attachment_setCoding (w : DeviceRelay) (coding : LineCoding) :
    (w.setCoding coding).attachment = w.attachment := attachment_update w _ fun _ => rfl

variable {w n : DeviceRelay} {a : DeviceInput}

/-- The callbacks of the client open and close nothing. -/
theorem move_attachment (move : w.Move a n) (client : a.isAttachment = false) :
    n.attachment = w.attachment := by
  cases move with
  | setsLines | sets => simp
  | rests | unknown | storesLine | onlyStores | missesLines | echoes | asks | skips | stores | gets
  | missesCoding | refuses | sends | sent => rfl
  | openFails | opens | resets | drives | driveFails | takes | closes | closeFails | gives =>
    cases client

/-- `cdc_dev` is the one open device as long as the relay task has it and the event callback has
not closed it; otherwise no device is open. -/
structure Tracked (w : DeviceRelay) : Prop where
  present : w.Present → ∃ h, w.handles = [h] ∧ w.cdcDev = some h
  absent : ¬ w.Present → w.handles = []
  opening : w.relayTask = .opening → w.event = .idle ∧ w.semaphore = false
  given : w.semaphore = true → w.event = .idle

theorem Tracked.of_attachment (h : w.Tracked)
    (same : n.attachment = w.attachment) : n.Tracked := by
  simp only [attachment, Attachment.mk.injEq] at same
  obtain ⟨cdcDev, relayTask, event, semaphore, handles⟩ := same
  have present : n.Present ↔ w.Present := by
    unfold Present
    rw [relayTask, event, semaphore]
  constructor
  · intro p
    rw [handles, cdcDev]
    exact h.present (present.mp p)
  · intro p
    rw [handles]
    exact h.absent fun q => p (present.mpr q)
  · rw [relayTask, event, semaphore]
    exact h.opening
  · rw [semaphore, event]
    exact h.given

theorem Tracked.none_open (h : w.Tracked) (opening : w.relayTask = .opening) : w.handles = [] :=
  h.absent fun p => p.1 opening

theorem Tracked.opens (h : w.Tracked) (opening : w.relayTask = .opening) (handle : Handle)
    (coding : LineCoding) :
    ({ w with
        cdcDev := some handle
        openDevices := ⟨handle, coding, none⟩ :: w.openDevices
        relayTask := .resetBaudrate } : DeviceRelay).Tracked := by
  obtain ⟨event, semaphore⟩ := h.opening opening
  constructor
  · intro _
    refine ⟨handle, ?_, rfl⟩
    simp only [handles, List.map_cons]
    exact congrArg (handle :: ·) (h.none_open opening)
  · exact fun p => absurd ⟨by simp, event, semaphore⟩ p
  · exact nofun
  · exact h.given

/-- The relay task goes from one point after the open to another. -/
theorem Tracked.moved (h : w.Tracked) {task : RelayTask} (baudrate : UInt32)
    (before : w.relayTask ≠ .opening) (after : task ≠ .opening) :
    ({ w with sBaudrate := baudrate, relayTask := task } : DeviceRelay).Tracked where
  present p := h.present ⟨before, p.2⟩
  absent p := h.absent fun q => p ⟨after, q.2⟩
  opening same := absurd same after
  given := h.given

theorem Tracked.takes (h : w.Tracked) (given : w.semaphore = true) :
    ({ w with semaphore := false, relayTask := .opening } : DeviceRelay).Tracked := by
  have gone : w.handles = [] := h.absent fun p => by
    rw [p.2.2] at given
    cases given
  exact ⟨fun p => absurd rfl p.1, fun _ => gone, fun _ => ⟨h.given given, rfl⟩, nofun⟩

theorem mem_handles {handle : Handle}
    (found : w.openDevices.any (·.handle == handle) = true) : handle ∈ w.handles := by
  rw [List.any_eq_true] at found
  obtain ⟨d, mem, same⟩ := found
  exact List.mem_map.mpr ⟨d, mem, beq_iff_eq.mp same⟩

theorem handles_close {handle : Handle} (only : w.handles = [handle]) :
    (w.openDevices.filter (·.handle != handle)).map (·.handle) = [] := by
  rw [List.map_eq_nil_iff, List.filter_eq_nil_iff]
  intro d mem
  have listed : d.handle ∈ w.handles := List.mem_map_of_mem mem
  rw [only, List.mem_singleton] at listed
  simp [listed]

theorem Tracked.closes (h : w.Tracked) {handle : Handle}
    (found : w.openDevices.any (·.handle == handle) = true) :
    ({ w with
        openDevices := w.openDevices.filter (·.handle != handle)
        event := .give } : DeviceRelay).Tracked := by
  have listed := mem_handles found
  have p : w.Present := by
    by_contra missing
    rw [h.absent missing] at listed
    cases listed
  obtain ⟨only, handles, _⟩ := h.present p
  have same : handle = only := by
    rw [handles] at listed
    exact List.mem_singleton.mp listed
  rw [same]
  exact ⟨fun q => absurd q.2.1 (by simp), fun _ => handles_close handles,
    fun opening => absurd opening p.1, fun given => absurd (p.2.2.symm.trans given) (by simp)⟩

theorem Tracked.gives (h : w.Tracked) (closing : w.event = .give) :
    ({ w with semaphore := true, event := .idle } : DeviceRelay).Tracked := by
  have gone : w.handles = [] := h.absent fun p => by
    rw [p.2.1] at closing
    cases closing
  have past : w.relayTask ≠ .opening := by
    intro opening
    rw [(h.opening opening).1] at closing
    cases closing
  exact ⟨fun p => absurd p.2.2 (by simp), fun _ => gone, fun opening => absurd opening past,
    fun _ => rfl⟩

theorem move_tracked (h : w.Tracked) (move : w.Move a n) : n.Tracked := by
  cases kind : a.isAttachment with
  | false => exact h.of_attachment (move_attachment move kind)
  | true =>
    cases move with
    | rests => exact h
    | openFails opening =>
      exact ⟨fun p => absurd opening p.1, h.absent, h.opening, h.given⟩
    | opens opening handle coding clears => exact h.opens opening handle coding
    | resets at_reset => exact h.moved 115200 (by simp [at_reset]) (by simp)
    | drives at_drive =>
      have driven := h.of_attachment (attachment_setLines w true false)
      have before : (w.setLines true false).relayTask ≠ .opening := by
        have same : (w.setLines true false).relayTask = w.relayTask := rfl
        simp [same, at_drive]
      exact driven.moved w.sBaudrate before (by simp)
    | driveFails | closeFails => exact h.of_attachment (attachment_abort w)
    | takes waiting given => exact h.takes given
    | closes idle found => exact h.closes found
    | gives closing => exact h.gives closing
    | unknown | storesLine | onlyStores | setsLines | missesLines | echoes | asks | skips | stores
    | gets | missesCoding | sets | refuses | sends | sent => cases kind

/-- The handle in `cdc_dev` is open exactly while the device is present. -/
theorem Tracked.opened_iff (h : w.Tracked) : w.opened = true ↔ w.Present := by
  unfold opened
  rw [List.any_eq_true]
  constructor
  · rintro ⟨d, mem, _⟩
    by_contra missing
    have listed : d.handle ∈ w.handles := List.mem_map_of_mem mem
    rw [h.absent missing] at listed
    cases listed
  · intro p
    obtain ⟨handle, handles, cdcDev⟩ := h.present p
    have listed : handle ∈ w.handles := by
      rw [handles]
      exact List.mem_singleton_self handle
    obtain ⟨d, mem, same⟩ := List.mem_map.mp listed
    exact ⟨d, mem, by rw [same, cdcDev]; exact beq_self_eq_true _⟩

theorem usesOpen_note (w : DeviceRelay) (r : DeviceRecord) :
    (w.note r).UsesOpen ↔ w.UsesOpen ∧ r.OnOpen := by
  unfold UsesOpen note
  simp only [List.forall_mem_append, List.forall_mem_singleton]

theorem UsesOpen.of_log (h : w.UsesOpen) (same : n.log = w.log) :
    n.UsesOpen := by
  unfold UsesOpen
  rw [same]
  exact h

/-- A call is on an open handle exactly while the device is present. -/
theorem call_usesOpen_iff (tracked : w.Tracked) (safe : w.UsesOpen)
    (operation : Operation) : (w.call operation).UsesOpen ↔ w.Present := by
  unfold call
  rw [usesOpen_note, ← tracked.opened_iff]
  exact and_iff_right safe

theorem move_usesOpen_iff (tracked : w.Tracked) (safe : w.UsesOpen) (running : w.aborted = false)
    (move : w.Move a n) : n.UsesOpen ↔ (w.Calls a → w.Present) := by
  have silent (kept : n.log = w.log) (off : ¬ w.AtCall a) :
      n.UsesOpen ↔ (w.Calls a → w.Present) :=
    iff_of_true (safe.of_log kept) fun c => absurd c.2 off
  have answered {m : DeviceRelay} (r : DeviceRecord) (on_open : r.OnOpen) (kept : m.log = w.log)
      (off : ¬ w.AtCall a) : (m.note r).UsesOpen ↔ (w.Calls a → w.Present) :=
    iff_of_true ((usesOpen_note _ _).mpr ⟨safe.of_log kept, on_open⟩) fun c => absurd c.2 off
  have called {m : DeviceRelay} (operation : Operation) (now : w.AtCall a)
      (same : m.UsesOpen ↔ (w.call operation).UsesOpen) :
      m.UsesOpen ↔ (w.Calls a → w.Present) := by
    rw [same, call_usesOpen_iff tracked safe operation]
    exact ⟨fun p _ => p, fun p => p ⟨running, now⟩⟩
  cases move with
  | rests _ off => exact silent rfl off
  | openFails | opens | resets | drives | driveFails | takes | closes | closeFails | gives
  | storesLine | asks | stores | sends => exact silent rfl id
  | unknown | onlyStores | echoes | skips => exact answered _ trivial rfl id
  | setsLines client | missesLines client =>
    refine called (.setControlLineState w.sDtr w.sRts) (by simp [AtCall, client]) ?_
    rw [usesOpen_note]
    exact and_iff_left trivial
  | gets client | missesCoding client =>
    exact called .lineCodingGet (by simp [AtCall, client]) Iff.rfl
  | @sets baudrate coding client =>
    refine called (.lineCodingSet coding) (by simp [AtCall, client]) ?_
    rw [usesOpen_note]
    exact and_iff_left trivial
  | @refuses baudrate coding client =>
    exact called (.lineCodingSet coding) (by simp [AtCall, client]) Iff.rfl
  | @sent data client => exact called (.dataTxBlocking data) (by simp [AtCall, client]) Iff.rfl

theorem step_of_running (a : DeviceInput) (running : w.aborted = false) :
    w.step a = w.handle a := by
  unfold step
  rw [running]
  rfl

theorem step_tracked (h : w.Tracked) (a : DeviceInput) : (w.step a).Tracked := by
  unfold step
  split
  · exact h
  · exact move_tracked h (handle_move w a)

theorem start_tracked : start.Tracked :=
  ⟨fun p => absurd rfl p.1, fun _ => rfl, fun _ => ⟨rfl, rfl⟩, nofun⟩

/-- The client's calls use an open handle exactly in the runs that make no call between the close
of a device and the next successful open. -/
theorem usesOpen_iff_present (as : List DeviceInput) :
    Runs.Throughout step UsesOpen start as ↔
      Runs.Along step (fun w a => w.Calls a → w.Present) start as := by
  apply Runs.throughout_iff_along (I := Tracked) fun _ a h => step_tracked h a
  · intro w a h safe
    cases running : w.aborted with
    | false =>
      rw [step_of_running a running]
      exact move_usesOpen_iff h safe running (handle_move w a)
    | true =>
      have same : w.step a = w := if_pos running
      rw [same]
      exact iff_of_true safe fun c => absurd (c.1.symm.trans running) nofun
  · exact start_tracked
  · exact fun r hr => absurd hr List.not_mem_nil

/-- A device is opened and unplugged, and then the client sets DTR. -/
def requestAfterUnplug : List DeviceInput :=
  [.openReturns (some (7, ⟨9600, 0, 0, 8⟩)) false, .resetBaudrate, .driveLines true,
    .disconnected 7 true, .giveSemaphore, .onControl controlSetDtr, .callSetControlLineState false]

/-- The guard `cdc_dev != NULL` lets the request through to the closed device. -/
theorem closed_device_used : ¬ Runs.Throughout step UsesOpen start requestAfterUnplug := by
  intro safe
  have last := (Runs.throughout_iff_prefix _ _).mp safe _ (List.prefix_refl _)
  have closed : DeviceRecord.OnOpen
      (.called (.setControlLineState true false) (some 7) false) := last _ (by decide)
  cases closed

end DeviceRelay

end Rocom.SerialPort
