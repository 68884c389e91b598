import Rocom.SerialPort.Handles

/-! DTR and RTS of the open device next to `s_dtr` and `s_rts`. A request drives both lines from
these, the relay task drives both without them when it has opened a device. -/
namespace Rocom.SerialPort

namespace DeviceRelay

/-- The open device in `cdc_dev`. -/
def device (w : DeviceRelay) : Option OpenDevice :=
  w.openDevices.find? fun d => some d.handle == w.cdcDev

/-- DTR and RTS as they were last driven on it. -/
def driven (w : DeviceRelay) : Option (Bool × Bool) := w.device.bind (·.lines)

theorem device_update (w : DeviceRelay) {f : OpenDevice → OpenDevice}
    (same : ∀ d, (f d).handle = d.handle) : (w.update f).device = w.device.map f := by
  have kept : (fun d : OpenDevice => some d.handle == w.cdcDev) ∘
      (fun d => if some d.handle = w.cdcDev then f d else d) =
        fun d => some d.handle == w.cdcDev := by
    funext d
    simp only [Function.comp_apply]
    split
    · rw [same]
    · rfl
  unfold device update
  rw [List.find?_map, kept]
  cases found : w.openDevices.find? fun d => some d.handle == w.cdcDev with
  | none => rfl
  | some d =>
    have own : some d.handle = w.cdcDev := by simpa using List.find?_some found
    simp [own]

theorem driven_setLines (w : DeviceRelay) (dtr rts : Bool) :
    (w.setLines dtr rts).driven = w.device.map fun _ => (dtr, rts) := by
  have changed := device_update w (f := fun d => { d with lines := some (dtr, rts) }) fun _ => rfl
  unfold driven setLines
  rw [changed]
  cases w.device <;> rfl

theorem driven_setCoding (w : DeviceRelay) (coding : LineCoding) :
    (w.setCoding coding).driven = w.driven := by
  have changed := device_update w (f := fun d => { d with coding := coding }) fun _ => rfl
  unfold driven setCoding
  rw [changed]
  cases w.device <;> rfl

/-- As long as a device is open it is the one in `cdc_dev`. -/
theorem Tracked.device {w : DeviceRelay} (h : w.Tracked) : w.openDevices = w.device.toList := by
  by_cases present : w.Present
  · obtain ⟨handle, handles, cdcDev⟩ := h.present present
    obtain ⟨d, only, same⟩ := List.map_eq_singleton_iff.mp handles
    have own : some d.handle = w.cdcDev := by rw [same, cdcDev]
    unfold DeviceRelay.device
    rw [only]
    simp [own]
  · have none_open := List.map_eq_nil_iff.mp (h.absent present)
    unfold DeviceRelay.device
    rw [none_open]
    rfl

theorem device_of_no_handle {w : DeviceRelay} (gone : w.cdcDev = none) : w.device = none := by
  unfold device
  rw [gone, List.find?_eq_none]
  exact fun d _ => nofun

/-! One request. -/

/-- `on_control` is at its call of the driver. -/
def Handling (w : DeviceRelay) (a : DeviceInput) (control : UInt32) (ok : Bool) : Prop :=
  w.aborted = false ∧ w.client = .setControlLineState control ∧ a = .callSetControlLineState ok

/-- A request for one line leaves the other one as it was last driven. -/
structure OwnLineOnly (w : DeviceRelay) (a : DeviceInput) : Prop where
  dtr : ∀ control ok dtr rts, w.Handling a control ok → w.driven = some (dtr, rts) →
    IsRts control → (w.step a).driven.map Prod.fst = some dtr
  rts : ∀ control ok dtr rts, w.Handling a control ok → w.driven = some (dtr, rts) →
    IsDtr control → (w.step a).driven.map Prod.snd = some rts

/-- Where the driver takes the two lines, the variable of the other line is what that line was
last driven to. -/
structure OtherCached (w : DeviceRelay) (a : DeviceInput) : Prop where
  dtr : ∀ control dtr rts, w.Handling a control true → w.driven = some (dtr, rts) →
    IsRts control → w.sDtr = dtr
  rts : ∀ control dtr rts, w.Handling a control true → w.driven = some (dtr, rts) →
    IsDtr control → w.sRts = rts

theorem step_handling {w : DeviceRelay} {a : DeviceInput} {control : UInt32} {ok : Bool}
    (h : w.Handling a control ok) :
    (w.step a).driven = if ok then w.device.map fun _ => (w.sDtr, w.sRts) else w.driven := by
  obtain ⟨running, client, rfl⟩ := h
  rw [step_of_running _ running]
  simp only [handle, callSetControlLineState, client]
  cases ok with
  | true => exact driven_setLines (w.call _) w.sDtr w.sRts
  | false => rfl

theorem ownLineOnly_iff (w : DeviceRelay) (a : DeviceInput) :
    w.OwnLineOnly a ↔ w.OtherCached a := by
  have after {control : UInt32} {dtr rts : Bool} (h : w.Handling a control true)
      (lines : w.driven = some (dtr, rts)) : (w.step a).driven = some (w.sDtr, w.sRts) := by
    rw [step_handling h, if_pos rfl]
    cases open_device : w.device with
    | none => simp [driven, open_device] at lines
    | some d => rfl
  constructor
  · intro own
    constructor
    · intro control dtr rts h lines is_rts
      have left := own.dtr control true dtr rts h lines is_rts
      rw [after h lines] at left
      exact Option.some.inj left
    · intro control dtr rts h lines is_dtr
      have left := own.rts control true dtr rts h lines is_dtr
      rw [after h lines] at left
      exact Option.some.inj left
  · intro cached
    constructor
    · intro control ok dtr rts h lines is_rts
      cases ok with
      | true =>
        rw [after h lines]
        exact congrArg some (cached.dtr control dtr rts h lines is_rts)
      | false =>
        rw [step_handling h, if_neg nofun, lines]
        rfl
    · intro control ok dtr rts h lines is_dtr
      cases ok with
      | true =>
        rw [after h lines]
        exact congrArg some (cached.rts control dtr rts h lines is_dtr)
      | false =>
        rw [step_handling h, if_neg nofun, lines]
        rfl

/-! Runs. -/

/-- A request for DTR has been stored and not yet driven. -/
def DtrPending (w : DeviceRelay) : Prop :=
  ∃ control, w.client = .setControlLineState control ∧ IsDtr control

def RtsPending (w : DeviceRelay) : Prop :=
  ∃ control, w.client = .setControlLineState control ∧ IsRts control

/-- Apart from a pending request, the two variables have these values. -/
def Holds (w : DeviceRelay) (dtr rts : Bool) : Prop :=
  (w.DtrPending ∨ w.sDtr = dtr) ∧ (w.RtsPending ∨ w.sRts = rts)

/-- A device is opened with its lines driven as the variables have them, and a call of the driver
that fails was to change neither. -/
def InStep (w : DeviceRelay) : DeviceInput → Prop
  | .driveLines ok => w.relayTask = .driveLines → ok = true → w.Holds true false
  | .callSetControlLineState ok =>
    ok = false → ∀ control, w.client = .setControlLineState control →
      ∀ dtr rts, w.driven = some (dtr, rts) → w.sDtr = dtr ∧ w.sRts = rts
  | _ => True

def Cached (w : DeviceRelay) : Prop := ∀ dtr rts, w.driven = some (dtr, rts) → w.Holds dtr rts

theorem Cached.same {w n : DeviceRelay} (h : w.Cached) (lines : n.driven = w.driven)
    (dtr : n.sDtr = w.sDtr) (rts : n.sRts = w.sRts)
    (pending : ∀ control, w.client = .setControlLineState control → n.client = w.client) :
    n.Cached := by
  intro d r driven
  rw [lines] at driven
  obtain ⟨held_dtr, held_rts⟩ := h d r driven
  constructor
  · rw [dtr]
    refine held_dtr.imp_left ?_
    rintro ⟨control, client, is_dtr⟩
    exact ⟨control, (pending control client).trans client, is_dtr⟩
  · rw [rts]
    refine held_rts.imp_left ?_
    rintro ⟨control, client, is_rts⟩
    exact ⟨control, (pending control client).trans client, is_rts⟩

theorem cached_of_undriven {n : DeviceRelay} (undriven : n.driven = none) : n.Cached := by
  intro dtr rts driven
  rw [undriven] at driven
  cases driven

theorem undriven_of_no_device {n : DeviceRelay} (gone : n.device = none) : n.driven = none := by
  rw [driven, gone]
  rfl

theorem cached_of_no_handle {n : DeviceRelay} (gone : n.cdcDev = none) : n.Cached :=
  cached_of_undriven (undriven_of_no_device (device_of_no_handle gone))

/-- The disconnect closes the only device. -/
theorem closes_cached {w : DeviceRelay} (tracked : w.Tracked) {handle : Handle}
    (found : w.openDevices.any (·.handle == handle) = true) :
    ({ w with
        openDevices := w.openDevices.filter (·.handle != handle)
        event := .give } : DeviceRelay).Cached := by
  have none_open : w.openDevices.filter (·.handle != handle) = [] :=
    List.map_eq_nil_iff.mp ((tracked.closes found).absent fun p => absurd p.2.1 (by simp))
  refine cached_of_undriven (undriven_of_no_device ?_)
  unfold device
  rw [none_open]
  rfl

/-- Both lines of the device are driven, as far as there is one. -/
theorem cached_of_setLines {w n : DeviceRelay} {dtr rts : Bool}
    (lines : n.driven = (w.setLines dtr rts).driven) (held : n.Holds dtr rts) : n.Cached := by
  intro d r driven
  rw [lines, driven_setLines] at driven
  cases open_device : w.device with
  | none =>
    rw [open_device] at driven
    cases driven
  | some device =>
    rw [open_device] at driven
    cases driven
    exact held

/-- A request that is stored becomes the pending one. -/
theorem Cached.storesLine {w : DeviceRelay} (h : w.Cached) (idle : w.client = .idle)
    {control : UInt32} {dtr rts : Bool}
    (own : IsDtr control ∧ rts = w.sRts ∨ IsRts control ∧ dtr = w.sDtr) :
    (({ w with sDtr := dtr, sRts := rts } : DeviceRelay).goto
      (.setControlLineState control)).Cached := by
  intro d r driven
  have unpending (c : UInt32) : w.client ≠ .setControlLineState c := by simp [idle]
  obtain ⟨held_dtr, held_rts⟩ := h d r driven
  have dtr_held : w.sDtr = d :=
    held_dtr.resolve_left fun ⟨c, pending, _⟩ => unpending c pending
  have rts_held : w.sRts = r :=
    held_rts.resolve_left fun ⟨c, pending, _⟩ => unpending c pending
  rcases own with ⟨is_dtr, rts_same⟩ | ⟨is_rts, dtr_same⟩
  · exact ⟨.inl ⟨control, rfl, is_dtr⟩, .inr (rts_same.trans rts_held)⟩
  · exact ⟨.inr (dtr_same.trans dtr_held), .inl ⟨control, rfl, is_rts⟩⟩

theorem move_cached {w n : DeviceRelay} {a : DeviceInput} (h : w.Cached) (tracked : w.Tracked)
    (move : w.Move a n) (in_step : w.InStep a) : n.Cached := by
  have busy {client : ClientThread} (at_call : w.client = client)
      (other : ∀ c, client ≠ .setControlLineState c) {m : DeviceRelay}
      (control : UInt32) (pending : w.client = .setControlLineState control) :
      m.client = w.client := absurd (at_call.symm.trans pending) (other control)
  cases move with
  | rests => exact h
  | openFails => exact cached_of_no_handle rfl
  | opens =>
    refine cached_of_undriven ?_
    simp [driven, DeviceRelay.device]
  | drives at_drive => exact cached_of_setLines (w := w) rfl (in_step at_drive rfl)
  | closes idle found => exact closes_cached tracked found
  | storesLine idle own => exact h.storesLine idle own
  | onlyStores gone => exact cached_of_no_handle gone
  | setsLines client =>
    exact cached_of_setLines (w := w.call (.setControlLineState w.sDtr w.sRts)) rfl
      ⟨.inr rfl, .inr rfl⟩
  | missesLines client =>
    intro dtr rts lines
    obtain ⟨dtr_same, rts_same⟩ := in_step rfl _ client dtr rts lines
    exact ⟨.inr dtr_same, .inr rts_same⟩
  | resets | driveFails | takes | closeFails | gives | unknown | echoes | missesCoding | refuses =>
    exact h.same rfl rfl rfl fun _ _ => rfl
  | asks at_call | skips at_call | stores at_call | gets at_call | sends at_call | sent at_call =>
    exact h.same rfl rfl rfl (busy at_call (by simp))
  | @sets baudrate coding client =>
    exact h.same (driven_setCoding (w.call _) coding) rfl rfl (busy client (by simp))

theorem step_cached {w : DeviceRelay} (h : w.Cached) (tracked : w.Tracked) (a : DeviceInput)
    (in_step : w.InStep a) : (w.step a).Cached := by
  unfold step
  split
  · exact h
  · exact move_cached h tracked (handle_move w a) in_step

theorem not_isDtr_and_isRts (control : UInt32) : ¬ (IsDtr control ∧ IsRts control) := by
  rintro ⟨rfl | rfl, set_rts | clear_rts⟩
  · exact absurd set_rts (by decide)
  · exact absurd clear_rts (by decide)
  · exact absurd set_rts (by decide)
  · exact absurd clear_rts (by decide)

theorem Cached.otherCached {w : DeviceRelay} (h : w.Cached) (a : DeviceInput) :
    w.OtherCached a where
  dtr control dtr rts handling lines is_rts := by
    refine (h dtr rts lines).1.resolve_left ?_
    rintro ⟨c, client, is_dtr⟩
    rw [handling.2.1] at client
    cases client
    exact not_isDtr_and_isRts control ⟨is_dtr, is_rts⟩
  rts control dtr rts handling lines is_dtr := by
    refine (h dtr rts lines).2.resolve_left ?_
    rintro ⟨c, client, is_rts⟩
    rw [handling.2.1] at client
    cases client
    exact not_isDtr_and_isRts control ⟨is_dtr, is_rts⟩

/-- Requests touch only their own line exactly in the runs in which the variable of the other line
is right at every call of the driver. It is as long as every device is opened with its lines driven
as the variables have them, and no call fails that was to change one. -/
theorem own_line_only_iff (as : List DeviceInput) :
    (Runs.Along step OwnLineOnly start as ↔ Runs.Along step OtherCached start as) ∧
      (Runs.Along step InStep start as → Runs.Along step OwnLineOnly start as) := by
  have same : Runs.Along step OwnLineOnly start as ↔ Runs.Along step OtherCached start as :=
    Runs.along_congr ownLineOnly_iff start as
  refine ⟨same, fun in_step => same.mpr ?_⟩
  refine Runs.along_of_guarded_invariant (P := fun w => w.Tracked ∧ w.Cached) ?_ ?_ start
    ⟨start_tracked, cached_of_undriven rfl⟩ as in_step
  · rintro w a ⟨tracked, cached⟩ now
    exact ⟨step_tracked tracked a, step_cached cached tracked a now⟩
  · rintro w a ⟨-, cached⟩ -
    exact cached.otherCached a

/-- The first request on a device that has just been opened is for RTS. -/
def rtsAfterOpen : List DeviceInput :=
  [.openReturns (some (7, ⟨9600, 0, 0, 8⟩)) false, .resetBaudrate, .driveLines true,
    .onControl controlSetRts, .callSetControlLineState true]

/-- DTR was driven at the open, and falls. -/
theorem rts_request_clears_dtr : ¬ Runs.Along step OwnLineOnly start rtsAfterOpen := by
  rintro ⟨-, -, -, -, own, -⟩
  have left := own.dtr controlSetRts true true false ⟨by decide, by decide, rfl⟩ (by decide)
    (.inl rfl)
  exact absurd left (by decide)

end DeviceRelay

end Rocom.SerialPort
