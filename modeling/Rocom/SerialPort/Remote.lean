import Rocom.Rfc2217.Conversation
import Rocom.SerialPort.Lines

/-! From the client to the USB device. While one device stays open, what a connection asks for
reaches it through the callbacks, each of which runs to its end before the parser goes on. -/
namespace Rocom.SerialPort

open Rfc2217

/-- What was given to the driver to send. -/
def DeviceRecord.transmitted : DeviceRecord → List UInt8
  | .called (.dataTxBlocking data) _ _ => data
  | _ => []

/-- A callback returned what it was asked for, as the answers of the server have it. -/
def DeviceRecord.Echo : DeviceRecord → Prop
  | .controlAnswered control answer => answer = control
  | .baudrateAnswered baudrate answer => answer = baudrate
  | .called _ _ _ => True

/-- The assignments of `on_control` on the two variables. -/
def lineRequest (control : UInt32) (lines : Bool × Bool) : Option (Bool × Bool) :=
  if control = controlSetDtr then some (true, lines.2)
  else if control = controlClearDtr then some (false, lines.2)
  else if control = controlSetRts then some (lines.1, true)
  else if control = controlClearRts then some (lines.1, false)
  else none

/-- What a client can set. -/
structure Settings where
  rate : UInt32
  lines : Bool × Bool
deriving DecidableEq

def Settings.ask (s : Settings) : Event → Settings
  | .baudrate rate => { s with rate := rate }
  | .control control => { s with lines := (lineRequest control s.lines).getD s.lines }
  | _ => s

/-- An open device, the variables next to it and what was given to the driver to send. -/
structure PortState where
  device : OpenDevice
  sBaudrate : UInt32
  vars : Bool × Bool
  transmitted : List UInt8

/-- One callback of the parser. -/
def PortState.apply (p : PortState) : Event → PortState
  | .dataReceived data => { p with transmitted := p.transmitted ++ data }
  | .baudrate rate =>
    if rate = p.sBaudrate then p
    else
      { p with
        device := { p.device with coding := { p.device.coding with dwDTERate := rate } }
        sBaudrate := rate }
  | .control control =>
    match lineRequest control p.vars with
    | some lines => { p with device := { p.device with lines := some lines }, vars := lines }
    | none => p
  | _ => p

namespace DeviceRelay

def transmitted (w : DeviceRelay) : List UInt8 := w.log.flatMap DeviceRecord.transmitted

/-- The steps of a callback, with a driver whose calls succeed. -/
def callbackSteps (w : DeviceRelay) : Event → List DeviceInput
  | .dataReceived data => [.onDataReceived data, .callDataTxBlocking]
  | .baudrate rate =>
    [.onBaudrate rate, .compareBaudrate, .callLineCodingGet (w.device.map (·.coding)),
      .callLineCodingSet true]
  | .control control => [.onControl control, .callSetControlLineState true]
  | _ => []

def perform (w : DeviceRelay) (e : Event) : DeviceRelay := (w.callbackSteps e).foldl step w

/-- The receive thread is at this point, and the device and the variables are these. -/
structure Shows (w : DeviceRelay) (client : ClientThread) (p : PortState) : Prop where
  running : w.aborted = false
  client : w.client = client
  device : w.device = some p.device
  baudrate : w.sBaudrate = p.sBaudrate
  vars : (w.sDtr, w.sRts) = p.vars
  transmitted : w.transmitted = p.transmitted

variable {w n : DeviceRelay} {client : ClientThread} {p : PortState}

theorem Shows.handle (h : w.Shows client p) : w.cdcDev ≠ none := by
  intro gone
  have none_open := device_of_no_handle gone
  rw [h.device] at none_open
  cases none_open

theorem transmitted_note (w : DeviceRelay) (r : DeviceRecord) :
    (w.note r).transmitted = w.transmitted ++ r.transmitted := by
  simp [transmitted, note]

/-- A record of nothing that was sent. -/
theorem Shows.note (h : w.Shows client p) {r : DeviceRecord} (silent : r.transmitted = []) :
    (w.note r).Shows client p := by
  refine ⟨h.running, h.client, h.device, h.baudrate, h.vars, ?_⟩
  rw [transmitted_note, silent, List.append_nil]
  exact h.transmitted

theorem Shows.goto (h : w.Shows client p) (next : ClientThread) : (w.goto next).Shows next p :=
  ⟨h.running, rfl, h.device, h.baudrate, h.vars, h.transmitted⟩

theorem Shows.setCoding (h : w.Shows client p) (coding : LineCoding) :
    (w.setCoding coding).Shows client { p with device := { p.device with coding := coding } } := by
  have changed := device_update w (f := fun d => { d with coding := coding }) fun _ => rfl
  refine ⟨h.running, h.client, ?_, h.baudrate, h.vars, h.transmitted⟩
  rw [h.device] at changed
  exact changed

theorem Shows.setLines (h : w.Shows client p) (dtr rts : Bool) :
    (w.setLines dtr rts).Shows client
      { p with device := { p.device with lines := some (dtr, rts) } } := by
  have changed := device_update w (f := fun d => { d with lines := some (dtr, rts) }) fun _ => rfl
  refine ⟨h.running, h.client, ?_, h.baudrate, h.vars, h.transmitted⟩
  rw [h.device] at changed
  exact changed

/-- A step of a callback that is not running. -/
theorem Shows.rests (h : w.Shows client p) {a : DeviceInput} (off : w.handle a = w) :
    (w.step a).Shows client p := by
  rw [step_of_running a h.running, off]
  exact h

theorem setLine_lineRequest (w : DeviceRelay) (control : UInt32) :
    w.setLine control = (lineRequest control (w.sDtr, w.sRts)).map fun lines =>
      { w with sDtr := lines.1, sRts := lines.2 } := by
  unfold setLine lineRequest
  split
  · rfl
  split
  · rfl
  split
  · rfl
  split <;> rfl

theorem perform_data (h : w.Shows .idle p) (data : List UInt8) :
    (w.perform (.dataReceived data)).Shows .idle (p.apply (.dataReceived data)) := by
  have entered : (w.step (.onDataReceived data)).Shows (.dataTx data) p := by
    rw [step_of_running _ h.running]
    simp only [handle, onDataReceivedFromRfc2217, h.client, if_pos h.handle]
    exact h.goto _
  have sent (n : DeviceRelay) (h : n.Shows (.dataTx data) p) :
      (n.step .callDataTxBlocking).Shows .idle (p.apply (.dataReceived data)) := by
    rw [step_of_running _ h.running]
    simp only [handle, callDataTxBlocking, h.client]
    refine ⟨h.running, rfl, h.device, h.baudrate, h.vars, ?_⟩
    rw [PortState.apply, ← h.transmitted]
    exact transmitted_note n _
  exact sent _ entered

theorem perform_control (h : w.Shows .idle p) (control : UInt32) :
    (w.perform (.control control)).Shows .idle (p.apply (.control control)) := by
  have stored := setLine_lineRequest w control
  rw [h.vars] at stored
  simp only [perform, callbackSteps, List.foldl_cons, List.foldl_nil]
  cases asked : lineRequest control p.vars with
  | none =>
    rw [asked] at stored
    have answered : (w.step (.onControl control)).Shows .idle p := by
      rw [step_of_running _ h.running]
      simp only [handle, onControl, h.client, stored, Option.map_none]
      exact h.note rfl
    have rested := answered.rests (a := .callSetControlLineState true) (by
      simp only [handle, callSetControlLineState, answered.client])
    simpa only [PortState.apply, asked] using rested
  | some lines =>
    rw [asked] at stored
    have entered : (w.step (.onControl control)).Shows (.setControlLineState control)
        { p with vars := lines } := by
      rw [step_of_running _ h.running]
      simp only [handle, onControl, h.client, stored, Option.map_some, if_pos h.handle]
      exact ⟨h.running, rfl, h.device, h.baudrate, rfl, h.transmitted⟩
    have driven (n : DeviceRelay)
        (h : n.Shows (.setControlLineState control) { p with vars := lines }) :
        (n.step (.callSetControlLineState true)).Shows .idle
          { p with device := { p.device with lines := some lines }, vars := lines } := by
      have called :=
        h.note (r := .called (.setControlLineState n.sDtr n.sRts) n.cdcDev n.opened) rfl
      have set := ((called.setLines n.sDtr n.sRts).goto .idle).note
        (r := .controlAnswered control control) rfl
      rw [step_of_running _ h.running]
      simp only [handle, callSetControlLineState, h.client, if_true]
      rw [h.vars] at set
      exact set
    simpa only [PortState.apply, asked] using driven _ entered

/-- The rate in `s_baudrate` is not set again. -/
theorem compare_same (h : n.Shows (.compareBaudrate p.sBaudrate) p) :
    (n.step .compareBaudrate).Shows .idle p := by
  rw [step_of_running _ h.running]
  simp only [handle, compareBaudrate, h.client, if_pos h.baudrate.symm]
  exact (h.goto .idle).note rfl

theorem compare_new {rate : UInt32} (h : n.Shows (.compareBaudrate rate) p)
    (new : rate ≠ p.sBaudrate) :
    (n.step .compareBaudrate).Shows (.lineCodingGet rate) { p with sBaudrate := rate } := by
  have differs : rate ≠ n.sBaudrate := fun same => new (same.trans h.baudrate)
  rw [step_of_running _ h.running]
  simp only [handle, compareBaudrate, h.client, if_neg differs]
  exact ⟨h.running, rfl, h.device, rfl, h.vars, h.transmitted⟩

theorem get_coding {rate : UInt32} (h : n.Shows (.lineCodingGet rate) p) :
    (n.step (.callLineCodingGet (some p.device.coding))).Shows
      (.lineCodingSet rate { p.device.coding with dwDTERate := rate }) p := by
  rw [step_of_running _ h.running]
  simp only [handle, callLineCodingGet, h.client]
  exact (h.note rfl).goto _

theorem set_coding {rate : UInt32} {coding : LineCoding}
    (h : n.Shows (.lineCodingSet rate coding) p) :
    (n.step (.callLineCodingSet true)).Shows .idle
      { p with device := { p.device with coding := coding } } := by
  rw [step_of_running _ h.running]
  simp only [handle, callLineCodingSet, h.client, if_true]
  have called := h.note (r := .called (.lineCodingSet coding) n.cdcDev n.opened) rfl
  exact ((called.setCoding coding).goto .idle).note rfl

theorem perform_baudrate (h : w.Shows .idle p) (rate : UInt32) :
    (w.perform (.baudrate rate)).Shows .idle (p.apply (.baudrate rate)) := by
  have entered : (w.step (.onBaudrate rate)).Shows (.compareBaudrate rate) p := by
    rw [step_of_running _ h.running]
    simp only [handle, onBaudrate, h.client, if_neg h.handle]
    exact h.goto _
  have coding : w.device.map (·.coding) = some p.device.coding := by rw [h.device]; rfl
  simp only [perform, callbackSteps, coding, List.foldl_cons, List.foldl_nil]
  by_cases same : rate = p.sBaudrate
  · subst same
    have skipped := compare_same entered
    have unasked := skipped.rests (a := .callLineCodingGet (some p.device.coding)) (by
      simp only [handle, callLineCodingGet, skipped.client])
    have unset := unasked.rests (a := .callLineCodingSet true) (by
      simp only [handle, callLineCodingSet, unasked.client])
    simpa only [PortState.apply, if_true] using unset
  · simpa only [PortState.apply, if_neg same] using
      set_coding (get_coding (compare_new entered same))

theorem perform_shows (w : DeviceRelay) (p : PortState) (e : Event) (h : w.Shows .idle p) :
    (w.perform e).Shows .idle (p.apply e) := by
  cases e with
  | dataReceived data => exact perform_data h data
  | baudrate rate => exact perform_baudrate h rate
  | control control => exact perform_control h control
  | clientConnected | clientDisconnected | purge | send | telnetCommand | negotiate
  | subnegotiation => exact h

end DeviceRelay

/-! ### What the device comes to -/

section Callbacks

variable {p : PortState} {s t : Settings}

def PortState.rate (p : PortState) : UInt32 := p.device.coding.dwDTERate

/-- No rate other than `rate` is asked for. -/
def KeepsRate (rate : UInt32) (es : List Event) : Prop := ∀ r, .baudrate r ∈ es → r = rate

theorem keepsRate_cons {rate : UInt32} {e : Event} {es : List Event} :
    KeepsRate rate (e :: es) ↔ (∀ r, e = .baudrate r → r = rate) ∧ KeepsRate rate es := by
  simp only [KeepsRate, List.mem_cons, or_imp, forall_and, eq_comm]

/-- An event that is no request for a rate. -/
def IsOther (e : Event) : Prop := ∀ r, e ≠ .baudrate r

theorem apply_other (p : PortState) {e : Event} (other : IsOther e) :
    (p.apply e).rate = p.rate ∧ (p.apply e).sBaudrate = p.sBaudrate := by
  cases e with
  | baudrate rate => exact absurd rfl (other rate)
  | control control =>
    unfold PortState.rate
    cases asked : lineRequest control p.vars <;> simp [PortState.apply, asked]
  | dataReceived | clientConnected | clientDisconnected | purge | send | telnetCommand | negotiate
  | subnegotiation => exact ⟨rfl, rfl⟩

theorem ask_other (s : Settings) {e : Event} (other : IsOther e) : (s.ask e).rate = s.rate := by
  cases e with
  | baudrate rate => exact absurd rfl (other rate)
  | control | dataReceived | clientConnected | clientDisconnected | purge | send | telnetCommand
  | negotiate | subnegotiation => rfl

theorem isOther_or (e : Event) : IsOther e ∨ ∃ r, e = .baudrate r := by
  cases e with
  | baudrate rate => exact .inr ⟨rate, rfl⟩
  | control | dataReceived | clientConnected | clientDisconnected | purge | send | telnetCommand
  | negotiate | subnegotiation => exact .inl fun _ => nofun

/-- A device at the rate in `s_baudrate` follows. -/
theorem rate_follows (es : List Event) (cached : p.sBaudrate = s.rate) (rate : p.rate = s.rate) :
    (es.foldl PortState.apply p).rate = (es.foldl Settings.ask s).rate := by
  refine (Runs.simulation 
    (R := fun (p : PortState) (s : Settings) => p.sBaudrate = s.rate ∧ p.rate = s.rate) ?_
    ⟨cached, rate⟩ es).2
  rintro p s e ⟨cached, rate⟩
  rcases isOther_or e with other | ⟨r, rfl⟩
  · obtain ⟨same, kept⟩ := apply_other p other
    rw [same, kept, ask_other s other]
    exact ⟨cached, rate⟩
  · by_cases same : r = p.sBaudrate
    · simp only [PortState.apply, if_pos same, Settings.ask]
      exact ⟨same.symm, rate.trans (cached.symm.trans same.symm)⟩
    · simp only [PortState.apply, if_neg same, Settings.ask, PortState.rate, and_self]

/-- The first rate that is not the one in `s_baudrate` is set, and what is asked for afterwards. -/
theorem rate_apply (es : List Event) (p : PortState) (s : Settings) :
    (KeepsRate p.sBaudrate es → (es.foldl PortState.apply p).rate = p.rate) ∧
      (¬ KeepsRate p.sBaudrate es →
        (es.foldl PortState.apply p).rate = (es.foldl Settings.ask s).rate) := by
  induction es generalizing p s with
  | nil => exact ⟨fun _ => rfl, fun moved => absurd nofun moved⟩
  | cons e es ih =>
    rw [keepsRate_cons, List.foldl_cons, List.foldl_cons]
    rcases isOther_or e with other | ⟨r, rfl⟩
    · obtain ⟨same, kept⟩ := apply_other p other
      have rest := ih (p.apply e) (s.ask e)
      rw [kept, same] at rest
      exact ⟨fun keeps => rest.1 keeps.2, fun moved =>
        rest.2 fun keeps => moved ⟨fun r asked => absurd asked (other r), keeps⟩⟩
    · by_cases same : r = p.sBaudrate
      · have rest := ih p (s.ask (.baudrate r))
        simp only [PortState.apply, if_pos same]
        refine ⟨fun keeps => rest.1 keeps.2, fun moved => rest.2 fun keeps => moved ⟨?_, keeps⟩⟩
        rintro r' asked
        cases asked
        exact same
      · refine ⟨fun keeps => absurd (keeps.1 r rfl) same, fun _ => ?_⟩
        have set : (p.apply (.baudrate r)).sBaudrate = r ∧ (p.apply (.baudrate r)).rate = r := by
          simp only [PortState.apply, if_neg same, PortState.rate, and_self]
        exact rate_follows es set.1 set.2

theorem ask_keeps (es : List Event) (s : Settings) {rate : UInt32} (keeps : KeepsRate rate es) :
    (∃ r, .baudrate r ∈ es) ∧ (es.foldl Settings.ask s).rate = rate ∨
      (¬ ∃ r, .baudrate r ∈ es) ∧ (es.foldl Settings.ask s).rate = s.rate := by
  induction es generalizing s with
  | nil => exact .inr ⟨by simp, rfl⟩
  | cons e es ih =>
    obtain ⟨first, rest⟩ := keepsRate_cons.mp keeps
    rw [List.foldl_cons]
    rcases isOther_or e with other | ⟨r, rfl⟩
    · have same : (∃ r, .baudrate r ∈ e :: es) ↔ ∃ r, .baudrate r ∈ es :=
        exists_congr fun r => List.mem_cons.trans (or_iff_right fun asked => other r asked.symm)
      rw [same, ← ask_other s other]
      exact ih (s.ask e) rest
    · refine .inl ⟨⟨r, List.mem_cons_self⟩, ?_⟩
      rcases ih (s.ask (.baudrate r)) rest with ⟨-, asked⟩ | ⟨-, kept⟩
      · exact asked
      · exact kept.trans (first r rfl)

/-- The device has the rate that was asked for, unless only the rate in `s_baudrate` was asked for
and it has another one. -/
theorem rate_iff (es : List Event) (same : s.rate = p.rate) :
    (es.foldl PortState.apply p).rate = (es.foldl Settings.ask s).rate ↔
      (KeepsRate p.sBaudrate es → (∃ r, .baudrate r ∈ es) → p.sBaudrate = p.rate) := by
  obtain ⟨kept, moved⟩ := rate_apply es p s
  by_cases keeps : KeepsRate p.sBaudrate es
  · rw [kept keeps]
    rcases ask_keeps es s keeps with ⟨asked, rate⟩ | ⟨unasked, rate⟩
    · rw [rate]
      exact ⟨fun same _ _ => same.symm, fun same => (same keeps asked).symm⟩
    · rw [rate]
      exact iff_of_true same.symm fun _ asked => absurd asked unasked
  · exact iff_of_true (moved keeps) fun keeps' => absurd keeps' keeps

/-! The lines. -/

/-- A request for DTR or RTS is made. -/
def Asks (which : UInt32 → Prop) (es : List Event) : Prop := ∃ c, .control c ∈ es ∧ which c

theorem asks_cons {which : UInt32 → Prop} {e : Event} {es : List Event} :
    Asks which (e :: es) ↔ (∃ c, e = .control c ∧ which c) ∨ Asks which es := by
  simp only [Asks, List.mem_cons, or_and_right, exists_or, eq_comm]

def IsLine (c : UInt32) : Prop := IsDtr c ∨ IsRts c

theorem lineRequest_isSome (c : UInt32) (lines : Bool × Bool) :
    (lineRequest c lines).isSome ↔ IsLine c := by
  unfold lineRequest IsLine IsDtr IsRts
  split
  · simp [*]
  split
  · simp [*]
  split
  · simp [*]
  split <;> simp [*]

/-- A request drives its own line and keeps the other one. -/
theorem ask_lines_iff (s t : Settings) (e : Event) :
    ((s.ask e).lines.1 = (t.ask e).lines.1 ↔
      (∃ c, e = .control c ∧ IsDtr c) ∨ s.lines.1 = t.lines.1) ∧
    ((s.ask e).lines.2 = (t.ask e).lines.2 ↔
      (∃ c, e = .control c ∧ IsRts c) ∨ s.lines.2 = t.lines.2) := by
  cases e with
  | control c =>
    simp only [Settings.ask, lineRequest, Event.control.injEq, exists_eq_left', IsDtr, IsRts]
    by_cases set_dtr : c = controlSetDtr
    · subst set_dtr
      simp +decide
    by_cases clear_dtr : c = controlClearDtr
    · subst clear_dtr
      simp +decide
    by_cases set_rts : c = controlSetRts
    · subst set_rts
      simp +decide
    by_cases clear_rts : c = controlClearRts
    · subst clear_rts
      simp +decide
    · simp [set_dtr, clear_dtr, set_rts, clear_rts]
  | baudrate | dataReceived | clientConnected | clientDisconnected | purge | send | telnetCommand
  | negotiate | subnegotiation => simp [Settings.ask]

theorem foldl_ask_lines_iff (es : List Event) (s t : Settings) :
    (es.foldl Settings.ask s).lines = (es.foldl Settings.ask t).lines ↔
      (Asks IsDtr es ∨ s.lines.1 = t.lines.1) ∧ (Asks IsRts es ∨ s.lines.2 = t.lines.2) := by
  induction es generalizing s t with
  | nil => simp [Asks, Prod.ext_iff]
  | cons e es ih =>
    obtain ⟨dtr, rts⟩ := ask_lines_iff s t e
    rw [List.foldl_cons, List.foldl_cons, ih, dtr, rts, asks_cons, asks_cons]
    simp only [or_left_comm, or_assoc]

/-- What a request for a line does, and what every other event leaves alone. -/
theorem apply_line (p : PortState) (s : Settings) (vars : p.vars = s.lines) (e : Event) :
    (p.apply e).vars = (s.ask e).lines ∧
      ((∃ c, e = .control c ∧ IsLine c) → (p.apply e).device.lines = some (s.ask e).lines) ∧
      ((¬ ∃ c, e = .control c ∧ IsLine c) →
        (p.apply e).device.lines = p.device.lines ∧ (s.ask e).lines = s.lines) := by
  cases e with
  | control c =>
    have known := lineRequest_isSome c p.vars
    simp only [Event.control.injEq, exists_eq_left', PortState.apply, Settings.ask, ← vars]
    cases asked : lineRequest c p.vars with
    | none =>
      rw [asked] at known
      exact ⟨rfl, fun line => absurd (known.mpr line) Bool.false_ne_true, fun _ => ⟨rfl, rfl⟩⟩
    | some lines =>
      rw [asked] at known
      exact ⟨rfl, fun _ => rfl, fun other => absurd (known.mp rfl) other⟩
  | baudrate rate =>
    simp only [PortState.apply]
    split <;> exact ⟨vars, nofun, fun _ => ⟨rfl, rfl⟩⟩
  | dataReceived | clientConnected | clientDisconnected | purge | send | telnetCommand | negotiate
  | subnegotiation => exact ⟨vars, nofun, fun _ => ⟨rfl, rfl⟩⟩

/-- A device whose lines are driven as the variables have them follows. -/
theorem lines_follow (es : List Event) (vars : p.vars = s.lines)
    (driven : p.device.lines = some s.lines) :
    (es.foldl PortState.apply p).device.lines = some (es.foldl Settings.ask s).lines := by
  refine (Runs.simulation
    (R := fun (p : PortState) (s : Settings) => p.vars = s.lines ∧ p.device.lines = some s.lines)
    ?_ ⟨vars, driven⟩ es).2
  rintro p s e ⟨vars, driven⟩
  obtain ⟨same, drives, leaves⟩ := apply_line p s vars e
  refine ⟨same, ?_⟩
  by_cases line : ∃ c, e = .control c ∧ IsLine c
  · exact drives line
  · obtain ⟨kept, unasked⟩ := leaves line
    rw [kept, unasked]
    exact driven

/-- The first request for a line drives both from the two variables. -/
theorem lines_apply (es : List Event) (vars : p.vars = s.lines) :
    (Asks IsLine es →
      (es.foldl PortState.apply p).device.lines = some (es.foldl Settings.ask s).lines) ∧
    (¬ Asks IsLine es → (es.foldl PortState.apply p).device.lines = p.device.lines) := by
  induction es generalizing p s with
  | nil => exact ⟨fun asked => absurd asked (by simp [Asks]), fun _ => rfl⟩
  | cons e es ih =>
    rw [asks_cons, List.foldl_cons, List.foldl_cons]
    obtain ⟨same, drives, leaves⟩ := apply_line p s vars e
    by_cases line : ∃ c, e = .control c ∧ IsLine c
    · exact ⟨fun _ => lines_follow es same (drives line), fun none => absurd (.inl line) none⟩
    · obtain ⟨asked, unasked⟩ := ih same
      refine ⟨fun some_line => asked (some_line.resolve_left line), fun no_line => ?_⟩
      exact (unasked fun later => no_line (.inr later)).trans (leaves line).1

/-- The device has the lines that were asked for, unless a request has driven a line that nobody
asked for to something else. -/
theorem lines_iff (es : List Event) (driven : p.device.lines = some s.lines) :
    (es.foldl PortState.apply p).device.lines = some (es.foldl Settings.ask s).lines ↔
      (Asks IsLine es → (Asks IsDtr es ∨ p.vars.1 = s.lines.1) ∧
        (Asks IsRts es ∨ p.vars.2 = s.lines.2)) := by
  obtain ⟨asked, unasked⟩ := lines_apply es (p := p) (s := { s with lines := p.vars }) rfl
  have same := foldl_ask_lines_iff es { s with lines := p.vars } s
  by_cases line : Asks IsLine es
  · rw [asked line, Option.some.injEq, same]
    exact ⟨fun both _ => both, fun both => both line⟩
  · have still := (lines_apply es (p := { p with vars := s.lines }) rfl).2 line
    rw [lines_follow es (p := { p with vars := s.lines }) rfl driven] at still
    rw [unasked line]
    exact iff_of_true still.symm fun line' => absurd line' line

theorem transmitted_apply (es : List Event) (p : PortState) :
    (es.foldl PortState.apply p).transmitted = p.transmitted ++ receivedBytes es ∧
      (es.foldl PortState.apply p).device.handle = p.device.handle := by
  induction es generalizing p with
  | nil => exact ⟨(List.append_nil _).symm, rfl⟩
  | cons e es ih =>
    obtain ⟨rest, kept⟩ := ih (p.apply e)
    have one : (p.apply e).transmitted = p.transmitted ++ receivedBytes [e] ∧
        (p.apply e).device.handle = p.device.handle := by
      cases e with
      | dataReceived data => exact ⟨by simp [PortState.apply, receivedBytes, Event.data], rfl⟩
      | baudrate rate =>
        simp only [PortState.apply]
        split <;> exact ⟨(List.append_nil _).symm, rfl⟩
      | control c =>
        simp only [PortState.apply]
        split <;> exact ⟨(List.append_nil _).symm, rfl⟩
      | clientConnected | clientDisconnected | purge | send | telnetCommand | negotiate
      | subnegotiation => exact ⟨(List.append_nil _).symm, rfl⟩
    rw [List.foldl_cons, rest, kept, one.1, one.2, List.append_assoc, ← receivedBytes_append]
    exact ⟨rfl, rfl⟩

end Callbacks

/-! ### What a connection asks for -/

/-- The callbacks that set something. -/
def isSetting : Event → Bool
  | .baudrate _ | .control _ => true
  | _ => false

def settings (t : List Event) : List Event := t.filter isSetting

theorem settings_append (t u : List Event) : settings (t ++ u) = settings t ++ settings u :=
  List.filter_append t u

theorem settings_replies (t : List Event) : settings (replies t) = settings t := by
  rw [settings, replies, List.filter_filter, settings]
  apply List.filter_congr
  intro e _
  cases e <;> rfl

theorem settings_notices {t : List Event} (notices : ∀ e ∈ t, e.isNotice = true) :
    settings t = [] := by
  apply List.filter_eq_nil_iff.mpr
  intro e mem
  have notice := notices e mem
  cases e with
  | baudrate | control => cases notice
  | dataReceived | clientConnected | clientDisconnected | purge | send | telnetCommand | negotiate
  | subnegotiation => exact Bool.false_ne_true

/-- What a message asks of the device. -/
def asks : Message → List Event
  | .request (.baudrate rate) => [.baudrate rate]
  | .request (.control value) => [.control value.toUInt32]
  | _ => []

def payload : Message → List UInt8
  | .data payload => payload
  | _ => []

theorem serve_asks (p : Port Unit) (m : Message) :
    settings (p.serve relayConfig m).replies = settings p.replies ++ asks m ∧
      (p.serve relayConfig m).received = p.received ++ payload m := by
  cases m with
  | data payload => exact ⟨(List.append_nil _).symm, rfl⟩
  | command c bare => exact ⟨(List.append_nil _).symm, (List.append_nil _).symm⟩
  | negotiate action option valid =>
    refine ⟨?_, (List.append_nil _).symm⟩
    have quiet := settings_notices (negotiation_notices relayConfig p.asked (action, option) p.ctx)
    simp only [Port.serve, Port.negotiate, List.append_assoc, settings_append p.replies, quiet]
    rfl
  | request r =>
    have answered : settings (r.answer relayConfig p.ctx).events = asks (.request r) := by
      cases r <;> rfl
    refine ⟨?_, (List.append_nil _).symm⟩
    rw [Port.serve, settings_append, answered]

theorem serve_all (ms : List Message) (p : Port Unit) :
    settings (ms.foldl (Port.serve relayConfig) p).replies =
        settings p.replies ++ ms.flatMap asks ∧
      (ms.foldl (Port.serve relayConfig) p).received = p.received ++ ms.flatMap payload := by
  induction ms generalizing p with
  | nil => exact ⟨(List.append_nil _).symm, (List.append_nil _).symm⟩
  | cons m ms ih =>
    obtain ⟨asked, received⟩ := ih (p.serve relayConfig m)
    obtain ⟨one, given⟩ := serve_asks p m
    rw [List.foldl_cons, asked, received, one, given, List.append_assoc, List.append_assoc]
    exact ⟨rfl, rfl⟩

/-- The callbacks of a connection on which messages arrive. -/
theorem connection_asks (s : Session Unit) (ms : List Message) {chunks : List (List UInt8)}
    (cut : chunks.flatten = ms.flatMap Message.bytes)
    (direct : Undiverted relayConfig (newConnection s) chunks) :
    let left := tcpReceiveThreadFn relayConfig (newConnection s) chunks
    settings left.trace = ms.flatMap asks ∧ receivedBytes left.trace = ms.flatMap payload := by
  intro left
  have behind : Behind (ms.foldl (Port.serve relayConfig) (Port.start (newConnection s)))
      (receive relayConfig (newConnection s) chunks) := by
    refine Behind.of_outcome (receive_outcome relayConfig (newConnection s) chunks direct) ?_
    rw [cut]
    exact behind_messages relayConfig (behind_start (newConnection s)) ms
  obtain ⟨-, -, received, replied⟩ :=
    tcpReceiveThreadFn_hangUp relayConfig (newConnection s) chunks
  obtain ⟨asked, given⟩ := serve_all ms (Port.start (newConnection s))
  constructor
  · rw [← settings_replies, replied, behind.replies, asked]
    rfl
  · rw [received, behind.received, given]
    rfl

theorem mem_settings {t : List Event} {e : Event} (setting : isSetting e = true) :
    e ∈ settings t ↔ e ∈ t := List.mem_filter.trans (and_iff_left setting)

theorem foldl_ask_settings (t : List Event) (s : Settings) :
    (settings t).foldl Settings.ask s = t.foldl Settings.ask s := by
  induction t generalizing s with
  | nil => rfl
  | cons e t ih =>
    rw [settings, List.filter_cons, List.foldl_cons]
    cases setting : isSetting e with
    | true => exact ih (s.ask e)
    | false =>
      have nothing : s.ask e = s := by
        cases e <;> first | rfl | cases setting
      rw [nothing]
      exact ih s

theorem asks_settings {which : UInt32 → Prop} (t : List Event) :
    Asks which (settings t) ↔ Asks which t :=
  exists_congr fun _ => and_congr_left' (mem_settings rfl)

theorem keepsRate_settings {rate : UInt32} (t : List Event) :
    KeepsRate rate (settings t) ↔ KeepsRate rate t :=
  forall_congr' fun _ => imp_congr_left (mem_settings rfl)

namespace DeviceRelay

/-- Every callback has returned what it was asked for. -/
def Echoes (w : DeviceRelay) : Prop := ∀ r ∈ w.log, r.Echo

theorem Echoes.note {w : DeviceRelay} (h : w.Echoes) {r : DeviceRecord} (echo : r.Echo) :
    (w.note r).Echoes := by
  intro r' mem
  rcases List.mem_append.mp mem with old | new
  · exact h r' old
  · rw [List.mem_singleton.mp new]
    exact echo

theorem move_echoes {w n : DeviceRelay} {a : DeviceInput} (h : w.Echoes) (move : w.Move a n) :
    n.Echoes := by
  cases move with
  | rests | openFails | opens | resets | drives | driveFails | takes | closes | closeFails | gives
  | storesLine | asks | stores | sends => exact h
  | unknown | echoes | skips | onlyStores => exact Echoes.note h rfl
  | setsLines | missesLines | sets =>
    exact Echoes.note (Echoes.note h (r := .called _ _ _) trivial) rfl
  | gets | missesCoding | refuses | sent => exact Echoes.note h (r := .called _ _ _) trivial

theorem step_echoes (w : DeviceRelay) (a : DeviceInput) (h : w.Echoes) : (w.step a).Echoes := by
  unfold step
  split
  · exact h
  · exact move_echoes h (handle_move w a)

theorem perform_echoes (w : DeviceRelay) (e : Event) (h : w.Echoes) : (w.perform e).Echoes :=
  Runs.invariant step_echoes w h _

end DeviceRelay

open DeviceRelay in
/-- The callbacks of any trace. -/
theorem trace_follows (t : List Event) {w : DeviceRelay} {p : PortState} (shows : w.Shows .idle p)
    {dtr rts : Bool} (driven : p.device.lines = some (dtr, rts)) :
    ∃ q, (t.foldl perform w).Shows .idle q ∧ q.device.handle = p.device.handle ∧
      q.transmitted = p.transmitted ++ receivedBytes t ∧
      (q.rate = ((settings t).foldl Settings.ask ⟨p.rate, (dtr, rts)⟩).rate ↔
        (KeepsRate p.sBaudrate (settings t) → (∃ r, .baudrate r ∈ settings t) →
          p.sBaudrate = p.rate)) ∧
      (q.device.lines = some ((settings t).foldl Settings.ask ⟨p.rate, (dtr, rts)⟩).lines ↔
        (Asks IsLine (settings t) → (Asks IsDtr (settings t) ∨ p.vars.1 = dtr) ∧
          (Asks IsRts (settings t) ∨ p.vars.2 = rts))) := by
  obtain ⟨sent, same⟩ := transmitted_apply t p
  refine ⟨t.foldl PortState.apply p, Runs.simulation perform_shows shows t, same, sent, ?_, ?_⟩
  · have asked : (∃ r, Event.baudrate r ∈ settings t) ↔ ∃ r, Event.baudrate r ∈ t :=
      exists_congr fun _ => mem_settings rfl
    rw [foldl_ask_settings, keepsRate_settings, asked]
    exact rate_iff t rfl
  · rw [foldl_ask_settings, asks_settings, asks_settings, asks_settings]
    exact lines_iff t driven

open DeviceRelay in
/-- From the bytes of a client to the device that is open all the while, with its lines driven. The
device is given the client's data to send, whole and in order; it ends at the rate the client asked
for unless only the rate in `s_baudrate` was asked for and the device has another one, and with the
lines the client asked for unless the variable of a line nobody asked for was wrong; and the
callbacks return what the server answers with. -/
theorem device_follows_client (s : Session Unit) (ms : List Message) {chunks : List (List UInt8)}
    (cut : chunks.flatten = ms.flatMap Message.bytes)
    (direct : Undiverted relayConfig (newConnection s) chunks) (before : List DeviceInput)
    {p : PortState} (shows : (before.foldl step start).Shows .idle p) {dtr rts : Bool}
    (driven : p.device.lines = some (dtr, rts)) :
    let es := ms.flatMap asks
    let asked := es.foldl Settings.ask ⟨p.rate, (dtr, rts)⟩
    let after := (tcpReceiveThreadFn relayConfig (newConnection s) chunks).trace.foldl perform
      (before.foldl step start)
    (∃ q, after.Shows .idle q ∧ q.device.handle = p.device.handle ∧
      q.transmitted = p.transmitted ++ ms.flatMap payload ∧
      (q.rate = asked.rate ↔
        (KeepsRate p.sBaudrate es → (∃ r, .baudrate r ∈ es) → p.sBaudrate = p.rate)) ∧
      (q.device.lines = some asked.lines ↔
        (Asks IsLine es → (Asks IsDtr es ∨ p.vars.1 = dtr) ∧ (Asks IsRts es ∨ p.vars.2 = rts)))) ∧
      after.Echoes := by
  intro es asked after
  have follows := trace_follows (tcpReceiveThreadFn relayConfig (newConnection s) chunks).trace
    shows driven
  obtain ⟨made, given⟩ := connection_asks s ms cut direct
  rw [made, given] at follows
  have echoes : (before.foldl step start).Echoes :=
    Runs.invariant step_echoes start (fun r mem => absurd mem List.not_mem_nil) before
  exact ⟨follows, Runs.invariant perform_echoes _ echoes _⟩

/-- A device that has just been opened. -/
def justOpened : List DeviceInput :=
  [.openReturns (some (7, ⟨9600, 0, 0, 8⟩)) false, .resetBaudrate, .driveLines true]

def openedPort : PortState :=
  ⟨⟨7, ⟨9600, 0, 0, 8⟩, some (true, false)⟩, 115200, (false, false), []⟩

def openedRequests : List Message :=
  [.data [65], .request (.baudrate 57600), .request (.control 9)]

open DeviceRelay in
theorem device_follows_client_opened :
    let es := openedRequests.flatMap asks
    let asked := es.foldl Settings.ask ⟨openedPort.rate, (true, false)⟩
    let after := (tcpReceiveThreadFn relayConfig (newConnection (rfc2217ServerCreate ()))
      [[65, tIac], (openedRequests.flatMap Message.bytes).drop 2]).trace.foldl perform
        (justOpened.foldl step start)
    (∃ q, after.Shows .idle q ∧ q.device.handle = openedPort.device.handle ∧
      q.transmitted = openedPort.transmitted ++ openedRequests.flatMap payload ∧
      (q.rate = asked.rate ↔ (KeepsRate openedPort.sBaudrate es → (∃ r, .baudrate r ∈ es) →
        openedPort.sBaudrate = openedPort.rate)) ∧
      (q.device.lines = some asked.lines ↔
        (Asks IsLine es → (Asks IsDtr es ∨ openedPort.vars.1 = true) ∧
          (Asks IsRts es ∨ openedPort.vars.2 = false)))) ∧
      after.Echoes :=
  device_follows_client (rfc2217ServerCreate ()) openedRequests (by decide)
    (by unfold Undiverted; decide) justOpened ⟨rfl, rfl, by decide, rfl, rfl, rfl⟩ rfl

end Rocom.SerialPort
