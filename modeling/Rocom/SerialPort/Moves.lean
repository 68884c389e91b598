import Rocom.SerialPort.Device

/-! What one step of the relay task, the event callback and the client's callbacks can do. -/
namespace Rocom.SerialPort

namespace DeviceRelay

/-- The client's thread is at this call of the driver. -/
def AtCall (w : DeviceRelay) (a : DeviceInput) : Prop :=
  match a, w.client with
  | .callSetControlLineState _, .setControlLineState _ => True
  | .callLineCodingGet _, .lineCodingGet _ => True
  | .callLineCodingSet _, .lineCodingSet _ _ => True
  | .callDataTxBlocking, .dataTx _ => True
  | _, _ => False

/-- A request assigns its own variable. -/
theorem setLine_eq {w n : DeviceRelay} {control : UInt32} (h : w.setLine control = some n) :
    ∃ dtr rts, n = { w with sDtr := dtr, sRts := rts } ∧
      (IsDtr control ∧ rts = w.sRts ∨ IsRts control ∧ dtr = w.sDtr) := by
  unfold setLine at h
  split at h
  · rename_i set_dtr
    exact ⟨true, w.sRts, (Option.some.inj h).symm, .inl ⟨.inl set_dtr, rfl⟩⟩
  split at h
  · rename_i clear_dtr
    exact ⟨false, w.sRts, (Option.some.inj h).symm, .inl ⟨.inr clear_dtr, rfl⟩⟩
  split at h
  · rename_i set_rts
    exact ⟨w.sDtr, true, (Option.some.inj h).symm, .inr ⟨.inl set_rts, rfl⟩⟩
  split at h
  · rename_i clear_rts
    exact ⟨w.sDtr, false, (Option.some.inj h).symm, .inr ⟨.inr clear_rts, rfl⟩⟩
  · cases h

/-- A step from `w` to `n`. -/
inductive Move (w : DeviceRelay) : DeviceInput → DeviceRelay → Prop
  | rests (a : DeviceInput) (off : ¬ w.AtCall a) : Move w a w
  | openFails (opening : w.relayTask = .opening) :
      Move w (.openReturns none true) { w with cdcDev := none }
  | opens (opening : w.relayTask = .opening) (handle : Handle) (coding : LineCoding)
      (clears : Bool) :
      Move w (.openReturns (some (handle, coding)) clears)
        { w with
          cdcDev := some handle
          openDevices := ⟨handle, coding, none⟩ :: w.openDevices
          relayTask := .resetBaudrate }
  | resets (at_reset : w.relayTask = .resetBaudrate) :
      Move w .resetBaudrate { w with sBaudrate := 115200, relayTask := .driveLines }
  | drives (at_drive : w.relayTask = .driveLines) :
      Move w (.driveLines true) { w.setLines true false with relayTask := .waiting }
  | driveFails (at_drive : w.relayTask = .driveLines) : Move w (.driveLines false) w.abort
  | takes (waiting : w.relayTask = .waiting) (given : w.semaphore = true) :
      Move w .takeSemaphore { w with semaphore := false, relayTask := .opening }
  | closes (idle : w.event = .idle) {handle : Handle}
      (found : w.openDevices.any (·.handle == handle) = true) :
      Move w (.disconnected handle true)
        { w with
          openDevices := w.openDevices.filter (·.handle != handle)
          event := .give }
  | closeFails (handle : Handle) : Move w (.disconnected handle false) w.abort
  | gives (closing : w.event = .give) :
      Move w .giveSemaphore { w with semaphore := true, event := .idle }
  | unknown (control : UInt32) :
      Move w (.onControl control) (w.note (.controlAnswered control control))
  | storesLine (idle : w.client = .idle) {control : UInt32} {dtr rts : Bool}
      (own : IsDtr control ∧ rts = w.sRts ∨ IsRts control ∧ dtr = w.sDtr) :
      Move w (.onControl control)
        (({ w with sDtr := dtr, sRts := rts } : DeviceRelay).goto (.setControlLineState control))
  | onlyStores (gone : w.cdcDev = none) (control : UInt32) (dtr rts : Bool) :
      Move w (.onControl control)
        (({ w with sDtr := dtr, sRts := rts } : DeviceRelay).note
          (.controlAnswered control control))
  | setsLines {control : UInt32} (client : w.client = .setControlLineState control) :
      Move w (.callSetControlLineState true)
        ((((w.call (.setControlLineState w.sDtr w.sRts)).setLines w.sDtr w.sRts).goto .idle).note
          (.controlAnswered control control))
  | missesLines {control : UInt32} (client : w.client = .setControlLineState control) :
      Move w (.callSetControlLineState false)
        (((w.call (.setControlLineState w.sDtr w.sRts)).goto .idle).note
          (.controlAnswered control control))
  | echoes (gone : w.cdcDev = none) (baudrate : UInt32) :
      Move w (.onBaudrate baudrate) (w.note (.baudrateAnswered baudrate baudrate))
  | asks (idle : w.client = .idle) (baudrate : UInt32) :
      Move w (.onBaudrate baudrate) (w.goto (.compareBaudrate baudrate))
  | skips (client : w.client = .compareBaudrate w.sBaudrate) :
      Move w .compareBaudrate ((w.goto .idle).note (.baudrateAnswered w.sBaudrate w.sBaudrate))
  | stores {baudrate : UInt32} (client : w.client = .compareBaudrate baudrate) :
      Move w .compareBaudrate
        { w with sBaudrate := baudrate, client := .lineCodingGet baudrate }
  | gets {baudrate : UInt32} (client : w.client = .lineCodingGet baudrate) (coding : LineCoding) :
      Move w (.callLineCodingGet (some coding))
        ((w.call .lineCodingGet).goto
          (.lineCodingSet baudrate { coding with dwDTERate := baudrate }))
  | missesCoding {baudrate : UInt32} (client : w.client = .lineCodingGet baudrate) :
      Move w (.callLineCodingGet none) (w.call .lineCodingGet).abort
  | sets {baudrate : UInt32} {coding : LineCoding}
      (client : w.client = .lineCodingSet baudrate coding) :
      Move w (.callLineCodingSet true)
        ((((w.call (.lineCodingSet coding)).setCoding coding).goto .idle).note
          (.baudrateAnswered baudrate baudrate))
  | refuses {baudrate : UInt32} {coding : LineCoding}
      (client : w.client = .lineCodingSet baudrate coding) :
      Move w (.callLineCodingSet false) (w.call (.lineCodingSet coding)).abort
  | sends (idle : w.client = .idle) (data : List UInt8) :
      Move w (.onDataReceived data) (w.goto (.dataTx data))
  | sent {data : List UInt8} (client : w.client = .dataTx data) :
      Move w .callDataTxBlocking ((w.call (.dataTxBlocking data)).goto .idle)

theorem handle_move (w : DeviceRelay) (a : DeviceInput) : w.Move a (w.handle a) := by
  cases a with
  | openReturns device clears =>
    simp only [handle, openReturns]
    split
    · rename_i opening
      cases device with
      | none =>
        cases clears with
        | true => exact .openFails opening
        | false => exact .rests _ id
      | some device => exact .opens opening device.1 device.2 clears
    · exact .rests _ id
  | resetBaudrate =>
    simp only [handle, resetBaudrate]
    split
    · rename_i at_reset
      exact .resets at_reset
    · exact .rests _ id
  | driveLines ok =>
    simp only [handle, driveLines]
    split
    · rename_i at_drive
      cases ok with
      | true => exact .drives at_drive
      | false => exact .driveFails at_drive
    · exact .rests _ id
  | takeSemaphore =>
    simp only [handle, takeSemaphore]
    split
    · rename_i waiting
      split
      · rename_i given
        exact .takes waiting given
      · exact .rests _ id
    · exact .rests _ id
  | disconnected handle ok =>
    simp only [DeviceRelay.handle, disconnected]
    split
    · rename_i idle
      split
      · rename_i found
        cases ok with
        | true => exact .closes idle found
        | false => exact .closeFails handle
      · exact .rests _ id
    · exact .rests _ id
  | giveSemaphore =>
    simp only [handle, giveSemaphore]
    split
    · rename_i closing
      exact .gives closing
    · exact .rests _ id
  | onControl control =>
    simp only [handle, onControl]
    split
    · rename_i idle
      split
      · exact .unknown control
      · rename_i n set_line
        obtain ⟨dtr, rts, rfl, own⟩ := setLine_eq set_line
        split
        · exact .storesLine idle own
        · rename_i no_handle
          have gone : w.cdcDev = none := not_not.mp no_handle
          exact .onlyStores gone control dtr rts
    · exact .rests _ id
  | callSetControlLineState ok =>
    simp only [handle, callSetControlLineState]
    split
    · rename_i control client
      cases ok with
      | true => exact .setsLines client
      | false => exact .missesLines client
    · rename_i other
      exact .rests _ fun at_call => by
        cases client : w.client <;> simp [AtCall, client] at at_call
        exact other _ client
  | onBaudrate baudrate =>
    simp only [handle, onBaudrate]
    split
    · rename_i idle
      split
      · rename_i gone
        exact .echoes gone baudrate
      · exact .asks idle baudrate
    · exact .rests _ id
  | compareBaudrate =>
    simp only [handle, compareBaudrate]
    split
    · rename_i baudrate client
      split
      · rename_i same
        subst same
        exact .skips client
      · exact .stores client
    · exact .rests _ id
  | callLineCodingGet result =>
    simp only [handle, callLineCodingGet]
    split
    · rename_i baudrate client
      cases result with
      | none => exact .missesCoding client
      | some coding => exact .gets client coding
    · rename_i other
      exact .rests _ fun at_call => by
        cases client : w.client <;> simp [AtCall, client] at at_call
        exact other _ client
  | callLineCodingSet ok =>
    simp only [handle, callLineCodingSet]
    split
    · rename_i baudrate coding client
      cases ok with
      | true => exact .sets client
      | false => exact .refuses client
    · rename_i other
      exact .rests _ fun at_call => by
        cases client : w.client <;> simp [AtCall, client] at at_call
        exact other _ _ client
  | onDataReceived data =>
    simp only [handle, onDataReceivedFromRfc2217]
    split
    · rename_i idle
      split
      · exact .sends idle data
      · exact .rests _ id
    · exact .rests _ id
  | callDataTxBlocking =>
    simp only [handle, callDataTxBlocking]
    split
    · rename_i data client
      exact .sent client
    · rename_i other
      exact .rests _ fun at_call => by
        cases client : w.client <;> simp [AtCall, client] at at_call
        exact other _ client

end DeviceRelay

end Rocom.SerialPort
