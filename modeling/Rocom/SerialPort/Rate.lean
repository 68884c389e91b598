import Rocom.SerialPort.Handles

/-! The rate that `on_baudrate` confirms, `s_baudrate` and the rate of the open device. -/
namespace Rocom.SerialPort

namespace DeviceRelay

/-- The open devices run at this rate. -/
def AtRate (w : DeviceRelay) (baudrate : UInt32) : Prop :=
  ∀ d ∈ w.openDevices, d.coding.dwDTERate = baudrate

def news (w n : DeviceRelay) : List DeviceRecord := n.log.drop w.log.length

/-- Where `on_baudrate` returns the rate it was asked for, an open device has it. -/
def RateConfirmed (w : DeviceRelay) (a : DeviceInput) : Prop :=
  ∀ b, .baudrateAnswered b b ∈ w.news (w.step a) → (w.step a).AtRate b

/-- `on_baudrate` compares the rate it was asked for with `s_baudrate`, and finds it. -/
def Skips (w : DeviceRelay) (a : DeviceInput) : Prop :=
  w.aborted = false ∧ a = .compareBaudrate ∧ w.client = .compareBaudrate w.sBaudrate

/-- An open device has the rate in `s_baudrate` when `on_baudrate` leaves it as it is. -/
def SkipsAtRate (w : DeviceRelay) (a : DeviceInput) : Prop := w.Skips a → w.AtRate w.sBaudrate

/-- What is set is what was asked for. -/
def CodingAsked (w : DeviceRelay) : Prop :=
  ∀ b coding, w.client = .lineCodingSet b coding → coding.dwDTERate = b

theorem Tracked.own {w : DeviceRelay} (h : w.Tracked) :
    ∀ d ∈ w.openDevices, some d.handle = w.cdcDev := by
  intro d mem
  have listed : d.handle ∈ w.handles := List.mem_map_of_mem mem
  by_cases present : w.Present
  · obtain ⟨handle, handles, cdcDev⟩ := h.present present
    rw [handles, List.mem_singleton] at listed
    rw [cdcDev, listed]
  · rw [h.absent present] at listed
    cases listed

theorem atRate_setCoding {w : DeviceRelay} (h : w.Tracked) {b : UInt32} {coding : LineCoding}
    (rate : coding.dwDTERate = b) : (w.setCoding coding).AtRate b := by
  intro d mem
  obtain ⟨d, listed, rfl⟩ := List.mem_map.mp mem
  rw [if_pos (h.own d listed)]
  exact rate

theorem atRate_setLines {w : DeviceRelay} {b : UInt32} (dtr rts : Bool) :
    (w.setLines dtr rts).AtRate b ↔ w.AtRate b := by
  unfold AtRate setLines update
  rw [List.forall_mem_map]
  refine forall₂_congr fun d _ => ?_
  split <;> rfl

/-! One step. -/

theorem move_codingAsked {w n : DeviceRelay} {a : DeviceInput} (h : w.CodingAsked)
    (move : w.Move a n) : n.CodingAsked := by
  cases move with
  | rests | openFails | opens | resets | drives | driveFails | takes | closes | closeFails | gives
  | unknown | onlyStores | echoes | missesCoding | refuses => exact h
  | storesLine | setsLines | missesLines | asks | skips | stores | sets | sends | sent =>
    intro b coding client
    cases client
  | gets =>
    intro b coding client
    cases client
    rfl

theorem news_of_log {w n : DeviceRelay} (rs : List DeviceRecord) (log : n.log = w.log ++ rs) :
    w.news n = rs := by
  rw [news, log, List.drop_left]

theorem news_same {w n : DeviceRelay} (log : n.log = w.log) : w.news n = [] :=
  news_of_log [] (log.trans (List.append_nil _).symm)

/-- Where `on_baudrate` returns: without a device, at the comparison, and after the driver call. -/
inductive Answer (w : DeviceRelay) (a : DeviceInput) (b : UInt32) : Prop
  | noDevice (gone : w.cdcDev = none) (same : (w.step a).openDevices = w.openDevices)
  | skips (skips : w.Skips a) (cached : b = w.sBaudrate)
      (same : (w.step a).openDevices = w.openDevices)
  | sets (coding : LineCoding) (client : w.client = .lineCodingSet b coding)
      (changed : (w.step a).openDevices = (w.setCoding coding).openDevices)

theorem answer_of_news {w : DeviceRelay} {a : DeviceInput} {b : UInt32}
    (mem : .baudrateAnswered b b ∈ w.news (w.step a)) : w.Answer a b := by
  have silent {n : DeviceRelay} (log : n.log = w.log) : .baudrateAnswered b b ∉ w.news n := by
    rw [news_same log]
    exact List.not_mem_nil
  have noted {n : DeviceRelay} (rs : List DeviceRecord) (log : n.log = w.log ++ rs)
      (mem : .baudrateAnswered b b ∈ w.news n) : .baudrateAnswered b b ∈ rs := by
    rwa [news_of_log rs log] at mem
  cases running : w.aborted with
  | true => exact absurd mem (silent (congrArg log (if_pos running)))
  | false =>
    have move := handle_move w a
    rw [← step_of_running a running] at move
    generalize after : w.step a = n at move mem
    cases move with
    | rests | openFails | opens | resets | drives | driveFails | takes | closes | closeFails | gives
    | storesLine | asks | stores | sends => exact absurd mem (silent rfl)
    | unknown | onlyStores | gets | missesCoding | refuses | sent =>
      cases List.mem_singleton.mp (noted [_] rfl mem)
    | setsLines | missesLines =>
      have both := noted [_, _] (List.append_assoc ..) mem
      simp at both
    | echoes gone =>
      refine .noDevice gone ?_
      rw [after]
      rfl
    | skips client =>
      cases List.mem_singleton.mp (noted [_] rfl mem)
      refine .skips ⟨running, rfl, client⟩ rfl ?_
      rw [after]
      rfl
    | @sets baudrate coding client =>
      have both := noted [_, _] (List.append_assoc ..) mem
      simp only [List.mem_cons, reduceCtorEq, false_or, List.not_mem_nil, or_false,
        DeviceRecord.baudrateAnswered.injEq, and_self] at both
      subst both
      refine .sets coding client ?_
      rw [after]
      rfl

theorem step_skips {w : DeviceRelay} {a : DeviceInput} (h : w.Skips a) :
    w.step a = (w.goto .idle).note (.baudrateAnswered w.sBaudrate w.sBaudrate) := by
  obtain ⟨running, rfl, client⟩ := h
  rw [step_of_running _ running]
  simp only [handle, compareBaudrate, client, if_true]

theorem rateConfirmed_iff {w : DeviceRelay} (tracked : w.Tracked) (asked : w.CodingAsked)
    (a : DeviceInput) : w.RateConfirmed a ↔ w.SkipsAtRate a := by
  constructor
  · intro confirmed skips
    have answered : .baudrateAnswered w.sBaudrate w.sBaudrate ∈ w.news (w.step a) := by
      rw [step_skips skips, news_of_log [_] rfl]
      exact List.mem_singleton_self _
    have at_rate := confirmed w.sBaudrate answered
    rw [step_skips skips] at at_rate
    exact at_rate
  · intro skipping b mem
    cases answer_of_news mem with
    | noDevice gone same =>
      intro d listed
      rw [same] at listed
      have own := tracked.own d listed
      rw [gone] at own
      cases own
    | skips skips cached same =>
      rw [AtRate, same, cached]
      exact skipping skips
    | sets coding client changed =>
      rw [AtRate, changed]
      exact atRate_setCoding tracked (asked b coding client)

/-! Runs. -/

/-- `on_baudrate` has stored this rate and not yet set it. -/
def Setting (w : DeviceRelay) (b : UInt32) : Prop :=
  w.client = .lineCodingGet b ∨ ∃ coding, w.client = .lineCodingSet b coding

def Asking (w : DeviceRelay) : Prop := (∃ b, w.client = .compareBaudrate b) ∨ ∃ b, w.Setting b

/-- Every device starts at 115200 baud, and `on_baudrate` does not run between the open and the
assignment of 115200 to `s_baudrate`. -/
def OpensAtDefault (w : DeviceRelay) : DeviceInput → Prop
  | .openReturns device _ =>
    w.relayTask = .opening → ∀ handle coding, device = some (handle, coding) →
      coding.dwDTERate = 115200 ∧ ¬ w.Asking
  | .onBaudrate _ => w.relayTask ≠ .resetBaudrate
  | _ => True

/-- `s_baudrate` is the rate of the device, or on the way to it. -/
structure RateCached (w : DeviceRelay) : Prop where
  reset : w.relayTask = .resetBaudrate → w.AtRate 115200 ∧ ¬ w.Asking
  setting : w.relayTask ≠ .resetBaudrate → ∀ b, w.Setting b → w.sBaudrate = b
  settled : w.relayTask ≠ .resetBaudrate → (∀ b, ¬ w.Setting b) → w.AtRate w.sBaudrate

/-- Steps that keep the rates, the client and the relay task as far as they matter here. -/
theorem RateCached.same {w n : DeviceRelay} (h : w.RateCached)
    (rates : ∀ b, w.AtRate b → n.AtRate b) (cached : n.sBaudrate = w.sBaudrate)
    (task : n.relayTask = .resetBaudrate ↔ w.relayTask = .resetBaudrate)
    (setting : ∀ b, n.Setting b ↔ w.Setting b) (asking : n.Asking → w.Asking) : n.RateCached where
  reset at_reset := by
    obtain ⟨rate, unasked⟩ := h.reset (task.mp at_reset)
    exact ⟨rates _ rate, fun now => unasked (asking now)⟩
  setting away b now := by
    rw [cached]
    exact h.setting (fun at_reset => away (task.mpr at_reset)) b ((setting b).mp now)
  settled away unset := by
    rw [cached]
    exact rates _ (h.settled (fun at_reset => away (task.mpr at_reset))
      fun b now => unset b ((setting b).mpr now))

/-- The client goes from one point outside the callback of the rate to another. -/
theorem RateCached.elsewhere {w n : DeviceRelay} (h : w.RateCached)
    (rates : ∀ b, w.AtRate b → n.AtRate b) (cached : n.sBaudrate = w.sBaudrate)
    (task : n.relayTask = w.relayTask) (before : ¬ w.Asking) (after : ¬ n.Asking) :
    n.RateCached :=
  h.same rates cached (by rw [task])
    (fun b => iff_of_false (fun now => after (.inr ⟨b, now⟩)) fun now => before (.inr ⟨b, now⟩))
    fun now => absurd now after

/-- The client's thread is at no call of `on_baudrate`. -/
inductive OffRate : ClientThread → Prop
  | idle : OffRate .idle
  | lines (control : UInt32) : OffRate (.setControlLineState control)
  | data (data : List UInt8) : OffRate (.dataTx data)

theorem not_asking {w : DeviceRelay} {client : ClientThread} (at_point : w.client = client)
    (off : OffRate client) : ¬ w.Asking := by
  rintro (⟨b, now⟩ | ⟨b, now | ⟨coding, now⟩⟩)
  all_goals
    cases at_point.symm.trans now
    cases off

/-- While `on_baudrate` runs, the relay task is not between an open and its reset. -/
theorem RateCached.away {w : DeviceRelay} (h : w.RateCached) (asking : w.Asking) :
    w.relayTask ≠ .resetBaudrate := fun at_reset => (h.reset at_reset).2 asking

theorem opens_rateCached {w : DeviceRelay} (tracked : w.Tracked) (opening : w.relayTask = .opening)
    (handle : Handle) {coding : LineCoding} (rate : coding.dwDTERate = 115200)
    (unasked : ¬ w.Asking) :
    ({ w with
        cdcDev := some handle
        openDevices := ⟨handle, coding, none⟩ :: w.openDevices
        relayTask := .resetBaudrate } : DeviceRelay).RateCached := by
  have none_open : w.openDevices = [] := List.map_eq_nil_iff.mp (tracked.none_open opening)
  refine ⟨fun _ => ⟨?_, unasked⟩, fun away => absurd rfl away, fun away => absurd rfl away⟩
  intro d mem
  rw [none_open] at mem
  rw [List.mem_singleton.mp mem]
  exact rate

theorem RateCached.resets {w : DeviceRelay} (h : w.RateCached)
    (at_reset : w.relayTask = .resetBaudrate) :
    ({ w with sBaudrate := 115200, relayTask := .driveLines } : DeviceRelay).RateCached := by
  obtain ⟨rate, unasked⟩ := h.reset at_reset
  exact ⟨by simp, fun _ b now => absurd (.inr ⟨b, now⟩) unasked, fun _ _ => rate⟩

theorem RateCached.skips {w : DeviceRelay} (h : w.RateCached)
    (client : w.client = .compareBaudrate w.sBaudrate) :
    ((w.goto .idle).note (.baudrateAnswered w.sBaudrate w.sBaudrate)).RateCached := by
  have away := h.away (.inl ⟨w.sBaudrate, client⟩)
  have settled : w.AtRate w.sBaudrate := by
    refine h.settled away fun b now => ?_
    rcases now with now | ⟨coding, now⟩
    · cases client.symm.trans now
    · cases client.symm.trans now
  refine ⟨fun at_reset => absurd at_reset away, fun _ b now => ?_, fun _ _ => settled⟩
  rcases now with now | ⟨coding, now⟩
  · cases now
  · cases now

theorem RateCached.stores {w : DeviceRelay} (h : w.RateCached) {baudrate : UInt32}
    (client : w.client = .compareBaudrate baudrate) :
    ({ w with sBaudrate := baudrate, client := .lineCodingGet baudrate } :
      DeviceRelay).RateCached := by
  have away := h.away (.inl ⟨baudrate, client⟩)
  refine ⟨fun at_reset => absurd at_reset away, fun _ b now => ?_, fun _ unset => ?_⟩
  · rcases now with now | ⟨coding, now⟩
    · cases now
      rfl
    · cases now
  · exact absurd (.inl rfl) (unset baudrate)

theorem RateCached.gets {w : DeviceRelay} (h : w.RateCached) {baudrate : UInt32}
    (client : w.client = .lineCodingGet baudrate) (coding : LineCoding) :
    ((w.call .lineCodingGet).goto (.lineCodingSet baudrate coding)).RateCached := by
  have setting : w.Setting baudrate := .inl client
  have away := h.away (.inr ⟨baudrate, setting⟩)
  refine ⟨fun at_reset => absurd at_reset away, fun _ b now => ?_, fun _ unset => ?_⟩
  · rcases now with now | ⟨coding, now⟩
    · cases now
    · cases now
      exact h.setting away baudrate setting
  · exact absurd (.inr ⟨_, rfl⟩) (unset baudrate)

theorem RateCached.sets {w : DeviceRelay} (h : w.RateCached) (tracked : w.Tracked)
    (asked : w.CodingAsked) {baudrate : UInt32} {coding : LineCoding}
    (client : w.client = .lineCodingSet baudrate coding) :
    ((((w.call (.lineCodingSet coding)).setCoding coding).goto .idle).note
      (.baudrateAnswered baudrate baudrate)).RateCached := by
  have setting : w.Setting baudrate := .inr ⟨coding, client⟩
  have away := h.away (.inr ⟨baudrate, setting⟩)
  refine ⟨fun at_reset => absurd at_reset away, fun _ b now => ?_, fun _ _ => ?_⟩
  · rcases now with now | ⟨other, now⟩
    · cases now
    · cases now
  · have rate := atRate_setCoding tracked (asked baudrate coding client)
    rw [← h.setting away baudrate setting] at rate
    exact rate

theorem move_rateCached {w n : DeviceRelay} {a : DeviceInput} (h : w.RateCached)
    (tracked : w.Tracked) (asked : w.CodingAsked) (move : w.Move a n)
    (allowed : w.OpensAtDefault a) : n.RateCached := by
  have other {m : DeviceRelay} {before after : ClientThread} (at_point : w.client = before)
      (off : OffRate before) (at_next : m.client = after) (off' : OffRate after)
      (rates : ∀ b, w.AtRate b → m.AtRate b) (cached : m.sBaudrate = w.sBaudrate)
      (task : m.relayTask = w.relayTask) : m.RateCached :=
    h.elsewhere rates cached task (not_asking at_point off) (not_asking at_next off')
  cases move with
  | rests => exact h
  | opens opening handle coding clears =>
    obtain ⟨rate, unasked⟩ := allowed opening handle coding rfl
    exact opens_rateCached tracked opening handle rate unasked
  | resets at_reset => exact h.resets at_reset
  | drives at_drive =>
    refine h.same (fun b rate => (atRate_setLines true false).mpr rate) rfl ?_
      (fun _ => Iff.rfl) id
    simp [at_drive]
  | takes waiting =>
    refine h.same (fun _ => id) rfl ?_ (fun _ => Iff.rfl) id
    simp [waiting]
  | closes =>
    exact h.same (fun b rate d mem => rate d (List.mem_filter.mp mem).1) rfl Iff.rfl
      (fun _ => Iff.rfl) id
  | openFails | driveFails | closeFails | gives | unknown | onlyStores | echoes | missesCoding
  | refuses => exact h.same (fun _ => id) rfl Iff.rfl (fun _ => Iff.rfl) id
  | storesLine idle => exact other idle .idle rfl (.lines _) (fun _ => id) rfl rfl
  | setsLines client =>
    exact other client (.lines _) rfl .idle
      (fun b rate => (atRate_setLines (w := w) w.sDtr w.sRts).mpr rate) rfl rfl
  | missesLines client => exact other client (.lines _) rfl .idle (fun _ => id) rfl rfl
  | asks idle baudrate =>
    have before := not_asking idle .idle
    refine ⟨fun at_reset => absurd at_reset allowed, fun _ b now => ?_, fun away _ => ?_⟩
    · rcases now with now | ⟨coding, now⟩
      · cases now
      · cases now
    · exact h.settled away fun b now => before (.inr ⟨b, now⟩)
  | skips client => exact h.skips client
  | stores client => exact h.stores client
  | gets client => exact h.gets client _
  | sets client => exact h.sets tracked asked client
  | sends idle => exact other idle .idle rfl (.data _) (fun _ => id) rfl rfl
  | sent client => exact other client (.data _) rfl .idle (fun _ => id) rfl rfl

/-- `cdc_dev` is the open device, and what is set is what was asked for. -/
structure RateTracked (w : DeviceRelay) : Prop where
  tracked : w.Tracked
  asked : w.CodingAsked

theorem step_rateTracked {w : DeviceRelay} (h : w.RateTracked) (a : DeviceInput) :
    (w.step a).RateTracked := by
  refine ⟨step_tracked h.tracked a, ?_⟩
  unfold step
  split
  · exact h.asked
  · exact move_codingAsked h.asked (handle_move w a)

theorem step_rateCached {w : DeviceRelay} (h : w.RateCached) (kept : w.RateTracked)
    (a : DeviceInput) (allowed : w.OpensAtDefault a) : (w.step a).RateCached := by
  unfold step
  split
  · exact h
  · exact move_rateCached h kept.tracked kept.asked (handle_move w a) allowed

theorem RateCached.skipsAtRate {w : DeviceRelay} (h : w.RateCached) (a : DeviceInput) :
    w.SkipsAtRate a := by
  rintro ⟨-, -, client⟩
  have asking : w.Asking := .inl ⟨w.sBaudrate, client⟩
  refine h.settled (fun at_reset => (h.reset at_reset).2 asking) fun b now => ?_
  rcases now with now | ⟨coding, now⟩
  · cases client.symm.trans now
  · cases client.symm.trans now

theorem start_rateTracked : start.RateTracked := ⟨start_tracked, nofun⟩

theorem start_rateCached : start.RateCached :=
  ⟨nofun, fun _ b now => absurd now (by simp [Setting, start]), fun _ _ => List.forall_mem_nil _⟩

/-- The rates that `on_baudrate` confirms are the device's exactly in the runs in which the device
has the rate in `s_baudrate` whenever the driver call is skipped. It does as long as every device
starts at 115200 baud and no request falls between its open and the reset of `s_baudrate`. -/
theorem rate_confirmed_iff (as : List DeviceInput) :
    (Runs.Along step RateConfirmed start as ↔ Runs.Along step SkipsAtRate start as) ∧
      (Runs.Along step OpensAtDefault start as → Runs.Along step RateConfirmed start as) := by
  have same : Runs.Along step RateConfirmed start as ↔ Runs.Along step SkipsAtRate start as :=
    Runs.along_congr_of_invariant (I := RateTracked) (fun _ a h _ => step_rateTracked h a)
      (fun _ a h => rateConfirmed_iff h.tracked h.asked a) start start_rateTracked as
  refine ⟨same, fun allowed => same.mpr ?_⟩
  refine Runs.along_of_guarded_invariant (P := fun w => w.RateTracked ∧ w.RateCached) ?_ ?_ start
    ⟨start_rateTracked, start_rateCached⟩ as allowed
  · rintro w a ⟨kept, cached⟩ now
    exact ⟨step_rateTracked kept a, step_rateCached cached kept a now⟩
  · rintro w a ⟨-, cached⟩ -
    exact cached.skipsAtRate a

/-- A device that starts at 9600 baud, and a first request for 115200. -/
def firstRequestDefault : List DeviceInput :=
  [.openReturns (some (7, ⟨9600, 0, 0, 8⟩)) false, .resetBaudrate, .driveLines true,
    .onBaudrate 115200, .compareBaudrate]

/-- 115200 is confirmed, and the device stays at 9600. -/
theorem default_rate_not_set : ¬ Runs.Along step RateConfirmed start firstRequestDefault := by
  rintro ⟨-, -, -, -, confirmed, -⟩
  have at_rate := confirmed 115200 (by decide) ⟨7, ⟨9600, 0, 0, 8⟩, some (true, false)⟩ (by decide)
  exact absurd at_rate (by decide)

end DeviceRelay

end Rocom.SerialPort
