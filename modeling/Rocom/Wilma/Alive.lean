import Rocom.Wilma.Manager

/-! Whether the manager still has something to wait for. What a step does to that is read off a
small part of its state, its outlook. -/
namespace Rocom.Wilma

open CString

structure Outlook where
  bits : EventBits
  retryTimer : Bool
  queue : List Order
  listed : Nat
  anySaved : Bool
  running : Bool
  attempts : Nat
  linked : Bool
  scanning : Bool

/-- An unanswered connect call, a scan, the retry timer or an order. -/
def Outlook.Pending (o : Outlook) : Prop :=
  0 < o.attempts ∨ o.scanning = true ∨ o.retryTimer = true ∨ o.queue ≠ []

instance (o : Outlook) : Decidable o.Pending :=
  inferInstanceAs (Decidable (0 < o.attempts ∨ o.scanning = true ∨ o.retryTimer = true ∨ o.queue ≠ []))

theorem Outlook.not_pending_iff {o : Outlook} : ¬ o.Pending ↔
    o.attempts = 0 ∧ o.scanning = false ∧ o.retryTimer = false ∧ o.queue = [] := by
  simp [Outlook.Pending]

/-- With a saved station and no link, something is pending. -/
def Outlook.Alive (o : Outlook) : Prop :=
  o.running = true → o.anySaved = true → o.linked = false → o.Pending

instance (o : Outlook) : Decidable o.Alive :=
  inferInstanceAs (Decidable (o.running = true → o.anySaved = true → o.linked = false → o.Pending))

/-- The event bits follow the driver: SCAN exactly, CONNECTING as long as there is a candidate
to connect to. -/
structure Outlook.Tracked (o : Outlook) : Prop where
  scan : o.bits.scan = o.scanning
  connecting : o.bits.connecting = true →
    0 < o.attempts ∨ o.linked = true ∨ o.scanning = true ∨ o.listed = 0
  short : o.listed ≤ wilmaMaxCandidateStations

namespace Manager

def outlook (m : Manager) : Outlook where
  bits := m.bits
  retryTimer := m.retryTimer
  queue := m.queue
  listed := m.lists.connectionList.length
  anySaved := !(stations m.saved).isEmpty
  running := m.running
  attempts := m.attempts
  linked := m.linked
  scanning := m.scanning

section Effects
variable (p : Platform) (m : Manager)

@[simp] theorem outlook_espWifiSetConfig (conf : Credentials) :
    (m.espWifiSetConfig conf).outlook = m.outlook := rfl

@[simp] theorem outlook_timerStart :
    m.timerStart.outlook = { m.outlook with retryTimer := true } := rfl

@[simp] theorem outlook_softap (forceOn : Bool) : (m.softap p forceOn).outlook = m.outlook := rfl

@[simp] theorem outlook_beginConnecting :
    m.beginConnecting.outlook =
      { m.outlook with
        bits := { m.outlook.bits with connecting := true }
        attempts := m.outlook.attempts + 1 } := rfl

theorem outlook_clearStaConfig :
    ∃ told, m.clearStaConfig.outlook =
      { m.outlook with
        bits := { m.outlook.bits with
          disconnected := told
          connected := false
          connecting := false } } := by
  rw [clearStaConfig_eq]
  exact ⟨m.bits.disconnected || m.bits.connected, rfl⟩

theorem anySaved_updateSsidState (saved : Saved) (ssid : Field 32) (newState : StaState) :
    (stations (updateSsidState saved .none ssid newState).1).isEmpty = (stations saved).isEmpty := by
  unfold updateSsidState
  cases loaded : (getSavedStations saved .none).1 with
  | none => rfl
  | some entries =>
    dsimp only
    split
    · split
      · rfl
      · rw [stations_update, load_eq_some loaded]
        cases entries <;> simp
    · rfl

@[simp] theorem outlook_storeSsidState (ssid : Field 32) (newState : StaState) :
    (m.storeSsidState ssid newState).outlook = m.outlook := by
  unfold outlook storeSsidState
  rw [anySaved_updateSsidState]

@[simp] theorem outlook_noteAuthFailure (ssid : Field 32) (reason : UInt8) :
    (m.noteAuthFailure ssid reason).outlook = m.outlook := by
  unfold noteAuthFailure
  split
  · exact outlook_storeSsidState m ssid .authFailure
  · rfl

theorem noteAuthFailure_index (ssid : Field 32) (reason : UInt8) :
    (m.noteAuthFailure ssid reason).connectionIndex = m.connectionIndex := by
  unfold noteAuthFailure
  split <;> rfl

@[simp] theorem outlook_connectToStationIndex (index : UInt32) :
    (m.connectToStationIndex p index).1.outlook = m.outlook := by
  rcases connectToStationIndex_cases p m index with ⟨_, failed⟩ | ⟨chosen, entry, _, made⟩
  · rw [failed]
    rfl
  · rw [made]
    rfl

/-- The call fails exactly when there is no candidate. -/
theorem connectToStationIndex_err (index : UInt32) :
    (m.connectToStationIndex p index).2 = espOk ↔ m.outlook.listed ≠ 0 := by
  rcases connectToStationIndex_cases p m index with ⟨none_listed, failed⟩ | ⟨_, _, found, made⟩
  · simp [failed, outlook, none_listed]
  · have listed := List.ne_nil_of_mem (List.mem_of_getElem? found)
    simp [made, outlook, listed]

theorem nextStationLeft_iff {index : UInt32} {count : Nat} (some_listed : count ≠ 0)
    (short : count ≤ wilmaMaxCandidateStations) :
    nextStationLeft index count = true ↔ index.toNat + 1 < count := by
  have small : count ≤ 4 := short
  unfold nextStationLeft
  rw [decide_eq_true_iff]
  omega

/-- Moving on ends in a connect call only when there is no candidate. -/
theorem nextStation_outlook :
    (m.outlook.listed = 0 ∧ (m.nextStation p).outlook =
      { m.outlook with
        bits := { m.outlook.bits with connecting := true }
        attempts := m.outlook.attempts + 1 }) ∨
    (m.outlook.listed ≠ 0 ∧ nextStationLeft m.connectionIndex m.outlook.listed = true ∧
      (m.nextStation p).outlook = m.outlook) ∨
    (nextStationLeft m.connectionIndex m.outlook.listed = false ∧
      ∃ told, (m.nextStation p).outlook =
        { m.outlook with
          bits := { m.outlook.bits with
            disconnected := told
            connected := false
            connecting := false }
          retryTimer := true }) := by
  have connects := connectToStationIndex_err p m (m.connectionIndex + 1)
  unfold nextStation
  dsimp only
  split
  · rename_i left
    split
    · rename_i failed
      have none_listed := not_not.mp (connects.not.mp fun ok => failed ok.symm)
      refine Or.inl ⟨none_listed, ?_⟩
      show { (beginConnecting _).outlook with .. } = _
      rw [outlook_beginConnecting, outlook_connectToStationIndex]
    · rename_i connected
      have listed := connects.mp (not_not.mp connected).symm
      exact Or.inr (Or.inl ⟨listed, left, outlook_connectToStationIndex p m _⟩)
  · rename_i last
    obtain ⟨told, cleared⟩ := outlook_clearStaConfig m
    refine Or.inr (Or.inr ⟨Bool.eq_false_iff.mpr last, told, ?_⟩)
    rw [outlook_timerStart, outlook_softap, cleared]

/-- The retries are used up, a further candidate is there, and no bit says otherwise. -/
def MovesOn : Prop :=
  m.bits.retryConnection = false ∧ m.bits.disconnected = false ∧ m.bits.scan = false ∧
    wilmaRetriesBeforeContinuing ≤ m.retryNum ∧
    m.connectionIndex.toNat + 1 < m.lists.connectionList.length

/-- Issued a connect call or started the timer, with CONNECTING left only without candidates. -/
def TriesAgain (o n : Outlook) : Prop :=
  ∃ bits : EventBits, bits.scan = o.bits.scan ∧
    (n = { o with bits := bits, attempts := o.attempts + 1 } ∨
      (bits.connecting = true → o.listed = 0) ∧ n = { o with bits := bits, retryTimer := true })

theorem retriesExhausted_outlook (short : m.outlook.listed ≤ wilmaMaxCandidateStations)
    (ssid : Field 32) (reason : UInt8) :
    (¬ m.connectionIndex.toNat + 1 < m.outlook.listed ∧
      TriesAgain m.outlook (m.retriesExhausted p ssid reason).outlook) ∨
    (m.connectionIndex.toNat + 1 < m.outlook.listed ∧
      (m.retriesExhausted p ssid reason).outlook =
        { m.outlook with bits := { m.bits with fail := true, connecting := false } }) := by
  unfold retriesExhausted
  have noted : ((m.setBits ({ · with fail := true, connecting := false })).noteAuthFailure ssid
      reason).outlook = { m.outlook with bits := { m.bits with fail := true, connecting := false } } :=
    outlook_noteAuthFailure _ ssid reason
  have index := noteAuthFailure_index (m.setBits ({ · with fail := true, connecting := false }))
    ssid reason
  generalize (m.setBits ({ · with fail := true, connecting := false })).noteAuthFailure ssid
    reason = x at noted index
  have next_iff : m.outlook.listed ≠ 0 → (nextStationLeft x.connectionIndex x.outlook.listed = true ↔
      m.connectionIndex.toNat + 1 < m.outlook.listed) := by
    intro listed
    rw [index, noted]
    exact nextStationLeft_iff listed short
  rcases nextStation_outlook p x with ⟨none_listed, next⟩ | ⟨listed, left, next⟩ | ⟨last, told, next⟩
  · have zero : m.outlook.listed = 0 := by
      rw [noted] at none_listed
      exact none_listed
    rw [next, noted]
    refine Or.inl ⟨by omega, { m.bits with fail := true, connecting := true }, rfl, Or.inl rfl⟩
  · rw [noted] at listed
    refine Or.inr ⟨(next_iff listed).mp left, ?_⟩
    rw [next, noted]
  · have stays : ¬ m.connectionIndex.toNat + 1 < m.outlook.listed := by
      intro further
      have listed : m.outlook.listed ≠ 0 := by omega
      exact Bool.eq_false_iff.mp last ((next_iff listed).mpr further)
    rw [next, noted]
    exact Or.inl ⟨stays, { m.bits with
      disconnected := told, fail := true, connected := false, connecting := false }, rfl,
      Or.inr ⟨nofun, rfl⟩⟩

/-- STA_DISCONNECTED tries again or leaves it to the end of a scan, unless it moves on. -/
theorem staDisconnected_outlook (short : m.outlook.listed ≤ wilmaMaxCandidateStations)
    (ssid : Field 32) (reason : UInt8) :
    (¬ m.MovesOn ∧
      (TriesAgain m.outlook (m.staDisconnected p ssid reason).outlook ∨
        m.bits.scan = true ∧ (m.staDisconnected p ssid reason).outlook = m.outlook)) ∨
    (m.MovesOn ∧ (m.staDisconnected p ssid reason).outlook =
      { m.outlook with bits := { m.bits with fail := true, connecting := false } }) := by
  unfold staDisconnected
  dsimp only
  split
  · rename_i retry
    have stays : ¬ m.MovesOn := fun moves => Bool.eq_false_iff.mp moves.1 retry
    exact Or.inl ⟨stays, Or.inl ⟨{ m.bits with retryConnection := false }, rfl, Or.inl rfl⟩⟩
  rename_i retry
  split
  · rename_i told
    have stays : ¬ m.MovesOn := fun moves => Bool.eq_false_iff.mp moves.2.1 told
    have connects :=
      connectToStationIndex_err p (m.setBits ({ · with disconnected := false })) 0
    refine Or.inl ⟨stays, Or.inl ?_⟩
    split
    · rename_i failed
      have none_listed := not_not.mp (connects.not.mp fun ok => failed ok.symm)
      refine ⟨{ m.bits with disconnected := false }, rfl, Or.inr ⟨fun _ => none_listed, ?_⟩⟩
      rw [outlook_timerStart, outlook_connectToStationIndex]
      rfl
    · refine ⟨{ m.bits with disconnected := false, connecting := true }, rfl, Or.inl ?_⟩
      rw [outlook_beginConnecting, outlook_connectToStationIndex]
      rfl
  rename_i told
  split
  · rename_i scan
    have stays : ¬ m.MovesOn := fun moves => Bool.eq_false_iff.mp moves.2.2.1 scan
    exact Or.inl ⟨stays, Or.inr ⟨scan, rfl⟩⟩
  rename_i scan
  split
  · rename_i retries
    have stays : ¬ m.MovesOn := fun moves => Nat.not_lt.mpr moves.2.2.2.1 retries
    exact Or.inl ⟨stays, Or.inl ⟨m.bits, rfl, Or.inl rfl⟩⟩
  rename_i exhausted
  rcases retriesExhausted_outlook p m short ssid reason with ⟨last, tries⟩ | ⟨further, n⟩
  · exact Or.inl ⟨fun moves => last moves.2.2.2.2, Or.inl tries⟩
  · refine Or.inr ⟨⟨?_, ?_, ?_, Nat.le_of_not_lt exhausted, further⟩, n⟩
    · exact Bool.eq_false_iff.mpr retry
    · exact Bool.eq_false_iff.mpr told
    · exact Bool.eq_false_iff.mpr scan

theorem outlook_startScan :
    m.startScan.outlook = if m.bits.scan then m.outlook else
      { m.outlook with bits := { m.bits with scan := true }, scanning := true } := by
  unfold startScan
  split <;> rfl

theorem outlook_initiateConnection :
    m.initiateConnection.outlook =
      if m.bits.scan || m.bits.connecting then
        { m.outlook with bits := { m.bits with retryConnection := true } }
      else { m.outlook with attempts := m.attempts + 1 } := by
  unfold initiateConnection
  split <;> rfl

theorem outlook_refreshLists (short : m.outlook.listed ≤ wilmaMaxCandidateStations)
    (r : ScanResult) :
    ∃ listed ≤ wilmaMaxCandidateStations,
      (m.refreshLists p r).outlook = { m.outlook with listed := listed } := by
  refine ⟨(m.refreshLists p r).outlook.listed, ?_, rfl⟩
  rcases updateSsidList_list p.qsort m.saved r m.lists with kept | ⟨records, made⟩
  · exact (congrArg List.length kept).trans_le short
  · exact (congrArg List.length made).trans_le (length_candidates _ records)

theorem outlook_resumeAfterScan :
    m.resumeAfterScan.outlook =
      if m.bits.connected || m.bits.connecting then
        { m.outlook with attempts := m.attempts + 1 }
      else if m.bits.connectAfterScan then
        { m.outlook with
          bits := { m.bits with connectAfterScan := false }
          queue := m.queue ++ [.connectSta none] }
      else m.outlook := by
  unfold resumeAfterScan
  split
  · rfl
  · split <;> rfl

end Effects

/-- The step after which nothing is pending. -/
def Strands (m : Manager) (a : Input) : Prop :=
  m.running = true ∧ m.queue = [] ∧
    match a with
    -- a further candidate is configured, but nothing connects to it
    | .staDisconnected _ _ answered =>
      m.MovesOn ∧ stations m.saved ≠ [] ∧ m.attempts ≤ answered ∧ m.retryTimer = false
    -- a scan that was not started to connect, while nothing was connected
    | .scanDone _ =>
      m.bits.connected = false ∧ m.bits.connecting = false ∧ m.bits.connectAfterScan = false ∧
        stations m.saved ≠ [] ∧ m.linked = false ∧ m.attempts = 0 ∧ m.retryTimer = false
    -- an address without a link stops the timer
    | .gotIp =>
      stations m.saved ≠ [] ∧ m.linked = false ∧ m.attempts = 0 ∧ m.scanning = false
    -- the first station is stored, and no scan is made for it
    | .addSsid _ _ =>
      stations m.saved = [] ∧ m.lists.connectionList = [] ∧ m.linked = false ∧ m.attempts = 0 ∧
        m.scanning = false ∧ m.retryTimer = false
    | _ => False

/-- A step that keeps the bits tracked and stays alive unless it strands. -/
structure Sound (m n : Manager) (strands : Prop) : Prop where
  tracked : m.outlook.Tracked → n.outlook.Tracked
  alive : m.outlook.Tracked → m.outlook.Alive → (n.outlook.Alive ↔ ¬ strands)

theorem Sound.of_pending {m n : Manager} (tracked : m.outlook.Tracked → n.outlook.Tracked)
    (pending : m.outlook.Tracked → n.outlook.linked = false → n.outlook.Pending) :
    Sound m n False where
  tracked := tracked
  alive t _ := iff_of_true (fun _ _ unlinked => pending t unlinked) not_false

/-- Nothing the outlook shows has changed, but stations may be gone. -/
theorem Sound.of_outlook {m n : Manager} {anySaved : Bool}
    (fewer : anySaved = true → m.outlook.anySaved = true)
    (same : n.outlook = { m.outlook with anySaved := anySaved }) : Sound m n False where
  tracked t := by
    rw [same]
    exact ⟨t.scan, t.connecting, t.short⟩
  alive _ alive := by
    refine iff_of_true ?_ not_false
    rw [same]
    intro running any unlinked
    exact alive running (fewer any) unlinked

theorem sendMessage_sound (m : Manager) (order : Order) : Sound m (m.sendMessage order) False := by
  apply Sound.of_pending
  · intro t
    exact ⟨t.scan, t.connecting, t.short⟩
  · intro _ _
    exact Or.inr (Or.inr (Or.inr (List.concat_ne_nil _ _)))

theorem startScan_sound (m : Manager) (rest : List Order) (after : Bool) :
    Sound m (({ m with queue := rest }.setBits
      fun b => { b with connectAfterScan := after || b.connectAfterScan }).startScan) False := by
  apply Sound.of_pending
  · intro t
    rw [outlook_startScan]
    split
    · exact ⟨t.scan, t.connecting, t.short⟩
    · exact ⟨rfl, fun _ => Or.inr (Or.inr (Or.inl rfl)), t.short⟩
  · intro t _
    rw [outlook_startScan]
    split
    · rename_i scan
      exact Or.inr (Or.inl (t.scan.symm.trans scan))
    · exact Or.inr (Or.inl rfl)

theorem forgetConfig_sound (p : Platform) (m : Manager) (rest : List Order) :
    Sound m (({ m with queue := rest }).forgetConfig p) False := by
  obtain ⟨told, cleared⟩ :=
    outlook_clearStaConfig { m with queue := rest, saved := none, ap := .erased }
  have whole : (({ m with queue := rest }).forgetConfig p).outlook = _ := cleared
  constructor
  · intro t
    rw [whole]
    exact ⟨t.scan, nofun, t.short⟩
  · intro _ _
    rw [whole]
    exact iff_of_true (fun _ any => nomatch any) not_false

/-- With a candidate, CONNECTING stands for an attempt, a link or a scan. -/
theorem initiateConnection_sound {m n : Manager}
    (tracked : m.outlook.Tracked → n.outlook.Tracked)
    (listed : n.bits.connecting = true → n.outlook.listed ≠ 0) :
    Sound m n.initiateConnection False := by
  apply Sound.of_pending
  · intro t
    have held := tracked t
    rw [outlook_initiateConnection]
    split
    · exact ⟨held.scan, held.connecting, held.short⟩
    · exact ⟨held.scan, fun _ => Or.inl (Nat.succ_pos _), held.short⟩
  · intro t unlinked
    have held := tracked t
    rw [outlook_initiateConnection] at unlinked ⊢
    split at unlinked
    · rename_i busy
      rw [if_pos busy]
      rcases Bool.or_eq_true_iff.mp busy with scan | connecting
      · exact Or.inr (Or.inl (held.scan.symm.trans scan))
      · rcases held.connecting connecting with attempt | linked | scanning | empty
        · exact Or.inl attempt
        · exact absurd linked (Bool.eq_false_iff.mp unlinked)
        · exact Or.inr (Or.inl scanning)
        · exact absurd empty (listed connecting)
    · rename_i idle
      rw [if_neg idle]
      exact Or.inl (Nat.succ_pos _)

theorem connectStaOrder_sound (p : Platform) (m : Manager) (rest : List Order)
    (param : Option Credentials) :
    Sound m (({ m with queue := rest }).connectStaOrder p param) False := by
  unfold connectStaOrder
  cases param with
  | none =>
    have connects := connectToStationIndex_err p { m with queue := rest, retryNum := 0 } 0
    have same := outlook_connectToStationIndex p { m with queue := rest, retryNum := 0 } 0
    dsimp only
    split
    · rename_i failed
      apply Sound.of_pending
      · intro t
        rw [outlook_timerStart, same]
        exact ⟨t.scan, t.connecting, t.short⟩
      · intro _ _
        exact Or.inr (Or.inr (Or.inl rfl))
    · rename_i connected
      apply initiateConnection_sound
      · intro t
        rw [same]
        exact ⟨t.scan, t.connecting, t.short⟩
      · intro _
        rw [same]
        exact connects.mp (not_not.mp connected).symm
  | some conf =>
    obtain ⟨told, cleared⟩ := outlook_clearStaConfig { m with queue := rest, retryNum := 0 }
    have idle : (clearStaConfig { m with queue := rest, retryNum := 0 }).bits.connecting = false :=
      congrArg (·.bits.connecting) cleared
    apply initiateConnection_sound
    · intro t
      rw [outlook_espWifiSetConfig, cleared]
      exact ⟨t.scan, nofun, t.short⟩
    · intro connecting
      exact absurd connecting (Bool.eq_false_iff.mp idle)

theorem takeOrder_sound (p : Platform) (m : Manager) : Sound m (m.takeOrder p) False := by
  unfold takeOrder
  cases queue : m.queue with
  | nil => exact Sound.of_outlook (fun any => any) rfl
  | cons order rest =>
    cases order with
    | startWifiScan => exact startScan_sound m rest false
    | startWifiScanThenConnect => exact startScan_sound m rest true
    | connectSta param => exact connectStaOrder_sound p m rest param
    | forgetConfig => exact forgetConfig_sound p m rest
    | shutdown =>
      constructor
      · intro t
        exact ⟨t.scan, t.connecting, t.short⟩
      · intro _ _
        exact iff_of_true (fun running => nomatch running) not_false

theorem anySaved_iff (saved : Saved) :
    (!(stations saved).isEmpty) = true ↔ stations saved ≠ [] := by simp

theorem getSavedStationCount_eq (saved : Saved) :
    getSavedStationCount saved = (stations saved).length := by cases saved <;> rfl

theorem retryTimerCb_sound (m : Manager) : Sound m m.retryTimerCb False := by
  unfold retryTimerCb
  dsimp only
  split
  · rename_i empty
    have gone : stations m.saved = [] := by
      apply List.length_eq_zero_iff.mp
      rw [← getSavedStationCount_eq]
      exact Nat.le_zero.mp empty
    constructor
    · intro t
      exact ⟨t.scan, t.connecting, t.short⟩
    · intro _ _
      exact iff_of_true (fun _ any => absurd gone ((anySaved_iff m.saved).mp any)) not_false
  · apply Sound.of_pending
    · intro t
      exact ⟨t.scan, t.connecting, t.short⟩
    · intro _ _
      exact Or.inr (Or.inr (Or.inr (List.concat_ne_nil _ _)))

theorem staConnected_sound (m : Manager) (ssid : Field 32) (ssidLen : UInt8) (answered : Nat) :
    Sound m ((m.linkEvent true answered).staConnected ssid ssidLen) False := by
  unfold staConnected
  dsimp only
  split
  · apply Sound.of_pending
    · intro t
      exact ⟨t.scan, fun _ => Or.inl (Nat.succ_pos _), t.short⟩
    · intro _ _
      exact Or.inl (Nat.succ_pos _)
  · apply Sound.of_pending
    · intro t
      exact ⟨t.scan, fun _ => Or.inr (Or.inl rfl), t.short⟩
    · intro _ unlinked
      exact nomatch unlinked

theorem staDisconnected_sound (p : Platform) (m : Manager) (ssid : Field 32) (reason : UInt8)
    (answered : Nat) (running : m.running = true) :
    Sound m ((m.linkEvent false answered).staDisconnected p ssid reason)
      (Strands m (.staDisconnected ssid reason answered)) := by
  have ways := fun t : m.outlook.Tracked =>
    staDisconnected_outlook p (m.linkEvent false answered) t.short ssid reason
  constructor
  · intro t
    rcases ways t with ⟨_, ⟨bits, same, n | ⟨none_listed, n⟩⟩ | ⟨scan, n⟩⟩ | ⟨_, n⟩
    · rw [n]
      exact ⟨same.trans t.scan, fun _ => Or.inl (Nat.succ_pos _), t.short⟩
    · rw [n]
      exact ⟨same.trans t.scan,
        fun connecting => Or.inr (Or.inr (Or.inr (none_listed connecting))), t.short⟩
    · rw [n]
      exact ⟨t.scan, fun _ => Or.inr (Or.inr (Or.inl (t.scan.symm.trans scan))), t.short⟩
    · rw [n]
      exact ⟨t.scan, nofun, t.short⟩
  · intro t _
    rcases ways t with ⟨stays, n⟩ | ⟨moves, n⟩
    · have pending :
          ((m.linkEvent false answered).staDisconnected p ssid reason).outlook.Pending := by
        rcases n with ⟨bits, same, n | ⟨none_listed, n⟩⟩ | ⟨scan, n⟩
        · rw [n]
          exact Or.inl (Nat.succ_pos _)
        · rw [n]
          exact Or.inr (Or.inr (Or.inl rfl))
        · rw [n]
          exact Or.inr (Or.inl (t.scan.symm.trans scan))
      exact iff_of_true (fun _ _ _ => pending) fun strands => stays strands.2.2.1
    · have quiet : m.scanning = false := t.scan.symm.trans moves.2.2.1
      rw [n]
      constructor
      · rintro alive ⟨_, queue, _, stored, unanswered, timer⟩
        have pending := alive running ((anySaved_iff m.saved).mpr stored) rfl
        exact absurd pending (Outlook.not_pending_iff.mpr
          ⟨Nat.sub_eq_zero_of_le unanswered, quiet, timer, queue⟩)
      · intro free _ any _
        by_contra idle
        obtain ⟨unanswered, _, timer, queue⟩ := Outlook.not_pending_iff.mp idle
        exact free ⟨running, queue, moves, (anySaved_iff m.saved).mp any,
          Nat.le_of_sub_eq_zero unanswered, timer⟩

/-- SCAN_DONE ends with a connect call or an order, unless neither is due. -/
theorem scanDone_outlook (p : Platform) (m : Manager)
    (short : m.outlook.listed ≤ wilmaMaxCandidateStations) (r : ScanResult) :
    ∃ listed ≤ wilmaMaxCandidateStations, (m.scanDone p r).outlook =
      if m.bits.connected || m.bits.connecting then
        { m.outlook with
          bits := { m.bits with scan := false }
          listed := listed
          attempts := m.attempts + 1 }
      else if m.bits.connectAfterScan then
        { m.outlook with
          bits := { m.bits with scan := false, connectAfterScan := false }
          listed := listed
          queue := m.queue ++ [.connectSta none] }
      else { m.outlook with bits := { m.bits with scan := false }, listed := listed } := by
  obtain ⟨listed, le, seen⟩ :=
    outlook_refreshLists p (m.setBits ({ · with scan := false })) short r
  refine ⟨listed, le, ?_⟩
  unfold scanDone
  rw [outlook_resumeAfterScan, seen]
  rfl

theorem scanDone_sound (p : Platform) (m : Manager) (r : ScanResult) (running : m.running = true) :
    Sound m (({ m with scanning := false }).scanDone p r) (Strands m (.scanDone r)) := by
  have ways := fun t : m.outlook.Tracked => scanDone_outlook p { m with scanning := false } t.short r
  constructor
  · intro t
    obtain ⟨listed, short, n⟩ := ways t
    rw [n]
    split
    · exact ⟨rfl, fun _ => Or.inl (Nat.succ_pos _), short⟩
    · rename_i idle
      have unconnected := (Bool.or_eq_false_iff.mp (Bool.eq_false_iff.mpr idle)).2
      split
      · exact ⟨rfl, fun connecting => absurd connecting (Bool.eq_false_iff.mp unconnected), short⟩
      · exact ⟨rfl, fun connecting => absurd connecting (Bool.eq_false_iff.mp unconnected), short⟩
  · intro t _
    obtain ⟨listed, short, n⟩ := ways t
    rw [n]
    split
    · rename_i busy
      refine iff_of_true (fun _ _ _ => Or.inl (Nat.succ_pos _)) ?_
      rintro ⟨_, _, connected, connecting, _⟩
      simp [connected, connecting] at busy
    · rename_i idle
      obtain ⟨connected, connecting⟩ := Bool.or_eq_false_iff.mp (Bool.eq_false_iff.mpr idle)
      split
      · rename_i due
        refine iff_of_true (fun _ _ _ => Or.inr (Or.inr (Or.inr (List.concat_ne_nil _ _)))) ?_
        rintro ⟨_, _, _, _, undue, _⟩
        exact Bool.eq_false_iff.mp undue due
      · rename_i undue
        constructor
        · rintro alive ⟨_, queue, _, _, _, stored, unlinked, unanswered, timer⟩
          have pending := alive running ((anySaved_iff m.saved).mpr stored) unlinked
          exact absurd pending (Outlook.not_pending_iff.mpr ⟨unanswered, rfl, timer, queue⟩)
        · intro free _ any unlinked
          by_contra quiet
          obtain ⟨unanswered, _, timer, queue⟩ := Outlook.not_pending_iff.mp quiet
          exact free ⟨running, queue, connected, connecting, Bool.eq_false_iff.mpr undue,
            (anySaved_iff m.saved).mp any, unlinked, unanswered, timer⟩

theorem gotIp_sound (p : Platform) (m : Manager) (running : m.running = true) :
    Sound m (m.gotIp p) (Strands m .gotIp) := by
  have n : (m.gotIp p).outlook =
      { m.outlook with
        retryTimer := false
        bits := { m.bits with connecting := false, connected := true } } := by
    unfold gotIp
    rw [outlook_softap, outlook_storeSsidState]
    rfl
  constructor
  · intro t
    rw [n]
    exact ⟨t.scan, nofun, t.short⟩
  · intro _ _
    rw [n]
    constructor
    · rintro alive ⟨_, queue, stored, unlinked, unanswered, quiet⟩
      have pending := alive running ((anySaved_iff m.saved).mpr stored) unlinked
      exact absurd pending (Outlook.not_pending_iff.mpr ⟨unanswered, quiet, rfl, queue⟩)
    · intro free _ any unlinked
      by_contra idle
      obtain ⟨unanswered, quiet, _, queue⟩ := Outlook.not_pending_iff.mp idle
      exact free ⟨running, queue, (anySaved_iff m.saved).mp any, unlinked, unanswered, quiet⟩

theorem addSsid_sound (p : Platform) (m : Manager) (ssid password : Str)
    (running : m.running = true) :
    Sound m (m.wilmaAddSsid p ssid password).1 (Strands m (.addSsid ssid password)) := by
  unfold wilmaAddSsid
  dsimp only
  by_cases empty : stations m.saved = []
  · rw [addStation_first empty]
    dsimp only
    let stored : Manager :=
      { m with saved := updateSavedStations [firstEntry ssid password] }
    have connects := connectToStationIndex_err p stored 0
    have same : (stored.connectToStationIndex p 0).1.outlook = { m.outlook with anySaved := true } :=
      outlook_connectToStationIndex p stored 0
    split
    · rename_i connected
      have listed : m.lists.connectionList.length ≠ 0 := connects.mp connected.symm
      constructor
      · intro t
        rw [outlook_beginConnecting, same]
        exact ⟨t.scan, fun _ => Or.inl (Nat.succ_pos _), t.short⟩
      · intro _ _
        refine iff_of_true (fun _ _ _ => Or.inl (Nat.succ_pos _)) ?_
        rintro ⟨_, _, _, none_listed, _⟩
        exact listed (congrArg List.length none_listed)
    · rename_i failed
      have none_listed : m.lists.connectionList.length = 0 :=
        not_not.mp (connects.not.mp fun ok => failed ok.symm)
      constructor
      · intro t
        rw [same]
        exact ⟨t.scan, t.connecting, t.short⟩
      · intro _ _
        rw [same]
        constructor
        · rintro alive ⟨_, queue, _, _, unlinked, unanswered, quiet, timer⟩
          have pending := alive running rfl unlinked
          exact absurd pending (Outlook.not_pending_iff.mpr ⟨unanswered, quiet, timer, queue⟩)
        · intro free _ _ unlinked
          by_contra idle
          obtain ⟨unanswered, quiet, timer, queue⟩ := Outlook.not_pending_iff.mp idle
          exact free ⟨running, queue, empty, List.length_eq_zero_iff.mp none_listed, unlinked,
            unanswered, quiet, timer⟩
  · rw [addStation_later empty]
    dsimp only
    constructor
    · intro t
      exact ⟨t.scan, t.connecting, t.short⟩
    · intro _ _
      refine iff_of_true (fun _ _ _ => Or.inr (Or.inr (Or.inr (List.concat_ne_nil _ _)))) ?_
      exact fun strands => empty strands.2.2.1

theorem removeStation_fewer {saved : Saved} {ssid : Str}
    (held : stations (removeStation saved .none ssid).1 ≠ []) : stations saved ≠ [] := by
  intro empty
  apply held
  unfold removeStation
  rw [load_eq_none_iff.mpr empty]
  exact empty

theorem removeSsid_sound (m : Manager) (ssid : Str) : Sound m (m.wilmaRemoveSsid ssid).1 False := by
  have fewer : (!(stations (removeStation m.saved .none ssid).1).isEmpty) = true →
      m.outlook.anySaved = true := by
    intro held
    exact (anySaved_iff m.saved).mpr (removeStation_fewer ((anySaved_iff _).mp held))
  obtain ⟨told, cleared⟩ := outlook_clearStaConfig
    { m with
      saved := (removeStation m.saved .none ssid).1
      lists := { m.lists with connectionList := [] }
      stationSsid := Field.zero 33 }
  unfold wilmaRemoveSsid
  dsimp only
  split
  · constructor
    · intro t
      rw [cleared]
      exact ⟨t.scan, nofun, Nat.zero_le _⟩
    · intro _ alive
      rw [cleared]
      exact iff_of_true (fun running any unlinked => alive running (fewer any) unlinked) not_false
  · exact Sound.of_outlook fewer rfl

theorem handle_sound (p : Platform) (m : Manager) (a : Input) (running : m.running = true) :
    Sound m (m.handle p a) (Strands m a) := by
  have never : ∀ {n : Manager}, Sound m n False → (∀ strands : Strands m a, False) →
      Sound m n (Strands m a) := by
    intro n sound free
    exact ⟨sound.tracked, fun t alive => (sound.alive t alive).trans (not_congr (iff_of_false id free))⟩
  cases a with
  | order => exact never (takeOrder_sound p m) fun strands => strands.2.2
  | staConnected ssid ssidLen answered =>
    exact never (staConnected_sound m ssid ssidLen answered) fun strands => strands.2.2
  | staDisconnected ssid reason answered =>
    exact staDisconnected_sound p m ssid reason answered running
  | scanDone r => exact scanDone_sound p m r running
  | gotIp => exact gotIp_sound p m running
  | timerTick => exact never (retryTimerCb_sound m) fun strands => strands.2.2
  | addSsid ssid password => exact addSsid_sound p m ssid password running
  | removeSsid ssid => exact never (removeSsid_sound m ssid) fun strands => strands.2.2
  | startScan => exact never (sendMessage_sound m _) fun strands => strands.2.2
  | scanThenConnect => exact never (sendMessage_sound m _) fun strands => strands.2.2
  | forgetConfigFromIsr => exact never (sendMessage_sound m _) fun strands => strands.2.2
  | stop => exact never (sendMessage_sound m _) fun strands => strands.2.2
  | setApEnabled enabled =>
    exact never (Sound.of_outlook (fun any => any) rfl) fun strands => strands.2.2
  | setApSsidPassword ssid password =>
    exact never (Sound.of_outlook (fun any => any) rfl) fun strands => strands.2.2

theorem step_sound (p : Platform) (m : Manager) (a : Input) :
    Sound m (m.step p a) (Strands m a) := by
  unfold step
  split
  · rename_i running
    exact handle_sound p m a running
  · rename_i stopped
    refine ⟨id, fun _ alive => iff_of_true alive ?_⟩
    exact fun strands => stopped strands.1

theorem start_tracked (p : Platform) (saved : Saved) (ap : ApSettings) (staConfig : Credentials) :
    (start p saved ap staConfig).outlook.Tracked := ⟨rfl, nofun, Nat.zero_le _⟩

theorem start_alive (p : Platform) (saved : Saved) (ap : ApSettings) (staConfig : Credentials) :
    (start p saved ap staConfig).outlook.Alive :=
  fun _ _ _ => Or.inr (Or.inr (Or.inr (List.cons_ne_nil _ _)))

/-- The manager stays alive exactly in the runs without a step that strands it. -/
theorem alive_iff (p : Platform) (history : List Operation) (ap : ApSettings)
    (staConfig : Credentials) (as : List Input) :
    let s := start p (history.foldl Operation.apply none) ap staConfig
    Runs.Throughout (step p) (fun m => m.outlook.Alive) s as ↔
      Runs.Along (step p) (fun m a => ¬ Strands m a) s as := by
  intro s
  apply Runs.throughout_iff_along (I := fun m => m.outlook.Tracked)
  · intro m a t
    exact (step_sound p m a).tracked t
  · intro m a t alive
    exact (step_sound p m a).alive t alive
  · exact start_tracked p _ ap staConfig
  · exact start_alive p _ ap staConfig

/-- Two saved stations in range, and three failed attempts at the first one. -/
def failedAttempts : List Input :=
  [.order, scanOf [seen lab (-40), seen hall (-60)], .order,
    .staDisconnected (ssidKey lab) 201 1, .staDisconnected (ssidKey lab) 201 1,
    .staDisconnected (ssidKey lab) 201 1]

/-- The second station is configured, and the manager waits for nothing. -/
theorem failed_attempts_strand :
    ¬ Runs.Throughout (step plainPlatform) (fun m => m.outlook.Alive)
      (startWith [.add lab secret, .add hall secret]) failedAttempts := by
  intro alive
  have last := (Runs.throughout_iff_prefix _ _).mp alive failedAttempts (List.prefix_refl _)
  exact absurd last (by decide)

end Manager

end Rocom.Wilma
