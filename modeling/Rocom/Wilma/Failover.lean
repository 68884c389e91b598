import Rocom.Wilma.Alive
import Rocom.Wilma.Parked

/-! The walk over the candidates: the connect order and the failed attempts behind it. -/
namespace Rocom.Wilma

open CString

/-- What is seen of the calls of a walk. `attempt` is `esp_wifi_connect` with the station
configuration of that moment. -/
inductive Sight where
  | attempt (conf : Credentials)
  | configured (conf : Credentials)
  | forcedOn
  | timerStarted
deriving DecidableEq

def Sight.isAttempt : Sight → Bool
  | .attempt _ => true
  | _ => false

def shows : Credentials → List Call → List Sight
  | _, [] => []
  | conf, .connect :: calls => .attempt conf :: shows conf calls
  | _, .setConfig conf :: calls => .configured conf :: shows conf calls
  | _, .setCandidate conf _ :: calls => shows conf calls
  | conf, .setMode (.apsta _) :: calls => .forcedOn :: shows conf calls
  | conf, .timerStart :: calls => .timerStarted :: shows conf calls
  | conf, _ :: calls => shows conf calls

theorem shows_append (conf : Credentials) (calls more : List Call) :
    shows conf (calls ++ more) = shows conf calls ++ shows (lastConfig conf calls) more := by
  induction calls generalizing conf with
  | nil => rfl
  | cons c calls ih =>
    cases c with
    | setMode mode => cases mode <;> simp [shows, lastConfig, ih]
    | connect | disconnect | scanStart | setConfig | setCandidate | timerStart | timerStop | stop =>
      simp [shows, lastConfig, ih]

/-- The station configuration is cleared, the access point forced on, the retry timer started. -/
def fallenBack : List Sight := [.configured .zero, .forcedOn, .timerStarted]

/-- Each candidate of the list gets its connect calls. -/
def candidateAttempts (candidates : List ConnectionEntry) : List Sight :=
  candidates.flatMap fun e =>
    List.replicate (1 + wilmaRetriesBeforeContinuing) (.attempt e.credentials)

theorem count_candidateAttempts (candidates : List ConnectionEntry) :
    (candidateAttempts candidates).countP Sight.isAttempt = 3 * candidates.length := by
  induction candidates with
  | nil => rfl
  | cons e rest ih =>
    have split : candidateAttempts (e :: rest) =
        List.replicate 3 (.attempt e.credentials) ++ candidateAttempts rest := rfl
    rw [split, List.countP_append, ih, List.length_cons]
    simp only [List.countP_replicate, Sight.isAttempt, if_true]
    omega

namespace Manager

/-- STA_DISCONNECTED, for one connect call. -/
def failed (event : Field 32 × UInt8) : Input := .staDisconnected event.1 event.2 1

def fail (p : Platform) (m : Manager) (event : Field 32 × UInt8) : Manager :=
  m.step p (failed event)

/-- Every connect call is answered by one of the events, and no other event comes. -/
structure AllFail (p : Platform) (m : Manager) (events : List (Field 32 × UInt8)) : Prop where
  called : Runs.Along (fail p) (fun m _ => 0 < m.attempts) m events
  answered : (events.foldl (fail p) m).attempts = 0

/-- The next thing to happen is the connect order without a parameter. -/
structure ConnectDue (m : Manager) : Prop where
  running : m.running = true
  order : m.queue.head? = some (.connectSta none)
  noScan : m.bits.scan = false
  untold : m.bits.disconnected = false
  listed : m.lists.connectionList ≠ []

/-- What is seen between two states. -/
def Shown (m n : Manager) (sights : List Sight) : Prop :=
  ∃ calls, n.calls = m.calls ++ calls ∧ lastConfig m.staConfig calls = n.staConfig ∧
    shows m.staConfig calls = sights

/-- Between the two states every candidate is tried in turn, and then the manager falls back. -/
def Visits (m n : Manager) : Prop :=
  ∃ calls, n.calls = m.calls ++ calls ∧
    shows m.staConfig calls = candidateAttempts m.lists.connectionList ++ fallenBack

/-- What decides about the next connect calls of a walk. -/
structure Progress where
  retry : Bool
  told : Bool
  connected : Bool
  retryNum : Nat
  attempts : Nat

def progress (m : Manager) : Progress where
  retry := m.bits.retryConnection
  told := m.bits.disconnected
  connected := m.bits.connected
  retryNum := m.retryNum
  attempts := m.attempts

/-- The connect calls that may still be made. -/
def Progress.budget (s : Progress) : Nat :=
  s.retry.toNat + s.told.toNat + s.connected.toNat + (wilmaRetriesBeforeContinuing - s.retryNum)

/-- No scan, and somebody to connect to. -/
structure Walking (candidates : List ConnectionEntry) (m : Manager) : Prop where
  running : m.running = true
  noScan : m.bits.scan = false
  list : m.lists.connectionList = candidates

/-- What a failed attempt may lead to. -/
inductive Failure (m n : Manager) : Prop where
  | again (retry : m.bits.retryConnection = true) (calls : n.calls = m.calls ++ [.connect])
      (config : n.staConfig = m.staConfig)
      (after : n.progress = { m.progress with retry := false, attempts := m.attempts - 1 + 1 })
  | told (conf : Credentials) (idle : m.bits.retryConnection = false)
      (told : m.bits.disconnected = true)
      (calls : n.calls = m.calls ++ [.setCandidate conf m.saved, .connect])
      (config : n.staConfig = conf)
      (after : n.progress = { m.progress with told := false, attempts := m.attempts - 1 + 1 })
  | retried (idle : m.bits.retryConnection = false) (untold : m.bits.disconnected = false)
      (left : m.retryNum < wilmaRetriesBeforeContinuing) (calls : n.calls = m.calls ++ [.connect])
      (config : n.staConfig = m.staConfig)
      (after : n.progress =
        { m.progress with retryNum := m.retryNum + 1, attempts := m.attempts - 1 + 1 })
  | movedOn (conf : Credentials) (saved : Saved)
      (next : nextStationLeft m.connectionIndex m.lists.connectionList.length = true)
      (calls : n.calls = m.calls ++ [.setCandidate conf saved])
      (config : n.staConfig = conf)
      (after : n.progress = { m.progress with attempts := m.attempts - 1 })
  | gaveUp (conf : ApConfig) (idle : m.bits.retryConnection = false)
      (untold : m.bits.disconnected = false) (used : wilmaRetriesBeforeContinuing ≤ m.retryNum)
      (calls : n.calls =
        m.calls ++ [.disconnect, .setConfig .zero, .setMode (.apsta conf), .timerStart])
      (config : n.staConfig = .zero)
      (after : n.progress =
        { m.progress with
          told := m.bits.connected, connected := false, attempts := m.attempts - 1 })

section Steps
variable {p : Platform} {candidates : List ConnectionEntry} {m : Manager}

theorem connectToStationIndex_listed (listed : m.lists.connectionList ≠ []) (index : UInt32) :
    ∃ conf index', m.connectToStationIndex p index =
      ({ m.call (.setCandidate conf m.saved) with
          connectionIndex := index', staConfig := conf }, espOk) := by
  rcases connectToStationIndex_cases p m index with ⟨none_listed, _⟩ | ⟨_, _, _, made⟩
  · exact absurd none_listed listed
  · exact ⟨_, _, made⟩

theorem noteAuthFailure_eq (ssid : Field 32) (reason : UInt8) :
    ∃ saved, m.noteAuthFailure ssid reason = { m with saved := saved } := by
  unfold noteAuthFailure
  split
  · exact ⟨_, rfl⟩
  · exact ⟨_, rfl⟩

theorem nextStation_failure (listed : m.lists.connectionList ≠ []) :
    (∃ conf index, nextStationLeft m.connectionIndex m.lists.connectionList.length = true ∧
      m.nextStation p =
        { m.call (.setCandidate conf m.saved) with connectionIndex := index, staConfig := conf }) ∨
    nextStationLeft m.connectionIndex m.lists.connectionList.length = false ∧
      m.nextStation p = ((m.clearStaConfig).softap p true).timerStart := by
  unfold nextStation
  split
  · rename_i left
    obtain ⟨conf, index, chosen⟩ :=
      connectToStationIndex_listed (p := p) listed (m.connectionIndex + 1)
    rw [chosen]
    exact .inl ⟨conf, index, left, rfl⟩
  · rename_i last
    exact .inr ⟨Bool.eq_false_iff.mpr last, rfl⟩

theorem fallBack_calls :
    ∃ conf, (((m.clearStaConfig).softap p true).timerStart).calls =
      m.calls ++ [.disconnect, .setConfig .zero, .setMode (.apsta conf), .timerStart] := by
  refine ⟨(softapConfig p.apDefaults m.clearStaConfig.ap).1, ?_⟩
  show (m.clearStaConfig.calls ++ [_]) ++ [_] = _
  rw [clearStaConfig_calls, List.append_assoc, List.append_assoc]
  rfl

theorem fallBack_progress (untold : m.bits.disconnected = false) :
    (((m.clearStaConfig).softap p true).timerStart).progress =
      { m.progress with told := m.bits.connected, connected := false } := by
  rw [clearStaConfig_eq, untold, Bool.false_or]
  rfl

theorem Walking.fallBack (h : m.Walking candidates) :
    (((m.clearStaConfig).softap p true).timerStart).Walking candidates := by
  rw [clearStaConfig_eq]
  exact ⟨h.running, h.noScan, h.list⟩

theorem Walking.failure (h : m.Walking candidates) (listed : candidates ≠ [])
    (event : Field 32 × UInt8) :
    (m.fail p event).Walking candidates ∧ Failure m (m.fail p event) := by
  have stepped : m.fail p event = (m.linkEvent false 1).staDisconnected p event.1 event.2 := by
    unfold fail step
    rw [if_pos h.running]
    rfl
  have calls : (m.linkEvent false 1).calls = m.calls := rfl
  rw [stepped]
  unfold staDisconnected
  dsimp only
  split
  · rename_i retry
    exact ⟨⟨h.running, h.noScan, h.list⟩, .again retry rfl rfl rfl⟩
  rename_i idle
  have idle := Bool.eq_false_iff.mpr idle
  split
  · rename_i told
    obtain ⟨conf, index, chosen⟩ := connectToStationIndex_listed (p := p)
      (m := (m.linkEvent false 1).setBits ({ · with disconnected := false }))
      (h.list.trans_ne listed) 0
    rw [chosen]
    refine ⟨⟨h.running, h.noScan, h.list⟩, .told conf idle told ?_ rfl rfl⟩
    exact List.append_assoc _ _ _
  rename_i untold
  have untold := Bool.eq_false_iff.mpr untold
  split
  · rename_i scan
    exact absurd scan (Bool.eq_false_iff.mp h.noScan)
  split
  · rename_i left
    exact ⟨⟨h.running, h.noScan, h.list⟩, .retried idle untold left rfl rfl rfl⟩
  · rename_i used
    have used := Nat.le_of_not_lt used
    unfold retriesExhausted
    obtain ⟨saved, noted⟩ := noteAuthFailure_eq (m := (m.linkEvent false 1).setBits
      ({ · with fail := true, connecting := false })) event.1 event.2
    rw [noted]
    let x : Manager :=
      { (m.linkEvent false 1).setBits ({ · with fail := true, connecting := false }) with
        saved := saved }
    have walking : x.Walking candidates := ⟨h.running, h.noScan, h.list⟩
    rcases nextStation_failure (p := p) (m := x) (h.list.trans_ne listed) with
      ⟨conf, index, left, moved⟩ | ⟨_, moved⟩
    · refine ⟨?_, .movedOn conf saved left ?_ ?_ ?_⟩
      · exact moved ▸ ⟨h.running, h.noScan, h.list⟩
      · exact congrArg Manager.calls moved
      · exact congrArg staConfig moved
      · exact congrArg progress moved
    · obtain ⟨conf, made⟩ := fallBack_calls (p := p) (m := x)
      refine ⟨?_, .gaveUp conf idle untold used ?_ ?_ ?_⟩
      · exact moved ▸ walking.fallBack
      · exact (congrArg Manager.calls moved).trans made
      · exact congrArg staConfig moved
      · exact (congrArg progress moved).trans (fallBack_progress (m := x) untold)

theorem Shown.trans {n q : Manager} {sights more : List Sight} (h : Shown m n sights)
    (h' : Shown n q more) : Shown m q (sights ++ more) := by
  obtain ⟨calls, made, last, shown⟩ := h
  obtain ⟨calls', made', last', shown'⟩ := h'
  refine ⟨calls ++ calls', by rw [made', made, List.append_assoc], ?_, ?_⟩
  · rw [lastConfig_append, last, last']
  · rw [shows_append, last, shown, shown']

theorem Shown.visits_iff {n : Manager} {sights : List Sight} (h : Shown m n sights) :
    Visits m n ↔ sights = candidateAttempts m.lists.connectionList ++ fallenBack := by
  obtain ⟨calls, made, last, rfl⟩ := h
  constructor
  · rintro ⟨calls', made', shown⟩
    rw [← shown, List.append_cancel_left (made.symm.trans made')]
  · intro shown
    exact ⟨calls, made, shown⟩

/-- The order configures the first candidate, and connects to it or has the retry done. -/
theorem ConnectDue.taken (h : m.ConnectDue) :
    ∃ first rest, m.lists.connectionList = first :: rest ∧
      (m.step p .order).Walking (first :: rest) ∧
      (m.step p .order).staConfig = first.credentials ∧
      Shown m (m.step p .order)
        (if m.bits.connecting then [] else [.attempt first.credentials]) ∧
      (m.step p .order).progress =
        { m.progress with
          retry := m.bits.retryConnection || m.bits.connecting
          retryNum := 0
          attempts := if m.bits.connecting then m.attempts else m.attempts + 1 } := by
  obtain ⟨others, queue⟩ := List.head?_eq_some_iff.mp h.order
  obtain ⟨first, rest, list⟩ := List.exists_cons_of_ne_nil h.listed
  have stepped : m.step p .order =
      ({ m.call (.setCandidate first.credentials m.saved) with
        queue := others, retryNum := 0, connectionIndex := 0,
        staConfig := first.credentials } : Manager).initiateConnection := by
    unfold step handle takeOrder process connectStaOrder
    rw [if_pos h.running, queue]
    simp only [connectFirst_eq p (m := { m with queue := others, retryNum := 0 }) list, espOk,
      ne_eq, not_true, if_false]
    rfl
  refine ⟨first, rest, list, ?_⟩
  rw [stepped]
  unfold initiateConnection
  simp only [call, h.noScan, Bool.false_or]
  cases connecting : m.bits.connecting with
  | true =>
    have configured : Shown m { m with
        calls := m.calls ++ [.setCandidate first.credentials m.saved]
        staConfig := first.credentials } [] := ⟨_, rfl, rfl, rfl⟩
    exact ⟨⟨h.running, h.noScan, list⟩, rfl, configured, by simp [progress, setBits]⟩
  | false =>
    have connected : Shown m { m with
        calls := m.calls ++ [.setCandidate first.credentials m.saved] ++ [.connect]
        staConfig := first.credentials } [.attempt first.credentials] :=
      ⟨_, List.append_assoc _ _ _, rfl, rfl⟩
    exact ⟨⟨h.running, h.noScan, list⟩, rfl, connected, by simp [progress, espWifiConnect, call]⟩

/-- What is seen of a failed attempt, and what it costs. -/
theorem Failure.shown {n : Manager} (h : Failure m n) :
    ∃ sights, Shown m n sights ∧
      sights.countP Sight.isAttempt + n.progress.budget ≤ m.progress.budget ∧
      (sights = [] → nextStationLeft m.connectionIndex m.lists.connectionList.length = true) := by
  have before : m.progress.budget = m.bits.retryConnection.toNat + m.bits.disconnected.toNat +
      m.bits.connected.toNat + (2 - m.retryNum) := rfl
  cases h with
  | again retry calls config after =>
    refine ⟨[.attempt m.staConfig], ⟨_, calls, config.symm, rfl⟩, ?_, fun none => by cases none⟩
    have spent : n.progress.budget + 1 = m.progress.budget := by
      rw [before, after, retry]
      simp only [Progress.budget, progress, Bool.toNat_true, Bool.toNat_false,
        wilmaRetriesBeforeContinuing]
      omega
    exact Nat.le_of_eq ((Nat.add_comm _ _).trans spent)
  | told conf idle told calls config after =>
    refine ⟨[.attempt conf], ⟨_, calls, config.symm, rfl⟩, ?_, fun none => by cases none⟩
    have spent : n.progress.budget + 1 = m.progress.budget := by
      rw [before, after, told]
      simp only [Progress.budget, progress, Bool.toNat_true, Bool.toNat_false,
        wilmaRetriesBeforeContinuing]
      omega
    exact Nat.le_of_eq ((Nat.add_comm _ _).trans spent)
  | retried idle untold left calls config after =>
    refine ⟨[.attempt m.staConfig], ⟨_, calls, config.symm, rfl⟩, ?_, fun none => by cases none⟩
    have some_left : m.retryNum < 2 := left
    have spent : n.progress.budget + 1 = m.progress.budget := by
      rw [before, after]
      simp only [Progress.budget, progress, wilmaRetriesBeforeContinuing]
      omega
    exact Nat.le_of_eq ((Nat.add_comm _ _).trans spent)
  | movedOn conf saved next calls config after =>
    refine ⟨[], ⟨_, calls, config.symm, rfl⟩, ?_, fun _ => next⟩
    rw [after]
    exact Nat.le_of_eq (Nat.zero_add _)
  | gaveUp conf idle untold used calls config after =>
    refine ⟨fallenBack, ⟨_, calls, config.symm, rfl⟩, ?_, fun none => by cases none⟩
    rw [before, after, untold]
    simp [Progress.budget, progress, fallenBack, Sight.isAttempt]

theorem Walking.shown (h : m.Walking candidates) (listed : candidates ≠ [])
    (events : List (Field 32 × UInt8)) :
    ∃ sights, Shown m (events.foldl (fail p) m) sights ∧
      sights.countP Sight.isAttempt ≤ m.progress.budget := by
  induction events generalizing m with
  | nil => exact ⟨[], ⟨[], (List.append_nil _).symm, rfl, rfl⟩, Nat.zero_le _⟩
  | cons e events ih =>
    obtain ⟨walking, failure⟩ := h.failure (p := p) listed e
    obtain ⟨first, shown, cost, _⟩ := failure.shown
    obtain ⟨rest, later, cost'⟩ := ih walking
    refine ⟨first ++ rest, shown.trans later, ?_⟩
    rw [List.countP_append]
    omega

theorem nextStationLeft_single (index : UInt32) : nextStationLeft index 1 = false := by
  simp [nextStationLeft]

/-- With a single candidate every answer shows something. -/
theorem Walking.further {only : ConnectionEntry} (h : m.Walking [only])
    {events : List (Field 32 × UInt8)} (ends : AllFail p m events) :
    ∃ sights, Shown m (events.foldl (fail p) m) sights ∧ (sights = [] ↔ m.attempts = 0) := by
  cases events with
  | nil => exact ⟨[], ⟨[], (List.append_nil _).symm, rfl, rfl⟩, iff_of_true rfl ends.answered⟩
  | cons e events =>
    obtain ⟨walking, failure⟩ := h.failure (p := p) (List.cons_ne_nil _ _) e
    obtain ⟨first, shown, _, silent⟩ := failure.shown
    obtain ⟨rest, later, _⟩ := walking.shown (List.cons_ne_nil _ _) events
    have seen : first ≠ [] := by
      intro none
      have next := silent none
      rw [h.list, List.length_singleton, nextStationLeft_single] at next
      cases next
    refine ⟨first ++ rest, shown.trans later, iff_of_false ?_ (Nat.ne_of_gt ends.called.1)⟩
    simp [seen]

/-- The connect calls that are left of a single candidate. -/
def Progress.tries (s : Progress) : Nat :=
  s.retry.toNat + (wilmaRetriesBeforeContinuing - s.retryNum)

theorem Shown.retry {n q : Manager} {rest : List Sight} (calls : n.calls = m.calls ++ [.connect])
    (config : n.staConfig = m.staConfig) (spent : n.progress.tries + 1 = m.progress.tries)
    (later : Shown n q (List.replicate n.progress.tries (.attempt n.staConfig) ++ rest)) :
    Shown m q (List.replicate m.progress.tries (.attempt m.staConfig) ++ rest) := by
  have first : Shown m n [.attempt m.staConfig] := ⟨_, calls, config.symm, rfl⟩
  rw [← spent, List.replicate_succ, ← config]
  rw [← config] at first
  exact first.trans later

/-- A single candidate is tried until nothing is left to try, and every further answer shows
something more. -/
theorem Walking.single {only : ConnectionEntry} (h : m.Walking [only])
    (untold : m.bits.disconnected = false) (waiting : 0 < m.attempts)
    {events : List (Field 32 × UInt8)} (ends : AllFail p m events) :
    ∃ rest, Shown m (events.foldl (fail p) m)
        (List.replicate m.progress.tries (.attempt m.staConfig) ++ (fallenBack ++ rest)) ∧
      (rest = [] ↔ m.attempts = 1) := by
  induction events generalizing m with
  | nil => exact absurd ends.answered (Nat.ne_of_gt waiting)
  | cons e events ih =>
    obtain ⟨walking, failure⟩ := h.failure (p := p) (List.cons_ne_nil _ _) e
    have ends' : AllFail p (m.fail p e) events := ⟨ends.called.2, ends.answered⟩
    have again : m.attempts - 1 + 1 = m.attempts := Nat.sub_add_cancel waiting
    cases failure with
    | again retry calls config after =>
      have called : (m.fail p e).attempts = m.attempts :=
        (congrArg Progress.attempts after).trans again
      have spent : (m.fail p e).progress.tries + 1 = m.progress.tries := by
        rw [after, Progress.tries, Progress.tries, progress, retry]
        simp only [Bool.toNat_true, Bool.toNat_false]
        omega
      obtain ⟨rest, later, last⟩ :=
        ih walking ((congrArg Progress.told after).trans untold) (called ▸ waiting) ends'
      exact ⟨rest, Shown.retry calls config spent later, called ▸ last⟩
    | told conf idle told => exact absurd told (Bool.eq_false_iff.mp untold)
    | retried idle _ left calls config after =>
      have called : (m.fail p e).attempts = m.attempts :=
        (congrArg Progress.attempts after).trans again
      have some_left : m.retryNum < 2 := left
      have spent : (m.fail p e).progress.tries + 1 = m.progress.tries := by
        rw [after, Progress.tries, Progress.tries, progress]
        simp only [wilmaRetriesBeforeContinuing]
        omega
      obtain ⟨rest, later, last⟩ :=
        ih walking ((congrArg Progress.told after).trans untold) (called ▸ waiting) ends'
      exact ⟨rest, Shown.retry calls config spent later, called ▸ last⟩
    | movedOn conf saved next =>
      rw [h.list, List.length_singleton, nextStationLeft_single] at next
      cases next
    | gaveUp conf idle _ used calls config after =>
      have none_left : m.progress.tries = 0 := by
        rw [Progress.tries, progress, idle]
        exact (Nat.zero_add _).trans (Nat.sub_eq_zero_of_le used)
      have fell : Shown m (m.fail p e) fallenBack := ⟨_, calls, config.symm, rfl⟩
      have answered : (m.fail p e).attempts = m.attempts - 1 := congrArg Progress.attempts after
      obtain ⟨rest, later, silent⟩ := walking.further ends'
      refine ⟨rest, ?_, ?_⟩
      · rw [none_left]
        exact fell.trans later
      · rw [silent, answered]
        omega

/-- The whole walk shows at most five connect calls. -/
theorem ConnectDue.attempts_le (due : m.ConnectDue) (events : List (Field 32 × UInt8)) :
    ∃ sights, Shown m (events.foldl (fail p) (m.step p .order)) sights ∧
      sights.countP Sight.isAttempt ≤ 5 := by
  obtain ⟨first, rest, _, walking, config, opened, after⟩ := due.taken (p := p)
  obtain ⟨later, shown, cost⟩ := walking.shown (p := p) (List.cons_ne_nil _ _) events
  have budget : (m.step p .order).progress.budget =
      (m.bits.retryConnection || m.bits.connecting).toNat + m.bits.connected.toNat + 2 := by
    rw [after, Progress.budget, progress, due.untold]
    rfl
  have retry_le := Bool.toNat_le (m.bits.retryConnection || m.bits.connecting)
  have connected_le := Bool.toNat_le m.bits.connected
  refine ⟨_, opened.trans shown, ?_⟩
  rw [List.countP_append]
  cases m.bits.connecting with
  | true =>
    simp only [if_true, List.countP_nil]
    omega
  | false =>
    simp only [Bool.false_eq_true, if_false, List.countP_singleton, Sight.isAttempt, if_true]
    omega

theorem attempts_eq_iff (only : ConnectionEntry) (more : Nat) (rest : List Sight) :
    List.replicate (3 + more) (Sight.attempt only.credentials) ++ (fallenBack ++ rest) =
        candidateAttempts [only] ++ fallenBack ↔ more = 0 ∧ rest = [] := by
  have visits : candidateAttempts [only] = List.replicate 3 (.attempt only.credentials) :=
    List.append_nil _
  rw [visits, List.replicate_add, List.append_assoc, List.append_right_inj]
  cases more with
  | zero => simp
  | succ more => simp [List.replicate_succ, fallenBack]

/-- The walk visits every candidate only if there is just one, which no other connect call
waits for. -/
theorem failover_visits_iff (due : m.ConnectDue) (events : List (Field 32 × UInt8))
    (ends : AllFail p (m.step p .order) events) :
    Visits m (events.foldl (fail p) (m.step p .order)) ↔
      m.lists.connectionList.length = 1 ∧
        if m.bits.connecting then m.attempts = 1
        else m.bits.retryConnection = false ∧ m.attempts = 0 := by
  obtain ⟨first, rest, list, walking, config, opened, after⟩ := due.taken (p := p)
  have called : (m.step p .order).attempts =
      if m.bits.connecting then m.attempts else m.attempts + 1 :=
    congrArg Progress.attempts after
  have untold : (m.step p .order).bits.disconnected = false :=
    (congrArg Progress.told after).trans due.untold
  have tries : (m.step p .order).progress.tries =
      (m.bits.retryConnection || m.bits.connecting).toNat + 2 := by
    rw [after]
    rfl
  cases rest with
  | cons second others =>
    obtain ⟨sights, shown, few⟩ := due.attempts_le (p := p) events
    refine iff_of_false ?_ fun single => by simp [list] at single
    intro visits
    have all := congrArg (List.countP Sight.isAttempt) (shown.visits_iff.mp visits)
    rw [List.countP_append, count_candidateAttempts, list] at all
    simp only [List.length_cons] at all
    omega
  | nil =>
    cases connecting : m.bits.connecting with
    | true =>
      rw [connecting] at called tries opened
      rcases Nat.eq_zero_or_pos m.attempts with none_called | some_called
      · obtain ⟨sights, shown, silent⟩ := walking.further ends
        have nothing : sights = [] := silent.mpr (called.trans none_called)
        subst nothing
        rw [(opened.trans shown).visits_iff, list]
        refine iff_of_false (fun seen => by cases seen) ?_
        rintro ⟨_, one_called⟩
        exact absurd (none_called.symm.trans one_called) (by decide)
      · obtain ⟨more, shown, last⟩ := walking.single untold (some_called.trans_eq called.symm) ends
        rw [tries, config, Bool.or_true] at shown
        have visits := (opened.trans shown).visits_iff
        rw [list] at visits
        rw [visits]
        simp only [reduceIte, List.nil_append] at called ⊢
        refine (attempts_eq_iff first 0 more).trans ?_
        simp [list, last, called]
    | false =>
      rw [connecting] at called tries opened
      obtain ⟨more, shown, last⟩ := walking.single untold (called ▸ Nat.succ_pos _) ends
      have all_tries : 1 + ((m.bits.retryConnection || false).toNat + 2) =
          3 + m.bits.retryConnection.toNat := by
        rw [Bool.or_false]
        omega
      have together : [Sight.attempt first.credentials] ++
          (List.replicate ((m.bits.retryConnection || false).toNat + 2)
            (.attempt first.credentials) ++ (fallenBack ++ more)) =
          List.replicate (3 + m.bits.retryConnection.toNat) (.attempt first.credentials) ++
            (fallenBack ++ more) := by
        rw [← all_tries, Nat.add_comm 1, List.replicate_succ]
        rfl
      rw [tries, config] at shown
      have visits := (opened.trans shown).visits_iff
      rw [list, if_neg Bool.false_ne_true, together] at visits
      rw [visits, if_neg Bool.false_ne_true]
      refine (attempts_eq_iff first _ more).trans ?_
      rw [last, called]
      simp [list]

end Steps

/-- A scan has found these access points, and the connect order is due. -/
def scanned (history : List Operation) (records : List ApRecord) : Manager :=
  [.order, scanOf records].foldl (step plainPlatform) (startWith history)

def refusals (name : Str) (n : Nat) : List (Field 32 × UInt8) :=
  List.replicate n (ssidKey name, 201)

theorem failover_visits_single :
    let m := scanned [.add lab secret] [seen lab (-40)]
    m.ConnectDue ∧ AllFail plainPlatform (m.step plainPlatform .order) (refusals lab 3) ∧
      Visits m ((refusals lab 3).foldl (fail plainPlatform) (m.step plainPlatform .order)) := by
  have due : (scanned [.add lab secret] [seen lab (-40)]).ConnectDue :=
    ⟨by decide, by decide, by decide, by decide, by decide⟩
  have ends : AllFail plainPlatform ((scanned [.add lab secret] [seen lab (-40)]).step plainPlatform
      .order) (refusals lab 3) := ⟨by decide, by decide⟩
  exact ⟨due, ends, (failover_visits_iff due _ ends).mpr (by decide)⟩

/-- The second of two candidates is never tried. -/
theorem second_candidate_untried :
    let m := scanned [.add lab secret, .add hall secret] [seen lab (-40), seen hall (-60)]
    m.ConnectDue ∧ AllFail plainPlatform (m.step plainPlatform .order) (refusals lab 3) ∧
      ¬ Visits m ((refusals lab 3).foldl (fail plainPlatform) (m.step plainPlatform .order)) := by
  intro m
  refine ⟨⟨by decide, by decide, by decide, by decide, by decide⟩, ⟨by decide, by decide⟩, ?_⟩
  rintro ⟨calls, made, shown⟩
  have more := congrArg (List.drop m.calls.length) made
  rw [List.drop_left] at more
  rw [← more] at shown
  exact absurd shown (by decide)

/-! ### No candidate left -/

/-- The next STA_DISCONNECTED finds the retries used up. -/
structure UsedUp (m : Manager) : Prop where
  running : m.running = true
  idle : m.bits.retryConnection = false
  untold : m.bits.disconnected = false
  noScan : m.bits.scan = false
  used : wilmaRetriesBeforeContinuing ≤ m.retryNum

/-- Without a candidate the manager falls back, and it moves on only to a further candidate. -/
def FallsBackInTime (p : Platform) (m : Manager) : Prop :=
  m.UsedUp →
    (m.lists.connectionList = [] → ∀ ssid reason answered,
      Shown m (m.step p (.staDisconnected ssid reason answered)) fallenBack) ∧
    (nextStationLeft m.connectionIndex m.lists.connectionList.length = true →
      m.connectionIndex.toNat + 1 < m.lists.connectionList.length)

/-- The list and the index fit the array of candidates. -/
structure Fits (m : Manager) : Prop where
  short : m.lists.connectionList.length ≤ wilmaMaxCandidateStations
  index : m.connectionIndex.toNat < wilmaMaxCandidateStations

section Index
variable {p : Platform} {m : Manager}

theorem Fits.connectToStationIndex (h : m.Fits) (index : UInt32) :
    (m.connectToStationIndex p index).1.connectionIndex.toNat < wilmaMaxCandidateStations := by
  rcases connectToStationIndex_cases p m index with ⟨_, failed⟩ | ⟨chosen, entry, found, made⟩
  · rw [failed]
    exact h.index
  · rw [made]
    have within := (List.getElem?_eq_some_iff.mp found).1
    exact within.trans_le h.short

@[simp] theorem clearStaConfig_index : m.clearStaConfig.connectionIndex = m.connectionIndex := by
  rw [clearStaConfig_eq]

theorem Fits.nextStation (h : m.Fits) :
    (m.nextStation p).connectionIndex.toNat < wilmaMaxCandidateStations := by
  have moved := h.connectToStationIndex (p := p) (m.connectionIndex + 1)
  unfold Manager.nextStation
  dsimp only
  split
  · split
    · exact moved
    · exact moved
  · exact (congrArg UInt32.toNat clearStaConfig_index).trans_lt h.index

theorem Fits.staDisconnected (h : m.Fits) (ssid : Field 32) (reason : UInt8) :
    (m.staDisconnected p ssid reason).connectionIndex.toNat < wilmaMaxCandidateStations := by
  unfold Manager.staDisconnected
  dsimp only
  split
  · exact h.index
  split
  · have chosen := Fits.connectToStationIndex (p := p)
      (m := m.setBits ({ · with disconnected := false })) ⟨h.short, h.index⟩ 0
    split
    · exact chosen
    · exact chosen
  split
  · exact h.index
  split
  · exact h.index
  · obtain ⟨saved, noted⟩ := noteAuthFailure_eq
      (m := m.setBits ({ · with fail := true, connecting := false })) ssid reason
    unfold retriesExhausted
    rw [noted]
    exact Fits.nextStation ⟨h.short, h.index⟩

theorem initiateConnection_index : m.initiateConnection.connectionIndex = m.connectionIndex := by
  unfold initiateConnection
  split <;> rfl

theorem startScan_index : m.startScan.connectionIndex = m.connectionIndex := by
  unfold startScan
  split <;> rfl

theorem Fits.connectStaOrder (h : m.Fits) (param : Option Credentials) :
    (m.connectStaOrder p param).connectionIndex.toNat < wilmaMaxCandidateStations := by
  unfold Manager.connectStaOrder
  cases param with
  | none =>
    have chosen := Fits.connectToStationIndex (p := p) (m := { m with retryNum := 0 })
      ⟨h.short, h.index⟩ 0
    dsimp only
    split
    · exact chosen
    · rw [initiateConnection_index]
      exact chosen
  | some conf =>
    dsimp only
    rw [initiateConnection_index]
    exact (congrArg UInt32.toNat clearStaConfig_index).trans_lt h.index

theorem Fits.takeOrder (h : m.Fits) :
    (m.takeOrder p).connectionIndex.toNat < wilmaMaxCandidateStations := by
  unfold Manager.takeOrder
  cases m.queue with
  | nil => exact h.index
  | cons order rest =>
    cases order with
    | startWifiScan | startWifiScanThenConnect =>
      exact (congrArg UInt32.toNat startScan_index).trans_lt h.index
    | connectSta param =>
      exact Fits.connectStaOrder (m := { m with queue := rest }) ⟨h.short, h.index⟩ param
    | forgetConfig => exact (congrArg UInt32.toNat clearStaConfig_index).trans_lt h.index
    | shutdown => exact h.index

theorem Fits.handle (h : m.Fits) (a : Input) :
    (m.handle p a).connectionIndex.toNat < wilmaMaxCandidateStations := by
  cases a with
  | order => exact h.takeOrder
  | staConnected ssid ssidLen answered =>
    simp only [Manager.handle, staConnected]
    split
    · exact h.index
    · exact h.index
  | staDisconnected ssid reason answered =>
    exact Fits.staDisconnected (m := m.linkEvent false answered) ⟨h.short, h.index⟩ ssid reason
  | scanDone r =>
    simp only [Manager.handle, scanDone, resumeAfterScan]
    split
    · exact h.index
    · split
      · exact h.index
      · exact h.index
  | timerTick =>
    simp only [Manager.handle, retryTimerCb]
    split
    · exact h.index
    · exact h.index
  | addSsid ssid password =>
    simp only [Manager.handle, wilmaAddSsid]
    generalize addStation m.saved .none false ssid password = stored
    obtain ⟨saved, next⟩ := stored
    cases next with
    | connectFirst =>
      have chosen := Fits.connectToStationIndex (p := p) (m := { m with saved := saved })
        ⟨h.short, h.index⟩ 0
      dsimp only
      split
      · exact chosen
      · exact chosen
    | sendConnectSta => exact h.index
    | fail => exact h.index
  | removeSsid ssid =>
    simp only [Manager.handle, wilmaRemoveSsid]
    split
    · exact (congrArg UInt32.toNat clearStaConfig_index).trans_lt h.index
    · exact h.index
  | gotIp | startScan | scanThenConnect | forgetConfigFromIsr | stop | setApEnabled enabled
  | setApSsidPassword ssid password => exact h.index

theorem Fits.step (h : m.Fits) (a : Input) :
    (m.step p a).connectionIndex.toNat < wilmaMaxCandidateStations := by
  unfold Manager.step
  split
  · exact h.handle a
  · exact h.index

theorem reachable_fits (p : Platform) (history : List Operation) (ap : ApSettings)
    (staConfig : Credentials) (as : List Input) :
    (as.foldl (Manager.step p)
      (start p (history.foldl Operation.apply none) ap staConfig)).Fits := by
  have both : ∀ (m : Manager) (a : Input), m.outlook.Tracked ∧ m.Fits →
      (m.step p a).outlook.Tracked ∧ (m.step p a).Fits := by
    rintro m a ⟨tracked, fits⟩
    have tracked' := (step_sound p m a).tracked tracked
    exact ⟨tracked', tracked'.short, fits.step a⟩
  have first := start_tracked p (history.foldl Operation.apply none) ap staConfig
  have index : (start p (history.foldl Operation.apply none) ap staConfig).connectionIndex.toNat <
      wilmaMaxCandidateStations := by
    show (0 : UInt32).toNat < 4
    decide
  exact (Runs.invariant both _ ⟨first, first.short, index⟩ as).2

/-- In 32 unsigned bits every index is below the count of an empty list minus one. -/
theorem Fits.moves_on (fits : m.Fits) (empty : m.lists.connectionList = []) :
    nextStationLeft m.connectionIndex m.lists.connectionList.length = true := by
  have small : m.connectionIndex.toNat < 4 := fits.index
  rw [empty, List.length_nil, nextStationLeft, decide_eq_true_iff]
  omega

theorem fallsBackInTime_iff (fits : m.Fits) :
    m.FallsBackInTime p ↔ (m.UsedUp → m.lists.connectionList ≠ []) := by
  constructor
  · intro careful usedUp empty
    have further := (careful usedUp).2 (fits.moves_on empty)
    rw [empty] at further
    exact absurd further (Nat.not_lt_zero _)
  · intro listed usedUp
    refine ⟨fun empty => absurd empty (listed usedUp), fun next => ?_⟩
    have some_listed : m.lists.connectionList.length ≠ 0 := by
      intro none
      exact listed usedUp (List.length_eq_zero_iff.mp none)
    exact (nextStationLeft_iff some_listed fits.short).mp next

/-- The manager falls back in time exactly in the runs in which the retries are never used up
with an empty list. -/
theorem falls_back_iff (p : Platform) (history : List Operation) (ap : ApSettings)
    (staConfig : Credentials) (as : List Input) :
    let s := start p (history.foldl Operation.apply none) ap staConfig
    Runs.Throughout (Manager.step p) (FallsBackInTime p) s as ↔
      Runs.Throughout (Manager.step p) (fun m => m.UsedUp → m.lists.connectionList ≠ []) s as := by
  intro s
  rw [Runs.throughout_iff_prefix, Runs.throughout_iff_prefix]
  exact forall_congr' fun p => forall_congr' fun _ => fallsBackInTime_iff (reachable_fits _ _ _ _ _)

end Index

/-- A saved station that is not in range, a second one that is asked for by name, and two failed
attempts at it. -/
def nobodyInRange : Manager :=
  [.order, scanOf [], .order, .addSsid hall secret, .order, .staDisconnected (ssidKey hall) 201 1,
    .staDisconnected (ssidKey hall) 201 1].foldl (step plainPlatform) (startWith [.add lab secret])

/-- The third failure connects again. -/
theorem empty_list_moves_on :
    nobodyInRange.UsedUp ∧ nobodyInRange.lists.connectionList = [] ∧
      (nobodyInRange.step plainPlatform (.staDisconnected (ssidKey hall) 201 1)).calls =
        nobodyInRange.calls ++ [.setMode (.apsta (softapConfig plainPlatform.apDefaults .erased).1),
          .connect] ∧
      ¬ FallsBackInTime plainPlatform nobodyInRange := by
  have usedUp : nobodyInRange.UsedUp := ⟨by decide, by decide, by decide, by decide, by decide⟩
  have empty : nobodyInRange.lists.connectionList = [] := by decide
  refine ⟨usedUp, empty, by decide, ?_⟩
  intro careful
  have further := (careful usedUp).2 (by decide)
  exact absurd further (by decide)

end Manager

end Rocom.Wilma
