import Rocom.Wilma.Candidates

/-! One scan after another: whether the candidates are of the last scan that was read, and what a
scan that fails leaves of the visible access points. -/
namespace Rocom.Wilma

open CString

/-! ### The lists of the manager change with scans -/

namespace Manager
variable {p : Platform} {m : Manager}

@[simp] theorem softap_lists (forceOn : Bool) : (m.softap p forceOn).lists = m.lists := rfl

@[simp] theorem startScan_lists : m.startScan.lists = m.lists := by
  unfold startScan
  split <;> rfl

theorem connectToStationIndex_lists (index : UInt32) :
    (m.connectToStationIndex p index).1.lists = m.lists := by
  rcases connectToStationIndex_cases p m index with ⟨_, failed⟩ | ⟨_, _, _, connected⟩
  · rw [failed]
    rfl
  · rw [connected]
    rfl

theorem nextStation_lists : (m.nextStation p).lists = m.lists := by
  unfold nextStation
  split
  · dsimp only
    split <;> exact connectToStationIndex_lists _
  · exact clearStaConfig_lists m

theorem staDisconnected_lists (ssid : Field 32) (reason : UInt8) :
    (m.staDisconnected p ssid reason).lists = m.lists := by
  unfold staDisconnected
  split
  · rfl
  split
  · dsimp only
    split <;> exact connectToStationIndex_lists _
  split
  · rfl
  split
  · rfl
  · unfold retriesExhausted noteAuthFailure
    rw [nextStation_lists]
    split <;> rfl

theorem initiateConnection_lists : m.initiateConnection.lists = m.lists := by
  unfold initiateConnection
  split <;> rfl

theorem connectStaOrder_lists (param : Option Credentials) :
    (m.connectStaOrder p param).lists = m.lists := by
  unfold connectStaOrder
  cases param with
  | none =>
    dsimp only
    split
    · exact connectToStationIndex_lists 0
    · rw [initiateConnection_lists]
      exact connectToStationIndex_lists 0
  | some conf =>
    rw [initiateConnection_lists]
    exact clearStaConfig_lists _

theorem takeOrder_lists : (m.takeOrder p).lists = m.lists := by
  unfold takeOrder
  cases m.queue with
  | nil => rfl
  | cons order rest =>
    cases order with
    | startWifiScan => exact startScan_lists
    | startWifiScanThenConnect => exact startScan_lists
    | connectSta param => exact connectStaOrder_lists param
    | forgetConfig => exact clearStaConfig_lists _
    | shutdown => rfl

theorem addSsid_lists (ssid password : Str) :
    (m.wilmaAddSsid p ssid password).1.lists = m.lists := by
  unfold wilmaAddSsid
  cases addStation m.saved .none false ssid password with
  | mk saved next =>
    cases next with
    | connectFirst =>
      dsimp only
      split <;> exact connectToStationIndex_lists 0
    | sendConnectSta => rfl
    | fail => rfl

theorem removeSsid_lists (ssid : Str) :
    (m.wilmaRemoveSsid ssid).1.lists = m.lists ∨
      (m.wilmaRemoveSsid ssid).1.lists = { m.lists with connectionList := [] } := by
  unfold wilmaRemoveSsid
  dsimp only
  split
  · exact .inr (clearStaConfig_lists _)
  · exact .inl rfl

theorem resumeAfterScan_lists : m.resumeAfterScan.lists = m.lists := by
  unfold resumeAfterScan
  split
  · rfl
  split
  · rfl
  · rfl

/-- Nothing but a scan makes candidates or changes the visible access points. -/
theorem step_lists {a : Input} (other : ∀ r, a ≠ .scanDone r) :
    (m.step p a).lists = m.lists ∨ (m.step p a).lists = { m.lists with connectionList := [] } := by
  unfold step
  split
  · cases a with
    | order => exact .inl takeOrder_lists
    | staConnected ssid ssidLen answered =>
      refine .inl ?_
      unfold handle staConnected
      dsimp only
      split <;> rfl
    | staDisconnected ssid reason answered => exact .inl (staDisconnected_lists ssid reason)
    | scanDone r => exact absurd rfl (other r)
    | gotIp => exact .inl rfl
    | timerTick =>
      refine .inl ?_
      unfold handle retryTimerCb
      dsimp only
      split <;> rfl
    | addSsid ssid password => exact .inl (addSsid_lists ssid password)
    | removeSsid ssid => exact removeSsid_lists ssid
    | _ => exact .inl rfl
  · exact .inl rfl

theorem step_scanDone (running : m.running = true) (r : ScanResult) :
    (m.step p (.scanDone r)).lists = (updateSsidList p.qsort m.saved r m.lists).1 := by
  rw [step, if_pos running]
  exact resumeAfterScan_lists

end Manager

/-! ### What the last scan found -/

/-- The access points of a scan, as far as `update_ssid_list` reads them. -/
def ScanResult.found (r : ScanResult) : List ApRecord :=
  match r.reading with
  | .scan records => records
  | _ => []

def ConnectionEntry.OccursIn (e : ConnectionEntry) (found : List ApRecord) : Prop :=
  ∃ record ∈ found, e.ssid = (visibleAp record).ssid

/-- `update_ssid_list` is called in this step and returns this. -/
def Manager.scanReturns (p : Platform) (m : Manager) (a : Input) (ret : Int) : Bool :=
  match a with
  | .scanDone r => m.running && (updateSsidList p.qsort m.saved r m.lists).2 = ret
  | _ => false

def Input.found : Input → List ApRecord
  | .scanDone r => r.found
  | _ => []

/-- The manager, with what the last scan for which `update_ssid_list` returned ESP_OK found and
what was reported after it. -/
structure Watched where
  manager : Manager
  found : List ApRecord
  shown : List VisibleAp

def Watched.step (p : Platform) (w : Watched) (a : Input) : Watched :=
  let m := w.manager.step p a
  if w.manager.scanReturns p a espOk then ⟨m, a.found, m.lists.visible⟩
  else ⟨m, w.found, w.shown⟩

theorem Input.scan_or_other (a : Input) : (∃ r, a = .scanDone r) ∨ ∀ r, a ≠ .scanDone r := by
  rw [← not_exists]
  exact em _

namespace Manager
variable {p : Platform} {m : Manager}

theorem scanReturns_iff (r : ScanResult) (ret : Int) :
    m.scanReturns p (.scanDone r) ret = true ↔
      m.running = true ∧ (updateSsidList p.qsort m.saved r m.lists).2 = ret := by
  simp [scanReturns]

theorem scanReturns_other {a : Input} (other : ∀ r, a ≠ .scanDone r) (ret : Int) :
    m.scanReturns p a ret = false := by
  cases a with
  | scanDone r => exact absurd rfl (other r)
  | _ => rfl

end Manager

/-- Outside of the scans that are read, the candidates stay or are cleared. -/
theorem Manager.step_unread {p : Platform} {m : Manager} {a : Input}
    (unread : ∀ r records, a = .scanDone r → m.running = true → r.reading ≠ .scan records) :
    (m.step p a).lists.connectionList = m.lists.connectionList ∨
      (m.step p a).lists.connectionList = [] := by
  rcases a.scan_or_other with ⟨r, rfl⟩ | other
  · refine .inl ?_
    by_cases running : m.running = true
    · rw [step_scanDone running, updateSsidList_reading]
      cases read : r.reading with
      | scan records => exact absurd read (unread r records rfl running)
      | _ => rfl
    · rw [step, if_neg running]
  · rcases step_lists other with same | cleared
    · exact .inl (congrArg _ same)
    · exact .inr (congrArg _ cleared)

section Scans
variable {p : Platform} (permutes : ∀ l, (p.qsort apCompareRssi l).Perm l)
  (sorts : ∀ l, (p.qsort apCompareRssi l).Pairwise fun a b => apCompareRssi a b ≤ 0)

include permutes sorts in
/-- The candidates of a scan that is read are of that scan. -/
theorem scan_occurs (saved : Saved) {r : ScanResult} {records : List ApRecord}
    (read : r.reading = .scan records) (s : ScanLists) (e : ConnectionEntry)
    (he : e ∈ (updateSsidList p.qsort saved r s).1.connectionList) : e.OccursIn records := by
  obtain ⟨visible, once, _, lists⟩ := updateSsidList_scan p.qsort permutes sorts saved read s
  rw [lists, candidates_eq_take] at he
  obtain ⟨shown, mem, made⟩ := List.mem_filterMap.mp (List.mem_of_mem_take he)
  obtain ⟨station, _, rfl⟩ := Option.map_eq_some_iff.mp made
  obtain ⟨first, found, same⟩ := (once.merged shown mem).first
  refine ⟨first, List.mem_of_find?_eq_some found, ?_⟩
  rw [same]
  rfl

/-- After a call of `update_ssid_list` that returns ESP_OK, every candidate has an SSID of the
result of that very scan. -/
def CurrentAfter (p : Platform) (m : Manager) (a : Input) : Prop :=
  m.scanReturns p a espOk = true → ∀ e ∈ (m.step p a).lists.connectionList, e.OccursIn a.found

/-- A scan that finds nothing comes when there is no candidate. -/
def EmptyOverNothing (m : Manager) (a : Input) : Prop :=
  ∀ r, a = .scanDone r → m.running = true → r.reading = .empty → m.lists.connectionList = []

include permutes sorts in
theorem currentAfter_iff (m : Manager) (a : Input) :
    CurrentAfter p m a ↔ EmptyOverNothing m a := by
  rcases a.scan_or_other with ⟨r, rfl⟩ | other
  · constructor
    · rintro current r' same running empty
      obtain rfl : r = r' := Input.scanDone.inj same
      have returned : m.scanReturns p (.scanDone r) espOk = true := by
        rw [Manager.scanReturns_iff, updateSsidList_reading, empty]
        exact ⟨running, rfl⟩
      have kept : (m.step p (.scanDone r)).lists.connectionList = m.lists.connectionList := by
        rw [Manager.step_scanDone running, updateSsidList_reading, empty]
      have none_found : (Input.scanDone r).found = [] := by
        simp only [Input.found, ScanResult.found, empty]
      refine List.eq_nil_iff_forall_not_mem.mpr ?_
      intro e he
      obtain ⟨_, mem, _⟩ := current returned e (kept ▸ he)
      rw [none_found] at mem
      cases mem
    · intro guard returned e he
      obtain ⟨running, ok⟩ := (Manager.scanReturns_iff r espOk).mp returned
      rw [Manager.step_scanDone running] at he
      cases read : r.reading with
      | scan records =>
        have found : (Input.scanDone r).found = records := by
          simp only [Input.found, ScanResult.found, read]
        rw [found]
        exact scan_occurs permutes sorts m.saved read m.lists e he
      | empty =>
        rw [updateSsidList_reading, read] at he
        have old : e ∈ m.lists.connectionList := he
        rw [guard r rfl running read] at old
        cases old
      | _ =>
        rw [updateSsidList_reading, read] at ok
        cases ok
  · refine iff_of_true ?_ fun r scan => absurd scan (other r)
    intro returned
    rw [Manager.scanReturns_other other] at returned
    cases returned

/-- Every candidate is of the last scan that was read. -/
def Watched.Current (w : Watched) : Prop :=
  ∀ e ∈ w.manager.lists.connectionList, e.OccursIn w.found

include permutes sorts in
theorem Watched.Current.step_iff {w : Watched} (current : w.Current) (a : Input) :
    (w.step p a).Current ↔ EmptyOverNothing w.manager a := by
  unfold Watched.step
  dsimp only
  split
  · rename_i returned
    rw [← currentAfter_iff permutes sorts w.manager a]
    exact ⟨fun after _ => after, fun after => after returned⟩
  · rename_i not_returned
    have unread : ∀ r records, a = .scanDone r → w.manager.running = true →
        r.reading ≠ .scan records := by
      rintro r records rfl running read
      refine not_returned ?_
      rw [Manager.scanReturns_iff, updateSsidList_reading, read]
      exact ⟨running, rfl⟩
    refine iff_of_true ?_ ?_
    · intro e he
      rcases Manager.step_unread unread with kept | cleared
      · exact current e (kept ▸ he)
      · rw [cleared] at he
        cases he
    · rintro r rfl running empty
      refine absurd ?_ not_returned
      rw [Manager.scanReturns_iff, updateSsidList_reading, empty]
      exact ⟨running, rfl⟩

theorem Watched.step_manager (w : Watched) (a : Input) :
    (w.step p a).manager = w.manager.step p a := by
  unfold Watched.step
  dsimp only
  split <;> rfl

include permutes sorts in
/-- Whole runs leave candidates of an older scan exactly when a scan finds nothing while there are
candidates. -/
theorem candidates_current_iff (w : Watched) (current : w.Current) (as : List Input) :
    (Runs.Along (Manager.step p) (CurrentAfter p) w.manager as ↔
      Runs.Along (Manager.step p) EmptyOverNothing w.manager as) ∧
    (Runs.Throughout (Watched.step p) Watched.Current w as ↔
      Runs.Along (Manager.step p) EmptyOverNothing w.manager as) := by
  refine ⟨Runs.along_congr (currentAfter_iff permutes sorts) w.manager as, ?_⟩
  rw [← Runs.along_comap Watched.manager Watched.step_manager]
  have exact_guard : ∀ (w : Watched) (a : Input), True → w.Current →
      ((w.step p a).Current ↔ EmptyOverNothing w.manager a) :=
    fun w a _ current => Watched.Current.step_iff permutes sorts current a
  exact Runs.throughout_iff_along (I := fun _ => True) (fun _ _ _ => trivial) exact_guard w
    trivial current as

/-! ### What is reported after a scan that failed -/

/-- After a call of `update_ssid_list` that returns ESP_FAIL, the visible access points are those
of before or none. -/
def ConsistentAfter (p : Platform) (m : Manager) (a : Input) : Prop :=
  m.scanReturns p a espFail = true →
    (m.step p a).lists.visible = m.lists.visible ∨ (m.step p a).lists.visible = []

/-- When the records cannot be read, their number is that of the visible access points. -/
def MissingAsMany (m : Manager) (a : Input) : Prop :=
  ∀ r n, a = .scanDone r → m.running = true → r.reading = .noRecords n →
    n = m.lists.visibleApsCount

theorem length_visible (s : ScanLists) : s.visible.length = s.visibleApsCount := by
  rw [ScanLists.visible, List.length_map, List.length_range]

theorem missingAsMany_of_reading {m : Manager} {r : ScanResult}
    (records : ∀ n, r.reading ≠ .noRecords n) : MissingAsMany m (.scanDone r) := by
  rintro r' n same _ read
  obtain rfl : r = r' := Input.scanDone.inj same
  exact absurd read (records n)

theorem consistentAfter_iff (m : Manager) (a : Input) :
    ConsistentAfter p m a ↔ MissingAsMany m a := by
  rcases a.scan_or_other with ⟨r, rfl⟩ | other
  · by_cases running : m.running = true
    · rw [ConsistentAfter, Manager.scanReturns_iff, Manager.step_scanDone running,
        updateSsidList_reading]
      cases read : r.reading with
      | noRecords n =>
        constructor
        · rintro consistent r' n' same _ read'
          obtain rfl : r = r' := Input.scanDone.inj same
          obtain rfl : n = n' := Reading.noRecords.inj (read.symm.trans read')
          rcases consistent ⟨running, rfl⟩ with kept | cleared
          · have lengths := congrArg List.length kept
            rwa [length_visible, length_visible] at lengths
          · have lengths := congrArg List.length cleared
            rw [length_visible] at lengths
            exact absurd lengths (ScanResult.reading_noRecords read)
        · intro guard _
          rw [guard r n rfl running read]
          exact .inl rfl
      | unavailable =>
        exact iff_of_true (fun _ => .inl rfl) (missingAsMany_of_reading (by simp [read]))
      | noMemory =>
        exact iff_of_true (fun _ => .inr rfl) (missingAsMany_of_reading (by simp [read]))
      | _ =>
        refine iff_of_true ?_ (missingAsMany_of_reading (by simp [read]))
        rintro ⟨_, failed⟩
        cases failed
    · refine iff_of_true ?_ fun _ _ _ runs => absurd runs running
      intro returned
      exact absurd ((Manager.scanReturns_iff r espFail).mp returned).1 running
  · refine iff_of_true ?_ fun r _ scan => absurd scan (other r)
    intro returned
    rw [Manager.scanReturns_other other] at returned
    cases returned

/-- What is reported is nothing, or what was reported after the last scan that was read. -/
def Watched.Consistent (w : Watched) : Prop :=
  w.manager.lists.visible = w.shown ∨ w.manager.lists.visible = []

/-- `update_ssid_list` returns one of two results. -/
theorem updateSsidList_returns
    (qsort : (ApRecord → ApRecord → Int) → List ApRecord → List ApRecord)
    (saved : Saved) (r : ScanResult) (s : ScanLists) :
    (updateSsidList qsort saved r s).2 = espOk ∨ (updateSsidList qsort saved r s).2 = espFail := by
  rw [updateSsidList_reading]
  cases r.reading with
  | empty => exact .inl rfl
  | scan records => exact .inl rfl
  | _ => exact .inr rfl

theorem Watched.Consistent.step {w : Watched} (consistent : w.Consistent) {a : Input}
    (guard : MissingAsMany w.manager a) : (w.step p a).Consistent := by
  unfold Watched.step
  dsimp only
  split
  · exact .inl rfl
  rename_i not_returned
  rcases a.scan_or_other with ⟨r, rfl⟩ | other
  · by_cases running : w.manager.running = true
    · have not_ok : (updateSsidList p.qsort w.manager.saved r w.manager.lists).2 ≠ espOk :=
        fun ok => not_returned ((Manager.scanReturns_iff r espOk).mpr ⟨running, ok⟩)
      have failed : w.manager.scanReturns p (.scanDone r) espFail = true :=
        (Manager.scanReturns_iff r espFail).mpr
          ⟨running, (updateSsidList_returns _ _ _ _).resolve_left not_ok⟩
      rcases (consistentAfter_iff w.manager (.scanDone r)).mpr guard failed with kept | cleared
      · rw [Watched.Consistent, kept]
        exact consistent
      · exact .inr cleared
    · rw [Watched.Consistent, Manager.step, if_neg running]
      exact consistent
  · have same : (w.manager.step p a).lists.visible = w.manager.lists.visible := by
      rcases Manager.step_lists other with same | cleared
      · rw [same]
      · rw [cleared]
        rfl
    rw [Watched.Consistent, same]
    exact consistent

/-- Over whole runs: a failed scan leaves what was reported, or nothing, exactly when the records
that cannot be read are as many as the visible access points; then only the last scan that was
read is ever reported. -/
theorem visible_consistent_iff (w : Watched) (consistent : w.Consistent) (as : List Input) :
    (Runs.Along (Manager.step p) (ConsistentAfter p) w.manager as ↔
      Runs.Along (Manager.step p) MissingAsMany w.manager as) ∧
    (Runs.Along (Manager.step p) MissingAsMany w.manager as →
      Runs.Throughout (Watched.step p) Watched.Consistent w as) := by
  refine ⟨Runs.along_congr consistentAfter_iff w.manager as, ?_⟩
  rw [← Runs.along_comap Watched.manager Watched.step_manager]
  have keeps : ∀ (w : Watched) (a : Input), w.Consistent → MissingAsMany w.manager a →
      (w.step p a).Consistent := fun w a consistent guard => consistent.step guard
  exact Runs.guarded_throughout keeps (fun _ consistent => consistent) w consistent as

end Scans

/-! ### A place left behind, and records that cannot be read -/

/-- The manager at its start, where no scan has been read. -/
def watchedFrom (m : Manager) : Watched := ⟨m, [], []⟩

/-- Two scans; the second one finds another network next to the one that is saved. -/
def twoScans : List Input :=
  [.order, scanOf [seen lab (-40)], .order, .startScan, .order,
    scanOf [seen lab (-50), seen hall (-60)]]

theorem twoScans_read {r : ScanResult} (listed : .scanDone r ∈ twoScans) :
    r.reading ≠ .empty ∧ ∀ n, r.reading ≠ .noRecords n := by
  simp only [twoScans, scanOf, List.mem_cons, List.not_mem_nil, or_false, reduceCtorEq, false_or,
    Input.scanDone.injEq] at listed
  rcases listed with rfl | rfl <;> exact ⟨nofun, nofun⟩

theorem candidates_current_lab :
    Runs.Along (Manager.step plainPlatform) (CurrentAfter plainPlatform)
        (startWith [.add lab secret]) twoScans ∧
      Runs.Throughout (Watched.step plainPlatform) Watched.Current
        (watchedFrom (startWith [.add lab secret])) twoScans := by
  have current := candidates_current_iff plain_permutes plain_sorts
    (watchedFrom (startWith [.add lab secret])) (fun _ he => absurd he List.not_mem_nil) twoScans
  have found : Runs.Along (Manager.step plainPlatform) EmptyOverNothing
      (startWith [.add lab secret]) twoScans := by
    apply Runs.along_of_forall
    rintro m a listed r rfl _ empty
    exact absurd empty (twoScans_read listed).1
  exact ⟨current.1.mpr found, current.2.mpr found⟩

/-- A saved network is seen and connected to; then the device is carried out of its range, and
the next scan finds nothing. -/
def carriedAway : List Input :=
  [.order, scanOf [seen lab (-40)], .order, .startScan, .order, scanOf []]

theorem carriedAway_not_current :
    ¬ Runs.Along (Manager.step plainPlatform) (CurrentAfter plainPlatform)
      (startWith [.add lab secret]) carriedAway := by
  rintro ⟨_, _, _, _, _, current, _⟩
  have returned : Manager.scanReturns plainPlatform
      ((carriedAway.take 5).foldl (Manager.step plainPlatform) (startWith [.add lab secret]))
      (scanOf []) espOk = true := by decide
  have left : connectionEntry (seen lab (-40)) (firstEntry lab secret) ∈
      (carriedAway.foldl (Manager.step plainPlatform)
        (startWith [.add lab secret])).lists.connectionList := by decide
  obtain ⟨_, none_found, _⟩ := current returned _ left
  cases none_found

theorem visible_consistent_lab :
    Runs.Along (Manager.step plainPlatform) (ConsistentAfter plainPlatform)
        (startWith [.add lab secret]) twoScans ∧
      Runs.Throughout (Watched.step plainPlatform) Watched.Consistent
        (watchedFrom (startWith [.add lab secret])) twoScans := by
  have consistent := visible_consistent_iff (p := plainPlatform)
    (watchedFrom (startWith [.add lab secret])) (.inl rfl) twoScans
  have found : Runs.Along (Manager.step plainPlatform) MissingAsMany
      (startWith [.add lab secret]) twoScans := by
    apply Runs.along_of_forall
    rintro m a listed r n rfl _ missing
    exact absurd missing ((twoScans_read listed).2 n)
  exact ⟨consistent.1.mpr found, consistent.2 found⟩

/-- One access point is visible; the next scan finds two, and their records cannot be read. -/
def recordsLost : List Input :=
  [.order, scanOf [seen lab (-40)], .order, .startScan, .order,
    .scanDone ⟨true, some 2, true, none⟩]

theorem recordsLost_not_consistent :
    ¬ Runs.Along (Manager.step plainPlatform) (ConsistentAfter plainPlatform)
      (startWith [.add lab secret]) recordsLost := by
  rintro ⟨_, _, _, _, _, consistent, _⟩
  have returned : Manager.scanReturns plainPlatform
      ((recordsLost.take 5).foldl (Manager.step plainPlatform) (startWith [.add lab secret]))
      (.scanDone ⟨true, some 2, true, none⟩) espFail = true := by decide
  have after : (recordsLost.foldl (Manager.step plainPlatform)
      (startWith [.add lab secret])).lists.visible =
        [visibleAp (seen lab (-40)), .zero] := by decide
  have before : ((recordsLost.take 5).foldl (Manager.step plainPlatform)
      (startWith [.add lab secret])).lists.visible = [visibleAp (seen lab (-40))] := by decide
  rcases consistent returned with kept | cleared
  · have lengths := congrArg List.length (after.symm.trans (kept.trans before))
    cases lengths
  · cases after.symm.trans cleared

end Rocom.Wilma
