import Rocom.Wilma.Manager

/-! Which stations the manager connects to. Its candidate list is a copy of saved stations made
by a scan; as long as no other step changes a station the list holds, every candidate that is
used is saved. -/
namespace Rocom.Wilma

open CString KeyedList

/-- The stored form of the SSID a driver field holds. -/
def Credentials.key (c : Credentials) : Field 32 := pad 32 (text c.ssid.bytes)

def SavedPair (saved : Saved) (c : Credentials) : Prop :=
  ∃ e ∈ stations saved, e.ssid = c.key ∧ e.password = c.password

instance (saved : Saved) (c : Credentials) : Decidable (SavedPair saved c) :=
  inferInstanceAs (Decidable (∃ e ∈ stations saved, e.ssid = c.key ∧ e.password = c.password))

theorem savedPair_iff {saved : Saved} (h : WellFormed saved) (c : Credentials) :
    SavedPair saved c ↔ (directory saved c.key).map (·.password) = some c.password := by
  constructor
  · rintro ⟨e, he, keyed, same⟩
    have held : directory saved c.key = some e := (lookup_eq_some_iff h.unique).mpr ⟨he, keyed⟩
    rw [held, Option.map_some, same]
  · intro held
    obtain ⟨e, found, same⟩ := Option.map_eq_some_iff.mp held
    obtain ⟨he, keyed⟩ := (lookup_eq_some_iff h.unique).mp found
    exact ⟨e, he, keyed, same⟩

theorem Directory.Step.passwords {d d' : Directory} {ssid : Field 32} {newState : StaState}
    (h : d.Step (.setState ssid newState) d') (k : Field 32) :
    (d' k).map (·.password) = (d k).map (·.password) := by
  by_cases same : k = ssid
  · rw [same, h.stateSet, Option.map_map]
    rfl
  · rw [h.frame same]

namespace Manager

/-- Every candidate is a saved station with its password. -/
def Coherent (m : Manager) : Prop :=
  ∀ c ∈ m.lists.connectionList, SavedPair m.saved c.credentials

/-- Every pair that `connect_to_station_index` has passed was saved at that moment. -/
def UsesSaved (m : Manager) : Prop :=
  ∀ conf saved, Call.setCandidate conf saved ∈ m.calls → SavedPair saved conf

/-- A change that concerns no candidate and no saved password. -/
structure Kept (m n : Manager) : Prop where
  formed : WellFormed m.saved → WellFormed n.saved
  pairs : WellFormed m.saved → ∀ c, SavedPair n.saved c ↔ SavedPair m.saved c
  list : n.lists.connectionList = m.lists.connectionList
  uses : WellFormed m.saved → Coherent m → UsesSaved m → UsesSaved n

namespace Kept
variable {m n q : Manager}

theorem refl (m : Manager) : Kept m m := ⟨id, fun _ _ => Iff.rfl, rfl, fun _ _ h => h⟩

theorem coherent (k : Kept m n) (h : WellFormed m.saved) : Coherent n ↔ Coherent m := by
  unfold Coherent
  rw [k.list]
  exact forall₂_congr fun c _ => k.pairs h c.credentials

theorem of_calls {c : List Call} (saved : n.saved = m.saved)
    (list : n.lists.connectionList = m.lists.connectionList) (calls : n.calls = m.calls ++ c)
    (plain : ∀ conf saved, Call.setCandidate conf saved ∉ c) : Kept m n where
  formed h := saved ▸ h
  pairs _ c := by rw [saved]
  list := list
  uses _ _ used := by
    intro conf s hs
    rw [calls] at hs
    rcases List.mem_append.mp hs with old | new
    · exact used conf s old
    · exact absurd new (plain conf s)

theorem of_eq (saved : n.saved = m.saved)
    (list : n.lists.connectionList = m.lists.connectionList) (calls : n.calls = m.calls) :
    Kept m n :=
  of_calls (c := []) saved list (by simpa using calls) (by simp)

theorem trans (k : Kept m n) (k' : Kept n q) : Kept m q where
  formed h := k'.formed (k.formed h)
  pairs h c := (k'.pairs (k.formed h) c).trans (k.pairs h c)
  list := k'.list.trans k.list
  uses h coherent used := k'.uses (k.formed h) ((k.coherent h).mpr coherent) (k.uses h coherent used)

theorem setBits (k : Kept m n) (f : EventBits → EventBits) : Kept m (n.setBits f) :=
  k.trans (of_eq rfl rfl rfl)

theorem sendMessage (k : Kept m n) (order : Order) : Kept m (n.sendMessage order) :=
  k.trans (of_eq rfl rfl rfl)

theorem espWifiConnect (k : Kept m n) : Kept m n.espWifiConnect :=
  k.trans (of_calls (c := [.connect]) rfl rfl rfl (by simp))

theorem espWifiDisconnect (k : Kept m n) : Kept m n.espWifiDisconnect :=
  k.trans (of_calls (c := [.disconnect]) rfl rfl rfl (by simp))

theorem espWifiScanStart (k : Kept m n) : Kept m n.espWifiScanStart :=
  k.trans (of_calls (c := [.scanStart]) rfl rfl rfl (by simp))

theorem espWifiSetConfig (k : Kept m n) (conf : Credentials) :
    Kept m (n.espWifiSetConfig conf) :=
  k.trans (of_calls (c := [.setConfig conf]) rfl rfl rfl (by simp))

theorem timerStart (k : Kept m n) : Kept m n.timerStart :=
  k.trans (of_calls (c := [.timerStart]) rfl rfl rfl (by simp))

theorem timerStop (k : Kept m n) : Kept m n.timerStop :=
  k.trans (of_calls (c := [.timerStop]) rfl rfl rfl (by simp))

variable (p : Platform)

theorem softap (k : Kept m n) (forceOn : Bool) : Kept m (n.softap p forceOn) :=
  k.trans (of_calls (c := [.setMode _]) rfl rfl rfl (by simp))

theorem stop (k : Kept m n) : Kept m { n.call .stop with running := false } :=
  k.trans (of_calls (c := [.stop]) rfl rfl rfl (by simp))

theorem startScan (k : Kept m n) : Kept m n.startScan := by
  unfold Manager.startScan
  split
  · exact k
  · exact ((k.setBits _).espWifiDisconnect).espWifiScanStart

theorem beginConnecting (k : Kept m n) : Kept m n.beginConnecting :=
  (k.setBits _).espWifiConnect

theorem clearStaConfig (k : Kept m n) : Kept m n.clearStaConfig := by
  unfold Manager.clearStaConfig
  refine ((setBits ?_ _).espWifiDisconnect).espWifiSetConfig _
  split
  · exact k.setBits _
  · exact k

/-- The one use of a candidate. -/
theorem connectToStationIndex (k : Kept m n) (index : UInt32) :
    Kept m (n.connectToStationIndex p index).1 := by
  rcases connectToStationIndex_cases p n index with ⟨_, failed⟩ | ⟨chosen, entry, found, made⟩
  · rw [failed]
    exact k.softap p true
  · rw [made]
    refine k.trans ⟨id, fun _ _ => Iff.rfl, rfl, ?_⟩
    intro _ coherent used conf s hs
    rcases List.mem_append.mp hs with old | new
    · exact used conf s old
    · obtain ⟨rfl, rfl⟩ := Call.setCandidate.inj (List.mem_singleton.mp new)
      exact coherent _ (List.mem_of_getElem? found)

theorem storeSsidState (k : Kept m n) (ssid : Field 32) (newState : StaState) :
    Kept m (n.storeSsidState ssid newState) := by
  refine k.trans ⟨fun h => (setState_step h ssid newState).1, ?_, rfl, fun _ _ used => used⟩
  intro h c
  obtain ⟨formed, step⟩ := setState_step h ssid newState
  exact (savedPair_iff formed c).trans (step.passwords c.key ▸ (savedPair_iff h c).symm)

theorem noteAuthFailure (k : Kept m n) (ssid : Field 32) (reason : UInt8) :
    Kept m (n.noteAuthFailure ssid reason) := by
  unfold Manager.noteAuthFailure
  split
  · exact k.storeSsidState ssid .authFailure
  · exact k

theorem nextStation (k : Kept m n) : Kept m (n.nextStation p) := by
  unfold Manager.nextStation
  dsimp only
  split
  · split
    · exact trans ((k.connectToStationIndex p _).beginConnecting) (of_eq rfl rfl rfl)
    · exact k.connectToStationIndex p _
  · exact ((k.clearStaConfig).softap p true).timerStart

theorem staDisconnected (k : Kept m n) (ssid : Field 32) (reason : UInt8) :
    Kept m (n.staDisconnected p ssid reason) := by
  unfold Manager.staDisconnected
  dsimp only
  split
  · exact (k.setBits _).espWifiConnect
  · split
    · have told := (k.setBits ({ · with disconnected := false })).connectToStationIndex p 0
      split
      · exact told.timerStart
      · exact told.beginConnecting
    · split
      · exact k
      · split
        · exact espWifiConnect (k.trans (of_eq rfl rfl rfl))
        · exact ((k.setBits _).noteAuthFailure ssid reason).nextStation p

theorem staConnected (k : Kept m n) (ssid : Field 32) (ssidLen : UInt8) :
    Kept m (n.staConnected ssid ssidLen) := by
  unfold Manager.staConnected
  have named := k.trans (of_eq (n := { n with stationSsid := pad 33 (ssid.bytes ++ [ssidLen]) })
    rfl rfl rfl)
  dsimp only
  split
  · exact (named.setBits _).espWifiConnect
  · exact named

theorem gotIp (k : Kept m n) : Kept m (n.gotIp p) := by
  unfold Manager.gotIp
  refine softap p (storeSsidState (setBits (timerStop (k.trans ?_)) _) _ _) false
  exact of_eq rfl rfl rfl

theorem initiateConnection (k : Kept m n) : Kept m n.initiateConnection := by
  unfold Manager.initiateConnection
  split
  · exact k.setBits _
  · exact k.espWifiConnect

theorem connectStaOrder (k : Kept m n) (param : Option Credentials) :
    Kept m (n.connectStaOrder p param) := by
  unfold Manager.connectStaOrder
  have reset := k.trans (of_eq (n := { n with retryNum := 0 }) rfl rfl rfl)
  cases param with
  | none =>
    dsimp only
    split
    · exact (reset.connectToStationIndex p 0).timerStart
    · exact (reset.connectToStationIndex p 0).initiateConnection
  | some conf => exact ((reset.clearStaConfig).espWifiSetConfig conf).initiateConnection

theorem resumeAfterScan (k : Kept m n) : Kept m n.resumeAfterScan := by
  unfold Manager.resumeAfterScan
  split
  · exact k.espWifiConnect
  · split
    · exact (k.setBits _).sendMessage _
    · exact k

theorem setApEnabled (k : Kept m n) (enabled : Bool) : Kept m (n.wilmaSetApEnabled p enabled) :=
  k.trans (of_calls (c := [.setMode _]) rfl rfl rfl (by simp))

theorem retryTimerCb (k : Kept m n) : Kept m n.retryTimerCb := by
  unfold Manager.retryTimerCb
  dsimp only
  split
  · exact k.timerStop
  · exact k.timerStop.sendMessage _

end Kept

/-! ### The steps that change the list or a saved password -/

/-- A record matches a station whose stored SSID is the record's. -/
theorem savedPair_of_match {saved : Saved} (h : WellFormed saved) {r : ApRecord}
    {station : StationEntry} (member : station ∈ stations saved)
    (hit : recordMatches r station = true) :
    SavedPair saved (connectionEntry r station).credentials := by
  refine ⟨station, member, ?_, rfl⟩
  have same := ((h.padded station member).strncmp_iff r.ssid.bytes).mp (of_decide_eq_true hit)
  exact same.trans (pad_text_pad 32 r.ssid.bytes).symm

theorem stations_of_load {saved : Saved} :
    ∀ e ∈ (getSavedStations saved .none).1.getD [], e ∈ stations saved := by
  intro e he
  cases loaded : (getSavedStations saved .none).1 with
  | none =>
    rw [loaded] at he
    exact absurd he List.not_mem_nil
  | some entries =>
    rw [loaded] at he
    exact load_eq_some loaded ▸ he

theorem coherent_scan {m : Manager} (h : WellFormed m.saved) (coherent : Coherent m)
    (p : Platform) (r : ScanResult) :
    Coherent (m.refreshLists p r) := by
  intro c hc
  rcases updateSsidList_list p.qsort m.saved r m.lists with kept | ⟨records, made⟩
  · exact coherent c (kept ▸ hc)
  · obtain ⟨record, station, member, hit, rfl⟩ := mem_candidates (made ▸ hc)
    exact savedPair_of_match h (stations_of_load station member) hit

/-- A step that stays coherent exactly under `guard`. -/
structure Changed (m n : Manager) (guard : Prop) : Prop where
  formed : WellFormed m.saved → WellFormed n.saved
  uses : WellFormed m.saved → Coherent m → UsesSaved m → UsesSaved n
  coherent : WellFormed m.saved → Coherent m → (Coherent n ↔ guard)

theorem Kept.changed {m n : Manager} {guard : Prop} (k : Kept m n) (free : guard) :
    Changed m n guard where
  formed := k.formed
  uses := k.uses
  coherent h coherent := iff_of_true ((k.coherent h).mpr coherent) free

theorem uses_of_plain {m n : Manager} {c : List Call} (calls : n.calls = m.calls ++ c)
    (plain : ∀ conf saved, Call.setCandidate conf saved ∉ c) (h : UsesSaved m) : UsesSaved n := by
  intro conf saved hs
  rw [calls] at hs
  rcases List.mem_append.mp hs with old | new
  · exact h conf saved old
  · exact absurd new (plain conf saved)

theorem scanDone_changed (p : Platform) (m : Manager) (r : ScanResult) :
    Changed m (m.scanDone p r) True := by
  have before : Kept m (m.setBits ({ · with scan := false })) := Kept.of_eq rfl rfl rfl
  have after := (Kept.refl ((m.setBits ({ · with scan := false })).refreshLists p r)).resumeAfterScan
  constructor
  · intro h
    exact after.formed (before.formed h)
  · intro h coherent used
    have listed := coherent_scan (before.formed h) ((before.coherent h).mpr coherent) p r
    exact after.uses (before.formed h) listed (before.uses h coherent used)
  · intro h coherent
    have listed := coherent_scan (before.formed h) ((before.coherent h).mpr coherent) p r
    exact iff_of_true ((after.coherent (before.formed h)).mpr listed) trivial

theorem forgetConfig_changed (p : Platform) (m : Manager) :
    Changed m (m.forgetConfig p) (m.lists.connectionList = []) := by
  have saved : (m.forgetConfig p).saved = none := clearStaConfig_saved _
  have list : (m.forgetConfig p).lists = m.lists := clearStaConfig_lists _
  constructor
  · intro _
    rw [saved]
    exact wellFormed_none
  · intro _ _
    apply uses_of_plain (c := [.disconnect, .setConfig .zero, .setMode _])
    · show (clearStaConfig _).calls ++ _ = _
      rw [clearStaConfig_calls, List.append_assoc]
      rfl
    · simp
  · intro _ _
    constructor
    · intro coherent
      apply List.eq_nil_iff_forall_not_mem.mpr
      intro c hc
      obtain ⟨e, he, _⟩ := coherent c (list ▸ hc)
      rw [saved] at he
      exact absurd he List.not_mem_nil
    · intro empty c hc
      rw [list, empty] at hc
      exact absurd hc List.not_mem_nil

/-- Writing one SSID concerns the candidates of this SSID only. -/
theorem coherent_update {m n : Manager} {k : Field 32} {v : Option StationEntry}
    (h : WellFormed m.saved) (formed : WellFormed n.saved)
    (list : n.lists.connectionList = m.lists.connectionList)
    (written : directory n.saved = Function.update (directory m.saved) k v) (coherent : Coherent m) :
    Coherent n ↔ ∀ c ∈ m.lists.connectionList, c.credentials.key = k →
      v.map (·.password) = some c.password := by
  unfold Coherent
  rw [list]
  apply forall₂_congr
  intro c hc
  rw [savedPair_iff formed, written]
  by_cases hit : c.credentials.key = k
  · rw [hit, Function.update_self]
    exact ⟨fun same _ => same, fun same => same rfl⟩
  · rw [Function.update_of_ne hit]
    exact iff_of_true ((savedPair_iff h _).mp (coherent c hc)) fun same => absurd same hit

theorem no_candidates {m : Manager} (empty : stations m.saved = []) (coherent : Coherent m) :
    m.lists.connectionList = [] := by
  apply List.eq_nil_iff_forall_not_mem.mpr
  intro c hc
  obtain ⟨e, he, _⟩ := coherent c hc
  rw [empty] at he
  exact List.not_mem_nil he

theorem addSsid_changed (p : Platform) (m : Manager) (ssid password : Str) :
    Changed m (m.wilmaAddSsid p ssid password).1 (∀ c ∈ m.lists.connectionList,
      c.credentials.key = ssidKey ssid → c.password = Field.copy 64 password 64) := by
  let stored : Manager := { m with saved := (addStation m.saved .none false ssid password).1 }
  have written : ∀ h : WellFormed m.saved, Coherent m → (Coherent stored ↔
      ∀ c ∈ m.lists.connectionList, c.credentials.key = ssidKey ssid →
        c.password = Field.copy 64 password 64) := by
    intro h coherent
    obtain ⟨formed, e, added, written⟩ := add_written h ssid password
    rw [coherent_update (n := stored) h formed rfl written coherent]
    by_cases empty : m.saved = none
    · rw [no_candidates (congrArg stations empty) coherent]
      simp
    · rw [Option.map_some, added.password_later empty]
      simp only [Option.some.injEq, eq_comm]
  have kept : Kept stored (m.wilmaAddSsid p ssid password).1 := by
    unfold wilmaAddSsid
    dsimp only
    split
    · dsimp only
      split
      · exact ((Kept.refl stored).connectToStationIndex p 0).beginConnecting
      · exact (Kept.refl stored).connectToStationIndex p 0
    · exact (Kept.refl stored).sendMessage _
    · exact Kept.refl stored
  constructor
  · intro h
    exact kept.formed (add_written h ssid password).1
  · intro h coherent used
    by_cases empty : stations m.saved = []
    · have listed : Coherent stored := by
        intro c hc
        rw [show stored.lists = m.lists from rfl, no_candidates empty coherent] at hc
        exact absurd hc List.not_mem_nil
      exact kept.uses (add_written h ssid password).1 listed used
    · have sent : (m.wilmaAddSsid p ssid password).1.calls = m.calls := by
        unfold wilmaAddSsid
        dsimp only
        rw [addStation_later empty]
        rfl
      exact uses_of_plain (c := []) (by simpa using sent) (by simp) used
  · intro h coherent
    exact (kept.coherent (add_written h ssid password).1).trans (written h coherent)

theorem removeStation_kept {saved : Saved} {faults : LoadFaults} {ssid : Str}
    (missing : (removeStation saved faults ssid).2 = false) :
    (removeStation saved faults ssid).1 = saved := by
  unfold removeStation at missing ⊢
  generalize (getSavedStations saved faults).1 = loaded at missing ⊢
  cases loaded with
  | none => rfl
  | some entries =>
    dsimp only at missing ⊢
    split at missing
    · cases missing
    · rfl

theorem removeSsid_changed (m : Manager) (ssid : Str) :
    Changed m (m.wilmaRemoveSsid ssid).1 (∀ c ∈ m.lists.connectionList,
      c.credentials.key = ssidKey ssid → strncmp 32 m.staConfig.ssid.bytes ssid.chars = 0) := by
  unfold wilmaRemoveSsid
  dsimp only
  split
  · -- the configured station: the whole list goes
    rename_i hit
    have configured : strncmp 32 m.staConfig.ssid.bytes ssid.chars = 0 :=
      of_decide_eq_true (Bool.and_eq_true_iff.mp hit).2
    constructor
    · intro h
      rw [clearStaConfig_saved]
      exact (remove_step h ssid).1
    · intro _ _
      exact uses_of_plain (clearStaConfig_calls _) (by simp)
    · intro _ _
      refine iff_of_true ?_ fun _ _ _ => configured
      intro c hc
      rw [clearStaConfig_lists] at hc
      exact absurd hc List.not_mem_nil
  · rename_i miss
    constructor
    · intro h
      exact (remove_step h ssid).1
    · intro _ _ used
      exact used
    · intro h coherent
      obtain ⟨formed, step⟩ := remove_step h ssid
      let stored : Manager := { m with saved := (removeStation m.saved .none ssid).1 }
      have gone : Coherent stored ↔
          ∀ c ∈ m.lists.connectionList, c.credentials.key = ssidKey ssid → False := by
        rw [coherent_update (n := stored) h formed rfl step.eq_removed coherent]
        simp
      show Coherent stored ↔ _
      cases removed : (removeStation m.saved .none ssid).2 with
      | false =>
        have same : Coherent stored := by
          intro c hc
          rw [show stored.saved = m.saved from removeStation_kept removed]
          exact coherent c hc
        exact iff_of_true same fun c hc hit => absurd (gone.mp same c hc hit) not_false
      | true =>
        have other : strncmp 32 m.staConfig.ssid.bytes ssid.chars ≠ 0 := by
          intro configured
          exact miss (by simp [removed, configured])
        rw [gone]
        exact forall₂_congr fun c _ => by simp [other]

/-- The step changes no saved station that the candidate list holds: orders to forget everything
find it empty, a station it holds is only removed when it is the configured one (which drops the
list), and only added again with the password it has. -/
def SparesCandidates (m : Manager) (a : Input) : Prop :=
  m.running = true →
    match a with
    | .order => m.queue.head? = some .forgetConfig → m.lists.connectionList = []
    | .addSsid ssid password =>
      ∀ c ∈ m.lists.connectionList,
        c.credentials.key = ssidKey ssid → c.password = Field.copy 64 password 64
    | .removeSsid ssid =>
      ∀ c ∈ m.lists.connectionList,
        c.credentials.key = ssidKey ssid → strncmp 32 m.staConfig.ssid.bytes ssid.chars = 0
    | _ => True

instance (m : Manager) : (a : Input) → Decidable (SparesCandidates m a)
  | .order => inferInstanceAs (Decidable (m.running = true →
      m.queue.head? = some .forgetConfig → m.lists.connectionList = []))
  | .addSsid ssid password => inferInstanceAs (Decidable (m.running = true →
      ∀ c ∈ m.lists.connectionList,
        c.credentials.key = ssidKey ssid → c.password = Field.copy 64 password 64))
  | .removeSsid ssid => inferInstanceAs (Decidable (m.running = true →
      ∀ c ∈ m.lists.connectionList,
        c.credentials.key = ssidKey ssid → strncmp 32 m.staConfig.ssid.bytes ssid.chars = 0))
  | .staConnected _ _ _ => isTrue fun _ => trivial
  | .staDisconnected _ _ _ => isTrue fun _ => trivial
  | .scanDone _ => isTrue fun _ => trivial
  | .gotIp => isTrue fun _ => trivial
  | .timerTick => isTrue fun _ => trivial
  | .startScan => isTrue fun _ => trivial
  | .scanThenConnect => isTrue fun _ => trivial
  | .forgetConfigFromIsr => isTrue fun _ => trivial
  | .stop => isTrue fun _ => trivial
  | .setApEnabled _ => isTrue fun _ => trivial
  | .setApSsidPassword _ _ => isTrue fun _ => trivial

theorem order_changed (p : Platform) (m : Manager) :
    Changed m (m.takeOrder p)
      (m.queue.head? = some .forgetConfig → m.lists.connectionList = []) := by
  unfold takeOrder
  cases m.queue with
  | nil => exact (Kept.refl m).changed nofun
  | cons order rest =>
    have taken : Kept m { m with queue := rest } := Kept.of_eq rfl rfl rfl
    cases order with
    | startWifiScan => exact taken.startScan.changed nofun
    | startWifiScanThenConnect => exact ((taken.setBits _).startScan).changed nofun
    | connectSta param => exact (taken.connectStaOrder p param).changed nofun
    | shutdown => exact taken.stop.changed nofun
    | forgetConfig =>
      obtain ⟨formed, uses, coherent⟩ := forgetConfig_changed p { m with queue := rest }
      refine ⟨formed, uses, fun h c => (coherent h c).trans ?_⟩
      exact ⟨fun empty _ => empty, fun empty => empty rfl⟩

theorem handle_changed (p : Platform) (m : Manager) (a : Input) (running : m.running = true) :
    Changed m (m.handle p a) (SparesCandidates m a) := by
  unfold SparesCandidates
  simp only [running, forall_const]
  cases a with
  | order => exact order_changed p m
  | staConnected ssid ssidLen answered =>
    have linked : Kept m (m.linkEvent true answered) := Kept.of_eq rfl rfl rfl
    exact (linked.staConnected ssid ssidLen).changed trivial
  | staDisconnected ssid reason answered =>
    have linked : Kept m (m.linkEvent false answered) := Kept.of_eq rfl rfl rfl
    exact (linked.staDisconnected p ssid reason).changed trivial
  | scanDone r =>
    obtain ⟨formed, uses, coherent⟩ := scanDone_changed p { m with scanning := false } r
    exact ⟨formed, uses, coherent⟩
  | gotIp => exact ((Kept.refl m).gotIp p).changed trivial
  | timerTick => exact (Kept.refl m).retryTimerCb.changed trivial
  | addSsid ssid password => exact addSsid_changed p m ssid password
  | removeSsid ssid => exact removeSsid_changed m ssid
  | startScan => exact ((Kept.refl m).sendMessage _).changed trivial
  | scanThenConnect => exact ((Kept.refl m).sendMessage _).changed trivial
  | forgetConfigFromIsr => exact ((Kept.refl m).sendMessage _).changed trivial
  | stop => exact ((Kept.refl m).sendMessage _).changed trivial
  | setApEnabled enabled => exact ((Kept.refl m).setApEnabled p enabled).changed trivial
  | setApSsidPassword ssid password =>
    have named : Kept m { m with ap := wilmaSetApSsidPassword m.ap ssid password } :=
      Kept.of_eq rfl rfl rfl
    exact named.changed trivial

theorem step_changed (p : Platform) (m : Manager) (a : Input) :
    Changed m (m.step p a) (SparesCandidates m a) := by
  unfold step
  split
  · rename_i running
    exact handle_changed p m a running
  · rename_i stopped
    exact (Kept.refl m).changed fun running => absurd running stopped

theorem start_coherent (p : Platform) (saved : Saved) (ap : ApSettings) (staConfig : Credentials) :
    Coherent (start p saved ap staConfig) :=
  fun _ hc => absurd hc List.not_mem_nil

theorem start_usesSaved (p : Platform) (saved : Saved) (ap : ApSettings)
    (staConfig : Credentials) : UsesSaved (start p saved ap staConfig) := by
  intro conf s hs
  cases List.mem_singleton.mp hs

/-- The candidate list stays coherent exactly in the runs whose steps spare the candidates, and
in these runs every pair that `connect_to_station_index` passes is saved when it is passed. -/
theorem used_pairs_saved (p : Platform) (history : List Operation) (ap : ApSettings)
    (staConfig : Credentials) (as : List Input) :
    let s := start p (history.foldl Operation.apply none) ap staConfig
    (Runs.Throughout (step p) Coherent s as ↔ Runs.Along (step p) SparesCandidates s as) ∧
      (Runs.Along (step p) SparesCandidates s as → Runs.Throughout (step p) UsesSaved s as) := by
  intro s
  have formed : WellFormed s.saved := wellFormed_run history
  have coherent : Coherent s := start_coherent p _ ap staConfig
  constructor
  · apply Runs.throughout_iff_along (I := fun m => WellFormed m.saved) _ _ s formed coherent
    · intro m a h
      exact (step_changed p m a).formed h
    · intro m a h held
      exact (step_changed p m a).coherent h held
  · intro spared
    apply (Runs.throughout_iff_prefix s as).mpr
    intro bs hp
    have good : ∀ m a, WellFormed m.saved ∧ Coherent m ∧ UsesSaved m → SparesCandidates m a →
        WellFormed (m.step p a).saved ∧ Coherent (m.step p a) ∧ UsesSaved (m.step p a) := by
      rintro m a ⟨h, held, used⟩ spares
      have changed := step_changed p m a
      exact ⟨changed.formed h, (changed.coherent h held).mpr spares, changed.uses h held used⟩
    exact (Runs.guarded_invariant good s ⟨formed, coherent, start_usesSaved p _ ap staConfig⟩ bs
      (Runs.along_of_prefix spared hp)).2.2

/-- A scan, a connection, and the removal of the station that is configured. -/
def removeWhileConnected : List Input :=
  [.order, scanOf [seen lab (-40)], .order, .staConnected (ssidKey lab) 3 1, .gotIp,
    .removeSsid lab, .staDisconnected (ssidKey lab) 8 0]

theorem used_pairs_saved_removed :
    Runs.Throughout (step plainPlatform) UsesSaved (startWith [.add lab secret])
      removeWhileConnected :=
  (used_pairs_saved plainPlatform [.add lab secret] .erased .zero removeWhileConnected).2 (by decide)

/-- The configuration is forgotten while the station is connected. -/
def forgetWhileConnected : List Input :=
  [.order, scanOf [seen lab (-40)], .order, .staConnected (ssidKey lab) 3 1, .gotIp,
    .forgetConfigFromIsr, .order, .staDisconnected (ssidKey lab) 8 0]

/-- The manager then connects with what it has forgotten. -/
theorem forgotten_pair_used :
    ¬ Runs.Throughout (step plainPlatform) UsesSaved (startWith [.add lab secret])
      forgetWhileConnected := by
  intro saved
  have last := (Runs.throughout_iff_prefix _ _).mp saved forgetWhileConnected (List.prefix_refl _)
  have used : Call.setCandidate ⟨ssidKey lab, pad 64 secret.chars⟩ none ∈
      (forgetWhileConnected.foldl (step plainPlatform) (startWith [.add lab secret])).calls := by
    decide
  obtain ⟨e, he, _⟩ := last _ _ used
  exact absurd he List.not_mem_nil

end Manager

end Rocom.Wilma
