import Mathlib.Data.Set.Insert
import Rocom.Wilma.ApRequest
import Rocom.Wilma.Forgotten
import Rocom.Wilma.JsonPages

/-! The Wi-Fi requests of main/wilma_cgi.c on a running connection manager. Whatever the manager
does between two requests, the status page lists the SSIDs that the requests have left. -/
namespace Rocom.Wilma

open CString KeyedList

inductive HttpMethod where
  | get | post | delete | other
deriving DecidableEq, Repr

/-- A request to /api/sta/connect with the headers X-Custom-ssid and X-Custom-pwd. -/
structure ConnectRequest where
  method : HttpMethod
  ssid : Option Str
  password : Option Str
deriving DecidableEq

inductive ConnectReply where
  | handled (reply : HttpReply)
  | methodNotAllowed (error : String)
deriving DecidableEq, Repr

/-- The requests that change something. -/
inductive Request where
  | connect (r : ConnectRequest)
  | startScan
  | configureAp (r : ApRequest)
  | apConfig
deriving DecidableEq

namespace Manager

def cgiConnectJsonAdd (http : HeaderReader) (p : Platform) (m : Manager) (r : ConnectRequest) :
    HttpReply × Manager :=
  let (named, ssid) := http.read r.ssid 33
  let (keyed, password) := http.read r.password 65
  if !named || !keyed then (.badRequest "\x7b\"error\": \"missing ssid or password\"\x7d", m)
  else (.ok "\x7b\x7d", (m.wilmaAddSsid p ssid password).1)

def cgiConnectJsonRemove (http : HeaderReader) (m : Manager) (r : ConnectRequest) :
    HttpReply × Manager :=
  let (named, ssid) := http.read r.ssid 33
  if !named then (.badRequest "\x7b\"error\": \"missing ssid\"\x7d", m)
  else (.ok "\x7b\x7d", (m.wilmaRemoveSsid ssid).1)

def wilmaCgiStaConnectJson (http : HeaderReader) (p : Platform) (m : Manager)
    (r : ConnectRequest) : ConnectReply × Manager :=
  match r.method with
  | .post =>
    let (reply, m) := m.cgiConnectJsonAdd http p r
    (.handled reply, m)
  | .delete =>
    let (reply, m) := m.cgiConnectJsonRemove http r
    (.handled reply, m)
  | _ => (.methodNotAllowed "request type not allowed", m)

/-- The answer is sent before the scan is ordered. -/
def wilmaCgiStaStartScanJson (m : Manager) : HttpReply × Manager :=
  (.ok "\x7b\x7d\n", m.wilmaStartScan)

/-- `wilma_cgi_ap_configure` with the mode that it sets. -/
def configureAp (http : HeaderReader) (p : Platform) (m : Manager) (r : ApRequest) : Manager :=
  let outcome :=
    wilmaCgiApConfigure http p.apDefaults (m.bits.connecting || m.bits.connected) m.ap r
  match outcome.mode with
  | none => m
  | some mode => { m.call (.setMode mode) with ap := outcome.settings }

def serve (http : HeaderReader) (p : Platform) (m : Manager) : Request → Manager
  | .connect r => (m.wilmaCgiStaConnectJson http p r).2
  | .startScan => m.wilmaCgiStaStartScanJson.2
  | .configureAp r => m.configureAp http p r
  | .apConfig => { m with ap := (wilmaCgiApConfigJson p.apDefaults m.ap).settings }

/-- A request, or anything else that happens to the manager. -/
def deviceStep (http : HeaderReader) (p : Platform) (m : Manager) : Request ⊕ Input → Manager
  | .inl r => if m.running then m.serve http p r else m
  | .inr a => m.step p a

end Manager

/-! ### The SSIDs -/

/-- The headers are there and fit the buffers. -/
def ConnectRequest.accepted (r : ConnectRequest) : Bool :=
  match r.method with
  | .post => r.ssid.any (·.strlen ≤ 32) && r.password.any (·.strlen ≤ 64)
  | .delete => r.ssid.any (·.strlen ≤ 32)
  | .get | .other => false

/-- A header is read exactly if it is there and leaves room for its NUL. -/
theorem HeaderReader.found_eq (http : HeaderReader) (header : Option Str) (limit : Nat) :
    (http.read header (limit + 1)).1 = header.any (·.strlen ≤ limit) := by
  cases header with
  | none => rw [http.missing, Option.any_none]
  | some value =>
    rw [Option.any_some]
    by_cases fits : value.strlen ≤ limit
    · rw [http.fits value _ (Nat.lt_succ_of_le fits), decide_eq_true fits]
    · rw [http.tooLong value _ (Nat.lt_of_not_le fits), decide_eq_false fits]

abbrev Names := Set (List UInt8)

def namesOf (saved : Saved) : Names := { name | ∃ e ∈ stations saved, text e.ssid.bytes = name }

/-- What becomes of the SSIDs: a request adds or removes one, an order to forget everything removes
all when it is taken, and nothing else concerns them. -/
def Names.after (m : Manager) (names : Names) : Request ⊕ Input → Names
  | .inl (.connect r) =>
    if r.accepted then
      match r.method with
      | .post => insert (r.ssid.getD .empty).chars names
      | _ => names \ {(r.ssid.getD .empty).chars}
    else names
  | .inr (.addSsid ssid _) => insert (ssid.chars.take 32) names
  | .inr (.removeSsid ssid) => names \ {ssid.chars.take 32}
  | .inr .order => if m.queue.head? = some .forgetConfig then ∅ else names
  | _ => names

theorem text_ssidKey (ssid : Str) : text (ssidKey ssid).bytes = ssid.chars.take 32 := by
  rw [ssidKey, text_pad, text_chars]

theorem mem_namesOf_iff {saved : Saved} (h : WellFormed saved) {name : List UInt8} :
    name ∈ namesOf saved ↔ ∃ k e, directory saved k = some e ∧ text k.bytes = name := by
  constructor
  · rintro ⟨e, mem, rfl⟩
    exact ⟨e.ssid, e, (lookup_eq_some_iff h.unique).mpr ⟨mem, rfl⟩, rfl⟩
  · rintro ⟨k, e, found, rfl⟩
    obtain ⟨mem, rfl⟩ := (lookup_eq_some_iff h.unique).mp found
    exact ⟨e, mem, rfl⟩

/-- A stored key is the padded form of its text. -/
theorem padded_of_found {saved : Saved} (h : WellFormed saved) {k : Field 32} {e : StationEntry}
    (found : directory saved k = some e) : k.Padded := by
  obtain ⟨mem, rfl⟩ := (lookup_eq_some_iff h.unique).mp found
  exact h.padded e mem

theorem key_of_text {k : Field 32} (padded : k.Padded) {ssid : Str}
    (same : text k.bytes = ssid.chars.take 32) : k = ssidKey ssid := by
  rw [← padded, same, ← text_ssidKey]
  exact padded_pad 32 ssid.noNul

section Writes
variable {saved after : Saved} (h : WellFormed saved) (formed : WellFormed after) {ssid : Str}
include h formed

theorem namesOf_added {e : StationEntry}
    (written : directory after = Function.update (directory saved) (ssidKey ssid) (some e)) :
    namesOf after = insert (ssid.chars.take 32) (namesOf saved) := by
  ext name
  rw [Set.mem_insert_iff, mem_namesOf_iff formed, mem_namesOf_iff h, written]
  constructor
  · rintro ⟨k, b, found, rfl⟩
    by_cases same : k = ssidKey ssid
    · rw [same]
      exact .inl (text_ssidKey ssid)
    · rw [Function.update_of_ne same] at found
      exact .inr ⟨k, b, found, rfl⟩
  · rintro (rfl | ⟨k, b, found, rfl⟩)
    · exact ⟨ssidKey ssid, e, Function.update_self _ _ _, text_ssidKey ssid⟩
    · by_cases same : k = ssidKey ssid
      · exact ⟨k, e, by rw [same, Function.update_self], rfl⟩
      · exact ⟨k, b, by rwa [Function.update_of_ne same], rfl⟩

theorem namesOf_removed
    (written : directory after = Function.update (directory saved) (ssidKey ssid) none) :
    namesOf after = namesOf saved \ {ssid.chars.take 32} := by
  ext name
  rw [Set.mem_sdiff, Set.mem_singleton_iff, mem_namesOf_iff formed, mem_namesOf_iff h, written]
  constructor
  · rintro ⟨k, b, found, rfl⟩
    by_cases same : k = ssidKey ssid
    · rw [same, Function.update_self] at found
      cases found
    · rw [Function.update_of_ne same] at found
      exact ⟨⟨k, b, found, rfl⟩, fun text => same (key_of_text (padded_of_found h found) text)⟩
  · rintro ⟨⟨k, b, found, rfl⟩, other⟩
    have apart : k ≠ ssidKey ssid := by
      rintro rfl
      exact other (text_ssidKey ssid)
    exact ⟨k, b, by rwa [Function.update_of_ne apart], rfl⟩

end Writes

namespace Manager

/-- The SSIDs are those of the saved pairs. -/
theorem namesOf_eq_pairs {saved : Saved} (h : WellFormed saved) :
    namesOf saved = { name | ∃ c, SavedPair saved c ∧ text c.ssid.bytes = name } := by
  ext name
  constructor
  · rintro ⟨e, mem, rfl⟩
    exact ⟨⟨e.ssid, e.password⟩, ⟨e, mem, (h.padded e mem).symm, rfl⟩, rfl⟩
  · rintro ⟨c, ⟨e, mem, keyed, _⟩, rfl⟩
    refine ⟨e, mem, ?_⟩
    have short := length_text_le c.ssid.bytes
    rw [c.ssid.size] at short
    rw [keyed, Credentials.key, text_pad, text_of_notMem (nul_notMem_text _),
      List.take_of_length_le short]

theorem Kept.names {m n : Manager} (k : Kept m n) (h : WellFormed m.saved) :
    namesOf n.saved = namesOf m.saved := by
  rw [namesOf_eq_pairs h, namesOf_eq_pairs (k.formed h)]
  simp only [k.pairs h]

/-- A store that is well formed and has these SSIDs. -/
def Holds (m : Manager) (names : Names) : Prop := WellFormed m.saved ∧ namesOf m.saved = names

theorem Kept.holds {m n : Manager} (k : Kept m n) (h : WellFormed m.saved) :
    n.Holds (namesOf m.saved) := ⟨k.formed h, k.names h⟩

/-- A request that is accepted is done. -/
theorem connect_accepted (http : HeaderReader) (p : Platform) (m : Manager) {r : ConnectRequest}
    (accepted : r.accepted = true) :
    ∃ ssid : Str, r.ssid = some ssid ∧ ssid.strlen ≤ 32 ∧
      ((r.method = .post ∧ ∃ password : Str, m.wilmaCgiStaConnectJson http p r =
          (.handled (.ok "\x7b\x7d"), (m.wilmaAddSsid p ssid password).1)) ∨
        (r.method = .delete ∧ m.wilmaCgiStaConnectJson http p r =
          (.handled (.ok "\x7b\x7d"), (m.wilmaRemoveSsid ssid).1))) := by
  obtain ⟨method, name, key⟩ := r
  cases method with
  | get | other => cases accepted
  | post =>
    obtain ⟨named, keyed⟩ := Bool.and_eq_true_iff.mp accepted
    obtain ⟨ssid, rfl, ssidFits⟩ := (Option.any_eq_true _ _).mp named
    obtain ⟨password, rfl, passwordFits⟩ := (Option.any_eq_true _ _).mp keyed
    have ssidFits : ssid.strlen ≤ 32 := of_decide_eq_true ssidFits
    have passwordFits : password.strlen ≤ 64 := of_decide_eq_true passwordFits
    refine ⟨ssid, rfl, ssidFits, .inl ⟨rfl, password, ?_⟩⟩
    simp [wilmaCgiStaConnectJson, cgiConnectJsonAdd, http.fits ssid 33 (by omega),
      http.fits password 65 (by omega)]
  | delete =>
    obtain ⟨ssid, rfl, ssidFits⟩ := (Option.any_eq_true _ _).mp accepted
    have ssidFits : ssid.strlen ≤ 32 := of_decide_eq_true ssidFits
    refine ⟨ssid, rfl, ssidFits, .inr ⟨rfl, ?_⟩⟩
    simp [wilmaCgiStaConnectJson, cgiConnectJsonRemove, http.fits ssid 33 (by omega)]

/-- Every other one is answered with an error and leaves the manager as it is. -/
theorem connect_refused (http : HeaderReader) (p : Platform) (m : Manager) {r : ConnectRequest}
    (refused : r.accepted = false) :
    (m.wilmaCgiStaConnectJson http p r).1 ≠ .handled (.ok "\x7b\x7d") ∧
      (m.wilmaCgiStaConnectJson http p r).2 = m := by
  obtain ⟨method, name, key⟩ := r
  cases method with
  | get | other => exact ⟨by simp [wilmaCgiStaConnectJson], rfl⟩
  | post =>
    have failed : (http.read name 33).1 = false ∨ (http.read key 65).1 = false := by
      rw [http.found_eq, http.found_eq, ← Bool.and_eq_false_iff]
      exact refused
    rcases failed with failed | failed <;>
      simp [wilmaCgiStaConnectJson, cgiConnectJsonAdd, failed]
  | delete =>
    have failed : (http.read name 33).1 = false := by
      rw [http.found_eq]
      exact refused
    simp [wilmaCgiStaConnectJson, cgiConnectJsonRemove, failed]

section Steps
variable {m : Manager} (h : WellFormed m.saved) (p : Platform)
include h

theorem holds_addSsid (ssid password : Str) :
    (m.wilmaAddSsid p ssid password).1.Holds (insert (ssid.chars.take 32) (namesOf m.saved)) := by
  let stored : Manager := { m with saved := (addStation m.saved .none false ssid password).1 }
  obtain ⟨formed, e, -, written⟩ := add_written h ssid password
  have kept : Kept stored (m.wilmaAddSsid p ssid password).1 := by
    unfold wilmaAddSsid
    dsimp only
    split
    · dsimp only
      split
      · exact ((Kept.refl stored).connectToStationIndex p 0).beginConnecting
      · exact (Kept.refl stored).connectToStationIndex p 0
    · exact (Kept.refl stored).sendMessage _
    · exact Kept.refl stored
  have names : namesOf stored.saved = _ := namesOf_added h formed written
  rw [← names]
  exact kept.holds formed

theorem holds_removeSsid (ssid : Str) :
    (m.wilmaRemoveSsid ssid).1.Holds (namesOf m.saved \ {ssid.chars.take 32}) := by
  obtain ⟨formed, step⟩ := remove_step h ssid
  have removed : (m.wilmaRemoveSsid ssid).1.saved = Operation.apply m.saved (.remove ssid) := by
    unfold wilmaRemoveSsid
    dsimp only
    split
    · exact clearStaConfig_saved _
    · rfl
  rw [Holds, removed]
  exact ⟨formed, namesOf_removed h formed step.eq_removed⟩

theorem holds_takeOrder :
    (m.takeOrder p).Holds
      (if m.queue.head? = some .forgetConfig then ∅ else namesOf m.saved) := by
  unfold takeOrder
  cases m.queue with
  | nil => exact (Kept.refl m).holds h
  | cons order rest =>
    have taken : Kept m { m with queue := rest } := Kept.of_eq rfl rfl rfl
    cases order with
    | startWifiScan => exact taken.startScan.holds h
    | startWifiScanThenConnect => exact (taken.setBits _).startScan.holds h
    | connectSta param => exact (taken.connectStaOrder p param).holds h
    | shutdown => exact taken.stop.holds h
    | forgetConfig =>
      have cleared : (({ m with queue := rest }).forgetConfig p).saved = none :=
        clearStaConfig_saved _
      have none_left : namesOf none = ∅ := by simp [namesOf, stations]
      exact ⟨cleared ▸ wellFormed_none, (congrArg namesOf cleared).trans none_left⟩

theorem holds_handle (a : Input) : (m.handle p a).Holds (Names.after m (namesOf m.saved) (.inr a)) := by
  cases a with
  | order => exact holds_takeOrder h p
  | staConnected ssid ssidLen answered =>
    have linked : Kept m (m.linkEvent true answered) := Kept.of_eq rfl rfl rfl
    exact (linked.staConnected ssid ssidLen).holds h
  | staDisconnected ssid reason answered =>
    have linked : Kept m (m.linkEvent false answered) := Kept.of_eq rfl rfl rfl
    exact (linked.staDisconnected p ssid reason).holds h
  | scanDone r =>
    exact (Kept.refl (({ m with scanning := false }.setBits _).refreshLists p r)).resumeAfterScan.holds h
  | gotIp => exact ((Kept.refl m).gotIp p).holds h
  | timerTick => exact (Kept.refl m).retryTimerCb.holds h
  | addSsid ssid password => exact holds_addSsid h p ssid password
  | removeSsid ssid => exact holds_removeSsid h ssid
  | startScan | scanThenConnect | forgetConfigFromIsr | stop =>
    exact ((Kept.refl m).sendMessage _).holds h
  | setApEnabled enabled => exact ((Kept.refl m).setApEnabled p enabled).holds h
  | setApSsidPassword ssid password =>
    have named : Kept m { m with ap := wilmaSetApSsidPassword m.ap ssid password } :=
      Kept.of_eq rfl rfl rfl
    exact named.holds h

theorem holds_serve (http : HeaderReader) (r : Request) :
    (m.serve http p r).Holds (Names.after m (namesOf m.saved) (.inl r)) := by
  have alone : ∀ n : Manager, n.saved = m.saved → n.Holds (namesOf m.saved) := by
    intro n same
    exact ⟨same ▸ h, congrArg namesOf same⟩
  cases r with
  | startScan => exact alone _ rfl
  | apConfig => exact alone _ rfl
  | configureAp r =>
    refine alone _ ?_
    unfold serve configureAp
    dsimp only
    split <;> rfl
  | connect r =>
    cases accepted : r.accepted with
    | true =>
      obtain ⟨ssid, named, fits, done⟩ := connect_accepted http p m accepted
      have whole : ssid.chars.take 32 = ssid.chars := List.take_of_length_le fits
      rcases done with ⟨method, password, done⟩ | ⟨method, done⟩
      · have added := holds_addSsid h p ssid password
        simpa [serve, done, Names.after, accepted, method, named, whole] using added
      · have removed := holds_removeSsid h ssid
        simpa [serve, done, Names.after, accepted, method, named, whole] using removed
    | false =>
      have same := (connect_refused http p m accepted).2
      simpa [serve, same, Names.after, accepted] using alone m rfl

end Steps

/-- The manager, and the SSIDs that its store is said to have. -/
def ghostStep (http : HeaderReader) (p : Platform) (s : Manager × Names) (a : Request ⊕ Input) :
    Manager × Names :=
  (s.1.deviceStep http p a, Names.after s.1 s.2 a)

theorem ghostStep_holds (http : HeaderReader) (p : Platform) (s : Manager × Names)
    (a : Request ⊕ Input) (held : s.1.running = true → s.1.Holds s.2) :
    (ghostStep http p s a).1.running = true → (ghostStep http p s a).1.Holds (ghostStep http p s a).2 := by
  obtain ⟨m, names⟩ := s
  intro running
  cases alive : m.running with
  | false =>
    have stuck : (ghostStep http p (m, names) a).1 = m := by
      cases a <;> simp [ghostStep, deviceStep, step, alive]
    rw [stuck, alive] at running
    cases running
  | true =>
    have now : WellFormed m.saved ∧ namesOf m.saved = names := held alive
    obtain ⟨formed, rfl⟩ := now
    cases a with
    | inl r =>
      have served := holds_serve formed p http r
      simpa [ghostStep, deviceStep, alive] using served
    | inr a =>
      have handled := holds_handle formed p a
      simpa [ghostStep, deviceStep, step, alive] using handled

end Manager

theorem names_unique {saved : Saved} (h : WellFormed saved) :
    ((stations saved).map fun e => text e.ssid.bytes).Nodup := by
  have texts : ((stations saved).map fun e => text e.ssid.bytes) =
      ((stations saved).map (·.ssid)).map fun k => text k.bytes := by
    rw [List.map_map]
    rfl
  rw [texts]
  refine List.Nodup.map_on ?_ h.unique
  intro k hk l hl same
  obtain ⟨a, ha, rfl⟩ := List.mem_map.mp hk
  obtain ⟨b, hb, rfl⟩ := List.mem_map.mp hl
  rw [← h.padded a ha, same, h.padded b hb]

/-- After any requests, mixed with anything else that happens to a running manager, the status page
is JSON and lists each SSID that the requests have left exactly once, and a request is answered
with success exactly if it is accepted; any other changes nothing. Loads from the store succeed, a
request or an event is handled in one step, and each name fits the line buffer. -/
theorem status_lists_names {ntoa : UInt32 → List UInt8} (dotted : DottedText ntoa)
    (http : HeaderReader) (p : Platform) {saved : Saved} (formed : WellFormed saved)
    (ap : ApSettings) (staConfig : Credentials) (inputs : List (Request ⊕ Input)) (info : IpInfo)
    (memory : List UInt8) (stack : Nat → List UInt8) :
    let s := inputs.foldl (Manager.ghostStep http p)
      (Manager.start p saved ap staConfig, namesOf saved)
    s.1.running = true →
      (∃ entries : List StationEntry,
        Json.read (wilmaCgiStaStatusJson ntoa info memory stack s.1.saved .none).body =
            some (statusValue ntoa info entries) ∧
          (entries.map fun e => text e.ssid.bytes).Nodup ∧
          ∀ name, (∃ e ∈ entries, text e.ssid.bytes = name) ↔ name ∈ s.2) ∧
      ∀ r, ((s.1.wilmaCgiStaConnectJson http p r).1 = .handled (.ok "\x7b\x7d") ↔ r.accepted = true) ∧
        (r.accepted = false → (s.1.wilmaCgiStaConnectJson http p r).2 = s.1) := by
  intro s running
  have held : s.1.running = true → s.1.Holds s.2 :=
    Runs.invariant (P := fun s : Manager × Names => s.1.running = true → s.1.Holds s.2)
      (Manager.ghostStep_holds http p) _ (fun _ => ⟨formed, rfl⟩) inputs
  obtain ⟨kept, names⟩ := held running
  obtain ⟨-, page, whole, -⟩ :=
    pages_decode dotted info memory stack s.1.lists s.1.saved .none
  refine ⟨⟨stations s.1.saved, whole ▸ page, names_unique kept, fun name => ?_⟩, fun r => ?_⟩
  · rw [← names]
    exact Iff.rfl
  · refine ⟨⟨fun done => ?_, fun accepted => ?_⟩,
      fun refused => (Manager.connect_refused http p s.1 refused).2⟩
    · by_contra refused
      exact (Manager.connect_refused http p s.1 (Bool.eq_false_of_not_eq_true refused)).1 done
    · obtain ⟨ssid, -, -, ⟨-, password, done⟩ | ⟨-, done⟩⟩ :=
        Manager.connect_accepted http p s.1 accepted
      · rw [done]
      · rw [done]

/-- Two networks are added and the first one is removed, with a scan ordered in between. -/
def labReplaced : List (Request ⊕ Input) :=
  [.inl (.connect ⟨.post, some lab, some secret⟩), .inl .startScan, .inr .order,
    .inl (.connect ⟨.post, some hall, some secret⟩), .inr .order,
    .inl (.connect ⟨.delete, some lab, none⟩)]

theorem status_lists_names_replaced :
    ∃ entries : List StationEntry,
      Json.read (wilmaCgiStaStatusJson dottedDecimal ⟨0, 0, 0⟩ [] (fun _ => [])
          (labReplaced.foldl (Manager.ghostStep truncating plainPlatform)
            (Manager.start plainPlatform none .erased .zero, namesOf none)).1.saved .none).body =
          some (statusValue dottedDecimal ⟨0, 0, 0⟩ entries) ∧
        (∃ e ∈ entries, text e.ssid.bytes = hall.chars) ∧
        ¬ ∃ e ∈ entries, text e.ssid.bytes = lab.chars := by
  obtain ⟨⟨entries, page, -, names⟩, -⟩ := status_lists_names dottedDecimal_text truncating
    plainPlatform wellFormed_none .erased .zero labReplaced ⟨0, 0, 0⟩ [] (fun _ => []) (by decide)
  have different : hall.chars ≠ lab.chars := by decide
  refine ⟨entries, page, (names hall.chars).mpr ?_, mt (names lab.chars).mp ?_⟩
  · exact ⟨Set.mem_insert _ _, different⟩
  · exact fun left => left.2 rfl

end Rocom.Wilma
