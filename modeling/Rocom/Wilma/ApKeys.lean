import Rocom.Wilma.ApRequest
import Rocom.Wilma.JsonPages

/-! The keys `ap_ssid` and `ap_pass` after they are set: the name that is filled in, what
`wilma_ap_ssid` reports of the pair, and what a request that disables the access point leaves. -/
namespace Rocom.Wilma

open CString

/-- NVS counts the NUL, so the name must leave room for it. -/
def NameTooLong (s : ApSettings) : Prop := ∃ ssid, s.ssid = some ssid ∧ 32 ≤ ssid.strlen

theorem cfgApFillSsid_absent (d : ApDefaults) {s : ApSettings} (absent : s.ssid = none) :
    cfgApFillSsid d s = ((d.ssid, d.ssidLen), s) := by
  rw [cfgApFillSsid, absent]

theorem cfgApFillSsid_short (d : ApDefaults) {s : ApSettings} {ssid : Str}
    (present : s.ssid = some ssid) (short : ssid.strlen < 32) :
    cfgApFillSsid d s = ((pad 32 ssid.chars, UInt8.ofNat (ssid.strlen + 1)), s) := by
  have fits : ¬ 32 < nvsStrLen ssid := Nat.not_lt.mpr short
  simp only [cfgApFillSsid, present, if_neg fits]
  rfl

theorem cfgApFillSsid_long (d : ApDefaults) {s : ApSettings} (long : NameTooLong s) :
    cfgApFillSsid d s = ((d.ssid, d.ssidLen), { s with ssid := none, password := none }) := by
  obtain ⟨ssid, present, length⟩ := long
  have behind : 32 < nvsStrLen ssid := Nat.lt_succ_of_le length
  simp only [cfgApFillSsid, present, if_pos behind]

/-- Both keys are erased with a name that is too long, and stay otherwise. -/
theorem cfgApFillSsid_settings (d : ApDefaults) (s : ApSettings) :
    (NameTooLong s ∧ (cfgApFillSsid d s).2 = { s with ssid := none, password := none }) ∨
      (¬ NameTooLong s ∧ (cfgApFillSsid d s).2 = s) := by
  by_cases long : NameTooLong s
  · exact .inl ⟨long, by rw [cfgApFillSsid_long d long]⟩
  · refine .inr ⟨long, ?_⟩
    cases present : s.ssid with
    | none => rw [cfgApFillSsid_absent d present]
    | some ssid =>
      have short : ssid.strlen < 32 := by
        by_contra not_short
        exact long ⟨ssid, present, Nat.le_of_not_lt not_short⟩
      rw [cfgApFillSsid_short d present short]

/-! ### The round trip of a name -/

theorem wilmaSetApSsidPassword_named (s : ApSettings) {ssid password : Str}
    (ssidLength : 1 ≤ ssid.strlen ∧ ssid.strlen ≤ 32) (passwordLength : password.strlen ≤ 64) :
    wilmaSetApSsidPassword s ssid password =
      { s with ssid := some ssid, password := some password } := by
  have named : ssid.strlen ≠ 0 := by omega
  rw [wilmaSetApSsidPassword, if_neg (by omega), if_neg (by omega), cfgApSetSsid, if_neg named]
  rfl

/-- After a pair is set: the bytes of the name, what is reported of it, and the keys. -/
structure NameKept (d : ApDefaults) (s : ApSettings) (ssid password : Str) : Prop where
  name : (cfgApFillSsid d (wilmaSetApSsidPassword s ssid password)).1.1 = pad 32 ssid.chars
  reported :
    text (wilmaApSsid d (wilmaSetApSsidPassword s ssid password)).1.bytes = ssid.chars
  keys : (cfgApFillSsid d (wilmaSetApSsidPassword s ssid password)).2 =
    { s with ssid := some ssid, password := some password }
  keysReported : (wilmaApSsid d (wilmaSetApSsidPassword s ssid password)).2.2 =
    { s with ssid := some ssid, password := some password }

/-- The length of the name is set with it. -/
structure RoundTrip (d : ApDefaults) (s : ApSettings) (ssid password : Str) : Prop
    extends NameKept d s ssid password where
  length : (cfgApFillSsid d (wilmaSetApSsidPassword s ssid password)).1.2.toNat = ssid.strlen

/-- The length is never that of the name, and a name of 32 bytes is not kept at all. -/
theorem name_round_trip_fails (d : ApDefaults) (s : ApSettings) (ssid password : Str)
    (ssidLength : 1 ≤ ssid.strlen ∧ ssid.strlen ≤ 32) (passwordLength : password.strlen ≤ 64) :
    ¬ RoundTrip d s ssid password ∧ (NameKept d s ssid password ↔ ssid.strlen ≤ 31) := by
  have set := wilmaSetApSsidPassword_named s ssidLength passwordLength
  have lost : 32 ≤ ssid.strlen → ¬ NameKept d s ssid password := by
    intro full kept
    have keys := kept.keys
    rw [set, cfgApFillSsid_long d ⟨ssid, rfl, full⟩] at keys
    cases congrArg ApSettings.ssid keys
  have filled : ssid.strlen ≤ 31 → cfgApFillSsid d (wilmaSetApSsidPassword s ssid password) =
      ((pad 32 ssid.chars, UInt8.ofNat (ssid.strlen + 1)),
        { s with ssid := some ssid, password := some password }) := by
    intro short
    rw [set]
    exact cfgApFillSsid_short d rfl (Nat.lt_succ_of_le short)
  refine ⟨?_, ?_, ?_⟩
  · intro round
    by_cases short : ssid.strlen ≤ 31
    · have length := round.length
      rw [filled short] at length
      have counted : (UInt8.ofNat (ssid.strlen + 1)).toNat = ssid.strlen + 1 := by
        rw [UInt8.toNat_ofNat']
        omega
      exact Nat.succ_ne_self _ (counted.symm.trans length)
    · exact lost (by omega) round.toNameKept
  · intro kept
    by_contra long
    exact lost (by omega) kept
  · intro short
    have whole : ssid.chars.take 32 = ssid.chars := List.take_of_length_le ssidLength.2
    have whole_reported : ssid.chars.take 33 = ssid.chars :=
      List.take_of_length_le (Nat.le_succ_of_le ssidLength.2)
    refine ⟨by rw [filled short], ?_, by rw [filled short], ?_⟩
    · simp only [wilmaApSsid, filled short]
      rw [text_pad, text_pad, text_chars, whole, text_chars, whole_reported]
    · simp only [wilmaApSsid, filled short]

def labName : Str := ⟨[0x6c, 0x61, 0x62], nul_notMem_lab⟩

def labPassword : Str := ⟨List.replicate 9 0x61, by simp⟩

theorem name_round_trip_fails_lab :
    ¬ RoundTrip wilmaDefaults .erased labName labPassword ∧
      (NameKept wilmaDefaults .erased labName labPassword ↔ labName.strlen ≤ 31) :=
  name_round_trip_fails wilmaDefaults .erased labName labPassword (by decide) (by decide)

/-- The name "lab" is set with a length of 4. -/
theorem lab_counted_with_nul : ¬ RoundTrip wilmaDefaults .erased labName labPassword := by
  intro round
  have counted : (cfgApFillSsid wilmaDefaults
      (wilmaSetApSsidPassword .erased labName labPassword)).1.2.toNat = 4 := by decide
  cases counted.symm.trans round.length

/-! ### The password that is reported and the one that is used -/

/-- The access point that a forced call brings up asks for a password. -/
def Protected (d : ApDefaults) (s : ApSettings) : Prop :=
  ∃ conf, (wifiConfigureSoftap d true false s).1 = .apsta conf ∧ conf.authmode ≠ .wifiAuthOpen

/-- The stored password, or the default one where it is not used. -/
def passwordInUse (d : ApDefaults) (s : ApSettings) : Str :=
  match (cfgApFillSsid d s).2.password with
  | none => d.password
  | some password => if 64 ≤ password.strlen then d.password else password

theorem softapConfig_password (d : ApDefaults) (s : ApSettings) :
    (softapConfig d s).1.password = pad 64 (passwordInUse d s).chars := by
  simp only [softapConfig, cfgApFillPassword, passwordInUse]
  cases (cfgApFillSsid d s).2.password with
  | none => rfl
  | some password =>
    have some_length : nvsStrLen password ≠ 0 := Nat.succ_ne_zero _
    have boundary : 64 < nvsStrLen password ↔ 64 ≤ password.strlen := Nat.lt_succ_iff
    simp only [if_neg some_length, boundary]
    split <;> rfl

theorem protected_iff (d : ApDefaults) (s : ApSettings) :
    Protected d s ↔ (passwordInUse d s).strlen ≠ 0 := by
  have empty : (softapConfig d s).1.authmode = .wifiAuthOpen ↔ (passwordInUse d s).strlen = 0 := by
    rw [softapConfig_open_iff, softapConfig_password, text_pad, text_chars]
    rw [← List.length_eq_zero_iff, List.length_take, Str.strlen]
    omega
  rw [ne_eq, ← empty]
  constructor
  · rintro ⟨conf, on, locked⟩
    rwa [← apsta_conf on]
  · intro locked
    exact ⟨_, rfl, locked⟩

theorem wilmaApSsid_reports (d : ApDefaults) (s : ApSettings) :
    (wilmaApSsid d s).2.1 = true ↔
      (cfgApFillSsid d s).2.password = none ∧ d.password.strlen ≠ 0 := by
  simp only [wilmaApSsid, decide_eq_true_iff]
  cases (cfgApFillSsid d s).2.password with
  | none => simp
  | some password => simp [Str.empty, Str.strlen]

/-- A stored password is not used, or is empty: the name is too long and takes it along, or the
password is too long and there is no default one. -/
def NothingToRead (d : ApDefaults) (s : ApSettings) : Prop :=
  ∀ password, s.password = some password →
    NameTooLong s ∨ password.strlen = 0 ∨ 64 ≤ password.strlen ∧ d.password.strlen = 0

/-- The report and the access point agree exactly when there is no stored password to be read. -/
theorem reported_protected_iff (d : ApDefaults) (s : ApSettings) :
    ((wilmaApSsid d s).2.1 = true ↔ Protected d s) ↔ NothingToRead d s := by
  rw [wilmaApSsid_reports, protected_iff]
  unfold passwordInUse NothingToRead
  rcases cfgApFillSsid_settings d s with ⟨long, settings⟩ | ⟨short, settings⟩
  · rw [settings]
    simp [long]
  · rw [settings]
    cases stored : s.password with
    | none => simp
    | some password =>
      by_cases full : 64 ≤ password.strlen
      · have some_length : password.strlen ≠ 0 := by omega
        simp [short, full, some_length]
      · simp [short, full]

/-- The name "lab" with a password, as `wilma_set_ap_ssid_password` stores them. -/
def labSettings : ApSettings := ⟨some 1, some labName, some labPassword⟩

/-- The access point is protected, and is reported to be open. -/
theorem lab_reported_open :
    ¬ ((wilmaApSsid wilmaDefaults labSettings).2.1 = true ↔
      Protected wilmaDefaults labSettings) := by
  intro agree
  have reported : (wilmaApSsid wilmaDefaults labSettings).2.1 = false := by decide
  have locked : Protected wilmaDefaults labSettings := ⟨_, rfl, by decide⟩
  rw [agree.mpr locked] at reported
  cases reported

/-! ### A request that disables the access point -/

/-- A later forced call brings up what it would have brought up before. -/
def ForcedAsBefore (d : ApDefaults) (s s' : ApSettings) : Prop :=
  ∀ busy, (wifiConfigureSoftap d true busy s').1 = (wifiConfigureSoftap d true busy s).1

/-- Besides, both keys are as before. -/
structure OnlyEnabledChanges (d : ApDefaults) (s s' : ApSettings) : Prop where
  forced : ForcedAsBefore d s s'
  ssid : s'.ssid = s.ssid
  password : s'.password = s.password

/-- The name in use is the default one. -/
def DefaultNamed (d : ApDefaults) (s : ApSettings) : Prop :=
  ∀ ssid, s.ssid = some ssid → 32 ≤ ssid.strlen ∨
    pad 32 ssid.chars = d.ssid ∧ UInt8.ofNat (ssid.strlen + 1) = d.ssidLen

theorem defaultNamed_iff (d : ApDefaults) (s : ApSettings) :
    DefaultNamed d s ↔ (cfgApFillSsid d s).1 = (d.ssid, d.ssidLen) := by
  unfold DefaultNamed
  cases present : s.ssid with
  | none => simp [cfgApFillSsid_absent d present]
  | some ssid =>
    by_cases short : ssid.strlen < 32
    · have fits : ¬ 32 ≤ ssid.strlen := Nat.not_le.mpr short
      simp [cfgApFillSsid_short d present short, fits]
    · have long : 32 ≤ ssid.strlen := Nat.le_of_not_lt short
      simp [cfgApFillSsid_long d ⟨ssid, present, long⟩, long]

/-- Names and passwords decide the configuration. -/
theorem forcedAsBefore_iff (d : ApDefaults) (s s' : ApSettings) :
    ForcedAsBefore d s s' ↔ (cfgApFillSsid d s').1 = (cfgApFillSsid d s).1 ∧
      (passwordInUse d s').chars.take 64 = (passwordInUse d s).chars.take 64 := by
  have made : ∀ t : ApSettings, ∀ busy, (wifiConfigureSoftap d true busy t).1 =
      .apsta ⟨(cfgApFillSsid d t).1.1, (cfgApFillSsid d t).1.2, pad 64 (passwordInUse d t).chars,
        if (pad 64 (passwordInUse d t).chars).bytes.headD 0 = 0 then .wifiAuthOpen
        else .wifiAuthWpa2Psk⟩ := by
    intro t busy
    rw [← softapConfig_password]
    rfl
  unfold ForcedAsBefore
  simp only [made]
  constructor
  · intro same
    obtain ⟨ssid, ssidLen, password, _⟩ := ApConfig.mk.inj (WifiMode.apsta.inj (same false))
    refine ⟨Prod.ext ssid ssidLen, ?_⟩
    have texts := congrArg (fun f => text f.bytes) password
    simpa only [text_pad, text_chars] using texts
  · rintro ⟨names, passwords⟩ busy
    rw [names, ← pad_take 64 (passwordInUse d s').chars, passwords, pad_take]

/-- The request is refused when the value of its header is empty; else it stores its password
under a name that it erases. -/
theorem configure_disable (http : HeaderReader) (d : ApDefaults) (busy : Bool) (s : ApSettings)
    {r : ApRequest} {value : Str} (unnamed : r.ssid = none) (asked : r.disable = some value) :
    (wilmaCgiApConfigure http d busy s r).settings =
      if value.strlen = 0 then s else ⟨some 0, none, some (requestPassword http r)⟩ := by
  have fits := requestPassword_length http r
  have missing : http.read r.ssid 33 = (false, .empty) := by
    rw [unnamed]
    exact http.missing 33
  have erased : wilmaSetApSsidPassword s .empty (requestPassword http r) =
      ⟨s.enabled, none, some (requestPassword http r)⟩ := by
    rw [wilmaSetApSsidPassword, if_neg (by omega), if_neg (by decide)]
    rfl
  unfold wilmaCgiApConfigure
  rw [missing, asked]
  by_cases empty : value.strlen = 0
  · simp [httpdReqGetHdrValueLen, empty]
  · have kept : (wifiConfigureSoftap d false busy
        ⟨some 0, none, some (requestPassword http r)⟩).2 =
          ⟨some 0, none, some (requestPassword http r)⟩ := by
      cases busy <;> rfl
    simp [httpdReqGetHdrValueLen, empty, erased, wilmaSetApEnabled, kept]

/-- Disabling leaves the access point as it was exactly when it was not configured but for the
password that the request carries. -/
theorem disable_only_disables_iff (http : HeaderReader) (d : ApDefaults) (busy : Bool)
    (s : ApSettings) (r : ApRequest) (value : Str) (unnamed : r.ssid = none)
    (asked : r.disable = some value) :
    (OnlyEnabledChanges d s (wilmaCgiApConfigure http d busy s r).settings ↔
      value.strlen = 0 ∨ s.ssid = none ∧ s.password = some (requestPassword http r)) ∧
    (ForcedAsBefore d s (wilmaCgiApConfigure http d busy s r).settings ↔
      value.strlen = 0 ∨ DefaultNamed d s ∧
        (passwordInUse d s).chars.take 64 =
          (passwordInUse d ⟨some 0, none, some (requestPassword http r)⟩).chars.take 64) := by
  rw [configure_disable http d busy s unnamed asked]
  by_cases empty : value.strlen = 0
  · rw [if_pos empty]
    exact ⟨iff_of_true ⟨fun _ => rfl, rfl, rfl⟩ (.inl empty),
      iff_of_true (fun _ => rfl) (.inl empty)⟩
  · rw [if_neg empty]
    refine ⟨?_, ?_⟩
    · rw [or_iff_right empty]
      constructor
      · intro same
        exact ⟨same.ssid.symm, same.password.symm⟩
      · rintro ⟨ssid, password⟩
        refine ⟨?_, ssid.symm, password.symm⟩
        obtain ⟨enabled, name, key⟩ := s
        obtain rfl : name = none := ssid
        obtain rfl : key = some (requestPassword http r) := password
        exact fun _ => rfl
    · rw [or_iff_right empty, forcedAsBefore_iff, defaultNamed_iff]
      rw [cfgApFillSsid_absent d rfl]
      exact and_congr eq_comm eq_comm

/-- A request that disables the access point, and gives no password. -/
def disableRequest : ApRequest := ⟨none, some labName, none⟩

theorem disable_only_disables_iff_lab :
    (OnlyEnabledChanges wilmaDefaults labSettings
        (wilmaCgiApConfigure truncating wilmaDefaults true labSettings disableRequest).settings ↔
      labName.strlen = 0 ∨ labSettings.ssid = none ∧
        labSettings.password = some (requestPassword truncating disableRequest)) ∧
    (ForcedAsBefore wilmaDefaults labSettings
        (wilmaCgiApConfigure truncating wilmaDefaults true labSettings disableRequest).settings ↔
      labName.strlen = 0 ∨ DefaultNamed wilmaDefaults labSettings ∧
        (passwordInUse wilmaDefaults labSettings).chars.take 64 =
          (passwordInUse wilmaDefaults
            ⟨some 0, none, some (requestPassword truncating disableRequest)⟩).chars.take 64) :=
  disable_only_disables_iff truncating wilmaDefaults true labSettings disableRequest labName rfl rfl

/-- The protected access point "lab" is disabled, and comes back as "WiLma" without a password. -/
theorem lab_disabled_opens :
    ¬ ForcedAsBefore wilmaDefaults labSettings
      (wilmaCgiApConfigure truncating wilmaDefaults true labSettings disableRequest).settings := by
  have before : (wifiConfigureSoftap wilmaDefaults true false labSettings).1 =
      .apsta ⟨pad 32 labName.chars, 4, pad 64 labPassword.chars, .wifiAuthWpa2Psk⟩ := by decide
  have after : (wifiConfigureSoftap wilmaDefaults true false (wilmaCgiApConfigure truncating
      wilmaDefaults true labSettings disableRequest).settings).1 =
        .apsta ⟨wilmaDefaults.ssid, 5, Field.zero 64, .wifiAuthOpen⟩ := by decide
  intro same
  cases after.symm.trans ((same false).trans before)

end Rocom.Wilma
