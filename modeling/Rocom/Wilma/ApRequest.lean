import Rocom.Lib.Runs
import Rocom.Wilma.AccessPoint

/-! POST /api/ap: `wilma_cgi_ap_configure` of main/wilma_cgi.c, and what the access point is
brought up with afterwards. The header, the setter, the NVS length with its NUL and the driver's
field each have a limit of their own. -/
namespace Rocom.Wilma

open CString

/-- `httpd_req_get_hdr_value_str` with a cleared buffer of `size` bytes: whether it returns
`ESP_OK`, and what the buffer holds then. -/
structure HeaderReader where
  read : Option Str → Nat → Bool × Str
  missing : ∀ size, read none size = (false, Str.empty)
  fits : ∀ value size, value.strlen < size → read (some value) size = (true, value)
  tooLong : ∀ value size, size ≤ value.strlen → (read (some value) size).1 = false
  inBuffer : ∀ value size, 0 < size → (read value size).2.strlen < size

def httpdReqGetHdrValueLen : Option Str → Nat
  | none => 0
  | some value => value.strlen

/-- The headers X-Custom-ssid, X-Custom-disable and X-Custom-pwd. -/
structure ApRequest where
  ssid : Option Str
  disable : Option Str
  password : Option Str
deriving DecidableEq

inductive HttpReply where
  | badRequest (error : String)
  | ok (body : String)
deriving DecidableEq, Repr

structure ApOutcome where
  reply : HttpReply
  mode : Option WifiMode
  settings : ApSettings
deriving DecidableEq

def wilmaSetApEnabled (d : ApDefaults) (busy enabled : Bool) (s : ApSettings) :
    WifiMode × ApSettings :=
  wifiConfigureSoftap d false busy { s with enabled := some (if enabled then 1 else 0) }

/-- The password of the request, or none where the header cannot be read. -/
def requestPassword (http : HeaderReader) (r : ApRequest) : Str :=
  match http.read r.password 65 with
  | (true, password) => password
  | (false, _) => Str.empty

def wilmaCgiApConfigure (http : HeaderReader) (d : ApDefaults) (busy : Bool) (s : ApSettings)
    (r : ApRequest) : ApOutcome :=
  let (found, ssid) := http.read r.ssid 33
  if !found && httpdReqGetHdrValueLen r.disable = 0 then
    ⟨.badRequest "\x7b\"error\": \"missing x-custom-ssid or x-custom-disable header\"\x7d", none, s⟩
  else
    let (mode, s) := wilmaSetApEnabled d busy found
      (wilmaSetApSsidPassword s ssid (requestPassword http r))
    ⟨.ok "\x7b\x7d", some mode, s⟩

/-! What the access point is brought up with. -/

theorem head_eq_zero_iff (f : Field 64) : f.bytes.headD 0 = 0 ↔ text f.bytes = [] := by
  rw [← headD_text]
  cases chars : text f.bytes with
  | nil => exact iff_of_true rfl rfl
  | cons c cs =>
    have ne : c ≠ 0 := fun zero => nul_notMem_text f.bytes (by rw [chars, zero]; simp)
    exact iff_of_false ne nofun

theorem softapConfig_open_iff (d : ApDefaults) (s : ApSettings) :
    (softapConfig d s).1.authmode = .wifiAuthOpen ↔
      text (softapConfig d s).1.password.bytes = [] := by
  unfold softapConfig
  simp only
  rw [← head_eq_zero_iff]
  split
  · rename_i zero
    exact iff_of_true rfl zero
  · rename_i nonzero
    exact iff_of_false nofun nonzero

/-- A call that turns the access point on. -/
theorem apsta_conf {d : ApDefaults} {forceOn busy : Bool} {s : ApSettings} {conf : ApConfig}
    (on : (wifiConfigureSoftap d forceOn busy s).1 = .apsta conf) : conf = (softapConfig d s).1 := by
  unfold wifiConfigureSoftap at on
  split at on
  · cases on
  · cases on
    rfl

/-- A name that does not fit is erased with its password, and the next call finds neither. -/
theorem softapConfig_again (d : ApDefaults) (s : ApSettings) :
    (softapConfig d (softapConfig d s).2).1 = (softapConfig d s).1 := by
  have fill : cfgApFillSsid d (cfgApFillSsid d s).2 = cfgApFillSsid d s := by
    unfold cfgApFillSsid
    cases stored : s.ssid with
    | none => simp [stored]
    | some ssid =>
      by_cases long : 32 < nvsStrLen ssid
      · simp [long]
      · simp [long, stored]
  simp only [softapConfig, fill]

theorem configureSoftap_settings (d : ApDefaults) (forceOn busy : Bool) (s : ApSettings) :
    (wifiConfigureSoftap d forceOn busy s).2 = s ∨
      (wifiConfigureSoftap d forceOn busy s).2 = (softapConfig d s).2 := by
  unfold wifiConfigureSoftap
  split
  · exact Or.inl rfl
  · exact Or.inr rfl

theorem configureSoftap_conf (d : ApDefaults) (forceOn busy : Bool) (s : ApSettings) :
    (softapConfig d (wifiConfigureSoftap d forceOn busy s).2).1 = (softapConfig d s).1 := by
  rcases configureSoftap_settings d forceOn busy s with same | erased
  · rw [same]
  · rw [erased, softapConfig_again]

/-- The pair that the setter stores, with the key of `wilma_set_ap_enabled`. -/
def stored (s : ApSettings) (enabled : Bool) (ssid password : Str) : ApSettings :=
  { wilmaSetApSsidPassword s ssid password with enabled := some (if enabled then 1 else 0) }

/-- The password the access point gets for a stored pair: a name of 32 bytes or a password of 64
makes it the default one. -/
def usedPassword (d : ApDefaults) (ssid password : Str) : Str :=
  if ssid.strlen = 32 ∨ password.strlen = 64 then d.password else password

theorem softapConfig_stored (d : ApDefaults) (s : ApSettings) (enabled : Bool)
    {ssid password : Str} (ssidFits : ssid.strlen ≤ 32) (passwordFits : password.strlen ≤ 64) :
    text (softapConfig d (stored s enabled ssid password)).1.password.bytes =
      (usedPassword d ssid password).chars.take 64 := by
  have fill : ∀ t : ApSettings, t.password = some password →
      text (cfgApFillPassword d t).bytes =
        (if password.strlen = 64 then d.password else password).chars.take 64 := by
    intro t kept
    have some_length : nvsStrLen password ≠ 0 := Nat.succ_ne_zero _
    simp only [cfgApFillPassword, kept, if_neg some_length]
    by_cases full : password.strlen = 64
    · have long : 64 < nvsStrLen password := by
        rw [nvsStrLen]
        omega
      rw [if_pos long, if_pos full, text_pad, text_chars]
    · have short : ¬ 64 < nvsStrLen password := by
        rw [nvsStrLen]
        omega
      rw [if_neg short, if_neg full, text_pad, text_chars]
  have keeps : wilmaSetApSsidPassword s ssid password =
      cfgApSetPassword (cfgApSetSsid s ssid) password := by
    rw [wilmaSetApSsidPassword, if_neg (Nat.not_lt.mpr passwordFits),
      if_neg (Nat.not_lt.mpr ssidFits)]
  unfold usedPassword
  by_cases named : ssid.strlen = 0
  · have short : ¬ ssid.strlen = 32 := by omega
    simp only [short, false_or]
    rw [← fill (stored s enabled ssid password) (by rw [stored, keeps]; rfl)]
    simp [softapConfig, stored, keeps, cfgApSetPassword, cfgApSetSsid, named, cfgApFillSsid]
  · have name : (stored s enabled ssid password).ssid = some ssid := by
      rw [stored, keeps]
      simp [cfgApSetPassword, cfgApSetSsid, named]
    by_cases full : ssid.strlen = 32
    · have long : 32 < nvsStrLen ssid := by
        rw [nvsStrLen]
        omega
      simp only [softapConfig, cfgApFillSsid, name, if_pos long, full, true_or, if_true]
      rw [cfgApFillPassword, text_pad, text_chars]
    · have short : ¬ 32 < nvsStrLen ssid := by
        rw [nvsStrLen]
        omega
      simp only [softapConfig, cfgApFillSsid, name, if_neg short, full, false_or]
      exact fill (stored s enabled ssid password) (by rw [stored, keeps]; rfl)

/-! A request that names the access point and gives a password. -/

/-- The configurations of the calls that turn the access point on from the stored settings. -/
def BroughtUp (d : ApDefaults) (s : ApSettings) (conf : ApConfig) : Prop :=
  ∃ (calls : List (Bool × Bool)) (forceOn busy : Bool),
    (wifiConfigureSoftap d forceOn busy
      (calls.foldl (fun s call => (wifiConfigureSoftap d call.1 call.2 s).2) s)).1 = .apsta conf

/-- The access point is protected by exactly this password. -/
def ProtectedBy (password : Str) (conf : ApConfig) : Prop :=
  conf.authmode = .wifiAuthWpa2Psk ∧ text conf.password.bytes = password.chars

/-- The request was refused and nothing is stored, or the access point is never brought up without
the password. -/
def Honoured (d : ApDefaults) (s : ApSettings) (password : Str) (o : ApOutcome) : Prop :=
  ((∃ error, o.reply = .badRequest error) ∧ o.settings = s) ∨
    ∀ conf, o.mode = some (.apsta conf) ∨ BroughtUp d o.settings conf → ProtectedBy password conf

theorem calls_conf (d : ApDefaults) (calls : List (Bool × Bool)) (s : ApSettings) :
    (softapConfig d
      (calls.foldl (fun s call => (wifiConfigureSoftap d call.1 call.2 s).2) s)).1 =
      (softapConfig d s).1 :=
  Runs.invariant (P := fun t => (softapConfig d t).1 = (softapConfig d s).1)
    (fun t call same => (configureSoftap_conf d call.1 call.2 t).trans same) s rfl calls

theorem broughtUp_conf {d : ApDefaults} {s : ApSettings} {conf : ApConfig}
    (up : BroughtUp d s conf) : conf = (softapConfig d s).1 := by
  obtain ⟨calls, forceOn, busy, on⟩ := up
  rw [apsta_conf on, calls_conf]

theorem configure_named (http : HeaderReader) (d : ApDefaults) (busy : Bool) (s : ApSettings)
    {r : ApRequest} {ssid : Str} (named : r.ssid = some ssid) (fits : ssid.strlen ≤ 32) :
    wilmaCgiApConfigure http d busy s r =
      let softap := wifiConfigureSoftap d false busy (stored s true ssid (requestPassword http r))
      ⟨.ok "\x7b\x7d", some softap.1, softap.2⟩ := by
  have found := http.fits ssid 33 (by omega)
  simp only [wilmaCgiApConfigure, named, found, Bool.not_true, Bool.false_and, Bool.false_eq_true,
    if_false]
  rfl

/-- The access point that the request itself asks for is turned on. -/
theorem configure_turns_on (d : ApDefaults) (busy : Bool) (s : ApSettings) (ssid password : Str) :
    (wifiConfigureSoftap d false busy (stored s true ssid password)).1 =
      .apsta (softapConfig d (stored s true ssid password)).1 := by
  simp [wifiConfigureSoftap, stored, cfgApEnabled]

theorem requestPassword_length (http : HeaderReader) (r : ApRequest) :
    (requestPassword http r).strlen ≤ 64 := by
  have inside := http.inBuffer r.password 65 (by omega)
  unfold requestPassword
  split
  · rename_i password result
    rw [result] at inside
    exact Nat.le_of_lt_succ inside
  · exact Nat.zero_le _

theorem requestPassword_eq (http : HeaderReader) {r : ApRequest} {password : Str}
    (keyed : r.password = some password) :
    requestPassword http r = if password.strlen ≤ 64 then password else Str.empty := by
  unfold requestPassword
  rw [keyed]
  split
  · rename_i value result
    by_cases fits : password.strlen ≤ 64
    · rw [http.fits password 65 (by omega)] at result
      rw [if_pos fits]
      exact (Prod.mk.inj result).2.symm
    · have lost := http.tooLong password 65 (by omega)
      rw [result] at lost
      cases lost
  · rename_i value result
    by_cases fits : password.strlen ≤ 64
    · rw [http.fits password 65 (by omega)] at result
      cases result
    · rw [if_neg fits]

/-- With no default password, the access point is protected by the requested password exactly if
the name has at most 31 bytes and the password at most 63. -/
theorem password_honoured_iff (http : HeaderReader) (d : ApDefaults)
    (open_default : d.password.strlen = 0) (busy : Bool) (s : ApSettings) (r : ApRequest)
    (ssid password : Str)
    (named : r.ssid = some ssid) (keyed : r.password = some password)
    (ssidLength : 1 ≤ ssid.strlen ∧ ssid.strlen ≤ 32) (given : password.strlen ≠ 0) :
    Honoured d s password (wilmaCgiApConfigure http d busy s r) ↔
      ssid.strlen ≤ 31 ∧ password.strlen ≤ 63 := by
  have kept := requestPassword_length http r
  have conf := softapConfig_stored d s true ssidLength.2 kept
  rw [configure_named http d busy s named ssidLength.2]
  constructor
  · intro honoured
    rcases honoured with ⟨⟨error, refused⟩, _⟩ | protected_by
    · cases refused
    · obtain ⟨-, same⟩ := protected_by _
        (Or.inl (congrArg some (configure_turns_on d busy s ssid (requestPassword http r))))
      rw [conf] at same
      by_contra long
      have lost : (usedPassword d ssid (requestPassword http r)).strlen = 0 := by
        unfold usedPassword
        rw [requestPassword_eq http keyed]
        by_cases fits : password.strlen ≤ 64
        · rw [if_pos fits, if_pos (by omega)]
          exact open_default
        · rw [if_neg fits]
          split
          · exact open_default
          · rfl
      rw [Str.chars_eq_nil lost] at same
      exact given (congrArg List.length same).symm
  · rintro ⟨ssidFits, passwordFits⟩
    have whole : requestPassword http r = password := by
      rw [requestPassword_eq http keyed, if_pos (by omega)]
    have used : usedPassword d ssid password = password := if_neg (by omega)
    rw [whole, used, List.take_of_length_le (by rw [← Str.strlen]; omega)] at conf
    refine Or.inr fun made up => ?_
    have same : made = (softapConfig d (stored s true ssid password)).1 := by
      rw [whole] at up
      rcases up with now | later
      · exact apsta_conf (Option.some.inj now)
      · rw [broughtUp_conf later, configureSoftap_conf]
    rw [same]
    refine ⟨?_, conf⟩
    cases mode : (softapConfig d (stored s true ssid password)).1.authmode with
    | wifiAuthWpa2Psk => rfl
    | wifiAuthOpen =>
      have empty := (softapConfig_open_iff d _).mp mode
      rw [conf] at empty
      exact absurd (congrArg List.length empty) given

/-- The value is cut to the buffer. -/
def readTruncated : Option Str → Nat → Bool × Str
  | none, _ => (false, .empty)
  | some value, size =>
    if value.strlen < size then (true, value)
    else (false, ⟨value.chars.take (size - 1), fun h => value.noNul (List.mem_of_mem_take h)⟩)

theorem readTruncated_tooLong (value : Str) (size : Nat) (h : size ≤ value.strlen) :
    (readTruncated (some value) size).1 = false := by
  simp [readTruncated, Nat.not_lt.mpr h]

/-- The reader that cuts a value to its buffer and reports it. -/
def truncating : HeaderReader where
  read := readTruncated
  missing _ := rfl
  fits _ _ h := if_pos h
  tooLong := readTruncated_tooLong
  inBuffer value size positive := by
    cases value with
    | none => exact positive
    | some value =>
      simp only [readTruncated]
      split
      · assumption
      · simp only [Str.strlen, List.length_take]
        omega

/-- A device with the name "WiLma" and no default password. -/
def wilmaDefaults : ApDefaults := ⟨pad 32 [0x57, 0x69, 0x4c, 0x6d, 0x61], 5, .empty⟩

theorem nul_notMem_lab : (0 : UInt8) ∉ [0x6c, 0x61, 0x62] := by decide

/-- The name "lab" with a password of `n` letters. -/
def labRequest (n : Nat) : ApRequest where
  ssid := some ⟨[0x6c, 0x61, 0x62], nul_notMem_lab⟩
  disable := none
  password := some ⟨List.replicate n 0x61, by simp⟩

theorem password_honoured_iff_lab :
    Honoured wilmaDefaults .erased ⟨List.replicate 9 0x61, by simp⟩
        (wilmaCgiApConfigure truncating wilmaDefaults false .erased (labRequest 9)) ↔
      (3 ≤ 31 ∧ 9 ≤ 63) :=
  password_honoured_iff truncating wilmaDefaults rfl false .erased (labRequest 9)
    ⟨[0x6c, 0x61, 0x62], by decide⟩ ⟨List.replicate 9 0x61, by simp⟩ rfl rfl (by decide) (by decide)

/-- With 64 letters the access point is open. -/
theorem long_password_opens :
    ¬ Honoured wilmaDefaults .erased ⟨List.replicate 64 0x61, by simp⟩
      (wilmaCgiApConfigure truncating wilmaDefaults false .erased (labRequest 64)) := by
  have on : (wilmaCgiApConfigure truncating wilmaDefaults false .erased (labRequest 64)).mode =
      some (.apsta ⟨pad 32 [0x6c, 0x61, 0x62], 4, Field.zero 64, .wifiAuthOpen⟩) := by
    decide
  rintro (⟨⟨error, refused⟩, _⟩ | protected_by)
  · cases refused
  · have mode := (protected_by _ (Or.inl on)).1
    cases mode

/-! The configuration the driver accepts. -/

/-- `esp_wifi_set_config` refuses a WPA2 access point with less than eight characters. -/
def DriverAccepts (conf : ApConfig) : Prop :=
  conf.authmode = .wifiAuthOpen ∨ 8 ≤ (text conf.password.bytes).length

/-- `wifi_configure_softap` passes the `ESP_ERROR_CHECK` when it turns the access point on. -/
def Bootable (d : ApDefaults) (s : ApSettings) : Prop := DriverAccepts (softapConfig d s).1

instance (conf : ApConfig) : Decidable (DriverAccepts conf) := inferInstanceAs (Decidable (_ ∨ _))

instance (d : ApDefaults) (s : ApSettings) : Decidable (Bootable d s) :=
  inferInstanceAs (Decidable (DriverAccepts _))

/-- No password, or one of at least eight characters. -/
def PskFits (password : Str) : Prop := password.strlen = 0 ∨ 8 ≤ password.strlen

instance (password : Str) : Decidable (PskFits password) :=
  inferInstanceAs (Decidable (_ ∨ _))

/-- The request is refused, or the password that its pair leads to is empty or long enough. -/
def KeyFits (http : HeaderReader) (d : ApDefaults) (r : ApRequest) : Prop :=
  (http.read r.ssid 33).1 = false ∧ httpdReqGetHdrValueLen r.disable = 0 ∨
    PskFits (usedPassword d (http.read r.ssid 33).2 (requestPassword http r))

/-- A request, and whether the station is connecting or connected. -/
def apStep (http : HeaderReader) (d : ApDefaults) (s : ApSettings) (a : ApRequest × Bool) :
    ApSettings :=
  (wilmaCgiApConfigure http d a.2 s a.1).settings

theorem bootable_stored_iff (d : ApDefaults) (s : ApSettings) (enabled : Bool)
    {ssid password : Str} (ssidFits : ssid.strlen ≤ 32) (passwordFits : password.strlen ≤ 64) :
    Bootable d (stored s enabled ssid password) ↔ PskFits (usedPassword d ssid password) := by
  unfold Bootable DriverAccepts PskFits
  rw [softapConfig_open_iff, softapConfig_stored d s enabled ssidFits passwordFits,
    List.length_take, ← List.length_eq_zero_iff, List.length_take, Str.strlen]
  omega

theorem apStep_bootable_iff (http : HeaderReader) (d : ApDefaults) (s : ApSettings)
    (a : ApRequest × Bool) (before : Bootable d s) :
    Bootable d (apStep http d s a) ↔ KeyFits http d a.1 := by
  have inside := http.inBuffer a.1.ssid 33 (by omega)
  have kept := requestPassword_length http a.1
  unfold apStep wilmaCgiApConfigure KeyFits
  by_cases refused : (http.read a.1.ssid 33).1 = false ∧ httpdReqGetHdrValueLen a.1.disable = 0
  · simp only [refused, Bool.not_false, Bool.true_and, decide_true, if_true, and_self, true_or,
      iff_true]
    exact before
  · have goes_on : ¬ (!(http.read a.1.ssid 33).1 &&
        decide (httpdReqGetHdrValueLen a.1.disable = 0)) = true := by
      simpa using refused
    have short : (http.read a.1.ssid 33).2.strlen ≤ 32 := by omega
    have stores := bootable_stored_iff d s (http.read a.1.ssid 33).1 short kept
    simp only [if_neg goes_on, refused, false_or]
    rw [← stores]
    unfold Bootable wilmaSetApEnabled
    rw [configureSoftap_conf]
    exact Iff.rfl

/-- Requests leave a configuration that the driver accepts at every start exactly if each of them
is refused or leads to a password that is empty or long enough. -/
theorem bootable_iff (http : HeaderReader) (d : ApDefaults) (s : ApSettings)
    (as : List (ApRequest × Bool)) :
    Runs.Throughout (apStep http d) (Bootable d) s as ↔
      Bootable d s ∧ Runs.Along (apStep http d) (fun _ a => KeyFits http d a.1) s as := by
  have decides : ∀ t a, True → Bootable d t → (Bootable d (apStep http d t a) ↔ KeyFits http d a.1) :=
    fun t a _ before => apStep_bootable_iff http d t a before
  constructor
  · intro throughout
    have first := Runs.throughout_start throughout
    exact ⟨first, (Runs.throughout_iff_along (fun _ _ _ => trivial) decides s trivial first as).mp
      throughout⟩
  · rintro ⟨first, along⟩
    exact (Runs.throughout_iff_along (fun _ _ _ => trivial) decides s trivial first as).mpr along

/-- A password of seven letters is stored, and the driver refuses it from then on. -/
theorem seven_letters_abort :
    Bootable wilmaDefaults .erased ∧
      ¬ Runs.Throughout (apStep truncating wilmaDefaults) (Bootable wilmaDefaults) .erased
        [(labRequest 7, false)] := by
  refine ⟨by decide, fun bootable => ?_⟩
  have refused : ¬ Bootable wilmaDefaults
      (apStep truncating wilmaDefaults .erased (labRequest 7, false)) := by decide
  exact refused bootable.2

end Rocom.Wilma
