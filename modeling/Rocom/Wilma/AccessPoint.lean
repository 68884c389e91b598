import Rocom.Lib.CString

/-! The soft access point of components/wilma/wilma.c: the NVS keys `ap_en`, `ap_ssid` and
`ap_pass`, and the configuration `wifi_configure_softap` makes of them. NVS calls on a key that
is present succeed. -/
namespace Rocom.Wilma

open CString

structure ApSettings where
  enabled : Option UInt8
  ssid : Option Str
  password : Option Str
deriving DecidableEq

def ApSettings.erased : ApSettings := ⟨none, none, none⟩

/-- What the build and the MAC address give: the result of `wilma_update_wifi_ssid` and
`CONFIG_WILMA_AP_PASSWORD`. -/
structure ApDefaults where
  ssid : Field 32
  ssidLen : UInt8
  password : Str

inductive AuthMode where
  | wifiAuthOpen
  | wifiAuthWpa2Psk
deriving DecidableEq, Repr

structure ApConfig where
  ssid : Field 32
  ssidLen : UInt8
  password : Field 64
  authmode : AuthMode
deriving DecidableEq

/-- The interfaces the driver runs. -/
inductive WifiMode where
  | sta
  | apsta (conf : ApConfig)
deriving DecidableEq

def cfgApEnabled (s : ApSettings) : Bool :=
  match s.enabled with
  | none => true
  | some enabled => enabled ≠ 0

def cfgApSetSsid (s : ApSettings) (ssid : Str) : ApSettings :=
  if ssid.strlen = 0 then { s with ssid := none, password := none } else { s with ssid := some ssid }

def cfgApSetPassword (s : ApSettings) (password : Str) : ApSettings :=
  { s with password := some password }

def wilmaSetApSsidPassword (s : ApSettings) (ssid password : Str) : ApSettings :=
  if 64 < password.strlen then s
  else if 32 < ssid.strlen then s
  else cfgApSetPassword (cfgApSetSsid s ssid) password

/-- What `nvs_get_str` reports as the length of a string. -/
def nvsStrLen (s : Str) : Nat := s.strlen + 1

def cfgApFillSsid (d : ApDefaults) (s : ApSettings) : (Field 32 × UInt8) × ApSettings :=
  match s.ssid with
  | none => ((d.ssid, d.ssidLen), s)
  | some ssid =>
    if 32 < nvsStrLen ssid then ((d.ssid, d.ssidLen), { s with ssid := none, password := none })
    else ((pad 32 ssid.chars, UInt8.ofNat (nvsStrLen ssid)), s)

def cfgApFillPassword (d : ApDefaults) (s : ApSettings) : Field 64 :=
  match s.password with
  | none => pad 64 d.password.chars
  | some password =>
    if nvsStrLen password = 0 then Field.zero 64
    else if 64 < nvsStrLen password then pad 64 d.password.chars
    else pad 64 password.chars

/-- The configuration of an access point that is brought up. -/
def softapConfig (d : ApDefaults) (s : ApSettings) : ApConfig × ApSettings :=
  let (ssid, s) := cfgApFillSsid d s
  let password := cfgApFillPassword d s
  let authmode := if password.bytes.headD 0 = 0 then .wifiAuthOpen else .wifiAuthWpa2Psk
  (⟨ssid.1, ssid.2, password, authmode⟩, s)

/-- `busy` is the test of the event bits CONNECTING and CONNECTED. -/
def wifiConfigureSoftap (d : ApDefaults) (forceOn busy : Bool) (s : ApSettings) :
    WifiMode × ApSettings :=
  if !forceOn && !cfgApEnabled s && busy then (.sta, s)
  else
    let (conf, s) := softapConfig d s
    (.apsta conf, s)

end Rocom.Wilma
