import Rocom.Wilma.AccessPoint
import Rocom.Wilma.Directory
import Rocom.Wilma.JsonString
import Rocom.Wilma.Scan

/-! The JSON pages of main/wilma_cgi.c that list access points and stations. Each local array
that `wilma_json_print_string` writes to is taken as large enough, and what it writes is counted. -/
namespace Rocom.Wilma

open CString Json

def ascii (s : String) : List UInt8 := s.toList.map fun c => UInt8.ofNat c.toNat

/-- `none` is the chunk that ends the response. -/
structure JsonResponse where
  contentType : String
  headers : List (String × String)
  chunks : List (Option (List UInt8))

def JsonResponse.body (r : JsonResponse) : List UInt8 := r.chunks.flatMap fun c => c.getD []

/-- A response of the handlers below, which set the same type and headers. -/
def sendJson (chunks : List (List UInt8)) : JsonResponse where
  contentType := "application/json"
  headers := [("Cache-Control", "no-store, no-cache, must-revalidate, max-age=0"),
    ("Pragma", "no-cache")]
  chunks := chunks.map some ++ [none]

/-- The chunks of a callback, and the number of bytes that `wilma_json_print_string` wrote to its
array. -/
structure Shown where
  chunks : List (List UInt8)
  written : Nat

abbrev lineBufferSize : Nat := 110
abbrev escapedSsidSize : Nat := 100
abbrev ipInfoJsonSize : Nat := 85
abbrev ip4addrStrlenMax : Nat := 16

def nullTerminated (ssid : Field 32) : Field 33 := pad 33 ssid.bytes

def fieldStr {n : Nat} (f : Field n) : Str := ⟨text f.bytes, nul_notMem_text f.bytes⟩

/-- An array after `wilma_json_print_string`, whose result no caller looks at. -/
def escapedInto (memory : List UInt8) (input : Str) : Buffer :=
  (wilmaJsonPrintString (some input) (some memory)).getD (Buffer.of memory)

/-- `line_buffer` holds what the stack held. -/
def cgiApJsonCb (stack : List UInt8) (ap : VisibleAp) (index max : Nat) : Shown :=
  let isLast := index = max - 1
  let line := escapedInto stack (fieldStr (nullTerminated ap.ssid))
  let numbers := snprintf line.bytes lineBufferSize
    (ascii ",\"channel\":" ++ signed ap.channel.toNat ++ ascii ",\"rssi\":" ++
      signed ap.rssi.toInt ++ ascii ",\"auth_mode\":" ++ signed ap.authMode.toNat ++
      ascii "\x7d" ++ [if isLast then 0 else 0x2c])
  ⟨[ascii "\x7b\"ssid\":", text line.bytes, text numbers], line.extent⟩

def cgiStatusJsonSsidCb (stack : List UInt8) (e : StationEntry) (index max : Nat) : Shown :=
  let isLast := index = max - 1
  let line := escapedInto stack (fieldStr (nullTerminated e.ssid))
  let numbers := snprintf line.bytes lineBufferSize
    (ascii ",\"state\":" ++ signed e.state.toNat ++ ascii "\x7d" ++ [if isLast then 0 else 0x2c])
  ⟨[ascii "\x7b\"ssid\":", text line.bytes, text numbers], line.extent⟩

/-- The chunks of the callbacks, and the result. -/
def wilmaForeachVisibleAp (callback : VisibleAp → Nat → Nat → Shown) (lock : Bool) (s : ScanLists) :
    List (List UInt8) × Int :=
  if !lock then ([], espFail)
  else
    ((List.range s.visibleApsCount).flatMap fun idx =>
      (callback (s.visibleAps.getD idx .zero) idx s.visibleApsCount).chunks, espOk)

def wilmaForeachConfiguredSsid (callback : StationEntry → Nat → Nat → Shown) (saved : Saved)
    (faults : LoadFaults) : List (List UInt8) × Int :=
  match getSavedStations saved faults with
  | (none, _) => ([], espOk)
  | (some entries, count) =>
    if count = 0 then ([], espOk)
    else
      ((List.range count).flatMap fun index =>
        (callback (entries.getD index .zero) index count).chunks, espOk)

/-- `stack` is what the array of each call holds before. -/
def wilmaCgiStaScanResultsJson (stack : Nat → List UInt8) (lock : Bool) (s : ScanLists) :
    JsonResponse :=
  let (aps, _) := wilmaForeachVisibleAp (fun ap index => cgiApJsonCb (stack index) ap index) lock s
  sendJson ([ascii "["] ++ aps ++ [ascii "]"])

structure IpInfo where
  ip : UInt32
  netmask : UInt32
  gw : UInt32
deriving DecidableEq

/-- What the format of `ip_info_json` gives. -/
def ipInfoText (ip netmask gw : List UInt8) : List UInt8 :=
  ascii "\x7b\"ip\":\"" ++ ip ++ ascii "\",\"netmask\":\"" ++ netmask ++
    ascii "\",\"gw\":\"" ++ gw ++ ascii "\",\"ssids\":["

def ipInfoJson (ntoa : UInt32 → List UInt8) (info : IpInfo) : List UInt8 :=
  ipInfoText (ntoa info.ip) (ntoa info.netmask) (ntoa info.gw)

def wilmaCgiStaStatusJson (ntoa : UInt32 → List UInt8) (info : IpInfo) (memory : List UInt8)
    (stack : Nat → List UInt8) (saved : Saved) (faults : LoadFaults) : JsonResponse :=
  let line := snprintf memory ipInfoJsonSize (ipInfoJson ntoa info)
  let (ssids, _) := wilmaForeachConfiguredSsid
    (fun e index => cgiStatusJsonSsidCb (stack index) e index) saved faults
  sendJson ([text line] ++ ssids ++ [ascii "]\x7d"])

/-- The string is never read into `password`, which stays empty. -/
def wilmaApSsid (d : ApDefaults) (s : ApSettings) : Field 33 × Bool × ApSettings :=
  let (conf, s) := cfgApFillSsid d s
  let passwordLength := match s.password with
    | none => d.password.strlen
    | some _ => Str.empty.strlen
  (pad 33 (text conf.1.bytes), passwordLength ≠ 0, s)

def boolText (b : Bool) : List UInt8 := if b then ascii "true" else ascii "false"

structure ConfigPage where
  response : JsonResponse
  written : Nat
  settings : ApSettings

def wilmaCgiApConfigJson (d : ApDefaults) (s : ApSettings) : ConfigPage :=
  let (ssid, hasPassword, s) := wilmaApSsid d s
  let enabled := cfgApEnabled s
  let escapedSsid := escapedInto (List.replicate escapedSsidSize 0) (fieldStr ssid)
  { response := sendJson
      [ascii "\x7b\"ssid\":", text escapedSsid.bytes, ascii ",\"enabled\":", boolText enabled,
        ascii ",\"password\":", boolText hasPassword, ascii "\x7d"]
    written := escapedSsid.extent
    settings := s }

/-! What the callbacks say. -/

def apValue (ap : VisibleAp) : Value :=
  .object [(ascii "ssid", .string (text ap.ssid.bytes)),
    (ascii "channel", .number ap.channel.toNat), (ascii "rssi", .number ap.rssi.toInt),
    (ascii "auth_mode", .number ap.authMode.toNat)]

def stationValue (e : StationEntry) : Value :=
  .object [(ascii "ssid", .string (text e.ssid.bytes)), (ascii "state", .number e.state.toNat)]

theorem fieldStr_nullTerminated (ssid : Field 32) :
    (fieldStr (nullTerminated ssid)).chars = text ssid.bytes := by
  have short := length_text_le ssid.bytes
  rw [ssid.size] at short
  show text (pad 33 ssid.bytes).bytes = text ssid.bytes
  rw [text_pad, List.take_of_length_le (by omega)]

theorem escapedInto_eq (memory : List UInt8) (input : Str) :
    escapedInto memory input = printText input (Buffer.of memory) := rfl

theorem text_escapedInto (memory : List UInt8) (ssid : Field 32) :
    text (escapedInto memory (fieldStr (nullTerminated ssid))).bytes =
      quoted (text ssid.bytes) := by
  rw [escapedInto_eq, text_printText, fieldStr_nullTerminated]

theorem nul_notMem_decimal (n : Nat) : 0 ∉ decimal n := by
  intro h
  cases isDigit_of_mem_decimal h

theorem nul_notMem_signed (k : Int) : 0 ∉ signed k := by
  unfold signed
  split
  · simp [minus, nul_notMem_decimal]
  · exact nul_notMem_decimal _

theorem length_signed_le {k : Int} {digits : Nat} (positive : 0 < digits)
    (small : k.natAbs < 10 ^ digits) : (signed k).length ≤ digits + 1 := by
  have := length_decimal_le positive small
  unfold signed
  split
  · rw [List.length_cons]
    omega
  · omega

/-- `%c` with a NUL ends the chunk without a comma. -/
theorem text_separator {bs : List UInt8} (noNul : 0 ∉ bs) (isLast : Prop) [Decidable isLast] :
    text (bs ++ [if isLast then 0 else 0x2c]) = bs ++ if isLast then [] else [comma] := by
  split
  · rw [text_append_nul, text_of_notMem noNul, List.append_nil]
  · exact text_of_notMem (by simp [noNul])

/-- Key, text and value of each member. -/
abbrev Members := List (List UInt8 × List UInt8 × Value)

def apMembers (ap : VisibleAp) : Members :=
  [(ascii "ssid", quoted (text ap.ssid.bytes), .string (text ap.ssid.bytes)),
    (ascii "channel", signed ap.channel.toNat, .number ap.channel.toNat),
    (ascii "rssi", signed ap.rssi.toInt, .number ap.rssi.toInt),
    (ascii "auth_mode", signed ap.authMode.toNat, .number ap.authMode.toNat)]

def stationMembers (e : StationEntry) : Members :=
  [(ascii "ssid", quoted (text e.ssid.bytes), .string (text e.ssid.bytes)),
    (ascii "state", signed e.state.toNat, .number e.state.toNat)]

def membersText (members : Members) : List UInt8 :=
  objectText (members.map fun m => memberText m.1 m.2.1)

theorem reads_ap (ap : VisibleAp) : Reads (membersText (apMembers ap)) (apValue ap) := by
  apply reads_object
  simp [apMembers, reads_string, reads_signed]

theorem reads_station (e : StationEntry) :
    Reads (membersText (stationMembers e)) (stationValue e) := by
  apply reads_object
  simp [stationMembers, reads_string, reads_signed]

theorem length_signed_byte (b : UInt8) : (signed b.toNat).length ≤ 4 := by
  apply length_signed_le (by decide)
  have := b.toNat_lt
  omega

theorem length_signed_rssi (b : Int8) : (signed b.toInt).length ≤ 4 := by
  apply length_signed_le (by decide)
  have := b.toInt_lt
  have := b.le_toInt
  omega

theorem first_key :
    ascii "\x7b\"ssid\":" = braceOpen :: quoted (ascii "ssid") ++ [colon] := by decide

/-- The chunks of a callback that writes its numbers over the SSID. -/
theorem line_chunks (memory : List UInt8) (ssid : Field 32) {numbers : List UInt8}
    (noNul : 0 ∉ numbers) (fits : numbers.length + 1 < lineBufferSize) (isLast : Prop)
    [Decidable isLast] :
    let line := escapedInto memory (fieldStr (nullTerminated ssid))
    [ascii "\x7b\"ssid\":", text line.bytes,
        text (snprintf line.bytes lineBufferSize
          (numbers ++ [if isLast then 0 else 0x2c]))].flatten =
      ascii "\x7b\"ssid\":" ++ quoted (text ssid.bytes) ++ numbers ++
        if isLast then [] else [comma] := by
  intro line
  have whole : (numbers ++ [if isLast then 0 else (0x2c : UInt8)]).length < lineBufferSize := by
    rw [List.length_append, List.length_singleton]
    exact fits
  rw [text_snprintf _ whole, text_separator noNul, text_escapedInto]
  simp only [List.flatten_cons, List.flatten_nil, List.append_assoc, List.append_nil]

theorem cgiApJsonCb_chunks (stack : List UInt8) (ap : VisibleAp) (index max : Nat) :
    (cgiApJsonCb stack ap index max).chunks.flatten =
      membersText (apMembers ap) ++ if index = max - 1 then [] else [comma] := by
  have channel : ascii ",\"channel\":" = comma :: quoted (ascii "channel") ++ [colon] := by decide
  have rssi : ascii ",\"rssi\":" = comma :: quoted (ascii "rssi") ++ [colon] := by decide
  have mode : ascii ",\"auth_mode\":" = comma :: quoted (ascii "auth_mode") ++ [colon] := by decide
  have close : ascii "\x7d" = [braceClose] := by decide
  refine (line_chunks stack ap.ssid ?_ ?_ _).trans ?_
  · simp only [List.mem_append, nul_notMem_signed, or_false]
    decide
  · have sizes : (ascii ",\"channel\":").length = 11 ∧ (ascii ",\"rssi\":").length = 8 ∧
        (ascii ",\"auth_mode\":").length = 13 ∧ (ascii "\x7d").length = 1 := by decide
    have := length_signed_byte ap.channel
    have := length_signed_rssi ap.rssi
    have := length_signed_byte ap.authMode
    simp only [List.length_append, lineBufferSize]
    omega
  · simp only [first_key, channel, rssi, mode, close, membersText, apMembers, objectText,
      memberText, List.map_cons, List.map_nil, separated_cons_cons, separated_singleton,
      List.append_assoc, List.cons_append, List.nil_append]

theorem cgiStatusJsonSsidCb_chunks (stack : List UInt8) (e : StationEntry) (index max : Nat) :
    (cgiStatusJsonSsidCb stack e index max).chunks.flatten =
      membersText (stationMembers e) ++ if index = max - 1 then [] else [comma] := by
  have state : ascii ",\"state\":" = comma :: quoted (ascii "state") ++ [colon] := by decide
  have close : ascii "\x7d" = [braceClose] := by decide
  refine (line_chunks stack e.ssid ?_ ?_ _).trans ?_
  · simp only [List.mem_append, nul_notMem_signed, or_false]
    decide
  · have sizes : (ascii ",\"state\":").length = 9 ∧ (ascii "\x7d").length = 1 := by decide
    have := length_signed_byte e.state
    simp only [List.length_append, lineBufferSize]
    omega
  · simp only [first_key, state, close, membersText, stationMembers, objectText, memberText,
      List.map_cons, List.map_nil, separated_cons_cons, separated_singleton, List.append_assoc,
      List.cons_append, List.nil_append]

/-! The pages. -/

theorem body_sendJson (chunks : List (List UInt8)) : (sendJson chunks).body = chunks.flatten := by
  simp [sendJson, JsonResponse.body, List.flatMap_map, List.flatMap_id']

/-- The entries of the array that the page shows. -/
def ScanLists.visible (s : ScanLists) : List VisibleAp :=
  (List.range s.visibleApsCount).map fun idx => s.visibleAps.getD idx .zero

/-- What the callbacks of a loop send, when each sends its text and then a comma. -/
theorem flatten_loop {α : Type} (callback : α → Nat → Nat → Shown) (item : α → List UInt8)
    (each : ∀ a i n, (callback a i n).chunks.flatten = item a ++ if i = n - 1 then [] else [comma])
    (get : Nat → α) (n : Nat) :
    ((List.range n).flatMap fun i => (callback (get i) i n).chunks).flatten =
      separated (((List.range n).map get).map item) := by
  rw [List.map_map, ← separated_range, List.flatten_eq_flatMap, List.flatMap_assoc]
  apply List.flatMap_congr
  intro i _
  rw [← List.flatten_eq_flatMap]
  exact each (get i) i n

theorem scanResults_body (stack : Nat → List UInt8) (s : ScanLists) :
    (wilmaCgiStaScanResultsJson stack true s).body =
      arrayText (s.visible.map fun ap => membersText (apMembers ap)) := by
  have loop := flatten_loop _ (fun ap => membersText (apMembers ap))
    (fun ap i n => cgiApJsonCb_chunks (stack i) ap i n) (s.visibleAps.getD · .zero)
    s.visibleApsCount
  have brackets : ascii "[" = [bracketOpen] ∧ ascii "]" = [bracketClose] := by decide
  simp only [wilmaCgiStaScanResultsJson, wilmaForeachVisibleAp, body_sendJson, Bool.not_true]
  rw [if_neg (by decide), List.flatten_append, List.flatten_append, loop, brackets.1, brackets.2]
  rfl

/-- The list that `get_saved_stations` gives. -/
def foundStations (saved : Saved) (faults : LoadFaults) : List StationEntry :=
  (getSavedStations saved faults).1.getD []

theorem foundStations_none (saved : Saved) : foundStations saved .none = stations saved := by
  cases saved with
  | none => rfl
  | some entries =>
    cases entries with
    | nil => rfl
    | cons e entries => rfl

/-- A list that is found has an entry, and the count is its length. -/
theorem getSavedStations_cases (saved : Saved) (faults : LoadFaults) :
    (∃ n, getSavedStations saved faults = (none, n)) ∨
      ∃ entries : List StationEntry, entries.length ≠ 0 ∧
        getSavedStations saved faults = (some entries, entries.length) := by
  unfold getSavedStations
  cases saved with
  | none => exact .inl ⟨0, rfl⟩
  | some entries =>
    dsimp only
    split
    · exact .inl ⟨0, rfl⟩
    · split
      · exact .inl ⟨_, rfl⟩
      · rename_i some_entry
        split
        · exact .inl ⟨_, rfl⟩
        · split
          · exact .inl ⟨_, rfl⟩
          · exact .inr ⟨entries, some_entry, rfl⟩

theorem map_getD_range {α : Type} (xs : List α) (d : α) :
    (List.range xs.length).map (xs.getD · d) = xs := by
  apply List.ext_getElem
  · simp
  · intro i _ within
    simp [within]

theorem foreachConfiguredSsid_flatten (stack : Nat → List UInt8) (saved : Saved)
    (faults : LoadFaults) :
    (wilmaForeachConfiguredSsid (fun e index => cgiStatusJsonSsidCb (stack index) e index) saved
      faults).1.flatten =
      separated ((foundStations saved faults).map fun e => membersText (stationMembers e)) := by
  unfold wilmaForeachConfiguredSsid foundStations
  rcases getSavedStations_cases saved faults with ⟨n, nothing⟩ | ⟨entries, some_entry, found⟩
  · rw [nothing]
    rfl
  · have loop := flatten_loop _ (fun e => membersText (stationMembers e))
      (fun e i n => cgiStatusJsonSsidCb_chunks (stack i) e i n) (entries.getD · .zero)
      entries.length
    rw [map_getD_range] at loop
    rw [found]
    dsimp only
    rw [if_neg some_entry]
    exact loop

/-- The documented results of `esp_ip4addr_ntoa`: digits and dots that fit the arrays of the
page with their NUL. -/
structure DottedText (ntoa : UInt32 → List UInt8) : Prop where
  characters : ∀ addr, ∀ c ∈ ntoa addr, c = 0x2e ∨ isDigit c = true
  fits : ∀ addr, (ntoa addr).length < ip4addrStrlenMax

def statusValue (ntoa : UInt32 → List UInt8) (info : IpInfo) (entries : List StationEntry) :
    Value :=
  .object [(ascii "ip", .string (ntoa info.ip)), (ascii "netmask", .string (ntoa info.netmask)),
    (ascii "gw", .string (ntoa info.gw)), (ascii "ssids", .array (entries.map stationValue))]

def statusMembers (ntoa : UInt32 → List UInt8) (info : IpInfo) (entries : List StationEntry) :
    Members :=
  [(ascii "ip", quoted (ntoa info.ip), .string (ntoa info.ip)),
    (ascii "netmask", quoted (ntoa info.netmask), .string (ntoa info.netmask)),
    (ascii "gw", quoted (ntoa info.gw), .string (ntoa info.gw)),
    (ascii "ssids", arrayText (entries.map fun e => membersText (stationMembers e)),
      .array (entries.map stationValue))]

theorem reads_status (ntoa : UInt32 → List UInt8) (info : IpInfo) (entries : List StationEntry) :
    Reads (membersText (statusMembers ntoa info entries)) (statusValue ntoa info entries) := by
  apply reads_object
  have ssids := reads_array fun e (_ : e ∈ entries) => reads_station e
  simp [statusMembers, reads_string, ssids]

theorem quoted_dotted {cs : List UInt8} (dotted : ∀ c ∈ cs, c = 0x2e ∨ isDigit c = true) :
    quoted cs = quote :: cs ++ [quote] := by
  rw [quoted, flatMap_escape_of_plain]
  intro c hc
  have copied : 31 < c ∧ c ≠ 0x22 ∧ c ≠ 0x5c := by
    rcases dotted c hc with rfl | isdigit
    · decide
    · refine ⟨?_, ?_, ?_⟩
      · rw [isDigit, Bool.and_eq_true, decide_eq_true_iff] at isdigit
        exact UInt8.lt_of_lt_of_le (by decide) isdigit.1
      · rintro rfl
        cases isdigit
      · rintro rfl
        cases isdigit
  obtain ⟨other, printed⟩ := (copied_iff c).mp copied
  exact escape_plain other printed

theorem DottedText.noNul {ntoa : UInt32 → List UInt8} (dotted : DottedText ntoa) (addr : UInt32) :
    0 ∉ ntoa addr := by
  intro h
  rcases dotted.characters addr 0 h with dot | isdigit
  · cases dot
  · cases isdigit

/-- The three longest addresses leave room for the NUL only. -/
theorem length_ipInfoJson {ntoa : UInt32 → List UInt8} (dotted : DottedText ntoa) (info : IpInfo) :
    (ipInfoJson ntoa info).length < ipInfoJsonSize := by
  have ip := dotted.fits info.ip
  have netmask := dotted.fits info.netmask
  have gw := dotted.fits info.gw
  have sizes : (ascii "\x7b\"ip\":\"").length = 7 ∧ (ascii "\",\"netmask\":\"").length = 13 ∧
      (ascii "\",\"gw\":\"").length = 8 ∧ (ascii "\",\"ssids\":[").length = 11 := by decide
  simp only [ipInfoJson, ipInfoText, List.length_append, ip4addrStrlenMax, ipInfoJsonSize] at *
  omega

theorem staStatus_body {ntoa : UInt32 → List UInt8} (dotted : DottedText ntoa) (info : IpInfo)
    (memory : List UInt8) (stack : Nat → List UInt8) (saved : Saved) (faults : LoadFaults) :
    (wilmaCgiStaStatusJson ntoa info memory stack saved faults).body =
      membersText (statusMembers ntoa info (foundStations saved faults)) := by
  have noNul : 0 ∉ ipInfoJson ntoa info := by
    simp only [ipInfoJson, ipInfoText, List.mem_append, dotted.noNul, or_false]
    decide
  have first : ascii "\x7b\"ip\":\"" = braceOpen :: quoted (ascii "ip") ++ [colon, quote] := by
    decide
  have netmask : ascii "\",\"netmask\":\"" =
      quote :: comma :: quoted (ascii "netmask") ++ [colon, quote] := by decide
  have gw : ascii "\",\"gw\":\"" = quote :: comma :: quoted (ascii "gw") ++ [colon, quote] := by
    decide
  have ssids : ascii "\",\"ssids\":[" =
      quote :: comma :: quoted (ascii "ssids") ++ [colon, bracketOpen] := by decide
  have close : ascii "]\x7d" = [bracketClose, braceClose] := by decide
  simp only [wilmaCgiStaStatusJson, body_sendJson, List.flatten_append, List.flatten_singleton,
    foreachConfiguredSsid_flatten]
  rw [text_snprintf _ (length_ipInfoJson dotted info), text_of_notMem noNul]
  simp only [ipInfoJson, ipInfoText, first, netmask, gw, ssids, close, membersText, statusMembers,
    objectText, memberText, arrayText, quoted_dotted (dotted.characters _), List.map_cons,
    List.map_nil, separated_cons_cons, separated_singleton, List.append_assoc, List.cons_append,
    List.nil_append]

/-- Both pages are JSON and say what the lists hold, in their order. -/
theorem pages_decode {ntoa : UInt32 → List UInt8} (dotted : DottedText ntoa) (info : IpInfo)
    (memory : List UInt8) (stack : Nat → List UInt8) (s : ScanLists) (saved : Saved)
    (faults : LoadFaults) :
    read (wilmaCgiStaScanResultsJson stack true s).body = some (.array (s.visible.map apValue)) ∧
      read (wilmaCgiStaStatusJson ntoa info memory stack saved faults).body =
        some (statusValue ntoa info (foundStations saved faults)) ∧
      foundStations saved .none = stations saved ∧
      (ipInfoJson ntoa info).length < ipInfoJsonSize := by
  refine ⟨?_, ?_, foundStations_none saved, length_ipInfoJson dotted info⟩
  · rw [scanResults_body]
    exact (reads_array fun ap _ => reads_ap ap).read
  · rw [staStatus_body dotted]
    exact (reads_status ntoa info _).read

def octet (addr : UInt32) (i : Nat) : Nat := addr.toNat / 256 ^ i % 256

/-- The octets from the lowest, which is the first one on the wire. -/
def dottedDecimal (addr : UInt32) : List UInt8 :=
  decimal (octet addr 0) ++ 0x2e :: (decimal (octet addr 1) ++
    0x2e :: (decimal (octet addr 2) ++ 0x2e :: decimal (octet addr 3)))

theorem dottedDecimal_text : DottedText dottedDecimal := by
  constructor
  · intro addr c hc
    simp only [dottedDecimal, List.mem_append, List.mem_cons] at hc
    rcases hc with h | h | h | h | h | h | h
    · exact .inr (isDigit_of_mem_decimal h)
    · exact .inl h
    · exact .inr (isDigit_of_mem_decimal h)
    · exact .inl h
    · exact .inr (isDigit_of_mem_decimal h)
    · exact .inl h
    · exact .inr (isDigit_of_mem_decimal h)
  · intro addr
    have short : ∀ i, (decimal (octet addr i)).length ≤ 3 := by
      intro i
      apply length_decimal_le (by decide)
      exact Nat.lt_trans (Nat.mod_lt _ (by decide)) (by decide)
    have := short 0
    have := short 1
    have := short 2
    have := short 3
    simp only [dottedDecimal, List.length_append, List.length_cons, ip4addrStrlenMax]
    omega

/-- A name with a quote in it. -/
def quotedAp : VisibleAp := ⟨pad 32 [0x61, 0x22, 0x62], 6, -40, 3⟩

def plainAp : VisibleAp := ⟨pad 32 [0x63], 11, -70, 0⟩

/-- Two stations, the second of them with a quote in its name as well. -/
def savedTwo : Saved :=
  [Operation.add ⟨[0x63], by decide⟩ ⟨[0x70], by decide⟩,
    .add ⟨[0x61, 0x22, 0x62], by decide⟩ ⟨[0x71], by decide⟩].foldl Operation.apply none

theorem pages_decode_quoted :
    read (wilmaCgiStaScanResultsJson (fun _ => []) true ⟨[quotedAp, plainAp], 2, []⟩).body =
        some (.array [apValue quotedAp, apValue plainAp]) ∧
      read (wilmaCgiStaStatusJson dottedDecimal ⟨0x0100a8c0, 0x00ffffff, 0xfe00a8c0⟩ []
        (fun _ => []) savedTwo .none).body =
        some (statusValue dottedDecimal ⟨0x0100a8c0, 0x00ffffff, 0xfe00a8c0⟩ (stations savedTwo)) ∧
      (stations savedTwo).length = 2 := by
  have pages := pages_decode dottedDecimal_text ⟨0x0100a8c0, 0x00ffffff, 0xfe00a8c0⟩ []
    (fun _ => []) ⟨[quotedAp, plainAp], 2, []⟩ savedTwo .none
  rw [pages.2.2.1] at pages
  exact ⟨pages.1, pages.2.1, by decide⟩

def longEscaped (c : UInt8) : Bool := c < 32 && c ∉ oneCharacter

/-- The length of a text with its escapes: one byte more for a short one, five for a long one. -/
def escapedLength (cs : List UInt8) : Nat :=
  cs.length + cs.countP (· ∈ oneCharacter) + 5 * cs.countP longEscaped

theorem sum_extra (cs : List UInt8) :
    (cs.map extra).sum = cs.countP (· ∈ oneCharacter) + 5 * cs.countP longEscaped := by
  induction cs with
  | nil => rfl
  | cons c cs ih =>
    rw [List.map_cons, List.sum_cons, ih, extra, List.countP_cons, List.countP_cons, longEscaped]
    by_cases short : c ∈ oneCharacter
    · simp [short]
      omega
    · by_cases control : c < 32
      · simp [short, control]
        omega
      · simp [short, control]

/-- Two quotes and the NUL. -/
theorem extent_escapedInto (memory : List UInt8) (input : Str) :
    (escapedInto memory input).extent = escapedLength input.chars + 3 := by
  rw [escapedInto_eq, extent_printText, escapeCharacters_eq, sum_extra, Str.strlen, escapedLength]
  omega

theorem text_apSsid (d : ApDefaults) (s : ApSettings) :
    (fieldStr (wilmaApSsid d s).1).chars = text (cfgApFillSsid d s).1.1.bytes := by
  have short := length_text_le (cfgApFillSsid d s).1.1.bytes
  rw [(cfgApFillSsid d s).1.1.size] at short
  show text (pad 33 (text (cfgApFillSsid d s).1.1.bytes)).bytes = _
  rw [text_pad, text_of_notMem (nul_notMem_text _), List.take_of_length_le (by omega)]

def configMembers (ssid : List UInt8) (enabled hasPassword : Bool) : Members :=
  [(ascii "ssid", quoted ssid, .string ssid), (ascii "enabled", boolText enabled, .bool enabled),
    (ascii "password", boolText hasPassword, .bool hasPassword)]

/-- The page of the access point is JSON too. -/
theorem configPage_read (d : ApDefaults) (s : ApSettings) :
    read (wilmaCgiApConfigJson d s).response.body =
      some (.object [(ascii "ssid", .string (text (cfgApFillSsid d s).1.1.bytes)),
        (ascii "enabled", .bool (cfgApEnabled (wilmaApSsid d s).2.2)),
        (ascii "password", .bool (wilmaApSsid d s).2.1)]) := by
  have words : ∀ b, Reads (boolText b) (.bool b) := reads_bool
  have enabled : ascii ",\"enabled\":" = comma :: quoted (ascii "enabled") ++ [colon] := by decide
  have password : ascii ",\"password\":" = comma :: quoted (ascii "password") ++ [colon] := by
    decide
  have close : ascii "\x7d" = [braceClose] := by decide
  have page : (wilmaCgiApConfigJson d s).response.body =
      membersText (configMembers (text (cfgApFillSsid d s).1.1.bytes)
        (cfgApEnabled (wilmaApSsid d s).2.2) (wilmaApSsid d s).2.1) := by
    dsimp only [wilmaCgiApConfigJson]
    rw [body_sendJson, escapedInto_eq, text_printText, text_apSsid]
    simp only [first_key, enabled, password, close, membersText, configMembers, objectText,
      memberText, List.map_cons, List.map_nil, separated_cons_cons, separated_singleton,
      List.flatten_cons, List.flatten_nil, List.append_assoc, List.cons_append, List.nil_append]
  rw [page]
  refine Reads.read (reads_object ?_)
  simp [configMembers, reads_string, words]

theorem written_ap (stack : List UInt8) (ap : VisibleAp) (index max : Nat) :
    (cgiApJsonCb stack ap index max).written = escapedLength (text ap.ssid.bytes) + 3 := by
  rw [← fieldStr_nullTerminated]
  exact extent_escapedInto _ _

theorem written_status (stack : List UInt8) (e : StationEntry) (index max : Nat) :
    (cgiStatusJsonSsidCb stack e index max).written = escapedLength (text e.ssid.bytes) + 3 := by
  rw [← fieldStr_nullTerminated]
  exact extent_escapedInto _ _

theorem written_config (d : ApDefaults) (s : ApSettings) :
    (wilmaCgiApConfigJson d s).written =
      escapedLength (text (cfgApFillSsid d s).1.1.bytes) + 3 := by
  rw [← text_apSsid]
  exact extent_escapedInto _ _

/-- The arrays hold what is written exactly when the escaped SSID is three bytes shorter. -/
theorem escaped_fits_iff (stack : List UInt8) (ap : VisibleAp) (e : StationEntry) (d : ApDefaults)
    (s : ApSettings) (index max : Nat) :
    ((cgiApJsonCb stack ap index max).written ≤ lineBufferSize ↔
        escapedLength (text ap.ssid.bytes) ≤ 107) ∧
      ((cgiStatusJsonSsidCb stack e index max).written ≤ lineBufferSize ↔
        escapedLength (text e.ssid.bytes) ≤ 107) ∧
      ((wilmaCgiApConfigJson d s).written ≤ escapedSsidSize ↔
        escapedLength (text (cfgApFillSsid d s).1.1.bytes) ≤ 97) := by
  rw [written_ap, written_status, written_config, lineBufferSize, escapedSsidSize]
  refine ⟨?_, ?_, ?_⟩ <;> omega

/-- An access point in reach whose name is 32 times the byte 1. -/
def controlAp : VisibleAp := ⟨pad 32 (List.replicate 32 1), 6, -40, 3⟩

theorem line_overrun :
    (cgiApJsonCb [] controlAp 0 1).written = 195 ∧
      ¬ ∀ stack ap index max, (cgiApJsonCb stack ap index max).written ≤ lineBufferSize := by
  have written : (cgiApJsonCb [] controlAp 0 1).written = 195 := by
    rw [written_ap]
    decide
  refine ⟨written, fun fits => ?_⟩
  have small := fits [] controlAp 0 1
  rw [written] at small
  exact absurd small (by decide)

end Rocom.Wilma
