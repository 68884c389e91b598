import Rocom.Wilma.Store

/-! Scan results of components/wilma/wilma.c: the clean-up of the records and the two lists
made of them. -/
namespace Rocom.Wilma

open CString

abbrev maxScanResults : Nat := 64
abbrev wilmaMaxCandidateStations : Nat := 4

structure ApRecord where
  bssid : Field 6
  ssid : Field 33
  primary : UInt8
  rssi : Int8
  authmode : UInt8
deriving DecidableEq

def ApRecord.zero : ApRecord := ⟨Field.zero 6, Field.zero 33, 0, 0, 0⟩

/-- `ssid[0] == 0`: hidden, or cleared by the clean-up. -/
def ApRecord.nameless (r : ApRecord) : Bool := r.ssid.bytes.headD 0 = 0

def apCompareRssi (a b : ApRecord) : Int :=
  if b.rssi < a.rssi then -1
  else if a.rssi < b.rssi then 1
  else strcmp a.ssid.bytes b.ssid.bytes

def identical (a b : ApRecord) : Bool :=
  strcmp a.ssid.bytes b.ssid.bytes = 0 && a.authmode = b.authmode

/-- The inner loop over the records behind `ap`: duplicates leave their signal and are
cleared. -/
def absorb (ap : ApRecord) : List ApRecord → ApRecord × List ApRecord
  | [] => (ap, [])
  | ap1 :: rest =>
    if identical ap ap1 then
      let ap := if ap.rssi < ap1.rssi then { ap with rssi := ap1.rssi } else ap
      let (ap, rest) := absorb ap rest
      (ap, .zero :: rest)
    else
      let (ap, rest) := absorb ap rest
      (ap, ap1 :: rest)

/-- The outer loop, for its first `n` records. -/
def removeIdentical : Nat → List ApRecord → List ApRecord
  | 0, list => list
  | _, [] => []
  | n + 1, ap :: rest =>
    if ap.nameless then ap :: removeIdentical n rest
    else
      let (ap, rest) := absorb ap rest
      ap :: removeIdentical n rest

structure Reorder where
  list : List ApRecord
  firstFree : Option Nat
  totalUnique : Nat

def reorderStep (s : Reorder) (i : Nat) : Reorder :=
  let ap := s.list.getD i .zero
  if ap.nameless then
    { s with
      firstFree := if s.firstFree = none then some i else s.firstFree
      totalUnique := s.totalUnique - 1 }
  else
    match s.firstFree with
    | none => s
    | some free =>
      let list := (s.list.set free ap).set i .zero
      { s with
        list := list
        firstFree := (list.findIdx? ApRecord.nameless).or s.firstFree }

def reorder (list : List ApRecord) : Reorder :=
  (List.range list.length).foldl reorderStep ⟨list, none, list.length⟩

/-- The array and the count it leaves. `qsort` sorts a list by a comparison. -/
def apFilterSortUnique (qsort : (ApRecord → ApRecord → Int) → List ApRecord → List ApRecord)
    (list : List ApRecord) : List ApRecord × Nat :=
  let r := reorder (removeIdentical (list.length - 1) list)
  (qsort apCompareRssi (r.list.take r.totalUnique) ++ r.list.drop r.totalUnique, r.totalUnique)

structure VisibleAp where
  ssid : Field 32
  channel : UInt8
  rssi : Int8
  authMode : UInt8
deriving DecidableEq

def VisibleAp.zero : VisibleAp := ⟨Field.zero 32, 0, 0, 0⟩

def visibleAp (r : ApRecord) : VisibleAp := ⟨r.ssid.prefixOf 32, r.primary, r.rssi, r.authmode⟩

structure ConnectionEntry where
  ssid : Field 32
  password : Field 64
  channel : UInt8
  rssi : Int8
  authMode : UInt8
deriving DecidableEq

def connectionEntry (r : ApRecord) (station : StationEntry) : ConnectionEntry :=
  ⟨r.ssid.prefixOf 32, station.password, r.primary, r.rssi, r.authmode⟩

def recordMatches (r : ApRecord) (station : StationEntry) : Bool :=
  strncmp 32 station.ssid.bytes r.ssid.bytes = 0

/-- The pass of the loop over the records that extends the candidate list. -/
def candidateStep (saved : List StationEntry) (list : List ConnectionEntry) (r : ApRecord) :
    List ConnectionEntry :=
  if list.length < wilmaMaxCandidateStations then
    match saved.find? (recordMatches r) with
    | some station => list ++ [connectionEntry r station]
    | none => list
  else list

def candidates (saved : List StationEntry) (records : List ApRecord) : List ConnectionEntry :=
  records.foldl (candidateStep saved) []

/-- The two lists. Of `WILMA_CONNECTION_LIST` only the first COUNT entries are ever read: they
are `connectionList`. -/
structure ScanLists where
  visibleAps : List VisibleAp
  visibleApsCount : Nat
  connectionList : List ConnectionEntry
deriving DecidableEq

/-- The results of the calls of `update_ssid_list`. `none` is an error of the driver. -/
structure ScanResult where
  lock : Bool
  apNum : Option UInt16
  calloc : Bool
  records : Option (List ApRecord)
deriving DecidableEq

def updateSsidList (qsort : (ApRecord → ApRecord → Int) → List ApRecord → List ApRecord)
    (saved : Saved) (r : ScanResult) (s : ScanLists) : ScanLists × Int :=
  if !r.lock then (s, espFail)
  else
    match r.apNum with
    | none => (s, espFail)
    | some apNum =>
      let s := { s with visibleApsCount := apNum.toNat }
      if apNum = 0 then (s, espOk)
      else
        let s := { s with visibleApsCount := min s.visibleApsCount maxScanResults }
        if !r.calloc then ({ s with visibleApsCount := 0 }, espFail)
        else
          match r.records with
          | none => (s, espFail)
          | some records =>
            let (array, count) := apFilterSortUnique qsort (records.take s.visibleApsCount)
            let records := array.take count
            let stations := (getSavedStations saved .none).1.getD []
            ({ visibleAps := records.map visibleAp ++ s.visibleAps.drop records.length
               visibleApsCount := count
               connectionList := candidates stations records }, espOk)

/-! ### How far the function gets -/

inductive Reading where
  | unavailable
  | empty
  | noMemory
  | noRecords (count : Nat)
  | scan (records : List ApRecord)
deriving DecidableEq

/-- The part of the results that the function looks at. -/
def ScanResult.reading (r : ScanResult) : Reading :=
  match r.lock, r.apNum, r.calloc, r.records with
  | false, _, _, _ => .unavailable
  | true, none, _, _ => .unavailable
  | true, some apNum, calloc, records =>
    if apNum = 0 then .empty
    else
      match calloc, records with
      | false, _ => .noMemory
      | true, none => .noRecords (min apNum.toNat maxScanResults)
      | true, some records => .scan (records.take (min apNum.toNat maxScanResults))

/-- The results behind a reading, up to the one that stopped the function. -/
def ScanResult.Backs (r : ScanResult) : Reading → Prop
  | .unavailable => r.lock = false ∨ r.apNum = none
  | .empty => r.apNum = some 0
  | .noMemory => r.calloc = false
  | .noRecords count => r.records = none ∧ ∃ apNum, r.apNum = some apNum ∧ apNum ≠ 0 ∧
      count = min apNum.toNat maxScanResults
  | .scan records => ∃ apNum all, r.apNum = some apNum ∧ r.records = some all ∧
      records = all.take (min apNum.toNat maxScanResults)

theorem ScanResult.backs_reading (r : ScanResult) : r.Backs r.reading := by
  obtain ⟨lock, apNum, calloc, records⟩ := r
  cases lock with
  | false => exact .inl rfl
  | true =>
    cases apNum with
    | none => exact .inr rfl
    | some apNum =>
      by_cases empty : apNum = 0
      · subst empty
        rfl
      · cases calloc with
        | false =>
          simp only [reading, if_neg empty]
          rfl
        | true =>
          simp only [reading, if_neg empty]
          cases records with
          | none => exact ⟨rfl, apNum, rfl, empty, rfl⟩
          | some records => exact ⟨apNum, records, rfl, rfl, rfl⟩

/-- A scan that is read has at most as many records as the array has entries. -/
theorem ScanResult.reading_length {r : ScanResult} {records : List ApRecord}
    (read : r.reading = .scan records) : records.length ≤ maxScanResults := by
  have backs := r.backs_reading
  rw [read] at backs
  obtain ⟨apNum, all, _, _, rfl⟩ := backs
  rw [List.length_take]
  omega

theorem ScanResult.reading_noRecords {r : ScanResult} {count : Nat}
    (read : r.reading = .noRecords count) : count ≠ 0 := by
  have backs := r.backs_reading
  rw [read] at backs
  obtain ⟨_, apNum, _, found, rfl⟩ := backs
  have nonzero : apNum.toNat ≠ 0 := fun zero => found (UInt16.toNat_inj.mp zero)
  show min apNum.toNat 64 ≠ 0
  omega

theorem updateSsidList_reading
    (qsort : (ApRecord → ApRecord → Int) → List ApRecord → List ApRecord)
    (saved : Saved) (r : ScanResult) (s : ScanLists) :
    updateSsidList qsort saved r s =
      match r.reading with
      | .unavailable => (s, espFail)
      | .empty => ({ s with visibleApsCount := 0 }, espOk)
      | .noMemory => ({ s with visibleApsCount := 0 }, espFail)
      | .noRecords count => ({ s with visibleApsCount := count }, espFail)
      | .scan records =>
        let (array, count) := apFilterSortUnique qsort records
        let records := array.take count
        ({ visibleAps := records.map visibleAp ++ s.visibleAps.drop records.length
           visibleApsCount := count
           connectionList :=
             candidates ((getSavedStations saved .none).1.getD []) records }, espOk) := by
  obtain ⟨lock, apNum, calloc, records⟩ := r
  cases lock with
  | false => rfl
  | true =>
    cases apNum with
    | none => rfl
    | some apNum =>
      by_cases empty : apNum = 0
      · subst empty
        rfl
      · cases calloc with
        | false => simp [updateSsidList, ScanResult.reading, empty]
        | true => cases records <;> simp [updateSsidList, ScanResult.reading, empty]

/-! ### The candidates -/

theorem mem_candidates {saved : List StationEntry} {records : List ApRecord} {c : ConnectionEntry}
    (h : c ∈ candidates saved records) :
    ∃ r, ∃ station ∈ saved, recordMatches r station = true ∧ c = connectionEntry r station := by
  have extend : ∀ (list : List ConnectionEntry) (r : ApRecord), c ∈ candidateStep saved list r →
      c ∈ list ∨ ∃ station ∈ saved, recordMatches r station = true ∧ c = connectionEntry r station := by
    intro list r hc
    unfold candidateStep at hc
    split at hc
    · split at hc
      · rename_i station found
        rcases List.mem_append.mp hc with old | new
        · exact Or.inl old
        · exact Or.inr ⟨station, List.mem_of_find?_eq_some found, List.find?_some found,
            List.mem_singleton.mp new⟩
      · exact Or.inl hc
    · exact Or.inl hc
  have run : ∀ (records : List ApRecord) (list : List ConnectionEntry),
      c ∈ records.foldl (candidateStep saved) list → c ∈ list ∨
        ∃ r, ∃ station ∈ saved, recordMatches r station = true ∧ c = connectionEntry r station := by
    intro records
    induction records with
    | nil => exact fun list hc => Or.inl hc
    | cons r records ih =>
      intro list hc
      rcases ih _ hc with old | new
      · exact (extend list r old).imp_right fun new => ⟨r, new⟩
      · exact Or.inr new
  exact (run records [] h).resolve_left List.not_mem_nil

theorem length_candidates (saved : List StationEntry) (records : List ApRecord) :
    (candidates saved records).length ≤ wilmaMaxCandidateStations := by
  have step : ∀ (list : List ConnectionEntry) (r : ApRecord),
      list.length ≤ wilmaMaxCandidateStations →
        (candidateStep saved list r).length ≤ wilmaMaxCandidateStations := by
    intro list r short
    unfold candidateStep
    split
    · split
      · rw [List.length_append]
        assumption
      · exact short
    · exact short
  exact Runs.invariant (P := fun list => list.length ≤ wilmaMaxCandidateStations) step [] (by decide)
    records

/-- A scan leaves the candidates alone or picks them anew. -/
theorem updateSsidList_list
    (qsort : (ApRecord → ApRecord → Int) → List ApRecord → List ApRecord)
    (saved : Saved) (r : ScanResult) (s : ScanLists) :
    (updateSsidList qsort saved r s).1.connectionList = s.connectionList ∨
      ∃ records, (updateSsidList qsort saved r s).1.connectionList =
        candidates ((getSavedStations saved .none).1.getD []) records := by
  rw [updateSsidList_reading]
  cases r.reading with
  | scan records => exact Or.inr ⟨_, rfl⟩
  | _ => exact Or.inl rfl

end Rocom.Wilma
