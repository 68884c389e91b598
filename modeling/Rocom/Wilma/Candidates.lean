import Rocom.Wilma.CleanUp
import Rocom.Wilma.JsonPages

/-! `update_ssid_list` over its two fixed arrays and the pointer to the saved stations, each
access checked: which candidates a scan leaves, and when an entry is read through NULL. -/
namespace Rocom.Wilma

open CString

/-- An access outside its object. -/
inductive Stray where
  | throughNull
  | behindEntries
  | behindVisibleAps
  | behindConnectionList
deriving DecidableEq, Repr

structure ScanArrays where
  visibleAps : Vector VisibleAp maxScanResults
  visibleApsCount : Nat
  connectionList : Vector ConnectionEntry wilmaMaxCandidateStations
  connectionListCount : Nat
deriving DecidableEq

/-- What is read of the arrays. -/
def ScanArrays.lists (a : ScanArrays) : ScanLists where
  visibleAps := a.visibleAps.toList
  visibleApsCount := a.visibleApsCount
  connectionList := a.connectionList.toList.take a.connectionListCount

/-- The arrays before the first scan. -/
def emptyArrays : ScanArrays where
  visibleAps := Vector.replicate maxScanResults .zero
  visibleApsCount := 0
  connectionList :=
    Vector.replicate wilmaMaxCandidateStations ⟨Field.zero 32, Field.zero 64, 0, 0, 0⟩
  connectionListCount := 0

def writeAt {α : Type} {n : Nat} (stray : Stray) (array : Vector α n) (i : Nat) (x : α) :
    Except Stray (Vector α n) :=
  if inside : i < n then .ok (array.set i x inside) else .error stray

def readStation (entries : Option (List StationEntry)) (j : Nat) : Except Stray StationEntry :=
  match entries with
  | none => .error .throughNull
  | some entries =>
    match entries[j]? with
    | none => .error .behindEntries
    | some entry => .ok entry

/-- The loop over the saved stations, from `j` on with `left` turns to go. -/
def findStation (entries : Option (List StationEntry)) (r : ApRecord) :
    (left j : Nat) → Except Stray (Option StationEntry)
  | 0, _ => .ok none
  | left + 1, j => do
    let entry ← readStation entries j
    if recordMatches r entry then return some entry else findStation entries r left (j + 1)

def ScanArrays.addCandidate (a : ScanArrays) (c : ConnectionEntry) : Except Stray ScanArrays := do
  let list ← writeAt .behindConnectionList a.connectionList a.connectionListCount c
  return { a with connectionList := list, connectionListCount := a.connectionListCount + 1 }

/-- The turn of the loop over the records. `loaded` is the result of `get_saved_stations`, with
what it left in `*count`. -/
def recordTurn (loaded : Option (List StationEntry) × Nat) (a : ScanArrays) (idx : Nat)
    (r : ApRecord) : Except Stray ScanArrays := do
  let visibleAps ← writeAt .behindVisibleAps a.visibleAps idx (visibleAp r)
  let a := { a with visibleAps := visibleAps }
  if a.connectionListCount < wilmaMaxCandidateStations then
    match ← findStation loaded.1 r loaded.2 0 with
    | some entry => a.addCandidate (connectionEntry r entry)
    | none => return a
  else return a

def recordsLoop (loaded : Option (List StationEntry) × Nat) :
    Nat → List ApRecord → ScanArrays → Except Stray ScanArrays
  | _, [], a => .ok a
  | idx, r :: rest, a => do
    let a ← recordTurn loaded a idx r
    recordsLoop loaded (idx + 1) rest a

def updateSsidArrays (qsort : (ApRecord → ApRecord → Int) → List ApRecord → List ApRecord)
    (saved : Saved) (faults : LoadFaults) (r : ScanResult) (a : ScanArrays) :
    Except Stray (ScanArrays × Int) :=
  if !r.lock then .ok (a, espFail)
  else
    match r.apNum with
    | none => .ok (a, espFail)
    | some apNum =>
      let a := { a with visibleApsCount := apNum.toNat }
      if apNum = 0 then .ok (a, espOk)
      else
        let a := { a with visibleApsCount := min a.visibleApsCount maxScanResults }
        if !r.calloc then .ok ({ a with visibleApsCount := 0 }, espFail)
        else
          match r.records with
          | none => .ok (a, espFail)
          | some records => do
            let (array, count) := apFilterSortUnique qsort (records.take a.visibleApsCount)
            let a := { a with visibleApsCount := count, connectionListCount := 0 }
            let a ← recordsLoop (getSavedStations saved faults) 0 (array.take count) a
            return (a, espOk)

theorem updateSsidArrays_reading
    (qsort : (ApRecord → ApRecord → Int) → List ApRecord → List ApRecord)
    (saved : Saved) (faults : LoadFaults) (r : ScanResult) (a : ScanArrays) :
    updateSsidArrays qsort saved faults r a =
      match r.reading with
      | .unavailable => .ok (a, espFail)
      | .empty => .ok ({ a with visibleApsCount := 0 }, espOk)
      | .noMemory => .ok ({ a with visibleApsCount := 0 }, espFail)
      | .noRecords count => .ok ({ a with visibleApsCount := count }, espFail)
      | .scan records => do
        let (array, count) := apFilterSortUnique qsort records
        let a := { a with visibleApsCount := count, connectionListCount := 0 }
        let a ← recordsLoop (getSavedStations saved faults) 0 (array.take count) a
        return (a, espOk) := by
  obtain ⟨lock, apNum, calloc, records⟩ := r
  cases lock with
  | false => rfl
  | true =>
    cases apNum with
    | none => rfl
    | some apNum =>
      by_cases empty : apNum = 0
      · subst empty
        rfl
      · cases calloc with
        | false => simp [updateSsidArrays, ScanResult.reading, empty]
        | true => cases records <;> simp [updateSsidArrays, ScanResult.reading, empty]

/-! ### The accesses -/

theorem writeAt_inside {α : Type} {n : Nat} (stray : Stray) (array : Vector α n) {i : Nat}
    (inside : i < n) (x : α) : writeAt stray array i x = .ok (array.set i x inside) :=
  dif_pos inside

/-- With the count of the list, the first match is found. -/
theorem findStation_eq (entries : List StationEntry) (r : ApRecord) (left j : Nat)
    (whole : j + left = entries.length) :
    findStation (some entries) r left j = .ok ((entries.drop j).find? (recordMatches r)) := by
  induction left generalizing j with
  | zero =>
    rw [List.drop_eq_nil_of_le (by omega)]
    rfl
  | succ left ih =>
    have inside : j < entries.length := by omega
    have later := ih (j + 1) (by omega)
    have read : readStation (some entries) j = .ok entries[j] := by
      simp [readStation, inside]
    rw [List.drop_eq_getElem_cons inside, List.find?_cons, findStation, read]
    cases here : recordMatches r entries[j] with
    | true => simp [Except.bind, bind, pure, Except.pure, here]
    | false => simpa [Except.bind, bind, here] using later

section Loops
variable {loaded : Option (List StationEntry) × Nat}

theorem findStation_loaded (counted : loaded.2 = (loaded.1.getD []).length) (r : ApRecord) :
    findStation loaded.1 r loaded.2 0 = .ok ((loaded.1.getD []).find? (recordMatches r)) := by
  obtain ⟨entries, count⟩ := loaded
  obtain rfl : count = (entries.getD []).length := counted
  cases entries with
  | none => rfl
  | some entries => exact findStation_eq entries r entries.length 0 (Nat.zero_add _)

theorem take_succ_set {α : Type} {xs : List α} {i : Nat} (inside : i < xs.length) (x : α) :
    (xs.set i x).take (i + 1) = xs.take i ++ [x] := by
  have within : i < (xs.set i x).length := by rwa [List.length_set]
  rw [List.take_succ_eq_append_getElem within, List.getElem_set_self,
    List.take_set_of_le (Nat.le_refl i)]

/-- A candidate goes behind the last one. -/
theorem addCandidate_ok (a : ScanArrays)
    (room : a.connectionListCount < wilmaMaxCandidateStations) (c : ConnectionEntry) :
    ∃ a', a.addCandidate c = .ok a' ∧ a'.connectionListCount = a.connectionListCount + 1 ∧
      a'.lists = { a.lists with connectionList := a.lists.connectionList ++ [c] } := by
  refine ⟨{ a with
    connectionList := a.connectionList.set a.connectionListCount c room
    connectionListCount := a.connectionListCount + 1 }, ?_, rfl, ?_⟩
  · rw [ScanArrays.addCandidate, writeAt_inside _ _ room]
    rfl
  · have inside : a.connectionListCount < a.connectionList.toList.length := by simpa using room
    simp only [ScanArrays.lists, Vector.toList_set, take_succ_set inside]

/-- One record goes to its place among the visible ones, and extends the candidates as
`candidateStep` does. -/
theorem recordTurn_ok (counted : loaded.2 = (loaded.1.getD []).length) (a : ScanArrays)
    {idx : Nat} (inside : idx < maxScanResults)
    (short : a.connectionListCount ≤ wilmaMaxCandidateStations) (r : ApRecord) :
    ∃ a', recordTurn loaded a idx r = .ok a' ∧
      a'.connectionListCount ≤ wilmaMaxCandidateStations ∧
      a'.lists = { a.lists with
        visibleAps := a.lists.visibleAps.set idx (visibleAp r)
        connectionList := candidateStep (loaded.1.getD []) a.lists.connectionList r } := by
  let b := { a with visibleAps := a.visibleAps.set idx (visibleAp r) inside }
  have shown : b.lists = { a.lists with
      visibleAps := a.lists.visibleAps.set idx (visibleAp r) } := by
    simp only [b, ScanArrays.lists, Vector.toList_set]
  have length : a.lists.connectionList.length = a.connectionListCount := by
    simpa [ScanArrays.lists] using short
  have turn : recordTurn loaded a idx r =
      if b.connectionListCount < wilmaMaxCandidateStations then
        match (loaded.1.getD []).find? (recordMatches r) with
        | some entry => b.addCandidate (connectionEntry r entry)
        | none => .ok b
      else .ok b := by
    rw [recordTurn, writeAt_inside _ _ inside, findStation_loaded counted]
    rfl
  rw [turn, candidateStep, length]
  by_cases room : a.connectionListCount < wilmaMaxCandidateStations
  · rw [if_pos room, if_pos room]
    cases (loaded.1.getD []).find? (recordMatches r) with
    | none => exact ⟨b, rfl, short, shown⟩
    | some entry =>
      obtain ⟨a', added, count, lists⟩ := addCandidate_ok b room (connectionEntry r entry)
      refine ⟨a', added, ?_, ?_⟩
      · rw [count]
        exact room
      · rw [lists, shown]
  · rw [if_neg room, if_neg room]
    exact ⟨b, rfl, short, shown⟩

/-- The whole loop over the records. -/
theorem recordsLoop_ok (counted : loaded.2 = (loaded.1.getD []).length) (records : List ApRecord)
    (idx : Nat) (inside : idx + records.length ≤ maxScanResults) (a : ScanArrays)
    (short : a.connectionListCount ≤ wilmaMaxCandidateStations) :
    ∃ a', recordsLoop loaded idx records a = .ok a' ∧
      a'.connectionListCount ≤ wilmaMaxCandidateStations ∧
      a'.lists = { a.lists with
        visibleAps := a.lists.visibleAps.take idx ++ records.map visibleAp ++
          a.lists.visibleAps.drop (idx + records.length)
        connectionList :=
          records.foldl (candidateStep (loaded.1.getD [])) a.lists.connectionList } := by
  induction records generalizing idx a with
  | nil =>
    refine ⟨a, rfl, short, ?_⟩
    simp
  | cons r rest ih =>
    rw [List.length_cons] at inside
    have here : idx < maxScanResults := by omega
    obtain ⟨b, turned, short, shown⟩ := recordTurn_ok counted a here short r
    obtain ⟨a', looped, still_short, lists⟩ := ih (idx + 1) (by omega) b short
    have array : a.lists.visibleAps.length = maxScanResults := by simp [ScanArrays.lists]
    have place : idx < a.lists.visibleAps.length := by omega
    refine ⟨a', ?_, still_short, ?_⟩
    · rw [recordsLoop, turned]
      exact looped
    · rw [lists, shown]
      dsimp only
      rw [take_succ_set place, List.drop_set_of_lt (by omega), List.length_cons, List.map_cons,
        List.foldl_cons]
      simp [Nat.add_comm, Nat.add_left_comm]

end Loops

/-- No more records are kept than were read, whatever `qsort` does. -/
theorem count_apFilterSortUnique
    (qsort : (ApRecord → ApRecord → Int) → List ApRecord → List ApRecord)
    (list : List ApRecord) : (apFilterSortUnique qsort list).2 ≤ list.length := by
  obtain ⟨blanks, compacted, total⟩ := reorder_compacts (removeIdentical (list.length - 1) list)
  have once := removeIdentical_once (list.length - 1) list (by omega)
  have counted : (apFilterSortUnique qsort list).2 =
      ((named list).map ApRecord.network).toFinset.card := by
    rw [← once.card, ← total]
    rfl
  calc (apFilterSortUnique qsort list).2
      = ((named list).map ApRecord.network).toFinset.card := counted
    _ ≤ ((named list).map ApRecord.network).length := List.toFinset_card_le _
    _ = (named list).length := List.length_map _
    _ ≤ list.length := List.length_filter_le _ _

/-- A scan that is read, with a count that is the length of the list: no access strays. -/
theorem updateSsidArrays_scan
    (qsort : (ApRecord → ApRecord → Int) → List ApRecord → List ApRecord)
    (saved : Saved) (faults : LoadFaults)
    (counted : (getSavedStations saved faults).2 = (foundStations saved faults).length)
    {r : ScanResult} {records : List ApRecord} (read : r.reading = .scan records)
    (a : ScanArrays) :
    ∃ a', updateSsidArrays qsort saved faults r a = .ok (a', espOk) ∧
      a'.connectionListCount ≤ wilmaMaxCandidateStations ∧
      updateSsidList qsort (getSavedStations saved faults).1 r a.lists = (a'.lists, espOk) := by
  have kept := (count_apFilterSortUnique qsort records).trans (r.reading_length read)
  have inside : 0 + ((apFilterSortUnique qsort records).1.take
      (apFilterSortUnique qsort records).2).length ≤ maxScanResults := by
    rw [Nat.zero_add, List.length_take]
    exact (Nat.min_le_left _ _).trans kept
  obtain ⟨a', looped, short, lists⟩ := recordsLoop_ok counted _ 0 inside
    { a with
      visibleApsCount := (apFilterSortUnique qsort records).2
      connectionListCount := 0 } (Nat.zero_le _)
  have found : (getSavedStations (getSavedStations saved faults).1 .none).1.getD [] =
      foundStations saved faults := foundStations_none _
  rw [updateSsidArrays_reading, updateSsidList_reading, read]
  refine ⟨a', ?_, short, ?_⟩
  · dsimp only
    rw [looped]
    rfl
  · rw [lists, found]
    simp [candidates, ScanArrays.lists, foundStations]

/-- The arrays hold what `updateSsidList` says. -/
theorem updateSsidArrays_ok
    (qsort : (ApRecord → ApRecord → Int) → List ApRecord → List ApRecord)
    (saved : Saved) (faults : LoadFaults)
    (counted : (getSavedStations saved faults).2 = (foundStations saved faults).length)
    (r : ScanResult) (a : ScanArrays) :
    ∃ a' ret, updateSsidArrays qsort saved faults r a = .ok (a', ret) ∧
      updateSsidList qsort (getSavedStations saved faults).1 r a.lists = (a'.lists, ret) := by
  cases read : r.reading with
  | scan records =>
    obtain ⟨a', updated, _, lists⟩ := updateSsidArrays_scan qsort saved faults counted read a
    exact ⟨a', espOk, updated, lists⟩
  | _ =>
    rw [updateSsidArrays_reading, updateSsidList_reading, read]
    exact ⟨_, _, rfl, rfl⟩

/-! ### The candidates -/

/-- The candidate that a visible record makes: with the password of the first saved station of
its SSID, if there is one. -/
def candidateOf (saved : List StationEntry) (r : ApRecord) : Option ConnectionEntry :=
  (saved.find? fun e => text e.ssid.bytes = text (visibleAp r).ssid.bytes).map (connectionEntry r)

theorem recordMatches_iff (r : ApRecord) (e : StationEntry) :
    recordMatches r e = true ↔ text e.ssid.bytes = text (visibleAp r).ssid.bytes := by
  have whole : e.ssid.bytes.take 32 = e.ssid.bytes :=
    List.take_of_length_le (Nat.le_of_eq e.ssid.size)
  have shown : text (visibleAp r).ssid.bytes = text (r.ssid.bytes.take 32) := by
    rw [text_take]
    exact text_pad 32 r.ssid.bytes
  rw [recordMatches, decide_eq_true_iff, strncmp_eq_zero_iff, whole, shown]

theorem candidateStep_eq (saved : List StationEntry) (list : List ConnectionEntry) (r : ApRecord)
    (short : list.length ≤ wilmaMaxCandidateStations) :
    candidateStep saved list r =
      (list ++ (candidateOf saved r).toList).take wilmaMaxCandidateStations := by
  have search : saved.find? (recordMatches r) =
      saved.find? fun e => text e.ssid.bytes = text (visibleAp r).ssid.bytes := by
    congr 1
    funext e
    rw [Bool.eq_iff_iff, recordMatches_iff, decide_eq_true_iff]
  unfold candidateStep candidateOf
  rw [search]
  by_cases room : list.length < wilmaMaxCandidateStations
  · rw [if_pos room]
    cases saved.find? fun e => text e.ssid.bytes = text (visibleAp r).ssid.bytes with
    | none => simp [List.take_of_length_le short]
    | some e => simp [List.take_of_length_le, Nat.succ_le_of_lt room]
  · have full : list.length = wilmaMaxCandidateStations := by omega
    rw [if_neg room, ← full, List.take_left]

theorem take_take_append {α : Type} (n : Nat) (xs ys : List α) :
    (xs.take n ++ ys).take n = (xs ++ ys).take n := by
  have left : n - min n xs.length = n - xs.length := by omega
  rw [List.take_append, List.take_append, List.take_take, Nat.min_self, List.length_take, left]

/-- The cut at every record is a cut of the whole join. -/
theorem candidates_eq_take (saved : List StationEntry) (records : List ApRecord) :
    candidates saved records =
      (records.filterMap (candidateOf saved)).take wilmaMaxCandidateStations := by
  have run : ∀ (list : List ConnectionEntry), list.length ≤ wilmaMaxCandidateStations →
      records.foldl (candidateStep saved) list =
        (list ++ records.filterMap (candidateOf saved)).take wilmaMaxCandidateStations := by
    induction records with
    | nil =>
      intro list short
      simp [List.take_of_length_le short]
    | cons r records ih =>
      intro list short
      have joined : (candidateOf saved r).toList ++ records.filterMap (candidateOf saved) =
          (r :: records).filterMap (candidateOf saved) := by
        cases made : candidateOf saved r <;> simp [made]
      rw [List.foldl_cons, candidateStep_eq saved list r short, ih _ (List.length_take_le _ _),
        take_take_append, List.append_assoc, joined]
  exact run [] (Nat.zero_le _)

theorem getSavedStations_none_counted (saved : Saved) :
    (getSavedStations saved .none).2 = (foundStations saved .none).length := by
  cases saved with
  | none => rfl
  | some entries =>
    cases entries with
    | nil => rfl
    | cons e entries => rfl

/-- The array shows the records at its front. -/
theorem visible_front (aps rest : List VisibleAp) (list : List ConnectionEntry) :
    (ScanLists.mk (aps ++ rest) aps.length list).visible = aps := by
  rw [ScanLists.visible]
  calc (List.range aps.length).map ((aps ++ rest).getD · .zero)
      = (List.range aps.length).map (aps.getD · .zero) := by
        apply List.map_congr_left
        intro i inside
        simp [List.getElem?_append_left (List.mem_range.mp inside)]
    _ = aps := map_getD_range aps .zero

/-- What a scan that is read leaves. -/
theorem updateSsidList_scan
    (qsort : (ApRecord → ApRecord → Int) → List ApRecord → List ApRecord)
    (permutes : ∀ l, (qsort apCompareRssi l).Perm l)
    (sorts : ∀ l, (qsort apCompareRssi l).Pairwise fun a b => apCompareRssi a b ≤ 0)
    (saved : Saved) {r : ScanResult} {records : List ApRecord} (read : r.reading = .scan records)
    (s : ScanLists) :
    ∃ visible, OnceEach records visible ∧ visible.Pairwise Ordered ∧
      updateSsidList qsort saved r s =
        (⟨visible.map visibleAp ++ s.visibleAps.drop visible.length, visible.length,
          candidates (stations saved) visible⟩, espOk) := by
  have cleaned := cleanup_correct qsort permutes sorts records
  have found : (getSavedStations saved .none).1.getD [] = stations saved :=
    foundStations_none saved
  rw [updateSsidList_reading, read]
  dsimp only
  rw [found]
  generalize apFilterSortUnique qsort records = result at cleaned ⊢
  obtain ⟨array, count⟩ := result
  obtain ⟨_, inside, once, ordered⟩ := cleaned
  have length : (array.take count).length = count := by
    rw [List.length_take]
    exact Nat.min_eq_left inside
  refine ⟨array.take count, once, ordered, ?_⟩
  rw [length]

/-- After a scan that found something: each network once, the strongest first, and the first four
of those that are saved. No access strays. -/
theorem updateSsidArrays_candidates
    (qsort : (ApRecord → ApRecord → Int) → List ApRecord → List ApRecord)
    (permutes : ∀ l, (qsort apCompareRssi l).Perm l)
    (sorts : ∀ l, (qsort apCompareRssi l).Pairwise fun a b => apCompareRssi a b ≤ 0)
    (saved : Saved) (r : ScanResult) (a : ScanArrays) {apNum : UInt16}
    (found : r.apNum = some apNum) (some_found : apNum ≠ 0) :
    ∃ a' ret, updateSsidArrays qsort saved .none r a = .ok (a', ret) ∧
      (ret = espOk → ∃ records visible, r.records = some records ∧
        OnceEach (records.take (min apNum.toNat maxScanResults)) visible ∧
        visible.Pairwise Ordered ∧
        a'.lists.visible = visible.map visibleAp ∧
        a'.lists.connectionList =
          (visible.filterMap (candidateOf (stations saved))).take wilmaMaxCandidateStations ∧
        a'.connectionListCount =
          min wilmaMaxCandidateStations
            (visible.filterMap (candidateOf (stations saved))).length) := by
  have counted := getSavedStations_none_counted saved
  have backs := r.backs_reading
  cases read : r.reading with
  | empty =>
    rw [read] at backs
    exact absurd (Option.some.inj (found.symm.trans backs)) some_found
  | scan scanned =>
    rw [read] at backs
    obtain ⟨num, all, same, records, rfl⟩ := backs
    obtain rfl : apNum = num := Option.some.inj (found.symm.trans same)
    obtain ⟨a', updated, short, lists⟩ := updateSsidArrays_scan qsort saved .none counted read a
    refine ⟨a', espOk, updated, ?_⟩
    intro _
    obtain ⟨visible, once, ordered, left⟩ := updateSsidList_scan qsort permutes sorts
      (getSavedStations saved .none).1 read a.lists
    have saved_list : stations (getSavedStations saved .none).1 = stations saved :=
      foundStations_none saved
    have after : a'.lists = _ := (Prod.mk.inj (lists.symm.trans left)).1
    have shown : a'.lists.visible = visible.map visibleAp := by
      have front := visible_front (visible.map visibleAp)
        (a.lists.visibleAps.drop visible.length) a'.lists.connectionList
      rw [List.length_map] at front
      rw [← front, after]
    have chosen : a'.lists.connectionList =
        (visible.filterMap (candidateOf (stations saved))).take wilmaMaxCandidateStations := by
      rw [after, ← candidates_eq_take, ← saved_list]
    have count : a'.connectionListCount = a'.lists.connectionList.length := by
      rw [ScanArrays.lists, List.length_take, Vector.length_toList]
      exact (Nat.min_eq_left short).symm
    refine ⟨all, visible, records, once, ordered, shown, chosen, ?_⟩
    rw [count, chosen, List.length_take]
  | _ =>
    rw [updateSsidArrays_reading, read]
    exact ⟨_, _, rfl, fun ok => by cases ok⟩

/-- A scan of two networks, one of them saved. -/
theorem updateSsidArrays_candidates_crowded :
    ∃ a' ret, updateSsidArrays plainPlatform.qsort (some [firstEntry hall secret]) .none
        ⟨true, some 4, true, some crowded⟩ emptyArrays = .ok (a', ret) ∧
      (ret = espOk → ∃ records visible, some crowded = some records ∧
        OnceEach (records.take (min (4 : UInt16).toNat maxScanResults)) visible ∧
        visible.Pairwise Ordered ∧
        a'.lists.visible = visible.map visibleAp ∧
        a'.lists.connectionList =
          (visible.filterMap (candidateOf (stations (some [firstEntry hall secret])))).take
            wilmaMaxCandidateStations ∧
        a'.connectionListCount =
          min wilmaMaxCandidateStations (visible.filterMap
            (candidateOf (stations (some [firstEntry hall secret])))).length) :=
  updateSsidArrays_candidates plainPlatform.qsort plain_permutes plain_sorts
    (some [firstEntry hall secret]) ⟨true, some 4, true, some crowded⟩ emptyArrays rfl (by decide)

/-! ### A list that could not be fetched -/

/-- The store has entries and its size is read, but the memory or the second read fails. -/
def Unfetched (saved : Saved) (faults : LoadFaults) : Prop :=
  stations saved ≠ [] ∧ faults.size = false ∧ (faults.malloc = true ∨ faults.blob = true)

/-- NULL comes with a count of 0, and no scan makes `update_ssid_list` read through it. -/
def NullUnread (qsort : (ApRecord → ApRecord → Int) → List ApRecord → List ApRecord)
    (saved : Saved) (faults : LoadFaults) : Prop :=
  ((getSavedStations saved faults).1 = none → (getSavedStations saved faults).2 = 0) ∧
    ∀ r a, updateSsidArrays qsort saved faults r a ≠ .error .throughNull

theorem getSavedStations_counted {saved : Saved} {faults : LoadFaults}
    (fetched : ¬ Unfetched saved faults) :
    (getSavedStations saved faults).2 = (foundStations saved faults).length := by
  obtain ⟨size, malloc, blob⟩ := faults
  cases saved with
  | none => rfl
  | some entries =>
    cases size with
    | true => rfl
    | false =>
      cases entries with
      | nil => rfl
      | cons e entries =>
        have some_saved : stations (some (e :: entries)) ≠ [] := List.cons_ne_nil e entries
        cases malloc with
        | true => exact absurd ⟨some_saved, rfl, .inl rfl⟩ fetched
        | false =>
          cases blob with
          | true => exact absurd ⟨some_saved, rfl, .inr rfl⟩ fetched
          | false => rfl

/-- The count is then that of the store. -/
theorem Unfetched.getSavedStations {saved : Saved} {faults : LoadFaults}
    (h : Unfetched saved faults) :
    ∃ n, getSavedStations saved faults = (none, n + 1) := by
  obtain ⟨some_saved, sized, failed⟩ := h
  cases saved with
  | none => exact absurd rfl some_saved
  | some entries =>
    cases entries with
    | nil => exact absurd rfl some_saved
    | cons e entries =>
      refine ⟨entries.length, ?_⟩
      rcases failed with malloc | blob
      · simp [Wilma.getSavedStations, sized, malloc]
      · simp [Wilma.getSavedStations, sized, blob]

/-- The first visible record is compared with an entry that is not there. -/
theorem recordsLoop_null (n : Nat) (r : ApRecord) (rest : List ApRecord) (a : ScanArrays)
    (none_yet : a.connectionListCount = 0) :
    recordsLoop (none, n + 1) 0 (r :: rest) a = .error .throughNull := by
  have room : a.connectionListCount < wilmaMaxCandidateStations := by
    rw [none_yet]
    decide
  have turn : recordTurn (none, n + 1) a 0 r = .error .throughNull := by
    rw [recordTurn, writeAt_inside _ _ (by decide)]
    show (if a.connectionListCount < wilmaMaxCandidateStations then _ else _) = _
    rw [if_pos room]
    rfl
  rw [recordsLoop, turn]
  rfl

theorem OnceEach.nonempty_iff {list out : List ApRecord} (h : OnceEach list out) :
    out ≠ [] ↔ named list ≠ [] := by
  have card := h.card
  rw [← List.length_pos_iff, card, Finset.card_pos]
  constructor
  · rintro ⟨k, mem⟩ empty
    rw [empty] at mem
    exact absurd mem (by simp)
  · intro some_named
    obtain ⟨r, rest, cons⟩ := List.exists_cons_of_ne_nil some_named
    rw [cons]
    exact ⟨r.network, by simp⟩

/-- A scan reads through NULL exactly when the list could not be fetched and the scan shows a
network. -/
theorem updateSsidArrays_null_iff
    (qsort : (ApRecord → ApRecord → Int) → List ApRecord → List ApRecord)
    (permutes : ∀ l, (qsort apCompareRssi l).Perm l)
    (sorts : ∀ l, (qsort apCompareRssi l).Pairwise fun a b => apCompareRssi a b ≤ 0)
    (saved : Saved) (faults : LoadFaults) (r : ScanResult) (a : ScanArrays) :
    updateSsidArrays qsort saved faults r a = .error .throughNull ↔
      Unfetched saved faults ∧ ∃ records, r.reading = .scan records ∧ named records ≠ [] := by
  by_cases unfetched : Unfetched saved faults
  · rw [updateSsidArrays_reading]
    cases read : r.reading with
    | scan records =>
      obtain ⟨n, loaded⟩ := unfetched.getSavedStations
      obtain ⟨_, _, once, _⟩ := cleanup_correct qsort permutes sorts records
      let cleaned := apFilterSortUnique qsort records
      have shows : cleaned.1.take cleaned.2 ≠ [] ↔ named records ≠ [] := once.nonempty_iff
      dsimp only
      rw [loaded]
      cases visible : cleaned.1.take cleaned.2 with
      | nil =>
        refine iff_of_false (fun stray => by cases stray) ?_
        rintro ⟨_, _, same, some_named⟩
        obtain rfl := Reading.scan.inj same
        exact shows.mpr some_named visible
      | cons first rest =>
        have some_named : named records ≠ [] := shows.mp (by simp [visible])
        rw [recordsLoop_null n first rest _ rfl]
        exact iff_of_true rfl ⟨unfetched, records, rfl, some_named⟩
    | _ =>
      refine iff_of_false (fun stray => by cases stray) ?_
      rintro ⟨_, _, same, _⟩
      cases same
  · obtain ⟨a', ret, updated, _⟩ := updateSsidArrays_ok qsort saved faults
      (getSavedStations_counted unfetched) r a
    rw [updated]
    exact iff_of_false (fun stray => by cases stray) fun h => unfetched h.1

theorem nullUnread_iff (qsort : (ApRecord → ApRecord → Int) → List ApRecord → List ApRecord)
    (saved : Saved) (faults : LoadFaults) :
    NullUnread qsort saved faults ↔ ¬ Unfetched saved faults := by
  constructor
  · rintro ⟨counted, _⟩ unfetched
    obtain ⟨n, loaded⟩ := unfetched.getSavedStations
    rw [loaded] at counted
    exact Nat.succ_ne_zero n (counted rfl)
  · intro fetched
    have counted := getSavedStations_counted fetched
    refine ⟨?_, ?_⟩
    · intro null
      rw [counted, foundStations, null]
      rfl
    · intro r a
      obtain ⟨a', ret, updated, _⟩ := updateSsidArrays_ok qsort saved faults counted r a
      rw [updated]
      exact fun stray => by cases stray

/-- No memory for the list: the count stays 1, and the scan that sees the network reads entry 0. -/
theorem unfetched_read_through_null :
    getSavedStations (some [firstEntry lab secret]) ⟨false, true, false⟩ = (none, 1) ∧
      updateSsidArrays plainPlatform.qsort (some [firstEntry lab secret]) ⟨false, true, false⟩
        ⟨true, some 1, true, some [seen lab (-40)]⟩ emptyArrays = .error .throughNull := by
  decide

end Rocom.Wilma
