import Rocom.Wilma.Adding
import Rocom.Wilma.Candidates

/-! How an SSID is looked up in the list of saved stations: by `strncmp` with a string, by
`memcmp` with 32 bytes, by `strncmp` with a scan record. In every store that the three writers
leave, whatever fails in them, each of these stops at the same entry. -/
namespace Rocom.Wilma

open CString KeyedList

/-- A call of one of the writers, with what fails in it. -/
structure StoreCall where
  op : Operation
  faults : LoadFaults
  reallocFails : Bool

def StoreCall.apply (saved : Saved) (c : StoreCall) : Saved :=
  match c.op with
  | .add ssid password => (addStation saved c.faults c.reallocFails ssid password).1
  | .remove ssid => (removeStation saved c.faults ssid).1
  | .setState ssid newState => (updateSsidState saved c.faults ssid newState).1

theorem load_or_fail (saved : Saved) (faults : LoadFaults) :
    (getSavedStations saved faults).1 = none ∨
      (getSavedStations saved faults).1 = (getSavedStations saved .none).1 := by
  cases saved with
  | none => exact .inl rfl
  | some entries =>
    by_cases sound : faults = .none
    · rw [sound]
      exact .inr rfl
    · exact .inl (load_faulty entries sound)

/-- A failed load takes the store for an empty one, a failed `realloc` leaves it. -/
theorem addStation_cases (saved : Saved) (faults : LoadFaults) (reallocFails : Bool)
    (ssid password : Str) :
    let after := (addStation saved faults reallocFails ssid password).1
    after = (addStation saved .none false ssid password).1 ∨ after = saved ∨
      after = updateSavedStations [firstEntry ssid password] := by
  rcases load_or_fail saved faults with failed | loaded
  · right
    right
    simp only [addStation, failed]
  · simp only [addStation, loaded]
    cases (getSavedStations saved .none).1 with
    | none => exact .inl rfl
    | some entries =>
      dsimp only
      cases entries.findFinIdx? (matchesSsid ssid) with
      | some i => exact .inl rfl
      | none =>
        cases reallocFails with
        | false => exact .inl rfl
        | true => exact .inr (.inl rfl)

/-- A call does its operation or nothing, or it takes the store for an empty one. -/
theorem StoreCall.apply_cases (saved : Saved) (c : StoreCall) :
    c.apply saved = c.op.apply saved ∨ c.apply saved = saved ∨
      ∃ ssid password, c.apply saved = updateSavedStations [firstEntry ssid password] := by
  obtain ⟨op, faults, reallocFails⟩ := c
  have load := load_or_fail saved faults
  cases op with
  | add ssid password =>
    rcases addStation_cases saved faults reallocFails ssid password with done | idle | first
    · exact .inl done
    · exact .inr (.inl idle)
    · exact .inr (.inr ⟨ssid, password, first⟩)
  | remove ssid =>
    rcases load with failed | loaded
    · right
      left
      simp only [apply, removeStation, failed]
    · left
      simp only [apply, Operation.apply, removeStation, loaded]
  | setState ssid newState =>
    rcases load with failed | loaded
    · right
      left
      simp only [apply, updateSsidState, failed]
    · left
      simp only [apply, Operation.apply, updateSsidState, loaded]

theorem StoreCall.apply_wellFormed {saved : Saved} (h : WellFormed saved) (c : StoreCall) :
    WellFormed (c.apply saved) := by
  rcases c.apply_cases saved with done | idle | ⟨ssid, password, first⟩
  · rw [done]
    exact (apply_refines h c.op).1
  · rw [idle]
    exact h
  · rw [first]
    exact (write_first ssid password).1

theorem wellFormed_calls (calls : List StoreCall) :
    WellFormed (calls.foldl StoreCall.apply none) := by
  apply Runs.invariant _ none wellFormed_none
  intro saved c h
  exact StoreCall.apply_wellFormed h c

/-! ### The tests -/

/-- The record has the name, as far as a comparison of 32 bytes sees. -/
def ApRecord.Shows (r : ApRecord) (ssid : Str) : Prop :=
  text (r.ssid.bytes.take 32) = ssid.chars.take 32

instance (r : ApRecord) (ssid : Str) : Decidable (r.Shows ssid) :=
  inferInstanceAs (Decidable (text (r.ssid.bytes.take 32) = ssid.chars.take 32))

theorem ApRecord.Shows.pad_text {r : ApRecord} {ssid : Str} (h : r.Shows ssid) :
    pad 32 (text r.ssid.bytes) = ssidKey ssid := by
  rw [← pad_take, ← text_take, h, pad_take]
  rfl

theorem recordMatches_key {e : StationEntry} (padded : e.ssid.Padded) {r : ApRecord} {ssid : Str}
    (shown : r.Shows ssid) : recordMatches r e = true ↔ e.ssid = ssidKey ssid := by
  rw [recordMatches, decide_eq_true_iff, padded.strncmp_iff, shown.pad_text]

/-- The entry at which each loop over the list stops. No test holds of another one. -/
structure Selects (saved : Saved) (ssid : Str) (r : ApRecord)
    (selected : Option (Fin (stations saved).length)) : Prop where
  string : (stations saved).findFinIdx? (matchesSsid ssid) = selected
  bytes : (stations saved).findFinIdx? (fun e => e.ssid = ssidKey ssid) = selected
  record : (stations saved).findFinIdx? (recordMatches r) = selected
  only : ∀ i : Fin (stations saved).length, matchesSsid ssid (stations saved)[i] = true ∨
    (stations saved)[i].ssid = ssidKey ssid ∨ recordMatches r (stations saved)[i] = true →
      selected = some i

/-- What the functions make of a list that they could load. -/
def Uses (saved : Saved) (faults : LoadFaults) (ssid : Str) (r : ApRecord) :
    Option (Fin (stations saved).length) → Prop
  | some i =>
    let write e := updateSavedStations ((stations saved).set i e)
    let e := (stations saved)[i]
    (∀ reallocFails password, addStation saved faults reallocFails ssid password =
      (write (updatedEntry e password), .sendConnectSta)) ∧
    removeStation saved faults ssid = (updateSavedStations (swapRemove (stations saved) i), true) ∧
    (∀ newState, updateSsidState saved faults (ssidKey ssid) newState =
      (if e.state = newState.value then saved else write { e with state := newState.value },
        espOk)) ∧
    findStation (getSavedStations saved faults).1 r (getSavedStations saved faults).2 0 =
      .ok (some e)
  | none =>
    (∀ reallocFails password, addStation saved faults reallocFails ssid password =
      if reallocFails then (saved, .fail)
      else
        (updateSavedStations (stations saved ++ [appendedEntry ssid password]), .sendConnectSta)) ∧
    removeStation saved faults ssid = (saved, false) ∧
    (∀ newState, updateSsidState saved faults (ssidKey ssid) newState = (saved, espOk)) ∧
    findStation (getSavedStations saved faults).1 r (getSavedStations saved faults).2 0 = .ok none

theorem selects_of_wellFormed {saved : Saved} (h : WellFormed saved) (ssid : Str) {r : ApRecord}
    (shown : r.Shows ssid) :
    Selects saved ssid r ((stations saved).findFinIdx? fun e => e.ssid = ssidKey ssid) where
  string := findFinIdx_test fun e held => matchesSsid_iff (h.padded e held) ssid
  bytes := rfl
  record := findFinIdx_test fun e held => recordMatches_key (h.padded e held) shown
  only i hit := by
    have padded := h.padded _ (List.getElem_mem i.isLt)
    rcases hit with string | bytes | record
    · exact findFinIdx_key h.unique ((matchesSsid_iff padded ssid).mp string)
    · exact findFinIdx_key h.unique bytes
    · exact findFinIdx_key h.unique ((recordMatches_key padded shown).mp record)

theorem load_stations {saved : Saved} {faults : LoadFaults}
    (loaded : (getSavedStations saved faults).1 ≠ none) :
    getSavedStations saved faults = (some (stations saved), (stations saved).length) := by
  cases saved with
  | none => exact absurd rfl loaded
  | some entries =>
    by_cases sound : faults = .none
    · rw [sound] at loaded ⊢
      cases entries with
      | nil => exact absurd rfl loaded
      | cons e rest => rfl
    · exact absurd (load_faulty entries sound) loaded

theorem Selects.uses {saved : Saved} {ssid : Str} {r : ApRecord}
    {selected : Option (Fin (stations saved).length)} (h : Selects saved ssid r selected)
    {faults : LoadFaults} (loaded : (getSavedStations saved faults).1 ≠ none) :
    Uses saved faults ssid r selected := by
  have list := load_stations loaded
  have scan := findStation_eq (stations saved) r (stations saved).length 0 (Nat.zero_add _)
  rw [List.drop_zero, List.find?_eq_map_findFinIdx?_getElem, h.record] at scan
  have string := h.string
  have bytes := h.bytes
  cases selected with
  | some i =>
    refine ⟨?_, ?_, ?_, ?_⟩
    · intro reallocFails password
      simp only [addStation, list, string]
    · simp only [removeStation, list, string]
    · intro newState
      simp only [updateSsidState, list, bytes]
      split <;> rfl
    · rw [list]
      exact scan
  | none =>
    refine ⟨?_, ?_, ?_, ?_⟩
    · intro reallocFails password
      simp only [addStation, list, string]
    · simp only [removeStation, list, string]
    · intro newState
      simp only [updateSsidState, list, bytes]
    · rw [list]
      exact scan

/-- Whatever writes came before: each function that looks up an SSID goes on with the same entry,
or finds none. -/
theorem matchers_agree (calls : List StoreCall) (ssid : Str) {r : ApRecord}
    (shown : r.Shows ssid) :
    let saved := calls.foldl StoreCall.apply none
    ∃ selected, Selects saved ssid r selected ∧
      ∀ faults, (getSavedStations saved faults).1 ≠ none → Uses saved faults ssid r selected := by
  intro saved
  have selects := selects_of_wellFormed (wellFormed_calls calls) ssid shown
  exact ⟨_, selects, fun _ loaded => selects.uses loaded⟩

/-- Thirty-two characters, stored without a NUL. -/
def unterminated : Str := ⟨List.replicate 32 119, by decide⟩

/-- Its record, with another byte where the NUL belongs. -/
def unterminatedSeen : ApRecord :=
  ⟨Field.zero 6, pad 33 (List.replicate 33 119), 1, -50, 3⟩

def unterminatedCalls : List StoreCall :=
  [⟨.add lab secret, .none, false⟩, ⟨.add unterminated secret, .none, false⟩,
    ⟨.add hall secret, .none, true⟩, ⟨.setState (ssidKey unterminated) .ok, .none, false⟩]

theorem matchers_agree_unterminated :
    let saved := unterminatedCalls.foldl StoreCall.apply none
    (stations saved).findIdx? (recordMatches unterminatedSeen) = some 1 ∧
      ∃ selected, Selects saved unterminated unterminatedSeen selected ∧
        ∀ faults, (getSavedStations saved faults).1 ≠ none →
          Uses saved faults unterminated unterminatedSeen selected :=
  ⟨by decide, matchers_agree unterminatedCalls unterminated (by decide)⟩

end Rocom.Wilma
