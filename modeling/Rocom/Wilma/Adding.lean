import Rocom.Wilma.Manager

/-! What `wilma_add_ssid` leaves in the NVS: the bytes of its entry, for every store it may
find, and the other entries, for every failure of the load. -/
namespace Rocom.Wilma

open CString KeyedList

/-- The bytes of an entry that a caller of `wilma_add_ssid` gives. -/
structure StoredBytes where
  ssid : Field 32
  password : Field 64
  state : UInt8
deriving DecidableEq

def StationEntry.stored (e : StationEntry) : StoredBytes := ⟨e.ssid, e.password, e.state⟩

/-- The SSID and the password, padded with zeros, and STA_STATE_NEW. -/
def StoredBytes.exactly (ssid password : Str) : StoredBytes :=
  ⟨pad 32 ssid.chars, pad 64 password.chars, StaState.new.value⟩

/-- The bytes stored under an SSID. -/
def storedUnder (saved : Saved) (ssid : Str) : List StoredBytes :=
  (entriesOf saved (ssidKey ssid)).map (·.stored)

/-- How much of a password is copied: the empty store takes the size of the SSID. -/
def passwordLimit (saved : Saved) : Nat := if saved = none then 32 else 64

theorem Added.password {saved : Saved} {ssid password : Str} {e : StationEntry}
    (h : Added saved ssid password e) :
    e.password = Field.copy 64 password (passwordLimit saved) := by
  by_cases empty : saved = none
  · rw [passwordLimit, if_pos empty]
    exact h.password_first empty
  · rw [passwordLimit, if_neg empty]
    exact h.password_later empty

theorem storedUnder_add {saved : Saved} (h : WellFormed saved) (ssid password : Str) :
    storedUnder (Operation.apply saved (.add ssid password)) ssid =
      [⟨ssidKey ssid, Field.copy 64 password (passwordLimit saved), StaState.new.value⟩] := by
  obtain ⟨formed, e, added, written⟩ := add_written h ssid password
  have entry : entriesOf (Operation.apply saved (.add ssid password)) (ssidKey ssid) = [e] := by
    rw [Operation.apply, entriesOf_eq formed, written, Function.update_self]
    rfl
  rw [storedUnder, entry, List.map_singleton, StationEntry.stored, added.keyed, added.password,
    added.fresh]

theorem password_eq_iff (password : Str) (saved other : Saved) :
    Field.copy 64 password (passwordLimit saved) = Field.copy 64 password (passwordLimit other) ↔
      password.strlen ≤ 32 ∨ (saved = none ↔ other = none) := by
  have short := copy_eq_copy_iff (show 32 < 64 by decide) password
  by_cases first : saved = none <;> by_cases second : other = none
  · simp [passwordLimit, first, second]
  · simp [passwordLimit, first, second, short]
  · simp [passwordLimit, first, second, short, eq_comm]
  · simp [passwordLimit, first, second]

theorem exactly_iff (saved : Saved) (ssid password : Str) :
    Field.copy 64 password (passwordLimit saved) = (StoredBytes.exactly ssid password).password ↔
      (saved = none → password.strlen ≤ 32) := by
  have short := copy_eq_copy_iff (show 32 < 64 by decide) password
  have whole : (StoredBytes.exactly ssid password).password = Field.copy 64 password 64 :=
    (copy_whole 64 password).symm
  rw [whole]
  by_cases empty : saved = none
  · simp [passwordLimit, empty, short]
  · simp [passwordLimit, empty]

/-- The entry has the whole password unless the store is empty and the password is longer than
an SSID may be; for such a password an empty store and another one get different bytes. -/
theorem add_stores_iff (ops others : List Operation) (ssid password : Str) :
    let before := ops.foldl Operation.apply none
    let other := others.foldl Operation.apply none
    let after := Operation.apply before (.add ssid password)
    (storedUnder after ssid = [.exactly ssid password] ↔
      (before = none → password.strlen ≤ 32)) ∧
    (storedUnder after ssid = storedUnder (Operation.apply other (.add ssid password)) ssid ↔
      password.strlen ≤ 32 ∨ (before = none ↔ other = none)) := by
  intro before other after
  rw [storedUnder_add (wellFormed_run ops), storedUnder_add (wellFormed_run others)]
  constructor
  · rw [← exactly_iff before ssid password]
    simp [StoredBytes.exactly, ssidKey, before]
  · rw [← password_eq_iff]
    simp [before, other]

/-- Forty characters. -/
def longPassword : Str := ⟨List.replicate 40 112, by decide⟩

theorem first_password_cut :
    let first := Operation.apply none (.add lab longPassword)
    let later := [.add hall secret].foldl Operation.apply none
    storedUnder first lab ≠ [.exactly lab longPassword] ∧
      storedUnder first lab ≠ storedUnder (Operation.apply later (.add lab longPassword)) lab := by
  decide

/-! ### Failed loads -/

theorem load_faulty (entries : List StationEntry) {faults : LoadFaults}
    (some_fault : faults ≠ .none) : (getSavedStations (some entries) faults).1 = none := by
  obtain ⟨size, malloc, blob⟩ := faults
  cases entries with
  | nil => cases size <;> rfl
  | cons e rest =>
    cases size
    · cases malloc
      · cases blob
        · exact absurd rfl some_fault
        · rfl
      · rfl
    · rfl

theorem firstEntry_matches (ssid password : Str) : matchesSsid ssid (firstEntry ssid password) :=
  (matchesSsid_iff (padded_copy 32 ssid 32) ssid).mpr (copy_ssid ssid)

/-- A store that is loaded keeps the entries of the other SSIDs. -/
theorem loaded_kept (entries : List StationEntry) (reallocFails : Bool) (ssid password : Str)
    {e : StationEntry} (held : e ∈ entries) (other : ¬ matchesSsid ssid e) :
    e ∈ stations (addStation (some entries) .none reallocFails ssid password).1 := by
  have load : (getSavedStations (some entries) .none).1 = some entries := by
    cases entries with
    | nil => cases held
    | cons first rest => rfl
  simp only [addStation, load]
  cases found : entries.findFinIdx? (matchesSsid ssid) with
  | some i =>
    have hit := (List.findFinIdx?_eq_some_iff.mp found).1
    rw [stations_update]
    apply mem_set_of_ne held
    rintro rfl
    exact other hit
  | none =>
    cases reallocFails with
    | true => exact held
    | false =>
      rw [if_neg Bool.false_ne_true, stations_update]
      exact List.mem_append_left _ held

/-- A failed load costs every entry of another SSID, and nothing else does. -/
theorem add_keeps_others_iff (entries : List StationEntry) (faults : LoadFaults)
    (reallocFails : Bool) (ssid password : Str) :
    let after := (addStation (some entries) faults reallocFails ssid password).1
    (after = some entries ∨ ∀ e ∈ entries, ¬ matchesSsid ssid e → e ∈ stations after) ↔
      faults = .none ∨ ∀ e ∈ entries, matchesSsid ssid e := by
  intro after
  by_cases sound : faults = .none
  · subst sound
    apply iff_of_true _ (.inl rfl)
    exact .inr fun e held other => loaded_kept entries reallocFails ssid password held other
  · have emptied : after = some [firstEntry ssid password] := by
      simp only [after, addStation, load_faulty entries sound]
      rfl
    rw [emptied]
    constructor
    · rintro (same | kept)
      · right
        intro e held
        cases same
        rw [List.mem_singleton.mp held]
        exact firstEntry_matches ssid password
      · right
        intro e held
        by_contra other
        apply other
        rw [List.mem_singleton.mp (kept e held other)]
        exact firstEntry_matches ssid password
    · rintro (none_failed | all_match)
      · exact absurd none_failed sound
      · exact .inr fun e held other => absurd (all_match e held) other

theorem failed_read_overwrites :
    let saved := [.add lab secret].foldl Operation.apply none
    let after := (addStation saved ⟨false, false, true⟩ false hall secret).1
    after ≠ saved ∧ ∃ e ∈ stations saved, ¬ matchesSsid hall e ∧ e ∉ stations after := by
  decide

end Rocom.Wilma
