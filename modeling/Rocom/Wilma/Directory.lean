import Rocom.Wilma.Store

/-! What the list of saved stations is for: a finite map from SSIDs to entries. Every write of
the list is a point update of this map. -/
namespace Rocom.Wilma

open CString KeyedList

/-- The key of a string: its first 32 bytes, padded with zeros. -/
def ssidKey (ssid : Str) : Field 32 := pad 32 ssid.chars

abbrev Directory := Field 32 → Option StationEntry

def stations (saved : Saved) : List StationEntry := saved.getD []

def directory (saved : Saved) : Directory := lookup (·.ssid) (stations saved)

inductive Operation where
  | add (ssid password : Str)
  | remove (ssid : Str)
  | setState (ssid : Field 32) (newState : StaState)
deriving DecidableEq

def Operation.key : Operation → Field 32
  | .add ssid _ => ssidKey ssid
  | .remove ssid => ssidKey ssid
  | .setState ssid _ => ssid

/-- The operation with every NVS and heap call succeeding. -/
def Operation.apply (saved : Saved) : Operation → Saved
  | .add ssid password => (addStation saved .none false ssid password).1
  | .remove ssid => (removeStation saved .none ssid).1
  | .setState ssid newState => (updateSsidState saved .none ssid newState).1

/-- What an operation may do to the map. -/
inductive Directory.Step : Directory → Operation → Directory → Prop where
  | add (d : Directory) (ssid password : Str) (e : StationEntry) (keyed : e.ssid = ssidKey ssid)
      (fresh : e.state = StaState.new.value) :
      Step d (.add ssid password) (Function.update d (ssidKey ssid) (some e))
  | remove (d : Directory) (ssid : Str) :
      Step d (.remove ssid) (Function.update d (ssidKey ssid) none)
  | setState (d : Directory) (ssid : Field 32) (newState : StaState) :
      Step d (.setState ssid newState)
        (Function.update d ssid ((d ssid).map fun e => { e with state := newState.value }))

structure WellFormed (saved : Saved) : Prop where
  unique : Unique (·.ssid) (stations saved)
  padded : ∀ e ∈ stations saved, e.ssid.Padded
  nonempty : saved ≠ some []

theorem wellFormed_none : WellFormed none :=
  ⟨List.nodup_nil, fun _ h => absurd h List.not_mem_nil, nofun⟩

@[simp] theorem stations_update (entries : List StationEntry) :
    stations (updateSavedStations entries) = entries := by
  cases entries <;> rfl

@[simp] theorem directory_update (entries : List StationEntry) :
    directory (updateSavedStations entries) = lookup (·.ssid) entries := by
  rw [directory, stations_update]

theorem wellFormed_update {entries : List StationEntry} (unique : Unique (·.ssid) entries)
    (padded : ∀ e ∈ entries, e.ssid.Padded) : WellFormed (updateSavedStations entries) := by
  refine ⟨by rwa [stations_update], by rwa [stations_update], ?_⟩
  cases entries <;> simp [updateSavedStations]

theorem load_eq_none_iff {saved : Saved} :
    (getSavedStations saved .none).1 = none ↔ stations saved = [] := by
  cases saved with
  | none => exact iff_of_true rfl rfl
  | some entries => cases entries <;> simp [getSavedStations, LoadFaults.none, stations]

theorem load_eq_some {saved : Saved} {entries : List StationEntry}
    (h : (getSavedStations saved .none).1 = some entries) : stations saved = entries := by
  cases saved with
  | none => cases h
  | some held =>
    cases held with
    | nil => cases h
    | cons e rest => exact Option.some.inj h

theorem addStation_first {saved : Saved} (empty : stations saved = []) (ssid password : Str) :
    addStation saved .none false ssid password =
      (updateSavedStations [firstEntry ssid password], .connectFirst) := by
  unfold addStation
  rw [load_eq_none_iff.mpr empty]

theorem addStation_later {saved : Saved} (held : stations saved ≠ []) (ssid password : Str) :
    (addStation saved .none false ssid password).2 = .sendConnectSta := by
  unfold addStation
  cases loaded : (getSavedStations saved .none).1 with
  | none => exact absurd (load_eq_none_iff.mp loaded) held
  | some entries =>
    dsimp only
    split <;> rfl

/-- A store that is not empty is loaded as it is. -/
theorem getSavedStations_some {entries : List StationEntry} (h : WellFormed (some entries)) :
    (getSavedStations (some entries) .none).1 = some entries := by
  have some_entry : entries.length ≠ 0 := by
    intro empty
    exact h.nonempty (by rw [List.length_eq_zero_iff.mp empty])
  simp [getSavedStations, LoadFaults.none, some_entry]

theorem copy_ssid (ssid : Str) : Field.copy 32 ssid 32 = ssidKey ssid := copy_whole 32 ssid

theorem matchesSsid_iff {e : StationEntry} (h : e.ssid.Padded) (ssid : Str) :
    matchesSsid ssid e = true ↔ e.ssid = ssidKey ssid := by
  rw [matchesSsid, decide_eq_true_iff, h.strncmp_iff, text_chars, ssidKey]

/-- The search of a loop: the entry it stops at has the key, and none has when it runs out. -/
theorem find_some {entries : List StationEntry} {ssid : Str} {i : Fin entries.length}
    (padded : ∀ e ∈ entries, e.ssid.Padded)
    (h : entries.findFinIdx? (matchesSsid ssid) = some i) : (entries.get i).ssid = ssidKey ssid := by
  have hit := (List.findFinIdx?_eq_some_iff.mp h).1
  exact (matchesSsid_iff (padded _ (List.getElem_mem i.isLt)) ssid).mp hit

theorem find_none {entries : List StationEntry} {ssid : Str}
    (padded : ∀ e ∈ entries, e.ssid.Padded)
    (h : entries.findFinIdx? (matchesSsid ssid) = none) :
    lookup (·.ssid) entries (ssidKey ssid) = none := by
  apply lookup_eq_none_iff.mpr
  intro e he same
  have miss := List.findFinIdx?_eq_none_iff.mp h e he
  exact miss ((matchesSsid_iff (padded e he) ssid).mpr same)

section Writes
variable {entries : List StationEntry} (h : WellFormed (some entries))
include h

theorem write_set {i : Fin entries.length} {e : StationEntry} (same : e.ssid = (entries.get i).ssid) :
    WellFormed (updateSavedStations (entries.set i e)) ∧
      directory (updateSavedStations (entries.set i e)) =
        Function.update (directory (some entries)) e.ssid (some e) := by
  constructor
  · apply wellFormed_update (unique_set h.unique same)
    intro b hb
    rcases List.mem_or_eq_of_mem_set hb with old | rfl
    · exact h.padded b old
    · rw [same]
      exact h.padded _ (List.getElem_mem i.isLt)
  · rw [directory_update]
    exact lookup_set h.unique same

theorem write_concat {e : StationEntry} (padded : e.ssid.Padded)
    (fresh : directory (some entries) e.ssid = none) :
    WellFormed (updateSavedStations (entries ++ [e])) ∧
      directory (updateSavedStations (entries ++ [e])) =
        Function.update (directory (some entries)) e.ssid (some e) := by
  constructor
  · apply wellFormed_update (unique_concat h.unique fresh)
    intro b hb
    rcases List.mem_append.mp hb with old | added
    · exact h.padded b old
    · rwa [List.mem_singleton.mp added]
  · rw [directory_update]
    exact lookup_concat h.unique fresh

theorem write_swapRemove (i : Fin entries.length) :
    WellFormed (updateSavedStations (swapRemove entries i)) ∧
      directory (updateSavedStations (swapRemove entries i)) =
        Function.update (directory (some entries)) (entries.get i).ssid none := by
  constructor
  · apply wellFormed_update (unique_swapRemove h.unique i)
    intro b hb
    exact h.padded b (List.mem_of_mem_eraseIdx ((swapRemove_perm entries i).mem_iff.mp hb))
  · rw [directory_update]
    exact lookup_swapRemove h.unique i

theorem addStation_found {ssid password : Str} (reallocFails : Bool) {i : Fin entries.length}
    (found : entries.findFinIdx? (matchesSsid ssid) = some i) :
    addStation (some entries) .none reallocFails ssid password =
      (updateSavedStations (entries.set i (updatedEntry (entries.get i) password)),
        .sendConnectSta) := by
  simp only [addStation, getSavedStations_some h, found]
  rfl

theorem addStation_missing {ssid password : Str}
    (missing : entries.findFinIdx? (matchesSsid ssid) = none) :
    addStation (some entries) .none false ssid password =
      (updateSavedStations (entries ++ [appendedEntry ssid password]), .sendConnectSta) := by
  simp only [addStation, getSavedStations_some h, missing]
  rfl

end Writes

theorem write_first (ssid password : Str) :
    WellFormed (updateSavedStations [firstEntry ssid password]) ∧
      directory (updateSavedStations [firstEntry ssid password]) =
        Function.update (directory none) (firstEntry ssid password).ssid
          (some (firstEntry ssid password)) := by
  constructor
  · apply wellFormed_update
    · exact List.nodup_singleton _
    · intro e he
      rw [List.mem_singleton.mp he]
      exact padded_copy 32 ssid 32
  · rw [directory_update]
    exact lookup_cons _ _

/-- The entry `wilma_add_ssid` leaves for its SSID. An empty store cuts the password. -/
structure Added (saved : Saved) (ssid password : Str) (e : StationEntry) : Prop where
  keyed : e.ssid = ssidKey ssid
  fresh : e.state = StaState.new.value
  password_first : saved = none → e.password = Field.copy 64 password 32
  password_later : saved ≠ none → e.password = Field.copy 64 password 64

theorem add_written {saved : Saved} (h : WellFormed saved) (ssid password : Str) :
    let after := (addStation saved .none false ssid password).1
    WellFormed after ∧ ∃ e, Added saved ssid password e ∧
      directory after = Function.update (directory saved) (ssidKey ssid) (some e) := by
  intro after
  cases saved with
  | none =>
    obtain ⟨formed, written⟩ := write_first ssid password
    have keyed : (firstEntry ssid password).ssid = ssidKey ssid := copy_ssid ssid
    rw [keyed] at written
    exact ⟨formed, firstEntry ssid password, ⟨keyed, rfl, fun _ => rfl, nofun⟩, written⟩
  | some entries =>
    cases found : entries.findFinIdx? (matchesSsid ssid) with
    | some i =>
      have result :
          after = updateSavedStations (entries.set i (updatedEntry (entries.get i) password)) :=
        congrArg Prod.fst (addStation_found h false found)
      have keyed : (updatedEntry (entries.get i) password).ssid = ssidKey ssid :=
        find_some h.padded found
      obtain ⟨formed, written⟩ :=
        write_set h (i := i) (e := updatedEntry (entries.get i) password) rfl
      rw [keyed] at written
      rw [result]
      exact ⟨formed, updatedEntry (entries.get i) password, ⟨keyed, rfl, nofun, fun _ => rfl⟩,
        written⟩
    | none =>
      have result : after = updateSavedStations (entries ++ [appendedEntry ssid password]) := by
        rw [show after = _ from congrArg Prod.fst (addStation_missing h found)]
      have keyed : (appendedEntry ssid password).ssid = ssidKey ssid := copy_ssid ssid
      have unknown : directory (some entries) (appendedEntry ssid password).ssid = none := by
        rw [keyed]
        exact find_none h.padded found
      obtain ⟨formed, written⟩ := write_concat h (padded_copy 32 ssid 32) unknown
      rw [keyed] at written
      rw [result]
      exact ⟨formed, appendedEntry ssid password, ⟨keyed, rfl, nofun, fun _ => rfl⟩, written⟩

theorem add_step {saved : Saved} (h : WellFormed saved) (ssid password : Str) :
    WellFormed (Operation.apply saved (.add ssid password)) ∧
      (directory saved).Step (.add ssid password)
        (directory (Operation.apply saved (.add ssid password))) := by
  obtain ⟨formed, e, added, written⟩ := add_written h ssid password
  refine ⟨formed, ?_⟩
  rw [Operation.apply, written]
  exact .add _ ssid password e added.keyed added.fresh

theorem remove_step {saved : Saved} (h : WellFormed saved) (ssid : Str) :
    WellFormed (Operation.apply saved (.remove ssid)) ∧
      (directory saved).Step (.remove ssid) (directory (Operation.apply saved (.remove ssid))) := by
  have absent : directory saved (ssidKey ssid) = none →
      (directory saved).Step (.remove ssid) (directory saved) := by
    intro missing
    have same := Directory.Step.remove (directory saved) ssid
    rwa [← missing, Function.update_eq_self] at same
  cases saved with
  | none => exact ⟨h, absent rfl⟩
  | some entries =>
    cases found : entries.findFinIdx? (matchesSsid ssid) with
    | some i =>
      have keyed : (entries.get i).ssid = ssidKey ssid := find_some h.padded found
      have applied : Operation.apply (some entries) (.remove ssid) =
          updateSavedStations (swapRemove entries i) := by
        simp only [Operation.apply, removeStation, getSavedStations_some h, found]
      obtain ⟨formed, written⟩ := write_swapRemove h i
      rw [applied]
      refine ⟨formed, ?_⟩
      rw [written, keyed]
      exact .remove _ ssid
    | none =>
      have applied : Operation.apply (some entries) (.remove ssid) = some entries := by
        simp only [Operation.apply, removeStation, getSavedStations_some h, found]
      rw [applied]
      exact ⟨h, absent (find_none h.padded found)⟩

theorem setState_step {saved : Saved} (h : WellFormed saved) (ssid : Field 32)
    (newState : StaState) :
    WellFormed (Operation.apply saved (.setState ssid newState)) ∧
      (directory saved).Step (.setState ssid newState)
        (directory (Operation.apply saved (.setState ssid newState))) := by
  have same : ((directory saved ssid).map fun e => { e with state := newState.value }) =
        directory saved ssid → (directory saved).Step (.setState ssid newState) (directory saved) := by
    intro kept
    have step := Directory.Step.setState (directory saved) ssid newState
    rwa [kept, Function.update_eq_self] at step
  cases saved with
  | none => exact ⟨h, same rfl⟩
  | some entries =>
    cases found : entries.findFinIdx? fun e => e.ssid = ssid with
    | some i =>
      have keyed : entries[i].ssid = ssid :=
        of_decide_eq_true (List.findFinIdx?_eq_some_iff.mp found).1
      have held : directory (some entries) ssid = some entries[i] :=
        (lookup_eq_some_iff h.unique).mpr ⟨List.getElem_mem i.isLt, keyed⟩
      by_cases already : entries[i].state = newState.value
      · have applied : Operation.apply (some entries) (.setState ssid newState) = some entries := by
          simp only [Operation.apply, updateSsidState, getSavedStations_some h, found, if_pos already]
        rw [applied]
        refine ⟨h, same ?_⟩
        rw [held, Option.map_some, ← already]
      · have applied : Operation.apply (some entries) (.setState ssid newState) =
            updateSavedStations (entries.set i { entries[i] with state := newState.value }) := by
          simp only [Operation.apply, updateSsidState, getSavedStations_some h, found, if_neg already]
        obtain ⟨formed, written⟩ :=
          write_set h (i := i) (e := { entries[i] with state := newState.value }) rfl
        have step := Directory.Step.setState (directory (some entries)) ssid newState
        rw [applied]
        refine ⟨formed, ?_⟩
        rw [held, Option.map_some] at step
        rw [written, keyed]
        exact step
    | none =>
      have missing : directory (some entries) ssid = none := by
        apply lookup_eq_none_iff.mpr
        intro e he hit
        exact List.findFinIdx?_eq_none_iff.mp found e he (decide_eq_true hit)
      have applied : Operation.apply (some entries) (.setState ssid newState) = some entries := by
        simp only [Operation.apply, updateSsidState, getSavedStations_some h, found]
      rw [applied]
      exact ⟨h, same (by rw [missing, Option.map_none])⟩

/-- The list refines the map: every operation keeps it well formed and is a step of the map. -/
theorem apply_refines {saved : Saved} (h : WellFormed saved) (op : Operation) :
    WellFormed (op.apply saved) ∧ (directory saved).Step op (directory (op.apply saved)) := by
  cases op with
  | add ssid password => exact add_step h ssid password
  | remove ssid => exact remove_step h ssid
  | setState ssid newState => exact setState_step h ssid newState

theorem wellFormed_run (ops : List Operation) : WellFormed (ops.foldl Operation.apply none) := by
  apply Runs.invariant _ none wellFormed_none
  intro saved op h
  exact (apply_refines h op).1

theorem Directory.Step.frame {d d' : Directory} {op : Operation} (h : d.Step op d')
    {k : Field 32} (other : k ≠ op.key) : d' k = d k := by
  cases h <;> exact Function.update_of_ne other _ _

theorem Directory.Step.added {d d' : Directory} {ssid password : Str}
    (h : d.Step (.add ssid password) d') :
    ∃ e, d' (ssidKey ssid) = some e ∧ e.state = StaState.new.value := by
  cases h with
  | add _ _ e _ fresh => exact ⟨e, Function.update_self _ _ _, fresh⟩

theorem Directory.Step.removed {d d' : Directory} {ssid : Str} (h : d.Step (.remove ssid) d') :
    d' (ssidKey ssid) = none := by
  cases h
  exact Function.update_self _ _ _

theorem Directory.Step.eq_removed {d d' : Directory} {ssid : Str} (h : d.Step (.remove ssid) d') :
    d' = Function.update d (ssidKey ssid) none := by
  cases h
  rfl

theorem Directory.Step.stateSet {d d' : Directory} {ssid : Field 32} {newState : StaState}
    (h : d.Step (.setState ssid newState) d') :
    d' ssid = (d ssid).map fun e => { e with state := newState.value } := by
  cases h
  exact Function.update_self _ _ _

/-- The stored entries of one SSID. -/
def entriesOf (saved : Saved) (k : Field 32) : List StationEntry :=
  (stations saved).filter (·.ssid = k)

theorem entriesOf_eq {saved : Saved} (h : WellFormed saved) (k : Field 32) :
    entriesOf saved k = (directory saved k).toList := filter_key h.unique k

/-- What an operation leaves of its own SSID. -/
def Operation.Outcome (op : Operation) (before after : Saved) : Prop :=
  match op with
  | .add _ _ => ∃ e, entriesOf after op.key = [e] ∧ e.state = StaState.new.value
  | .remove _ => entriesOf after op.key = []
  | .setState _ newState =>
    entriesOf after op.key =
      (entriesOf before op.key).map fun e => { e with state := newState.value }

theorem outcome_of_step {saved : Saved} (h : WellFormed saved) (op : Operation) :
    op.Outcome saved (op.apply saved) := by
  obtain ⟨formed, step⟩ := apply_refines h op
  cases op with
  | add ssid password =>
    obtain ⟨e, found, fresh⟩ := step.added
    refine ⟨e, ?_, fresh⟩
    rw [entriesOf_eq formed, Operation.key, found]
    rfl
  | remove ssid =>
    rw [Operation.Outcome, entriesOf_eq formed, Operation.key, step.removed]
    rfl
  | setState ssid newState =>
    rw [Operation.Outcome, entriesOf_eq formed, entriesOf_eq h, Operation.key, step.stateSet]
    cases directory saved ssid <;> rfl

/-- After any operations on an empty store no SSID is saved twice, and the next operation
changes nothing but the entry of its own SSID. -/
theorem saved_is_map (ops : List Operation) (op : Operation) :
    let before := ops.foldl Operation.apply none
    let after := op.apply before
    ((stations before).map (·.ssid)).Nodup ∧
      (∀ k, k ≠ op.key → entriesOf after k = entriesOf before k) ∧
      op.Outcome before after := by
  intro before after
  have formed : WellFormed before := wellFormed_run ops
  obtain ⟨formed', step⟩ := apply_refines formed op
  refine ⟨formed.unique, ?_, outcome_of_step formed op⟩
  intro k other
  rw [entriesOf_eq formed', entriesOf_eq formed, step.frame other]

end Rocom.Wilma
