import Rocom.Lib.CString
import Rocom.Lib.KeyedList
import Rocom.Lib.Runs

/-! The saved stations of components/wilma/wilma.c: the NVS blob `sta`, its readers and its
three writers. Writing the blob succeeds (`ESP_ERROR_CHECK` stops the device otherwise); what
can fail while it is read is an argument. -/
namespace Rocom.Wilma

open CString KeyedList

abbrev espOk : Int := 0
abbrev espFail : Int := -1

inductive StaState where
  | new
  | ok
  | authFailure
deriving DecidableEq, Repr

def StaState.value : StaState → UInt8
  | .new => 0
  | .ok => 1
  | .authFailure => 2

structure StationEntry where
  version : UInt8
  state : UInt8
  padding : Field 2
  ssid : Field 32
  password : Field 64
deriving DecidableEq

/-- All bytes zero. -/
def StationEntry.zero : StationEntry where
  version := 0
  state := 0
  padding := Field.zero 2
  ssid := Field.zero 32
  password := Field.zero 64

/-- The value of the key `sta`, `none` when the key is absent. -/
abbrev Saved := Option (List StationEntry)

/-- The calls of `get_saved_stations` that fail. -/
structure LoadFaults where
  size : Bool
  malloc : Bool
  blob : Bool
deriving DecidableEq

def LoadFaults.none : LoadFaults := ⟨false, false, false⟩

/-- The list, `none` for NULL, and what is left in `*count`. -/
def getSavedStations (saved : Saved) (faults : LoadFaults) : Option (List StationEntry) × Nat :=
  match saved with
  | .none => (.none, 0)
  | some entries =>
    if faults.size then (.none, 0)
    else
      let count := entries.length
      if count = 0 then (.none, count)
      else if faults.malloc then (.none, count)
      else if faults.blob then (.none, count)
      else (some entries, count)

def getSavedStationCount (saved : Saved) : Nat :=
  match saved with
  | .none => 0
  | some entries => entries.length

def updateSavedStations (entries : List StationEntry) : Saved :=
  if entries.length = 0 then none else some entries

def updateSsidState (saved : Saved) (faults : LoadFaults) (ssid : Field 32) (newState : StaState) :
    Saved × Int :=
  match (getSavedStations saved faults).1 with
  | none => (saved, espFail)
  | some entries =>
    match entries.findFinIdx? fun e => e.ssid = ssid with
    | some idx =>
      if entries[idx].state = newState.value then (saved, espOk)
      else
        (updateSavedStations (entries.set idx { entries[idx] with state := newState.value }), espOk)
    | none => (saved, espOk)

/-- The test of the loops over the list that take a string. -/
def matchesSsid (ssid : Str) (e : StationEntry) : Bool := strncmp 32 e.ssid.bytes ssid.chars = 0

/-- What `wilma_add_ssid` goes on with when the list is written. -/
inductive AddNext where
  | connectFirst
  | sendConnectSta
  | fail
deriving DecidableEq, Repr

/-- The entry of an empty store. Its password is cut at the size of the SSID. -/
def firstEntry (ssid password : Str) : StationEntry where
  version := 1
  state := StaState.new.value
  padding := Field.zero 2
  ssid := Field.copy 32 ssid 32
  password := Field.copy 64 password 32

def updatedEntry (e : StationEntry) (password : Str) : StationEntry :=
  { e with password := Field.copy 64 password 64, state := StaState.new.value }

def appendedEntry (ssid password : Str) : StationEntry :=
  { StationEntry.zero with
    ssid := Field.copy 32 ssid 32
    password := Field.copy 64 password 64
    state := StaState.new.value }

/-- `wilma_add_ssid` up to the connection it starts. -/
def addStation (saved : Saved) (faults : LoadFaults) (reallocFails : Bool) (ssid password : Str) :
    Saved × AddNext :=
  match (getSavedStations saved faults).1 with
  | none => (updateSavedStations [firstEntry ssid password], .connectFirst)
  | some entries =>
    match entries.findFinIdx? (matchesSsid ssid) with
    | some i =>
      (updateSavedStations (entries.set i (updatedEntry entries[i] password)), .sendConnectSta)
    | none =>
      if reallocFails then (saved, .fail)
      else (updateSavedStations (entries ++ [appendedEntry ssid password]), .sendConnectSta)

/-- `wilma_remove_ssid` up to the check of the current connection, with `true` when an entry
was removed. -/
def removeStation (saved : Saved) (faults : LoadFaults) (ssid : Str) : Saved × Bool :=
  match (getSavedStations saved faults).1 with
  | none => (saved, false)
  | some entries =>
    match entries.findFinIdx? (matchesSsid ssid) with
    | some i => (updateSavedStations (swapRemove entries i), true)
    | none => (saved, false)

end Rocom.Wilma
