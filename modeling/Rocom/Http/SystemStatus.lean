import Mathlib.Algebra.BigOperators.Group.List.Lemmas
import Mathlib.Data.List.Perm.Basic
import Rocom.Lib.Buffer
import Rocom.Lib.KeyedList
import Rocom.Wilma.JsonPages

/-! The status page of main/http.c, which lists the tasks with the share of the processor each
one took since the page before, and the table of main/hashmap.cpp that it keeps between pages. -/
namespace Rocom.Http

open CString Json Wilma

/-! ### The table -/

/-- `std::unordered_map<int, uint32_t>`. -/
abbrev Hashmap := Int32 → Option UInt32

def hashmapNew : Hashmap := fun _ => none

def hashmapSet (hm : Hashmap) (id : Int32) (value : UInt32) : Hashmap :=
  Function.update hm id (some value)

/-- `value` is what the argument points at. -/
def hashmapGet (hm : Hashmap) (id : Int32) (value : UInt32) : Int × UInt32 :=
  match hm id with
  | none => (0, value)
  | some stored => (1, stored)

/-! ### The page -/

inductive TaskState where
  | eRunning
  | eReady
  | eBlocked
  | eSuspended
  | eDeleted
  | eInvalid
deriving DecidableEq

def taskStateName : TaskState → List UInt8
  | .eRunning => ascii "eRunning"
  | .eReady => ascii "eReady"
  | .eBlocked => ascii "eBlocked"
  | .eSuspended => ascii "eSuspended"
  | .eDeleted => ascii "eDeleted"
  | .eInvalid => ascii "eInvalid"

/-- `TaskStatus_t`, with the second word of what `xHandle` points at. -/
structure TaskStatus where
  xTaskNumber : UInt32
  pcTaskName : Str
  eCurrentState : TaskState
  uxCurrentPriority : UInt32
  ulRunTimeCounter : UInt32
  usStackHighWaterMark : UInt32
  xCoreID : Int32
  pc : UInt32
deriving DecidableEq

def taskStatusCmp (ta tb : TaskStatus) : Int32 := (ta.xTaskNumber - tb.xTaskNumber).toInt32

def coreStr (coreId : Int32) : List UInt8 :=
  if coreId = 0 then ascii "0"
  else if coreId = 1 then ascii "1"
  else if coreId = 2147483647 then ascii "ANY"
  else if coreId = -1 then ascii "any"
  else ascii "???"

def espResetReasons : List (List UInt8) :=
  [ascii "ESP_RST_UNKNOWN", ascii "ESP_RST_POWERON", ascii "ESP_RST_EXT", ascii "ESP_RST_SW",
    ascii "ESP_RST_PANIC", ascii "ESP_RST_INT_WDT", ascii "ESP_RST_TASK_WDT", ascii "ESP_RST_WDT",
    ascii "ESP_RST_DEEPSLEEP", ascii "ESP_RST_BROWNOUT", ascii "ESP_RST_SDIO",
    ascii "ESP_RST_USB", ascii "ESP_RST_JTAG"]

def espResetDescriptions : List (List UInt8) :=
  [ascii "Reset reason can not be determined", ascii "Reset due to power-on event",
    ascii "Reset by external pin (not applicable for ESP32)",
    ascii "Software reset via esp_restart",
    ascii "Software reset due to exception/panic",
    ascii "Reset (software or hardware) due to interrupt watchdog",
    ascii "Reset due to task watchdog", ascii "Reset due to other watchdogs",
    ascii "Reset after exiting deep sleep mode", ascii "Brownout reset (software or hardware)",
    ascii "Reset over SDIO", ascii "Reset by USB peripheral", ascii "Reset by JTAG"]

structure Partition where
  address : UInt32
  /-- `none` where `esp_ota_get_state_partition` fails. -/
  state : Option UInt32
deriving DecidableEq

/-- What one request for the page reads from the system. `systemState` is `none` where
`uxTaskGetSystemState` finds more tasks than were counted before: `totalRuntime` then stays as
the stack held it. -/
structure SystemReading where
  freeHeap : UInt32
  tickCount : UInt32
  resetReason : ℕ
  runningPartition : Option Partition
  nextPartition : Option Partition
  systemState : Option (List TaskStatus × UInt32)
  leftover : UInt32

abbrev otaImgValid : UInt32 := 2
abbrev otaImgUndefined : UInt32 := 0xffffffff
abbrev tickPeriodMs : UInt32 := 10
abbrev buffSize : ℕ := 256

/-- `%d` of 32 bits. -/
def d32 (x : UInt32) : List UInt8 := signed x.toInt32.toInt

/-- `%08x`. -/
def x08 (x : UInt32) : List UInt8 :=
  ((Nat.digits 16 x.toNat).reverse.map hexDigit).leftpad 8 0x30

def column (width : ℕ) (bs : List UInt8) : List UInt8 := bs.leftpad width 0x20

def headerLines (r : SystemReading) (reason description : List UInt8) (current : Partition) :
    List (List UInt8) :=
  let next := r.nextPartition
  let currentState := current.state.getD otaImgUndefined
  let nextState := (next.bind Partition.state).getD otaImgUndefined
  let nextAddress := (next.map Partition.address).getD 0
  [ascii "free_heap: " ++ decimal r.freeHeap.toNat ++
      ascii "\nuptime: " ++ decimal (r.tickCount * tickPeriodMs).toNat ++ ascii "\n",
    ascii "reset_reason: " ++ signed r.resetReason ++ ascii " " ++ reason ++ ascii " -- " ++
      description ++ ascii "\n",
    ascii "current partition: 0x" ++ x08 current.address ++ ascii " " ++ d32 currentState ++
      ascii "\nnext partition: 0x" ++ x08 nextAddress ++ ascii " " ++ d32 nextState ++ ascii "\n" ++
      (if nextState = otaImgValid then ascii "update valid\n" else ascii "UPDATE FAILED\n")]

/-- `none`: a table is read past its end, or there is no running partition to read. -/
def cgiSystemStatusHeader (stack : Field buffSize) (r : SystemReading) :
    Option (List (List UInt8)) := do
  let reason ← espResetReasons[r.resetReason]?
  let description ← espResetDescriptions[r.resetReason]?
  let current ← r.runningPartition
  some ((headerLines r reason description current).map
    (fun line => text (snprintf stack.bytes buffSize line)) ++ [ascii "tasks:\n"])

/-- The line of a task, for the number in its `cpu` column. -/
def taskLine (tsk : TaskStatus) (cpu : Int) : List UInt8 :=
  ascii "\tid: " ++ column 3 (decimal tsk.xTaskNumber.toNat) ++
    ascii ", name: " ++ column 16 tsk.pcTaskName.chars ++
    ascii ", prio: " ++ column 3 (d32 tsk.uxCurrentPriority) ++
    ascii ", state: " ++ column 10 (taskStateName tsk.eCurrentState) ++
    ascii ", stack_hwm: " ++ column 5 (decimal tsk.usStackHighWaterMark.toNat) ++
    ascii ", core: " ++ column 3 (coreStr tsk.xCoreID) ++
    ascii ", cpu: " ++ column 3 (signed cpu) ++
    ascii "%, pc: 0x" ++ x08 tsk.pc ++ ascii "\n"

/-- `none`: the chunk reads past the end of its array. -/
def httpdRespSendChunk (buff : List UInt8) (len : ℕ) : Option (List UInt8) :=
  if len ≤ buff.length then some (buff.take len) else none

/-- One pass of the loop: the table after it, and the chunk. -/
def taskRow (stack : Field buffSize) (totalRuntime : UInt32) (taskTimes : Hashmap)
    (tsk : TaskStatus) : Hashmap × Option (List UInt8) :=
  let id := tsk.xTaskNumber.toInt32
  let (_, lastTaskTime) := hashmapGet taskTimes id tsk.ulRunTimeCounter
  let taskTimes := hashmapSet taskTimes id tsk.ulRunTimeCounter
  let ran := tsk.ulRunTimeCounter - lastTaskTime
  let line := taskLine tsk (ran / totalRuntime).toInt32.toInt
  (taskTimes, httpdRespSendChunk (snprintf stack.bytes buffSize line) line.length)

def taskRows (stack : Field buffSize) (totalRuntime : UInt32) :
    Hashmap → List TaskStatus → Hashmap × Option (List (List UInt8))
  | taskTimes, [] => (taskTimes, some [])
  | taskTimes, tsk :: rest =>
    let (taskTimes, row) := taskRow stack totalRuntime taskTimes tsk
    let (taskTimes, rows) := taskRows stack totalRuntime taskTimes rest
    (taskTimes, row.bind fun row => rows.map (row :: ·))

/-- The statics of `cgi_system_status`. -/
structure Meter where
  taskTimes : Option Hashmap
  lastTotalRuntime : UInt32

def Meter.start : Meter := ⟨none, 0⟩

structure Response where
  contentType : String
  headers : List (String × String)
  chunks : List (List UInt8)
deriving DecidableEq

def textPage (chunks : List (List UInt8)) : Response where
  contentType := "text/plain"
  headers := [("Cache-Control", "no-store, no-cache, must-revalidate, max-age=0"),
    ("Pragma", "no-cache"), ("Refresh", "1")]
  chunks := chunks

/-- `qsort`: some order of the elements, and by the key where the comparison is one by a key. -/
structure Qsort (α : Type) where
  sort : (α → α → Int32) → List α → List α
  perm : ∀ cmp xs, (sort cmp xs).Perm xs
  sorted : ∀ cmp (key : α → ℕ) xs, (∀ a ∈ xs, ∀ b ∈ xs, cmp a b ≤ 0 ↔ key a ≤ key b) →
    (sort cmp xs).Pairwise fun a b => key a ≤ key b

def cgiSystemStatus (qsort : Qsort TaskStatus) (stack : Field buffSize) (m : Meter)
    (r : SystemReading) : Meter × Option Response :=
  let taskTimes := m.taskTimes.getD hashmapNew
  let header := cgiSystemStatusHeader stack r
  let (listed, total) := r.systemState.getD ([], r.leftover)
  let window := (total - m.lastTotalRuntime) / 100
  let window := if window = 0 then 1 else window
  let (taskTimes, rows) := taskRows stack window taskTimes (qsort.sort taskStatusCmp listed)
  (⟨some taskTimes, total⟩,
    header.bind fun header => rows.map fun rows => textPage (header ++ rows))

end Rocom.Http
