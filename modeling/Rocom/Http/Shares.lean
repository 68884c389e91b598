import Rocom.Http.SystemStatus

/-! What the status page shows over a run of requests: every task once, with its share of the
processor since the page before, although the clocks it reads wrap. -/
namespace Rocom.Http

open CString Json Wilma KeyedList

/-! ### Lines that fit their array -/

theorem length_x08 (x : UInt32) : (x08 x).length = 8 := by
  have digits : (Nat.digits 16 x.toNat).length ≤ 8 :=
    (Nat.digits_length_le_iff (by decide) _).mpr x.toNat_lt
  rw [x08, List.length_leftpad, List.length_map, List.length_reverse]
  omega

theorem length_column (width : ℕ) (bs : List UInt8) :
    (column width bs).length = max width bs.length :=
  List.length_leftpad

theorem length_decimal32 (x : UInt32) : (decimal x.toNat).length ≤ 10 :=
  length_decimal_le (by decide) (x.toNat_lt.trans (by decide))

theorem length_signed32 (x : Int32) : (signed x.toInt).length ≤ 11 := by
  have low := x.le_toInt
  have high := x.toInt_lt
  exact length_signed_le (by decide) (by omega)

theorem length_coreStr (id : Int32) : (coreStr id).length ≤ 3 := by
  unfold coreStr
  split_ifs <;> decide

theorem length_taskStateName (s : TaskState) : (taskStateName s).length ≤ 10 := by
  cases s <;> decide

theorem taskLine_fits {tsk : TaskStatus} (short : tsk.pcTaskName.strlen < 16) (cpu : Int32) :
    (taskLine tsk cpu.toInt).length < buffSize := by
  have number := length_decimal32 tsk.xTaskNumber
  have mark := length_decimal32 tsk.usStackHighWaterMark
  have priority := length_signed32 tsk.uxCurrentPriority.toInt32
  have core := length_coreStr tsk.xCoreID
  have state := length_taskStateName tsk.eCurrentState
  have share := length_signed32 cpu
  have fixed : (ascii "\tid: ").length = 5 ∧ (ascii ", name: ").length = 8 ∧
      (ascii ", prio: ").length = 8 ∧ (ascii ", state: ").length = 9 ∧
      (ascii ", stack_hwm: ").length = 13 ∧ (ascii ", core: ").length = 8 ∧
      (ascii ", cpu: ").length = 7 ∧ (ascii "%, pc: 0x").length = 9 ∧ (ascii "\n").length = 1 := by
    decide
  rw [Str.strlen] at short
  simp only [taskLine, List.length_append, length_column, length_x08, d32, buffSize]
  omega

theorem nul_notMem_x08 (x : UInt32) : 0 ∉ x08 x := by
  have digit : ∀ n < 16, hexDigit n ≠ 0 := by decide
  rw [x08, List.leftpad, List.mem_append, not_or]
  constructor
  · intro h
    cases List.eq_of_mem_replicate h
  · intro h
    obtain ⟨n, hn, zero⟩ := List.mem_map.mp h
    exact digit n (Nat.digits_lt_base (by decide) (List.mem_reverse.mp hn)) zero

theorem headerLines_fit (r : SystemReading) (known : r.resetReason < 13) (current : Partition)
    {reason description : List UInt8} (short : reason.length ≤ 17 ∧ description.length ≤ 60)
    (noNul : 0 ∉ reason ∧ 0 ∉ description) :
    ∀ line ∈ headerLines r reason description current, line.length < buffSize ∧ 0 ∉ line := by
  have heap := length_decimal32 r.freeHeap
  have uptime := length_decimal32 (r.tickCount * tickPeriodMs)
  have number : (signed r.resetReason).length ≤ 11 := length_signed_le (by decide) (by omega)
  have state (x : UInt32) : (d32 x).length ≤ 11 := length_signed32 x.toInt32
  have clean (x : UInt32) : 0 ∉ d32 x := nul_notMem_signed _
  have texts : ∀ t ∈ ["free_heap: ", "\nuptime: ", "\n", "reset_reason: ", " ", " -- ",
      "current partition: 0x", "\nnext partition: 0x"], (ascii t).length ≤ 21 ∧ 0 ∉ ascii t := by
    decide
  simp only [List.forall_mem_cons, List.not_mem_nil, IsEmpty.forall_iff, implies_true] at texts
  have status (p : Prop) [Decidable p] :
      (if p then ascii "update valid\n" else ascii "UPDATE FAILED\n").length ≤ 14 ∧
      0 ∉ (if p then ascii "update valid\n" else ascii "UPDATE FAILED\n") := by
    split_ifs <;> decide
  simp only [headerLines, List.forall_mem_cons, List.not_mem_nil, IsEmpty.forall_iff, implies_true,
    and_true, List.length_append, length_x08, buffSize, List.mem_append, nul_notMem_decimal,
    nul_notMem_signed, nul_notMem_x08, clean, noNul, texts, status, or_false, not_false_eq_true]
  have running := state (current.state.getD otaImgUndefined)
  have next := state ((r.nextPartition.bind Partition.state).getD otaImgUndefined)
  have update :=
    (status ((r.nextPartition.bind Partition.state).getD otaImgUndefined = otaImgValid)).1
  omega

/-- The header comes out whole, for the reasons that its tables know. -/
theorem cgiSystemStatusHeader_eq (stack : Field buffSize) {r : SystemReading}
    (known : r.resetReason < 13) {current : Partition}
    (running : r.runningPartition = some current) :
    ∃ reason ∈ espResetReasons, ∃ description ∈ espResetDescriptions,
      cgiSystemStatusHeader stack r =
        some (headerLines r reason description current ++ [ascii "tasks:\n"]) := by
  have reasons : ∀ l ∈ espResetReasons, 0 ∉ l ∧ l.length ≤ 17 := by decide
  have descriptions : ∀ l ∈ espResetDescriptions, 0 ∉ l ∧ l.length ≤ 60 := by decide
  obtain ⟨reason, named⟩ : ∃ reason, espResetReasons[r.resetReason]? = some reason :=
    ⟨_, List.getElem?_eq_getElem known⟩
  obtain ⟨description, described⟩ :
      ∃ description, espResetDescriptions[r.resetReason]? = some description :=
    ⟨_, List.getElem?_eq_getElem known⟩
  have member := List.mem_of_getElem? named
  have member' := List.mem_of_getElem? described
  refine ⟨reason, member, description, member', ?_⟩
  have whole : ∀ line ∈ headerLines r reason description current,
      text (snprintf stack.bytes buffSize line) = line := by
    intro line inside
    obtain ⟨fits, clean⟩ := headerLines_fit r known current
      ⟨(reasons _ member).2, (descriptions _ member').2⟩
      ⟨(reasons _ member).1, (descriptions _ member').1⟩ line inside
    rw [text_snprintf _ fits, text_of_notMem clean]
  simp only [cgiSystemStatusHeader, named, described, running, Option.bind_eq_bind,
    Option.bind_some]
  rw [List.map_congr_left whole, List.map_id']

/-! ### The order of the tasks -/

theorem toInt_toInt32 (x : UInt32) : x.toInt32.toInt = (x.toNat : Int).bmod (2 ^ 32) :=
  BitVec.toInt_eq_toNat_bmod x.toBitVec

/-- The comparison subtracts, so it is one by number only below 2^31. -/
theorem taskStatusCmp_iff {a b : TaskStatus} (ha : a.xTaskNumber.toNat < 2 ^ 31)
    (hb : b.xTaskNumber.toNat < 2 ^ 31) :
    taskStatusCmp a b ≤ 0 ↔ a.xTaskNumber.toNat ≤ b.xTaskNumber.toNat := by
  rw [taskStatusCmp, Int32.le_iff_toInt_le, toInt_toInt32, UInt32.toNat_sub]
  simp only [Int.bmod_def, Int32.toInt_zero]
  omega

/-! ### The loop -/

def TaskStatus.id (tsk : TaskStatus) : Int32 := tsk.xTaskNumber.toInt32

def TaskStatus.ran (tsk : TaskStatus) (taskTimes : Hashmap) : UInt32 :=
  tsk.ulRunTimeCounter - (taskTimes tsk.id).getD tsk.ulRunTimeCounter

def TaskStatus.line (tsk : TaskStatus) (taskTimes : Hashmap) (window : UInt32) : List UInt8 :=
  taskLine tsk (tsk.ran taskTimes / window).toInt32.toInt

theorem taskRow_eq (stack : Field buffSize) (window : UInt32) (taskTimes : Hashmap)
    {tsk : TaskStatus} (short : tsk.pcTaskName.strlen < 16) :
    taskRow stack window taskTimes tsk =
      (hashmapSet taskTimes tsk.id tsk.ulRunTimeCounter, some (tsk.line taskTimes window)) := by
  have last : (hashmapGet taskTimes tsk.id tsk.ulRunTimeCounter).2 =
      (taskTimes tsk.id).getD tsk.ulRunTimeCounter := by
    unfold hashmapGet
    cases taskTimes tsk.id <;> rfl
  have fits : (tsk.line taskTimes window).length < buffSize :=
    taskLine_fits short (tsk.ran taskTimes / window).toInt32
  have sent (line : List UInt8) (fits : line.length < buffSize) :
      httpdRespSendChunk (snprintf stack.bytes buffSize line) line.length = some line := by
    have whole : line.take (buffSize - 1) = line :=
      List.take_of_length_le (Nat.le_sub_one_of_lt fits)
    simp only [httpdRespSendChunk, snprintf, whole, List.append_assoc, List.take_left,
      List.length_append, Nat.le_add_right, if_true]
  rw [← sent _ fits, TaskStatus.line, TaskStatus.ran, ← last]
  rfl

theorem taskRows_eq (stack : Field buffSize) (window : UInt32) (taskTimes : Hashmap)
    {tasks : List TaskStatus} (distinct : Unique TaskStatus.id tasks)
    (short : ∀ tsk ∈ tasks, tsk.pcTaskName.strlen < 16) :
    taskRows stack window taskTimes tasks =
      (fun id =>
          ((lookup TaskStatus.id tasks id).map TaskStatus.ulRunTimeCounter).or (taskTimes id),
        some (tasks.map fun tsk => tsk.line taskTimes window)) := by
  induction tasks generalizing taskTimes with
  | nil => rfl
  | cons tsk rest ih =>
    obtain ⟨fresh, distinct⟩ := List.nodup_cons.mp distinct
    have others : ∀ other ∈ rest,
        other.line (hashmapSet taskTimes tsk.id tsk.ulRunTimeCounter) window =
          other.line taskTimes window := by
      intro other member
      have differ : other.id ≠ tsk.id := fun same => fresh (same ▸ List.mem_map_of_mem member)
      simp only [TaskStatus.line, TaskStatus.ran, hashmapSet, Function.update_of_ne differ]
    have table (id : Int32) :
        ((lookup TaskStatus.id rest id).map TaskStatus.ulRunTimeCounter).or
            (hashmapSet taskTimes tsk.id tsk.ulRunTimeCounter id) =
          ((lookup TaskStatus.id (tsk :: rest) id).map TaskStatus.ulRunTimeCounter).or
            (taskTimes id) := by
      rw [lookup_cons, hashmapSet]
      by_cases here : id = tsk.id
      · have gone : lookup TaskStatus.id rest tsk.id = none :=
          lookup_eq_none_iff.mpr fun other member same => fresh (same ▸ List.mem_map_of_mem member)
        simp [here, gone]
      · simp [Function.update_of_ne here]
    simp only [taskRows, taskRow_eq stack window taskTimes (short tsk List.mem_cons_self),
      ih _ distinct fun other member => short other (List.mem_cons_of_mem tsk member), table,
      List.map_congr_left others, Option.bind_some, Option.map_some, List.map_cons]

/-! ### The run -/

/-- A task with its run time, which its counter shows modulo 2^32. -/
structure Task where
  status : TaskStatus
  runTime : ℕ
  counter : status.ulRunTimeCounter = UInt32.ofNat runTime
  short : status.pcTaskName.strlen < 16

abbrev Task.id (t : Task) : Int32 := t.status.id

/-- All the tasks, and the clock they are measured by. Numbers count up from boot. -/
structure Listing where
  tasks : List Task
  clock : ℕ
  distinct : Unique Task.id tasks
  numbered : ∀ t ∈ tasks, t.status.xTaskNumber.toNat < 2 ^ 31

/-- A request, with what the system really was. -/
structure Page where
  reading : SystemReading
  listing : Option Listing
  shown : reading.systemState =
    listing.map fun l => (l.tasks.map Task.status, UInt32.ofNat l.clock)

def Page.tasks (p : Page) : List Task := (p.listing.map Listing.tasks).getD []

/-- What the pages so far have shown: each task as it was last listed, and the clock of the page
before, where that one had a listing. -/
structure Past where
  task : Int32 → Option Task
  clock : Option ℕ

def Past.start : Past := ⟨fun _ => none, some 0⟩

def Past.step (past : Past) (p : Page) : Past where
  task := fun id => (lookup Task.id p.tasks id).or (past.task id)
  clock := p.listing.map Listing.clock

def pastOf (pages : List Page) : Past := pages.foldl Past.step Past.start

/-- How long a task has run since it was last listed. -/
def Past.ran (past : Past) (t : Task) : ℕ :=
  match past.task t.id with
  | none => 0
  | some before => t.runTime - before.runTime

/-- Hundredths of the time since the clock read `before`, which are no shorter than one tick. -/
def hundredth (before now : ℕ) : ℕ := max 1 ((now - before) / 100)

/-- The statics show the past as far as their counters go. -/
structure Agrees (m : Meter) (past : Past) : Prop where
  table : ∀ id,
    m.taskTimes.getD hashmapNew id = (past.task id).map fun t => t.status.ulRunTimeCounter
  clock : ∀ now, past.clock = some now → m.lastTotalRuntime = UInt32.ofNat now

variable (qsort : Qsort TaskStatus) (stack : Field buffSize)

def showPage (m : Meter) (p : Page) : Meter := (cgiSystemStatus qsort stack m p.reading).1

/-- The array that `qsort` leaves holds the tasks in the order of their numbers. -/
theorem sorted_tasks (l : Listing) :
    ∃ rows : List Task, rows.Perm l.tasks ∧
      rows.Pairwise (fun a b => a.status.xTaskNumber < b.status.xTaskNumber) ∧
      qsort.sort taskStatusCmp (l.tasks.map Task.status) = rows.map Task.status := by
  have compared : ∀ a ∈ l.tasks.map Task.status, ∀ b ∈ l.tasks.map Task.status,
      taskStatusCmp a b ≤ 0 ↔ a.xTaskNumber.toNat ≤ b.xTaskNumber.toNat := by
    intro a ha b hb
    obtain ⟨t, ht, rfl⟩ := List.mem_map.mp ha
    obtain ⟨u, hu, rfl⟩ := List.mem_map.mp hb
    exact taskStatusCmp_iff (l.numbered t ht) (l.numbered u hu)
  have sorted := qsort.sorted _ _ _ compared
  obtain ⟨rows, same, perm⟩ : Relation.Comp (· = List.map Task.status ·) List.Perm
      (qsort.sort taskStatusCmp (l.tasks.map Task.status)) l.tasks := by
    rw [List.eq_map_comp_perm]
    exact qsort.perm _ _
  refine ⟨rows, perm, ?_, same⟩
  rw [same, List.pairwise_map] at sorted
  have distinct : rows.Pairwise fun a b => a.id ≠ b.id :=
    List.pairwise_map.mp ((unique_perm perm).mpr l.distinct)
  apply (sorted.and distinct).imp
  rintro a b ⟨le, differ⟩
  apply UInt32.lt_iff_toNat_lt.mpr
  apply Nat.lt_of_le_of_ne le
  intro same
  exact differ (congrArg UInt32.toInt32 (UInt32.toNat_inj.mp same))

theorem lookup_status (rows : List Task) (id : Int32) :
    lookup TaskStatus.id (rows.map Task.status) id = (lookup Task.id rows id).map Task.status := by
  rw [lookup, List.find?_map]
  rfl

/-- The divisor of a page. -/
def Meter.window (m : Meter) (total : UInt32) : UInt32 :=
  if (total - m.lastTotalRuntime) / 100 = 0 then 1 else (total - m.lastTotalRuntime) / 100

theorem cgiSystemStatus_listing (m : Meter) {p : Page} {l : Listing} (listed : p.listing = some l) :
    ∃ rows : List Task, rows.Perm l.tasks ∧
      rows.Pairwise (fun a b => a.status.xTaskNumber < b.status.xTaskNumber) ∧
      cgiSystemStatus qsort stack m p.reading =
        (⟨some fun id => ((lookup Task.id l.tasks id).map fun t => t.status.ulRunTimeCounter).or
            (m.taskTimes.getD hashmapNew id), UInt32.ofNat l.clock⟩,
          (cgiSystemStatusHeader stack p.reading).map fun header =>
            textPage (header ++ rows.map fun t =>
              t.status.line (m.taskTimes.getD hashmapNew) (m.window (UInt32.ofNat l.clock)))) := by
  obtain ⟨rows, perm, ordered, same⟩ := sorted_tasks qsort l
  refine ⟨rows, perm, ordered, ?_⟩
  have distinct : Unique Task.id rows := (unique_perm perm).mpr l.distinct
  have distinct' : Unique TaskStatus.id (rows.map Task.status) := by
    rw [KeyedList.Unique, List.map_map]
    exact distinct
  have short : ∀ tsk ∈ rows.map Task.status, tsk.pcTaskName.strlen < 16 := by
    intro tsk member
    obtain ⟨t, _, rfl⟩ := List.mem_map.mp member
    exact t.short
  have state := p.shown
  rw [listed, Option.map_some] at state
  have looked (id : Int32) : lookup Task.id l.tasks id = lookup Task.id rows id :=
    congrFun (lookup_perm l.distinct perm.symm) id
  simp only [cgiSystemStatus, state, Option.getD_some, same, taskRows_eq stack _ _ distinct' short,
    lookup_status, looked, Option.map_map, List.map_map, Option.map_some, Meter.window]
  cases cgiSystemStatusHeader stack p.reading <;> rfl

theorem cgiSystemStatus_noListing (m : Meter) {p : Page} (failed : p.listing = none) :
    cgiSystemStatus qsort stack m p.reading =
      (⟨some (m.taskTimes.getD hashmapNew), p.reading.leftover⟩,
        (cgiSystemStatusHeader stack p.reading).map textPage) := by
  have state := p.shown
  have empty : qsort.sort taskStatusCmp [] = [] := List.perm_nil.mp (qsort.perm _ _)
  rw [failed, Option.map_none] at state
  simp only [cgiSystemStatus, state, Option.getD_none, empty, taskRows, Option.map_some,
    List.append_nil]
  cases cgiSystemStatusHeader stack p.reading <;> rfl

theorem agrees_step {m : Meter} {past : Past} (agrees : Agrees m past) (p : Page) :
    Agrees (showPage qsort stack m p) (past.step p) := by
  cases listed : p.listing with
  | none =>
    have same := congrArg Prod.fst (cgiSystemStatus_noListing qsort stack m listed)
    constructor
    · intro id
      simp [showPage, same, Past.step, Page.tasks, listed, lookup, agrees.table]
    · intro now here
      simp [Past.step, listed] at here
  | some l =>
    obtain ⟨rows, -, -, both⟩ := cgiSystemStatus_listing qsort stack m listed
    have same := congrArg Prod.fst both
    constructor
    · intro id
      simp only [showPage, same, Option.getD_some, agrees.table, Past.step, Page.tasks, listed,
        Option.map_some, Option.map_or]
    · intro now here
      rw [showPage, same]
      rw [Past.step, listed] at here
      cases here
      rfl

theorem agrees_run (pages : List Page) :
    Agrees (pages.foldl (showPage qsort stack) Meter.start) (pastOf pages) := by
  induction pages using List.reverseRecOn with
  | nil =>
    constructor
    · intro id
      rfl
    · intro now here
      cases here
      rfl
  | append_singleton pages p ih =>
    rw [pastOf, List.foldl_concat, List.foldl_concat]
    exact agrees_step qsort stack ih p

/-! ### The column -/

theorem elapsed {a b : ℕ} (le : a ≤ b) (within : b - a < 2 ^ 32) :
    (UInt32.ofNat b - UInt32.ofNat a).toNat = b - a := by
  rw [UInt32.toNat_sub, UInt32.toNat_ofNat', UInt32.toNat_ofNat']
  omega

theorem window_eq {m : Meter} {before now : ℕ} (last : m.lastTotalRuntime = UInt32.ofNat before)
    (le : before ≤ now) (within : now - before < 2 ^ 32) :
    (m.window (UInt32.ofNat now)).toNat = hundredth before now := by
  have quotient : ((UInt32.ofNat now - m.lastTotalRuntime) / 100).toNat = (now - before) / 100 := by
    rw [UInt32.toNat_div, last, elapsed le within]
    rfl
  rw [Meter.window, hundredth, ← quotient]
  split_ifs with zero
  · rw [zero]
    rfl
  · have positive : ((UInt32.ofNat now - m.lastTotalRuntime) / 100).toNat ≠ 0 :=
      fun h => zero (UInt32.toNat_inj.mp h)
    omega

/-- The counter of a task has not gone round since it was last listed. -/
def Past.Grown (past : Past) (t : Task) : Prop :=
  ∀ before ∈ past.task t.id, before.runTime ≤ t.runTime ∧ t.runTime - before.runTime < 2 ^ 32

instance (past : Past) (t : Task) : Decidable (past.Grown t) :=
  inferInstanceAs (Decidable (∀ before ∈ past.task t.id, _))

theorem ran_eq {m : Meter} {past : Past} (agrees : Agrees m past) {t : Task}
    (grown : past.Grown t) :
    (t.status.ran (m.taskTimes.getD hashmapNew)).toNat = past.ran t := by
  rw [TaskStatus.ran, agrees.table, Past.ran]
  cases listed : past.task t.id with
  | none => simp
  | some before =>
    obtain ⟨le, within⟩ := grown before listed
    simp only [Option.map_some, Option.getD_some, t.counter, before.counter]
    exact elapsed le within

theorem line_eq {m : Meter} {past : Past} (agrees : Agrees m past) {before now : ℕ}
    (clock : past.clock = some before) (le : before ≤ now) (within : now - before < 2 ^ 32)
    {t : Task} (grown : past.Grown t) (small : past.ran t / hundredth before now < 2 ^ 31) :
    t.status.line (m.taskTimes.getD hashmapNew) (m.window (UInt32.ofNat now)) =
      taskLine t.status (past.ran t / hundredth before now : ℕ) := by
  have quotient := UInt32.toNat_div (t.status.ran (m.taskTimes.getD hashmapNew))
    (m.window (UInt32.ofNat now))
  rw [ran_eq agrees grown, window_eq (agrees.clock before clock) le within] at quotient
  have shown := toInt_toInt32
    (t.status.ran (m.taskTimes.getD hashmapNew) / m.window (UInt32.ofNat now))
  rw [quotient, Int.bmod_eq_of_le (by omega) (by omega)] at shown
  rw [TaskStatus.line, shown]

theorem sum_shares (d : ℕ) (rans : List ℕ) : (rans.map (· / d)).sum * d ≤ rans.sum := by
  induction rans with
  | nil => simp
  | cons ran rans ih =>
    have one := Nat.div_mul_le_self ran d
    simp only [List.map_cons, List.sum_cons, Nat.add_mul]
    omega

/-- A merge sort is a `qsort`. -/
def mergeSorted {α : Type} : Qsort α where
  sort cmp xs := xs.mergeSort fun a b => cmp a b ≤ 0
  perm _ xs := List.mergeSort_perm xs _
  sorted cmp key xs byKey := by
    have same : xs.mergeSort (fun a b => cmp a b ≤ 0) =
        xs.mergeSort (fun a b => key a ≤ key b) := by
      have mapped := List.map_mergeSort (f := id) (l := xs) (r := fun a b => decide (cmp a b ≤ 0))
        (s := fun a b => decide (key a ≤ key b))
        fun a ha b hb => decide_eq_decide.mpr (byKey a ha b hb)
      rwa [List.map_id, List.map_id] at mapped
    have sorted : (xs.mergeSort fun a b => key a ≤ key b).Pairwise
        fun a b => decide (key a ≤ key b) :=
      List.pairwise_mergeSort
        (fun a b c ab bc => decide_eq_true ((of_decide_eq_true ab).trans (of_decide_eq_true bc)))
        (fun a b => by simpa using Nat.le_total (key a) (key b)) xs
    rw [same]
    exact sorted.imp of_decide_eq_true

def task (number : UInt32) (runTime : ℕ) : Task where
  status := ⟨number, Str.empty, .eReady, 1, UInt32.ofNat runTime, 512, 0, 0x40080000⟩
  runTime := runTime
  counter := rfl
  short := show Str.empty.strlen < 16 by decide

def page (clock main idle : ℕ) : Page where
  reading := ⟨200000, 100, 1, some ⟨0x10000, some 2⟩, none,
    some ([(task 2 idle).status, (task 1 main).status], UInt32.ofNat clock), 0⟩
  listing := some ⟨[task 2 idle, task 1 main], clock,
    show ([2, 1] : List Int32).Nodup by decide, by simp [task]⟩
  shown := rfl

end Rocom.Http
