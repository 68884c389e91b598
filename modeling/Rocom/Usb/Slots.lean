import Mathlib.Data.List.Nodup
import Rocom.Usb.ClassDriver

/-! The slots of the class driver. Between two steps a device is absent, announced or open, and
handling it takes an announced device through all of its queries and closes one that is gone. -/
namespace Rocom.Usb

/-! ### One device -/

/-- An error of the library, or some more records and this device. -/
def Ends (result : Except Fault Work) (log : List Record) (records : List Record → Prop)
    (dev : UsbDevice) : Prop :=
  result = .error .checkFailed ∨ ∃ new, records new ∧ result = .ok ⟨log ++ new, dev⟩

/-- The actions that an announced device is asked for, one behind the other. -/
inductive Stage where
  | openDev | getDevInfo | getDevDesc | getConfigDesc | getStrDesc
deriving DecidableEq, Repr

def Stage.actions : Stage → Actions
  | .openDev => { Actions.none with openDev := true }
  | .getDevInfo => { Actions.none with getDevInfo := true }
  | .getDevDesc => { Actions.none with getDevDesc := true }
  | .getConfigDesc => { Actions.none with getConfigDesc := true }
  | .getStrDesc => { Actions.none with getStrDesc := true }

section Passes

variable {host : Host} {log : List Record} {P Q : List Record → Prop} {d next last : UsbDevice}

theorem ends_idle (n : Nat) (idle : d.actions = .none) :
    Ends (Work.passes host n ⟨log, d⟩) log (· = []) d := by
  refine .inr ⟨[], rfl, ?_⟩
  rw [List.append_nil]
  cases n with
  | zero => rfl
  | succ n => simp [Work.passes, idle, Actions.none, Actions.any]

/-- A pass and the passes behind it. -/
theorem ends_pass {n : Nat} (active : d.actions.any = true)
    (first : Ends (Work.pass host d.actions ⟨log, { d with actions := .none }⟩) log P next)
    (rest : ∀ log, Ends (Work.passes host n ⟨log, next⟩) log Q last) :
    Ends (Work.passes host (n + 1) ⟨log, d⟩) log (fun new => ∃ r t, P r ∧ Q t ∧ new = r ++ t)
      last := by
  have unfolded : Work.passes host (n + 1) ⟨log, d⟩ =
      (Work.pass host d.actions ⟨log, { d with actions := .none }⟩).bind (Work.passes host n) := by
    rw [Work.passes, if_pos active]
    rfl
  rw [unfolded]
  rcases first with failed | ⟨r, hr, done⟩
  · rw [failed]
    exact .inl rfl
  · rw [done]
    rcases rest (log ++ r) with failed | ⟨t, ht, done⟩
    · exact .inl failed
    · exact .inr ⟨r ++ t, ⟨r, t, hr, ht, rfl⟩, by rw [← List.append_assoc]; exact done⟩

variable (host log) (client : Client) (address : Nat) (handle : Handle)

theorem pass_strDesc :
    Ends (Work.pass host Stage.getStrDesc.actions ⟨log, ⟨client, address, some handle, .none⟩⟩) log
      (· = [.info handle]) ⟨client, address, some handle, .none⟩ := by
  cases info : host.deviceInfo log handle <;>
    simp [Ends, Work.pass, Work.actionGetStrDesc, Work.note, Stage.actions, Actions.none, info, bind,
      Except.bind]

theorem pass_configDesc :
    Ends (Work.pass host Stage.getConfigDesc.actions ⟨log, ⟨client, address, some handle, .none⟩⟩)
      log (· = [.configDescriptor handle])
      ⟨client, address, some handle, Stage.getStrDesc.actions⟩ := by
  cases answered : host.getActiveConfigDescriptor log handle <;>
    simp [Ends, Work.pass, Work.actionGetConfigDesc, Work.note, Work.demand, Stage.actions,
      Actions.none, answered, bind, Except.bind]

theorem pass_devDesc :
    Ends (Work.pass host Stage.getDevDesc.actions ⟨log, ⟨client, address, some handle, .none⟩⟩)
      log (· = [.deviceDescriptor handle])
      ⟨client, address, some handle, Stage.getConfigDesc.actions⟩ := by
  cases answered : host.getDeviceDescriptor log handle <;>
    simp [Ends, Work.pass, Work.actionGetDevDesc, Work.note, Work.demand, Stage.actions,
      Actions.none, answered, bind, Except.bind]

theorem pass_devInfo :
    Ends (Work.pass host Stage.getDevInfo.actions ⟨log, ⟨client, address, some handle, .none⟩⟩)
      log (fun new => ∃ parent : Option Handle,
        new = .info handle :: parent.toList.map .parentInfo)
      ⟨client, address, some handle, Stage.getDevDesc.actions⟩ := by
  cases info : host.deviceInfo log handle with
  | none =>
    left
    simp [Work.pass, Work.actionGetInfo, Stage.actions, Actions.none, info, bind, Except.bind]
  | some parent =>
    cases parent with
    | none =>
      refine .inr ⟨[.info handle], ⟨none, rfl⟩, ?_⟩
      simp [Work.pass, Work.actionGetInfo, Work.note, Work.demand, Stage.actions, Actions.none, info,
        bind, Except.bind]
    | some parent =>
      cases above : host.deviceInfo (log ++ [.info handle]) parent with
      | none =>
        left
        simp [Work.pass, Work.actionGetInfo, Work.note, Stage.actions, Actions.none, info, above,
          bind, Except.bind]
      | some _ =>
        refine .inr ⟨[.info handle, .parentInfo parent], ⟨some parent, rfl⟩, ?_⟩
        simp [Work.pass, Work.actionGetInfo, Work.note, Work.demand, Stage.actions, Actions.none,
          info, above, bind, Except.bind]

theorem pass_openDev (nonzero : address ≠ 0) :
    Work.pass host Stage.openDev.actions ⟨log, ⟨client, address, none, .none⟩⟩ =
      match host.deviceOpen log address with
      | some handle => .ok ⟨log ++ [.opened client address handle],
          ⟨client, address, some handle, Stage.getDevInfo.actions⟩⟩
      | none => .error .checkFailed := by
  cases opened : host.deviceOpen log address <;>
    simp [Work.pass, Work.actionOpenDev, Work.note, Work.demand, Stage.actions, Actions.none, opened,
      nonzero, bind, Except.bind]

theorem pass_closeDev :
    Ends (Work.pass host Actions.close ⟨log, ⟨client, address, some handle, .none⟩⟩) log
      (· = [.closed client handle]) ⟨client, 0, none, .none⟩ := by
  cases closed : host.deviceClose log handle <;>
    simp [Ends, Work.pass, Work.actionCloseDev, Work.note, Actions.close, Actions.none, closed, bind,
      Except.bind]

end Passes

/-- The records of a device that is opened and read out. -/
def welcome (client : Client) (address : Nat) (handle : Handle) (parent : Option Handle) :
    List Record :=
  .opened client address handle ::
    (.info handle :: parent.toList.map .parentInfo ++
      ([.deviceDescriptor handle] ++ ([.configDescriptor handle] ++ [.info handle])))

/-- An announced device is opened and asked everything, in five passes. -/
theorem handle_announced (host : Host) (log : List Record) (client : Client) {address : Nat}
    (nonzero : address ≠ 0) :
    let handled := classDriverDeviceHandle host
      ⟨log, ⟨client, address, none, Stage.openDev.actions⟩⟩
    handled = .error .checkFailed ∨
      ∃ handle parent, host.deviceOpen log address = some handle ∧
        handled = .ok ⟨log ++ welcome client address handle parent,
          ⟨client, address, some handle, .none⟩⟩ := by
  have first := pass_openDev host log client address nonzero
  have unfolded : classDriverDeviceHandle host
      ⟨log, ⟨client, address, none, Stage.openDev.actions⟩⟩ =
        (Work.pass host Stage.openDev.actions ⟨log, ⟨client, address, none, .none⟩⟩).bind
          (Work.passes host 4) := rfl
  simp only [unfolded, first]
  cases opened : host.deviceOpen log address with
  | none => exact .inl rfl
  | some handle =>
    have strDesc := fun log =>
      ends_pass (d := ⟨client, address, some handle, Stage.getStrDesc.actions⟩) rfl
        (pass_strDesc host log client address handle)
        fun _ => ends_idle (d := ⟨client, address, some handle, .none⟩) 0 rfl
    have configDesc := fun log =>
      ends_pass (d := ⟨client, address, some handle, Stage.getConfigDesc.actions⟩) rfl
        (pass_configDesc host log client address handle) strDesc
    have devDesc := fun log =>
      ends_pass (d := ⟨client, address, some handle, Stage.getDevDesc.actions⟩) rfl
        (pass_devDesc host log client address handle) configDesc
    have rest := ends_pass (d := ⟨client, address, some handle, Stage.getDevInfo.actions⟩) rfl
      (pass_devInfo host (log ++ [.opened client address handle]) client address handle) devDesc
    rcases rest with failed | ⟨new, ⟨_, _, ⟨parent, rfl⟩, ⟨_, _, rfl, ⟨_, _, rfl, ⟨_, _, rfl, rfl, rfl⟩,
      rfl⟩, rfl⟩, rfl⟩, done⟩
    · exact .inl failed
    · refine .inr ⟨handle, parent, rfl, done.trans ?_⟩
      simp [welcome]

theorem handle_gone (host : Host) (log : List Record) (client : Client) (address : Nat)
    (handle : Handle) :
    Ends (classDriverDeviceHandle host ⟨log, ⟨client, address, some handle, .close⟩⟩) log
      (· = [.closed client handle]) ⟨client, 0, none, .none⟩ := by
  have whole := ends_pass (n := 4) (d := ⟨client, address, some handle, .close⟩) rfl
    (pass_closeDev host log client address handle)
    fun _ => ends_idle (d := ⟨client, 0, none, .none⟩) 4 rfl
  rcases whole with failed | ⟨new, ⟨_, _, rfl, rfl, rfl⟩, done⟩
  · exact .inl failed
  · exact .inr ⟨_, rfl, done⟩

/-! ### The ledger of handles -/

def Record.opensHandle (handle : Handle) : Record → Bool
  | .opened _ _ h => h = handle
  | _ => false

def Record.closesHandle (handle : Handle) : Record → Bool
  | .closed _ h => h = handle
  | _ => false

def opens (log : List Record) (handle : Handle) : Nat := log.countP (·.opensHandle handle)

def closes (log : List Record) (handle : Handle) : Nat := log.countP (·.closesHandle handle)

/-- What a call needs of the calls before it: a handle is opened while it is not in use, and
queried and closed while it is open. The parent belongs to somebody else. -/
def Record.Allowed (log : List Record) : Record → Prop
  | .opened _ _ h => opens log h = closes log h
  | .info h | .deviceDescriptor h | .configDescriptor h | .closed _ h =>
    opens log h = closes log h + 1
  | .parentInfo _ => True

def append (log : List Record) (r : Record) : List Record := log ++ [r]

def Proper (log : List Record) : Prop := Runs.Along append Record.Allowed [] log

theorem foldl_append (log new : List Record) : new.foldl append log = log ++ new := by
  induction new generalizing log with
  | nil => exact (List.append_nil log).symm
  | cons r new ih => rw [List.foldl_cons, ih, append, List.append_assoc, List.singleton_append]

theorem proper_concat (log : List Record) (r : Record) :
    Proper (log ++ [r]) ↔ Proper log ∧ r.Allowed log := by
  rw [Proper, Runs.along_append, foldl_append, List.nil_append]
  exact and_congr_right fun _ => and_iff_left trivial

/-- The calls so far, with the handles that are open behind them. -/
structure Ledger (log : List Record) (open_handles : List Handle) : Prop where
  proper : Proper log
  balance : ∀ h, opens log h = closes log h + open_handles.count h
  unique : open_handles.Nodup

theorem opens_concat (log : List Record) (r : Record) (h : Handle) :
    opens (log ++ [r]) h = opens log h + (r.opensHandle h).toNat := by
  rw [opens, List.countP_append, List.countP_singleton]
  cases r.opensHandle h <;> rfl

theorem closes_concat (log : List Record) (r : Record) (h : Handle) :
    closes (log ++ [r]) h = closes log h + (r.closesHandle h).toNat := by
  rw [closes, List.countP_append, List.countP_singleton]
  cases r.closesHandle h <;> rfl

variable {log : List Record} {hs : List Handle}

theorem Ledger.perm {hs' : List Handle} (l : Ledger log hs) (same : hs.Perm hs') :
    Ledger log hs' :=
  ⟨l.proper, fun h => same.count_eq h ▸ l.balance h, same.nodup_iff.mp l.unique⟩

theorem Ledger.opened (l : Ledger log hs) (client : Client) (address : Nat) {handle : Handle}
    (fresh : opens log handle = closes log handle) :
    Ledger (log ++ [.opened client address handle]) (handle :: hs) := by
  have free : handle ∉ hs := by
    have counted := l.balance handle
    rw [fresh] at counted
    exact List.count_eq_zero.mp (by omega)
  refine ⟨(proper_concat _ _).mpr ⟨l.proper, fresh⟩, ?_, List.nodup_cons.mpr ⟨free, l.unique⟩⟩
  intro h
  rw [opens_concat, closes_concat, l.balance h, List.count_cons]
  by_cases same : handle = h <;> simp [Record.opensHandle, Record.closesHandle, same]
  omega

theorem Ledger.used {r : Record} (l : Ledger log hs) (allowed : r.Allowed log)
    (neutral : ∀ h, r.opensHandle h = false ∧ r.closesHandle h = false) : Ledger (log ++ [r]) hs := by
  refine ⟨(proper_concat _ _).mpr ⟨l.proper, allowed⟩, ?_, l.unique⟩
  intro h
  rw [opens_concat, closes_concat, (neutral h).1, (neutral h).2]
  exact l.balance h

theorem Ledger.open_of_mem (l : Ledger log hs) {handle : Handle} (mem : handle ∈ hs) :
    opens log handle = closes log handle + 1 := by
  rw [l.balance handle, List.count_eq_one_of_mem l.unique mem]

theorem Ledger.closed {handle : Handle} (l : Ledger log (handle :: hs)) (client : Client) :
    Ledger (log ++ [.closed client handle]) hs := by
  have used := l.open_of_mem List.mem_cons_self
  refine ⟨(proper_concat _ _).mpr ⟨l.proper, used⟩, ?_, (List.nodup_cons.mp l.unique).2⟩
  intro h
  have counted := l.balance h
  rw [List.count_cons] at counted
  rw [opens_concat, closes_concat, counted]
  by_cases same : handle = h <;> simp [Record.opensHandle, Record.closesHandle, same]
  omega

/-! ### The table -/

/-- What a slot may hold between two steps. -/
inductive Slot (client : Client) (index : Nat) : UsbDevice → Prop
  | absent : Slot client index ⟨client, 0, none, .none⟩
  | announced (nonzero : index ≠ 0) :
      Slot client index ⟨client, index, none, Stage.openDev.actions⟩
  | opened (handle : Handle) : Slot client index ⟨client, index, some handle, .none⟩
  | leaving (handle : Handle) : Slot client index ⟨client, index, some handle, .close⟩

/-- Where handling leaves a slot: an announced device is open, one that is gone is absent. -/
inductive Handled : UsbDevice → UsbDevice → Prop
  | idle (d : UsbDevice) : d.actions = .none → Handled d d
  | opened (client : Client) (index : Nat) (handle : Handle) :
      Handled ⟨client, index, none, Stage.openDev.actions⟩ ⟨client, index, some handle, .none⟩
  | left (client : Client) (index : Nat) (handle : Handle) :
      Handled ⟨client, index, some handle, .close⟩ ⟨client, 0, none, .none⟩

def handles (ds : List UsbDevice) : List Handle := ds.filterMap (·.devHdl)

theorem handles_cons (d : UsbDevice) (ds : List UsbDevice) :
    handles (d :: ds) = d.devHdl.toList ++ handles ds := by
  cases h : d.devHdl <;> simp [handles, h]

/-- The handles that the library gives out are not in use. -/
def Host.Fresh (host : Host) : Prop :=
  ∀ log address handle, host.deviceOpen log address = some handle →
    opens log handle = closes log handle

theorem Ledger.welcome (l : Ledger log hs) (client : Client) (address : Nat) {handle : Handle}
    (fresh : opens log handle = closes log handle) (parent : Option Handle) :
    Ledger (log ++ welcome client address handle parent) (handle :: hs) := by
  have query : ∀ {log}, Ledger log (handle :: hs) → ∀ r : Record,
      (r = .info handle ∨ r = .deviceDescriptor handle ∨ r = .configDescriptor handle) →
      Ledger (log ++ [r]) (handle :: hs) := by
    intro log l r kind
    have used := l.open_of_mem List.mem_cons_self
    rcases kind with rfl | rfl | rfl <;> exact l.used used fun _ => ⟨rfl, rfl⟩
  have first := query (l.opened client address fresh) (.info handle) (.inl rfl)
  have second : Ledger (log ++ [.opened client address handle] ++ [.info handle] ++
      parent.toList.map .parentInfo) (handle :: hs) := by
    cases parent with
    | none => simpa using first
    | some parent => exact first.used (r := .parentInfo parent) trivial fun _ => ⟨rfl, rfl⟩
  have last := query (query (query second (.deviceDescriptor handle) (.inr (.inl rfl)))
    (.configDescriptor handle) (.inr (.inr rfl))) (.info handle) (.inl rfl)
  simpa [Usb.welcome] using last

/-- One slot of the loop, with the handles of the other slots. -/
theorem handle_slot {host : Host} (fresh : host.Fresh) {client : Client} {index : Nat}
    {d : UsbDevice} (slot : Slot client index d) (l : Ledger log (d.devHdl.toList ++ hs))
    (active : d.actions.any = true) :
    classDriverDeviceHandle host ⟨log, d⟩ = .error .checkFailed ∨
      ∃ w, classDriverDeviceHandle host ⟨log, d⟩ = .ok w ∧ Slot client index w.dev ∧
        w.dev.actions = .none ∧ Handled d w.dev ∧ Ledger w.log (w.dev.devHdl.toList ++ hs) := by
  cases slot with
  | absent => exact absurd active Bool.false_ne_true
  | announced nonzero =>
    rcases handle_announced host log client nonzero with failed | ⟨handle, parent, given, done⟩
    · exact .inl failed
    · exact .inr ⟨_, done, .opened handle, rfl, .opened client index handle,
        l.welcome client index (fresh log index handle given) parent⟩
  | opened handle => exact absurd active Bool.false_ne_true
  | leaving handle =>
    rcases handle_gone host log client index handle with failed | ⟨_, rfl, done⟩
    · exact .inl failed
    · exact .inr ⟨_, done, .absent, rfl, .left client index handle, l.closed client⟩

theorem idle_of_not_any {client : Client} {index : Nat} {d : UsbDevice}
    (slot : Slot client index d) (idle : ¬ d.actions.any = true) : d.actions = .none := by
  cases slot with
  | absent | opened => rfl
  | announced | leaving => exact absurd rfl idle

/-- The slots from `index` on. -/
def Slots (client : Client) : Nat → List UsbDevice → Prop
  | _, [] => True
  | index, d :: ds => Slot client index d ∧ Slots client (index + 1) ds

/-- The table after the loop. -/
structure Swept (client : Client) (index : Nat) (before after : List UsbDevice) : Prop where
  slots : Slots client index after
  idle : ∀ d ∈ after, d.actions = .none
  handled : List.Forall₂ Handled before after

theorem handleDevices_spec {host : Host} (fresh : host.Fresh) {client : Client} (index : Nat)
    (ds : List UsbDevice) (slots : Slots client index ds) {log : List Record} (outer : List Handle)
    (l : Ledger log (outer ++ handles ds)) :
    ClassDriver.handleDevices host log ds = .error .checkFailed ∨
      ∃ log' ds', ClassDriver.handleDevices host log ds = .ok (log', ds') ∧
        Swept client index ds ds' ∧ Ledger log' (outer ++ handles ds') := by
  induction ds generalizing index log outer with
  | nil => exact .inr ⟨log, [], rfl, ⟨trivial, by simp, .nil⟩, l⟩
  | cons d ds ih =>
    obtain ⟨slot, others⟩ := slots
    have rearranged : Ledger log (d.devHdl.toList ++ (outer ++ handles ds)) := by
      refine l.perm ?_
      rw [handles_cons, ← List.append_assoc, ← List.append_assoc]
      exact List.perm_append_comm.append_right _
    have behind : ∀ {log'} {d' : UsbDevice}, Ledger log' (d'.devHdl.toList ++ (outer ++ handles ds)) →
        Ledger log' ((outer ++ d'.devHdl.toList) ++ handles ds) := by
      intro log' d' l'
      refine l'.perm ?_
      rw [← List.append_assoc]
      exact List.perm_append_comm.append_right _
    by_cases active : d.actions.any = true
    · rcases handle_slot fresh slot rearranged active with failed | ⟨w, done, slot', idle, one, l'⟩
      · left
        simp [ClassDriver.handleDevices, active, failed, bind, Except.bind]
      · rcases ih (index + 1) others _ (behind l') with failed | ⟨log', ds', rest, swept, l''⟩
        · left
          simp [ClassDriver.handleDevices, active, done, failed, bind, Except.bind]
        · refine .inr ⟨log', w.dev :: ds', ?_, ⟨⟨slot', swept.slots⟩, ?_, .cons one swept.handled⟩, ?_⟩
          · simp [ClassDriver.handleDevices, active, done, rest, bind, Except.bind]
          · exact List.forall_mem_cons.mpr ⟨idle, swept.idle⟩
          · rw [handles_cons, ← List.append_assoc]
            exact l''
    · have idle := idle_of_not_any slot active
      rcases ih (index + 1) others _ (behind rearranged) with failed | ⟨log', ds', rest, swept, l''⟩
      · left
        simp [ClassDriver.handleDevices, active, failed, bind, Except.bind]
      · refine .inr ⟨log', d :: ds', ?_, ⟨⟨slot, swept.slots⟩, ?_, .cons (.idle d idle) swept.handled⟩,
          ?_⟩
        · simp [ClassDriver.handleDevices, active, rest, bind, Except.bind]
        · exact List.forall_mem_cons.mpr ⟨idle, swept.idle⟩
        · rw [handles_cons, ← List.append_assoc]
          exact l''

end Rocom.Usb
