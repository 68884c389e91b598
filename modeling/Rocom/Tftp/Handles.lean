import Rocom.Tftp.Lengths

/-! The OTA handles of main/ota-tftp.c, over the sessions of `tftp_task` and the calls of
`ota_tftp_download`. Both keep the handle of `esp_ota_begin` in `update_handle`. -/
namespace Rocom.Tftp

abbrev errUse : Int := -8
abbrev errIf : Int := -12

/-- The callers of `ota_tftp_init`. -/
inductive Caller where
  | server
  | download
deriving DecidableEq, Repr

/-- The OTA functions, of which `otaEnd` and `otaAbort` close `update_handle`, and the return of
`ota_tftp_download`. -/
inductive OtaCall where
  | otaBegin (caller : Caller) (err : Int)
  | otaWrite (err : Int)
  | otaEnd
  | otaAbort
  | setBootPartition (err : Int)
  | downloadReturned (err : Int)
deriving DecidableEq, Repr

def otaTftpInit (caller : Caller) (i : OtaInit) : List OtaCall × Int :=
  if i.configuredPart = none ∨ i.runningPart = none then ([], errVal)
  else if i.updatePart = none then ([], errVal)
  else ([.otaBegin caller i.beginErr], if i.beginErr ≠ errOk then errVal else errOk)

/-- The arguments of `ota_tftp_download` and what it gets before `tftp_receive_data`. `bindErr` is
the result of `netconn_bind` for a port. -/
structure Download where
  peer : Peer
  receiveCb : Bool
  init : OtaInit
  netconn : Bool
  bindErr : Nat → Int
  hostErr : Int
  rrqErr : Int

/-- The loop over the local ports, with the number of ports left. -/
def bindLocal (bindErr : Nat → Int) (localPort : Nat) : Nat → Int
  | 0 => bindErr localPort
  | more + 1 =>
    if bindErr localPort = errUse then bindLocal bindErr (localPort + 1) more else bindErr localPort

/-- The part of `ota_tftp_download` before `tftp_receive_data`, with an early return or the
session. -/
def otaTftpDownload (d : Download) : List OtaCall × Except Int Session :=
  let (calls, err) := otaTftpInit .download d.init
  if err < 0 then (calls, .error errVal)
  else if d.netconn = false then (calls, .error errIf)
  else
    let err := bindLocal d.bindErr d.peer.port.toNat 10
    if err ≠ errOk then (calls, .error err)
    else if d.hostErr ≠ errOk then (calls, .error d.hostErr)
    else if d.rrqErr ≠ errOk then (calls, .error d.rrqErr)
    else (calls, .ok (Session.start (some d.peer) d.receiveCb))

/-- The server and a download, each with its call of `tftp_receive_data`. -/
structure Updater where
  session : Option Session
  download : Option Session
  calls : List OtaCall

def Event.otaCall : Event → Option OtaCall
  | .otaWrite _ _ err => some (.otaWrite err)
  | _ => none

def Session.otaCalls (s : Session) (r : Reception) : List OtaCall :=
  (s.calls r).filterMap Event.otaCall

inductive UpdaterInput where
  | request (n : Netbuf) (ackErr : Int) (i : OtaInit)
  | receive (r : Reception) (bootErr : Int)
  | download (d : Download)
  | downloadReceive (r : Reception)

namespace Updater

def log (w : Updater) (cs : List OtaCall) : Updater := { w with calls := w.calls ++ cs }

/-- `tftp_receive_data` has returned to `tftp_task`. -/
def finish (w : Updater) (recvErr bootErr : Int) : Updater :=
  let w := { w with session := none }
  if recvErr = errOk then
    let w := w.log [.setBootPartition bootErr]
    if bootErr ≠ errOk then w else { w with download := none }
  else w

def request (w : Updater) (n : Netbuf) (ackErr : Int) (i : OtaInit) : Updater :=
  match checkRequest n with
  | .error _ => w
  | .ok () =>
    if ackErr ≠ 0 then w
    else { w.log (otaTftpInit .server i).1 with session := some (Session.start none false) }

def start : Updater := ⟨none, none, []⟩

def step (w : Updater) : UpdaterInput → Updater
  | .request n ackErr i =>
    match w.session with
    | none => w.request n ackErr i
    | some _ => w
  | .receive r bootErr =>
    match w.session with
    | none => w
    | some s =>
      let w := w.log (s.otaCalls r)
      match (s.step r).result with
      | none => { w with session := some (s.step r) }
      | some recvErr => w.finish recvErr bootErr
  | .download d =>
    match w.download with
    | some _ => w
    | none =>
      let w := w.log (otaTftpDownload d).1
      match (otaTftpDownload d).2 with
      | .error err => w.log [.downloadReturned err]
      | .ok s => { w with download := some s }
  | .downloadReceive r =>
    match w.download with
    | none => w
    | some s =>
      let w := w.log (s.otaCalls r)
      match (s.step r).result with
      | none => { w with download := some (s.step r) }
      | some err => { w.log [.downloadReturned err] with download := none }

end Updater

/-- By this call the handle of `caller` has to be closed. -/
def OtaCall.Due (caller : Caller) : OtaCall → Prop
  | .otaBegin _ _ | .setBootPartition _ => True
  | .downloadReturned _ => caller = .download
  | .otaWrite _ | .otaEnd | .otaAbort => False

def OtaCall.closes : OtaCall → Bool
  | .otaEnd | .otaAbort => true
  | _ => false

def OtaCall.begins : OtaCall → Bool
  | .otaBegin _ _ => true
  | _ => false

/-- Every handle is closed exactly once before the calls it has to be closed by. -/
def ClosedInTime (calls : List OtaCall) : Prop :=
  ∀ before caller between d after,
    calls = before ++ .otaBegin caller errOk :: (between ++ d :: after) →
    (∀ c ∈ between, c.begins = false) → d.Due caller → between.countP OtaCall.closes = 1

/-! What a step calls. -/

def OtaInit.Reaches (i : OtaInit) : Prop :=
  ¬ (i.configuredPart = none ∨ i.runningPart = none) ∧ i.updatePart ≠ none

/-- `ota_tftp_download` reaches `tftp_receive_data`. -/
def Download.Proceeds (d : Download) : Prop :=
  (d.init.Reaches ∧ d.init.beginErr = errOk) ∧ d.netconn = true ∧
    bindLocal d.bindErr d.peer.port.toNat 10 = errOk ∧ d.hostErr = errOk ∧ d.rrqErr = errOk

theorem otaTftpInit_of_reaches (caller : Caller) {i : OtaInit} (reaches : i.Reaches) :
    otaTftpInit caller i =
      ([.otaBegin caller i.beginErr], if i.beginErr ≠ errOk then errVal else errOk) := by
  rw [otaTftpInit, if_neg reaches.1, if_neg reaches.2]

theorem otaTftpInit_of_not_reaches (caller : Caller) {i : OtaInit} (stops : ¬ i.Reaches) :
    otaTftpInit caller i = ([], errVal) := by
  unfold otaTftpInit
  split
  · rfl
  · rename_i known
    rw [if_pos (by_contra fun part => stops ⟨known, part⟩)]

theorem otaTftpDownload_calls (d : Download) :
    (otaTftpDownload d).1 = (otaTftpInit .download d.init).1 := by
  unfold otaTftpDownload
  dsimp only
  split
  · rfl
  · split
    · rfl
    · split
      · rfl
      · split
        · rfl
        · split <;> rfl

theorem init_fails_iff (caller : Caller) (i : OtaInit) :
    (otaTftpInit caller i).2 < 0 ↔ ¬ (i.Reaches ∧ i.beginErr = errOk) := by
  by_cases reaches : i.Reaches
  · rw [otaTftpInit_of_reaches caller reaches]
    by_cases ok : i.beginErr = errOk
    · simp [ok, reaches]
    · simp [ok, errVal]
  · rw [otaTftpInit_of_not_reaches caller reaches]
    exact iff_of_true (by decide) fun both => reaches both.1

theorem otaTftpDownload_proceeds {d : Download} (h : d.Proceeds) :
    (otaTftpDownload d).2 = .ok (Session.start (some d.peer) d.receiveCb) := by
  obtain ⟨begun, netconn, bound, host, rrq⟩ := h
  have passed : ¬ (otaTftpInit .download d.init).2 < 0 := by
    rw [init_fails_iff]
    exact not_not.mpr begun
  simp [otaTftpDownload, passed, netconn, bound, host, rrq]

theorem otaTftpDownload_stops {d : Download} (h : ¬ d.Proceeds) :
    ∃ err, (otaTftpDownload d).2 = .error err := by
  unfold otaTftpDownload
  dsimp only
  split
  · exact ⟨_, rfl⟩
  rename_i begun
  split
  · exact ⟨_, rfl⟩
  rename_i netconn
  split
  · exact ⟨_, rfl⟩
  rename_i bound
  split
  · exact ⟨_, rfl⟩
  rename_i host
  split
  · exact ⟨_, rfl⟩
  rename_i rrq
  rw [init_fails_iff, not_not] at begun
  exact absurd ⟨begun, eq_true_of_ne_false netconn, not_not.mp bound, not_not.mp host,
    not_not.mp rrq⟩ h

/-- No call of a list is one that a handle has to be closed by, if the first one obtains it. -/
def Apart (c d : OtaCall) : Prop := ∀ caller, c = .otaBegin caller errOk → ¬ d.Due caller

def AllWrites (cs : List OtaCall) : Prop := ∀ c ∈ cs, ∃ err, c = .otaWrite err

theorem allWrites_nil : AllWrites [] := List.forall_mem_nil _

theorem otaCalls_writes (s : Session) (r : Reception) : AllWrites (s.otaCalls r) := by
  intro c mem
  obtain ⟨e, -, call⟩ := List.mem_filterMap.mp mem
  cases e with
  | otaWrite segment len err => exact ⟨err, (Option.some.inj call).symm⟩
  | disconnect | connect | ack | error | progress => cases call

namespace Updater

def Opened (w : Updater) (caller : Caller) : Prop := .otaBegin caller errOk ∈ w.calls

def Begins (w : Updater) : UpdaterInput → Prop
  | .request n ackErr i =>
    w.session = none ∧ checkRequest n = .ok () ∧ ackErr = 0 ∧ i.Reaches
  | .download d => w.download = none ∧ d.init.Reaches
  | .receive _ _ | .downloadReceive _ => False

def Switches (w : Updater) : UpdaterInput → Prop
  | .receive r _ => ∃ s, w.session = some s ∧ Completes s.receiver r
  | .request _ _ _ | .download _ | .downloadReceive _ => False

def Returns (w : Updater) : UpdaterInput → Prop
  | .download d => w.download = none ∧ ¬ d.Proceeds
  | .downloadReceive r => ∃ s, w.download = some s ∧ ¬ GoesOn s.receiver r
  | .request _ _ _ | .receive _ _ => False

/-- `ota_tftp_download` is called and obtains a handle. -/
def Obtains (w : Updater) : UpdaterInput → Prop
  | .download d => w.download = none ∧ d.init.Reaches ∧ d.init.beginErr = errOk
  | .request _ _ _ | .receive _ _ | .downloadReceive _ => False

structure Effect (w : Updater) (a : UpdaterInput) (cs : List OtaCall) : Prop where
  due : ∀ caller, (∃ d ∈ cs, d.Due caller) ↔
    (w.Begins a ∨ w.Switches a) ∨ caller = .download ∧ w.Returns a
  apart : cs.Pairwise Apart ↔ ¬ (w.Returns a ∧ w.Obtains a)
  unclosed : ∀ c ∈ cs, c.closes = false

/-- A call of `tftp_receive_data` is in its loop. -/
structure Running (w : Updater) : Prop where
  session : ∀ s, w.session = some s → s.result = none
  download : ∀ s, w.download = some s → s.result = none

end Updater

theorem AllWrites.not_due {cs : List OtaCall} (h : AllWrites cs) (caller : Caller) :
    ∀ d ∈ cs, ¬ d.Due caller := by
  intro d mem
  obtain ⟨err, rfl⟩ := h d mem
  exact id

theorem AllWrites.unclosed {cs : List OtaCall} (h : AllWrites cs) : ∀ c ∈ cs, c.closes = false := by
  intro c mem
  obtain ⟨err, rfl⟩ := h c mem
  rfl

/-- Writes and then at most one more call. -/
theorem AllWrites.apart {cs ds : List OtaCall} (h : AllWrites cs) (few : ds.length ≤ 1) :
    (cs ++ ds).Pairwise Apart := by
  have last : ds.Pairwise Apart := by
    match ds with
    | [] => exact .nil
    | [d] => exact List.pairwise_singleton _ d
  have first (c d : OtaCall) (mem : c ∈ cs) : Apart c d := by
    obtain ⟨err, rfl⟩ := h c mem
    exact fun _ same => nomatch same
  refine List.pairwise_append.mpr ⟨?_, last, fun c mem d _ => first c d mem⟩
  exact List.pairwise_iff_forall_sublist.mpr fun {c d} sub =>
    first c d (sub.subset List.mem_cons_self)

namespace Updater

theorem Effect.quiet {w : Updater} {a : UpdaterInput} {cs : List OtaCall} (writes : AllWrites cs)
    (begins : ¬ w.Begins a) (switches : ¬ w.Switches a) (returns : ¬ w.Returns a) :
    w.Effect a cs where
  due caller := by
    refine iff_of_false ?_ ?_
    · rintro ⟨d, mem, due⟩
      exact writes.not_due caller d mem due
    · rintro ((begun | switched) | ⟨-, returned⟩)
      · exact begins begun
      · exact switches switched
      · exact returns returned
  apart := by
    have pairs := writes.apart (show ([] : List OtaCall).length ≤ 1 from Nat.zero_le 1)
    rw [List.append_nil] at pairs
    exact iff_of_true pairs fun both => returns both.1
  unclosed := writes.unclosed

theorem Effect.last {w : Updater} {a : UpdaterInput} {cs : List OtaCall} {c : OtaCall}
    (writes : AllWrites cs)
    (due : ∀ caller, c.Due caller ↔
      (w.Begins a ∨ w.Switches a) ∨ caller = .download ∧ w.Returns a)
    (apart : ¬ (w.Returns a ∧ w.Obtains a)) (unclosed : c.closes = false) :
    w.Effect a (cs ++ [c]) where
  due caller := by
    rw [← due caller]
    constructor
    · rintro ⟨d, mem, is_due⟩
      rcases List.mem_append.mp mem with mem | mem
      · exact absurd is_due (writes.not_due caller d mem)
      · rw [← List.mem_singleton.mp mem]
        exact is_due
    · exact fun is_due => ⟨c, List.mem_append_right _ List.mem_cons_self, is_due⟩
  apart := iff_of_true (writes.apart (Nat.le_refl 1)) apart
  unclosed d mem := by
    rcases List.mem_append.mp mem with mem | mem
    · exact writes.unclosed d mem
    · rw [List.mem_singleton.mp mem]
      exact unclosed

theorem request_effect (w : Updater) (n : Netbuf) (ackErr : Int) (i : OtaInit) :
    ∃ cs, (w.step (.request n ackErr i)).calls = w.calls ++ cs ∧
      w.Effect (.request n ackErr i) cs := by
  have idle (begins : ¬ w.Begins (.request n ackErr i)) : w.Effect (.request n ackErr i) [] :=
    Effect.quiet allWrites_nil begins id id
  unfold step
  dsimp only
  cases session : w.session with
  | some s =>
    exact ⟨[], (List.append_nil _).symm, idle fun begun => by simp [Begins, session] at begun⟩
  | none =>
    dsimp only [request]
    cases checked : checkRequest n with
    | error answer =>
      exact ⟨[], (List.append_nil _).symm, idle fun begun => by simp [Begins, checked] at begun⟩
    | ok =>
      dsimp only
      split
      · rename_i unsent
        exact ⟨[], (List.append_nil _).symm, idle fun begun => unsent begun.2.2.1⟩
      · rename_i sent
        by_cases reaches : i.Reaches
        · rw [otaTftpInit_of_reaches .server reaches]
          refine ⟨[.otaBegin .server i.beginErr], rfl, Effect.last allWrites_nil ?_ ?_ rfl⟩
          · exact fun caller => iff_of_true trivial
              (.inl (.inl ⟨session, checked, not_not.mp sent, reaches⟩))
          · exact fun both => both.1
        · rw [otaTftpInit_of_not_reaches .server reaches]
          exact ⟨[], rfl, idle fun begun => reaches begun.2.2.2⟩

theorem receive_effect {w : Updater} (running : w.Running) (r : Reception) (bootErr : Int) :
    ∃ cs, (w.step (.receive r bootErr)).calls = w.calls ++ cs ∧
      w.Effect (.receive r bootErr) cs := by
  unfold step
  dsimp only
  cases session : w.session with
  | none =>
    refine ⟨[], (List.append_nil _).symm, Effect.quiet allWrites_nil id ?_ id⟩
    rintro ⟨s, here, -⟩
    rw [session] at here
    cases here
  | some s =>
    have result : (s.step r).result = (receivePass s.receiver r).2 := by
      rw [Session.step_of_running (running.session s session)]
    have switches : w.Switches (.receive r bootErr) ↔ (s.step r).result = some errOk := by
      rw [result, (receivePass_result s.receiver r).2]
      simp [Switches, session]
    have writes := otaCalls_writes s r
    dsimp only
    cases ended : (s.step r).result with
    | none =>
      refine ⟨s.otaCalls r, rfl, Effect.quiet writes id ?_ id⟩
      rw [switches, ended]
      exact nofun
    | some recvErr =>
      unfold finish
      dsimp only
      split
      · rename_i ok
        refine ⟨s.otaCalls r ++ [.setBootPartition bootErr], ?_, Effect.last writes ?_ ?_ rfl⟩
        · split <;> exact List.append_assoc ..
        · exact fun caller => iff_of_true trivial (.inl (.inr (switches.mpr (ok ▸ ended))))
        · exact fun both => both.1
      · rename_i failed
        refine ⟨s.otaCalls r, rfl, Effect.quiet writes id ?_ id⟩
        rw [switches, ended]
        exact fun same => failed (Option.some.inj same)

theorem download_effect (w : Updater) (d : Download) :
    ∃ cs, (w.step (.download d)).calls = w.calls ++ cs ∧ w.Effect (.download d) cs := by
  unfold step
  dsimp only
  cases idle : w.download with
  | some s =>
    refine ⟨[], (List.append_nil _).symm, Effect.quiet allWrites_nil ?_ id ?_⟩
    · exact fun begun => by simp [Begins, idle] at begun
    · exact fun returned => by simp [Returns, idle] at returned
  | none =>
    dsimp only
    by_cases proceeds : d.Proceeds
    · rw [otaTftpDownload_proceeds proceeds, otaTftpDownload_calls,
        otaTftpInit_of_reaches .download proceeds.1.1]
      refine ⟨[.otaBegin .download d.init.beginErr], rfl, Effect.last allWrites_nil ?_ ?_ rfl⟩
      · exact fun caller => iff_of_true trivial (.inl (.inl ⟨idle, proceeds.1.1⟩))
      · exact fun both => both.1.2 proceeds
    · obtain ⟨err, stopped⟩ := otaTftpDownload_stops proceeds
      have returns : w.Returns (.download d) := ⟨idle, proceeds⟩
      rw [stopped, otaTftpDownload_calls]
      by_cases reaches : d.init.Reaches
      · rw [otaTftpInit_of_reaches .download reaches]
        refine ⟨[.otaBegin .download d.init.beginErr, .downloadReturned err],
          List.append_assoc .., ⟨?_, ?_, ?_⟩⟩
        · exact fun caller => iff_of_true ⟨_, List.mem_cons_self, trivial⟩
            (.inl (.inl ⟨idle, reaches⟩))
        · have obtains : w.Obtains (.download d) ↔ d.init.beginErr = errOk := by
            simp [Obtains, idle, reaches]
          rw [obtains, and_iff_right returns, List.pairwise_pair]
          constructor
          · exact fun apart ok => apart .download (by rw [ok]) rfl
          · intro failed caller same
            exact absurd (OtaCall.otaBegin.inj same).2 failed
        · simp [OtaCall.closes]
      · rw [otaTftpInit_of_not_reaches .download reaches]
        refine ⟨[.downloadReturned err], by simp [log], Effect.last allWrites_nil ?_ ?_ rfl⟩
        · intro caller
          constructor
          · exact fun own => .inr ⟨own, returns⟩
          · rintro ((begun | switched) | ⟨own, -⟩)
            · exact absurd begun.2 reaches
            · exact switched.elim
            · exact own
        · exact fun both => reaches both.2.2.1

theorem downloadReceive_effect {w : Updater} (running : w.Running) (r : Reception) :
    ∃ cs, (w.step (.downloadReceive r)).calls = w.calls ++ cs ∧
      w.Effect (.downloadReceive r) cs := by
  unfold step
  dsimp only
  cases download : w.download with
  | none =>
    refine ⟨[], (List.append_nil _).symm, Effect.quiet allWrites_nil id id ?_⟩
    rintro ⟨s, here, -⟩
    rw [download] at here
    cases here
  | some s =>
    have result : (s.step r).result = (receivePass s.receiver r).2 := by
      rw [Session.step_of_running (running.download s download)]
    have returns : w.Returns (.downloadReceive r) ↔ (s.step r).result ≠ none := by
      rw [result, Ne, (receivePass_result s.receiver r).1]
      simp [Returns, download]
    have writes := otaCalls_writes s r
    dsimp only
    cases ended : (s.step r).result with
    | none =>
      refine ⟨s.otaCalls r, rfl, Effect.quiet writes id id ?_⟩
      rw [returns, ended]
      exact fun other => other rfl
    | some err =>
      have returned : w.Returns (.downloadReceive r) := by
        rw [returns, ended]
        exact nofun
      refine ⟨s.otaCalls r ++ [.downloadReturned err], ?_, Effect.last writes ?_ ?_ rfl⟩
      · dsimp only [log]
        exact List.append_assoc ..
      · intro caller
        constructor
        · exact fun own => .inr ⟨own, returned⟩
        · rintro ((begun | switched) | ⟨own, -⟩)
          · exact begun.elim
          · exact switched.elim
          · exact own
      · exact fun both => both.2

theorem step_effect {w : Updater} (running : w.Running) (a : UpdaterInput) :
    ∃ cs, (w.step a).calls = w.calls ++ cs ∧ w.Effect a cs := by
  cases a with
  | request n ackErr i => exact request_effect w n ackErr i
  | receive r bootErr => exact receive_effect running r bootErr
  | download d => exact download_effect w d
  | downloadReceive r => exact downloadReceive_effect running r

end Updater

/-! Runs. -/

/-- Where nothing is closed, no handle may be followed by a call that it has to be closed by. -/
theorem closedInTime_iff {calls : List OtaCall} (unclosed : ∀ c ∈ calls, c.closes = false) :
    ClosedInTime calls ↔ calls.Pairwise Apart := by
  constructor
  · intro closed
    induction calls with
    | nil => exact .nil
    | cons c cs ih =>
      have later : ClosedInTime cs := fun before caller between d after split =>
        closed (c :: before) caller between d after (by rw [split, List.cons_append])
      have rest := ih (fun d mem => unclosed d (List.mem_cons_of_mem c mem)) later
      refine List.pairwise_cons.mpr ⟨?_, rest⟩
      rintro d mem caller rfl due
      -- The first call that the handle has to be closed by is behind one closing call.
      classical
      have found : (cs.find? fun c => decide (c.Due caller)).isSome :=
        List.find?_isSome.mpr ⟨d, mem, decide_eq_true due⟩
      obtain ⟨first, located⟩ := Option.isSome_iff_exists.mp found
      obtain ⟨first_due, between, after, split, earlier⟩ :=
        List.find?_eq_some_iff_append.mp located
      have silent : ∀ c ∈ between, c.begins = false := by
        intro c inside
        have not_due : ¬ c.Due caller :=
          of_decide_eq_false ((Bool.not_eq_true' _).mp (earlier c inside))
        cases c with
        | otaBegin other err => exact absurd trivial not_due
        | otaWrite | otaEnd | otaAbort | setBootPartition | downloadReturned => rfl
      have once := closed [] caller between first after (by rw [split, List.nil_append]) silent
        (of_decide_eq_true first_due)
      have none_closes : between.countP OtaCall.closes = 0 := by
        rw [List.countP_eq_zero]
        intro c inside closes
        have open_call := unclosed c (by simp [split, inside])
        rw [closes] at open_call
        cases open_call
      omega
  · intro apart before caller between d after split _ due
    rw [split] at apart
    have behind := (List.pairwise_cons.mp (List.pairwise_append.mp apart).2.1).1
    exact absurd due (behind d (by simp) caller rfl)

namespace Updater

/-- No call is made that a handle has to be closed by. -/
def Spare (w : Updater) (a : UpdaterInput) : Prop :=
  (w.Begins a ∨ w.Switches a → ∀ caller, ¬ w.Opened caller) ∧
    (w.Returns a → ¬ w.Opened .download ∧ ¬ w.Obtains a)

structure Kept (w : Updater) : Prop where
  running : w.Running
  unclosed : ∀ c ∈ w.calls, c.closes = false

theorem start_kept : start.Kept := ⟨⟨nofun, nofun⟩, List.forall_mem_nil _⟩

theorem finish_running {w : Updater} (h : w.Running) (recvErr bootErr : Int) :
    (w.finish recvErr bootErr).Running := by
  unfold finish
  dsimp only
  split
  · split
    · exact ⟨nofun, h.download⟩
    · exact ⟨nofun, nofun⟩
  · exact ⟨nofun, h.download⟩

theorem step_running {w : Updater} (h : w.Running) (a : UpdaterInput) : (w.step a).Running := by
  cases a with
  | request n ackErr i =>
    simp only [step]
    split
    · unfold request
      split
      · exact h
      · split
        · exact h
        · refine ⟨fun s same => ?_, h.download⟩
          obtain rfl := Option.some.inj same
          rfl
    · exact h
  | receive r bootErr =>
    simp only [step]
    split
    · exact h
    · rename_i s session
      split
      · rename_i goes_on
        refine ⟨fun t same => ?_, h.download⟩
        obtain rfl := Option.some.inj same
        exact goes_on
      · exact finish_running (w := w.log _) ⟨h.session, h.download⟩ _ _
  | download d =>
    simp only [step]
    split
    · exact h
    · by_cases proceeds : d.Proceeds
      · rw [otaTftpDownload_proceeds proceeds]
        refine ⟨h.session, fun t same => ?_⟩
        obtain rfl := Option.some.inj same
        rfl
      · obtain ⟨err, stopped⟩ := otaTftpDownload_stops proceeds
        rw [stopped]
        exact ⟨h.session, h.download⟩
  | downloadReceive r =>
    simp only [step]
    split
    · exact h
    · rename_i s download
      split
      · rename_i goes_on
        refine ⟨h.session, fun t same => ?_⟩
        obtain rfl := Option.some.inj same
        exact goes_on
      · exact ⟨h.session, nofun⟩

theorem step_kept {w : Updater} (h : w.Kept) (a : UpdaterInput) : (w.step a).Kept := by
  obtain ⟨cs, calls, effect⟩ := step_effect h.running a
  refine ⟨step_running h.running a, ?_⟩
  rw [calls]
  exact List.forall_mem_append.mpr ⟨h.unclosed, effect.unclosed⟩

theorem step_closed_iff {w : Updater} (h : w.Kept) (closed : ClosedInTime w.calls)
    (a : UpdaterInput) : ClosedInTime (w.step a).calls ↔ w.Spare a := by
  obtain ⟨cs, calls, effect⟩ := step_effect h.running a
  rw [closedInTime_iff (step_kept h a).unclosed, calls, List.pairwise_append,
    and_iff_right ((closedInTime_iff h.unclosed).mp closed), effect.apart]
  have across : (∀ c ∈ w.calls, ∀ d ∈ cs, Apart c d) ↔
      ∀ caller, w.Opened caller →
        ¬ ((w.Begins a ∨ w.Switches a) ∨ caller = .download ∧ w.Returns a) := by
    constructor
    · intro apart caller opened due
      obtain ⟨d, mem, is_due⟩ := (effect.due caller).mpr due
      exact apart _ opened d mem caller rfl is_due
    · rintro free c opened d mem caller rfl is_due
      exact free caller opened ((effect.due caller).mp ⟨d, mem, is_due⟩)
  rw [across]
  constructor
  · rintro ⟨alone, free⟩
    refine ⟨fun due caller opened => free caller opened (.inl due), fun returned => ⟨?_, ?_⟩⟩
    · exact fun opened => free .download opened (.inr ⟨rfl, returned⟩)
    · exact fun obtained => alone ⟨returned, obtained⟩
  · rintro ⟨unopened, alone⟩
    refine ⟨fun both => (alone both.1).2 both.2, ?_⟩
    rintro caller opened (due | ⟨rfl, returned⟩)
    · exact unopened due caller opened
    · exact (alone returned).1 opened

/-- The handles are closed as they should be exactly in the runs in which none has to be: no
successful `esp_ota_begin` is followed by another one, by the end of an upload or by the return of
the download that it was called for. -/
theorem handles_closed_iff (as : List UpdaterInput) :
    Runs.Throughout step (fun w => ClosedInTime w.calls) start as ↔
      Runs.Along step Spare start as := by
  apply Runs.throughout_iff_along (I := Kept) fun _ a h => step_kept h a
  · exact fun _ a h closed => step_closed_iff h closed a
  · exact start_kept
  · exact (closedInTime_iff start_kept.unclosed).mpr .nil

def oneByte : Reception where
  result := .datagram ⟨[0, 3, 0, 1, 0x41], [], Task.client, by decide⟩
  rawOpcode := (0, 0)
  rawBlock := (0, 0)
  otaErr := fun _ => errOk
  ackErr := errOk

/-- An upload in which every call succeeds. -/
def oneUpload : List UpdaterInput :=
  [.request Task.writeRequest 0 ⟨some 0, some 0, some 1, errOk⟩, .receive oneByte errOk]

/-- The boot partition is switched with the handle of the image still open. -/
theorem upload_not_closed :
    ¬ Runs.Throughout step (fun w => ClosedInTime w.calls) start oneUpload := by
  intro closed
  have last := (Runs.throughout_iff_prefix _ _).mp closed _ (List.prefix_refl _)
  have calls : (oneUpload.foldl step start).calls =
      [.otaBegin .server errOk, .otaWrite errOk, .setBootPartition errOk] := by decide
  have once := last [] .server [.otaWrite errOk] (.setBootPartition errOk) [] calls
    (by decide) trivial
  exact absurd once (by decide)

/-! The server is the machine of `Task`. -/

def ofTask : TaskInput → UpdaterInput
  | .request n ackErr i => .request n ackErr i
  | .receive r _ bootErr => .receive r bootErr

theorem step_ofTask {w : Updater} {t : Task} (same : w.session = t.session) (a : TaskInput) :
    (w.step (ofTask a)).session = (t.step a).session := by
  cases a with
  | request n ackErr i =>
    simp only [ofTask, step, Task.step, same]
    cases session : t.session with
    | some s => exact same
    | none =>
      simp only [request, Task.request]
      cases checkRequest n with
      | error answer => cases answer <;> exact same
      | ok =>
        dsimp only
        split
        · exact same
        · rfl
  | receive r behind bootErr =>
    simp only [ofTask, step, Task.step, same]
    cases session : t.session with
    | none => exact same
    | some s =>
      dsimp only
      cases (s.step r).result with
      | none => rfl
      | some recvErr =>
        simp only [finish, Task.finish]
        split
        · split <;> rfl
        · rfl

theorem server_follows (as : List TaskInput) :
    ((as.map ofTask).foldl step start).session = (as.foldl Task.step Task.start).session := by
  rw [List.foldl_map]
  have keeps : ∀ (w : Updater) (t : Task) a, w.session = t.session →
      (w.step (ofTask a)).session = (t.step a).session := fun w t a same => step_ofTask same a
  exact Runs.simulation keeps rfl as

end Updater

end Rocom.Tftp
