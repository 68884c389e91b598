import Mathlib.Data.List.Nodup
import Rocom.Rfc2217.Reachable

/-! Option agreement. One entry of the table is followed through a negotiation together with
the two frames it may send. The initial REQUESTED state has sent nothing, and only the
entries for RFC2217 have a function to send with. -/
namespace Rocom.Rfc2217

variable {σ : Type}

def Event.isSend : Event → Bool
  | .send _ => true
  | _ => false

/-- The buffers given to `tcp_send`. -/
def sends (t : List Event) : List Event := t.filter Event.isSend

@[simp] theorem sends_append (t u : List Event) : sends (t ++ u) = sends t ++ sends u :=
  List.filter_append t u

/-- `true` for the entry's `send_yes` frame and `false` for its `send_no` frame. -/
def Event.signal (d : TelnetOptionDef) : Event → Option Bool
  | .send buf =>
    if buf = [tIac, d.sendYes, d.option] then some true
    else if buf = [tIac, d.sendNo, d.option] then some false
    else none
  | _ => none

def signals (d : TelnetOptionDef) (t : List Event) : List Bool := t.filterMap (Event.signal d)

@[simp] theorem signals_append (d : TelnetOptionDef) (t u : List Event) :
    signals d (t ++ u) = signals d t ++ signals d u := List.filterMap_append

theorem signals_sends (d : TelnetOptionDef) (t : List Event) :
    signals d (sends t) = signals d t := by
  rw [signals, sends, List.filterMap_filter]
  apply List.filterMap_congr
  intro e _
  cases e <;> rfl

/-- What one entry's transition asks to send. -/
def transitionAction (o : TelnetOption) (command : UInt8) : Option UInt8 :=
  if command = o.defn.ackYes then
    match o.state with
    | .inactive => some o.defn.sendYes
    | .reallyInactive => some o.defn.sendNo
    | .requested | .active => none
  else if command = o.defn.ackNo then
    match o.state with
    | .active => some o.defn.sendNo
    | .requested | .inactive | .reallyInactive => none
  else none

def sendIfAble (d : TelnetOptionDef) (action : UInt8) : List Event :=
  if d.sendOptionCb then [.send [tIac, action, d.option]] else []

def optionSends (o : TelnetOption) (command : UInt8) : List Event :=
  match transitionAction o command with
  | some action => sendIfAble o.defn action
  | none => []

theorem transitionAction_cases {o : TelnetOption} {command action : UInt8}
    (h : transitionAction o command = some action) :
    action = o.defn.sendYes ∨ action = o.defn.sendNo := by
  unfold transitionAction at h
  split at h
  · cases state : o.state <;> simp_all
  · split at h
    · cases state : o.state <;> simp_all
    · cases h

theorem sends_optionSend (d : TelnetOptionDef) (s : Session σ) (action : UInt8) :
    sends (optionSend d s action).trace = sends s.trace ++ sendIfAble d action := by
  unfold optionSend sendIfAble
  split
  · exact sends_append _ _
  · rw [List.append_nil]

theorem sends_optionActivated (cfg : Config σ) (d : TelnetOptionDef) (s : Session σ) :
    sends (optionActivated cfg d s).trace = sends s.trace := by
  unfold optionActivated onClientOk
  split
  · split
    · rfl
    · cases cfg.onClientConnected with
      | none => rfl
      | some f => exact (sends_append _ _).trans (List.append_nil _)
  · rfl

theorem sends_processIncoming (cfg : Config σ) (s : Session σ) (o : TelnetOption)
    (command : UInt8) :
    sends (telnetOptionProcessIncoming cfg s o command).1.trace =
      sends s.trace ++ optionSends o command := by
  have nothing : sends s.trace = sends s.trace ++ [] := (List.append_nil _).symm
  unfold telnetOptionProcessIncoming optionSends transitionAction
  split
  · cases o.state with
    | requested => exact (sends_optionActivated cfg _ s).trans nothing
    | active => exact nothing
    | inactive => exact (sends_optionActivated cfg _ _).trans (sends_optionSend _ s _)
    | reallyInactive => exact sends_optionSend _ s _
  · split
    · cases o.state with
      | active => exact sends_optionSend _ s _
      | requested | inactive | reallyInactive => exact nothing
    · exact nothing

theorem sends_negotiateSends (cfg : Config σ) (command option : UInt8) (os : List TelnetOption)
    (s : Session σ) :
    sends (negotiateSends cfg command option s os).trace = sends s.trace ++
      os.flatMap fun o => if forOption option o then optionSends o command else [] := by
  induction os generalizing s with
  | nil => simp [negotiateSends]
  | cons o os ih =>
    rw [negotiateSends, List.foldl_cons, List.flatMap_cons, ← List.append_assoc]
    split
    · rw [← sends_processIncoming cfg]
      exact ih _
    · rw [List.append_nil]
      exact ih s

/-- No entry sends a frame of another entry. -/
theorem optionSends_other (d : TelnetOptionDef) (hd : d ∈ optionDefs) (o : TelnetOption)
    (ho : o.defn ∈ optionDefs) (other : o.defn ≠ d) (command : UInt8) :
    signals d (optionSends o command) = [] := by
  have frames : ∀ d ∈ optionDefs, ∀ d' ∈ optionDefs, d' ≠ d →
      signals d (sendIfAble d' d'.sendYes) = [] ∧ signals d (sendIfAble d' d'.sendNo) = [] := by
    decide
  obtain ⟨yes, no⟩ := frames d hd o.defn ho other
  unfold optionSends
  cases h : transitionAction o command with
  | none => rfl
  | some action =>
    rcases transitionAction_cases h with rfl | rfl
    · exact yes
    · exact no

theorem refusal_other (d : TelnetOptionDef) (command option : UInt8) (other : d.option ≠ option) :
    signals d (refusal command option) = [] := by
  have frame : ∀ action a : UInt8, [tIac, action, option] ≠ [tIac, a, d.option] := by
    intro action a same
    simp only [List.cons.injEq, and_true, true_and] at same
    exact other same.2.symm
  unfold refusal
  split
  · simp [signals, Event.signal, frame]
  split
  · simp [signals, Event.signal, frame]
  · rfl

/-! One entry of the table with the frames it has sent. -/

abbrev Entry := TelnetOption × List Bool

def entryStep (x : Entry) (c : UInt8 × UInt8) : Entry :=
  if x.1.defn.option = c.2 then
    (stepOption x.1 c.1, x.2 ++ signals x.1.defn (optionSends x.1 c.1))
  else x

/-- The entry of `d` in a session of this connection. -/
structure Follows (d : TelnetOptionDef) (x : Entry) (s : Session σ) : Prop where
  table : ∃ before after, s.server.telnetOptions = before ++ x.1 :: after ∧
    ∀ o ∈ before ++ after, o.defn ∈ optionDefs ∧ o.defn ≠ d
  defn : x.1.defn = d
  sent : signals d s.trace = x.2

def negotiateOne (cfg : Config σ) (s : Session σ) (c : UInt8 × UInt8) : Session σ :=
  telnetNegotiateOption cfg s c.1 c.2

def stepFor (c : UInt8 × UInt8) (o : TelnetOption) : TelnetOption :=
  if forOption c.2 o then stepOption o c.1 else o

theorem stepFor_defn (c : UInt8 × UInt8) (o : TelnetOption) : (stepFor c o).defn = o.defn := by
  unfold stepFor
  split
  · exact stepOption_defn o c.1
  · rfl

theorem entryStep_eq (x : Entry) (c : UInt8 × UInt8) :
    entryStep x c = (stepFor c x.1,
      x.2 ++ if forOption c.2 x.1 then signals x.1.defn (optionSends x.1 c.1) else []) := by
  by_cases h : x.1.defn.option = c.2 <;> simp [entryStep, stepFor, forOption, h]

theorem sends_refusal (command option : UInt8) :
    sends (refusal command option) = refusal command option := by
  unfold refusal
  split
  · rfl
  split
  · rfl
  · rfl

/-- What one negotiation sends: the answers of the option's entries, or the refusal. -/
theorem sends_negotiateOne (cfg : Config σ) (s : Session σ) (c : UInt8 × UInt8) :
    sends (negotiateOne cfg s c).trace = sends s.trace ++
      if s.server.telnetOptions.any (forOption c.2) then
        s.server.telnetOptions.flatMap fun o => if forOption c.2 o then optionSends o c.1 else []
      else refusal c.1 c.2 := by
  have logged : sends (s.log (.negotiate c.1 c.2)).trace = sends s.trace :=
    (sends_append _ _).trans (List.append_nil _)
  cases known : s.server.telnetOptions.any (forOption c.2) with
  | true =>
    have answers := sends_negotiateSends cfg c.1 c.2 s.server.telnetOptions
      (s.log (.negotiate c.1 c.2))
    rw [logged] at answers
    rw [negotiateOne, telnetNegotiateOption_eq, negotiateOn, known]
    exact answers
  | false =>
    rw [negotiateOne, telnetNegotiateOption_unknown cfg s c.1 c.2 (by simpa using known),
      refuseUnknown_refusal, sends_append, sends_refusal, logged, if_neg Bool.false_ne_true]

theorem signals_negotiateOne (cfg : Config σ) (d : TelnetOptionDef) (s : Session σ)
    (c : UInt8 × UInt8) (o : TelnetOption) (ho : o ∈ s.server.telnetOptions) (hd : o.defn = d) :
    signals d (negotiateOne cfg s c).trace = signals d s.trace ++
      s.server.telnetOptions.flatMap
        fun o => if forOption c.2 o then signals d (optionSends o c.1) else [] := by
  have split : ∀ os : List TelnetOption,
      signals d (os.flatMap fun o => if forOption c.2 o then optionSends o c.1 else []) =
        os.flatMap fun o => if forOption c.2 o then signals d (optionSends o c.1) else [] := by
    intro os
    rw [signals, List.filterMap_flatMap]
    apply List.flatMap_congr
    intro o _
    split <;> rfl
  rw [← signals_sends, sends_negotiateOne, signals_append, signals_sends]
  cases known : s.server.telnetOptions.any (forOption c.2) with
  | true => rw [if_pos rfl, split]
  | false =>
    have none_for : ∀ o ∈ s.server.telnetOptions, forOption c.2 o = false := by
      simpa using known
    have other : d.option ≠ c.2 := by
      intro same
      have missed := none_for o ho
      simp [forOption, hd, same] at missed
    rw [if_neg Bool.false_ne_true, refusal_other d c.1 c.2 other, ← split,
      List.flatMap_eq_nil_iff.mpr]
    · rfl
    · intro o ho
      rw [none_for o ho]
      rfl

theorem follows_step (cfg : Config σ) (d : TelnetOptionDef) (hd : d ∈ optionDefs) (x : Entry)
    (s : Session σ) (c : UInt8 × UInt8) (h : Follows d x s) :
    Follows d (entryStep x c) (negotiateOne cfg s c) := by
  obtain ⟨⟨before, after, table, others⟩, defn, sent⟩ := h
  have listed : x.1 ∈ s.server.telnetOptions := by
    rw [table]
    exact List.mem_append_right _ List.mem_cons_self
  have quiet : ∀ os : List TelnetOption, (∀ o ∈ os, o.defn ∈ optionDefs ∧ o.defn ≠ d) →
      (os.flatMap fun o => if forOption c.2 o then signals d (optionSends o c.1) else []) = [] := by
    intro os h
    rw [List.flatMap_eq_nil_iff]
    intro o ho
    rw [optionSends_other d hd o (h o ho).1 (h o ho).2, ite_self]
  have quietBefore := quiet before fun o ho => others o (List.mem_append_left _ ho)
  have quietAfter := quiet after fun o ho => others o (List.mem_append_right _ ho)
  rw [entryStep_eq]
  refine ⟨⟨before.map (stepFor c), after.map (stepFor c), ?_, ?_⟩, ?_, ?_⟩
  · have stepped : (negotiateOne cfg s c).server.telnetOptions =
        s.server.telnetOptions.map (stepFor c) :=
      telnetNegotiateOption_options cfg s c.1 c.2
    rw [stepped, table, List.map_append, List.map_cons]
  · intro o ho
    rw [← List.map_append] at ho
    obtain ⟨o', ho', rfl⟩ := List.mem_map.mp ho
    rw [stepFor_defn]
    exact others o' ho'
  · rw [stepFor_defn]
    exact defn
  · rw [signals_negotiateOne cfg d s c x.1 listed defn, sent, table, List.flatMap_append,
      List.flatMap_cons, quietBefore, quietAfter, List.nil_append, List.append_nil, defn]

theorem follows_start (d : TelnetOptionDef) (hd : d ∈ optionDefs) (s : Session σ) :
    Follows d (d.init, []) (newConnection s) := by
  obtain ⟨before, after, table⟩ := List.append_of_mem hd
  have distinct : optionDefs.Nodup := by decide
  refine ⟨⟨before.map TelnetOptionDef.init, after.map TelnetOptionDef.init, ?_, ?_⟩, rfl, rfl⟩
  · have start : (newConnection s).server.telnetOptions = telnetOptionsInit := rfl
    rw [start, telnetOptionsInit, table, List.map_append, List.map_cons]
  · intro o ho
    rw [← List.map_append] at ho
    obtain ⟨d', hd', rfl⟩ := List.mem_map.mp ho
    rw [table, List.nodup_middle, List.nodup_cons] at distinct
    refine ⟨?_, fun same => distinct.1 (same ▸ hd')⟩
    rw [table]
    simp only [List.mem_append, List.mem_cons] at hd' ⊢
    tauto

/-! Exactly which commands keep an entry's promise. -/

/-- An active entry has sent `send_yes` last. -/
def Promised (x : Entry) : Prop := x.1.active = true → x.2.getLast? = some true

/-- A positive answer finds the entry active, or inactive and able to send. -/
def KeepsPromise (x : Entry) (c : UInt8 × UInt8) : Prop :=
  c = (x.1.defn.ackYes, x.1.defn.option) →
    x.1.state = .active ∨ x.1.state = .inactive ∧ x.1.defn.sendOptionCb = true

structure Sane (x : Entry) : Prop where
  listed : x.1.defn ∈ optionDefs
  active : x.1.active = true ↔ x.1.state = .active
  possible : x.1.state ≠ .reallyInactive
  fresh : x.1.state = .requested → x.2 = []
  mute : x.1.defn.sendOptionCb = false → x.2 = []

theorem signals_sendIfAble : ∀ d ∈ optionDefs,
    signals d (sendIfAble d d.sendYes) = (if d.sendOptionCb then [true] else []) ∧
      signals d (sendIfAble d d.sendNo) = if d.sendOptionCb then [false] else [] := by
  decide

theorem ackNo_ne_ackYes : ∀ d ∈ optionDefs, d.ackNo ≠ d.ackYes := by decide

def TelnetOption.on (o : TelnetOption) : TelnetOption := { o with state := .active, active := true }

def TelnetOption.off (o : TelnetOption) : TelnetOption :=
  { o with state := .inactive, active := false }

theorem entryStep_yes (x : Entry) (sane : Sane x) :
    entryStep x (x.1.defn.ackYes, x.1.defn.option) =
      match x.1.state with
      | .requested => (x.1.on, x.2)
      | .inactive => (x.1.on, x.2 ++ if x.1.defn.sendOptionCb then [true] else [])
      | .active | .reallyInactive => x := by
  have sent := (signals_sendIfAble x.1.defn sane.listed).1
  cases h : x.1.state with
  | requested => simp [entryStep, stepOption, optionSends, transitionAction, h, signals,
      TelnetOption.on]
  | active => simp [entryStep, stepOption, optionSends, transitionAction, h, signals]
  | inactive => simp [entryStep, stepOption, optionSends, transitionAction, h, sent,
      TelnetOption.on]
  | reallyInactive => exact absurd h sane.possible

theorem entryStep_no (x : Entry) (sane : Sane x) :
    entryStep x (x.1.defn.ackNo, x.1.defn.option) =
      match x.1.state with
      | .requested => (x.1.off, x.2)
      | .active => (x.1.off, x.2 ++ if x.1.defn.sendOptionCb then [false] else [])
      | .inactive | .reallyInactive => x := by
  have sent := (signals_sendIfAble x.1.defn sane.listed).2
  have differ := ackNo_ne_ackYes x.1.defn sane.listed
  cases h : x.1.state with
  | requested => simp [entryStep, stepOption, optionSends, transitionAction, h, signals, differ,
      TelnetOption.off]
  | active => simp [entryStep, stepOption, optionSends, transitionAction, h, sent, differ,
      TelnetOption.off]
  | inactive => simp [entryStep, stepOption, optionSends, transitionAction, h, signals, differ]
  | reallyInactive => exact absurd h sane.possible

theorem entryStep_other (x : Entry) (c : UInt8 × UInt8)
    (yes : c ≠ (x.1.defn.ackYes, x.1.defn.option)) (no : c ≠ (x.1.defn.ackNo, x.1.defn.option)) :
    entryStep x c = x := by
  obtain ⟨command, option⟩ := c
  by_cases same : x.1.defn.option = option
  · subst same
    have notYes : command ≠ x.1.defn.ackYes := fun h => yes (h ▸ rfl)
    have notNo : command ≠ x.1.defn.ackNo := fun h => no (h ▸ rfl)
    simp [entryStep, stepOption, optionSends, transitionAction, notYes, notNo, signals]
  · simp [entryStep, same]

theorem sane_step (x : Entry) (c : UInt8 × UInt8) (sane : Sane x) : Sane (entryStep x c) := by
  have muteAlso : ∀ b, x.1.defn.sendOptionCb = false →
      x.2 ++ (if x.1.defn.sendOptionCb then [b] else []) = [] := by
    intro b h
    rw [h, sane.mute h]
    rfl
  have on : ∀ l, (x.1.defn.sendOptionCb = false → l = []) → Sane (x.1.on, l) :=
    fun _ mute => ⟨sane.listed, iff_of_true rfl rfl, nofun, nofun, mute⟩
  have off : ∀ l, (x.1.defn.sendOptionCb = false → l = []) → Sane (x.1.off, l) :=
    fun _ mute => ⟨sane.listed, iff_of_false nofun nofun, nofun, nofun, mute⟩
  by_cases yes : c = (x.1.defn.ackYes, x.1.defn.option)
  · rw [yes, entryStep_yes x sane]
    cases x.1.state with
    | requested => exact on _ sane.mute
    | inactive => exact on _ (muteAlso true)
    | active | reallyInactive => exact sane
  by_cases no : c = (x.1.defn.ackNo, x.1.defn.option)
  · rw [no, entryStep_no x sane]
    cases x.1.state with
    | requested => exact off _ sane.mute
    | active => exact off _ (muteAlso false)
    | inactive | reallyInactive => exact sane
  · rw [entryStep_other x c yes no]
    exact sane

/-- One command breaks the promise exactly when it activates silently. -/
theorem promised_step (x : Entry) (c : UInt8 × UInt8) (sane : Sane x) (promised : Promised x) :
    Promised (entryStep x c) ↔ KeepsPromise x c := by
  by_cases yes : c = (x.1.defn.ackYes, x.1.defn.option)
  · rw [yes, entryStep_yes x sane, KeepsPromise]
    cases h : x.1.state with
    | requested =>
      refine iff_of_false ?_ (by simp)
      intro sent
      have last := sent rfl
      rw [sane.fresh h] at last
      cases last
    | active => exact iff_of_true promised fun _ => .inl rfl
    | inactive =>
      cases able : x.1.defn.sendOptionCb with
      | true => exact iff_of_true (fun _ => by simp) fun _ => .inr ⟨rfl, rfl⟩
      | false =>
        refine iff_of_false ?_ (by simp)
        intro sent
        have last := sent rfl
        rw [sane.mute able] at last
        cases last
    | reallyInactive => exact absurd h sane.possible
  have keeps : KeepsPromise x c := fun h => absurd h yes
  refine iff_of_true ?_ keeps
  by_cases no : c = (x.1.defn.ackNo, x.1.defn.option)
  · rw [no, entryStep_no x sane]
    cases x.1.state with
    | requested | active => exact nofun
    | inactive | reallyInactive => exact promised
  · rw [entryStep_other x c yes no]
    exact promised

/-! The guard along a run, in terms of the commands alone. -/

/-- The first command that the entry reacts to. -/
def firstAnswer (d : TelnetOptionDef) (cs : List (UInt8 × UInt8)) : Option (UInt8 × UInt8) :=
  cs.find? fun c => c = (d.ackYes, d.option) || c = (d.ackNo, d.option)

/-- If the entry is ever granted, it can send, and was first refused if it starts as
REQUESTED. -/
def Confirmed (d : TelnetOptionDef) (cs : List (UInt8 × UInt8)) : Prop :=
  (d.ackYes, d.option) ∈ cs →
    d.sendOptionCb = true ∧
      (d.initialState = .requested → firstAnswer d cs = some (d.ackNo, d.option))

theorem entryStep_defn (x : Entry) (c : UInt8 × UInt8) : (entryStep x c).1.defn = x.1.defn := by
  rw [entryStep_eq]
  exact stepFor_defn c x.1

theorem entryStep_answered (x : Entry) (c : UInt8 × UInt8) (sane : Sane x)
    (answered : x.1.state ≠ .requested) : (entryStep x c).1.state ≠ .requested := by
  by_cases yes : c = (x.1.defn.ackYes, x.1.defn.option)
  · rw [yes, entryStep_yes x sane]
    cases h : x.1.state with
    | requested => exact absurd h answered
    | active | reallyInactive => exact answered
    | inactive => exact nofun
  by_cases no : c = (x.1.defn.ackNo, x.1.defn.option)
  · rw [no, entryStep_no x sane]
    cases h : x.1.state with
    | requested => exact absurd h answered
    | inactive | reallyInactive => exact answered
    | active => exact nofun
  · rw [entryStep_other x c yes no]
    exact answered

theorem keeps_able (x : Entry) (sane : Sane x) (able : x.1.defn.sendOptionCb = true)
    (answered : x.1.state ≠ .requested) (cs : List (UInt8 × UInt8)) :
    Runs.Along entryStep KeepsPromise x cs := by
  refine Runs.along_of_invariant
    (P := fun x => Sane x ∧ x.1.defn.sendOptionCb = true ∧ x.1.state ≠ .requested) ?_ ?_ x
    ⟨sane, able, answered⟩ cs
  · rintro x c ⟨sane, able, answered⟩
    refine ⟨sane_step x c sane, ?_, entryStep_answered x c sane answered⟩
    rw [entryStep_defn]
    exact able
  · rintro x c ⟨sane, able, answered⟩ _
    cases h : x.1.state with
    | requested => exact absurd h answered
    | active => exact .inl rfl
    | inactive => exact .inr ⟨rfl, able⟩
    | reallyInactive => exact absurd h sane.possible

theorem keeps_unable (x : Entry) (sane : Sane x) (unable : x.1.defn.sendOptionCb = false)
    (passive : x.1.state ≠ .active) (cs : List (UInt8 × UInt8)) :
    Runs.Along entryStep KeepsPromise x cs ↔ (x.1.defn.ackYes, x.1.defn.option) ∉ cs := by
  induction cs generalizing x with
  | nil => simp [Runs.Along]
  | cons c cs ih =>
    by_cases yes : c = (x.1.defn.ackYes, x.1.defn.option)
    · refine iff_of_false ?_ (by simp [yes])
      rintro ⟨keeps, _⟩
      rcases keeps yes with active | ⟨_, able⟩
      · exact passive active
      · rw [unable] at able
        cases able
    · have still : (entryStep x c).1.state ≠ .active := by
        by_cases no : c = (x.1.defn.ackNo, x.1.defn.option)
        · rw [no, entryStep_no x sane]
          cases h : x.1.state with
          | requested => exact fun h => by cases h
          | active => exact absurd h passive
          | inactive | reallyInactive => exact passive
        · rw [entryStep_other x c yes no]
          exact passive
      have rest := ih (entryStep x c) (sane_step x c sane)
        (by rw [entryStep_defn]; exact unable) still
      rw [entryStep_defn] at rest
      rw [Runs.Along, rest, List.mem_cons, not_or]
      exact and_congr_left fun _ => iff_of_true (fun h => absurd h yes) (Ne.symm yes)

theorem keeps_requested (x : Entry) (sane : Sane x) (able : x.1.defn.sendOptionCb = true)
    (waiting : x.1.state = .requested) (cs : List (UInt8 × UInt8)) :
    Runs.Along entryStep KeepsPromise x cs ↔
      ((x.1.defn.ackYes, x.1.defn.option) ∈ cs →
        firstAnswer x.1.defn cs = some (x.1.defn.ackNo, x.1.defn.option)) := by
  have differ := ackNo_ne_ackYes x.1.defn sane.listed
  induction cs with
  | nil => simp [Runs.Along]
  | cons c cs ih =>
    by_cases yes : c = (x.1.defn.ackYes, x.1.defn.option)
    · refine iff_of_false ?_ ?_
      · rintro ⟨keeps, _⟩
        rcases keeps yes with h | ⟨h, _⟩ <;> rw [waiting] at h <;> cases h
      · intro refused
        have first := refused (by simp [yes])
        simp [firstAnswer, yes, differ.symm] at first
    by_cases no : c = (x.1.defn.ackNo, x.1.defn.option)
    · refine iff_of_true ⟨fun h => absurd h yes, ?_⟩ fun _ => ?_
      · have refused : entryStep x c = (x.1.off, x.2) := by
          rw [no, entryStep_no x sane, waiting]
        have saneNext := sane_step x c sane
        rw [refused] at saneNext ⊢
        exact keeps_able _ saneNext able (fun h => by cases h) cs
      · simp [firstAnswer, no]
    · have first : firstAnswer x.1.defn (c :: cs) = firstAnswer x.1.defn cs := by
        simp [firstAnswer, yes, no]
      have granted : (x.1.defn.ackYes, x.1.defn.option) ∈ c :: cs ↔
          (x.1.defn.ackYes, x.1.defn.option) ∈ cs := by simp [Ne.symm yes]
      rw [Runs.Along, entryStep_other x c yes no, first, granted]
      exact (and_iff_right fun h => absurd h yes).trans ih

/-- An active entry of `d` has requested or acknowledged its option, and not refused it
since. -/
def Agreed (d : TelnetOptionDef) (s : Session σ) : Prop :=
  ∀ o ∈ s.server.telnetOptions, o.defn = d → o.active = true →
    (signals d s.trace).getLast? = some true

theorem agreed_iff (d : TelnetOptionDef) (x : Entry) (s : Session σ) (h : Follows d x s) :
    Agreed d s ↔ Promised x := by
  obtain ⟨⟨before, after, table, others⟩, defn, sent⟩ := h
  unfold Agreed Promised
  rw [table, sent]
  constructor
  · intro agreed
    exact agreed x.1 (List.mem_append_right _ List.mem_cons_self) defn
  · intro promised o ho same
    have only : o = x.1 := by
      rcases List.mem_append.mp ho with ho | ho
      · exact absurd same (others o (List.mem_append_left _ ho)).2
      rcases List.mem_cons.mp ho with rfl | ho
      · rfl
      · exact absurd same (others o (List.mem_append_right _ ho)).2
    rw [only]
    exact promised

/-- In every state of a negotiation, an entry keeps the agreement exactly when the commands
confirm it. -/
theorem option_agreement (cfg : Config σ) (s : Session σ) (d : TelnetOptionDef)
    (hd : d ∈ optionDefs) (cs : List (UInt8 × UInt8)) :
    Runs.Throughout (negotiateOne cfg) (Agreed d) (newConnection s) cs ↔ Confirmed d cs := by
  have starts : ∀ d ∈ optionDefs, d.initialState = .requested ∨ d.initialState = .inactive := by
    decide
  have sane : Sane (d.init, []) := by
    refine ⟨hd, ?_, ?_, fun _ => rfl, fun _ => rfl⟩ <;>
      rcases starts d hd with h | h <;> simp [TelnetOptionDef.init, h]
  have follow := Runs.throughout_simulation (R := fun s x => Follows d x s)
    (fun s x c h => follows_step cfg d hd x s c h) (fun s x h => agreed_iff d x s h)
    (follows_start d hd s) cs
  rw [follow, Runs.throughout_iff_along sane_step promised_step (d.init, []) sane nofun cs]
  cases able : d.sendOptionCb with
  | false =>
    have passive : d.init.state ≠ .active := by
      rcases starts d hd with h | h <;> simp [TelnetOptionDef.init, h]
    rw [keeps_unable _ sane able passive]
    simp [Confirmed, able, TelnetOptionDef.init]
  | true =>
    rcases starts d hd with requested | inactive
    · rw [keeps_requested _ sane able requested]
      simp [Confirmed, able, requested, TelnetOptionDef.init]
    · refine iff_of_true (keeps_able _ sane able ?_ cs) ?_
      · simp [TelnetOptionDef.init, inactive]
      · simp [Confirmed, able, inactive]

theorem option_agreement_they :
    Runs.Throughout (negotiateOne relayConfig)
        (Agreed ⟨tComPortOption, .inactive, tDo, tDont, tWill, tWont, true, true⟩)
        (newConnection (rfc2217ServerCreate ())) [(tWill, tComPortOption)] ↔
      Confirmed ⟨tComPortOption, .inactive, tDo, tDont, tWill, tWont, true, true⟩
        [(tWill, tComPortOption)] :=
  option_agreement relayConfig (rfc2217ServerCreate ()) _ (by decide) _

/-- IAC DO COM-PORT-OPTION on a new connection: the entry we-RFC2217 becomes active and
nothing is sent. -/
theorem granted_unrequested :
    let s := negotiateOne relayConfig (newConnection (rfc2217ServerCreate ()))
      (tDo, tComPortOption)
    ⟨⟨tComPortOption, .requested, tWill, tWont, tDo, tDont, true, true⟩, true, .active⟩ ∈
        s.server.telnetOptions ∧
      s.trace = [.negotiate tDo tComPortOption, .clientConnected] ∧
      ¬ Agreed ⟨tComPortOption, .requested, tWill, tWont, tDo, tDont, true, true⟩ s := by
  refine ⟨by decide, by decide, fun agreed => ?_⟩
  have last := agreed ⟨⟨tComPortOption, .requested, tWill, tWont, tDo, tDont, true, true⟩, true,
    .active⟩ (by decide) rfl rfl
  exact absurd last (by decide)

end Rocom.Rfc2217
