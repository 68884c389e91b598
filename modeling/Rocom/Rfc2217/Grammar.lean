import Rocom.Lib.PrefixCode
import Rocom.Rfc2217.Wire

/-! The telnet stream as a language. Its units form a prefix code, so every stream is one list
of units and the front of another; the byte machine performs the units one by one. -/
namespace Rocom.Rfc2217

variable {σ : Type}

/-- What may follow an IAC and is a command without an option. -/
def isPlainCommand (c : UInt8) : Prop := c ≠ tIac ∧ ¬ isOptionAction c

inductive Lexeme where
  | data (c : UInt8)
  | command (c : UInt8) (plain : isPlainCommand c)
  | negotiate (action option : UInt8) (valid : isOptionAction action)

def Lexeme.code : Lexeme → List UInt8
  | .data c => Stuffing.double tIac [c]
  | .command c _ => [tIac, c]
  | .negotiate action option _ => [tIac, action, option]

theorem ne_iac_of_isOptionAction {a : UInt8} (valid : isOptionAction a) : a ≠ tIac := by
  rcases valid with rfl | rfl | rfl | rfl <;> decide

@[simp] theorem code_data_iac : (Lexeme.data tIac).code = [tIac, tIac] := rfl

theorem code_data_of_ne {c : UInt8} (h : c ≠ tIac) : (Lexeme.data c).code = [c] :=
  Stuffing.double_cons_of_ne h []

@[simp] theorem code_command (c : UInt8) (plain : isPlainCommand c) :
    (Lexeme.command c plain).code = [tIac, c] := rfl

@[simp] theorem code_negotiate (action option : UInt8) (valid : isOptionAction action) :
    (Lexeme.negotiate action option valid).code = [tIac, action, option] := rfl

/-- No unit stands in front of another one: the byte behind an IAC tells how the unit goes on. -/
theorem isPrefixCode_code : PrefixCode.IsPrefixCode Lexeme.code where
  nonempty v := by
    cases v with
    | data c => by_cases h : c = tIac <;> simp [h, code_data_of_ne]
    | command c plain => simp
    | negotiate action option valid => simp
  free v w front := by
    cases v with
    | data c =>
      by_cases hc : c = tIac
      · subst hc
        cases w with
        | data d =>
          by_cases hd : d = tIac
          · rw [hd]
          · simp [code_data_of_ne hd, List.cons_prefix_cons] at front
        | command d plain =>
          simp only [code_data_iac, code_command, List.cons_prefix_cons, true_and] at front
          exact absurd front.1.symm plain.1
        | negotiate action option valid =>
          simp only [code_data_iac, code_negotiate, List.cons_prefix_cons, true_and] at front
          exact absurd front.1.symm (ne_iac_of_isOptionAction valid)
      · rw [code_data_of_ne hc] at front
        cases w with
        | data d =>
          by_cases hd : d = tIac
          · rw [hd, code_data_iac, List.cons_prefix_cons] at front
            exact absurd front.1 hc
          · rw [code_data_of_ne hd, List.cons_prefix_cons] at front
            rw [front.1]
        | command d plain => exact absurd (List.cons_prefix_cons.mp front).1 hc
        | negotiate action option valid => exact absurd (List.cons_prefix_cons.mp front).1 hc
    | command c plain =>
      cases w with
      | data d =>
        by_cases hd : d = tIac
        · simp only [hd, code_data_iac, code_command, List.cons_prefix_cons, true_and] at front
          exact absurd front.1 plain.1
        · simp [code_data_of_ne hd, code_command, List.cons_prefix_cons] at front
      | command d _ =>
        simp only [code_command, List.cons_prefix_cons, true_and] at front
        simp only [front.1]
      | negotiate action option valid =>
        simp only [code_command, code_negotiate, List.cons_prefix_cons, true_and] at front
        exact absurd (front.1 ▸ valid) plain.2
    | negotiate action option valid =>
      cases w with
      | data d =>
        by_cases hd : d = tIac
        · simp [hd, List.cons_prefix_cons] at front
        · simp [code_data_of_ne hd, code_negotiate, List.cons_prefix_cons] at front
      | command d plain => simp [code_command, code_negotiate, List.cons_prefix_cons] at front
      | negotiate action' option' _ =>
        simp only [code_negotiate, List.cons_prefix_cons, true_and] at front
        simp only [front.1, front.2.1]

/-- What may stand behind the last whole unit. -/
theorem unfinished_iff (rest : List UInt8) :
    PrefixCode.Unfinished Lexeme.code rest ↔
      rest = [] ∨ rest = [tIac] ∨ ∃ action, isOptionAction action ∧ rest = [tIac, action] := by
  constructor
  · intro unfinished
    match rest with
    | [] => exact .inl rfl
    | c :: tail =>
      have first : c = tIac := by
        by_contra hc
        refine unfinished (.data c) ?_
        rw [code_data_of_ne hc]
        exact ⟨tail, rfl⟩
      subst first
      match tail with
      | [] => exact .inr (.inl rfl)
      | d :: tail =>
        have second : isOptionAction d := by
          by_contra hd
          by_cases escaped : d = tIac
          · exact unfinished (.data tIac) ⟨tail, by rw [code_data_iac, escaped]; rfl⟩
          · exact unfinished (.command d ⟨escaped, hd⟩) ⟨tail, rfl⟩
        match tail with
        | [] => exact .inr (.inr ⟨d, second, rfl⟩)
        | option :: tail => exact absurd ⟨tail, rfl⟩ (unfinished (.negotiate d option second))
  · intro short w front
    have whole : w.code.length ≤ rest.length := front.length_le
    rcases short with rfl | rfl | ⟨action, valid, rfl⟩
    · exact isPrefixCode_code.nonempty w (List.prefix_nil.mp front)
    · cases w with
      | data c =>
        by_cases hc : c = tIac
        · simp [hc] at whole
        · rw [code_data_of_ne hc, List.cons_prefix_cons] at front
          exact hc front.1
      | command c plain => simp at whole
      | negotiate action option valid => simp at whole
    · cases w with
      | data c =>
        by_cases hc : c = tIac
        · simp only [hc, code_data_iac, List.cons_prefix_cons, true_and] at front
          exact ne_iac_of_isOptionAction valid front.1.symm
        · rw [code_data_of_ne hc, List.cons_prefix_cons] at front
          exact hc front.1
      | command c plain =>
        simp only [code_command, List.cons_prefix_cons, true_and] at front
        exact plain.2 (front.1 ▸ valid)
      | negotiate action' option _ => simp at whole

/-! ### What the units do -/

/-- One unit as a whole, given between two units. -/
def perform (cfg : Config σ) (s : Session σ) : Lexeme → Session σ
  | .data c => parseStore cfg s c
  | .command c _ => afterIac cfg s c
  | .negotiate action option _ =>
    (telnetNegotiateOption cfg
      (s.modify fun server => { server with telnetCommand := action, telnetMode := .negotiate })
      action option).setMode .normal

/-- The session while a unit is still to come. -/
def pending (s : Session σ) : List UInt8 → Session σ
  | [] => s
  | [_] => s.setMode .gotIac
  | _ :: action :: _ =>
    s.modify fun server => { server with telnetCommand := action, telnetMode := .negotiate }

/-- The handler of a command looks at the mode nowhere and leaves it behind. -/
theorem afterIac_setMode (cfg : Config σ) (s : Session σ) (mode : TelnetMode) (c : UInt8) :
    afterIac cfg (s.setMode mode) c = afterIac cfg s c := by
  unfold afterIac
  split
  · rfl
  split
  · rw [processSubnegotiation_eq, processSubnegotiation_eq]
    rfl
  split
  · rfl
  · rfl

theorem afterIac_plain_mode (cfg : Config σ) (s : Session σ) {c : UInt8} (plain : isPlainCommand c) :
    (afterIac cfg s c).server.telnetMode = .normal := by
  unfold afterIac
  split
  · rfl
  split
  · rfl
  split
  · rename_i action
    exact absurd action plain.2
  · rfl

theorem perform_mode (cfg : Config σ) (s : Session σ) (w : Lexeme)
    (mode : s.server.telnetMode = .normal) : (perform cfg s w).server.telnetMode = .normal := by
  cases w with
  | data c => exact (parseStore_mode cfg s c).trans mode
  | command c plain => exact afterIac_plain_mode cfg s plain
  | negotiate action option valid => rfl

/-- The bytes of one unit. -/
theorem parse_code (cfg : Config σ) (s : Session σ) (w : Lexeme)
    (mode : s.server.telnetMode = .normal) : parse cfg s w.code = perform cfg s w := by
  cases w with
  | data c => exact parse_escaped cfg s mode [c]
  | command c plain =>
    have first : parseByte cfg s tIac = s.setMode .gotIac := by simp only [parseByte, mode, if_true]
    have second : parseByte cfg (s.setMode .gotIac) c = afterIac cfg (s.setMode .gotIac) c :=
      if_neg plain.1
    simp only [Lexeme.code, parse, List.foldl_cons, List.foldl_nil, first, second,
      afterIac_setMode, perform]
  | negotiate action option valid => exact parse_option cfg s mode valid option

theorem parse_pending (cfg : Config σ) (s : Session σ) (mode : s.server.telnetMode = .normal)
    {rest : List UInt8} (unfinished : PrefixCode.Unfinished Lexeme.code rest) :
    parse cfg s rest = pending s rest := by
  have first : parseByte cfg s tIac = s.setMode .gotIac := by simp only [parseByte, mode, if_true]
  rcases (unfinished_iff rest).mp unfinished with rfl | rfl | ⟨action, valid, rfl⟩
  · rfl
  · exact first
  · simp only [parse, List.foldl_cons, List.foldl_nil, first]
    rcases valid with rfl | rfl | rfl | rfl <;> rfl

/-- A stream read as units is performed unit by unit. -/
theorem parse_reading (cfg : Config σ) (s : Session σ) (mode : s.server.telnetMode = .normal)
    {stream rest : List UInt8} {ws : List Lexeme}
    (reading : PrefixCode.Reads Lexeme.code stream ws rest) :
    parse cfg s stream = pending (ws.foldl (perform cfg) s) rest := by
  obtain ⟨units, idle⟩ := PrefixCode.foldl_encode
    (I := fun s : Session σ => s.server.telnetMode = .normal)
    (fun s w mode => parse_code cfg s w mode) (fun s w mode => perform_mode cfg s w mode) s mode ws
  rw [reading.stream_eq, parse_append, ← parse_pending cfg _ idle reading.unfinished]
  exact congrArg (parse cfg · rest) units

/-- A connection's stream has one reading, and the connection comes to what its units do in turn,
however the bytes were cut outside of the subnegotiations. -/
theorem units_in_turn (cfg : Config σ) (s : Session σ) (chunks : List (List UInt8))
    (direct : Undiverted cfg s chunks) :
    ∃ units rest, PrefixCode.Reads Lexeme.code chunks.flatten units rest ∧
      (∀ units' rest', PrefixCode.Reads Lexeme.code chunks.flatten units' rest' →
        units' = units ∧ rest' = rest) ∧
      (rest = [] ∨ rest = [tIac] ∨ ∃ action, isOptionAction action ∧ rest = [tIac, action]) ∧
      outcome (receive cfg s chunks) =
        outcome (pending (units.foldl (perform cfg) (startConnection s)) rest) := by
  obtain ⟨units, rest, reading⟩ := PrefixCode.reads_exists isPrefixCode_code chunks.flatten
  refine ⟨units, rest, reading, ?_, (unfinished_iff rest).mp reading.unfinished, ?_⟩
  · intro units' rest' other
    exact PrefixCode.reads_unique isPrefixCode_code other reading
  · rw [receive_outcome cfg s chunks direct, parse_reading cfg _ rfl reading]

/-- A doubled IAC, a negotiation and a subnegotiation, each cut in the middle, and an IAC at the
end. -/
def cutStream : List (List UInt8) :=
  [[97, tIac], [tIac, tIac, tWill], [tComPortOption, tIac, tSb, tComPortOption, tSetControl],
    [8, tIac], [tSe, tIac]]

theorem units_in_turn_cut :
    ∃ units rest, PrefixCode.Reads Lexeme.code cutStream.flatten units rest ∧
      (∀ units' rest', PrefixCode.Reads Lexeme.code cutStream.flatten units' rest' →
        units' = units ∧ rest' = rest) ∧
      (rest = [] ∨ rest = [tIac] ∨ ∃ action, isOptionAction action ∧ rest = [tIac, action]) ∧
      outcome (receive relayConfig (rfc2217ServerCreate ()) cutStream) =
        outcome (pending (units.foldl (perform relayConfig)
          (startConnection (rfc2217ServerCreate ()))) rest) :=
  units_in_turn relayConfig (rfc2217ServerCreate ()) cutStream (by unfold Undiverted; decide)

end Rocom.Rfc2217
