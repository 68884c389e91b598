import Rocom.Rfc2217.Stream

/-! Reachable sessions. A connection starts from whatever the last one left behind and takes
any chunks; what the byte machine keeps therefore holds of every reachable server. -/
namespace Rocom.Rfc2217

variable {σ : Type}

def Reached (cfg : Config σ) (s : Session σ) : Prop :=
  ∃ before chunks, s = receive cfg before chunks

/-- A new connection with a log of its own. -/
def newConnection (s : Session σ) : Session σ := { startConnection s with trace := [] }

theorem process_server_cases (cfg : Config σ) (s : Session σ) (chunk : List UInt8) :
    (processReceivedOverTcp cfg s chunk).server = s.server ∨
      (processReceivedOverTcp cfg s chunk).server = (parse cfg s chunk).server := by
  unfold processReceivedOverTcp
  split
  · exact .inl (onDataReceived_server cfg s chunk)
  · exact .inr (congrArg Outcome.server (processBytes_outcome cfg rfl chunk))

/-- An invariant of the byte machine, whichever path the chunk takes. -/
theorem process_invariant {P : Server → Prop} (cfg : Config σ)
    (byte : ∀ (s : Session σ) (c : UInt8), P s.server → P (parseByte cfg s c).server)
    (s : Session σ) (hs : P s.server) (chunk : List UInt8) :
    P (processReceivedOverTcp cfg s chunk).server := by
  have parsed : P (parse cfg s chunk).server :=
    Runs.invariant (P := fun s : Session σ => P s.server) byte s hs chunk
  rcases process_server_cases cfg s chunk with h | h
  · exact h ▸ hs
  · exact h ▸ parsed

theorem reached_invariant {P : Server → Prop} (cfg : Config σ)
    (start : ∀ s : Session σ, P (startConnection s).server)
    (byte : ∀ (s : Session σ) (c : UInt8), P s.server → P (parseByte cfg s c).server)
    (s : Session σ) (reached : Reached cfg s) : P s.server := by
  obtain ⟨before, chunks, rfl⟩ := reached
  exact Runs.invariant (P := fun s : Session σ => P s.server)
    (fun s chunk hs => process_invariant cfg byte s hs chunk) _ (start before) chunks

/-! The option table keeps its definitions. -/

def definitions (server : Server) : List TelnetOptionDef := server.telnetOptions.map (·.defn)

@[simp] theorem stepOption_defn (o : TelnetOption) (command : UInt8) :
    (stepOption o command).defn = o.defn := by
  unfold stepOption
  split
  · cases o.state <;> rfl
  · split
    · cases o.state <;> rfl
    · rfl

theorem telnetNegotiateOption_options (cfg : Config σ) (s : Session σ) (command option : UInt8) :
    (telnetNegotiateOption cfg s command option).server.telnetOptions =
      s.server.telnetOptions.map fun o => if forOption option o then stepOption o command else o := by
  rw [telnetNegotiateOption_eq, negotiateOn, refuseUnknown_server]
  rfl

theorem parseStore_options (cfg : Config σ) (s : Session σ) (c : UInt8) :
    (parseStore cfg s c).server.telnetOptions = s.server.telnetOptions := by
  unfold parseStore
  split
  · by_cases room : s.server.suboptionSize < suboptionCapacity
    · rw [collectSuboption_room s c room]
    · rw [collectSuboption_full s c room]
  · rw [onDataReceived_server]

theorem afterIac_options (cfg : Config σ) (s : Session σ) (c : UInt8) :
    (afterIac cfg s c).server.telnetOptions = s.server.telnetOptions := by
  have kept := congrArg Server.telnetOptions (processSubnegotiation_server cfg s)
  unfold afterIac
  split
  · rfl
  split
  · exact kept
  split
  · rfl
  · rfl

/-- Only the last byte of a negotiation touches the table. -/
theorem parseByte_options (cfg : Config σ) (s : Session σ) (c : UInt8) :
    (parseByte cfg s c).server.telnetOptions =
      if s.server.telnetMode = .negotiate then
        s.server.telnetOptions.map fun o =>
          if forOption c o then stepOption o s.server.telnetCommand else o
      else s.server.telnetOptions := by
  unfold parseByte
  cases h : s.server.telnetMode with
  | normal =>
    simp only [reduceCtorEq, if_false]
    split
    · rfl
    · exact parseStore_options cfg s c
  | gotIac =>
    simp only [reduceCtorEq, if_false]
    split
    · exact parseStore_options cfg s c
    · exact afterIac_options cfg s c
  | negotiate =>
    simp only [if_true]
    exact telnetNegotiateOption_options cfg s _ c

theorem definitions_step (option command : UInt8) (os : List TelnetOption) :
    (os.map fun o => if forOption option o then stepOption o command else o).map (·.defn) =
      os.map (·.defn) := by
  rw [List.map_map]
  apply List.map_congr_left
  intro o _
  simp only [Function.comp_apply]
  split
  · exact stepOption_defn o command
  · rfl

theorem definitions_parseByte (cfg : Config σ) (s : Session σ) (c : UInt8) :
    definitions (parseByte cfg s c).server = definitions s.server := by
  rw [definitions, parseByte_options]
  split
  · exact definitions_step c _ _
  · rfl

theorem definitions_process (cfg : Config σ) (s : Session σ) (chunk : List UInt8) :
    definitions (processReceivedOverTcp cfg s chunk).server = definitions s.server :=
  process_invariant (P := fun server => definitions server = definitions s.server) cfg
    (fun t c kept => (definitions_parseByte cfg t c).trans kept) s rfl chunk

theorem reached_definitions (cfg : Config σ) (s : Session σ) (reached : Reached cfg s) :
    definitions s.server = optionDefs :=
  reached_invariant (P := fun server => definitions server = optionDefs) cfg (fun _ => rfl)
    (fun s c hs => (definitions_parseByte cfg s c).trans hs) s reached

/-- An option that no entry is for is refused and nothing else happens. -/
theorem telnetNegotiateOption_unknown (cfg : Config σ) (s : Session σ) (command option : UInt8)
    (unknown : ∀ o ∈ s.server.telnetOptions, forOption option o = false) :
    telnetNegotiateOption cfg s command option =
      refuseUnknown command option false (s.log (.negotiate command option)) := by
  have entries : ∀ (os : List TelnetOption) (s : Session σ),
      (∀ o ∈ os, forOption option o = false) → negotiateSends cfg command option s os = s := by
    intro os
    induction os with
    | nil => exact fun _ _ => rfl
    | cons o os ih =>
      intro s h
      have ho := h o List.mem_cons_self
      have rest := ih s fun o ho => h o (List.mem_cons_of_mem _ ho)
      rw [negotiateSends, List.foldl_cons, ho]
      exact rest
  have table : (s.server.telnetOptions.map fun o =>
      if forOption option o then stepOption o command else o) = s.server.telnetOptions := by
    rw [List.map_congr_left (g := id), List.map_id]
    intro o ho
    simp only [unknown o ho, Bool.false_eq_true, if_false, id]
  have none : s.server.telnetOptions.any (forOption option) = false := by
    simpa using unknown
  rw [telnetNegotiateOption_eq, negotiateOn, none, table, entries _ _ unknown]
  rfl

end Rocom.Rfc2217
