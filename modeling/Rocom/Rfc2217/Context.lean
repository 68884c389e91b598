import Rocom.Rfc2217.Reachable

/-! The context of the callbacks. The server only hands it on, so a property of it that every
callback keeps holds as long as the connection lasts. -/
namespace Rocom.Rfc2217

variable {σ : Type}

/-- Every callback of a running connection keeps the property. -/
structure Keeps (cfg : Config σ) (Q : σ → Prop) : Prop where
  connected : ∀ f, cfg.onClientConnected = some f → ∀ ctx, Q ctx → Q (f ctx)
  baudrate : ∀ f, cfg.onBaudrate = some f → ∀ ctx value, Q ctx → Q (f ctx value).2
  control : ∀ f, cfg.onControl = some f → ∀ ctx value, Q ctx → Q (f ctx value).2
  purge : ∀ f, cfg.onPurge = some f → ∀ ctx value, Q ctx → Q (f ctx value).2

section
variable {cfg : Config σ} {Q : σ → Prop} (keeps : Keeps cfg Q) (s : Session σ) (hs : Q s.ctx)
include hs

theorem optionSend_ctx (d : TelnetOptionDef) (action : UInt8) : Q (optionSend d s action).ctx := by
  unfold optionSend
  split <;> exact hs

theorem refuseUnknown_ctx (command option : UInt8) (known : Bool) :
    Q (refuseUnknown command option known s).ctx := by
  unfold refuseUnknown
  split
  · exact hs
  · split
    · exact hs
    · split <;> exact hs

theorem collectSuboption_ctx (c : UInt8) : Q (collectSuboption s c).ctx := hs

theorem onDataReceived_ctx (data : List UInt8) : Q (onDataReceived cfg s data).ctx := by
  rw [onDataReceived_eq]
  split <;> exact hs

theorem parseStore_ctx (c : UInt8) : Q (parseStore cfg s c).ctx := by
  unfold parseStore
  split
  · exact collectSuboption_ctx s hs c
  · exact onDataReceived_ctx s hs [c]

include keeps

theorem onClientOk_ctx : Q (onClientOk cfg s).ctx := by
  unfold onClientOk
  split
  · exact hs
  · cases connected : cfg.onClientConnected with
    | none => exact hs
    | some f => exact keeps.connected f connected s.ctx hs

theorem optionActivated_ctx (d : TelnetOptionDef) : Q (optionActivated cfg d s).ctx := by
  unfold optionActivated
  split
  · exact onClientOk_ctx keeps s hs
  · exact hs

theorem telnetOptionProcessIncoming_ctx (o : TelnetOption) (command : UInt8) :
    Q (telnetOptionProcessIncoming cfg s o command).1.ctx := by
  unfold telnetOptionProcessIncoming
  split
  · cases o.state with
    | requested => exact optionActivated_ctx keeps s hs o.defn
    | active => exact hs
    | inactive =>
      exact optionActivated_ctx keeps _ (optionSend_ctx s hs o.defn o.defn.sendYes) o.defn
    | reallyInactive => exact optionSend_ctx s hs o.defn o.defn.sendNo
  · split
    · cases o.state with
      | active => exact optionSend_ctx s hs o.defn o.defn.sendNo
      | requested | inactive | reallyInactive => exact hs
    · exact hs

theorem negotiateSends_ctx (command option : UInt8) (os : List TelnetOption) :
    Q (negotiateSends cfg command option s os).ctx := by
  induction os generalizing s with
  | nil => exact hs
  | cons o os ih =>
    rw [negotiateSends, List.foldl_cons]
    split
    · exact ih _ (telnetOptionProcessIncoming_ctx keeps s hs o command)
    · exact ih s hs

theorem telnetNegotiateOption_ctx (command option : UInt8) :
    Q (telnetNegotiateOption cfg s command option).ctx := by
  rw [telnetNegotiateOption_eq, negotiateOn]
  apply refuseUnknown_ctx
  exact negotiateSends_ctx keeps (s.log (.negotiate command option)) hs command option _

theorem answer_ctx (sub : Vector UInt8 suboptionCapacity) : Q (answer cfg s.ctx sub).ctx := by
  have asked : ∀ (c : Option (σ → UInt32 → UInt32 × σ)),
      (∀ f, c = some f → ∀ ctx value, Q ctx → Q (f ctx value).2) →
        ∀ value, Q (callback c s.ctx value).2 := by
    intro c kept value
    cases c with
    | none => exact hs
    | some f => exact kept f rfl s.ctx value hs
  have given := answer_cases cfg s.ctx sub
  generalize answer cfg s.ctx sub = a at given ⊢
  cases given with
  | nothing | echo => exact hs
  | baudrate => exact asked cfg.onBaudrate keeps.baudrate _
  | control => exact asked cfg.onControl keeps.control _
  | purge => exact asked cfg.onPurge keeps.purge _

theorem afterIac_ctx (c : UInt8) : Q (afterIac cfg s c).ctx := by
  unfold afterIac
  split
  · exact hs
  · split
    · show Q (processSubnegotiation cfg s).ctx
      rw [processSubnegotiation_eq]
      exact answer_ctx keeps s hs s.server.suboption
    · split <;> exact hs

theorem parseByte_ctx (c : UInt8) : Q (parseByte cfg s c).ctx := by
  unfold parseByte
  split
  · split
    · exact hs
    · exact parseStore_ctx s hs c
  · split
    · exact parseStore_ctx s hs c
    · exact afterIac_ctx keeps s hs c
  · exact telnetNegotiateOption_ctx keeps s hs s.server.telnetCommand c

theorem processReceivedOverTcp_ctx (chunk : List UInt8) :
    Q (processReceivedOverTcp cfg s chunk).ctx := by
  unfold processReceivedOverTcp
  split
  · exact onDataReceived_ctx s hs chunk
  · have same := congrArg Outcome.ctx (processBytes_outcome cfg (rfl : outcome s = outcome s) chunk)
    simp only [outcome, processBytes] at same
    rw [same]
    exact Runs.invariant (P := fun t : Session σ => Q t.ctx)
      (fun t c ht => parseByte_ctx keeps t ht c) s hs chunk

end

end Rocom.Rfc2217
