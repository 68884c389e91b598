import Rocom.Rfc2217.Stream

/-! Subnegotiation frames. A body of at most sixteen bytes is collected and answered; a
longer one overflows the buffer in the middle of the frame, which does not end the frame:
the rest of the body is read as data and the closing IAC SE as a complete request. -/
namespace Rocom.Rfc2217

variable {σ : Type}

structure Idle (server : Server) : Prop where
  mode : server.telnetMode = .normal
  collecting : server.collectingSuboption = false

theorem take_succ_set (c : UInt8) (xs : List UInt8) (n : Nat) (h : n < xs.length) :
    (xs.set n c).take (n + 1) = xs.take n ++ [c] := by
  rw [List.take_add_one, List.take_set_of_le (Nat.le_refl n), List.getElem?_set_self h]
  rfl

/-- A body that fits is collected, and nothing else happens. -/
theorem store_fits (cfg : Config σ) (s : Session σ) (body : List UInt8)
    (collecting : s.server.collectingSuboption = true)
    (fits : s.server.suboptionSize + body.length ≤ suboptionCapacity) :
    ∃ v, body.foldl (parseStore cfg) s =
        ⟨{ s.server with
            suboption := v
            suboptionSize := s.server.suboptionSize + body.length }, s.ctx, s.trace⟩ ∧
      v.toList.take (s.server.suboptionSize + body.length) = bodyOf s.server ++ body := by
  induction body generalizing s with
  | nil => exact ⟨s.server.suboption, rfl, by simp [bodyOf]⟩
  | cons c body ih =>
    rw [List.length_cons] at fits
    have room : s.server.suboptionSize < suboptionCapacity := by omega
    have first : parseStore cfg s c = collectSuboption s c := by
      rw [parseStore, if_pos collecting]
    have hserver := collectSuboption_room s c room
    have used : bodyOf (collectSuboption s c).server = bodyOf s.server ++ [c] := by
      rw [hserver, bodyOf, Vector.toList_set]
      exact take_succ_set c _ _ (by simpa using room)
    obtain ⟨v, hfold, hbody⟩ := ih (collectSuboption s c)
      (by rw [hserver]; exact collecting) (by rw [hserver]; simp only; omega)
    refine ⟨v, ?_, ?_⟩
    · rw [List.foldl_cons, first, hfold, hserver]
      simp only [Session.mk.injEq, Server.mk.injEq, List.length_cons]
      refine ⟨?_, rfl, rfl⟩
      simp only [Nat.add_assoc, Nat.add_comm 1, and_self]
    · rw [used, hserver, List.append_assoc] at hbody
      rw [List.length_cons, Nat.add_comm body.length, ← Nat.add_assoc]
      exact hbody

def beginSubnegotiation (s : Session σ) : Session σ :=
  s.modify fun server =>
    { server with suboptionSize := 0, collectingSuboption := true, telnetMode := .normal }

theorem parse_iacSb (cfg : Config σ) (s : Session σ) (mode : s.server.telnetMode = .normal) :
    parse cfg s [tIac, tSb] = beginSubnegotiation s := by
  simp only [parse, List.foldl_cons, List.foldl_nil, parseByte, mode, if_true]
  rfl

/-- The session after IAC SE. -/
def endSubnegotiation (cfg : Config σ) (s : Session σ) : Session σ :=
  ⟨{ s.server with suboptionSize := 0, collectingSuboption := false, telnetMode := .normal },
    (answer cfg s.ctx s.server.suboption).ctx,
    s.trace ++ [.subnegotiation (bodyOf s.server)] ++
      (answer cfg s.ctx s.server.suboption).events⟩

theorem parse_iacSe (cfg : Config σ) (s : Session σ) (mode : s.server.telnetMode = .normal) :
    parse cfg s [tIac, tSe] = endSubnegotiation cfg s := by
  have first : parseByte cfg s tIac = s.setMode .gotIac := by simp only [parseByte, mode, if_true]
  have second : parseByte cfg (s.setMode .gotIac) tSe =
      (processSubnegotiation cfg (s.setMode .gotIac)).modify fun server =>
        { server with suboptionSize := 0, collectingSuboption := false, telnetMode := .normal } :=
    rfl
  simp only [parse, List.foldl_cons, List.foldl_nil, first, second, processSubnegotiation_eq]
  rfl

theorem parse_subnegotiation (cfg : Config σ) (s : Session σ)
    (mode : s.server.telnetMode = .normal) (body : List UInt8) :
    parse cfg s ([tIac, tSb] ++ escapeIac body ++ [tIac, tSe]) =
      endSubnegotiation cfg (body.foldl (parseStore cfg) (beginSubnegotiation s)) := by
  have stays : (body.foldl (parseStore cfg) (beginSubnegotiation s)).server.telnetMode = .normal :=
    Runs.invariant (fun s c h => (parseStore_mode cfg s c).trans h) _ rfl body
  rw [parse_append, parse_append, parse_iacSb cfg s mode, parse_escaped _ _ rfl,
    parse_iacSe cfg _ stays]

/-- A frame whose body fits: `v` is the buffer it leaves behind. -/
theorem parse_fitting (cfg : Config σ) (s : Session σ) (mode : s.server.telnetMode = .normal)
    (body : List UInt8) (fits : body.length ≤ suboptionCapacity) :
    ∃ v : Vector UInt8 suboptionCapacity, v.toList.take body.length = body ∧
      parse cfg s ([tIac, tSb] ++ escapeIac body ++ [tIac, tSe]) =
        ⟨{ s.server with
            suboption := v, suboptionSize := 0, collectingSuboption := false
            telnetMode := .normal },
          (answer cfg s.ctx v).ctx,
          s.trace ++ [.subnegotiation body] ++ (answer cfg s.ctx v).events⟩ := by
  obtain ⟨v, hfold, hbody⟩ := store_fits cfg (beginSubnegotiation s) body rfl
    (by simpa [beginSubnegotiation, Session.modify] using fits)
  have collected : v.toList.take body.length = body := by
    simpa [beginSubnegotiation, Session.modify, bodyOf] using hbody
  refine ⟨v, collected, ?_⟩
  rw [parse_subnegotiation cfg s mode, hfold]
  simp only [endSubnegotiation, bodyOf, beginSubnegotiation, Session.modify, Nat.zero_add, collected]

end Rocom.Rfc2217
