import Rocom.Rfc2217.Wire

/-! What a client has read of a wire on which frames are still being written. A frame of data is
read byte by byte; of any other frame nothing is read before its end. -/
namespace Rocom.Rfc2217

variable {τ : Type}

/-- What has been read so far, of each kind. -/
structure Decoded.IsPrefix (a b : Decoded) : Prop where
  data : a.data <+: b.data
  negotiations : a.negotiations <+: b.negotiations
  bodies : a.bodies <+: b.bodies

theorem Decoded.IsPrefix.refl (a : Decoded) : a.IsPrefix a :=
  ⟨List.prefix_rfl, List.prefix_rfl, List.prefix_rfl⟩

theorem Decoded.empty_isPrefix (a : Decoded) : Decoded.empty.IsPrefix a :=
  ⟨List.nil_prefix, List.nil_prefix, List.nil_prefix⟩

theorem Decoded.isPrefix_append (a b : Decoded) : a.IsPrefix (a.append b) :=
  ⟨List.prefix_append _ _, List.prefix_append _ _, List.prefix_append _ _⟩

theorem Decoded.IsPrefix.trans {a b c : Decoded} (h : a.IsPrefix b) (h' : b.IsPrefix c) :
    a.IsPrefix c :=
  ⟨h.data.trans h'.data, h.negotiations.trans h'.negotiations, h.bodies.trans h'.bodies⟩

theorem Decoded.IsPrefix.append {b c : Decoded} (a : Decoded) (h : b.IsPrefix c) :
    (a.append b).IsPrefix (a.append c) where
  data := (List.prefix_append_right_inj _).mpr h.data
  negotiations := (List.prefix_append_right_inj _).mpr h.negotiations
  bodies := (List.prefix_append_right_inj _).mpr h.bodies

/-- A cut through two strings lies in the first one or behind it. -/
theorem prefix_append_split {α : Type*} {p a b : List α} (h : p <+: a ++ b) :
    p <+: a ∨ ∃ q, p = a ++ q ∧ q <+: b := by
  obtain ⟨rest, same⟩ := h
  rcases List.append_eq_append_iff.mp same with ⟨more, rfl, _⟩ | ⟨q, rfl, rfl⟩
  · exact .inl (List.prefix_append _ _)
  · exact .inr ⟨q, rfl, List.prefix_append _ _⟩

section Frames
variable (client : Config τ) (r : Session τ)

theorem parse_iac (mode : r.server.telnetMode = .normal) :
    parse client r [tIac] = r.setMode .gotIac := by
  simp only [parse, List.foldl_cons, List.foldl_nil, parseByte, mode, if_true]

/-- A client that has read the first half of a doubled IAC waits for the second one. -/
theorem data_unfinished (reports : client.onDataReceived.isSome = true) (idle : Idle r.server)
    {p payload : List UInt8} (h : p <+: escapeIac payload) :
    ∃ body, body <+: payload ∧
      decoded (parse client r p).trace = (decoded r.trace).append ⟨body, [], []⟩ := by
  obtain ⟨body, within, cut⟩ := Stuffing.prefix_double h
  obtain ⟨still_idle, whole⟩ := decoded_data client reports r idle body
  refine ⟨body, within, ?_⟩
  rcases cut with rfl | rfl
  · exact whole
  · rw [parse_append, ← whole]
    exact congrArg (fun s => decoded s.trace) (parse_iac client _ still_idle.mode)

theorem option_unfinished (idle : Idle r.server) {action : UInt8} (valid : isOptionAction action)
    (option : UInt8) {p : List UInt8} (h : p <+: [tIac, action, option])
    (cut : p ≠ [tIac, action, option]) : (parse client r p).trace = r.trace := by
  have first := parse_iac client r idle.mode
  have second : (parse client r [tIac, action]).trace = r.trace := by
    rw [← List.singleton_append, parse_append, first]
    rcases valid with rfl | rfl | rfl | rfl <;> rfl
  match p, h, cut with
  | [], _, _ => rfl
  | [a], h, _ =>
    obtain rfl : a = tIac := (List.cons_prefix_cons.mp h).1
    rw [first]
    rfl
  | [a, b], h, _ =>
    obtain ⟨rfl, rest⟩ := List.cons_prefix_cons.mp h
    obtain rfl : b = action := (List.cons_prefix_cons.mp rest).1
    exact second
  | a :: b :: c :: rest, h, cut =>
    have whole := h.eq_of_length_le (by simp)
    exact absurd whole cut

/-- Nothing happens while a body that fits is collected. -/
theorem body_unfinished (collecting : r.server.collectingSuboption = true)
    (mode : r.server.telnetMode = .normal) {p body : List UInt8}
    (fits : r.server.suboptionSize + body.length ≤ suboptionCapacity)
    (h : p <+: escapeIac body) : (parse client r p).trace = r.trace := by
  obtain ⟨part, within, cut⟩ := Stuffing.prefix_double h
  have shorter := within.length_le
  obtain ⟨v, collected, -⟩ := store_fits client r part collecting (by omega)
  have escaped : parse client r (Stuffing.double tIac part) = _ :=
    (parse_escaped client r mode part).trans collected
  rcases cut with rfl | rfl
  · rw [escaped]
  · rw [parse_append, escaped]
    refine (congrArg Session.trace (parse_iac client _ ?_)).trans rfl
    exact mode

theorem subnegotiation_unfinished (idle : Idle r.server) {body : List UInt8}
    (fits : body.length ≤ suboptionCapacity) {p : List UInt8}
    (h : p <+: [tIac, tSb] ++ escapeIac body ++ [tIac, tSe])
    (cut : p ≠ [tIac, tSb] ++ escapeIac body ++ [tIac, tSe]) :
    (parse client r p).trace = r.trace := by
  have begun := parse_iacSb client r idle.mode
  have inside {q : List UInt8} (h : q <+: escapeIac body) :
      (parse client (beginSubnegotiation r) q).trace = r.trace :=
    body_unfinished client (beginSubnegotiation r) rfl rfl (by
      show 0 + body.length ≤ suboptionCapacity
      omega) h
  rw [List.append_assoc] at h cut
  rcases prefix_append_split h with head | ⟨q, rfl, behind⟩
  · match p, head with
    | [], _ => rfl
    | [a], head =>
      obtain rfl : a = tIac := (List.cons_prefix_cons.mp head).1
      rw [parse_iac client r idle.mode]
      rfl
    | a :: b :: rest, head =>
      obtain whole := head.eq_of_length_le (by simp)
      rw [whole, begun]
      rfl
  · rw [parse_append, begun]
    rcases prefix_append_split behind with part | ⟨tail, rfl, last⟩
    · exact inside part
    · -- What is left of the end is empty or its IAC.
      have collected := inside (List.prefix_refl (escapeIac body))
      have stays : (parse client (beginSubnegotiation r) (escapeIac body)).server.telnetMode =
          .normal := by
        rw [parse_escaped client _ rfl]
        exact Runs.invariant (fun s c h => (parseStore_mode client s c).trans h) _ rfl body
      rw [parse_append]
      match tail, last with
      | [], _ => exact collected
      | [a], last =>
        obtain rfl : a = tIac := (List.cons_prefix_cons.mp last).1
        rw [parse_iac client _ stays]
        exact collected
      | a :: b :: rest, last =>
        have whole := last.eq_of_length_le (by simp)
        exact absurd (by rw [whole]) cut

/-- A client that has read a frame up to any point has read a part of what it says. -/
theorem frame_unfinished (reports : client.onDataReceived.isSome = true) (idle : Idle r.server)
    {o : Output} (valid : o.Valid) {p : List UInt8} (h : p <+: o.frame) :
    ∃ read, read.IsPrefix o.meaning ∧
      decoded (parse client r p).trace = (decoded r.trace).append read := by
  by_cases whole : p = o.frame
  · rw [whole]
    exact ⟨o.meaning, .refl _, (parse_frame client reports r idle o valid).2⟩
  have nothing (same : (parse client r p).trace = r.trace) :
      ∃ read, read.IsPrefix o.meaning ∧
        decoded (parse client r p).trace = (decoded r.trace).append read :=
    ⟨.empty, Decoded.empty_isPrefix _, by rw [same, Decoded.append_empty]⟩
  cases o with
  | data payload =>
    obtain ⟨body, within, read⟩ := data_unfinished client r reports idle h
    exact ⟨⟨body, [], []⟩, ⟨within, List.prefix_rfl, List.prefix_rfl⟩, read⟩
  | option action opt => exact nothing (option_unfinished client r idle valid opt h whole)
  | subnegotiation command value =>
    have fits := valid.2
    rw [Output.frame, subnegotiationBuf_eq valid.1] at h whole
    refine nothing (subnegotiation_unfinished client r idle ?_ h whole)
    simp only [List.length_append, List.length_cons, List.length_nil, suboptionCapacity]
    omega

theorem frames_unfinished (reports : client.onDataReceived.isSome = true) (idle : Idle r.server)
    (os : List Output) (valid : ∀ o ∈ os, o.Valid) {p : List UInt8}
    (h : p <+: os.flatMap Output.frame) :
    ∃ read, read.IsPrefix (meanings os) ∧
      decoded (parse client r p).trace = (decoded r.trace).append read := by
  induction os generalizing r p with
  | nil =>
    obtain rfl : p = [] := List.prefix_nil.mp h
    exact ⟨.empty, .refl _, (Decoded.append_empty _).symm⟩
  | cons o os ih =>
    have first := valid o List.mem_cons_self
    rw [List.flatMap_cons] at h
    rcases prefix_append_split h with inside | ⟨q, rfl, behind⟩
    · obtain ⟨read, within, same⟩ := frame_unfinished client r reports idle first inside
      exact ⟨read, within.trans (Decoded.isPrefix_append _ _), same⟩
    · obtain ⟨still_idle, whole⟩ := parse_frame client reports r idle o first
      obtain ⟨read, within, same⟩ := ih (parse client r o.frame) still_idle
        (fun o ho => valid o (List.mem_cons_of_mem _ ho)) behind
      refine ⟨o.meaning.append read, within.append _, ?_⟩
      rw [parse_append, same, whole, Decoded.append_assoc]

end Frames

end Rocom.Rfc2217
