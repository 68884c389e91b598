import Rocom.Tftp.Request

/-! Which datagrams `tftp_task` takes for a write request. -/
namespace Rocom.Tftp

open CString (strcmp text)

/-- `tolower` of a byte. -/
def lower (b : UInt8) : UInt8 := if 0x41 ≤ b ∧ b ≤ 0x5a then b + 0x20 else b

/-- A request to write the firmware file, with anything behind the mode. -/
def wrqPacket (mode rest : List UInt8) : List UInt8 :=
  [0, 2] ++ (tftpFirmwareFile ++ 0 :: (mode ++ 0 :: rest))

/-- The request with a mode that the test accepts. -/
def Requests (accepts : List UInt8 → Prop) (n : Netbuf) : Prop :=
  ∃ mode rest, n.bytes = wrqPacket mode rest ∧ 0 ∉ mode ∧ accepts mode

def IsOctet (mode : List UInt8) : Prop := mode.map lower = tftpOctetMode

instance (mode : List UInt8) : Decidable (IsOctet mode) :=
  inferInstanceAs (Decidable (mode.map lower = tftpOctetMode))

/-! What the checks let through. -/

theorem toNat_word (b0 b1 : UInt8) :
    ((b0.toUInt16 <<< 8) ||| b1.toUInt16).toNat = b0.toNat * 2 ^ 8 + b1.toNat := by
  have low := b1.toNat_lt
  have high := b0.toNat_lt
  have count : (8 : UInt16).toNat % 16 = 8 := rfl
  have room : b0.toNat * 2 ^ 8 < 2 ^ 16 := by omega
  have shifted : (b0.toUInt16 <<< 8).toNat = b0.toNat <<< 8 := by
    rw [UInt16.toNat_shiftLeft, count, UInt8.toNat_toUInt16, Nat.shiftLeft_eq,
      Nat.mod_eq_of_lt room]
  rw [UInt16.toNat_or, shifted, UInt8.toNat_toUInt16, ← Nat.shiftLeft_add_eq_or_of_lt low,
    Nat.shiftLeft_eq]

theorem opcode_iff {n : Netbuf} (enough : 2 ≤ netbufLen n) (raw : UInt8 × UInt8) :
    netbufReadU16N n 0 raw = tftpOpWrq ↔ n.bytes = [0, 2] ++ n.bytes.drop 2 := by
  unfold netbufLen at enough
  match bytes : n.bytes with
  | b0 :: b1 :: rest =>
    have value : netbufReadU16N n 0 raw = (b0.toUInt16 <<< 8) ||| b1.toUInt16 := by
      rw [netbufReadU16N, bytes]
      rfl
    have low := b1.toNat_lt
    rw [value, ← UInt16.toNat_inj, toNat_word]
    constructor
    · intro two
      have wrq : (tftpOpWrq : UInt16).toNat = 2 := rfl
      have first : b0 = 0 := UInt8.toNat_inj.mp (show b0.toNat = 0 by omega)
      have second : b1 = 2 := UInt8.toNat_inj.mp (show b1.toNat = 2 by omega)
      rw [first, second]
      rfl
    · intro same
      injection same with first same
      injection same with second _
      rw [first, second]
      rfl
  | [] | [_] => simp [bytes] at enough

theorem firmwareFile_noNul : 0 ∉ tftpFirmwareFile := by decide

theorem octetMode_noNul : 0 ∉ tftpOctetMode := by decide

theorem text_field {chars : List UInt8} (noNul : 0 ∉ chars) : text (chars ++ [0]) = chars := by
  rw [CString.text_append_nul, CString.text_of_notMem noNul]

theorem filename_passes (chars : List UInt8) (noNul : 0 ∉ chars) :
    decide (strcmp (chars ++ [0]) tftpFirmwareFile ≠ 0) = false ↔ chars = tftpFirmwareFile := by
  rw [decide_eq_false_iff_not, not_not, CString.strcmp_eq_zero_iff, text_field noNul,
    CString.text_of_notMem firmwareFile_noNul]

theorem mode_passes (chars : List UInt8) (noNul : 0 ∉ chars) :
    decide (strcmp tftpOctetMode (chars ++ [0]) ≠ 0) = false ↔ chars = tftpOctetMode := by
  rw [decide_eq_false_iff_not, not_not, CString.strcmp_eq_zero_iff, text_field noNul,
    CString.text_of_notMem octetMode_noNul]
  exact eq_comm

theorem fields_pass_iff (n : Netbuf) :
    ((tftpGetField 0 n).all (fun filename => strcmp filename tftpFirmwareFile ≠ 0) = false ∧
        (tftpGetField 1 n).all (fun mode => strcmp tftpOctetMode mode ≠ 0) = false) ↔
      ∃ rest, n.bytes.drop 2 = tftpFirmwareFile ++ 0 :: (tftpOctetMode ++ 0 :: rest) := by
  have zero : tftpGetField 0 n = CString.field 0 (n.bytes.drop 2) := tftpGetField_eq 0 n
  have one : tftpGetField 1 n = CString.field 1 (n.bytes.drop 2) := tftpGetField_eq 1 n
  rw [zero, one, CString.first_field_passes_iff firmwareFile_noNul filename_passes]
  constructor
  · rintro ⟨⟨behind, split⟩, mode⟩
    rw [split, CString.field_succ_append firmwareFile_noNul,
      CString.first_field_passes_iff octetMode_noNul mode_passes] at mode
    obtain ⟨rest, rfl⟩ := mode
    exact ⟨rest, split⟩
  · rintro ⟨rest, split⟩
    refine ⟨⟨_, split⟩, ?_⟩
    rw [split, CString.field_succ_append firmwareFile_noNul,
      CString.first_field_passes_iff octetMode_noNul mode_passes]
    exact ⟨rest, rfl⟩

theorem checkRequest_ok_iff (n : Netbuf) :
    checkRequest n = .ok () ↔ ∃ rest, n.bytes = wrqPacket tftpOctetMode rest := by
  have fields := fields_pass_iff n
  constructor
  · intro ok
    unfold checkRequest at ok
    split at ok
    · cases ok
    rename_i long
    split at ok
    · cases ok
    rename_i wrq
    split at ok
    · cases ok
    rename_i filename
    split at ok
    · cases ok
    rename_i mode
    obtain ⟨rest, split⟩ := fields.mp
      ⟨Bool.eq_false_iff.mpr filename, Bool.eq_false_iff.mpr mode⟩
    refine ⟨rest, ?_⟩
    rw [(opcode_iff (by omega) (0, 0)).mp (not_not.mp wrq), split]
    rfl
  · rintro ⟨rest, packet⟩
    have long : ¬ netbufLen n < 6 := by
      rw [netbufLen, packet]
      simp [wrqPacket, tftpFirmwareFile]
    have wrq : netbufReadU16N n 0 (0, 0) = tftpOpWrq := by
      rw [opcode_iff (by omega), packet]
      rfl
    obtain ⟨filename, mode⟩ := fields.mpr ⟨rest, by rw [packet]; rfl⟩
    rw [checkRequest, if_neg long, if_neg (not_not.mpr wrq), filename, mode]
    rfl

/-! The server. -/

def Task.messages (w : Task) (a : TaskInput) : List Event := (w.step a).trace.drop w.trace.length

/-- A datagram that comes while the server waits for a request. -/
structure Answered (n : Netbuf) (w : Task) (ackErr : Int) (i : OtaInit) : Prop where
  acknowledges : .ack 0 ∈ w.messages (.request n ackErr i) ↔ Requests IsOctet n
  transfers : (w.step (.request n ackErr i)).session.isSome ↔ Requests IsOctet n ∧ ackErr = 0
  waits : ¬ Requests IsOctet n →
    ∃ es, w.step (.request n ackErr i) = { w with trace := w.trace ++ es }

/-- The mode is written in another case. -/
def OtherCase (mode : List UInt8) : Prop := IsOctet mode ∧ mode ≠ tftpOctetMode

theorem other_case_refused {n : Netbuf} (other : Requests OtherCase n) :
    checkRequest n ≠ .ok () := by
  rw [Ne, checkRequest_ok_iff]
  rintro ⟨rest', octet⟩
  obtain ⟨mode, rest, packet, noNul, -, differs⟩ := other
  rw [packet] at octet
  have behind := (CString.append_nul_inj firmwareFile_noNul firmwareFile_noNul
    (List.append_cancel_left octet)).2
  exact differs (CString.append_nul_inj noNul octetMode_noNul behind).1

theorem requests_iff (n : Netbuf) :
    Requests IsOctet n ↔ checkRequest n = .ok () ∨ Requests OtherCase n := by
  rw [checkRequest_ok_iff]
  constructor
  · rintro ⟨mode, rest, packet, noNul, octet⟩
    by_cases same : mode = tftpOctetMode
    · subst same
      exact .inl ⟨rest, packet⟩
    · exact .inr ⟨mode, rest, packet, noNul, octet, same⟩
  · rintro (⟨rest, packet⟩ | ⟨mode, rest, packet, noNul, octet, -⟩)
    · exact ⟨tftpOctetMode, rest, packet, octetMode_noNul, by decide⟩
    · exact ⟨mode, rest, packet, noNul, octet⟩

theorem checkRequest_error {n : Netbuf} (refused : checkRequest n ≠ .ok ()) :
    checkRequest n = .error none ∨
      ∃ code msg, checkRequest n = .error (some (.error code msg)) := by
  unfold checkRequest at refused ⊢
  split
  · exact .inl rfl
  · split
    · exact .inl rfl
    · split
      · exact .inr ⟨_, _, rfl⟩
      · split
        · exact .inr ⟨_, _, rfl⟩
        · simp_all

theorem Task.step_waiting {w : Task} (waiting : w.session = none) (n : Netbuf) (ackErr : Int)
    (i : OtaInit) : w.step (.request n ackErr i) = w.request n ackErr i := by
  simp only [step, waiting]

/-- A refused datagram is answered with an error message, or not at all. -/
theorem Task.step_refused {w : Task} (waiting : w.session = none) {n : Netbuf}
    (refused : checkRequest n ≠ .ok ()) (ackErr : Int) (i : OtaInit) :
    ∃ es, w.step (.request n ackErr i) = { w with trace := w.trace ++ es } ∧ .ack 0 ∉ es := by
  rw [step_waiting waiting, request]
  rcases checkRequest_error refused with silent | ⟨code, msg, answered⟩
  · rw [silent]
    exact ⟨[], by rw [List.append_nil], nofun⟩
  · rw [answered]
    exact ⟨[.error code msg], rfl, by simp⟩

/-- An accepted one is acknowledged, and the transfer begins if that can be sent. -/
theorem Task.step_accepted {w : Task} (waiting : w.session = none) {n : Netbuf}
    (ok : checkRequest n = .ok ()) (ackErr : Int) (i : OtaInit) :
    (∃ es, (w.step (.request n ackErr i)).trace = w.trace ++ es ∧ .ack 0 ∈ es) ∧
      ((w.step (.request n ackErr i)).session.isSome ↔ ackErr = 0) := by
  rw [step_waiting waiting, request, ok]
  dsimp only
  by_cases sent : ackErr = 0
  · obtain ⟨updatePart, image, same⟩ := otaTftpInit_eq ((w.log (.connect n.peer)).log (.ack 0)) i
    rw [if_neg (not_not.mpr sent), same]
    exact ⟨⟨[.connect n.peer, .ack 0], by simp [log], by simp⟩, iff_of_true rfl sent⟩
  · rw [if_pos sent]
    refine ⟨⟨[.connect n.peer, .ack 0, .disconnect], by simp [log], by simp⟩, ?_⟩
    refine iff_of_false ?_ sent
    simp [log, waiting]

/-- A server that waits for a request answers a datagram as the grammar says, except for a mode
that is written in another case. -/
theorem write_request_iff {w : Task} (waiting : w.session = none) (n : Netbuf) (ackErr : Int)
    (i : OtaInit) : Answered n w ackErr i ↔ ¬ Requests OtherCase n := by
  by_cases ok : checkRequest n = .ok ()
  · have wanted : Requests IsOctet n := (requests_iff n).mpr (.inl ok)
    obtain ⟨⟨es, trace, acked⟩, session⟩ := Task.step_accepted waiting ok ackErr i
    refine iff_of_true ⟨?_, ?_, fun other => absurd wanted other⟩
      fun other => other_case_refused other ok
    · rw [Task.messages, trace, List.drop_left]
      exact iff_of_true acked wanted
    · rw [session]
      exact (and_iff_right wanted).symm
  · obtain ⟨es, state, unacked⟩ := Task.step_refused waiting ok ackErr i
    have silent : .ack 0 ∉ w.messages (.request n ackErr i) := by
      rw [Task.messages, state, List.drop_left]
      exact unacked
    have idle : ¬ (w.step (.request n ackErr i)).session.isSome := by
      rw [state, waiting]
      exact nofun
    constructor
    · intro answered other
      exact silent (answered.acknowledges.mpr ((requests_iff n).mpr (.inr other)))
    · intro exact_case
      have unwanted : ¬ Requests IsOctet n := by
        rw [requests_iff]
        exact not_or.mpr ⟨ok, exact_case⟩
      exact ⟨iff_of_false silent unwanted, iff_of_false idle fun both => unwanted both.1,
        fun _ => ⟨es, state⟩⟩

/-- A request with the mode "octet", or as it is written here. -/
def requestWith (mode : List UInt8) (small : mode.length < 2 ^ 15) : Netbuf where
  head := wrqPacket mode []
  tail := []
  peer := ⟨1, 1069⟩
  totLen := by
    simp only [wrqPacket, tftpFirmwareFile, List.length_append, List.length_cons, List.length_nil,
      List.flatten_nil]
    omega

theorem write_request_iff_octet :
    Answered (requestWith tftpOctetMode (by decide)) Task.start 0 ⟨some 0, some 0, some 1, errOk⟩ ↔
      ¬ Requests OtherCase (requestWith tftpOctetMode (by decide)) :=
  write_request_iff rfl _ 0 _

def upperOctet : List UInt8 := [0x4f, 0x43, 0x54, 0x45, 0x54]

theorem upper_octet_refused :
    ¬ Answered (requestWith upperOctet (by decide)) Task.start 0
      ⟨some 0, some 0, some 1, errOk⟩ := by
  intro answered
  have wanted : Requests IsOctet (requestWith upperOctet (by decide)) :=
    ⟨upperOctet, [], by decide, by decide, by decide⟩
  have acked := answered.acknowledges.mpr wanted
  exact absurd acked (by decide)

end Rocom.Tftp
