import Rocom.Tftp.Completion

/-! A whole upload to the server of main/ota-tftp.c, from its write request on: the device boots
the file that was sent exactly when the transfer completes. -/
namespace Rocom.Tftp

open StopAndWait (Served schedule)

/-! What is stored is what was sent, where no header is cut. -/

theorem stored_within {es : List Event} (within : SegmentsWithin es) (behind : ℕ → UInt8) :
    es.flatMap (Event.stored behind) = written es := by
  refine List.flatMap_congr fun e member => ?_
  cases e with
  | otaWrite segment len err =>
    have fits : len.toNat - segment.length = 0 := Nat.sub_eq_zero_of_le (within _ _ _ member)
    simp [Event.stored, Event.written, otaBytes, fits]
  | disconnect | connect | ack | error | progress => rfl

theorem calls_within {s : Session} {r : Reception} (running : s.result = none)
    (whole : ∀ n, r.result = .datagram n → n.Whole) : SegmentsWithin (s.calls r) := by
  have taken {n : Netbuf} (accepted : acceptedDatagram s.receiver r = some n) : n.Whole := by
    refine whole n ?_
    unfold acceptedDatagram at accepted
    cases received : r.result with
    | timeout | failed => simp [received] at accepted
    | datagram m =>
      simp only [received] at accepted
      split_ifs at accepted
      cases accepted
      rfl
  have step := Session.step_of_running running r
  cases receivePass_outcome s.receiver r with
  | idle es ignored quiet trace =>
    rw [Session.calls_of_step step trace]
    exact quiet.within
  | unwritten n before es accepted quiet writes failed trace =>
    rw [Session.calls_of_step step trace]
    exact quiet.within.append (writes.within (taken accepted))
  | stored n before after accepted quiet quiet' trace =>
    rw [Session.calls_of_step step trace]
    exact quiet.within.append (((allWritten_writes n).within (taken accepted)).append quiet'.within)

theorem brought_whole {file : List UInt8} {rs : List Reception} {as : List StopAndWait.Arrival}
    (brings : List.Forall₂ (Brings file) rs as) :
    ∀ r ∈ rs, ∀ n, r.result = .datagram n → n.Whole := by
  induction brings with
  | nil => nofun
  | cons first rest ih =>
    refine List.forall_mem_cons.mpr ⟨?_, ih⟩
    intro n received
    obtain ⟨k, -, data⟩ := first.fromTransfer n received
    exact data.header

namespace Task

/-- A pass of a session, with the memory behind its datagram and what the switch of the boot
partition would return. -/
abbrev Delivery := Reception × (ℕ → UInt8) × Int

def delivered (d : Delivery) : TaskInput := .receive d.1 d.2.1 d.2.2

theorem idle_ignores {w : Task} (idle : w.session = none) (ds : List Delivery) :
    (ds.map delivered).foldl step w = w := by
  induction ds with
  | nil => rfl
  | cons d ds ih =>
    have same : w.step (delivered d) = w := by simp only [step, delivered, idle]
    rw [List.map_cons, List.foldl_cons, same, ih]

theorem returned_stays {s : Session} {result : Int} (returned : s.result = some result)
    (rs : List Reception) : rs.foldl Session.step s = s := by
  induction rs with
  | nil => rfl
  | cons r rs ih => rw [List.foldl_cons, Session.step_of_returned returned, ih]

/-- One upload of the server is one session of `tftp_receive_data`. -/
theorem boots_run {ds : List Delivery}
    (whole : ∀ d ∈ ds, ∀ n, d.1.result = .datagram n → n.Whole) {w : Task} {s : Session}
    (session : w.session = some s) (running : s.result = none)
    (image : w.image = written s.receiver.trace) :
    let left := (ds.map Prod.fst).foldl Session.step s
    (left.result = some errOk → ∃ accepted,
      ((ds.map delivered).foldl step w).boots =
        w.boots ++ [⟨w.updatePart, written left.receiver.trace, accepted⟩]) ∧
    (left.result ≠ some errOk → ((ds.map delivered).foldl step w).boots = w.boots) := by
  induction ds generalizing w s with
  | nil =>
    intro left
    have waiting : left.result = none := running
    exact ⟨fun done => by simp [waiting] at done, fun _ => rfl⟩
  | cons d ds ih =>
    obtain ⟨now, later⟩ := List.forall_mem_cons.mp whole
    have within := calls_within running now
    have stored : (w.receive s d.1 d.2.1).image = written (s.step d.1).receiver.trace := by
      rw [Session.trace_step, written_append, ← stored_within within d.2.1, ← image]
      rfl
    simp only [List.map_cons, List.foldl_cons]
    cases result : (s.step d.1).result with
    | none =>
      have next : w.step (delivered d) = w.receive s d.1 d.2.1 := by
        simp only [step, delivered, session, result]
      rw [next]
      exact ih later rfl result stored
    | some e =>
      have next : w.step (delivered d) = (w.receive s d.1 d.2.1).finish e d.2.2 := by
        simp only [step, delivered, session, result]
      have idle : ((w.receive s d.1 d.2.1).finish e d.2.2).session = none := by
        unfold finish
        split
        · dsimp only
          split <;> rfl
        · rfl
      rw [next, idle_ignores idle, returned_stays result, result, finish_boots, stored]
      constructor
      · intro done
        rw [if_pos (Option.some.inj done)]
        exact ⟨_, rfl⟩
      · intro failed
        have error : e ≠ errOk := fun ok => failed (congrArg some ok)
        rw [if_neg error]
        exact List.append_nil _

theorem request_begins {w : Task} (idle : w.session = none) {n : Netbuf}
    (valid : checkRequest n = .ok ()) {i : OtaInit}
    (known : i.configuredPart ≠ none ∧ i.runningPart ≠ none) {part : Partition}
    (update : i.updatePart = some part) (begun : i.beginErr = errOk) :
    let next := w.step (.request n 0 i)
    next.session = some (Session.start none false) ∧ next.image = [] ∧
      next.updatePart = some part ∧ next.boots = w.boots := by
  simp [step, idle, request, valid, otaTftpInit, known, update, begun, log]

/-- After any history, a write request whose `ota_tftp_init` succeeds and a transfer without failed
calls: the device is set to boot the file exactly if a schedule of all the blocks has come. -/
theorem upload_boots {file : List UInt8} (short : file.length < 65535 * 512) {w : Task}
    (idle : w.session = none) {n : Netbuf} (valid : checkRequest n = .ok ()) {i : OtaInit}
    (known : i.configuredPart ≠ none ∧ i.runningPart ≠ none) {part : Partition}
    (update : i.updatePart = some part) (begun : i.beginErr = errOk) {ds : List Delivery}
    {as : List StopAndWait.Arrival} (brings : List.Forall₂ (Brings file) (ds.map Prod.fst) as)
    (smooth : ∀ r ∈ ds.map Prod.fst, Smooth r) :
    let left := (TaskInput.request n 0 i :: ds.map delivered).foldl step w
    ((∃ rounds, Served patience (blockCount file) rounds ∧ schedule 1 rounds <+: as) →
      ∃ accepted, left.boots = w.boots ++ [⟨some part, file, accepted⟩]) ∧
    ((¬ ∃ rounds, Served patience (blockCount file) rounds ∧ schedule 1 rounds <+: as) →
      left.boots = w.boots) := by
  intro left
  obtain ⟨session, image, updates, boots⟩ := request_begins idle valid known update begun
  have whole : ∀ d ∈ ds, ∀ n, d.1.result = .datagram n → n.Whole :=
    fun d member => brought_whole brings d.1 (List.mem_map_of_mem member)
  obtain ⟨booted, kept⟩ := boots_run whole session rfl image
  have completes := session_done_iff short none false brings smooth
  rw [updates, boots] at booted
  constructor
  · intro scheduled
    have done := completes.mpr scheduled
    obtain ⟨accepted, same⟩ := booted done
    obtain ⟨bytes, -⟩ := session_complete short none false brings done
    rw [← bytes]
    exact ⟨accepted, same⟩
  · intro unscheduled
    exact (kept fun done => unscheduled (completes.mp done)).trans boots

def allFound : OtaInit := ⟨some 0, some 0, some 1, errOk⟩

def twoBlocksDelivered : List Delivery := twoBlocksSent.map fun r => (r, fun _ => 0xff, 0)

theorem twoBlocksDelivered_fst : twoBlocksDelivered.map Prod.fst = twoBlocksSent := by
  rw [twoBlocksDelivered, List.map_map]
  exact List.map_id _

theorem upload_boots_twice :
    ∃ accepted, ((TaskInput.request writeRequest 0 allFound ::
        twoBlocksDelivered.map delivered).foldl step start).boots =
      [⟨some 1, twoBlocks, accepted⟩] := by
  have accepts : checkRequest writeRequest = .ok () := by rfl
  have found : allFound.configuredPart ≠ none ∧ allFound.runningPart ≠ none := by decide
  obtain ⟨booted, -⟩ := upload_boots twoBlocks_short (w := start) rfl accepts found rfl rfl
    (twoBlocksDelivered_fst ▸ twoBlocks_brings) (twoBlocksDelivered_fst ▸ twoBlocks_smooth)
  exact booted ⟨_, twoBlocks_served, List.prefix_rfl⟩

end Task

end Rocom.Tftp
