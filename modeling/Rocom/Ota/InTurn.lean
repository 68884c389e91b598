import Rocom.Ota.Mixing

/-! Uploads that take turns. The handler writes only what its `esp_ota_begin` has erased. -/
namespace Rocom.Ota

open Tftp

namespace HttpUpload

/-- The handle of the handler is open, or its image is complete. -/
def Begun (u : HttpUpload) : Prop := u.Live ∧ u.point ≠ .begin

instance (u : HttpUpload) : Decidable u.Begun := inferInstanceAs (Decidable (_ ∧ _))

/-- `remaining` is what is not yet written, and the bytes in hand are part of it. -/
structure Counted (u : HttpUpload) : Prop where
  rest : u.Begun → u.written.length + u.remaining.toNat = u.contentLen.toNat
  inHand : u.Begun → u.inHand.length ≤ u.remaining.toNat

variable {u : HttpUpload}

theorem counted_of_returned (returned : u.point = .returned) : u.Counted :=
  ⟨fun begun => absurd returned begun.1, fun begun => absurd returned begun.1⟩

theorem counted_of_loop {v : HttpUpload}
    (rest : v.written.length + v.remaining.toNat = v.contentLen.toNat) : v.loop.Counted where
  rest _ := rest
  inHand _ := by
    rw [inHand_of_loop (loop_point v)]
    exact Nat.zero_le _

theorem otaBegin_counted (empty : u.written = []) (err : Int) : (u.otaBegin err).Counted := by
  unfold otaBegin
  dsimp only
  split
  · exact counted_of_returned rfl
  · apply counted_of_loop
    have none_yet : u.calls.flatMap HttpCall.stored = [] := empty
    simp [written, log, none_yet, HttpCall.stored]

theorem recvSize_le (u : HttpUpload) : u.recvSize.toNat ≤ u.remaining.toNat := by
  unfold recvSize
  split
  · exact Nat.le_refl _
  · rename_i large
    exact UInt32.le_iff_toNat_le.mp (UInt32.not_lt.mp large)

theorem reqRecv_counted (h : u.Counted) (before : u.point = .recv) (r : HttpRecv) :
    (u.reqRecv r).Counted := by
  have rest := h.rest (by simp [Begun, Live, before])
  have kept : ∀ c : HttpCall, c.stored = [] → (u.log c).written = u.written := by
    intro c nothing
    simp [written, log, nothing]
  cases r with
  | data bytes =>
    unfold reqRecv
    dsimp only
    split
    · exact counted_of_returned rfl
    · constructor
      · intro _
        exact (congrArg (List.length · + u.remaining.toNat) (kept _ rfl)).trans rest
      · intro _
        have most := recvSize_le u
        simp only [HttpUpload.inHand, log, List.length_take]
        omega
  | failed e =>
    unfold reqRecv
    dsimp only
    split
    · constructor
      · intro _
        exact (congrArg (List.length · + u.remaining.toNat) (kept _ rfl)).trans rest
      · intro _
        simp [HttpUpload.inHand, log, before]
    · exact counted_of_returned rfl

theorem otaWrite_counted (h : u.Counted) {buff : List UInt8} (before : u.point = .write buff)
    (err : Int) : (u.otaWrite buff err).Counted := by
  have begun : u.Begun := by simp [Begun, Live, before]
  have rest := h.rest begun
  have part : buff.length ≤ u.remaining.toNat := by
    simpa [HttpUpload.inHand, before] using h.inHand begun
  have small := u.remaining.toNat_lt
  unfold otaWrite
  dsimp only
  split
  · exact counted_of_returned rfl
  · rename_i ok
    apply counted_of_loop
    have len : (UInt32.ofNat buff.length).toNat = buff.length := by
      rw [UInt32.toNat_ofNat']
      omega
    have left :
        (u.remaining - UInt32.ofNat buff.length).toNat = u.remaining.toNat - buff.length := by
      rw [UInt32.toNat_sub_of_le _ _ (UInt32.le_iff_toNat_le.mpr (by omega)), len]
    have more : (u.calls ++ [HttpCall.otaWrite buff err]).flatMap HttpCall.stored =
        u.written ++ buff := by
      simp [written, HttpCall.stored, not_not.mp ok]
    simp only [log, written, more, List.length_append, left]
    unfold written at rest
    omega

theorem step_counted (h : u.Counted) (unbegun : u.point = .begin → u.written = []) (a : HttpInput) :
    (u.step a).Counted := by
  cases a with
  | err e =>
    simp only [step]
    cases before : u.point with
    | begin => exact otaBegin_counted (unbegun before) e
    | write buff => exact otaWrite_counted h before e
    | finish =>
      unfold otaEnd
      dsimp only
      split
      · exact counted_of_returned rfl
      · have rest := h.rest (by simp [Begun, Live, before])
        constructor
        · intro _
          simpa [written, log, HttpCall.stored] using rest
        · intro _
          exact Nat.zero_le _
    | setBoot =>
      unfold setBootPartition
      dsimp only
      split
      · exact counted_of_returned rfl
      · exact counted_of_returned rfl
    | recv | returned => exact h
  | recv r =>
    simp only [step]
    cases before : u.point with
    | recv => exact reqRecv_counted h before r
    | begin | write | finish | setBoot | returned => exact h

theorem step_contentLen (u : HttpUpload) (a : HttpInput) : (u.step a).contentLen = u.contentLen := by
  cases a with
  | err e =>
    simp only [step]
    cases u.point with
    | begin => unfold otaBegin; dsimp only; split <;> rfl
    | write buff => unfold otaWrite; dsimp only; split <;> rfl
    | finish => unfold otaEnd; dsimp only; split <;> rfl
    | setBoot => unfold setBootPartition; dsimp only; split <;> rfl
    | recv | returned => rfl
  | recv r =>
    simp only [step]
    cases u.point with
    | recv =>
      cases r with
      | data bytes => unfold reqRecv; dsimp only; split <;> rfl
      | failed e => unfold reqRecv; dsimp only; split <;> rfl
    | begin | write | finish | setBoot | returned => rfl

/-- The image lies inside of what is erased for it. -/
theorem erases_image (u : HttpUpload) {i : Nat} (inside : i < u.contentLen.toNat) :
    ∀ n ∈ eraseBelow u.imageSize, i < n := by
  intro n erased
  unfold eraseBelow at erased
  split at erased
  · cases erased
  · rename_i known
    obtain rfl := Option.some.inj erased
    have size : u.imageSize = u.contentLen := by
      unfold imageSize at known ⊢
      split
      · rfl
      · rename_i empty
        rw [if_neg empty] at known
        exact absurd (Or.inr rfl) known
    rw [size]
    unfold flashSectorSize
    omega

end HttpUpload

namespace Uploads

/-- The step leaves the partition alone, or no upload of the other path is under way. -/
def InTurn (w : Uploads) (a : UploadsInput) : Prop :=
  (w.op a = none ∨
    match a with
    | .http _ => ¬ w.TftpLive
    | _ => ¬ w.http.Begun) ∧
  ∀ n ∈ w.accepts a, n.Whole

/-- What an upload still has to write lies in erased cells. -/
structure Fresh (c : Flash.Cell UInt8) (w : Uploads) : Prop where
  counted : w.http.Counted
  http : w.http.Begun → ∀ i, w.http.written.length ≤ i → i < w.http.contentLen.toNat →
    w.flash i = c.erased
  tftp : w.TftpLive → ∀ i, w.stored.length ≤ i → w.flash i = c.erased

variable {c : Flash.Cell UInt8} {w : Uploads}

theorem httpOp_takes (fresh : w.Fresh c) (a : HttpInput) :
    ∀ op ∈ w.op (.http a), op.Takes c w.flash := by
  intro op mem
  rw [op_http] at mem
  cases (w.http.step_calls a).2 with
  | quiet silent next =>
    rw [(quietCalls silent).op] at mem
    cases mem
  | begins before calls next =>
    rw [calls] at mem
    obtain rfl := Option.some.inj mem
    trivial
  | receives size buff before calls next =>
    rw [calls] at mem
    cases mem
  | writes buff before calls next =>
    rw [calls] at mem
    obtain rfl := Option.some.inj mem
    have begun : w.http.Begun := by simp [HttpUpload.Begun, HttpUpload.Live, before]
    have rest := fresh.counted.rest begun
    have part : buff.length ≤ w.http.remaining.toNat := by
      simpa [HttpUpload.inHand, before] using fresh.counted.inHand begun
    apply Flash.Op.takes_of_erased
    intro i inside
    exact fresh.http begun _ (Nat.le_add_right _ _) (by omega)
  | switches result msg before calls next =>
    rw [calls] at mem
    cases mem

theorem spares_of_inTurn (held : w.Held) (fresh : w.Fresh c) {a : UploadsInput}
    (turn : w.InTurn a) : w.Spares c a := by
  obtain ⟨alone, whole⟩ := turn
  refine fun _ => ⟨fun op mem => ⟨?_, ?_⟩, whole⟩
  · have quiet := alone.resolve_left (by rw [mem]; nofun)
    have nothing : w.otherHeld a = 0 := by
      cases a with
      | http a => exact if_neg quiet
      | request | receive | tftpWrite | tftpFinish =>
        unfold otherHeld
        dsimp only
        split
        · rename_i live
          have unbegun : w.http.point = .begin := by
            by_contra begun
            exact quiet ⟨live, begun⟩
          rw [held.http.unbegun unbegun]
          rfl
        · rfl
    rw [nothing]
    exact op.keeps_zero
  · intro live
    cases a with
    | http a => exact httpOp_takes fresh a op mem
    | request n ackErr i =>
      unfold Uploads.op at mem
      dsimp only at mem
      split at mem
      · obtain rfl := Option.some.inj mem
        trivial
      · cases mem
    | receive | tftpFinish => cases mem
    | tftpWrite =>
      unfold Uploads.op at mem
      cases next : w.writes with
      | nil =>
        rw [next] at mem
        cases mem
      | cons data rest =>
        rw [next] at mem
        obtain rfl := Option.some.inj mem
        exact Flash.Op.takes_of_erased _ _ fun i _ => fresh.tftp live _ (Nat.le_add_right _ _)

/-- The handler takes a step, while the other upload is not under way. -/
theorem httpStep_fresh (fresh : w.Fresh c) (a : HttpInput)
    (begun : (w.http.step a).Begun) :
    ∀ i, (w.http.step a).written.length ≤ i → i < (w.http.step a).contentLen.toNat →
      w.flashAfter c (.http a) i = c.erased := by
  have put := w.http.step_written a
  have op_eq := w.op_http a
  rw [HttpUpload.step_contentLen]
  intro i behind inside
  -- nothing is written, and the handle was open before
  have kept (was : w.http.Begun) (idle : w.op (.http a) = none)
      (same : (w.http.step a).written = w.http.written) :
      w.flashAfter c (.http a) i = c.erased := by
    rw [flashAfter_none idle]
    exact fresh.http was i (same ▸ behind) inside
  cases (w.http.step_calls a).2 with
  | quiet silent next =>
    obtain ⟨-, nothing, no_op, -⟩ := quietCalls silent
    rw [nothing, List.append_nil] at put
    refine kept ?_ (op_eq.trans (no_op _)) put
    rcases next with same | returned | ⟨before, -⟩
    · exact ⟨fun returned => begun.1 (same.trans returned), fun first => begun.2 (same.trans first)⟩
    · exact absurd returned begun.1
    · simp [HttpUpload.Begun, HttpUpload.Live, before]
  | begins before new next =>
    rw [flashAfter, op_eq, new]
    exact Flash.Op.erase_inside (w.http.erases_image inside)
  | receives size buff before new next =>
    rw [new] at put
    refine kept (by simp [HttpUpload.Begun, HttpUpload.Live, before]) ?_
      (by simpa [HttpCall.stored] using put)
    rw [op_eq, new]
    rfl
  | writes buff before new next =>
    rw [new] at put
    have more : (w.http.step a).written = w.http.written ++ buff := by
      simpa [HttpCall.stored] using put
    rw [more, List.length_append] at behind
    have was : w.http.Begun := by simp [HttpUpload.Begun, HttpUpload.Live, before]
    rw [flashAfter, op_eq, new]
    refine (Flash.Op.write_above _ buff behind).trans (fresh.http was i ?_ inside)
    omega
  | switches result msg before new next => exact absurd next begun.1

theorem tftpStep_fresh (fresh : w.Fresh c) {a : UploadsInput} (tftp : ∀ b, a ≠ .http b)
    (live : (w.handleInput a).TftpLive) :
    ∀ i, (w.handleInput a).stored.length ≤ i → w.flashAfter c a i = c.erased := by
  intro i behind
  cases a with
  | http b => exact absurd rfl (tftp b)
  | request n ackErr init =>
    unfold handleInput at live behind
    dsimp only at live behind
    split at live
    · rename_i free
      have opened : opens w.tftp n ackErr init = true := live.1
      have op_eq : w.op (.request n ackErr init) = some (.erase none) :=
        if_pos ⟨free.1, free.2, opened⟩
      rw [flashAfter, op_eq]
      have erased : (Flash.Op.erase none).apply c w.flash i = c.erased :=
        Flash.Op.erase_inside fun n mem => by cases mem
      exact erased
    · rename_i busy
      have idle : w.op (.request n ackErr init) = none :=
        if_neg fun opens => busy ⟨opens.1, opens.2.1⟩
      rw [if_neg busy] at behind
      rw [flashAfter_none idle]
      exact fresh.tftp live i behind
  | receive r memory =>
    have same : (w.handleInput (.receive r memory)).stored = w.stored ∧ w.TftpLive := by
      unfold handleInput at live ⊢
      dsimp only at live ⊢
      cases running : w.tftp.session with
      | none => simpa [running] using live
      | some s =>
        simp only [running] at live ⊢
        split at live
        · rename_i free
          rw [if_pos free]
          exact ⟨rfl, live.1, s, running, Or.inl free.1⟩
        · rename_i busy
          rw [if_neg busy]
          exact ⟨rfl, live⟩
    rw [flashAfter_none rfl]
    exact fresh.tftp same.2 i (same.1 ▸ behind)
  | tftpWrite =>
    unfold handleInput tftpWrite at live behind
    unfold flashAfter op
    dsimp only at live behind
    cases next : w.writes with
    | nil =>
      simp only [next] at live behind
      exact fresh.tftp live i behind
    | cons data rest =>
      simp only [next, List.length_append] at live behind
      refine (Flash.Op.write_above _ data behind).trans (fresh.tftp live i ?_)
      omega
  | tftpFinish bootErr =>
    unfold handleInput at live behind
    dsimp only at live behind
    rw [flashAfter_none rfl]
    cases running : w.tftp.session with
    | none =>
      simp only [running, Option.bind_none] at live behind
      exact fresh.tftp live i behind
    | some s =>
      cases result : s.result with
      | none =>
        simp only [running, Option.bind_some, result] at live behind
        exact fresh.tftp live i behind
      | some recvErr =>
        simp only [running, Option.bind_some, result] at live behind
        split at live
        · obtain ⟨-, t, again, -⟩ := live
          have closed : (w.tftp.finish recvErr bootErr).session = none := finish_session ..
          exact absurd (again.symm.trans closed) (Option.some_ne_none t)
        · rename_i busy
          rw [if_neg busy] at behind
          exact fresh.tftp live i behind

theorem handleInput_http (w : Uploads) {a : UploadsInput} (tftp : ∀ b, a ≠ .http b) :
    (w.handleInput a).http = w.http := by
  unfold handleInput
  cases a with
  | http b => exact absurd rfl (tftp b)
  | request n ackErr i =>
    dsimp only
    split <;> rfl
  | receive r behind =>
    cases w.tftp.session with
    | none => rfl
    | some s =>
      dsimp only
      split <;> rfl
  | tftpWrite => exact (tftpWrite_http w).1
  | tftpFinish bootErr =>
    dsimp only
    split
    · split <;> rfl
    · rfl

theorem tftpInput_fresh (fresh : w.Fresh c) {a : UploadsInput} (tftp : ∀ b, a ≠ .http b)
    (alone : w.op a = none ∨ ¬ w.http.Begun) :
    Fresh c { w.handleInput a with flash := w.flashAfter c a } := by
  have http := handleInput_http w tftp
  refine ⟨http ▸ fresh.counted, ?_, tftpStep_fresh fresh tftp⟩
  dsimp only
  rw [http]
  rcases alone with idle | idle
  · rw [flashAfter_none idle]
    exact fresh.http
  · exact fun begun => absurd begun idle

theorem step_fresh (held : w.Held) (fresh : w.Fresh c) (a : UploadsInput) (turn : w.InTurn a) :
    (w.step c a).Fresh c := by
  unfold step
  split
  · exact fresh
  · change Fresh c { w.handleInput a with flash := w.flashAfter c a }
    cases a with
    | http a =>
      refine ⟨HttpUpload.step_counted fresh.counted held.http.unbegun a, httpStep_fresh fresh a, ?_⟩
      rcases turn.1 with idle | alone
      · rw [flashAfter_none idle]
        exact fresh.tftp
      · exact fun live => absurd live alone
    | request | receive | tftpWrite | tftpFinish => exact tftpInput_fresh fresh nofun turn.1

theorem start_fresh (flash : Nat → UInt8) (contentLen total remaining : UInt32) :
    (start flash contentLen total remaining).Fresh c where
  counted := ⟨fun begun => absurd rfl begun.2, fun begun => absurd rfl begun.2⟩
  http begun := absurd rfl begun.2
  tftp live := absurd live.1 nofun

/-- Uploads that take turns do not mix. -/
theorem right_of_turns (c : Flash.Cell UInt8) (flash : Nat → UInt8)
    (contentLen total remaining : UInt32) (as : List UploadsInput)
    (turns : Runs.Along (step c) InTurn (start flash contentLen total remaining) as) :
    Runs.Throughout (step c) Right (start flash contentLen total remaining) as :=
  Runs.guarded_throughout (I := fun w => w.Held ∧ w.Fresh c)
    (fun _ a h turn => ⟨step_held h.1 a (spares_of_inTurn h.1 h.2 turn), step_fresh h.1 h.2 a turn⟩)
    (fun _ h => h.1.right) _ ⟨start_held flash contentLen total remaining,
      start_fresh flash contentLen total remaining⟩ as turns

end Uploads

end Rocom.Ota
