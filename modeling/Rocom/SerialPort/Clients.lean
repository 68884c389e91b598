import Rocom.SerialPort.Sockets

/-! Whether serial data stays with its client. Nothing empties the ring buffer between two
clients, so what the first one left there is sent to the second. -/
namespace Rocom.SerialPort

open Rfc2217

/-- No byte that was put in the buffer for an earlier client. -/
def Record.Own : Record → Prop
  | .sent _ _ client bytes => ∀ b ∈ bytes, client ≤ b.client
  | _ => True

instance : (r : Record) → Decidable r.Own
  | .sent _ _ client bytes => inferInstanceAs (Decidable (∀ b ∈ bytes, client ≤ b.client))
  | .received _ | .handed _ | .checksPassed _ _ | .returned _ => isTrue trivial

def DrainTask.inHand : DrainTask → List SerialByte
  | .checkSocket item | .checkThread item => item
  | .send toWrite => toWrite
  | .receiveUpTo | .returnItem => []

theorem mem_escapeItem {b : SerialByte} {item : List SerialByte} (h : b ∈ escapeItem item) :
    b ∈ item := by
  obtain ⟨c, member, copy⟩ := List.mem_flatMap.mp h
  have same : b = c := by
    split at copy <;> simpa using copy
  exact same ▸ member

theorem escapeItem_cons (b : SerialByte) (item : List SerialByte) :
    ∃ rest, escapeItem (b :: item) = b :: rest := by
  unfold escapeItem
  rw [List.flatMap_cons]
  split <;> exact ⟨_, rfl⟩

namespace Relay

/-- Every byte sent was put in the buffer for the client it is sent to. -/
def Apart (w : Relay) : Prop := ∀ r ∈ w.log, r.Own

instance (w : Relay) : Decidable w.Apart := inferInstanceAs (Decidable (∀ r ∈ w.log, r.Own))

/-- The bytes still to send. -/
def pending (w : Relay) : List SerialByte := w.drain.inHand ++ w.ring.stored

/-- A client is accepted while bytes are still to send. -/
def AcceptsOverPending (w : Relay) (a : Input) : Prop :=
  match a with
  | .accept socket =>
    w.aborted = false ∧ w.serverThread = .accept ∧ 0 ≤ socket ∧ w.pending ≠ []
  | _ => False

/-- The bytes still to send belong to the last client. -/
structure Owned (w : Relay) : Prop where
  apart : w.Apart
  sized : w.ItemSized
  last : ∀ b ∈ w.pending, b.client = w.clients

theorem apart_note (w : Relay) (r : Record) : (w.note r).Apart ↔ w.Apart ∧ r.Own := by
  simp only [Apart, note, List.mem_append, List.mem_singleton, or_imp, forall_and, forall_eq]

theorem Apart.noted {w : Relay} (h : w.Apart) {r : Record} (own : r.Own) : (w.note r).Apart :=
  (apart_note w r).mpr ⟨h, own⟩

theorem Apart.of_log {w n : Relay} (h : w.Apart) (same : n.log = w.log) : n.Apart := by
  unfold Apart
  rw [same]
  exact h

/-- A step of the server's threads that accepts nobody, or accepts with nothing to send. -/
theorem server_owned {w : Relay} (h : w.Owned) (a : Input) (server : a.isServer = true)
    (clients : w.pending = [] ∨ (w.handle a).clients = w.clients) :
    (w.handle a).Apart ∧ ∀ b ∈ (w.handle a).pending, b.client = (w.handle a).clients := by
  have kept := handle_usbSide w a server
  simp only [usbSide, UsbSide.mk.injEq] at kept
  obtain ⟨_, ring, drain, _, log⟩ := kept
  refine ⟨h.apart.of_log log, ?_⟩
  unfold pending
  rw [ring, drain]
  rcases clients with empty | same
  · intro b hb
    rw [pending] at empty
    rw [empty] at hb
    exact absurd hb List.not_mem_nil
  · rw [same]
    exact h.last

theorem accept_clients (w : Relay) (socket : Int) :
    (w.accept socket).clients = w.clients ∨ w.serverThread = .accept ∧ 0 ≤ socket := by
  unfold accept
  split
  · rename_i waiting
    split
    · exact Or.inl rfl
    · rename_i accepted
      exact Or.inr ⟨waiting, Int.not_lt.mp accepted⟩
  · exact Or.inl rfl

/-- A step of the callback or of the drain task. What is still to send stays, or goes on. -/
theorem usbMove_owned {w n : Relay} {a : Input} (h : w.Owned) (move : w.UsbMove a n) :
    n.Apart ∧ ∀ b ∈ n.pending, b.client = w.clients := by
  obtain ⟨apart, -, last⟩ := h
  have stored : ∀ b ∈ w.ring.stored, b.client = w.clients := fun b hb =>
    last b (List.mem_append_right _ hb)
  have returns : ∀ result, (w.sendDataReturns result).Apart := fun result =>
    Apart.noted (apart.of_log rfl) trivial
  unfold pending at last
  cases move with
  | waits | overflows | asserts => exact ⟨apart, last⟩
  | @drops data | @takes data =>
    have noted : (w.note (.received data)).Apart := apart.noted trivial
    exact ⟨noted.of_log rfl, last⟩
  | stores _ sent =>
    refine ⟨apart.of_log rfl, ?_⟩
    intro b hb
    simp only [pending, ByteRing.stored_send sent, List.mem_append, List.mem_map] at hb
    rcases hb with hand | old | ⟨c, _, rfl⟩
    · exact last b (List.mem_append_left _ hand)
    · exact stored b old
    · rfl
  | receives waiting taken =>
    refine ⟨Apart.noted (apart.of_log rfl) trivial, ?_⟩
    intro b hb
    simp only [pending, note, DrainTask.inHand, taken, ByteRing.stored_receive,
      List.take_append_drop] at hb
    exact stored b hb
  | noSocket | noThread | sent => exact ⟨returns _, stored⟩
  | socket at_check =>
    rw [at_check] at last
    exact ⟨apart.of_log rfl, last⟩
  | copies at_check =>
    rw [at_check] at last
    refine ⟨Apart.noted (apart.of_log rfl) trivial, ?_⟩
    intro b hb
    rcases List.mem_append.mp hb with copied | old
    · exact last b (List.mem_append_left _ (mem_escapeItem copied))
    · exact stored b old
  | @fails written toWrite at_send =>
    rw [at_send] at last
    have noted : (w.note (.sent w.session.server.clientSocket w.liveSocket w.clients
        (toWrite.take written.toNat))).Apart := apart.noted fun b hb =>
      (last b (List.mem_append_left _ (List.mem_of_mem_take hb))).ge
    exact ⟨Apart.noted (noted.of_log rfl) trivial, stored⟩
  | @writes written toWrite at_send =>
    rw [at_send] at last
    have noted : (w.note (.sent w.session.server.clientSocket w.liveSocket w.clients
        (toWrite.take written.toNat))).Apart := apart.noted fun b hb =>
      (last b (List.mem_append_left _ (List.mem_of_mem_take hb))).ge
    refine ⟨noted.of_log rfl, ?_⟩
    intro b hb
    rcases List.mem_append.mp hb with left | old
    · exact last b (List.mem_append_left _ (List.mem_of_mem_drop left))
    · exact stored b old
  | givesBack => exact ⟨apart.of_log rfl, stored⟩

theorem handle_owned {w : Relay} (running : w.aborted = false) (h : w.Owned) (a : Input)
    (ok : ¬ w.AcceptsOverPending a) :
    (w.handle a).Apart ∧ ∀ b ∈ (w.handle a).pending, b.client = (w.handle a).clients := by
  cases server : a.isServer with
  | false =>
    have same : (w.handle a).clients = w.clients :=
      congrArg ServerSide.clients (handle_serverSide w a server)
    rw [same]
    exact usbMove_owned h (w.usbMove a server)
  | true =>
    apply server_owned h a server
    cases a with
    | accept socket =>
      rcases accept_clients w socket with same | ⟨waiting, accepted⟩
      · exact Or.inr same
      · left
        by_contra some_pending
        exact ok ⟨running, waiting, accepted, some_pending⟩
    | createThread thread =>
      right
      simp only [handle, createThread]
      split
      · split <;> rfl
      · rfl
    | recv chunk =>
      right
      simp only [handle, recv]
      split <;> rfl
    | recvEnds =>
      right
      simp only [handle, recvEnds]
      split <;> rfl
    | close =>
      right
      simp only [handle, close]
      split <;> rfl
    | stop =>
      right
      simp only [handle, stop]
      split <;> rfl
    | usbReceive | usbStore | drainReceive | drainCheckSocket | drainCheckThread | drainSend
    | drainReturn => cases server

theorem step_owned (w : Relay) (a : Input) (h : w.Owned) (ok : ¬ w.AcceptsOverPending a) :
    (w.step a).Owned := by
  have sized := step_itemSized w a h.sized
  cases running : w.aborted with
  | false =>
    rw [step_of_running a running] at sized ⊢
    obtain ⟨apart, last⟩ := handle_owned running h a ok
    exact ⟨apart, sized, last⟩
  | true =>
    have same : w.step a = w := if_pos running
    rw [same]
    exact h

/-! Behind such an accept the drain task goes on until it has sent a byte of the last client. -/

/-- Steps of the drain task can end in a byte of an earlier client being sent. -/
def Crosses (w : Relay) : Prop :=
  ∃ cs : List Input, (∀ a ∈ cs, a.isServer = false) ∧ ¬ (cs.foldl step w).Apart

/-- A client is served, and `b` was put in the buffer before. -/
structure Late (w : Relay) (b : SerialByte) : Prop where
  running : w.aborted = false
  socket : 0 ≤ w.session.server.clientSocket
  thread : w.session.server.tcpReceiveThread ≠ 0
  earlier : b.client < w.clients

theorem Crosses.of_step {w : Relay} {a : Input} (own : a.isServer = false)
    (h : (w.step a).Crosses) : w.Crosses := by
  obtain ⟨cs, drains, crossed⟩ := h
  exact ⟨a :: cs, List.forall_mem_cons.mpr ⟨own, drains⟩, crossed⟩

theorem Late.sends {w : Relay} {b : SerialByte} (late : w.Late b) {rest : List SerialByte}
    (at_send : w.drain = .send (b :: rest)) : w.Crosses := by
  refine ⟨[.drainSend 1], by simp [Input.isServer], ?_⟩
  intro apart
  have sent : Record.sent w.session.server.clientSocket w.liveSocket w.clients [b] ∈
      (w.step (.drainSend 1)).log := by
    rw [step_of_running _ late.running]
    simp [handle, tcpSendTurn, at_send, note]
  have own : ∀ c ∈ [b], w.clients ≤ c.client := apart _ sent
  exact absurd (own b List.mem_cons_self) (Nat.not_le.mpr late.earlier)

theorem Late.checksThread {w : Relay} {b : SerialByte} (late : w.Late b) (sized : w.ItemSized)
    {item : List SerialByte} (at_check : w.drain = .checkThread (b :: item)) : w.Crosses := by
  simp only [ItemSized, at_check] at sized
  have small : ¬ sendDataCapacity / 2 < (b :: item).length := Nat.not_lt.mpr sized.2
  obtain ⟨rest, copied⟩ := escapeItem_cons b item
  apply Crosses.of_step (a := .drainCheckThread) rfl
  rw [step_of_running _ late.running]
  simp only [handle, checkThread, at_check, if_neg late.thread, if_neg small, copied]
  exact Late.sends ⟨late.running, late.socket, late.thread, late.earlier⟩ rfl

theorem Late.checksSocket {w : Relay} {b : SerialByte} (late : w.Late b) (sized : w.ItemSized)
    (item : List SerialByte) (at_check : w.drain = .checkSocket (b :: item)) : w.Crosses := by
  simp only [ItemSized, at_check] at sized
  apply Crosses.of_step (a := .drainCheckSocket) rfl
  rw [step_of_running _ late.running]
  simp only [handle, checkSocket, at_check, if_neg (Int.not_lt.mpr late.socket)]
  exact Late.checksThread ⟨late.running, late.socket, late.thread, late.earlier⟩ sized rfl

theorem Late.receives {w : Relay} {b : SerialByte} (late : w.Late b)
    (waiting : w.drain = .receiveUpTo) {rest : List SerialByte}
    (stored : w.ring.stored = b :: rest) : w.Crosses := by
  apply Crosses.of_step (a := .drainReceive 1) rfl
  rw [step_of_running _ late.running]
  have one : min 1 lengthMax = 1 := rfl
  have item : w.ring.stored.take 1 = [b] := by
    rw [stored]
    rfl
  simp only [handle, ringbufferReceiveUpTo, waiting, one, item, List.cons_ne_nil, if_false]
  refine Late.checksSocket ⟨late.running, late.socket, late.thread, late.earlier⟩ ?_ [] rfl
  exact ⟨List.cons_ne_nil _ _, Nat.one_le_two_pow (n := 10)⟩

theorem Late.givesBack {w : Relay} {b : SerialByte} (late : w.Late b)
    (at_return : w.drain = .returnItem) {rest : List SerialByte}
    (stored : w.ring.stored = b :: rest) : w.Crosses := by
  apply Crosses.of_step (a := .drainReturn) rfl
  rw [step_of_running _ late.running]
  simp only [handle, ringbufferReturnItem, at_return]
  exact Late.receives ⟨late.running, late.socket, late.thread, late.earlier⟩ rfl stored

/-- Wherever the drain task is, it gets to the first byte that is still to send. -/
theorem Late.crosses {w : Relay} {b : SerialByte} (late : w.Late b) (sized : w.ItemSized)
    {rest : List SerialByte} (first : w.pending = b :: rest) : w.Crosses := by
  unfold pending at first
  cases at_step : w.drain with
  | receiveUpTo =>
    rw [at_step] at first
    exact late.receives at_step first
  | checkSocket item =>
    rw [at_step] at first
    simp only [ItemSized, at_step] at sized
    cases item with
    | nil => exact absurd rfl sized.1
    | cons c item =>
      obtain ⟨rfl, _⟩ := List.cons.inj first
      refine late.checksSocket ?_ item at_step
      simp only [ItemSized, at_step]
      exact sized
  | checkThread item =>
    rw [at_step] at first
    simp only [ItemSized, at_step] at sized
    cases item with
    | nil => exact absurd rfl sized.1
    | cons c item =>
      obtain ⟨rfl, _⟩ := List.cons.inj first
      refine late.checksThread ?_ at_step
      simp only [ItemSized, at_step]
      exact sized
  | send toWrite =>
    rw [at_step] at first
    cases toWrite with
    | nil =>
      apply Crosses.of_step (a := .drainSend 0) rfl
      rw [step_of_running _ late.running]
      simp only [handle, tcpSendTurn, at_step, if_true]
      exact Late.givesBack ⟨late.running, late.socket, late.thread, late.earlier⟩ rfl first
    | cons c toWrite =>
      obtain ⟨rfl, _⟩ := List.cons.inj first
      exact late.sends at_step
  | returnItem =>
    rw [at_step] at first
    exact late.givesBack at_step first

theorem accepts_crosses {w : Relay} (h : w.Owned) (a : Input) (crosses : w.AcceptsOverPending a) :
    ∃ cs, Runs.Along step (fun w a => ¬ w.AcceptsOverPending a) (w.step a) cs ∧
      ¬ (cs.foldl step (w.step a)).Apart := by
  have unguarded : ∀ (w : Relay) (b : Input), b.isServer = false ∨ b = .createThread (some 1) →
      ¬ w.AcceptsOverPending b := by
    rintro w b (own | rfl) crosses
    · cases b with
      | accept => cases own
      | usbReceive | usbStore | drainReceive | drainCheckSocket | drainCheckThread | drainSend
      | drainReturn | createThread | recv | recvEnds | close | stop => exact crosses
    · exact crosses
  cases a with
  | accept socket =>
    obtain ⟨running, waiting, accepted, some_pending⟩ := crosses
    obtain ⟨b, rest, first⟩ := List.exists_cons_of_ne_nil some_pending
    have older : b.client = w.clients := h.last b (first ▸ List.mem_cons_self)
    have step_accept : w.step (.accept socket) = { w with
        session := w.session.modify ({ · with clientSocket := socket })
        serverThread := .createThread
        liveSocket := some socket
        clients := w.clients + 1 } := by
      rw [step_of_running _ running]
      simp only [handle, accept, waiting, if_neg (Int.not_lt.mpr accepted)]
    have crosses : ((w.step (.accept socket)).step (.createThread (some 1))).Crosses := by
      have still : (w.step (.accept socket)).aborted = false := by
        rw [step_accept]
        exact running
      rw [step_of_running _ still, step_accept]
      have late : ({ w with
          session := startConnection ((w.session.modify ({ · with clientSocket := socket })).modify
            ({ · with tcpReceiveThread := 1 }))
          serverThread := .join
          liveSocket := some socket
          clients := w.clients + 1 } : Relay).Late b :=
        ⟨running, accepted, Nat.one_ne_zero, by
          show b.client < w.clients + 1
          omega⟩
      exact late.crosses h.sized first
    obtain ⟨cs, drains, crossed⟩ := crosses
    refine ⟨.createThread (some 1) :: cs, ?_, crossed⟩
    apply Runs.along_of_forall
    intro w b hb
    apply unguarded w b
    rcases List.mem_cons.mp hb with rfl | own
    · exact Or.inr rfl
    · exact Or.inl (drains b own)
  | usbReceive | usbStore | drainReceive | drainCheckSocket | drainCheckThread | drainSend
  | drainReturn | createThread | recv | recvEnds | close | stop => exact absurd crosses id

/-- No byte crosses to a later client in a run that accepts clients only when no byte is still to
be sent, and an accept over pending bytes is enough for one to cross. -/
theorem clients_apart (as : List Input) :
    Runs.Exact step (fun w a => ¬ w.AcceptsOverPending a) Apart start as := by
  apply Runs.exact_of_invariant (I := Owned)
  · exact step_owned
  · exact fun w h => h.apart
  · intro w a h crosses
    exact accepts_crosses h a (not_not.mp crosses)
  · exact ⟨fun r hr => absurd hr List.not_mem_nil, trivial, fun b hb => absurd hb List.not_mem_nil⟩

/-- The byte that the first client left is sent to the second. -/
theorem byte_crosses :
    ¬ Runs.Throughout step Apart start
      (firstClient ++ [.accept 55, .createThread (some 2)] ++ drainOne) := by
  intro apart
  have last := (Runs.throughout_iff_prefix _ _).mp apart _ (List.prefix_refl _)
  exact absurd last (by decide)

end Relay

end Rocom.SerialPort
