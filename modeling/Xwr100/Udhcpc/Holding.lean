import Xwr100.Udhcpc.Client

/-! # The address on the interface

The scripts put an address on the interface and take it off.  It is there in the states in which the
client holds a lease, and is the address of the lease, on every run that has no release while a
renewal asked for by the user is under way.
-/

namespace Xwr100.Udhcpc

open Lib Net Udhcpd

def Act.leaves (addr : Option Addr) : Act → Option Addr
  | .deconfig => none
  | .bound _ new _ => some new
  | _ => addr

def onInterface (acts : List Act) : Option Addr := acts.foldl Act.leaves none

@[simp] theorem onInterface_append (acts new : List Act) :
    onInterface (acts ++ new) = new.foldl Act.leaves (onInterface acts) :=
  List.foldl_append

namespace ClientState

def holds : ClientState → Bool
  | .bound | .renewing | .rebinding | .renewRequested => true
  | .initSelecting | .requesting | .released => false

def mode : ClientState → ListenMode
  | .initSelecting | .requesting => .raw
  | .renewing | .rebinding | .renewRequested => .kernel
  | .bound | .released => .none

end ClientState

/-- The address of the lease, if there is one. -/
def Client.held (c : Client) : Option Addr :=
  if c.state.holds then some c.requestedIp else none

/-- The client listens as its state wants it to, and the interface has the address it holds. -/
structure Agrees (c : Client) : Prop where
  mode : c.listenMode = c.state.mode
  interface : onInterface c.acts = c.held

/-- The turn is a release while a renewal asked for by the user is under way. -/
def Abandons (c : Client) (t : Turn) : Prop :=
  c.running = true ∧ (c.openSocket t).running = true ∧ c.Waits t ∧ t.ready = .signal .usr2 ∧
    c.state = .renewRequested

namespace Agrees

variable {c : Client} (h : Agrees c) (t : Turn)

include h

theorem exitClient (retval : Nat) : Agrees (c.exitClient retval) :=
  ⟨h.mode, (onInterface_append c.acts [.exit retval]).trans h.interface⟩

theorem background : Agrees (c.background t) := by
  unfold Client.background
  split
  · exact ⟨h.mode, h.interface⟩
  · exact h.exitClient 1

theorem openSocket : Agrees (c.openSocket t) := by
  unfold Client.openSocket
  split
  · split
    · exact ⟨h.mode, h.interface⟩
    · exact h.exitClient 0
  · exact h

theorem performRenew : Agrees c.performRenew := by
  have hmode := h.mode
  have hinterface := h.interface
  unfold Client.performRenew
  cases hstate : c.state
  all_goals
    rw [Client.held, hstate] at hinterface
    rw [hstate] at hmode
    constructor
    all_goals
      simp [Client.changeMode, Client.act, Client.held, ClientState.mode, ClientState.holds, hstate,
        Act.leaves, hmode, hinterface]

/-- A release takes the address off the interface, except in the one state. -/
theorem performRelease (hstate : c.state ≠ .renewRequested) : Agrees (c.performRelease t) := by
  have hinterface := h.interface
  rw [Client.held] at hinterface
  unfold Client.performRelease
  cases hcase : c.state
  case renewRequested => exact absurd hcase hstate
  all_goals
    rw [hcase] at hinterface
    refine ⟨rfl, ?_⟩
    simp [Client.changeMode, Client.act, Client.held, ClientState.holds, Act.leaves, hinterface]

theorem discoverAgain (hstate : c.state = .initSelecting) : Agrees (c.discoverAgain t) := by
  have hpause : ∀ {c' : Client}, Agrees c' →
      Agrees (if c'.running then { c' with packetNum := 0, timeout := t.after + 60 } else c') := by
    intro c' h'
    split
    · exact ⟨h'.mode, h'.interface⟩
    · exact h'
  have hmode := h.mode
  have hinterface := h.interface
  rw [Client.held, hstate] at hinterface
  unfold Client.discoverAgain
  split
  · constructor
    · dsimp only [Client.act]
      split <;> exact hmode
    · dsimp only [Client.act]
      split <;> simp [Act.leaves, Client.held, hstate, hinterface]
  · apply hpause
    split
    · exact h.background t
    · split
      · exact h.exitClient 1
      · exact h

theorem requestAgain (hstate : c.state = .renewRequested ∨ c.state = .requesting) :
    Agrees (c.requestAgain t) := by
  have hmode := h.mode
  have hinterface := h.interface
  unfold Client.requestAgain
  split
  · refine ⟨hmode, ?_⟩
    dsimp only [Client.act]
    rw [onInterface_append]
    split <;> exact hinterface
  · refine ⟨rfl, ?_⟩
    rcases hstate with hstate | hstate
    all_goals
      rw [Client.held, hstate] at hinterface
      simp [Client.changeMode, Client.act, Client.held, ClientState.holds, hstate, Act.leaves,
        hinterface]

theorem renewAgain (hstate : c.state = .renewing) : Agrees (c.renewAgain t) := by
  have hmode := h.mode
  have hinterface := h.interface
  rw [hstate] at hmode
  rw [Client.held, hstate] at hinterface
  unfold Client.renewAgain
  split
  · exact ⟨hmode, hinterface⟩
  · refine ⟨hmode.trans (by rw [← hstate]; rfl), ?_⟩
    simp [Client.act, Client.held, hstate, Act.leaves, hinterface]

theorem rebindAgain (hstate : c.state = .rebinding) : Agrees (c.rebindAgain t) := by
  have hmode := h.mode
  have hinterface := h.interface
  rw [Client.held, hstate] at hinterface
  unfold Client.rebindAgain
  split
  · refine ⟨rfl, ?_⟩
    simp [Client.changeMode, Client.act, Client.held, ClientState.holds, Act.leaves]
  · refine ⟨hmode, ?_⟩
    simp [Client.act, Client.held, hstate, Act.leaves, hinterface]

theorem timedOut : Agrees (c.timedOut t) := by
  unfold Client.timedOut
  cases hstate : c.state
  case initSelecting => exact h.discoverAgain t hstate
  case requesting => exact h.requestAgain t (Or.inr hstate)
  case renewRequested => exact h.requestAgain t (Or.inl hstate)
  case renewing => exact h.renewAgain t hstate
  case rebinding => exact h.rebindAgain t hstate
  case released =>
    have hmode := h.mode
    have hinterface := h.interface
    rw [hstate] at hmode
    rw [Client.held, hstate] at hinterface
    exact ⟨hmode, hinterface⟩
  case bound =>
    have hinterface := h.interface
    rw [Client.held, hstate] at hinterface
    exact renewAgain ⟨rfl, hinterface⟩ t rfl

theorem takeOffer (hstate : c.state = .initSelecting) : Agrees (c.takeOffer t) := by
  have hmode := h.mode
  have hinterface := h.interface
  rw [hstate] at hmode
  rw [Client.held, hstate] at hinterface
  unfold Client.takeOffer
  split
  · exact ⟨h.mode, h.interface⟩
  · exact ⟨hmode, hinterface⟩

theorem onOffer (hstate : c.state = .initSelecting) : Agrees (c.onOffer t) := by
  unfold Client.onOffer
  split
  · exact h
  · split
    · split
      · exact h.takeOffer t hstate
      · exact ⟨h.mode, h.interface⟩
    · exact h.takeOffer t hstate

theorem onAck : Agrees (c.onAck t) := by
  have hbind : Agrees (c.bind t c.ackLease) :=
    ⟨rfl, by simp [Client.bind, Client.changeMode, Client.act, Client.held, ClientState.holds,
      Act.leaves]⟩
  unfold Client.onAck
  split
  · exact h
  · dsimp only
    split
    · exact hbind.exitClient 0
    · split
      · exact hbind.background t
      · exact hbind

theorem onNak : Agrees (c.onNak t) := by
  have hinterface := h.interface
  unfold Client.onNak
  refine ⟨rfl, ?_⟩
  by_cases hrequesting : c.state = .requesting
  · rw [Client.held, hrequesting] at hinterface
    simp [Client.changeMode, Client.act, Client.held, ClientState.holds, Act.leaves, hrequesting,
      hinterface]
  · simp [Client.changeMode, Client.act, Client.held, ClientState.holds, Act.leaves, hrequesting]

theorem dispatch (message : UInt8) : Agrees (c.dispatch t message) := by
  unfold Client.dispatch
  cases hstate : c.state
  case initSelecting =>
    dsimp only
    split
    · exact h.onOffer t hstate
    · exact h
  case bound => exact h
  case released => exact h
  all_goals
    dsimp only
    split
    · exact h.onAck t
    · split
      · exact h.onNak t
      · exact h

theorem message : Agrees (c.message t) := by
  unfold Client.message
  split
  · exact h
  · split
    · exact h
    · exact h.dispatch t _

theorem readPacket (datagram : Option Bytes) : Agrees (c.readPacket t datagram) := by
  unfold Client.readPacket
  generalize (if c.listenMode = .kernel then getPacket c.packet datagram
    else getRawPacket c.packet datagram) = read
  obtain ⟨packet, result⟩ := read
  have hread : Agrees { c with packet := packet } := ⟨h.mode, h.interface⟩
  cases result with
  | fatal =>
      dsimp only
      split
      · exact hread
      · exact ⟨hread.mode, hread.interface⟩
  | ignored => exact hread
  | overrun => exact ⟨hread.mode, (onInterface_append c.acts [.crash]).trans hread.interface⟩
  | bytes count => exact hread.message t

/-- What a turn does with the socket open: it is a release in the one state, or keeps the two in
step. -/
theorem select (hnot : ¬(c.Waits t ∧ t.ready = .signal .usr2 ∧ c.state = .renewRequested)) :
    Agrees (c.select t) := by
  unfold Client.select
  split
  · next hwaits =>
    cases hready : t.ready with
    | timeUp => exact h.timedOut t
    | datagram read =>
        dsimp only
        split
        · exact h
        · exact h.readPacket t read
    | failed => exact h
    | signal sig =>
        cases sig with
        | usr1 => exact h.performRenew
        | usr2 => exact h.performRelease t fun hstate => hnot ⟨hwaits, hready, hstate⟩
        | term => exact h.exitClient 0
  · exact h.timedOut t

/-- The release leaves the address where it is, in a state that does not hold one. -/
theorem abandons_leaves (hstate : c.state = .renewRequested) :
    ¬Agrees (c.performRelease t) := by
  have hinterface := h.interface
  rw [Client.held, hstate] at hinterface
  intro hagrees
  have hafter := hagrees.interface
  unfold Client.performRelease at hafter
  simp only [hstate, Client.changeMode, Client.held, ClientState.holds] at hafter
  rw [hinterface] at hafter
  cases hafter

end Agrees

theorem openSocket_state (c : Client) (t : Turn) : (c.openSocket t).state = c.state := by
  unfold Client.openSocket
  split
  · split <;> rfl
  · rfl

theorem openSocket_timeout (c : Client) (t : Turn) : (c.openSocket t).timeout = c.timeout := by
  unfold Client.openSocket
  split
  · split <;> rfl
  · rfl

/-- A turn keeps state, socket and interface in step exactly if it is not such a release. -/
theorem agrees_turn_iff {c : Client} (h : Agrees c) (t : Turn) :
    Agrees (c.turn t) ↔ ¬Abandons c t := by
  have hopen := h.openSocket t
  have hstate := openSocket_state c t
  have hwaits : (c.openSocket t).Waits t ↔ c.Waits t := by
    rw [Client.Waits, Client.Waits, openSocket_timeout]
  unfold Client.turn
  by_cases hrunning : c.running = true
  · rw [if_pos hrunning]
    dsimp only
    by_cases hopened : (c.openSocket t).running = true
    · rw [if_pos hopened]
      constructor
      · rintro hagrees ⟨-, -, hw, hready, hrequested⟩
        unfold Client.select at hagrees
        rw [if_pos (hwaits.mpr hw), hready] at hagrees
        exact hopen.abandons_leaves t (hstate.trans hrequested) hagrees
      · intro hnot
        apply hopen.select t
        rintro ⟨hw, hready, hrequested⟩
        exact hnot ⟨hrunning, hopened, hwaits.mp hw, hready, hstate.symm.trans hrequested⟩
    · rw [if_neg hopened]
      exact iff_of_true hopen fun habandons => hopened habandons.2.1
  · rw [if_neg hrunning]
    exact iff_of_true h fun habandons => hrunning habandons.1

theorem agrees_enter (config : ClientConfig) (foreground : Bool) (requestedIp serverAddr : Addr)
    (bootpCntOffer : Int) (lease : Word) (packet : DhcpMessage) :
    Agrees (.enter config foreground requestedIp serverAddr bootpCntOffer lease packet) :=
  ⟨rfl, rfl⟩

/-- On every run of the client, whatever packets and signals come and whenever they do: after each
turn the client listens as its state wants it to, and the interface has the address of its lease
and no other, if and only if no release comes while a renewal asked for by the user is under way. -/
theorem holding_iff (config : ClientConfig) (foreground : Bool) (requestedIp serverAddr : Addr)
    (bootpCntOffer : Int) (lease : Word) (packet : DhcpMessage) (turns : List Turn) :
    Along Client.turn (fun c t => Agrees (c.turn t))
        (.enter config foreground requestedIp serverAddr bootpCntOffer lease packet) turns ↔
      Along Client.turn (fun c t => ¬Abandons c t)
        (.enter config foreground requestedIp serverAddr bootpCntOffer lease packet) turns := by
  apply @along_congr _ _ Client.turn _ _ Agrees
  · intro c t h
    exact agrees_turn_iff h t
  · intro c t h hnot
    exact (agrees_turn_iff h t).mpr hnot
  · exact agrees_enter config foreground requestedIp serverAddr bootpCntOffer lease packet

end Xwr100.Udhcpc
