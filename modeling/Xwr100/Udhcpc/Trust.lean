import Xwr100.Udhcpc.Holding

/-! # What the client takes on trust

The client believes the messages it takes.  Whatever is true of every acknowledgement and of every
offer that it takes is true of the leases it holds and of the offers it answers.
-/

namespace Xwr100.Udhcpc

open Lib Net Udhcpd

/-- What is taken to be true of the messages for a client: of an acknowledgement of an address and
a lease in a transaction, and of an offer of an address by a server. -/
structure Belief where
  acked : Word → Addr → Word → Prop
  offered : Word → Addr → Addr → Prop

def Belief.Grows (b b' : Belief) : Prop :=
  (∀ xid addr lease, b.acked xid addr lease → b'.acked xid addr lease) ∧
    ∀ xid server addr, b.offered xid server addr → b'.offered xid server addr

/-- Every address the client has put on the interface was acknowledged, and the lease it holds and
the offer it answers are as it was told. -/
structure Trusts (b : Belief) (c : Client) : Prop where
  bound : ∀ xid addr again, .bound xid addr again ∈ c.acts → ∃ lease, b.acked xid addr lease
  holding : c.state.holds = true → b.acked c.xid c.requestedIp c.lease
  requesting : c.state = .requesting → b.offered c.xid c.serverAddr c.requestedIp

structure Genuine (b : Belief) (c : Client) : Prop where
  ack : c.isOurs = true → c.packet.readAddr 4 = c.xid →
    ∀ pos, c.packet.findOption dhcpMessageType = some pos → c.packet.mem pos = 5 →
      b.acked c.xid c.yiaddr c.ackLease
  offer : c.isOurs = true → c.packet.readAddr 4 = c.xid →
    ∀ pos, c.packet.findOption dhcpMessageType = some pos → c.packet.mem pos = 2 →
      ∀ pos, c.packet.findOption dhcpServerId = some pos →
        b.offered c.xid (c.packet.readAddr pos) c.yiaddr

def Client.reads (c : Client) (datagram : Option Bytes) : DhcpMessage × RawResult :=
  if c.listenMode = .kernel then getPacket c.packet datagram else getRawPacket c.packet datagram

/-- If a message is read in the turn, it is as it is believed to be. -/
def ReadsGenuine (b : Belief) (c : Client) (t : Turn) : Prop :=
  ∀ datagram count, t.ready = .datagram datagram → (c.reads datagram).2 = .bytes count →
    Genuine b { c with packet := (c.reads datagram).1 }

theorem Trusts.mono {b b' : Belief} {c : Client} (h : Trusts b c) (hgrows : b.Grows b') :
    Trusts b' c where
  bound := by
    intro xid addr again hmem
    obtain ⟨lease, hlease⟩ := h.bound xid addr again hmem
    exact ⟨lease, hgrows.1 _ _ _ hlease⟩
  holding := fun hholds => hgrows.1 _ _ _ (h.holding hholds)
  requesting := fun hstate => hgrows.2 _ _ _ (h.requesting hstate)

namespace Trusts

variable {b : Belief} {c c' : Client} {t : Turn}

/-- A client that holds nothing it did not hold, with acts added that are no addresses. -/
theorem of_acts (h : Trusts b c) {l : List Act} (hacts : c'.acts = c.acts ++ l)
    (hnew : ∀ xid addr again, .bound xid addr again ∉ l)
    (hholding : c'.state.holds = true → c.state.holds = true ∧ c'.xid = c.xid ∧
      c'.requestedIp = c.requestedIp ∧ c'.lease = c.lease)
    (hrequesting : c'.state = .requesting → c.state = .requesting ∧ c'.xid = c.xid ∧
      c'.serverAddr = c.serverAddr ∧ c'.requestedIp = c.requestedIp) : Trusts b c' where
  bound := by
    intro xid addr again hmem
    rw [hacts] at hmem
    rcases List.mem_append.mp hmem with hmem | hmem
    · exact h.bound xid addr again hmem
    · exact absurd hmem (hnew xid addr again)
  holding := by
    intro hholds
    obtain ⟨hstate, hxid, haddr, hlease⟩ := hholding hholds
    rw [hxid, haddr, hlease]
    exact h.holding hstate
  requesting := by
    intro hstate
    obtain ⟨hold, hxid, hserver, haddr⟩ := hrequesting hstate
    rw [hxid, hserver, haddr]
    exact h.requesting hold

/-- A client that neither holds a lease nor answers an offer. -/
theorem of_start (h : Trusts b c) {l : List Act} (hacts : c'.acts = c.acts ++ l)
    (hnew : ∀ xid addr again, .bound xid addr again ∉ l)
    (hstate : c'.state = .initSelecting ∨ c'.state = .released) : Trusts b c' := by
  refine h.of_acts hacts hnew ?_ ?_
  · intro hholds
    rcases hstate with hstate | hstate
    all_goals
      rw [hstate] at hholds
      cases hholds
  · intro hrequesting
    rcases hstate with hstate | hstate
    all_goals cases hstate.symm.trans hrequesting

theorem of_same (h : Trusts b c) {l : List Act} (hacts : c'.acts = c.acts ++ l)
    (hnew : ∀ xid addr again, .bound xid addr again ∉ l) (hstate : c'.state = c.state)
    (hxid : c'.xid = c.xid) (hserver : c'.serverAddr = c.serverAddr)
    (haddr : c'.requestedIp = c.requestedIp) (hlease : c'.lease = c.lease) : Trusts b c' :=
  h.of_acts hacts hnew (fun hholds => ⟨hstate ▸ hholds, hxid, haddr, hlease⟩)
    fun hrequesting => ⟨hstate ▸ hrequesting, hxid, hserver, haddr⟩

theorem exitClient (h : Trusts b c) (retval : Nat) : Trusts b (c.exitClient retval) :=
  h.of_same rfl (by simp) rfl rfl rfl rfl rfl

theorem background (h : Trusts b c) : Trusts b (c.background t) := by
  unfold Client.background
  split
  · exact ⟨h.bound, h.holding, h.requesting⟩
  · exact h.exitClient 1

theorem openSocket (h : Trusts b c) : Trusts b (c.openSocket t) := by
  unfold Client.openSocket
  split
  · split
    · exact ⟨h.bound, h.holding, h.requesting⟩
    · exact h.exitClient 0
  · exact h

theorem performRenew (h : Trusts b c) : Trusts b c.performRenew := by
  have hkept : ∀ mode fd, c.state.holds = true →
      Trusts b
        { c with
          state := .renewRequested
          listenMode := mode
          fdOpen := fd
          packetNum := 0
          timeout := 0 } := by
    intro mode fd hholds
    refine h.of_acts (List.append_nil _).symm (by simp) (fun _ => ⟨hholds, rfl, rfl, rfl⟩) ?_
    intro hrequesting
    cases hrequesting
  have hstart : ∀ mode fd num,
      Trusts b
        { c with
          state := .initSelecting
          listenMode := mode
          fdOpen := fd
          packetNum := num
          timeout := 0 } := fun _ _ _ =>
    h.of_start (List.append_nil _).symm (by simp) (Or.inl rfl)
  unfold Client.performRenew
  cases hstate : c.state
  all_goals rw [hstate] at hkept
  case bound => exact hkept .kernel false rfl
  case renewing => exact hkept c.listenMode c.fdOpen rfl
  case rebinding => exact hkept c.listenMode c.fdOpen rfl
  case renewRequested => exact h.of_start (l := [.deconfig]) rfl (by simp) (Or.inl rfl)
  case requesting => exact hstart .raw false 0
  case released => exact hstart .raw false 0
  case initSelecting =>
    exact h.of_start (List.append_nil _).symm (by simp) (Or.inl hstate)

theorem performRelease (h : Trusts b c) : Trusts b (c.performRelease t) := by
  unfold Client.performRelease
  cases hstate : c.state
  case bound =>
    exact h.of_start (List.append_assoc c.acts [.release t.random c.serverAddr c.requestedIp] _)
      (by simp) (Or.inr rfl)
  case renewing =>
    exact h.of_start (List.append_assoc c.acts [.release t.random c.serverAddr c.requestedIp] _)
      (by simp) (Or.inr rfl)
  case rebinding =>
    exact h.of_start (List.append_assoc c.acts [.release t.random c.serverAddr c.requestedIp] _)
      (by simp) (Or.inr rfl)
  all_goals exact h.of_start (List.append_nil _).symm (by simp) (Or.inr rfl)

/-! ### When the time is up -/

theorem discoverAgain (h : Trusts b c) (hstate : c.state = .initSelecting) :
    Trusts b (c.discoverAgain t) := by
  have hpause : ∀ {c' : Client}, Trusts b c' →
      Trusts b (if c'.running then { c' with packetNum := 0, timeout := t.after + 60 } else c') := by
    intro c' h'
    split
    · exact ⟨h'.bound, h'.holding, h'.requesting⟩
    · exact h'
  unfold Client.discoverAgain
  split
  · split
    · exact h.of_start (l := [.discover t.random c.requestedIp]) rfl (by simp) (Or.inl hstate)
    · exact h.of_start (l := [.discover c.xid c.requestedIp]) rfl (by simp) (Or.inl hstate)
  · apply hpause
    split
    · exact h.background
    · split
      · exact h.exitClient 1
      · exact h

theorem requestAgain (h : Trusts b c) : Trusts b (c.requestAgain t) := by
  unfold Client.requestAgain
  split
  · split
    · exact h.of_same (l := [.renew c.xid c.serverAddr c.requestedIp]) rfl (by simp) rfl rfl rfl
        rfl rfl
    · exact h.of_same (l := [.selecting c.xid c.serverAddr c.requestedIp]) rfl (by simp) rfl rfl
        rfl rfl rfl
  · dsimp only
    split
    · exact h.of_start (l := [.deconfig]) rfl (by simp) (Or.inl rfl)
    · exact h.of_start (List.append_nil _).symm (by simp) (Or.inl rfl)

theorem renewAgain (h : Trusts b c) (hstate : c.state = .renewing) :
    Trusts b (c.renewAgain t) := by
  have hholds : c.state.holds = true := by
    rw [hstate]
    rfl
  unfold Client.renewAgain
  split
  · refine h.of_acts (List.append_nil _).symm (by simp) (fun _ => ⟨hholds, rfl, rfl, rfl⟩) ?_
    intro hrequesting
    cases hrequesting
  · exact h.of_same (l := [.renew c.xid c.serverAddr c.requestedIp]) rfl (by simp) rfl rfl rfl rfl
      rfl

theorem rebindAgain (h : Trusts b c) : Trusts b (c.rebindAgain t) := by
  unfold Client.rebindAgain
  split
  · exact h.of_start (l := [.deconfig]) rfl (by simp) (Or.inl rfl)
  · exact h.of_same (l := [.renew c.xid 0 c.requestedIp]) rfl (by simp) rfl rfl rfl rfl rfl

theorem timedOut (h : Trusts b c) : Trusts b (c.timedOut t) := by
  unfold Client.timedOut
  cases hstate : c.state
  case initSelecting => exact h.discoverAgain hstate
  case requesting => exact h.requestAgain
  case renewRequested => exact h.requestAgain
  case renewing => exact h.renewAgain hstate
  case rebinding => exact h.rebindAgain
  case released => exact h.of_start (List.append_nil _).symm (by simp) (Or.inr rfl)
  case bound =>
    have hholds : c.state.holds = true := by
      rw [hstate]
      rfl
    have hrenewing : Trusts b ({ c with state := .renewing }.changeMode .kernel) := by
      refine h.of_acts (List.append_nil _).symm (by simp) (fun _ => ⟨hholds, rfl, rfl, rfl⟩) ?_
      intro hrequesting
      cases hrequesting
    exact hrenewing.renewAgain rfl

/-! ### When a message is there -/

theorem onOffer (h : Trusts b c)
    (hoffer : c.isOurs = true → ∀ pos, c.packet.findOption dhcpServerId = some pos →
      b.offered c.xid (c.packet.readAddr pos) c.yiaddr) : Trusts b (c.onOffer t) := by
  have htake : c.isOurs = true → Trusts b (c.takeOffer t) := by
    intro hours
    unfold Client.takeOffer
    cases hpos : c.packet.findOption dhcpServerId with
    | none => exact ⟨h.bound, h.holding, h.requesting⟩
    | some pos =>
        refine ⟨h.bound, fun hholds => ?_, fun _ => hoffer hours pos hpos⟩
        cases hholds
  unfold Client.onOffer
  split
  · exact h
  · next hours =>
    have hmine : c.isOurs = true := by simpa using hours
    split
    · split
      · exact htake hmine
      · exact ⟨h.bound, h.holding, h.requesting⟩
    · exact htake hmine

theorem onAck (h : Trusts b c) (hack : c.isOurs = true → b.acked c.xid c.yiaddr c.ackLease) :
    Trusts b (c.onAck t) := by
  unfold Client.onAck
  split
  · exact h
  · next hours =>
    have htold := hack (by simpa using hours)
    have hbind : Trusts b (c.bind t c.ackLease) := by
      refine ⟨?_, fun _ => htold, fun hrequesting => ?_⟩
      · intro xid addr again hmem
        rcases List.mem_append.mp hmem with hmem | hmem
        · exact h.bound xid addr again hmem
        · injection List.mem_singleton.mp hmem with hxid haddr hagain
          rw [hxid, haddr]
          exact ⟨c.ackLease, htold⟩
      · cases hrequesting
    dsimp only
    split
    · exact hbind.exitClient 0
    · split
      · exact hbind.background
      · exact hbind

theorem onNak (h : Trusts b c) : Trusts b (c.onNak t) := by
  unfold Client.onNak
  dsimp only
  split
  · exact h.of_start (List.append_assoc c.acts [.nak] [.deconfig]) (by simp) (Or.inl rfl)
  · exact h.of_start (l := [.nak]) rfl (by simp) (Or.inl rfl)

theorem message (h : Trusts b c) (hgenuine : Genuine b c) : Trusts b (c.message t) := by
  unfold Client.message
  split
  · exact h
  · next hxid =>
    have hours : c.packet.readAddr 4 = c.xid := not_not.mp hxid
    cases hpos : c.packet.findOption dhcpMessageType with
    | none => exact h
    | some pos =>
        have hanswer : Trusts b
            (if c.packet.mem pos = 5 then c.onAck t
              else if c.packet.mem pos = 6 then c.onNak t else c) := by
          split
          · next hack => exact h.onAck fun hmine => hgenuine.ack hmine hours pos hpos hack
          · split
            · exact h.onNak
            · exact h
        dsimp only
        unfold Client.dispatch
        cases hstate : c.state
        case initSelecting =>
          dsimp only
          split
          · next hoffer =>
            exact h.onOffer fun hmine => hgenuine.offer hmine hours pos hpos hoffer
          · exact h
        case bound => exact h
        case released => exact h
        all_goals exact hanswer

theorem readPacket (h : Trusts b c) {datagram : Option Bytes}
    (hgenuine : ∀ count, (c.reads datagram).2 = .bytes count →
      Genuine b { c with packet := (c.reads datagram).1 }) :
    Trusts b (c.readPacket t datagram) := by
  unfold Client.readPacket
  rw [show (if c.listenMode = .kernel then getPacket c.packet datagram
    else getRawPacket c.packet datagram) = c.reads datagram from rfl]
  generalize c.reads datagram = read at hgenuine ⊢
  obtain ⟨packet, result⟩ := read
  have hread : Trusts b { c with packet := packet } := ⟨h.bound, h.holding, h.requesting⟩
  cases result with
  | fatal =>
      dsimp only
      split
      · exact hread
      · exact ⟨hread.bound, hread.holding, hread.requesting⟩
  | ignored => exact hread
  | overrun => exact hread.of_same (l := [.crash]) rfl (by simp) rfl rfl rfl rfl rfl
  | bytes count => exact hread.message (hgenuine count rfl)

theorem select (h : Trusts b c) (hreads : ReadsGenuine b c t) : Trusts b (c.select t) := by
  unfold Client.select
  split
  · cases hready : t.ready with
    | timeUp => exact h.timedOut
    | failed => exact h
    | datagram read =>
        dsimp only
        split
        · exact h
        · exact h.readPacket fun count hbytes => hreads read count hready hbytes
    | signal sig =>
        cases sig with
        | usr1 => exact h.performRenew
        | usr2 => exact h.performRelease
        | term => exact h.exitClient 0
  · exact h.timedOut

/-- A turn in which the client reads nothing that is not as it is believed to be. -/
theorem turn (h : Trusts b c) (hreads : ReadsGenuine b c t) : Trusts b (c.turn t) := by
  have hopen := h.openSocket (t := t)
  have hsame : ReadsGenuine b (c.openSocket t) t := by
    intro datagram count hready
    have hgenuine := hreads datagram count hready
    unfold Client.openSocket
    split
    · split
      all_goals exact fun hbytes => ⟨(hgenuine hbytes).ack, (hgenuine hbytes).offer⟩
    · exact hgenuine
  unfold Client.turn
  split
  · dsimp only
    split
    · exact hopen.select hsame
    · exact hopen
  · exact h

theorem enter (config : ClientConfig) (foreground : Bool) (requestedIp serverAddr : Addr)
    (bootpCntOffer : Int) (lease : Word) (packet : DhcpMessage) :
    Trusts b (.enter config foreground requestedIp serverAddr bootpCntOffer lease packet) where
  bound := by
    intro xid addr again hmem
    cases List.mem_singleton.mp hmem
  holding := fun hholds => by cases hholds
  requesting := fun hstate => by cases hstate

end Trusts

end Xwr100.Udhcpc
