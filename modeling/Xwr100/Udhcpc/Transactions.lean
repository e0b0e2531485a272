import Xwr100.Udhcpc.LeaseEnd

/-! # Requests come before addresses

The client takes an acknowledgement for the transaction it has asked in.  Between the offer it takes
and its first request the time is up at once, so nothing can come in between as long as the uptime
does not run backwards.
-/

namespace Xwr100.Udhcpc

open Lib Net Udhcpd

def Act.Requests (xid : Word) (a : Act) : Prop :=
  (∃ server requested, a = .selecting xid server requested) ∨
    ∃ server ciaddr, a = .renew xid server ciaddr

def Asked (acts : List Act) (xid : Word) : Prop := ∃ a ∈ acts, a.Requests xid

theorem Asked.append {acts : List Act} {xid : Word} (h : Asked acts xid) (new : List Act) :
    Asked (acts ++ new) xid := by
  obtain ⟨a, ha, hrequests⟩ := h
  exact ⟨a, List.mem_append_left new ha, hrequests⟩

/-- Every address was put on the interface after a request in its transaction. -/
def AskedFirst (acts : List Act) : Prop :=
  ∀ before xid addr again after, acts = before ++ .bound xid addr again :: after →
    Asked before xid

def Act.isBound : Act → Bool
  | .bound _ _ _ => true
  | _ => false

theorem AskedFirst.append_other {acts : List Act} (h : AskedFirst acts) {a : Act}
    (ha : a.isBound = false) : AskedFirst (acts ++ [a]) := by
  intro before xid addr again after heq
  rcases List.eq_nil_or_concat after with rfl | ⟨rest, last, rfl⟩
  · obtain ⟨-, hlast⟩ := List.append_inj' heq rfl
    rw [(List.cons.inj hlast).1] at ha
    cases ha
  · rw [List.concat_eq_append, ← List.cons_append, ← List.append_assoc] at heq
    obtain ⟨hacts, -⟩ := List.append_inj' heq rfl
    exact h before xid addr again rest hacts

theorem AskedFirst.append_bound {acts : List Act} (h : AskedFirst acts) {xid : Word}
    (hasked : Asked acts xid) (addr : Addr) (again : Bool) :
    AskedFirst (acts ++ [.bound xid addr again]) := by
  intro before xid' addr' again' after heq
  rcases List.eq_nil_or_concat after with rfl | ⟨rest, last, rfl⟩
  · obtain ⟨hacts, hlast⟩ := List.append_inj' heq rfl
    obtain ⟨hbound, -⟩ := List.cons.inj hlast
    injection hbound with hxid
    rw [← hacts, ← hxid]
    exact hasked
  · rw [List.concat_eq_append, ← List.cons_append, ← List.append_assoc] at heq
    obtain ⟨hacts, -⟩ := List.append_inj' heq rfl
    exact h before xid' addr' again' rest hacts

def Client.pastRequest (c : Client) : Bool :=
  c.state.holds || (c.state = .requesting && c.packetNum ≠ 0)

/-- A request has been sent where one should have been, and where none has been sent for the offer
that was taken the time is up. -/
structure Orderly (c : Client) (now : Word) : Prop where
  first : AskedFirst c.acts
  asked : c.pastRequest = true → Asked c.acts c.xid
  prompt : c.running = true → c.state = .requesting → c.packetNum = 0 → c.timeout = now

/-- The uptime does not run backwards, and stays below 68 years. -/
structure Forward (now : Word) (t : Turn) : Prop where
  before : now.toNat ≤ t.before.toNat
  after : t.before.toNat ≤ t.after.toNat
  bounded : t.after.toNat < 2 ^ 31

theorem not_waits_of_reached {c : Client} {now : Word} {t : Turn} (h : c.timeout = now)
    (ht : Forward now t) : ¬c.Waits t := by
  have hbefore := ht.before
  have hafter := ht.after
  have hbounded := ht.bounded
  have hsub : (now - t.before).toInt = (now.toNat : Int) - t.before.toNat := by
    rw [BitVec.toInt_sub, BitVec.toInt_eq_toNat_of_lt (by omega),
      BitVec.toInt_eq_toNat_of_lt (by omega), Int.bmod_def]
    omega
  rw [Client.Waits, h, hsub]
  omega

theorem Client.pastRequest_of_holds {c : Client} (h : c.state.holds = true) :
    c.pastRequest = true := by
  rw [Client.pastRequest, h, Bool.true_or]

theorem Client.pastRequest_of_state {c : Client} (h : c.state = .initSelecting ∨ c.state = .released) :
    c.pastRequest = false := by
  rcases h with h | h
  all_goals
    rw [Client.pastRequest, h]
    rfl

namespace Orderly

variable {c c' : Client} {now : Word} {t : Turn}

/-- A client at the beginning, with acts added that are no addresses. -/
theorem of_start {acts : List Act} (h : AskedFirst acts)
    (hstate : c.state = .initSelecting ∨ c.state = .released) (hacts : c.acts = acts) :
    Orderly c now := by
  refine ⟨hacts ▸ h, fun hpast => ?_, fun _ hrequesting => ?_⟩
  · rw [Client.pastRequest_of_state hstate] at hpast
    cases hpast
  · rcases hstate with hstate | hstate
    all_goals cases hstate.symm.trans hrequesting

/-- The same transaction, with one more act that is no address. -/
theorem of_act (h : Orderly c now) (a : Act) (ha : a.isBound = false) (now' : Word)
    (hacts : c'.acts = c.acts ++ [a]) (hxid : c'.xid = c.xid)
    (hpast : c'.pastRequest = true → c.pastRequest = true ∨ a.Requests c.xid)
    (hprompt : c'.running = true → c'.state = .requesting → c'.packetNum = 0 → c'.timeout = now') :
    Orderly c' now' := by
  refine ⟨hacts ▸ h.first.append_other ha, fun hpast' => ?_, hprompt⟩
  rw [hacts, hxid]
  rcases hpast hpast' with hold | hnew
  · exact (h.asked hold).append [a]
  · exact ⟨a, List.mem_append_right _ List.mem_cons_self, hnew⟩

theorem exitClient (h : Orderly c now) (retval : Nat) (now' : Word) :
    Orderly (c.exitClient retval) now' := by
  refine h.of_act (.exit retval) rfl _ rfl rfl Or.inl ?_
  intro hrunning
  cases hrunning

/-- A turn that finds the time not up yet. -/
theorem waited (h : Orderly c now) (ht : Forward now t) (hrunning : c.running = true)
    (hwaits : c.Waits t) : c.state = .requesting → c.packetNum ≠ 0 := by
  intro hstate hnum
  exact not_waits_of_reached (h.prompt hrunning hstate hnum) ht hwaits

theorem openSocket (h : Orderly c now) : Orderly (c.openSocket t) now := by
  unfold Client.openSocket
  split
  · split
    · exact ⟨h.first, h.asked, h.prompt⟩
    · exact h.exitClient 0 now
  · exact h

theorem discoverAgain (h : Orderly c now) (hstate : c.state = .initSelecting) :
    Orderly (c.discoverAgain t) t.after := by
  obtain ⟨hsame, -, -⟩ := discoverAgain_frame c t
  have hfirst : AskedFirst (c.discoverAgain t).acts := by
    have hexit : AskedFirst (c.acts ++ [.exit 1]) := h.first.append_other rfl
    unfold Client.discoverAgain Client.background Client.exitClient Client.act
    dsimp only
    split_ifs
    all_goals first | exact h.first | exact hexit | exact h.first.append_other rfl
  exact of_start hfirst (Or.inl (hsame.trans hstate)) rfl

theorem requestAgain (h : Orderly c now) : Orderly (c.requestAgain t) t.after := by
  unfold Client.requestAgain
  split
  · by_cases hstate : c.state = .renewRequested
    · rw [if_pos hstate]
      refine h.of_act (.renew c.xid c.serverAddr c.requestedIp) rfl _ rfl rfl
        (fun _ => Or.inr (Or.inr ⟨_, _, rfl⟩)) ?_
      intro _ _ hnum
      cases hnum
    · rw [if_neg hstate]
      refine h.of_act (.selecting c.xid c.serverAddr c.requestedIp) rfl _ rfl rfl
        (fun _ => Or.inr (Or.inl ⟨_, _, rfl⟩)) ?_
      intro _ _ hnum
      cases hnum
  · dsimp only
    split
    · exact of_start (h.first.append_other (a := .deconfig) rfl) (Or.inl rfl) rfl
    · exact of_start h.first (Or.inl rfl) rfl

theorem renewAgain (h : Orderly c now) (hstate : c.state = .renewing) :
    Orderly (c.renewAgain t) t.after := by
  have hpast : c.pastRequest = true := Client.pastRequest_of_holds (by rw [hstate]; rfl)
  unfold Client.renewAgain
  split
  · refine ⟨h.first, fun _ => h.asked hpast, fun _ hrequesting => ?_⟩
    cases hrequesting
  · refine h.of_act (.renew c.xid c.serverAddr c.requestedIp) rfl _ rfl rfl
      (fun _ => Or.inl hpast) ?_
    intro _ hrequesting
    cases hstate.symm.trans hrequesting

theorem rebindAgain (h : Orderly c now) (hstate : c.state = .rebinding) :
    Orderly (c.rebindAgain t) t.after := by
  have hpast : c.pastRequest = true := Client.pastRequest_of_holds (by rw [hstate]; rfl)
  unfold Client.rebindAgain
  split
  · exact of_start (h.first.append_other (a := .deconfig) rfl) (Or.inl rfl) rfl
  · refine h.of_act (.renew c.xid 0 c.requestedIp) rfl _ rfl rfl (fun _ => Or.inl hpast) ?_
    intro _ hrequesting
    cases hstate.symm.trans hrequesting

theorem timedOut (h : Orderly c now) : Orderly (c.timedOut t) t.after := by
  unfold Client.timedOut
  cases hstate : c.state
  case initSelecting => exact h.discoverAgain hstate
  case requesting => exact h.requestAgain
  case renewRequested => exact h.requestAgain
  case renewing => exact h.renewAgain hstate
  case rebinding => exact h.rebindAgain hstate
  case released => exact of_start h.first (Or.inr rfl) rfl
  case bound =>
    have hpast : c.pastRequest = true := Client.pastRequest_of_holds (by rw [hstate]; rfl)
    have hrenewing : Orderly ({ c with state := .renewing }.changeMode .kernel) now := by
      refine ⟨h.first, fun _ => h.asked hpast, fun _ hrequesting => ?_⟩
      cases hrequesting
    exact hrenewing.renewAgain rfl

theorem performRenew (h : Orderly c now) : Orderly c.performRenew t.after := by
  have hkept : ∀ mode fd, c.state.holds = true →
      Orderly
        { c with
          state := .renewRequested
          listenMode := mode
          fdOpen := fd
          packetNum := 0
          timeout := 0 } t.after := by
    intro mode fd hholds
    refine ⟨h.first, fun _ => h.asked (Client.pastRequest_of_holds hholds),
      fun _ hrequesting => ?_⟩
    cases hrequesting
  unfold Client.performRenew
  cases hstate : c.state
  all_goals rw [hstate] at hkept
  case bound => exact hkept .kernel false rfl
  case renewing => exact hkept c.listenMode c.fdOpen rfl
  case rebinding => exact hkept c.listenMode c.fdOpen rfl
  case renewRequested =>
    exact of_start (h.first.append_other (a := .deconfig) rfl) (Or.inl rfl) rfl
  case requesting => exact of_start h.first (Or.inl rfl) rfl
  case released => exact of_start h.first (Or.inl rfl) rfl
  case initSelecting => exact of_start h.first (Or.inl hstate) rfl

theorem performRelease (h : Orderly c now) : Orderly (c.performRelease t) t.after := by
  have hreleased : AskedFirst
      ((c.acts ++ [.release t.random c.serverAddr c.requestedIp]) ++ [.deconfig]) :=
    (h.first.append_other rfl).append_other rfl
  unfold Client.performRelease
  dsimp only
  split
  all_goals first
    | exact of_start hreleased (Or.inr rfl) rfl
    | exact of_start h.first (Or.inr rfl) rfl

theorem onOffer (h : Orderly c t.after) (hstate : c.state = .initSelecting) :
    Orderly (c.onOffer t) t.after := by
  have htake : Orderly (c.takeOffer t) t.after := by
    unfold Client.takeOffer
    split
    · exact of_start h.first (Or.inl hstate) rfl
    · refine ⟨h.first, fun hpast => ?_, fun _ _ _ => rfl⟩
      cases hpast
  unfold Client.onOffer
  split
  · exact h
  · split
    · split
      · exact htake
      · exact of_start h.first (Or.inl hstate) rfl
    · exact htake

theorem onAck (h : Orderly c t.after) (hpast : c.pastRequest = true) :
    Orderly (c.onAck t) t.after := by
  have hbind : Orderly (c.bind t c.ackLease) t.after := by
    refine ⟨h.first.append_bound (h.asked hpast) _ _, fun _ => (h.asked hpast).append _,
      fun _ hrequesting => ?_⟩
    cases hrequesting
  unfold Client.onAck Client.background
  split
  · exact h
  · dsimp only
    split
    · exact hbind.exitClient 0 _
    · split
      · split
        · exact ⟨hbind.first, hbind.asked, hbind.prompt⟩
        · exact hbind.exitClient 1 _
      · exact hbind

theorem onNak (h : Orderly c t.after) : Orderly (c.onNak t) t.after := by
  have hnak : AskedFirst (c.acts ++ [.nak]) := h.first.append_other rfl
  unfold Client.onNak
  dsimp only
  split
  · exact of_start (hnak.append_other (a := .deconfig) rfl) (Or.inl rfl) rfl
  · exact of_start hnak (Or.inl rfl) rfl

theorem dispatch (h : Orderly c t.after) (hnum : c.state = .requesting → c.packetNum ≠ 0)
    (message : UInt8) : Orderly (c.dispatch t message) t.after := by
  have hanswer : c.pastRequest = true →
      Orderly (if message = 5 then c.onAck t else if message = 6 then c.onNak t else c) t.after := by
    intro hpast
    split
    · exact h.onAck hpast
    · split
      · exact h.onNak
      · exact h
  unfold Client.dispatch
  cases hstate : c.state
  case initSelecting =>
    dsimp only
    split
    · exact h.onOffer hstate
    · exact h
  case bound => exact h
  case released => exact h
  case requesting =>
    apply hanswer
    simp [Client.pastRequest, hstate, hnum hstate]
  all_goals exact hanswer (Client.pastRequest_of_holds (by rw [hstate]; rfl))

theorem readPacket (h : Orderly c t.after) (hnum : c.state = .requesting → c.packetNum ≠ 0)
    (datagram : Option Bytes) : Orderly (c.readPacket t datagram) t.after := by
  unfold Client.readPacket
  generalize (if c.listenMode = .kernel then getPacket c.packet datagram
    else getRawPacket c.packet datagram) = read
  obtain ⟨packet, result⟩ := read
  have hread : Orderly { c with packet := packet } t.after := ⟨h.first, h.asked, h.prompt⟩
  cases result with
  | fatal =>
      dsimp only
      split
      · exact hread
      · exact ⟨hread.first, hread.asked, hread.prompt⟩
  | ignored => exact hread
  | overrun =>
      refine hread.of_act .crash rfl _ rfl rfl Or.inl ?_
      intro hrunning
      cases hrunning
  | bytes count =>
      dsimp only
      unfold Client.message
      split
      · exact hread
      · split
        · exact hread
        · exact hread.dispatch hnum _

theorem select (h : Orderly c now) (ht : Forward now t) (hrunning : c.running = true) :
    Orderly (c.select t) t.after := by
  unfold Client.select
  split
  · next hwaits =>
    have hnum := h.waited ht hrunning hwaits
    have hsame : Orderly c t.after :=
      ⟨h.first, h.asked, fun _ hstate hzero => absurd hzero (hnum hstate)⟩
    cases t.ready with
    | timeUp => exact h.timedOut
    | failed => exact hsame
    | datagram read =>
        dsimp only
        split
        · exact hsame
        · exact hsame.readPacket hnum read
    | signal sig =>
        cases sig with
        | usr1 => exact h.performRenew
        | usr2 => exact h.performRelease
        | term => exact h.exitClient 0 _
  · exact h.timedOut

theorem turn (h : Orderly c now) (ht : Forward now t) : Orderly (c.turn t) t.after := by
  have hopen := h.openSocket (t := t)
  unfold Client.turn
  split
  · dsimp only
    split
    · next hrunning => exact hopen.select ht hrunning
    · next hstopped =>
      exact ⟨hopen.first, hopen.asked, fun hrunning => absurd hrunning hstopped⟩
  · next hstopped => exact ⟨h.first, h.asked, fun hrunning => absurd hrunning hstopped⟩

end Orderly

/-- The client with the uptime its last turn ended at. -/
def clockedTurn (s : Client × Word) (t : Turn) : Client × Word := (s.1.turn t, t.after)

/-- On every run of the client with an uptime that does not run backwards, whatever packets come
and whenever they do: no address is put on the interface but in a transaction in which the client
has sent a request before. -/
theorem asked_before_bound (config : ClientConfig) (foreground : Bool)
    (requestedIp serverAddr : Addr) (bootpCntOffer : Int) (lease : Word) (packet : DhcpMessage)
    (now : Word) (turns : List Turn)
    (hclock : Along clockedTurn (fun s t => Forward s.2 t)
      (.enter config foreground requestedIp serverAddr bootpCntOffer lease packet, now) turns) :
    AskedFirst (exec clockedTurn
      (.enter config foreground requestedIp serverAddr bootpCntOffer lease packet, now)
      turns).1.acts := by
  let Inv : Client × Word → Prop := fun s => Orderly s.1 s.2
  have hnone : AskedFirst [] := by
    intro before xid addr again after heq
    cases (List.append_eq_nil_iff.mp heq.symm).2
  have hfirst : AskedFirst [.deconfig] := hnone.append_other rfl
  have hstart : Inv
      (.enter config foreground requestedIp serverAddr bootpCntOffer lease packet, now) :=
    Orderly.of_start hfirst (Or.inl rfl) rfl
  have hstep : ∀ s t, Inv s → Forward s.2 t → Inv (clockedTurn s t) :=
    fun _ _ hinv ht => Orderly.turn hinv ht
  exact (hclock.invariant hstep hstart).first

/-- A client that gets an address in the transaction zero. -/
theorem asked_before_bound_leased :
    ∃ offer ack,
      (exec clockedTurn (Lease.started, 5) (Lease.turns offer ack)).1.acts =
        [.deconfig, .discover 0 0, .selecting 0 0xc0a80101 0xc0a80105, .bound 0 0xc0a80105 false] ∧
      AskedFirst (exec clockedTurn (Lease.started, 5) (Lease.turns offer ack)).1.acts := by
  obtain ⟨offer, ack, h⟩ := Lease.datagrams
  have hturns := And.intro Lease.turn_discover
    (And.intro (Lease.turn_offer h) (And.intro Lease.turn_request (Lease.turn_ack h)))
  refine ⟨offer, ack, ?_, ?_⟩
  · simp only [exec, Lease.turns, List.foldl_cons, List.foldl_nil, clockedTurn, hturns]
    rfl
  · refine asked_before_bound _ true 0 0 1 0 (Lease.answer 2) 5 _ ?_
    change Along clockedTurn (fun s t => Forward s.2 t) (Lease.started, 5) (Lease.turns offer ack)
    simp only [Lease.turns, Along, clockedTurn, hturns, and_true]
    have hpacket : ∀ (now before after : Word) (read : Bytes), now.toNat ≤ before.toNat →
        before.toNat ≤ after.toNat → after.toNat < 2 ^ 31 →
        Forward now ⟨before, .datagram (some read), after, 0, true, false, true⟩ :=
      fun _ _ _ _ hbefore hafter hbounded => ⟨hbefore, hafter, hbounded⟩
    exact ⟨⟨by decide, by decide, by decide⟩,
      hpacket 5 5 6 offer (by decide) (by decide) (by decide), ⟨by decide, by decide, by decide⟩,
      hpacket 6 6 7 ack (by decide) (by decide) (by decide)⟩

end Xwr100.Udhcpc
