import Xwr100.Lib.Halving
import Xwr100.Udhcpc.Holding

/-! # How often a lease is renewed

Each request for more time halves what is left until T2, and then what is left of the lease, so that
for any lease time only so many requests are sent before the lease is given up.
-/

namespace Xwr100.Udhcpc

open Lib Net Udhcpd

/-- Requests for more time since the last lease. -/
def Act.counts (n : Nat) : Act → Nat
  | .bound _ _ _ => 0
  | .renew _ _ _ => n + 1
  | _ => n

def renewals (acts : List Act) : Nat := acts.foldl Act.counts 0

@[simp] theorem renewals_append (acts new : List Act) :
    renewals (acts ++ new) = new.foldl Act.counts (renewals acts) :=
  List.foldl_append

namespace Client

variable (c : Client)

/-- What `lease / 14400` comes to; with one more it is the distance that is not halved. -/
def grain : Nat := c.lease.toNat / 14400

/-- How often what is left until T2 is going to be halved. -/
def halvingsLeft : Nat := halvings c.grain (c.t2 - c.t1).toNat

def lastHalvings : Nat := halvings c.grain (c.lease - c.t2).toNat

def renewalsLeft : Nat :=
  match c.state with
  | .bound | .renewing => c.halvingsLeft + c.lastHalvings + 3
  | .rebinding => c.lastHalvings + 3
  | .renewRequested => 3 - c.packetNum
  | .initSelecting | .requesting | .released => 0

theorem le_grain_iff (gap : Word) : gap ≤ c.lease / 14400 + 1 ↔ gap.toNat ≤ c.grain + 1 := by
  have hlease := c.lease.isLt
  have hdiv : (c.lease / 14400).toNat = c.lease.toNat / 14400 := BitVec.toNat_udiv
  have hsum : (c.lease / 14400 + 1).toNat = c.lease.toNat / 14400 + 1 := by
    rw [BitVec.toNat_add, hdiv]
    exact Nat.mod_eq_of_lt (by
      change _ + 1 < 2 ^ 32
      omega)
  rw [BitVec.le_def, hsum, grain]

theorem halvings_halved {gap near far : Word} (hgap : gap = far - near)
    (h : ¬gap ≤ c.lease / 14400 + 1) :
    halvings c.grain gap.toNat =
      halvings c.grain (far - (gap / 2 + near)).toNat + 1 := by
  subst hgap
  rw [le_grain_iff] at h
  rw [halvings_of_lt (Nat.lt_of_not_le h), toNat_sub_halved]
  rfl

end Client

/-- How many requests for more time a lease can see.  The product that T2 is computed from
overflows for a lease of more than nineteen years. -/
def mostRenewals (lease : Word) : Nat := if lease.toNat * 7 < 2 ^ 32 then 27 else 34

def Within (c : Client) : Prop := renewals c.acts + c.renewalsLeft ≤ mostRenewals c.lease

theorem toNat_t2 {lease : Word} (h : lease.toNat * 7 < 2 ^ 32) :
    ((lease * 7) >>> 3).toNat = lease.toNat * 7 / 8 := by
  have hmul : (lease * 7).toNat = lease.toNat * 7 := by
    rw [BitVec.toNat_mul]
    exact Nat.mod_eq_of_lt h
  rw [BitVec.toNat_ushiftRight, hmul, Nat.shiftRight_eq_div_pow]

theorem toNat_t1 (lease : Word) : (lease / 2).toNat = lease.toNat / 2 := BitVec.toNat_udiv

theorem halvings_lease {lease : Word} (h : lease.toNat * 7 < 2 ^ 32) :
    halvings (lease.toNat / 14400) ((lease * 7) >>> 3 - lease / 2).toNat ≤ 13 ∧
      halvings (lease.toNat / 14400) (lease - (lease * 7) >>> 3).toNat ≤ 11 := by
  have ht1 := toNat_t1 lease
  have ht2 := toNat_t2 h
  constructor
  · apply halvings_le
    rw [BitVec.toNat_sub_of_le (by rw [BitVec.le_def]; omega), ht1, ht2]
    omega
  · apply halvings_le
    rw [BitVec.toNat_sub_of_le (by rw [BitVec.le_def]; omega), ht2]
    omega

/-- The halvings of a new lease when seven times its time overflows. -/
theorem halvings_overflowed {lease : Word} (h : ¬lease.toNat * 7 < 2 ^ 32) :
    halvings (lease.toNat / 14400) ((lease * 7) >>> 3 - lease / 2).toNat ≤ 17 ∧
      halvings (lease.toNat / 14400) (lease - (lease * 7) >>> 3).toNat ≤ 14 := by
  have hgap := ((lease * 7) >>> 3 - lease / 2).isLt
  have hsmall : ((lease * 7) >>> 3).toNat ≤ lease.toNat := by
    have hmul := (lease * 7).isLt
    rw [BitVec.toNat_ushiftRight, Nat.shiftRight_eq_div_pow]
    omega
  constructor
  · exact halvings_le (by omega)
  · apply halvings_le
    rw [BitVec.toNat_sub_of_le hsmall]
    omega

theorem discoverAgain_frame (c : Client) (t : Turn) :
    (c.discoverAgain t).state = c.state ∧ (c.discoverAgain t).lease = c.lease ∧
      renewals (c.discoverAgain t).acts = renewals c.acts := by
  unfold Client.discoverAgain Client.background Client.exitClient Client.act
  dsimp only
  split_ifs <;> simp [Act.counts]

namespace Within

variable {c : Client} (h : Within c) (t : Turn)

theorem bind (c : Client) (t : Turn) (lease : Word) : Within (c.bind t lease) := by
  have hleft : (c.bind t lease).renewalsLeft =
      halvings (lease.toNat / 14400) ((lease * 7) >>> 3 - lease / 2).toNat +
        halvings (lease.toNat / 14400) (lease - (lease * 7) >>> 3).toNat + 3 := rfl
  have hnone : renewals (c.bind t lease).acts = 0 := renewals_append _ _
  have hlease : (c.bind t lease).lease = lease := rfl
  rw [Within, hleft, hnone, hlease, mostRenewals]
  split
  · next hsmall =>
    obtain ⟨hfirst, hlast⟩ := halvings_lease hsmall
    omega
  · next hlarge =>
    obtain ⟨hfirst, hlast⟩ := halvings_overflowed hlarge
    omega

include h

theorem exitClient (retval : Nat) : Within (c.exitClient retval) := by
  have hacts : renewals (c.exitClient retval).acts = renewals c.acts := renewals_append _ _
  rw [Within, hacts]
  exact h

theorem background : Within (c.background t) := by
  unfold Client.background
  split
  · exact h
  · exact h.exitClient 1

theorem openSocket : Within (c.openSocket t) := by
  unfold Client.openSocket
  split
  · split
    · exact h
    · exact h.exitClient 0
  · exact h

/-- A state without a lease, after acts that are not requests for more time. -/
theorem of_none {c' : Client} (hleft : c'.renewalsLeft = 0) (hlease : c'.lease = c.lease)
    (hacts : renewals c'.acts = renewals c.acts) : Within c' := by
  rw [Within, hleft, hlease, hacts]
  exact Nat.le_trans (Nat.le_add_right _ _) h

theorem performRenew : Within c.performRenew := by
  unfold Within at h
  unfold Client.performRenew
  cases hstate : c.state
  all_goals
    simp only [Client.renewalsLeft, hstate] at h
    simp [Within, Client.renewalsLeft, Client.changeMode, Client.act, Act.counts, hstate]
    omega

theorem performRelease : Within (c.performRelease t) := by
  apply h.of_none rfl
  · unfold Client.performRelease
    cases c.state <;> rfl
  · unfold Client.performRelease
    cases c.state <;> simp [Client.changeMode, Client.act, Act.counts]

theorem discoverAgain (hstate : c.state = .initSelecting) : Within (c.discoverAgain t) := by
  obtain ⟨hsame, hlease, hacts⟩ := discoverAgain_frame c t
  apply h.of_none _ hlease hacts
  rw [Client.renewalsLeft, hsame, hstate]

theorem requestAgain (hstate : c.state = .renewRequested ∨ c.state = .requesting) :
    Within (c.requestAgain t) := by
  unfold Client.requestAgain
  split
  · next hnum =>
    unfold Within Client.renewalsLeft at *
    rcases hstate with hstate | hstate
    all_goals
      simp only [hstate] at h
      simp [Client.act, hstate, Act.counts]
      omega
  · apply h.of_none rfl
    · dsimp only [Client.changeMode]
      split <;> rfl
    · dsimp only [Client.changeMode]
      split
      · exact renewals_append _ _
      · rfl

theorem renewAgain (hstate : c.state = .renewing) : Within (c.renewAgain t) := by
  unfold Within Client.renewalsLeft at h
  rw [hstate] at h
  dsimp only at h
  unfold Client.renewAgain
  split
  · exact Nat.le_trans (Nat.add_le_add_left (by
      change c.lastHalvings + 3 ≤ _
      omega) _) h
  · next hgap =>
    have hone := c.halvings_halved rfl hgap
    have hacts : renewals (c.acts ++ [.renew c.xid c.serverAddr c.requestedIp]) =
        renewals c.acts + 1 := renewals_append _ _
    have hleft : c.halvingsLeft =
        halvings c.grain (c.t2 - ((c.t2 - c.t1) / 2 + c.t1)).toNat + 1 := hone
    simp only [Within, Client.renewalsLeft, Client.act, hstate, hacts]
    rw [hleft] at h
    exact Nat.le_trans (Nat.le_of_eq (by
      change _ + (_ + c.lastHalvings + 3) = _
      simp only [Client.halvingsLeft, Client.grain]
      omega)) h

theorem rebindAgain (hstate : c.state = .rebinding) : Within (c.rebindAgain t) := by
  unfold Client.rebindAgain
  split
  · exact h.of_none rfl rfl (renewals_append _ _)
  · next hgap =>
    have hone := c.halvings_halved rfl hgap
    have hacts : renewals (c.acts ++ [.renew c.xid 0 c.requestedIp]) = renewals c.acts + 1 :=
      renewals_append _ _
    have hleft : c.lastHalvings =
        halvings c.grain (c.lease - ((c.lease - c.t2) / 2 + c.t2)).toNat + 1 := hone
    unfold Within Client.renewalsLeft at h
    rw [hstate] at h
    dsimp only at h
    rw [hleft] at h
    simp only [Within, Client.renewalsLeft, Client.act, hstate, hacts]
    exact Nat.le_trans (Nat.le_of_eq (by
      simp only [Client.lastHalvings, Client.grain]
      omega)) h

theorem timedOut : Within (c.timedOut t) := by
  unfold Client.timedOut
  cases hstate : c.state
  case initSelecting => exact h.discoverAgain t hstate
  case requesting => exact h.requestAgain t (Or.inr hstate)
  case renewRequested => exact h.requestAgain t (Or.inl hstate)
  case renewing => exact h.renewAgain t hstate
  case rebinding => exact h.rebindAgain t hstate
  case released =>
    unfold Within Client.renewalsLeft at h
    rw [hstate] at h
    exact h
  case bound =>
    have hrenewing : Within ({ c with state := .renewing }.changeMode .kernel) := by
      unfold Within Client.renewalsLeft at h
      rw [hstate] at h
      exact h
    exact hrenewing.renewAgain t rfl

theorem onOffer (hstate : c.state = .initSelecting) : Within (c.onOffer t) := by
  have hleft : c.renewalsLeft = 0 := by rw [Client.renewalsLeft, hstate]
  have htake : Within (c.takeOffer t) := by
    unfold Client.takeOffer
    split
    · exact h
    · exact h.of_none rfl rfl rfl
  unfold Client.onOffer
  split
  · exact h
  · split
    · split
      · exact htake
      · exact h
    · exact htake

theorem onAck : Within (c.onAck t) := by
  have hbind := Within.bind c t c.ackLease
  unfold Client.onAck
  split
  · exact h
  · dsimp only
    split
    · exact hbind.exitClient 0
    · split
      · exact hbind.background t
      · exact hbind

theorem onNak : Within (c.onNak t) := by
  apply h.of_none rfl
  · unfold Client.onNak Client.changeMode
    dsimp only
    split <;> rfl
  · unfold Client.onNak Client.changeMode Client.act
    dsimp only
    split <;> simp [Act.counts]

theorem dispatch (message : UInt8) : Within (c.dispatch t message) := by
  unfold Client.dispatch
  cases hstate : c.state
  case initSelecting =>
    dsimp only
    split
    · exact h.onOffer t hstate
    · exact h
  case bound => exact h
  case released => exact h
  all_goals
    dsimp only
    split
    · exact h.onAck t
    · split
      · exact h.onNak t
      · exact h

theorem message : Within (c.message t) := by
  unfold Client.message
  split
  · exact h
  · split
    · exact h
    · exact h.dispatch t _

theorem readPacket (datagram : Option Bytes) : Within (c.readPacket t datagram) := by
  unfold Client.readPacket
  generalize (if c.listenMode = .kernel then getPacket c.packet datagram
    else getRawPacket c.packet datagram) = read
  obtain ⟨packet, result⟩ := read
  have hread : Within { c with packet := packet } := h
  cases result with
  | fatal =>
      dsimp only
      split
      · exact hread
      · exact hread
  | ignored => exact hread
  | overrun =>
      have hacts : renewals (c.acts ++ [.crash]) = renewals c.acts := renewals_append _ _
      have hsame : renewals (c.acts ++ [.crash]) + c.renewalsLeft ≤ mostRenewals c.lease := by
        rw [hacts]
        exact h
      exact hsame
  | bytes count => exact hread.message t

theorem select : Within (c.select t) := by
  unfold Client.select
  split
  · cases t.ready with
    | timeUp => exact h.timedOut t
    | datagram read =>
        dsimp only
        split
        · exact h
        · exact h.readPacket t read
    | failed => exact h
    | signal sig =>
        cases sig with
        | usr1 => exact h.performRenew
        | usr2 => exact h.performRelease t
        | term => exact h.exitClient 0
  · exact h.timedOut t

theorem turn : Within (c.turn t) := by
  have hopen := h.openSocket t
  unfold Client.turn
  split
  · dsimp only
    split
    · exact hopen.select t
    · exact hopen
  · exact h

end Within

/-- On every run of the client, for every lease time it is granted: between one acknowledgement and
the next it sends no more than 27 requests for more time, or 34 when the lease is so long that the
product T2 is computed from overflows. -/
theorem renewals_bounded (config : ClientConfig) (foreground : Bool)
    (requestedIp serverAddr : Addr) (bootpCntOffer : Int) (lease : Word) (packet : DhcpMessage)
    (turns : List Turn) :
    let c := exec Client.turn
      (.enter config foreground requestedIp serverAddr bootpCntOffer lease packet) turns
    renewals c.acts ≤ mostRenewals c.lease := by
  have hstart : Within
      (.enter config foreground requestedIp serverAddr bootpCntOffer lease packet) :=
    Nat.zero_le _
  have hall : Along Client.turn (fun _ _ => True)
      (.enter config foreground requestedIp serverAddr bootpCntOffer lease packet) turns :=
    along_of_forall fun _ _ => trivial
  have hstep : ∀ c t, Within c → True → Within (c.turn t) := fun _ t h _ => h.turn t
  have hend := hall.invariant hstep hstart
  exact Nat.le_trans (Nat.le_add_right _ _) hend

end Xwr100.Udhcpc
