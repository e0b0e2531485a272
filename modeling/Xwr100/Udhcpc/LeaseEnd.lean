import Xwr100.Udhcpc.Renewals

/-! # The end of a lease

A client whose turns are never more than `d` seconds late takes the address off the interface when
the lease is over.  What has to be counted is how many turns there can be, since each may be late by
itself; the halvings bound that.
-/

namespace Xwr100.Udhcpc

open Lib Net Udhcpd

/-! ## Deadlines -/

/-- How long the requests that the user asked for have been waited for. -/
def pause : Nat → Nat
  | 0 => 0
  | 1 => 2
  | 2 => 4
  | _ => 14

theorem pause_le (n : Nat) : pause n ≤ 14 := by
  unfold pause
  split <;> decide

theorem pause_succ {n : Nat} (h : n < 3) : pause (n + 1) = pause n + if n = 2 then 10 else 2 := by
  have hcases : n = 0 ∨ n = 1 ∨ n = 2 := by omega
  rcases hcases with rfl | rfl | rfl <;> rfl

namespace Client

variable (c : Client)

/-- How many times the time can be up until the address is given up. -/
def turnsLeft : Nat :=
  match c.state with
  | .bound | .renewing => c.halvingsLeft + c.lastHalvings + 2
  | .rebinding => c.lastHalvings + 1
  | _ => 0

/-- When the state is due to be left if no turn is late. -/
def dueBy : Nat :=
  match c.state with
  | .bound | .renewing => c.start.toNat + c.t1.toNat
  | .rebinding => c.start.toNat + c.t2.toNat
  | .renewRequested => c.start.toNat + c.lease.toNat + pause c.packetNum
  | _ => 0

def lateTurns : Nat :=
  match c.state with
  | .bound | .renewing | .rebinding => 2 * (26 - c.turnsLeft)
  | .renewRequested => 53 + 2 * c.packetNum
  | _ => 0

end Client

/-- The times of a lease are in order, and the client is no later than its turns can be. -/
structure OnTime (d : Nat) (c : Client) (now : Nat) : Prop where
  small : c.lease.toNat * 7 < 2 ^ 32
  started : c.start.toNat < 2 ^ 30
  order : c.t1.toNat ≤ c.t2.toNat ∧ c.t2.toNat ≤ c.lease.toNat
  turns : c.turnsLeft ≤ 26
  requests : c.state = .renewRequested → c.packetNum ≤ 3
  deadline : c.timeout.toNat ≤ c.dueBy + c.lateTurns * d
  now : now ≤ c.dueBy + (c.lateTurns + 1) * d

/-- A turn of a loop that is at most `d` seconds late: after the deadline if it waits for one, and
after the turn before if it does not. -/
structure Timely (d : Nat) (c : Client) (now : Nat) (t : Turn) : Prop where
  bounded : t.after.toNat < 2 ^ 30
  waits : c.Waits t → t.after.toNat ≤ c.timeout.toNat + d
  passed : ¬c.Waits t → t.after.toNat ≤ now + d

/-- Times below 34 years do not overflow. -/
theorem toNat_add_of_lt {a b : Word} (ha : a.toNat < 2 ^ 30) (hb : b.toNat < 2 ^ 31) :
    (a + b).toNat = a.toNat + b.toNat := by
  rw [BitVec.toNat_add]
  exact Nat.mod_eq_of_lt (by omega)

namespace OnTime

variable {d now : Nat} {c : Client} {t : Turn}

theorem dueBy_le (h : OnTime d c now) : c.dueBy ≤ c.start.toNat + c.lease.toNat + 14 := by
  have horder := h.order
  have hpause := pause_le c.packetNum
  unfold Client.dueBy
  split <;> omega

theorem lateTurns_le (h : OnTime d c now) : c.lateTurns ≤ 59 := by
  have hrequests := h.requests
  unfold Client.lateTurns
  split
  · omega
  · omega
  · omega
  · next hstate =>
    have hnum := hrequests hstate
    omega
  · omega

/-- The address is held no longer than this. -/
theorem now_le (h : OnTime d c now) :
    now ≤ c.start.toNat + c.lease.toNat + 14 + 60 * d := by
  have hnow := h.now
  have hdue := h.dueBy_le
  have hlate := h.lateTurns_le
  have hmul : (c.lateTurns + 1) * d ≤ 60 * d := Nat.mul_le_mul_right d (by omega)
  omega

/-- A turn that waited ends by the deadline, and any turn a little later. -/
theorem after_le (h : OnTime d c now) (ht : Timely d c now t) :
    t.after.toNat ≤ c.dueBy + (c.lateTurns + 2) * d := by
  have hdeadline := h.deadline
  have hnow := h.now
  have hone : (c.lateTurns + 1) * d = c.lateTurns * d + d := Nat.succ_mul _ _
  have htwo : (c.lateTurns + 2) * d = c.lateTurns * d + 2 * d := Nat.add_mul _ _ _
  by_cases hwaits : c.Waits t
  · have hafter := ht.waits hwaits
    omega
  · have hafter := ht.passed hwaits
    omega

theorem after_le_of_waits (h : OnTime d c now) (ht : Timely d c now t) (hwaits : c.Waits t) :
    t.after.toNat ≤ c.dueBy + (c.lateTurns + 1) * d := by
  have hdeadline := h.deadline
  have hone : (c.lateTurns + 1) * d = c.lateTurns * d + d := Nat.succ_mul _ _
  have hafter := ht.waits hwaits
  omega

theorem waited (h : OnTime d c now) (ht : Timely d c now t) (hwaits : c.Waits t) :
    OnTime d c t.after.toNat :=
  { h with now := h.after_le_of_waits ht hwaits }

theorem bind {lease : Word} (hsmall : lease.toNat * 7 < 2 ^ 32) (hafter : t.after.toNat < 2 ^ 30) :
    OnTime d (c.bind t lease) t.after.toNat := by
  have ht1 := toNat_t1 lease
  have ht2 := toNat_t2 hsmall
  obtain ⟨hfirst, hlast⟩ := halvings_lease hsmall
  have htimeout : (lease / 2 + t.after).toNat = lease.toNat / 2 + t.after.toNat := by
    rw [BitVec.toNat_add, ht1]
    exact Nat.mod_eq_of_lt (by omega)
  have hdue : (c.bind t lease).dueBy = t.after.toNat + (lease / 2).toNat := rfl
  refine ⟨hsmall, hafter, ⟨?_, ?_⟩, ?_, ?_, ?_, ?_⟩
  · change (lease / 2).toNat ≤ ((lease * 7) >>> 3).toNat
    omega
  · change ((lease * 7) >>> 3).toNat ≤ lease.toNat
    omega
  · change halvings (lease.toNat / 14400) ((lease * 7) >>> 3 - lease / 2).toNat +
      halvings (lease.toNat / 14400) (lease - (lease * 7) >>> 3).toNat + 2 ≤ 26
    omega
  · intro hstate
    cases hstate
  · change (lease / 2 + t.after).toNat ≤ _
    rw [hdue]
    omega
  · rw [hdue]
    omega

/-- Entering the state for renewing, which the time that is up does before it does anything else. -/
theorem enterRenewing (h : OnTime d c now) (hstate : c.state = .bound) :
    OnTime d ({ c with state := .renewing }.changeMode .kernel) now := by
  have hturns := h.turns
  have hdeadline := h.deadline
  have hnow := h.now
  simp only [Client.turnsLeft, Client.dueBy, Client.lateTurns, hstate] at hturns hdeadline hnow
  exact ⟨h.small, h.started, h.order, hturns, (fun hcontra => by cases hcontra), hdeadline, hnow⟩

theorem renewAgain (h : OnTime d c now) (ht : Timely d c now t) (hstate : c.state = .renewing) :
    OnTime d (c.renewAgain t) t.after.toNat := by
  have hafter := h.after_le ht
  obtain ⟨hlow, hhigh⟩ := h.order
  have hsmall := h.small
  have hstarted := h.started
  have hbounded := ht.bounded
  have hturns := h.turns
  have hgapNat : (c.t2 - c.t1).toNat = c.t2.toNat - c.t1.toNat :=
    BitVec.toNat_sub_of_le hlow
  have hleft : c.turnsLeft = c.halvingsLeft + c.lastHalvings + 2 := by
    simp only [Client.turnsLeft, hstate]
  have hlate : c.lateTurns = 2 * (26 - c.turnsLeft) := by simp only [Client.lateTurns, hstate]
  have hdue : c.dueBy = c.start.toNat + c.t1.toNat := by simp only [Client.dueBy, hstate]
  unfold Client.renewAgain
  split
  · next hgap =>
    have hnone : c.halvingsLeft = 0 := halvings_of_le ((c.le_grain_iff _).mp hgap)
    have htimeout : (t.after + (c.t2 - c.t1)).toNat = t.after.toNat + (c.t2.toNat - c.t1.toNat) := by
      rw [BitVec.toNat_add, hgapNat]
      exact Nat.mod_eq_of_lt (by omega)
    have hmore : (c.lateTurns + 2) * d = 2 * (26 - (c.lastHalvings + 1)) * d := by
      congr 1
      omega
    refine ⟨hsmall, hstarted, ⟨hlow, hhigh⟩, ?_, ?_, ?_, ?_⟩
    · change c.lastHalvings + 1 ≤ 26
      omega
    · intro hcontra
      cases hcontra
    · change (t.after + (c.t2 - c.t1)).toNat ≤
        c.start.toNat + c.t2.toNat + 2 * (26 - (c.lastHalvings + 1)) * d
      omega
    · change t.after.toNat ≤
        c.start.toNat + c.t2.toNat + (2 * (26 - (c.lastHalvings + 1)) + 1) * d
      rw [Nat.succ_mul]
      omega
  · next hgap =>
    have hone : c.halvingsLeft = halvings c.grain (c.t2 - ((c.t2 - c.t1) / 2 + c.t1)).toNat + 1 :=
      c.halvings_halved rfl hgap
    have ht1 : ((c.t2 - c.t1) / 2 + c.t1).toNat = (c.t2.toNat - c.t1.toNat) / 2 + c.t1.toNat := by
      have hhalf : ((c.t2 - c.t1) / 2).toNat = (c.t2.toNat - c.t1.toNat) / 2 := by
        rw [BitVec.toNat_udiv, hgapNat]
        rfl
      rw [BitVec.toNat_add, hhalf]
      exact Nat.mod_eq_of_lt (by omega)
    generalize hnew : (c.t2 - c.t1) / 2 + c.t1 = t1 at *
    have htimeout : (t1 + c.start).toNat = t1.toNat + c.start.toNat := by
      rw [BitVec.toNat_add]
      exact Nat.mod_eq_of_lt (by omega)
    have hleft' : c.turnsLeft = halvings c.grain (c.t2 - t1).toNat + c.lastHalvings + 2 + 1 := by
      omega
    have hmore : (c.lateTurns + 2) * d =
        2 * (26 - (halvings c.grain (c.t2 - t1).toNat + c.lastHalvings + 2)) * d := by
      congr 1
      omega
    simp only [Client.act]
    refine ⟨hsmall, hstarted, ⟨?_, hhigh⟩, ?_, ?_, ?_, ?_⟩
    · change t1.toNat ≤ c.t2.toNat
      omega
    · simp only [Client.turnsLeft, hstate]
      change halvings c.grain (c.t2 - t1).toNat + c.lastHalvings + 2 ≤ 26
      omega
    · intro hcontra
      cases hstate.symm.trans hcontra
    · simp only [Client.dueBy, Client.lateTurns, Client.turnsLeft, hstate]
      change (t1 + c.start).toNat ≤ c.start.toNat + t1.toNat +
        2 * (26 - (halvings c.grain (c.t2 - t1).toNat + c.lastHalvings + 2)) * d
      omega
    · simp only [Client.dueBy, Client.lateTurns, Client.turnsLeft, hstate]
      change t.after.toNat ≤ c.start.toNat + t1.toNat +
        (2 * (26 - (halvings c.grain (c.t2 - t1).toNat + c.lastHalvings + 2)) + 1) * d
      rw [Nat.succ_mul]
      omega

theorem rebindAgain (h : OnTime d c now) (ht : Timely d c now t) (hstate : c.state = .rebinding)
    (hholds : (c.rebindAgain t).state.holds = true) :
    OnTime d (c.rebindAgain t) t.after.toNat := by
  have hafter := h.after_le ht
  obtain ⟨hlow, hhigh⟩ := h.order
  have hsmall := h.small
  have hstarted := h.started
  have hturns := h.turns
  have hgapNat : (c.lease - c.t2).toNat = c.lease.toNat - c.t2.toNat :=
    BitVec.toNat_sub_of_le hhigh
  have hleft : c.turnsLeft = c.lastHalvings + 1 := by simp only [Client.turnsLeft, hstate]
  have hlate : c.lateTurns = 2 * (26 - c.turnsLeft) := by simp only [Client.lateTurns, hstate]
  have hdue : c.dueBy = c.start.toNat + c.t2.toNat := by simp only [Client.dueBy, hstate]
  unfold Client.rebindAgain at hholds ⊢
  split at hholds
  · cases hholds
  · next hgap =>
    rw [if_neg hgap]
    have hone : c.lastHalvings =
        halvings c.grain (c.lease - ((c.lease - c.t2) / 2 + c.t2)).toNat + 1 :=
      c.halvings_halved rfl hgap
    have ht2 : ((c.lease - c.t2) / 2 + c.t2).toNat =
        (c.lease.toNat - c.t2.toNat) / 2 + c.t2.toNat := by
      have hhalf : ((c.lease - c.t2) / 2).toNat = (c.lease.toNat - c.t2.toNat) / 2 := by
        rw [BitVec.toNat_udiv, hgapNat]
        rfl
      rw [BitVec.toNat_add, hhalf]
      exact Nat.mod_eq_of_lt (by omega)
    generalize hnew : (c.lease - c.t2) / 2 + c.t2 = t2 at *
    have htimeout : (t2 + c.start).toNat = t2.toNat + c.start.toNat := by
      rw [BitVec.toNat_add]
      exact Nat.mod_eq_of_lt (by omega)
    have hmore : (c.lateTurns + 2) * d =
        2 * (26 - (halvings c.grain (c.lease - t2).toNat + 1)) * d := by
      congr 1
      omega
    simp only [Client.act]
    refine ⟨hsmall, hstarted, ⟨?_, ?_⟩, ?_, ?_, ?_, ?_⟩
    · change c.t1.toNat ≤ t2.toNat
      omega
    · change t2.toNat ≤ c.lease.toNat
      omega
    · simp only [Client.turnsLeft, hstate]
      change halvings c.grain (c.lease - t2).toNat + 1 ≤ 26
      omega
    · intro hcontra
      cases hstate.symm.trans hcontra
    · simp only [Client.dueBy, Client.lateTurns, Client.turnsLeft, hstate]
      change (t2 + c.start).toNat ≤ c.start.toNat + t2.toNat +
        2 * (26 - (halvings c.grain (c.lease - t2).toNat + 1)) * d
      omega
    · simp only [Client.dueBy, Client.lateTurns, Client.turnsLeft, hstate]
      change t.after.toNat ≤ c.start.toNat + t2.toNat +
        (2 * (26 - (halvings c.grain (c.lease - t2).toNat + 1)) + 1) * d
      rw [Nat.succ_mul]
      omega

theorem performRenew (h : OnTime d c now) (ht : Timely d c now t) (hwaits : c.Waits t)
    (hholds : c.performRenew.state.holds = true) : OnTime d c.performRenew t.after.toNat := by
  have hafter := h.after_le_of_waits ht hwaits
  obtain ⟨hlow, hhigh⟩ := h.order
  have hlate : c.state ≠ .renewRequested → c.lateTurns + 1 ≤ 53 := by
    intro hstate
    unfold Client.lateTurns
    split
    · omega
    · omega
    · omega
    · next hcontra => exact absurd hcontra hstate
    · omega
  have hdue : c.state ≠ .renewRequested → c.dueBy ≤ c.start.toNat + c.lease.toNat := by
    intro hstate
    unfold Client.dueBy
    split
    · omega
    · omega
    · omega
    · next hcontra => exact absurd hcontra hstate
    · omega
  -- the new state gives all the turns before it as late
  have hrequested : c.state ≠ .renewRequested →
      t.after.toNat ≤ c.start.toNat + c.lease.toNat + 53 * d := by
    intro hstate
    have hmul : (c.lateTurns + 1) * d ≤ 53 * d := Nat.mul_le_mul_right d (hlate hstate)
    have hless := hdue hstate
    omega
  unfold Client.performRenew at hholds ⊢
  cases hstate : c.state
  all_goals
    rw [hstate] at hholds hrequested
    dsimp only at hholds
  case initSelecting => rw [hstate] at hholds; cases hholds
  case requesting => cases hholds
  case released => cases hholds
  case renewRequested => cases hholds
  all_goals
    have hlast := hrequested (by decide)
    refine ⟨h.small, h.started, ⟨hlow, hhigh⟩, Nat.zero_le _, fun _ => Nat.zero_le _,
      Nat.zero_le _, ?_⟩
    change t.after.toNat ≤ c.start.toNat + c.lease.toNat + 0 + (53 + 0 + 1) * d
    rw [Nat.succ_mul]
    omega

theorem requestAgain (h : OnTime d c now) (ht : Timely d c now t)
    (hstate : c.state = .renewRequested) (hholds : (c.requestAgain t).state.holds = true) :
    OnTime d (c.requestAgain t) t.after.toNat := by
  have hafter := h.after_le ht
  have hbounded := ht.bounded
  have hlate : c.lateTurns = 53 + 2 * c.packetNum := by simp only [Client.lateTurns, hstate]
  have hdue : c.dueBy = c.start.toNat + c.lease.toNat + pause c.packetNum := by
    simp only [Client.dueBy, hstate]
  unfold Client.requestAgain at hholds ⊢
  split at hholds
  · next hnum =>
    rw [if_pos hnum]
    have hpause := pause_succ hnum
    have htimeout : (t.after + (if c.packetNum = 2 then 10 else 2)).toNat =
        t.after.toNat + if c.packetNum = 2 then 10 else 2 := by
      split
      · exact toNat_add_of_lt (b := 10) hbounded (by decide)
      · exact toNat_add_of_lt (b := 2) hbounded (by decide)
    have hmore : (c.lateTurns + 2) * d = (53 + 2 * (c.packetNum + 1)) * d := by
      congr 1
      omega
    simp only [Client.act]
    refine ⟨h.small, h.started, h.order, ?_, ?_, ?_, ?_⟩
    · simp only [Client.turnsLeft, hstate]
      exact Nat.zero_le _
    · intro _
      exact hnum
    · simp only [Client.dueBy, Client.lateTurns, hstate]
      omega
    · simp only [Client.dueBy, Client.lateTurns, hstate]
      rw [Nat.succ_mul]
      omega
  · cases hholds

theorem timedOut (h : OnTime d c now) (ht : Timely d c now t) (hstate : c.state.holds = true)
    (hholds : (c.timedOut t).state.holds = true) : OnTime d (c.timedOut t) t.after.toNat := by
  unfold Client.timedOut at hholds ⊢
  cases hcase : c.state
  all_goals
    rw [hcase] at hstate hholds
    dsimp only at hholds ⊢
  case initSelecting => cases hstate
  case requesting => cases hstate
  case released => cases hstate
  case renewing => exact h.renewAgain ht hcase
  case rebinding => exact h.rebindAgain ht hcase hholds
  case renewRequested => exact h.requestAgain ht hcase hholds
  case bound =>
    have htimely : Timely d ({ c with state := .renewing }.changeMode .kernel) now t :=
      ⟨ht.bounded, ht.waits, ht.passed⟩
    exact (h.enterRenewing hcase).renewAgain htimely rfl

end OnTime

/-! ## Runs -/

/-- As long as the client runs, it is on time with the address it holds. -/
def Punctual (d : Nat) (c : Client) (now : Nat) : Prop :=
  c.running = true → c.state.holds = true → OnTime d c now

theorem Punctual.of_not_holds {d now : Nat} {c : Client} (h : c.state.holds = false) :
    Punctual d c now := fun _ hholds => by
  rw [h] at hholds
  cases hholds

theorem Punctual.of_stopped {d now : Nat} {c : Client} (h : c.running = false) :
    Punctual d c now := fun hrunning => by
  rw [h] at hrunning
  cases hrunning

/-- The lease times are short enough for T2 to be computed. -/
def ShortLease (c : Client) : Prop := c.state.holds = true → c.lease.toNat * 7 < 2 ^ 32

section Turns

variable {d now : Nat} {c : Client} {t : Turn}

theorem punctual_timedOut (h : c.state.holds = true → OnTime d c now) (ht : Timely d c now t) :
    Punctual d (c.timedOut t) t.after.toNat := by
  intro _ hholds
  by_cases hstate : c.state.holds = true
  · exact (h hstate).timedOut ht hstate hholds
  · -- a state without a lease does not get one from the time alone
    exfalso
    unfold Client.timedOut at hholds
    cases hcase : c.state
    all_goals
      rw [hcase] at hstate hholds
      dsimp only at hholds
    case bound => exact hstate rfl
    case renewing => exact hstate rfl
    case rebinding => exact hstate rfl
    case renewRequested => exact hstate rfl
    case released => cases hholds
    case initSelecting =>
      rw [(discoverAgain_frame c t).1, hcase] at hholds
      cases hholds
    case requesting =>
      unfold Client.requestAgain at hholds
      split at hholds
      · dsimp only [Client.act] at hholds
        rw [hcase] at hholds
        cases hholds
      · cases hholds

theorem punctual_onAck (h : c.state.holds = true → OnTime d c t.after.toNat)
    (hbounded : t.after.toNat < 2 ^ 30) (hshort : ShortLease (c.onAck t)) :
    Punctual d (c.onAck t) t.after.toNat := by
  unfold Client.onAck at hshort ⊢
  split
  · exact fun _ hholds => h hholds
  · next hours =>
    rw [if_neg hours] at hshort
    dsimp only at hshort ⊢
    split
    · exact .of_stopped rfl
    · next hquit =>
      rw [if_neg hquit] at hshort
      split
      · next hforeground =>
        rw [if_pos hforeground] at hshort
        unfold Client.background at hshort ⊢
        split
        · next hdaemon =>
          rw [if_pos hdaemon] at hshort
          intro _ _
          have hbind := OnTime.bind (d := d) (c := c) (hshort rfl) hbounded
          exact ⟨hbind.small, hbind.started, hbind.order, hbind.turns, hbind.requests,
            hbind.deadline, hbind.now⟩
        · exact .of_stopped rfl
      · next hforeground =>
        rw [if_neg hforeground] at hshort
        exact fun _ _ => OnTime.bind (hshort rfl) hbounded

theorem punctual_dispatch (h : c.state.holds = true → OnTime d c t.after.toNat)
    (hbounded : t.after.toNat < 2 ^ 30) (message : UInt8)
    (hshort : ShortLease (c.dispatch t message)) :
    Punctual d (c.dispatch t message) t.after.toNat := by
  have hsame : Punctual d c t.after.toNat := fun _ hholds => h hholds
  have hanswer : ShortLease (if message = 5 then c.onAck t else if message = 6 then c.onNak t else c) →
      Punctual d (if message = 5 then c.onAck t else if message = 6 then c.onNak t else c)
        t.after.toNat := by
    intro hshort
    split
    · next hack =>
      rw [if_pos hack] at hshort
      exact punctual_onAck h hbounded hshort
    · split
      · exact .of_not_holds rfl
      · exact hsame
  unfold Client.dispatch at hshort ⊢
  cases hstate : c.state
  all_goals
    rw [hstate] at hshort
    dsimp only at hshort ⊢
  case bound => exact hsame
  case released => exact hsame
  case initSelecting =>
    have hnone : c.state.holds = false := by
      rw [hstate]
      rfl
    apply Punctual.of_not_holds
    split
    · unfold Client.onOffer Client.takeOffer
      repeat' split
      all_goals first | exact hnone | rfl
    · exact hnone
  all_goals exact hanswer hshort

theorem punctual_readPacket (h : c.state.holds = true → OnTime d c t.after.toNat)
    (hbounded : t.after.toNat < 2 ^ 30) (datagram : Option Bytes)
    (hshort : ShortLease (c.readPacket t datagram)) :
    Punctual d (c.readPacket t datagram) t.after.toNat := by
  unfold Client.readPacket at hshort ⊢
  generalize (if c.listenMode = .kernel then getPacket c.packet datagram
    else getRawPacket c.packet datagram) = read at hshort ⊢
  obtain ⟨packet, result⟩ := read
  have hread : ∀ fd mode, c.state.holds = true →
      OnTime d { c with packet := packet, fdOpen := fd, listenMode := mode } t.after.toNat := by
    intro fd mode hholds
    have hsame := h hholds
    exact ⟨hsame.small, hsame.started, hsame.order, hsame.turns, hsame.requests, hsame.deadline,
      hsame.now⟩
  cases result with
  | fatal =>
      dsimp only
      split
      · exact fun _ hholds => hread c.fdOpen c.listenMode hholds
      · exact fun _ hholds => hread false c.listenMode hholds
  | ignored => exact fun _ hholds => hread c.fdOpen c.listenMode hholds
  | overrun => exact .of_stopped rfl
  | bytes count =>
      dsimp only at hshort ⊢
      unfold Client.message at hshort ⊢
      split
      · exact fun _ hholds => hread c.fdOpen c.listenMode hholds
      · next hxid =>
        rw [if_neg hxid] at hshort
        split
        · exact fun _ hholds => hread c.fdOpen c.listenMode hholds
        · next pos hpos =>
          rw [hpos] at hshort
          exact punctual_dispatch (hread c.fdOpen c.listenMode) hbounded _ hshort

theorem punctual_select (h : c.state.holds = true → OnTime d c now) (ht : Timely d c now t)
    (hshort : ShortLease (c.select t)) : Punctual d (c.select t) t.after.toNat := by
  unfold Client.select at hshort ⊢
  split
  · next hwaits =>
    have hwaited : c.state.holds = true → OnTime d c t.after.toNat :=
      fun hholds => (h hholds).waited ht hwaits
    rw [if_pos hwaits] at hshort
    cases hready : t.ready with
    | timeUp => exact punctual_timedOut h ht
    | failed => exact fun _ => hwaited
    | datagram read =>
        rw [hready] at hshort
        dsimp only at hshort ⊢
        split
        · exact fun _ => hwaited
        · next hmode =>
          rw [if_neg hmode] at hshort
          exact punctual_readPacket hwaited ht.bounded read hshort
    | signal sig =>
        cases sig with
        | usr1 =>
            intro _ hholds
            change c.performRenew.state.holds = true at hholds
            by_cases hstate : c.state.holds = true
            · exact (h hstate).performRenew ht hwaits hholds
            · exfalso
              unfold Client.performRenew at hholds
              cases hcase : c.state
              all_goals
                rw [hcase] at hstate hholds
                dsimp only at hholds
              case initSelecting =>
                rw [hcase] at hholds
                cases hholds
              all_goals first | exact hstate rfl | cases hholds
        | usr2 => exact .of_not_holds rfl
        | term => exact .of_stopped rfl
  · exact punctual_timedOut h ht

theorem punctual_turn (h : Punctual d c now) (ht : Timely d c now t)
    (hshort : ShortLease (c.turn t)) : Punctual d (c.turn t) t.after.toNat := by
  unfold Client.turn at hshort ⊢
  split
  · next hrunning =>
    rw [if_pos hrunning] at hshort
    dsimp only at hshort ⊢
    have hopened : (c.openSocket t).state.holds = true → OnTime d (c.openSocket t) now := by
      intro hholds
      rw [openSocket_state] at hholds
      have hsame := h hrunning hholds
      unfold Client.openSocket
      split
      · split
        all_goals
          exact ⟨hsame.small, hsame.started, hsame.order, hsame.turns, hsame.requests,
            hsame.deadline, hsame.now⟩
      · exact hsame
    have hwaits : (c.openSocket t).Waits t ↔ c.Waits t := by
      rw [Client.Waits, Client.Waits, openSocket_timeout]
    have htimely : Timely d (c.openSocket t) now t :=
      ⟨ht.bounded, fun hw => by rw [openSocket_timeout]; exact ht.waits (hwaits.mp hw),
        fun hw => ht.passed fun hw' => hw (hwaits.mpr hw')⟩
    split
    · next hrun =>
      rw [if_pos hrun] at hshort
      exact punctual_select hopened htimely hshort
    · next hrun =>
      exact .of_stopped (Bool.eq_false_iff.mpr hrun)
  · next hrunning => exact .of_stopped (Bool.eq_false_iff.mpr hrunning)

end Turns

/-- The client with the time its last turn ended. -/
def timedTurn (s : Client × Nat) (t : Turn) : Client × Nat := (s.1.turn t, t.after.toNat)

/-- A turn as it should be: no more than `d` seconds late, with no release while a renewal asked for
by the user is under way, and no lease of more than nineteen years. -/
def InOrder (d : Nat) (s : Client × Nat) (t : Turn) : Prop :=
  Timely d s.1 s.2 t ∧ ¬Abandons s.1 t ∧ ShortLease (s.1.turn t)

/-- The address is on the interface at most until the lease is over, with a quarter of a minute for
requests of the user and what the turns are late. -/
def GivenUp (d : Nat) (s : Client × Nat) (t : Turn) : Prop :=
  (s.1.turn t).running = true → ∀ addr, onInterface (s.1.turn t).acts = some addr →
    t.after.toNat ≤ (s.1.turn t).start.toNat + (s.1.turn t).lease.toNat + 14 + 60 * d

/-- On every run of the client whose turns are in order, however many packets and signals there are
and whatever they say: an address that was acknowledged at time `start` is off the interface again
by `start + lease + 14`, and 60 times what a turn may be late. -/
theorem address_given_up (d : Nat) (config : ClientConfig) (foreground : Bool)
    (requestedIp serverAddr : Addr) (bootpCntOffer : Int) (lease : Word) (packet : DhcpMessage)
    (now : Nat) (turns : List Turn)
    (horder : Along timedTurn (InOrder d)
      (.enter config foreground requestedIp serverAddr bootpCntOffer lease packet, now) turns) :
    Along timedTurn (GivenUp d)
      (.enter config foreground requestedIp serverAddr bootpCntOffer lease packet, now) turns := by
  let Inv : Client × Nat → Prop := fun s => Agrees s.1 ∧ Punctual d s.1 s.2
  have hstart : Inv (.enter config foreground requestedIp serverAddr bootpCntOffer lease packet, now) :=
    ⟨agrees_enter config foreground requestedIp serverAddr bootpCntOffer lease packet,
      .of_not_holds rfl⟩
  have hstep : ∀ s t, Inv s → InOrder d s t → Inv (timedTurn s t) ∧ GivenUp d s t := by
    intro s t hinv hturn
    obtain ⟨hagrees, hpunctual⟩ := hinv
    obtain ⟨htimely, hnot, hshort⟩ := hturn
    have hagrees' := (agrees_turn_iff hagrees t).mpr hnot
    have hpunctual' := punctual_turn hpunctual htimely hshort
    refine ⟨⟨hagrees', hpunctual'⟩, fun hrunning addr haddr => ?_⟩
    have hholds : (s.1.turn t).state.holds = true := by
      rw [hagrees'.interface, Client.held] at haddr
      split at haddr
      · next hholds => exact hholds
      · cases haddr
    exact (hpunctual' hrunning hholds).now_le
  exact horder.observe hstep hstart

/-- An address that a client gets within two seconds. -/
theorem address_given_up_leased :
    ∃ offer ack,
      (exec timedTurn (Lease.started, 5) (Lease.turns offer ack)).1 = Lease.leased ∧
      onInterface Lease.leased.acts = some 0xc0a80105 ∧
      Along timedTurn (GivenUp 0) (Lease.started, 5) (Lease.turns offer ack) := by
  obtain ⟨offer, ack, h⟩ := Lease.datagrams
  have hturns := And.intro Lease.turn_discover
    (And.intro (Lease.turn_offer h) (And.intro Lease.turn_request (Lease.turn_ack h)))
  have hwaited : ∀ {c : Client} {now : Nat} {t : Turn}, t.after.toNat < 2 ^ 30 → c.Waits t →
      t.after.toNat ≤ c.timeout.toNat → Timely 0 c now t := fun hbounded hwaits hle =>
    ⟨hbounded, fun _ => hle, fun hpassed => absurd hwaits hpassed⟩
  have hpassed : ∀ {c : Client} {now : Nat} {t : Turn}, t.after.toNat < 2 ^ 30 → ¬c.Waits t →
      t.after.toNat ≤ now → Timely 0 c now t := fun hbounded hpassed hle =>
    ⟨hbounded, fun hwaits => absurd hwaits hpassed, fun _ => hle⟩
  have hidle : ∀ {c : Client} {t : Turn}, c.state ≠ .renewRequested → ¬Abandons c t :=
    fun hstate habandons => hstate habandons.2.2.2.2
  have hfree : ∀ {c : Client}, c.state.holds ≠ true → ShortLease c :=
    fun hstate hholds => absurd hholds hstate
  refine ⟨offer, ack, ?_, by decide, ?_⟩
  · simp only [exec, Lease.turns, List.foldl_cons, List.foldl_nil, timedTurn, hturns]
  · refine address_given_up 0 _ true 0 0 1 0 (Lease.answer 2) 5 _ ?_
    change Along timedTurn (InOrder 0) (Lease.started, 5) (Lease.turns offer ack)
    simp only [Lease.turns, Along, timedTurn, InOrder, hturns, and_true]
    refine ⟨⟨hpassed (by decide) (by decide) (by decide), hidle (by decide), hfree (by decide)⟩,
      ⟨hwaited (by decide : (6 : Word).toNat < 2 ^ 30) (by decide : 0 < ((7 : Word) - 5).toInt)
        (by decide : (6 : Word).toNat ≤ (7 : Word).toNat), hidle (by decide), hfree (by decide)⟩,
      ⟨hpassed (by decide) (by decide) (by decide), hidle (by decide), hfree (by decide)⟩,
      ⟨hwaited (by decide : (7 : Word).toNat < 2 ^ 30) (by decide : 0 < ((8 : Word) - 6).toInt)
        (by decide : (7 : Word).toNat ≤ (8 : Word).toNat), hidle (by decide), fun _ => by decide⟩⟩

end Xwr100.Udhcpc
