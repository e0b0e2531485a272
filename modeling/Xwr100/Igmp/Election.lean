import Xwr100.Igmp.Querier

/-!
# One querier on a network

Several proxies, each with a downstream interface on the same network.  Every turn of a proxy's loop
is a second and then the packets it finds.  Wherever the proxies start from, once only they send
queries and those of the proxy with the lowest address arrive in time, it is the only querier.
-/

namespace Xwr100.Igmp

open Lib Router

structure Arrival where
  ifIndex : Nat
  src : Addr
  message : Message
deriving DecidableEq, Repr

def Arrival.input (a : Arrival) : Input := .packet a.ifIndex a.src a.message

/-- Proxies with an interface each on one network; what each has been through until now, and what it
finds in every turn from now on. -/
structure Lan (ι : Type) where
  up : ι → Nat → String
  devices : ι → Devices
  index : ι → Nat
  addr : ι → Addr
  attached : ∀ i, ∃ d ∈ (Router.main (up i) (devices i)).interfaces,
    d.index = index i ∧ d.addr = addr i ∧ d.type = .downstream
  past : ι → List Input
  arrivals : ι → Nat → List Arrival

namespace Lan

variable {ι : Type} (lan : Lan ι)

/-- A turn of the loop: `igmprt_timer`, then the packets. -/
def round (i : ι) (t : Nat) : List Input := .tick :: (lan.arrivals i t).map Arrival.input

/-- The proxy before its turn `t`. -/
def router (i : ι) (t : Nat) : Router :=
  exec Router.step (Router.main (lan.up i) (lan.devices i)) (history (lan.past i) (lan.round i) t)

def IsQuerier (i : ι) (t : Nat) : Prop :=
  ∃ d ∈ (lan.router i t).interfaces, d.index = lan.index i ∧ d.isquerier = true

/-- From turn `t₀` on, whatever asks on the network is one of the proxies. -/
def NoOtherQueriers (t₀ : Nat) : Prop :=
  ∀ t, t₀ ≤ t → ∀ i, ∀ a ∈ lan.arrivals i t, a.ifIndex = lan.index i → a.message.asks = true →
    ∃ j, a.src = lan.addr j

/-- A query that the proxy sends to the network in a turn from `t₀` on is followed at every other
proxy, in one of the next `w` turns, by the arrival of such a query. -/
def Arrives (j : ι) (t₀ w : Nat) : Prop :=
  ∀ t, t₀ ≤ t → ∀ q ∈ (lan.router j t).queries, q.index = lan.index j → ∀ i ≠ j,
    ∃ u, t ≤ u ∧ u ≤ t + w ∧ ⟨lan.index i, q.src, q.message⟩ ∈ lan.arrivals i u

variable {lan}

theorem countP_round (i : ι) (t : Nat) : (lan.round i t).countP isTick = 1 := by
  have hpackets : ∀ l : List Arrival, (l.map Arrival.input).countP isTick = 0 := by
    intro l
    rw [List.countP_eq_zero]
    rintro x hx
    obtain ⟨a, -, rfl⟩ := List.mem_map.mp hx
    simp [Arrival.input, isTick]
  rw [round, List.countP_cons_of_pos rfl, hpackets]

def rules (lan : Lan ι) (i : ι) : Rules Input := Duty.rules (lan.index i) (lan.addr i)

/-- Before every turn the interface is there, and what it does is what the station does. -/
theorem interface_on (i : ι) (t : Nat) :
    ∃ d ∈ (lan.router i t).interfaces, d.index = lan.index i ∧ d.addr = lan.addr i ∧
      d.type = .downstream ∧ d.duty.station =
        exec (lan.rules i).step ⟨true, 0, 0⟩ (history (lan.past i) (lan.round i) t) := by
  obtain ⟨d₀, hd₀, hindex, haddr, htype⟩ := lan.attached i
  have hmem : exec Duty.step d₀.duty (history (lan.past i) (lan.round i) t) ∈
      (lan.router i t).interfaces.map Interface.duty := by
    rw [router, Router.main, duties_exec (Apart.start _ _)]
    exact List.mem_map_of_mem hd₀
  obtain ⟨d, hd, hduty⟩ := List.mem_map.mp hmem
  obtain ⟨hindex', haddr', htype'⟩ :=
    Duty.exec_same d₀.duty (history (lan.past i) (lan.round i) t)
  rw [← hduty] at hindex' haddr' htype'
  have hdown : d.type = .downstream := htype'.trans htype
  have hrules : Duty.rules d.index d.addr = lan.rules i := by
    rw [rules, ← hindex, ← haddr]
    exact congrArg₂ Duty.rules hindex' haddr'
  refine ⟨d, hd, hindex'.trans hindex, haddr'.trans haddr, hdown, ?_⟩
  rw [← hrules]
  exact station_run hd hdown

theorem router_apart (i : ι) (t : Nat) :
    Apart ((lan.router i t).interfaces.map Interface.duty) :=
  Apart.run _ _ _

theorem isQuerier_iff (i : ι) (t : Nat) :
    lan.IsQuerier i t ↔
      (exec (lan.rules i).step ⟨true, 0, 0⟩ (history (lan.past i) (lan.round i) t)).leads =
        true := by
  obtain ⟨d, hd, hindex, -, -, hstation⟩ := @interface_on _ lan i t
  rw [← hstation]
  constructor
  · rintro ⟨d', hd', hindex', hquerier⟩
    obtain rfl := (router_apart i t).same_index hd' hd (hindex'.trans hindex.symm)
    exact hquerier
  · exact fun hquerier => ⟨d, hd, hindex, hquerier⟩

/-- A station that speaks in a turn has its interface send a query. -/
theorem query_of_speaks {i : ι} {t : Nat}
    (h : (lan.rules i).Speaks
      (exec (lan.rules i).step ⟨true, 0, 0⟩ (history (lan.past i) (lan.round i) t))
      (lan.round i t)) :
    ∃ q ∈ (lan.router i t).queries, q.index = lan.index i ∧ q.src = lan.addr i ∧
      q.message.asks = true := by
  obtain ⟨d, hd, hindex, haddr, hdown, hstation⟩ := @interface_on _ lan i t
  rw [← hstation] at h
  obtain ⟨before, x, after, heq, -, htick, hleads, hdue⟩ := h
  -- the only tick of a turn is its first input
  have hfirst : before = [] := by
    have hone : (before ++ x :: after).countP isTick = 1 := heq ▸ countP_round i t
    cases before with
    | nil => rfl
    | cons y before =>
        have hy : isTick y = true := by
          rw [← (List.cons.inj heq).1]
          rfl
        have hx : isTick x = true := htick
        rw [List.cons_append, List.countP_cons_of_pos hy, List.countP_append,
          List.countP_cons_of_pos hx] at hone
        omega
  subst hfirst
  have hsend : generalQuery d = some (igmprtMembershipQuery d 0) := by
    have htiQi : d.tiQi - 1 ≤ 0 := by
      have hle : d.tiQi.toNat ≤ 1 := hdue
      omega
    rw [generalQuery, if_pos ⟨hdown, hleads, htiQi⟩]
  exact ⟨_, List.mem_filterMap.mpr ⟨d, hd, hsend⟩, hindex, haddr,
    igmprtMembershipQuery_asks d 0⟩

theorem src_of_query {i : ι} {t : Nat} {q : Query} (hq : q ∈ (lan.router i t).queries)
    (hindex : q.index = lan.index i) : q.src = lan.addr i := by
  obtain ⟨d, hd, hdindex, haddr, -⟩ := @interface_on _ lan i t
  obtain ⟨d', hd', hsend⟩ := List.mem_filterMap.mp hq
  unfold generalQuery at hsend
  split at hsend
  · obtain rfl := Option.some.inj hsend
    obtain rfl := (router_apart i t).same_index hd' hd (hindex.trans hdindex.symm)
    exact haddr
  · cases hsend

section Lowest

variable {lowest : ι} {t₀ w : Nat} (hlow : ∀ i ≠ lowest, lan.addr lowest < lan.addr i)

include hlow

theorem unheard_lowest (hothers : lan.NoOtherQueriers t₀) :
    ∀ t, t₀ ≤ t → ∀ x ∈ lan.round lowest t, (lan.rules lowest).hears x = false := by
  intro t ht x hx
  rcases List.mem_cons.mp hx with rfl | hx
  · rfl
  · obtain ⟨a, ha, rfl⟩ := List.mem_map.mp hx
    rw [← Bool.not_eq_true]
    intro hover
    simp only [rules, Duty.rules, Arrival.input, overrules, decide_eq_true_iff] at hover
    obtain ⟨hindex, hasks, hbelow⟩ := hover
    obtain ⟨j, hj⟩ := hothers t ht lowest a ha hindex hasks
    rw [hj] at hbelow
    by_cases hsame : j = lowest
    · rw [hsame] at hbelow
      exact absurd hbelow (BitVec.lt_irrefl _)
    · exact absurd hbelow (BitVec.not_lt.mpr (BitVec.le_of_lt (hlow j hsame)))

theorem heard_lowest (harrives : lan.Arrives lowest t₀ w) :
    ∀ t, t₀ ≤ t → (lan.rules lowest).Speaks
        (exec (lan.rules lowest).step ⟨true, 0, 0⟩
          (history (lan.past lowest) (lan.round lowest) t)) (lan.round lowest t) →
      ∀ i ≠ lowest, ∃ u, t ≤ u ∧ u ≤ t + w ∧
        ∃ x ∈ lan.round i u, (lan.rules i).hears x = true := by
  intro t ht hspeaks i hi
  obtain ⟨q, hq, hindex, hsrc, hasks⟩ := query_of_speaks hspeaks
  obtain ⟨u, htu, hu, hmem⟩ := harrives t ht q hq hindex i hi
  refine ⟨u, htu, hu, _, List.mem_cons_of_mem _ (List.mem_map_of_mem hmem), ?_⟩
  simp [rules, Duty.rules, Arrival.input, overrules, hasks, hsrc, hlow i hi]

end Lowest

end Lan

/-- Whatever the proxies of a network have been through: once all queries there come from proxies,
and for each query of the lowest address one gets through to every other proxy within 129 seconds, the
proxy with the lowest address is the querier after 255 seconds, and after 125 more and these it is the
only one.  It may lose every other query, if the rest arrive within four seconds. -/
theorem lowest_queries {ι : Type} (lan : Lan ι) {lowest : ι} {t₀ w : Nat}
    (hlow : ∀ i ≠ lowest, lan.addr lowest < lan.addr i) (hothers : lan.NoOtherQueriers t₀)
    (harrives : lan.Arrives lowest t₀ w) (hw : w < 130) :
    (∀ t, t₀ + 255 ≤ t → lan.IsQuerier lowest t) ∧
      ∀ t, t₀ + 380 + w ≤ t → ∀ i, lan.IsQuerier i t ↔ i = lowest := by
  constructor
  · intro t ht
    rw [Lan.isQuerier_iff]
    exact Rules.leads_of_unheard rfl (Lan.countP_round lowest) (Lan.unheard_lowest hlow hothers) ht
  · intro t ht i
    rw [Lan.isQuerier_iff]
    have hinterval : (lan.rules lowest).interval + w < 255 := by
      change 125 + w < 255
      omega
    have hend : t₀ + (lan.rules lowest).patience + (lan.rules lowest).interval + w ≤ t := by
      change t₀ + 255 + 125 + w ≤ t
      omega
    exact @elected _ _ lan.rules (fun _ => ⟨true, 0, 0⟩) lan.past lan.round lowest t₀ w t
      (fun _ => rfl) Lan.countP_round (Nat.zero_le _) (Lan.unheard_lowest hlow hothers)
      (Lan.heard_lowest hlow harrives) (fun _ => hinterval) hend i

def oneBridge (addr : Addr) : Devices where
  list := [⟨2, "eth0", 0x0A000002#32⟩, ⟨3, "br0", addr⟩]
  index_nodup := by simp
  name_nodup := by simp

def lower : Router := Router.main uplink (oneBridge 0xC0A80001#32)

/-- Two proxies; what the lower one sends arrives at once. -/
def twoProxies : Lan Bool where
  up _ := uplink
  devices i := oneBridge (if i then 0xC0A80002#32 else 0xC0A80001#32)
  index _ := 3
  addr i := if i then 0xC0A80002#32 else 0xC0A80001#32
  attached := by decide
  past _ := []
  arrivals i t :=
    if i then
      (exec Router.step lower (history [] (fun _ => [.tick]) t)).queries.filterMap fun q =>
        if q.index = 3 then some ⟨3, q.src, q.message⟩ else none
    else []

theorem lowest_queries_two :
    (∀ t, 255 ≤ t → twoProxies.IsQuerier false t) ∧
      ∀ t, 380 ≤ t → ∀ i, twoProxies.IsQuerier i t ↔ i = false := by
  have hlow : ∀ i ≠ false, twoProxies.addr false < twoProxies.addr i := by decide
  have hqueries : ∀ t, (exec Router.step lower (history [] (fun _ => [.tick]) t)).queries =
      (twoProxies.router false t).queries := fun _ => rfl
  have hothers : twoProxies.NoOtherQueriers 0 := by
    intro t _ i a ha _ _
    cases i with
    | false => exact absurd ha List.not_mem_nil
    | true =>
        obtain ⟨q, hq, hsome⟩ := List.mem_filterMap.mp ha
        rw [hqueries] at hq
        split at hsome
        · rename_i hindex
          obtain rfl := Option.some.inj hsome
          exact ⟨false, Lan.src_of_query hq hindex⟩
        · cases hsome
  have harrives : twoProxies.Arrives false 0 0 := by
    intro t _ q hq hindex i hi
    obtain rfl : i = true := by simpa using hi
    refine ⟨t, Nat.le_refl t, Nat.le_refl t, List.mem_filterMap.mpr ⟨q, ?_, if_pos hindex⟩⟩
    rw [hqueries]
    exact hq
  exact lowest_queries twoProxies hlow hothers harrives (by decide)

end Xwr100.Igmp
