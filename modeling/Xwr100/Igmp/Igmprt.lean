import Mathlib.Data.Finset.Erase
import Mathlib.Data.Finset.Insert
import Mathlib.Data.Multiset.AddSub
import Xwr100.Lib.Run

/-!
# The IGMP proxy

The interface and group tables of `igmprt.c`, its handling of reports and leaves, the group
timers of `igmpv2.c`, and the calls by which both change the memberships of the upstream
socket and the `FORWARD` chain.  The CPU is big-endian, so `ntohl` is the identity.

Left out: the source filters (a report of version 1 or 2 names no source), the proxy's
membership database and the multicast forwarding cache; nothing here reads them.
-/

namespace Xwr100.Igmp

/-! ## Addresses -/

abbrev Addr := BitVec 32

/-- `IN_MULTICAST`: class D. -/
def inMulticast (a : Addr) : Bool := a &&& 0xF0000000#32 = 0xE0000000#32

/-- `IGMP_ALL_ROUTERS`, 224.0.0.2. -/
def igmpAllRouters : Addr := 0xE0000002#32

/-- `VALID_ADDR`: none of all-routers, all-hosts, all-IGMPv3-routers, DVMRP and PIM. -/
def validAddr (a : Addr) : Bool :=
  a ≠ 0xE0000002#32 ∧ a ≠ 0xE0000001#32 ∧ a ≠ 0xE0000016#32 ∧ a ≠ 0xE0000004#32 ∧
  a ≠ 0xE0000009#32

/-! ## Tables -/

/-- `igmp_group_t`; the reporting hosts are `igmpg_members`. -/
structure Group where
  addr : Addr
  timer : Nat
  members : List Addr
deriving DecidableEq, Repr

inductive IfType where
  | upstream
  | downstream
deriving DecidableEq, Repr

/-- `igmp_interface_t`. -/
structure Interface where
  addr : Addr
  name : String
  index : Nat
  type : IfType
  groups : List Group
  isquerier : Bool
  tiQi : Int
  oqp : Int
deriving DecidableEq, Repr

/-- What the proxy has asked the kernel for: the memberships of `igmprt_up_socket`, a group
and the address of an interface, and the `ACCEPT` rules of the `FORWARD` chain, an input
interface and a destination. -/
structure Kernel where
  memberships : Finset (Addr × Addr)
  forward : Multiset (String × Addr)
deriving DecidableEq

/-- `igmp_router_t`, with the ten names of `upstream_interface`. -/
structure Router where
  upstreamInterface : Nat → String
  interfaces : List Interface
  kernel : Kernel

/-! ## Kernel calls -/

namespace Kernel

/-- `IP_ADD_MEMBERSHIP`; joining a joined group fails and changes nothing. -/
def addMembership (k : Kernel) (group ifaddr : Addr) : Kernel :=
  { k with memberships := insert (group, ifaddr) k.memberships }

/-- `IP_DROP_MEMBERSHIP`; dropping a group that is not joined fails and changes nothing. -/
def dropMembership (k : Kernel) (group ifaddr : Addr) : Kernel :=
  { k with memberships := k.memberships.erase (group, ifaddr) }

/-- `iptables -I FORWARD 1 -i name -d group -j ACCEPT`. -/
def insertRule (k : Kernel) (name : String) (group : Addr) : Kernel :=
  { k with forward := (name, group) ::ₘ k.forward }

/-- `iptables -D FORWARD -i name -d group -j ACCEPT`: one such rule, if there is any. -/
def deleteRule (k : Kernel) (name : String) (group : Addr) : Kernel :=
  { k with forward := k.forward.erase (name, group) }

end Kernel

/-! ## Lookups -/

/-- `igmp_interface_group_lookup`. -/
def Interface.groupLookup (ifp : Interface) (group : Addr) : Option Group :=
  ifp.groups.find? fun gp => gp.addr = group

/-- `igmprt_interface_lookup`. -/
def interfaceLookup (ifs : List Interface) (ifaddr : Addr) : Option Interface :=
  ifs.find? fun ifp => ifp.addr = ifaddr

/-- `igmprt_interface_lookup_index`. -/
def interfaceLookupIndex (ifs : List Interface) (index : Nat) : Option Interface :=
  ifs.find? fun ifp => ifp.index = index

def updateInterface (ifs : List Interface) (ifaddr : Addr) (f : Interface → Interface) :
    List Interface :=
  ifs.map fun ifp => if ifp.addr = ifaddr then f ifp else ifp

def Interface.updateGroup (ifp : Interface) (group : Addr) (f : Group → Group) : Interface :=
  { ifp with groups := ifp.groups.map fun gp => if gp.addr = group then f gp else gp }

/-- A new group at the head of the table: `igmp_group_create`, linked in. -/
def Interface.linkGroup (group : Addr) (ifp : Interface) : Interface :=
  { ifp with groups := ⟨group, 0, []⟩ :: ifp.groups }

/-! ## Starting up -/

/-- A network device: its index, name and address. -/
structure Device where
  index : Nat
  name : String
  addr : Addr
deriving DecidableEq, Repr

structure Devices where
  list : List Device
  index_nodup : (list.map Device.index).Nodup
  name_nodup : (list.map Device.name).Nodup

/-- `strncmp` with the length of `pre`. -/
def hasPrefix (pre name : String) : Bool := pre.toList.isPrefixOf name.toList

def upstreamInterfaceLookup (up : Nat → String) (name : String) : Bool :=
  (List.range 10).any fun i => name = up i

/-- The devices `get_interface_list` keeps. -/
def listed (up : Nat → String) (d : Device) : Bool :=
  !hasPrefix "eth2" d.name && !hasPrefix "usb" d.name &&
    (upstreamInterfaceLookup up d.name || hasPrefix "br" d.name)

/-- The device with the index, if `get_interface_list` keeps it. -/
def listedAt (up : Nat → String) (devices : Devices) (i : Nat) : Option Device :=
  (devices.list.find? fun d => d.index = i).filter (listed up)

theorem listedAt_spec {up : Nat → String} {devices : Devices} {i : Nat} {d : Device}
    (h : listedAt up devices i = some d) : d ∈ devices.list ∧ d.index = i := by
  rw [listedAt, Option.filter_eq_some_iff] at h
  exact ⟨List.mem_of_find?_eq_some h.1, by simpa using List.find?_some h.1⟩

/-- Devices picked by distinct indices differ in a label that no two devices share. -/
theorem listed_nodup {β : Type} (label : Device → β) {up : Nat → String} {devices : Devices}
    (h : (devices.list.map label).Nodup) :
    (((List.range' 2 31).filterMap (listedAt up devices)).map label).Nodup := by
  rw [List.Nodup, List.pairwise_map, List.pairwise_filterMap]
  have hrange : (List.range' 2 31).Pairwise (· ≠ ·) := List.nodup_range'
  refine hrange.imp ?_
  intro i j hij d hd d' hd' hlabel
  obtain ⟨hmem, hi⟩ := listedAt_spec hd
  obtain ⟨hmem', hj⟩ := listedAt_spec hd'
  have hsame : d = d' := List.inj_on_of_nodup_map h hmem hmem' hlabel
  exact hij (by rw [← hi, ← hj, hsame])

/-- `get_interface_list`, over the indices 2 to 32. -/
def getInterfaceList (up : Nat → String) (devices : Devices) : Devices where
  list := (List.range' 2 31).filterMap (listedAt up devices)
  index_nodup := listed_nodup Device.index devices.index_nodup
  name_nodup := listed_nodup Device.name devices.name_nodup

/-- `igmp_interface_create`: bridges are downstream, everything else is upstream.  The
other-querier timer is read only after a query has set it. -/
def igmpInterfaceCreate (d : Device) : Interface where
  addr := d.addr
  name := d.name
  index := d.index
  type := if hasPrefix "br" d.name then .downstream else .upstream
  groups := []
  isquerier := true
  tiQi := 0
  oqp := 0

/-- `igmprt_interface_add`: one interface for an address. -/
def igmprtInterfaceAdd (ifs : List Interface) (d : Device) : List Interface :=
  match interfaceLookup ifs d.addr with
  | some _ => ifs
  | none => igmpInterfaceCreate d :: ifs

namespace Router

def start (up : Nat → String) (ifl : Devices) : Router where
  upstreamInterface := up
  interfaces := ifl.list.foldl igmprtInterfaceAdd []
  kernel := ⟨∅, 0⟩

/-- `main`, up to its loop; `up` is what its copies of the arguments left in
`upstream_interface`. -/
def main (up : Nat → String) (devices : Devices) : Router :=
  start up (getInterfaceList up devices)

/-! ## Reports -/

/-- One turn of the loop of `igmp_interface_group_add` over the interfaces. -/
def joinUpstream (ifs : List Interface) (group : Addr) (k : Kernel) (ifp : Interface) : Kernel :=
  if ifp.type = .upstream ∧ validAddr group then
    match interfaceLookup ifs ifp.addr with
    | none => k
    | some up =>
        match up.groupLookup group with
        | none => (k.addMembership group ifp.addr).insertRule ifp.name group
        | some _ => k
  else k

/-- `igmp_interface_group_add`. -/
def groupAdd (r : Router) (ifp : Interface) (group : Addr) : Router :=
  match ifp.groupLookup group with
  | some _ => r
  | none =>
      let ifs := updateInterface r.interfaces ifp.addr (Interface.linkGroup group)
      { r with interfaces := ifs, kernel := ifs.foldl (joinUpstream ifs group) r.kernel }

/-- `igmp_group_rep_add`, and the timer `igmp_group_handle_isex` sets: `IGMP_GMI` is 260. -/
def refresh (src : Addr) (gp : Group) : Group :=
  { gp with
    timer := 260
    members := if src ∈ gp.members then gp.members else src :: gp.members }

/-- `igmp_interface_membership_report_v12`. -/
def membershipReportV12 (r : Router) (ifp : Interface) (src group : Addr) : Router :=
  if inMulticast group then
    let r := r.groupAdd ifp group
    { r with
      interfaces := updateInterface r.interfaces ifp.addr fun i =>
        i.updateGroup group (refresh src) }
  else r

/-! ## Leaves and timers -/

/-- A loop over a group list that unlinks the nodes `act` gives up, with `gone` done for each.
The loop goes on from the `igmpg_next` of the freed node, which the allocator leaves in place. -/
def walkGroups {κ : Type} (act : Group → Option Group) (gone : κ → Group → κ) :
    κ → List Group → κ × List Group
  | k, [] => (k, [])
  | k, gp :: rest =>
      match act gp with
      | some gp' =>
          let w := walkGroups act gone k rest
          (w.1, gp' :: w.2)
      | none => walkGroups act gone (gone k gp) rest

/-- A loop over the interfaces that does `body` at the downstream ones. -/
def visitDownstream {κ : Type} (body : κ → Interface → κ × Interface) :
    κ → List Interface → κ × List Interface
  | k, [] => (k, [])
  | k, ifp :: rest =>
      if ifp.type = .downstream then
        let w := body k ifp
        let v := visitDownstream body w.1 rest
        (v.1, w.2 :: v.2)
      else
        let v := visitDownstream body k rest
        (v.1, ifp :: v.2)

/-- The rule `igmp_group_cleanup` deletes, whatever interface loses the group. -/
def groupCleanup (r : Router) (k : Kernel) (group : Addr) : Kernel :=
  k.deleteRule (r.upstreamInterface 0) group

def dropUpstream (ifs : List Interface) (group : Addr) (k : Kernel) : Kernel :=
  ifs.foldl
    (fun k ifp =>
      if ifp.type = .upstream ∧ validAddr group then k.dropMembership group ifp.addr else k) k

/-- What a leave of `src` does to a group: none if no member is left. -/
def leaveGroup (src group : Addr) (gp : Group) : Option Group :=
  if gp.addr = group then
    if (gp.members.erase src).length = 0 then none
    else some { gp with members := gp.members.erase src }
  else some gp

/-- The loop of a leave over the table of one interface; the flag is `needdrop`. -/
def leaveInterface (r : Router) (src group : Addr) (k : Kernel × Bool) (ifp : Interface) :
    (Kernel × Bool) × Interface :=
  let w := walkGroups (leaveGroup src group)
    (fun k gp => (r.groupCleanup k.1 gp.addr, true)) k ifp.groups
  (w.1, { ifp with groups := w.2 })

/-- `igmp_interface_membership_leave_v2`. -/
def membershipLeaveV2 (r : Router) (src group : Addr) : Router :=
  if inMulticast group then
    let v := visitDownstream (r.leaveInterface src group) (r.kernel, false) r.interfaces
    { r with
      interfaces := v.2
      kernel := if v.1.2 then dropUpstream v.2 group v.1.1 else v.1.1 }
  else r

/-- A second of a group's timer: none if it runs out. -/
def timerGroup (gp : Group) : Option Group :=
  if gp.addr = igmpAllRouters then some gp
  else if gp.timer - 1 = 0 then none
  else some { gp with timer := gp.timer - 1 }

/-- The querier's duties, or the wait for another querier to fall silent.  The query that is
sent changes nothing here. -/
def timerQuerier (ifp : Interface) : Interface :=
  if ifp.isquerier then { ifp with tiQi := if ifp.tiQi - 1 ≤ 0 then 125 else ifp.tiQi - 1 }
  else
    let oqp := if 0 < ifp.oqp then ifp.oqp - 1 else ifp.oqp
    { ifp with oqp := oqp, isquerier := decide (oqp = 0) }

/-- The turn of `igmprt_timer` for one interface, with the loop of `igmprt_timer_group`. -/
def timerInterface (r : Router) (k : Kernel) (ifp : Interface) : Kernel × Interface :=
  let w := walkGroups timerGroup
    (fun k gp => dropUpstream r.interfaces gp.addr (r.groupCleanup k gp.addr)) k ifp.groups
  (w.1, { timerQuerier ifp with groups := w.2 })

def igmprtTimer (r : Router) : Router :=
  let v := visitDownstream r.timerInterface r.kernel r.interfaces
  { r with interfaces := v.2, kernel := v.1 }

/-! ## Messages -/

/-- An IGMP message: type, code and group address, with its length. -/
structure Message where
  type : BitVec 8
  code : BitVec 8
  group : Addr
  len : Nat
deriving DecidableEq, Repr

/-- `receive_membership_query`.  Every call has the suppress flag set, so no timer is
lowered. -/
def receiveMembershipQuery (r : Router) (ifp : Interface) (src : Addr) : Router :=
  if src < ifp.addr then
    { r with
      interfaces := updateInterface r.interfaces ifp.addr fun i =>
        { i with oqp := 255, isquerier := false } }
  else r

/-- The switch of `igmprt_input` on the type of the message. -/
def handleMessage (r : Router) (ifp : Interface) (src : Addr) (m : Message) : Router :=
  if m.type = 0x11#8 then
    if m.code = 0#8 ∨ m.len = 8 then r.receiveMembershipQuery ifp src else r
  else if m.type = 0x12#8 ∨ m.type = 0x16#8 then
    if ifp.type = .upstream then r else r.membershipReportV12 ifp src m.group
  else if m.type = 0x17#8 then
    if ifp.type = .upstream then r else r.membershipLeaveV2 src m.group
  else r

/-- `igmprt_input`, once the packet is read.  Only the sockets of downstream interfaces are
read, and each takes only the packets of its own interface. -/
def igmprtInput (r : Router) (ifIndex : Nat) (src : Addr) (m : Message) : Router :=
  if m.len < 8 then r
  else
    match interfaceLookupIndex r.interfaces ifIndex with
    | none => r
    | some ifp => if ifp.type = .downstream then r.handleMessage ifp src m else r

/-- One turn of the loop of `main`: a packet, or a second that has passed. -/
inductive Input where
  | packet (ifIndex : Nat) (src : Addr) (m : Message)
  | tick
deriving DecidableEq, Repr

def step (r : Router) : Input → Router
  | .packet ifIndex src m => r.igmprtInput ifIndex src m
  | .tick => r.igmprtTimer

end Router

end Xwr100.Igmp
