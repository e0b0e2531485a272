import Mathlib.Data.Multiset.AddSub

/-!
# Port mappings and their firewall rules

The nodes of `pmlist.c`, its lookups, and the `iptables` calls made for a node.
A node carries its address as `node`; the list holds the allocated nodes in order.
-/

namespace Xwr100.Upnp

/-! ## Nodes -/

/-- `struct portMap` without its links and the expiration time. -/
structure PortMap where
  node : Nat
  enabled : Int
  leaseDuration : Int
  remoteHost : String
  externalPort : String
  internalPort : String
  protocol : String
  internalClient : String
  description : String
  expirationEventId : Int
deriving DecidableEq, Repr

/-- What `pmlist_NewNode` stores of a text in a field of `size` bytes: the text if it fits
with its terminator, else the empty string. -/
def fitField (size : Nat) (text : String) : String :=
  if text.utf8ByteSize < size then text else ""

/-- `pmlist_NewNode`; `garbage` is what the allocated memory holds where the constructor
writes nothing. -/
def newNode (node : Nat) (garbage : Int) (enabled duration : Int) (remoteHost : Option String)
    (externalPort internalPort protocol internalClient desc : String) : PortMap where
  node := node
  enabled := enabled
  leaseDuration := duration
  remoteHost := fitField 16 (remoteHost.getD "")
  externalPort := fitField 6 externalPort
  internalPort := fitField 6 internalPort
  protocol := fitField 4 protocol
  internalClient := fitField 16 internalClient
  description := fitField 50 desc
  expirationEventId := garbage

theorem fitField_size {size : Nat} {text : String} (hsize : 0 < size) :
    (fitField size text).utf8ByteSize < size := by
  unfold fitField
  split
  · assumption
  · exact hsize

/-- A field that is not empty holds the text it was given. -/
theorem fitField_eq {size : Nat} {text : String} (h : fitField size text ≠ "") :
    fitField size text = text := by
  unfold fitField at h ⊢
  split
  · rfl
  · rename_i hlong
    rw [if_neg hlong] at h
    exact absurd rfl h

theorem fitField_eq_iff {size : Nat} {text : String} (hsize : 0 < size) :
    fitField size text = text ↔ text.utf8ByteSize < size := by
  constructor
  · intro h
    rw [← h]
    exact fitField_size hsize
  · exact fun h => if_pos h

/-- What a C `int` can hold. -/
def IsInt (n : Int) : Prop := -2147483648 ≤ n ∧ n ≤ 2147483647

/-- A node as `pmlist_NewNode` fills it. -/
structure PortMap.Stored (p : PortMap) : Prop where
  remoteHost : p.remoteHost.utf8ByteSize < 16
  externalPort : p.externalPort.utf8ByteSize < 6
  internalPort : p.internalPort.utf8ByteSize < 6
  protocol : p.protocol.utf8ByteSize < 4
  internalClient : p.internalClient.utf8ByteSize < 16
  description : p.description.utf8ByteSize < 50
  enabled : IsInt p.enabled
  leaseDuration : IsInt p.leaseDuration

theorem newNode_stored (node : Nat) (garbage : Int) {enabled duration : Int} (he : IsInt enabled)
    (hd : IsInt duration) (remoteHost : Option String)
    (externalPort internalPort protocol internalClient desc : String) :
    (newNode node garbage enabled duration remoteHost externalPort internalPort protocol
      internalClient desc).Stored where
  remoteHost := fitField_size (by decide)
  externalPort := fitField_size (by decide)
  internalPort := fitField_size (by decide)
  protocol := fitField_size (by decide)
  internalClient := fitField_size (by decide)
  description := fitField_size (by decide)
  enabled := he
  leaseDuration := hd

/-! ## Lookups -/

/-- The first node with the port, protocol and client. -/
def pmlistFind (l : List PortMap) (externalPort proto internalClient : String) :
    Option PortMap :=
  l.find? fun p =>
    p.externalPort = externalPort ∧ p.protocol = proto ∧ p.internalClient = internalClient

/-- The first node with the port and protocol but another client. -/
def pmlistFindSameExtPort (l : List PortMap) (externalPort proto internalClient : String) :
    Option PortMap :=
  l.find? fun p =>
    p.externalPort = externalPort ∧ p.protocol = proto ∧ p.internalClient ≠ internalClient

def pmlistFindByIndex (l : List PortMap) (index : Int) : Option PortMap :=
  if index < 0 then none else l[index.toNat]?

/-- The first node with the port and protocol. -/
def pmlistFindSpecific (l : List PortMap) (externalPort protocol : String) : Option PortMap :=
  l.find? fun p => p.externalPort = externalPort ∧ p.protocol = protocol

/-! ## Firewall rules -/

inductive Table where
  | nat
  | filter
deriving DecidableEq, Repr

inductive Op where
  | insert
  | append
  | delete
deriving DecidableEq, Repr

/-- One `iptables` invocation: the table, what to do, the chain and the rest of the
argument vector. -/
structure IptablesCall where
  table : Table
  op : Op
  chain : String
  args : List String
deriving DecidableEq, Repr

structure Rule where
  table : Table
  chain : String
  spec : List String
deriving DecidableEq, Repr

/-- `--to` is short for `--to-destination`. -/
def IptablesCall.rule (c : IptablesCall) : Rule :=
  ⟨c.table, c.chain, c.args.map fun a => if a = "--to" then "--to-destination" else a⟩

/-- The effect of a call on the installed rules; `accept` says which specifications are
well formed. -/
def iptables (accept : Rule → Bool) (rules : Multiset Rule) (c : IptablesCall) :
    Multiset Rule :=
  if accept c.rule then
    match c.op with
    | .insert => c.rule ::ₘ rules
    | .append => c.rule ::ₘ rules
    | .delete => rules.erase c.rule
  else rules

/-- The parts of `g_vars` the mappings depend on. -/
structure Vars where
  configureAllowed : Bool
  forwardRules : Bool
  duration : Int
  extInterfaceName : String
  preroutingChainName : String
  forwardChainName : String
deriving DecidableEq, Repr

variable (g : Vars)

/-- The calls of `pmlist_AddPortMapping`. -/
def addPortMappingCalls (enabled : Int)
    (remoteHost protocol externalPort internalClient internalPort : String) :
    List IptablesCall :=
  if enabled = 0 then []
  else
    let dest := internalClient ++ ":" ++ internalPort
    [if remoteHost = "" then
        ⟨.nat, .insert, g.preroutingChainName, ["-i", g.extInterfaceName, "-p", protocol,
          "--dport", externalPort, "-j", "DNAT", "--to-destination", dest]⟩
      else
        ⟨.nat, .insert, g.preroutingChainName, ["-i", g.extInterfaceName, "-s", remoteHost,
          "-p", protocol, "--dport", externalPort, "-j", "DNAT", "--to-destination", dest]⟩] ++
    (if g.forwardRules then
      [if remoteHost = "" then
          ⟨.filter, .append, g.forwardChainName, ["-p", protocol, "-d", internalClient,
            "--dport", internalPort, "-j", "ACCEPT"]⟩
        else
          ⟨.filter, .append, g.forwardChainName, ["-s", remoteHost, "-p", protocol,
            "-d", internalClient, "--dport", internalPort, "-j", "ACCEPT"]⟩]
      else []) ++
    [if remoteHost = "" then
        ⟨.nat, .append, "PORT_FW", ["-i", g.extInterfaceName, "-p", protocol,
          "--dport", internalPort, "-j", "DNAT", "--to-destination", internalClient]⟩
      else
        ⟨.nat, .append, "PORT_FW", ["-i", g.extInterfaceName, "-p", protocol,
          "-s", remoteHost, "--dport", internalPort, "-j", "DNAT", "--to-destination",
          internalClient]⟩,
      if remoteHost = "" then
        ⟨.filter, .append, "PORT_FW", ["-p", protocol, "-d", internalClient,
          "--dport", internalPort, "-j", "ACCEPT"]⟩
      else
        ⟨.filter, .append, "PORT_FW", ["-s", remoteHost, "-p", protocol,
          "-d", internalClient, "--dport", internalPort, "-j", "ACCEPT"]⟩]

/-- The calls of `pmlist_DeletePortMapping`. -/
def deletePortMappingCalls (enabled : Int)
    (remoteHost protocol externalPort internalClient internalPort : String) :
    List IptablesCall :=
  if enabled = 0 then []
  else
    let dest := internalClient ++ ":" ++ internalPort
    [if remoteHost = "" then
        ⟨.nat, .delete, g.preroutingChainName, ["-i", g.extInterfaceName, "-p", protocol,
          "--dport", externalPort, "-j", "DNAT", "--to-destination", dest]⟩
      else
        ⟨.nat, .delete, g.preroutingChainName, ["-i", g.extInterfaceName, "-s", remoteHost,
          "-p", protocol, "--dport", externalPort, "-j", "DNAT", "--to-destination", dest]⟩] ++
    (if g.forwardRules then
      [if remoteHost = "" then
          ⟨.filter, .delete, g.forwardChainName, ["-p", protocol, "-d", internalClient,
            "--dport", internalPort, "-j", "ACCEPT"]⟩
        else
          ⟨.filter, .delete, g.forwardChainName, ["-s", remoteHost, "-p", protocol,
            "-d", internalClient, "--dport", internalPort, "-j", "ACCEPT"]⟩]
      else []) ++
    [if remoteHost = "" then
        ⟨.nat, .delete, "PORT_FW", ["-i", g.extInterfaceName, "-p", protocol,
          "--dport", internalPort, "-j", "DNAT", "--to", internalClient]⟩
      else
        ⟨.nat, .delete, "PORT_FW", ["-i", g.extInterfaceName, "-p", protocol,
          "-s", remoteHost, "--dport", internalPort, "-j", "DNAT", "--to-destination",
          internalClient]⟩,
      if remoteHost = "" then
        ⟨.filter, .delete, "PORT_FW", ["-p", protocol, "-d", internalClient,
          "--dport", internalPort, "-j", "ACCEPT"]⟩
      else
        ⟨.filter, .delete, "PORT_FW", ["-s", remoteHost, "-p", protocol,
          "-d", internalClient, "--dport", internalPort, "-j", "ACCEPT"]⟩]

end Xwr100.Upnp
