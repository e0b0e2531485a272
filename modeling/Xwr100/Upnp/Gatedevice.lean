import Xwr100.Lib.Run
import Xwr100.Upnp.ReplyTexts

/-!
# The port-mapping actions of the gateway device

The handlers of `gatedevice.c` and the list updates of `pmlist.c`, with the timer
thread that expires mappings: an event is queued, handed to a worker, and its
`ExpireMapping` then waits for the device mutex under which every handler runs.
Freed nodes are those no longer in the list; following a pointer to one sets
`dangling`.
-/

namespace Xwr100.Upnp

/-- `expiration_event`, with the node its `mapping` points to. -/
structure ExpirationEvent where
  eventId : Nat
  mapping : Nat
deriving DecidableEq, Repr

/-- The memory a node is put into: its address, and what is there. -/
structure Block where
  node : Nat
  garbage : Int
deriving DecidableEq, Repr

/-- The daemon: the mapping list, the firewall rules it has installed, the timer thread's
queue and running jobs, its next event id, and whether a freed node has been dereferenced. -/
structure Igd where
  vars : Vars
  pmlist : List PortMap
  rules : Multiset Rule
  queued : List ExpirationEvent
  dispatched : List ExpirationEvent
  lastEventId : Nat
  dangling : Bool

def Igd.init (vars : Vars) : Igd := ⟨vars, [], 0, [], [], 0, false⟩

structure UpnpError where
  errCode : Nat
  errStr : String
deriving DecidableEq, Repr

def actionFailed : UpnpError := ⟨501, "Action Failed"⟩
def invalidArgs : UpnpError := ⟨402, "Invalid Args"⟩
def conflictInMappingEntry : UpnpError := ⟨718, "ConflictInMappingEntry"⟩
def noSuchEntryInArray : UpnpError := ⟨714, "NoSuchEntryInArray"⟩
def specifiedArrayIndexInvalid : UpnpError := ⟨713, "SpecifiedArrayIndexInvalid"⟩

/-- How an action ends: with a response without arguments, with the document made of the entry it
reports, or with an error. -/
inductive Answer where
  | done
  | result (doc : Document)
  | error (e : UpnpError)
deriving DecidableEq, Repr

/-- `handle_invoke_action` after a handler that ended in success: without an `ActionResult` the
action has failed. -/
def handleInvokeAction : Option Document → Answer
  | some doc => .result doc
  | none => .error actionFailed

/-! ## Numbers in texts -/

/-- C's `isspace`. -/
def isSpace (c : Char) : Bool :=
  c = ' ' || c = '\t' || c = '\n' || c = '\x0b' || c = '\x0c' || c = '\r'

def digits : List Char → Nat → Nat
  | [], n => n
  | c :: rest, n => if c.isDigit then digits rest (n * 10 + (c.toNat - '0'.toNat)) else n

/-- `atoi` and `atol`: white space, a sign, digits, cut to the 32-bit range. -/
def atoi (text : String) : Int :=
  match text.toList.dropWhile isSpace with
  | '-' :: rest => max (-2147483648) (-(digits rest 0 : Int))
  | '+' :: rest => min 2147483647 (digits rest 0 : Int)
  | rest => min 2147483647 (digits rest 0 : Int)

theorem digits_nonneg_isInt {n : Nat} : IsInt (min 2147483647 (n : Int)) := by
  unfold IsInt
  omega

theorem atoi_isInt (text : String) : IsInt (atoi text) := by
  unfold atoi
  split
  · unfold IsInt
    omega
  · exact digits_nonneg_isInt
  · exact digits_nonneg_isInt

namespace Igd

/-! ## Expiration events -/

/-- Write `expirationEventId` of a node. -/
def setEventId (s : Igd) (node : Nat) (id : Int) : Igd :=
  { s with
    pmlist := s.pmlist.map fun p =>
      if p.node = node then { p with expirationEventId := id } else p }

def allocated (s : Igd) (node : Nat) : Bool := s.pmlist.any fun p => p.node = node

/-- `free_expiration_event`: the event's `mapping` is never cleared, so it is followed. -/
def freeExpirationEvent (s : Igd) (e : ExpirationEvent) : Igd :=
  if s.allocated e.mapping then s.setEventId e.mapping (-1) else { s with dangling := true }

/-- `CancelMappingExpiration`: the timer thread gives the event back only while it is queued. -/
def cancelMappingExpiration (s : Igd) (expirationEventId : Int) : Igd :=
  if expirationEventId < 0 then s
  else
    match s.queued.find? fun e => (e.eventId : Int) = expirationEventId with
    | some e =>
        let removed : Igd := { s with queued := s.queued.filter fun e' => e'.eventId ≠ e.eventId }
        removed.freeExpirationEvent e
    | none => s

inductive ScheduleOutcome where
  | scheduled
  | timerFailed
  | outOfMemory
deriving DecidableEq, Repr

def expires (s : Igd) (leaseDuration : Int) : Bool :=
  0 < leaseDuration || s.vars.duration ≠ 0

/-- `ScheduleMappingExpiration`; without an expiration time, or memory for the event, the
node's `expirationEventId` is left as it was. -/
def scheduleMappingExpiration (s : Igd) (mapping : PortMap) (outcome : ScheduleOutcome) : Igd :=
  if !s.expires mapping.leaseDuration then s
  else
    match outcome with
    | .outOfMemory => s
    | .timerFailed => s.setEventId mapping.node (-1)
    | .scheduled =>
        let queued : Igd :=
          { s with
            queued := s.queued ++ [⟨s.lastEventId, mapping.node⟩]
            lastEventId := s.lastEventId + 1 }
        queued.setEventId mapping.node s.lastEventId

/-! ## Memory -/

/-- An address that no node has, and no event. -/
def unusedAddress (s : Igd) : Nat :=
  (s.pmlist.map PortMap.node ++ (s.queued ++ s.dispatched).map ExpirationEvent.mapping).foldr max 0
    + 1

/-- Where `malloc` puts a node: at any address but one of a node in the list, so also where a freed
node was.  An address in the list stands for an unused one. -/
def malloc (s : Igd) (block : Block) : Nat :=
  if s.allocated block.node then s.unusedAddress else block.node

/-! ## List updates -/

variable (accept : Rule → Bool)

/-- `pmlist_PushBack`. -/
def pushBack (s : Igd) (item : PortMap) : Igd :=
  { s with
    pmlist := s.pmlist ++ [item]
    rules := (addPortMappingCalls s.vars item.enabled item.remoteHost item.protocol
      item.externalPort item.internalClient item.internalPort).foldl (iptables accept) s.rules }

/-- `pmlist_DeletePortMapping` with the fields of a node. -/
def deleteRules (s : Igd) (item : PortMap) : Igd :=
  { s with
    rules := (deletePortMappingCalls s.vars item.enabled item.remoteHost item.protocol
      item.externalPort item.internalClient item.internalPort).foldl (iptables accept) s.rules }

def unlink (s : Igd) (node : Nat) : Igd :=
  { s with pmlist := s.pmlist.filter fun p => p.node ≠ node }

/-- `pmlist_Delete`: the node removed is the first one with the fields of `item`, the rules
removed are those of `item`. -/
def pmlistDelete (s : Igd) (item : PortMap) : Igd × Bool :=
  match pmlistFind s.pmlist item.externalPort item.protocol item.internalClient with
  | some temp =>
      (((s.cancelMappingExpiration temp.expirationEventId).deleteRules accept item).unlink
        temp.node, true)
  | none => (s, false)

/-- The loop of `pmlist_FreeList` over the nodes that are left. -/
def freeListLoop : Nat → Igd → Igd
  | 0, s => s
  | n + 1, s =>
      match s.pmlist with
      | [] => s
      | temp :: _ =>
          freeListLoop n
            (((s.cancelMappingExpiration temp.expirationEventId).deleteRules accept temp).unlink
              temp.node)

/-- `pmlist_FreeList`. -/
def freeList (s : Igd) : Igd := freeListLoop accept s.pmlist.length s

/-! ## Actions -/

/-- The arguments of `AddPortMapping`; an absent or empty element reads as `none`. -/
structure AddArgs where
  externalPort : Option String
  protocol : Option String
  internalPort : Option String
  internalClient : Option String
  leaseDuration : Option String
  enabled : Option String
  description : Option String
  remoteHost : Option String
deriving DecidableEq, Repr

def insertMapping (s : Igd) (block : Block) (outcome : ScheduleOutcome)
    (enabled duration : Int) (remoteHost : Option String)
    (extPort intPort proto intIp desc : String) : Igd :=
  let new := newNode (s.malloc block) block.garbage enabled duration remoteHost extPort intPort
    proto intIp desc
  (s.pushBack accept new).scheduleMappingExpiration new outcome

/-- `AddPortMapping`: an entry of another client for the port is a conflict, one of the same
client is deleted first. -/
def addPortMapping (s : Igd) (args : AddArgs) (block : Block) (outcome : ScheduleOutcome) :
    Igd × Answer :=
  if !s.vars.configureAllowed then (s, .error actionFailed)
  else
    match args.externalPort, args.protocol, args.internalPort, args.internalClient,
      args.leaseDuration, args.enabled, args.description with
    | some extPort, some proto, some intPort, some intIp, some duration, some enabled,
      some desc =>
        match pmlistFindSameExtPort s.pmlist extPort proto intIp with
        | some _ => (s, .error conflictInMappingEntry)
        | none =>
            let cleared :=
              match pmlistFind s.pmlist extPort proto intIp with
              | some ret => (s.pmlistDelete accept ret).1
              | none => s
            (cleared.insertMapping accept block outcome (atoi enabled) (atoi duration)
              args.remoteHost extPort intPort proto intIp desc, .done)
    | _, _, _, _, _, _, _ => (s, .error invalidArgs)

def deletePortMapping (s : Igd) (extPort proto : Option String) : Igd × Answer :=
  if !s.vars.configureAllowed then (s, .error actionFailed)
  else
    match extPort, proto with
    | some extPort, some proto =>
        if proto = "TCP" ∨ proto = "UDP" then
          match pmlistFindSpecific s.pmlist extPort proto with
          | some temp =>
              let deleted := s.pmlistDelete accept temp
              (deleted.1, if deleted.2 then .done else .error noSuchEntryInArray)
          | none => (s, .error noSuchEntryInArray)
        else (s, .error invalidArgs)
    | _, _ => (s, .error invalidArgs)

/-- The entry `GetSpecificPortMappingEntry` reports. -/
def specificEntry (s : Igd) (extPort proto : Option String) : Except UpnpError PortMap :=
  match extPort, proto with
  | some extPort, some proto =>
      if proto = "TCP" ∨ proto = "UDP" then
        match pmlistFindSpecific s.pmlist extPort proto with
        | some temp => .ok temp
        | none => .error noSuchEntryInArray
      else .error invalidArgs
  | _, _ => .error invalidArgs

/-- The entry `GetGenericPortMappingEntry` reports. -/
def genericEntry (s : Igd) (mapindex : Option String) : Except UpnpError PortMap :=
  match mapindex with
  | some index =>
      match pmlistFindByIndex s.pmlist (atoi index) with
      | some temp => .ok temp
      | none => .error specifiedArrayIndexInvalid
  | none => .error invalidArgs

section Queries

variable (ixmlParseBuffer : String → Option Document)

def getSpecificPortMappingEntry (s : Igd) (extPort proto : Option String) : Answer :=
  match s.specificEntry extPort proto with
  | .ok temp => handleInvokeAction (ixmlParseBuffer temp.specificReply)
  | .error e => .error e

def getGenericPortMappingEntry (s : Igd) (mapindex : Option String) : Answer :=
  match s.genericEntry mapindex with
  | .ok temp => handleInvokeAction (ixmlParseBuffer temp.genericReply)
  | .error e => .error e

end Queries

/-! ## The timer thread -/

def dispatch (s : Igd) (eventId : Nat) : Igd :=
  { s with
    queued := s.queued.filter fun e => e.eventId ≠ eventId
    dispatched := s.dispatched ++ s.queued.filter fun e => e.eventId = eventId }

/-- The body of `ExpireMapping` for an event whose worker has the mutex. -/
def expireEvent (s : Igd) (e : ExpirationEvent) : Igd :=
  match s.pmlist.find? fun p => p.node = e.mapping with
  | none => { s with dangling := true }
  | some mapping =>
      (((s.setEventId mapping.node (-1)).pmlistDelete accept mapping).1).freeExpirationEvent e

/-- `ExpireMapping`, for a running job. -/
def expireMapping (s : Igd) (eventId : Nat) : Igd :=
  match s.dispatched.find? fun e => e.eventId = eventId with
  | some e =>
      let running : Igd :=
        { s with dispatched := s.dispatched.filter fun e' => e'.eventId ≠ e.eventId }
      running.expireEvent accept e
  | none => s

/-! ## Steps -/

inductive Input where
  | addPortMapping (args : AddArgs) (block : Block) (outcome : ScheduleOutcome)
  | deletePortMapping (extPort proto : Option String)
  | getSpecificPortMappingEntry (extPort proto : Option String)
  | getGenericPortMappingEntry (mapindex : Option String)
  | deleteAllPortMappings
  | dispatch (eventId : Nat)
  | expireMapping (eventId : Nat)

def step (s : Igd) : Input → Igd
  | .addPortMapping args block outcome => (s.addPortMapping accept args block outcome).1
  | .deletePortMapping extPort proto => (s.deletePortMapping accept extPort proto).1
  | .getSpecificPortMappingEntry _ _ => s
  | .getGenericPortMappingEntry _ => s
  | .deleteAllPortMappings => s.freeList accept
  | .dispatch eventId => s.dispatch eventId
  | .expireMapping eventId => s.expireMapping accept eventId

def answer (ixmlParseBuffer : String → Option Document) (s : Igd) : Input → Answer
  | .addPortMapping args block outcome => (s.addPortMapping accept args block outcome).2
  | .deletePortMapping extPort proto => (s.deletePortMapping accept extPort proto).2
  | .getSpecificPortMappingEntry extPort proto =>
      s.getSpecificPortMappingEntry ixmlParseBuffer extPort proto
  | .getGenericPortMappingEntry mapindex => s.getGenericPortMappingEntry ixmlParseBuffer mapindex
  | .deleteAllPortMappings => .done
  | .dispatch _ => .done
  | .expireMapping _ => .done

end Igd

end Xwr100.Upnp
