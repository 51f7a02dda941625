import Obus.Lib.Circle
import Obus.Client

/-!
# The memory of a bus

The tables of a bus as they are in memory: the intrusive lists of `obus_list.h`, the entries of the
hash tables of `obus_hash.c`, and the objects, calls, events and bus events that are linked into
them, each known by its address.  The node `node` of a structure and the node `event_node` of
objects and events are never in the same list, so they have pointers of their own.  A node that
`obus_node_unref` poisoned has no pointers.

The functions are those of `obus_bus.c`, `obus_object.c`, `obus_event.c` and `obus_bus_event.c`, and
those of `obus_server.c` and `obus_client.c` that change the tables.  The state carries every call
of `obus_list_del` that was made: the pointers before it, and the node.  Following a poisoned
pointer, using freed memory or running in a circle without end is a fault, after which no list and
no table changes any more.

Callbacks of the user do not use the tables.  An address is never used again, and the buckets of a
hash table are one list.
-/

namespace Obus

/-- The hash tables of a bus. -/
inductive Table where
  | objects | calls | providers
  deriving DecidableEq, Repr

/-- The list heads of `struct obus_bus`, `struct obus_hash` and `struct obus_packet_conresp`, and
the nodes `node` of objects, calls, providers and hash entries. -/
inductive ListNode where
  | objects | calls | providers
  | entries (t : Table)
  | received (k : ℕ)
  | object (a : ℕ)
  | call (c : ℕ)
  | provider (uid : UInt16) (p : ℕ)
  | entry (t : Table) (key : UInt16)
  deriving DecidableEq, Repr

/-- The list heads of `struct obus_bus_event` and the nodes `event_node` of objects and events. -/
inductive EventNode where
  | addObjs (e : ℕ) | removeObjs (e : ℕ) | objEvents (e : ℕ)
  | object (a : ℕ)
  | event (v : ℕ)
  deriving DecidableEq, Repr

/-- `struct obus_object`, without the info. -/
structure ObjectMem where
  uid : UInt16
  handle : UInt16
  isRegistered : Bool := false
  /-- Whether `bus` is not NULL. -/
  bus : Bool := false
  deriving DecidableEq, Repr

/-- `struct obus_call`, with its object and its handle. -/
structure CallMem where
  obj : ℕ
  handle : UInt16
  deriving DecidableEq, Repr

/-- `struct obus_event`, with its object. -/
structure EventMem where
  obj : ℕ
  isAllocated : Bool
  deriving DecidableEq, Repr

/-- The memory of a bus. -/
structure Registry where
  nodes : Links ListNode
  eventNodes : Links EventNode
  objs : ℕ → Option ObjectMem := fun _ => none
  calls : ℕ → Option CallMem := fun _ => none
  events : ℕ → Option EventMem := fun _ => none
  /-- The bus events that were made and not destroyed. -/
  busEvents : ℕ → Bool := fun _ => false
  hash : Table → List (UInt16 × ℕ) := fun _ => []
  /-- The next address. -/
  fresh : ℕ := 0
  /-- The state of a client. -/
  state : ClientState := .idle
  /-- The server or the client was destroyed. -/
  destroyed : Bool := false
  fault : Bool := false
  /-- The calls of `obus_list_del`. -/
  dels : List (Links ListNode × ListNode) := []
  eventDels : List (Links EventNode × EventNode) := []

namespace Registry

/-- `obus_bus_init`. -/
def busInit : Registry where
  nodes := ((((((Links.unlinked.init .objects).init (.entries .objects)).init .calls).init
    (.entries .calls)).init .providers).init (.entries .providers))
  eventNodes := Links.unlinked

/-- The program does not get any further. -/
def crash (m : Registry) : Registry := { m with fault := true }

/-- Lists and tables do not change after a fault. -/
def live (f : Registry → Registry) (m : Registry) : Registry := if m.fault then m else f m

/-! ## Lists -/

/-- `obus_list_del`, for a node `node`. -/
def del (n : ListNode) : Registry → Registry := live fun m =>
  let m := { m with dels := (m.nodes, n) :: m.dels }
  if (m.nodes.next n).isNone || (m.nodes.prev n).isNone then m.crash
    else { m with nodes := m.nodes.del n }

/-- `obus_list_add_before` with a list head, for a node `node`. -/
def addBefore (head novel : ListNode) : Registry → Registry := live fun m =>
  if (m.nodes.prev head).isNone then m.crash else { m with nodes := m.nodes.addBefore head novel }

/-- `obus_list_del`, for a node `event_node`. -/
def eventDel (n : EventNode) : Registry → Registry := live fun m =>
  let m := { m with eventDels := (m.eventNodes, n) :: m.eventDels }
  if (m.eventNodes.next n).isNone || (m.eventNodes.prev n).isNone then m.crash
  else { m with eventNodes := m.eventNodes.del n }

/-- `obus_list_add_before` with a list head, for a node `event_node`. -/
def eventAddBefore (head novel : EventNode) : Registry → Registry := live fun m =>
  if (m.eventNodes.prev head).isNone then m.crash
  else { m with eventNodes := m.eventNodes.addBefore head novel }

/-- `obus_list_walk_entry_forward_safe`.  A list has no more nodes than there are addresses. -/
def walkNodes (head : ListNode) (body : ListNode → Registry → Registry) (m : Registry) : Registry :=
  walkSafe nodes crash head body (m.fresh + 1) (m.nodes.next head) m

/-- `obus_list_walk_entry_forward_safe`, along nodes `event_node`. -/
def walkEvents (head : EventNode) (body : EventNode → Registry → Registry) (m : Registry) :
    Registry :=
  walkSafe eventNodes crash head body (m.fresh + 1) (m.eventNodes.next head) m

/-- `obus_list_walk_entry_forward`, along nodes `event_node`. -/
def followEvents (head : EventNode) (body : EventNode → Registry → Registry) (m : Registry) :
    Registry :=
  walk eventNodes crash head body (m.fresh + 1) (m.eventNodes.next head) m

/-- The object that a node of a list belongs to. -/
def atObject (f : ℕ → Registry → Registry) : ListNode → Registry → Registry
  | .object a, m => f a m
  | _, m => m.crash

/-- The call that a node of a list belongs to. -/
def atCall (f : ℕ → Registry → Registry) : ListNode → Registry → Registry
  | .call c, m => f c m
  | _, m => m.crash

/-- The key of the hash entry that a node of a list belongs to. -/
def atEntry (f : UInt16 → Registry → Registry) : ListNode → Registry → Registry
  | .entry _ key, m => f key m
  | _, m => m.crash

/-! ## Hash tables -/

/-- `obus_hash_insert`, and whether it succeeded. -/
def hashInsert (alloc : Bool) (t : Table) (key : UInt16) (data : ℕ) (m : Registry) :
    Bool × Registry :=
  if m.fault || !alloc || (m.hash t).any (·.1 = key) then (false, m)
  else
    (true, { m with hash := Function.update m.hash t (m.hash t ++ [(key, data)]) }.addBefore
      (.entries t) (.entry t key))

/-- `obus_hash_lookup`. -/
def hashLookup (t : Table) (key : UInt16) (m : Registry) : Option ℕ :=
  ((m.hash t).find? (·.1 = key)).map Prod.snd

/-- `obus_hash_remove`, and whether it succeeded. -/
def hashRemove (t : Table) (key : UInt16) (m : Registry) : Bool × Registry :=
  if m.fault || !(m.hash t).any (·.1 = key) then (false, m)
  else (true, { m with hash := Function.update m.hash t ((m.hash t).filter (·.1 ≠ key)) }.del
    (.entry t key))

/-- `obus_hash_destroy`. -/
def hashDestroy (t : Table) (m : Registry) : Registry :=
  (m.hash t).foldl (fun m e => (m.hashRemove t e.1).2) m

/-! ## Objects -/

/-- Change an object. -/
def setObj (a : ℕ) (f : ObjectMem → ObjectMem) : Registry → Registry := live fun m =>
  match m.objs a with
  | none => m.crash
  | some o => { m with objs := Function.update m.objs a (some (f o)) }

/-- `obus_object_new`: the address of the object. -/
def objectNew (uid handle : UInt16) (m : Registry) : ℕ × Registry :=
  (m.fresh,
    { m with
      nodes := m.nodes.unref (.object m.fresh)
      eventNodes := m.eventNodes.unref (.object m.fresh)
      objs := Function.update m.objs m.fresh (some { uid := uid, handle := handle })
      fresh := m.fresh + 1 })

/-- `obus_bus_add_object`, and whether it succeeded. -/
def busAddObject (alloc : Bool) (draws : List UInt16) (a : ℕ) (m : Registry) : Bool × Registry :=
  match m.objs a with
  | none => (false, m.crash)
  | some o =>
    if o.uid = 0 then (false, m)
    else if o.handle = 0 then
      match randHandle (fun h => (m.hash .objects).any (·.1 = h)) draws with
      | none => (false, m)
      | some h =>
        match (m.setObj a fun o => { o with handle := h }).hashInsert alloc .objects h a with
        | (true, m) => (true, m.setObj a fun o => { o with bus := true })
        | (false, m) => (false, m.setObj a fun o => { o with handle := 0 })
    else
      match m.hashInsert alloc .objects o.handle a with
      | (true, m) => (true, m.setObj a fun o => { o with bus := true })
      | (false, m) => (false, m)

/-- `obus_bus_remove_object`, with or without a bus. -/
def busRemoveObject (bus : Bool) (a : ℕ) (m : Registry) : Registry :=
  match m.objs a with
  | none => m.crash
  | some o =>
    if !bus || o.uid = 0 then m
    else
      match m.hashRemove .objects o.handle with
      | (true, m) => m.setObj a fun o => { o with bus := false }
      | (false, m) => m

/-- `obus_bus_register_object`. -/
def busRegisterObject (a : ℕ) (m : Registry) : Registry :=
  (m.setObj a fun o => { o with isRegistered := true }).addBefore .objects (.object a)

/-- `obus_bus_unregister_object`. -/
def busUnregisterObject (a : ℕ) (m : Registry) : Registry :=
  (m.setObj a fun o => { o with isRegistered := false }).del (.object a)

/-- `obus_bus_object`. -/
def busObject (handle : UInt16) (m : Registry) : Option ℕ :=
  if handle = 0 then none else m.hashLookup .objects handle

/-- `obus_object_destroy`. -/
def objectDestroy (a : ℕ) (m : Registry) : Registry :=
  match m.objs a with
  | none => m.crash
  | some o =>
    if o.isRegistered then m
    else
      let m := m.busRemoveObject o.bus a
      let m := if m.eventNodes.isRef (.object a) then m.eventDel (.object a) else m
      m.live fun m => { m with objs := Function.update m.objs a none }

/-! ## Calls -/

/-- `obus_call_new`: the address of the call. -/
def callNew (obj : ℕ) (m : Registry) : ℕ × Registry :=
  (m.fresh,
    { m with calls := Function.update m.calls m.fresh (some ⟨obj, 0⟩), fresh := m.fresh + 1 })

/-- `obus_call_destroy`. -/
def callDestroy (c : ℕ) : Registry → Registry := live fun m =>
  { m with calls := Function.update m.calls c none }

/-- `obus_bus_register_call`, and whether it succeeded. -/
def busRegisterCall (alloc : Bool) (draws : List UInt16) (c : ℕ) (m : Registry) : Bool × Registry :=
  match m.calls c with
  | none => (false, m.crash)
  | some call =>
    match randHandle (fun h => (m.hash .calls).any (·.1 = h)) draws with
    | none => (false, m)
    | some h =>
      match ({ m with
        calls := Function.update m.calls c (some { call with handle := h }) }).hashInsert alloc
          .calls h c with
      | (true, m) => (true, m.addBefore .calls (.call c))
      | (false, m) =>
        (false, { m with calls := Function.update m.calls c (some { call with handle := 0 }) })

/-- `obus_bus_unregister_call`. -/
def busUnregisterCall (c : ℕ) (m : Registry) : Registry :=
  match m.calls c with
  | none => m.crash
  | some call =>
    match m.hashRemove .calls call.handle with
    | (true, m) => m.del (.call c)
    | (false, m) => m

/-- `obus_bus_call`. -/
def busCall (handle : UInt16) (m : Registry) : Option ℕ :=
  if handle = 0 then none else m.hashLookup .calls handle

/-- `obus_bus_abort_call`: the calls on an object, or all. -/
def busAbortCall (obj : Option ℕ) : Registry → Registry :=
  walkNodes .calls <| atCall fun c m =>
    match m.calls c with
    | none => m.crash
    | some call => if obj.all (· = call.obj) then (m.busUnregisterCall c).callDestroy c else m

/-! ## Providers -/

/-- `obus_bus_register_provider`. -/
def busRegisterProvider (alloc : Bool) (uid : UInt16) (p : ℕ) (m : Registry) : Registry :=
  match m.hashInsert alloc .providers uid p with
  | (true, m) => m.addBefore .providers (.provider uid p)
  | (false, m) => m

/-- `obus_bus_unregister_provider`. -/
def busUnregisterProvider (uid : UInt16) (p : ℕ) (m : Registry) : Registry :=
  match m.hashRemove .providers uid with
  | (true, m) => m.del (.provider uid p)
  | (false, m) => m

/-! ## Events and bus events -/

/-- `obus_event_new` or `obus_event_init`: the address of the event. -/
def eventNew (isAllocated : Bool) (obj : ℕ) (m : Registry) : ℕ × Registry :=
  (m.fresh,
    { m with
      eventNodes := m.eventNodes.unref (.event m.fresh)
      events := Function.update m.events m.fresh (some ⟨obj, isAllocated⟩)
      fresh := m.fresh + 1 })

/-- `obus_event_destroy`. -/
def eventDestroy (v : ℕ) (m : Registry) : Registry :=
  match m.events v with
  | none => m.crash
  | some ev =>
    if !ev.isAllocated then m
    else
      let m := if m.eventNodes.isRef (.event v) then m.eventDel (.event v) else m
      m.live fun m => { m with events := Function.update m.events v none }

/-- `obus_bus_event_init`: the address of the bus event. -/
def busEventNew (m : Registry) : ℕ × Registry :=
  (m.fresh,
    { m with
      eventNodes := ((m.eventNodes.init (.addObjs m.fresh)).init (.removeObjs m.fresh)).init
        (.objEvents m.fresh)
      busEvents := Function.update m.busEvents m.fresh true
      fresh := m.fresh + 1 })

/-- `obus_bus_event_register_object`: an object can only be added once in a bus event. -/
def busEventRegisterObject (e a : ℕ) (m : Registry) : Registry :=
  if m.eventNodes.isRef (.object a) then m else m.eventAddBefore (.addObjs e) (.object a)

/-- `obus_bus_event_unregister_object`. -/
def busEventUnregisterObject (e a : ℕ) (m : Registry) : Registry :=
  if m.eventNodes.isRef (.object a) then m else m.eventAddBefore (.removeObjs e) (.object a)

/-- `obus_bus_event_add_event`. -/
def busEventAddEvent (e v : ℕ) (m : Registry) : Registry :=
  if m.eventNodes.isRef (.event v) then m else m.eventAddBefore (.objEvents e) (.event v)

/-- The object that a node of a bus event belongs to. -/
def onObject (f : ℕ → Registry → Registry) : EventNode → Registry → Registry
  | .object a, m => f a m
  | _, m => m.crash

/-- The event that a node of a bus event belongs to. -/
def onEvent (f : ℕ → Registry → Registry) : EventNode → Registry → Registry
  | .event v, m => f v m
  | _, m => m.crash

/-- `obus_bus_event_destroy`. -/
def busEventDestroy (e : ℕ) (m : Registry) : Registry :=
  let m := m.walkEvents (.objEvents e) (onEvent fun v m => (m.eventDel (.event v)).eventDestroy v)
  let m := m.walkEvents (.addObjs e) (onObject fun a m => m.eventDel (.object a))
  let m := m.walkEvents (.removeObjs e)
    (onObject fun a m => (m.eventDel (.object a)).objectDestroy a)
  m.live fun m => { m with busEvents := Function.update m.busEvents e false }

/-! ## Tearing down a bus -/

/-- `obus_bus_clear`. -/
def busClear (m : Registry) : Registry :=
  (m.busAbortCall none).walkNodes (.entries .objects) <| atEntry fun key m =>
    match m.hashLookup .objects key with
    | none => m.crash
    | some a => (m.busUnregisterObject a).objectDestroy a

/-- `obus_bus_destroy`. -/
def busDestroy (m : Registry) : Registry :=
  { (((m.busClear.hashDestroy .objects).hashDestroy .calls).hashDestroy .providers) with
    destroyed := true }

/-! ## The server -/

/-- `obus_server_new_object`, with a handle that is drawn. -/
def newObject (uid : UInt16) (allocObj allocEntry : Bool) (draws : List UInt16) (m : Registry) :
    Registry :=
  if !allocObj then m
  else
    let (a, m) := m.objectNew uid 0
    match m.busAddObject allocEntry draws a with
    | (true, m) => m
    | (false, m) => m.objectDestroy a

/-- `obus_server_register_object`. -/
def registerObject (a : ℕ) (m : Registry) : Registry :=
  match m.objs a with
  | none => m.crash
  | some o => if o.isRegistered then m else m.busRegisterObject a

/-- `obus_server_unregister_object`. -/
def unregisterObject (a : ℕ) (m : Registry) : Registry :=
  match m.objs a with
  | none => m.crash
  | some o => if !o.isRegistered then m else m.busUnregisterObject a

/-- Follow a list of a bus event to see whether all nodes pass a test; nothing is tested after a
failure. -/
def checkNodes (head : EventNode) (test : EventNode → Registry → Option Bool) (m : Registry) :
    Bool × Registry :=
  walk (fun s => s.2.eventNodes) (fun s => (s.1, s.2.crash)) head
    (fun n s =>
      if !s.1 then s
      else
        match test n s.2 with
        | none => (true, s.2.crash)
        | some ok => (ok, s.2))
    (m.fresh + 1) (m.eventNodes.next head) (true, m)

/-- A test of the object of a node. -/
def testObject (ok : ObjectMem → Bool) : EventNode → Registry → Option Bool
  | .object a, m => (m.objs a).map ok
  | _, _ => none

/-- Whether the object of an event is registered. -/
def testEvent : EventNode → Registry → Option Bool
  | .event v, m => (m.events v).bind fun ev => (m.objs ev.obj).map ObjectMem.isRegistered
  | _, _ => none

/-- `obus_server_check_bus_event`, and whether it succeeded. -/
def checkBusEvent (e : ℕ) (m : Registry) : Bool × Registry :=
  match m.checkNodes (.addObjs e) (testObject fun o => !o.isRegistered) with
  | (false, m) => (false, m)
  | (true, m) =>
    match m.checkNodes (.removeObjs e) (testObject ObjectMem.isRegistered) with
    | (false, m) => (false, m)
    | (true, m) => m.checkNodes (.objEvents e) testEvent

/-- `obus_server_register_objects`. -/
def registerObjects (e : ℕ) : Registry → Registry :=
  followEvents (.addObjs e) (onObject busRegisterObject)

/-- `obus_server_undo_register_objects`. -/
def undoRegisterObjects (e : ℕ) : Registry → Registry :=
  followEvents (.addObjs e) (onObject busUnregisterObject)

/-- `obus_server_commit_bus_event`. -/
def commitServerBusEvent (e : ℕ) : Registry → Registry :=
  followEvents (.removeObjs e) (onObject busUnregisterObject)

/-- `obus_server_send_bus_event`: with peers, the packet needs a buffer and must be encoded. -/
def sendBusEvent (e : ℕ) (connected buffer encoded : Bool) (m : Registry) : Registry :=
  match m.checkBusEvent e with
  | (false, m) => m
  | (true, m) =>
    let m := m.registerObjects e
    if connected && !(buffer && encoded) then m.undoRegisterObjects e else m.commitServerBusEvent e

/-! ## The client -/

/-- `obus_client_add_object`. -/
def addObject (alloc : UInt16 → Bool) (a : ℕ) (m : Registry) : Registry :=
  match m.objs a with
  | none => m.crash
  | some o =>
    match m.busAddObject (alloc o.handle) [] a with
    | (false, m) => m.objectDestroy a
    | (true, m) => m.busRegisterObject a

/-- `obus_client_remove_object`.  Without an object all calls are aborted before the object is used.
-/
def removeObject (obj : Option ℕ) (m : Registry) : Registry :=
  let m := m.busAbortCall obj
  match obj with
  | none => m.crash
  | some a => ((m.busUnregisterObject a).busRemoveObject true a).objectDestroy a

/-- `obus_client_ack`. -/
def ack (handle : UInt16) (m : Registry) : Registry :=
  match m.busCall handle with
  | none => m
  | some c => (m.busUnregisterCall c).callDestroy c

/-- `obus_client_commit_bus_event`. -/
def commitBusEvent (alloc : UInt16 → Bool) (e : ℕ) (m : Registry) : Registry :=
  let m := m.walkEvents (.addObjs e) (onObject fun a m => m.addObject alloc a)
  let m := m.walkEvents (.addObjs e) (onObject fun a m => m.eventDel (.object a))
  let m := m.walkEvents (.objEvents e) (onEvent fun v m => (m.eventDel (.event v)).eventDestroy v)
  m.walkEvents (.removeObjs e) (onObject fun a m => (m.eventDel (.object a)).removeObject (some a))

/-- `obus_client_handle_bus_event`. -/
def handleBusEvent (alloc : UInt16 → Bool) (e : ℕ) (m : Registry) : Registry :=
  (m.commitBusEvent alloc e).busEventDestroy e

/-- The objects of `obus_packet_conresp_decode`, in the list of the packet. -/
def receiveObjects (k : ℕ) (objects : List Object) (m : Registry) : Registry :=
  objects.foldl (fun m o =>
    let (a, m) := m.objectNew o.desc.uid o.handle
    m.addBefore (.received k) (.object a)) m

/-- `obus_client_connection_response`.  The objects of a response that is not accepted stay in the
list of the packet; nothing refers to them any more, and they are left out. -/
def connectionResponse (alloc : UInt16 → Bool) (status : ConrespStatus) (objects : List Object)
    (m : Registry) : Registry :=
  if m.state ≠ .connecting then m
  else if status ≠ .accepted then { m with state := .refused }
  else
    let k := m.fresh
    let m := { m with nodes := m.nodes.init (.received k), fresh := k + 1, state := .connected }
    let m := m.receiveObjects k objects
    let (e, m) := m.busEventNew
    let m := m.walkNodes (.received k) (atObject fun a m =>
      (m.del (.object a)).eventAddBefore (.addObjs e) (.object a))
    m.handleBusEvent alloc e

/-- The objects that a bus event adds, put into its list. -/
def decodeAddObjs (e : ℕ) (objects : List Object) (m : Registry) : Registry :=
  objects.foldl (fun m o =>
    let (a, m) := m.objectNew o.desc.uid o.handle
    m.eventAddBefore (.addObjs e) (.object a)) m

/-- The objects that a bus event removes, as far as they are known, put into its list. -/
def decodeRemoveObjs (e : ℕ) (refs : List ObjectRef) (m : Registry) : Registry :=
  refs.foldl (fun m r =>
    match m.busObject r.handle with
    | none => m
    | some a => m.eventAddBefore (.removeObjs e) (.object a)) m

/-- The events of a bus event on objects that are known, put into its list. -/
def decodeObjEvents (e : ℕ) (events : List Event) (m : Registry) : Registry :=
  events.foldl (fun m v =>
    match m.busObject v.obj.handle with
    | none => m
    | some a =>
      let (v, m) := m.eventNew true a
      m.eventAddBefore (.objEvents e) (.event v)) m

/-- `obus_bus_event_decode`: unlike the functions for the user it does not ask whether a node is in
a list. -/
def busEventDecode (event : BusEvent) (m : Registry) : ℕ × Registry :=
  let (e, m) := m.busEventNew
  let m := m.decodeAddObjs e event.addObjs
  let m := m.decodeRemoveObjs e event.removeObjs
  (e, m.decodeObjEvents e event.objEvents)

/-- The switch of `obus_client_io_read_event`, with the decoding of the objects of a packet.  An
event of its own is in no list. -/
def packet (alloc : UInt16 → Bool) : PacketInfo → Registry → Registry
  | .conresp status objects, m => m.connectionResponse alloc status objects
  | .add obj, m =>
    let (a, m) := m.objectNew obj.desc.uid obj.handle
    m.addObject alloc a
  | .remove obj, m => m.removeObject (obj.bind fun r => m.busObject r.handle)
  | .busEvent event, m =>
    let (e, m) := m.busEventDecode event
    m.handleBusEvent alloc e
  | .ack a, m => m.ack a.handle
  | .event _, m | .conreq _, m | .call _, m => m

/-- `obus_client_call`, on an object of the user. -/
def call (a : ℕ) (enabled allocCall allocEntry : Bool) (draws : List UInt16) (written : Bool)
    (m : Registry) : Registry :=
  match m.objs a with
  | none => m.crash
  | some o =>
    if m.state ≠ .connected || !o.isRegistered || !enabled || !allocCall then m
    else
      let (c, m) := m.callNew a
      match m.busRegisterCall allocEntry draws c with
      | (false, m) => m.callDestroy c
      | (true, m) => if written then m else (m.busUnregisterCall c).callDestroy c

/-- `obus_client_disconnect_bus`. -/
def disconnectBus (alloc : UInt16 → Bool) (m : Registry) : Registry :=
  let (e, m) := m.busEventNew
  let m := m.walkNodes .objects (atObject fun a m => m.eventAddBefore (.removeObjs e) (.object a))
  m.handleBusEvent alloc e

/-- `obus_client_disconnect`. -/
def disconnect (alloc : UInt16 → Bool) (reconnect : Bool) (m : Registry) : Registry :=
  let m := if m.state = .connected
    then { m with state := .disconnecting }.disconnectBus alloc else m
  { m with state := if reconnect then .connecting else .disconnected }

/-- `obus_client_destroy`. -/
def clientDestroy (alloc : UInt16 → Bool) (m : Registry) : Registry :=
  (m.disconnect alloc false).busDestroy

end Registry

/-! ## Runs -/

/-- What a user does with a server.  Objects, events and bus events are passed by their addresses.
-/
inductive RegistryOp where
  | newObject (uid : UInt16) (allocObj allocEntry : Bool) (draws : List UInt16)
  | registerObject (a : ℕ)
  | unregisterObject (a : ℕ)
  | objectDestroy (a : ℕ)
  | eventNew (isAllocated : Bool) (obj : ℕ)
  | eventDestroy (v : ℕ)
  | busEventNew
  | busEventRegisterObject (e a : ℕ)
  | busEventUnregisterObject (e a : ℕ)
  | busEventAddEvent (e v : ℕ)
  | sendBusEvent (e : ℕ) (connected buffer encoded : Bool)
  | busEventDestroy (e : ℕ)
  /-- `obus_server_destroy`. -/
  | destroy

namespace Registry

/-- The user passes addresses of what exists. -/
def Valid (m : Registry) : RegistryOp → Bool
  | .registerObject a | .unregisterObject a | .objectDestroy a | .eventNew _ a => (m.objs a).isSome
  | .eventDestroy v => (m.events v).isSome
  | .busEventRegisterObject e a | .busEventUnregisterObject e a =>
    m.busEvents e && (m.objs a).isSome
  | .busEventAddEvent e v => m.busEvents e && (m.events v).isSome
  | .sendBusEvent e _ _ _ | .busEventDestroy e => m.busEvents e
  | .newObject _ _ _ _ | .busEventNew | .destroy => true

/-- What an operation of a server does. -/
def perform (m : Registry) : RegistryOp → Registry
  | .newObject uid allocObj allocEntry draws => m.newObject uid allocObj allocEntry draws
  | .registerObject a => m.registerObject a
  | .unregisterObject a => m.unregisterObject a
  | .objectDestroy a => m.objectDestroy a
  | .eventNew isAllocated obj => (m.eventNew isAllocated obj).2
  | .eventDestroy v => m.eventDestroy v
  | .busEventNew => m.busEventNew.2
  | .busEventRegisterObject e a => m.busEventRegisterObject e a
  | .busEventUnregisterObject e a => m.busEventUnregisterObject e a
  | .busEventAddEvent e v => m.busEventAddEvent e v
  | .sendBusEvent e connected buffer encoded => m.sendBusEvent e connected buffer encoded
  | .busEventDestroy e => m.busEventDestroy e
  | .destroy => m.busDestroy

end Registry

/-- A step of a server: an operation of its user.  There is none after a fault or after the end. -/
def registryStep (m : Registry) (op : RegistryOp) : Option Registry :=
  if m.fault || m.destroyed || !m.Valid op then none else some (m.perform op)

/-- What happens to a client, with the hash entries that can be allocated. -/
inductive ClientRegistryOp where
  | start
  | registerProvider (alloc : Bool) (uid : UInt16) (p : ℕ)
  | unregisterProvider (uid : UInt16) (p : ℕ)
  | call (a : ℕ) (enabled allocCall allocEntry : Bool) (draws : List UInt16) (written : Bool)
  | packet (alloc : UInt16 → Bool) (info : PacketInfo)
  /-- The connection is lost. -/
  | disconnect (alloc : UInt16 → Bool)
  | destroy (alloc : UInt16 → Bool)

namespace Registry

/-- What a step of a client does. -/
def clientPerform (m : Registry) : ClientRegistryOp → Registry
  | .start => if m.state = .idle then { m with state := .connecting } else m
  | .registerProvider alloc uid p => m.busRegisterProvider alloc uid p
  | .unregisterProvider uid p => m.busUnregisterProvider uid p
  | .call a enabled allocCall allocEntry draws written =>
    m.call a enabled allocCall allocEntry draws written
  | .packet alloc info => m.packet alloc info
  | .disconnect alloc => m.disconnect alloc true
  | .destroy alloc => m.clientDestroy alloc

/-- A call of the user is made on an object that exists. -/
def ClientValid (m : Registry) : ClientRegistryOp → Bool
  | .call a _ _ _ _ _ => (m.objs a).isSome
  | _ => true

end Registry

/-- A step of a client.  There is none after a fault or after the end. -/
def clientRegistryStep (m : Registry) (op : ClientRegistryOp) : Option Registry :=
  if m.fault || m.destroyed || !m.ClientValid op then none else some (m.clientPerform op)

end Obus
