import Obus.Struct

/-!
# Objects, events, calls and the object tables of a bus

The run-time data of `obus_object.h`, `obus_bus_event.h` and `obus_call.h` and the object part of
`struct obus_bus`.  An object is known by its handle: every object of a bus is in its hash table,
which refuses a second object under the same handle, and the list of registered objects holds
handles.

An event or a call refers to its object by the descriptor and the handle of the object, which never
change while the object is on a bus.
-/

namespace Obus

/-- A reference to an object. -/
structure ObjectRef where
  desc : ObjectDesc
  handle : UInt16
  deriving DecidableEq

/-- `struct obus_object`. -/
structure Object where
  desc : ObjectDesc
  handle : UInt16
  isRegistered : Bool
  info : Struct
  deriving DecidableEq

/-- The reference to an object. -/
def Object.ref (o : Object) : ObjectRef := ⟨o.desc, o.handle⟩

/-- `struct obus_event`. -/
structure Event where
  obj : ObjectRef
  desc : EventDesc
  info : Struct
  deriving DecidableEq

/-- `struct obus_bus_event`, with the objects that it adds as they are. -/
structure BusEvent where
  desc : BusEventDesc
  addObjs : List Object
  removeObjs : List ObjectRef
  objEvents : List Event
  deriving DecidableEq

/-- `struct obus_call`, as it travels; a method without argument struct has no arguments. -/
structure Call where
  obj : ObjectRef
  desc : MethodDesc
  handle : UInt16
  args : Option Struct
  deriving DecidableEq

/-- `enum obus_call_status`. -/
inductive CallStatus where
  | invalid | acked | aborted | methodDisabled | methodNotSupported | invalidArguments | refused
  deriving DecidableEq, Repr

/-- The number of a call status. -/
def CallStatus.code : CallStatus → UInt8
  | invalid => 0 | acked => 1 | aborted => 2 | methodDisabled => 3 | methodNotSupported => 4
  | invalidArguments => 5 | refused => 6

/-- `struct obus_ack`.  A received status is any byte cast to the enumeration. -/
structure Ack where
  handle : UInt16
  status : UInt8
  deriving DecidableEq

/-- `obus_object_new`: an initialised struct with all fields present, and the given fields merged
in. -/
def objectNew (desc : ObjectDesc) (info : Option Struct) : Except Errno Object :=
  let init := structSetHasFields (structInit desc.infoDesc)
  match info with
  | none => .ok ⟨desc, 0, false, init⟩
  | some st => (structMerge init st).map fun info => ⟨desc, 0, false, info⟩

/-- `obus_event_sanitize`.  The server drops the fields that the event does not declare; the client
keeps them. -/
def eventSanitize (isServer : Bool) (e : Event) : Event :=
  { e with info := e.info.map fun s =>
      if s.has && !e.desc.updates.contains s.desc.uid && isServer
        then { s with has := false } else s }

/-! ## The object tables of a bus -/

/-- The object part of `struct obus_bus`. -/
structure Bus where
  /-- `api`: the descriptor of the bus. -/
  api : BusDesc
  /-- `objects_hash`: every object of the bus, found by its handle. -/
  hash : List Object := []
  /-- `objects`: the handles of the registered objects, in order. -/
  objects : List UInt16 := []

namespace Bus

/-- `obus_bus_object`. -/
def object? (bus : Bus) (handle : UInt16) : Option Object :=
  if handle = 0 then none else bus.hash.find? (·.handle = handle)

/-- Change the object with a handle. -/
def modify (bus : Bus) (handle : UInt16) (f : Object → Object) : Bus :=
  { bus with hash := bus.hash.map fun o => if o.handle = handle then f o else o }

/-- The registered objects, in order. -/
def registered (bus : Bus) : List Object := bus.objects.filterMap bus.object?

end Bus

/-- The draws of `obus_rand_handle` until a handle is free: a draw of 0 stands for a failure to read
the random file. -/
def randHandle (used : UInt16 → Bool) : List UInt16 → Option UInt16
  | [] => none
  | h :: draws => if h = 0 then none else if used h then randHandle used draws else some h

/-- `obus_bus_add_object`: draw a handle if the object has none, and insert the object.  The object
is returned with its handle. -/
def busAddObject (draws : List UInt16) (obj : Object) (bus : Bus) : Except Errno (Object × Bus) :=
  if obj.desc.uid = 0 then .error .einval
  else
    let used h := bus.hash.any (·.handle = h)
    if obj.handle = 0 then
      match randHandle used draws with
      | none => .error .enodev
      | some h =>
        .ok ({ obj with handle := h }, { bus with hash := bus.hash ++ [{ obj with handle := h }] })
    else if used obj.handle then .error .eexist
    else .ok (obj, { bus with hash := bus.hash ++ [obj] })

/-- `obus_bus_remove_object`. -/
def busRemoveObject (handle : UInt16) (bus : Bus) : Bus :=
  { bus with hash := bus.hash.filter (·.handle ≠ handle) }

/-- `obus_bus_register_object`. -/
def busRegisterObject (handle : UInt16) (bus : Bus) : Bus :=
  { bus.modify handle fun o => { o with isRegistered := true } with
    objects := bus.objects ++ [handle] }

/-- `obus_bus_unregister_object`: clear the flag and unlink the object from the list. -/
def busUnregisterObject (handle : UInt16) (bus : Bus) : Bus :=
  { bus.modify handle fun o => { o with isRegistered := false } with
    objects := bus.objects.erase handle }

/-- `obus_object_destroy`: refused while the object is registered. -/
def objectDestroy (handle : UInt16) (bus : Bus) : Except Errno Bus :=
  match bus.object? handle with
  | none => .error .einval
  | some o => if o.isRegistered then .error .eperm else .ok (busRemoveObject handle bus)

/-- `obus_event_commit`: merge the event into its object.  The merge of an event with its own object
never fails, because both have the same descriptor. -/
def eventCommit (e : Event) (bus : Bus) : Bus :=
  bus.modify e.obj.handle fun o =>
    match structMerge o.info e.info with
    | .ok info => { o with info := info }
    | .error _ => o

end Obus
