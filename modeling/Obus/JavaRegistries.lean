import Mathlib.Data.List.AList
import Mathlib.Logic.Function.Basic

/-!
# The object registries of the Java client

The Java client keeps each object of the server twice: in its bus, under the handle, and in the
registry of the descriptor, under a key that the extractor of the registry computes from the field
values.  The observers of a registry are told when it takes an object and when it drops one.

The registries are a view of the bus if they hold objects of the bus only, and if the observers have
been told of the removal of an object exactly if it has left the bus (`Client.View`).

An object that the bus does not take is still offered to the registry, and a removal looks an object
up under the key of its current field values.  `InStep` says that neither matters: every object that
arrives goes to both or is left out by the registry, and a stored object that is removed has its key
still.
-/

namespace Obus.JavaClient

/-- The state of the connection. -/
inductive State where
  | idle | connecting | connected | disconnecting | disconnected | refused
  deriving DecidableEq, Repr

/-- An object of the client: which one it is, and its members that never change. -/
structure ObusObject where
  id : ℕ
  uid : ℕ
  handle : ℕ
  deriving DecidableEq, Repr

/-- The field values of a struct; an absent field has none. -/
abbrev Fields (V : Type*) := ℕ → Option V

/-- `ObusStruct.merge`: the fields that are present are copied. -/
def Fields.merge {V : Type*} (dest src : Fields V) : Fields V := fun i => (src i).or (dest i)

/-- `BusObjectsRegistry`, as it is constructed; a registry of a singleton has no extractor, and an
extractor may return a null key. -/
structure Registry (κ V : Type*) where
  keyExtractor : Option (Fields V → Option κ)

/-- The key under which a registry looks up an object. -/
def Registry.key {κ V : Type*} (r : Registry κ V) (struct : Fields V) : Option κ :=
  match r.keyExtractor with
  | none => none
  | some getKey => getKey struct

/-- The objects of `Bus`, under their handles. -/
abbrev Bus := AList fun _ : ℕ => ObusObject

/-- `mStore` of a registry: an object under a key. -/
abbrev Store (κ : Type*) := Option κ → Option ObusObject

/-- What the observers of a registry are told. -/
inductive Change where
  | added | removed
  deriving DecidableEq, Repr

/-- A notification: `onObjectAdded` or `onObjectRemoved`, with the bus event that it is part of. -/
structure Notice where
  change : Change
  obj : ObusObject
  busEvent : Option ℕ
  deriving DecidableEq, Repr

/-- The client, as far as its objects go. -/
structure Client (κ V : Type*) where
  state : State := .connecting
  bus : Bus := ∅
  /-- The store of the registry of each descriptor. -/
  stores : ℕ → Store κ := fun _ _ => none
  /-- The field values of each object. -/
  struct : ℕ → Fields V := fun _ _ => none
  /-- How many objects have been decoded. -/
  created : ℕ := 0
  notices : List Notice := []

/-- An object as it stands in a packet. -/
structure ObjectData (V : Type*) where
  uid : ℕ
  handle : ℕ
  struct : Fields V

/-- An event as it stands in a packet. -/
structure EventData (V : Type*) where
  uid : ℕ
  handle : ℕ
  struct : Fields V

/-- What arrives at the client.  The items of a packet that have an unknown descriptor or cannot be
decoded are dropped, and left out here. -/
inductive Input (V : Type*) where
  | connResp (accepted : Bool) (objects : List (ObjectData V))
  | add (obj : ObjectData V)
  | remove (uid handle : ℕ)
  | event (evt : EventData V)
  | busEvent (uid : ℕ) (registers : List (ObjectData V)) (unregisters : List (ℕ × ℕ))
    (events : List (EventData V))
  | disconnected

/-- The order in which `getAllObjects` returns the objects of a bus. -/
structure ObjectOrder where
  objects : Bus → List ObusObject
  perm : ∀ b, (objects b).Perm (b.entries.map Sigma.snd)

def obusInvalidHandle : ℕ := 0

def busevtConnectedUid : ℕ := 1

def busevtDisconnectedUid : ℕ := 2

def busevtConnectionRefusedUid : ℕ := 3

/-! ## The bus -/

/-- `Bus.registerObject`; without a result it throws an `IllegalArgumentException`. -/
def Bus.registerObject (b : Bus) (o : ObusObject) : Option Bus :=
  if o.handle = obusInvalidHandle then none
  else if o.handle ∈ b then none
  else some (b.insert o.handle o)

/-- `Bus.unregisterObject`; without a result it throws an `IllegalArgumentException`. -/
def Bus.unregisterObject (b : Bus) (o : ObusObject) : Option Bus :=
  if o.handle ∈ b then some (b.erase o.handle) else none

/-- The object of the bus with a handle, if it has the uid that the packet gives. -/
def Bus.findObject (b : Bus) (uid handle : ℕ) : Option ObusObject :=
  (b.lookup handle).filter fun o => o.uid = uid

/-! ## The registries -/

section Registries

variable {κ V : Type*} [DecidableEq κ]

/-- `BusObjectsRegistry.add`. -/
def Registry.add (r : Registry κ V) (o : ObusObject) (evt : Option ℕ) (s : Client κ V) :
    Client κ V :=
  let key := r.key (s.struct o.id)
  if (s.stores o.uid key).isSome then s
  else { s with
    stores := Function.update s.stores o.uid (Function.update (s.stores o.uid) key (some o))
    notices := s.notices ++ [⟨.added, o, evt⟩] }

/-- `BusObjectsRegistry.remove`. -/
def Registry.remove (r : Registry κ V) (o : ObusObject) (evt : Option ℕ) (s : Client κ V) :
    Client κ V :=
  let key := r.key (s.struct o.id)
  if s.stores o.uid key = some o then
    { s with
      stores := Function.update s.stores o.uid (Function.update (s.stores o.uid) key none)
      notices := s.notices ++ [⟨.removed, o, evt⟩] }
  else s

variable (registries : ℕ → Option (Registry κ V))

/-- `addObjectToRegistry`. -/
def addObjectToRegistry (evt : Option ℕ) (s : Client κ V) (o : ObusObject) : Client κ V :=
  match registries o.uid with
  | none => s
  | some r => r.add o evt s

/-- `removeObjectFromRegistry`. -/
def removeObjectFromRegistry (evt : Option ℕ) (s : Client κ V) (o : ObusObject) : Client κ V :=
  match registries o.uid with
  | none => s
  | some r => r.remove o evt s

end Registries

/-! ## The client -/

section Packets

variable {κ V : Type*}

/-- `registerObject`, which catches what the bus throws. -/
def registerObject (s : Client κ V) (o : ObusObject) : Client κ V :=
  match s.bus.registerObject o with
  | some b => { s with bus := b }
  | none => s

/-- `unregisterObject`, which catches what the bus throws. -/
def unregisterObject (s : Client κ V) (o : ObusObject) : Client κ V :=
  match s.bus.unregisterObject o with
  | some b => { s with bus := b }
  | none => s

/-- `ObusObject.decode`: a new object with the members of the packet. -/
def decodeObject (d : ObjectData V) (s : Client κ V) : ObusObject × Client κ V :=
  (⟨s.created, d.uid, d.handle⟩,
    { s with struct := Function.update s.struct s.created d.struct, created := s.created + 1 })

/-- The objects of a packet are decoded one after the other. -/
def decodeObjects : List (ObjectData V) → Client κ V → List ObusObject × Client κ V
  | [], s => ([], s)
  | d :: ds, s =>
    let (o, s) := decodeObject d s
    let (os, s) := decodeObjects ds s
    (o :: os, s)

/-- `ObusEvent.decode`: the object of an event, with the fields of the event. -/
def decodeEvent (b : Bus) (e : EventData V) : Option (ObusObject × Fields V) :=
  (b.findObject e.uid e.handle).map fun o => (o, e.struct)

/-- `ObusEvent.commit`. -/
def commit (s : Client κ V) (e : ObusObject × Fields V) : Client κ V :=
  { s with struct := Function.update s.struct e.1.id ((s.struct e.1.id).merge e.2) }

variable [DecidableEq κ] (registries : ℕ → Option (Registry κ V))

/-- `dispatchBusEvent`, with the three lists of the bus event. -/
def dispatchBusEvent (uid : ℕ) (registerList unregisterList : List ObusObject)
    (eventList : List (ObusObject × Fields V)) (s : Client κ V) : Client κ V :=
  let s := registerList.foldl registerObject s
  let s := registerList.foldl (addObjectToRegistry registries (some uid)) s
  let s := eventList.foldl commit s
  let s := unregisterList.foldl (removeObjectFromRegistry registries (some uid)) s
  unregisterList.foldl unregisterObject s

variable (eventsDesc : List ℕ) (order : ObjectOrder)

/-- A bus event that the client makes itself; it is not dispatched if its descriptor is missing. -/
def dispatchOwn (uid : ℕ) (registerList unregisterList : List ObusObject) (s : Client κ V) :
    Client κ V :=
  if uid ∈ eventsDesc then dispatchBusEvent registries uid registerList unregisterList [] s else s

/-- `recvConnectionResponse`. -/
def recvConnectionResponse (accepted : Bool) (objects : List ObusObject) (s : Client κ V) :
    Client κ V :=
  if s.state ≠ .connecting then s
  else if accepted then
    dispatchOwn registries eventsDesc busevtConnectedUid objects [] { s with state := .connected }
  else dispatchOwn registries eventsDesc busevtConnectionRefusedUid [] []
    { s with state := .refused }

/-- `recvAdd`. -/
def recvAdd (o : ObusObject) (s : Client κ V) : Client κ V :=
  addObjectToRegistry registries none (registerObject s o) o

/-- `recvRemove`. -/
def recvRemove (o : ObusObject) (s : Client κ V) : Client κ V :=
  removeObjectFromRegistry registries none (unregisterObject s o) o

/-- `disconnect`. -/
def disconnect (s : Client κ V) : Client κ V :=
  let t := { s with state := .disconnecting }
  let t :=
    if s.state = .connected then
      dispatchOwn registries eventsDesc busevtDisconnectedUid [] (order.objects t.bus) t
    else t
  { t with state := .connecting }

/-- What the client does with what arrives: a packet is decoded on the bus, and dropped if it has no
content left. -/
def recv (s : Client κ V) : Input V → Client κ V
  | .connResp accepted ds =>
    let (os, s) := decodeObjects ds s
    recvConnectionResponse registries eventsDesc accepted os s
  | .add d =>
    let (o, s) := decodeObject d s
    recvAdd registries o s
  | .remove uid handle =>
    match s.bus.findObject uid handle with
    | none => s
    | some o => recvRemove registries o s
  | .event e =>
    match decodeEvent s.bus e with
    | none => s
    | some evt => commit s evt
  | .busEvent uid registers unregisters events =>
    if uid ∈ eventsDesc then
      let (os, t) := decodeObjects registers s
      dispatchBusEvent registries uid os (unregisters.filterMap fun u => t.bus.findObject u.1 u.2)
        (events.filterMap (decodeEvent t.bus)) t
    else s
  | .disconnected => disconnect registries eventsDesc order s

end Packets

/-! ## The view -/

section View

variable {κ V : Type*}

/-- An object is registered in the bus under its handle. -/
def Client.OnBus (s : Client κ V) (o : ObusObject) : Prop := s.bus.lookup o.handle = some o

/-- An object is stored in the registry of its descriptor. -/
def Client.Stored (s : Client κ V) (o : ObusObject) : Prop := ∃ k, s.stores o.uid k = some o

/-- What the observers have been told of an object. -/
def Client.changes (s : Client κ V) (o : ObusObject) : List Change :=
  (s.notices.filter fun n => n.obj = o).map Notice.change

/-- The observers know of the object that it is stored, or that it was and has left the bus, or have
never heard of it and it is not stored. -/
inductive Told (s : Client κ V) (o : ObusObject) : Prop where
  | added (stored : s.Stored o) (told : s.changes o = [.added])
  | removed (left : ¬s.OnBus o) (told : s.changes o = [.added, .removed])
  | never (missing : ¬s.Stored o) (told : s.changes o = [])

/-- The registries are a view of the bus: an object that any of them stores is the one that the bus
has under its handle, and the observers have been told of its removal exactly if it has left the
bus. -/
structure Client.View (s : Client κ V) : Prop where
  onBus : ∀ uid k o, s.stores uid k = some o → s.OnBus o
  told : ∀ o, Told s o

/-! ## The condition -/

/-- An object gets its handle on the bus: no object has it, also none that is before it in the
packet. -/
def TakesHandle (s : Client κ V) (before : List (ObjectData V)) (d : ObjectData V) : Prop :=
  d.handle ≠ obusInvalidHandle ∧ d.handle ∉ s.bus ∧ ∀ e ∈ before, e.handle ≠ d.handle

variable (registries : ℕ → Option (Registry κ V))

/-- The registry leaves an object out: there is none for the descriptor, or another object has the
key, which may be one that is before it in the packet. -/
def LeavesOut (s : Client κ V) (before : List (ObjectData V)) (d : ObjectData V) : Prop :=
  ∀ r ∈ registries d.uid, (s.stores d.uid (r.key d.struct)).isSome ∨
    ∃ e ∈ before, e.uid = d.uid ∧ r.key e.struct = r.key d.struct

/-- Each object of a packet gets its handle, or the registry leaves it out. -/
def Fits (s : Client κ V) (ds : List (ObjectData V)) : Prop :=
  ∀ i (hi : i < ds.length), TakesHandle s (ds.take i) ds[i] ∨
  LeavesOut registries s (ds.take i) ds[i]

/-- If an object is stored, it is under the key of its field values in the heap `struct`. -/
def KeyKept (s : Client κ V) (struct : ℕ → Fields V) (o : ObusObject) : Prop :=
  ∀ r ∈ registries o.uid, ∀ k, s.stores o.uid k = some o → r.key (struct o.id) = k

variable (eventsDesc : List ℕ)

/-- Each object that arrives gets its handle or is left out by the registry, and each that is
removed has its key still, if it is stored. -/
def InStep (s : Client κ V) : Input V → Prop
  | .connResp accepted ds =>
    s.state = .connecting ∧ accepted ∧ busevtConnectedUid ∈ eventsDesc → Fits registries s ds
  | .add d => Fits registries s [d]
  | .remove uid handle => ∀ o ∈ s.bus.findObject uid handle, KeyKept registries s s.struct o
  | .event _ => True
  | .busEvent uid registers unregisters events =>
    uid ∈ eventsDesc → Fits registries s registers ∧
      ∀ u ∈ unregisters, ∀ o ∈ s.bus.findObject u.1 u.2,
        KeyKept registries s ((events.filterMap (decodeEvent s.bus)).foldl commit s).struct o
  | .disconnected =>
    s.state = .connected ∧ busevtDisconnectedUid ∈ eventsDesc →
    ∀ e ∈ s.bus.entries, KeyKept registries s s.struct e.2

end View

end Obus.JavaClient
