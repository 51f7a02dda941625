import Obus.Packet
import Obus.StructCodec

/-!
# The wire format of packets

The bytes of each kind of packet, that the packet encoders produce exactly them behind a header that
announces their number (`packetEncode_cases`), and what the packet decoders make of them on any bus
(`decodes_packet`): an object, event or call that the bus does not know is skipped with exactly its
bytes, and no byte behind the packet is asked for.
-/

namespace Obus

open Prog

/-! ## The bytes -/

/-- Bytes behind their number. -/
def sizedBytes (bs : List UInt8) : List UInt8 := bigEndian 4 bs.length ++ bs

/-- The bytes of a string with all its characters. -/
def wholeStringBytes (str : Option CString) : List UInt8 := sizedBytes (CString.memory str)

/-- The bytes of an added object. -/
def objectAddBytes (o : Object) : List UInt8 :=
  bigEndian 2 o.desc.uid.toNat ++ (bigEndian 2 o.handle.toNat ++ sizedBytes (structBytes o.info))

/-- The bytes of a removed object. -/
def objectRemoveBytes (o : ObjectRef) : List UInt8 :=
  bigEndian 2 o.desc.uid.toNat ++ bigEndian 2 o.handle.toNat

/-- The bytes of an event. -/
def eventBytes (e : Event) : List UInt8 :=
  bigEndian 2 e.obj.desc.uid.toNat ++ (bigEndian 2 e.obj.handle.toNat ++
    (bigEndian 2 e.desc.uid.toNat ++ sizedBytes (structBytes e.info)))

/-- The bytes of the arguments of a call. -/
def argsBytes : Option Struct → List UInt8
  | some args => structBytes args
  | none => []

/-- The bytes of a call. -/
def callBytes (c : Call) : List UInt8 :=
  bigEndian 2 c.obj.desc.uid.toNat ++ (bigEndian 2 c.obj.handle.toNat ++
    (bigEndian 2 c.desc.uid.toNat ++ (bigEndian 2 c.handle.toNat ++ sizedBytes (argsBytes c.args))))

/-- The bytes of a bus event. -/
def busEventBytes (e : BusEvent) : List UInt8 :=
  bigEndian 2 e.desc.uid.toNat ++
    (bigEndian 4 e.addObjs.length ++ (bigEndian 4 e.removeObjs.length ++
    (bigEndian 4 e.objEvents.length ++ (e.addObjs.flatMap objectAddBytes ++
      (e.removeObjs.flatMap objectRemoveBytes ++ e.objEvents.flatMap eventBytes)))))

/-- The bytes of the body of a packet. -/
def PacketInfo.bodyBytes : PacketInfo → List UInt8
  | .conreq req => bigEndian 1 req.version.toNat ++ (wholeStringBytes req.bus ++
      (bigEndian 4 req.crc.toNat ++ wholeStringBytes req.client))
  | .conresp status objects => bigEndian 1 status.code.toNat ++ (bigEndian 4 objects.length ++
      objects.flatMap objectAddBytes)
  | .add obj => objectAddBytes obj
  | .remove obj => obj.elim [] objectRemoveBytes
  | .busEvent e => busEventBytes e
  | .event e => eventBytes e
  | .call c => callBytes c
  | .ack a => bigEndian 2 a.handle.toNat ++ bigEndian 1 a.status.toNat

/-- The bytes of a packet header with a given total size. -/
def headerBytes (size : ℕ) (type : PacketType) : List UInt8 :=
  bigEndian 4 obusMagic.toNat ++ (bigEndian 4 size ++ bigEndian 1 type.code.toNat)

/-- The bytes of a packet. -/
def PacketInfo.bytes (info : PacketInfo) : List UInt8 :=
  headerBytes (pktHdrSize + info.bodyBytes.length) info.type ++ info.bodyBytes

/-- A packet that the wire format can carry: its structs and strings can be carried, its counts and
its size fit, a connection request has the own version, and a removal names an object. -/
def PacketInfo.Ok : PacketInfo → Prop
  | .conreq req => req.version = protocolVersion ∧ (CString.memory req.bus).length < 2 ^ 32 ∧
      (CString.memory req.client).length < 2 ^ 32
  | .conresp _ objects => objects.length < 2 ^ 32 ∧ ∀ o ∈ objects, o.info.Ok
  | .add obj => obj.info.Ok
  | .remove obj => obj.isSome = true
  | .busEvent e => (e.addObjs.length < 2 ^ 32 ∧ e.removeObjs.length < 2 ^ 32 ∧
      e.objEvents.length < 2 ^ 32) ∧ (∀ o ∈ e.addObjs, o.info.Ok) ∧ ∀ v ∈ e.objEvents, v.info.Ok
  | .event e => e.info.Ok
  | .call c => ∀ args ∈ c.args, Struct.Ok args
  | .ack _ => True

@[simp] lemma headerBytes_length (size : ℕ) (type : PacketType) :
    (headerBytes size type).length = pktHdrSize := by
  simp [headerBytes]

/-! ## The encoders write the bytes -/

lemma writes_sized {p : Enc Unit} {bs : List UInt8} (hp : Writes p bs) :
    Writes (encodeSized p) (sizedBytes bs) := by
  intro mem b hb
  unfold encodeSized bufferLength reserve writeU32
  simp only [Enc.on, run_bind, run_perform, writeHandler]
  rcases bufferReserve_cases mem 4 hb with ⟨b₁, room, h₁, hok₁, hcont₁, hroom⟩ | ⟨h₁, hmem⟩
  · rw [h₁]
    rcases hp mem b₁ hok₁ with ⟨b₂, h₂, hok₂, hcont₂⟩ | ⟨e, b₂, h₂, hmem⟩
    · simp only [h₂]
      have hlen₂ : b₂.length = b.length + 4 + bs.length := by
        rw [← Buffer.content_length hok₂, hcont₂, hcont₁, List.length_append, List.length_append,
          Buffer.content_length hb, hroom]
      have hsize : b₂.length - (b.length + 4) = bs.length := by omega
      have hsplit : b₂.content = b.content ++ (room ++ bs) := by
        rw [hcont₂, hcont₁, List.append_assoc]
      obtain ⟨b₃, h₃, hok₃, hcont₃, -⟩ := bufferWriteAt_inside mem hok₂ b.content
        (bigEndian 4 (UInt32.ofNat bs.length).toNat) hsplit (by rw [hroom, bigEndian_length])
      rw [Buffer.content_length hb] at h₃
      rw [bigEndian_ofNat32] at hcont₃
      rw [hsize, run_attempt, run_perform]
      simp only [writeHandler, h₃]
      exact Or.inl ⟨b₃, rfl, hok₃, hcont₃⟩
    · simp only [h₂]
      exact Or.inr ⟨e, b₂, rfl, hmem⟩
  · rw [h₁]
    exact Or.inr ⟨_, b, rfl, hmem⟩

lemma writes_objectAdd {o : Object} (h : o.info.Ok) :
    Writes (objectAddEncode o) (objectAddBytes o) :=
  (writes_u16 _).bind ((writes_u16 _).bind (writes_sized (writes_struct h.carried)))

lemma writes_objectRemove (o : ObjectRef) : Writes (objectRemoveEncode o) (objectRemoveBytes o) :=
  (writes_u16 _).bind (writes_u16 _)

lemma writes_event {e : Event} (h : e.info.Ok) : Writes (eventEncode e) (eventBytes e) :=
  (writes_u16 _).bind ((writes_u16 _).bind
    ((writes_u16 _).bind (writes_sized (writes_struct h.carried))))

lemma writes_call {c : Call} (h : ∀ args ∈ c.args, Struct.Ok args) :
    Writes (callEncode c) (callBytes c) := by
  refine (writes_u16 _).bind ((writes_u16 _).bind ((writes_u16 _).bind ((writes_u16 _).bind ?_)))
  cases hargs : c.args with
  | none => exact writes_sized .pure
  | some args => exact writes_sized (writes_struct (h args hargs).carried)

/-- A 32-bit count of a list that is not longer than that. -/
lemma writes_count {α : Type} (l : List α) :
    Writes (appendU32 (UInt32.ofNat l.length)) (bigEndian 4 l.length) := by
  have h := writes_u32 (UInt32.ofNat l.length)
  rwa [bigEndian_ofNat32] at h

lemma writes_busEvent {e : BusEvent} (hadd : ∀ o ∈ e.addObjs, o.info.Ok)
    (hevents : ∀ v ∈ e.objEvents, v.info.Ok) : Writes (busEventEncode e) (busEventBytes e) := by
  refine (writes_u16 _).bind
    ((writes_count _).bind ((writes_count _).bind ((writes_count _).bind ?_)))
  refine (writes_each fun o ho => writes_objectAdd (hadd o ho)).bind ?_
  exact (writes_each fun o _ => writes_objectRemove o).bind (writes_each fun v hv =>
    writes_event (hevents v hv))

/-- Every packet encoder is the common shape around a program that writes the body. -/
lemma PacketInfo.encode_eq {info : PacketInfo} (h : info.Ok) :
    ∃ body, info.encode = packetEncode info.type body ∧ Writes body info.bodyBytes := by
  cases info with
  | conreq req =>
    obtain ⟨hversion, hbus, hclient⟩ := h
    refine ⟨_, rfl, ?_⟩
    simp only [PacketInfo.bodyBytes, hversion]
    exact (writes_u8 _).bind ((writes_wholeString hbus).bind ((writes_u32 _).bind
      (writes_wholeString hclient)))
  | conresp status objects =>
    obtain ⟨hlen, hobjects⟩ := h
    refine ⟨_, rfl, (writes_u8 _).bind ((writes_count _).bind ?_)⟩
    have hcount : (UInt32.ofNat objects.length).toNat = objects.length := by
      rw [UInt32.toNat_ofNat', Nat.mod_eq_of_lt hlen]
    by_cases hpos : 0 < UInt32.ofNat objects.length
    · rw [if_pos hpos]
      exact writes_each fun o ho => writes_objectAdd (hobjects o ho)
    · have hnil : objects = [] := by
        rw [UInt32.lt_iff_toNat_lt, hcount] at hpos
        exact List.length_eq_zero_iff.mp (by simpa using hpos)
      rw [if_neg hpos, hnil]
      exact .pure
  | add obj => exact ⟨_, rfl, writes_objectAdd h⟩
  | remove obj =>
    obtain ⟨o, rfl⟩ := Option.isSome_iff_exists.mp h
    exact ⟨_, rfl, writes_objectRemove o⟩
  | busEvent e => exact ⟨_, rfl, writes_busEvent h.2.1 h.2.2⟩
  | event e => exact ⟨_, rfl, writes_event h⟩
  | call c => exact ⟨_, rfl, writes_call h⟩
  | ack a => exact ⟨_, rfl, (writes_u16 _).bind (writes_u8 _)⟩

/-- The header is written over the room in front of the body. -/
lemma packetEncodeHeader_on (mem : Realloc) {b : Buffer} (hb : b.Ok) {room bs : List UInt8}
    (hroom : room.length = pktHdrSize) (hcont : b.content = room ++ bs) (type : PacketType) :
    ∃ b', (packetEncodeHeader type.code).on mem b = (.ok (), b') ∧ b'.Ok ∧
      b'.content = headerBytes (pktHdrSize + bs.length) type ++ bs := by
  -- the room of the header splits into the rooms of its three fields
  obtain ⟨r₁, r₂, r₃, rfl, h₁, h₂, h₃⟩ : ∃ r₁ r₂ r₃ : List UInt8, room = r₁ ++ (r₂ ++ r₃) ∧
      r₁.length = 4 ∧ r₂.length = 4 ∧ r₃.length = 1 := by
    refine ⟨room.take 4, (room.drop 4).take 4, (room.drop 4).drop 4, ?_, ?_, ?_, ?_⟩
    · rw [List.take_append_drop, List.take_append_drop]
    all_goals simp [hroom, pktHdrSize]
  have hlen : b.length = pktHdrSize + bs.length := by
    rw [← Buffer.content_length hb, hcont, List.length_append, hroom]
  have hcont₀ : b.content = [] ++ (r₁ ++ (r₂ ++ (r₃ ++ bs))) := by simp [hcont]
  obtain ⟨c₁, hw₁, hok₁, hc₁, hl₁⟩ :=
    bufferWriteAt_inside mem hb [] (bigEndian 4 obusMagic.toNat) hcont₀
    (by rw [h₁, bigEndian_length])
  obtain ⟨c₂, hw₂, hok₂, hc₂, -⟩ := bufferWriteAt_inside mem hok₁ (bigEndian 4 obusMagic.toNat)
    (bigEndian 4 (UInt32.ofNat c₁.length).toNat) (by simpa using hc₁) (by rw [h₂, bigEndian_length])
  rw [← List.append_assoc] at hc₂
  obtain ⟨c₃, hw₃, hok₃, hc₃, -⟩ := bufferWriteAt_inside mem hok₂
    (bigEndian 4 obusMagic.toNat ++ bigEndian 4 (UInt32.ofNat c₁.length).toNat)
    (bigEndian 1 type.code.toNat) hc₂ (by rw [h₃, bigEndian_length])
  rw [List.length_nil] at hw₁
  rw [bigEndian_length] at hw₂
  rw [List.length_append, bigEndian_length, bigEndian_length] at hw₃
  refine ⟨c₃, ?_, hok₃, ?_⟩
  · unfold packetEncodeHeader writeU32 writeU8 bufferLength
    simp only [Enc.on, run_bind, run_perform, writeHandler, hw₁, hw₂]
    exact hw₃
  · rw [hc₃, bigEndian_ofNat32, hl₁, hlen, headerBytes]
    simp only [List.append_assoc]

/-- A packet encoder leaves exactly the packet in the buffer, unless an allocation fails. -/
lemma packetEncode_cases (mem : Realloc) (type : PacketType) {body : Enc Unit} {bs : List UInt8}
    (hbody : Writes body bs) (b : Buffer) :
    (∃ b', (packetEncode type body).on mem b = (.ok (), b') ∧ b'.Ok ∧
        b'.content = headerBytes (pktHdrSize + bs.length) type ++ bs) ∨
      (∃ e b', (packetEncode type body).on mem b = (.error e, b') ∧ ∃ n, mem n = none) := by
  unfold packetEncode clear reserve
  simp only [Enc.on, run_bind, run_perform, writeHandler]
  have hclear : (bufferClear b).Ok := Nat.zero_le _
  rcases bufferReserve_cases mem pktHdrSize hclear with
    ⟨b₁, room, h₁, hok₁, hcont₁, hroom⟩ | ⟨h₁, hmem⟩
  · rw [h₁]
    have hnil : (bufferClear b).content = [] := List.take_zero
    rw [hnil, List.nil_append] at hcont₁
    rcases hbody mem b₁ hok₁ with ⟨b₂, h₂, hok₂, hcont₂⟩ | ⟨e, b₂, h₂, hmem⟩
    · obtain ⟨b₃, h₃, hok₃, hcont₃⟩ := packetEncodeHeader_on mem hok₂ hroom
        (by rw [hcont₂, hcont₁]) type
      simp only [h₂]
      exact Or.inl ⟨b₃, h₃, hok₃, hcont₃⟩
    · simp only [h₂]
      exact Or.inr ⟨e, b₂, rfl, hmem⟩
  · rw [h₁]
    exact Or.inr ⟨_, _, rfl, hmem⟩

/-- The encoder of a packet that can be carried leaves its bytes in the buffer, unless an allocation
fails. -/
lemma PacketInfo.encode_cases (mem : Realloc) {info : PacketInfo} (h : info.Ok) (b : Buffer) :
    (∃ b', info.encode.on mem b = (.ok (), b') ∧ b'.Ok ∧ b'.content = info.bytes) ∨
      (∃ e b', info.encode.on mem b = (.error e, b') ∧ ∃ n, mem n = none) := by
  obtain ⟨body, hencode, hbody⟩ := PacketInfo.encode_eq h
  rw [hencode]
  exact packetEncode_cases mem info.type hbody b

/-! ## The decoders read the bytes -/

/-- On every buffer that continues with `bs` the program has the outcome `r` and stays inside `bs`.
-/
def Decodes {α : Type} (p : Dec α) (bs : List UInt8) (r : Except Errno α) : Prop :=
  ∀ b : Buffer, b.HasNext bs → (p.on b).1 = r ∧ p.InFrame (b.pos + bs.length) b

lemma Parses.decodes {α : Type} {p : Dec α} {bs : List UInt8} {a : α} (h : Parses p bs a) :
    Decodes p bs (.ok a) := by
  intro b hb
  obtain ⟨hrun, hframe⟩ := h b hb
  exact ⟨by rw [hrun], hframe⟩

protected lemma Decodes.pure {α : Type} (a : α) (bs : List UInt8) :
    Decodes (Pure.pure a) bs (.ok a) :=
  fun _ _ => ⟨rfl, trivial⟩

protected lemma Decodes.fail {α : Type} (e : Errno) (bs : List UInt8) :
    Decodes (.fail e : Dec α) bs (.error e) :=
  fun _ _ => ⟨rfl, trivial⟩

lemma Parses.bind_decodes {α β : Type} {p : Dec α} {f : α → Dec β} {xs ys : List UInt8} {a : α}
    {r : Except Errno β} (hp : Parses p xs a) (hf : Decodes (f a) ys r) :
    Decodes (p >>= f) (xs ++ ys) r := by
  intro b hb
  obtain ⟨hrun, hframe⟩ := hp b hb.left
  obtain ⟨hrun', hframe'⟩ := hf _ hb.right
  have hlen : b.pos + xs.length ≤ b.pos + (xs ++ ys).length := by
    rw [List.length_append]
    omega
  constructor
  · rw [Dec.on, run_bind_ok _ hrun, ← Dec.on, hrun']
  · refine (hframe.mono hlen).bind fun a' b' h => ?_
    rw [hrun] at h
    obtain ⟨rfl, rfl⟩ : a = a' ∧ b.advance xs.length = b' := by simpa using h
    refine hframe'.mono (le_of_eq ?_)
    rw [Buffer.advance_pos, List.length_append, Nat.add_assoc]

/-- An element that may be unknown, as the outcome of a decoder. -/
def orNoent {α : Type} : Option α → Except Errno α
  | some a => .ok a
  | none => .error .enoent

/-- A decoder of an element that may be unknown. -/
lemma Decodes.orFail {α : Type} {p : Dec (Option α)} {bs : List UInt8} {r : Option α}
    (h : Decodes p bs (.ok r)) : Decodes (decodeOrFail p) bs (orNoent r) := by
  intro b hb
  obtain ⟨hrun, hframe⟩ := h b hb
  unfold decodeOrFail
  constructor
  · rw [Dec.on, run_bind]
    rw [Dec.on] at hrun
    rcases hp : p.run readHandler b with ⟨e | a, b'⟩
    · rw [hp] at hrun
      cases hrun
    · rw [hp] at hrun
      obtain rfl : a = r := by simpa using hrun
      cases a <;> rfl
  · refine hframe.bind fun a _ _ => ?_
    cases a <;> trivial

lemma Decodes.map {α β : Type} {p : Dec α} {bs : List UInt8} {r : Except Errno α}
    (h : Decodes p bs r) (f : α → β) : Decodes (f <$> p) bs (f <$> r) := by
  intro b hb
  obtain ⟨hrun, hframe⟩ := h b hb
  constructor
  · change ((p >>= fun a => pure (f a)).on b).1 = _
    rw [← hrun, Dec.on, run_bind, Dec.on]
    rcases p.run readHandler b with ⟨e | a, b'⟩ <;> rfl
  · exact Dec.InFrame.bind hframe fun _ _ _ => trivial

/-- Parsing the data behind a size: the head is refused, or a first part of the data parses.  In
both cases all of the data is consumed. -/
lemma parses_sized {α γ : Type} {size : UInt32} {bs : List UInt8} (hsize : size.toNat = bs.length)
    {check : Option γ} {body : γ → Dec α} {result : γ → α}
    (h : ∀ c, check = some c → ∃ xs ys, bs = xs ++ ys ∧ Parses (body c) xs (result c)) :
    Parses (decodeSized size check body) bs (check.map result) := by
  intro b hb
  unfold decodeSized
  refine (ParsesAt.getReadPosition b).bind ?_
  simp only [List.length_nil, Buffer.advance_zero, hsize]
  cases check with
  | none => exact (ParsesAt.setReadPosition hb).attempt.bind_nil (.pure none _)
  | some c =>
    obtain ⟨xs, ys, rfl, hparse⟩ := h c rfl
    refine (hparse b hb.left).attempt.bind ?_
    refine (ParsesAt.getReadPosition _).bind ?_
    have hend : b.pos + (xs ++ ys).length = (b.advance xs.length).pos + ys.length := by
      rw [List.length_append, Buffer.advance_pos, Nat.add_assoc]
    simp only [List.length_nil, Buffer.advance_zero, hend]
    by_cases hys : (b.advance xs.length).pos = (b.advance xs.length).pos + ys.length
    · have hnil : ys = [] := List.length_eq_zero_iff.mp (by omega)
      rw [if_neg (not_not_intro hys), hnil]
      exact .pure _ _
    · rw [if_pos hys]
      exact (ParsesAt.setReadPosition hb.right).attempt.bind_nil (.pure _ _)

/-! ### What arrives on a bus -/

/-- A struct as it arrives in a given struct of the reader. -/
def structArrive (st₀ st : Struct) : Struct :=
  (st.filter Slot.has).foldl structReceive (structClearHasFields st₀)

/-- An added object as it arrives, unless it has no descriptor on the bus. -/
def Object.arrive (api : BusDesc) (o : Object) : Option Object :=
  (objectAddCheck api o.desc.uid o.handle).map fun desc =>
    ⟨desc, o.handle, false, structArrive (structSetHasFields (structInit desc.infoDesc)) o.info⟩

/-- A removed object as it arrives: the object of the bus with its handle. -/
def ObjectRef.arrive (bus : Bus) (o : ObjectRef) : Option ObjectRef :=
  (bus.object? o.handle).map Object.ref

/-- An event as it arrives, unless its object or its descriptor is unknown on the bus. -/
def Event.arrive (bus : Bus) (e : Event) : Option Event :=
  (eventCheck bus e.obj.desc.uid e.obj.handle e.desc.uid).map fun (obj, desc) =>
    ⟨obj, desc, structArrive (structInit obj.desc.infoDesc) e.info⟩

/-- A call as it arrives, unless its object or its method is unknown on the bus. -/
def Call.arrive (bus : Bus) (c : Call) : Option Call :=
  (callCheck bus c.obj.desc.uid c.obj.handle c.desc.uid).map fun (obj, desc) =>
    ⟨obj, desc, c.handle, desc.argsDesc.map fun d => structArrive (structZero d) (c.args.getD [])⟩

/-- A bus event as it arrives, without the parts that are unknown on the bus. -/
def BusEvent.arrive (bus : Bus) (e : BusEvent) : Option BusEvent :=
  (bus.api.busEvent? e.desc.uid).map fun desc =>
    ⟨desc, e.addObjs.filterMap (Object.arrive bus.api), e.removeObjs.filterMap
      (ObjectRef.arrive bus),
      e.objEvents.filterMap (Event.arrive bus)⟩

/-- A packet as it arrives on a bus. -/
def PacketInfo.arrive (bus : Bus) : PacketInfo → Except Errno PacketInfo
  | .conreq req => .ok (.conreq req)
  | .conresp status objects => .ok (.conresp status (objects.filterMap (Object.arrive bus.api)))
  | .add obj => .add <$> orNoent (obj.arrive bus.api)
  | .remove obj => .ok (.remove (obj.bind (ObjectRef.arrive bus)))
  | .busEvent e => .busEvent <$> orNoent (e.arrive bus)
  | .event e => .event <$> orNoent (e.arrive bus)
  | .call c => .call <$> orNoent (c.arrive bus)
  | .ack a => .ok (.ack a)

/-- The bus expects arguments of a call only where the caller sends some.  It does when both sides
have the same descriptor. -/
def PacketInfo.Compatible (bus : Bus) : PacketInfo → Prop
  | .call c => ∀ obj desc, callCheck bus c.obj.desc.uid c.obj.handle c.desc.uid = some (obj, desc) →
      desc.argsDesc.isSome → c.args.isSome
  | _ => True

/-! ### Parsing the parts -/

/-- A size field that counts bytes which fit. -/
lemma parses_size {n : ℕ} (h : n < 2 ^ 32) :
    ∃ size : UInt32, size.toNat = n ∧ Parses readU32 (bigEndian 4 n) size := by
  have hsize : (UInt32.ofNat n).toNat = n := by
    rw [UInt32.toNat_ofNat', Nat.mod_eq_of_lt h]
  have hread := parses_u32 (UInt32.ofNat n)
  rw [hsize] at hread
  exact ⟨_, hsize, hread⟩

/-- An added object arrives with what is read from the bytes of its struct. -/
lemma parses_objectAdd_of (api : BusDesc) {o : Object} {bs : List UInt8} (hlt : bs.length < 2 ^ 32)
    (hinfo : ∀ st₀, Parses (structDecode st₀) bs (structArrive st₀ o.info)) :
    Parses (objectAddDecode api)
      (bigEndian 2 o.desc.uid.toNat ++ (bigEndian 2 o.handle.toNat ++ sizedBytes bs))
      (o.arrive api) := by
  obtain ⟨size, hsize, hread⟩ := parses_size hlt
  have hhead : Parses (do let uid ← readU16; let handle ← readU16; let size ← readU32
                          pure (uid, handle, size) : Dec _)
      (bigEndian 2 o.desc.uid.toNat ++ (bigEndian 2 o.handle.toNat ++ bigEndian 4 bs.length))
      (o.desc.uid, o.handle, size) :=
    (parses_u16 _).bind ((parses_u16 _).bind (hread.bind_nil (.pure _)))
  have hassoc : bigEndian 2 o.desc.uid.toNat ++ (bigEndian 2 o.handle.toNat ++ sizedBytes bs) =
      (bigEndian 2 o.desc.uid.toNat ++ (bigEndian 2 o.handle.toNat ++ bigEndian 4 bs.length)) ++
        bs := by
    simp only [sizedBytes, List.append_assoc]
  rw [hassoc]
  refine hhead.attempt.bind (parses_sized hsize fun desc _ => ⟨_, [], (List.append_nil _).symm, ?_⟩)
  exact (hinfo _).bind_nil (.pure _)

lemma parses_objectAdd (api : BusDesc) {o : Object} (h : o.info.Ok) :
    Parses (objectAddDecode api) (objectAddBytes o) (o.arrive api) :=
  parses_objectAdd_of api h.length fun st₀ => parses_structDecode st₀ h.carried

lemma parses_objectRemove (bus : Bus) (o : ObjectRef) :
    Parses (objectRemoveDecode bus) (objectRemoveBytes o) (o.arrive bus) := by
  have hhead : Parses (do let uid ← readU16; let handle ← readU16; pure (uid, handle) : Dec _)
      (objectRemoveBytes o) (o.desc.uid, o.handle) :=
    (parses_u16 _).bind ((parses_u16 _).bind_nil (.pure _))
  exact hhead.attempt.bind_nil (.pure _)

/-- An event arrives with what is read from the bytes of its struct. -/
lemma parses_event_of (bus : Bus) {e : Event} {bs : List UInt8} (hlt : bs.length < 2 ^ 32)
    (hinfo : ∀ st₀, Parses (structDecode st₀) bs (structArrive st₀ e.info)) :
    Parses (eventDecode bus) (bigEndian 2 e.obj.desc.uid.toNat ++ (bigEndian 2 e.obj.handle.toNat ++
      (bigEndian 2 e.desc.uid.toNat ++ sizedBytes bs))) (e.arrive bus) := by
  obtain ⟨size, hsize, hread⟩ := parses_size hlt
  have hhead : Parses (do let uid ← readU16; let handle ← readU16; let eventUid ← readU16
                          let size ← readU32; pure (uid, handle, eventUid, size) : Dec _)
      (bigEndian 2 e.obj.desc.uid.toNat ++ (bigEndian 2 e.obj.handle.toNat ++
        (bigEndian 2 e.desc.uid.toNat ++ bigEndian 4 bs.length)))
      (e.obj.desc.uid, e.obj.handle, e.desc.uid, size) :=
    (parses_u16 _).bind ((parses_u16 _).bind ((parses_u16 _).bind (hread.bind_nil (.pure _))))
  have hassoc : bigEndian 2 e.obj.desc.uid.toNat ++ (bigEndian 2 e.obj.handle.toNat ++
      (bigEndian 2 e.desc.uid.toNat ++ sizedBytes bs)) = (bigEndian 2 e.obj.desc.uid.toNat ++
        (bigEndian 2 e.obj.handle.toNat ++
          (bigEndian 2 e.desc.uid.toNat ++ bigEndian 4 bs.length))) ++ bs := by
    simp only [sizedBytes, List.append_assoc]
  rw [hassoc]
  refine hhead.attempt.bind (parses_sized hsize fun c _ => ⟨_, [], (List.append_nil _).symm, ?_⟩)
  exact (hinfo _).bind_nil (.pure _)

lemma parses_event (bus : Bus) {e : Event} (h : e.info.Ok) :
    Parses (eventDecode bus) (eventBytes e) (e.arrive bus) :=
  parses_event_of bus h.length fun st₀ => parses_structDecode st₀ h.carried

/-- The arguments of a call, when the callee expects some only where the caller sends some. -/
lemma parses_args {desc : Option StructDesc} {args : Option Struct} (h : ∀ st ∈ args, Struct.Ok st)
    (hsome : desc.isSome → args.isSome) :
    ∃ xs ys, argsBytes args = xs ++ ys ∧ Parses (argsDecode desc) xs
      (desc.map fun d => structArrive (structZero d) (args.getD [])) := by
  cases desc with
  | none => exact ⟨[], _, rfl, .pure none⟩
  | some d =>
    obtain ⟨st, rfl⟩ := Option.isSome_iff_exists.mp (hsome rfl)
    exact ⟨_, [], (List.append_nil _).symm, (parses_structDecode _ (h st rfl).carried).bind_nil
      (.pure _)⟩

/-- A call arrives with what is read from a first part of the bytes of its arguments. -/
lemma parses_call_of (bus : Bus) (uid handle mtdUid callHandle : UInt16) {bs : List UInt8}
    (hlt : bs.length < 2 ^ 32) {args : MethodDesc → Option Struct}
    (hargs : ∀ obj desc, callCheck bus uid handle mtdUid = some (obj, desc) →
      ∃ xs ys, bs = xs ++ ys ∧ Parses (argsDecode desc.argsDesc) xs (args desc)) :
    Parses (callDecode bus) (bigEndian 2 uid.toNat ++
      (bigEndian 2 handle.toNat ++ (bigEndian 2 mtdUid.toNat ++
      (bigEndian 2 callHandle.toNat ++ sizedBytes bs))))
      ((callCheck bus uid handle mtdUid).map fun p => ⟨p.1, p.2, callHandle, args p.2⟩) := by
  obtain ⟨size, hsize, hread⟩ := parses_size hlt
  have hhead : Parses (do let uid ← readU16; let handle ← readU16; let mtdUid ← readU16
                          let callHandle ← readU16; let size ← readU32
                          pure (uid, handle, mtdUid, callHandle, size) : Dec _)
      (bigEndian 2 uid.toNat ++ (bigEndian 2 handle.toNat ++
        (bigEndian 2 mtdUid.toNat ++ (bigEndian 2 callHandle.toNat ++ bigEndian 4 bs.length))))
      (uid, handle, mtdUid, callHandle, size) :=
    (parses_u16 _).bind ((parses_u16 _).bind ((parses_u16 _).bind ((parses_u16 _).bind
      (hread.bind_nil (.pure _)))))
  have hassoc : bigEndian 2 uid.toNat ++ (bigEndian 2 handle.toNat ++ (bigEndian 2 mtdUid.toNat ++
      (bigEndian 2 callHandle.toNat ++ sizedBytes bs))) =
        (bigEndian 2 uid.toNat ++ (bigEndian 2 handle.toNat ++
        (bigEndian 2 mtdUid.toNat ++ (bigEndian 2 callHandle.toNat ++ bigEndian 4 bs.length)))) ++
          bs := by
    simp only [sizedBytes, List.append_assoc]
  rw [hassoc]
  refine hhead.attempt.bind (parses_sized hsize fun p hp => ?_)
  obtain ⟨xs, ys, hsplit, hparse⟩ := hargs p.1 p.2 hp
  exact ⟨xs, ys, hsplit, hparse.bind_nil (.pure _)⟩

lemma parses_call (bus : Bus) {c : Call} (h : ∀ st ∈ c.args, Struct.Ok st)
    (hcompat : (PacketInfo.call c).Compatible bus) :
    Parses (callDecode bus) (callBytes c) (c.arrive bus) := by
  have hlen : (argsBytes c.args).length < 2 ^ 32 := by
    cases hargs : c.args with
    | none => exact Nat.two_pow_pos 32
    | some st => exact (h st hargs).length
  exact parses_call_of bus _ _ _ _ hlen fun obj desc hcheck =>
    parses_args h (hcompat obj desc hcheck)

/-- A loop over elements that are kept when they are known. -/
lemma parses_decodeMany {α β : Type} {p : Dec (Option α)} {bytes : β → List UInt8}
    {g : β → Option α} {l : List β} (h : ∀ b ∈ l, Parses p (bytes b) (g b)) :
    Parses (decodeMany p l.length) (l.flatMap bytes) (l.filterMap g) := by
  have hfold : ∀ (l : List β) (acc : List α),
      l.foldl (fun acc b => acc ++ (g b).toList) acc = acc ++ l.filterMap g := by
    intro l
    induction l with
    | nil => simp
    | cons b l ih =>
      intro acc
      rw [List.foldl_cons, ih, List.filterMap_cons]
      cases g b <;> simp
  have hloop := parses_iter bytes (f := fun acc => do pure (acc ++ (← p).toList))
    (g := fun acc b => acc ++ (g b).toList) (l := l)
    (fun acc b hb => (h b hb).bind_nil (.pure _)) []
  rwa [hfold, List.nil_append] at hloop

/-- A count of elements that fits, and the loop over these elements. -/
lemma parses_countedMany {α β : Type} {p : Dec (Option α)} {bytes : β → List UInt8}
    {g : β → Option α}
    {l : List β} {n : UInt32} (hn : n.toNat = l.length) (h : ∀ b ∈ l, Parses p (bytes b) (g b)) :
    Parses (decodeMany p n.toNat) (l.flatMap bytes) (l.filterMap g) := by
  rw [hn]
  exact parses_decodeMany h

lemma decodes_busEvent (bus : Bus) {e : BusEvent} (h : (PacketInfo.busEvent e).Ok) :
    Decodes (busEventDecode bus) (busEventBytes e) (.ok (e.arrive bus)) := by
  obtain ⟨⟨hadd, hremove, hevents⟩, haddOk, heventsOk⟩ := h
  obtain ⟨nAdd, hnAdd, hreadAdd⟩ := parses_size hadd
  obtain ⟨nRemove, hnRemove, hreadRemove⟩ := parses_size hremove
  obtain ⟨nEvents, hnEvents, hreadEvents⟩ := parses_size hevents
  have hhead : Parses (do let uid ← readU16; let nAdd ← readU32; let nRemove ← readU32
                          let nEvents ← readU32; pure (uid, nAdd, nRemove, nEvents) : Dec _)
      (bigEndian 2 e.desc.uid.toNat ++ (bigEndian 4 e.addObjs.length ++
        (bigEndian 4 e.removeObjs.length ++ bigEndian 4 e.objEvents.length)))
      (e.desc.uid, nAdd, nRemove, nEvents) :=
    (parses_u16 _).bind (hreadAdd.bind (hreadRemove.bind (hreadEvents.bind_nil (.pure _))))
  have hassoc : busEventBytes e = (bigEndian 2 e.desc.uid.toNat ++ (bigEndian 4 e.addObjs.length ++
      (bigEndian 4 e.removeObjs.length ++ bigEndian 4 e.objEvents.length))) ++
        (e.addObjs.flatMap objectAddBytes ++ (e.removeObjs.flatMap objectRemoveBytes ++
          e.objEvents.flatMap eventBytes)) := by
    simp only [busEventBytes, List.append_assoc]
  rw [hassoc]
  refine hhead.attempt.bind_decodes ?_
  unfold BusEvent.arrive
  cases hdesc : bus.api.busEvent? e.desc.uid with
  | none =>
    simp only [hdesc]
    exact .pure none _
  | some desc =>
    simp only [hdesc]
    refine Parses.decodes ?_
    refine (parses_countedMany hnAdd fun o ho => parses_objectAdd bus.api (haddOk o ho)).bind ?_
    refine (parses_countedMany hnRemove fun o _ => parses_objectRemove bus o).bind ?_
    exact (parses_countedMany hnEvents fun v hv => parses_event bus (heventsOk v hv)).bind_nil
      (.pure _)

lemma parses_wholeString {str : Option CString} (h : (CString.memory str).length < 2 ^ 32) :
    Parses readNewString (wholeStringBytes str) str :=
  (parses_readString h none).bind_nil (.pure _)

lemma ConrespStatus.ofCode?_code (s : ConrespStatus) : ofCode? s.code = some s := by
  cases s <;> rfl

/-- The decoder of each kind of packet on the bytes of the packet: the outcome depends on the packet
and the bus only, and no byte behind the packet is asked for. -/
lemma decodes_packet (bus : Bus) {info : PacketInfo} (h : info.Ok) (hcompat : info.Compatible bus) :
    Decodes (packetDecode bus info.type) info.bodyBytes (info.arrive bus) := by
  cases info with
  | conreq req =>
    refine Parses.decodes ?_ |>.map PacketInfo.conreq
    exact (parses_u8 _).bind ((parses_wholeString h.2.1).bind ((parses_u32 _).bind
      ((parses_wholeString h.2.2).bind_nil (.pure _))))
  | conresp status objects =>
    obtain ⟨hlen, hobjects⟩ := h
    obtain ⟨n, hn, hread⟩ := parses_size hlen
    refine Decodes.map (r := .ok (status, objects.filterMap (Object.arrive bus.api))) ?_ _
    refine (parses_u8 _).bind_decodes ?_
    rw [ConrespStatus.ofCode?_code]
    refine hread.bind_decodes (Parses.decodes ?_)
    exact (parses_countedMany hn fun o ho => parses_objectAdd bus.api (hobjects o ho)).bind_nil
      (.pure _)
  | add obj => exact (parses_objectAdd bus.api h).decodes.orFail.map _
  | remove obj =>
    obtain ⟨o, rfl⟩ := Option.isSome_iff_exists.mp h
    exact (parses_objectRemove bus o).decodes.map _
  | busEvent e => exact (decodes_busEvent bus h).orFail.map _
  | event e => exact (parses_event bus h).decodes.orFail.map _
  | call c => exact (parses_call bus h hcompat).decodes.orFail.map _
  | ack a =>
    refine Parses.decodes ?_ |>.map PacketInfo.ack
    exact (parses_u16 _).bind ((parses_u8 _).bind_nil (.pure _))

end Obus
