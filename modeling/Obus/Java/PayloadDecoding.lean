import Obus.Java.BufferLemmas
import Obus.Java.Protocol
import Obus.Java.StructLemmas

/-!
# Which payloads make the decoder of the Java library throw

The decoder of payloads catches decoding errors and the end of the buffer.  When another exception
escapes from it can be said of the bytes of the payload: a payload is laid out part by part, each of
which ends at a position, or is too short, or is refused, or has a number in it that is of no use
(`Layout`).  These numbers are

* the size of a string or the number of entries of an array, when it is negative and an array is
  allocated for it; the least `int` is no such size of a string, as it wraps around;
* the number of objects of a response, when it is negative and a list is allocated for them;
* the size of a content that is refused, when the position behind it is not in the payload.

The layout is a function of the bytes and of the descriptors of the bus.  The decoder goes through a
payload as it is laid out (`LaidOut`), and `decode_iff` says that it throws exactly if there is
a number of no use, for every packet type, payload, bus and charset.
-/

namespace Obus.Java

open Fallible

/-! ## Layouts -/

/-- What a part of a payload turns out to be. -/
inductive Layout where
  /-- The part ends at a position. -/
  | endsAt (pos : ℕ)
  /-- The payload ends before the part does. -/
  | short
  /-- A string is too long, a number stands for no constant or no type, or a descriptor is unknown.
  -/
  | refused
  /-- A number is of no use. -/
  | bad
  deriving DecidableEq

/-- A part, and what follows it. -/
def Layout.next : Layout → (ℕ → Layout) → Layout
  | .endsAt pos, rest => rest pos
  | l, _ => l

/-- A part, with another layout for it if it is refused. -/
def Layout.recover : Layout → Layout → Layout
  | .refused, l => l
  | l, _ => l

/-- A number of parts of one kind. -/
def Layout.times (part : ℕ → Layout) : ℕ → ℕ → Layout
  | 0, pos => .endsAt pos
  | n + 1, pos => (part pos).next (times part n)

section Layouts

variable (data : List UInt8)

/-- A number of bytes. -/
def bytesLayout (k pos : ℕ) : Layout := if pos + k ≤ data.length then .endsAt (pos + k) else .short

/-- A number of `k` bytes, and what follows, which depends on it. -/
def wordLayout (k pos : ℕ) (rest : BitVec 32 → Layout) : Layout :=
  if pos + k ≤ data.length then rest (BitVec.ofNat 32 (ofBigEndian ((data.drop pos).take k)))
  else .short

/-- A string, its final zero included, behind its size. -/
def stringLayout (pos : ℕ) : Layout :=
  wordLayout data 4 pos fun size =>
    if 65536 ≤ size.toInt then .refused
    else if size = 0 then .endsAt (pos + 4)
    else if size.toInt < 0 ∧ size.toInt ≠ -2 ^ 31 then .bad
    else bytesLayout data size.toNat (pos + 4)

/-- A value of a field. -/
def valueLayout (f : FieldDesc) (pos : ℕ) : Layout :=
  match f.base with
  | .uint8 | .int8 | .bool => bytesLayout data 1 pos
  | .uint16 | .int16 | .handle => bytesLayout data 2 pos
  | .uint32 | .int32 | .float => bytesLayout data 4 pos
  | .uint64 | .int64 | .double => bytesLayout data 8 pos
  | .string => stringLayout data pos
  | .enum d => wordLayout data 4 pos fun val =>
      if val ∈ d.values then .endsAt (pos + 4) else .refused

/-- The content of a field whose descriptor is known. -/
def knownLayout (f : FieldDesc) (pos : ℕ) : Layout :=
  if f.isArray then
    wordLayout data 4 pos fun count =>
      if count.toInt < 0 then .bad
      else Layout.times (valueLayout data f) count.toNat (pos + 4)
  else valueLayout data f pos

/-- A value that is skipped. -/
def skippedLayout (fieldType : BitVec 32) (pos : ℕ) : Layout :=
  match (fieldType &&& fieldMask).toNat with
  | 0 | 1 | 10 => bytesLayout data 1 pos
  | 2 | 3 => bytesLayout data 2 pos
  | 4 | 5 | 8 | 11 => bytesLayout data 4 pos
  | 6 | 7 | 12 => bytesLayout data 8 pos
  | 9 => stringLayout data pos
  | _ => .refused

/-- The content of a field that is skipped: a negative number of entries does no harm. -/
def skipLayout (fieldType : BitVec 32) (pos : ℕ) : Layout :=
  if fieldType &&& fieldArray ≠ 0 then
    wordLayout data 4 pos fun count =>
      Layout.times (skippedLayout data fieldType) count.toInt.toNat (pos + 4)
  else skippedLayout data fieldType pos

/-- A field. -/
def fieldLayout (desc : StructDesc) (pos : ℕ) : Layout :=
  wordLayout data 2 pos fun uid =>
    wordLayout data 1 (pos + 2) fun fieldType =>
      match desc.get uid with
      | none => skipLayout data fieldType (pos + 3)
      | some f =>
        if fieldType ≠ f.type then skipLayout data fieldType (pos + 3)
        else knownLayout data f (pos + 3)

/-- A structure. -/
def structLayout (desc : StructDesc) (pos : ℕ) : Layout :=
  wordLayout data 2 pos fun count => Layout.times (fieldLayout data desc) count.toNat (pos + 2)

/-- A content that is refused goes up to the position behind it, if this is in the payload. -/
def behindLayout (sizeData : BitVec 32) (pos : ℕ) : Layout :=
  if 0 ≤ behind pos sizeData ∧ behind pos sizeData ≤ data.length then
    .endsAt (behind pos sizeData).toNat
  else .bad

/-- A content behind its size; without a descriptor it is refused. -/
def contentLayout (desc : Option StructDesc) (pos : ℕ) : Layout :=
  wordLayout data 4 pos fun sizeData =>
    (match desc with
      | none => Layout.refused
      | some d => structLayout data d (pos + 4)).recover (behindLayout data sizeData (pos + 4))

variable (bus : Bus)

/-- An object. -/
def objectLayout (pos : ℕ) : Layout :=
  wordLayout data 2 pos fun uid =>
    wordLayout data 2 (pos + 2) fun _ =>
      contentLayout data ((bus.desc.objectsDesc uid).map ObjectDesc.structDesc) (pos + 4)

/-- An event. -/
def eventLayout (pos : ℕ) : Layout :=
  wordLayout data 2 pos fun uidObj =>
    wordLayout data 2 (pos + 2) fun handle =>
      wordLayout data 2 (pos + 4) fun uidEvt =>
        contentLayout data
          ((eventDesc bus uidObj handle uidEvt).toOption.map fun d => d.2.structDesc) (pos + 6)

/-- A call. -/
def callLayout (pos : ℕ) : Layout :=
  wordLayout data 2 pos fun uidObj =>
    wordLayout data 2 (pos + 2) fun handle =>
      wordLayout data 2 (pos + 4) fun uidCall =>
        wordLayout data 2 (pos + 6) fun _ =>
          contentLayout data
            ((callDesc bus uidObj handle uidCall).toOption.map fun d => d.2.structDesc) (pos + 8)

/-- The object that is unregistered. -/
def unregistrationLayout (pos : ℕ) : Layout :=
  wordLayout data 2 pos fun _ => wordLayout data 2 (pos + 2) fun _ => .endsAt (pos + 4)

/-- The registrations, the unregistrations and the events of a bus event, behind their numbers. -/
def busEventLayout (pos : ℕ) : Layout :=
  wordLayout data 2 pos fun uid =>
    if (bus.desc.eventsDesc uid).isNone then .refused
    else
      wordLayout data 4 (pos + 2) fun regCount =>
        wordLayout data 4 (pos + 6) fun unregCount =>
          wordLayout data 4 (pos + 10) fun evtCount =>
            (Layout.times (objectLayout data bus) regCount.toInt.toNat (pos + 14)).next fun pos =>
              (Layout.times (unregistrationLayout data) unregCount.toInt.toNat pos).next fun pos =>
                Layout.times (eventLayout data bus) evtCount.toInt.toNat pos

/-- A response. -/
def connRespLayout (pos : ℕ) : Layout :=
  wordLayout data 1 pos fun status =>
    if status = 0 ∨ status = 1 then
      wordLayout data 4 (pos + 1) fun count =>
        if count.toInt < 0 then .bad
        else Layout.times (objectLayout data bus) count.toInt.toNat (pos + 5)
    else .refused

/-- A request for a connection. -/
def connReqLayout (pos : ℕ) : Layout :=
  (bytesLayout data 1 pos).next fun pos =>
    (stringLayout data pos).next fun pos =>
      (bytesLayout data 4 pos).next fun pos => stringLayout data pos

/-- An answer; its status may be refused, which does not matter. -/
def ackLayout (pos : ℕ) : Layout := (bytesLayout data 2 pos).next fun pos => bytesLayout data 1 pos

/-- The payload of a packet. -/
def packetLayout : PacketType → Layout
  | .conreq => connReqLayout data 0
  | .conresp => connRespLayout data bus 0
  | .add => objectLayout data bus 0
  | .remove => unregistrationLayout data 0
  | .busEvent => busEventLayout data bus 0
  | .event => eventLayout data bus 0
  | .call => callLayout data bus 0
  | .ack => ackLayout data 0

end Layouts

/-! ## Readers that follow a layout -/

/-- What an exception says of the part that is read. -/
def Exc.layout : Exc → Layout
  | .decodeError _ => .refused
  | .bufferUnderflow => .short
  | _ => .bad

/-- From a position of a payload on, a reader goes to where a layout ends, or fails as the layout
does. -/
def LaidOut {α : Type} (data : List UInt8) (p : Read α) (pos : ℕ) (l : Layout) : Prop :=
  (∃ a pos', Leads p ⟨data, pos⟩ a ⟨data, pos'⟩ ∧ l = .endsAt pos') ∨
    ∃ e, p ⟨data, pos⟩ = .error e ∧ l = e.layout

@[simp] lemma Layout.next_endsAt (l : Layout) : (l.next fun pos => .endsAt pos) = l := by
  cases l <;> rfl

section Rules

variable {α β : Type} {data : List UInt8} {p : Read α} {f : α → Read β} {pos : ℕ} {l : Layout}

lemma Exc.layout_next (e : Exc) (rest : ℕ → Layout) : e.layout.next rest = e.layout := by
  cases e <;> rfl

lemma laidOut_pure (a : α) : LaidOut data (pure a) pos (.endsAt pos) := Or.inl ⟨a, pos, rfl, rfl⟩

lemma laidOut_fail (e : Exc) : LaidOut data (fail e : Read α) pos e.layout := Or.inr ⟨e, rfl, rfl⟩

/-- A sequence is laid out as its parts are, one behind the other. -/
lemma LaidOut.bind {rest : ℕ → Layout} (hp : LaidOut data p pos l)
    (hf : ∀ a pos', Leads p ⟨data, pos⟩ a ⟨data, pos'⟩ → LaidOut data (f a) pos' (rest pos')) :
    LaidOut data (p >>= f) pos (l.next rest) := by
  obtain ⟨a, pos', hlead, rfl⟩ | ⟨e, herror, rfl⟩ := hp
  · obtain ⟨b, pos'', hrest, heq⟩ | ⟨e, herror, heq⟩ := hf a pos' hlead
    · exact Or.inl ⟨b, pos'', hlead.bind hrest, heq⟩
    · exact Or.inr ⟨e, (bind_of_ok hlead).trans herror, heq⟩
  · exact Or.inr ⟨e, bind_of_error herror, e.layout_next rest⟩

/-- What is made of the value does not matter. -/
lemma LaidOut.bind_pure {g : α → β} (hp : LaidOut data p pos l) :
    LaidOut data (p >>= fun a => pure (g a)) pos l := by
  rw [← l.next_endsAt]
  exact hp.bind fun a pos' _ => laidOut_pure (g a)

lemma LaidOut.map {g : α → β} (hp : LaidOut data p pos l) : LaidOut data (g <$> p) pos l := by
  rw [← bind_pure_comp]
  exact hp.bind_pure

/-- A loop is laid out as a number of parts. -/
lemma laidOut_iter {f : α → Read α} {part : ℕ → Layout}
    (hf : ∀ a pos, LaidOut data (f a) pos (part pos)) (n : ℕ) (a : α) (pos : ℕ) :
    LaidOut data (iter f n a) pos (Layout.times part n pos) := by
  induction n generalizing a pos with
  | zero => exact laidOut_pure a
  | succ n ih => exact (hf a pos).bind fun b pos' _ => ih b pos'

lemma laidOut_getPos {f : ℕ → Read β} (hf : LaidOut data (f pos) pos l) :
    LaidOut data (getPos >>= f) pos l := hf

lemma laidOut_get (n : ℕ) : LaidOut data (get n) pos (bytesLayout data n pos) := by
  unfold bytesLayout
  split_ifs with h
  · exact Or.inl ⟨_, _, if_pos h, rfl⟩
  · exact Or.inr ⟨_, if_neg h, rfl⟩

/-- A number that decides on what follows. -/
lemma laidOut_word {k : ℕ} {g : List UInt8 → BitVec 32} {f : BitVec 32 → Read β}
    {rest : BitVec 32 → Layout} (hg : ∀ bs : List UInt8, bs.length = k →
      g bs = BitVec.ofNat 32 (ofBigEndian bs))
    (hf : ∀ v, LaidOut data (f v) (pos + k) (rest v)) :
    LaidOut data ((g <$> get k) >>= f) pos (wordLayout data k pos rest) := by
  unfold wordLayout
  split_ifs with h
  · have hlength : ((data.drop pos).take k).length = k := by
      rw [List.length_take, List.length_drop]
      omega
    have hget : Leads (g <$> get k) ⟨data, pos⟩ (g ((data.drop pos).take k)) ⟨data, pos + k⟩ :=
      leads_map.mpr ⟨_, if_pos h, rfl⟩
    rw [← hg _ hlength]
    obtain ⟨b, pos', hrest, heq⟩ | ⟨e, herror, heq⟩ := hf (g ((data.drop pos).take k))
    · exact Or.inl ⟨b, pos', hget.bind hrest, heq⟩
    · exact Or.inr ⟨e, (bind_of_ok hget).trans herror, heq⟩
  · refine Or.inr ⟨.bufferUnderflow, bind_of_error ?_, rfl⟩
    rw [← bind_pure_comp]
    exact bind_of_error (if_neg h)

/-- A number that is read without a sign. -/
lemma laidOut_unsigned {k : ℕ} (hk : 8 * k < 32) {m : BitVec 32}
    (hm : m = BitVec.ofNat 32 (2 ^ (8 * k))) {f : BitVec 32 → Read β} {rest : BitVec 32 → Layout}
    (hf : ∀ v, LaidOut data (f v) (pos + k) (rest v)) :
    LaidOut data
      (((fun val : BitVec 32 => if 0 ≤ val.toInt then val else val + m) <$> getInt k) >>= f)
      pos (wordLayout data k pos rest) := by
  subst hm
  rw [getInt, Functor.map_map]
  refine laidOut_word (fun bs hbs => ?_) hf
  have hlt : ofBigEndian bs < 2 ^ (8 * k) := by
    have hbound := ofBigEndian_lt bs
    rwa [hbs, show 256 = 2 ^ 8 from rfl, ← pow_mul] at hbound
  rw [unsigned_eq_setWidth hk, BitVec.setWidth_ofNat_of_le_of_lt hk.le hlt]

lemma laidOut_readU8 {f : BitVec 32 → Read β} {rest : BitVec 32 → Layout}
    (hf : ∀ v, LaidOut data (f v) (pos + 1) (rest v)) :
    LaidOut data (readU8 >>= f) pos (wordLayout data 1 pos rest) :=
  laidOut_unsigned (by decide) rfl hf

lemma laidOut_readU16 {f : BitVec 32 → Read β} {rest : BitVec 32 → Layout}
    (hf : ∀ v, LaidOut data (f v) (pos + 2) (rest v)) :
    LaidOut data (readU16 >>= f) pos (wordLayout data 2 pos rest) :=
  laidOut_unsigned (k := 2) (by decide) (m := 65536) (by decide) hf

lemma laidOut_readU32 {f : BitVec 32 → Read β} {rest : BitVec 32 → Layout}
    (hf : ∀ v, LaidOut data (f v) (pos + 4) (rest v)) :
    LaidOut data (readU32 >>= f) pos (wordLayout data 4 pos rest) :=
  laidOut_word (fun _ _ => BitVec.signExtend_eq _) hf

end Rules

/-! ## Fields -/

section Fields

variable {cs : Charset} {data : List UInt8} {f : FieldDesc} {pos : ℕ}

lemma laidOut_getInt (k : ℕ) : LaidOut data (getInt k) pos (bytesLayout data k pos) :=
  (laidOut_get k).map

lemma laidOut_readU8_bytes : LaidOut data readU8 pos (bytesLayout data 1 pos) :=
  (laidOut_getInt 1).map

lemma laidOut_readU16_bytes : LaidOut data readU16 pos (bytesLayout data 2 pos) :=
  (laidOut_getInt 2).map

lemma laidOut_getLong : LaidOut data getLong pos (bytesLayout data 8 pos) := (laidOut_get 8).map

lemma bytesLayout_next (k n : ℕ) :
    ((bytesLayout data k pos).next fun pos => bytesLayout data n pos) = bytesLayout data
      (k + n) pos := by
  unfold bytesLayout
  by_cases h : pos + k ≤ data.length
  · rw [if_pos h, Layout.next, Nat.add_assoc]
  · rw [if_neg h, if_neg (by omega), Layout.next]
    rintro p ⟨⟩

/-- A negative size is of no use, apart from the least one, which wraps around. -/
lemma toInt_pred {size : BitVec 32} (hzero : size ≠ 0) :
    (size - 1).toInt < 0 ↔ size.toInt < 0 ∧ size.toInt ≠ -2 ^ 31 := by
  have hzero' : size.toInt ≠ 0 := fun h => hzero (BitVec.toInt_inj.mp h)
  have hsub : (size - 1).toInt = (size.toInt - (1 : BitVec 32).toInt).bmod (2 ^ 32) :=
    BitVec.toInt_sub
  have hone : (1 : BitVec 32).toInt = 1 := rfl
  have hlow := BitVec.le_toInt size
  have hhigh := BitVec.toInt_lt (x := size)
  rw [hone] at hsub
  rw [hsub]
  by_cases hmin : size.toInt = -2 ^ 31
  · have hwrap : (size.toInt - 1).bmod (2 ^ 32) = 2 ^ 31 - 1 := by
      rw [hmin]
      decide
    omega
  · have hkeep : (size.toInt - 1).bmod (2 ^ 32) = size.toInt - 1 :=
      Int.bmod_eq_of_le (by omega) (by omega)
    omega

/-- A string: the bytes of the text, and its final zero. -/
lemma laidOut_readString : LaidOut data (readString cs) pos (stringLayout data pos) := by
  refine laidOut_readU32 fun size => ?_
  by_cases hbig : 65536 ≤ size.toInt
  · rw [if_pos hbig, if_pos hbig]
    exact laidOut_fail _
  rw [if_neg hbig, if_neg hbig]
  by_cases hzero : size = 0
  · rw [if_pos hzero, if_pos hzero]
    exact laidOut_pure none
  rw [if_neg hzero, if_neg hzero]
  unfold newArray
  by_cases hneg : (size - 1).toInt < 0
  · rw [if_pos hneg, if_pos ((toInt_pred hzero).mp hneg)]
    exact Or.inr ⟨.negativeArraySize, rfl, rfl⟩
  · have hsize : size.toNat = (size - 1).toNat + 1 := by
      have hpos : size.toNat ≠ 0 := fun h => hzero (BitVec.eq_of_toNat_eq h)
      bv_omega
    rw [if_neg hneg, if_neg ((toInt_pred hzero).not.mp hneg), pure_bind, hsize, ← bytesLayout_next]
    exact (laidOut_get _).bind fun buf _ _ => (laidOut_get 1).bind_pure

/-- A number stands for a constant, or is a decoding error. -/
lemma fromInt_cases (d : EnumDriver) (val : BitVec 32) :
    (val ∈ d.values ∧ ∃ c, d.fromInt val = .ok c) ∨
      (val ∉ d.values ∧ ∃ e, d.fromInt val = .error (.decodeError e)) := by
  unfold EnumDriver.fromInt
  split
  · next c hfind =>
    have hval : d.toInt c = val :=
      of_decide_eq_true (List.find?_some (p := fun c => d.toInt c = val) hfind)
    exact Or.inl ⟨hval ▸ List.get_mem d.values c, c, rfl⟩
  · next hfind =>
    refine Or.inr ⟨fun hmem => ?_, _, rfl⟩
    obtain ⟨c, hc⟩ := List.mem_iff_get.mp hmem
    exact List.find?_eq_none.mp hfind c (List.mem_finRange c) (decide_eq_true hc)

lemma laidOut_driverFromInt {d : EnumDriver} {val : BitVec 32} :
    LaidOut data (eval (driverFromInt (some d) val)) pos
      (if val ∈ d.values then .endsAt pos else .refused) := by
  unfold driverFromInt
  rcases fromInt_cases d val with ⟨hmem, c, hc⟩ | ⟨hmem, e, he⟩
  · rw [if_pos hmem]
    simp only [hc]
    exact Or.inl ⟨_, pos, rfl, rfl⟩
  · rw [if_neg hmem]
    simp only [he]
    exact Or.inr ⟨_, rfl, rfl⟩

/-- A value. -/
lemma laidOut_decodeValue (hint : f.fieldType.isInt = false) :
    LaidOut data (decodeValue cs f) pos (valueLayout data f pos) := by
  obtain ⟨uid, base, isArray, idx⟩ := f
  cases base with
  | string => exact laidOut_readString.map
  | uint64 | int64 | double => exact laidOut_getLong.map
  | float => exact (laidOut_getInt 4).map
  | bool => exact laidOut_readU8_bytes.map
  | enum d => exact laidOut_readU32 fun val => laidOut_driverFromInt.map
  | _ => cases hint

/-- An integer of at most 32 bits. -/
lemma laidOut_decodeValueInt (hint : f.fieldType.isInt = true) :
    LaidOut data (decodeValueInt f) pos (valueLayout data f pos) := by
  obtain ⟨uid, base, isArray, idx⟩ := f
  cases base with
  | uint8 => exact laidOut_readU8_bytes
  | uint16 | handle => exact laidOut_readU16_bytes
  | int8 => exact laidOut_getInt 1
  | int16 => exact laidOut_getInt 2
  | uint32 | int32 => exact laidOut_getInt 4
  | _ => cases hint

/-- What is decoded goes into an array of the class that is created for it. -/
lemma exists_storeIn_of_leads {c : JavaType} (hclass : arrayClass f = .ok c) {val : Option Obj}
    {b b' : RxBuffer} (h : Leads (decodeValue cs f) b val b') : ∃ o, storeIn c val = .ok o := by
  obtain ⟨uid, base, isArray, idx⟩ := f
  cases base with
  | enum d =>
    cases hclass
    obtain ⟨v, t, -, hconst⟩ := leads_bind.mp h
    obtain ⟨o, hval, rfl⟩ := leads_map.mp hconst
    rcases fromInt_cases d v with ⟨-, k, hk⟩ | ⟨-, e, he⟩
    · have hlead : Leads (eval (driverFromInt (some d) v)) t (.boxed (.enum d) k) t := by
        rw [driverFromInt, hk]
        rfl
      obtain ⟨rfl, -⟩ := hval.unique hlead
      exact ⟨some k, storeIn_boxed (c := .enum d) (some k)⟩
    · have herror : eval (driverFromInt (some d) v) t = .error (.decodeError e) := by
        rw [driverFromInt, he]
        rfl
      cases hval.symm.trans herror
  | string =>
    cases hclass
    obtain ⟨s, -, rfl⟩ := leads_map.mp h
    exact ⟨s, storeIn_boxed (c := .string) s⟩
  | uint64 | int64 =>
    cases hclass
    obtain ⟨v, -, rfl⟩ := leads_map.mp h
    exact ⟨some v, storeIn_boxed (c := .long) (some v)⟩
  | float =>
    cases hclass
    obtain ⟨v, -, rfl⟩ := leads_map.mp h
    exact ⟨some v, storeIn_boxed (c := .float) (some v)⟩
  | double =>
    cases hclass
    obtain ⟨v, -, rfl⟩ := leads_map.mp h
    exact ⟨some v, storeIn_boxed (c := .double) (some v)⟩
  | bool =>
    cases hclass
    obtain ⟨v, -, rfl⟩ := leads_map.mp h
    exact ⟨some (decide (v = 1)), storeIn_boxed (c := .boolean) (some (decide (v = 1)))⟩
  | _ => cases hclass

/-- For every type that is not one of integers there is a class. -/
lemma exists_arrayClass (hint : f.fieldType.isInt = false) : ∃ c, arrayClass f = .ok c := by
  obtain ⟨uid, base, isArray, idx⟩ := f
  cases base with
  | uint64 | int64 | float | double | bool | string | enum d => exact ⟨_, rfl⟩
  | _ => cases hint

/-- The allocation of an array whose entries are laid out behind each other. -/
lemma laidOut_newArray {α : Type} {count : BitVec 32} {g : ℕ → Read α} {l : Layout}
    (hg : LaidOut data (g count.toNat) pos l) :
    LaidOut data (newArray count >>= g) pos (if count.toInt < 0 then .bad else l) := by
  unfold newArray
  split_ifs with h
  · exact Or.inr ⟨.negativeArraySize, rfl, rfl⟩
  · exact hg

lemma laidOut_decodeArray (hint : f.fieldType.isInt = false) :
    LaidOut data (decodeArray cs f) pos (wordLayout data 4 pos fun count =>
      if count.toInt < 0 then .bad else Layout.times (valueLayout data f) count.toNat
        (pos + 4)) := by
  obtain ⟨c, hclass⟩ := exists_arrayClass hint
  rw [decodeArray_eq hclass]
  refine laidOut_readU32 fun count => laidOut_newArray ?_
  refine LaidOut.bind_pure (laidOut_iter (fun array pos => ?_) _ _ _)
  rw [← (valueLayout data f pos).next_endsAt]
  refine (laidOut_decodeValue hint).bind fun val pos' hlead => ?_
  obtain ⟨o, hstore⟩ := exists_storeIn_of_leads hclass hlead
  rw [eval_ok hstore]
  exact laidOut_pure _

lemma laidOut_decodeArrayInt (hint : f.fieldType.isInt = true) :
    LaidOut data (decodeArrayInt f) pos (wordLayout data 4 pos fun count =>
      if count.toInt < 0 then .bad else Layout.times (valueLayout data f) count.toNat
        (pos + 4)) := by
  refine laidOut_readU32 fun count => laidOut_newArray ?_
  exact LaidOut.bind_pure (laidOut_iter
    (fun array pos => (laidOut_decodeValueInt hint).bind_pure) _ _ _)

/-- The content of a field whose descriptor is known. -/
lemma laidOut_decodeKnown {struct : ObusStruct} :
    LaidOut data (decodeKnown cs f struct) pos (knownLayout data f pos) := by
  unfold decodeKnown knownLayout
  by_cases hint : f.fieldType.isInt = true
  · rw [if_pos hint]
    split_ifs
    · exact (laidOut_decodeArrayInt hint).bind_pure
    · exact (laidOut_decodeValueInt hint).bind_pure
  · rw [if_neg hint]
    rw [Bool.not_eq_true] at hint
    split_ifs
    · exact (laidOut_decodeArray hint).bind_pure
    · exact (laidOut_decodeValue hint).bind_pure

/-- A value that is skipped. -/
lemma laidOut_skipField {fieldType : BitVec 32} :
    LaidOut data (skipField cs fieldType) pos (skippedLayout data fieldType pos) := by
  unfold skipField skippedLayout
  generalize (fieldType &&& fieldMask).toNat = n
  by_cases h : n < 13
  · interval_cases n
    · exact laidOut_readU8_bytes.map
    · exact (laidOut_getInt 1).map
    · exact laidOut_readU16_bytes.map
    · exact (laidOut_getInt 2).map
    · exact (laidOut_getInt 4).map
    · exact (laidOut_getInt 4).map
    · exact laidOut_getLong.map
    · exact laidOut_getLong.map
    · exact (laidOut_getInt 4).map
    · exact laidOut_readString.map
    · exact laidOut_readU8_bytes.map
    · exact (laidOut_getInt 4).map
    · exact laidOut_getLong.map
  · obtain ⟨m, rfl⟩ : ∃ m, n = m + 13 := ⟨n - 13, by omega⟩
    exact laidOut_fail _

/-- The content of a field that is skipped. -/
lemma laidOut_skip {fieldType : BitVec 32} :
    LaidOut data (skip cs fieldType) pos (skipLayout data fieldType pos) := by
  unfold skip skipLayout
  split_ifs
  · exact laidOut_readU32 fun count => laidOut_iter (fun _ pos => laidOut_skipField) _ _ _
  · exact laidOut_skipField

/-- A field. -/
lemma laidOut_decodeField {desc : StructDesc} {struct : ObusStruct} :
    LaidOut data (decodeField cs desc struct) pos (fieldLayout data desc pos) := by
  refine laidOut_readU16 fun uid => laidOut_readU8 fun fieldType => ?_
  cases desc.get uid with
  | none => exact laidOut_skip.bind_pure
  | some f =>
    simp only
    split_ifs
    · exact laidOut_skip.bind_pure
    · exact laidOut_decodeKnown

/-- A structure. -/
lemma laidOut_decodeStruct {desc : StructDesc} :
    LaidOut data (ObusStruct.decode cs desc) pos (structLayout data desc pos) :=
  laidOut_readU16 fun _ => laidOut_iter (fun _ _ => laidOut_decodeField) _ _ _

end Fields

/-! ## Contents that are skipped -/

section Contents

variable {α δ : Type} {cs : Charset} {bus : Bus} {data : List UInt8} {pos : ℕ}

/-- A content that is refused is skipped. -/
lemma laidOut_recovering {sizeData : BitVec 32} {p : Read α} {l : Layout}
    (hp : LaidOut data p pos l) :
    LaidOut data (recovering pos sizeData p) pos (l.recover (behindLayout data sizeData pos)) := by
  obtain ⟨a, pos', hlead, rfl⟩ | ⟨e, herror, rfl⟩ := hp
  · refine Or.inl ⟨some a, pos', ?_, rfl⟩
    rw [Leads, recovering, show p ⟨data, pos⟩ = .ok (a, ⟨data, pos'⟩) from hlead]
  · cases e with
    | decodeError d =>
      have hrun : recovering pos sizeData p ⟨data, pos⟩ =
          ((fun _ => none) <$> setPos (behind pos sizeData) : Read (Option α)) ⟨data, pos⟩ := by
        rw [recovering, herror]
      change LaidOut data _ pos (behindLayout data sizeData pos)
      unfold behindLayout
      split_ifs with h
      · refine Or.inl ⟨none, (behind pos sizeData).toNat, hrun.trans ?_, rfl⟩
        exact leads_map.mpr ⟨(), if_pos h, rfl⟩
      · refine Or.inr ⟨.illegalArgument, hrun.trans ?_, rfl⟩
        rw [← bind_pure_comp]
        exact bind_of_error (if_neg h)
    | _ => exact Or.inr ⟨_, by rw [recovering, herror], rfl⟩

/-- A content behind its size, whose descriptor is there or refused. -/
lemma laidOut_decodeContent {desc : Except Exc δ} {structDesc : δ → StructDesc}
    {k : δ → ObusStruct → α} (hdesc : ∀ e, desc = .error e → ∃ d, e = .decodeError d) :
    LaidOut data (decodeContent cs desc structDesc k) pos
      (contentLayout data (desc.toOption.map structDesc) pos) := by
  refine laidOut_readU32 fun sizeData => laidOut_getPos (laidOut_recovering ?_)
  cases desc with
  | error e =>
    obtain ⟨d, rfl⟩ := hdesc e rfl
    exact Or.inr ⟨.decodeError d, rfl, rfl⟩
  | ok d =>
    rw [eval_ok (rfl : (Except.ok d : Except Exc δ) = .ok d)]
    exact laidOut_decodeStruct.bind_pure

lemma descriptorFor_error {uid : BitVec 32} {d : Option δ} {e : Exc}
    (h : descriptorFor uid d = .error e) : ∃ e', e = .decodeError e' := by
  cases d with
  | none =>
    cases h
    exact ⟨_, rfl⟩
  | some d => cases h

lemma findChecked_error {uid handle : BitVec 32} {e : Exc}
    (h : findChecked bus uid handle = .error e) : ∃ e', e = .decodeError e' := by
  unfold findChecked at h
  split at h
  · cases h
    exact ⟨_, rfl⟩
  · split_ifs at h
    cases h
    exact ⟨_, rfl⟩

/-- The object is looked up first, and then a descriptor of its own. -/
lemma descOf_error {uid handle uid' : BitVec 32} {descs : ObusObject → Option δ} {e : Exc}
    (h : (findChecked bus uid handle >>= fun obj => descriptorFor uid' (descs obj) >>= fun d =>
      (pure (obj, d) : Except Exc (ObusObject × δ))) = .error e) : ∃ e', e = .decodeError e' := by
  cases hobj : findChecked bus uid handle with
  | error e' =>
    rw [hobj] at h
    cases h
    exact findChecked_error hobj
  | ok obj =>
    rw [hobj] at h
    cases hdesc : descriptorFor uid' (descs obj) with
    | error e' =>
      change (descriptorFor uid' (descs obj) >>= fun d => _) = _ at h
      rw [hdesc] at h
      cases h
      exact descriptorFor_error hdesc
    | ok d =>
      change (descriptorFor uid' (descs obj) >>= fun d => _) = _ at h
      rw [hdesc] at h
      cases h

lemma laidOut_decodeObject :
    LaidOut data (ObusObject.decode cs bus) pos (objectLayout data bus pos) := by
  refine laidOut_readU16 fun uid => laidOut_readU16 fun handle => ?_
  have hdesc : (descriptorFor uid (bus.desc.objectsDesc uid)).toOption =
      bus.desc.objectsDesc uid := by
    cases bus.desc.objectsDesc uid <;> rfl
  have hcontent : LaidOut data (decodeContent cs (descriptorFor uid (bus.desc.objectsDesc uid))
      ObjectDesc.structDesc fun d struct => (⟨d, handle, struct⟩ : ObusObject)) (pos + 2 + 2) _ :=
    laidOut_decodeContent fun _ => descriptorFor_error
  rwa [hdesc] at hcontent

lemma laidOut_decodeEvent : LaidOut data (ObusEvent.decode cs bus) pos (eventLayout data bus pos) :=
  laidOut_readU16 fun _ => laidOut_readU16 fun _ => laidOut_readU16 fun _ =>
    laidOut_decodeContent fun _ => descOf_error

lemma laidOut_decodeCall : LaidOut data (ObusCall.decode cs bus) pos (callLayout data bus pos) :=
  laidOut_readU16 fun _ => laidOut_readU16 fun _ => laidOut_readU16 fun _ =>
    laidOut_readU16 fun _ =>
    laidOut_decodeContent fun _ => descOf_error

lemma laidOut_decodeUnregistration :
    LaidOut data (decodeUnregistration bus) pos (unregistrationLayout data pos) :=
  laidOut_readU16 fun _ => laidOut_readU16 fun _ => laidOut_pure _

lemma laidOut_decodeList {p : Read (Option α)} {part : ℕ → Layout}
    (hp : ∀ pos, LaidOut data p pos (part pos)) (count : BitVec 32) (pos : ℕ) :
    LaidOut data (decodeList p count) pos (Layout.times part count.toInt.toNat pos) :=
  laidOut_iter (fun _ pos => (hp pos).bind_pure) _ _ _

end Contents

/-! ## Packets -/

section Packets

variable {cs : Charset} {bus : Bus} {data : List UInt8} {pos : ℕ}

lemma laidOut_rxPacketConnReq : LaidOut data (rxPacketConnReq cs) pos (connReqLayout data pos) :=
  laidOut_readU8_bytes.bind fun _ _ _ => laidOut_readString.bind fun _ _ _ =>
    (laidOut_getInt 4).bind fun _ _ _ => laidOut_readString.bind_pure

lemma laidOut_rxPacketConnResp :
    LaidOut data (rxPacketConnResp cs bus) pos (connRespLayout data bus pos) := by
  refine laidOut_readU8 fun val => ?_
  have haccepted : ∀ status,
      LaidOut data (readU32 >>= fun objCount => newArrayList objCount >>= fun _ =>
      decodeList (ObusObject.decode cs bus) objCount >>= fun objects =>
        pure (RxPacket.connResp status objects)) (pos + 1) (wordLayout data 4 (pos + 1) fun count =>
          if count.toInt < 0 then .bad
          else Layout.times (objectLayout data bus) count.toInt.toNat (pos + 5)) := by
    intro status
    refine laidOut_readU32 fun count => ?_
    unfold newArrayList
    split_ifs with h
    · exact Or.inr ⟨.illegalArgument, rfl, rfl⟩
    · exact (laidOut_decodeList (fun _ => laidOut_decodeObject) count _).bind_pure
  by_cases hzero : val = 0
  · have hstatus : ConnRespStatus.fromInt val = .ok .accepted := if_pos hzero
    rw [if_pos (Or.inl hzero), eval_ok hstatus]
    exact haccepted .accepted
  by_cases hone : val = 1
  · have hstatus : ConnRespStatus.fromInt val = .ok .refused := (if_neg hzero).trans (if_pos hone)
    rw [if_pos (Or.inr hone), eval_ok hstatus]
    exact haccepted .refused
  · have hstatus : ConnRespStatus.fromInt val =
        .error (.decodeError (.invalidConnectionResponse val.toInt)) :=
      (if_neg hzero).trans (if_neg hone)
    rw [if_neg (not_or.mpr ⟨hzero, hone⟩), hstatus]
    exact Or.inr ⟨_, rfl, rfl⟩

lemma laidOut_rxPacketBusEvent :
    LaidOut data (rxPacketBusEvent cs bus) pos (busEventLayout data bus pos) := by
  refine LaidOut.map (laidOut_readU16 fun uid => ?_)
  cases bus.desc.eventsDesc uid with
  | none => exact Or.inr ⟨_, rfl, rfl⟩
  | some desc =>
    have hdesc : descriptorFor uid (some desc) = .ok desc := rfl
    rw [if_neg (by simp), eval_ok hdesc]
    refine laidOut_readU32 fun regCount => laidOut_readU32 fun unregCount =>
      laidOut_readU32 fun evtCount => ?_
    refine (laidOut_decodeList (fun _ => laidOut_decodeObject) regCount _).bind fun _ pos₁ _ => ?_
    refine (laidOut_decodeList (fun _ => laidOut_decodeUnregistration) unregCount pos₁).bind
      fun _ pos₂ _ => ?_
    exact (laidOut_decodeList (fun _ => laidOut_decodeEvent) evtCount pos₂).bind_pure

/-- An exception is thrown that nothing catches. -/
def Throws {α : Type} (p : Read α) (b : RxBuffer) : Prop := ∃ e, p b = .error e ∧ e.layout = .bad

/-- A part throws exactly if there is a number of no use in it. -/
lemma LaidOut.throws_iff {α : Type} {p : Read α} {l : Layout} (hp : LaidOut data p pos l) :
    Throws p ⟨data, pos⟩ ↔ l = .bad := by
  obtain ⟨a, pos', hlead, rfl⟩ | ⟨e, herror, rfl⟩ := hp
  · refine iff_of_false ?_ nofun
    rintro ⟨e, herror, -⟩
    cases (Eq.symm hlead).trans herror
  · constructor
    · rintro ⟨e', herror', hbad⟩
      cases herror.symm.trans herror'
      exact hbad
    · exact fun hbad => ⟨e, herror, hbad⟩

/-- The check that follows gives a decoding error at most. -/
lemma throws_bind_map_eval {α β γ : Type} {p : Read α} {x : α → Except Exc β} {g : α → β → γ}
    {b : RxBuffer} (hx : ∀ a e, x a = .error e → ∃ d, e = .decodeError d) :
    Throws (p >>= fun a => g a <$> eval (x a)) b ↔ Throws p b := by
  cases hp : p b with
  | error e =>
    have hbind : (p >>= fun a => g a <$> eval (x a)) b = .error e := bind_of_error hp
    constructor
    · rintro ⟨e', herror, hbad⟩
      cases hbind.symm.trans herror
      exact ⟨e, hp, hbad⟩
    · rintro ⟨e', herror, hbad⟩
      cases hp.symm.trans herror
      exact ⟨e, hbind, hbad⟩
  | ok r =>
    obtain ⟨a, b'⟩ := r
    have hbind : (p >>= fun a => g a <$> eval (x a)) b = (g a <$> eval (x a) : Read γ) b' :=
      bind_of_ok hp
    refine iff_of_false ?_ ?_
    · rintro ⟨e, herror, hbad⟩
      rw [hbind] at herror
      cases hxa : x a with
      | error e' =>
        obtain ⟨d, rfl⟩ := hx a e' hxa
        rw [hxa] at herror
        cases herror
        cases hbad
      | ok v =>
        rw [hxa] at herror
        cases herror
    · rintro ⟨e, herror, -⟩
      cases hp.symm.trans herror

lemma decoded_error {α : Type} (a : Option α) (e : Exc) (h : decoded a = .error e) :
    ∃ d, e = .decodeError d := by
  cases a with
  | none =>
    cases h
    exact ⟨_, rfl⟩
  | some a => cases h

lemma ackOf_error {val : BitVec 32} {e : Exc} (h : ackOf val = .error e) :
    ∃ d, e = .decodeError d := by
  unfold ackOf at h
  split at h <;> cases h
  exact ⟨_, rfl⟩

lemma throws_rxPacketRemove :
    Throws (rxPacketRemove bus) ⟨data, pos⟩ ↔ unregistrationLayout data pos = .bad := by
  have hpairs : rxPacketRemove bus =
      (readU16 >>= fun uid => readU16 >>= fun handle => pure (uid, handle)) >>= fun key =>
        RxPacket.remove <$> eval (findChecked bus key.1 key.2) := by
    simp only [rxPacketRemove, bind_assoc, pure_bind]
  rw [hpairs]
  refine (throws_bind_map_eval fun _ _ => findChecked_error).trans (LaidOut.throws_iff ?_)
  exact laidOut_readU16 fun _ => laidOut_readU16 fun _ => laidOut_pure _

lemma throws_rxPacketAck : Throws rxPacketAck ⟨data, pos⟩ ↔ ackLayout data pos = .bad := by
  have hpairs : rxPacketAck =
      (readU16 >>= fun handle => readU8 >>= fun val => pure (handle, val)) >>= fun ack =>
        RxPacket.ack ack.1 <$> eval (ackOf ack.2) := by
    simp only [rxPacketAck, bind_assoc, pure_bind]
  rw [hpairs]
  refine (throws_bind_map_eval fun _ _ => ackOf_error).trans (LaidOut.throws_iff ?_)
  exact laidOut_readU16_bytes.bind fun _ _ _ => laidOut_readU8_bytes.bind_pure

/-- A packet throws exactly if there is a number of no use in its payload. -/
lemma throws_rxPacket {packetType : PacketType} :
    Throws (rxPacket cs bus packetType) ⟨data, 0⟩ ↔ packetLayout data bus packetType = .bad := by
  cases packetType with
  | conreq => exact laidOut_rxPacketConnReq.throws_iff
  | conresp => exact laidOut_rxPacketConnResp.throws_iff
  | add => exact (throws_bind_map_eval decoded_error).trans laidOut_decodeObject.throws_iff
  | remove => exact throws_rxPacketRemove
  | busEvent => exact laidOut_rxPacketBusEvent.throws_iff
  | event => exact (throws_bind_map_eval decoded_error).trans laidOut_decodeEvent.throws_iff
  | call => exact (throws_bind_map_eval decoded_error).trans laidOut_decodeCall.throws_iff
  | ack => exact throws_rxPacketAck

end Packets

/-! ## The theorem -/

/-- The decoder gives a packet or nothing, and throws no exception, exactly if no number in the
bytes of the payload is of no use. -/
theorem decode_iff (cs : Charset) (bus : Bus) (packetType : PacketType) (payload : List UInt8) :
    (∃ r, RxRawPacket.decode cs bus packetType payload = .ok r) ↔
      packetLayout payload bus packetType ≠ .bad := by
  rw [Ne, ← @throws_rxPacket cs, RxRawPacket.decode]
  cases hpacket : rxPacket cs bus packetType ⟨payload, 0⟩ with
  | ok r =>
    refine iff_of_true ⟨some r.1, rfl⟩ ?_
    rintro ⟨e, herror, -⟩
    cases hpacket.symm.trans herror
  | error e =>
    cases e with
    | decodeError d =>
      refine iff_of_true ⟨none, rfl⟩ ?_
      rintro ⟨e, herror, hbad⟩
      cases hpacket.symm.trans herror
      cases hbad
    | bufferUnderflow =>
      refine iff_of_true ⟨none, rfl⟩ ?_
      rintro ⟨e, herror, hbad⟩
      cases hpacket.symm.trans herror
      cases hbad
    | _ => exact iff_of_false nofun fun h => h ⟨_, hpacket, rfl⟩

/-- A bus that describes nothing. -/
def emptyBus : Bus := ⟨⟨fun _ => none, fun _ => none⟩, fun _ => none⟩

/-- The response with the status of success and the number of objects `0xffffffff`: the capacity of
the list is `-1`. -/
theorem decode_throws : ¬∀
    (cs : Charset) (bus : Bus) (packetType : PacketType) (payload : List UInt8),
    ∃ r, RxRawPacket.decode cs bus packetType payload = .ok r := by
  intro h
  obtain ⟨r, hr⟩ := h ⟨fun _ => [], fun _ => []⟩ emptyBus .conresp [0, 255, 255, 255, 255]
  cases hr

end Obus.Java
