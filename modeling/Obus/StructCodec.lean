import Obus.BufferLemmas
import Obus.Struct

/-!
# The wire format of structs

The bytes of values, fields and structs, that the encoder writes exactly them, and what the decoder
makes of them on a struct of any descriptor: a field that the reader knows under the same uid and
type is stored, any other field is skipped, and in both cases exactly its bytes are consumed
(`parses_structDecode`).  On the descriptor of the writer the decoded struct has the same fields
present with the same values (`structReceive_filter`).
-/

namespace Obus

open Prog

/-! ## The bytes -/

/-- The bytes of a value, a string with all its characters. -/
def valueBytes : (t : BaseType) → t.Cell → List UInt8
  | .bool, v => bigEndian 1 (if v = (0 : UInt8) then (0 : UInt8) else (1 : UInt8)).toNat
  | .u8, v | .i8, v => bigEndian 1 (UInt8.toNat v)
  | .u16, v | .i16, v => bigEndian 2 (UInt16.toNat v)
  | .u32, v | .i32, v | .enum, v | .f32, v => bigEndian 4 (UInt32.toNat v)
  | .u64, v | .i64, v | .f64, v => bigEndian 8 (UInt64.toNat v)
  | .string, v => bigEndian 4 (CString.memory v).length ++ CString.memory v

/-- The bytes of the memory of a field. -/
def fieldValBytes : (t : FieldType) → t.Val → List UInt8
  | .value t, v => valueBytes t v
  | .array t, v => bigEndian 4 v.nItems.toNat ++ v.items.flatMap (valueBytes t)

/-- The bytes of a field. -/
def fieldBytes (s : Slot) : List UInt8 :=
  bigEndian 2 s.desc.uid.toNat ++ (bigEndian 1 s.desc.type.code.toNat ++
    fieldValBytes s.desc.type s.val)

/-- The bytes of a struct. -/
def structBytes (st : Struct) : List UInt8 :=
  bigEndian 2 (st.countP Slot.has) ++ (st.filter Slot.has).flatMap fieldBytes

/-- The size field of a string can hold its size. -/
def BaseType.Fits : (t : BaseType) → t.Cell → Prop
  | .string, v => (CString.memory v).length < 2 ^ 32
  | _, _ => True

/-- The size fields of the strings of a field can hold their sizes. -/
def FieldType.Fits : (t : FieldType) → t.Val → Prop
  | .value t, v => t.Fits v
  | .array t, v => ∀ c ∈ v.items, t.Fits c

/-- A field that the wire format can carry: an array has its items, and strings fit. -/
def Slot.Ok (s : Slot) : Prop := s.desc.type.Ok s.val ∧ s.desc.type.Fits s.val

/-- Every present field can be carried, and so can their number. -/
structure Struct.Carried (st : Struct) : Prop where
  slots : ∀ s ∈ st, s.has = true → s.Ok
  count : st.countP Slot.has < 2 ^ 16

/-- Every present field can be carried, and so can their number and the size of the struct. -/
structure Struct.Ok (st : Struct) : Prop where
  slots : ∀ s ∈ st, s.has = true → s.Ok
  count : st.countP Slot.has < 2 ^ 16
  length : (structBytes st).length < 2 ^ 32

lemma Struct.Ok.carried {st : Struct} (h : st.Ok) : st.Carried := ⟨h.slots, h.count⟩

lemma length_le_flatMap {α : Type} (f : α → List UInt8) {l : List α} {a : α} (ha : a ∈ l) :
    (f a).length ≤ (l.flatMap f).length := by
  rw [List.flatMap_def]
  exact (List.sublist_flatten_of_mem (List.mem_map_of_mem ha)).length_le

lemma BaseType.fits_of_length_lt {t : BaseType} {v : t.Cell}
    (h : (valueBytes t v).length < 2 ^ 32) : t.Fits v := by
  cases t with
  | string =>
    simp only [valueBytes, List.length_append, bigEndian_length] at h
    simp only [BaseType.Fits]
    omega
  | _ => trivial

/-- A field whose bytes fit in 32 bits has strings that do. -/
lemma FieldType.fits_of_length_lt {t : FieldType} {v : t.Val}
    (h : (fieldValBytes t v).length < 2 ^ 32) : t.Fits v := by
  cases t with
  | value t => exact BaseType.fits_of_length_lt h
  | array t =>
    intro c hc
    have hle := length_le_flatMap (valueBytes t) hc
    simp only [fieldValBytes, List.length_append, bigEndian_length] at h
    exact BaseType.fits_of_length_lt (by omega)

/-- A list of fields has at most as many distinct nonzero uids as there are. -/
lemma UidsOk.length_lt {uids : List UInt16} (h : UidsOk uids) : uids.length < 2 ^ 16 := by
  have hnodup : (0 :: uids).Nodup := List.nodup_cons.mpr ⟨h.2, h.1⟩
  have hmap : ((0 :: uids).map fun u => (⟨u.toNat, u.toNat_lt⟩ : Fin (2 ^ 16))).Nodup := by
    refine hnodup.map fun a b hab => ?_
    exact UInt16.toNat_inj.mp (Fin.mk.inj_iff.mp hab)
  have hcard := hmap.length_le_card
  simp only [List.length_map, List.length_cons, Fintype.card_fin] at hcard
  omega

lemma structDesc_count_lt {st : Struct} (h : st.desc.Ok) : st.countP Slot.has < 2 ^ 16 := by
  have hlt := UidsOk.length_lt h
  simp only [Struct.desc, List.length_map] at hlt
  exact lt_of_le_of_lt List.countP_le_length hlt

/-- A struct on a usable descriptor whose arrays have their items and whose bytes fit in 32 bits can
be carried. -/
lemma Struct.ok_of_length_lt {st : Struct} (hdesc : st.desc.Ok)
    (harr : ∀ s ∈ st, s.has = true → s.desc.type.Ok s.val) (h : (structBytes st).length < 2 ^ 32) :
    st.Ok := by
  refine ⟨fun s hs hhas => ⟨harr s hs hhas, ?_⟩, structDesc_count_lt hdesc, h⟩
  have hmem : s ∈ st.filter Slot.has := List.mem_filter.mpr ⟨hs, hhas⟩
  have hle := length_le_flatMap fieldBytes hmem
  simp only [structBytes, fieldBytes, List.length_append, bigEndian_length] at h hle
  exact FieldType.fits_of_length_lt (by omega)

/-! ## The encoder writes the bytes -/

lemma writes_each {α : Type} {f : α → Enc Unit} {bytes : α → List UInt8} {l : List α}
    (h : ∀ a ∈ l, Writes (f a) (bytes a)) : Writes (each f l) (l.flatMap bytes) := by
  induction l with
  | nil => exact .pure
  | cons a l ih =>
    rw [List.flatMap_cons]
    exact (h a List.mem_cons_self).bind (ih fun b hb => h b (List.mem_cons_of_mem a hb))

/-- A string whose size fits is written with all its characters. -/
lemma writes_wholeString {str : Option CString} (h : (CString.memory str).length < 2 ^ 32) :
    Writes (appendString str) (bigEndian 4 (CString.memory str).length ++ CString.memory str) := by
  have hw := writes_string str
  rwa [stringBytes, Nat.mod_eq_of_lt h, List.take_length] at hw

lemma writes_value (t : BaseType) (v : t.Cell) (h : t.Fits v) :
    Writes (encodeValue t v) (valueBytes t v) := by
  cases t with
  | u8 | i8 | bool => exact writes_u8 _
  | u16 | i16 => exact writes_u16 _
  | u32 | i32 | enum | f32 => exact writes_u32 _
  | u64 | i64 | f64 => exact writes_u64 _
  | string => exact writes_wholeString h

lemma writes_fieldVal (t : FieldType) (v : t.Val) (hok : t.Ok v) (h : t.Fits v) :
    Writes (fieldEncodeVal t v) (fieldValBytes t v) := by
  cases t with
  | value t => exact writes_value t v h
  | array t =>
    change v.items.length = v.nItems.toNat at hok
    have hitems : Writes (each (encodeValue t) v.items) (v.items.flatMap (valueBytes t)) :=
      writes_each fun c hc => writes_value t c (h c hc)
    change Writes (arrayEncode t v) _
    unfold arrayEncode
    rw [← hok, List.take_length, if_neg (lt_irrefl _)]
    refine (writes_u32 v.nItems).bind ?_
    have hbind := hitems.bind (f := fun _ => pure ()) .pure
    rwa [List.append_nil] at hbind

lemma writes_field {s : Slot} (h : s.Ok) : Writes (fieldEncode s) (fieldBytes s) :=
  (writes_u16 _).bind ((writes_u8 _).bind (writes_fieldVal _ _ h.1 h.2))

/-- `obus_struct_encode` writes the bytes of the struct. -/
lemma writes_struct {st : Struct} (h : st.Carried) : Writes (structEncode st) (structBytes st) := by
  have hcount : (UInt16.ofNat (st.countP Slot.has)).toNat = st.countP Slot.has := by
    rw [UInt16.toNat_ofNat', Nat.mod_eq_of_lt h.count]
  have hhead := writes_u16 (UInt16.ofNat (st.countP Slot.has))
  rw [hcount] at hhead
  refine hhead.bind (writes_each fun s hs => ?_)
  obtain ⟨hmem, hhas⟩ := List.mem_filter.mp hs
  exact writes_field (h.slots s hmem hhas)

/-! ## The decoder reads the bytes -/

/-- A loop that reads one element of a list in each round. -/
lemma parses_iter {α β : Type} {f : α → Dec α} (bytes : β → List UInt8) {g : α → β → α} {l : List β}
    (h : ∀ a, ∀ b ∈ l, Parses (f a) (bytes b) (g a b)) (a : α) :
    Parses (iter f l.length a) (l.flatMap bytes) (l.foldl g a) := by
  induction l generalizing a with
  | nil => exact .pure a
  | cons b l ih =>
    rw [List.flatMap_cons]
    exact (h a b List.mem_cons_self).bind (ih (fun a c hc => h a c (List.mem_cons_of_mem b hc)) _)

lemma parses_readInto {α : Type} {p : Dec α} {bs : List UInt8} {a : α} (h : Parses p bs a)
    (old : α) : Parses (readInto p old) bs (.ok (), a) :=
  h.attempt.bind_nil (.pure _)

/-- The string that is read back is the string that was written. -/
lemma ofBytes_memory (s : CString) : CString.ofBytes ((s.val ++ [0]).set s.val.length 0) = s := by
  have hset : (s.val ++ [(0 : UInt8)]).set s.val.length 0 = s.val ++ [0] := by
    rw [List.set_append_right _ _ le_rfl, Nat.sub_self]
    rfl
  apply Subtype.ext
  rw [hset]
  change (s.val ++ [0]).takeWhile _ = s.val
  rw [List.takeWhile_append_of_pos]
  · simp
  · intro c hc
    have hne : c ≠ 0 := fun h0 => s.property (h0 ▸ hc)
    simpa using hne

lemma parses_readString {v : Option CString} (h : (CString.memory v).length < 2 ^ 32)
    (old : Option CString) :
    Parses (readString old) (bigEndian 4 (CString.memory v).length ++ CString.memory v)
      (.ok (), v) := by
  have hsize : (UInt32.ofNat (CString.memory v).length).toNat = (CString.memory v).length := by
    rw [UInt32.toNat_ofNat', Nat.mod_eq_of_lt h]
  have hhead := (parses_u32 (UInt32.ofNat (CString.memory v).length)).attempt
  rw [hsize] at hhead
  unfold readString
  refine hhead.bind ?_
  cases v with
  | none => exact .pure _
  | some s =>
    have hne : UInt32.ofNat (CString.memory (some s)).length ≠ 0 := by
      intro h0
      have hzero := congrArg UInt32.toNat h0
      rw [hsize] at hzero
      simp [CString.memory] at hzero
    simp only [if_neg hne, hsize]
    refine (parses_dup (CString.memory (some s))).attempt.bind_nil ?_
    have hback : CString.ofBytes ((CString.memory (some s)).set
        ((CString.memory (some s)).length - 1) 0) = s := by
      simpa [CString.memory] using ofBytes_memory s
    simp only [hback]
    exact .pure _

/-- `obus_decode_value` reads back what `obus_encode_value` wrote, booleans normalised. -/
lemma parses_value (t : BaseType) (v old : t.Cell) (h : t.Fits v) :
    Parses (decodeValue t old) (valueBytes t v) (.ok (), t.norm v) := by
  cases t with
  | u8 | i8 => exact parses_readInto (parses_u8 _) old
  | bool =>
    refine parses_readInto (a := BaseType.norm .bool v) ?_ old
    have hread := (parses_u8 (if v = (0 : UInt8) then 0 else 1)).bind_nil
      (f := fun w => pure (if w = 0 then (0 : UInt8) else 1)) (.pure _)
    have hnorm : (if (if v = (0 : UInt8) then (0 : UInt8) else 1) = 0 then (0 : UInt8) else 1) =
        BaseType.norm .bool v := by
      by_cases hv : v = (0 : UInt8) <;> simp [BaseType.norm, hv]
    rw [← hnorm]
    exact hread
  | u16 | i16 => exact parses_readInto (parses_u16 _) old
  | u32 | i32 | enum | f32 => exact parses_readInto (parses_u32 _) old
  | u64 | i64 | f64 => exact parses_readInto (parses_u64 _) old
  | string => exact parses_readString h old

/-- The items of an array, each from its bytes. -/
lemma parses_items {β : Type} {t : BaseType} {bytes : β → List UInt8} {value : β → t.Cell}
    {vs : List β} (h : ∀ v ∈ vs, Parses (decodeValue t t.item) (bytes v) (.ok (), value v)) :
    Parses (decodeItems t vs.length) (vs.flatMap bytes) (.ok (vs.map value)) := by
  induction vs with
  | nil => exact .pure _
  | cons v vs ih =>
    rw [List.flatMap_cons]
    refine (h v List.mem_cons_self).bind ?_
    exact (ih fun w hw => h w (List.mem_cons_of_mem v hw)).bind_nil (.pure _)

lemma parses_fieldVal (t : FieldType) (v old : t.Val) (hok : t.Ok v) (h : t.Fits v) :
    Parses (fieldDecodeVal t old) (fieldValBytes t v) (.ok (), t.norm v) := by
  cases t with
  | value t => exact parses_value t v old h
  | array t =>
    change v.items.length = v.nItems.toNat at hok
    refine (parses_u32 v.nItems).attempt.bind ?_
    simp only [← hok]
    exact (parses_items fun v hv => parses_value t v t.item (h v hv)).bind_nil (.pure _)

/-- Skipping a value consumes exactly its bytes. -/
lemma parses_fieldSkipValue {type : UInt8} {t : BaseType}
    (ht : BaseType.ofCode? (maskCode type) = some t)
    (v : t.Cell) (h : t.Fits v) : Parses (fieldSkipValue type) (valueBytes t v) () := by
  unfold fieldSkipValue
  rw [ht]
  cases t with
  | u8 | i8 | bool | u16 | i16 | u32 | i32 | enum | f32 | u64 | i64 | f64 =>
    have hskip := (parses_incReadPosition (valueBytes _ v)).attempt.bind_nil (f := fun _ => pure ())
      (.pure ())
    simpa only [valueBytes, bigEndian_length] using hskip
  | string =>
    change (CString.memory v).length < 2 ^ 32 at h
    have hsize : (UInt32.ofNat (CString.memory v).length).toNat = (CString.memory v).length := by
      rw [UInt32.toNat_ofNat', Nat.mod_eq_of_lt h]
    have hhead := (parses_u32 (UInt32.ofNat (CString.memory v).length)).attempt
    rw [hsize] at hhead
    refine hhead.bind ?_
    simp only [hsize]
    exact (parses_incReadPosition (CString.memory v)).attempt.bind_nil (.pure ())

/-- Skipping a field consumes exactly the bytes of its memory. -/
lemma parses_skipField (t : FieldType) (v : t.Val) (hok : t.Ok v) (h : t.Fits v) :
    Parses (skipField t.code) (fieldValBytes t v) () := by
  unfold skipField
  cases t with
  | value t =>
    rw [isArrayCode_value]
    exact parses_fieldSkipValue (ofCode?_maskCode_value t) v h
  | array t =>
    change v.items.length = v.nItems.toNat at hok
    rw [isArrayCode_array]
    refine (parses_u32 v.nItems).attempt.bind ?_
    simp only [← hok]
    have hloop := parses_iter (valueBytes t) (f := fun _ => fieldSkipValue (FieldType.array t).code)
      (g := fun _ _ => ()) (l := v.items)
      (fun _ c hc => parses_fieldSkipValue (ofCode?_maskCode_array t) c (h c hc)) ()
    exact hloop

/-! ## Storing a received field -/

/-- The field as it arrives: present, booleans normalised. -/
def Slot.sent (s : Slot) : Slot := ⟨s.desc, true, s.desc.type.norm s.val⟩

/-- Store a received field into the field that the reader has under its uid, unless the types
differ. -/
def Slot.fill (r s : Slot) : Slot :=
  if h : s.desc.type = r.desc.type
    then { r with has := true, val := h ▸ s.desc.type.norm s.val } else r

/-- Store a received field into the first field of the reader with its uid. -/
def structReceive : Struct → Slot → Struct
  | [], _ => []
  | r :: st, s => if r.desc.uid = s.desc.uid then r.fill s :: st else r :: structReceive st s

lemma Slot.fill_of_desc_eq {r s : Slot} (h : r.desc = s.desc) : r.fill s = s.sent := by
  obtain ⟨d, has, val⟩ := r
  obtain ⟨d', has', val'⟩ := s
  change d = d' at h
  subst h
  simp [Slot.fill, Slot.sent]

lemma structGetFieldDesc_cons (r : Slot) (st : Struct) (uid : UInt16) :
    structGetFieldDesc (r :: st) uid =
      if r.desc.uid = uid then some (0, r)
      else (structGetFieldDesc st uid).map fun p => (p.1 + 1, p.2) := by
  unfold structGetFieldDesc
  by_cases h : r.desc.uid = uid
  · simp [List.findIdx?_cons, h]
  · rw [List.findIdx?_cons, if_neg h]
    simp only [decide_eq_true_eq, h, if_false, Option.bind_map]
    cases List.findIdx? (fun s : Slot => decide (s.desc.uid = uid)) st with
    | none => rfl
    | some i => simp [Function.comp_def]

/-- A field that the reader does not know is dropped. -/
lemma structReceive_of_none {st : Struct} {s : Slot} (h : structGetFieldDesc st s.desc.uid = none) :
    structReceive st s = st := by
  induction st with
  | nil => rfl
  | cons r st ih =>
    rw [structGetFieldDesc_cons] at h
    by_cases hr : r.desc.uid = s.desc.uid
    · rw [if_pos hr] at h
      cases h
    · rw [if_neg hr, Option.map_eq_none_iff] at h
      rw [structReceive, if_neg hr, ih h]

/-- A field that the reader knows is stored at the index that the lookup finds. -/
lemma structReceive_of_some {st : Struct} {s r : Slot} {i : ℕ}
    (h : structGetFieldDesc st s.desc.uid = some (i, r)) :
    structReceive st s = st.set i (r.fill s) ∧ st[i]? = some r := by
  induction st generalizing i with
  | nil => cases h
  | cons a st ih =>
    rw [structGetFieldDesc_cons] at h
    by_cases ha : a.desc.uid = s.desc.uid
    · rw [if_pos ha] at h
      obtain ⟨rfl, rfl⟩ : 0 = i ∧ a = r := by simpa using h
      rw [structReceive, if_pos ha]
      exact ⟨rfl, rfl⟩
    · rw [if_neg ha, Option.map_eq_some_iff] at h
      obtain ⟨⟨j, r'⟩, hj, heq⟩ := h
      obtain ⟨rfl, rfl⟩ : j + 1 = i ∧ r' = r := by simpa using heq
      obtain ⟨hset, hget⟩ := ih hj
      rw [structReceive, if_neg ha, hset]
      exact ⟨rfl, hget⟩

lemma parses_getReadPosition {α : Type} {f : ℕ → Dec α} {bs : List UInt8} {a : α}
    (h : ∀ pos, Parses (f pos) bs a) : Parses (getReadPosition >>= f) bs a :=
  fun b hb => (ParsesAt.getReadPosition b).bind (h b.pos b hb)

/-- The head of a field. -/
lemma parses_fieldHead (s : Slot) :
    Parses (do let uid ← readU16; let type ← readU8; pure (uid, type) : Dec _)
      (bigEndian 2 s.desc.uid.toNat ++ bigEndian 1 s.desc.type.code.toNat)
      (s.desc.uid, s.desc.type.code) :=
  (parses_u16 _).bind ((parses_u8 _).bind_nil (.pure _))

/-- Bytes from which the value of a field is read, booleans normalised, and which are skipped as a
whole. -/
structure Slot.ReadFrom (s : Slot) (bs : List UInt8) : Prop where
  value : ∀ old, Parses (fieldDecodeVal s.desc.type old) bs (.ok (), s.desc.type.norm s.val)
  skip : Parses (skipField s.desc.type.code) bs ()

lemma Slot.Ok.readFrom {s : Slot} (h : s.Ok) : s.ReadFrom (fieldValBytes s.desc.type s.val) :=
  ⟨fun old => parses_fieldVal s.desc.type s.val old h.1 h.2,
    parses_skipField s.desc.type s.val h.1 h.2⟩

/-- A field that the reader does not know, or knows with another type, is skipped. -/
lemma parses_fieldDecode_skip {st : Struct} {s : Slot} {bs : List UInt8} (h : s.ReadFrom bs)
    (hget : ∀ i r, structGetFieldDesc st s.desc.uid = some (i, r) → r.desc.type ≠ s.desc.type) :
    Parses (fieldDecode st) (bigEndian 2 s.desc.uid.toNat ++
      (bigEndian 1 s.desc.type.code.toNat ++ bs)) (st, none) := by
  have hskip := h.skip.bind_nil (f := fun _ => pure (st, none))
    (Parses.pure ((st, none) : Struct × Option ℕ))
  unfold fieldDecode
  rw [← List.append_assoc]
  refine (parses_fieldHead s).attempt.bind (parses_getReadPosition fun pos => ?_)
  cases hfound : structGetFieldDesc st s.desc.uid with
  | none => exact hskip
  | some p =>
    obtain ⟨i, r⟩ := p
    have hcode : r.desc.type.code ≠ s.desc.type.code := fun hc =>
      hget i r hfound (FieldType.code_inj hc)
    simp only [if_pos hcode]
    exact hskip

/-- A field that the reader knows with the same type is stored. -/
lemma parses_fieldDecode_store {st : Struct} {s r : Slot} {i : ℕ} {bs : List UInt8}
    (h : s.ReadFrom bs)
    (hget : structGetFieldDesc st s.desc.uid = some (i, r)) (htype : s.desc.type = r.desc.type) :
    Parses (fieldDecode st) (bigEndian 2 s.desc.uid.toNat ++
      (bigEndian 1 s.desc.type.code.toNat ++ bs))
      (st.set i { r with val := htype ▸ s.desc.type.norm s.val }, some i) := by
  have hval : Parses (fieldDecodeVal r.desc.type r.val) bs
      (.ok (), htype ▸ s.desc.type.norm s.val) := by
    obtain ⟨⟨uid, role, type, drv⟩, has, val⟩ := r
    change s.desc.type = type at htype
    subst htype
    exact h.value val
  unfold fieldDecode
  rw [← List.append_assoc]
  refine (parses_fieldHead s).attempt.bind (parses_getReadPosition fun pos => ?_)
  have hcode : ¬ r.desc.type.code ≠ s.desc.type.code := fun hc => hc (by rw [htype])
  simp only [hget, if_neg hcode]
  exact hval.bind_nil (.pure _)

/-- One round of `obus_struct_decode` stores the field or skips it, and consumes exactly its bytes.
-/
lemma parses_structDecodeField (st : Struct) {s : Slot} {bs : List UInt8} (h : s.ReadFrom bs) :
    Parses (structDecodeField st)
      (bigEndian 2 s.desc.uid.toNat ++ (bigEndian 1 s.desc.type.code.toNat ++ bs))
      (structReceive st s) := by
  unfold structDecodeField
  cases hget : structGetFieldDesc st s.desc.uid with
  | none =>
    rw [structReceive_of_none hget]
    exact (parses_fieldDecode_skip h (by simp [hget])).bind_nil (.pure _)
  | some p =>
    obtain ⟨i, r⟩ := p
    obtain ⟨hset, hat⟩ := structReceive_of_some hget
    rw [hset]
    by_cases htype : s.desc.type = r.desc.type
    · refine (parses_fieldDecode_store h hget htype).bind_nil ?_
      have hlt : i < st.length := (List.getElem?_eq_some_iff.mp hat).1
      have hfill : structSetHasField (st.set i { r with val := htype ▸ s.desc.type.norm s.val }) i =
          st.set i (r.fill s) := by
        rw [structSetHasField, List.modify_eq_set_getElem?]
        simp [hlt, Slot.fill, htype]
      simp only [hfill]
      exact .pure _
    · have hsame : st.set i (r.fill s) = st := by
        obtain ⟨hlt, rfl⟩ := List.getElem?_eq_some_iff.mp hat
        rw [Slot.fill, dif_neg htype, List.set_getElem_self]
      rw [hsame]
      refine (parses_fieldDecode_skip h fun j r' hj => ?_).bind_nil (.pure _)
      rw [hget] at hj
      obtain ⟨rfl, rfl⟩ : i = j ∧ r = r' := by simpa using hj
      exact fun h' => htype h'.symm

/-- `obus_struct_decode` on the bytes of any fields, whatever struct it decodes into. -/
lemma parses_structDecode_fields {β : Type} (st₀ : Struct) {l : List β} (slot : β → Slot)
    (bytes : β → List UInt8)
    (hcount : l.length < 2 ^ 16) (h : ∀ b ∈ l, (slot b).ReadFrom (bytes b)) :
    Parses (structDecode st₀)
      (bigEndian 2 l.length ++ l.flatMap fun b =>
        bigEndian 2 (slot b).desc.uid.toNat ++
          (bigEndian 1 (slot b).desc.type.code.toNat ++ bytes b))
      ((l.map slot).foldl structReceive (structClearHasFields st₀)) := by
  have hsize : (UInt16.ofNat l.length).toNat = l.length := by
    rw [UInt16.toNat_ofNat', Nat.mod_eq_of_lt hcount]
  have hhead := parses_u16 (UInt16.ofNat l.length)
  rw [hsize] at hhead
  refine hhead.bind ?_
  rw [hsize, List.foldl_map]
  exact parses_iter _ (fun st' b hb => parses_structDecodeField st' (h b hb)) _

/-- `obus_struct_decode` on the bytes of a struct, whatever struct it decodes into. -/
lemma parses_structDecode (st₀ : Struct) {st : Struct} (h : st.Carried) :
    Parses (structDecode st₀) (structBytes st)
      ((st.filter Slot.has).foldl structReceive (structClearHasFields st₀)) := by
  have hcount : (st.filter Slot.has).length < 2 ^ 16 := by
    rw [← List.countP_eq_length_filter]
    exact h.count
  have hfields := parses_structDecode_fields st₀ id
    (fun s => fieldValBytes s.desc.type s.val) hcount fun s hs => by
    obtain ⟨hmem, hhas⟩ := List.mem_filter.mp hs
    exact (h.slots s hmem hhas).readFrom
  rwa [List.map_id, ← List.countP_eq_length_filter] at hfields

/-! ## The same descriptor on both sides -/

/-- What a reader with the same descriptor makes of a struct: a present field arrives, the others
keep the memory that the reader gave them. -/
def structSent (st₀ st : Struct) : Struct :=
  List.zipWith (fun r s => if s.has then s.sent else { r with has := false }) st₀ st

/-- Fields with other uids do not reach the head of a struct. -/
lemma foldl_structReceive_cons {r : Slot} {l : List Slot} (hl : ∀ s ∈ l, r.desc.uid ≠ s.desc.uid)
    (st : Struct) : l.foldl structReceive (r :: st) = r :: l.foldl structReceive st := by
  induction l generalizing st with
  | nil => rfl
  | cons s l ih =>
    rw [List.foldl_cons, structReceive, if_neg (hl s List.mem_cons_self),
      ih fun s' hs' => hl s' (List.mem_cons_of_mem s hs')]
    rfl

/-- On the writer's descriptor with distinct uids every present field arrives, and only these. -/
lemma structReceive_filter {st₀ st : Struct} (hdesc : st₀.desc = st.desc)
    (hnodup : (st.desc.map FieldDesc.uid).Nodup) :
    (st.filter Slot.has).foldl structReceive (structClearHasFields st₀) = structSent st₀ st := by
  induction st generalizing st₀ with
  | nil =>
    have hnil : st₀ = [] := by simpa [Struct.desc] using hdesc
    subst hnil
    rfl
  | cons s st ih =>
    obtain ⟨r, st₀, rfl⟩ : ∃ r st', st₀ = r :: st' := by
      cases st₀ with
      | nil => simp [Struct.desc] at hdesc
      | cons r st' => exact ⟨r, st', rfl⟩
    simp only [Struct.desc, List.map_cons, List.cons.injEq] at hdesc
    simp only [Struct.desc, List.map_cons, List.nodup_cons] at hnodup
    obtain ⟨hhead, htail⟩ := hdesc
    have hother : ∀ d : Slot, d.desc = s.desc → ∀ s' ∈ st.filter Slot.has,
        d.desc.uid ≠ s'.desc.uid := by
      intro d hd s' hs' huid
      refine hnodup.1 ?_
      rw [← hd, huid, List.map_map]
      exact List.mem_map_of_mem (List.mem_of_mem_filter hs')
    have hrest := ih htail hnodup.2
    have hclear : structClearHasFields (r :: st₀) =
        { r with has := false } :: structClearHasFields st₀ := rfl
    rw [hclear]
    cases hhas : s.has with
    | false =>
      rw [List.filter_cons_of_neg (by simp [hhas]), foldl_structReceive_cons
        (hother { r with has := false } hhead), hrest]
      simp [structSent, hhas]
    | true =>
      have hfill : ({ r with has := false } : Slot).fill s = s.sent := Slot.fill_of_desc_eq hhead
      rw [List.filter_cons_of_pos (by simp [hhas]), List.foldl_cons, structReceive,
        if_pos (by rw [hhead]), hfill, foldl_structReceive_cons (hother s.sent rfl), hrest]
      simp [structSent, hhas]

end Obus
