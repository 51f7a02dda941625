import Obus.PacketCodec
import Obus.Python.Protocol

/-!
# What the C library writes and the Python library reads

Both libraries have fields of the same types.  A value of Python is one of the C library (`Shows`)
if it is the same number, the label of the same number, or the same string; an absent string counts
as empty.

The decoder of the Python library reads the bytes that the encoder of the C library has written for
a struct, in fields that show the same values (`takes_struct`), if its enumerations have labels for
the numbers that are sent.
-/

namespace Obus.Python

open Fallible Cursor

/-! ## The same field in both libraries -/

/-- The descriptors of a field in both libraries. -/
structure SameField (d : Obus.FieldDesc) (f : FieldDesc) : Prop where
  uid : f.uid = d.uid.toNat
  type : f.type = d.type.code.toNat

/-- A value of Python shows a value of the C library. -/
def Shows (fl : Floats) (f : FieldDesc) : (t : BaseType) → t.Cell → Value → Prop
  | .u8, c, v => v = .int (UInt8.toNat c)
  | .i8, c, v => v = .int (UInt8.toBitVec c).toInt
  | .u16, c, v => v = .int (UInt16.toNat c)
  | .i16, c, v => v = .int (UInt16.toBitVec c).toInt
  | .u32, c, v => v = .int (UInt32.toNat c)
  | .i32, c, v => v = .int (UInt32.toBitVec c).toInt
  | .u64, c, v => v = .int (UInt64.toNat c)
  | .i64, c, v => v = .int (UInt64.toBitVec c).toInt
  | .enum, c, v => f.toInt v = .ok (UInt32.toBitVec c).toInt
  | .string, c, v =>
    v = .str (Option.elim c [] Subtype.val) ∨ v = .none ∧ Option.elim c [] Subtype.val = []
  | .bool, c, v => v = .bool (c ≠ (0 : UInt8))
  | .f32, c, v => v = .float (fl.widen c)
  | .f64, c, v => v = .float c

/-- A value of Python shows the memory of a field of the C library. -/
def FieldShows (fl : Floats) (f : FieldDesc) : (t : Obus.FieldType) → t.Val → Value → Prop
  | .value t, c, v => Shows fl f t c v
  | .array t, a, v => ∃ l, v = .list l ∧ List.Forall₂ (Shows fl f t) a.items l

/-- The enumeration has a label for a number. -/
def ItemDeclared (f : FieldDesc) : (t : BaseType) → t.Cell → Prop
  | .enum, c => ∃ d, f.driver = some d ∧ ∃ i ∈ d.items, i.2 = (UInt32.toBitVec c).toInt
  | _, _ => True

/-- The enumeration has labels for the numbers in a field. -/
def FieldDeclared (f : FieldDesc) : (t : Obus.FieldType) → t.Val → Prop
  | .value t, c => ItemDeclared f t c
  | .array t, a => ∀ c ∈ a.items, ItemDeclared f t c

section Values

variable {fl : Floats} {f : FieldDesc}

/-- A copied value is shown by the same values. -/
lemma shows_copyValue (t : BaseType) (c : t.Cell) (v : Value) : Shows fl f t (copyValue t c) v ↔
    Shows fl f t c v := by
  cases t with
  | bool =>
    change UInt8 at c
    by_cases hc : c = 0
    · subst hc
      exact Iff.rfl
    · simp [Shows, copyValue, hc]
  | string =>
    cases c with
    | none => exact Iff.rfl
    | some s => exact Iff.rfl
  | _ => exact Iff.rfl

lemma fieldShows_fieldCopy (t : Obus.FieldType) (c : t.Val) (v : Value) :
    FieldShows fl f t (fieldCopy t c) v ↔ FieldShows fl f t c v := by
  cases t with
  | value t => exact shows_copyValue t c v
  | array t =>
    have hitems : ∀ l : List Value, List.Forall₂ (Shows fl f t) (c.items.map (copyValue t)) l ↔
        List.Forall₂ (Shows fl f t) c.items l := fun l => by
      rw [List.forall₂_map_left_iff]
      simp only [shows_copyValue]
    constructor
    · rintro ⟨l, hv, hl⟩
      exact ⟨l, hv, (hitems l).mp hl⟩
    · rintro ⟨l, hv, hl⟩
      exact ⟨l, hv, (hitems l).mpr hl⟩

/-- The label of a number stands for the number. -/
lemma EnumDriver.toInt_of_find {d : EnumDriver} {n : ℤ} {i : List UInt8 × ℤ}
    (h : d.items.find? (fun i => i.2 = n) = some i) : d.toInt (.str i.1) = .ok n := by
  have hnumber := List.find?_some (p := fun i : List UInt8 × ℤ => decide (i.2 = n)) h
  have hmem := List.mem_of_find?_eq_some h
  cases hname : d.items.find? fun j => j.1 = i.1 with
  | none => exact absurd (decide_eq_true rfl) (List.find?_eq_none.mp hname i hmem)
  | some j =>
    have hsame := List.find?_some (p := fun j : List UInt8 × ℤ => decide (j.1 = i.1)) hname
    obtain rfl := List.inj_on_of_nodup_map d.names (List.mem_of_find?_eq_some hname) hmem
      (of_decide_eq_true hsame)
    simp only [EnumDriver.toInt, EnumDriver.numberOf, hname, of_decide_eq_true hnumber]

lemma fromInt_of_declared {c : UInt32} (h : ItemDeclared f .enum c) :
    ∃ v, f.fromInt c.toBitVec.toInt = .ok v ∧ f.toInt v = .ok c.toBitVec.toInt := by
  obtain ⟨d, hd, i, hi, hnumber⟩ := h
  unfold FieldDesc.fromInt FieldDesc.toInt
  rw [hd]
  cases hfind : d.items.find? fun i => i.2 = c.toBitVec.toInt with
  | none => exact absurd (decide_eq_true hnumber) (List.find?_eq_none.mp hfind i hi)
  | some i =>
    refine ⟨.str i.1, ?_, EnumDriver.toInt_of_find hfind⟩
    simp only [EnumDriver.fromInt, hfind]

/-- A value of the C library is read as one that shows it. -/
lemma takes_value (fl : Floats) {t : BaseType} {c : t.Cell} (hbase : baseType? f.type = some t)
    (hfits : t.Fits c)
    (hdecl : ItemDeclared f t c) : ∃ v, Takes (decodeField fl f) (valueBytes t c) v ∧
    Shows fl f t c v := by
  unfold decodeField
  rw [hbase]
  cases t with
  | u8 => exact ⟨_, (takes_readU8 c).map, rfl⟩
  | i8 =>
    exact ⟨_, (takes_unpackSigned (UInt8.toNat_lt c)).map,
      congrArg Value.int (toSigned_eq_toInt8 c)⟩
  | u16 => exact ⟨_, (takes_readU16 c).map, rfl⟩
  | i16 =>
    exact ⟨_, (takes_unpackSigned (UInt16.toNat_lt c)).map,
      congrArg Value.int (toSigned_eq_toInt16 c)⟩
  | u32 => exact ⟨_, (takes_readU32 c).map, rfl⟩
  | i32 =>
    exact ⟨_, (takes_unpackSigned (UInt32.toNat_lt c)).map,
      congrArg Value.int (toSigned_eq_toInt32 c)⟩
  | u64 => exact ⟨_, (takes_readU64 c).map, rfl⟩
  | i64 =>
    exact ⟨_, (takes_unpackSigned (UInt64.toNat_lt c)).map,
      congrArg Value.int (toSigned_eq_toInt64 c)⟩
  | enum =>
    obtain ⟨v, hfrom, hto⟩ := fromInt_of_declared hdecl
    refine ⟨v, (takes_unpackSigned (UInt32.toNat_lt c)).bind_nil ?_, hto⟩
    rw [toSigned_eq_toInt32, hfrom]
    exact takes_pure
  | string =>
    have hread : Takes readString (bigEndian 4 (CString.memory c).length ++ CString.memory c) _ :=
      takes_readString hfits
    refine ⟨_, hread, ?_⟩
    cases c with
    | none => exact Or.inr ⟨if_pos rfl, rfl⟩
    | some s =>
      have hne : CString.memory (some s) ≠ [] :=
        List.append_ne_nil_of_right_ne_nil _ (List.cons_ne_nil _ _)
      have hlast : (CString.memory (some s)).dropLast = s.val := List.dropLast_concat
      rw [if_neg hne, hlast]
      exact Or.inl rfl
  | bool =>
    change UInt8 at c
    by_cases hc : c = 0
    · subst hc
      exact ⟨_, (takes_readU8 0).map, rfl⟩
    · have hbytes : valueBytes .bool c = bigEndian 1 (1 : UInt8).toNat := by
        change bigEndian 1 (if c = (0 : UInt8) then (0 : UInt8) else 1).toNat = _
        rw [if_neg hc]
      rw [hbytes]
      refine ⟨_, (takes_readU8 1).map, ?_⟩
      change Value.bool (decide ((1 : UInt8).toNat = 1)) = .bool (decide (c ≠ 0))
      rw [decide_eq_true hc]
      rfl
  | f32 =>
    refine ⟨_, (takes_readU32 c).map.map, ?_⟩
    rw [UInt32.ofNat_toNat]
    rfl
  | f64 =>
    refine ⟨_, (takes_readU64 c).map.map, ?_⟩
    rw [UInt64.ofNat_toNat]
    rfl

/-- The memory of a field is read as a value that shows it. -/
lemma takes_field (fl : Floats) {t : Obus.FieldType} {c : t.Val} (htype : f.type = t.code.toNat)
    (hok : t.Ok c) (hfits : t.Fits c)
    (hdecl : FieldDeclared f t c) : ∃ v, Takes (Python.decodeValue fl f) (fieldValBytes t c) v ∧
    FieldShows fl f t c v := by
  unfold Python.decodeValue
  cases t with
  | value t =>
    rw [htype, isArrayType_value, if_neg Bool.false_ne_true]
    exact takes_value fl (by rw [htype, baseType?_value]) hfits hdecl
  | array t =>
    have hbase : baseType? f.type = some t := by rw [htype, baseType?_array]
    have hlength : c.items.length = c.nItems.toNat := hok
    have hitem : ∀ b : t.Cell, ∃ v, b ∈ c.items → Takes (decodeField fl f) (valueBytes t b) v ∧
        Shows fl f t b v := by
      intro b
      by_cases hb : b ∈ c.items
      · obtain ⟨v, hv⟩ := takes_value fl hbase (hfits b hb) (hdecl b hb)
        exact ⟨v, fun _ => hv⟩
      · exact ⟨.none, fun hmem => absurd hmem hb⟩
    choose r hr using hitem
    have hmany := takes_collect (g := fun item => [item]) (fun b hb => (hr b hb).1)
      ([] : List Value)
    rw [hlength, List.nil_append, ← List.map_eq_flatMap] at hmany
    rw [htype, isArrayType_array, if_pos rfl]
    refine ⟨.list (c.items.map r), (takes_readU32 c.nItems).bind (hmany.bind_nil takes_pure),
      c.items.map r, rfl, ?_⟩
    rw [List.forall₂_map_right_iff]
    exact List.forall₂_same.mpr fun b hb => (hr b hb).2

end Values

/-! ## Structures -/

/-- The enumerations in the present fields of a struct have labels for their numbers. -/
def Declared (desc : StructDesc) (st : Struct) : Prop :=
  ∀ s ∈ st, s.has = true → ∀ f ∈ desc.fieldsDesc, SameField s.desc f →
  FieldDeclared f s.desc.type s.val

/-- A structure of the Python library shows a field of the C library. -/
def Holds (fl : Floats) (ps : ObusStruct) (f : FieldDesc) (s : Slot) : Prop :=
  ∃ v, ps.fields f.name = some v ∧ FieldShows fl f s.desc.type s.val v

/-- A structure of the Python library has the present fields of a struct, and no others. -/
structure Arrived (fl : Floats) (desc : StructDesc) (st : Struct) (ps : ObusStruct) : Prop where
  on : ps.desc = desc
  present : ∀ s ∈ st, s.has = true → ∀ f ∈ desc.fieldsDesc, SameField s.desc f → Holds fl ps f s
  absent : ∀ f ∈ desc.fieldsDesc, (∀ s ∈ st, s.has = true → f.uid ≠ s.desc.uid.toNat) →
  ps.fields f.name = none

section Structs

variable {fl : Floats} {desc : StructDesc} {f g : FieldDesc} {st : Struct}

lemma SameField.unique {d : Obus.FieldDesc} (hf : f ∈ desc.fieldsDesc) (hg : g ∈ desc.fieldsDesc)
    (h : SameField d f) (h' : SameField d g) : f = g :=
  List.inj_on_of_nodup_map desc.uids hf hg (h.uid.trans h'.uid.symm)

/-- A present field is kept under its name. -/
lemma takes_entry (fl : Floats) {s : Slot} (hf : f ∈ desc.fieldsDesc) (hsame : SameField s.desc f)
    (hok : s.Ok)
    (hdecl : FieldDeclared f s.desc.type s.val) : ∃ v, FieldShows fl f s.desc.type s.val v ∧
      ∀ ps, Takes (ObusStruct.decodeEntry fl desc ps) (fieldBytes s) (ps.setField f v) := by
  obtain ⟨v, hread, hshows⟩ := takes_field fl hsame.type hok.1 hok.2 hdecl
  refine ⟨v, hshows, fun ps => (takes_readU16 s.desc.uid).bind
    ((takes_readU8 s.desc.type.code).bind ?_)⟩
  have hget : desc.get s.desc.uid.toNat = some f := hsame.uid ▸ StructDesc.get_of_mem hf
  simp only [hget, hsame.type, ne_eq, not_true_eq_false, if_false]
  exact hread.bind_nil takes_pure

/-- The fields of a list are read one after the other; what is under other names stays as it is. -/
lemma takes_slots (fl : Floats) (hnames : (desc.fieldsDesc.map FieldDesc.name).Nodup)
    {l : List Slot}
    (hl : ∀ s ∈ l, s.Ok ∧ ∃ f ∈ desc.fieldsDesc, SameField s.desc f ∧
      FieldDeclared f s.desc.type s.val)
    (hnodup : (l.map fun s => s.desc.uid).Nodup) (ps : ObusStruct) :
    ∃ ps', Takes (iter (ObusStruct.decodeEntry fl desc) l.length ps) (l.flatMap fieldBytes) ps' ∧
    ps'.desc = ps.desc ∧
      (∀ s ∈ l, ∀ f ∈ desc.fieldsDesc, SameField s.desc f → Holds fl ps' f s) ∧
      ∀ f ∈ desc.fieldsDesc, (∀ s ∈ l, f.uid ≠ s.desc.uid.toNat) →
      ps'.fields f.name = ps.fields f.name := by
  induction l generalizing ps with
  | nil => exact ⟨ps, takes_pure, rfl, fun s hs => absurd hs List.not_mem_nil, fun _ _ _ => rfl⟩
  | cons s l ih =>
    rw [List.map_cons, List.nodup_cons] at hnodup
    obtain ⟨hok, f, hf, hsame, hdecl⟩ := hl s List.mem_cons_self
    obtain ⟨v, hshows, hread⟩ := takes_entry fl hf hsame hok hdecl
    obtain ⟨ps', hrest, hdesc, hpresent, hkept⟩ :=
      ih (fun s' hs' => hl s' (List.mem_cons_of_mem s hs')) hnodup.2 (ps.setField f v)
    have hother : ∀ s' ∈ l, f.uid ≠ s'.desc.uid.toNat := by
      intro s' hs' heq
      refine hnodup.1 (List.mem_map.mpr ⟨s', hs', ?_⟩)
      exact UInt16.toNat_inj.mp (heq.symm.trans hsame.uid)
    refine ⟨ps', (hread ps).bind hrest, hdesc, fun s' hs' g hg hsame' => ?_, fun g hg hne => ?_⟩
    · rcases List.mem_cons.mp hs' with rfl | hs'
      · obtain rfl := hsame'.unique hg hf hsame
        exact ⟨v, (hkept g hg hother).trans (ObusStruct.setField_self ps g v), hshows⟩
      · exact hpresent s' hs' g hg hsame'
    · have hnf : g ≠ f := fun heq => hne s List.mem_cons_self (heq ▸ hsame.uid)
      have hname : g.name ≠ f.name := fun heq => hnf (List.inj_on_of_nodup_map hnames hg hf heq)
      exact (hkept g hg fun s' hs' => hne s' (List.mem_cons_of_mem s hs')).trans
        (ObusStruct.setField_of_ne ps v hname)

/-- The decoder reads a struct of the C library. -/
lemma takes_struct (fl : Floats) (hnames : (desc.fieldsDesc.map FieldDesc.name).Nodup) (hst : st.Ok)
    (hnodup : (st.desc.map Obus.FieldDesc.uid).Nodup)
    (hfields : ∀ s ∈ st, s.has = true → ∃ f ∈ desc.fieldsDesc, SameField s.desc f)
    (hdecl : Declared desc st) :
    ∃ ps, Takes (ObusStruct.decode fl desc) (structBytes st) ps ∧ Arrived fl desc st ps := by
  have hsublist : ((st.filter Slot.has).map fun s => s.desc.uid).Nodup := by
    refine List.Nodup.sublist (List.filter_sublist.map _) ?_
    rwa [Struct.desc, List.map_map] at hnodup
  have hl : ∀ s ∈ st.filter Slot.has, s.Ok ∧ ∃ f ∈ desc.fieldsDesc, SameField s.desc f ∧
      FieldDeclared f s.desc.type s.val := by
    intro s hs
    obtain ⟨hmem, hhas⟩ := List.mem_filter.mp hs
    obtain ⟨f, hf, hsame⟩ := hfields s hmem hhas
    exact ⟨hst.slots s hmem hhas, f, hf, hsame, hdecl s hmem hhas f hf hsame⟩
  obtain ⟨ps, hread, hdesc, hpresent, hkept⟩ :=
    takes_slots fl hnames hl hsublist (ObusStruct.create desc)
  refine ⟨ps, ?_, hdesc, fun s hs hhas => hpresent s (List.mem_filter.mpr ⟨hs, hhas⟩),
    fun f hf hne => ?_⟩
  · rw [ObusStruct.decode, structBytes]
    refine (takes_unpack (lt_of_lt_of_le hst.count (by decide))).bind ?_
    rwa [List.countP_eq_length_filter]
  · refine hkept f hf fun s hs => ?_
    exact hne s (List.mem_filter.mp hs).1 (List.mem_filter.mp hs).2

end Structs

/-! ## Objects and events -/

section Contents

variable {α : Type} {p : Py α} {bs : List UInt8} {a : α}

/-- A content that is read is kept. -/
lemma takes_decodeContent (h : Takes p bs a) (hsize : bs.length < 2 ^ 32) :
    Takes (decodeContent p) (sizedBytes bs) (some a) := by
  refine (takes_unpack (lt_of_lt_of_le hsize (by decide))).bind (takes_tell fun n => ?_)
  intro before after
  have hlead := h before after
  unfold Fallible.Leads at hlead ⊢
  simp only [hlead]

end Contents

end Obus.Python
