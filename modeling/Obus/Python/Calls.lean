import Obus.Python.Departure
import Obus.Python.World

/-!
# Calls of the Python library

A client of the Python library calls a method of an object of the server.  The fields of the
arguments are written in the order of a dictionary, whatever it is, behind their uids and types, and
the C library finds them by their uids.  A size is written in front of them when they are known, and
so is the header of the packet.

The call is sent exactly if all values can be, and arrives with the arguments that it has
(`python_call_arrives`).
-/

namespace Obus.Python

open Fallible Cursor

/-! ## The fields of a structure -/

section Sent

variable (fl : Floats) (d : Obus.StructDesc) (st : ObusStruct)

/-- What the C library finds for a present field: the field with its uid, with the bytes of its
value. -/
def sentSlot (f : FieldDesc) : Option (Slot × List UInt8) :=
  (d.find? fun g => g.uid.toNat = f.uid).bind fun g =>
    (sentField fl f g.type ((st.fields f.name).getD .none)).map fun p => (⟨g, true, p.1⟩, p.2)

/-- What it finds for a structure, in the order of the encoder. -/
def sentSlots : Option (List (Slot × List UInt8)) :=
  (st.desc.fieldsDesc.filter st.hasField).mapM (sentSlot fl d st)

end Sent

/-- The bytes of a field behind its uid and its type. -/
def entryBytes (p : Slot × List UInt8) : List UInt8 :=
  bigEndian 2 p.1.desc.uid.toNat ++ (bigEndian 1 p.1.desc.type.code.toNat ++ p.2)

/-- The bytes of fields behind the number of them. -/
def slotsBytes (l : List (Slot × List UInt8)) : List UInt8 :=
  bigEndian 2 l.length ++ l.flatMap entryBytes

/-- Each field of a descriptor of the Python library is one of a descriptor of the C library. -/
structure SameFields (d : Obus.StructDesc) (desc : StructDesc) : Prop where
  ok : d.Ok
  fields : ∀ f ∈ desc.fieldsDesc, ∃ g ∈ d, SameField g f

section Fields

variable {fl : Floats} {d : Obus.StructDesc} {st : ObusStruct} {f : FieldDesc}

lemma find?_sameField {g : Obus.FieldDesc} (hd : d.Ok) (hg : g ∈ d) (hsame : SameField g f) :
    d.find? (fun g => g.uid.toNat = f.uid) = some g := by
  have hfound := find?_uid hd.1 hg
  have hpred : (fun x : Obus.FieldDesc => decide (x.uid = g.uid)) = fun x =>
      decide (x.uid.toNat = f.uid) := by
    funext x
    rw [hsame.uid]
    simp only [UInt16.toNat_inj]
  rwa [hpred] at hfound

lemma sentSlot_eq {g : Obus.FieldDesc} (hd : d.Ok) (hg : g ∈ d) (hsame : SameField g f) :
    sentSlot fl d st f =
      (sentField fl f g.type ((st.fields f.name).getD .none)).map fun p =>
        (⟨g, true, p.1⟩, p.2) := by
  unfold sentSlot
  rw [find?_sameField hd hg hsame]
  rfl

/-- What is found for a field has its uid and its value. -/
lemma sentSlot_spec {p : Slot × List UInt8} (h : sentSlot fl d st f = some p) :
    p.1.desc ∈ d ∧ p.1.desc.uid.toNat = f.uid ∧ p.1.has = true ∧
      sentField fl f p.1.desc.type ((st.fields f.name).getD .none) = some (p.1.val, p.2) := by
  obtain ⟨g, hfound, hmap⟩ := Option.bind_eq_some_iff.mp h
  obtain ⟨q, hq, rfl⟩ := Option.map_eq_some_iff.mp hmap
  have huid := List.find?_some (p := fun g : Obus.FieldDesc => decide (g.uid.toNat = f.uid)) hfound
  exact ⟨List.mem_of_find?_eq_some hfound, of_decide_eq_true huid, rfl, hq⟩

lemma puts_encodeEntry (fl : Floats) (hsame : SameFields d st.desc) (hf : f ∈ st.desc.fieldsDesc) :
    Puts (st.encodeEntry fl f) ((sentSlot fl d st f).map entryBytes) := by
  obtain ⟨g, hg, hfield⟩ := hsame.fields f hf
  have hvalue := puts_encodeValue fl hfield.type ((st.fields f.name).getD .none)
  have hentry := (puts_writeU16 g.uid).bind (f := fun _ => writeU8 g.type.code.toNat >>= fun _ =>
    encodeValue fl f ((st.fields f.name).getD .none))
      ((puts_writeU8 g.type.code).bind (f := fun _ =>
      encodeValue fl f ((st.fields f.name).getD .none)) hvalue)
  have hbytes : both (some (bigEndian 2 g.uid.toNat)) (both (some (bigEndian 1 g.type.code.toNat))
      ((sentField fl f g.type ((st.fields f.name).getD .none)).map Prod.snd)) =
        (sentSlot fl d st f).map entryBytes := by
    rw [sentSlot_eq hsame.ok hg hfield]
    cases sentField fl f g.type ((st.fields f.name).getD .none) with
    | none => rfl
    | some p => rfl
  rw [hbytes, ← hfield.uid, ← hfield.type] at hentry
  exact hentry

/-- There are not more fields than in the other library. -/
lemma SameFields.count_lt (hsame : SameFields d st.desc) :
    (st.desc.fieldsDesc.filter st.hasField).length < 256 ^ 2 := by
  have hsubset : st.desc.fieldsDesc.map FieldDesc.uid ⊆ d.map fun g => g.uid.toNat := by
    intro uid huid
    obtain ⟨f, hf, rfl⟩ := List.mem_map.mp huid
    obtain ⟨g, hg, hfield⟩ := hsame.fields f hf
    exact List.mem_map.mpr ⟨g, hg, hfield.uid.symm⟩
  have hle := (List.subperm_of_subset st.desc.uids hsubset).length_le
  have hlt : (d.map Obus.FieldDesc.uid).length < 2 ^ 16 := UidsOk.length_lt hsame.ok
  rw [List.length_map, List.length_map] at hle
  rw [List.length_map] at hlt
  exact lt_of_le_of_lt ((List.length_filter_le _ _).trans hle) hlt

/-- `encode` writes the fields, or raises an exception if there is one whose value cannot be
written. -/
lemma puts_encode (fl : Floats) (hsame : SameFields d st.desc) :
    Puts (st.encode fl) ((sentSlots fl d st).map slotsBytes) := by
  have hcount := puts_packNat 2 (st.desc.fieldsDesc.filter st.hasField).length
  rw [if_pos hsame.count_lt] at hcount
  have hentries := puts_each (l := st.desc.fieldsDesc.filter st.hasField)
    fun f hf => puts_encodeEntry fl hsame (List.mem_of_mem_filter hf)
  rw [every_sent] at hentries
  have hall := hcount.bind (f := fun _ => each (st.encodeEntry fl)
    (st.desc.fieldsDesc.filter st.hasField)) hentries
  have hbytes : both (some (bigEndian 2 (st.desc.fieldsDesc.filter st.hasField).length))
      (((st.desc.fieldsDesc.filter st.hasField).mapM (sentSlot fl d st)).map fun ps =>
        ps.flatMap entryBytes) =
        (sentSlots fl d st).map slotsBytes := by
    unfold sentSlots
    cases hps : (st.desc.fieldsDesc.filter st.hasField).mapM (sentSlot fl d st) with
    | none => rfl
    | some ps =>
      have hlen := (List.mapM_eq_some_iff.mp hps).length_eq
      rw [Option.map_some, Option.map_some, slotsBytes, ← hlen]
      rfl
  rwa [hbytes] at hall

end Fields

/-! ## The packet -/

section Packets

variable {p : Py Unit} {g : Unit → Py Unit} {o : Option (List UInt8)}

/-- A number that is written over as many bytes. -/
lemma leads_pack_over {k n : ℕ} (hn : n < 256 ^ k) (before after : List UInt8) {old : List UInt8}
    (h : old.length = k) : Fallible.Leads (pack k n) ⟨before ++ (old ++ after), before.length⟩ ()
      ⟨before ++ (bigEndian k n ++ after), before.length + k⟩ := by
  unfold pack
  rw [if_pos ⟨Int.natCast_nonneg n, by exact_mod_cast hn⟩, Int.toNat_natCast]
  have hwrite := leads_write_over (ε := Exc) before after (h.trans (bigEndian_length k n).symm)
  rwa [bigEndian_length] at hwrite

lemma not_leads_pack {k n : ℕ} (hn : ¬n < 256 ^ k) {b b' : Cursor} {u : Unit} :
    ¬Fallible.Leads (pack k n) b u b' := by
  unfold pack
  rw [if_neg fun h => hn (by exact_mod_cast h.2)]
  exact not_leads_fail

lemma leads_tell (b : Cursor) : Fallible.Leads (tell : Py ℕ) b b.pos b := rfl

lemma leads_seek (n : ℕ) (b : Cursor) : Fallible.Leads (seek n : Py Unit) b () ⟨b.data, n⟩ := rfl

/-- A size is written over the marker for it, and the position is kept. -/
lemma writeSizeMarker_spec (data bs : List UInt8) {old : List UInt8} (hold : old.length = 4) :
    (bs.length < 256 ^ 4 → Fallible.Leads (writeSizeMarker data.length)
      ⟨data ++ (old ++ bs), (data ++ (old ++ bs)).length⟩ ()
      ⟨data ++ sizedBytes bs, (data ++ sizedBytes bs).length⟩) ∧
    (¬bs.length < 256 ^ 4 → ∀ u b, ¬Fallible.Leads (writeSizeMarker data.length)
      ⟨data ++ (old ++ bs), (data ++ (old ++ bs)).length⟩ u b) := by
  have hsize : ((data ++ (old ++ bs)).length : ℤ) - data.length - 4 = (bs.length : ℕ) := by
    rw [List.length_append, List.length_append, hold]
    push_cast
    ring
  constructor
  · intro hlt
    refine (leads_tell _).bind ((leads_seek _ _).bind ?_)
    dsimp only
    rw [hsize]
    refine (leads_pack_over hlt data bs hold).bind ?_
    have hlen : (data ++ sizedBytes bs).length = (data ++ (old ++ bs)).length := by
      simp only [sizedBytes, List.length_append, bigEndian_length, hold]
    rw [hlen]
    exact leads_seek _ _
  · intro hle u b h
    obtain ⟨_, _, htell, hrest⟩ := leads_bind.mp h
    obtain ⟨rfl, rfl⟩ := htell.unique (leads_tell _)
    obtain ⟨_, _, hseek, hrest⟩ := leads_bind.mp hrest
    obtain ⟨-, rfl⟩ := hseek.unique (leads_seek _ _)
    obtain ⟨_, _, hwrite, -⟩ := leads_bind.mp hrest
    dsimp only at hwrite
    rw [hsize] at hwrite
    exact not_leads_pack hle hwrite

/-- Bytes behind their size, which is written when they are known. -/
lemma puts_sized (hp : Puts p o) :
    Puts (prepareSizeMarker >>= fun marker => p >>= fun _ => writeSizeMarker marker)
      (o.bind fun bs => if bs.length < 256 ^ 4 then some (sizedBytes bs) else none) := by
  have hmarker : ∀ data : List UInt8, Fallible.Leads prepareSizeMarker
      ⟨data, data.length⟩ data.length
      ⟨data ++ bigEndian 4 0, (data ++ bigEndian 4 0).length⟩ := by
    intro data
    exact (leads_tell _).bind
      (Fallible.Leads.bind (puts_packNat 4 0 data) (leads_pure.mpr ⟨rfl, rfl⟩))
  have hleads : ∀ data u b,
      Fallible.Leads (prepareSizeMarker >>= fun marker => p >>= fun _ => writeSizeMarker marker)
      ⟨data, data.length⟩ u b ↔
      ∃ t, Fallible.Leads p ⟨data ++ bigEndian 4 0, (data ++ bigEndian 4 0).length⟩ () t ∧
        Fallible.Leads (writeSizeMarker data.length) t u b := by
    intro data u b
    constructor
    · intro h
      obtain ⟨_, _, hfirst, hrest⟩ := leads_bind.mp h
      obtain ⟨rfl, rfl⟩ := hfirst.unique (hmarker data)
      obtain ⟨⟨⟩, t, hmid, hlast⟩ := leads_bind.mp hrest
      exact ⟨t, hmid, hlast⟩
    · rintro ⟨t, hmid, hlast⟩
      exact (hmarker data).bind (hmid.bind hlast)
  cases o with
  | none =>
    intro data u b h
    obtain ⟨t, hmid, -⟩ := (hleads data u b).mp h
    exact hp _ _ _ hmid
  | some bs =>
    change Puts _ (if bs.length < 256 ^ 4 then some (sizedBytes bs) else none)
    split_ifs with hlt
    · intro data
      have hmid := hp (data ++ bigEndian 4 0)
      rw [List.append_assoc] at hmid
      exact (hleads data () _).mpr
        ⟨_, hmid, (writeSizeMarker_spec data bs (bigEndian_length 4 0)).1 hlt⟩
    · intro data u b h
      obtain ⟨t, hmid, hlast⟩ := (hleads data u b).mp h
      obtain ⟨-, rfl⟩ := hmid.unique (hp (data ++ bigEndian 4 0))
      rw [List.append_assoc] at hlast
      exact (writeSizeMarker_spec data bs (bigEndian_length 4 0)).2 hlt u b hlast

/-- The header is written over the zeros in front of a packet. -/
lemma finalizeHeader_spec (type : PacketType) (bs : List UInt8) (pos : ℕ) :
    (pktHdrSize + bs.length < 256 ^ 4 → ∃ pos', Fallible.Leads (finalizeHeader type)
      ⟨List.replicate 9 0 ++ bs, pos⟩ () ⟨headerBytes (pktHdrSize + bs.length) type ++ bs, pos'⟩) ∧
    (¬pktHdrSize + bs.length < 256 ^ 4 → ∀ u b, ¬Fallible.Leads (finalizeHeader type)
      ⟨List.replicate 9 0 ++ bs, pos⟩ u b) := by
  have hlength : Fallible.Leads (length : Py ℕ) ⟨List.replicate 9 0 ++ bs, pos⟩
      (pktHdrSize + bs.length)
      ⟨List.replicate 9 0 ++ bs, pos⟩ := by
    have hlen : (List.replicate 9 (0 : UInt8) ++ bs).length = pktHdrSize + bs.length := by
      rw [List.length_append, List.length_replicate]
    unfold Fallible.Leads length
    rw [hlen]
  have hmagic : Fallible.Leads (writeU32 0x6f627573) ⟨List.replicate 9 0 ++ bs, 0⟩ ()
      ⟨bigEndian 4 obusMagic.toNat ++ (List.replicate 5 0 ++ bs), 4⟩ := by
    have hmagic : obusMagic.toNat = 0x6f627573 := by decide
    have hword : (0x6f627573 : ℤ) = (obusMagic.toNat : ℕ) := by
      rw [hmagic]
      norm_num
    have hover := leads_pack_over obusMagic.toNat_lt [] (List.replicate 5 0 ++ bs)
      (List.length_replicate (n := 4) (a := (0 : UInt8)))
    rw [hword]
    exact hover
  constructor
  · intro hlt
    have hsize : Fallible.Leads (writeU32 (pktHdrSize + bs.length : ℕ))
        ⟨bigEndian 4 obusMagic.toNat ++ (List.replicate 5 0 ++ bs), 4⟩ ()
        ⟨bigEndian 4 obusMagic.toNat ++
          (bigEndian 4 (pktHdrSize + bs.length) ++ (List.replicate 1 0 ++ bs)), 8⟩ := by
      have hover := leads_pack_over hlt (bigEndian 4 obusMagic.toNat) (List.replicate 1 0 ++ bs)
        (List.length_replicate (n := 4) (a := (0 : UInt8)))
      rw [bigEndian_length] at hover
      exact hover
    have hcode : Fallible.Leads (writeU8 type.code.toNat)
        ⟨bigEndian 4 obusMagic.toNat ++
          (bigEndian 4 (pktHdrSize + bs.length) ++ (List.replicate 1 0 ++ bs)), 8⟩ ()
        ⟨headerBytes (pktHdrSize + bs.length) type ++ bs, 9⟩ := by
      have hover := leads_pack_over (k := 1) (n := type.code.toNat) type.code.toNat_lt
        (bigEndian 4 obusMagic.toNat ++ bigEndian 4 (pktHdrSize + bs.length)) bs
        (List.length_replicate (n := 1) (a := (0 : UInt8)))
      rw [List.length_append, bigEndian_length, bigEndian_length] at hover
      unfold headerBytes
      simp only [List.append_assoc] at hover ⊢
      exact hover
    exact ⟨9, hlength.bind ((leads_seek _ _).bind (hmagic.bind (hsize.bind hcode)))⟩
  · intro hle u b h
    obtain ⟨_, _, hfirst, hrest⟩ := leads_bind.mp h
    obtain ⟨rfl, rfl⟩ := hfirst.unique hlength
    obtain ⟨_, _, hseek, hrest⟩ := leads_bind.mp hrest
    obtain ⟨-, rfl⟩ := hseek.unique (leads_seek _ _)
    obtain ⟨_, _, -, hrest⟩ := leads_bind.mp hrest
    obtain ⟨_, _, hsize, -⟩ := leads_bind.mp hrest
    exact not_leads_pack hle hsize

/-- What is written behind the gap for the header, which the first number fills with zeros. -/
lemma pack_gap (k : ℕ) (n : ℤ) :
    (pack k n >>= g) ⟨[], 9⟩ = (pack k n >>= g) ⟨List.replicate 9 0, 9⟩ := by
  have hfirst : pack k n ⟨[], 9⟩ = pack k n ⟨List.replicate 9 0, 9⟩ := by
    unfold pack
    split_ifs
    · exact write_gap 9 _
    · rfl
  cases hpack : pack k n ⟨[], 9⟩ with
  | error e => rw [bind_of_error hpack, bind_of_error (hfirst ▸ hpack)]
  | ok r => rw [bind_of_ok hpack, bind_of_ok (hfirst ▸ hpack)]

/-- A packet is its body, behind the gap, with its header. -/
lemma txPacket_eq_ok {type : PacketType} {packet : List UInt8} : txPacket type p = .ok packet ↔
    ∃ t b, Fallible.Leads p ⟨[], 9⟩ () t ∧ Fallible.Leads (finalizeHeader type) t () b ∧
    b.data = packet := by
  have hskip : Fallible.Leads (skip 9) ⟨[], 0⟩ () ⟨[], 9⟩ := rfl
  unfold txPacket
  cases hrun : (do skip 9; p; finalizeHeader type : Py Unit) ⟨[], 0⟩ with
  | error e =>
    constructor
    · intro heq
      cases heq
    · rintro ⟨t, b, hbody, hlast, -⟩
      have hb : Fallible.Leads (do skip 9; p; finalizeHeader type : Py Unit) ⟨[], 0⟩ () b :=
        hskip.bind (hbody.bind hlast)
      rw [Fallible.Leads, hrun] at hb
      cases hb
  | ok r =>
    obtain ⟨⟨⟩, b⟩ := r
    obtain ⟨_, _, hfirst, hrest⟩ := leads_bind.mp hrun
    obtain ⟨-, rfl⟩ := hfirst.unique hskip
    obtain ⟨⟨⟩, t, hbody, hlast⟩ := leads_bind.mp hrest
    constructor
    · intro heq
      exact ⟨t, b, hbody, hlast, Except.ok.inj heq⟩
    · rintro ⟨t', b', hbody', hlast', rfl⟩
      obtain ⟨-, rfl⟩ := hbody.unique hbody'
      obtain ⟨-, rfl⟩ := hlast.unique hlast'
      rfl

/-- A packet whose body starts with a number has its header, if the bytes can be written and their
size is below `2 ^ 32`. -/
lemma txPacket_iff {k : ℕ} {n : ℤ} (h : Puts (pack k n >>= g) o) {type : PacketType}
    {packet : List UInt8} :
    txPacket type (pack k n >>= g) = .ok packet ↔ ∃ bs, o = some bs ∧
    pktHdrSize + bs.length < 256 ^ 4 ∧
      packet = headerBytes (pktHdrSize + bs.length) type ++ bs := by
  have hbody : ∀ t, Fallible.Leads (pack k n >>= g) ⟨[], 9⟩ () t ↔
      ∃ bs, o = some bs ∧ t = ⟨List.replicate 9 0 ++ bs,
        (List.replicate 9 (0 : UInt8) ++ bs).length⟩ := by
    intro t
    have hleads : Fallible.Leads (pack k n >>= g) ⟨[], 9⟩ () t ↔
        Fallible.Leads (pack k n >>= g) ⟨List.replicate 9 0, 9⟩ () t := by
      unfold Fallible.Leads
      rw [pack_gap]
    rw [hleads]
    cases o with
    | none =>
      constructor
      · intro ht
        refine absurd ?_ (h (List.replicate 9 0) () t)
        rw [List.length_replicate]
        exact ht
      · rintro ⟨bs, ⟨⟩, -⟩
    | some bs =>
      have hput := h (List.replicate 9 0)
      rw [List.length_replicate] at hput
      constructor
      · intro ht
        exact ⟨bs, rfl, (ht.unique hput).2⟩
      · rintro ⟨_, ⟨⟩, rfl⟩
        exact hput
  rw [txPacket_eq_ok]
  constructor
  · rintro ⟨t, b, hfirst, hlast, rfl⟩
    obtain ⟨bs, rfl, rfl⟩ := (hbody t).mp hfirst
    by_cases hlt : pktHdrSize + bs.length < 256 ^ 4
    · obtain ⟨pos', hheader⟩ := (finalizeHeader_spec type bs _).1 hlt
      obtain ⟨-, rfl⟩ := hlast.unique hheader
      exact ⟨bs, rfl, hlt, rfl⟩
    · exact absurd hlast ((finalizeHeader_spec type bs _).2 hlt _ _)
  · rintro ⟨bs, rfl, hlt, rfl⟩
    obtain ⟨pos', hheader⟩ := (finalizeHeader_spec type bs _).1 hlt
    exact ⟨_, _, (hbody _).mpr ⟨bs, rfl, rfl⟩, hheader, rfl⟩

end Packets
/-! ## What the values are received as -/

/-- What the C library makes of a value of Python: the number that it is taken for, the number of
the label, the characters in front of the first NUL, or whether it is `True`. -/
def ItemReceived (fl : Floats) (f : FieldDesc) : (t : BaseType) → t.Cell → Value → Prop
  | .u8, c, v => packInt fl v = .ok (UInt8.toNat c)
  | .i8, c, v => packInt fl v = .ok (UInt8.toBitVec c).toInt
  | .u16, c, v => packInt fl v = .ok (UInt16.toNat c)
  | .i16, c, v => packInt fl v = .ok (UInt16.toBitVec c).toInt
  | .u32, c, v => packInt fl v = .ok (UInt32.toNat c)
  | .i32, c, v => packInt fl v = .ok (UInt32.toBitVec c).toInt
  | .u64, c, v => packInt fl v = .ok (UInt64.toNat c)
  | .i64, c, v => packInt fl v = .ok (UInt64.toBitVec c).toInt
  | .enum, c, v => f.toInt v = .ok (UInt32.toBitVec c).toInt
  | .string, c, v => v = .none ∧ c = none ∨
      ∃ s, (v = .str s ∨ ∃ u, v = .unicode u ∧ asciiBytes u = some s) ∧ c = some (CString.ofBytes s)
  | .bool, c, v => c = (1 : UInt8) ∧ v = .bool true ∨ c = (0 : UInt8) ∧ v ≠ .bool true
  | .f32, c, v => ∃ bits, packFloat fl v = .ok bits ∧ fl.narrow bits = some c
  | .f64, c, v => packFloat fl v = .ok c

/-- What the C library makes of a value for a field. -/
def FieldReceived (fl : Floats) (f : FieldDesc) : (t : Obus.FieldType) → t.Val → Value → Prop
  | .value t, c, v => ItemReceived fl f t c v
  | .array t, a, v =>
    a.nItems.toNat = a.items.length ∧ ∃ l, v.items = .ok l ∧
    List.Forall₂ (ItemReceived fl f t) a.items l

section Received

variable {fl : Floats} {f : FieldDesc}

lemma unsignedWord_spec {k w : ℕ} {n : ℤ} (h : unsignedWord k n = some w) :
    w < 256 ^ k ∧ n = (w : ℕ) := by
  unfold unsignedWord at h
  split_ifs at h with hn
  obtain rfl := Option.some.inj h
  have hcast : ((n.toNat : ℕ) : ℤ) = n := Int.toNat_of_nonneg hn.1
  exact ⟨by exact_mod_cast hcast ▸ hn.2, hcast.symm⟩

lemma signedWord_spec {k w : ℕ} {n : ℤ} (h : signedWord k n = some w) :
    w < 256 ^ k ∧ n = toSigned k w := by
  unfold signedWord at h
  split_ifs at h with hn
  obtain rfl := Option.some.inj h
  have hpos : (0 : ℤ) < 256 ^ k := by positivity
  have hnonneg := Int.emod_nonneg n hpos.ne'
  have hlt := Int.emod_lt_of_pos n hpos
  have hcast : (((n % 256 ^ k).toNat : ℕ) : ℤ) = n % 256 ^ k := Int.toNat_of_nonneg hnonneg
  refine ⟨by exact_mod_cast hcast ▸ hlt, ?_⟩
  unfold toSigned
  by_cases hsign : 0 ≤ n
  · have hmod : n % 256 ^ k = n := Int.emod_eq_of_lt hsign (by omega)
    rw [hmod] at hcast ⊢
    rw [if_pos (by have h2 := hn.2; rw [← hcast] at h2; exact_mod_cast h2), hcast]
  · have hmod : n % 256 ^ k = n + 256 ^ k := by
      rw [← Int.add_emod_right]
      exact Int.emod_eq_of_lt (by omega) (by omega)
    have hbig : ¬2 * (n % 256 ^ k).toNat < 256 ^ k := by
      intro hlt2
      have hlt3 : (2 : ℤ) * (n % 256 ^ k) < 256 ^ k := by
        rw [← hcast]
        exact_mod_cast hlt2
      rw [hmod] at hlt3
      omega
    rw [if_neg hbig, hcast, hmod]
    ring

/-- A word that is sent for a computed number. -/
lemma sentWord_spec {α β : Type} {cell : ℕ → β} {k : ℕ} {r : Except Exc α} {word : α → Option ℕ}
    {p : β × List UInt8}
    (h : sentWord cell k (r.toOption.bind word) = some p) : ∃ a w, r = .ok a ∧ word a = some w ∧
    p.1 = cell w := by
  obtain ⟨w, hw, rfl⟩ := Option.map_eq_some_iff.mp h
  obtain ⟨a, ha, hword⟩ := Option.bind_eq_some_iff.mp hw
  cases r with
  | error e => cases ha
  | ok b =>
    obtain rfl := Option.some.inj ha
    exact ⟨b, w, rfl, hword, rfl⟩

/-- An unsigned number is received as the one that was sent. -/
lemma sentWord_unsigned {β : Type} {cell : ℕ → β} {num : β → ℕ} {k : ℕ} {r : Except Exc ℤ}
    {p : β × List UInt8}
    (hcell : ∀ w < 256 ^ k, num (cell w) = w)
    (h : sentWord cell k (r.toOption.bind (unsignedWord k)) = some p) : r = .ok (num p.1 : ℤ) := by
  obtain ⟨n, w, hn, hw, hp⟩ := sentWord_spec h
  obtain ⟨hlt, rfl⟩ := unsignedWord_spec hw
  rw [hn, hp, hcell w hlt]

/-- A signed number is received as the one that was sent. -/
lemma sentWord_signed {β : Type} {cell : ℕ → β} (num : β → ℤ) {k : ℕ} {r : Except Exc ℤ}
    {p : β × List UInt8}
    (hcell : ∀ w < 256 ^ k, num (cell w) = toSigned k w)
    (h : sentWord cell k (r.toOption.bind (signedWord k)) = some p) : r = .ok (num p.1) := by
  obtain ⟨n, w, hn, hw, hp⟩ := sentWord_spec h
  obtain ⟨hlt, rfl⟩ := signedWord_spec hw
  rw [hn, hp, hcell w hlt]

lemma fst_of_sentBytes {s : List UInt8} {p : Option CString × List UInt8}
    (h : sentBytes s = some p) : p.1 = some (CString.ofBytes s) := by
  unfold sentBytes at h
  split_ifs at h
  rw [← Option.some.inj h]

/-- A value that is sent is received as what it is. -/
lemma sentValue_received {t : BaseType} {v : Value} {p : t.Cell × List UInt8}
    (h : sentValue fl f t v = some p) : ItemReceived fl f t p.1 v := by
  have hnat8 : ∀ w < 256 ^ 1, (UInt8.ofNat w).toNat = w := fun w hw => UInt8.toNat_ofNat_of_lt' hw
  have hnat16 : ∀ w < 256 ^ 2, (UInt16.ofNat w).toNat = w :=
    fun w hw => UInt16.toNat_ofNat_of_lt' hw
  have hnat32 : ∀ w < 256 ^ 4, (UInt32.ofNat w).toNat = w :=
    fun w hw => UInt32.toNat_ofNat_of_lt' hw
  have hnat64 : ∀ w < 256 ^ 8, (UInt64.ofNat w).toNat = w :=
    fun w hw => UInt64.toNat_ofNat_of_lt' hw
  have hint8 : ∀ w < 256 ^ 1, (UInt8.ofNat w).toBitVec.toInt = toSigned 1 w := fun w hw => by
    rw [← toSigned_eq_toInt8, hnat8 w hw]
  have hint16 : ∀ w < 256 ^ 2, (UInt16.ofNat w).toBitVec.toInt = toSigned 2 w := fun w hw => by
    rw [← toSigned_eq_toInt16, hnat16 w hw]
  have hint32 : ∀ w < 256 ^ 4, (UInt32.ofNat w).toBitVec.toInt = toSigned 4 w := fun w hw => by
    rw [← toSigned_eq_toInt32, hnat32 w hw]
  have hint64 : ∀ w < 256 ^ 8, (UInt64.ofNat w).toBitVec.toInt = toSigned 8 w := fun w hw => by
    rw [← toSigned_eq_toInt64, hnat64 w hw]
  cases t with
  | u8 => exact sentWord_unsigned hnat8 h
  | u16 => exact sentWord_unsigned hnat16 h
  | u32 => exact sentWord_unsigned hnat32 h
  | u64 => exact sentWord_unsigned hnat64 h
  | i8 => exact sentWord_signed (fun c : UInt8 => c.toBitVec.toInt) hint8 h
  | i16 => exact sentWord_signed (fun c : UInt16 => c.toBitVec.toInt) hint16 h
  | i32 => exact sentWord_signed (fun c : UInt32 => c.toBitVec.toInt) hint32 h
  | i64 => exact sentWord_signed (fun c : UInt64 => c.toBitVec.toInt) hint64 h
  | enum => exact sentWord_signed (fun c : UInt32 => c.toBitVec.toInt) hint32 h
  | bool =>
    obtain rfl := Option.some.inj h
    by_cases hv : v = .bool true
    · subst hv
      exact Or.inl ⟨rfl, rfl⟩
    · refine Or.inr ⟨?_, hv⟩
      have hword : boolWord v = 0 := by
        cases v with
        | bool b =>
          cases b with
          | true => exact absurd rfl hv
          | false => rfl
        | none | int _ | float _ | str _ | unicode _ | list _ => rfl
      change UInt8.ofNat (boolWord v) = 0
      rw [hword]
      rfl
  | string =>
    cases v with
    | none =>
      obtain rfl := Option.some.inj h
      exact Or.inl ⟨rfl, rfl⟩
    | str s => exact Or.inr ⟨s, Or.inl rfl, fst_of_sentBytes h⟩
    | unicode u =>
      obtain ⟨s, hs, hsent⟩ := Option.bind_eq_some_iff.mp h
      exact Or.inr ⟨s, Or.inr ⟨u, rfl, hs⟩, fst_of_sentBytes hsent⟩
    | bool _ | int _ | float _ | list _ => cases h
  | f32 =>
    obtain ⟨bits, w, hbits, hw, hp⟩ := sentWord_spec h
    obtain ⟨narrow, hnarrow, rfl⟩ := Option.map_eq_some_iff.mp hw
    refine ⟨bits, hbits, ?_⟩
    rw [hp, hnarrow]
    exact congrArg some (UInt32.ofNat_toNat).symm
  | f64 =>
    obtain ⟨bits, w, hbits, hw, hp⟩ := sentWord_spec h
    obtain rfl := Option.some.inj hw
    change packFloat fl v = .ok p.1
    rw [hbits, hp]
    exact congrArg Except.ok (UInt64.ofNat_toNat).symm

/-- A value of a field that is sent is received as what it is. -/
lemma sentField_received {t : Obus.FieldType} {v : Value} {p : t.Val × List UInt8}
    (h : sentField fl f t v = some p) : FieldReceived fl f t p.1 v := by
  cases t with
  | value t => exact sentValue_received h
  | array t =>
    obtain ⟨l, hl, hitems⟩ := Option.bind_eq_some_iff.mp h
    unfold sentItems at hitems
    split_ifs at hitems with hlen
    obtain ⟨ps, hps, rfl⟩ := Option.map_eq_some_iff.mp hitems
    have hall := List.mapM_eq_some_iff.mp hps
    have hcount : (UInt32.ofNat l.length).toNat = (ps.map Prod.fst).length := by
      rw [UInt32.toNat_ofNat', Nat.mod_eq_of_lt (show l.length < 2 ^ 32 from hlen), List.length_map,
        hall.length_eq]
    refine ⟨hcount, l, ?_, ?_⟩
    · cases hv : v.items with
      | error e =>
        rw [hv] at hl
        cases hl
      | ok l' =>
        rw [hv] at hl
        rw [Option.some.inj hl]
    · change List.Forall₂ _ (ps.map Prod.fst) l
      rw [List.forall₂_map_left_iff]
      exact (hall.imp fun v p hp => sentValue_received hp).flip

end Received

/-! ## The call -/

/-- A call goes to a method of a registered object, and the server knows the fields of its
arguments. -/
structure CallFits (bus : Obus.Bus) (o : Object) (md : Obus.MethodDesc) (call : ObusCall) :
    Prop where
  object : bus.object? o.handle = some o
  method : bus.api.method? o.desc.uid md.uid = some md
  uid : call.obj.desc.uid = o.desc.uid.toNat
  handle : call.obj.handle = o.handle.toNat
  methodUid : call.desc.uid = md.uid.toNat
  fields : SameFields (md.argsDesc.getD []) call.struct.desc

/-- The arguments that arrive are those that the call has. -/
structure ArgsArrive (fl : Floats) (st : ObusStruct) (d : Obus.StructDesc) (args : Struct) :
    Prop where
  desc : args.desc = d
  has : ∀ s ∈ args, s.has = true ↔ ∃ f ∈ st.desc.fieldsDesc, f.uid = s.desc.uid.toNat ∧
  st.hasField f = true
  value : ∀ s ∈ args, ∀ f ∈ st.desc.fieldsDesc, f.uid = s.desc.uid.toNat →
  ∀ v, st.fields f.name = some v →
    FieldReceived fl f s.desc.type s.val v

section Arrives

variable {fl : Floats} {d : Obus.StructDesc} {st : ObusStruct} {l : List (Slot × List UInt8)}

/-- The found fields have distinct uids. -/
lemma sentSlots_nodup (h : sentSlots fl d st = some l) :
    ((l.map Prod.fst).map fun s => s.desc.uid).Nodup := by
  have hall := List.mapM_eq_some_iff.mp h
  have huids : (l.map fun p => p.1.desc.uid.toNat) =
      (st.desc.fieldsDesc.filter st.hasField).map FieldDesc.uid := by
    refine List.forall₂_eq_eq_eq ▸ ?_
    rw [List.forall₂_map_left_iff, List.forall₂_map_right_iff]
    exact (hall.imp fun f p hp => (sentSlot_spec hp).2.1).flip
  have hnodup : (l.map fun p => p.1.desc.uid.toNat).Nodup :=
    huids ▸ st.desc.uids.sublist (List.filter_sublist.map FieldDesc.uid)
  rw [List.map_map]
  refine List.Nodup.of_map UInt16.toNat ?_
  rwa [List.map_map]

/-- A field of the arguments is the one that was found for it, or it stays absent. -/
lemma receive_slots (hd : d.Ok) (h : sentSlots fl d st = some l) {g : Obus.FieldDesc} (hg : g ∈ d) :
    (∃ p ∈ l, p.1.desc = g ∧ Slot.receive (l.map Prod.fst) ⟨g, false, g.type.zero⟩ = p.1) ∨
      Slot.receive (l.map Prod.fst) ⟨g, false, g.type.zero⟩ = ⟨g, false, g.type.zero⟩ ∧
      ∀ p ∈ l, p.1.desc.uid ≠ g.uid := by
  have hall := List.mapM_eq_some_iff.mp h
  unfold Slot.receive
  cases hfind : (l.map Prod.fst).find? fun v => v.desc.uid = g.uid with
  | none =>
    refine Or.inr ⟨rfl, fun p hp heq => ?_⟩
    exact absurd (decide_eq_true heq) (List.find?_eq_none.mp hfind p.1 (List.mem_map_of_mem hp))
  | some v =>
    obtain ⟨p, hp, rfl⟩ := List.mem_map.mp (List.mem_of_find?_eq_some hfind)
    have huid := List.find?_some (p := fun v : Slot => decide (v.desc.uid = g.uid)) hfind
    obtain ⟨f, -, hf⟩ := hall.exists_left hp
    obtain ⟨hmem, -, hhas, hsent⟩ := sentSlot_spec hf
    have hdesc : p.1.desc = g := List.inj_on_of_nodup_map hd.1 hmem hg (of_decide_eq_true huid)
    have hnorm := (sentField_readFrom true hsent).2
    refine Or.inl ⟨p, hp, hdesc, ?_⟩
    have hfill := Slot.fill_of_desc_eq (r := ⟨g, false, g.type.zero⟩) hdesc.symm
    simp only [hfill, Slot.sent, hnorm, ← hhas]

/-- The C library reads the arguments as they were sent. -/
lemma parses_slots (hd : d.Ok) (h : sentSlots fl d st = some l) (hcount : l.length < 2 ^ 16) :
    ∃ args, Parses (structDecode (structZero d)) (slotsBytes l) args ∧ ArgsArrive fl st d args := by
  have hall := List.mapM_eq_some_iff.mp h
  have hread : ∀ p ∈ l, p.1.ReadFrom p.2 := by
    intro p hp
    obtain ⟨f, -, hf⟩ := hall.exists_left hp
    exact (sentField_readFrom _ (sentSlot_spec hf).2.2.2).1
  have hparse := parses_structDecode_fields (structZero d) Prod.fst Prod.snd hcount hread
  have hzero : (structZero d).desc = d := by
    rw [structZero, Struct.desc, List.map_map]
    exact List.map_id d
  have hclear : structClearHasFields (structZero d) = structZero d := by
    rw [structClearHasFields, structZero, List.map_map]
    rfl
  have hnodup : ((structZero d).desc.map Obus.FieldDesc.uid).Nodup := by
    rw [hzero]
    exact hd.1
  rw [hclear, foldl_structReceive_eq_map hnodup (sentSlots_nodup h), structZero,
    List.map_map] at hparse
  refine ⟨_, hparse, ?_, ?_, ?_⟩
  · rw [Struct.desc, List.map_map]
    refine (List.map_congr_left fun g hg => ?_).trans (List.map_id d)
    rcases receive_slots hd h hg with ⟨p, -, hdesc, hslot⟩ | ⟨hslot, -⟩
    · exact (congrArg Slot.desc hslot).trans hdesc
    · exact congrArg Slot.desc hslot
  · intro s hs
    obtain ⟨g, hg, rfl⟩ := List.mem_map.mp hs
    rcases receive_slots hd h hg with ⟨p, hp, hdesc, hslot⟩ | ⟨hslot, hnone⟩
    · obtain ⟨f, hf, hsent⟩ := hall.exists_left hp
      obtain ⟨-, huid, hhas, -⟩ := sentSlot_spec hsent
      rw [Function.comp_apply, hslot]
      exact ⟨fun _ => ⟨f, (List.mem_filter.mp hf).1, huid.symm, (List.mem_filter.mp hf).2⟩,
        fun _ => hhas⟩
    · rw [Function.comp_apply, hslot]
      refine ⟨fun hhas => Bool.noConfusion hhas, ?_⟩
      rintro ⟨f, hf, huid, hhas⟩
      obtain ⟨p, hp, hsent⟩ := hall.exists_right (List.mem_filter.mpr ⟨hf, hhas⟩)
      exact absurd (UInt16.toNat_inj.mp ((sentSlot_spec hsent).2.1.trans huid)) (hnone p hp)
  · intro s hs f hf huid v hv
    obtain ⟨g, hg, rfl⟩ := List.mem_map.mp hs
    have hhas : st.hasField f = true := by
      rw [ObusStruct.hasField, hv]
      rfl
    obtain ⟨p, hp, hsent⟩ := hall.exists_right (List.mem_filter.mpr ⟨hf, hhas⟩)
    obtain ⟨hmem, hpuid, -, hvalue⟩ := sentSlot_spec hsent
    rw [hv] at hvalue
    rcases receive_slots hd h hg with ⟨q, hq, hdesc, hslot⟩ | ⟨hslot, hnone⟩
    · rw [Function.comp_apply, hslot] at huid ⊢
      have hnodup : (l.map fun p => p.1.desc.uid).Nodup := by
        have hslots := sentSlots_nodup h
        rwa [List.map_map] at hslots
      have hsame : p = q := List.inj_on_of_nodup_map hnodup hp hq
        (UInt16.toNat_inj.mp (hpuid.trans huid))
      exact hsame ▸ sentField_received hvalue
    · rw [Function.comp_apply, hslot] at huid
      exact absurd (UInt16.toNat_inj.mp (hpuid.trans huid)) (hnone p hp)

end Arrives

section Call

variable {fl : Floats} {bus : Obus.Bus} {o : Object} {md : Obus.MethodDesc} {call : ObusCall}

/-- The bytes of a call with arguments. -/
def callBody (o : Object) (md : Obus.MethodDesc) (handle : ℕ) (l : List (Slot × List UInt8)) :
    List UInt8 :=
  bigEndian 2 o.desc.uid.toNat ++
    (bigEndian 2 o.handle.toNat ++ (bigEndian 2 md.uid.toNat ++ (bigEndian 2 handle ++
    sizedBytes (slotsBytes l))))

/-- The bytes of a call, if all values have some. -/
def sentCall (fl : Floats) (o : Object) (md : Obus.MethodDesc) (handle : ℕ) (st : ObusStruct) :
    Option (List UInt8) :=
  (sentSlots fl (md.argsDesc.getD []) st).bind fun l =>
    if (slotsBytes l).length < 256 ^ 4 then some (callBody o md handle l) else none

lemma callBody_length (o : Object) (md : Obus.MethodDesc) (handle : ℕ)
    (l : List (Slot × List UInt8)) :
    pktHdrSize + (callBody o md handle l).length = 21 + (slotsBytes l).length := by
  simp only [callBody, sizedBytes, List.length_append, bigEndian_length, pktHdrSize]
  omega

/-- `ObusCall.encode` writes the bytes, or raises an exception if there are none. -/
lemma puts_encodeCall (h : CallFits bus o md call) (hhandle : call.handle < 256 ^ 2) :
    Puts (call.encode fl) (sentCall fl o md call.handle call.struct) := by
  have hstruct := puts_sized (puts_encode fl h.fields)
  have hnumber := puts_packNat 2 call.handle
  rw [if_pos hhandle] at hnumber
  have hbytes : both (some (bigEndian 2 o.desc.uid.toNat)) (both (some (bigEndian 2 o.handle.toNat))
      (both (some (bigEndian 2 md.uid.toNat)) (both (some (bigEndian 2 call.handle))
        (((sentSlots fl (md.argsDesc.getD []) call.struct).map slotsBytes).bind fun bs =>
          if bs.length < 256 ^ 4 then some (sizedBytes bs) else none)))) =
      sentCall fl o md call.handle call.struct := by
    unfold sentCall
    cases sentSlots fl (md.argsDesc.getD []) call.struct with
    | none => rfl
    | some l =>
      rw [Option.map_some, Option.bind_some, Option.bind_some]
      split_ifs
      · rfl
      · rfl
  rw [← hbytes]
  unfold ObusCall.encode
  rw [h.uid, h.handle, h.methodUid]
  exact (puts_writeU16 _).bind
    ((puts_writeU16 _).bind ((puts_writeU16 _).bind (hnumber.bind hstruct)))

end Call

section Main

variable {fl : Floats} {bus : Obus.Bus} {o : Object} {md : Obus.MethodDesc} {call : ObusCall}

lemma nextHandle_lt (c : Client) : c.nextHandle < 256 ^ 2 := by
  unfold Client.nextHandle
  split_ifs with h
  · decide
  · omega

lemma callEncoded_fst (c : Client) (call : ObusCall) (r : Except Exc (List UInt8)) :
    (c.callEncoded call r).1 = r := by
  cases r with
  | ok packet => rfl
  | error e => rfl

/-- A call is sent exactly if all its values can be and its packet is not too long. -/
lemma sendMethodCall_iff (c : Client) (h : CallFits bus o md call) (packet : List UInt8) :
    (c.sendMethodCall fl call).1 = .ok packet ↔
    ∃ l, sentSlots fl (md.argsDesc.getD []) call.struct = some l ∧
      21 + (slotsBytes l).length < 2 ^ 32 ∧
      packet = headerBytes (21 + (slotsBytes l).length) .call ++ callBody o md c.nextHandle l := by
  have hfits : CallFits bus o md { call with handle := c.nextHandle } :=
    ⟨h.object, h.method, h.uid, h.handle, h.methodUid, h.fields⟩
  have hpacket : txPacketCall fl { call with handle := c.nextHandle } = .ok packet ↔
      ∃ bs, sentCall fl o md c.nextHandle call.struct = some bs ∧ pktHdrSize + bs.length < 256 ^ 4 ∧
        packet = headerBytes (pktHdrSize + bs.length) .call ++ bs :=
    txPacket_iff (puts_encodeCall hfits (nextHandle_lt c))
  have hword : (256 : ℕ) ^ 4 = 2 ^ 32 := by norm_num
  rw [Client.sendMethodCall, callEncoded_fst, hpacket, hword]
  constructor
  · rintro ⟨bs, hbs, hlt, rfl⟩
    obtain ⟨l, hl, hif⟩ := Option.bind_eq_some_iff.mp hbs
    split_ifs at hif
    obtain rfl := Option.some.inj hif
    rw [callBody_length] at hlt ⊢
    exact ⟨l, hl, hlt, rfl⟩
  · rintro ⟨l, hl, hlt, rfl⟩
    have hshort : (slotsBytes l).length < 256 ^ 4 := by
      rw [hword]
      exact lt_of_le_of_lt (Nat.le_add_left _ _) hlt
    refine ⟨callBody o md c.nextHandle l, Option.bind_eq_some_iff.mpr ⟨l, hl, if_pos hshort⟩, ?_⟩
    rw [callBody_length]
    exact ⟨hlt, rfl⟩

/-- Bytes behind a header with their size are a frame, which is decoded as the bytes are. -/
lemma frameOf_headerBytes {type : PacketType} {body : List UInt8}
    (hlt : pktHdrSize + body.length < 2 ^ 32) :
    frameOf (headerBytes (pktHdrSize + body.length) type ++ body) =
      some ⟨type, headerBytes (pktHdrSize + body.length) type ++ body⟩ := by
  have hsize : (UInt32.ofNat (pktHdrSize + body.length)).toNat =
      (headerBytes (pktHdrSize + body.length) type ++ body).length := by
    rw [UInt32.toNat_ofNat', Nat.mod_eq_of_lt hlt, List.length_append, headerBytes_length]
  unfold frameOf
  rw [headerOf_headerBytes]
  exact if_pos hsize

lemma decode_headerBytes {type : PacketType} {body : List UInt8} {r : Except Errno PacketInfo}
    (size : ℕ)
    (h : Decodes (packetDecode bus type) body r) :
    (Frame.mk type (headerBytes size type ++ body)).decode bus = r := by
  refine (h (Frame.mk type (headerBytes size type ++ body)).buffer ⟨le_refl _, ?_, [], ?_⟩).1
  · change pktHdrSize + body.length ≤ (headerBytes size type ++ body).length
    rw [List.length_append, headerBytes_length]
  · change _ = (headerBytes size type ++ body).drop pktHdrSize
    rw [List.drop_left' (headerBytes_length _ _), List.append_nil]

/-- The server takes the call off its bytes. -/
lemma decodes_call (h : CallFits bus o md call) (handle : UInt16) {l : List (Slot × List UInt8)}
    (hl : sentSlots fl (md.argsDesc.getD []) call.struct = some l)
    (hlt : (slotsBytes l).length < 2 ^ 32) :
    ∃ args, Option.Rel (ArgsArrive fl call.struct) md.argsDesc args ∧
      Decodes (packetDecode bus .call) (callBody o md handle.toNat l)
        (.ok (.call ⟨o.ref, md, handle, args⟩)) := by
  have hcheck : callCheck bus o.desc.uid o.handle md.uid = some (o.ref, md) := by
    unfold callCheck
    rw [h.object]
    dsimp only
    rw [if_neg (not_not_intro rfl), h.method]
    rfl
  have hcount : l.length < 2 ^ 16 := by
    rw [← (List.mapM_eq_some_iff.mp hl).length_eq]
    exact h.fields.count_lt
  have hargs : ∃ args, Option.Rel (ArgsArrive fl call.struct) md.argsDesc args ∧
      ∃ xs ys, slotsBytes l = xs ++ ys ∧ Parses (argsDecode md.argsDesc) xs args := by
    have hfields := h.fields.ok
    cases hdesc : md.argsDesc with
    | none => exact ⟨none, .none, [], _, rfl, .pure none⟩
    | some d =>
      rw [hdesc] at hl hfields
      obtain ⟨args, hparse, harrive⟩ := parses_slots hfields hl hcount
      exact ⟨some args, .some harrive, _, [], (List.append_nil _).symm, hparse.bind_nil (.pure _)⟩
  obtain ⟨args, hrel, xs, ys, hsplit, hparse⟩ := hargs
  refine ⟨args, hrel, ?_⟩
  have hcall : Parses (callDecode bus) (callBody o md handle.toNat l)
      ((callCheck bus o.desc.uid o.handle md.uid).map fun p => ⟨p.1, p.2, handle, args⟩) := by
    refine @parses_call_of bus _ _ _ _ _ hlt (fun _ => args) fun obj desc hfound => ?_
    rw [hcheck] at hfound
    obtain ⟨rfl, rfl⟩ := Prod.mk.inj (Option.some.inj hfound)
    exact ⟨xs, ys, hsplit, hparse⟩
  rw [hcheck] at hcall
  exact hcall.decodes.orFail.map _

end Main

/-- A call of the Python library is sent exactly if each of its values can be and the packet is
shorter than `2 ^ 32` bytes.  Its packet is then one frame, from which the server takes a call of
this method of this object with the handle of the client, and its arguments are those that the call
has, each with its value. -/
theorem python_call_arrives (fl : Floats) (c : Client) {bus : Obus.Bus} {o : Object}
    {md : Obus.MethodDesc} {call : ObusCall} (h : CallFits bus o md call) :
    ((∃ packet, (c.sendMethodCall fl call).1 = .ok packet) ↔
      ∃ l, sentSlots fl (md.argsDesc.getD []) call.struct = some l ∧
        21 + (slotsBytes l).length < 2 ^ 32) ∧
    ∀ packet, (c.sendMethodCall fl call).1 = .ok packet →
    ∃ frame args, frameOf packet = some frame ∧
      frame.decode bus = .ok (.call ⟨o.ref, md, UInt16.ofNat c.nextHandle, args⟩) ∧
      Option.Rel (ArgsArrive fl call.struct) md.argsDesc args := by
  constructor
  · constructor
    · rintro ⟨packet, hpacket⟩
      obtain ⟨l, hl, hlt, -⟩ := (sendMethodCall_iff c h packet).mp hpacket
      exact ⟨l, hl, hlt⟩
    · rintro ⟨l, hl, hlt⟩
      exact ⟨_, (sendMethodCall_iff c h _).mpr ⟨l, hl, hlt, rfl⟩⟩
  · intro packet hpacket
    obtain ⟨l, hl, hlt, rfl⟩ := (sendMethodCall_iff c h packet).mp hpacket
    have hhandle : (UInt16.ofNat c.nextHandle).toNat = c.nextHandle :=
      UInt16.toNat_ofNat_of_lt' (nextHandle_lt c)
    obtain ⟨args, hargs, hdecodes⟩ := decodes_call h (UInt16.ofNat c.nextHandle) hl
      (lt_of_le_of_lt (Nat.le_add_left _ _) hlt)
    rw [hhandle] at hdecodes
    have hlen := callBody_length o md c.nextHandle l
    rw [← hlen] at hlt ⊢
    exact ⟨_, args, frameOf_headerBytes hlt, decode_headerBytes _ hdecodes, hargs⟩

/-- A method with a number and a text. -/
def noteMethod : Obus.MethodDesc :=
  ⟨2, some [⟨3, .argument, .value .u16, none⟩, ⟨4, .argument, .value .string, none⟩]⟩

/-- An object with this method. -/
def noteObject : Object := ⟨⟨100, [], [], [noteMethod]⟩, 7, true, []⟩

/-- The bus that the object is registered on. -/
def noteBus : Obus.Bus := ⟨⟨nameOf 3, [noteObject.desc], [], 0⟩, [noteObject], [7]⟩

/-- The arguments of the method, in the order of a dictionary. -/
def noteStruct : StructDesc := ⟨[⟨[98], 4, 9, none⟩, ⟨[97], 3, 2, none⟩], by decide⟩

/-- A call with the arguments 513 and "hi". -/
def noteCall : ObusCall where
  desc := ⟨2, noteStruct⟩
  obj := ⟨⟨100, ⟨[], .nil⟩, fun _ => none, fun _ => none⟩, 7, 1⟩
  struct := ((ObusStruct.create noteStruct).setField ⟨[98], 4, 9, none⟩ (.str [104, 105])).setField
    ⟨[97], 3, 2, none⟩ (.int 513)

theorem python_call_arrives_noteCall :
    ∃ packet frame args, ((clientNew textDesc [99]).sendMethodCall zeroFloats noteCall).1 =
      .ok packet ∧
      frameOf packet = some frame ∧
      frame.decode noteBus = .ok (.call ⟨noteObject.ref, noteMethod, 2, args⟩) ∧
      Option.Rel (ArgsArrive zeroFloats noteCall.struct) noteMethod.argsDesc args := by
  have hfits : CallFits noteBus noteObject noteMethod noteCall := by
    refine ⟨rfl, rfl, rfl, rfl, rfl, (by decide), fun f hf => ?_⟩
    have hcases : f = ⟨[98], 4, 9, none⟩ ∨ f = ⟨[97], 3, 2, none⟩ := by
      simpa [noteCall, noteStruct, ObusStruct.create] using hf
    rcases hcases with rfl | rfl
    · exact ⟨⟨4, .argument, .value .string, none⟩,
        List.mem_cons_of_mem _ List.mem_cons_self, rfl, rfl⟩
    · exact ⟨⟨3, .argument, .value .u16, none⟩, List.mem_cons_self, rfl, rfl⟩
  obtain ⟨hsent, harrives⟩ := python_call_arrives zeroFloats (clientNew textDesc [99]) hfits
  have hslots : ∃ l, sentSlots zeroFloats (noteMethod.argsDesc.getD []) noteCall.struct = some l ∧
      21 + (slotsBytes l).length < 2 ^ 32 := ⟨_, rfl, by decide⟩
  obtain ⟨packet, hpacket⟩ := hsent.mpr hslots
  obtain ⟨frame, args, hframe, hdecode, hargs⟩ := harrives packet hpacket
  exact ⟨packet, frame, args, hpacket, hframe, hdecode, hargs⟩

end Obus.Python
