import Obus.Java.Protocol
import Obus.Java.WireFields

/-!
# Objects and events of the C library in the Java library

What `ObusObject.decode` and `ObusEvent.decode` make of the bytes that the encoders of the C library
have written, and what an event does to its object when it is committed: `ObusStruct.merge` copies
the fields for which the event has an object in its table, and these only.

An object or an event whose content is refused is skipped, or an exception ends the decoding; both
times there is nothing that could be registered or committed (`Drops`).
-/

namespace Obus.Java

open Fallible

deriving instance DecidableEq for IdlBase, FieldDesc, StructDesc

/-! ## Merging -/

namespace ObusStruct

/-- An iteration of the loop of `merge`. -/
def mergeField (other s : ObusStruct) (f : FieldDesc) : ObusStruct :=
  if other.hasField f then
    { s with
      fields := Function.update s.fields f.idx (other.fields f.idx)
      fieldsInt := Function.update s.fieldsInt f.idx (other.fieldsInt f.idx) }
  else s

/-- `merge`; `none` is the exception for structures of different descriptors, each of which is one
object. -/
def merge (s other : ObusStruct) : Option ObusStruct :=
  if s.desc = other.desc then some (s.desc.fields.foldl (mergeField other) s) else none

end ObusStruct

/-- An object in the table of a bus. -/
def Bus.put (bus : Bus) (obj : ObusObject) : Bus :=
  { bus with findObject := Function.update bus.findObject obj.handle (some obj) }

/-- `registerObject`; `none` is the exception for an invalid handle, or one that is taken. -/
def Bus.registerObject (bus : Bus) (obj : ObusObject) : Option Bus :=
  if obj.handle = 0 ∨ (bus.findObject obj.handle).isSome then none else some (bus.put obj)

/-- `commit` of an event that is new; its object is the one in the table of the bus. -/
def ObusEvent.commit (evt : ObusEvent) (bus : Bus) : Option Bus :=
  (evt.obj.struct.merge evt.struct).map fun struct => bus.put { evt.obj with struct := struct }

namespace ObusStruct

variable {other s : ObusStruct}

/-- The entries of both tables at an index. -/
def entries (s : ObusStruct) (i : ℕ) : Option Obj × BitVec 32 := (s.fields i, s.fieldsInt i)

lemma entries_mergeField (f : FieldDesc) (i : ℕ) : (mergeField other s f).entries i =
    if i = f.idx ∧ (other.fields i).isSome then other.entries i else s.entries i := by
  unfold mergeField hasField entries
  by_cases hi : i = f.idx
  · subst hi
    cases hsome : (other.fields f.idx).isSome with
    | false => simp
    | true => simp
  · have hcond : ¬(i = f.idx ∧ (other.fields i).isSome = true) := fun h => hi h.1
    rw [if_neg hcond]
    cases hsome : (other.fields f.idx).isSome with
    | false => simp
    | true => simp [hi]

/-- The loop copies the fields of its descriptors that are present. -/
lemma entries_foldl_mergeField (l : List FieldDesc) (i : ℕ) :
    (l.foldl (mergeField other) s).entries i =
    if i ∈ l.map FieldDesc.idx ∧ (other.fields i).isSome then other.entries i else s.entries i := by
  induction l generalizing s with
  | nil => simp
  | cons f l ih =>
    rw [List.foldl_cons, ih, entries_mergeField]
    simp only [List.map_cons, List.mem_cons]
    by_cases htail : i ∈ l.map FieldDesc.idx ∧ (other.fields i).isSome = true
    · rw [if_pos htail, if_pos ⟨Or.inr htail.1, htail.2⟩]
    · rw [if_neg htail]
      refine if_congr ?_ rfl rfl
      exact ⟨fun h => ⟨Or.inl h.1, h.2⟩,
        fun h => ⟨h.1.resolve_right fun hmem => htail ⟨hmem, h.2⟩, h.2⟩⟩

lemma foldl_mergeField_desc (l : List FieldDesc) :
    (l.foldl (mergeField other) s).desc = s.desc := by
  induction l generalizing s with
  | nil => rfl
  | cons f l ih =>
    rw [List.foldl_cons, ih]
    unfold mergeField
    split_ifs <;> rfl

/-- Structures of the same descriptor are merged: what a field reads afterwards is decided by its
presence in the other. -/
lemma merge_spec (h : s.desc = other.desc) : ∃ m, s.merge other = some m ∧ m.desc = s.desc ∧
    ∀ cs, ∀ f ∈ s.desc.fields, m.reading cs f = if other.fields f.idx = none then s.reading cs f
      else other.reading cs f := by
  refine ⟨_, if_pos h, foldl_mergeField_desc _, fun cs f hf => ?_⟩
  have hentries := @entries_foldl_mergeField other s s.desc.fields f.idx
  have hmem : f.idx ∈ s.desc.fields.map FieldDesc.idx := List.mem_map_of_mem hf
  unfold reading
  cases hother : other.fields f.idx with
  | none =>
    rw [if_neg (by simp [hother])] at hentries
    obtain ⟨hfields, hints⟩ := Prod.mk.inj hentries
    rw [hfields, hints, if_pos rfl]
  | some o =>
    rw [if_pos ⟨hmem, by simp [hother]⟩] at hentries
    obtain ⟨hfields, hints⟩ := Prod.mk.inj hentries
    rw [hfields, hints, hother, if_neg (Option.some_ne_none o)]

end ObusStruct

/-! ## Handles -/

/-- A number of 16 bits as an `int`. -/
def word (u : UInt16) : BitVec 32 := BitVec.ofNat 32 u.toNat

lemma toNat_word (u : UInt16) : (word u).toNat = u.toNat :=
  toNat_size (by have := UInt16.toNat_lt u; omega)

lemma word_ne_zero {u : UInt16} (h : u ≠ 0) : word u ≠ 0 := fun h0 => by
  have hnat := toNat_word u
  rw [h0] at hnat
  exact h (UInt16.toNat_inj.mp hnat.symm)

lemma yields_word (u : UInt16) : Yields readU16 (bigEndian 2 u.toNat) (word u) := by
  have hread := yields_readU16 (word u)
  rwa [setWidth_of_lt (by decide) (by rw [toNat_word]; exact UInt16.toNat_lt u),
    toNat_word] at hread

/-! ## Contents -/

/-- A decoder makes nothing of these bytes, wherever they are. -/
def Drops {α : Type} (p : Read (Option α)) (bs : List UInt8) : Prop :=
  ∀ before after a b, ¬Fallible.Leads p ⟨before ++ bs ++ after, before.length⟩ (some a) b

section Contents

variable {α β δ : Type} {cs : Charset} {bs bs' : List UInt8} {d : δ} {structDesc : δ → StructDesc}
  {k : δ → ObusStruct → α}

lemma Yields.drops {p : Read β} {f : β → Read (Option α)} {a : β} (hp : Yields p bs a)
    (hf : Drops (f a) bs') : Drops (p >>= f) (bs ++ bs') := by
  intro before after b t h
  obtain ⟨a', s, hlead, hrest⟩ := leads_bind.mp h
  have hfirst := hp before (bs' ++ after)
  simp only [List.append_assoc] at hfirst hlead hrest
  obtain ⟨rfl, rfl⟩ := hfirst.unique hlead
  refine hf (before ++ bs) after b t ?_
  simpa only [List.append_assoc] using hrest

/-- A content that is read. -/
lemma yields_decodeContent {js : ObusStruct}
    (h : Yields (ObusStruct.decode cs (structDesc d)) bs js)
    (hsmall : bs.length < 2 ^ 31) :
    Yields (decodeContent cs (.ok d) structDesc k) (sizedBytes bs) (some (k d js)) := by
  intro before after
  have hsize := yields_size hsmall before (bs ++ after)
  have hcontent := h (before ++ bigEndian 4 bs.length) after
  simp only [sizedBytes, List.append_assoc] at hsize hcontent ⊢
  unfold decodeContent readU32
  refine hsize.bind ?_
  have hpos : Fallible.Leads getPos
    (⟨before ++ (bigEndian 4 bs.length ++ (bs ++ after)), (before ++ bigEndian 4 bs.length).length⟩
      : RxBuffer) _ _ := rfl
  refine hpos.bind ?_
  have hinner : Fallible.Leads (do
      let d ← eval (.ok d : Except Exc δ)
      let struct ← ObusStruct.decode cs (structDesc d)
      pure (k d struct)) ⟨before ++ (bigEndian 4 bs.length ++ (bs ++ after)),
        (before ++ bigEndian 4 bs.length).length⟩
      (k d js) _ :=
    (show Fallible.Leads (eval (.ok d : Except Exc δ)) _ d _ from rfl).bind
      (hcontent.bind (leads_pure.mpr ⟨rfl, rfl⟩))
  unfold Fallible.Leads at hinner ⊢
  rw [recovering, hinner]

/-- A content that is refused. -/
lemma drops_decodeContent (h : Rejects (ObusStruct.decode cs (structDesc d)) bs)
    (hsmall : bs.length < 2 ^ 31) :
    Drops (decodeContent cs (.ok d) structDesc k) (sizedBytes bs) := by
  unfold decodeContent readU32 sizedBytes
  refine (yields_size hsmall).drops fun before after a t hlead => ?_
  obtain ⟨pos, b, hpos, hlead⟩ := leads_bind.mp hlead
  cases hpos
  unfold Fallible.Leads recovering at hlead
  split at hlead
  · next r b' hinner =>
    cases hlead
    obtain ⟨d', b, hdesc, hinner⟩ := leads_bind.mp (show Fallible.Leads _ _ _ _ from hinner)
    cases hdesc
    obtain ⟨js, b, hdecode, -⟩ := leads_bind.mp hinner
    exact h _ _ _ _ hdecode
  · next e hinner =>
    obtain ⟨u, -, hnone⟩ := leads_map.mp hlead
    cases hnone
  · cases hlead

end Contents

/-! ## Objects and events -/

section Payloads

variable {cs : Charset} {bus : Bus} {o : Object} {e : Event} {jd : ObjectDesc} {jobj : ObusObject}
  {je : EventDesc}

/-- An object is read if its structure is. -/
lemma yields_objectWire {js : ObusStruct} (hdesc : bus.desc.objectsDesc (word o.desc.uid) = some jd)
    (h : Yields (ObusStruct.decode cs jd.structDesc) (structWire o.info) js)
    (hsmall : (structWire o.info).length < 2 ^ 31) :
    Yields (ObusObject.decode cs bus) (objectWire o) (some ⟨jd, word o.handle, js⟩) := by
  unfold ObusObject.decode objectWire
  refine (yields_word _).bind ((yields_word _).bind ?_)
  rw [hdesc]
  exact yields_decodeContent h hsmall

lemma drops_objectWire (hdesc : bus.desc.objectsDesc (word o.desc.uid) = some jd)
    (h : Rejects (ObusStruct.decode cs jd.structDesc) (structWire o.info))
    (hsmall : (structWire o.info).length < 2 ^ 31) :
    Drops (ObusObject.decode cs bus) (objectWire o) := by
  unfold ObusObject.decode objectWire
  refine (yields_word _).drops ((yields_word _).drops ?_)
  rw [hdesc]
  exact drops_decodeContent h hsmall

/-- The bus has the object of an event, and the object the descriptor of the event. -/
structure KnownTo (bus : Bus) (e : Event) (jobj : ObusObject) (je : EventDesc) : Prop where
  obj : bus.findObject (word e.obj.handle) = some jobj
  uid : jobj.uid = word e.obj.desc.uid
  desc : jobj.desc.eventsDesc (word e.desc.uid) = some je

lemma KnownTo.eventDesc_eq (h : KnownTo bus e jobj je) :
    eventDesc bus (word e.obj.desc.uid) (word e.obj.handle) (word e.desc.uid) = .ok (jobj, je) := by
  have hobj : findChecked bus (word e.obj.desc.uid) (word e.obj.handle) = .ok jobj := by
    rw [findChecked, h.obj]
    exact if_neg (not_not.mpr h.uid)
  rw [eventDesc, hobj]
  change (do
    let d ← descriptorFor (word e.desc.uid) (jobj.desc.eventsDesc (word e.desc.uid))
    pure (jobj, d) : Except Exc _) = _
  rw [h.desc]
  rfl

/-- An event is read if its structure is. -/
lemma yields_eventWire {js : ObusStruct} (hknown : KnownTo bus e jobj je)
    (h : Yields (ObusStruct.decode cs je.structDesc) (structWire e.info) js)
    (hsmall : (structWire e.info).length < 2 ^ 31) :
    Yields (ObusEvent.decode cs bus) (eventWire e) (some ⟨je, jobj, js⟩) := by
  unfold ObusEvent.decode eventWire
  refine (yields_word _).bind ((yields_word _).bind ((yields_word _).bind ?_))
  rw [hknown.eventDesc_eq]
  exact yields_decodeContent (k := fun d struct => ObusEvent.mk d.2 d.1 struct)
    (d := (jobj, je)) h hsmall

lemma drops_eventWire (hknown : KnownTo bus e jobj je)
    (h : Rejects (ObusStruct.decode cs je.structDesc) (structWire e.info))
    (hsmall : (structWire e.info).length < 2 ^ 31) :
    Drops (ObusEvent.decode cs bus) (eventWire e) := by
  unfold ObusEvent.decode eventWire
  refine (yields_word _).drops ((yields_word _).drops ((yields_word _).drops ?_))
  rw [hknown.eventDesc_eq]
  exact drops_decodeContent (d := (jobj, je)) h hsmall

end Payloads

end Obus.Java
