import Obus.RoundTrip

/-!
# Structs between different descriptors

A struct is encoded on the descriptor of the writer and decoded on the descriptor of a reader, which
may lack fields, have others, order them differently, or know a uid with another type.  The reader
gets the fields that both descriptors have in common (`decode_projects`): exactly the bytes of the
writer are consumed, whatever mixture of stored and skipped fields they hold.

A string of `2 ^ 32 - 1` characters needs `2 ^ 32` bytes with its NUL, and its size field says that
it is absent (`long_text_not_projected`).
-/

namespace Obus

/-! ## What a reader takes over -/

/-- The memory of a field, with its type. -/
def Slot.content (s : Slot) : (t : FieldType) × t.Val := ⟨s.desc.type, s.val⟩

/-- What is sent of a field: its memory with booleans normalised. -/
def Slot.sentContent (s : Slot) : (t : FieldType) × t.Val := ⟨s.desc.type, s.desc.type.norm s.val⟩

/-- The field `s` of a reader takes over the field `v` of a writer. -/
def Slot.Takes (s v : Slot) : Prop :=
  v.has = true ∧ v.desc.uid = s.desc.uid ∧ v.desc.type = s.desc.type

/-- What becomes of a field `s` of a reader, when the fields of `w` arrive: it is present exactly if
it takes over a field, and then has the value of that field; otherwise it keeps its memory. -/
structure Slot.Projected (w : Struct) (s s' : Slot) : Prop where
  desc : s'.desc = s.desc
  has : s'.has = true ↔ ∃ v ∈ w, s.Takes v
  value : ∀ v ∈ w, s.Takes v → s'.content = v.sentContent
  kept : s'.has = false → s'.content = s.content

/-! ## Storing the fields of a writer -/

@[simp] lemma Slot.fill_desc (r v : Slot) : (r.fill v).desc = r.desc := by
  unfold Slot.fill
  split <;> rfl

/-- A field that is stored into one with another type is dropped. -/
lemma Slot.fill_of_type_ne {r v : Slot} (h : v.desc.type ≠ r.desc.type) : r.fill v = r := dif_neg h

/-- A field that is stored into one of its type. -/
lemma Slot.fill_of_type_eq {r v : Slot} (h : v.desc.type = r.desc.type) :
    (r.fill v).has = true ∧ (r.fill v).content = v.sentContent := by
  obtain ⟨⟨uid, role, type, drv⟩, has, val⟩ := r
  change v.desc.type = type at h
  subst h
  rw [Slot.fill, dif_pos rfl]
  exact ⟨rfl, rfl⟩

/-- A received field, on a reader with distinct uids. -/
lemma structReceive_eq_map {st : Struct} (hst : (st.desc.map FieldDesc.uid).Nodup) (v : Slot) :
    structReceive st v = st.map fun s => if s.desc.uid = v.desc.uid then s.fill v else s := by
  induction st with
  | nil => rfl
  | cons s st ih =>
    simp only [Struct.desc, List.map_cons, List.nodup_cons] at hst
    rw [structReceive, List.map_cons]
    by_cases huid : s.desc.uid = v.desc.uid
    · have hrest : ∀ s' ∈ st, (if s'.desc.uid = v.desc.uid then s'.fill v else s') = id s' := by
        intro s' hs'
        refine if_neg fun heq => hst.1 ?_
        rw [huid, ← heq, List.map_map]
        exact List.mem_map_of_mem hs'
      rw [if_pos huid, if_pos huid, List.map_congr_left hrest, List.map_id]
    · rw [if_neg huid, if_neg huid, ih hst.2]

/-- The received field with the uid of a field, if there is one, is stored into it. -/
def Slot.receive (l : List Slot) (s : Slot) : Slot :=
  match l.find? fun v => v.desc.uid = s.desc.uid with
  | some v => s.fill v
  | none => s

/-- All received fields, on a reader with distinct uids. -/
lemma foldl_structReceive_eq_map {st : Struct} {l : List Slot}
    (hst : (st.desc.map FieldDesc.uid).Nodup) (hl : (l.map fun v => v.desc.uid).Nodup) :
    l.foldl structReceive st = st.map (Slot.receive l) := by
  induction l generalizing st with
  | nil => exact (List.map_id st).symm
  | cons v l ih =>
    rw [List.map_cons, List.nodup_cons] at hl
    have hdesc : ∀ s : Slot, (if s.desc.uid = v.desc.uid then s.fill v else s).desc = s.desc := by
      intro s
      split
      · exact s.fill_desc v
      · rfl
    have hnext : ((structReceive st v).desc.map FieldDesc.uid).Nodup := by
      have hsame : (structReceive st v).desc = st.desc := by
        rw [structReceive_eq_map hst, Struct.desc, Struct.desc, List.map_map]
        exact List.map_congr_left fun s _ => hdesc s
      rwa [hsame]
    rw [List.foldl_cons, ih hnext hl.2, structReceive_eq_map hst, List.map_map]
    refine List.map_congr_left fun s _ => ?_
    rw [Function.comp_apply, Slot.receive, Slot.receive, hdesc, List.find?_cons]
    by_cases huid : s.desc.uid = v.desc.uid
    · -- no later field has this uid
      have hnone : (l.find? fun w => decide (w.desc.uid = s.desc.uid)) = none := by
        refine List.find?_eq_none.mpr fun w hw heq => hl.1 ?_
        rw [← huid, ← of_decide_eq_true heq]
        exact List.mem_map_of_mem hw
      rw [hnone]
      simp [huid]
    · have hne : decide (v.desc.uid = s.desc.uid) = false := decide_eq_false fun h => huid h.symm
      rw [hne, if_neg huid]

/-- Where the received fields are those that a writer with distinct uids has, a field of a reader is
projected. -/
lemma Slot.receive_projected {w : Struct} (hw : (w.desc.map FieldDesc.uid).Nodup) (s : Slot) :
    s.Projected w (Slot.receive (w.filter Slot.has) { s with has := false }) := by
  rw [Struct.desc, List.map_map] at hw
  have hunique : ∀ v ∈ w, ∀ v' ∈ w, v.desc.uid = v'.desc.uid → v = v' := fun v hv v' hv' heq =>
    List.inj_on_of_nodup_map hw hv hv' heq
  unfold Slot.receive
  split
  · next v hfound =>
    have hmem := List.mem_filter.mp (List.mem_of_find?_eq_some hfound)
    have huid : v.desc.uid = s.desc.uid := by simpa using List.find?_some hfound
    by_cases htype : v.desc.type = s.desc.type
    · obtain ⟨hhas, hcontent⟩ := Slot.fill_of_type_eq (r := { s with has := false }) htype
      refine ⟨Slot.fill_desc _ _,
        ⟨fun _ => ⟨v, hmem.1, hmem.2, huid, htype⟩, fun _ => hhas⟩, ?_, ?_⟩
      · intro v' hv' htakes
        rw [hunique v' hv' v hmem.1 (htakes.2.1.trans huid.symm)]
        exact hcontent
      · intro hno
        rw [hhas] at hno
        cases hno
    · have hsame : Slot.fill { s with has := false } v = { s with has := false } :=
        Slot.fill_of_type_ne htype
      have hnone : ∀ v' ∈ w, ¬s.Takes v' := by
        intro v' hv' htakes
        rw [hunique v' hv' v hmem.1 (htakes.2.1.trans huid.symm)] at htakes
        exact htype htakes.2.2
      rw [hsame]
      exact ⟨rfl, by simpa using hnone, fun v' hv' htakes => absurd htakes (hnone v' hv'),
        fun _ => rfl⟩
  · next hfound =>
    have hnone : ∀ v ∈ w, ¬s.Takes v := by
      intro v hv htakes
      have hmiss := List.find?_eq_none.mp hfound v (List.mem_filter.mpr ⟨hv, htakes.1⟩)
      exact hmiss (decide_eq_true htakes.2.1)
    exact ⟨rfl, by simpa using hnone, fun v hv htakes => absurd htakes (hnone v hv), fun _ => rfl⟩

/-! ## Encoding on one descriptor, decoding on another -/

/-- What a writer encodes is decoded by every reader: the bytes are consumed, and each field of the
reader is projected. -/
theorem decode_projects {w r : Struct} (hw : (w.desc.map FieldDesc.uid).Nodup)
    (hr : (r.desc.map FieldDesc.uid).Nodup) (hlen : w.length < 2 ^ 16)
    (harrays : ∀ s ∈ w, s.has = true → s.desc.type.Ok s.val)
    (hstrings : ∀ s ∈ w, s.has = true → s.desc.type.Fits s.val) {mem : Realloc} {b b' : Buffer}
    (hb : b.Ok) (henc : (structEncode w).on mem b = (.ok (), b')) :
    ∃ bs, b'.content = b.content ++ bs ∧
      ∀ c : Buffer, c.HasNext bs → ∃ r', (structDecode r).on c = (.ok r', c.advance bs.length) ∧
        List.Forall₂ (Slot.Projected w) r r' := by
  have hcarried : w.Carried :=
    ⟨fun s hs hhas => ⟨harrays s hs hhas, hstrings s hs hhas⟩,
      lt_of_le_of_lt List.countP_le_length hlen⟩
  have hcontent : b'.content = b.content ++ structBytes w := by
    rcases writes_struct hcarried mem b hb with ⟨b'', hrun, -, hcontent⟩ | ⟨e, b'', hrun, -⟩
    · rw [henc] at hrun
      cases hrun
      exact hcontent
    · rw [henc] at hrun
      cases hrun
  refine ⟨structBytes w, hcontent, fun c hc => ⟨_, (parses_structDecode r hcarried c hc).1, ?_⟩⟩
  have hclear : ((structClearHasFields r).desc.map FieldDesc.uid).Nodup := by
    have hsame : (structClearHasFields r).desc = r.desc := by
      rw [structClearHasFields, Struct.desc, List.map_map]
      rfl
    rwa [hsame]
  have hsent : ((w.filter Slot.has).map fun v => v.desc.uid).Nodup := by
    rw [Struct.desc, List.map_map] at hw
    exact hw.sublist (List.filter_sublist.map _)
  rw [foldl_structReceive_eq_map hclear hsent, structClearHasFields, List.map_map,
    List.forall₂_map_right_iff]
  exact List.forall₂_same.mpr fun s _ => s.receive_projected hw

/-- A struct with an enumeration, an array of strings and a boolean. -/
def sampleRecord : Struct :=
  [⟨⟨3, .property, .value .enum, some ⟨0, false⟩⟩, true, (9 : UInt32)⟩,
    ⟨⟨5, .property, .array .string, none⟩, true, ⟨2, [some (CString.ofBytes [97, 98]), none]⟩⟩,
    ⟨⟨1, .property, .value .bool, none⟩, true, (5 : UInt8)⟩]

/-- A reader that knows the boolean, another field, and the uid of the enumeration with another
type. -/
def sampleReader : Struct :=
  [⟨⟨1, .property, .value .bool, none⟩, false, (0 : UInt8)⟩,
    ⟨⟨8, .property, .value .u16, none⟩, true, (6 : UInt16)⟩,
    ⟨⟨3, .property, .value .u64, none⟩, true, (4 : UInt64)⟩]

theorem decode_projects_sampleRecord :
    ∃ bs, ((structEncode sampleRecord).on zeroMem ⟨[], 0, 0⟩).2.content = [] ++ bs ∧
      ∀ c : Buffer, c.HasNext bs → ∃ r', (structDecode sampleReader).on c =
        (.ok r', c.advance bs.length) ∧
        List.Forall₂ (Slot.Projected sampleRecord) sampleReader r' := by
  have hslots : ∀ s ∈ sampleRecord, s.Ok := by
    intro s hs
    simp only [sampleRecord, List.mem_cons, List.not_mem_nil, or_false] at hs
    rcases hs with rfl | rfl | rfl
    · exact ⟨trivial, trivial⟩
    · refine ⟨rfl, fun c hc => ?_⟩
      rcases List.mem_cons.mp hc with rfl | hc
      · exact (by decide : (CString.memory (some (CString.ofBytes [97, 98]))).length < 2 ^ 32)
      · rw [List.mem_singleton.mp hc]
        exact (by decide : (CString.memory none).length < 2 ^ 32)
    · exact ⟨trivial, trivial⟩
  have hempty : Buffer.Ok ⟨[], 0, 0⟩ := by decide
  have henc : (structEncode sampleRecord).on zeroMem ⟨[], 0, 0⟩ =
      (.ok (), ((structEncode sampleRecord).on zeroMem ⟨[], 0, 0⟩).2) := Prod.ext (by decide) rfl
  exact decode_projects (by decide) (by decide) (by decide) (fun s hs _ => (hslots s hs).1)
    (fun s hs _ => (hslots s hs).2) hempty henc

/-- A text of `2 ^ 32 - 1` characters is encoded, and every reader with the same descriptor finds it
absent. -/
theorem long_text_not_projected :
    ∃ b', (structEncode (textInfo (some (nameOf (2 ^ 32 - 1))))).on zeroMem ⟨[], 0, 0⟩ =
      (.ok (), b') ∧
      ∀ c : Buffer, c.HasNext b'.content →
        ∃ r', (structDecode (textInfo none)).on c = (.ok r', c.advance b'.content.length) ∧
          ¬List.Forall₂ (Slot.Projected (textInfo (some (nameOf (2 ^ 32 - 1)))))
            (textInfo none) r' := by
  have hlen : (nameOf (2 ^ 32 - 1)).val.length + 1 = 2 ^ 32 := by
    rw [nameOf_length]
    norm_num
  generalize nameOf (2 ^ 32 - 1) = text at hlen ⊢
  rcases writes_textInfo hlen zeroMem ⟨[], 0, 0⟩ (by decide) with ⟨b', hrun, -, hcontent⟩ |
    ⟨e, b', -, n, ⟨⟩⟩
  have habsent : (textInfo none).Carried := by
    refine ⟨fun s hs _ => ?_, by decide⟩
    rw [List.mem_singleton.mp hs]
    exact ⟨trivial, (by decide : (CString.memory none).length < 2 ^ 32)⟩
  refine ⟨b', hrun, fun c hc => ?_⟩
  rw [hcontent] at hc ⊢
  refine ⟨_, (parses_structDecode (textInfo none) habsent c hc).1, fun hall => ?_⟩
  -- the reader has the field, without the text
  obtain ⟨hprojected, -⟩ := List.forall₂_cons.mp hall
  have hvalue := hprojected.value _ (List.mem_singleton_self _) ⟨rfl, rfl, rfl⟩
  cases hvalue

end Obus
