import Obus.AliasedMerge

/-!
# The laws of a merge

Where the memory of the source is its own, a merge always goes right, and what it does is told by
the fields that the source has: these are taken over, all others keep their presence bit and their
memory, and the source does not change (`Merged`).  From this a second merge of the same source
changes nothing, and two merges are one merge of the second source over the first (`merge_laws`).

The counter of the loop has 16 bits: on a struct with `2 ^ 16` fields it never gets to the end
(`merge_of_many_fields_diverges`).
-/

namespace Obus

/-- A field with absent strings taken for empty ones. -/
def Slot.plain (s : Slot) : Slot := { s with val := s.desc.type.plain s.val }

namespace Memory

variable {d : StructDesc}

/-- Two structs share no string. -/
def Apart (a b : StructMem d) : Prop := ∀ j k, ∀ l ∈ ptrs a j, l ∉ ptrs b k

lemma Apart.symm {a b : StructMem d} (h : Apart a b) : Apart b a :=
  fun j k l hl hl' => h k j l hl' hl

/-- A merge of structs that share no array, with memory for all copies. -/
def Merges (dst src : StructMem d) (h : StringHeap) (dst' : StructMem d) (h' : StringHeap) : Prop :=
  ∀ fuel > d.length, structMerge (fun _ => true) (fun _ => false) fuel dst src h =
    some (.ok (), dst', h')

/-- What a merge of a struct with memory of its own does. -/
structure Merged (h : StringHeap) (dst src : StructMem d) (h' : StringHeap) (dst' : StructMem d) :
    Prop where
  has : ∀ k : Fin d.length, hasField dst' k = (hasField src k || hasField dst k)
  taken : ∀ k : Fin d.length, hasField src k = true →
    (d.get k).type.plain (value h' dst' k) = Obus.fieldCopy (d.get k).type (value h src k)
  untouched : ∀ k : Fin d.length, hasField src k = false → dst'.vals k = dst.vals k ∧
  value h' dst' k = value h dst k
  source : ∀ k, value h' src k = value h src k

/-- The fields of two structs are the same, absent strings taken for empty ones. -/
def SameFields (h : StringHeap) (a : StructMem d) (h' : StringHeap) (b : StructMem d) : Prop :=
  ∀ k : Fin d.length, hasField a k = hasField b k ∧
    (d.get k).type.plain (value h a k) = (d.get k).type.plain (value h' b k)

/-- A struct that has nothing to do with a merge. -/
structure Bystander (st : StructMem d) (h h' : StringHeap) (dst' : StructMem d) : Prop where
  sound : Sound h' st
  value : ∀ k, value h' st k = value h st k
  apart : Apart dst' st

variable {h h' : StringHeap} {dst src dst' : StructMem d}

lemma Apart.usable (hsrc : Sound h src) : Usable h (fun _ => false) dst src :=
  ⟨fun k => readable_of_rep (hsrc.rep k) fun h => absurd h Bool.false_ne_true, fun k l hl =>
    hsrc.owned.live k l (sourcePtrs_subset hl)⟩

lemma Apart.safe (hapart : Apart dst src) (h : StringHeap) (wanted : ℕ → Bool) :
    MergeSafe h (fun _ => false) wanted dst src :=
  ⟨fun j k _ _ _ _ hl hfree => hapart j k _ hfree.1 (sourcePtrs_subset hl),
    fun _ _ hsh => absurd hsh Bool.false_ne_true⟩

/-- With memory for all copies a merge ends. -/
lemma merges_of_length_lt (hd : d.length < 2 ^ 16) (dst src : StructMem d) (h : StringHeap) :
    ∃ dst' h', Merges dst src h dst' h' := by
  obtain ⟨⟨r, dst', h'⟩, hrun⟩ : ∃ r, structMerge (fun _ => true) (fun _ => false)
    (d.length + 1) dst src h = some r :=
    copyFields_ends hd (d.length + 1) (Nat.zero_le _) (Nat.lt_succ_self _) dst h
  have hok : r = .ok () := by
    have hend := copyFields_rule (I := fun _ _ _ => True) (E := fun _ _ => False)
      (fun _ _ _ _ _ _ => trivial)
      (fun _ _ _ _ _ _ _ _ _ => trivial) (fun i hi dst h e v h' _ _ hcopy => ?_) _ trivial hrun
    · exact hend.elim And.left fun hfalse => hfalse.2.elim
    · have hnever := fieldCopy_ok (fun _ => rfl) (d.get ⟨i.toNat, hi⟩).type false
        (dst.vals ⟨i.toNat, hi⟩)
        (src.vals ⟨i.toNat, hi⟩) h
      rw [hcopy] at hnever
      cases hnever
  subst hok
  exact ⟨dst', h', fun fuel hfuel => copyFields_mono hfuel hrun⟩

lemma Merges.merging (hrun : Merges dst src h dst' h') (hdst : Sound h dst) (hsrc : Sound h src) :
    Merging (fun _ => false) (hasField src) true src dst h d.length dst' h' :=
  copyFields_merging hdst (Apart.usable hsrc) (hrun _ (Nat.lt_succ_self _))

/-- A struct that shares nothing with the destination has nothing to do with a merge. -/
lemma Merges.bystander (hrun : Merges dst src h dst' h') (hdst : Sound h dst) (hsrc : Sound h src)
    {st : StructMem d} (hst : Sound h st) (hapart : Apart dst st) : Bystander st h h' dst' := by
  have hm := hrun.merging hdst hsrc
  obtain ⟨freed, hfrees, hmem⟩ := hm.frees
  have hkept : ∀ k, ∀ l ∈ ptrs st k, l ∉ freed := by
    intro k l hl hin
    obtain ⟨j, -, -, hfree⟩ := (hmem l).mp hin
    exact hapart j k l hfree.1 hl
  refine ⟨⟨⟨hst.owned.nodup, fun k l hl => hfrees.stays_live (hst.owned.live k l hl) (hkept k l hl),
    hst.owned.apart⟩,
    hst.rep⟩, fun k => fieldDenote_congr fun l hl => ?_, fun j k l hl hl' => ?_⟩
  · have hin := sourcePtrs_subset hl
    exact hfrees.kept l (hst.owned.live k l hin).lt (hkept k l hin)
  · rcases hm.origin j l hl with hold | hfresh
    · exact hapart j k l hold hl'
    · exact absurd (hst.owned.live k l hl').lt (not_lt.mpr hfresh)

/-- What a merge does to its destination. -/
lemma Merges.merged (hrun : Merges dst src h dst' h') (hdst : Sound h dst) (hsrc : Sound h src)
    (hapart : Apart dst src) : Merged h dst src h' dst' := by
  have hm := hrun.merging hdst hsrc
  refine ⟨fun k => ?_, fun k hk => hm.denotes (hapart.safe h _) k k.isLt hk, fun k hk => ?_,
    (hrun.bystander hdst hsrc hsrc hapart).value⟩
  · rw [hm.bits k k.isLt, decide_eq_true k.isLt, Bool.true_and, Bool.and_true, Bool.or_comm]
  · have hself := hm.kept k fun _ => hk
    obtain ⟨freed, hfrees, hmem⟩ := hm.frees
    refine ⟨hself, ?_⟩
    rw [value, hself]
    refine fieldDenote_congr fun l hl => ?_
    have hin : l ∈ ptrs dst k := sourcePtrs_subset hl
    refine hfrees.kept l (hdst.owned.live k l hin).lt fun hfreed => ?_
    obtain ⟨j, -, hj, hfree⟩ := (hmem l).mp hfreed
    have hne : j ≠ k := by
      rintro rfl
      rw [hk] at hj
      cases hj
    exact hdst.owned.apart j k hne l hfree.1 hin

/-! ## The values of a merge -/

/-- What a field of a struct denotes, with its presence bit. -/
def slot (h : StringHeap) (st : StructMem d) (k : Fin d.length) : Slot :=
  ⟨d.get k, hasField st k, value h st k⟩

/-- The struct of values that a struct denotes. -/
def denote (h : StringHeap) (st : StructMem d) : Struct := (List.finRange d.length).map (slot h st)

lemma plain_fieldCopy (t : FieldType) (v : t.Val) :
    t.plain (Obus.fieldCopy t v) = Obus.fieldCopy t v := by
  cases t with
  | value t => exact plain_copyValue t v
  | array t =>
    have hitems : (v.items.map (Obus.copyValue t)).map t.plain = v.items.map
        (Obus.copyValue t) := by
      rw [List.map_map]
      exact List.map_congr_left fun c _ => plain_copyValue t c
    exact congrArg (fun items => (⟨v.nItems, items⟩ : ArrayVal t)) hitems

/-- In values, a merge is the merge of the values. -/
lemma Merged.denotes (hm : Merged h dst src h' dst') :
    ∃ m, Obus.structMerge (denote h dst) (denote h src) = .ok m ∧
    (denote h' dst').map Slot.plain = m.map Slot.plain := by
  have hdesc : (denote h dst).desc = (denote h src).desc := by
    rw [Struct.desc, Struct.desc, denote, denote, List.map_map, List.map_map]
    rfl
  refine ⟨_, if_neg (not_not_intro hdesc), ?_⟩
  rw [denote, denote, denote, List.zipWith_map, List.zipWith_self, List.map_map, List.map_map]
  refine List.map_congr_left fun k _ => ?_
  have hhas := hm.has k
  simp only [Function.comp_apply]
  by_cases hk : hasField src k = true
  · have hpresent : (slot h src k).has = true := hk
    rw [hk, Bool.true_or] at hhas
    rw [if_pos hpresent]
    simp only [Slot.plain, slot, hhas, hm.taken k hk, plain_fieldCopy]
  · have habsent : ¬(slot h src k).has = true := hk
    have hfalse : hasField src k = false := Bool.eq_false_iff.mpr hk
    rw [hfalse, Bool.false_or] at hhas
    rw [if_neg habsent]
    simp only [Slot.plain, slot, hhas, (hm.untouched k hfalse).2]

/-! ## The laws -/

/-- A copy of a value that was copied before. -/
lemma fieldCopy_of_plain {t : FieldType} {v w : t.Val} (hv : t.plain v = Obus.fieldCopy t w) :
    Obus.fieldCopy t v = Obus.fieldCopy t w := by
  have hplain : ∀ (t : BaseType) (c : t.Cell), Obus.copyValue t (t.plain c) =
      Obus.copyValue t c := by
    intro t c
    cases t <;> rfl
  have htwice : ∀ (t : BaseType) (c : t.Cell), Obus.copyValue t (Obus.copyValue t c) =
      Obus.copyValue t c := by
    intro t c
    cases t with
    | bool => by_cases hc : c = (0 : UInt8) <;> simp [Obus.copyValue, hc]
    | _ => rfl
  cases t with
  | value t =>
    change t.plain v = Obus.copyValue t w at hv
    change Obus.copyValue t v = Obus.copyValue t w
    rw [← hplain, hv, htwice]
  | array t =>
    change (⟨v.nItems, v.items.map t.plain⟩ : ArrayVal t) =
        ⟨w.nItems, w.items.map (Obus.copyValue t)⟩ at hv
    obtain ⟨hcount, hitems⟩ := ArrayVal.mk.inj hv
    have hcopy : v.items.map (Obus.copyValue t) = w.items.map (Obus.copyValue t) := by
      calc v.items.map (Obus.copyValue t)
          = (v.items.map t.plain).map (Obus.copyValue t) := by
            rw [List.map_map]
            exact (List.map_congr_left fun c _ => hplain t c).symm
        _ = (w.items.map (Obus.copyValue t)).map (Obus.copyValue t) := by rw [hitems]
        _ = w.items.map (Obus.copyValue t) := by
            rw [List.map_map]
            exact List.map_congr_left fun c _ => htwice t c
    change (⟨v.nItems, v.items.map (Obus.copyValue t)⟩ : ArrayVal t) =
        ⟨w.nItems, w.items.map (Obus.copyValue t)⟩
    rw [hcount, hcopy]

/-- On a struct with fewer than `2 ^ 16` fields, and memory for all copies: a merge takes over the
fields of its source and nothing else, a second one changes nothing, and two merges are one of the
second source merged over the first. -/
theorem merge_laws (hd : d.length < 2 ^ 16) {s₁ s₂ : StructMem d} (hclean : h.fault = none)
    (hdst : Sound h dst)
    (hs₁ : Sound h s₁) (hs₂ : Sound h s₂) (h₁ : Apart dst s₁) (h₂ : Apart dst s₂)
    (h₁₂ : Apart s₁ s₂) :
    ∃ dst₁ h', Merges dst s₁ h dst₁ h' ∧ Merged h dst s₁ h' dst₁ ∧ h'.fault = none ∧
      (∃ dst' h'', Merges dst₁ s₁ h' dst' h'' ∧ SameFields h'' dst' h' dst₁) ∧
      ∃ dst₂ h'', Merges dst₁ s₂ h' dst₂ h'' ∧
        ∃ s g, Merges s₁ s₂ h s g ∧
          ∃ dst' g', Merges dst s g dst' g' ∧ SameFields h'' dst₂ g' dst' := by
  obtain ⟨dst₁, h', hrun⟩ := merges_of_length_lt hd dst s₁ h
  have hsound := (hrun.merging hdst hs₁).sound
  have hm := hrun.merged hdst hs₁ h₁
  have hb₁ := hrun.bystander hdst hs₁ hs₁ h₁
  have hb₂ := hrun.bystander hdst hs₁ hs₂ h₂
  refine ⟨dst₁, h', hrun, hm, (hrun.merging hdst hs₁).clean (h₁.safe h _) hclean, ?_, ?_⟩
  · -- the same source again
    obtain ⟨dst', h'', hrun'⟩ := merges_of_length_lt hd dst₁ s₁ h'
    have hm' := hrun'.merged hsound hb₁.sound hb₁.apart
    refine ⟨dst', h'', hrun', fun k => ⟨?_, ?_⟩⟩
    · rw [hm'.has, hm.has, ← Bool.or_assoc, Bool.or_self]
    · cases hk : hasField s₁ k with
      | true => rw [hm'.taken k hk, hb₁.value, hm.taken k hk]
      | false => rw [(hm'.untouched k hk).2]
  · obtain ⟨dst₂, h'', hrun'⟩ := merges_of_length_lt hd dst₁ s₂ h'
    have hm' := hrun'.merged hsound hb₂.sound hb₂.apart
    -- the second source over the first
    obtain ⟨s, g, hover⟩ := merges_of_length_lt hd s₁ s₂ h
    have hs := (hover.merging hs₁ hs₂).sound
    have hmo := hover.merged hs₁ hs₂ h₁₂
    have hbd := hover.bystander hs₁ hs₂ hdst h₁.symm
    obtain ⟨dst', g', hrun''⟩ := merges_of_length_lt hd dst s g
    have hm'' := hrun''.merged hbd.sound hs hbd.apart.symm
    refine ⟨dst₂, h'', hrun', s, g, hover, dst', g', hrun'', fun k => ⟨?_, ?_⟩⟩
    · rw [hm'.has, hm.has, hm''.has, hmo.has, Bool.or_assoc]
    · cases hk₂ : hasField s₂ k with
      | true =>
        have hs : hasField s k = true := by rw [hmo.has, hk₂, Bool.true_or]
        rw [hm'.taken k hk₂, hb₂.value, hm''.taken k hs, fieldCopy_of_plain (hmo.taken k hk₂)]
      | false =>
        have hsame := hmo.untouched k hk₂
        rw [(hm'.untouched k hk₂).2]
        cases hk₁ : hasField s₁ k with
        | true =>
          have hs : hasField s k = true := by rw [hmo.has, hk₁, Bool.or_true]
          rw [hm.taken k hk₁, hm''.taken k hs, hsame.2]
        | false =>
          have hs : hasField s k = false := by rw [hmo.has, hk₁, hk₂, Bool.or_false]
          rw [(hm.untouched k hk₁).2, (hm''.untouched k hs).2, hbd.value]

/-- A pair of absent or empty texts. -/
lemma empty_pair_sound {p q : StrPtr} (hp : p = .null ∨ p = .empty) (hq : q = .null ∨ q = .empty)
    (h : StringHeap) :
    Sound h (oneField (.array .string) (pairOf p q)) ∧
    ∀ k, ptrs (oneField (.array .string) (pairOf p q)) k = [] := by
  have hnone : ∀ k, ptrs (oneField (.array .string) (pairOf p q)) k = [] := by
    intro k
    obtain rfl : k = 0 := Fin.eq_zero k
    rcases hp with rfl | rfl <;> rcases hq with rfl | rfl <;> rfl
  refine ⟨⟨⟨fun k => ?_, fun k l hl => ?_, fun i j hij => ?_⟩, fun k => ?_⟩, hnone⟩
  · rw [hnone]
    exact List.nodup_nil
  · rw [hnone] at hl
    exact absurd hl List.not_mem_nil
  · exact absurd ((Fin.eq_zero i).trans (Fin.eq_zero j).symm) hij
  · obtain rfl : k = 0 := Fin.eq_zero k
    exact ⟨rfl, iff_of_false (Option.some_ne_none _) (by decide : ¬(2 : UInt32) = 0)⟩

theorem merge_laws_pair :
    ∃ dst' h', Merges (oneField (.array .string) (pairOf (.cell 0) (.cell 1)))
        (oneField (.array .string) (pairOf .null .empty)) twoCells dst' h' ∧
      Merged twoCells (oneField (.array .string) (pairOf (.cell 0) (.cell 1)))
        (oneField (.array .string) (pairOf .null .empty)) h' dst' := by
  obtain ⟨hs₁, hnone₁⟩ := empty_pair_sound (.inl rfl) (.inr rfl) twoCells
  obtain ⟨hs₂, hnone₂⟩ := empty_pair_sound (.inr rfl) (.inr rfl) twoCells
  obtain ⟨dst', h', hrun, hm, -⟩ := merge_laws (by decide) rfl pairOf_sound hs₁ hs₂
    (fun _ k l _ hl => List.not_mem_nil (hnone₁ k ▸ hl))
      (fun _ k l _ hl => List.not_mem_nil (hnone₂ k ▸ hl))
    fun j _ l hl => absurd hl (hnone₁ j ▸ List.not_mem_nil)
  exact ⟨dst', h', hrun, hm⟩

/-! ## Structs with many fields -/

/-- A struct without present fields. -/
def blank (d : StructDesc) : StructMem d :=
  ⟨fun k => fieldInit (d.get k).enumDrv (d.get k).type, List.replicate d.length 0, by
    rw [List.length_replicate]
    omega⟩

lemma hasField_blank (d : StructDesc) (i : ℕ) : hasField (blank d) i = false := by
  have hword : (List.replicate d.length (0 : UInt32)).getD (i / 32) 0 = 0 := by
    rw [List.getD_eq_getElem?_getD, List.getElem?_replicate]
    split <;> rfl
  have hbit : bitTest (blank d).bits i = false := by
    rw [bitTest_eq]
    change ((List.replicate d.length (0 : UInt32)).getD (i / 32) 0).toNat.testBit _ = false
    rw [hword]
    exact Nat.zero_testBit _
  unfold hasField
  split
  · exact hbit
  · rfl

lemma ptrs_blank (d : StructDesc) (k : Fin d.length) : ptrs (blank d) k = [] :=
  ptrs_fieldInit (d.get k).enumDrv (d.get k).type

lemma blank_sound (d : StructDesc) (h : StringHeap) : Sound h (blank d) := by
  have hnone : ∀ k, ∀ l, l ∉ ptrs (blank d) k :=
    fun k l hl => List.not_mem_nil (ptrs_blank d k ▸ hl)
  exact ⟨⟨fun k => ptrs_blank d k ▸ List.nodup_nil, fun k l hl => absurd hl (hnone k l),
    fun i _ _ l hl => absurd hl (hnone i l)⟩, fun k => rep_fieldInit _ _⟩

/-- A descriptor with `2 ^ 16` fields. -/
def wideDesc : StructDesc := List.replicate (2 ^ 16) ⟨1, .property, .value .u8, none⟩

/-- On a struct with `2 ^ 16` fields a merge never ends. -/
theorem merge_of_many_fields_diverges :
    Sound {} (blank wideDesc) ∧ Apart (blank wideDesc) (blank wideDesc) ∧
      ∀ mem fuel, structMerge mem (fun _ => false) fuel (blank wideDesc) (blank wideDesc) {} =
        none := by
  refine ⟨blank_sound wideDesc {}, fun j _ l hl => ?_, fun mem fuel => ?_⟩
  · rw [ptrs_blank] at hl
    exact absurd hl List.not_mem_nil
  · have hd : 2 ^ 16 ≤ wideDesc.length := by rw [wideDesc, List.length_replicate]
    exact copyFields_diverges hd (hasField_blank wideDesc) fuel 0 (blank wideDesc) {}

end Memory

end Obus
