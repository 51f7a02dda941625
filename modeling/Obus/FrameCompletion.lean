import Obus.FrameElements

/-!
# What follows a packet that does not lie in its bytes

A part of a packet that does not end in the packet can be followed by two lists of bytes that make a
decoder see different things (`Splits`).  The fields of a struct are told apart by a descriptor with
a single field, chosen by the bytes of the first field that does not end in the packet, and the
elements by a bus with a single object that the words of such an element name (`wideBus`).

The two lists are found by completing the part with bytes of one's own: the last byte of a number is
given two values, and a string, an array or an element is there or not.
-/

namespace Obus

open Prog

/-- Two lists of bytes behind the packet are told apart. -/
def Splits {β : Type} (g : Buffer → β) (data : List UInt8) (pos : ℕ) : Prop :=
  ∃ t t', g (exactly (data ++ t) pos) ≠ g (exactly (data ++ t') pos)

/-- The program fails when nothing follows the packet. -/
def Fails {α : Type} (data : List UInt8) (p : Dec α) (pos : ℕ) : Prop :=
  ∃ e, (p.on (exactly data pos)).1 = .error e

section Rules

variable {α β γ : Type} {data : List UInt8} {p : Dec α} {f : α → Dec β} {pos pos' : ℕ} {a : α}

/-- What is told apart by more of the packet is told apart. -/
lemma Splits.of_append {g : Buffer → γ} {u : List UInt8} (h : Splits g (data ++ u) pos) :
    Splits g data pos := by
  obtain ⟨t, t', hne⟩ := h
  rw [List.append_assoc, List.append_assoc] at hne
  exact ⟨u ++ t, u ++ t', hne⟩

/-- A program that gives a value goes on with it. -/
lemma Dec.fst_bind {b : Buffer} (h : (p.on b).1 = .ok a) :
    ((p >>= f).on b).1 = ((f a).on (p.on b).2).1 := by
  have hrun : p.run readHandler b = (.ok a, (p.on b).2) := Prod.ext h rfl
  exact congrArg Prod.fst (run_bind_ok _ hrun)

/-- What follows a program that does not fail decides. -/
lemma Total.fst_bind {c : β} (hp : Total p) (hf : ∀ a b, ((f a).on b).1 = .ok c) (b : Buffer) :
    ((p >>= f).on b).1 = .ok c := by
  obtain ⟨a, ha⟩ := hp b
  exact (Dec.fst_bind ha).trans (hf a _)

lemma GoesTo.on_bind {b : Buffer} (hp : GoesTo data p pos a pos') (hb : b.At data pos) :
    (p >>= f).on b = (f a).on (b.seek pos') := run_bind_ok _ (hp b hb)

lemma Fails.bind (h : Fails data p pos) : Fails data (p >>= f) pos := by
  obtain ⟨e, he⟩ := h
  have hrun : p.run readHandler (exactly data pos) = (.error e, (p.on (exactly data pos)).2) :=
    Prod.ext he rfl
  exact ⟨e, congrArg Prod.fst (run_bind_error _ hrun)⟩

lemma GoesTo.fails (hp : GoesTo data p pos a pos') (h : Fails data (f a) pos') :
    Fails data (p >>= f) pos := by
  obtain ⟨e, he⟩ := h
  exact ⟨e, (congrArg Prod.fst (hp.on_bind exactly_at_self)).trans he⟩

lemma Fails.attempt (h : Fails data p pos) :
    ∃ e, (Dec.on p.attempt (exactly data pos)).1 = .ok (.error e) := by
  obtain ⟨e, he⟩ := h
  exact ⟨e, by rw [Dec.on, run_attempt, ← Dec.on, he]⟩

lemma bufferReadWord_fails {limit k : ℕ} {e : Errno} {b : Buffer} (h : limit < b.pos + k) :
    bufferReadWord limit k e b = (.error e, b) := if_pos h

lemma fails_readU8 (h : data.length < pos + 1) : Fails data readU8 pos := by
  refine ⟨.eagain, ?_⟩
  rw [Dec.on, readU8, run_perform, readHandler, bufferReadU8, bufferReadWord_fails h]
  rfl

lemma fails_readU16 (h : data.length < pos + 2) : Fails data readU16 pos := by
  refine ⟨.einval, ?_⟩
  rw [Dec.on, readU16, run_perform, readHandler, bufferReadU16, bufferReadWord_fails h]
  rfl

lemma fails_readU32 (h : data.length < pos + 4) : Fails data readU32 pos := by
  refine ⟨.eagain, ?_⟩
  rw [Dec.on, readU32, run_perform, readHandler, bufferReadU32, bufferReadWord_fails h]
  rfl

lemma fails_readU64 (h : data.length < pos + 8) : Fails data readU64 pos := by
  refine ⟨.einval, ?_⟩
  rw [Dec.on, readU64, run_perform, readHandler, bufferReadU64, bufferReadWord_fails h]
  rfl

lemma fails_dup {n : ℕ} (hn : n ≠ 0) (h : data.length < pos + n) : Fails data (dup n) pos := by
  have hlt : (exactly data pos).length < (exactly data pos).pos + n := h
  refine ⟨.eagain, ?_⟩
  rw [Dec.on, dup, run_perform, readHandler, bufferDup, if_neg hn, if_pos hlt]

/-- A number behind a list of bytes is one of what follows. -/
lemma wordAt_append_right (t : List UInt8) (k i : ℕ) :
    wordAt (data ++ t) k (data.length + i) = wordAt t k i := by
  rw [wordAt, wordAt, List.drop_length_add_append]

/-- The last byte of a number. -/
lemma wordAt_succ {k n : ℕ} {x : UInt8} (h : data[n + k]? = some x) :
    wordAt data (k + 1) n = 256 * wordAt data k n + x.toNat := by
  rw [wordAt, wordAt, List.take_add_one, List.getElem?_drop, h]
  exact ofBigEndian_append_singleton _ _

/-- A number that does not end in the packet can be completed to one that is not zero. -/
lemma exists_wordAt_ne_zero {k n : ℕ} (h : data.length < n + (k + 1)) :
    ∃ t, (data ++ t).length = n + (k + 1) ∧ wordAt (data ++ t) (k + 1) n ≠ 0 := by
  obtain ⟨u, hu, -, hbytes⟩ := exists_padding data (n + (k + 1)) 1
  refine ⟨u, hu.trans (max_eq_right h.le), ?_⟩
  rw [wordAt_succ (hbytes (n + k) (Nat.lt_succ_self _) (Nat.le_of_lt_succ h))]
  exact Nat.succ_ne_zero _

end Rules

/-! ## Fields -/

section Fields

variable {data : List UInt8} {pos pos' : ℕ}

lemma exists_error_readInto {α : Type} {p : Dec α} (old : α) (h : Fails data p pos) :
    ∃ e, ((readInto p old).on (exactly data pos)).1 = .ok (.error e, old) := by
  obtain ⟨e, he⟩ := h.attempt
  exact ⟨e, Dec.fst_bind he⟩

/-- A string whose content ends behind the packet becomes absent. -/
lemma exists_error_readString (old : Option CString) (hin : pos + 4 ≤ data.length)
    (h : textEnd data pos = none) :
    ∃ e, ((readString old).on (exactly data pos)).1 = .ok (.error e, none) := by
  have hcontent : bytesEnd data (wordAt data 4 pos) (pos + 4) = none := by
    have hsize : bytesEnd data 4 pos = some (pos + 4) := bytesEnd_eq_some.mpr ⟨hin, rfl⟩
    rwa [textEnd, hsize] at h
  have hlt := bytesEnd_eq_none.mp hcontent
  have hne : UInt32.ofNat (wordAt data 4 pos) ≠ 0 := by
    intro hzero
    have hword := congrArg UInt32.toNat hzero
    rw [toNat_wordAt32, UInt32.toNat_zero] at hword
    omega
  have hfails : Fails data (dup (UInt32.ofNat (wordAt data 4 pos)).toNat) (pos + 4) := by
    rw [toNat_wordAt32]
    exact fails_dup (by omega) hlt
  obtain ⟨e, he⟩ := hfails.attempt
  refine ⟨e, ?_⟩
  unfold readString
  rw [(goesTo_readU32 hin).attempt.on_bind exactly_at_self]
  simp only [if_neg hne]
  exact Dec.fst_bind he

/-- A value that ends behind the packet is not decoded. -/
lemma exists_error_decodeValue {t : BaseType} (old : t.Cell) (h : cellEnd data t pos = none) :
    ∃ e v, ((decodeValue t old).on (exactly data pos)).1 = .ok (.error e, v) := by
  have hword : ∀ {α : Type} {p : Dec α} {old : α}, Fails data p pos →
      ∃ e v, ((readInto p old).on (exactly data pos)).1 = .ok (.error e, v) := by
    intro α p old hp
    obtain ⟨e, he⟩ := exists_error_readInto old hp
    exact ⟨e, old, he⟩
  cases t with
  | u8 | i8 => exact hword (fails_readU8 (bytesEnd_eq_none.mp h))
  | bool => exact hword (fails_readU8 (bytesEnd_eq_none.mp h)).bind
  | u16 | i16 => exact hword (fails_readU16 (bytesEnd_eq_none.mp h))
  | u32 | i32 | enum | f32 => exact hword (fails_readU32 (bytesEnd_eq_none.mp h))
  | u64 | i64 | f64 => exact hword (fails_readU64 (bytesEnd_eq_none.mp h))
  | string =>
    by_cases hin : pos + 4 ≤ data.length
    · obtain ⟨e, he⟩ := exists_error_readString old hin h
      exact ⟨e, none, he⟩
    · obtain ⟨e, he⟩ := (fails_readU32 (not_le.mp hin)).attempt
      exact ⟨e, old, Dec.fst_bind he⟩

lemma exists_error_decodeItems {t : BaseType} {n : ℕ} (h : cellsEnd data t n pos = none) :
    ∃ e, ((decodeItems t n).on (exactly data pos)).1 = .ok (.error e) := by
  induction n generalizing pos with
  | zero => cases h
  | succ n ih =>
    cases hfirst : cellEnd data t pos with
    | none =>
      obtain ⟨e, v, he⟩ := exists_error_decodeValue t.item hfirst
      exact ⟨e, Dec.fst_bind he⟩
    | some mid =>
      rw [cellsEnd, hfirst] at h
      obtain ⟨e, he⟩ := ih h
      refine ⟨e, ?_⟩
      unfold decodeItems
      rw [(goesTo_decodeValue hfirst).on_bind exactly_at_self]
      exact Dec.fst_bind he

/-- No value ends where the packet ends. -/
lemma cellEnd_length (t : BaseType) : cellEnd data t data.length = none := by
  have hbytes : ∀ k, bytesEnd data (k + 1) data.length = none := fun k =>
    bytesEnd_eq_none.mpr (by omega)
  cases t with
  | string => rw [cellEnd, textEnd, hbytes, Option.bind_none]
  | _ => exact hbytes _

/-- The numbers that are told apart by their last byte. -/
lemma exists_width {t : BaseType} (ht : t ≠ .string) :
    ∃ k, (∀ data pos, cellEnd data t pos = bytesEnd data (k + 1) pos) ∧
      ∀ data pos, data.length = pos + k →
      cellAt (data ++ [0]) pos t ≠ cellAt (data ++ [1]) pos t := by
  have hlast : ∀ {k : ℕ} {data : List UInt8} {pos : ℕ} (x : UInt8), data.length = pos + k →
      wordAt (data ++ [x]) (k + 1) pos = 256 * wordAt data k pos + x.toNat := by
    intro k data pos x h
    have hx : (data ++ [x])[pos + k]? = some x := by rw [← h, List.getElem?_concat_length]
    rw [wordAt_succ hx, wordAt_append [x] h.ge]
  cases t with
  | string => exact absurd rfl ht
  | u8 | i8 =>
    refine ⟨0, fun _ _ => rfl, fun data pos h heq => ?_⟩
    have hbyte := congrArg UInt8.toNat heq
    simp only [cellAt, hlast _ h, UInt8.toNat_ofNat'] at hbyte
    simp at hbyte
  | bool =>
    refine ⟨0, fun _ _ => rfl, fun data pos h heq => ?_⟩
    have hzero : wordAt data 0 pos = 0 := rfl
    simp only [cellAt, hlast _ h, hzero] at heq
    exact absurd heq (by decide)
  | u16 | i16 =>
    refine ⟨1, fun _ _ => rfl, fun data pos h heq => ?_⟩
    have hword := congrArg UInt16.toNat heq
    simp only [cellAt, hlast _ h, UInt16.toNat_ofNat'] at hword
    simp at hword
    omega
  | u32 | i32 | enum | f32 =>
    refine ⟨3, fun _ _ => rfl, fun data pos h heq => ?_⟩
    have hword := congrArg UInt32.toNat heq
    simp only [cellAt, hlast _ h, UInt32.toNat_ofNat'] at hword
    simp at hword
    omega
  | u64 | i64 | f64 =>
    refine ⟨7, fun _ _ => rfl, fun data pos h heq => ?_⟩
    have hword := congrArg UInt64.toNat heq
    simp only [cellAt, hlast _ h, UInt64.toNat_ofNat'] at hword
    simp at hword
    omega

/-- A field whose descriptor is that of the only field of a struct. -/
structure Matches (data : List UInt8) (pos : ℕ) (f : FieldDesc) : Prop where
  head : pos + 3 ≤ data.length
  uid : f.uid = UInt16.ofNat (wordAt data 2 pos)
  type : f.type.code = typeAt data pos

lemma Matches.append {f : FieldDesc} (h : Matches data pos f) (t : List UInt8) :
    Matches (data ++ t) pos f := by
  have hhead := h.head
  refine ⟨?_, ?_, ?_⟩
  · rw [List.length_append]
    omega
  · rw [wordAt_append t (by omega)]
    exact h.uid
  · rw [typeAt, wordAt_append t (by omega)]
    exact h.type

/-- A field that ends in the packet is filled. -/
lemma Matches.exists_goesTo {s : Slot} (h : Matches data pos s.desc)
    (hend : fieldEnd data pos = some pos') : ∃ v, ReadsAs data (pos + 3) s.desc.type v ∧
      GoesTo data (structDecodeField [s]) pos [⟨s.desc, true, v⟩] pos' := by
  obtain ⟨st', hfills, hgoes⟩ := exists_goesTo_structDecodeField [s] hend
  have hfound : structGetFieldDesc [s] (UInt16.ofNat (wordAt data 2 pos)) = some (0, s) := by
    rw [structGetFieldDesc_cons, if_pos h.uid]
  unfold Fills at hfills
  rw [hfound] at hfills
  rcases hfills with ⟨i, s', v, hi, -, hv, rfl⟩ | ⟨hno, -⟩
  · cases hi
    exact ⟨v, hv, hgoes⟩
  · exact absurd h.type (hno 0 s rfl)

/-- A field whose content is not decoded is not filled. -/
lemma Matches.failed {s : Slot} (h : Matches data pos s.desc) {v : s.desc.type.Val}
    (hfail : ∃ e, ((fieldDecodeVal s.desc.type s.val).on (exactly data (pos + 3))).1 =
      .ok (.error e, v)) :
    ((structDecodeField [s]).on (exactly data pos)).1 = .ok [⟨s.desc, s.has, v⟩] := by
  obtain ⟨e, he⟩ := hfail
  have hfound : structGetFieldDesc [s] (UInt16.ofNat (wordAt data 2 pos)) = some (0, s) := by
    rw [structGetFieldDesc_cons, if_pos h.uid]
  have hfield : ((fieldDecode [s]).on (exactly data pos)).1 = .ok ([⟨s.desc, s.has, v⟩], none) := by
    unfold fieldDecode
    rw [(goesTo_fieldHead h.head).attempt.on_bind exactly_at_self]
    simp only
    rw [goesTo_getReadPosition.on_bind (exactly_at_self.seek _)]
    simp only [hfound, if_neg (not_not.mpr h.type)]
    refine (Dec.fst_bind he).trans ?_
    exact (total_attempt _).fst_bind (fun _ => (total_skipField _).fst_bind fun _ _ => rfl) _
  exact Dec.fst_bind hfield

/-- The type of a field is known by its byte. -/
lemma code_of_typeByte {c : UInt8} {t : BaseType} (ht : BaseType.ofCode? (maskCode c) = some t) :
    (if isArrayCode c then FieldType.array t else .value t).code = c := by
  have hall : ∀ n < 256, ∀ t ∈ BaseType.ofCode? (maskCode (UInt8.ofNat n)),
      (if isArrayCode (UInt8.ofNat n) then FieldType.array t else .value t).code =
        UInt8.ofNat n := by
    decide +kernel
  have h := hall c.toNat c.toNat_lt t
  rw [UInt8.ofNat_toNat] at h
  exact h ht

/-- The field that a head with a type stands for. -/
lemma exists_matches (h : pos + 3 ≤ data.length) {t : BaseType}
    (ht : BaseType.ofCode? (maskCode (typeAt data pos)) = some t) :
    ∃ f : FieldDesc, Matches data pos f ∧
      f.type = if isArrayCode (typeAt data pos) then .array t else .value t :=
  ⟨⟨UInt16.ofNat (wordAt data 2 pos), .property, _, none⟩, ⟨h, rfl, code_of_typeByte ht⟩, rfl⟩

lemma Matches.fieldEnd {f : FieldDesc} (h : Matches data pos f) :
    fieldEnd data pos = contentEnd data f.type.code (pos + 3) := by
  rw [Obus.fieldEnd, bytesEnd_eq_some.mpr ⟨h.head, rfl⟩, h.type]
  rfl

/-- Two structs with the same single field are equal only if its memory is. -/
lemma single_inj {f : FieldDesc} {has has' : Bool} {v w : f.type.Val}
    (h : (.ok [⟨f, has, v⟩] : Except Errno Struct) = .ok [⟨f, has', w⟩]) : v = w := by
  cases (List.cons.inj (Except.ok.inj h)).1
  rfl

/-- Two completions of a number make two values. -/
lemma splits_number {uid : UInt16} {role : FieldRole} {t : BaseType} {drv : Option EnumDriver}
    (ht : t ≠ .string) (hf : Matches data pos ⟨uid, role, .value t, drv⟩)
    (hend : fieldEnd data pos = none) (has : Bool) (v : t.Cell) :
    Splits (fun b => ((structDecodeField [⟨⟨uid, role, .value t, drv⟩, has, v⟩]).on b).1)
      data pos := by
  obtain ⟨k, hwidth, hne⟩ := exists_width ht
  rw [hf.fieldEnd, contentEnd_value, hwidth] at hend
  have hlt := bytesEnd_eq_none.mp hend
  obtain ⟨u, hu, -, -⟩ := exists_padding data (pos + 3 + k) 0
  have hlen : (data ++ u).length = pos + 3 + k := hu.trans (max_eq_right (Nat.le_of_lt_succ hlt))
  have hvalue : ∀ x, ((structDecodeField [⟨⟨uid, role, .value t, drv⟩, has, v⟩]).on
      (exactly (data ++ u ++ [x]) pos)).1 =
        .ok [⟨⟨uid, role, .value t, drv⟩, true, cellAt (data ++ u ++ [x]) (pos + 3) t⟩] := by
    intro x
    have hmatch := (hf.append u).append [x]
    have hcell : Obus.fieldEnd (data ++ u ++ [x]) pos = some (pos + 3 + (k + 1)) := by
      rw [hmatch.fieldEnd, contentEnd_value, hwidth, bytesEnd_eq_some]
      refine ⟨?_, rfl⟩
      rw [List.length_append, hlen, List.length_singleton]
      rfl
    obtain ⟨w, rfl, hgoes⟩ :=
      Matches.exists_goesTo (s := ⟨⟨uid, role, .value t, drv⟩, has, v⟩) hmatch hcell
    rw [hgoes _ exactly_at_self]
  refine Splits.of_append (u := u) ⟨[0], [1], ?_⟩
  simp only [hvalue]
  exact fun heq => hne _ _ hlen (single_inj heq)

/-- A string that is there is not absent. -/
lemma splits_string {uid : UInt16} {role : FieldRole} {drv : Option EnumDriver}
    (hf : Matches data pos ⟨uid, role, .value .string, drv⟩) (hend : fieldEnd data pos = none)
    (has : Bool) (v : Option CString) : Splits (fun b =>
      ((structDecodeField [⟨⟨uid, role, .value .string, drv⟩, has, v⟩]).on b).1) data pos := by
  -- the size is there, and the content is not
  have hsized : ∀ {data : List UInt8}, Matches data pos ⟨uid, role, .value .string, drv⟩ →
      pos + 3 + 4 ≤ data.length → textEnd data (pos + 3) = none → Splits (fun b =>
        ((structDecodeField [⟨⟨uid, role, .value .string, drv⟩, has, v⟩]).on b).1) data pos := by
    intro data hf hin htext
    have hfield : Obus.fieldEnd data pos = none := by
      rw [hf.fieldEnd, contentEnd_value, cellEnd, htext]
    obtain ⟨u, hu⟩ := stable_field.complete (by omega) hfield
    obtain ⟨w, hw, hgoes⟩ := Matches.exists_goesTo (s := ⟨⟨uid, role, .value .string, drv⟩, has, v⟩)
      (hf.append u) hu
    have hne : wordAt data 4 (pos + 3) ≠ 0 := by
      intro hzero
      rw [textEnd, bytesEnd_eq_some.mpr ⟨hin, rfl⟩, hzero] at htext
      have hlt := bytesEnd_eq_none.mp htext
      omega
    have hsome : w ≠ none := by
      rw [show w = textAt (data ++ u) (pos + 3) from hw, textAt]
      simp only
      rw [wordAt_append u hin, if_neg hne]
      exact nofun
    have hfailed := Matches.failed (s := ⟨⟨uid, role, .value .string, drv⟩, has, v⟩) hf
      (exists_error_readString v hin htext)
    refine ⟨[], u, ?_⟩
    simp only [List.append_nil]
    rw [hfailed, hgoes _ exactly_at_self]
    exact fun heq => hsome (single_inj heq).symm
  rw [hf.fieldEnd, contentEnd_value] at hend
  by_cases hin : pos + 3 + 4 ≤ data.length
  · exact hsized hf hin hend
  · obtain ⟨u, hlen, hne⟩ := exists_wordAt_ne_zero (k := 3) (not_le.mp hin)
    refine (hsized (hf.append u) hlen.ge ?_).of_append
    rw [textEnd, bytesEnd_eq_some.mpr ⟨hlen.ge, rfl⟩, Option.bind_some, bytesEnd_eq_none, hlen]
    exact Nat.lt_add_of_pos_right (Nat.pos_of_ne_zero hne)

/-- An array that is there has its items. -/
lemma splits_array {uid : UInt16} {role : FieldRole} {t : BaseType} {drv : Option EnumDriver}
    (hf : Matches data pos ⟨uid, role, .array t, drv⟩) (hend : fieldEnd data pos = none)
    (has : Bool) (v : ArrayVal t) :
    Splits (fun b => ((structDecodeField [⟨⟨uid, role, .array t, drv⟩, has, v⟩]).on b).1)
      data pos := by
  -- the count is there, and an item is not
  have hcounted : ∀ {data : List UInt8}, Matches data pos ⟨uid, role, .array t, drv⟩ →
      pos + 3 + 4 ≤ data.length →
      cellsEnd data t (wordAt data 4 (pos + 3)) (pos + 3 + 4) = none → Splits (fun b =>
        ((structDecodeField [⟨⟨uid, role, .array t, drv⟩, has, v⟩]).on b).1) data pos := by
    intro data hf hin hcells
    have hfield : Obus.fieldEnd data pos = none := by
      rw [hf.fieldEnd, contentEnd_array, bytesEnd_eq_some.mpr ⟨hin, rfl⟩, Option.bind_some, hcells]
    obtain ⟨u, hu⟩ := stable_field.complete (by omega) hfield
    obtain ⟨w, ⟨-, hlength⟩, hgoes⟩ := Matches.exists_goesTo
      (s := ⟨⟨uid, role, .array t, drv⟩, has, v⟩) (hf.append u) hu
    have hne : wordAt data 4 (pos + 3) ≠ 0 := by
      intro hzero
      rw [hzero] at hcells
      cases hcells
    rw [wordAt_append u hin] at hlength
    obtain ⟨e, he⟩ := exists_error_decodeItems hcells
    have hrejected : ∃ e, ((fieldDecodeVal (.array t) v).on (exactly data (pos + 3))).1 =
        .ok (.error e, ⟨UInt32.ofNat (wordAt data 4 (pos + 3)), []⟩) := by
      refine ⟨e, ?_⟩
      unfold fieldDecodeVal arrayDecode
      rw [(goesTo_readU32 hin).attempt.on_bind exactly_at_self]
      simp only [toNat_wordAt32]
      exact Dec.fst_bind he
    have hfailed := Matches.failed (s := ⟨⟨uid, role, .array t, drv⟩, has, v⟩) hf hrejected
    refine ⟨[], u, ?_⟩
    simp only [List.append_nil]
    rw [hfailed, hgoes _ exactly_at_self]
    intro heq
    have hitems := congrArg (fun a : ArrayVal t => a.items.length) (single_inj heq)
    exact hne (hlength.symm.trans hitems.symm)
  rw [hf.fieldEnd, contentEnd_array] at hend
  by_cases hin : pos + 3 + 4 ≤ data.length
  · rw [bytesEnd_eq_some.mpr ⟨hin, rfl⟩] at hend
    exact hcounted hf hin hend
  · obtain ⟨u, hlen, hne⟩ := exists_wordAt_ne_zero (k := 3) (not_le.mp hin)
    refine (hcounted (hf.append u) hlen.ge ?_).of_append
    obtain ⟨n, hn⟩ := Nat.exists_eq_succ_of_ne_zero hne
    rw [hn, cellsEnd, ← hlen, cellEnd_length, Option.bind_none]

/-- The last field of a struct is told apart if it has a type and does not end in the packet. -/
lemma exists_splits_field (hpos : pos ≤ data.length) (hend : fieldEnd data pos = none)
    (htyped : ¬Untyped data pos) : ∃ f : FieldDesc, ∀ (has : Bool) (v : f.type.Val),
      Splits (fun b => ((structDecodeField [⟨f, has, v⟩]).on b).1) data pos := by
  -- the head is there
  have hheaded : ∀ {data : List UInt8}, pos + 3 ≤ data.length → fieldEnd data pos = none →
      ¬Untyped data pos → ∃ f : FieldDesc, ∀ (has : Bool) (v : f.type.Val),
        Splits (fun b => ((structDecodeField [⟨f, has, v⟩]).on b).1) data pos := by
    intro data hin hend htyped
    obtain ⟨t, ht⟩ := Option.ne_none_iff_exists'.mp fun hnone => htyped ⟨hin, hnone⟩
    obtain ⟨⟨uid, role, type, drv⟩, hmatch, htype⟩ := exists_matches hin ht
    change type = _ at htype
    split_ifs at htype
    · subst htype
      exact ⟨⟨uid, role, .array t, drv⟩, splits_array hmatch hend⟩
    · subst htype
      by_cases hstring : t = .string
      · subst hstring
        exact ⟨⟨uid, role, .value .string, drv⟩, splits_string hmatch hend⟩
      · exact ⟨⟨uid, role, .value t, drv⟩, splits_number hstring hmatch hend⟩
  by_cases hin : pos + 3 ≤ data.length
  · exact hheaded hin hend htyped
  · -- the head is completed to that of a byte
    obtain ⟨u, hu, -, hbytes⟩ := exists_padding data (pos + 3) 0
    have hlen : (data ++ u).length = pos + 3 := hu.trans (max_eq_right (not_le.mp hin).le)
    have htype : typeAt (data ++ u) pos = (FieldType.value .u8).code := by
      rw [typeAt, wordAt_succ (k := 0) (hbytes (pos + 2) (by omega) (by omega))]
      rfl
    have hcode : BaseType.ofCode? (maskCode (FieldType.value .u8).code) = some .u8 := by decide
    have hfield : fieldEnd (data ++ u) pos = none := by
      rw [fieldEnd, bytesEnd_eq_some.mpr ⟨hlen.ge, rfl⟩, Option.bind_some, htype,
        contentEnd_value, ← hlen, cellEnd_length]
    have hu' : ¬Untyped (data ++ u) pos := by
      rintro ⟨-, hnone⟩
      rw [htype, hcode] at hnone
      cases hnone
    obtain ⟨f, hf⟩ := hheaded hlen.ge hfield hu'
    exact ⟨f, fun has v => (hf has v).of_append⟩

/-- Behind the end of the packet no field is decoded. -/
lemma structDecodeField_length (st : Struct) :
    (structDecodeField st).on (exactly data data.length) = (.ok st, exactly data data.length) := by
  have hread : readU16.run readHandler (exactly data data.length) =
      (.error .einval, exactly data data.length) := by
    have hlt : (exactly data data.length).length < (exactly data data.length).pos + 2 :=
      Nat.lt_add_of_pos_right two_pos
    rw [readU16, run_perform, readHandler, bufferReadU16, bufferReadWord_fails hlt]
    rfl
  have hhead : Prog.run readHandler
      (attempt (do let uid ← readU16; let type ← readU8; pure (uid, type) : Dec _))
      (exactly data data.length) = (.ok (.error .einval), exactly data data.length) := by
    rw [run_attempt, run_bind_error _ hread]
  have hfield : (fieldDecode st).run readHandler (exactly data data.length) =
      (.ok (st, none), exactly data data.length) := run_bind_ok _ hhead
  exact run_bind_ok _ hfield

lemma iter_structDecodeField_length (n : ℕ) (st : Struct) :
    Dec.on (iter structDecodeField n st) (exactly data data.length) =
      (.ok st, exactly data data.length) := by
  induction n with
  | zero => rfl
  | succ n ih => exact (run_bind_ok _ (structDecodeField_length st)).trans ih

/-- A field that ends in the packet leaves a struct with the same single field. -/
lemma exists_goesTo_single {f : FieldDesc} (has : Bool) (v : f.type.Val)
    (h : fieldEnd data pos = some pos') :
    ∃ has' v', GoesTo data (structDecodeField [⟨f, has, v⟩]) pos [⟨f, has', v'⟩] pos' := by
  obtain ⟨st', hfills, hgoes⟩ := exists_goesTo_structDecodeField [⟨f, has, v⟩] h
  rcases hfills with ⟨i, s, w, hi, -, -, rfl⟩ | ⟨-, rfl⟩
  · rw [structGetFieldDesc_cons] at hi
    split_ifs at hi
    · cases hi
      exact ⟨true, w, hgoes⟩
    · cases hi
  · exact ⟨has, v, hgoes⟩

/-- A last field that holds a byte gives it to the struct, and further ones are not there. -/
lemma structDecodeField_byte {n : ℕ} (has : Bool) (v x : UInt8) :
    Dec.on (iter structDecodeField (n + 1) [⟨⟨1, .property, .value .u8, none⟩, has, v⟩])
      (exactly (data ++ [0, 1, 0, x]) data.length) =
        (.ok [⟨⟨1, .property, .value .u8, none⟩, true, x⟩],
          exactly (data ++ [0, 1, 0, x]) (data ++ [0, 1, 0, x]).length) := by
  have hlen : (data ++ [0, 1, 0, x]).length = data.length + 4 := List.length_append
  have hmatch : Matches (data ++ [0, 1, 0, x]) data.length ⟨1, .property, .value .u8, none⟩ := by
    refine ⟨?_, ?_, ?_⟩
    · omega
    · rw [show data.length = data.length + 0 from rfl, wordAt_append_right]
      rfl
    · rw [typeAt, wordAt_append_right]
      rfl
  have hend : fieldEnd (data ++ [0, 1, 0, x]) data.length = some (data ++ [0, 1, 0, x]).length := by
    rw [hmatch.fieldEnd, contentEnd_value, hlen]
    exact bytesEnd_eq_some.mpr ⟨hlen.ge, rfl⟩
  obtain ⟨w, hw, hgoes⟩ := Matches.exists_goesTo
    (s := ⟨⟨1, .property, .value .u8, none⟩, has, v⟩) hmatch hend
  have hbyte : w = x := by
    refine hw.trans ?_
    rw [cellAt, wordAt_append_right]
    have hword : wordAt [0, 1, 0, x] 1 3 = x.toNat := by simp [wordAt, ofBigEndian]
    rw [hword, UInt8.ofNat_toNat]
  rw [hbyte] at hgoes
  exact (hgoes.on_bind exactly_at_self).trans (iter_structDecodeField_length n _)

/-- Fields that do not lie in the packet are told apart by a struct with a single field. -/
lemma exists_splits_fields {n : ℕ} (hpos : pos ≤ data.length) (h : ¬FieldsWithin data n pos) :
    ∃ f : FieldDesc, ∀ (has : Bool) (v : f.type.Val),
      Splits (fun b => (Dec.on (iter structDecodeField n [⟨f, has, v⟩]) b).1) data pos := by
  induction n generalizing pos with
  | zero => exact absurd trivial h
  | succ n ih =>
    unfold FieldsWithin at h
    cases hend : fieldEnd data pos with
    | some next =>
      rw [hend] at h
      obtain ⟨f, hf⟩ := ih (stable_field.bounds hpos hend).2 h
      refine ⟨f, fun has v => ?_⟩
      obtain ⟨has', v', hgoes⟩ := exists_goesTo_single has v hend
      obtain ⟨t, t', hne⟩ := hf has' v'
      have hrun : ∀ u, Dec.on (iter structDecodeField (n + 1) [⟨f, has, v⟩])
          (exactly (data ++ u) pos) =
          Dec.on (iter structDecodeField n [⟨f, has', v'⟩]) (exactly (data ++ u) next) := fun u =>
        hgoes.on_bind (exactly_at u)
      refine ⟨t, t', ?_⟩
      simp only [hrun]
      exact hne
    | none =>
      rw [hend] at h
      cases n with
      | zero =>
        obtain ⟨f, hf⟩ := exists_splits_field hpos hend fun hun => h ⟨rfl, hun⟩
        refine ⟨f, fun has v => ?_⟩
        obtain ⟨t, t', hne⟩ := hf has v
        have hrun : ∀ b, (Dec.on (iter structDecodeField 1 [⟨f, has, v⟩]) b).1 =
            ((structDecodeField [⟨f, has, v⟩]).on b).1 := by
          intro b
          obtain ⟨st, hst⟩ := total_structDecodeField [⟨f, has, v⟩] b
          exact (Dec.fst_bind hst).trans hst.symm
        refine ⟨t, t', ?_⟩
        simp only [hrun]
        exact hne
      | succ n =>
        -- the field is completed, and the next one is a byte with two values
        obtain ⟨u, hu⟩ := stable_field.complete hpos hend
        refine ⟨⟨1, .property, .value .u8, none⟩, fun has v => Splits.of_append (u := u) ?_⟩
        obtain ⟨has', v', hgoes⟩ :=
          exists_goesTo_single (f := ⟨1, .property, .value .u8, none⟩) has v hu
        have hnext : ∀ x,
            (Dec.on (iter structDecodeField (n + 2) [⟨⟨1, .property, .value .u8, none⟩, has, v⟩])
            (exactly (data ++ u ++ [0, 1, 0, x]) pos)).1 =
              .ok [⟨⟨1, .property, .value .u8, none⟩, true, x⟩] := by
          intro x
          refine (congrArg Prod.fst (hgoes.on_bind (exactly_at _))).trans ?_
          exact congrArg Prod.fst (structDecodeField_byte (n := n) has' v' x)
        refine ⟨[0, 1, 0, 0], [0, 1, 0, 1], ?_⟩
        simp only [hnext]
        decide

/-- A struct that does not lie in the packet, but for the number of its fields, is told apart. -/
lemma exists_splits_struct (hcount : pos + 2 ≤ data.length) (h : ¬StructWithin data pos) :
    ∃ f : FieldDesc, ∀ (has : Bool) (v : f.type.Val),
      Splits (fun b => ((structDecode [⟨f, has, v⟩]).on b).1) data pos := by
  obtain ⟨f, hf⟩ := exists_splits_fields hcount fun hfields => h ⟨hcount, hfields⟩
  refine ⟨f, fun has v => ?_⟩
  obtain ⟨t, t', hne⟩ := hf false v
  have hrun : ∀ u, (structDecode [⟨f, has, v⟩]).on (exactly (data ++ u) pos) =
      Dec.on (iter structDecodeField (wordAt data 2 pos) [⟨f, false, v⟩])
        (exactly (data ++ u) (pos + 2)) := by
    intro u
    refine ((goesTo_readU16 hcount).on_bind (exactly_at u)).trans ?_
    rw [toNat_wordAt16]
    rfl
  refine ⟨t, t', ?_⟩
  simp only [hrun]
  exact hne

end Fields

/-! ## Elements -/

section Elements

variable {bus : Bus} {data : List UInt8} {k : ElementKind} {ks : List ElementKind} {pos pos' : ℕ}

/-- The descriptor of an object with an event and a method that have the same uid. -/
def wideDesc (uid sub : UInt16) (desc : StructDesc) : ObjectDesc :=
  ⟨uid, desc, [⟨sub, []⟩], [⟨sub, some desc⟩]⟩

/-- A bus with one object of this kind and one bus event. -/
def wideBus (uid handle sub event : UInt16) (desc : StructDesc) : Bus where
  api := ⟨CString.ofBytes [], [wideDesc uid sub desc], [⟨event⟩], 0⟩
  hash := [⟨wideDesc uid sub desc, handle, true, structInit desc⟩]
  objects := [handle]

/-- On the bus that the words of an element name, its data are decoded as the chosen struct. -/
lemma exists_elementTarget (hk : k ≠ .removal)
    (hwords : ∀ i < k.checked, wordAt data 2 (pos + 2 * i) ≠ 0)
    (event : UInt16) (desc : StructDesc) : ∃ (st : Struct) (make : Option Struct → Item),
      elementTarget (wideBus (headWord data pos 0) (headWord data pos 1)
        (headWord data pos 2) event desc)
          data pos k = some (some st, make) ∧
        st.desc = desc ∧ ∀ a b, make (some a) = make (some b) → a = b := by
  have hne : ∀ i < k.checked, headWord data pos i ≠ 0 := by
    intro i hi hzero
    have hword := congrArg UInt16.toNat hzero
    rw [headWord, toNat_wordAt16] at hword
    exact hwords i hi hword
  have hinit : (structInit desc).desc = desc := by
    rw [Struct.desc, structInit, List.map_map]
    exact List.map_id desc
  unfold elementTarget
  generalize hfirst : headWord data pos 0 = uid
  generalize hsecond : headWord data pos 1 = handle
  generalize hthird : headWord data pos 2 = sub
  have hobject : uid ≠ 0 → (wideBus uid handle sub event desc).api.object? uid =
      some (wideDesc uid sub desc) := by
    intro huid
    rw [BusDesc.object?, if_neg huid, wideBus]
    exact List.find?_cons_of_pos (decide_eq_true rfl)
  have hfound : handle ≠ 0 → (wideBus uid handle sub event desc).object? handle =
      some ⟨wideDesc uid sub desc, handle, true, structInit desc⟩ := by
    intro hhandle
    rw [Bus.object?, if_neg hhandle, wideBus]
    exact List.find?_cons_of_pos (decide_eq_true (p := handle = handle) rfl)
  cases k with
  | removal => exact absurd rfl hk
  | object =>
    have huid : uid ≠ 0 := hfirst ▸ hne 0 (by decide)
    have hhandle : handle ≠ 0 := hsecond ▸ hne 1 (by decide)
    have hcheck : objectAddCheck (wideBus uid handle sub event desc).api uid handle =
        some (wideDesc uid sub desc) := by
      rw [objectAddCheck, if_neg (not_or.mpr ⟨huid, hhandle⟩), hobject huid]
    simp only [hcheck]
    refine ⟨_, _, rfl, ?_, fun a b h => ?_⟩
    · rw [Struct.desc, structSetHasFields, List.map_map]
      exact hinit
    · exact congrArg Object.info (Item.object.inj h)
  | event =>
    have huid : uid ≠ 0 := hfirst ▸ hne 0 (by decide)
    have hhandle : handle ≠ 0 := hsecond ▸ hne 1 (by decide)
    have hsub : sub ≠ 0 := hthird ▸ hne 2 (by decide)
    have hdesc : (wideBus uid handle sub event desc).api.event? uid sub = some ⟨sub, []⟩ := by
      rw [BusDesc.event?, if_neg hsub, hobject huid, Option.bind_some, wideDesc]
      exact List.find?_cons_of_pos (decide_eq_true rfl)
    have hcheck : eventCheck (wideBus uid handle sub event desc) uid handle sub =
        some (⟨wideDesc uid sub desc, handle⟩, ⟨sub, []⟩) := by
      rw [eventCheck, if_neg (not_or.mpr ⟨huid, not_or.mpr ⟨hhandle, hsub⟩⟩), hfound hhandle]
      exact (if_neg (not_not.mpr rfl)).trans
        (by rw [show (wideDesc uid sub desc).uid = uid from rfl, hdesc]; rfl)
    simp only [hcheck]
    refine ⟨_, _, rfl, hinit, fun a b h => ?_⟩
    exact congrArg Event.info (Item.event.inj h)
  | call =>
    have huid : uid ≠ 0 := hfirst ▸ hne 0 (by decide)
    have hhandle : handle ≠ 0 := hsecond ▸ hne 1 (by decide)
    have hsub : sub ≠ 0 := hthird ▸ hne 2 (by decide)
    have hdesc : (wideBus uid handle sub event desc).api.method? uid sub =
        some ⟨sub, some desc⟩ := by
      rw [BusDesc.method?, if_neg hsub, hobject huid, Option.bind_some, wideDesc]
      exact List.find?_cons_of_pos (decide_eq_true rfl)
    have hcheck : callCheck (wideBus uid handle sub event desc) uid handle sub =
        some (⟨wideDesc uid sub desc, handle⟩, ⟨sub, some desc⟩) := by
      rw [callCheck, hfound hhandle]
      exact (if_neg (not_not.mpr rfl)).trans
        (by rw [show (wideDesc uid sub desc).uid = uid from rfl, hdesc]; rfl)
    simp only [hcheck]
    refine ⟨_, _, rfl, ?_, fun a b h => ?_⟩
    · rw [Struct.desc, structZero, List.map_map]
      exact List.map_id desc
    · exact Option.some.inj (congrArg Call.args (Item.call.inj h))

/-- Elements are decoded one behind the other. -/
lemma itemsOn_cons (bus : Bus) (k : ElementKind) (ks : List ElementKind) (b : Buffer) :
    ∃ item b', (elementDecode bus k).on b = (.ok item, b') ∧
    itemsOn bus (k :: ks) b = item.toList ++ itemsOn bus ks b' := by
  obtain ⟨item, hitem⟩ := total_elementDecode bus k b
  have hrun : (elementDecode bus k).on b = (.ok item, ((elementDecode bus k).on b).2) :=
    Prod.ext hitem rfl
  refine ⟨item, _, hrun, ?_⟩
  obtain ⟨items, hitems⟩ := total_elementsDecode bus ks ((elementDecode bus k).on b).2
  have hfirst : ((elementsDecode bus (k :: ks)).on b).1 = .ok (item.toList ++ items) :=
    (Dec.fst_bind hitem).trans (Dec.fst_bind hitems)
  rw [itemsOn, itemsOn, hfirst, hitems]
  rfl

/-- Behind the end of the packet there are no elements. -/
lemma itemsOn_starved {b : Buffer} (h : b.length < b.pos + 4) : itemsOn bus ks b = [] := by
  induction ks generalizing b with
  | nil => rfl
  | cons k ks ih =>
    have hhead : 4 ≤ k.head := by cases k <;> decide
    obtain ⟨b', hrun, hlength, hleft⟩ := elementDecode_starved bus (k := k) (b := b) (by omega)
    obtain ⟨item, b'', hrun', hitems⟩ := itemsOn_cons bus k ks b
    rw [hrun] at hrun'
    cases hrun'
    rw [hitems, ih (by omega)]
    rfl

/-- What follows an element is told apart behind it. -/
lemma GoesTo.splits_items {item : Option Item} (h : GoesTo data (elementDecode bus k) pos item pos')
    (hsplits : Splits (itemsOn bus ks) data pos') : Splits (itemsOn bus (k :: ks)) data pos := by
  obtain ⟨t, t', hne⟩ := hsplits
  have hitems : ∀ u, itemsOn bus (k :: ks) (exactly (data ++ u) pos) =
      item.toList ++ itemsOn bus ks (exactly (data ++ u) pos') := by
    intro u
    obtain ⟨item', b', hrun, hcons⟩ := itemsOn_cons bus k ks (exactly (data ++ u) pos)
    rw [h _ (exactly_at u)] at hrun
    cases hrun
    exact hcons
  refine ⟨t, t', fun heq => hne ?_⟩
  rw [hitems, hitems] at heq
  exact List.append_cancel_left heq

/-- A struct whose number of fields is there is decoded. -/
lemma exists_ok_structDecode (st : Struct) {b : Buffer} (h : b.At data pos)
    (hcount : pos + 2 ≤ data.length) : ∃ st', ((structDecode st).on b).1 = .ok st' := by
  obtain ⟨st', hst'⟩ := total_iter total_structDecodeField (UInt16.ofNat (wordAt data 2 pos)).toNat
    (structClearHasFields st) (b.seek (pos + 2))
  exact ⟨st', (congrArg Prod.fst ((goesTo_readU16 hcount).on_bind h)).trans hst'⟩

/-- The first of the elements is there with its struct. -/
lemma itemsOn_target (hk : k ≠ .removal) (hin : k.start pos ≤ data.length) {b : Buffer}
    (hb : b.At data pos)
    {st st' : Struct} {make : Option Struct → Item}
    (htarget : elementTarget bus data pos k = some (some st, make))
    (hst : ((structDecode st).on (b.seek (k.start pos))).1 = .ok st') :
    (itemsOn bus (k :: ks) b).head? = some (make (some st')) := by
  obtain ⟨item, b', hrun, hcons⟩ := itemsOn_cons bus k ks b
  have hdata : ((dataDecode (some st)).on (b.seek (k.start pos))).1 = .ok (some st') := by
    rw [dataDecode, run_map, hst]
    rfl
  rw [elementDecode_on hk hin hb, elementTail_some htarget, hdata] at hrun
  cases hrun
  rw [hcons]
  rfl

/-- Without the number of its fields the struct of an element is not there, nor is an element behind
it. -/
lemma itemsOn_countless (hk : k ≠ .removal) (hin : k.start pos ≤ data.length)
    (hcount : data.length < k.start pos + 2) {st : Struct} {make : Option Struct → Item}
    (htarget : elementTarget bus data pos k = some (some st, make)) :
    itemsOn bus (k :: ks) (exactly data pos) = [] := by
  have hread : readU16.run readHandler (exactly data (k.start pos)) =
      (.error .einval, exactly data (k.start pos)) := by
    rw [readU16, run_perform, readHandler, bufferReadU16, bufferReadWord_fails hcount]
    rfl
  have hstruct : (structDecode st).on (exactly data (k.start pos)) =
      (.error .einval, exactly data (k.start pos)) := run_bind_error _ hread
  have hdata : (dataDecode (some st)).on (exactly data (k.start pos)) =
      (.error .einval, exactly data (k.start pos)) := by
    rw [dataDecode, run_map, hstruct]
    rfl
  obtain ⟨item, b', hrun, hcons⟩ := itemsOn_cons bus k ks (exactly data pos)
  have htail := elementTail_some (b := exactly data (k.start pos)) htarget
  rw [hdata] at htail
  rw [elementDecode_on hk hin exactly_at_self] at hrun
  change (elementTail bus data k pos).on (exactly data (k.start pos)) = _ at hrun
  rw [htail] at hrun
  cases hrun
  rw [hcons]
  refine itemsOn_starved ?_
  rw [bufferSetReadPosition]
  split
  · change data.length < k.start pos + 4
    omega
  · change data.length < k.start pos + wordAt data 4 (pos + 2 * k.words) + 4
    omega

/-- An element is told apart if its data do not lie in the packet and its words, which are there,
are not zero. -/
lemma exists_splits_target (ks : List ElementKind) (hk : k ≠ .removal)
    (hwords : ∀ i < k.checked, wordAt data 2 (pos + 2 * i) ≠ 0)
    (hin : k.start pos ≤ data.length) (h : ¬StructWithin data (k.start pos)) (event : UInt16) :
    ∃ uid handle sub desc, Splits (itemsOn (wideBus uid handle sub event desc) (k :: ks))
      data pos := by
  by_cases hcount : k.start pos + 2 ≤ data.length
  · -- the struct is told apart
    obtain ⟨f, hf⟩ := exists_splits_struct hcount h
    obtain ⟨st, make, htarget, hdesc, hmake⟩ := exists_elementTarget hk hwords event [f]
    obtain ⟨s, rfl, rfl⟩ := List.map_eq_singleton_iff.mp hdesc
    obtain ⟨t, t', hne⟩ := hf s.has s.val
    refine ⟨headWord data pos 0, headWord data pos 1, headWord data pos 2, [s.desc], t, t',
      fun heq => hne ?_⟩
    have hhead := congrArg List.head? heq
    obtain ⟨st₁, h₁⟩ := exists_ok_structDecode [s] ((exactly_at t).seek (k.start pos)) hcount
    obtain ⟨st₂, h₂⟩ := exists_ok_structDecode [s] ((exactly_at t').seek (k.start pos)) hcount
    rw [itemsOn_target hk hin (exactly_at t) htarget h₁,
      itemsOn_target hk hin (exactly_at t') htarget h₂] at hhead
    have hst := hmake _ _ (Option.some.inj hhead)
    exact (h₁.trans (congrArg Except.ok hst)).trans h₂.symm
  · -- the number of fields is there or not
    obtain ⟨st, make, htarget, -, -⟩ := exists_elementTarget hk hwords event []
    obtain ⟨u, hlen, -, -⟩ := exists_padding data (k.start pos + 2) 0
    have hu : k.start pos + 2 ≤ (data ++ u).length := hlen.ge.trans' (le_max_right _ _)
    refine ⟨headWord data pos 0, headWord data pos 1, headWord data pos 2, [], [], u, fun heq => ?_⟩
    have hhead := congrArg List.head? heq
    have hself : (exactly (data ++ u) pos).At (data ++ u) pos := exactly_at_self
    obtain ⟨st', hst'⟩ := exists_ok_structDecode st (hself.seek (k.start pos)) hu
    rw [itemsOn_target hk hin (exactly_at u) htarget hst', List.append_nil] at hhead
    rw [itemsOn_countless hk hin (not_le.mp hcount) htarget] at hhead
    cases hhead

/-- An element that is not void and whose data do not lie in the packet is told apart. -/
lemma exists_splits_head (hk : k ≠ .removal) (hvoid : ¬Void data k pos)
    (h : ¬StructWithin data (k.start pos)) (event : UInt16) :
    ∃ uid handle sub desc, Splits (itemsOn (wideBus uid handle sub event desc) (k :: ks))
      data pos := by
  -- the words that are not there are completed by ones
  obtain ⟨u, hlen, hnil, hbytes⟩ := exists_padding data (k.start pos) 1
  have hchecked : k.checked ≤ k.words := by cases k <;> decide
  have hstart : k.start pos = pos + 2 * k.words + 4 := rfl
  have hwords : ∀ i < k.checked, wordAt (data ++ u) 2 (pos + 2 * i) ≠ 0 := by
    intro i hi hzero
    by_cases hin : pos + 2 * i + 2 ≤ data.length
    · rw [wordAt_append u hin] at hzero
      exact hvoid ⟨i, hi, hin, hzero⟩
    · rw [wordAt_succ (k := 1) (hbytes (pos + 2 * i + 1) (by omega) (by omega))] at hzero
      exact Nat.succ_ne_zero _ hzero
  have hstruct : ¬StructWithin (data ++ u) (k.start pos) := by
    by_cases hin : k.start pos ≤ data.length
    · rwa [hnil hin, List.append_nil]
    · rintro ⟨hcount, -⟩
      omega
  obtain ⟨uid, handle, sub, desc, hsplits⟩ :=
    exists_splits_target ks hk hwords (by omega) hstruct event
  exact ⟨uid, handle, sub, desc, hsplits.of_append⟩

/-- A removal is told apart if it does not lie in the packet. -/
lemma exists_splits_removal (h : data.length < pos + 4) (event : UInt16) :
    ∃ uid handle sub desc, Splits (itemsOn (wideBus uid handle sub event desc) (.removal :: ks))
      data pos := by
  obtain ⟨u, hlen, hne⟩ := exists_wordAt_ne_zero (k := 1) (n := pos + 2) h
  have hhandle : headWord (data ++ u) pos 1 ≠ 0 := by
    intro hzero
    have hword := congrArg UInt16.toNat hzero
    rw [headWord, toNat_wordAt16] at hword
    exact hne hword
  refine ⟨1, headWord (data ++ u) pos 1, 1, [], [], u, fun heq => ?_⟩
  obtain ⟨item, b', hrun, hcons⟩ := itemsOn_cons (wideBus 1 (headWord (data ++ u) pos 1) 1 event [])
    .removal ks (exactly (data ++ u) pos)
  rw [goesTo_removal hlen.ge _ exactly_at_self, Bus.object?, if_neg hhandle] at hrun
  cases hrun
  rw [hcons, List.append_nil, itemsOn_starved h] at heq
  exact absurd heq (by simp [wideBus])

/-- Behind the end of the packet elements do not lie in the packet. -/
lemma not_elementsWithin_length (hks : ks ≠ []) : ¬ElementsWithin data ks data.length := by
  cases ks with
  | nil => exact absurd rfl hks
  | cons k ks =>
    by_cases hk : k = .removal
    · subst hk
      rintro ⟨hin, -⟩
      omega
    · intro h
      have hdata : Void data k data.length ∨ StructWithin data (k.start data.length) := by
        cases k with
        | removal => exact absurd rfl hk
        | _ => exact h.1
      rcases hdata with ⟨i, -, hin, -⟩ | ⟨hin, -⟩
      · omega
      · rw [ElementKind.start] at hin
        omega

/-- The data of an element can be completed to their announced end. -/
lemma exists_announcedEnd (h : data.length < announcedEnd data k pos) :
    ∃ u, announcedEnd (data ++ u) k pos = (data ++ u).length := by
  -- the size is completed first, and then what it announces
  obtain ⟨u, hlen, hnil, -⟩ := exists_padding data (k.start pos) 0
  have hin : k.start pos ≤ (data ++ u).length := hlen.ge.trans' (le_max_right _ _)
  have hle : (data ++ u).length ≤ announcedEnd (data ++ u) k pos := by
    by_cases hstart : k.start pos ≤ data.length
    · rw [hnil hstart, List.append_nil]
      exact h.le
    · rw [hlen, announcedEnd]
      omega
  obtain ⟨v, hv, -, -⟩ := exists_padding (data ++ u) (announcedEnd (data ++ u) k pos) 0
  refine ⟨u ++ v, ?_⟩
  rw [← List.append_assoc, hv, max_eq_right hle, announcedEnd, announcedEnd, wordAt_append v hin]

/-- Elements that do not lie in the packet are told apart by a bus with one object. -/
lemma exists_splits_elements (h : ¬ElementsWithin data ks pos) (event : UInt16) :
    ∃ uid handle sub desc, Splits (itemsOn (wideBus uid handle sub event desc) ks) data pos := by
  induction ks generalizing data pos with
  | nil => exact absurd trivial h
  | cons k ks ih =>
    by_cases hk : k = .removal
    · subst hk
      by_cases hin : pos + 4 ≤ data.length
      · obtain ⟨uid, handle, sub, desc, hsplits⟩ := ih fun hrest => h ⟨hin, hrest⟩
        exact ⟨uid, handle, sub, desc, (goesTo_removal hin).splits_items hsplits⟩
      · exact exists_splits_removal (not_le.mp hin) event
    have hdata : ¬((Void data k pos ∨ StructWithin data (k.start pos)) ∧ (ks = [] ∨
        announcedEnd data k pos ≤ data.length ∧
          ElementsWithin data ks (announcedEnd data k pos))) := by
      cases k with
      | removal => exact absurd rfl hk
      | _ => exact h
    by_cases hwithin : Void data k pos ∨ StructWithin data (k.start pos)
    · -- the element is the same one, and one behind it is not
      have hbehind : ∀ {data : List UInt8}, Void data k pos ∨ StructWithin data (k.start pos) →
          announcedEnd data k pos ≤ data.length →
          ¬ElementsWithin data ks (announcedEnd data k pos) →
          ∃ uid handle sub desc,
            Splits (itemsOn (wideBus uid handle sub event desc) (k :: ks)) data pos := by
        intro data hwithin hend hrest
        obtain ⟨uid, handle, sub, desc, hsplits⟩ := ih hrest
        obtain ⟨item, -, hgoes⟩ := exists_reads_elementDecode (wideBus uid handle sub event desc) hk
          (le_trans (Nat.le_add_right _ _) hend) hwithin
        exact ⟨uid, handle, sub, desc, (hgoes hend).splits_items hsplits⟩
      obtain ⟨hks, hrest⟩ := not_or.mp fun hnext => hdata ⟨hwithin, hnext⟩
      by_cases hend : announcedEnd data k pos ≤ data.length
      · exact hbehind hwithin hend fun hin => hrest ⟨hend, hin⟩
      · obtain ⟨u, hu⟩ := exists_announcedEnd (not_le.mp hend)
        have hwithin' : Void (data ++ u) k pos ∨ StructWithin (data ++ u) (k.start pos) :=
          hwithin.imp (Void.append u) (StructWithin.append u)
        obtain ⟨uid, handle, sub, desc, hsplits⟩ := hbehind hwithin' hu.le (by
          rw [hu]
          exact not_elementsWithin_length hks)
        exact ⟨uid, handle, sub, desc, hsplits.of_append⟩
    · obtain ⟨hvoid, hstruct⟩ := not_or.mp hwithin
      exact exists_splits_head hk hvoid hstruct event

end Elements

end Obus
