import Obus.Lib.Related
import Obus.Projection
import Obus.Python.Arrival
import Obus.Python.Client

/-!
# What the Python library writes and the C library reads

The encoder of the Python library takes whatever `struct` takes for a field: an integer for a
boolean, a boolean for an integer, a float that is cut off, a label for an enumeration.  `sentValue`
says what the C library reads for a value, with the bytes on the wire, if the value can be written
at all.  A string is read up to its first NUL.

An array is written element by element behind its length, and the C library finds the same elements.
-/

namespace Obus.Python

open Fallible Cursor

/-! ## Values as they are sent -/

/-- The number that an unsigned word of `k` bytes is written for. -/
def unsignedWord (k : ℕ) (n : ℤ) : Option ℕ := if 0 ≤ n ∧ n < 256 ^ k then some n.toNat else none

/-- The number that a signed word of `k` bytes is written for. -/
def signedWord (k : ℕ) (n : ℤ) : Option ℕ :=
  if -(256 ^ k) ≤ 2 * n ∧ 2 * n < 256 ^ k then some (n % 256 ^ k).toNat else none

/-- The byte for a value of a boolean field: it is 1 for `True` alone. -/
def boolWord : Value → ℕ
  | .bool true => 1
  | _ => 0

/-- A word that has been found, as the C library reads it, with its bytes. -/
def sentWord {β : Type} (cell : ℕ → β) (k : ℕ) (word : Option ℕ) : Option (β × List UInt8) :=
  word.map fun n => (cell n, bigEndian k n)

section Sent

variable (fl : Floats) (f : FieldDesc)

/-- A string with its size in front. -/
def sentBytes (s : List UInt8) : Option (Option CString × List UInt8) :=
  if s.length + 1 < 256 ^ 4 then some (some (CString.ofBytes s), sizedBytes (s ++ [0])) else none

/-- The string that is sent for a value, or the size of an absent one. -/
def sentText : Value → Option (Option CString × List UInt8)
  | .none => some (none, bigEndian 4 0)
  | .str s => sentBytes s
  | .unicode s => (asciiBytes s).bind sentBytes
  | .bool _ | .int _ | .float _ | .list _ => none

/-- What the C library reads for a value, and the bytes of the value. -/
def sentValue : (t : BaseType) → Value → Option (t.Cell × List UInt8)
  | .bool, v => sentWord UInt8.ofNat 1 (some (boolWord v))
  | .u8, v => sentWord UInt8.ofNat 1 ((packInt fl v).toOption.bind (unsignedWord 1))
  | .i8, v => sentWord UInt8.ofNat 1 ((packInt fl v).toOption.bind (signedWord 1))
  | .u16, v => sentWord UInt16.ofNat 2 ((packInt fl v).toOption.bind (unsignedWord 2))
  | .i16, v => sentWord UInt16.ofNat 2 ((packInt fl v).toOption.bind (signedWord 2))
  | .u32, v => sentWord UInt32.ofNat 4 ((packInt fl v).toOption.bind (unsignedWord 4))
  | .i32, v => sentWord UInt32.ofNat 4 ((packInt fl v).toOption.bind (signedWord 4))
  | .u64, v => sentWord UInt64.ofNat 8 ((packInt fl v).toOption.bind (unsignedWord 8))
  | .i64, v => sentWord UInt64.ofNat 8 ((packInt fl v).toOption.bind (signedWord 8))
  | .enum, v => sentWord UInt32.ofNat 4 ((f.toInt v).toOption.bind (signedWord 4))
  | .string, v => sentText v
  | .f32, v =>
    sentWord UInt32.ofNat 4 ((packFloat fl v).toOption.bind fun bits =>
      (fl.narrow bits).map UInt32.toNat)
  | .f64, v => sentWord UInt64.ofNat 8 ((packFloat fl v).toOption.bind fun bits => some bits.toNat)

/-- What the C library reads for the items of an array, and their bytes behind the number of them.
-/
def sentItems (t : BaseType) (l : List Value) :
    Option ((Obus.FieldType.array t).Val × List UInt8) :=
  if l.length < 256 ^ 4 then
    (l.mapM (sentValue fl f t)).map fun sent =>
      (⟨UInt32.ofNat l.length, sent.map Prod.fst⟩, bigEndian 4 l.length ++ sent.flatMap Prod.snd)
  else none

/-- What the C library reads for the value of a field, and the bytes of the value. -/
def sentField : (t : Obus.FieldType) → Value → Option (t.Val × List UInt8)
  | .value t, v => sentValue fl f t v
  | .array t, v => v.items.toOption.bind (sentItems fl f t)

end Sent

/-! ## The encoder writes the bytes -/

section Writers

variable {fl : Floats} {f : FieldDesc}

lemma puts_lift {α : Type} {r : Except Exc α} {g : α → Py Unit} {o : α → Option (List UInt8)}
    (h : ∀ a, Puts (g a) (o a)) : Puts (lift r >>= g) (r.toOption.bind o) := by
  cases r with
  | error e => exact fun _ _ _ => not_leads_fail
  | ok a => exact h a

lemma puts_pack (k : ℕ) (n : ℤ) : Puts (pack k n) ((unsignedWord k n).map (bigEndian k)) := by
  unfold pack unsignedWord
  split_ifs with h
  · exact puts_write _
  · exact puts_fail _

lemma puts_packSigned (k : ℕ) (n : ℤ) :
    Puts (packSigned k n) ((signedWord k n).map (bigEndian k)) := by
  unfold packSigned signedWord
  split_ifs with h
  · exact puts_write _
  · exact puts_fail _

lemma sentWord_snd {β : Type} (cell : ℕ → β) (k : ℕ) (word : Option ℕ) :
    (sentWord cell k word).map Prod.snd = word.map (bigEndian k) := by
  rw [sentWord, Option.map_map]
  rfl

/-- A number that is packed behind a computation. -/
lemma puts_word {α β : Type} {r : Except Exc α} {g : α → Py Unit} {word : α → Option ℕ} {k : ℕ}
    (h : ∀ a, Puts (g a) ((word a).map (bigEndian k))) (cell : ℕ → β) :
    Puts (lift r >>= g) ((sentWord cell k (r.toOption.bind word)).map Prod.snd) := by
  rw [sentWord_snd, Option.map_bind]
  exact puts_lift h

lemma puts_writeText (s : List UInt8) : Puts (writeText s) ((sentBytes s).map Prod.snd) := by
  unfold writeText sentBytes
  split_ifs with h
  · have hbytes : sizedBytes (s ++ [0]) = bigEndian 4 (s.length + 1) ++ (s ++ [0]) := by
      rw [sizedBytes, List.length_append, List.length_singleton]
    rw [Option.map_some, hbytes]
    exact puts_write _
  · exact puts_fail _

lemma puts_writeString (v : Value) : Puts (writeString v) ((sentText v).map Prod.snd) := by
  cases v with
  | none => exact puts_pack 4 0
  | str s => exact puts_writeText s
  | unicode s =>
    dsimp only [writeString, sentText]
    cases asciiBytes s with
    | none => exact puts_fail _
    | some s => exact puts_writeText s
  | bool _ | int _ | float _ | list _ => exact puts_fail _

/-- `_encodeField` writes the bytes of the value, or raises an exception if there are none. -/
lemma puts_encodeField (fl : Floats) {t : BaseType} (hbase : baseType? f.type = some t)
    (v : Value) : Puts (encodeField fl f v) ((sentValue fl f t v).map Prod.snd) := by
  unfold encodeField
  rw [hbase]
  cases t with
  | u8 | u16 | u32 | u64 => exact puts_word (fun n => puts_pack _ n) _
  | i8 | i16 | i32 | i64 | enum => exact puts_word (fun n => puts_packSigned _ n) _
  | bool =>
    change Puts _ ((sentWord UInt8.ofNat 1 (some (boolWord v))).map Prod.snd)
    rw [sentWord_snd]
    cases v with
    | bool b =>
      cases b with
      | true => exact puts_pack 1 1
      | false => exact puts_pack 1 0
    | none | int _ | float _ | str _ | unicode _ | list _ => exact puts_pack 1 0
  | string => exact puts_writeString v
  | f32 =>
    refine puts_word (fun bits => ?_) _
    unfold writeF32
    cases fl.narrow bits with
    | none => exact puts_fail _
    | some bits => exact puts_write _
  | f64 => exact puts_word (fun bits => puts_write _) _

/-- Entries that all have bytes, which are written one behind the other. -/
lemma every_sent {α β : Type} (sent : α → Option β) (bytes : β → List UInt8) (l : List α) :
    every (fun a => (sent a).map bytes) l = (l.mapM sent).map fun ps => ps.flatMap bytes := by
  induction l with
  | nil => rfl
  | cons a l ih =>
    rw [every, ih, List.mapM_cons]
    cases sent a with
    | none => rfl
    | some p =>
      cases l.mapM sent with
      | none => rfl
      | some ps => rfl

/-- A number that is small enough, or an exception. -/
lemma puts_packNat (k n : ℕ) :
    Puts (pack k n) (if n < 256 ^ k then some (bigEndian k n) else none) := by
  have hword : (unsignedWord k n).map (bigEndian k) = if n < 256 ^ k then some (bigEndian k n)
      else none := by
    have hiff : (0 ≤ (n : ℤ) ∧ (n : ℤ) < 256 ^ k) ↔ n < 256 ^ k :=
      ⟨fun h => by exact_mod_cast h.2, fun h => ⟨Int.natCast_nonneg _, by exact_mod_cast h⟩⟩
    unfold unsignedWord
    simp only [hiff]
    split_ifs <;> rfl
  exact hword ▸ puts_pack k n

lemma puts_writeU8 (u : UInt8) : Puts (writeU8 u.toNat) (some (bigEndian 1 u.toNat)) := by
  have hputs := puts_packNat 1 u.toNat
  rwa [if_pos (lt_of_lt_of_le u.toNat_lt (by decide))] at hputs

lemma puts_writeU16 (u : UInt16) : Puts (writeU16 u.toNat) (some (bigEndian 2 u.toNat)) := by
  have hputs := puts_packNat 2 u.toNat
  rwa [if_pos (lt_of_lt_of_le u.toNat_lt (by decide))] at hputs

lemma every_items (t : BaseType) (l : List Value) :
    every (fun i => (sentValue fl f t i).map Prod.snd) l =
    (l.mapM (sentValue fl f t)).map fun ps => ps.flatMap Prod.snd := every_sent _ _ l

lemma sentItems_snd (t : BaseType) (l : List Value) : (sentItems fl f t l).map Prod.snd =
    both (if l.length < 256 ^ 4 then some (bigEndian 4 l.length) else none)
      ((l.mapM (sentValue fl f t)).map fun ps => ps.flatMap Prod.snd) := by
  unfold sentItems
  split_ifs with h
  · cases l.mapM (sentValue fl f t) with
    | none => rfl
    | some ps => rfl
  · rfl

/-- The two branches of the encoder for a field. -/
lemma puts_encodeValue (fl : Floats) {t : Obus.FieldType} (htype : f.type = t.code.toNat)
    (v : Value) : Puts (encodeValue fl f v) ((sentField fl f t v).map Prod.snd) := by
  unfold encodeValue
  cases t with
  | value t =>
    rw [htype, isArrayType_value, if_neg Bool.false_ne_true]
    exact puts_encodeField fl (by rw [htype, baseType?_value]) v
  | array t =>
    have hbase : baseType? f.type = some t := by rw [htype, baseType?_array]
    rw [htype, isArrayType_array, if_pos rfl]
    rw [sentField, Option.map_bind]
    refine puts_lift fun l => ?_
    have hcount := puts_packNat 4 l.length
    have hitems := puts_each (l := l) fun i _ => puts_encodeField fl hbase i
    rw [every_items] at hitems
    have hboth := hcount.bind (f := fun _ => each (encodeField fl f) l) hitems
    rw [Function.comp_apply, sentItems_snd]
    exact hboth

end Writers

/-! ## The decoder of the C library reads them -/

section Readers

variable {fl : Floats} {f : FieldDesc}

/-- Bytes that the C library reads for a value, and skips as a whole. -/
structure ReadAs (t : BaseType) (c : t.Cell) (bs : List UInt8) : Prop where
  value : ∀ old, Parses (Obus.decodeValue t old) bs (.ok (), c)
  skip : ∀ type, BaseType.ofCode? (maskCode type) = some t → Parses (fieldSkipValue type) bs ()
  norm : t.norm c = c

lemma readAs_valueBytes {t : BaseType} {c : t.Cell} (hfits : t.Fits c) (hnorm : t.norm c = c) :
    ReadAs t c (valueBytes t c) := by
  refine ⟨fun old => ?_, fun type htype => parses_fieldSkipValue htype c hfits, hnorm⟩
  have hread := parses_value t c old hfits
  rwa [hnorm] at hread

lemma bigEndian_ofNat8 (n : ℕ) : bigEndian 1 (UInt8.ofNat n).toNat = bigEndian 1 n := by
  rw [UInt8.toNat_ofNat']
  exact bigEndian_mod 1 n

lemma bigEndian_ofNat16 (n : ℕ) : bigEndian 2 (UInt16.ofNat n).toNat = bigEndian 2 n := by
  rw [UInt16.toNat_ofNat']
  exact bigEndian_mod 2 n

lemma bigEndian_ofNat64 (n : ℕ) : bigEndian 8 (UInt64.ofNat n).toNat = bigEndian 8 n := by
  rw [UInt64.toNat_ofNat']
  exact bigEndian_mod 8 n

/-- A string is read up to its first NUL. -/
lemma readAs_text (s : List UInt8) (h : s.length + 1 < 256 ^ 4) :
    ReadAs .string (some (CString.ofBytes s)) (sizedBytes (s ++ [0])) := by
  have hlen : (s ++ [(0 : UInt8)]).length = s.length + 1 := by
    rw [List.length_append, List.length_singleton]
  have hsize : (UInt32.ofNat (s ++ [(0 : UInt8)]).length).toNat = (s ++ [(0 : UInt8)]).length := by
    rw [UInt32.toNat_ofNat', Nat.mod_eq_of_lt (by rw [hlen]; exact h)]
  have hhead := (parses_u32 (UInt32.ofNat (s ++ [(0 : UInt8)]).length)).attempt
  rw [hsize] at hhead
  refine ⟨fun old => ?_, fun type htype => ?_, rfl⟩
  · have hne : UInt32.ofNat (s ++ [(0 : UInt8)]).length ≠ 0 := by
      intro h0
      rw [h0, hlen] at hsize
      exact Nat.succ_ne_zero _ hsize.symm
    change Parses (Obus.readString old) _ _
    unfold Obus.readString
    refine hhead.bind ?_
    simp only [if_neg hne, hsize]
    refine (parses_dup (s ++ [0])).attempt.bind_nil ?_
    have hset : (s ++ [(0 : UInt8)]).set ((s ++ [(0 : UInt8)]).length - 1) 0 = s ++ [0] := by
      rw [hlen, Nat.add_sub_cancel, List.set_append_right _ _ le_rfl, Nat.sub_self]
      rfl
    have hback : CString.ofBytes (s ++ [0]) = CString.ofBytes s := by
      apply Subtype.ext
      change (s ++ [0]).takeWhile _ = s.takeWhile _
      rw [List.takeWhile_append]
      split_ifs with hall
      · rw [(List.takeWhile_prefix _).eq_of_length hall]
        exact List.append_nil s
      · rfl
    simp only [hset, hback]
    exact .pure _
  · unfold fieldSkipValue
    rw [htype]
    refine hhead.bind ?_
    simp only [hsize]
    exact (parses_incReadPosition (s ++ [0])).attempt.bind_nil (.pure ())

lemma readAs_sentBytes {s : List UInt8} {c : Option CString} {bs : List UInt8}
    (h : sentBytes s = some (c, bs)) : ReadAs .string c bs := by
  unfold sentBytes at h
  split_ifs at h with hlen
  obtain ⟨rfl, rfl⟩ := Prod.mk.inj (Option.some.inj h)
  exact readAs_text s hlen

lemma boolWord_cases (v : Value) : boolWord v = 0 ∨ boolWord v = 1 := by
  cases v with
  | bool b =>
    cases b with
    | true => exact Or.inr rfl
    | false => exact Or.inl rfl
  | none | int _ | float _ | str _ | unicode _ | list _ => exact Or.inl rfl

/-- A word is read as what it is. -/
lemma readAs_word {t : BaseType} {k : ℕ} {cell : ℕ → t.Cell} {word : Option ℕ} {c : t.Cell}
    {bs : List UInt8}
    (h : sentWord cell k word = some (c, bs)) (hbytes : ∀ n, valueBytes t (cell n) = bigEndian k n)
    (hfits : ∀ n, t.Fits (cell n)) (hnorm : ∀ n, t.norm (cell n) = cell n) : ReadAs t c bs := by
  obtain ⟨n, -, hsent⟩ := Option.map_eq_some_iff.mp h
  obtain ⟨rfl, rfl⟩ := Prod.mk.inj hsent
  rw [← hbytes n]
  exact readAs_valueBytes (hfits n) (hnorm n)

/-- A value is read as the one that was sent. -/
lemma sentValue_readAs {t : BaseType} {v : Value} {c : t.Cell} {bs : List UInt8}
    (h : sentValue fl f t v = some (c, bs)) : ReadAs t c bs := by
  cases t with
  | u8 | i8 => exact readAs_word h (fun n => bigEndian_ofNat8 n) (fun _ => trivial) fun _ => rfl
  | u16 | i16 => exact readAs_word h (fun n => bigEndian_ofNat16 n) (fun _ => trivial) fun _ => rfl
  | u32 | i32 | enum | f32 =>
    exact readAs_word h (fun n => bigEndian_ofNat32 n) (fun _ => trivial) fun _ => rfl
  | u64 | i64 | f64 =>
    exact readAs_word h (fun n => bigEndian_ofNat64 n) (fun _ => trivial) fun _ => rfl
  | bool =>
    have hsent : some (UInt8.ofNat (boolWord v), bigEndian 1 (boolWord v)) = some (c, bs) := h
    obtain ⟨rfl, rfl⟩ := Prod.mk.inj (Option.some.inj hsent)
    rcases boolWord_cases v with hword | hword
    · rw [hword]
      exact readAs_valueBytes (t := .bool) (c := (0 : UInt8)) trivial rfl
    · rw [hword]
      exact readAs_valueBytes (t := .bool) (c := (1 : UInt8)) trivial rfl
  | string =>
    cases v with
    | none =>
      obtain ⟨rfl, rfl⟩ := Prod.mk.inj (Option.some.inj h)
      exact readAs_valueBytes (t := .string) (c := none) (Nat.two_pow_pos 32) rfl
    | str s => exact readAs_sentBytes h
    | unicode s =>
      obtain ⟨s', -, hsent⟩ := Option.bind_eq_some_iff.mp h
      exact readAs_sentBytes hsent
    | bool _ | int _ | float _ | list _ => cases h

/-- A field is read as the one that was sent, and normalising it changes nothing. -/
lemma sentField_readFrom {g : Obus.FieldDesc} (has : Bool) {v : Value} {c : g.type.Val}
    {bs : List UInt8}
    (h : sentField fl f g.type v = some (c, bs)) : (Slot.mk g has c).ReadFrom bs ∧
    g.type.norm c = c := by
  obtain ⟨uid, role, type, drv⟩ := g
  cases type with
  | value t =>
    have hread := sentValue_readAs h
    refine ⟨⟨fun old => ?_, ?_⟩, hread.norm⟩
    · change Parses (Obus.decodeValue t old) bs (.ok (), t.norm c)
      rw [hread.norm]
      exact hread.value old
    · change Parses (Obus.skipField (Obus.FieldType.value t).code) bs ()
      unfold Obus.skipField
      rw [isArrayCode_value]
      exact hread.skip _ (ofCode?_maskCode_value t)
  | array t =>
    obtain ⟨l, -, hitems⟩ := Option.bind_eq_some_iff.mp h
    unfold sentItems at hitems
    split_ifs at hitems with hlen
    obtain ⟨ps, hps, hsent⟩ := Option.map_eq_some_iff.mp hitems
    obtain ⟨rfl, rfl⟩ := Prod.mk.inj hsent
    have hitem := List.mapM_eq_some_iff.mp hps
    have hlength := hitem.length_eq.symm
    have hread : ∀ p ∈ ps, ReadAs t p.1 p.2 := fun p hp => by
      obtain ⟨v, -, hv⟩ := hitem.exists_left hp
      exact sentValue_readAs hv
    have hnorm : (ps.map Prod.fst).map t.norm = ps.map Prod.fst := by
      rw [List.map_map]
      exact List.map_congr_left fun p hp => (hread p hp).norm
    have hsize : (UInt32.ofNat l.length).toNat = ps.length := by
      rw [UInt32.toNat_ofNat', Nat.mod_eq_of_lt (show l.length < 2 ^ 32 from hlen), hlength]
    have hhead := (parses_u32 (UInt32.ofNat l.length)).attempt
    rw [bigEndian_ofNat32] at hhead
    have hkept : (Obus.FieldType.array t).norm ⟨UInt32.ofNat l.length, ps.map Prod.fst⟩ =
        ⟨UInt32.ofNat l.length, ps.map Prod.fst⟩ := congrArg (ArrayVal.mk _) hnorm
    refine ⟨⟨fun old => ?_, ?_⟩, hkept⟩
    · change Parses (Obus.arrayDecode t old) _ (.ok (), (Obus.FieldType.array t).norm _)
      rw [hkept]
      refine hhead.bind ?_
      simp only [hsize]
      exact (parses_items fun p hp => (hread p hp).value t.item).bind_nil (.pure _)
    · change Parses (Obus.skipField (Obus.FieldType.array t).code) _ ()
      unfold Obus.skipField
      rw [isArrayCode_array]
      refine hhead.bind ?_
      simp only [hsize]
      exact parses_iter Prod.snd (g := fun _ _ => ()) (l := ps)
        (fun _ p hp => (hread p hp).skip _ (ofCode?_maskCode_array t)) ()

end Readers

end Obus.Python
