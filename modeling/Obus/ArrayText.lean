import Obus.Desc
import Obus.Lib.CharBuffer

/-!
# The text of an array

`obus_format_value` and `obus_format_array_value`, which print an array into a buffer: the number of
its items, the items behind each other, as far as there is room, and a brace.

The number is a `uint32_t`, and printed with `%d`.  This is the only flaw: `formatArrayValue_iff`
says that the buffer holds a text of the expected form, and that nothing is stored out of bounds,
exactly if the number is less than `2 ^ 31`.
-/

namespace Obus

/-! ## Values -/

/-- A number that is printed with `%u`. -/
def unsignedText (n : ℕ) : List UInt8 := (Nat.toDigits 10 n).map Char.toUInt8

/-- A number that is printed with `%d`. -/
def signedText : ℤ → List UInt8
  | .ofNat n => unsignedText n
  | .negSucc n => 45 :: unsignedText (n + 1)

/-- What is printed for numbers with a fraction, and the names of the constants of an enumeration.
-/
structure Printer where
  f32 : UInt32 → CString
  f64 : UInt64 → CString
  enumStr : UInt32 → Option CString

/-- `TRUE`. -/
def trueText : List UInt8 := [84, 82, 85, 69]

/-- `FALSE`. -/
def falseText : List UInt8 := [70, 65, 76, 83, 69]

/-- A string in quotes; without one, the quotes. -/
def quoted : Option CString → List UInt8
  | some s => [39] ++ s.val ++ [39]
  | none => [39, 39]

/-- A number without a constant, as `??? (%d)`. -/
def unknownText (v : UInt32) : List UInt8 :=
  [63, 63, 63, 32, 40] ++ signedText v.toInt32.toInt ++ [41]

variable (print : Printer) (t : BaseType)

/-- `format` of a generated driver: the name of a constant, or the number. -/
def enumFormat (v : UInt32) (buf : List UInt8) (i size : ℕ) : Option (List UInt8) :=
  match print.enumStr v with
  | some name => snprintf buf i size name
  | none => snprintf buf i size (unknownText v)

/-- `obus_format_value`, into the rest of a buffer from a place on. -/
def formatValue : (t : BaseType) → t.Cell → List UInt8 → ℕ → ℕ → Option (List UInt8)
  | .u8, (v : UInt8), buf, i, size => snprintf buf i size (unsignedText v.toNat)
  | .i8, (v : UInt8), buf, i, size => snprintf buf i size (signedText v.toInt8.toInt)
  | .u16, (v : UInt16), buf, i, size => snprintf buf i size (unsignedText v.toNat)
  | .i16, (v : UInt16), buf, i, size => snprintf buf i size (signedText v.toInt16.toInt)
  | .u32, (v : UInt32), buf, i, size => snprintf buf i size (unsignedText v.toNat)
  | .i32, (v : UInt32), buf, i, size => snprintf buf i size (signedText v.toInt32.toInt)
  | .u64, (v : UInt64), buf, i, size => snprintf buf i size (unsignedText v.toNat)
  | .i64, (v : UInt64), buf, i, size => snprintf buf i size (signedText v.toInt64.toInt)
  | .enum, (v : UInt32), buf, i, size => enumFormat print v buf i size
  | .bool, (v : UInt8), buf, i, size =>
    snprintf buf i size (if v ≠ 0 then trueText else falseText)
  | .string, (v : Option CString), buf, i, size => snprintf buf i size (quoted v)
  | .f32, (v : UInt32), buf, i, size => snprintf buf i size (print.f32 v)
  | .f64, (v : UInt64), buf, i, size => snprintf buf i size (print.f64 v)

/-! ## Arrays -/

variable {t}

/-- The loop of `obus_format_array_value` over the items from an index on, with the length of the
text so far; the new length, and the buffer. -/
def formatItems (size : ℕ) (array : List t.Cell) : ℕ → ℕ → ℕ → List UInt8 → Option (ℕ × List UInt8)
  | 0, _, length, buf => some (length, buf)
  | n + 1, i, length, buf => do
    let v ← array[i]?
    let buf ← formatValue print t v buf length (size - length)
    let length ← strlen buf
    if size ≤ length + 6 then
      let buf ← storeAll buf (size - 6) [46, 46, 46]
      some (size - 6 + 3, buf)
    else if 0 < n then
      let buf ← storeAll buf length [44, 32]
      formatItems size array n (i + 1) (length + 2) buf
    else formatItems size array n (i + 1) length buf

/-- `obus_format_array_value`. -/
def formatArrayValue (v : ArrayVal t) (buf : List UInt8) (size : ℕ) : Option (List UInt8) := do
  let buf ← snprintf buf 0 size ([91] ++ signedText v.nItems.toInt32.toInt ++ [93, 58, 123])
  let length ← strlen buf
  let (length, buf) ← formatItems print size v.items v.nItems.toNat 0 length buf
  storeAll buf length [125, 0]

/-! ## Texts -/

section Texts

lemma unsignedText_digit {n : ℕ} {c : UInt8} (h : c ∈ unsignedText n) :
    48 ≤ c.toNat ∧ c.toNat ≤ 57 := by
  obtain ⟨d, hd, rfl⟩ := List.mem_map.mp h
  have hdigit := Nat.isDigit_of_mem_toDigits (by decide) (by decide) hd
  rw [Char.isDigit, Bool.and_eq_true, decide_eq_true_eq, decide_eq_true_eq] at hdigit
  have hlow : 48 ≤ d.toNat := hdigit.1
  have hhigh : d.toNat ≤ 57 := hdigit.2
  have hnat : d.toUInt8.toNat = d.toNat := by
    rw [Char.toUInt8, UInt32.toNat_toUInt8]
    exact Nat.mod_eq_of_lt (by
      change d.toNat < 256
      omega)
  rw [hnat]
  exact ⟨hlow, hhigh⟩

lemma not_mem_unsignedText (n : ℕ) : 0 ∉ unsignedText n :=
  fun h => absurd (unsignedText_digit h).1 (by decide)

lemma not_mem_signedText (n : ℤ) : 0 ∉ signedText n := by
  cases n with
  | ofNat n => exact not_mem_unsignedText n
  | negSucc n => exact List.not_mem_cons_of_ne_of_not_mem (by decide) (not_mem_unsignedText (n + 1))

lemma unsignedText_length {n k : ℕ} (hk : 0 < k) (h : n < 10 ^ k) :
    (unsignedText n).length ≤ k := by
  rw [unsignedText, List.length_map]
  exact (Nat.length_toDigits_le_iff (by decide) hk).mpr h

lemma signedText_length (v : Int32) : (signedText v.toInt).length ≤ 11 := by
  have hlow := v.minValue_le_toInt
  have hhigh := v.toInt_lt
  cases hv : v.toInt with
  | ofNat n =>
    have hn : (unsignedText n).length ≤ 10 := unsignedText_length (by decide) (by
      rw [hv] at hhigh
      have : (n : ℤ) < 2 ^ 31 := hhigh
      omega)
    exact hn.trans (by decide)
  | negSucc n =>
    have hn : (unsignedText (n + 1)).length ≤ 10 := unsignedText_length (by decide) (by
      rw [hv] at hlow
      have : (-2 ^ 31 : ℤ) ≤ Int.negSucc n := hlow
      omega)
    exact Nat.succ_le_succ hn

variable (print : Printer)

/-- The text of a constant of an enumeration. -/
def enumText (v : UInt32) : List UInt8 :=
  match print.enumStr v with
  | some name => name
  | none => unknownText v

/-- The text of a value. -/
def valueText : (t : BaseType) → t.Cell → List UInt8
  | .u8, (v : UInt8) => unsignedText v.toNat
  | .i8, (v : UInt8) => signedText v.toInt8.toInt
  | .u16, (v : UInt16) => unsignedText v.toNat
  | .i16, (v : UInt16) => signedText v.toInt16.toInt
  | .u32, (v : UInt32) => unsignedText v.toNat
  | .i32, (v : UInt32) => signedText v.toInt32.toInt
  | .u64, (v : UInt64) => unsignedText v.toNat
  | .i64, (v : UInt64) => signedText v.toInt64.toInt
  | .enum, (v : UInt32) => enumText print v
  | .bool, (v : UInt8) => if v ≠ 0 then trueText else falseText
  | .string, (v : Option CString) => quoted v
  | .f32, (v : UInt32) => print.f32 v
  | .f64, (v : UInt64) => print.f64 v

lemma formatValue_eq (t : BaseType) (v : t.Cell) (buf : List UInt8) (i size : ℕ) :
    formatValue print t v buf i size = snprintf buf i size (valueText print t v) := by
  cases t with
  | enum =>
    change enumFormat print v buf i size = snprintf buf i size (enumText print v)
    unfold enumFormat enumText
    cases print.enumStr v with
    | none => rfl
    | some name => rfl
  | _ => rfl

lemma not_mem_quoted (v : Option CString) : 0 ∉ quoted v := by
  cases v with
  | none => decide
  | some s => simpa [quoted] using s.property

lemma not_mem_enumText (v : UInt32) : 0 ∉ enumText print v := by
  unfold enumText
  cases print.enumStr v with
  | none => simpa [unknownText] using not_mem_signedText _
  | some name => exact name.property

/-- There is no null byte in the text of a value. -/
lemma not_mem_valueText (t : BaseType) (v : t.Cell) : 0 ∉ valueText print t v := by
  cases t with
  | u8 | u16 | u32 | u64 => exact not_mem_unsignedText _
  | i8 | i16 | i32 | i64 => exact not_mem_signedText _
  | f32 => exact (print.f32 v).property
  | f64 => exact (print.f64 v).property
  | bool =>
    change 0 ∉ if v ≠ (0 : UInt8) then trueText else falseText
    split_ifs
    · decide
    · decide
  | string => exact not_mem_quoted v
  | enum => exact not_mem_enumText print v

end Texts

/-! ## The loop -/

section Loop

variable (print : Printer) {t : BaseType} {size i : ℕ} {array : List t.Cell}
  {s r z full text : List UInt8} {v : t.Cell}

/-- The texts of the items, with separators. -/
def joined (items : List t.Cell) : List UInt8 :=
  [44, 32].intercalate (items.map (valueText print t))

/-- A text is there as a whole, or up to the last six bytes of the buffer, and an ellipsis follows.
-/
def Shortened (size : ℕ) (full text : List UInt8) : Prop :=
  text = full ∨ size ≤ full.length + 6 ∧ text = full.take (size - 6) ++ [46, 46, 46]

/-- The loop ends with a text, at the begin of the buffer, and there is room behind it. -/
def EndsWith (size : ℕ) (full z : List UInt8) (result : Option (ℕ × List UInt8)) : Prop :=
  ∃ text r, result = some (text.length, text ++ (r ++ z)) ∧ text.length + r.length = size ∧
  2 ≤ r.length ∧ 0 ∉ text ∧
    Shortened size full text

/-- An iteration that leaves at most six bytes behind its text replaces them. -/
lemma endsWith_ellipsis (hsize : s.length + r.length = size) (hlong : size ≤ s.length + 6)
    (hshort : 6 ≤ size) (hs : 0 ∉ s) (hfull : s <+: full) :
    EndsWith size full z ((storeAll (s ++ (r ++ z)) (size - 6) [46, 46, 46]).bind fun buf =>
      some (size - 6 + 3, buf)) := by
  obtain ⟨w, rfl⟩ := hfull
  have hle : size - 6 ≤ s.length := by omega
  have htake : (s.take (size - 6)).length = size - 6 := by
    rw [List.length_take]
    omega
  have hbuf : s ++ (r ++ z) = s.take (size - 6) ++ ((s.drop (size - 6) ++ r) ++ z) := by
    rw [← List.append_assoc, ← List.append_assoc, ← List.append_assoc, List.take_append_drop]
  have hroom : (s.drop (size - 6) ++ r).length = 6 := by
    rw [List.length_append, List.length_drop]
    omega
  have hstore := @storeAll_append (s.take (size - 6)) (s.drop (size - 6) ++ r) z [46, 46, 46] (by
    rw [hroom]
    decide)
  rw [htake, ← hbuf] at hstore
  refine ⟨s.take (size - 6) ++ [46, 46, 46], (s.drop (size - 6) ++ r).drop 3, ?_, ?_, ?_, ?_,
    Or.inr ⟨?_, ?_⟩⟩
  · rw [hstore, Option.bind_some, List.length_append, htake]
    rfl
  · rw [List.length_append, htake, List.length_drop, hroom]
    simp
    omega
  · rw [List.length_drop, hroom]
    decide
  · intro hmem
    rcases List.mem_append.mp hmem with hmem | hmem
    · exact hs (List.mem_of_mem_take hmem)
    · exact absurd hmem (by decide)
  · rw [List.length_append]
    omega
  · rw [List.take_append_of_le_length hle]

lemma prefix_joined {rest : List t.Cell} : valueText print t v <+: joined print (v :: rest) := by
  unfold joined
  cases rest with
  | nil => rw [List.map_singleton, List.intercalate_singleton]
  | cons w rest =>
    rw [List.map_cons, List.map_cons, List.intercalate_cons_cons, List.append_assoc]
    exact List.prefix_append _ _

/-- What an iteration does behind the text of its item. -/
lemma formatItems_succ {n length : ℕ} {buf buf' : List UInt8} (hitem : array[i]? = some v)
    (hformat : formatValue print t v buf length (size - length) = some buf')
    (hlength : strlen buf' = some text.length) : formatItems print size array (n + 1) i length buf =
      if size ≤ text.length + 6 then (storeAll buf' (size - 6) [46, 46, 46]).bind fun buf =>
        some (size - 6 + 3, buf)
      else if 0 < n then (storeAll buf' text.length [44, 32]).bind
        (formatItems print size array n (i + 1) (text.length + 2))
      else formatItems print size array n (i + 1) text.length buf' := by
  simp only [formatItems, hitem, Option.bind_eq_bind, Option.bind_some, hformat, hlength]

/-- The loop over the items that are left: it stays in the buffer, behind a text with at least five
bytes of room. -/
lemma formatItems_endsWith {rest : List t.Cell} (hrest : array.drop i = rest)
    (hsize : s.length + r.length = size) (hroom : 5 ≤ r.length) (hshort : 6 ≤ size) (hs : 0 ∉ s) :
    EndsWith size (s ++ joined print rest) z
      (formatItems print size array rest.length i s.length (s ++ (r ++ z))) := by
  induction rest generalizing i s r with
  | nil =>
    refine ⟨s, r, rfl, hsize, by omega, hs, Or.inl ?_⟩
    rw [joined, List.map_nil, List.intercalate_nil, List.append_nil]
  | cons v rest ih =>
    have hitem : array[i]? = some v := by
      have hhead := congrArg (fun l => l[0]?) hrest
      simpa only [List.getElem?_drop, Nat.add_zero, List.getElem?_cons_zero] using hhead
    have htail : array.drop (i + 1) = rest := by
      rw [← List.drop_drop, hrest]
      rfl
    have hleft : size - s.length = r.length := by omega
    -- The text of the item, as far as there is room, and the room behind it.
    set item := (valueText print t v).take (r.length - 1) with hdef
    have hitemLength : item.length ≤ r.length - 1 := List.length_take_le _ _
    set room : List UInt8 := 0 :: r.drop (item.length + 1) with hroomDef
    have hformat : formatValue print t v (s ++ (r ++ z)) s.length (size - s.length) =
        some (s ++ item ++ (room ++ z)) := by
      rw [formatValue_eq, hleft]
      exact snprintf_append (by omega)
    have hs' : 0 ∉ s ++ item := by
      intro hmem
      rcases List.mem_append.mp hmem with hmem | hmem
      · exact hs hmem
      · exact not_mem_valueText print t v (List.mem_of_mem_take hmem)
    have hlength : (s ++ item).length + room.length = size := by
      rw [List.length_append, hroomDef, List.length_cons, List.length_drop]
      omega
    rw [List.length_cons, formatItems_succ print hitem hformat (strlen_append hs')]
    split_ifs with hlong hmore
    · refine endsWith_ellipsis hlength hlong hshort hs' ((List.prefix_append_right_inj s).mpr ?_)
      exact (List.take_prefix _ _).trans (prefix_joined print)
    · have hwhole : item = valueText print t v := by
        rw [List.length_append, hdef, List.length_take] at hlong
        exact List.take_of_length_le (by omega)
      have hne : rest.map (valueText print t) ≠ [] := by
        intro hnil
        rw [← @List.length_map _ _ rest (valueText print t), hnil] at hmore
        exact absurd hmore (Nat.lt_irrefl 0)
      have hjoined : s ++ joined print (v :: rest) = s ++ item ++ [44, 32] ++
          joined print rest := by
        rw [joined, List.map_cons, List.intercalate_cons_of_ne_nil hne, hwhole, joined]
        simp only [List.append_assoc]
      have hstore := @storeAll_append (s ++ item) room z [44, 32] (by
        rw [List.length_cons, List.length_singleton]
        omega)
      have hloop := ih (s := s ++ item ++ [44, 32]) (r := room.drop 2) htail (by
        rw [List.length_append, List.length_drop, List.length_cons, List.length_singleton]
        omega) (by
        rw [List.length_drop]
        omega) (by
        intro hmem
        rcases List.mem_append.mp hmem with hmem | hmem
        · exact hs' hmem
        · exact absurd hmem (by decide))
      rw [hstore, Option.bind_some, hjoined]
      rwa [List.length_append] at hloop
    · have hwhole : item = valueText print t v := by
        rw [List.length_append, hdef, List.length_take] at hlong
        exact List.take_of_length_le (by omega)
      have hnil : rest = [] := List.length_eq_zero_iff.mp (by omega)
      have hloop := ih (s := s ++ item) (r := room) htail hlength (by omega) hs'
      subst hnil
      rw [joined, List.map_nil, List.intercalate_nil, List.append_nil] at hloop
      rwa [joined, List.map_singleton, List.intercalate_singleton, ← hwhole]

end Loop

/-! ## The theorem -/

/-- The begin of the text of an array with a number of items. -/
def opening (n : ℤ) : List UInt8 := [91] ++ signedText n ++ [93, 58, 123]

/-- A buffer holds a string below a size: the begin, the items or a part of their text with an
ellipsis, and a brace.  The bytes from the size on are those of the buffer before. -/
def ArrayText (items : List UInt8) (n size : ℕ) (buf buf' : List UInt8) : Prop :=
  buf'.length = buf.length ∧ buf'.drop size = buf.drop size ∧
    ∃ body, opening n ++ body ++ [125, 0] <+: buf' ∧ 0 ∉ opening n ++ body ++ [125] ∧
      (opening n ++ body ++ [125]).length ≤ size - 1 ∧
      (body = items ∨ ∃ p, p <+: items ∧ body = p ++ [46, 46, 46])

section Main

variable (print : Printer) {t : BaseType} {size : ℕ} {buf : List UInt8} {v : ArrayVal t}

lemma opening_length (n : Int32) : (opening n.toInt).length ≤ 15 := by
  have hnumber := signedText_length n
  rw [opening, List.length_append, List.length_append]
  simp only [List.length_cons, List.length_nil]
  omega

lemma not_mem_opening (n : ℤ) : 0 ∉ opening n := by
  have hnumber := not_mem_signedText n
  simp [opening, hnumber]

/-- What the buffer holds, with the number as it is printed. -/
lemma formatArrayValue_spec (hv : (FieldType.array t).Ok v) (hsize : 32 ≤ size)
    (hbuf : size ≤ buf.length) : ∃ body r, formatArrayValue print v buf size =
        some (opening v.nItems.toInt32.toInt ++ body ++ [125, 0] ++ (r ++ buf.drop size)) ∧
      (opening v.nItems.toInt32.toInt ++ body ++ [125, 0] ++ r).length = size ∧
      0 ∉ opening v.nItems.toInt32.toInt ++ body ∧
      (body = joined print v.items ∨ ∃ p, p <+: joined print v.items ∧
        body = p ++ [46, 46, 46]) := by
  set head := opening v.nItems.toInt32.toInt with hhead
  have hheadLength : head.length ≤ 15 := opening_length _
  have htake : (buf.take size).length = size := by
    rw [List.length_take]
    omega
  have hwhole : head.take (size - 1) = head := List.take_of_length_le (by omega)
  have hfirst : snprintf buf 0 size head =
      some (head ++ (0 :: (buf.take size).drop (head.length + 1) ++ buf.drop size)) := by
    have hprint := @snprintf_append [] (buf.take size) (buf.drop size) head (by omega)
    rwa [List.nil_append, List.take_append_drop, List.length_nil, htake, hwhole,
      List.nil_append] at hprint
  have hroom : head.length + (0 :: (buf.take size).drop (head.length + 1)).length = size := by
    rw [List.length_cons, List.length_drop, htake]
    omega
  have hcount : v.items.length = v.nItems.toNat := hv
  obtain ⟨text, r, hloop, hlength, hmore, hnull, hshortened⟩ :=
    @formatItems_endsWith print _ _ 0 _ _ _ (buf.drop size) v.items List.drop_zero hroom
      (by omega) (by omega) (not_mem_opening _)
  have hstore := @storeAll_append text r (buf.drop size) [125, 0] hmore
  have hresult : formatArrayValue print v buf size =
      some (text ++ [125, 0] ++ (r.drop 2 ++ buf.drop size)) := by
    have hstrlen : strlen (head ++ (0 :: (buf.take size).drop (head.length + 1) ++ buf.drop size)) =
        some head.length :=
      strlen_append (not_mem_opening _)
    change ((snprintf buf 0 size head).bind fun buf => (strlen buf).bind fun length =>
      (formatItems print size v.items v.nItems.toNat 0 length buf).bind fun r =>
        storeAll r.2 r.1 [125, 0]) = _
    rw [hfirst, Option.bind_some, hstrlen, Option.bind_some, ← hcount, hloop,
      Option.bind_some, hstore]
    rfl
  have hend : (text ++ [125, 0] ++ r.drop 2).length = size := by
    rw [List.length_append, List.length_append, List.length_drop, List.length_cons,
      List.length_singleton]
    omega
  rcases hshortened with rfl | ⟨hfull, rfl⟩
  · exact ⟨joined print v.items, r.drop 2, hresult, hend, hnull, Or.inl rfl⟩
  · -- The part of the text that stays has the begin in it, as the buffer is not small.
    have hpart : (head ++ joined print v.items).take (size - 6) ++ [46, 46, 46] =
        head ++ ((joined print v.items).take (size - 6 - head.length) ++ [46, 46, 46]) := by
      rw [List.take_append, List.take_of_length_le (by omega), List.append_assoc]
    rw [hpart] at hresult hend hnull
    exact ⟨_, r.drop 2, hresult, hend, hnull, Or.inr ⟨_, List.take_prefix _ _, rfl⟩⟩

lemma toInt_count (n : UInt32) : n.toInt32.toInt = if n.toNat < 2 ^ 31 then (n.toNat : ℤ)
    else (n.toNat : ℤ) - 2 ^ 32 := by
  have hcond := BitVec.toInt_eq_toNat_cond n.toBitVec
  have hint : n.toInt32.toInt = n.toBitVec.toInt := rfl
  have hnat : n.toBitVec.toNat = n.toNat := rfl
  rw [hint, hcond, hnat]
  split_ifs <;> omega

/-- A count is never printed like a number with a sign. -/
lemma not_prefix_opening {n m : ℕ} {l l' : List UInt8} :
    opening n ++ l ≠ opening (Int.negSucc m) ++ l' := by
  intro h
  obtain ⟨c, cs, hdigits⟩ := List.exists_cons_of_ne_nil (l := unsignedText n) (by
    rw [unsignedText, ne_eq, List.map_eq_nil_iff]
    exact Nat.toDigits_ne_nil)
  have hn : opening n = 91 :: c :: (cs ++ [93, 58, 123]) := by
    change [91] ++ unsignedText n ++ [93, 58, 123] = _
    rw [hdigits]
    rfl
  have hm : opening (Int.negSucc m) = 91 :: 45 :: (unsignedText (m + 1) ++ [93, 58, 123]) := rfl
  rw [hn, hm] at h
  have hsign : c = 45 := (List.cons.inj (List.cons.inj h).2).1
  have hdigit := unsignedText_digit (n := n) (c := c) (by
    rw [hdigits]
    exact List.mem_cons_self)
  rw [hsign] at hdigit
  exact absurd hdigit.1 (by decide)

/-- With a large count the text has another begin. -/
lemma not_arrayText (hv : (FieldType.array t).Ok v) (hsize : 32 ≤ size) (hbuf : size ≤ buf.length)
    (hcount : ¬v.nItems.toNat < 2 ^ 31) :
    ¬∃ buf', formatArrayValue print v buf size = some buf' ∧
      ArrayText (joined print v.items) v.nItems.toNat size buf buf' := by
  rintro ⟨buf', hresult, -, -, body', ⟨l, rfl⟩, -⟩
  obtain ⟨body, r, hspec, -⟩ := formatArrayValue_spec print hv hsize hbuf
  have hlt : v.nItems.toNat < 2 ^ 32 := v.nItems.toNat_lt
  obtain ⟨m, hm⟩ : ∃ m : ℕ, v.nItems.toInt32.toInt = Int.negSucc m := by
    refine Int.eq_negSucc_of_lt_zero ?_
    rw [toInt_count, if_neg hcount]
    omega
  rw [hm] at hspec
  rw [hspec, Option.some.injEq] at hresult
  simp only [List.append_assoc] at hresult
  exact not_prefix_opening hresult.symm

/-- An array is formatted as expected exactly if its number of items is less than `2 ^ 31`. -/
theorem formatArrayValue_iff (hv : (FieldType.array t).Ok v) (hsize : 32 ≤ size)
    (hbuf : size ≤ buf.length) :
    (∃ buf', formatArrayValue print v buf size = some buf' ∧
      ArrayText (joined print v.items) v.nItems.toNat size buf buf') ↔
      v.nItems.toNat < 2 ^ 31 := by
  refine ⟨fun h => by_contra fun hcount => not_arrayText print hv hsize hbuf hcount h,
    fun hcount => ?_⟩
  obtain ⟨body, r, hspec, hend, hnull, hbody⟩ := formatArrayValue_spec print hv hsize hbuf
  rw [toInt_count, if_pos hcount] at hspec hend hnull
  refine ⟨_, hspec, ?_, ?_, body, ⟨r ++ buf.drop size, rfl⟩, ?_, ?_, hbody⟩
  · rw [← List.append_assoc, List.length_append, hend, List.length_drop]
    omega
  · rw [← List.append_assoc, List.drop_left' hend]
  · intro hmem
    rcases List.mem_append.mp hmem with hmem | hmem
    · exact hnull hmem
    · exact absurd hmem (by decide)
  · rw [List.length_append, List.length_append] at hend
    rw [List.length_append]
    simp only [List.length_cons, List.length_nil] at hend ⊢
    omega

/-- A printer for tests. -/
def plainPrinter : Printer :=
  ⟨fun _ => ⟨[48], by decide⟩, fun _ => ⟨[48], by decide⟩, fun _ => none⟩

/-- Two bytes in an array, and a buffer of 32 bytes. -/
theorem formatArrayValue_iff_two :
    (∃ buf', formatArrayValue plainPrinter (t := .u8) ⟨2, [(5 : UInt8), (6 : UInt8)]⟩
      (List.replicate 32 1) 32 = some buf' ∧
      ArrayText (joined plainPrinter (t := .u8) [(5 : UInt8), (6 : UInt8)]) 2 32
        (List.replicate 32 1) buf') ↔
    2 < 2 ^ 31 :=
  @formatArrayValue_iff plainPrinter .u8 32 (List.replicate 32 1)
    ⟨2, [(5 : UInt8), (6 : UInt8)]⟩ rfl le_rfl
    (by rw [List.length_replicate])

example : formatArrayValue plainPrinter (t := .u8) ⟨2, [(5 : UInt8), (6 : UInt8)]⟩
    (List.replicate 32 1) 32 =
    some ([91, 50, 93, 58, 123, 53, 44, 32, 54, 125, 0] ++ List.replicate 21 1) := by
  decide

/-- An array of `2 ^ 31` bytes. -/
def largeArray : ArrayVal .u8 := ⟨0x80000000, List.replicate 0x80000000 (0 : UInt8)⟩

lemma largeArray_ok : (FieldType.array .u8).Ok largeArray := by
  have hlength : largeArray.items.length = 0x80000000 := List.length_replicate
  exact hlength

/-- The text of this array starts with a negative number. -/
theorem not_formatted_large :
    ¬∀ (print : Printer) (t : BaseType) (v : ArrayVal t) (size : ℕ) (buf : List UInt8),
    (FieldType.array t).Ok v → 32 ≤ size → size ≤ buf.length →
    ∃ buf', formatArrayValue print v buf size = some buf' ∧
      ArrayText (joined print v.items) v.nItems.toNat size buf buf' := by
  intro h
  have hbuf : 32 ≤ (List.replicate 32 (0 : UInt8)).length := by rw [List.length_replicate]
  exact not_arrayText plainPrinter largeArray_ok le_rfl hbuf (by decide)
    (h plainPrinter .u8 largeArray 32 (List.replicate 32 0) largeArray_ok le_rfl hbuf)

end Main

end Obus
