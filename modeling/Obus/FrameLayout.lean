import Obus.Lib.BigEndian
import Obus.Packet

/-!
# How a packet is laid out in its bytes

A packet is laid out by its own bytes: a position in them, with the bytes that stand there, says
where the value, the field or the element that starts at it ends, unless it ends behind the packet.
Nothing of this depends on the bus, and nothing is decoded.

`PacketWithin` says that the parts of a packet end inside the packet.  Three kinds of parts need
not: what follows the head of an element that has a zero where no descriptor or object has one, what
follows the head of the last field of a struct whose type stands for no type, and what the size of
the last element announces.

A part that ends inside the packet does so whatever follows, and one that does not can be completed
by bytes behind the packet (`Stable`).
-/

namespace Obus

/-! ## Fields -/

section Fields

variable (data : List UInt8)

/-- The number of `k` bytes at a position. -/
def wordAt (k pos : ℕ) : ℕ := ofBigEndian ((data.drop pos).take k)

/-- The end of a number of bytes. -/
def bytesEnd (k pos : ℕ) : Option ℕ := if pos + k ≤ data.length then some (pos + k) else none

/-- The end of a string. -/
def textEnd (pos : ℕ) : Option ℕ := (bytesEnd data 4 pos).bind (bytesEnd data (wordAt data 4 pos))

/-- The end of a value. -/
def cellEnd : BaseType → ℕ → Option ℕ
  | .u8, pos | .i8, pos | .bool, pos => bytesEnd data 1 pos
  | .u16, pos | .i16, pos => bytesEnd data 2 pos
  | .u32, pos | .i32, pos | .enum, pos | .f32, pos => bytesEnd data 4 pos
  | .u64, pos | .i64, pos | .f64, pos => bytesEnd data 8 pos
  | .string, pos => textEnd data pos

/-- The end of a number of values. -/
def cellsEnd (t : BaseType) : ℕ → ℕ → Option ℕ
  | 0, pos => some pos
  | n + 1, pos => (cellEnd data t pos).bind (cellsEnd t n)

/-- The end of the content of a field. -/
def contentEnd (type : UInt8) (pos : ℕ) : Option ℕ :=
  match BaseType.ofCode? (maskCode type), isArrayCode type with
  | some t, false => cellEnd data t pos
  | some t, true => (bytesEnd data 4 pos).bind (cellsEnd data t (wordAt data 4 pos))
  | none, false => some pos
  | none, true => bytesEnd data 4 pos

/-- The type byte of a field. -/
def typeAt (pos : ℕ) : UInt8 := UInt8.ofNat (wordAt data 1 (pos + 2))

/-- The end of a field. -/
def fieldEnd (pos : ℕ) : Option ℕ := (bytesEnd data 3 pos).bind (contentEnd data (typeAt data pos))

/-- The field has its head, and its type stands for none. -/
def Untyped (pos : ℕ) : Prop :=
  pos + 3 ≤ data.length ∧ BaseType.ofCode? (maskCode (typeAt data pos)) = none

/-- A number of fields are in the packet, except for the content of a last one without a type. -/
def FieldsWithin : ℕ → ℕ → Prop
  | 0, _ => True
  | n + 1, pos =>
    match fieldEnd data pos with
    | some next => FieldsWithin n next
    | none => n = 0 ∧ Untyped data pos

/-- A struct is in the packet: the number of its fields, and these. -/
def StructWithin (pos : ℕ) : Prop :=
  pos + 2 ≤ data.length ∧ FieldsWithin data (wordAt data 2 pos) (pos + 2)

end Fields

/-! ## Elements and packets -/

/-- The elements of a packet. -/
inductive ElementKind where
  | object | removal | event | call
  deriving DecidableEq, Repr

/-- How many 16-bit words an element starts with. -/
def ElementKind.words : ElementKind → ℕ
  | .object | .removal => 2
  | .event => 3
  | .call => 4

/-- How many of them must not be zero. -/
def ElementKind.checked : ElementKind → ℕ
  | .object => 2
  | .removal => 0
  | .event | .call => 3

section Packets

variable (data : List UInt8)

/-- A word of the element that must not be zero is there, and is. -/
def Void (k : ElementKind) (pos : ℕ) : Prop :=
  ∃ i < k.checked, pos + 2 * i + 2 ≤ data.length ∧ wordAt data 2 (pos + 2 * i) = 0

/-- Where the data of an element start, behind their size. -/
def ElementKind.start (k : ElementKind) (pos : ℕ) : ℕ := pos + 2 * k.words + 4

/-- Where the data of an element end, as their size says. -/
def announcedEnd (k : ElementKind) (pos : ℕ) : ℕ :=
  k.start pos + wordAt data 4 (pos + 2 * k.words)

/-- Elements are in the packet.  The data of an element that is void do not matter, and neither does
the end that the last element announces. -/
def ElementsWithin : List ElementKind → ℕ → Prop
  | [], _ => True
  | .removal :: ks, pos => pos + 4 ≤ data.length ∧ ElementsWithin ks (pos + 4)
  | k :: ks, pos =>
    (Void data k pos ∨ StructWithin data (k.start pos)) ∧
      (ks = [] ∨ announcedEnd data k pos ≤ data.length ∧
        ElementsWithin ks (announcedEnd data k pos))

/-- The end of the body of a request for a connection. -/
def conreqEnd (pos : ℕ) : Option ℕ :=
  (((bytesEnd data 1 pos).bind (textEnd data)).bind (bytesEnd data 4)).bind (textEnd data)

/-- The elements of a bus event whose body starts at a position. -/
def busEventKinds (pos : ℕ) : List ElementKind :=
  List.replicate (wordAt data 4 (pos + 2)) .object ++
    (List.replicate (wordAt data 4 (pos + 6)) .removal ++
      List.replicate (wordAt data 4 (pos + 10)) .event)

/-- The body of a packet is in the packet. -/
def BodyWithin (pos : ℕ) : PacketType → Prop
  | .conreq => (conreqEnd data pos).isSome
  | .conresp => pos + 1 ≤ data.length ∧ (3 ≤ wordAt data 1 pos ∨ pos + 5 ≤ data.length ∧
      ElementsWithin data (List.replicate (wordAt data 4 (pos + 1)) .object) (pos + 5))
  | .add => ElementsWithin data [.object] pos
  | .remove => ElementsWithin data [.removal] pos
  | .busEvent => pos + 2 ≤ data.length ∧ (wordAt data 2 pos = 0 ∨ pos + 14 ≤ data.length ∧
      ElementsWithin data (busEventKinds data pos) (pos + 14))
  | .event => ElementsWithin data [.event] pos
  | .call => ElementsWithin data [.call] pos
  | .ack => pos + 3 ≤ data.length

/-- The parts of a packet end inside the packet. -/
def PacketWithin (type : PacketType) : Prop := BodyWithin data pktHdrSize type

end Packets

/-! ## What follows the packet -/

/-- Where a part of a packet ends, by the bytes of the packet and its position. -/
abbrev Part := List UInt8 → ℕ → Option ℕ

/-- The end of a part lies behind its start and in the packet, it stays the same whatever is
appended, and a part that does not end in the packet can be completed. -/
structure Stable (e : Part) : Prop where
  bounds : ∀ {data pos pos'}, pos ≤ data.length → e data pos = some pos' →
    pos ≤ pos' ∧ pos' ≤ data.length
  append : ∀ {data pos pos'} (t : List UInt8), e data pos = some pos' →
  e (data ++ t) pos = some pos'
  complete : ∀ {data pos}, pos ≤ data.length → e data pos = none →
    ∃ t, e (data ++ t) pos = some (data ++ t).length

section Stability

variable {data : List UInt8} {k pos pos' : ℕ} {e : Part}

lemma bytesEnd_eq_some : bytesEnd data k pos = some pos' ↔ pos + k ≤ data.length ∧
    pos' = pos + k := by
  unfold bytesEnd
  split_ifs with h
  · rw [Option.some.injEq, and_iff_right h, eq_comm]
  · exact iff_of_false nofun fun h' => h h'.1

lemma bytesEnd_eq_none : bytesEnd data k pos = none ↔ data.length < pos + k := by
  unfold bytesEnd
  split_ifs with h
  · exact iff_of_false nofun (not_lt.mpr h)
  · exact iff_of_true rfl (not_le.mp h)

/-- A number in the packet stays the same whatever is appended. -/
lemma wordAt_append (t : List UInt8) (h : pos + k ≤ data.length) :
    wordAt (data ++ t) k pos = wordAt data k pos := by
  unfold wordAt
  rw [List.drop_append_of_le_length (by omega),
    List.take_append_of_le_length (by rw [List.length_drop]; omega)]

/-- The bytes are completed to a length, all further ones with the same value. -/
lemma exists_padding (data : List UInt8) (n : ℕ) (x : UInt8) :
    ∃ u : List UInt8, (data ++ u).length = max data.length n ∧ (n ≤ data.length → u = []) ∧
      ∀ i < n, data.length ≤ i → (data ++ u)[i]? = some x := by
  refine ⟨List.replicate (n - data.length) x, ?_, fun h => ?_, fun i hi hle => ?_⟩
  · rw [List.length_append, List.length_replicate]
    omega
  · rw [Nat.sub_eq_zero_of_le h, List.replicate_zero]
  · rw [List.getElem?_append_right hle, List.getElem?_replicate, if_pos (by omega)]

lemma stable_bytes (k : ℕ) : Stable fun data => bytesEnd data k where
  bounds := by
    intro data pos pos' _ h
    obtain ⟨hle, rfl⟩ := bytesEnd_eq_some.mp h
    exact ⟨Nat.le_add_right pos k, hle⟩
  append := by
    intro data pos pos' t h
    obtain ⟨hle, rfl⟩ := bytesEnd_eq_some.mp h
    refine bytesEnd_eq_some.mpr ⟨?_, rfl⟩
    rw [List.length_append]
    omega
  complete := by
    intro data pos hpos h
    have hlt := bytesEnd_eq_none.mp h
    obtain ⟨u, hu, -, -⟩ := exists_padding data (pos + k) 0
    have hlen : (data ++ u).length = pos + k := hu.trans (max_eq_right hlt.le)
    exact ⟨u, bytesEnd_eq_some.mpr ⟨hlen.ge, hlen⟩⟩

/-- A part that ends where it starts. -/
lemma stable_some : Stable fun _ pos => some pos where
  bounds := by
    intro data pos pos' hpos h
    cases h
    exact ⟨le_rfl, hpos⟩
  append := fun _ h => h
  complete := fun _ h => nomatch h

/-- What a part `f` makes of the packet behind a completed part `e`. -/
private lemma complete_behind {f : Part} (hf : Stable f) {t : List UInt8}
    (he : e (data ++ t) pos = some (data ++ t).length)
    (happend : ∀ u, e (data ++ t) pos = some (data ++ t).length →
      e (data ++ t ++ u) pos = some (data ++ t).length) :
    ∃ t', (e (data ++ t') pos).bind (f (data ++ t')) = some (data ++ t').length := by
  cases hnext : f (data ++ t) (data ++ t).length with
  | some pos' =>
    obtain ⟨hle, hge⟩ := hf.bounds le_rfl hnext
    refine ⟨t, ?_⟩
    rw [he, Option.bind_some, hnext, le_antisymm hge hle]
  | none =>
    obtain ⟨u, hu⟩ := hf.complete le_rfl hnext
    refine ⟨t ++ u, ?_⟩
    rw [← List.append_assoc, happend u he, Option.bind_some, hu]

/-- A part behind another one. -/
lemma Stable.bind {f : Part} (he : Stable e) (hf : Stable f) :
    Stable fun data pos => (e data pos).bind (f data) where
  bounds := by
    intro data pos pos' hpos h
    obtain ⟨mid, hmid, hend⟩ := Option.bind_eq_some_iff.mp h
    obtain ⟨hle, hin⟩ := he.bounds hpos hmid
    obtain ⟨hle', hin'⟩ := hf.bounds hin hend
    exact ⟨hle.trans hle', hin'⟩
  append := by
    intro data pos pos' t h
    obtain ⟨mid, hmid, hend⟩ := Option.bind_eq_some_iff.mp h
    exact Option.bind_eq_some_iff.mpr ⟨mid, he.append t hmid, hf.append t hend⟩
  complete := by
    intro data pos hpos h
    cases hmid : e data pos with
    | none =>
      obtain ⟨t, ht⟩ := he.complete hpos hmid
      exact complete_behind hf ht fun u => he.append u
    | some mid =>
      rw [hmid, Option.bind_some] at h
      obtain ⟨t, ht⟩ := hf.complete (he.bounds hpos hmid).2 h
      refine ⟨t, ?_⟩
      rw [he.append t hmid, Option.bind_some, ht]

/-- A part behind a number that decides on it. -/
lemma stable_word {f : ℕ → Part} (k offset : ℕ) (hf : ∀ w, Stable (f w)) :
    Stable fun data pos => (bytesEnd data (offset + k) pos).bind
      (f (wordAt data k (pos + offset)) data) where
  bounds := by
    intro data pos pos' hpos h
    obtain ⟨mid, hmid, hend⟩ := Option.bind_eq_some_iff.mp h
    obtain ⟨hle, hin⟩ := (stable_bytes _).bounds hpos hmid
    obtain ⟨hle', hin'⟩ := (hf _).bounds hin hend
    exact ⟨hle.trans hle', hin'⟩
  append := by
    intro data pos pos' t h
    obtain ⟨mid, hmid, hend⟩ := Option.bind_eq_some_iff.mp h
    have hin := (bytesEnd_eq_some.mp hmid).1
    rw [wordAt_append t (by omega)]
    exact Option.bind_eq_some_iff.mpr ⟨mid, (stable_bytes _).append t hmid, (hf _).append t hend⟩
  complete := by
    intro data pos hpos h
    have happend : ∀ (d t : List UInt8), pos + (offset + k) ≤ d.length →
        (bytesEnd (d ++ t) (offset + k) pos).bind (f (wordAt (d ++ t) k (pos + offset)) (d ++ t)) =
          f (wordAt d k (pos + offset)) (d ++ t) (pos + (offset + k)) := by
      intro d t hin
      have hbytes := (stable_bytes (offset + k)).append t (bytesEnd_eq_some.mpr ⟨hin, rfl⟩)
      rw [wordAt_append t (by omega), hbytes, Option.bind_some]
    by_cases hin : pos + (offset + k) ≤ data.length
    · have hmid := bytesEnd_eq_some.mpr ⟨hin, rfl⟩
      rw [hmid, Option.bind_some] at h
      obtain ⟨t, ht⟩ := (hf _).complete hin h
      exact ⟨t, (happend data t hin).trans ht⟩
    · obtain ⟨t, ht, -, -⟩ := exists_padding data (pos + (offset + k)) 0
      have hlen : (data ++ t).length = pos + (offset + k) :=
        ht.trans (max_eq_right (not_le.mp hin).le)
      cases hnext : f (wordAt (data ++ t) k (pos + offset)) (data ++ t) (data ++ t).length with
      | some pos' =>
        obtain ⟨hle, hge⟩ := (hf _).bounds le_rfl hnext
        have hrun := happend (data ++ t) [] hlen.ge
        rw [List.append_nil, ← hlen, hnext, le_antisymm hge hle] at hrun
        exact ⟨_, hrun⟩
      | none =>
        obtain ⟨u, hu⟩ := (hf _).complete le_rfl hnext
        refine ⟨t ++ u, ?_⟩
        rw [← List.append_assoc]
        rw [hlen] at hu
        exact (happend (data ++ t) u hlen.ge).trans hu

lemma stable_text : Stable textEnd := by
  have h := stable_word (f := fun w data => bytesEnd data w) 4 0 stable_bytes
  simp only [Nat.zero_add, Nat.add_zero] at h
  exact h

lemma stable_cell (t : BaseType) : Stable fun data => cellEnd data t := by
  cases t with
  | u8 | i8 | bool => exact stable_bytes 1
  | u16 | i16 => exact stable_bytes 2
  | u32 | i32 | enum | f32 => exact stable_bytes 4
  | u64 | i64 | f64 => exact stable_bytes 8
  | string => exact stable_text

lemma stable_cells (t : BaseType) (n : ℕ) : Stable fun data => cellsEnd data t n := by
  induction n with
  | zero => exact stable_some
  | succ n ih => exact (stable_cell t).bind ih

lemma stable_content (type : UInt8) : Stable fun data => contentEnd data type := by
  unfold contentEnd
  cases BaseType.ofCode? (maskCode type) with
  | some t =>
    cases isArrayCode type with
    | false => exact stable_cell t
    | true =>
      have h := stable_word (f := fun n data => cellsEnd data t n) 4 0 (stable_cells t)
      simp only [Nat.zero_add, Nat.add_zero] at h
      exact h
  | none =>
    cases isArrayCode type with
    | false => exact stable_some
    | true => exact stable_bytes 4

lemma stable_field : Stable fieldEnd :=
  stable_word (f := fun w data => contentEnd data (UInt8.ofNat w)) 1 2 fun _ => stable_content _

lemma stable_conreq : Stable conreqEnd :=
  (((stable_bytes 1).bind stable_text).bind (stable_bytes 4)).bind stable_text

/-- Fields in the packet stay there. -/
lemma FieldsWithin.append {n : ℕ} (t : List UInt8) (h : FieldsWithin data n pos) :
    FieldsWithin (data ++ t) n pos := by
  induction n generalizing pos with
  | zero => trivial
  | succ n ih =>
    unfold FieldsWithin at h ⊢
    cases hend : fieldEnd data pos with
    | some next =>
      rw [hend] at h
      rw [stable_field.append t hend]
      exact ih h
    | none =>
      rw [hend] at h
      obtain ⟨rfl, hhead, htype⟩ := h
      cases fieldEnd (data ++ t) pos with
      | some next => trivial
      | none =>
        refine ⟨rfl, ?_, ?_⟩
        · rw [List.length_append]
          omega
        · rwa [typeAt, wordAt_append t (by omega)]

lemma StructWithin.append (t : List UInt8) (h : StructWithin data pos) :
    StructWithin (data ++ t) pos := by
  obtain ⟨hcount, hfields⟩ := h
  refine ⟨?_, ?_⟩
  · rw [List.length_append]
    omega
  · rw [wordAt_append t hcount]
    exact hfields.append t

lemma Void.append {k : ElementKind} (t : List UInt8) (h : Void data k pos) :
    Void (data ++ t) k pos := by
  obtain ⟨i, hi, hin, hzero⟩ := h
  refine ⟨i, hi, ?_, ?_⟩
  · rw [List.length_append]
    omega
  · rwa [wordAt_append t hin]

end Stability

end Obus
