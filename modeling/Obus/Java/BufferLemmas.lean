import Obus.Java.Buffer

/-!
# Reading and writing buffers

What readers make of bytes that stand anywhere in a buffer (`Yields`, `Rejects`), and what writers
put into one.  The bytes that are written together grow the buffer once, so that it is the sizes of
the chunks on which it depends whether the capacity stays an `int` (`Fits`).
-/

namespace Obus.Java

open Fallible

/-! ## What a reader makes of bytes -/

/-- A reader takes these bytes, wherever they are, and gives a value. -/
def Yields {α : Type} (p : Read α) (bs : List UInt8) (a : α) : Prop :=
  ∀ before after, Leads p ⟨before ++ bs ++ after, before.length⟩ a
    ⟨before ++ bs ++ after, (before ++ bs).length⟩

/-- A reader fails on these bytes, wherever they are. -/
def Rejects {α : Type} (p : Read α) (bs : List UInt8) : Prop :=
  ∀ before after a b, ¬Leads p ⟨before ++ bs ++ after, before.length⟩ a b

section Readers

variable {α β : Type} {p : Read α} {f : α → Read β} {bs bs' : List UInt8} {a : α} {b : β}

lemma yields_pure : Yields (pure a) [] a := by
  intro before after
  rw [List.append_nil]
  exact leads_pure.mpr ⟨rfl, rfl⟩

lemma Yields.bind (hp : Yields p bs a) (hf : Yields (f a) bs' b) :
    Yields (p >>= f) (bs ++ bs') b := by
  intro before after
  have hfirst := hp before (bs' ++ after)
  have hsecond := hf (before ++ bs) after
  simp only [List.append_assoc] at hfirst hsecond ⊢
  exact hfirst.bind hsecond

lemma Yields.bind_pure {g : α → β} (hp : Yields p bs a) :
    Yields (p >>= fun a => pure (g a)) bs (g a) := by
  have hbind := hp.bind (f := fun a => pure (g a)) yields_pure
  rwa [List.append_nil] at hbind

lemma Yields.map {g : α → β} (hp : Yields p bs a) : Yields (g <$> p) bs (g a) := by
  rw [← bind_pure_comp]
  exact hp.bind_pure

lemma Rejects.bind (hp : Rejects p bs) (bs' : List UInt8) : Rejects (p >>= f) (bs ++ bs') := by
  intro before after b t h
  obtain ⟨a, s, hlead, -⟩ := leads_bind.mp h
  refine hp before (bs' ++ after) a s ?_
  simpa only [List.append_assoc] using hlead

lemma Rejects.bind_self (hp : Rejects p bs) : Rejects (p >>= f) bs := by
  have hbind := hp.bind (f := f) []
  rwa [List.append_nil] at hbind

lemma Rejects.map {g : α → β} (hp : Rejects p bs) : Rejects (g <$> p) bs := by
  rw [← bind_pure_comp]
  exact hp.bind_self

lemma Yields.rejects (hp : Yields p bs a) (hf : Rejects (f a) bs') :
    Rejects (p >>= f) (bs ++ bs') := by
  intro before after b t h
  obtain ⟨a', s, hlead, hrest⟩ := leads_bind.mp h
  have hfirst := hp before (bs' ++ after)
  simp only [List.append_assoc] at hfirst hlead hrest
  obtain ⟨rfl, rfl⟩ := hfirst.unique hlead
  refine hf (before ++ bs) after b t ?_
  simpa only [List.append_assoc] using hrest

lemma rejects_fail {e : Exc} : Rejects (fail e : Read α) bs := fun _ _ _ _ => not_leads_fail

lemma not_rejects_of_yields (hp : Yields p bs a) : ¬Rejects p bs := fun h => h [] [] _ _ (hp [] [])

/-- The iterations of a loop take the bytes of the entries of a list. -/
lemma yields_iter {f : α → Read α} {bytes : β → List UInt8} {g : α → β → α} {l : List β}
    (h : ∀ x ∈ l, ∀ a, Yields (f a) (bytes x) (g a x)) (a : α) :
    Yields (iter f l.length a) (l.flatMap bytes) (l.foldl g a) := by
  induction l generalizing a with
  | nil => exact yields_pure
  | cons x l ih =>
    have hrest := ih fun y hy => h y (List.mem_cons_of_mem x hy)
    exact (h x List.mem_cons_self a).bind (hrest (g a x))

/-- A loop fails on the bytes of a list if an iteration fails on those of an entry. -/
lemma rejects_iter {f : α → Read α} {bytes : β → List UInt8} {g : α → β → α} {l : List β}
    (h : ∀ x ∈ l, ∀ a, Yields (f a) (bytes x) (g a x) ∨ Rejects (f a) (bytes x)) {x : β}
    (hx : x ∈ l)
    (hbad : ∀ a, Rejects (f a) (bytes x)) (a : α) :
    Rejects (iter f l.length a) (l.flatMap bytes) := by
  induction l generalizing a with
  | nil => exact absurd hx List.not_mem_nil
  | cons y l ih =>
    rcases h y List.mem_cons_self a with hy | hy
    · rcases List.mem_cons.mp hx with rfl | hx
      · exact absurd (hbad a) (not_rejects_of_yields hy)
      · exact hy.rejects (ih (fun z hz => h z (List.mem_cons_of_mem y hz)) hx (g a y))
    · exact hy.bind _

/-- Bytes are got as they are. -/
lemma yields_get {n : ℕ} (hn : bs.length = n) : Yields (get n) bs bs := by
  subst hn
  intro before after
  have hlen : before.length + bs.length ≤ (before ++ bs ++ after).length := by
    rw [List.length_append, List.length_append]
    omega
  have htake : ((before ++ bs ++ after).drop before.length).take bs.length = bs := by
    rw [List.append_assoc, List.drop_left, List.take_left]
  rw [Leads, get, if_pos hlen, htake, List.length_append]

lemma yields_getInt (k n : ℕ) :
    Yields (getInt k) (bigEndian k n) ((BitVec.ofNat (8 * k) n).signExtend 32) := by
  have hword : BitVec.ofNat (8 * k) (ofBigEndian (bigEndian k n)) = BitVec.ofNat (8 * k) n := by
    apply BitVec.eq_of_toNat_eq
    have hpow : (256 : ℕ) ^ k = 2 ^ (8 * k) := by
      rw [pow_mul]
      norm_num
    rw [ofBigEndian_bigEndian, BitVec.toNat_ofNat, BitVec.toNat_ofNat, hpow, Nat.mod_mod]
  rw [← hword]
  exact (yields_get (bigEndian_length k n)).map
    (g := fun bs => (BitVec.ofNat (8 * k) (ofBigEndian bs)).signExtend 32)

/-- A number of 32 bits is got as it is. -/
lemma yields_getInt_word (v : BitVec 32) : Yields (getInt 4) (bigEndian 4 v.toNat) v := by
  have hword := yields_getInt 4 v.toNat
  rwa [BitVec.ofNat_toNat, BitVec.setWidth_eq, BitVec.signExtend_eq] at hword

lemma yields_getLong (v : BitVec 64) : Yields getLong (bigEndian 8 v.toNat) v := by
  have hlong := (yields_get (bigEndian_length 8 v.toNat)).map
    (g := fun bs => BitVec.ofNat 64 (ofBigEndian bs))
  rwa [ofBigEndian_bigEndian_of_lt (by exact v.isLt), BitVec.ofNat_toNat,
    BitVec.setWidth_eq] at hlong

/-- The correction of a number that is read without a sign. -/
lemma unsigned_eq_setWidth {w : ℕ} (hw : w < 32) (v : BitVec w) :
    (if 0 ≤ (v.signExtend 32).toInt then v.signExtend 32 else v.signExtend 32 + BitVec.ofNat 32
      (2 ^ w)) =
      v.setWidth 32 := by
  have hpow : 2 ^ w ≤ 2 ^ 31 := Nat.pow_le_pow_right (by decide) (by omega)
  have hlt : v.toNat < 2 ^ w := v.isLt
  have hsign : (v.signExtend 32).toInt = v.toInt := BitVec.toInt_signExtend_of_le hw.le
  have hint := BitVec.toInt_eq_toNat_cond v
  have hset : (v.setWidth 32).toInt = v.toNat := by
    rw [BitVec.toInt_eq_toNat_of_lt, BitVec.toNat_setWidth, Nat.mod_eq_of_lt (by omega)]
    rw [BitVec.toNat_setWidth, Nat.mod_eq_of_lt (by omega)]
    omega
  apply BitVec.eq_of_toInt_eq
  rw [hsign, hset]
  by_cases h : 0 ≤ v.toInt
  · rw [if_pos h, hsign]
    split_ifs at hint <;> omega
  · have hofNat : (BitVec.ofNat 32 (2 ^ w)).toInt = ((2 ^ w : ℕ) : ℤ).bmod (2 ^ 32) :=
      BitVec.toInt_ofNat ..
    rw [if_neg h, BitVec.toInt_add, hsign, hofNat, Int.add_bmod_bmod, Int.bmod_eq_of_le]
    all_goals split_ifs at hint <;> omega

lemma yields_readI8 (v : BitVec 32) :
    Yields readI8 (bigEndian 1 v.toNat) ((v.setWidth 8).signExtend 32) := by
  have hbyte := yields_getInt 1 v.toNat
  rwa [BitVec.ofNat_toNat] at hbyte

lemma yields_readU8 (v : BitVec 32) :
    Yields readU8 (bigEndian 1 v.toNat) ((v.setWidth 8).setWidth 32) := by
  rw [← unsigned_eq_setWidth (by decide)]
  exact (yields_readI8 v).map (g := fun val => if 0 ≤ val.toInt then val else val + 256)

lemma yields_readI16 (v : BitVec 32) :
    Yields readI16 (bigEndian 2 v.toNat) ((v.setWidth 16).signExtend 32) := by
  have hhalf := yields_getInt 2 v.toNat
  rwa [BitVec.ofNat_toNat] at hhalf

lemma yields_readU16 (v : BitVec 32) :
    Yields readU16 (bigEndian 2 v.toNat) ((v.setWidth 16).setWidth 32) := by
  rw [← unsigned_eq_setWidth (by decide)]
  exact (yields_readI16 v).map (g := fun val => if 0 ≤ val.toInt then val else val + 65536)

/-! ## Sizes and strings -/

lemma toNat_size {n : ℕ} (hn : n < 2 ^ 31) : (BitVec.ofNat 32 n).toNat = n := by
  rw [BitVec.toNat_ofNat, Nat.mod_eq_of_lt (by omega)]

lemma toInt_size {n : ℕ} (hn : n < 2 ^ 31) : (BitVec.ofNat 32 n).toInt = n := by
  rw [BitVec.toInt_eq_toNat_of_lt, toNat_size hn]
  rw [toNat_size hn]
  omega

lemma yields_size {n : ℕ} (hn : n < 2 ^ 31) :
    Yields (getInt 4) (bigEndian 4 n) (BitVec.ofNat 32 n) := by
  have hword := yields_getInt_word (BitVec.ofNat 32 n)
  rwa [toNat_size hn] at hword

/-- The number of entries of an array that is not too long. -/
lemma newArray_size {n : ℕ} (hn : n < 2 ^ 31) : newArray (BitVec.ofNat 32 n) = pure n := by
  rw [newArray, toInt_size hn, toNat_size hn, if_neg (by omega)]

/-- A string as it is written: its size with the null byte, its bytes, and this byte. -/
def stringBytes (cs : Charset) (s : JString) : List UInt8 :=
  bigEndian 4 ((cs.getBytes s).length + 1) ++ (cs.getBytes s ++ [0])

lemma yields_readString_null (cs : Charset) : Yields (readString cs) (bigEndian 4 0) none := by
  rw [readString, ← List.append_nil (bigEndian 4 0)]
  refine (yields_size (by decide)).bind ?_
  rw [if_neg (by decide), if_pos (by decide)]
  exact yields_pure

/-- A string whose size is accepted is read, whatever its last byte is. -/
lemma yields_readString_bytes (cs : Charset) {bs : List UInt8} (last : UInt8)
    (hs : bs.length < 65535) :
    Yields (readString cs) (bigEndian 4 (bs.length + 1) ++ (bs ++ [last]))
      (some (cs.newString bs)) := by
  have hsmall : bs.length + 1 < 2 ^ 31 := by omega
  have hzero : ¬BitVec.ofNat 32 (bs.length + 1) = 0 := by
    intro h
    have hnat := congrArg BitVec.toNat h
    rw [toNat_size hsmall] at hnat
    exact Nat.succ_ne_zero _ hnat
  have hpred : BitVec.ofNat 32 (bs.length + 1) - 1 = BitVec.ofNat 32 bs.length := by
    rw [BitVec.ofNat_add]
    exact BitVec.add_sub_cancel _ _
  rw [readString]
  refine (yields_size hsmall).bind ?_
  rw [toInt_size hsmall, if_neg (by omega), if_neg hzero, hpred, newArray_size (by omega),
    pure_bind]
  refine (yields_get rfl).bind ?_
  have hlast : Yields (get 1) [last] [last] := yields_get rfl
  rw [← List.append_nil [last]]
  exact hlast.bind yields_pure

/-- A longer one is refused. -/
lemma rejects_readString_size (cs : Charset) {n : ℕ} (hlong : 65536 ≤ n) (hsmall : n < 2 ^ 31)
    (bs : List UInt8) : Rejects (readString cs) (bigEndian 4 n ++ bs) := by
  rw [readString]
  refine (yields_size hsmall).rejects ?_
  rw [toInt_size hsmall, if_pos (by omega)]
  exact rejects_fail

lemma yields_readString (cs : Charset) {s : JString} (hs : (cs.getBytes s).length < 65535) :
    Yields (readString cs) (stringBytes cs s) (some (cs.newString (cs.getBytes s))) :=
      yields_readString_bytes cs 0 hs

lemma rejects_readString (cs : Charset) {s : JString} (hs : 65535 ≤ (cs.getBytes s).length)
    (hsmall : (cs.getBytes s).length + 1 < 2 ^ 31) : Rejects (readString cs) (stringBytes cs s) :=
  rejects_readString_size cs (Nat.succ_le_succ hs) hsmall _

end Readers

/-! ## What a writer puts -/

/-- The capacity of a buffer when some bytes are put behind its position. -/
def grow (capacity pos n : ℕ) : ℕ :=
  if capacity - pos < n then capacity + max n allocStep else capacity

/-- The capacity stays an `int` while chunks of these sizes are written. -/
def Fits : ℕ → ℕ → List ℕ → Prop
  | _, _, [] => True
  | capacity, pos, n :: ns => grow capacity pos n < 2 ^ 31 ∧ Fits (grow capacity pos n) (pos + n) ns

instance instDecidableFits : (capacity pos : ℕ) → (ns : List ℕ) → Decidable (Fits capacity pos ns)
  | _, _, [] => isTrue trivial
  | capacity, pos, n :: ns =>
    have := instDecidableFits (grow capacity pos n) (pos + n) ns
    inferInstanceAs (Decidable (_ ∧ _))

section Writers

variable {b b' : TxBuffer} {bs bs' : List UInt8} {u : Unit}

lemma TxBuffer.ext (hbytes : b.bytes = b'.bytes) (hcapacity : b.capacity = b'.capacity) :
    b = b' := by
  cases b
  cases b'
  cases hbytes
  cases hcapacity
  rfl

lemma le_grow (capacity pos n : ℕ) : capacity ≤ grow capacity pos n := by
  unfold grow
  split_ifs
  · exact Nat.le_add_right _ _
  · exact le_rfl

lemma room_grow {capacity pos : ℕ} (n : ℕ) (h : pos ≤ capacity) :
    pos + n ≤ grow capacity pos n := by
  unfold grow
  split_ifs
  · have hmax : n ≤ max n allocStep := le_max_left _ _
    omega
  · omega

lemma leads_ensureSize (n : ℕ) :
    Leads (ensureSize n) b u b' ↔ b'.bytes = b.bytes ∧
    b'.capacity = grow b.capacity b.bytes.length n := by
  have hroom := b.room
  have hmax : (max (n : ℤ) (allocStep : ℕ)).toNat = max n allocStep := by omega
  rw [Leads, ensureSize]
  by_cases hless : (b.capacity : ℤ) - b.bytes.length < n
  · have hgrow : grow b.capacity b.bytes.length n = b.capacity +
        (max (n : ℤ) (allocStep : ℕ)).toNat := by
      rw [hmax]
      exact if_pos (by omega)
    rw [if_pos hless, hgrow]
    by_cases hsmall : b.capacity + (max (n : ℤ) (allocStep : ℕ)).toNat < 2 ^ 31
    · rw [dif_pos hsmall]
      constructor
      · intro h
        cases h
        exact ⟨rfl, rfl⟩
      · rintro ⟨hbytes, hcapacity⟩
        have heq : b' = ⟨b.bytes, b.capacity + (max (n : ℤ) (allocStep : ℕ)).toNat,
            hroom.trans (Nat.le_add_right _ _),
          hsmall⟩ := TxBuffer.ext hbytes hcapacity
        rw [heq]
    · rw [dif_neg hsmall]
      refine iff_of_false (fun h => by cases h) ?_
      rintro ⟨-, hcapacity⟩
      exact hsmall (hcapacity ▸ b'.small)
  · have hgrow : grow b.capacity b.bytes.length n = b.capacity := if_neg (by omega)
    rw [if_neg hless, hgrow]
    constructor
    · intro h
      cases h
      exact ⟨rfl, rfl⟩
    · rintro ⟨hbytes, hcapacity⟩
      rw [TxBuffer.ext hbytes hcapacity]

lemma bytes_of_leads_ensureSize {size : ℤ} (h : Leads (ensureSize size) b u b') :
    b'.bytes = b.bytes := by
  unfold Leads ensureSize at h
  split_ifs at h
  · cases h
    rfl
  · cases h
    rfl

lemma leads_put : Leads (put bs) b u b' ↔ b'.bytes = b.bytes ++ bs ∧ b'.capacity = b.capacity := by
  rw [Leads, put]
  by_cases hroom : b.bytes.length + bs.length ≤ b.capacity
  · rw [dif_pos hroom]
    constructor
    · intro h
      cases h
      exact ⟨rfl, rfl⟩
    · rintro ⟨hbytes, hcapacity⟩
      have heq : b' = ⟨b.bytes ++ bs, b.capacity, by rwa [List.length_append], b.small⟩ :=
        TxBuffer.ext hbytes hcapacity
      rw [heq]
  · rw [dif_neg hroom]
    refine iff_of_false (fun h => by cases h) ?_
    rintro ⟨hbytes, hcapacity⟩
    have hlength := b'.room
    rw [hbytes, hcapacity, List.length_append] at hlength
    exact hroom hlength

/-- Bytes that are written are put behind the others; the buffer may grow. -/
lemma leads_write : Leads (write bs) b u b' ↔
    b'.bytes = b.bytes ++ bs ∧ b'.capacity = grow b.capacity b.bytes.length bs.length := by
  rw [write, leads_bind]
  constructor
  · rintro ⟨_, t, hensure, hput⟩
    obtain ⟨hbytes, hcapacity⟩ := (leads_ensureSize _).mp hensure
    obtain ⟨hbytes', hcapacity'⟩ := leads_put.mp hput
    exact ⟨by rw [hbytes', hbytes], by rw [hcapacity', hcapacity]⟩
  · rintro ⟨hbytes, hcapacity⟩
    have hroom : b.bytes.length ≤ b'.capacity := by
      rw [hcapacity]
      exact b.room.trans (le_grow _ _ _)
    exact ⟨(), ⟨b.bytes, b'.capacity, hroom, b'.small⟩, (leads_ensureSize _).mpr ⟨rfl, hcapacity⟩,
      leads_put.mpr ⟨hbytes, rfl⟩⟩

lemma bytes_of_leads_writeAll {chunks : List (List UInt8)} (h : Leads (each write chunks) b u b') :
    b'.bytes = b.bytes ++ chunks.flatten := by
  induction chunks generalizing b with
  | nil =>
    obtain ⟨-, rfl⟩ := leads_pure.mp h
    rw [List.flatten_nil, List.append_nil]
  | cons c chunks ih =>
    obtain ⟨_, t, hwrite, hrest⟩ := leads_bind.mp h
    rw [ih hrest, (leads_write.mp hwrite).1, List.flatten_cons, List.append_assoc]

/-- Chunks can be written exactly if the capacity stays an `int`. -/
lemma exists_leads_writeAll {chunks : List (List UInt8)} :
    (∃ b', Leads (each write chunks) b () b') ↔
    Fits b.capacity b.bytes.length (chunks.map List.length) := by
  induction chunks generalizing b with
  | nil => exact iff_of_true ⟨b, leads_pure.mpr ⟨rfl, rfl⟩⟩ trivial
  | cons c chunks ih =>
    rw [List.map_cons, Fits]
    constructor
    · rintro ⟨b', h⟩
      obtain ⟨_, t, hwrite, hrest⟩ := leads_bind.mp h
      obtain ⟨hbytes, hcapacity⟩ := leads_write.mp hwrite
      have hfits := ih.mp ⟨b', hrest⟩
      rw [hbytes, hcapacity, List.length_append] at hfits
      exact ⟨hcapacity ▸ t.small, hfits⟩
    · rintro ⟨hsmall, hfits⟩
      have hroom : (b.bytes ++ c).length ≤ grow b.capacity b.bytes.length c.length := by
        rw [List.length_append]
        exact room_grow _ b.room
      have hwrite : Leads (write c) b ()
          ⟨b.bytes ++ c, grow b.capacity b.bytes.length c.length, hroom, hsmall⟩ :=
        leads_write.mpr ⟨rfl, rfl⟩
      rw [← List.length_append] at hfits
      obtain ⟨b', hrest⟩ :=
        (ih (b := ⟨b.bytes ++ c, grow b.capacity b.bytes.length c.length, hroom, hsmall⟩)).mpr hfits
      exact ⟨b', hwrite.bind hrest⟩

/-- A string that is written is put as a whole. -/
lemma bytes_of_leads_writeString {cs : Charset} {s : JString}
    (h : Leads (writeString cs (some s)) b u b') : b'.bytes = b.bytes ++ stringBytes cs s := by
  obtain ⟨_, t₁, hensure, h⟩ := leads_bind.mp h
  obtain ⟨_, t₂, hsize, h⟩ := leads_bind.mp h
  obtain ⟨_, t₃, hbytes, hnull⟩ := leads_bind.mp h
  rw [(leads_put.mp hnull).1, (leads_put.mp hbytes).1, (leads_put.mp hsize).1,
    bytes_of_leads_ensureSize hensure, stringBytes]
  simp only [List.append_assoc]

lemma stringBytes_length (cs : Charset) (s : JString) :
    (stringBytes cs s).length = (cs.getBytes s).length + 5 := by
  rw [stringBytes, List.length_append, List.length_append, bigEndian_length, List.length_singleton]
  omega

/-- A string that is written is not too long for the size of a buffer. -/
lemma small_of_leads_writeString {cs : Charset} {s : JString}
    (h : Leads (writeString cs (some s)) b u b') : (cs.getBytes s).length + 5 < 2 ^ 31 := by
  have hlength := b'.room
  have hsmall := b'.small
  rw [bytes_of_leads_writeString h, List.length_append, stringBytes_length] at hlength
  omega

lemma put_append : put (bs ++ bs') = put bs >>= fun _ => put bs' := by
  funext b
  by_cases hroom : b.bytes.length + bs.length ≤ b.capacity
  · have hput : put bs b = .ok
        ((), ⟨b.bytes ++ bs, b.capacity, by rwa [List.length_append], b.small⟩) := dif_pos hroom
    rw [bind_of_ok hput, put, put]
    simp only [List.length_append, List.append_assoc, Nat.add_assoc]
  · have hput : put bs b = .error .bufferOverflow := dif_neg hroom
    rw [bind_of_error hput]
    refine dif_neg ?_
    rw [List.length_append]
    omega

/-- Then it is written like other bytes. -/
lemma writeString_eq {cs : Charset} {s : JString} (hs : (cs.getBytes s).length + 5 < 2 ^ 31) :
    writeString cs (some s) = write (stringBytes cs s) := by
  have hsize : ((4 + (cs.getBytes s).length + 1 : ℤ)).bmod (2 ^ 32) =
      ((stringBytes cs s).length : ℤ) := by
    rw [stringBytes_length, Int.bmod_eq_of_le]
    all_goals omega
  rw [write, ← hsize, stringBytes, put_append, put_append]
  rfl

end Writers

end Obus.Java
