import Obus.FrameReading

/-!
# The elements of a packet

Objects, events and calls start with a head of words and the size of their data.  Their decoders
check the words and decode the data, a struct, as the descriptor that was found says
(`elementTarget`); behind the data they go to the announced end.

The elements of a packet that lies in its bytes are the same ones on every buffer that starts with
these (`exists_reads_elementsDecode`), and so is the packet (`alike_packetDecode`).
-/

namespace Obus

open Prog

/-! ## Elements -/

/-- What is decoded of an element. -/
inductive Item where
  | object (obj : Object)
  | removal (obj : ObjectRef)
  | event (event : Event)
  | call (call : Call)

/-- The decoder of an element. -/
def elementDecode (bus : Bus) : ElementKind → Dec (Option Item)
  | .object => Option.map Item.object <$> objectAddDecode bus.api
  | .removal => Option.map Item.removal <$> objectRemoveDecode bus
  | .event => Option.map Item.event <$> eventDecode bus
  | .call => Option.map Item.call <$> callDecode bus

/-- Decode elements one behind the other. -/
def elementsDecode (bus : Bus) : List ElementKind → Dec (List Item)
  | [] => pure []
  | k :: ks => do
    let item ← elementDecode bus k
    let items ← elementsDecode bus ks
    pure (item.toList ++ items)

section Elements

variable {bus : Bus} {data : List UInt8} {k : ElementKind} {pos pos' : ℕ}

/-- A word of the head of an element. -/
def headWord (data : List UInt8) (pos i : ℕ) : UInt16 := UInt16.ofNat (wordAt data 2 (pos + 2 * i))

/-- The struct that is decoded for an element, if any, and the item that is made of it, unless a
check on the head of the element fails. -/
def elementTarget (bus : Bus) (data : List UInt8) (pos : ℕ) :
    ElementKind → Option (Option Struct × (Option Struct → Item))
  | .object => (objectAddCheck bus.api (headWord data pos 0) (headWord data pos 1)).map fun desc =>
      (some (structSetHasFields (structInit desc.infoDesc)),
        fun info => .object ⟨desc, headWord data pos 1, false, info.getD []⟩)
  | .removal => none
  | .event =>
      (eventCheck bus (headWord data pos 0) (headWord data pos 1)
        (headWord data pos 2)).map fun c =>
        (some (structInit c.1.desc.infoDesc), fun info => .event ⟨c.1, c.2, info.getD []⟩)
  | .call =>
      (callCheck bus (headWord data pos 0) (headWord data pos 1) (headWord data pos 2)).map fun c =>
        (c.2.argsDesc.map structZero, fun args => .call ⟨c.1, c.2, headWord data pos 3, args⟩)

/-- Decode a struct, if there is one. -/
def dataDecode : Option Struct → Dec (Option Struct)
  | some st => some <$> structDecode st
  | none => pure none

/-- What is decoded behind the head of an element. -/
def elementTail (bus : Bus) (data : List UInt8) (k : ElementKind) (pos : ℕ) : Dec (Option Item) :=
  decodeSized (UInt32.ofNat (wordAt data 4 (pos + 2 * k.words))) (elementTarget bus data pos k)
    fun target => target.2 <$> dataDecode target.1

lemma run_map {α β : Type} (p : Dec α) (g : α → β) (b : Buffer) :
    (g <$> p).on b = ((p.on b).1.map g, (p.on b).2) := by
  have hmap : g <$> p = p >>= fun a => pure (g a) := rfl
  rw [Dec.on, hmap, run_bind, Dec.on]
  generalize p.run readHandler b = r
  rcases r with ⟨_ | _, _⟩ <;> rfl

/-- The data of an element that is refused are passed over. -/
lemma decodeSized_none {α γ : Type} {size : UInt32} {body : γ → Dec α} {b : Buffer} :
    (decodeSized size none body).on b =
      (.ok none, (bufferSetReadPosition (b.pos + size.toNat) b).2) := by
  have hget : getReadPosition.run readHandler b = (.ok b.pos, b) := run_perform _ _ _
  unfold decodeSized
  rw [Dec.on, run_bind_ok _ hget, run_bind_ok _ (run_attempt _ _ _), setReadPosition, run_perform]
  rfl

/-- The data of an element are decoded, and the read position is moved to their announced end. -/
lemma decodeSized_some {α γ : Type} {size : UInt32} {c : γ} {body : γ → Dec α} {b : Buffer} :
    (decodeSized size (some c) body).on b = (.ok ((body c).on b).1.toOption,
      (bufferSetReadPosition (b.pos + size.toNat) ((body c).on b).2).2) := by
  have hget : ∀ b : Buffer, getReadPosition.run readHandler b = (.ok b.pos, b) :=
    fun b => run_perform _ _ b
  have hset : ∀ (n : ℕ) (b : Buffer), (setReadPosition n).attempt.run readHandler b =
      (.ok (bufferSetReadPosition n b).1, (bufferSetReadPosition n b).2) := by
    intro n b
    rw [run_attempt, setReadPosition, run_perform]
    rfl
  unfold decodeSized
  rw [Dec.on, run_bind_ok _ (hget b), run_bind_ok _ (run_attempt _ _ _), Dec.on]
  rcases (body c).run readHandler b with ⟨e | a, b'⟩
  · exact run_bind_ok _ (hset _ b')
  · change (getReadPosition >>= _).run readHandler b' = _
    rw [run_bind_ok _ (hget b')]
    by_cases hpos : b'.pos = b.pos + size.toNat
    · rw [if_neg (not_not.mpr hpos), ← hpos, bufferSetReadPosition]
      split <;> rfl
    · rw [if_pos hpos]
      exact run_bind_ok _ (hset _ b')

/-- What is made of the data of an element may be made of its item. -/
lemma decodeSized_map {α β γ δ : Type} {size : UInt32} {check : Option γ} {body : γ → Dec α}
    {m : γ → δ}
    {body' : δ → Dec β} {g : α → β} (h : ∀ c b, (body' (m c)).on b = (g <$> body c).on b)
    (b : Buffer) :
    (Option.map g <$> decodeSized size check body).on b =
      (decodeSized size (check.map m) body').on b := by
  cases check with
  | none =>
    rw [run_map, Option.map_none, decodeSized_none, decodeSized_none]
    rfl
  | some c =>
    rw [run_map, Option.map_some, decodeSized_some, decodeSized_some, h, run_map]
    cases ((body c).on b).1 <;> rfl

lemma elementTail_none {b : Buffer} (h : elementTarget bus data pos k = none) :
    (elementTail bus data k pos).on b =
      (.ok none, (bufferSetReadPosition (b.pos + wordAt data 4 (pos + 2 * k.words)) b).2) := by
  rw [elementTail, h, decodeSized_none, toNat_wordAt32]

lemma elementTail_some {b : Buffer} {target : Option Struct × (Option Struct → Item)}
    (h : elementTarget bus data pos k = some target) :
    (elementTail bus data k pos).on b = (.ok (((dataDecode target.1).on b).1.toOption.map target.2),
      (bufferSetReadPosition (b.pos + wordAt data 4 (pos + 2 * k.words))
        ((dataDecode target.1).on b).2).2) := by
  rw [elementTail, h, decodeSized_some, toNat_wordAt32, run_map]
  cases ((dataDecode target.1).on b).1 <;> rfl

/-- Behind its head an element is decoded as its target says. -/
lemma elementDecode_on {b : Buffer} (hk : k ≠ .removal) (hin : k.start pos ≤ data.length)
    (hb : b.At data pos) :
    (elementDecode bus k).on b = (elementTail bus data k pos).on (b.seek (k.start pos)) := by
  have hword : ∀ i, pos + 2 * i + 2 ≤ data.length →
      GoesTo data readU16 (pos + 2 * i) (headWord data pos i) (pos + 2 * (i + 1)) :=
    fun i h => goesTo_readU16 h
  -- the struct is decoded, and the item made of it
  have hbody : ∀ (st : Struct) (make : Struct → Item) (c : Buffer),
      ((fun info => make (info.getD [])) <$> dataDecode (some st)).on c =
        (make <$> structDecode st).on c := by
    intro st make c
    change (_ <$> some <$> structDecode st).on c = _
    rw [run_map, run_map, run_map]
    cases ((structDecode st).on c).1 <;> rfl
  have hmap : ∀ {α β : Type} (p : Dec α) (f : α → β) (g : β → Item) (c : Buffer),
      (g <$> f <$> p).on c = ((fun a => g (f a)) <$> p).on c := by
    intro α β p f g c
    rw [run_map, run_map, run_map]
    cases (p.on c).1 <;> rfl
  cases k with
  | removal => exact absurd rfl hk
  | object =>
    change pos + 2 * 2 + 4 ≤ data.length at hin
    have hhead : GoesTo data (do
        let uid ← readU16; let handle ← readU16; let size ← readU32; pure
            (uid, handle, size) : Dec _) pos
        (headWord data pos 0, headWord data pos 1, UInt32.ofNat (wordAt data 4 (pos + 2 * 2)))
        (ElementKind.start .object pos) :=
      (hword 0 (by omega)).bind
        ((hword 1 (by omega)).bind ((goesTo_readU32 hin).bind (goesTo_pure _)))
    refine (run_map _ _ b).trans ?_
    unfold objectAddDecode
    rw [Dec.on, run_bind_ok _ (hhead.attempt b hb), ← run_map]
    refine decodeSized_map (fun desc c => ?_) _
    exact (hbody _ _ c).trans (hmap _ _ _ c).symm
  | event =>
    change pos + 2 * 3 + 4 ≤ data.length at hin
    have hhead : GoesTo data (do
        let uid ← readU16; let handle ← readU16; let eventUid ← readU16; let size ← readU32
        pure (uid, handle, eventUid, size) : Dec _) pos (headWord data pos 0, headWord data pos 1,
        headWord data pos 2, UInt32.ofNat (wordAt data 4 (pos + 2 * 3)))
          (ElementKind.start .event pos) :=
      (hword 0 (by omega)).bind ((hword 1 (by omega)).bind ((hword 2 (by omega)).bind
        ((goesTo_readU32 hin).bind (goesTo_pure _))))
    refine (run_map _ _ b).trans ?_
    unfold eventDecode
    rw [Dec.on, run_bind_ok _ (hhead.attempt b hb), ← run_map]
    refine decodeSized_map (fun desc c => ?_) _
    exact (hbody _ _ c).trans (hmap _ _ _ c).symm
  | call =>
    change pos + 2 * 4 + 4 ≤ data.length at hin
    have hhead : GoesTo data (do
        let uid ← readU16; let handle ← readU16; let mtdUid ← readU16; let callHandle ← readU16
        let size ← readU32; pure (uid, handle, mtdUid, callHandle, size) : Dec _) pos
        (headWord data pos 0, headWord data pos 1, headWord data pos 2, headWord data pos 3,
          UInt32.ofNat (wordAt data 4 (pos + 2 * 4))) (ElementKind.start .call pos) :=
      (hword 0 (by omega)).bind ((hword 1 (by omega)).bind ((hword 2 (by omega)).bind
        ((hword 3 (by omega)).bind ((goesTo_readU32 hin).bind (goesTo_pure _)))))
    refine (run_map _ _ b).trans ?_
    unfold callDecode
    rw [Dec.on, run_bind_ok _ (hhead.attempt b hb), ← run_map]
    refine decodeSized_map (fun c b' => ?_) _
    obtain ⟨obj, desc⟩ := c
    have hargs : dataDecode (desc.argsDesc.map structZero) = argsDecode desc.argsDesc := by
      cases desc.argsDesc <;> rfl
    have hcall := hmap (argsDecode desc.argsDesc)
      (fun args => (⟨obj, desc, headWord data pos 3, args⟩ : Call)) Item.call b'
    refine Eq.trans ?_ hcall.symm
    exact congrArg (fun p : Dec (Option Struct) =>
      ((fun args => Item.call ⟨obj, desc, headWord data pos 3, args⟩) <$> p).run readHandler b')
        hargs

/-- A void element has no target, whatever the bus is. -/
lemma elementTarget_of_void (h : Void data k pos) : elementTarget bus data pos k = none := by
  obtain ⟨i, hi, -, hzero⟩ := h
  have hword : headWord data pos i = 0 := by
    rw [headWord, hzero]
    rfl
  cases k with
  | removal => exact absurd hi (Nat.not_lt_zero i)
  | object =>
    have hcheck : objectAddCheck bus.api (headWord data pos 0) (headWord data pos 1) = none := by
      refine if_pos ?_
      change i < 2 at hi
      interval_cases i
      · exact Or.inl hword
      · exact Or.inr hword
    rw [elementTarget, hcheck, Option.map_none]
  | event =>
    have hcheck : eventCheck bus (headWord data pos 0) (headWord data pos 1) (headWord data pos 2) =
        none := by
      refine if_pos ?_
      change i < 3 at hi
      interval_cases i
      · exact Or.inl hword
      · exact Or.inr (Or.inl hword)
      · exact Or.inr (Or.inr hword)
    rw [elementTarget, hcheck, Option.map_none]
  | call =>
    have hcheck : callCheck bus (headWord data pos 0) (headWord data pos 1) (headWord data pos 2) =
        none := by
      change i < 3 at hi
      unfold callCheck
      cases hobj : bus.object? (headWord data pos 1) with
      | none => rfl
      | some obj =>
        dsimp only
        split_ifs with huid
        · rfl
        · rw [Option.map_eq_none_iff]
          interval_cases i
          · have hzero : obj.desc.uid = 0 := (not_not.mp huid).trans hword
            rw [BusDesc.method?, hzero, BusDesc.object?, if_pos rfl, Option.bind_none, ite_self]
          · rw [hword, Bus.object?, if_pos rfl] at hobj
            cases hobj
          · exact if_pos hword
    rw [elementTarget, hcheck, Option.map_none]

lemma exists_reads_dataDecode (st : Option Struct) (h : StructWithin data pos) :
    ∃ st', Reads data (dataDecode st) pos st' := by
  cases st with
  | none => exact ⟨none, (goesTo_pure none).reads⟩
  | some st =>
    obtain ⟨st', hst'⟩ := exists_reads_structDecode st h
    exact ⟨some st', hst'.map some⟩

/-- An element whose data do not matter or lie in the packet is one and the same; its decoder goes
to the announced end if this is in the packet. -/
lemma exists_reads_elementDecode (bus : Bus) (hk : k ≠ .removal) (hin : k.start pos ≤ data.length)
    (h : Void data k pos ∨ StructWithin data (k.start pos)) :
    ∃ item, Reads data (elementDecode bus k) pos item ∧
      (announcedEnd data k pos ≤ data.length →
        GoesTo data (elementDecode bus k) pos item (announcedEnd data k pos)) := by
  have hset : ∀ b c : Buffer, b.At data pos → c.data = b.data ∧ c.length = b.length →
      announcedEnd data k pos ≤ data.length →
      (bufferSetReadPosition (announcedEnd data k pos) c).2 = b.seek (announcedEnd data k pos) := by
    rintro b c hb ⟨hdata, hlength⟩ hend
    have hle := hb.length_le
    rw [bufferSetReadPosition, if_neg (by omega), Buffer.seek, ← hdata, ← hlength]
  cases htarget : elementTarget bus data pos k with
  | none =>
    have hrun : ∀ b, b.At data pos → (elementDecode bus k).on b =
        (.ok none, (bufferSetReadPosition (announcedEnd data k pos) (b.seek (k.start pos))).2) := by
      intro b hb
      rw [elementDecode_on hk hin hb, elementTail_none htarget]
      rfl
    refine ⟨none, fun b hb => by rw [hrun b hb], fun hend b hb => ?_⟩
    rw [hrun b hb, hset b (b.seek (k.start pos)) hb ⟨rfl, rfl⟩ hend]
  | some target =>
    have hstruct : StructWithin data (k.start pos) := by
      refine h.resolve_left fun hvoid => ?_
      rw [elementTarget_of_void hvoid] at htarget
      cases htarget
    obtain ⟨st, hst⟩ := exists_reads_dataDecode target.1 hstruct
    have hrun : ∀ b, b.At data pos → (elementDecode bus k).on b =
        (.ok (some (target.2 st)), (bufferSetReadPosition (announcedEnd data k pos)
          ((dataDecode target.1).on (b.seek (k.start pos))).2).2) := by
      intro b hb
      rw [elementDecode_on hk hin hb, elementTail_some htarget, hst _ (hb.seek _)]
      rfl
    refine ⟨some (target.2 st), fun b hb => by rw [hrun b hb], fun hend b hb => ?_⟩
    have hframe := Dec.on_frame (dataDecode target.1) (b.seek (k.start pos))
    rw [hrun b hb, hset b _ hb hframe hend]

lemma goesTo_removal (hin : pos + 4 ≤ data.length) :
    GoesTo data (elementDecode bus .removal) pos
      (((bus.object? (headWord data pos 1)).map Object.ref).map Item.removal) (pos + 4) := by
  have hhead : GoesTo data (do let uid ← readU16; let handle ← readU16; pure (uid, handle) : Dec _)
      pos
      (headWord data pos 0, headWord data pos 1) (pos + 4) :=
    (goesTo_readU16 (by omega)).bind ((goesTo_readU16 (by omega)).bind (goesTo_pure _))
  have hremove : GoesTo data (objectRemoveDecode bus) pos
      ((bus.object? (headWord data pos 1)).map Object.ref) (pos + 4) :=
    hhead.attempt.bind (goesTo_pure _)
  exact hremove.map _

/-- Where the buffer has less than `n` bytes, the program fails and leaves less than four. -/
def Starves {α : Type} (n : ℕ) (p : Dec α) : Prop :=
  ∀ b, b.length < b.pos + n → ∃ e b', p.on b = (.error e, b') ∧ b'.length = b.length ∧
  b.length < b'.pos + 4

lemma starves_readU16_bind {α : Type} {n : ℕ} {f : UInt16 → Dec α}
    (hf : n = 0 ∨ ∀ a, Starves n (f a)) : Starves (2 + n) (readU16 >>= f) := by
  intro b hb
  by_cases hlt : b.length < b.pos + 2
  · have hrun : readU16.run readHandler b = (.error .einval, b) := by
      rw [readU16, run_perform, readHandler, bufferReadU16, bufferReadWord, if_pos hlt]
      rfl
    exact ⟨.einval, b, run_bind_error _ hrun, rfl, by omega⟩
  · have hrun : readU16.run readHandler b =
        (.ok (UInt16.ofNat (ofBigEndian (b.slice 2))), b.seek (b.pos + 2)) := by
      rw [readU16, run_perform, readHandler, bufferReadU16, bufferReadWord, if_neg hlt]
      rfl
    obtain ⟨e, b', hrest, hlength, hleft⟩ := hf.resolve_left (by omega) _ (b.seek (b.pos + 2)) (by
      rw [Buffer.seek_length, Buffer.seek_pos]
      omega)
    exact ⟨e, b', (run_bind_ok _ hrun).trans hrest, hlength, hleft⟩

lemma starves_readU32_bind {α : Type} {n : ℕ} {f : UInt32 → Dec α}
    (hf : n = 0 ∨ ∀ a, Starves n (f a)) : Starves (4 + n) (readU32 >>= f) := by
  intro b hb
  by_cases hlt : b.length < b.pos + 4
  · have hrun : readU32.run readHandler b = (.error .eagain, b) := by
      rw [readU32, run_perform, readHandler, bufferReadU32, bufferReadWord, if_pos hlt]
      rfl
    exact ⟨.eagain, b, run_bind_error _ hrun, rfl, hlt⟩
  · have hrun : readU32.run readHandler b =
        (.ok (UInt32.ofNat (ofBigEndian (b.slice 4))), b.seek (b.pos + 4)) := by
      rw [readU32, run_perform, readHandler, bufferReadU32, bufferReadWord, if_neg hlt]
      rfl
    obtain ⟨e, b', hrest, hlength, hleft⟩ := hf.resolve_left (by omega) _ (b.seek (b.pos + 4)) (by
      rw [Buffer.seek_length, Buffer.seek_pos]
      omega)
    exact ⟨e, b', (run_bind_ok _ hrun).trans hrest, hlength, hleft⟩

/-- How long the head of an element is, with its size. -/
def ElementKind.head : ElementKind → ℕ
  | .removal => 4
  | k => 2 * k.words + 4

/-- Without its head there is no element. -/
lemma elementDecode_starved (bus : Bus) {b : Buffer} (h : b.length < b.pos + k.head) :
    ∃ b', (elementDecode bus k).on b = (.ok none, b') ∧ b'.length = b.length ∧
    b.length < b'.pos + 4 := by
  have hattempt :
      ∀ {α β : Type} {n : ℕ} {p : Dec α} {f : Except Errno α → Dec (Option β)} {g : β → Item},
      Starves n p → (∀ e, f (.error e) = pure none) → b.length < b.pos + n →
      ∃ b', Dec.on (Option.map g <$> (p.attempt >>= f)) b = (.ok none, b') ∧ b'.length = b.length ∧
        b.length < b'.pos + 4 := by
    intro α β n p f g hp hf hn
    obtain ⟨e, b', hrun, hlength, hleft⟩ := hp b hn
    refine ⟨b', ?_, hlength, hleft⟩
    have hfirst : p.attempt.run readHandler b = (.ok (.error e), b') := by
      rw [run_attempt, ← Dec.on, hrun]
    rw [run_map, Dec.on, run_bind_ok _ hfirst, hf]
    rfl
  have hsize : ∀ {α : Type} {f : UInt32 → Dec α}, Starves 4 (readU32 >>= f) :=
    starves_readU32_bind (n := 0) (Or.inl rfl)
  cases k with
  | object =>
    exact hattempt (starves_readU16_bind
      (Or.inr fun _ => starves_readU16_bind (Or.inr fun _ => hsize)))
      (fun _ => rfl) h
  | removal =>
    exact hattempt (starves_readU16_bind
      (Or.inr fun _ => starves_readU16_bind (n := 0) (Or.inl rfl)))
      (fun _ => rfl) h
  | event =>
    exact hattempt (starves_readU16_bind (Or.inr fun _ => starves_readU16_bind (Or.inr fun _ =>
      starves_readU16_bind (Or.inr fun _ => hsize)))) (fun _ => rfl) h
  | call =>
    exact hattempt (starves_readU16_bind (Or.inr fun _ => starves_readU16_bind (Or.inr fun _ =>
      starves_readU16_bind (Or.inr fun _ => starves_readU16_bind (Or.inr fun _ => hsize)))))
      (fun _ => rfl) h

/-- The head of the last element need not be there if the element is void. -/
lemma reads_elementDecode_void (h : Void data k pos) :
    Reads data (elementDecode bus k) pos none := by
  have hk : k ≠ .removal := by
    rintro rfl
    obtain ⟨i, hi, -⟩ := h
    exact absurd hi (Nat.not_lt_zero i)
  intro b hb
  have hself : b.At b.content pos := ⟨hb.ok, List.prefix_refl _, hb.pos⟩
  have hvoid : Void b.content k pos := by
    obtain ⟨t, ht⟩ := hb.starts
    rw [← ht]
    exact h.append t
  by_cases hin : k.start pos ≤ b.content.length
  · rw [elementDecode_on hk hin hself, elementTail_none (elementTarget_of_void hvoid)]
  · rw [Buffer.content_length hb.ok] at hin
    have hhead : k.start pos = pos + k.head := by
      cases k with
      | removal => exact absurd rfl hk
      | _ => rfl
    obtain ⟨b', hrun, -⟩ := elementDecode_starved bus (k := k) (b := b) (by
      rw [hb.pos, ← hhead]
      omega)
    rw [hrun]

/-- The elements of a packet are the same ones on every buffer. -/
lemma exists_reads_elementsDecode (bus : Bus) {ks : List ElementKind}
    (h : ElementsWithin data ks pos) : ∃ items, Reads data (elementsDecode bus ks) pos items := by
  induction ks generalizing pos with
  | nil => exact ⟨[], (goesTo_pure []).reads⟩
  | cons k ks ih =>
    by_cases hk : k = .removal
    · subst hk
      obtain ⟨hin, hrest⟩ := h
      obtain ⟨items, hitems⟩ := ih hrest
      exact ⟨_, (goesTo_removal hin).bind_reads (hitems.bind fun _ => (goesTo_pure _).reads)⟩
    · have hdata : (Void data k pos ∨ StructWithin data (k.start pos)) ∧ (ks = [] ∨
          announcedEnd data k pos ≤ data.length ∧
            ElementsWithin data ks (announcedEnd data k pos)) := by
        cases k with
        | removal => exact absurd rfl hk
        | _ => exact h
      obtain ⟨hdata, hnext⟩ := hdata
      -- the position behind the last element does not matter
      have hlast : ∀ {item : Option Item}, ks = [] → Reads data (elementDecode bus k) pos item →
          ∃ items, Reads data (elementsDecode bus (k :: ks)) pos items := by
        rintro item rfl hitem
        exact ⟨item.toList ++ [], hitem.bind fun _ => (goesTo_pure _).reads⟩
      by_cases hin : k.start pos ≤ data.length
      · obtain ⟨item, hreads, hgoes⟩ := exists_reads_elementDecode bus hk hin hdata
        rcases hnext with hnil | ⟨hend, hrest⟩
        · exact hlast hnil hreads
        · obtain ⟨items, hitems⟩ := ih hrest
          exact ⟨_, (hgoes hend).bind_reads (hitems.bind fun _ => (goesTo_pure _).reads)⟩
      · rcases hnext with hnil | ⟨hend, -⟩
        · refine hlast hnil (reads_elementDecode_void (hdata.resolve_right fun hstruct => hin ?_))
          exact le_trans (Nat.le_add_right _ 2) hstruct.1
        · exact absurd (le_trans (Nat.le_add_right _ _) hend) hin

lemma total_decodeSized {α γ : Type} (size : UInt32) (check : Option γ) (body : γ → Dec α) :
    Total (decodeSized size check body) := by
  cases check with
  | none => exact fun b => ⟨none, congrArg Prod.fst decodeSized_none⟩
  | some c => exact fun b => ⟨_, congrArg Prod.fst decodeSized_some⟩

lemma total_objectAddDecode (api : BusDesc) : Total (objectAddDecode api) := by
  refine (total_attempt _).bind fun r => ?_
  rcases r with e | ⟨uid, handle, size⟩
  · exact total_pure none
  · exact total_decodeSized size _ _

lemma total_objectRemoveDecode (bus : Bus) : Total (objectRemoveDecode bus) := by
  refine (total_attempt _).bind fun r => ?_
  rcases r with e | ⟨uid, handle⟩
  · exact total_pure none
  · exact total_pure _

lemma total_eventDecode (bus : Bus) : Total (eventDecode bus) := by
  refine (total_attempt _).bind fun r => ?_
  rcases r with e | ⟨uid, handle, eventUid, size⟩
  · exact total_pure none
  · exact total_decodeSized size _ _

lemma total_callDecode (bus : Bus) : Total (callDecode bus) := by
  refine (total_attempt _).bind fun r => ?_
  rcases r with e | ⟨uid, handle, mtdUid, callHandle, size⟩
  · exact total_pure none
  · exact total_decodeSized size _ _

/-- Decoding an element does not fail. -/
lemma total_elementDecode (bus : Bus) (k : ElementKind) : Total (elementDecode bus k) := by
  cases k with
  | object => exact (total_objectAddDecode bus.api).bind fun _ => total_pure _
  | removal => exact (total_objectRemoveDecode bus).bind fun _ => total_pure _
  | event => exact (total_eventDecode bus).bind fun _ => total_pure _
  | call => exact (total_callDecode bus).bind fun _ => total_pure _

lemma total_elementsDecode (bus : Bus) (ks : List ElementKind) : Total (elementsDecode bus ks) := by
  induction ks with
  | nil => exact total_pure []
  | cons k ks ih => exact (total_elementDecode bus k).bind fun _ => ih.bind fun _ => total_pure _

end Elements

/-! ## Packets -/

section Packets

variable {bus : Bus} {data : List UInt8} {pos : ℕ}

/-- A loop that decodes elements decodes the next ones of a list of elements. -/
lemma decodeMany_elements {α : Type} {k : ElementKind} {p : Dec (Option α)} {g : α → Item}
    (hp : Total p) (hk : elementDecode bus k = Option.map g <$> p) (n : ℕ) (b : Buffer) :
    ∃ l b', (decodeMany p n).on b = (.ok l, b') ∧
    ∀ ks, (elementsDecode bus (List.replicate n k ++ ks)).on b =
      ((fun items => l.map g ++ items) <$> elementsDecode bus ks).on b' := by
  have hloop : ∀ (n : ℕ) (acc : List α) (b : Buffer), ∃ l b',
      Dec.on (iter (fun acc => do pure (acc ++ (← p).toList)) n acc) b = (.ok (acc ++ l), b') ∧
        ∀ ks, (elementsDecode bus (List.replicate n k ++ ks)).on b =
          ((fun items => l.map g ++ items) <$> elementsDecode bus ks).on b' := by
    intro n
    induction n with
    | zero =>
      intro acc b
      refine ⟨[], b, by rw [List.append_nil]; rfl, fun ks => ?_⟩
      rw [run_map]
      change (elementsDecode bus ks).on b = _
      rcases (elementsDecode bus ks).on b with ⟨_ | _, _⟩ <;> rfl
    | succ n ih =>
      intro acc b
      obtain ⟨a, ha⟩ := hp b
      obtain ⟨l, b', hiter, helems⟩ := ih (acc ++ a.toList) (p.on b).2
      have hrun : p.run readHandler b = (.ok a, (p.on b).2) := Prod.ext ha rfl
      have helem : (elementDecode bus k).run readHandler b = (.ok (a.map g), (p.on b).2) := by
        rw [hk]
        refine (run_map p _ b).trans ?_
        rw [ha]
        rfl
      refine ⟨a.toList ++ l, b', ?_, fun ks => ?_⟩
      · have hfirst : (do pure (acc ++ (← p).toList) : Dec (List α)).run readHandler b =
            (.ok (acc ++ a.toList), (p.on b).2) := run_bind_ok _ hrun
        rw [← List.append_assoc, ← hiter]
        exact run_bind_ok _ hfirst
      · have hrest := helems ks
        rw [run_map] at hrest ⊢
        change (elementDecode bus k >>= _).run readHandler b = _
        rw [run_bind_ok _ helem]
        refine (run_map (elementsDecode bus (List.replicate n k ++ ks)) _ (p.on b).2).trans ?_
        rw [hrest]
        refine Prod.ext ?_ rfl
        cases a <;> cases ((elementsDecode bus ks).on b').1 <;> simp [Except.map]
  obtain ⟨l, b', hiter, helems⟩ := hloop n [] b
  exact ⟨l, b', hiter, helems⟩

/-- On every two buffers that start with the bytes, the program gives the same value, or fails. -/
def Alike {α : Type} (data : List UInt8) (p : Dec α) (pos : ℕ) : Prop :=
  ∀ b c, b.At data pos → c.At data pos → (p.on b).1.toOption = (p.on c).1.toOption

/-- The items that a list of elements is decoded to. -/
def itemsOn (bus : Bus) (ks : List ElementKind) (b : Buffer) : List Item :=
  ((elementsDecode bus ks).on b).1.toOption.getD []

/-- What is decoded of a packet with a single element is known by the item. -/
lemma item_eq_iff {α : Type} {k : ElementKind} {p : Dec (Option α)} {g : α → Item} (hp : Total p)
    (hk : elementDecode bus k = Option.map g <$> p) (hg : Function.Injective g) (b c : Buffer) :
    itemsOn bus [k] b = itemsOn bus [k] c ↔ (p.on b).1 = (p.on c).1 := by
  have hitems : ∀ b a, (p.on b).1 = .ok a → itemsOn bus [k] b = (a.map g).toList := by
    intro b a ha
    have helem : (elementDecode bus k).run readHandler b = (.ok (a.map g), (p.on b).2) := by
      rw [hk]
      refine (run_map p _ b).trans ?_
      rw [ha]
      rfl
    have hrun : (elementsDecode bus [k]).on b = (.ok ((a.map g).toList ++ []), (p.on b).2) :=
      run_bind_ok _ helem
    rw [itemsOn, hrun]
    exact List.append_nil _
  obtain ⟨x, hx⟩ := hp b
  obtain ⟨y, hy⟩ := hp c
  rw [hitems b x hx, hitems c y hy, hx, hy, Except.ok.injEq]
  constructor
  · intro h
    have hhead := congrArg List.head? h
    rw [Option.head?_toList, Option.head?_toList] at hhead
    exact Option.map_injective hg hhead
  · rintro rfl
    rfl

/-- An element that must be there is known by what is decoded. -/
lemma orFail_eq_iff {α β : Type} {p : Dec (Option α)} (hp : Total p) {f : α → β}
    (hf : Function.Injective f) (b c : Buffer) :
    ((f <$> decodeOrFail p).on b).1.toOption = ((f <$> decodeOrFail p).on c).1.toOption ↔
      (p.on b).1 = (p.on c).1 := by
  have hresult : ∀ b a, (p.on b).1 = .ok a →
      ((f <$> decodeOrFail p).on b).1.toOption = a.map f := by
    intro b a ha
    have hrun : p.run readHandler b = (.ok a, (p.on b).2) := Prod.ext ha rfl
    rw [run_map]
    unfold decodeOrFail
    rw [Dec.on, run_bind_ok _ hrun]
    cases a <;> rfl
  obtain ⟨x, hx⟩ := hp b
  obtain ⟨y, hy⟩ := hp c
  rw [hresult b x hx, hresult c y hy, hx, hy, Except.ok.injEq, (Option.map_injective hf).eq_iff]

lemma Item.object_injective : Function.Injective Item.object := fun _ _ h => Item.object.inj h

lemma Item.removal_injective : Function.Injective Item.removal := fun _ _ h => Item.removal.inj h

lemma Item.event_injective : Function.Injective Item.event := fun _ _ h => Item.event.inj h

lemma Item.call_injective : Function.Injective Item.call := fun _ _ h => Item.call.inj h

/-- The object of an item, if it is one. -/
def Item.object? : Item → Option Object
  | .object obj => some obj
  | _ => none

/-- The object that an item removes, if it is a removal. -/
def Item.removal? : Item → Option ObjectRef
  | .removal obj => some obj
  | _ => none

/-- The event of an item, if it is one. -/
def Item.event? : Item → Option Event
  | .event ev => some ev
  | _ => none

/-- The items of a bus event are known by those of each kind. -/
lemma items_inj {l₁ m₁ : List Object} {l₂ m₂ : List ObjectRef} {l₃ m₃ : List Event}
    (h : l₁.map Item.object ++ (l₂.map Item.removal ++ l₃.map Item.event) =
      m₁.map Item.object ++ (m₂.map Item.removal ++ m₃.map Item.event)) :
      l₁ = m₁ ∧ l₂ = m₂ ∧ l₃ = m₃ := by
  have hobjects := congrArg (List.filterMap Item.object?) h
  have hremovals := congrArg (List.filterMap Item.removal?) h
  have hevents := congrArg (List.filterMap Item.event?) h
  simp only [List.filterMap_append, List.filterMap_map] at hobjects hremovals hevents
  refine ⟨?_, ?_, ?_⟩
  · simpa [Function.comp_def, Item.object?] using hobjects
  · simpa [Function.comp_def, Item.removal?] using hremovals
  · simpa [Function.comp_def, Item.event?] using hevents

/-- The packets with a single element. -/
def singleKind : PacketType → Option ElementKind
  | .add => some .object
  | .remove => some .removal
  | .event => some .event
  | .call => some .call
  | _ => none

/-- A packet with a single element is known by its item. -/
lemma single_eq_iff {type : PacketType} {k : ElementKind} (hk : singleKind type = some k)
    (b c : Buffer) :
    ((packetDecode bus type).on b).1.toOption = ((packetDecode bus type).on c).1.toOption ↔
      itemsOn bus [k] b = itemsOn bus [k] c := by
  cases type with
  | add =>
    cases hk
    rw [item_eq_iff (total_objectAddDecode bus.api) rfl Item.object_injective]
    exact orFail_eq_iff (total_objectAddDecode bus.api) (fun _ _ h => PacketInfo.add.inj h) b c
  | remove =>
    cases hk
    rw [item_eq_iff (total_objectRemoveDecode bus) rfl Item.removal_injective]
    obtain ⟨x, hx⟩ := total_objectRemoveDecode bus b
    obtain ⟨y, hy⟩ := total_objectRemoveDecode bus c
    unfold packetDecode
    rw [run_map, run_map, hx, hy, Except.ok.injEq]
    constructor
    · intro h
      exact PacketInfo.remove.inj (Option.some.inj h)
    · rintro rfl
      rfl
  | event =>
    cases hk
    rw [item_eq_iff (total_eventDecode bus) rfl Item.event_injective]
    exact orFail_eq_iff (total_eventDecode bus) (fun _ _ h => PacketInfo.event.inj h) b c
  | call =>
    cases hk
    rw [item_eq_iff (total_callDecode bus) rfl Item.call_injective]
    exact orFail_eq_iff (total_callDecode bus) (fun _ _ h => PacketInfo.call.inj h) b c
  | _ => cases hk

/-- The items of a loop, and of nothing behind it. -/
lemma itemsOn_decodeMany {α : Type} {k : ElementKind} {p : Dec (Option α)} {g : α → Item}
    (hp : Total p)
    (hk : elementDecode bus k = Option.map g <$> p) (n : ℕ) (ks : List ElementKind) (b : Buffer) :
    ∃ l b', (decodeMany p n).on b = (.ok l, b') ∧
      itemsOn bus (List.replicate n k ++ ks) b = l.map g ++ itemsOn bus ks b' := by
  obtain ⟨l, b', hrun, helems⟩ := decodeMany_elements hp hk n b
  refine ⟨l, b', hrun, ?_⟩
  obtain ⟨items, hitems⟩ := total_elementsDecode bus ks b'
  rw [itemsOn, itemsOn, helems ks, run_map, hitems]
  rfl

/-- A response whose number of objects is there is known by its items. -/
lemma conresp_on (bus : Bus) {b : Buffer} (hb : b.At data pos) (hin : pos + 5 ≤ data.length)
    (hstatus : wordAt data 1 pos < 3) :
    ∃ status l, ConrespStatus.ofCode? (UInt8.ofNat (wordAt data 1 pos)) = some status ∧
      ((packetDecode bus .conresp).on b).1 = .ok (.conresp status l) ∧
      itemsOn bus (List.replicate (wordAt data 4 (pos + 1)) .object) (b.seek (pos + 5)) =
        l.map Item.object := by
  obtain ⟨status, hcode⟩ : ∃ s, ConrespStatus.ofCode? (UInt8.ofNat (wordAt data 1 pos)) =
    some s := by
    unfold ConrespStatus.ofCode?
    rw [UInt8.toNat_ofNat_of_lt' (lt_trans hstatus (by decide))]
    exact ⟨_, List.getElem?_eq_getElem hstatus⟩
  have hobject : elementDecode bus .object = Option.map Item.object <$> objectAddDecode bus.api :=
    rfl
  obtain ⟨l, b', hloop, hitems⟩ := itemsOn_decodeMany (total_objectAddDecode bus.api) hobject
    (wordAt data 4 (pos + 1)) [] (b.seek (pos + 5))
  rw [List.append_nil] at hitems
  refine ⟨status, l, hcode, ?_, hitems.trans (List.append_nil _)⟩
  have hrun : (packetConrespDecode bus).on b = (.ok (status, l), b') := by
    unfold packetConrespDecode
    rw [Dec.on, run_bind_ok _ (goesTo_readU8 (by omega) b hb)]
    simp only [hcode]
    rw [run_bind_ok _ (goesTo_readU32 (by omega) _ (hb.seek (pos + 1))), toNat_wordAt32]
    exact run_bind_ok _ hloop
  exact congrArg Prod.fst ((run_map _ _ b).trans (by rw [hrun]))

lemma goesTo_busEventHead (hin : pos + 14 ≤ data.length) :
    GoesTo data busEventHead pos
      (UInt16.ofNat (wordAt data 2 pos), UInt32.ofNat (wordAt data 4 (pos + 2)),
      UInt32.ofNat (wordAt data 4 (pos + 6)), UInt32.ofNat (wordAt data 4 (pos + 10))) (pos + 14) :=
  (goesTo_readU16 (by omega)).bind
    ((goesTo_readU32 (by omega)).bind ((goesTo_readU32 (by omega)).bind
    ((goesTo_readU32 (by omega)).bind (goesTo_pure _))))

/-- Without its head there is no bus event. -/
lemma busEvent_starved {b : Buffer} (h : b.length < b.pos + 14) :
    ((packetDecode bus .busEvent).on b).1.toOption = none := by
  have hhead : Starves 14 busEventHead :=
    starves_readU16_bind (Or.inr fun _ => starves_readU32_bind (Or.inr fun _ =>
      starves_readU32_bind (Or.inr fun _ => starves_readU32_bind (n := 0) (Or.inl rfl))))
  obtain ⟨e, b', hrun, -⟩ := hhead b h
  have hfirst : busEventHead.attempt.run readHandler b = (.ok (.error e), b') := by
    rw [run_attempt, ← Dec.on, hrun]
  have hnone : (busEventDecode bus).on b = (.ok none, b') := run_bind_ok _ hfirst
  have hfail : (decodeOrFail (busEventDecode bus)).on b = (.error .enoent, b') :=
    run_bind_ok _ hnone
  exact congrArg Except.toOption (congrArg Prod.fst ((run_map _ _ b).trans (by rw [hfail])))

/-- A bus event that is not known is no packet. -/
lemma busEvent_unknown {b : Buffer} (hb : b.At data pos) (hin : pos + 2 ≤ data.length)
    (hdesc : bus.api.busEvent? (UInt16.ofNat (wordAt data 2 pos)) = none) :
    ((packetDecode bus .busEvent).on b).1.toOption = none := by
  by_cases hlt : b.length < pos + 14
  · rw [← hb.pos] at hlt
    exact busEvent_starved hlt
  · have hself : b.At b.content pos := ⟨hb.ok, List.prefix_refl _, hb.pos⟩
    have hword : wordAt b.content 2 pos = wordAt data 2 pos := by
      obtain ⟨t, ht⟩ := hb.starts
      rw [← ht, wordAt_append t hin]
    rw [not_lt, ← Buffer.content_length hb.ok] at hlt
    have hnone : (busEventDecode bus).on b = (.ok none, b.seek (pos + 14)) := by
      refine (run_bind_ok _ ((goesTo_busEventHead hlt).attempt b hself)).trans ?_
      simp only [hword, hdesc]
      rfl
    have hfail : (decodeOrFail (busEventDecode bus)).on b = (.error .enoent, b.seek (pos + 14)) :=
      run_bind_ok _ hnone
    exact congrArg Except.toOption (congrArg Prod.fst ((run_map _ _ b).trans (by rw [hfail])))

/-- A bus event whose numbers of elements are there is known by its items. -/
lemma busEvent_on {b : Buffer} (hb : b.At data pos) (hin : pos + 14 ≤ data.length)
    {desc : BusEventDesc}
    (hdesc : bus.api.busEvent? (UInt16.ofNat (wordAt data 2 pos)) = some desc) :
    ∃ l₁ l₂ l₃, ((packetDecode bus .busEvent).on b).1 = .ok (.busEvent ⟨desc, l₁, l₂, l₃⟩) ∧
      itemsOn bus (busEventKinds data pos) (b.seek (pos + 14)) =
        l₁.map Item.object ++ (l₂.map Item.removal ++ l₃.map Item.event) := by
  have hobject : elementDecode bus .object = Option.map Item.object <$> objectAddDecode bus.api :=
    rfl
  have hremoval : elementDecode bus .removal = Option.map Item.removal <$> objectRemoveDecode bus :=
    rfl
  have hevent : elementDecode bus .event = Option.map Item.event <$> eventDecode bus := rfl
  obtain ⟨l₁, b₁, hloop₁, hitems₁⟩ := itemsOn_decodeMany (total_objectAddDecode bus.api) hobject
    (wordAt data 4 (pos + 2)) (List.replicate (wordAt data 4 (pos + 6)) .removal ++
      List.replicate (wordAt data 4 (pos + 10)) .event) (b.seek (pos + 14))
  obtain ⟨l₂, b₂, hloop₂, hitems₂⟩ := itemsOn_decodeMany (total_objectRemoveDecode bus) hremoval
    (wordAt data 4 (pos + 6)) (List.replicate (wordAt data 4 (pos + 10)) .event) b₁
  obtain ⟨l₃, b₃, hloop₃, hitems₃⟩ := itemsOn_decodeMany (total_eventDecode bus) hevent
    (wordAt data 4 (pos + 10)) [] b₂
  rw [List.append_nil] at hitems₃
  refine ⟨l₁, l₂, l₃, ?_, ?_⟩
  · have hrun : (busEventDecode bus).on b = (.ok (some ⟨desc, l₁, l₂, l₃⟩), b₃) := by
      refine (run_bind_ok _ ((goesTo_busEventHead hin).attempt b hb)).trans ?_
      simp only [hdesc, toNat_wordAt32]
      rw [run_bind_ok _ hloop₁, run_bind_ok _ hloop₂]
      exact run_bind_ok _ hloop₃
    have hfail : (decodeOrFail (busEventDecode bus)).on b = (.ok ⟨desc, l₁, l₂, l₃⟩, b₃) :=
      run_bind_ok _ hrun
    exact congrArg Prod.fst ((run_map _ _ b).trans (by rw [hfail]))
  · rw [busEventKinds, hitems₁, hitems₂, hitems₃]
    exact congrArg _ (congrArg _ (List.append_nil _))

lemma goesTo_readNewString {pos' : ℕ} (h : textEnd data pos = some pos') :
    GoesTo data readNewString pos (textAt data pos) pos' :=
  (goesTo_readString h).bind (goesTo_pure _)

lemma exists_goesTo_conreq {pos' : ℕ} (h : conreqEnd data pos = some pos') :
    ∃ req, GoesTo data packetConreqDecode pos req pos' := by
  obtain ⟨_, h, hclient⟩ := Option.bind_eq_some_iff.mp h
  obtain ⟨_, h, hcrc⟩ := Option.bind_eq_some_iff.mp h
  obtain ⟨_, hversion, hbus⟩ := Option.bind_eq_some_iff.mp h
  obtain ⟨hin, rfl⟩ := bytesEnd_eq_some.mp hversion
  obtain ⟨hin', rfl⟩ := bytesEnd_eq_some.mp hcrc
  exact ⟨_, (goesTo_readU8 hin).bind ((goesTo_readNewString hbus).bind ((goesTo_readU32 hin').bind
    ((goesTo_readNewString hclient).bind (goesTo_pure _))))⟩

lemma goesTo_packetAck (hin : pos + 3 ≤ data.length) :
    GoesTo data packetAckDecode pos ⟨headWord data pos 0, UInt8.ofNat (wordAt data 1 (pos + 2))⟩
      (pos + 3) :=
  (goesTo_readU16 (by omega)).bind ((goesTo_readU8 hin).bind (goesTo_pure _))

lemma GoesTo.alike {α : Type} {p : Dec α} {a : α} {pos' : ℕ} (h : GoesTo data p pos a pos') :
    Alike data p pos := by
  intro b c hb hc
  rw [h b hb, h c hc]

/-- The items of elements in the packet are the same ones. -/
lemma itemsOn_eq (bus : Bus) {ks : List ElementKind} (h : ElementsWithin data ks pos) {b c : Buffer}
    (hb : b.At data pos) (hc : c.At data pos) : itemsOn bus ks b = itemsOn bus ks c := by
  obtain ⟨items, hitems⟩ := exists_reads_elementsDecode bus h
  rw [itemsOn, itemsOn, hitems b hb, hitems c hc]

/-- A packet that lies in its bytes is decoded alike on all buffers that start with them. -/
lemma alike_packetDecode (bus : Bus) {type : PacketType} (h : BodyWithin data pos type) :
    Alike data (packetDecode bus type) pos := by
  have hsingle : ∀ k, singleKind type = some k → ElementsWithin data [k] pos →
      Alike data (packetDecode bus type) pos := fun k hk hin b c hb hc =>
    (single_eq_iff hk b c).mpr (itemsOn_eq bus hin hb hc)
  cases type with
  | add => exact hsingle .object rfl h
  | remove => exact hsingle .removal rfl h
  | event => exact hsingle .event rfl h
  | call => exact hsingle .call rfl h
  | ack => exact ((goesTo_packetAck h).map _).alike
  | conreq =>
    obtain ⟨pos', hend⟩ := Option.isSome_iff_exists.mp h
    obtain ⟨req, hreq⟩ := exists_goesTo_conreq hend
    exact (hreq.map _).alike
  | conresp =>
    obtain ⟨hin, hrest⟩ := h
    by_cases hstatus : wordAt data 1 pos < 3
    · obtain ⟨hcount, helems⟩ := hrest.resolve_left (not_le.mpr hstatus)
      intro b c hb hc
      obtain ⟨s, l, hs, hb', hl⟩ := conresp_on bus hb hcount hstatus
      obtain ⟨s', l', hs', hc', hl'⟩ := conresp_on bus hc hcount hstatus
      have hmap := itemsOn_eq bus helems (hb.seek _) (hc.seek _)
      rw [hl, hl'] at hmap
      rw [hs] at hs'
      cases hs'
      rw [hb', hc', List.map_injective_iff.mpr Item.object_injective hmap]
    · have hcode : ConrespStatus.ofCode? (UInt8.ofNat (wordAt data 1 pos)) = none := by
        unfold ConrespStatus.ofCode?
        rw [UInt8.toNat_ofNat_of_lt' (wordAt_lt 1)]
        exact List.getElem?_eq_none (not_lt.mp hstatus)
      have hfail : ∀ b, b.At data pos → ((packetDecode bus .conresp).on b).1.toOption = none := by
        intro b hb
        have hrun : (packetConrespDecode bus).on b = (.error .einval, b.seek (pos + 1)) := by
          unfold packetConrespDecode
          rw [Dec.on, run_bind_ok _ (goesTo_readU8 hin b hb)]
          simp only [hcode]
          rfl
        exact congrArg Except.toOption (congrArg Prod.fst ((run_map _ _ b).trans (by rw [hrun])))
      intro b c hb hc
      rw [hfail b hb, hfail c hc]
  | busEvent =>
    obtain ⟨hin, hrest⟩ := h
    intro b c hb hc
    cases hdesc : bus.api.busEvent? (UInt16.ofNat (wordAt data 2 pos)) with
    | none => rw [busEvent_unknown hb hin hdesc, busEvent_unknown hc hin hdesc]
    | some desc =>
      have hne : wordAt data 2 pos ≠ 0 := by
        intro hzero
        rw [hzero] at hdesc
        cases hdesc
      obtain ⟨hcounts, helems⟩ := hrest.resolve_left hne
      obtain ⟨l₁, l₂, l₃, hb', hl⟩ := busEvent_on hb hcounts hdesc
      obtain ⟨m₁, m₂, m₃, hc', hm⟩ := busEvent_on hc hcounts hdesc
      have hmap := itemsOn_eq bus helems (hb.seek _) (hc.seek _)
      rw [hl, hm] at hmap
      obtain ⟨rfl, rfl, rfl⟩ := items_inj hmap
      rw [hb', hc']

end Packets

end Obus
