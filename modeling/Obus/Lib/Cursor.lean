import Obus.Lib.Fallible

/-!
# Files in memory

A file in memory is its bytes and a position (`Cursor`), from which one reads and at which one
writes.

* `Takes p bs a` says that the reader `p` takes the bytes `bs`, wherever they are in the file, and
  gives `a`.  Readers are put together with it: a sequence takes what its parts take, and a loop
  what its iterations take.
* `Puts p o` says what the writer `p` does at the end of a file: it puts the bytes in `o` there, or
  it fails if there are none in `o`.  A sequence puts the bytes of its parts one behind the other,
  and fails if one of them does.
-/

/-- A file in memory. -/
structure Cursor where
  data : List UInt8
  pos : ℕ
  deriving DecidableEq

namespace Cursor

open Fallible

variable {ε α β γ δ : Type}

/-! ## Operations -/

/-- The bytes that are read where there are `n` of them, otherwise what is left. -/
def read (n : ℕ) : Fallible Cursor ε (List UInt8) := fun b =>
  .ok ((b.data.drop b.pos).take n, { b with pos := b.pos + ((b.data.drop b.pos).take n).length })

/-- Bytes are written over what is at the position; a gap in front of them is filled with zeros. -/
def write (bs : List UInt8) : Fallible Cursor ε Unit := fun b =>
  .ok ((), ⟨(b.data ++ List.replicate (b.pos - b.data.length) 0).take b.pos ++
    (bs ++ b.data.drop (b.pos + bs.length)),
    b.pos + bs.length⟩)

/-- The position. -/
def tell : Fallible Cursor ε ℕ := fun b => .ok (b.pos, b)

/-- Go to a position, which may be behind the end. -/
def seek (pos : ℕ) : Fallible Cursor ε Unit := fun b => .ok ((), { b with pos := pos })

/-- The number of bytes. -/
def length : Fallible Cursor ε ℕ := fun b => .ok (b.data.length, b)

/-! ## Readers -/

/-- A reader takes these bytes, wherever they are, and gives a value. -/
def Takes (p : Fallible Cursor ε α) (bs : List UInt8) (a : α) : Prop :=
  ∀ before after, Fallible.Leads p ⟨before ++ bs ++ after, before.length⟩ a
    ⟨before ++ bs ++ after, (before ++ bs).length⟩

section Takes

variable {p : Fallible Cursor ε α} {f : α → Fallible Cursor ε β} {bs bs' : List UInt8}
  {a : α} {b : β}

lemma takes_pure : Takes (pure a : Fallible Cursor ε α) [] a := by
  intro before after
  rw [List.append_nil]
  exact leads_pure.mpr ⟨rfl, rfl⟩

lemma Takes.bind (hp : Takes p bs a) (hf : Takes (f a) bs' b) : Takes (p >>= f) (bs ++ bs') b := by
  intro before after
  have hfirst := hp before (bs' ++ after)
  have hsecond := hf (before ++ bs) after
  simp only [List.append_assoc] at hfirst hsecond ⊢
  exact hfirst.bind hsecond

/-- What follows takes nothing more. -/
lemma Takes.bind_nil (hp : Takes p bs a) (hf : Takes (f a) [] b) : Takes (p >>= f) bs b := by
  have hbind := hp.bind hf
  rwa [List.append_nil] at hbind

lemma Takes.map {g : α → β} (hp : Takes p bs a) : Takes (g <$> p) bs (g a) := by
  rw [← bind_pure_comp]
  exact hp.bind_nil takes_pure

lemma takes_read (bs : List UInt8) :
    Takes (read bs.length : Fallible Cursor ε (List UInt8)) bs bs := by
  intro before after
  have htake : ((before ++ bs ++ after).drop before.length).take bs.length = bs := by
    rw [List.append_assoc, List.drop_left, List.take_left]
  unfold Fallible.Leads read
  dsimp only
  rw [htake, List.length_append]

/-- The position is known where the bytes begin. -/
lemma takes_tell {f : ℕ → Fallible Cursor ε β} (hf : ∀ n, Takes (f n) bs b) :
    Takes (tell >>= f) bs b := by
  intro before after
  have htell : Fallible.Leads tell (⟨before ++ bs ++ after, before.length⟩ : Cursor) before.length
    (⟨before ++ bs ++ after, before.length⟩ : Cursor) (ε := ε) := rfl
  exact htell.bind (hf before.length before after)

/-- A loop takes what its iterations take, one behind the other. -/
lemma takes_iter {step : α → Fallible Cursor ε α} {bytes : γ → List UInt8} {next : α → γ → α}
    {l : List γ} (hstep : ∀ a, ∀ c ∈ l, Takes (step a) (bytes c) (next a c)) (a : α) :
    Takes (iter step l.length a) (l.flatMap bytes) (l.foldl next a) := by
  induction l generalizing a with
  | nil => exact takes_pure
  | cons c l ih =>
    rw [List.length_cons, List.flatMap_cons, List.foldl_cons]
    exact (hstep a c List.mem_cons_self).bind
      (ih (fun a d hd => hstep a d (List.mem_cons_of_mem c hd)) (next a c))

/-- A loop that collects what it reads. -/
lemma takes_collect {p : Fallible Cursor ε β} {g : β → List δ} {bytes : γ → List UInt8}
    {value : γ → β} {l : List γ} (hp : ∀ c ∈ l, Takes p (bytes c) (value c)) (a : List δ) :
    Takes (iter (fun a => p >>= fun b => pure (a ++ g b)) l.length a) (l.flatMap bytes)
      (a ++ l.flatMap fun c => g (value c)) := by
  have hstep : ∀ a : List δ, ∀ c ∈ l, Takes (p >>= fun b => pure (a ++ g b)) (bytes c)
      (a ++ g (value c)) := by
    intro a c hc
    exact (hp c hc).bind_nil takes_pure
  have hloop := takes_iter hstep a
  rwa [List.foldl_append_eq_append, ← List.flatMap_def] at hloop

end Takes

/-! ## Writers -/

/-- A writer puts bytes at the end of a file, or fails there. -/
def Puts (p : Fallible Cursor ε Unit) : Option (List UInt8) → Prop
  | some bs => ∀ data, Fallible.Leads p ⟨data, data.length⟩ () ⟨data ++ bs, (data ++ bs).length⟩
  | none => ∀ data u b, ¬Fallible.Leads p ⟨data, data.length⟩ u b

section Puts

variable {p : Fallible Cursor ε Unit} {f : Unit → Fallible Cursor ε Unit}
  {o o' : Option (List UInt8)}

lemma puts_pure : Puts (pure () : Fallible Cursor ε Unit) (some []) := by
  intro data
  rw [List.append_nil]
  exact leads_pure.mpr ⟨rfl, rfl⟩

lemma puts_fail (e : ε) : Puts (fail e) none := fun _ _ _ => not_leads_fail

lemma puts_write (bs : List UInt8) : Puts (write bs : Fallible Cursor ε Unit) (some bs) := by
  intro data
  unfold Fallible.Leads write
  dsimp only
  have hdrop : data.drop (data.length + bs.length) = [] :=
    List.drop_eq_nil_of_le (Nat.le_add_right _ _)
  rw [Nat.sub_self, List.replicate_zero, List.append_nil, List.take_length, hdrop, List.append_nil,
    List.length_append]

/-- Bytes are written over as many others. -/
lemma leads_write_over (before after : List UInt8) {old bs : List UInt8}
    (h : old.length = bs.length) :
    Fallible.Leads (write bs : Fallible Cursor ε Unit) ⟨before ++ (old ++ after), before.length⟩ ()
      ⟨before ++ (bs ++ after), before.length + bs.length⟩ := by
  unfold Fallible.Leads write
  dsimp only
  have hgap : before.length - (before ++ (old ++ after)).length = 0 := by
    rw [List.length_append]
    omega
  have hdrop : (before ++ (old ++ after)).drop (before.length + bs.length) = after := by
    rw [← h, ← List.append_assoc, ← List.length_append, List.drop_left]
  rw [hgap, List.replicate_zero, List.append_nil, List.take_left, hdrop]

/-- A gap at the start of a file is filled with zeros. -/
lemma write_gap (n : ℕ) (bs : List UInt8) :
    (write bs : Fallible Cursor ε Unit) ⟨[], n⟩ = write bs ⟨List.replicate n 0, n⟩ := by
  have hdrop : (List.replicate n (0 : UInt8)).drop (n + bs.length) = [] :=
    List.drop_eq_nil_of_le (by rw [List.length_replicate]; omega)
  unfold write
  dsimp only
  rw [hdrop, List.length_replicate, Nat.sub_self, List.length_nil, Nat.sub_zero, List.nil_append,
    List.replicate_zero,
    List.append_nil, List.drop_nil]

/-- The bytes of a sequence. -/
def both (o o' : Option (List UInt8)) : Option (List UInt8) :=
  o.bind fun bs => o'.map fun bs' => bs ++ bs'

lemma Puts.bind (hp : Puts p o) (hf : Puts (f ()) o') : Puts (p >>= f) (both o o') := by
  cases o with
  | none =>
    intro data u b h
    obtain ⟨_, t, hlead, -⟩ := leads_bind.mp h
    exact hp data _ t hlead
  | some bs =>
    cases o' with
    | none =>
      intro data u b h
      obtain ⟨_, t, hlead, hrest⟩ := leads_bind.mp h
      obtain ⟨-, rfl⟩ := (hp data).unique hlead
      exact hf (data ++ bs) u b hrest
    | some bs' =>
      intro data
      have hrest := hf (data ++ bs)
      rw [List.append_assoc] at hrest
      exact (hp data).bind hrest

/-- The bytes of a list of entries. -/
def every (bytes : γ → Option (List UInt8)) : List γ → Option (List UInt8)
  | [] => some []
  | c :: l => both (bytes c) (every bytes l)

lemma puts_each {f : γ → Fallible Cursor ε Unit} {bytes : γ → Option (List UInt8)} {l : List γ}
    (hf : ∀ c ∈ l, Puts (f c) (bytes c)) : Puts (each f l) (every bytes l) := by
  induction l with
  | nil => exact puts_pure
  | cons c l ih =>
    exact (hf c List.mem_cons_self).bind (ih fun d hd => hf d (List.mem_cons_of_mem c hd))

end Puts

end Cursor
