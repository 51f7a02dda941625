import Obus.BusApi

/-!
# Drawing handles

A new object and a new call get a random handle: `obus_bus_add_object` and `obus_bus_register_call`
draw until they find a handle that the table does not have.  Nothing else ends the loop, so that it
can end, and gives an unused handle, exactly as long as one of the 65535 handles is unused
(`handle_allocation_ends`); in a full table it runs for ever (`full_table_never_ends`).

What the system does is a parameter: whether a random file can be opened, what the reads return, and
whether the allocation of an entry succeeds.  A loop without a result within its bound has not
ended.
-/

namespace Obus.HandleDraw

/-- What a `read` of the random file does. -/
inductive Read where
  | interrupted
  | failed
  | value (v : UInt16)

/-- The random files: whether a call can open one of them, and what each read does. -/
structure Source where
  opens : ℕ → Bool
  reads : ℕ → Read

/-- How many calls and reads there were. -/
structure Cursor where
  calls : ℕ := 0
  reads : ℕ := 0

/-- The loops of `obus_rand_handle`: an interrupted read is repeated, and so is one that gives 0. -/
def readHandle (src : Source) : ℕ → Cursor → Option (UInt16 × Cursor)
  | 0, _ => none
  | n + 1, s =>
    let s' := { s with reads := s.reads + 1 }
    match src.reads s.reads with
    | .interrupted => readHandle src n s'
    | .failed => some (0, s')
    | .value v => if v = 0 then readHandle src n s' else some (v, s')

/-- `obus_rand_handle`. -/
def randHandle (src : Source) (n : ℕ) (s : Cursor) : Option (UInt16 × Cursor) :=
  let s' := { s with calls := s.calls + 1 }
  if src.opens s.calls then readHandle src n s' else some (0, s')

section Functions

variable {δ : Type}

/-- The loop that draws a handle; 0 if there is none to be drawn. -/
def drawHandle (src : Source) (h : Hash δ) : ℕ → Cursor → Option (UInt16 × Cursor)
  | 0, _ => none
  | n + 1, s =>
    match randHandle src n s with
    | none => none
    | some (v, s') =>
      if v = 0 then some (0, s')
      else
        match hashLookup v.toUInt32 h with
        | none => none
        | some (.ok _) => drawHandle src h n s'
        | some (.error _) => some (v, s')

/-- What `obus_bus_add_object` and `obus_bus_register_call` have in common: draw a handle if there
is none, and insert under it; with the handle that the object or the call has then. -/
def giveHandle (src : Source) (malloc : Bool) (n : ℕ) (handle : UInt16) (data : δ) (h : Hash δ) :
    Option (Except Errno Unit × UInt16 × Hash δ) :=
  match if handle = 0 then drawHandle src h n {} else some (handle, {}) with
  | none => none
  | some (v, _) =>
    if v = 0 then some (.error .enodev, 0, h)
    else
      match if malloc then hashInsert v.toUInt32 data h else some (.error .enomem, h) with
      | none => none
      | some (.ok (), h') => some (.ok (), v, h')
      -- a handle that was drawn is taken back
      | some (.error e, h') => some (.error e, handle, h')

/-- The fields of `struct obus_object` that are read or written here. -/
structure Obj where
  uid : UInt16
  handle : UInt16
  onBus : Bool

/-- `obus_bus_add_object`. -/
def busAddObject (src : Source) (malloc : Bool) (n : ℕ) (obj : Obj) (data : δ) (h : Hash δ) :
    Option (Except Errno Unit × Obj × Hash δ) :=
  if obj.uid = 0 then some (.error .einval, obj, h)
  else
    match giveHandle src malloc n obj.handle data h with
    | none => none
    | some (.ok (), v, h') => some (.ok (), { obj with handle := v, onBus := true }, h')
    | some (.error e, v, h') => some (.error e, { obj with handle := v }, h')

/-- The fields of `struct obus_call` that are read or written here. -/
structure Call where
  hasObj : Bool
  handle : UInt16

/-- `obus_bus_register_call`, with the list `calls` of the bus. -/
def busRegisterCall (src : Source) (malloc : Bool) (n : ℕ) (call : Call) (data : δ) (h : Hash δ)
    (calls : List δ) : Option (Except Errno Unit × Call × Hash δ × List δ) :=
  if call.hasObj = false then some (.error .einval, call, h, calls)
  else
    match giveHandle src malloc n call.handle data h with
    | none => none
    | some (.ok (), v, h') => some (.ok (), { call with handle := v }, h', calls ++ [data])
    | some (.error e, v, h') => some (.error e, { call with handle := v }, h', calls)

end Functions

/-! ## What the loop should do -/

/-- Calls of `obus_rand_handle`, one after the other, return some values. -/
inductive Source.Draws (src : Source) : Cursor → List UInt16 → Cursor → Prop where
  | nil (s : Cursor) : Draws src s [] s
  | cons {s s' s'' : Cursor} {n : ℕ} {v : UInt16} {vs : List UInt16}
    (h : randHandle src n s = some (v, s'))
      (hrest : Draws src s' vs s'') : Draws src s (v :: vs) s''

/-- A call of `obus_rand_handle` returns a value. -/
def Source.MayDraw (src : Source) (v : UInt16) : Prop := ∃ vs s, src.Draws {} (vs ++ [v]) s

/-- The handles that a table has not got. -/
def Unused {δ : Type} (bs : List (Binding δ)) (v : UInt16) : Prop :=
  v ≠ 0 ∧ v.toUInt32 ∉ bs.map Binding.key

/-- The status and the handle that a function gives, for what the system does and a bound on the
loops, are as they should be: the function fails, or some value ends it as soon as it is drawn; the
handle that is given was not used; it is taken back on an error, and there is an error if no handle
is left. -/
structure Allocates {δ : Type} (bs : List (Binding δ))
    (run : Source → Bool → ℕ → Option (Except Errno Unit × UInt16)) : Prop where
  ends : (∀ src malloc, ∃ n e, run src malloc n = some (.error e, 0)) ∨
    ∃ v, v ≠ 0 ∧ (∃ src : Source, src.MayDraw v) ∧
      ∀ src : Source, src.MayDraw v → ∀ malloc, ∃ n r, run src malloc n = some r
  given : ∀ src malloc n v, run src malloc n = some (.ok (), v) → Unused bs v
  refused : ∀ src malloc n e v, run src malloc n = some (.error e, v) → v = 0
  exhausted : (∀ v, ¬Unused bs v) → ∀ src malloc, ∃ n e, run src malloc n = some (.error e, 0)

/-- A table as the bus fills it: its keys are handles, and its data may be written. -/
structure HoldsHandles {δ : Type} (h : Hash δ) (bs : List (Binding δ)) : Prop where
  holds : h.Holds bs
  handles : ∀ b ∈ bs, b.isConst = false ∧ ∃ v : UInt16, v ≠ 0 ∧ b.key = v.toUInt32

/-- How many handles there are. -/
def handleCount : ℕ := 65535

/-! ## The loops -/

section Loops

variable {δ : Type} {src : Source} {h : Hash δ} {bs : List (Binding δ)} {s s' : Cursor} {v : UInt16}

lemma readHandle_mono {n m : ℕ} {r : UInt16 × Cursor} (hrun : readHandle src n s = some r)
    (hnm : n ≤ m) : readHandle src m s = some r := by
  induction n generalizing m s with
  | zero => cases hrun
  | succ n ih =>
    obtain ⟨m, rfl⟩ : ∃ k, m = k + 1 := ⟨m - 1, by omega⟩
    rw [readHandle] at hrun ⊢
    cases hread : src.reads s.reads with
    | interrupted =>
      simp only [hread] at hrun ⊢
      exact ih hrun (by omega)
    | failed =>
      simp only [hread] at hrun ⊢
      exact hrun
    | value v =>
      simp only [hread] at hrun ⊢
      by_cases hv : v = 0
      · rw [if_pos hv] at hrun ⊢
        exact ih hrun (by omega)
      · rw [if_neg hv] at hrun ⊢
        exact hrun

lemma randHandle_mono {n m : ℕ} {r : UInt16 × Cursor} (hrun : randHandle src n s = some r)
    (hnm : n ≤ m) : randHandle src m s = some r := by
  unfold randHandle at hrun ⊢
  by_cases hopen : src.opens s.calls
  · simp only [if_pos hopen] at hrun ⊢
    exact readHandle_mono hrun hnm
  · simp only [if_neg hopen] at hrun ⊢
    exact hrun

lemma drawHandle_mono {n m : ℕ} {r : UInt16 × Cursor} (hrun : drawHandle src h n s = some r)
    (hnm : n ≤ m) : drawHandle src h m s = some r := by
  induction n generalizing m s with
  | zero => cases hrun
  | succ n ih =>
    obtain ⟨m, rfl⟩ : ∃ k, m = k + 1 := ⟨m - 1, by omega⟩
    rw [drawHandle] at hrun ⊢
    cases hrand : randHandle src n s with
    | none =>
      rw [hrand] at hrun
      cases hrun
    | some p =>
      obtain ⟨v, s'⟩ := p
      rw [hrand] at hrun
      rw [randHandle_mono hrand (by omega)]
      dsimp only at hrun ⊢
      by_cases hv : v = 0
      · rw [if_pos hv] at hrun ⊢
        exact hrun
      · rw [if_neg hv] at hrun ⊢
        cases hlookup : hashLookup v.toUInt32 h with
        | none =>
          rw [hlookup] at hrun
          cases hrun
        | some found =>
          rw [hlookup] at hrun
          cases found with
          | error e => exact hrun
          | ok data => exact ih hrun (by omega)

/-- A lookup tells whether a handle is used. -/
lemma HoldsHandles.lookup_used (hh : HoldsHandles h bs) {key : UInt32}
    (hkey : key ∈ bs.map Binding.key) : ∃ data, hashLookup key h = some (.ok data) := by
  obtain ⟨as, hs⟩ := hh.holds
  obtain ⟨b, hb⟩ := Option.ne_none_iff_exists'.mp fun hnone => bound_eq_none.mp hnone hkey
  obtain ⟨e, hlookup, rfl⟩ := hs.lookup_present hb
  have hconst : e.isConst = false := (hh.handles _ (Hash.Stands.bound_mem hb).1).1
  refine ⟨e.data, ?_⟩
  rw [hashLookup, hlookup]
  simp only [hconst]
  rfl

lemma HoldsHandles.lookup_unused (hh : HoldsHandles h bs) {key : UInt32}
    (hkey : key ∉ bs.map Binding.key) : hashLookup key h = some (.error .enoent) := by
  obtain ⟨as, hs⟩ := hh.holds
  rw [hashLookup, hs.lookup_absent (bound_eq_none.mpr hkey)]

/-- The loop ends with 0 or with a handle that is not used. -/
lemma HoldsHandles.drawn (hh : HoldsHandles h bs) {n : ℕ}
    (hrun : drawHandle src h n s = some (v, s')) : v = 0 ∨ Unused bs v := by
  induction n generalizing s with
  | zero => cases hrun
  | succ n ih =>
    rw [drawHandle] at hrun
    cases hrand : randHandle src n s with
    | none =>
      rw [hrand] at hrun
      cases hrun
    | some p =>
      obtain ⟨w, s₁⟩ := p
      simp only [hrand] at hrun
      by_cases hw : w = 0
      · rw [if_pos hw] at hrun
        cases hrun
        exact Or.inl rfl
      · rw [if_neg hw] at hrun
        by_cases hused : w.toUInt32 ∈ bs.map Binding.key
        · obtain ⟨data, hlookup⟩ := hh.lookup_used hused
          simp only [hlookup] at hrun
          exact ih hrun
        · simp only [hh.lookup_unused hused] at hrun
          cases hrun
          exact Or.inr ⟨hw, hused⟩

/-- An unused handle ends the loop as soon as it is drawn. -/
lemma HoldsHandles.ends (hh : HoldsHandles h bs) (hv : Unused bs v) {vs : List UInt16}
    (hdraws : src.Draws s (vs ++ [v]) s') : ∃ n r, drawHandle src h n s = some r := by
  induction vs generalizing s with
  | nil =>
    cases hdraws with
    | @cons _ s₁ _ n _ _ hrand hrest =>
      refine ⟨n + 1, (v, s₁), ?_⟩
      simp only [drawHandle, hrand, if_neg hv.1, hh.lookup_unused hv.2]
  | cons w vs ih =>
    cases hdraws with
    | @cons _ s₁ _ n _ _ hrand hrest =>
      by_cases hw : w = 0
      · exact ⟨n + 1, (0, s₁), by simp only [drawHandle, hrand, if_pos hw]⟩
      by_cases hused : w.toUInt32 ∈ bs.map Binding.key
      · obtain ⟨m, r, hrun⟩ := ih hrest
        obtain ⟨data, hlookup⟩ := hh.lookup_used hused
        refine ⟨max n m + 1, r, ?_⟩
        simp only [drawHandle, randHandle_mono hrand (le_max_left n m), if_neg hw, hlookup]
        exact drawHandle_mono hrun (le_max_right n m)
      · exact ⟨n + 1, (w, s₁), by simp only [drawHandle, hrand, if_neg hw, hh.lookup_unused hused]⟩

end Loops

/-! ## Giving a handle -/

section Giving

variable {δ : Type} {src : Source} {malloc : Bool} {n : ℕ} {handle v : UInt16} {data : δ}
  {h h' : Hash δ} {bs : List (Binding δ)}

/-- An insertion under an unused handle. -/
lemma HoldsHandles.insert (hh : HoldsHandles h bs) (hv : Unused bs v) (data : δ) :
    ∃ h', hashInsert v.toUInt32 data h = some (.ok (), h') ∧
    HoldsHandles h' (bs ++ [⟨v.toUInt32, false, data⟩]) := by
  obtain ⟨as, hs⟩ := hh.holds
  obtain ⟨h', hrun, hs'⟩ := hs.insert_absent false data (bound_eq_none.mpr hv.2)
  refine ⟨h', hrun, ⟨_, hs'⟩, fun b hb => ?_⟩
  rcases List.mem_append.mp hb with hb | hb
  · exact hh.handles b hb
  · rw [List.mem_singleton.mp hb]
    exact ⟨rfl, v, hv.1, rfl⟩

/-- An insertion under a handle that is used. -/
lemma HoldsHandles.insert_used (hh : HoldsHandles h bs) (hv : v.toUInt32 ∈ bs.map Binding.key)
    (data : δ) :
    ∃ h', hashInsert v.toUInt32 data h = some (.error .eexist, h') ∧ HoldsHandles h' bs := by
  obtain ⟨as, hs⟩ := hh.holds
  obtain ⟨b, hb⟩ := Option.ne_none_iff_exists'.mp fun hnone => bound_eq_none.mp hnone hv
  obtain ⟨h', hrun, hs'⟩ := hs.insert_present false data hb
  exact ⟨h', hrun, ⟨as, hs'⟩, hh.handles⟩

/-- The removal of a handle. -/
lemma HoldsHandles.remove (hh : HoldsHandles h bs) (key : UInt32) :
    ∃ r h' bs', hashRemove key h = some (r, h') ∧ HoldsHandles h' bs' := by
  obtain ⟨as, hs⟩ := hh.holds
  cases hkey : bound bs key with
  | none => exact ⟨_, h, bs, hs.remove_absent hkey, ⟨as, hs⟩, hh.handles⟩
  | some b =>
    obtain ⟨h', as', hrun, hs'⟩ := hs.remove_present hkey
    exact ⟨_, h', _, hrun, ⟨as', hs'⟩, fun b hb => hh.handles b (List.mem_of_mem_filter hb)⟩

/-- The handle is unused and bound afterwards, or there is an error and the handle is as before. -/
lemma HoldsHandles.giveHandle_cases (hh : HoldsHandles h bs) {r : Except Errno Unit}
    (hrun : giveHandle src malloc n handle data h = some (r, v, h')) :
    (r = .ok () ∧ Unused bs v ∧ HoldsHandles h' (bs ++ [⟨v.toUInt32, false, data⟩])) ∨
      (∃ e, r = .error e) ∧ v = handle ∧ HoldsHandles h' bs := by
  rw [giveHandle] at hrun
  cases hdrawn : (if handle = 0 then drawHandle src h n {} else some (handle, {})) with
  | none =>
    rw [hdrawn] at hrun
    cases hrun
  | some p =>
    obtain ⟨w, s⟩ := p
    simp only [hdrawn] at hrun
    by_cases hw : w = 0
    · rw [if_pos hw] at hrun
      cases hrun
      refine Or.inr ⟨⟨_, rfl⟩, ?_, hh⟩
      by_contra hne
      rw [if_neg (Ne.symm hne)] at hdrawn
      cases hdrawn
      exact hne hw.symm
    · rw [if_neg hw] at hrun
      cases malloc with
      | false =>
        simp only [Bool.false_eq_true, if_false] at hrun
        cases hrun
        exact Or.inr ⟨⟨_, rfl⟩, rfl, hh⟩
      | true =>
        simp only [if_true] at hrun
        by_cases hused : w.toUInt32 ∈ bs.map Binding.key
        · obtain ⟨h₁, hinsert, hh₁⟩ := hh.insert_used hused data
          simp only [hinsert] at hrun
          cases hrun
          exact Or.inr ⟨⟨_, rfl⟩, rfl, hh₁⟩
        · obtain ⟨h₁, hinsert, hh₁⟩ := hh.insert ⟨hw, hused⟩ data
          simp only [hinsert] at hrun
          cases hrun
          exact Or.inl ⟨rfl, ⟨hw, hused⟩, hh₁⟩

/-- Once the loop has ended, so does the function. -/
lemma HoldsHandles.giveHandle_ends (hh : HoldsHandles h bs) {r : UInt16 × Cursor}
    (hrun : drawHandle src h n {} = some r) : ∃ r, giveHandle src malloc n 0 data h = some r := by
  obtain ⟨w, s⟩ := r
  by_cases hw : w = 0
  · exact ⟨(.error .enodev, 0, h), by simp only [giveHandle, if_true, hrun, if_pos hw]⟩
  cases malloc with
  | false =>
    exact ⟨(.error .enomem, 0,
      h), by simp only [giveHandle, if_true, hrun, if_neg hw, Bool.false_eq_true, if_false]⟩
  | true =>
    by_cases hused : w.toUInt32 ∈ bs.map Binding.key
    · obtain ⟨h₁, hinsert, -⟩ := hh.insert_used hused data
      exact ⟨(.error .eexist, 0, h₁), by simp only [giveHandle, if_true, hrun, if_neg hw, hinsert]⟩
    · obtain ⟨h₁, hinsert, -⟩ := hh.insert ⟨hw, hused⟩ data
      exact ⟨(.ok (), w, h₁), by simp only [giveHandle, if_true, hrun, if_neg hw, hinsert]⟩

/-- A random file that gives one value only. -/
def constant (v : UInt16) : Source := ⟨fun _ => true, fun _ => .value v⟩

lemma randHandle_constant (hv : v ≠ 0) (n : ℕ) (s : Cursor) :
    randHandle (constant v) (n + 1) s = some (v, ⟨s.calls + 1, s.reads + 1⟩) := by
  rw [randHandle]
  simp only [constant, if_true, readHandle, if_neg hv]

lemma mayDraw_constant (hv : v ≠ 0) : (constant v).MayDraw v :=
  ⟨[], _, .cons (randHandle_constant hv 0 {}) (.nil _)⟩

/-- While only a used handle is drawn, the loop goes on. -/
lemma HoldsHandles.drawHandle_constant (hh : HoldsHandles h bs) (hv : v ≠ 0)
    (hused : v.toUInt32 ∈ bs.map Binding.key)
    (n : ℕ) (s : Cursor) : drawHandle (constant v) h n s = none := by
  induction n generalizing s with
  | zero => rfl
  | succ n ih =>
    rw [drawHandle]
    cases n with
    | zero =>
      have hzero : randHandle (constant v) 0 s = none := by
        rw [randHandle]
        simp only [constant, if_true, readHandle]
      rw [hzero]
    | succ n =>
      obtain ⟨data, hlookup⟩ := hh.lookup_used hused
      simp only [randHandle_constant hv, if_neg hv, hlookup]
      exact ih _

end Giving

/-! ## Counting the handles -/

section Counting

variable {δ : Type} {h : Hash δ} {bs : List (Binding δ)}

/-- The handles that a table has. -/
def usedHandles (bs : List (Binding δ)) : Finset ℕ := (bs.map fun b => b.key.toNat).toFinset

lemma mem_usedHandles {v : UInt16} : v.toNat ∈ usedHandles bs ↔
    v.toUInt32 ∈ bs.map Binding.key := by
  rw [usedHandles, List.mem_toFinset, List.mem_map, List.mem_map]
  refine exists_congr fun b => and_congr_right fun _ => ?_
  rw [← UInt32.toNat_inj, UInt16.toNat_toUInt32]

lemma card_usedHandles (hh : HoldsHandles h bs) : (usedHandles bs).card = bs.length := by
  obtain ⟨as, hs⟩ := hh.holds
  have hnodup : (bs.map fun b => b.key.toNat).Nodup := by
    have hmap : (bs.map fun b => b.key.toNat) = (bs.map Binding.key).map UInt32.toNat := by
      rw [List.map_map]
      rfl
    rw [hmap]
    exact hs.keys.map fun _ _ => UInt32.toNat_inj.mp
  rw [usedHandles, List.toFinset_card_of_nodup hnodup, List.length_map]

lemma usedHandles_subset (hh : HoldsHandles h bs) : usedHandles bs ⊆ Finset.Icc 1 handleCount := by
  intro k hk
  obtain ⟨b, hb, rfl⟩ := List.mem_map.mp (List.mem_toFinset.mp hk)
  obtain ⟨-, v, hv, hkey⟩ := hh.handles b hb
  have hlt := v.toNat_lt
  have hne : v.toNat ≠ 0 := fun heq => hv (UInt16.toNat_inj.mp heq)
  rw [hkey, UInt16.toNat_toUInt32, Finset.mem_Icc, handleCount]
  omega

lemma toNat_handle {k : ℕ} (hk : k ≤ handleCount) : (UInt16.ofNat k).toNat = k :=
  UInt16.toNat_ofNat_of_lt (Nat.lt_succ_of_le hk)

/-- A handle is left exactly if the table has fewer entries than there are handles. -/
lemma exists_unused_iff (hh : HoldsHandles h bs) :
    (∃ v, Unused bs v) ↔ bs.length < handleCount := by
  have hcard : (Finset.Icc 1 handleCount).card = handleCount := by
    rw [Nat.card_Icc, Nat.add_sub_cancel]
  constructor
  · rintro ⟨v, hv, hunused⟩
    have hlt := v.toNat_lt
    have hne : v.toNat ≠ 0 := fun heq => hv (UInt16.toNat_inj.mp heq)
    have hmem : v.toNat ∈ Finset.Icc 1 handleCount := by
      rw [Finset.mem_Icc, handleCount]
      omega
    have hproper : usedHandles bs ⊂ Finset.Icc 1 handleCount :=
      (Finset.ssubset_iff_of_subset (usedHandles_subset hh)).mpr
        ⟨_, hmem, fun h => hunused (mem_usedHandles.mp h)⟩
    have hless := Finset.card_lt_card hproper
    rwa [hcard, card_usedHandles hh] at hless
  · intro hlength
    have hless : (usedHandles bs).card < (Finset.Icc 1 handleCount).card := by
      rwa [hcard, card_usedHandles hh]
    obtain ⟨k, hk, hunused⟩ := Finset.exists_mem_notMem_of_card_lt_card hless
    rw [Finset.mem_Icc] at hk
    have hback := toNat_handle hk.2
    refine ⟨UInt16.ofNat k, fun hzero => ?_, fun hmem => hunused ?_⟩
    · have hnat := congrArg UInt16.toNat hzero
      rw [hback, UInt16.toNat_zero] at hnat
      omega
    · rw [← hback]
      exact mem_usedHandles.mpr hmem

end Counting

/-! ## Objects and calls -/

section Allocation

variable {δ : Type} {h : Hash δ} {bs : List (Binding δ)}

/-- The status and the handle that a new object or call gets from the common part. -/
def giveRun (data : δ) (h : Hash δ) (src : Source) (malloc : Bool) (n : ℕ) :
    Option (Except Errno Unit × UInt16) :=
  (giveHandle src malloc n 0 data h).map fun r => (r.1, r.2.1)

lemma giveRun_eq_some {data : δ} {src : Source} {malloc : Bool} {n : ℕ} {r : Except Errno Unit}
    {v : UInt16}
    (hrun : giveRun data h src malloc n = some (r, v)) :
    ∃ h', giveHandle src malloc n 0 data h = some (r, v, h') := by
  obtain ⟨⟨r', v', h'⟩, hgive, heq⟩ := Option.map_eq_some_iff.mp hrun
  cases heq
  exact ⟨h', hgive⟩

/-- The common part allocates handles as it should exactly if one is left. -/
lemma HoldsHandles.allocates_iff (hh : HoldsHandles h bs) (data : δ) :
    Allocates bs (giveRun data h) ↔ bs.length < handleCount := by
  rw [← exists_unused_iff hh]
  constructor
  · intro hall
    by_contra hno
    have hfull : ∀ v, ¬Unused bs v := fun v hv => hno ⟨v, hv⟩
    have hone : (1 : UInt16).toUInt32 ∈ bs.map Binding.key := by
      by_contra hnot
      exact hfull 1 ⟨by decide, hnot⟩
    obtain ⟨n, e, hrun⟩ := hall.exhausted hfull (constant 1) true
    obtain ⟨h', hgive⟩ := giveRun_eq_some hrun
    rw [giveHandle, if_pos rfl, hh.drawHandle_constant (by decide) hone] at hgive
    cases hgive
  · rintro ⟨v, hv⟩
    refine
      { ends := Or.inr ⟨v, hv.1, ⟨constant v, mayDraw_constant hv.1⟩, fun src hdraws malloc => ?_⟩
        given := fun src malloc n w hrun => ?_
        refused := fun src malloc n e w hrun => ?_
        exhausted := fun hno => absurd hv (hno v) }
    · obtain ⟨vs, s, hdraws⟩ := hdraws
      obtain ⟨n, r, hrun⟩ := hh.ends hv hdraws
      obtain ⟨r', hgive⟩ := hh.giveHandle_ends hrun
      exact ⟨n, (r'.1, r'.2.1), by rw [giveRun, hgive, Option.map_some]⟩
    · obtain ⟨h', hgive⟩ := giveRun_eq_some hrun
      rcases hh.giveHandle_cases hgive with ⟨-, hw, -⟩ | ⟨⟨e, he⟩, -⟩
      · exact hw
      · cases he
    · obtain ⟨h', hgive⟩ := giveRun_eq_some hrun
      rcases hh.giveHandle_cases hgive with ⟨he, -⟩ | ⟨-, hw, -⟩
      · cases he
      · exact hw

/-- A function that is refused at once gives no handle. -/
lemma allocates_of_refused (bs : List (Binding δ))
    {run : Source → Bool → ℕ → Option (Except Errno Unit × UInt16)}
    {e : Errno} (hrun : ∀ src malloc n, run src malloc n = some (.error e, 0)) :
    Allocates bs run where
  ends := Or.inl fun src malloc => ⟨0, e, hrun src malloc 0⟩
  given src malloc n v hok := by
    rw [hrun] at hok
    cases hok
  refused src malloc n e' v herror := by
    rw [hrun] at herror
    cases herror
    rfl
  exhausted _ src malloc := ⟨0, e, hrun src malloc 0⟩

/-- The status and the handle of an object after `obus_bus_add_object`. -/
def addRun (obj : Obj) (data : δ) (h : Hash δ) (src : Source) (malloc : Bool) (n : ℕ) :
    Option (Except Errno Unit × UInt16) :=
  (busAddObject src malloc n obj data h).map fun r => (r.1, r.2.1.handle)

/-- The status and the handle of a call after `obus_bus_register_call`. -/
def registerRun (call : Call) (data : δ) (h : Hash δ) (calls : List δ) (src : Source)
    (malloc : Bool) (n : ℕ) : Option (Except Errno Unit × UInt16) :=
  (busRegisterCall src malloc n call data h calls).map fun r => (r.1, r.2.1.handle)

lemma addRun_eq {obj : Obj} (hobj : obj.handle = 0) (huid : obj.uid ≠ 0) (data : δ) :
    addRun obj data h = giveRun data h := by
  funext src malloc n
  rw [addRun, giveRun, busAddObject, if_neg huid, hobj]
  obtain _ | ⟨_ | _, v, h'⟩ := giveHandle src malloc n 0 data h <;> rfl

lemma registerRun_eq {call : Call} (hcall : call.handle = 0) (hobj : call.hasObj ≠ false) (data : δ)
    (calls : List δ) : registerRun call data h calls = giveRun data h := by
  funext src malloc n
  rw [registerRun, giveRun, busRegisterCall, if_neg hobj, hcall]
  obtain _ | ⟨_ | _, v, h'⟩ := giveHandle src malloc n 0 data h <;> rfl

end Allocation

/-! ## The tables of a bus -/

section Runs

variable {δ : Type}

/-- What is done to one of the tables. -/
inductive TableOp (δ : Type) where
  /-- An object or a call is added, possibly with a handle. -/
  | give (src : Source) (malloc : Bool) (n : ℕ) (handle : UInt16) (data : δ)
  | remove (handle : UInt16)

/-- Perform an operation. -/
def TableOp.perform (h : Hash δ) : TableOp δ → Option (Hash δ)
  | .give src malloc n handle data => (giveHandle src malloc n handle data h).map fun r => r.2.2
  | .remove handle => (hashRemove handle.toUInt32 h).map Prod.snd

/-- Perform operations. -/
def TableOp.performs : List (TableOp δ) → Hash δ → Option (Hash δ)
  | [], h => some h
  | o :: os, h => (perform h o).bind (performs os)

lemma HoldsHandles.perform {h h' : Hash δ} {bs : List (Binding δ)} (hh : HoldsHandles h bs)
    {o : TableOp δ} (hrun : o.perform h = some h') : ∃ bs', HoldsHandles h' bs' := by
  cases o with
  | give src malloc n handle data =>
    obtain ⟨⟨r, v, h''⟩, hgive, rfl⟩ := Option.map_eq_some_iff.mp hrun
    rcases hh.giveHandle_cases hgive with ⟨-, -, hh'⟩ | ⟨-, -, hh'⟩
    · exact ⟨_, hh'⟩
    · exact ⟨_, hh'⟩
  | remove handle =>
    obtain ⟨r, h'', bs', hremove, hh'⟩ := hh.remove handle.toUInt32
    rw [TableOp.perform, hremove] at hrun
    cases hrun
    exact ⟨bs', hh'⟩

/-- Every table that the bus reaches is as the bus fills it. -/
theorem holdsHandles_of_performs (size : ℕ) (os : List (TableOp δ)) {h' : Hash δ}
    (hrun : TableOp.performs os (hashInit size) = some h') : ∃ bs, HoldsHandles h' bs := by
  have hstart : HoldsHandles (hashInit size : Hash δ) [] :=
    ⟨⟨[], Hash.Stands.init size⟩, fun _ hb => absurd hb List.not_mem_nil⟩
  generalize (hashInit size : Hash δ) = h at hrun hstart
  generalize ([] : List (Binding δ)) = bs at hstart
  induction os generalizing h bs with
  | nil =>
    cases hrun
    exact ⟨bs, hstart⟩
  | cons o os ih =>
    obtain ⟨h₁, hfirst, hrest⟩ := Option.bind_eq_some_iff.mp hrun
    obtain ⟨bs₁, hh₁⟩ := hstart.perform hfirst
    exact ih h₁ hrest bs₁ hh₁

/-- For different handles there is a table that has them. -/
lemma exists_table (size : ℕ) (data : δ) {vs : List UInt16} (hvs : vs.Nodup) (hzero : 0 ∉ vs) :
    ∃ h : Hash δ, HoldsHandles h (vs.map fun v => ⟨v.toUInt32, false, data⟩) := by
  induction vs using List.reverseRecOn with
  | nil =>
    exact ⟨hashInit size, ⟨[], Hash.Stands.init size⟩, fun _ hb => absurd hb List.not_mem_nil⟩
  | append_singleton vs v ih =>
    obtain ⟨hvs, -, hapart⟩ := List.nodup_append.mp hvs
    rw [List.mem_append, not_or] at hzero
    obtain ⟨h, hh⟩ := ih hvs hzero.1
    have hunused : Unused (vs.map fun v => (⟨v.toUInt32, false, data⟩ : Binding δ)) v := by
      refine ⟨fun hv => hzero.2 (hv ▸ List.mem_singleton_self v), fun hmem => ?_⟩
      rw [List.map_map] at hmem
      obtain ⟨w, hw, heq⟩ := List.mem_map.mp hmem
      exact hapart w hw v (List.mem_singleton_self v) (toUInt32_inj heq)
    obtain ⟨h', -, hh'⟩ := hh.insert hunused data
    refine ⟨h', ?_⟩
    rw [List.map_append]
    exact hh'

end Runs

/-- A new object, and a new call, is refused at once or gets a handle as it should exactly if its
table has fewer entries than there are handles, whatever the table is that the bus has filled. -/
theorem handle_allocation_ends {δ : Type} {h : Hash δ} {bs : List (Binding δ)}
    (hh : HoldsHandles h bs) (data : δ) :
    (∀ obj : Obj, obj.handle = 0 →
      (Allocates bs (addRun obj data h) ↔ obj.uid = 0 ∨ bs.length < handleCount)) ∧
      ∀ (call : Call) (calls : List δ), call.handle = 0 →
        (Allocates bs (registerRun call data h calls) ↔ call.hasObj = false ∨
          bs.length < handleCount) := by
  constructor
  · intro obj hobj
    by_cases huid : obj.uid = 0
    · refine iff_of_true (allocates_of_refused (e := .einval) bs fun src malloc n => ?_)
        (Or.inl huid)
      rw [addRun, busAddObject, if_pos huid, Option.map_some, hobj]
    · rw [addRun_eq hobj huid, hh.allocates_iff data, or_iff_right huid]
  · intro call calls hcall
    by_cases hobj : call.hasObj = false
    · refine iff_of_true (allocates_of_refused (e := .einval) bs fun src malloc n => ?_)
        (Or.inl hobj)
      rw [registerRun, busRegisterCall, if_pos hobj, Option.map_some, hcall]
    · rw [registerRun_eq hcall hobj, hh.allocates_iff data, or_iff_right hobj]

/-- In a table with the handles 1 and 2 another one is given. -/
theorem handle_allocation_ends_two :
    ∃ (h : Hash Char) (bs : List (Binding Char)), HoldsHandles h bs ∧ bs.map Binding.key = [1, 2] ∧
      Allocates bs (addRun ⟨1, 0, false⟩ 'b' h) ∧
      Allocates bs (registerRun ⟨true, 0⟩ 'b' h []) := by
  have htable : ∃ h : Hash Char, HoldsHandles h (([1, 2] : List UInt16).map fun v =>
      ⟨v.toUInt32, false, 'a'⟩) := exists_table 4093 'a' (by decide) (by decide)
  obtain ⟨h, hh⟩ := htable
  have hends := handle_allocation_ends hh 'b'
  exact ⟨h, _, hh, rfl, (hends.1 ⟨1, 0, false⟩ rfl).mpr (Or.inr (by decide)),
    (hends.2 ⟨true, 0⟩ [] rfl).mpr (Or.inr (by decide))⟩

/-- All handles. -/
def allHandles : List UInt16 := (List.range handleCount).map fun k => UInt16.ofNat (k + 1)

lemma allHandles_nodup : allHandles.Nodup := by
  refine List.Nodup.map_on (fun k hk k' hk' heq => ?_) List.nodup_range
  rw [List.mem_range] at hk hk'
  have hnat := congrArg UInt16.toNat heq
  rw [toNat_handle hk, toNat_handle hk'] at hnat
  exact Nat.succ.inj hnat

lemma zero_not_mem_allHandles : 0 ∉ allHandles := by
  intro hmem
  obtain ⟨k, hk, heq⟩ := List.mem_map.mp hmem
  rw [List.mem_range] at hk
  have hnat := congrArg UInt16.toNat heq
  rw [toNat_handle hk] at hnat
  cases hnat

/-- There is a table that has all handles; a new object or call never gets an answer then, while the
random file gives the value 1 again and again. -/
theorem full_table_never_ends :
    ∃ (h : Hash Char) (bs : List (Binding Char)), HoldsHandles h bs ∧ bs.length = handleCount ∧
      (∀ n, busAddObject (constant 1) true n ⟨1, 0, false⟩ 'a' h = none) ∧
      (∀ n, busRegisterCall (constant 1) true n ⟨true, 0⟩ 'a' h [] = none) ∧
      ¬Allocates bs (addRun ⟨1, 0, false⟩ 'a' h) ∧
      ¬Allocates bs (registerRun ⟨true, 0⟩ 'a' h []) := by
  obtain ⟨h, hh⟩ := exists_table 4093 'a' allHandles_nodup zero_not_mem_allHandles
  have hlength : (allHandles.map fun v => (⟨v.toUInt32, false, 'a'⟩ : Binding Char)).length =
      handleCount := by
    rw [List.length_map, allHandles, List.length_map, List.length_range]
  have hone : (1 : UInt16).toUInt32 ∈
      (allHandles.map fun v => (⟨v.toUInt32, false, 'a'⟩ : Binding Char)).map Binding.key := by
    rw [List.map_map]
    exact List.mem_map_of_mem (List.mem_map.mpr ⟨0, List.mem_range.mpr (by decide), rfl⟩)
  have hnone : ∀ n, giveHandle (constant 1) true n 0 'a' h = none := by
    intro n
    rw [giveHandle, if_pos rfl, hh.drawHandle_constant (by decide) hone]
  have hgive : ¬Allocates _ (giveRun 'a' h) := fun hall => by
    have hless := (hh.allocates_iff 'a').mp hall
    rw [hlength] at hless
    exact lt_irrefl _ hless
  refine ⟨h, _, hh, hlength, fun n => ?_, fun n => ?_, ?_, ?_⟩
  · rw [busAddObject, if_neg (by decide), hnone n]
  · rw [busRegisterCall, if_neg (by decide), hnone n]
  · rwa [addRun_eq rfl (by decide)]
  · rwa [registerRun_eq rfl (by decide)]

end Obus.HandleDraw
