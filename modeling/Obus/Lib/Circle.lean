import Mathlib.Tactic

/-!
# Circular lists through pointers

Intrusive lists: every node has a `next` and a `prev` pointer, a list is a head node and the nodes
on the way from the head back to it, and a node that is in no list has pointers that lead nowhere.

`IsCircle L h xs` says that the pointers form a circular list with head `h` and members `xs`.
`Circles L C` says so for a family of lists, where `C h` gives the members of the list with head
`h`: no node is in two of them, and all other nodes are unlinked.  Making a new list, adding a node
at the end and taking a node out change the family as they should (`Circles.init`,
`Circles.addBefore`, `Circles.del`).

A walk follows the pointers of a list while the body of the loop may change them: `walkSafe` reads
the next node before the body runs, `walk` after it.
-/

/-- The two pointers of all nodes; `none` leads nowhere. -/
structure Links (ν : Type*) where
  next : ν → Option ν
  prev : ν → Option ν

namespace Links

variable {ν : Type*} [DecidableEq ν]

/-- Nothing is linked. -/
def unlinked : Links ν := ⟨fun _ => none, fun _ => none⟩

/-- Store into the `next` pointer of the node that a pointer leads to. -/
def setNext (p q : Option ν) (L : Links ν) : Links ν :=
  match p with
  | none => L
  | some n => { L with next := Function.update L.next n q }

/-- Store into the `prev` pointer of the node that a pointer leads to. -/
def setPrev (p q : Option ν) (L : Links ν) : Links ν :=
  match p with
  | none => L
  | some n => { L with prev := Function.update L.prev n q }

/-- Make a node point nowhere. -/
def unref (n : ν) (L : Links ν) : Links ν := (L.setNext (some n) none).setPrev (some n) none

lemma unref_eq_self {n : ν} {L : Links ν} (hnext : L.next n = none) (hprev : L.prev n = none) :
    L.unref n = L := by
  have hnext' : Function.update L.next n none = L.next := by rw [← hnext, Function.update_eq_self]
  have hprev' : Function.update L.prev n none = L.prev := by rw [← hprev, Function.update_eq_self]
  simp only [unref, setNext, setPrev, hnext', hprev']

/-- Whether a node points somewhere. -/
def isRef (n : ν) (L : Links ν) : Bool := (L.next n).isSome || (L.prev n).isSome

/-- Make a node the head of an empty list. -/
def init (h : ν) (L : Links ν) : Links ν := (L.setNext (some h) (some h)).setPrev (some h) (some h)

/-- Put a node between two others. -/
def add (novel : ν) (prev next : Option ν) (L : Links ν) : Links ν :=
  (((L.setPrev next (some novel)).setNext (some novel) next).setPrev (some novel) prev).setNext prev
    (some novel)

/-- Put a node before another one; before the head this is the end of the list. -/
def addBefore (node novel : ν) (L : Links ν) : Links ν := L.add novel (L.prev node) (some node)

/-- Join two nodes. -/
def detach (prev next : Option ν) (L : Links ν) : Links ν := (L.setPrev next prev).setNext prev next

/-- Take a node out of its list. -/
def del (n : ν) (L : Links ν) : Links ν := (L.detach (L.prev n) (L.next n)).unref n

/-- Two nodes point to each other. -/
def Joined (L : Links ν) (a b : ν) : Prop := L.next a = some b ∧ L.prev b = some a

instance (L : Links ν) : DecidableRel L.Joined := fun a b =>
  inferInstanceAs (Decidable (L.next a = some b ∧ L.prev b = some a))

omit [DecidableEq ν] in
/-- The pointers of a chain of nodes are those that its first nodes have forward and its last nodes
back. -/
lemma joined_congr {L L' : Links ν} {l : List ν} (hnext : ∀ a ∈ l.dropLast, L'.next a = L.next a)
    (hprev : ∀ b ∈ l.tail, L'.prev b = L.prev b) (h : l.IsChain L.Joined) :
    l.IsChain L'.Joined := by
  induction l with
  | nil => exact .nil
  | cons a l ih =>
    cases l with
    | nil => exact .singleton a
    | cons b l =>
      obtain ⟨⟨hab, hba⟩, hrest⟩ := List.isChain_cons_cons.mp h
      refine List.isChain_cons_cons.mpr ⟨⟨?_, ?_⟩, ih (fun x hx => ?_) (fun x hx => ?_) hrest⟩
      · rw [hnext a (by simp), hab]
      · rw [hprev b (by simp), hba]
      · exact hnext x (by simp [hx])
      · exact hprev x (by simp only [List.tail_cons] at hx ⊢; exact List.mem_cons_of_mem b hx)

end Links

/-- The pointers form a circular list with a head and members. -/
structure IsCircle {ν : Type*} (L : Links ν) (h : ν) (xs : List ν) : Prop where
  nodup : (h :: xs).Nodup
  chain : (h :: xs ++ [h]).IsChain L.Joined

namespace IsCircle

variable {ν : Type*} {L L' : Links ν} {h n : ν} {xs : List ν}

/-- A list only depends on the pointers of its nodes. -/
lemma congr (hring : IsCircle L h xs) (hnext : ∀ a ∈ h :: xs, L'.next a = L.next a)
    (hprev : ∀ a ∈ h :: xs, L'.prev a = L.prev a) : IsCircle L' h xs := by
  refine ⟨hring.nodup, Links.joined_congr (fun a ha => hnext a ?_)
    (fun b hb => hprev b ?_) hring.chain⟩
  · rwa [List.dropLast_concat] at ha
  · rw [List.cons_append, List.tail_cons, List.mem_append, List.mem_singleton] at hb
    exact List.mem_cons.mpr hb.symm

/-- A node of a list is between two nodes of it. -/
lemma neighbours (hring : IsCircle L h xs) (hn : n ∈ xs) :
    ∃ ys a b zs, h :: xs ++ [h] = ys ++ a :: n :: b :: zs ∧ L.prev n = some a ∧
    L.next n = some b := by
  obtain ⟨ps, qs, rfl⟩ := List.append_of_mem hn
  obtain ⟨ys, a, hys⟩ : ∃ ys a, h :: ps = ys ++ [a] :=
    ⟨_, _, (List.dropLast_append_getLast (List.cons_ne_nil h ps)).symm⟩
  obtain ⟨b, zs, hzs⟩ : ∃ b zs, qs ++ [h] = b :: zs := List.exists_cons_of_ne_nil (by simp)
  have hsplit : h :: (ps ++ n :: qs) ++ [h] = ys ++ a :: n :: b :: zs := by
    rw [← List.cons_append, hys]
    simp [hzs]
  have hchain := hring.chain
  rw [hsplit, List.isChain_append_cons_cons, List.isChain_cons_cons] at hchain
  exact ⟨ys, a, b, zs, hsplit, hchain.2.1.2, hchain.2.2.1.1⟩

lemma next_eq (hring : IsCircle L h xs) : L.next h = (xs ++ [h]).head? := by
  have hchain := hring.chain
  cases xs with
  | nil => exact (List.isChain_cons_cons.mp hchain).1.1
  | cons x xs => exact (List.isChain_cons_cons.mp hchain).1.1

/-- A member points to the one behind it, and the last one to the head. -/
lemma next_mem (ys : List ν) {zs : List ν} (hring : IsCircle L h (ys ++ n :: zs)) :
    n ≠ h ∧ L.next n = (zs ++ [h]).head? := by
  constructor
  · rintro rfl
    exact (List.nodup_cons.mp hring.nodup).1 (List.mem_append_right ys List.mem_cons_self)
  · have hchain := hring.chain
    obtain ⟨b, bs, hbs⟩ : ∃ b bs, zs ++ [h] = b :: bs := List.exists_cons_of_ne_nil (by simp)
    have hsplit : h :: (ys ++ n :: zs) ++ [h] = (h :: ys) ++ n :: b :: bs := by simp [hbs]
    rw [hsplit, List.isChain_append_cons_cons] at hchain
    rw [hbs]
    exact hchain.2.1.1

/-- The last node of a list points back to the head, and the head to it. -/
lemma last (hring : IsCircle L h xs) :
    ∃ ys z, h :: xs = ys ++ [z] ∧ L.prev h = some z ∧ ys ++ [z, h] = h :: xs ++ [h] := by
  obtain ⟨ys, z, hys⟩ : ∃ ys z, h :: xs = ys ++ [z] :=
    ⟨_, _, (List.dropLast_append_getLast (List.cons_ne_nil h xs)).symm⟩
  have hchain := hring.chain
  rw [hys, List.append_assoc, List.singleton_append, List.isChain_append_cons_cons] at hchain
  exact ⟨ys, z, hys, hchain.2.1.2, by rw [hys, List.append_assoc, List.singleton_append]⟩

/-- The nodes of a list point somewhere. -/
lemma linked (hring : IsCircle L h xs) (hn : n ∈ h :: xs) :
    (∃ b ∈ h :: xs, L.next n = some b) ∧ ∃ a ∈ h :: xs, L.prev n = some a := by
  rcases List.mem_cons.mp hn with rfl | hn
  · obtain ⟨ys, z, hys, hz, -⟩ := hring.last
    refine ⟨?_, z, by simp [hys], hz⟩
    rw [hring.next_eq]
    cases xs with
    | nil => exact ⟨n, by simp, rfl⟩
    | cons x xs => exact ⟨x, by simp, rfl⟩
  · obtain ⟨ys, a, b, zs, hsplit, ha, hb⟩ := hring.neighbours hn
    have hmem : ∀ x ∈ ys ++ a :: n :: b :: zs, x ∈ h :: xs := by
      intro x hx
      rw [← hsplit, List.mem_append, List.mem_singleton] at hx
      rcases hx with hx | rfl
      · exact hx
      · exact List.mem_cons_self
    exact ⟨⟨b, hmem b (by simp), hb⟩, a, hmem a (by simp), ha⟩

variable [DecidableEq ν]

/-- A head that was just made has no members. -/
lemma init : IsCircle (L.init h) h [] := by
  refine ⟨List.nodup_singleton h, List.isChain_pair.mpr ⟨?_, ?_⟩⟩
  · simp [Links.init, Links.setNext, Links.setPrev]
  · simp [Links.init, Links.setNext, Links.setPrev]

/-- Adding a node before the head adds it at the end. -/
lemma addBefore (hring : IsCircle L h xs) (hn : n ∉ h :: xs) :
    IsCircle (L.addBefore h n) h (xs ++ [n]) := by
  obtain ⟨ys, z, hys, hz, hcycle⟩ := hring.last
  have hnodup : (ys ++ [z]).Nodup := hys ▸ hring.nodup
  have hne : ∀ a ∈ h :: xs, a ≠ n := fun a ha heq => hn (heq ▸ ha)
  have hzne : z ≠ n := hne z (by simp [hys])
  have hnext : ∀ a, a ≠ n → a ≠ z → (L.addBefore h n).next a = L.next a := by
    intro a han haz
    simp [Links.addBefore, Links.add, Links.setNext, Links.setPrev, hz,
      Function.update_of_ne, han, haz]
  have hprev : ∀ b, b ≠ n → b ≠ h → (L.addBefore h n).prev b = L.prev b := by
    intro b hbn hbh
    simp [Links.addBefore, Links.add, Links.setNext, Links.setPrev, hz,
      Function.update_of_ne, hbn, hbh]
  have hzn : (L.addBefore h n).Joined z n := by
    constructor
    · simp [Links.addBefore, Links.add, Links.setNext, Links.setPrev, hz]
    · simp [Links.addBefore, Links.add, Links.setNext, Links.setPrev, hz]
  have hnh : (L.addBefore h n).Joined n h := by
    have hhne : h ≠ n := hne h List.mem_cons_self
    constructor
    · simp [Links.addBefore, Links.add, Links.setNext, Links.setPrev, hz,
        Function.update_of_ne hzne.symm]
    · simp [Links.addBefore, Links.add, Links.setNext, Links.setPrev, hz,
        Function.update_of_ne hhne]
  constructor
  · rw [← List.cons_append]
    exact List.nodup_append.mpr ⟨hring.nodup, List.nodup_singleton n, fun a ha b hb =>
      List.mem_singleton.mp hb ▸ hne a ha⟩
  · have hfirst : (ys ++ [z]).IsChain L.Joined := by
      have hchain := hring.chain
      rw [← hcycle, List.isChain_append_cons_cons] at hchain
      exact hchain.1
    rw [← List.cons_append, hys]
    have hshape : ys ++ [z] ++ [n] ++ [h] = ys ++ z :: n :: [h] := by simp
    rw [hshape, List.isChain_append_cons_cons, List.isChain_pair]
    refine ⟨Links.joined_congr (fun a ha => hnext a ?_ ?_)
      (fun b hb => hprev b ?_ ?_) hfirst, hzn, hnh⟩
    · rw [List.dropLast_concat] at ha
      exact hne a (by simp [hys, ha])
    · rw [List.dropLast_concat] at ha
      rintro rfl
      exact (List.nodup_append.mp hnodup).2.2 a ha a (List.mem_singleton_self a) rfl
    · exact hne b (hys ▸ List.mem_of_mem_tail hb)
    · rw [← hys, List.tail_cons] at hb
      rintro rfl
      exact (List.nodup_cons.mp hring.nodup).1 hb

/-- The backward pointers of the head and of a node that is added before it. -/
lemma prev_addBefore (L : Links ν) (h n x : ν) :
    (L.addBefore h n).prev x = if x = n then L.prev h else if x = h then some n else L.prev x := by
  rw [Links.addBefore, Links.add]
  have hstore : ∀ L' : Links ν, (L'.setNext (L.prev h) (some n)).prev = L'.prev := by
    intro L'
    cases L.prev h <;> rfl
  rw [hstore]
  simp only [Links.setPrev, Links.setNext]
  by_cases hx : x = n
  · rw [if_pos hx, hx, Function.update_self]
  · rw [if_neg hx, Function.update_of_ne hx]
    by_cases hxh : x = h
    · rw [if_pos hxh, hxh, Function.update_self]
    · rw [if_neg hxh, Function.update_of_ne hxh]

/-- Nodes that are added to an empty list one after the other, and form a list then, are its members
in that order: no node was added twice. -/
lemma eq_of_foldl_addBefore {seq : List ν} (hempty : L.prev h = some h) (hne : h ∉ seq)
    (hring : IsCircle L' h xs)
    (hsame : ∀ x ∈ h :: xs, L'.prev x = (seq.foldl (fun L x => L.addBefore h x) L).prev x) :
    xs = seq := by
  -- the backward pointers decide: an addition changes only those of the node and of the head
  let Back (L : Links ν) (a b : ν) : Prop := L.prev b = some a
  suffices hback : (∃ z, Back (seq.foldl (fun L x => L.addBefore h x) L) z h) ∧
      ∀ xs : List ν, (h :: xs).Nodup →
      (h :: (xs ++ [h])).IsChain (Back (seq.foldl (fun L x => L.addBefore h x) L)) → xs = seq from
    hback.2 xs hring.nodup (hring.chain.imp_of_mem_tail_imp fun a b _ hb hab => by
      rw [List.tail_cons, List.mem_append, List.mem_singleton] at hb
      exact (hsame b (List.mem_cons.mpr hb.symm)).symm.trans hab.2)
  clear hring hsame
  induction seq using List.reverseRecOn with
  | nil =>
    refine ⟨⟨h, hempty⟩, fun xs hnodup hchain => ?_⟩
    rcases List.eq_nil_or_concat' xs with rfl | ⟨ys, y, rfl⟩
    · rfl
    · have hsplit : h :: ((ys ++ [y]) ++ [h]) = (h :: ys) ++ y :: [h] := by simp
      rw [hsplit, List.isChain_append_cons_cons] at hchain
      obtain rfl := Option.some.inj (hempty.symm.trans hchain.2.1)
      exact absurd (by simp) (List.nodup_cons.mp hnodup).1
  | append_singleton seq x ih =>
    have hxh : x ≠ h := fun heq => hne (heq ▸ by simp)
    obtain ⟨⟨z, hz⟩, hshort⟩ := ih fun hmem => hne (List.mem_append_left _ hmem)
    rw [List.foldl_append, List.foldl_cons, List.foldl_nil]
    generalize seq.foldl (fun L x => L.addBefore h x) L = M at hz hshort
    have hprev := prev_addBefore M h x
    have hlast : (M.addBefore h x).prev h = some x := by rw [hprev, if_neg hxh.symm, if_pos rfl]
    refine ⟨⟨x, hlast⟩, fun xs hnodup hchain => ?_⟩
    rcases List.eq_nil_or_concat' xs with rfl | ⟨ys, y, rfl⟩
    · have hself : (M.addBefore h x).prev h = some h := (List.isChain_cons_cons.mp hchain).1
      exact absurd (Option.some.inj (hlast.symm.trans hself)) hxh
    · obtain ⟨ps, p, hps⟩ : ∃ ps p, h :: ys = ps ++ [p] :=
        ⟨_, _, (List.dropLast_append_getLast (List.cons_ne_nil h ys)).symm⟩
      have hsplit : h :: ((ys ++ [y]) ++ [h]) = ps ++ p :: y :: [h] := by
        rw [List.append_assoc, ← List.cons_append, hps]
        simp
      rw [hsplit, List.isChain_append_cons_cons, List.isChain_cons_cons] at hchain
      obtain ⟨hpre, hpy, hyh, -⟩ := hchain
      obtain rfl : x = y := Option.some.inj (hlast.symm.trans hyh)
      have hp : M.prev h = some p := by
        have hx : (M.addBefore h x).prev x = some p := hpy
        rwa [hprev, if_pos rfl] at hx
      have hys : x ∉ ys ∧ h ∉ ys ∧ ys.Nodup := by
        rw [← List.cons_append, List.nodup_append] at hnodup
        obtain ⟨hys, -, hapart⟩ := hnodup
        exact ⟨fun hmem => hapart x (List.mem_cons_of_mem h hmem) x (by simp) rfl,
          List.nodup_cons.mp hys⟩
      refine congrArg (· ++ [x]) (hshort ys (List.nodup_cons.mpr hys.2) ?_)
      have hsplit' : h :: (ys ++ [h]) = ps ++ p :: [h] := by
        rw [← List.cons_append, hps]
        simp
      rw [hsplit', List.isChain_append_cons_cons]
      refine ⟨hpre.imp_of_mem_tail_imp fun a b _ hb hab => ?_, hp, List.isChain_singleton h⟩
      rw [← hps, List.tail_cons] at hb
      have hback : (M.addBefore h x).prev b = some a := hab
      rwa [hprev, if_neg (ne_of_mem_of_not_mem hb hys.1),
        if_neg (ne_of_mem_of_not_mem hb hys.2.1)] at hback

/-- Taking out a member leaves the others. -/
lemma del (hring : IsCircle L h xs) (hn : n ∈ xs) : IsCircle (L.del n) h (xs.erase n) := by
  obtain ⟨ps, qs, rfl⟩ := List.append_of_mem hn
  obtain ⟨hh, hxs⟩ := List.nodup_cons.mp hring.nodup
  obtain ⟨hps, hqs, hdisjoint⟩ := List.nodup_append.mp hxs
  have hnps : n ∉ ps := fun hmem => hdisjoint n hmem n List.mem_cons_self rfl
  have hnqs : n ∉ qs := (List.nodup_cons.mp hqs).1
  have hnh : n ≠ h := fun heq => hh (heq ▸ List.mem_append_right ps List.mem_cons_self)
  have herase : (ps ++ n :: qs).erase n = ps ++ qs := by
    rw [List.erase_append_right _ hnps, List.erase_cons_head]
  obtain ⟨ys, a, hys⟩ : ∃ ys a, h :: ps = ys ++ [a] :=
    ⟨_, _, (List.dropLast_append_getLast (List.cons_ne_nil h ps)).symm⟩
  obtain ⟨b, zs, hzs⟩ : ∃ b zs, qs ++ [h] = b :: zs := List.exists_cons_of_ne_nil (by simp)
  have hchain := hring.chain
  have hsplit : h :: (ps ++ n :: qs) ++ [h] = ys ++ a :: n :: b :: zs := by
    rw [← List.cons_append, hys]
    simp [hzs]
  rw [hsplit, List.isChain_append_cons_cons, List.isChain_cons_cons] at hchain
  obtain ⟨hfirst, ⟨-, hna⟩, ⟨hnb, -⟩, hlast⟩ := hchain
  have hnodup : (h :: (ps ++ qs)).Nodup := by
    refine List.nodup_cons.mpr ⟨fun hmem => hh ?_, ?_⟩
    · rcases List.mem_append.mp hmem with hmem | hmem
      · exact List.mem_append_left _ hmem
      · exact List.mem_append_right _ (List.mem_cons_of_mem n hmem)
    · exact List.nodup_append.mpr ⟨hps, (List.nodup_cons.mp hqs).2, fun x hx y hy =>
        hdisjoint x hx y (List.mem_cons_of_mem n hy)⟩
  have hane : a ≠ n := by
    have hmem : a ∈ h :: ps := by simp [hys]
    rintro rfl
    rcases List.mem_cons.mp hmem with heq | hmem
    · exact hnh heq
    · exact hnps hmem
  have hbne : b ≠ n := by
    have hmem : b ∈ qs ++ [h] := by simp [hzs]
    rintro rfl
    rcases List.mem_append.mp hmem with hmem | hmem
    · exact hnqs hmem
    · exact hnh (List.mem_singleton.mp hmem)
  have hnext : ∀ x, x ≠ n → x ≠ a → (L.del n).next x = L.next x := by
    intro x hxn hxa
    simp [Links.del, Links.detach, Links.unref, Links.setNext, Links.setPrev, hna, hnb,
      Function.update_of_ne, hxn,
      hxa]
  have hprev : ∀ x, x ≠ n → x ≠ b → (L.del n).prev x = L.prev x := by
    intro x hxn hxb
    simp [Links.del, Links.detach, Links.unref, Links.setNext, Links.setPrev, hna, hnb,
      Function.update_of_ne, hxn,
      hxb]
  have hab : (L.del n).Joined a b := by
    constructor
    · simp [Links.del, Links.detach, Links.unref, Links.setNext, Links.setPrev, hna, hnb,
        Function.update_of_ne hane]
    · simp [Links.del, Links.detach, Links.unref, Links.setNext, Links.setPrev, hna, hnb,
        Function.update_of_ne hbne]
  rw [herase]
  refine ⟨hnodup, ?_⟩
  have hshape : h :: (ps ++ qs) ++ [h] = ys ++ a :: b :: zs := by
    rw [← List.cons_append, hys]
    simp [hzs]
  have hnodup' : (ys ++ a :: qs).Nodup := by
    have heq : ys ++ a :: qs = h :: (ps ++ qs) := by rw [← List.cons_append, hys]; simp
    rw [heq]
    exact hnodup
  rw [hshape, List.isChain_append_cons_cons]
  refine ⟨Links.joined_congr (fun x hx => ?_) (fun x hx => ?_) hfirst, hab,
    Links.joined_congr (fun x hx => ?_) (fun x hx => ?_) hlast⟩
  · -- a node before `a`
    rw [List.dropLast_concat] at hx
    have hmem : x ∈ h :: ps := by simp [hys, hx]
    refine hnext x ?_ ?_
    · rintro rfl
      rcases List.mem_cons.mp hmem with heq | hmem
      · exact hnh heq
      · exact hnps hmem
    · rintro rfl
      exact (List.nodup_append.mp hnodup').2.2 x hx x List.mem_cons_self rfl
  · -- a node up to `a` that is not the head
    rw [← hys, List.tail_cons] at hx
    refine hprev x (fun heq => hnps (heq ▸ hx)) ?_
    rintro rfl
    have hmem : x ∈ qs ++ [h] := by simp [hzs]
    rcases List.mem_append.mp hmem with hmem | hmem
    · exact hdisjoint x hx x (List.mem_cons_of_mem n hmem) rfl
    · exact hh (List.mem_singleton.mp hmem ▸ List.mem_append_left _ hx)
  · -- a node from `b` on that is not the head
    rw [← hzs, List.dropLast_concat] at hx
    refine hnext x (fun heq => hnqs (heq ▸ hx)) ?_
    rintro rfl
    exact (List.nodup_cons.mp (List.nodup_append.mp hnodup').2.1).1 hx
  · -- a node after `b`
    have hmem : x ∈ qs ++ [h] := by rw [hzs]; exact List.mem_of_mem_tail hx
    refine hprev x ?_ ?_
    · rintro rfl
      rcases List.mem_append.mp hmem with hmem | hmem
      · exact hnqs hmem
      · exact hnh (List.mem_singleton.mp hmem)
    · rintro rfl
      have hcycle : (qs ++ [h]).Nodup := by
        refine List.nodup_append.mpr
          ⟨(List.nodup_cons.mp hqs).2, List.nodup_singleton h, fun u hu v hv heq => ?_⟩
        rw [heq, List.mem_singleton.mp hv] at hu
        exact hh (List.mem_append_right ps (List.mem_cons_of_mem n hu))
      rw [hzs] at hcycle
      exact (List.nodup_cons.mp hcycle).1 hx

end IsCircle

/-- A node is neither the head nor a member of a list of a family. -/
def Outside {ν : Type*} (C : ν → Option (List ν)) (n : ν) : Prop :=
  ∀ h xs, C h = some xs → n ∉ h :: xs

/-- The pointers form the circular lists of a family, and nothing else is linked. -/
structure Circles {ν : Type*} (L : Links ν) (C : ν → Option (List ν)) : Prop where
  circle : ∀ h xs, C h = some xs → IsCircle L h xs
  apart : ∀ h xs k ys, C h = some xs → C k = some ys → h ≠ k → ∀ n ∈ h :: xs, n ∉ k :: ys
  unlinked : ∀ n, Outside C n → L.next n = none ∧ L.prev n = none

namespace Circles

variable {ν : Type*} {L L' : Links ν} {C : ν → Option (List ν)} {h k n : ν} {xs ys : List ν}

lemma empty : Circles (Links.unlinked : Links ν) fun _ => none where
  circle := nofun
  apart := nofun
  unlinked _ _ := ⟨rfl, rfl⟩

/-- The pointers of the nodes in the lists, and only those, lead somewhere. -/
lemma linked_iff (hL : Circles L C) : (L.next n).isSome = true ↔ ¬ Outside C n := by
  constructor
  · intro hsome hout
    rw [(hL.unlinked n hout).1] at hsome
    cases hsome
  · intro hin
    simp only [Outside, not_forall, not_not] at hin
    obtain ⟨h, xs, hC, hn⟩ := hin
    obtain ⟨⟨b, -, hb⟩, -⟩ := (hL.circle h xs hC).linked hn
    rw [hb]
    rfl

lemma isRef_iff (hL : Circles L C) : L.isRef n = true ↔ ¬ Outside C n := by
  rw [← hL.linked_iff, Links.isRef, Bool.or_eq_true, or_iff_left_iff_imp]
  intro hprev
  rw [hL.linked_iff]
  intro hout
  rw [(hL.unlinked n hout).2] at hprev
  cases hprev

/-- The members of a list are not heads and in no other list. -/
lemma mem_unique (hL : Circles L C) (hh : C h = some xs) (hk : C k = some ys) (hn : n ∈ h :: xs)
    (hn' : n ∈ k :: ys) : h = k := by
  by_contra hne
  exact hL.apart h xs k ys hh hk hne n hn hn'

variable [DecidableEq ν]

/-- The family after one list got other members.  The pointers of the other lists must be as they
were. -/
lemma update (hL : Circles L C) (hnew : IsCircle L' h xs)
    (hapart : ∀ k ys, C k = some ys → k ≠ h → ∀ n ∈ h :: xs, n ∉ k :: ys)
    (hsame : ∀ n, n ∉ h :: xs → (∃ k ys, C k = some ys ∧ k ≠ h ∧ n ∈ k :: ys) →
      L'.next n = L.next n ∧ L'.prev n = L.prev n)
    (hunlinked : ∀ n, Outside (Function.update C h (some xs)) n → L'.next n = none ∧
      L'.prev n = none) :
    Circles L' (Function.update C h (some xs)) := by
  refine ⟨fun k ys hk => ?_, fun k ys l zs hk hl hne n hn => ?_, hunlinked⟩
  · by_cases hkh : k = h
    · subst hkh
      rw [Function.update_self, Option.some.injEq] at hk
      exact hk ▸ hnew
    · rw [Function.update_of_ne hkh] at hk
      have hcircle := hL.circle k ys hk
      have hframe : ∀ a ∈ k :: ys, L'.next a = L.next a ∧ L'.prev a = L.prev a := fun a ha =>
        hsame a (fun hmem => hapart k ys hk hkh a hmem ha) ⟨k, ys, hk, hkh, ha⟩
      exact hcircle.congr (fun a ha => (hframe a ha).1) fun a ha => (hframe a ha).2
  · by_cases hkh : k = h
    · subst hkh
      rw [Function.update_self, Option.some.injEq] at hk
      rw [Function.update_of_ne hne.symm] at hl
      exact hapart l zs hl hne.symm n (hk ▸ hn)
    · rw [Function.update_of_ne hkh] at hk
      by_cases hlh : l = h
      · subst hlh
        rw [Function.update_self, Option.some.injEq] at hl
        exact fun hmem => hapart k ys hk hkh n (hl ▸ hmem) hn
      · rw [Function.update_of_ne hlh] at hl
        exact hL.apart k ys l zs hk hl hne n hn

/-- A new head is a list without members. -/
lemma init (hL : Circles L C) (hout : Outside C h) :
    Circles (L.init h) (Function.update C h (some [])) := by
  have hframe : ∀ n, n ≠ h → (L.init h).next n = L.next n ∧ (L.init h).prev n = L.prev n := by
    intro n hn
    simp [Links.init, Links.setNext, Links.setPrev, Function.update_of_ne, hn]
  refine hL.update IsCircle.init (fun k ys hk _ n hn => ?_)
    (fun n hn _ => hframe n ?_) fun n hn => ?_
  · rw [List.mem_singleton.mp hn]
    exact hout k ys hk
  · exact fun heq => hn (heq ▸ List.mem_cons_self)
  · have hne : n ≠ h := by
      rintro rfl
      exact hn n [] (Function.update_self ..) List.mem_cons_self
    obtain ⟨hnext, hprev⟩ := hframe n hne
    rw [hnext, hprev]
    refine hL.unlinked n fun k ys hk => ?_
    by_cases hkh : k = h
    · exact absurd (hkh ▸ List.mem_cons_self) (hout k ys hk)
    · exact hn k ys (by rwa [Function.update_of_ne hkh])

/-- A node in no list is added at the end of a list. -/
lemma addBefore (hL : Circles L C) (hC : C h = some xs) (hout : Outside C n) :
    Circles (L.addBefore h n) (Function.update C h (some (xs ++ [n]))) := by
  have hcircle := hL.circle h xs hC
  obtain ⟨-, z, hz, hprev⟩ := hcircle.linked List.mem_cons_self
  have hframe : ∀ x, x ∉ h :: (xs ++ [n]) →
      (L.addBefore h n).next x = L.next x ∧ (L.addBefore h n).prev x = L.prev x := by
    intro x hx
    have hxn : x ≠ n := fun heq => hx (heq ▸ by simp)
    have hxh : x ≠ h := fun heq => hx (heq ▸ List.mem_cons_self)
    have hxz : x ≠ z := fun heq => hx (heq ▸ by
      rcases List.mem_cons.mp hz with rfl | hz
      · exact List.mem_cons_self
      · exact List.mem_cons_of_mem h (List.mem_append_left _ hz))
    simp [Links.addBefore, Links.add, Links.setNext, Links.setPrev, hprev, Function.update_of_ne,
      hxn, hxh, hxz]
  have hsub : ∀ k ys, C k = some ys → k ≠ h → ∀ x ∈ h :: (xs ++ [n]), x ∉ k :: ys := by
    intro k ys hk hkh x hx
    rw [← List.cons_append, List.mem_append, List.mem_singleton] at hx
    rcases hx with hx | rfl
    · exact hL.apart h xs k ys hC hk hkh.symm x hx
    · exact hout k ys hk
  refine hL.update (hcircle.addBefore (hout h xs hC)) hsub
    (fun x hx _ => hframe x hx) fun x hx => ?_
  have hxs : x ∉ h :: (xs ++ [n]) := hx h _ (Function.update_self ..)
  rw [(hframe x hxs).1, (hframe x hxs).2]
  refine hL.unlinked x fun k ys hk => ?_
  by_cases hkh : k = h
  · subst hkh
    rw [hC, Option.some.injEq] at hk
    rw [← hk]
    exact fun hmem => hxs (by rw [← List.cons_append]; exact List.mem_append_left _ hmem)
  · exact hx k ys (by rwa [Function.update_of_ne hkh])

/-- A member is taken out of its list. -/
lemma del (hL : Circles L C) (hC : C h = some xs) (hn : n ∈ xs) :
    Circles (L.del n) (Function.update C h (some (xs.erase n))) := by
  have hcircle := hL.circle h xs hC
  obtain ⟨⟨b, hb, hnext⟩, a, ha, hprev⟩ := hcircle.linked (List.mem_cons_of_mem h hn)
  have hframe : ∀ x, x ∉ h :: xs → (L.del n).next x = L.next x ∧ (L.del n).prev x = L.prev x := by
    intro x hx
    have hxn : x ≠ n := fun heq => hx (heq ▸ List.mem_cons_of_mem h hn)
    have hxa : x ≠ a := fun heq => hx (heq ▸ ha)
    have hxb : x ≠ b := fun heq => hx (heq ▸ hb)
    simp [Links.del, Links.detach, Links.unref, Links.setNext, Links.setPrev, hnext, hprev,
      Function.update_of_ne,
      hxn, hxa, hxb]
  have hsub : ∀ x ∈ h :: xs.erase n, x ∈ h :: xs := by
    intro x hx
    rcases List.mem_cons.mp hx with rfl | hx
    · exact List.mem_cons_self
    · exact List.mem_cons_of_mem h (List.mem_of_mem_erase hx)
  refine hL.update (hcircle.del hn)
    (fun k ys hk hkh x hx => hL.apart h xs k ys hC hk hkh.symm x (hsub x hx))
    (fun x _ ⟨k, ys, hk, hkh, hmem⟩ => hframe x fun hx =>
      hL.apart h xs k ys hC hk hkh.symm x hx hmem)
    fun x hx => ?_
  have hxs : x ∉ h :: xs.erase n := hx h _ (Function.update_self ..)
  by_cases hxn : x = n
  · subst hxn
    simp [Links.del, Links.unref, Links.setNext, Links.setPrev]
  · have hx' : x ∉ h :: xs := by
      intro hmem
      rcases List.mem_cons.mp hmem with heq | hmem
      · exact hxs (heq ▸ List.mem_cons_self)
      · exact hxs (List.mem_cons_of_mem h ((List.mem_erase_of_ne hxn).mpr hmem))
    rw [(hframe x hx').1, (hframe x hx').2]
    refine hL.unlinked x fun k ys hk => ?_
    by_cases hkh : k = h
    · subst hkh
      rw [hC, Option.some.injEq] at hk
      exact hk ▸ hx'
    · exact hx k ys (by rwa [Function.update_of_ne hkh])

end Circles

/-! ## Walks -/

section Walk

variable {σ ν : Type*} [DecidableEq ν] (links : σ → Links ν) (crash : σ → σ) (head : ν)
  (body : ν → σ → σ)

/-- Follow the `next` pointers to the head, from a pointer that was read, with at most `n` nodes.
The next pointer is read before the body of the loop runs. -/
def walkSafe : ℕ → Option ν → σ → σ
  | 0, _, s => crash s
  | _ + 1, none, s => crash s
  | n + 1, some pos, s => if pos = head then s else walkSafe n ((links s).next pos) (body pos s)

/-- The same walk, but the next pointer is read after the body of the loop. -/
def walk : ℕ → Option ν → σ → σ
  | 0, _, s => crash s
  | _ + 1, none, s => crash s
  | n + 1, some pos, s =>
    if pos = head then s else walk n ((links (body pos s)).next pos) (body pos s)

variable {links crash head body}

/-- What the body keeps at any node is kept by a walk, wherever the pointers lead. -/
lemma walkSafe_invariant {P : σ → Prop} (hbody : ∀ x s, P s → P (body x s))
    (hcrash : ∀ s, P s → P (crash s))
    (n : ℕ) (p : Option ν) (s : σ) (hs : P s) : P (walkSafe links crash head body n p s) := by
  induction n generalizing p s with
  | zero => exact hcrash s hs
  | succ n ih =>
    cases p with
    | none => exact hcrash s hs
    | some pos =>
      rw [walkSafe]
      split
      · exact hs
      · exact ih _ _ (hbody pos s hs)

lemma walk_invariant {P : σ → Prop} (hbody : ∀ x s, P s → P (body x s))
    (hcrash : ∀ s, P s → P (crash s))
    (n : ℕ) (p : Option ν) (s : σ) (hs : P s) : P (walk links crash head body n p s) := by
  induction n generalizing p s with
  | zero => exact hcrash s hs
  | succ n ih =>
    cases p with
    | none => exact hcrash s hs
    | some pos =>
      rw [walk]
      split
      · exact hs
      · exact ih _ _ (hbody pos s hs)

/-- A walk visits the members of a list in order, if the body at a member leaves the members to come
linked behind it, unless something happens that nothing undoes. -/
lemma walkSafe_members_or {I : List ν → σ → Prop} {P : σ → Prop} (hP : ∀ x s, P s → P (body x s))
    (hcrash : ∀ s, P s → P (crash s))
    (hnext : ∀ x rest s, I (x :: rest) s → x ≠ head ∧ (links s).next x = (rest ++ [head]).head?)
    (hbody : ∀ x rest s, I (x :: rest) s → I rest (body x s) ∨ P (body x s)) {n : ℕ}
    {xs : List ν} {s : σ} (hs : I xs s) (hn : xs.length < n) :
    I [] (walkSafe links crash head body n (xs ++ [head]).head? s) ∨
      P (walkSafe links crash head body n (xs ++ [head]).head? s) := by
  induction n generalizing xs s with
  | zero => omega
  | succ n ih =>
    cases xs with
    | nil =>
      rw [List.nil_append, List.head?_cons, walkSafe, if_pos rfl]
      exact .inl hs
    | cons x rest =>
      obtain ⟨hne, hx⟩ := hnext x rest s hs
      rw [List.cons_append, List.head?_cons, walkSafe, if_neg hne, hx]
      rcases hbody x rest s hs with hI | hend
      · exact ih hI (Nat.lt_of_succ_lt_succ hn)
      · exact .inr (walkSafe_invariant hP hcrash n _ _ hend)

/-- A walk visits the members of a list in order, if the body at a member leaves the members to come
linked behind it. -/
lemma walkSafe_members {I : List ν → σ → Prop}
    (hnext : ∀ x rest s, I (x :: rest) s → x ≠ head ∧ (links s).next x = (rest ++ [head]).head?)
    (hbody : ∀ x rest s, I (x :: rest) s → I rest (body x s)) {n : ℕ} {xs : List ν} {s : σ}
    (hs : I xs s)
    (hn : xs.length < n) : I [] (walkSafe links crash head body n (xs ++ [head]).head? s) :=
  (walkSafe_members_or (P := fun _ => False) (fun _ _ => id) (fun _ => id) hnext
    (fun x rest s h => .inl (hbody x rest s h)) hs hn).resolve_right id

lemma walk_members_or {I : List ν → σ → Prop} {P : σ → Prop} (hP : ∀ x s, P s → P (body x s))
    (hcrash : ∀ s, P s → P (crash s))
    (hbody : ∀ x rest s, I (x :: rest) s →
      x ≠ head ∧ (links (body x s)).next x = (rest ++ [head]).head? ∧
        (I rest (body x s) ∨ P (body x s)))
    {n : ℕ} {xs : List ν} {s : σ} (hs : I xs s) (hn : xs.length < n) :
    I [] (walk links crash head body n (xs ++ [head]).head? s) ∨
      P (walk links crash head body n (xs ++ [head]).head? s) := by
  induction n generalizing xs s with
  | zero => omega
  | succ n ih =>
    cases xs with
    | nil =>
      rw [List.nil_append, List.head?_cons, walk, if_pos rfl]
      exact .inl hs
    | cons x rest =>
      obtain ⟨hne, hx, hI⟩ := hbody x rest s hs
      rw [List.cons_append, List.head?_cons, walk, if_neg hne, hx]
      rcases hI with hI | hend
      · exact ih hI (Nat.lt_of_succ_lt_succ hn)
      · exact .inr (walk_invariant hP hcrash n _ _ hend)

lemma walk_members {I : List ν → σ → Prop}
    (hbody : ∀ x rest s, I (x :: rest) s →
      x ≠ head ∧ (links (body x s)).next x = (rest ++ [head]).head? ∧ I rest (body x s))
    {n : ℕ} {xs : List ν} {s : σ} (hs : I xs s) (hn : xs.length < n) :
    I [] (walk links crash head body n (xs ++ [head]).head? s) := by
  refine (walk_members_or (P := fun _ => False) (fun _ _ => id) (fun _ => id)
    (fun x rest s h => ?_) hs
    hn).resolve_right id
  obtain ⟨hne, hx, hI⟩ := hbody x rest s h
  exact ⟨hne, hx, .inl hI⟩

/-- Follow the `next` pointers until a node fails a test: whether all nodes passed, and the node at
which the cursor stopped, which is the head if they did.  Nothing is found if a pointer or a test
leads nowhere. -/
def search (L : Links ν) (head : ν) (test : ν → Option Bool) : ℕ → Option ν → Option (Bool × ν)
  | 0, _ => none
  | _ + 1, none => none
  | n + 1, some pos =>
    if pos = head then some (true, pos)
    else
      match test pos with
      | none => none
      | some false => some (false, pos)
      | some true => search L head test n (L.next pos)

/-- A search from a node of a list stops at the first node from there on that fails the test. -/
lemma search_suffix {L : Links ν} {test : ν → Option Bool} {pre rest : List ν}
    (h : IsCircle L head (pre ++ rest))
    (htest : ∀ x ∈ rest, test x ≠ none) {n : ℕ} (hn : rest.length < n) :
    search L head test n (rest ++ [head]).head? =
      some (match rest.find? (test · = some false) with
        | some x => (false, x)
        | none => (true, head)) := by
  induction n generalizing pre rest with
  | zero => omega
  | succ n ih =>
    cases rest with
    | nil => rw [List.nil_append, List.head?_cons, search, if_pos rfl, List.find?_nil]
    | cons x rest =>
      obtain ⟨hne, hnext⟩ := IsCircle.next_mem pre h
      rw [List.cons_append, List.head?_cons, search, if_neg hne, hnext]
      cases hx : test x with
      | none => exact absurd hx (htest x List.mem_cons_self)
      | some passed =>
        cases passed with
        | false =>
          have hfound : (x :: rest).find? (test · = some false) = some x :=
            List.find?_cons_of_pos (decide_eq_true hx)
          rw [hfound]
        | true =>
          have hskip : (x :: rest).find? (test · = some false) = rest.find? (test · = some false) :=
            List.find?_cons_of_neg (by simp [hx])
          rw [hskip]
          have hrest : IsCircle L head ((pre ++ [x]) ++ rest) := by rwa [List.append_assoc]
          exact ih hrest (fun y hy => htest y (List.mem_cons_of_mem x hy))
            (Nat.lt_of_succ_lt_succ hn)

/-- A search in a list stops at its first member that fails the test. -/
lemma search_members {L : Links ν} {test : ν → Option Bool} {xs : List ν} (h : IsCircle L head xs)
    (htest : ∀ x ∈ xs, test x ≠ none) {n : ℕ} (hn : xs.length < n) :
    search L head test n (L.next head) =
      some (match xs.find? (test · = some false) with
        | some x => (false, x)
        | none => (true, head)) := by
  have hall : IsCircle L head ([] ++ xs) := h
  rw [h.next_eq]
  exact search_suffix hall htest hn

end Walk

/-- Different numbers below a bound are not more than the bound. -/
lemma List.Nodup.length_le {as : List ℕ} (h : as.Nodup) {n : ℕ} (hlt : ∀ a ∈ as, a < n) :
    as.length ≤ n := by
  rw [← List.toFinset_card_of_nodup h, ← Finset.card_range n]
  exact Finset.card_le_card fun a ha => Finset.mem_range.mpr (hlt a (List.mem_toFinset.mp ha))
