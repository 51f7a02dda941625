import Obus.Java.Struct

/-!
# Casts in structures

What the casts make of objects of their own class, and the loop of the decoder of arrays with a
class that is known.
-/

namespace Obus.Java

open Fallible

lemma eval_ok {σ α β : Type} {x : Except Exc α} {a : α} (hx : x = .ok a)
    (k : α → Fallible σ Exc β) : eval x >>= k = k a := by
  rw [hx]
  rfl

lemma not_leads_eval {σ α β : Type} {x : Except Exc α} {e : Exc} (hx : x = .error e)
    (k : α → Fallible σ Exc β) {s s' : σ} {b : β} : ¬Leads (eval x >>= k) s b s' := by
  rw [hx]
  intro h
  cases h

@[simp] lemma castTo_boxed (c : JavaType) (v : c.Val) :
    castTo c (some (.boxed c v)) = .ok (some v) := dif_pos rfl

@[simp] lemma valueOf_boxed (c : JavaType) (v : c.Val) : valueOf c (some (.boxed c v)) = .ok v := by
  rw [valueOf, castTo_boxed]
  rfl

@[simp] lemma castToPrims_prims (c : JavaType) (a : List c.Val) :
    castToPrims c (some (.prims c a)) = .ok (some a) := dif_pos rfl

@[simp] lemma castToRefs_refs (c : JavaType) (a : List (Option c.Val)) :
    castToRefs c (some (.refs c a)) = .ok (some a) :=
  dif_pos rfl

section Arrays

variable {cs : Charset} {f : FieldDesc} {c : JavaType}

lemma storeIn_boxed (o : Option c.Val) : storeIn c (o.map (Obj.boxed c)) = .ok o := by
  cases o with
  | none => rfl
  | some v => rw [Option.map_some, storeIn, castTo_boxed]

lemma decodeArray_eq (hclass : arrayClass f = .ok c) :
    decodeArray cs f = readU32 >>= fun itemCount =>
    newArray itemCount >>= fun n => iter (decodeItem cs f c) n [] >>= fun array =>
      pure (.refs c array) := by
  have hstep : ∀ itemCount : BitVec 32, eval (arrayClass f) >>=
      (fun c => newArray itemCount >>= fun n =>
      iter (decodeItem cs f c) n [] >>= fun array => (pure (Obj.refs c array) : Read Obj)) =
      newArray itemCount >>= fun n => iter (decodeItem cs f c) n [] >>= fun array =>
        pure (.refs c array) :=
    fun itemCount => eval_ok hclass _
  exact congrArg (readU32 >>= ·) (funext hstep)

end Arrays

end Obus.Java
