import PiVccu.DevKey

/-!
The fuel of the loops of `kernel/devkey.inc` only bounds their rounds: what a function
returns with some fuel, it returns with more.
-/

namespace PiVccu.DevKey
open Limbs Bigint

def Extends {α : Type} (run run' : Option α) : Prop :=
  ∀ result, run = some result → run' = some result

theorem Extends.refl {α : Type} (run : Option α) : Extends run run := fun _ same => same

theorem Extends.bind {α β : Type} {run run' : Option α} {next next' : α → Option β}
    (first : Extends run run') (later : ∀ value, Extends (next value) (next' value)) :
    Extends (run >>= next) (run' >>= next') := by
  intro result reached
  obtain ⟨value, returned, rest⟩ := Option.bind_eq_some_iff.mp reached
  exact Option.bind_eq_some_iff.mpr ⟨value, first value returned, later value result rest⟩

theorem Extends.ite {α : Type} {condition : Prop} [Decidable condition]
    {run run' other other' : Option α} (yes : Extends run run') (no : Extends other other') :
    Extends (if condition then run else other) (if condition then run' else other') := by
  split
  · exact yes
  · exact no

section Fuel
variable {fuel fuel' : Nat} (more : fuel ≤ fuel')

include more in
theorem reduceDown_more (mod : List UInt32) (above : List UInt32 → Bool) (wide : Wide) :
    Extends (reduceDown mod above fuel wide) (reduceDown mod above fuel' wide) := by
  induction fuel generalizing fuel' wide with
  | zero =>
      intro result absent
      cases absent
  | succ fuel ih =>
      cases fuel' with
      | zero => cases more
      | succ fuel' => exact Extends.ite (ih (Nat.le_of_succ_le_succ more) _) (Extends.refl _)

include more in
theorem reduceUp_more (mod : List UInt32) (wide : Wide) :
    Extends (reduceUp mod fuel wide) (reduceUp mod fuel' wide) := by
  induction fuel generalizing fuel' wide with
  | zero =>
      intro result absent
      cases absent
  | succ fuel ih =>
      cases fuel' with
      | zero => cases more
      | succ fuel' => exact Extends.ite (ih (Nat.le_of_succ_le_succ more) _) (Extends.refl _)

include more in
theorem modMultFast_more (left right mod : List UInt32) :
    Extends (modMultFast fuel left right mod) (modMultFast fuel' left right mod) := by
  refine Extends.ite ?_ (Extends.ite ?_ (Extends.refl _))
  · exact Extends.bind (Extends.refl _) fun _ => reduceDown_more more _ _ _
  · refine Extends.bind (Extends.refl _) fun _ => ?_
    exact Extends.ite (reduceUp_more more _ _) (reduceDown_more more _ _ _)

include more in
theorem modInv_more (input mod : List UInt32) :
    Extends (modInv fuel input mod) (modInv fuel' input mod) := by
  obtain ⟨rest, rfl⟩ := Nat.exists_eq_add_of_le more
  exact fun _ run => modInvLoop_more rest run

include more in
theorem xyczAdd_more (p1 p2 : EccPoint) (mod : List UInt32) :
    Extends (xyczAdd fuel p1 p2 mod) (xyczAdd fuel' p1 p2 mod) := by
  refine Extends.bind (modMultFast_more more _ _ _) fun _ => ?_
  refine Extends.bind (modMultFast_more more _ _ _) fun _ => ?_
  refine Extends.bind (modMultFast_more more _ _ _) fun _ => ?_
  refine Extends.bind (modMultFast_more more _ _ _) fun _ => ?_
  refine Extends.bind (modMultFast_more more _ _ _) fun _ => ?_
  exact Extends.bind (modMultFast_more more _ _ _) fun _ => Extends.refl _

include more in
theorem applyZ_more (p : EccPoint) (z mod : List UInt32) :
    Extends (applyZ fuel p z mod) (applyZ fuel' p z mod) := by
  refine Extends.bind (modMultFast_more more _ _ _) fun _ => ?_
  refine Extends.bind (modMultFast_more more _ _ _) fun _ => ?_
  refine Extends.bind (modMultFast_more more _ _ _) fun _ => ?_
  exact Extends.bind (modMultFast_more more _ _ _) fun _ => Extends.refl _

include more in
theorem pointDoubleJacobian_more (p : EccPoint) (z mod : List UInt32) :
    Extends (pointDoubleJacobian fuel p z mod) (pointDoubleJacobian fuel' p z mod) := by
  refine Extends.ite (Extends.refl _) ?_
  refine Extends.bind (modMultFast_more more _ _ _) fun _ => ?_
  refine Extends.bind (modMultFast_more more _ _ _) fun _ => ?_
  refine Extends.bind (modMultFast_more more _ _ _) fun _ => ?_
  refine Extends.bind (modMultFast_more more _ _ _) fun _ => ?_
  refine Extends.bind (modMultFast_more more _ _ _) fun _ => ?_
  refine Extends.bind (modMultFast_more more _ _ _) fun _ => ?_
  refine Extends.bind (modMultFast_more more _ _ _) fun _ => ?_
  exact Extends.bind (modMultFast_more more _ _ _) fun _ => Extends.refl _

include more in
theorem shamirLoop_more (points : Nat → Option EccPoint) (mod : List UInt32) (bits : Nat)
    (res : EccPoint) (z : List UInt32) :
    Extends (shamirLoop fuel points mod bits res z) (shamirLoop fuel' points mod bits res z) := by
  induction bits generalizing res z with
  | zero => exact Extends.refl _
  | succ bits ih =>
      refine Extends.bind (pointDoubleJacobian_more more _ _ _) fun doubled => ?_
      cases points bits with
      | none => exact ih _ _
      | some point =>
          refine Extends.bind (applyZ_more more _ _ _) fun t => ?_
          refine Extends.bind (xyczAdd_more more _ _ _) fun sum => ?_
          exact Extends.bind (modMultFast_more more _ _ _) fun z => ih _ _

include more in
theorem pointMultShamir_more (u1 u2 : List UInt32) (q : EccPoint) (curve : EccCurve) :
    Extends (pointMultShamir fuel u1 u2 q curve) (pointMultShamir fuel' u1 u2 q curve) := by
  refine Extends.bind (xyczAdd_more more _ _ _) fun sum => ?_
  refine Extends.bind (modInv_more more _ _) fun z => ?_
  refine Extends.bind (applyZ_more more _ _ _) fun sum => ?_
  refine Extends.ite (Extends.refl _) ?_
  refine Extends.bind (Extends.refl _) fun res => ?_
  refine Extends.bind (shamirLoop_more more _ _ _ _ _) fun res => ?_
  refine Extends.bind (modInv_more more _ _) fun z => ?_
  exact applyZ_more more _ _ _

include more in
theorem verifyOn_more (curve : EccCurve) (pkey h r s : List UInt32) :
    Extends (verifyOn fuel curve pkey h r s) (verifyOn fuel' curve pkey h r s) := by
  refine Extends.ite (Extends.refl _) ?_
  refine Extends.bind (Extends.refl _) fun u1 => ?_
  refine Extends.bind (Extends.refl _) fun u2 => ?_
  exact Extends.bind (pointMultShamir_more more _ _ _ _) fun p => Extends.refl _

end Fuel

end PiVccu.DevKey
