import Mathlib.Data.List.Range
import Mathlib.Data.List.Nodup

/-!
Handles that are numbered in the order in which they are opened. The ledger says of each of
them that it has been closed once or is held once.
-/

namespace PiVccu.HandleLedger

def Balanced (opened : Nat) (closed held : List Nat) : Prop :=
  (closed ++ held).Perm (List.range opened)

variable {opened handle : Nat} {closed held : List Nat}

theorem balanced_none : Balanced 0 [] [] := List.Perm.refl []

theorem Balanced.take (balanced : Balanced opened closed held) :
    Balanced (opened + 1) closed (opened :: held) := by
  have moved : (closed ++ opened :: held).Perm ((closed ++ held) ++ [opened]) :=
    List.perm_middle.trans (List.perm_append_singleton opened (closed ++ held)).symm
  rw [Balanced, List.range_succ]
  exact moved.trans (balanced.append_right [opened])

theorem Balanced.release (balanced : Balanced opened closed (handle :: held)) :
    Balanced opened (closed ++ [handle]) held := by
  rw [Balanced, List.append_assoc]
  exact balanced

theorem Balanced.nodup (balanced : Balanced opened closed held) : (closed ++ held).Nodup :=
  balanced.symm.nodup List.nodup_range

theorem Balanced.live (balanced : Balanced opened closed held) (present : handle ∈ held) :
    handle ∉ closed := by
  intro gone
  exact List.disjoint_of_nodup_append balanced.nodup gone present

end PiVccu.HandleLedger
