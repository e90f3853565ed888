import Mathlib.Tactic.NormNum.Prime
import PiVccu.DevKey
import PiVccu.FieldCertificates

/-!
The modulus and the order of `curve_256` are prime. Each number below comes with a
primitive root and the factors of its predecessor.
-/

namespace PiVccu.DevKey
open Limbs FieldCertificates

theorem p256_prime : (value curve256.p).Prime := by
  have first : Nat.Prime 6700417 := by
    apply prime_of_lucas 5 23 [2, 2, 2, 2, 2, 2, 2, 3, 17449] _ (by decide +kernel)
    norm_num
  have second : Nat.Prime 204061199 := by
    apply prime_of_lucas 11 28 [2, 11, 23, 107, 3769] _ (by decide +kernel)
    norm_num
  have third : Nat.Prime 34282281433 := by
    apply prime_of_lucas 17 35 [2, 2, 2, 3, 7, 204061199] _ (by decide +kernel)
    simp only [List.forall_mem_cons, second, true_and]
    norm_num
  have fourth : Nat.Prime 66417393611 := by
    apply prime_of_lucas 6 36 [2, 5, 53, 173, 197, 3677] _ (by decide +kernel)
    norm_num
  have fifth : Nat.Prime 11290956913871 := by
    apply prime_of_lucas 13 44 [2, 5, 17, 66417393611] _ (by decide +kernel)
    simp only [List.forall_mem_cons, fourth, true_and]
    norm_num
  have sixth : Nat.Prime 46076956964474543 := by
    apply prime_of_lucas 5 56 [2, 23, 18169, 78283, 704251] _ (by decide +kernel)
    norm_num
  have seventh : Nat.Prime 774023187263532362759620327192479577272145303 := by
    apply prime_of_lucas 3 150
      [2, 3, 3, 2411, 34282281433, 11290956913871, 46076956964474543] _ (by decide +kernel)
    simp only [List.forall_mem_cons, third, fifth, sixth, true_and]
    norm_num
  have eighth : Nat.Prime 835945042244614951780389953367877943453916927241 := by
    apply prime_of_lucas 11 160
      [2, 2, 2, 3, 3, 3, 5, 774023187263532362759620327192479577272145303] _ (by decide +kernel)
    simp only [List.forall_mem_cons, seventh, true_and]
    norm_num
  have modulus : value curve256.p =
      115792089210356248762697446949407573530086143415290314195533631308867097853951 := by decide
  rw [modulus]
  apply prime_of_lucas 6 256
    [2, 3, 5, 5, 17, 257, 641, 1531, 65537, 490463, 6700417,
      835945042244614951780389953367877943453916927241] _ (by decide +kernel)
  simp only [List.forall_mem_cons, first, eighth, true_and]
  norm_num

theorem n256_prime : (value curve256.n).Prime := by
  -- The large factors of the predecessors come before the numbers that they certify.
  have first : Nat.Prime 9350987 := by
    apply prime_of_lucas 2 24 [2, 17, 229, 1201] _ (by decide +kernel)
    norm_num
  have second : Nat.Prime 187019741 := by
    apply prime_of_lucas 2 28 [2, 2, 5, 9350987] _ (by decide +kernel)
    simp only [List.forall_mem_cons, first, true_and]
    norm_num
  have third : Nat.Prime 311245691 := by
    apply prime_of_lucas 2 29 [2, 5, 7, 17, 29, 29, 311] _ (by decide +kernel)
    norm_num
  have fourth : Nat.Prime 622491383 := by
    apply prime_of_lucas 5 30 [2, 311245691] _ (by decide +kernel)
    simp only [List.forall_mem_cons, third, true_and]
    norm_num
  have fifth : Nat.Prime 3969899 := by
    apply prime_of_lucas 2 22 [2, 19, 104471] _ (by decide +kernel)
    norm_num
  have sixth : Nat.Prime 1002328039319 := by
    apply prime_of_lucas 19 40 [2, 126241, 3969899] _ (by decide +kernel)
    simp only [List.forall_mem_cons, fifth, true_and]
    norm_num
  have seventh : Nat.Prime 191039911 := by
    apply prime_of_lucas 3 28 [2, 3, 5, 41, 155317] _ (by decide +kernel)
    norm_num
  have eighth : Nat.Prime 208150935158385979 := by
    apply prime_of_lucas 2 58 [2, 3, 11, 43, 127, 3023, 191039911] _ (by decide +kernel)
    simp only [List.forall_mem_cons, seventh, true_and]
    norm_num
  have ninth : Nat.Prime 2624747550333869278416773953 := by
    apply prime_of_lucas 7 92
      [2, 2, 2, 2, 2, 2, 3, 3, 1297, 16879, 208150935158385979] _ (by decide +kernel)
    simp only [List.forall_mem_cons, eighth, true_and]
    norm_num
  have order : value curve256.n =
      115792089210356248762697446949407573529996955224135760342422259061068512044369 := by decide
  rw [order]
  apply prime_of_lucas 7 256
    [2, 2, 2, 2, 3, 71, 131, 373, 3407, 17449, 38189, 187019741, 622491383,
      1002328039319, 2624747550333869278416773953] _ (by decide +kernel)
  simp only [List.forall_mem_cons, second, fourth, sixth, ninth, true_and]
  norm_num

end PiVccu.DevKey
