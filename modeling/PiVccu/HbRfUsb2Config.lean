import PiVccu.CopyWithin
import PiVccu.DevKey

/-!
The configuration block of a CP2102N in `hb_rf_usb_2_probe`. The signature of a device
is spread over the block, and four copies bring its parts together before it is
verified. The offsets and lengths of the copies are bytes of the block itself.
-/

namespace PiVccu.HbRfUsb2Config
open CopyWithin

abbrev ConfigBlock := Vector UInt8 0x2a6

structure HbUsbDeviceInfo where
  pkey : List UInt32
  enforceVerification : Bool

/-- What the driver reads of a device: two of its strings, the answer to
`CP2102N_GET_CHIPTYPE` and the buffer behind `CP2102N_READ_CONFIG`. -/
structure UsbDevice where
  product : List UInt8
  serial : List UInt8
  partNum : UInt8
  config : ConfigBlock

/-- How the code can fail to compute anything: it accesses a range that leaves the
buffer, or a loop of the signature check has used up its fuel. -/
inductive Fault where
  | outside
  | unfinished
deriving DecidableEq

def orFault {Value : Type} (fault : Fault) : Option Value → Except Fault Value
  | none => .error fault
  | some value => .ok value

/-! The four copies; `product` is the length of the product string. -/

def firstCopy (buffer : ConfigBlock) (product : Nat) : Copy where
  target := buffer[191].toNat + 245
  source := 331 + product * 2
  count := 20

def secondCopy (buffer : ConfigBlock) : Copy where
  target := 231 + buffer[191].toNat
  source := 62 + buffer[60].toNat
  count := buffer[45].toNat

def thirdCopy (buffer : ConfigBlock) (product : Nat) : Copy where
  target := 245 + product * 2
  source := 452 + buffer[450].toNat
  count := buffer[192].toNat * 10

def fourthCopy (buffer : ConfigBlock) : Copy where
  target := buffer[191].toNat + 257
  source := 518
  count := buffer[60].toNat

def rearrange (mover : Mover) (buffer : ConfigBlock) (product : Nat) : Option ConfigBlock := do
  let buffer ← mover.perform buffer (firstCopy buffer product)
  let buffer ← mover.perform buffer (secondCopy buffer)
  let buffer ← mover.perform buffer (thirdCopy buffer product)
  mover.perform buffer (fourthCopy buffer)

def signatureStart (buffer : ConfigBlock) (product : Nat) : Nat :=
  buffer[192].toNat + 192 + product * 2

/-- `digest` is the hash of the crypto API with the given number of bytes, or its
failure. -/
def genericRawUartVerifyDkey (digest : Nat → List UInt8 → Option (List UInt8)) (fuel : Nat)
    (dkey skey : List UInt8) (pkey : List UInt32) (bytes : Nat) : Option Bool :=
  if bytes = 16 ∨ bytes = 32 then
    match digest bytes dkey with
    | none => some false
    | some hkey => DevKey.verifyDeviceKey fuel pkey hkey skey bytes
  else some false

section Probe

variable (mover : Mover) (digest : Nat → List UInt8 → Option (List UInt8)) (fuel : Nat)

def verifySignature (hbudi : HbUsbDeviceInfo) (device : UsbDevice) : Except Fault Bool := do
  let buffer ← orFault .outside (rearrange mover device.config device.product.length)
  -- Without the mark the signature is not looked at, and the device is not verified.
  if buffer[449] = 0xff then
    let skey ← orFault .outside
      (loadWithin buffer (signatureStart buffer device.product.length) (32 * 2))
    orFault .unfinished (genericRawUartVerifyDkey digest fuel device.serial skey hbudi.pkey 32)
  else return false

/-- The probe from the question for the chip type to the decision on the device: the
polarity of its reset line, or no device. -/
def probeConfig (driverInfo : Option HbUsbDeviceInfo) (device : UsbDevice) :
    Except Fault (Option Bool) := do
  if 0x20 ≤ device.partNum ∧ device.partNum ≤ 0x22 then
    -- The bit of the reset line is read before the copies.
    let invertReset :=
      if device.partNum = 0x22 then device.config[586] &&& 1 != 0
      else device.config[587] &&& 8 != 0
    match driverInfo with
    | none => return some invertReset
    | some hbudi =>
        if hbudi.pkey.headD 0 ≠ 0 then
          let verified ← verifySignature mover digest fuel hbudi device
          if verified then return some invertReset
          else if device.partNum ≠ 0x22 ∨ hbudi.enforceVerification = true then return none
          else return some invertReset
        else return some invertReset
  else if device.partNum ≠ 0x02 then return none
  else return some false

end Probe

/-- The byte of the block that stands at 450 when the third copy reads its offset
there. -/
def offsetByte (mover : Mover) (config : ConfigBlock) (product : Nat) : UInt8 :=
  (config[mover.traced (firstCopy config product)
    (mover.traced (secondCopy config) 450)]?).getD 0

/-- The bounds on the bytes of the block that the driver does not check. -/
structure Bounded (mover : Mover) (config : ConfigBlock) (product : Nat) : Prop where
  second : config[45].toNat + config[191].toNat ≤ 447
  thirdTarget : product * 2 + config[192].toNat * 10 ≤ 433
  thirdSource : 0 < config[192].toNat →
    (offsetByte mover config product).toNat + config[192].toNat * 10 ≤ 226
  fourth : config[60].toNat ≤ 160

/-- The bytes that are read as offsets and lengths, except for the one at 450, stand
in front of all targets. -/
structure SameControl (before after : ConfigBlock) : Prop where
  at45 : after[45] = before[45]
  at60 : after[60] = before[60]
  at191 : after[191] = before[191]
  at192 : after[192] = before[192]

theorem SameControl.trans {first second third : ConfigBlock} (front : SameControl first second)
    (back : SameControl second third) : SameControl first third where
  at45 := back.at45.trans front.at45
  at60 := back.at60.trans front.at60
  at191 := back.at191.trans front.at191
  at192 := back.at192.trans front.at192

theorem perform_control {mover : Mover} {before after : ConfigBlock} {copy : Copy}
    (behind : 192 < copy.target) (done : mover.perform before copy = some after) :
    SameControl before after where
  at45 := mover.perform_before done (by decide) (by omega)
  at60 := mover.perform_before done (by decide) (by omega)
  at191 := mover.perform_before done (by decide) (by omega)
  at192 := mover.perform_before done (by decide) (by omega)

theorem firstCopy_fits (config : ConfigBlock) {product : Nat} (short : product ≤ 126) :
    (firstCopy config product).Fits 0x2a6 := by
  have byte := config[191].toNat_lt
  refine ⟨(inside_iff _ _ _).mpr fun _ => ?_, (inside_iff _ _ _).mpr fun _ => ?_⟩
  · change 331 + product * 2 + 20 ≤ 0x2a6
    omega
  · change config[191].toNat + 245 + 20 ≤ 0x2a6
    omega

theorem secondCopy_fits_iff (config : ConfigBlock) :
    (secondCopy config).Fits 0x2a6 ↔ config[45].toNat + config[191].toNat ≤ 447 := by
  have length := config[45].toNat_lt
  have offset := config[60].toNat_lt
  have target := config[191].toNat_lt
  constructor
  · intro fits
    have last : 0 < config[45].toNat → 231 + config[191].toNat + config[45].toNat ≤ 0x2a6 :=
      (inside_iff _ _ _).mp fits.target
    omega
  · intro bound
    refine ⟨(inside_iff _ _ _).mpr fun _ => ?_, (inside_iff _ _ _).mpr fun _ => ?_⟩
    · change 62 + config[60].toNat + config[45].toNat ≤ 0x2a6
      omega
    · change 231 + config[191].toNat + config[45].toNat ≤ 0x2a6
      omega

theorem thirdCopy_fits_iff (config : ConfigBlock) {product : Nat} (short : product ≤ 126) :
    (thirdCopy config product).Fits 0x2a6 ↔
      product * 2 + config[192].toNat * 10 ≤ 433 ∧
        (0 < config[192].toNat → config[450].toNat + config[192].toNat * 10 ≤ 226) := by
  constructor
  · intro fits
    have source : 0 < config[192].toNat * 10 →
        452 + config[450].toNat + config[192].toNat * 10 ≤ 0x2a6 := (inside_iff _ _ _).mp fits.source
    have target : 0 < config[192].toNat * 10 →
        245 + product * 2 + config[192].toNat * 10 ≤ 0x2a6 := (inside_iff _ _ _).mp fits.target
    exact ⟨by omega, by omega⟩
  · rintro ⟨target, source⟩
    refine ⟨(inside_iff _ _ _).mpr fun some => ?_, (inside_iff _ _ _).mpr fun _ => ?_⟩
    · change 0 < config[192].toNat * 10 at some
      change 452 + config[450].toNat + config[192].toNat * 10 ≤ 0x2a6
      omega
    · change 245 + product * 2 + config[192].toNat * 10 ≤ 0x2a6
      omega

theorem fourthCopy_fits_iff (config : ConfigBlock) :
    (fourthCopy config).Fits 0x2a6 ↔ config[60].toNat ≤ 160 := by
  have target := config[191].toNat_lt
  constructor
  · intro fits
    have last : 0 < config[60].toNat → 518 + config[60].toNat ≤ 0x2a6 :=
      (inside_iff _ _ _).mp fits.source
    omega
  · intro bound
    refine ⟨(inside_iff _ _ _).mpr fun _ => ?_, (inside_iff _ _ _).mpr fun _ => ?_⟩
    · change 518 + config[60].toNat ≤ 0x2a6
      omega
    · change config[191].toNat + 257 + config[60].toNat ≤ 0x2a6
      omega

theorem SameControl.secondCopy_eq {before after : ConfigBlock} (same : SameControl before after) :
    secondCopy after = secondCopy before := by
  rw [secondCopy, secondCopy, same.at45, same.at60, same.at191]

theorem first_control {mover : Mover} {config one : ConfigBlock} {product : Nat}
    (first : mover.perform config (firstCopy config product) = some one) :
    SameControl config one := by
  refine perform_control ?_ first
  change 192 < config[191].toNat + 245
  omega

theorem second_control {mover : Mover} {one two : ConfigBlock}
    (second : mover.perform one (secondCopy one) = some two) : SameControl one two := by
  refine perform_control ?_ second
  change 192 < 231 + one[191].toNat
  omega

theorem third_control {mover : Mover} {two three : ConfigBlock} {product : Nat}
    (third : mover.perform two (thirdCopy two product) = some three) : SameControl two three := by
  refine perform_control ?_ third
  change 192 < 245 + product * 2
  omega

theorem fourth_control {mover : Mover} {three four : ConfigBlock}
    (fourth : mover.perform three (fourthCopy three) = some four) : SameControl three four := by
  refine perform_control ?_ fourth
  change 192 < three[191].toNat + 257
  omega

theorem second_offset {mover : Mover} {config one two : ConfigBlock} {product : Nat}
    (first : mover.perform config (firstCopy config product) = some one)
    (second : mover.perform one (secondCopy one) = some two) :
    two[450] = offsetByte mover config product := by
  have fits := (mover.perform_fits_iff one _).mp ⟨two, second⟩
  -- The second copy may itself have taken the byte from the target of the first.
  have there := mover.traced_lt fits (show 450 < 0x2a6 by decide)
  have moved : two[450]? = _ :=
    (mover.perform_traced second (by decide)).trans (mover.perform_traced first there)
  rw [(first_control first).secondCopy_eq, Vector.getElem?_eq_getElem (by decide)] at moved
  rw [offsetByte, ← moved, Option.getD_some]

theorem rearrange_iff (mover : Mover) (config : ConfigBlock) {product : Nat}
    (short : product ≤ 126) :
    (∃ final, rearrange mover config product = some final) ↔ Bounded mover config product := by
  obtain ⟨one, first⟩ := (mover.perform_fits_iff config _).mpr (firstCopy_fits config short)
  have control := first_control first
  have later : rearrange mover config product =
      (mover.perform one (secondCopy one)).bind fun two =>
        (mover.perform two (thirdCopy two product)).bind fun three =>
          mover.perform three (fourthCopy three) := by
    rw [rearrange, first]
    rfl
  rw [later]
  constructor
  · rintro ⟨final, done⟩
    obtain ⟨two, second, done⟩ := Option.bind_eq_some_iff.mp done
    obtain ⟨three, third, fourth⟩ := Option.bind_eq_some_iff.mp done
    have controlTwo := control.trans (second_control second)
    have controlThree := controlTwo.trans (third_control third)
    have secondFits := (secondCopy_fits_iff one).mp
      ((mover.perform_fits_iff one _).mp ⟨two, second⟩)
    have thirdFits := (thirdCopy_fits_iff two short).mp
      ((mover.perform_fits_iff two _).mp ⟨three, third⟩)
    have fourthFits := (fourthCopy_fits_iff three).mp
      ((mover.perform_fits_iff three _).mp ⟨final, fourth⟩)
    -- All bounds are about bytes of the block as it was read.
    rw [control.at45, control.at191] at secondFits
    rw [controlTwo.at192, second_offset first second] at thirdFits
    rw [controlThree.at60] at fourthFits
    exact ⟨secondFits, thirdFits.1, thirdFits.2, fourthFits⟩
  · intro bounded
    have secondFits := bounded.second
    rw [← control.at45, ← control.at191] at secondFits
    obtain ⟨two, second⟩ := (mover.perform_fits_iff one _).mpr
      ((secondCopy_fits_iff one).mpr secondFits)
    have controlTwo := control.trans (second_control second)
    have thirdFits := And.intro bounded.thirdTarget bounded.thirdSource
    rw [← controlTwo.at192, ← second_offset first second] at thirdFits
    obtain ⟨three, third⟩ := (mover.perform_fits_iff two _).mpr
      ((thirdCopy_fits_iff two short).mpr thirdFits)
    have controlThree := controlTwo.trans (third_control third)
    have fourthFits := bounded.fourth
    rw [← controlThree.at60] at fourthFits
    obtain ⟨final, fourth⟩ := (mover.perform_fits_iff three _).mpr
      ((fourthCopy_fits_iff three).mpr fourthFits)
    refine ⟨final, ?_⟩
    rw [second, Option.bind_some, third, Option.bind_some, fourth]

theorem rearrange_control {mover : Mover} {config final : ConfigBlock} {product : Nat}
    (done : rearrange mover config product = some final) : SameControl config final := by
  obtain ⟨one, first, done⟩ := Option.bind_eq_some_iff.mp done
  obtain ⟨two, second, done⟩ := Option.bind_eq_some_iff.mp done
  obtain ⟨three, third, fourth⟩ := Option.bind_eq_some_iff.mp done
  exact (((first_control first).trans (second_control second)).trans (third_control third)).trans
    (fourth_control fourth)

theorem signature_inside {mover : Mover} {config final : ConfigBlock} {product : Nat}
    (short : product ≤ 126) (done : rearrange mover config product = some final) :
    Inside 0x2a6 (signatureStart final product) (32 * 2) := by
  have target := ((rearrange_iff mover config short).mp ⟨final, done⟩).thirdTarget
  rw [inside_iff, signatureStart, (rearrange_control done).at192]
  omega

theorem orFault_unfinished {Value : Type} (result : Option Value) :
    orFault .unfinished result ≠ .error .outside := by
  cases result <;> exact nofun

theorem verifySignature_iff (mover : Mover) (digest : Nat → List UInt8 → Option (List UInt8))
    (fuel : Nat) (hbudi : HbUsbDeviceInfo) (device : UsbDevice)
    (short : device.product.length ≤ 126) :
    verifySignature mover digest fuel hbudi device ≠ .error .outside ↔
      Bounded mover device.config device.product.length := by
  rw [← rearrange_iff mover device.config short, verifySignature]
  cases done : rearrange mover device.config device.product.length with
  | none => exact iff_of_false (fun kept => kept rfl) nofun
  | some final =>
      refine iff_of_true ?_ ⟨final, rfl⟩
      change (if final[449] = 0xff then _ else _) ≠ _
      split
      · rw [loadWithin, if_pos (signature_inside short done)]
        exact orFault_unfinished _
      · exact nofun

def Verifies (driverInfo : Option HbUsbDeviceInfo) (device : UsbDevice) : Prop :=
  (0x20 ≤ device.partNum ∧ device.partNum ≤ 0x22) ∧
    ∃ hbudi, driverInfo = some hbudi ∧ hbudi.pkey.headD 0 ≠ 0

/-- The probe stays inside of the buffer exactly if it verifies no signature or the
bytes of the configuration are bounded. -/
theorem config_contained_iff (mover : Mover) (digest : Nat → List UInt8 → Option (List UInt8))
    (fuel : Nat) (driverInfo : Option HbUsbDeviceInfo) (device : UsbDevice)
    (short : device.product.length ≤ 126) :
    probeConfig mover digest fuel driverInfo device ≠ .error .outside ↔
      (Verifies driverInfo device → Bounded mover device.config device.product.length) := by
  unfold probeConfig Verifies
  split
  · rename_i supported
    cases driverInfo with
    | none => exact iff_of_true nofun (fun ⟨_, _, missing, _⟩ => nomatch missing)
    | some hbudi =>
        by_cases keyed : hbudi.pkey.headD 0 ≠ 0
        · rw [← verifySignature_iff mover digest fuel hbudi device short]
          rw [forall_prop_of_true ⟨supported, hbudi, rfl, keyed⟩]
          simp only [if_pos keyed]
          cases verifySignature mover digest fuel hbudi device with
          | error fault => exact not_congr ⟨fun same => congrArg _ (Except.error.inj same),
              fun same => congrArg _ (Except.error.inj same)⟩
          | ok verified =>
              refine iff_of_true ?_ nofun
              change (if verified then _ else _) ≠ _
              split
              · exact nofun
              · split <;> exact nofun
        · refine iff_of_true ?_ fun ⟨_, info, same, key⟩ => ?_
          · simp only [if_neg keyed]
            exact nofun
          · cases same
            exact absurd key keyed
  · rename_i other
    refine iff_of_true ?_ (fun verifies => absurd verifies.1 other)
    split <;> exact nofun

def enforcedInfo : HbUsbDeviceInfo where
  pkey := [0x08b1480e, 0x8f349c82, 0xe56ba2d8, 0x84fe66b7, 0x0f102855, 0x79bd41d5, 0x8d8905e0,
    0xe9c16cc3, 0xbb188368, 0x4167f9bf, 0x05084458, 0x24a171da, 0xfdbf5b3b, 0xec31efea, 0x1653f3ef,
    0x495f8104]
  enforceVerification := true

def deviceWith (config : ConfigBlock) : UsbDevice where
  product := [72, 66, 45, 82, 70, 45, 85, 83, 66, 45, 50]
  serial := [48, 48, 48, 49]
  partNum := 0x20
  config := config

def boundedConfig : ConfigBlock :=
  ((((Vector.replicate 0x2a6 0).set 45 20).set 60 16).set 191 32).set 192 7

theorem boundedConfig_bounded :
    Bounded .snapshot boundedConfig (deviceWith boundedConfig).product.length := by
  refine ⟨?_, ?_, fun _ => ?_, ?_⟩
  · decide +kernel
  · decide +kernel
  · decide +kernel
  · decide +kernel

theorem config_contained_iff_bounded :
    probeConfig .snapshot (fun _ _ => none) 0 (some enforcedInfo) (deviceWith boundedConfig) ≠
      .error .outside :=
  (config_contained_iff .snapshot (fun _ _ => none) 0 (some enforcedInfo)
    (deviceWith boundedConfig) (by decide)).mpr fun _ => boundedConfig_bounded

def erasedConfig : ConfigBlock := Vector.replicate 0x2a6 0xff

/-- For an erased chip the second copy writes 255 bytes to the offset 486. -/
theorem erased_config_leaves : (deviceWith erasedConfig).product.length ≤ 126 ∧
    probeConfig .snapshot (fun _ _ => none) 0 (some enforcedInfo) (deviceWith erasedConfig) =
      .error .outside := by
  refine ⟨by decide, ?_⟩
  have leaves : ¬ Bounded .snapshot erasedConfig (deviceWith erasedConfig).product.length := by
    intro bounded
    exact absurd bounded.second (by decide +kernel)
  have fault := (verifySignature_iff .snapshot (fun _ _ => none) 0 enforcedInfo
    (deviceWith erasedConfig) (by decide)).not.mpr leaves
  rw [not_not] at fault
  rw [probeConfig, if_pos (by decide)]
  change (if enforcedInfo.pkey.headD 0 ≠ 0 then
    verifySignature .snapshot (fun _ _ => none) 0 enforcedInfo (deviceWith erasedConfig) >>= _
    else _) = _
  rw [if_pos (by decide), fault]
  rfl

end PiVccu.HbRfUsb2Config
