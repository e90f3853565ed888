import PiVccu.CrcErrors
import PiVccu.HbRfEthDatagram
import PiVccu.Hm
import PiVccu.HmFrame

/-!
What the checksum finds on the serial line and in the datagrams. The two frame
parsers and `hb_rf_eth_recv_packet` compare the last two bytes with the check of
everything before them; all three use the generator 0x8005 and the initial
register 0xd77f.
-/

namespace PiVccu.FrameChecksum
open BigEndian ByteBuffer Crc16 HbRfEthDatagram

/-- Received bytes with errors of the kinds that the generator finds. -/
structure Damaged (sent received : List UInt8) : Prop where
  same : sent.length = received.length
  present : true ∈ errors sent received
  kind : Burst (errors sent received) ∨ OddlyMany (errors sent received)

theorem Damaged.nonempty {sent received : List UInt8} (damaged : Damaged sent received) :
    0 < sent.length := by
  cases sent with
  | nil => cases damaged.present
  | cons octet rest => exact Nat.succ_pos _

theorem checksum_iff (octets : List UInt8) (long : 2 ≤ octets.length) :
    join (octets.getD (octets.length - 2) 0) (octets.getD (octets.length - 1) 0) =
        remainder 0x8005 0xd77f (octets.take (octets.length - 2)) ↔
      remainder 0x8005 0xd77f octets = 0 := by
  obtain ⟨covered, high, low, rfl⟩ : ∃ covered high low, octets = covered ++ [high, low] := by
    obtain ⟨front, middle, high, low, rest, shape, -, middleSize⟩ :=
      split_parts octets 0 (octets.length - 2) (by omega)
    have none : rest = [] := by
      have length := congrArg List.length shape
      simp only [List.length_append, List.length_cons] at length
      exact List.eq_nil_of_length_eq_zero (by omega)
    refine ⟨front ++ middle, high, low, ?_⟩
    rw [shape, none, List.append_assoc]
  have size : (covered ++ [high, low]).length = covered.length + 2 := by simp
  have first : (covered ++ [high, low]).getD (covered.length + 2 - 2) 0 = high := by simp
  have second : (covered ++ [high, low]).getD (covered.length + 2 - 1) 0 = low := by simp
  rw [size, first, second, Nat.add_sub_cancel, List.take_left]
  exact (remainder_sealed_iff (by decide) 0xd77f covered high low).symm

theorem damaged_remainder {sent received : List UInt8} (damaged : Damaged sent received)
    (long : 2 ≤ sent.length) (zero : remainder 0x8005 0xd77f sent = 0) :
    remainder 0x8005 0xd77f received ≠ 0 := by
  rw [← zero]
  exact (remainder_ne (by decide) (by decide) 0xd77f damaged.same long damaged.present
    damaged.kind).symm

theorem tryParse_remainder {buffer : List UInt8} {len : UInt16} {frame : HMFrame}
    (whole : buffer.length = len.toNat) (parsed : HMFrame.tryParse buffer len = some frame) :
    2 ≤ buffer.length ∧ remainder 0x8005 0xd77f buffer = 0 := by
  unfold HMFrame.tryParse at parsed
  split at parsed
  · cases parsed
  · rename_i enough
    have long : 2 ≤ buffer.length := by
      rw [UInt16.lt_iff_toNat_lt] at enough
      have eight : UInt16.toNat 8 = 8 := rfl
      omega
    refine ⟨long, ?_⟩
    rw [← checksum_iff buffer long]
    split at parsed
    · cases parsed
    · dsimp only at parsed
      split at parsed
      · cases parsed
      · split at parsed
        · cases parsed
        · rename_i checked
          rw [whole]
          exact not_not.mp checked

theorem tryParseFrame_remainder {buf : List UInt8} {frame : Hm.HmFrame}
    (parsed : Hm.tryParseFrame buf buf.length = some frame) :
    2 ≤ buf.length ∧ remainder 0x8005 0xd77f buf = 0 := by
  unfold Hm.tryParseFrame at parsed
  split at parsed
  · cases parsed
  · have long : 2 ≤ buf.length := by omega
    refine ⟨long, ?_⟩
    rw [← checksum_iff buf long]
    split at parsed
    · cases parsed
    · dsimp only at parsed
      split at parsed
      · cases parsed
      · split at parsed
        · cases parsed
        · rename_i checked
          exact not_not.mp checked

theorem recvPacket_remainder (order : HostOrder) {buffer octets : List UInt8}
    (long : 4 ≤ octets.length) (fits : octets.length ≤ buffer.length) :
    recvPacket order true buffer (.datagram octets) =
      some (if remainder 0x8005 0xd77f octets = 0 then (octets.length : Int) else -eproto,
        octets ++ buffer.drop octets.length) := by
  have whole : min octets.length buffer.length = octets.length := Nat.min_eq_left fits
  have copied := memcpy_front fits
  have inside : octets.length - 2 < octets.length := by omega
  have last : octets.length - 2 + 1 < octets.length := by omega
  have behind : octets.length - 2 + 1 = octets.length - 1 := by omega
  have word : loadWord order (octets ++ buffer.drop octets.length) (octets.length - 2) =
      some (wordOf order (octets.getD (octets.length - 2) 0) (octets.getD (octets.length - 1) 0)) := by
    rw [loadWord, load, load, List.getElem?_append_left inside, List.getElem?_append_left last,
      List.getElem?_eq_getElem inside, List.getElem?_eq_getElem last, ← behind,
      List.getD_eq_getElem _ _ inside, List.getD_eq_getElem _ _ last]
    rfl
  have range : loadRange (octets ++ buffer.drop octets.length) 0 (octets.length - 2) =
      some (octets.take (octets.length - 2)) := by
    rw [loadRange, if_pos (by rw [List.length_append]; omega), List.drop_zero,
      List.take_append_of_le_length (by omega)]
  have positive : octets.length > 0 := by omega
  have four : ¬ octets.length < 4 := by omega
  have check := checksum_iff octets (by omega)
  have compared := wordOf_eq_htons_iff order (octets.getD (octets.length - 2) 0)
    (octets.getD (octets.length - 1) 0) (HbRfEth.calcCrc (octets.take (octets.length - 2)))
  rw [HbRfEth.calcCrc, check] at compared
  simp only [recvPacket, Bool.true_eq_false, ↓reduceIte, whole, List.take_length, copied, Option.bind_eq_bind,
    Option.bind_some, positive, four, word, range, HbRfEth.calcCrc, ne_eq, compared]
  by_cases zero : remainder 0x8005 0xd77f octets = 0
  · simp [zero]
  · simp [zero]

theorem recvPacket_short (order : HostOrder) {buffer octets : List UInt8}
    (positive : 0 < octets.length) (short : octets.length < 4) (fits : octets.length ≤ buffer.length) :
    recvPacket order true buffer (.datagram octets) =
      some (-eproto, octets ++ buffer.drop octets.length) := by
  have whole : min octets.length buffer.length = octets.length := Nat.min_eq_left fits
  have copied := memcpy_front fits
  simp [recvPacket, whole, copied, positive, short]

theorem recvPacket_long {order : HostOrder} {buffer octets after : List UInt8}
    (positive : 0 < octets.length) (fits : octets.length ≤ buffer.length)
    (accepted : recvPacket order true buffer (.datagram octets) =
      some ((octets.length : Int), after)) : 4 ≤ octets.length := by
  by_cases short : octets.length < 4
  · rw [recvPacket_short order positive short fits] at accepted
    have value : -eproto = (octets.length : Int) := congrArg Prod.fst (Option.some.inj accepted)
    unfold eproto at value
    omega
  · omega

/-- Whatever one of the three tests accepts, it rejects with these errors. -/
theorem damage_rejected {sent received : List UInt8} (damaged : Damaged sent received) :
    (∀ len : UInt16, sent.length = len.toNat → (HMFrame.tryParse sent len).isSome = true →
      HMFrame.tryParse received len = none) ∧
    ((Hm.tryParseFrame sent sent.length).isSome = true →
      Hm.tryParseFrame received received.length = none) ∧
    (∀ (order : HostOrder) (buffer buffer' after : List UInt8), sent.length ≤ buffer.length →
      sent.length ≤ buffer'.length →
      recvPacket order true buffer (.datagram sent) = some ((sent.length : Int), after) →
      ∃ after', recvPacket order true buffer' (.datagram received) = some (-eproto, after')) := by
  -- Each of the three accepts a remainder of zero only.
  refine ⟨?_, ?_, ?_⟩
  · intro len whole accepted
    obtain ⟨frame, parsed⟩ := Option.isSome_iff_exists.mp accepted
    obtain ⟨long, zero⟩ := tryParse_remainder whole parsed
    apply Option.eq_none_iff_forall_ne_some.mpr
    intro other reparsed
    have again := (tryParse_remainder (damaged.same.symm.trans whole) reparsed).2
    exact damaged_remainder damaged long zero again
  · intro accepted
    obtain ⟨frame, parsed⟩ := Option.isSome_iff_exists.mp accepted
    obtain ⟨long, zero⟩ := tryParseFrame_remainder parsed
    apply Option.eq_none_iff_forall_ne_some.mpr
    intro other reparsed
    exact damaged_remainder damaged long zero (tryParseFrame_remainder reparsed).2
  · intro order buffer buffer' after fits fits' accepted
    have long := recvPacket_long damaged.nonempty fits accepted
    have zero : remainder 0x8005 0xd77f sent = 0 := by
      rw [recvPacket_remainder order long fits] at accepted
      have value := congrArg Prod.fst (Option.some.inj accepted)
      by_contra other
      rw [if_neg other] at value
      unfold eproto at value
      omega
    have other := damaged_remainder damaged (by omega) zero
    rw [damaged.same] at long fits'
    refine ⟨received ++ buffer'.drop received.length, ?_⟩
    rw [recvPacket_remainder order long fits', if_neg other]

def identifyFrame : List UInt8 := HmWire.plain 0xfe 0 [1]

def turnedFrame : List UInt8 := identifyFrame.set 4 0x10

theorem damage_rejected_turned :
    (HMFrame.tryParse identifyFrame 8).isSome = true ∧ HMFrame.tryParse turnedFrame 8 = none ∧
      Hm.tryParseFrame turnedFrame 8 = none := by
  have damaged : Damaged identifyFrame turnedFrame :=
    ⟨rfl, by decide +kernel, .inr (by decide +kernel)⟩
  have accepted : (HMFrame.tryParse identifyFrame 8).isSome = true := by decide +kernel
  obtain ⟨first, second, -⟩ := damage_rejected damaged
  exact ⟨accepted, first 8 rfl accepted, second (by decide +kernel)⟩

end PiVccu.FrameChecksum
