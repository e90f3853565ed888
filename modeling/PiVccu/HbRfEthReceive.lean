import PiVccu.FrameChecksum
import PiVccu.ReceivePath

/-!
Frames over HB-RF-ETH: the receive thread of `kernel/hb_rf_eth.c` on the receive path.
The buffer of the thread is never cleared, and what is left in it from one datagram to
the next does not matter.
-/

namespace PiVccu.HbRfEthReceive
open BigEndian ByteBuffer Crc16 FrameChecksum HbRfEth HbRfEthDatagram RawUartRx ReceivePath
  StreamParser Transition

def handed (order : HostOrder) (reception : Reception) : List UInt8 :=
  (recvThread order true (List.replicate bufferSize 0) reception).getD []

/-- `GENERIC_RAW_UART_RX_STATE_NONE` comes with every byte. -/
def rxStateNone : UInt8 := 0

def chars (order : HostOrder) (reception : Reception) : List (UInt8 × UInt8) :=
  (handed order reception).map (Prod.mk rxStateNone)

/-- The bytes of the command-7 datagrams among receptions, as the buffer of the thread
cuts them: a datagram that is not sealed, one with another command and a failed reception
carry nothing. -/
inductive Carries : List Reception → List UInt8 → Prop where
  | nil : Carries [] []
  | data {octets : List UInt8} {rest : List Reception} {bytes : List UInt8}
      (counter : UInt8) (payload : List UInt8)
      (arrived : octets.take bufferSize = sealed 7 counter payload) (others : Carries rest bytes) :
      Carries (.datagram octets :: rest) (payload ++ bytes)
  | control {octets : List UInt8} {rest : List Reception} {bytes : List UInt8}
      (cmd counter : UInt8) (payload : List UInt8) (other : cmd ≠ 7)
      (arrived : octets.take bufferSize = sealed cmd counter payload) (others : Carries rest bytes) :
      Carries (.datagram octets :: rest) bytes
  | unsealed {octets : List UInt8} {rest : List Reception} {bytes : List UInt8}
      (broken : ∀ cmd counter payload, octets.take bufferSize ≠ sealed cmd counter payload)
      (others : Carries rest bytes) : Carries (.datagram octets :: rest) bytes
  | failed (err : Nat) {rest : List Reception} {bytes : List UInt8}
      (others : Carries rest bytes) : Carries (.failed err :: rest) bytes

theorem remainder_sealed (cmd counter : UInt8) (payload : List UInt8) :
    remainder 0x8005 0xd77f (sealed cmd counter payload) = 0 :=
  (remainder_sealed_iff (by decide) 0xd77f _ _ _).mpr (join_split _)

theorem sealed_of_remainder {octets : List UInt8} (long : 4 ≤ octets.length)
    (zero : remainder 0x8005 0xd77f octets = 0) :
    ∃ cmd counter payload, octets = sealed cmd counter payload := by
  obtain ⟨cmd, counter, payload, high, low, rfl⟩ :
      ∃ cmd counter payload high low, octets = covered cmd counter payload ++ [high, low] := by
    rcases octets with _ | ⟨cmd, _ | ⟨counter, rest⟩⟩
    · cases long
    · simp at long
    · have size : (rest.drop (rest.length - 2)).length = 2 := by
        simp only [List.length_cons] at long
        rw [List.length_drop]
        omega
      obtain ⟨high, low, last⟩ := List.length_eq_two.mp size
      refine ⟨cmd, counter, rest.take (rest.length - 2), high, low, ?_⟩
      rw [covered, List.cons_append, List.cons_append, ← last, List.take_append_drop]
  have value : join high low = calcCrc (covered cmd counter payload) :=
    (remainder_sealed_iff (by decide) 0xd77f _ _ _).mp zero
  refine ⟨cmd, counter, payload, ?_⟩
  rw [sealed, ← value, highByte_join, lowByte_join]

theorem recvPacket_cut (order : HostOrder) (buffer octets : List UInt8) :
    recvPacket order true buffer (.datagram octets) =
      recvPacket order true buffer (.datagram (octets.take buffer.length)) := by
  have size : min (octets.take buffer.length).length buffer.length =
      min octets.length buffer.length := by
    rw [List.length_take]
    omega
  have cut : (octets.take buffer.length).take (min octets.length buffer.length) =
      octets.take (min octets.length buffer.length) := by
    rw [List.take_take]
    congr 1
    omega
  simp only [recvPacket, Bool.true_eq_false, ↓reduceIte, size, cut]

theorem recvThread_cut (order : HostOrder) (buffer octets : List UInt8) :
    recvThread order true buffer (.datagram octets) =
      recvThread order true buffer (.datagram (octets.take buffer.length)) := by
  rw [recvThread, recvPacket_cut, ← recvThread]

theorem recvThread_unsealed (order : HostOrder) {buffer octets : List UInt8}
    (fits : octets.length ≤ buffer.length)
    (broken : ∀ cmd counter payload, octets ≠ sealed cmd counter payload) :
    recvThread order true buffer (.datagram octets) = some [] := by
  have refused : ¬ (-eproto ≥ 4) := by decide
  by_cases long : 4 ≤ octets.length
  · have damaged : remainder 0x8005 0xd77f octets ≠ 0 := by
      intro zero
      obtain ⟨cmd, counter, payload, same⟩ := sealed_of_remainder long zero
      exact broken cmd counter payload same
    simp only [recvThread, recvPacket_remainder order long fits, if_neg damaged,
      Option.bind_eq_bind, Option.bind_some, refused, ↓reduceIte, Option.pure_def]
  · by_cases empty : octets = []
    · subst empty
      simp [recvThread, recvPacket, memcpy]
    · have positive : 0 < octets.length := List.length_pos_of_ne_nil empty
      simp only [recvThread, recvPacket_short order positive (by omega) fits, Option.bind_eq_bind,
        Option.bind_some, refused, ↓reduceIte, Option.pure_def]

theorem recvThread_failed (order : HostOrder) (buffer : List UInt8) (err : Nat) :
    recvThread order true buffer (.failed err) = some [] := by
  have refused : ¬ (-(err : Int) ≥ 4) := by omega
  simp only [recvThread, recvPacket, Bool.true_eq_false, ↓reduceIte, Option.bind_eq_bind,
    Option.bind_some, refused, Option.pure_def]

theorem sealed_fits {octets payload : List UInt8} {cmd counter : UInt8}
    (arrived : octets.take bufferSize = sealed cmd counter payload) :
    payload.length + 4 ≤ bufferSize := by
  rw [← sealed_length cmd counter, ← arrived, List.length_take]
  exact Nat.min_le_left _ _

theorem recvThread_arrived (order : HostOrder) {buffer octets payload : List UInt8}
    {cmd counter : UInt8} (sized : buffer.length = bufferSize)
    (arrived : octets.take bufferSize = sealed cmd counter payload) :
    recvThread order true buffer (.datagram octets) = some (if cmd = 7 then payload else []) := by
  rw [recvThread_cut, sized, arrived]
  exact recvThread_sealed order buffer cmd counter payload (sized ▸ sealed_fits arrived)

theorem recvThread_broken (order : HostOrder) {buffer octets : List UInt8}
    (sized : buffer.length = bufferSize)
    (broken : ∀ cmd counter payload, octets.take bufferSize ≠ sealed cmd counter payload) :
    recvThread order true buffer (.datagram octets) = some [] := by
  rw [recvThread_cut, sized]
  exact recvThread_unsealed order (by rw [List.length_take]; omega) broken

/-- What the buffer holds from earlier datagrams makes no difference, and the thread stays
inside it. -/
theorem recvThread_handed (order : HostOrder) {buffer : List UInt8}
    (sized : buffer.length = bufferSize) (reception : Reception) :
    recvThread order true buffer reception = some (handed order reception) := by
  have fresh : (List.replicate bufferSize (0 : UInt8)).length = bufferSize := List.length_replicate
  cases reception with
  | failed err => rw [handed, recvThread_failed, recvThread_failed, Option.getD_some]
  | datagram octets =>
      by_cases whole : ∃ cmd counter payload, octets.take bufferSize = sealed cmd counter payload
      · obtain ⟨cmd, counter, payload, arrived⟩ := whole
        rw [handed, recvThread_arrived order sized arrived, recvThread_arrived order fresh arrived,
          Option.getD_some]
      · have broken : ∀ cmd counter payload,
            octets.take bufferSize ≠ sealed cmd counter payload := by
          intro cmd counter payload same
          exact whole ⟨cmd, counter, payload, same⟩
        rw [handed, recvThread_broken order sized broken, recvThread_broken order fresh broken,
          Option.getD_some]

theorem handed_arrived (order : HostOrder) {octets payload : List UInt8} {cmd counter : UInt8}
    (arrived : octets.take bufferSize = sealed cmd counter payload) :
    handed order (.datagram octets) = if cmd = 7 then payload else [] := by
  rw [handed, recvThread_arrived order List.length_replicate arrived, Option.getD_some]

theorem handed_broken (order : HostOrder) {octets : List UInt8}
    (broken : ∀ cmd counter payload, octets.take bufferSize ≠ sealed cmd counter payload) :
    handed order (.datagram octets) = [] := by
  rw [handed, recvThread_broken order List.length_replicate broken, Option.getD_some]

theorem carries_iff (order : HostOrder) (receptions : List Reception) (bytes : List UInt8) :
    Carries receptions bytes ↔ receptions.flatMap (handed order) = bytes := by
  constructor
  · intro carries
    induction carries with
    | nil => rfl
    | data counter payload arrived others ih =>
        rw [List.flatMap_cons, ih, handed_arrived order arrived, if_pos rfl]
    | control cmd counter payload other arrived others ih =>
        rw [List.flatMap_cons, ih, handed_arrived order arrived, if_neg other, List.nil_append]
    | unsealed broken others ih =>
        rw [List.flatMap_cons, ih, handed_broken order broken, List.nil_append]
    | failed err others ih =>
        rw [List.flatMap_cons, ih, handed, recvThread_failed, Option.getD_some, List.nil_append]
  · rintro rfl
    induction receptions with
    | nil => exact .nil
    | cons reception rest ih =>
        rw [List.flatMap_cons]
        cases reception with
        | failed err =>
            rw [handed, recvThread_failed]
            exact .failed err ih
        | datagram octets =>
            by_cases whole :
                ∃ cmd counter payload, octets.take bufferSize = sealed cmd counter payload
            · obtain ⟨cmd, counter, payload, arrived⟩ := whole
              rw [handed_arrived order arrived]
              by_cases data : cmd = 7
              · subst data
                exact .data counter payload arrived ih
              · rw [if_neg data]
                exact .control cmd counter payload data arrived ih
            · have broken : ∀ cmd counter payload,
                  octets.take bufferSize ≠ sealed cmd counter payload := by
                intro cmd counter payload same
                exact whole ⟨cmd, counter, payload, same⟩
              rw [handed_broken order broken]
              exact .unsealed broken ih

theorem Carries.damaged {sent received : List UInt8} {rest : List Reception} {bytes : List UInt8}
    {cmd counter : UInt8} {payload : List UInt8} (whole : sent = sealed cmd counter payload)
    (fits : sent.length ≤ bufferSize) (damaged : Damaged sent received)
    (others : Carries rest bytes) : Carries (.datagram received :: rest) bytes := by
  refine .unsealed ?_ others
  intro cmd' counter' payload' same
  have long : 4 ≤ sent.length := by
    rw [whole, sealed_length]
    omega
  rw [List.take_of_length_le (by rw [← damaged.same]; exact fits)] at same
  refine damaged_remainder damaged (by omega) ?_ ?_
  · rw [whole]
    exact remainder_sealed cmd counter payload
  · rw [same]
    exact remainder_sealed cmd' counter' payload'

variable {Reader : Type} [DecidableEq Reader]

omit [DecidableEq Reader] in
theorem carried_eq (order : HostOrder) {path : Path Reception Reader} {bytes : List UInt8}
    (carries : Carries path.arrived bytes) : carried (chars order) path = bytes := by
  rw [← (carries_iff order path.arrived bytes).mp carries, carried, List.map_flatMap]
  congr 1
  funext reception
  rw [chars, List.map_map]
  exact List.map_id _

/-- Encoded frames that come as command-7 datagrams, however they are cut, between
keep-alives, damaged datagrams and failed receptions, with any number of readers: while no
character is refused, the parser has delivered the first of the frames, each once and as
it was sent, and all of them when nothing is underway any more. -/
theorem frames_over_eth (order : HostOrder) {path : Path Reception Reader}
    (reached : Reachable (ReceivePath.step (chars order)) Allowed Opened path)
    (kept : ∀ call ∈ path.side.calls, call.taken = true)
    {bytes : List UInt8} (carries : Carries path.arrived bytes)
    {sent : List FrameRoundTrip.Transmission} {stream ahead : List UInt8}
    (emitted : FrameRoundTrip.emit sent = some stream) (cut : bytes ++ ahead = stream)
    {parser : StreamParser} (decoding : parser.decodeEscaped = true) :
    ∃ next calls, parser.appendAll (readOut path) = some (next, calls) ∧
      calls <+: sent.map (fun one => one.frame.wire) ∧
      (∀ call ∈ calls, ∃ one ∈ sent,
        HMFrame.tryParse call (UInt16.ofNat call.length) = some one.frame) ∧
      (underway path = [] → ahead = [] → calls = sent.map fun one => one.frame.wire) :=
  frames_received reached kept emitted ((carried_eq order carries).symm ▸ cut) decoding

def allowedGuard (path : Path Reception Nat) : PathAct Reception Nat → Bool
  | .ring action => readsGuard path.side action
  | _ => true

theorem allowedGuard_sound (path : Path Reception Nat) (act : PathAct Reception Nat)
    (passed : allowedGuard path act = true) : Allowed path act := by
  cases act with
  | ring action => exact readsGuard_sound path.side action passed
  | arrive packet => trivial
  | char => trivial

def openedPath : Path Reception Nat := ⟨resetSide, [], []⟩

def identifyStream : List UInt8 := [0xfd, 0x00, 0x03, 0xfe, 0xfc, 0x7d, 0x01, 0x1a, 0x12, 0xfc, 0x7d]

/-- A keep-alive, the stream in two datagrams with a damaged one and an error between. -/
def identifyReceptions : List Reception :=
  [.datagram (sealed 2 1 []), .datagram (sealed 7 2 (identifyStream.take 5)),
    .datagram ((sealed 7 3 (identifyStream.drop 5)).set 3 0), .failed 11,
    .datagram (sealed 7 4 (identifyStream.drop 5))]

def passing (reception : Reception) : List (PathAct Reception Nat) :=
  .arrive reception ::
    (handed .littleEndian reception).flatMap fun _ => [.char, .ring .rxStore, .ring .rxAdvance]

def reading : List (PathAct Reception Nat) :=
  [.ring (.enter 0 64 false), .ring (.down 0), .ring (.test 0), .ring (.size 0),
    .ring (.copy 0 false), .ring (.advance 0), .ring (.leave 0)]

def identified : Option (Path Reception Nat) :=
  run (ReceivePath.step (chars .littleEndian)) allowedGuard openedPath
    (identifyReceptions.flatMap passing ++ reading)

theorem frames_over_eth_identify :
    ∃ path next, identified = some path ∧
      FrameRoundTrip.interruptedParser.appendAll (readOut path) =
        some (next, [FrameRoundTrip.identifyTransmission.frame.wire]) := by
  have evaluated : (identified.map fun path => (underway path, path.side.calls.all RxCall.taken,
      path.arrived.flatMap (handed .littleEndian))) = some ([], true, identifyStream) := by
    decide +kernel
  have emitted : FrameRoundTrip.emit [FrameRoundTrip.identifyTransmission] =
      some identifyStream := by decide +kernel
  obtain ⟨path, done, facts⟩ := Option.map_eq_some_iff.mp evaluated
  simp only [Prod.mk.injEq, List.all_eq_true] at facts
  obtain ⟨quiet, kept, same⟩ := facts
  have opened : Opened openedPath :=
    ⟨⟨List.length_replicate, rfl, rfl, rfl, fun _ => rfl, rfl, rfl, rfl, rfl, rfl⟩, rfl, rfl⟩
  have reached := run_reachable allowedGuard_sound _ (.start opened) done
  have decoding : FrameRoundTrip.interruptedParser.decodeEscaped = true := rfl
  obtain ⟨next, calls, ran, -, -, whole⟩ := frames_over_eth .littleEndian reached kept
    ((carries_iff .littleEndian _ _).mpr same) emitted (List.append_nil _) decoding
  rw [whole quiet rfl] at ran
  exact ⟨path, next, done, ran⟩

end PiVccu.HbRfEthReceive
