import PiVccu.FakeHmrfRead
import PiVccu.StreamParserFraming

/-!
A receiver that reads beginnings of answers of `kernel/fake_hmrf.c`, one behind the
other. The answers are not escaped as the receiver expects it and the ring may have
cut them off; the frames that it hands over are whole answers all the same.
-/

namespace PiVccu.AnswerStream
open BigEndian ByteStuffing FakeHmrf FakeHmrfRead FakeHmrfWrite StreamParser

/-- The command bytes of an answer that has no start byte in it. The first one is the
acknowledgement, which as a high byte announces more than any answer has. -/
structure Plain (cmd : List UInt8) : Prop where
  first : ∃ ack status rest, cmd = ack :: status :: rest ∧ ack ≠ 0 ∧ ack ≠ 0xff
  clean : 0xfd ∉ cmd
  short : cmd.length ≤ 68

theorem unescape_front {octets front : List UInt8} (clean : 0xfd ∉ front)
    (begins : front <+: tailStuff octets) : unescape false front <+: octets := by
  induction octets generalizing front with
  | nil =>
      rw [List.prefix_nil.mp begins]
      exact List.nil_prefix
  | cons octet rest ih =>
      rw [tailStuff] at begins
      split at begins
      · rename_i escaped
        have back : (octet &&& 0x7f) ≠ 0xfc ∧ (octet &&& 0x7f) ||| 0x80 = octet := by
          rcases escaped with rfl | ⟨rfl, -⟩
          · decide
          · decide
        rw [List.cons_append, List.cons_append, List.nil_append] at begins
        rcases front with _ | ⟨first, _ | ⟨second, front⟩⟩
        · exact List.nil_prefix
        · obtain ⟨rfl, -⟩ := List.cons_prefix_cons.mp begins
          exact List.nil_prefix
        · have clean' : 0xfd ∉ front := fun member =>
            clean (List.mem_cons_of_mem _ (List.mem_cons_of_mem _ member))
          obtain ⟨escape, begins⟩ := List.cons_prefix_cons.mp begins
          obtain ⟨masked, begins⟩ := List.cons_prefix_cons.mp begins
          rw [escape, masked, unescape, if_pos rfl, unescape, if_neg back.1, if_pos rfl, back.2]
          exact List.cons_prefix_cons.mpr ⟨rfl, ih clean' begins⟩
      · rename_i plain
        rw [List.singleton_append] at begins
        cases front with
        | nil => exact List.nil_prefix
        | cons first front =>
            obtain ⟨rfl, tail⟩ := List.cons_prefix_cons.mp begins
            rw [unescape, if_neg (fun escape => plain (.inl escape)), if_neg Bool.false_ne_true]
            exact List.cons_prefix_cons.mpr
              ⟨rfl, ih (fun member => clean (List.mem_cons_of_mem _ member)) tail⟩

theorem start_split {octets before tail : List UInt8}
    (begins : before ++ 0xfd :: tail <+: tailStuff octets) :
    ∃ front back, octets = front ++ 0xfd :: back ∧ tail <+: tailStuff back := by
  induction octets generalizing before with
  | nil => exact absurd (List.prefix_nil.mp begins) (by simp)
  | cons octet rest ih =>
      rw [tailStuff] at begins
      split at begins
      · rename_i escaped
        have masked : octet &&& 0x7f ≠ 0xfd := by
          rcases escaped with rfl | ⟨rfl, -⟩
          · decide
          · decide
        rw [List.cons_append, List.cons_append, List.nil_append] at begins
        rcases before with _ | ⟨first, _ | ⟨second, before⟩⟩
        · exact absurd (List.cons_prefix_cons.mp begins).1 (by decide)
        · obtain ⟨-, begins⟩ := List.cons_prefix_cons.mp begins
          exact absurd (List.cons_prefix_cons.mp begins).1 masked.symm
        · obtain ⟨-, begins⟩ := List.cons_prefix_cons.mp begins
          obtain ⟨-, begins⟩ := List.cons_prefix_cons.mp begins
          obtain ⟨front, back, rfl, found⟩ := ih begins
          exact ⟨octet :: front, back, rfl, found⟩
      · rw [List.singleton_append] at begins
        cases before with
        | nil =>
            obtain ⟨rfl, found⟩ := List.cons_prefix_cons.mp begins
            exact ⟨[], rest, rfl, found⟩
        | cons first before =>
            obtain ⟨-, later⟩ := List.cons_prefix_cons.mp begins
            obtain ⟨front, back, rfl, found⟩ := ih later
            exact ⟨octet :: front, back, rfl, found⟩

section Answer
variable {dst cnt : UInt8} {cmd : List UInt8}

theorem finished_long {buffer : List UInt8} (finished : Finished buffer)
    (marker : buffer.getD 1 0 ≠ 0xff) : buffer.length = min 2048 (announced buffer) := by
  rcases finished with length | ⟨last, rfl⟩
  · exact length
  · exact absurd rfl marker

theorem finished_whole (plain : Plain cmd) {got : List UInt8}
    (begins : got <+: HmWire.body dst cnt cmd) (finished : Finished (0xfd :: got)) :
    0xfd :: got = HmWire.plain dst cnt cmd := by
  have short := plain.short
  have field : (HmWire.lengthField cmd).toNat = cmd.length + 2 := by
    rw [HmWire.lengthField, UInt16.toNat_ofNat']
    omega
  have bound : got.length ≤ cmd.length + 6 := by
    have whole := begins.length_le
    rwa [HmWire.body_length] at whole
  rcases got with _ | ⟨high, _ | ⟨low, rest⟩⟩
  · have length := finished_long finished (by decide)
    simp [announced] at length
  · obtain ⟨rfl, -⟩ := List.cons_prefix_cons.mp begins
    rcases finished with length | ⟨last, shape⟩
    · simp only [announced, List.length_cons, List.length_nil] at length
      omega
    · exact absurd (congrArg List.length shape) (by simp)
  · obtain ⟨rfl, tail⟩ := List.cons_prefix_cons.mp begins
    obtain ⟨rfl, -⟩ := List.cons_prefix_cons.mp tail
    have marker : highByte (HmWire.lengthField cmd) ≠ 0xff := by
      intro same
      have value := congrArg UInt8.toNat same
      rw [highByte_toNat, field] at value
      have last : (0xff : UInt8).toNat = 255 := rfl
      omega
    have length := finished_long finished marker
    simp only [announced, List.getD_cons_succ, List.getD_cons_zero, highByte_toNat,
      lowByte_toNat, field] at length
    have full : (highByte (HmWire.lengthField cmd) :: lowByte (HmWire.lengthField cmd) ::
        rest).length = (HmWire.body dst cnt cmd).length := by
      rw [HmWire.body_length]
      simp only [List.length_cons] at length bound ⊢
      omega
    rw [HmWire.plain, begins.eq_of_length full]

theorem finished_inner (plain : Plain cmd) (addressed : dst ≠ 0xfd) {front back got : List UInt8}
    (split : HmWire.body dst cnt cmd = front ++ 0xfd :: back) (begins : got <+: back) :
    ¬ Finished (0xfd :: got) := by
  intro finished
  have short := plain.short
  obtain ⟨ack, status, others, shape, some, notFull⟩ := plain.first
  have ackSome : ack.toNat ≠ 0 := fun zero => some (UInt8.toNat_inj.mp zero)
  have field : (HmWire.lengthField cmd).toNat = cmd.length + 2 := by
    rw [HmWire.lengthField, UInt16.toNat_ofNat']
    omega
  have startCode : (0xfd : UInt8).toNat = 253 := rfl
  -- Fewer than three bytes behind the start byte are no frame.
  have few : back.length ≤ 1 → False := by
    intro few
    have bound := begins.length_le
    rcases finished with length | ⟨last, shape⟩
    · simp only [announced, List.length_cons] at length
      omega
    · rw [List.cons.injEq] at shape
      rw [shape.2] at bound
      simp only [List.length_cons, List.length_nil] at bound
      omega
  rcases front with _ | ⟨high, _ | ⟨low, _ | ⟨target, _ | ⟨counter, front⟩⟩⟩⟩
  · rw [List.nil_append, HmWire.body, List.cons.injEq] at split
    have value := congrArg UInt8.toNat split.1
    rw [highByte_toNat, field] at value
    omega
  · simp only [HmWire.body, List.cons_append, List.nil_append, List.cons.injEq] at split
    have value := congrArg UInt8.toNat split.2.1
    rw [lowByte_toNat, field] at value
    omega
  · simp only [HmWire.body, List.cons_append, List.nil_append, List.cons.injEq] at split
    exact addressed split.2.2.1
  · -- The counter is the start byte: the acknowledgement becomes the length.
    simp only [HmWire.body, List.cons_append, List.nil_append, List.cons.injEq] at split
    obtain ⟨-, -, -, -, rfl⟩ := split
    have bound := begins.length_le
    rw [List.length_append, HmWire.trailer_length] at bound
    rw [shape, List.cons_append] at begins
    cases got with
    | nil =>
        rcases finished with length | ⟨last, shape⟩
        · simp [announced] at length
        · exact absurd (congrArg List.length shape) (by simp)
    | cons first got =>
        obtain ⟨rfl, -⟩ := List.cons_prefix_cons.mp begins
        have length := finished_long finished notFull
        simp only [announced, List.getD_cons_succ, List.getD_cons_zero, List.length_cons]
          at length bound
        omega
  · simp only [HmWire.body, List.cons_append, List.cons.injEq] at split
    rcases List.append_eq_append_iff.mp split.2.2.2.2 with
      ⟨between, rfl, tail⟩ | ⟨between, same, tail⟩
    · have size := congrArg List.length tail
      simp only [HmWire.trailer_length, List.length_append, List.length_cons] at size
      exact few (by omega)
    · cases between with
      | nil =>
          have size := congrArg List.length tail
          simp only [HmWire.trailer_length, List.nil_append, List.length_cons] at size
          exact few (by omega)
      | cons first between =>
          obtain ⟨rfl, -⟩ := List.cons.inj tail
          exact plain.clean (by rw [same]; simp)

end Answer

/-- What is left in the ring of an answer: its beginning. -/
structure Piece where
  dst : UInt8
  cnt : UInt8
  cmd : List UInt8
  octets : List UInt8
  addressed : dst ≠ 0xfd
  plain : Plain cmd
  begins : octets <+: tailStuff (HmWire.plain dst cnt cmd)

theorem Piece.stream (piece : Piece) :
    piece.octets <+: 0xfd :: tailStuff (HmWire.body piece.dst piece.cnt piece.cmd) := by
  have begins := piece.begins
  rwa [HmWire.plain, tailStuff_start _ (by rw [HmWire.body_length]; omega)] at begins

theorem pieces_start {pieces : List Piece} {next : UInt8} {more : List UInt8}
    (stream : pieces.flatMap Piece.octets = next :: more) : next = 0xfd := by
  induction pieces with
  | nil => cases stream
  | cons piece pieces ih =>
      rw [List.flatMap_cons] at stream
      have start := piece.stream
      cases shape : piece.octets with
      | nil =>
          rw [shape, List.nil_append] at stream
          exact ih stream
      | cons octet octets =>
          rw [shape, List.cons_append, List.cons.injEq] at stream
          rw [shape] at start
          rw [← stream.1]
          exact (List.cons_prefix_cons.mp start).1

theorem start_inside {pieces : List Piece} {before tail rest : List UInt8} (clean : 0xfd ∉ tail)
    (stream : before ++ 0xfd :: (tail ++ rest) = pieces.flatMap Piece.octets) :
    ∃ piece ∈ pieces, ∃ front, front ++ 0xfd :: tail <+: piece.octets := by
  induction pieces generalizing before with
  | nil => exact absurd stream (by simp)
  | cons piece pieces ih =>
      rw [List.flatMap_cons] at stream
      rcases List.append_eq_append_iff.mp stream with ⟨between, first, behind⟩ | ⟨between, rfl, behind⟩
      · cases between with
        | nil =>
            obtain ⟨other, member, found⟩ := @ih [] behind
            exact ⟨other, List.mem_cons_of_mem _ member, found⟩
        | cons start between =>
            obtain ⟨rfl, split⟩ := List.cons.inj behind
            refine ⟨piece, List.mem_cons_self, before, ?_⟩
            rw [first]
            refine List.prefix_append_right_inj _ |>.mpr (List.cons_prefix_cons.mpr ⟨rfl, ?_⟩)
            rcases List.append_eq_append_iff.mp split with ⟨more, rfl, -⟩ | ⟨more, rfl, left⟩
            · exact List.prefix_append _ _
            · -- The next piece would begin inside the stretch.
              cases more with
              | nil => rw [List.append_nil]
              | cons next more =>
                  rw [pieces_start left] at clean
                  exact absurd (by simp) clean
      · obtain ⟨other, member, found⟩ := ih behind.symm
        exact ⟨other, List.mem_cons_of_mem _ member, found⟩

/-- Every frame that is handed over on the way through the pieces is the whole answer
that one of them is the beginning of. -/
theorem handsOver_answer {pieces : List Piece} {consumed rest buffer : List UInt8}
    (stream : consumed ++ rest = pieces.flatMap Piece.octets) (handed : HandsOver consumed buffer) :
    ∃ piece ∈ pieces, buffer = HmWire.plain piece.dst piece.cnt piece.cmd := by
  obtain ⟨tail, behind, rfl, finished⟩ := handed
  obtain ⟨before, rfl, clean⟩ := (behindStart_eq_some_iff consumed tail).mp behind
  rw [List.append_assoc, List.cons_append] at stream
  obtain ⟨piece, member, front, begins⟩ := start_inside clean stream
  refine ⟨piece, member, ?_⟩
  have inside := begins.trans piece.stream
  cases front with
  | nil =>
      obtain ⟨-, inside⟩ := List.cons_prefix_cons.mp inside
      exact finished_whole piece.plain (unescape_front clean inside) finished
  | cons start front =>
      obtain ⟨-, inside⟩ := List.cons_prefix_cons.mp inside
      obtain ⟨inner, back, split, tail⟩ := start_split inside
      exact absurd finished
        (finished_inner piece.plain piece.addressed split (unescape_front clean tail))

end PiVccu.AnswerStream
