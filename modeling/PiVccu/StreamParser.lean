import PiVccu.HmWire

/-!
`detect_radio_module/streamparser.cpp`: the byte-wise frame receiver. A call of
`append` returns the parser after it and the buffer handed to the processor, if
any; `none` is a store outside of the 2048-byte buffer.
-/

namespace PiVccu
open BigEndian ByteStuffing

inductive ParserState where
  | noData
  | receiveLengthHighByte
  | receiveLengthLowByte
  | receiveFrameData
  | frameComplete
deriving DecidableEq, Repr

structure StreamParser where
  buffer : List UInt8
  bufferPos : UInt16
  framePos : UInt16
  frameLength : UInt16
  state : ParserState
  isEscaped : Bool
  decodeEscaped : Bool
  sized : buffer.length = 2048

namespace StreamParser

/-- The constructor leaves the buffer, `_framePos` and `_frameLength` as the
memory had them. -/
def create (memory : StreamParser) (decodeEscaped : Bool) : StreamParser :=
  { memory with
    bufferPos := 0
    state := .noData
    isEscaped := false
    decodeEscaped := decodeEscaped }

def stored (parser : StreamParser) (chr : UInt8) : StreamParser :=
  { parser with
    buffer := parser.buffer.set parser.bufferPos.toNat chr
    bufferPos := parser.bufferPos + 1
    sized := List.length_set.trans parser.sized }

/-- The part of `append` behind the switch: the store, the full-buffer check and
the call of the processor. -/
def put (parser : StreamParser) (chr : UInt8) : Option (StreamParser × Option (List UInt8)) :=
  if parser.bufferPos.toNat < 2048 then
    let parser := parser.stored chr
    let state := if parser.bufferPos = 2048 then .frameComplete else parser.state
    if state = .frameComplete then
      some ({ parser with state := .noData }, some (parser.buffer.take parser.bufferPos.toNat))
    else some ({ parser with state := state }, none)
  else none

/-- The inner switch, for a byte that is neither a start nor an escape byte.
`value` is the byte as the length fields take it. -/
def receive (parser : StreamParser) (chr value : UInt8) :
    Option (StreamParser × Option (List UInt8)) :=
  match parser.state with
  | .noData | .frameComplete => some (parser, none)
  | .receiveLengthHighByte =>
      put { parser with
        frameLength := value.toUInt16 <<< 8
        state := .receiveLengthLowByte
        isEscaped := false } chr
  | .receiveLengthLowByte =>
      put { parser with
        frameLength := (parser.frameLength ||| value.toUInt16) + 2
        framePos := 0
        state := .receiveFrameData
        isEscaped := false } chr
  | .receiveFrameData =>
      put { parser with
        framePos := parser.framePos + 1
        state := if parser.framePos + 1 = parser.frameLength then .frameComplete
          else .receiveFrameData
        isEscaped := false } chr

def append (parser : StreamParser) (chr : UInt8) : Option (StreamParser × Option (List UInt8)) :=
  if chr = 0xfd then
    put { parser with bufferPos := 0, isEscaped := false, state := .receiveLengthHighByte } chr
  else if chr = 0xfc then
    if parser.decodeEscaped then some ({ parser with isEscaped := true }, none)
    else put { parser with isEscaped := true } chr
  else
    let chr := if parser.isEscaped && parser.decodeEscaped then chr ||| 0x80 else chr
    parser.receive chr (if parser.isEscaped then chr ||| 0x80 else chr)

/-- The byte-by-byte feed, with the buffers handed to the processor in order. -/
def appendAll (parser : StreamParser) : List UInt8 → Option (StreamParser × List (List UInt8))
  | [] => some (parser, [])
  | chr :: rest => do
      let first ← parser.append chr
      let others ← first.1.appendAll rest
      some (others.1, first.2.toList ++ others.2)

theorem appendAll_append (parser : StreamParser) (front back : List UInt8) :
    parser.appendAll (front ++ back) =
      (parser.appendAll front).bind fun first =>
        (first.1.appendAll back).map fun second => (second.1, first.2 ++ second.2) := by
  induction front generalizing parser with
  | nil => cases h : parser.appendAll back <;> simp [appendAll, h]
  | cons chr rest ih =>
      simp only [List.cons_append, appendAll, Option.bind_eq_bind]
      cases one : parser.append chr with
      | none => rfl
      | some first =>
          simp only [Option.bind_some, ih]
          cases many : first.1.appendAll rest with
          | none => rfl
          | some middle =>
              simp only [Option.bind_some]
              cases middle.1.appendAll back <;> simp

theorem appendAll_trans {parser middle final : StreamParser} {front back : List UInt8}
    {calls later : List (List UInt8)} (first : parser.appendAll front = some (middle, calls))
    (second : middle.appendAll back = some (final, later)) :
    parser.appendAll (front ++ back) = some (final, calls ++ later) := by
  rw [appendAll_append, first, Option.bind_some, second, Option.map_some]

structure Holds (parser : StreamParser) (got : List UInt8) : Prop where
  decoding : parser.decodeEscaped = true
  plain : parser.isEscaped = false
  position : parser.bufferPos.toNat = got.length
  content : parser.buffer.take got.length = got

/-- Where the receiver stands after `count` bytes of a frame with length field
`field`: behind the start byte and before the last byte of the frame. -/
inductive Expecting (parser : StreamParser) (field : UInt16) (count : Nat) : Prop where
  | high (counted : count = 1) (state : parser.state = .receiveLengthHighByte)
  | low (counted : count = 2) (state : parser.state = .receiveLengthLowByte)
      (length : parser.frameLength = (highByte field).toUInt16 <<< 8)
  | data (counted : count = parser.framePos.toNat + 3) (state : parser.state = .receiveFrameData)
      (length : parser.frameLength = field + 2)

theorem stored_content (parser : StreamParser) (got : List UInt8) (octet : UInt8)
    (position : parser.bufferPos.toNat = got.length) (content : parser.buffer.take got.length = got)
    (room : got.length < 2048) :
    (parser.stored octet).bufferPos.toNat = (got ++ [octet]).length ∧
      (parser.stored octet).buffer.take (got ++ [octet]).length = got ++ [octet] := by
  have inside : got.length < parser.buffer.length := by
    rw [parser.sized]
    exact room
  constructor
  · rw [List.length_append, List.length_singleton]
    simp only [stored, UInt16.toNat_add, position, UInt16.toNat_one]
    omega
  · rw [List.length_append, List.length_singleton]
    simp only [stored, position]
    rw [List.take_add_one, List.take_set_of_le (Nat.le_refl _), content]
    simp [inside]

theorem put_continues (parser : StreamParser) (octet : UInt8)
    (room : parser.bufferPos.toNat + 1 < 2048) (busy : parser.state ≠ .frameComplete) :
    parser.put octet = some (parser.stored octet, none) := by
  have inside : parser.bufferPos.toNat < 2048 := by omega
  have notFull : (parser.stored octet).bufferPos ≠ 2048 := by
    intro full
    have value := congrArg UInt16.toNat full
    simp only [stored, UInt16.toNat_add, UInt16.toNat_one] at value
    have two : (2048 : UInt16).toNat = 2048 := rfl
    omega
  have same : (parser.stored octet).state = parser.state := rfl
  simp only [put, inside, ↓reduceIte, notFull, same, busy]
  rw [← same]

theorem put_completes (parser : StreamParser) (got : List UInt8) (octet : UInt8)
    (position : parser.bufferPos.toNat = got.length) (content : parser.buffer.take got.length = got)
    (room : got.length < 2048) (complete : parser.state = .frameComplete) :
    ∃ next, parser.put octet = some (next, some (got ++ [octet])) ∧
      next.state = .noData ∧ next.decodeEscaped = parser.decodeEscaped := by
  have inside : parser.bufferPos.toNat < 2048 := by omega
  obtain ⟨newPosition, newContent⟩ := stored_content parser got octet position content room
  have same : (parser.stored octet).state = .frameComplete := complete
  refine ⟨{ parser.stored octet with state := .noData }, ?_, rfl, rfl⟩
  simp only [put, inside, ↓reduceIte, same, ite_self, newPosition, newContent]

theorem append_plain (parser : StreamParser) (octet : UInt8) (unescaped : parser.isEscaped = false)
    (plain : HmWire.escapeCode.reserved octet = false) :
    parser.append octet = parser.receive octet octet := by
  have ordinary : octet ≠ 0xfc ∧ octet ≠ 0xfd := by
    simpa [HmWire.escapeCode] using plain
  simp [append, ordinary.1, ordinary.2, unescaped]

theorem append_masked (parser : StreamParser) (octet : UInt8)
    (decoding : parser.decodeEscaped = true) (escaped : parser.isEscaped = true)
    (reserved : HmWire.escapeCode.reserved octet = true) :
    parser.append (octet &&& 0x7f) = parser.receive octet octet := by
  have special : octet = 0xfc ∨ octet = 0xfd := by
    simpa [HmWire.escapeCode] using reserved
  have notStart : octet &&& 0x7f ≠ 0xfd := by rcases special with rfl | rfl <;> decide
  have notEscape : octet &&& 0x7f ≠ 0xfc := by rcases special with rfl | rfl <;> decide
  have restored : (octet &&& 0x7f) ||| 0x80 = octet := by rcases special with rfl | rfl <;> decide
  have stable : octet ||| 0x80 = octet := by rcases special with rfl | rfl <;> decide
  simp [append, notStart, notEscape, escaped, decoding, restored, stable]

/-- The receiver takes the stuffed form of a byte as that byte: a pending escape
is forgotten by every state that is inside a frame. -/
theorem appendAll_stuffSymbol (parser : StreamParser) (octet : UInt8)
    (decoding : parser.decodeEscaped = true) (plain : parser.isEscaped = false)
    (inFrame : parser.state ≠ .noData) (busy : parser.state ≠ .frameComplete) :
    parser.appendAll (stuffSymbol HmWire.escapeCode octet) =
      (parser.receive octet octet).map fun result => (result.1, result.2.toList) := by
  cases hit : HmWire.escapeCode.reserved octet with
  | false =>
      simp only [stuffSymbol, hit, Bool.false_eq_true, ↓reduceIte, appendAll,
        append_plain parser octet plain hit, Option.bind_eq_bind]
      cases parser.receive octet octet <;> simp
  | true =>
      have pending : parser.append 0xfc = some ({ parser with isEscaped := true }, none) := by
        simp [append, decoding]
      have masked := append_masked { parser with isEscaped := true } octet decoding rfl hit
      have same : receive { parser with isEscaped := true } octet octet =
          parser.receive octet octet := by
        unfold receive
        cases state : parser.state with
        | noData => exact absurd state inFrame
        | frameComplete => exact absurd state busy
        | receiveLengthHighByte => rfl
        | receiveLengthLowByte => rfl
        | receiveFrameData => rfl
      rw [same] at masked
      change parser.appendAll (if _ then [0xfc, octet &&& 0x7f] else [octet]) = _
      simp only [hit, ↓reduceIte, appendAll, pending, Option.bind_eq_bind, Option.bind_some, masked]
      cases parser.receive octet octet <;> simp

theorem Expecting.inFrame {parser : StreamParser} {field : UInt16} {count : Nat}
    (expecting : Expecting parser field count) :
    parser.state ≠ .noData ∧ parser.state ≠ .frameComplete := by
  cases expecting with
  | high counted state => simp [state]
  | low counted state length => simp [state]
  | data counted state length => simp [state]

theorem put_holds (parser : StreamParser) (got : List UInt8) (octet : UInt8)
    (holds : Holds parser got) (room : got.length + 1 < 2048)
    (busy : parser.state ≠ .frameComplete) :
    parser.put octet = some (parser.stored octet, none) ∧
      Holds (parser.stored octet) (got ++ [octet]) := by
  obtain ⟨position, content⟩ :=
    stored_content parser got octet holds.position holds.content (by omega)
  refine ⟨put_continues parser octet (by rw [holds.position]; exact room) busy, ?_⟩
  exact ⟨holds.decoding, holds.plain, position, content⟩

theorem receive_continues (parser : StreamParser) (got : List UInt8) (field : UInt16) (octet : UInt8)
    (holds : Holds parser got) (expecting : Expecting parser field got.length)
    (high : got.length = 1 → octet = highByte field)
    (low : got.length = 2 → octet = lowByte field)
    (short : field.toNat + 5 ≤ 2048) (more : got.length + 1 < field.toNat + 5) :
    ∃ next, parser.receive octet octet = some (next, none) ∧ Holds next (got ++ [octet]) ∧
      Expecting next field (got ++ [octet]).length := by
  have room : got.length + 1 < 2048 := by omega
  have grown : (got ++ [octet]).length = got.length + 1 := by simp
  cases expecting with
  | high counted state =>
      let switched : StreamParser := { parser with
        frameLength := octet.toUInt16 <<< 8
        state := .receiveLengthLowByte
        isEscaped := false }
      have kept : Holds switched got := ⟨holds.decoding, rfl, holds.position, holds.content⟩
      obtain ⟨stored, holds⟩ := put_holds switched got octet kept room (by simp [switched])
      refine ⟨switched.stored octet, ?_, holds, .low (by omega) rfl ?_⟩
      · simpa only [receive, state] using stored
      · rw [← high counted]
        rfl
  | low counted state length =>
      let switched : StreamParser := { parser with
        frameLength := (parser.frameLength ||| octet.toUInt16) + 2
        framePos := 0
        state := .receiveFrameData
        isEscaped := false }
      have kept : Holds switched got := ⟨holds.decoding, rfl, holds.position, holds.content⟩
      obtain ⟨stored, holds⟩ := put_holds switched got octet kept room (by simp [switched])
      refine ⟨switched.stored octet, ?_, holds, .data (by rw [grown, counted]; rfl) rfl ?_⟩
      · simpa only [receive, state] using stored
      · have joined : parser.frameLength ||| octet.toUInt16 = field := by
          rw [length, low counted]
          exact join_split field
        change (parser.frameLength ||| octet.toUInt16) + 2 = field + 2
        rw [joined]
  | data counted state length =>
      -- More bytes follow, so that the counter does not reach the length here.
      have unfinished : parser.framePos + 1 ≠ parser.frameLength := by
        intro same
        have value := congrArg UInt16.toNat same
        have two : (2 : UInt16).toNat = 2 := rfl
        rw [length, UInt16.toNat_add, UInt16.toNat_add, UInt16.toNat_one, two] at value
        omega
      let switched : StreamParser := { parser with
        framePos := parser.framePos + 1
        state := .receiveFrameData
        isEscaped := false }
      have kept : Holds switched got := ⟨holds.decoding, rfl, holds.position, holds.content⟩
      obtain ⟨stored, holds⟩ := put_holds switched got octet kept room (by simp [switched])
      refine ⟨switched.stored octet, ?_, holds, .data ?_ rfl length⟩
      · simpa only [receive, state, unfinished, ↓reduceIte] using stored
      · change (got ++ [octet]).length = (parser.framePos + 1).toNat + 3
        rw [grown, UInt16.toNat_add, UInt16.toNat_one]
        omega

/-- The last byte completes the frame, also when it fills the buffer. -/
theorem receive_completes (parser : StreamParser) (got : List UInt8) (field : UInt16) (octet : UInt8)
    (holds : Holds parser got) (expecting : Expecting parser field got.length)
    (short : field.toNat + 5 ≤ 2048) (last : got.length + 1 = field.toNat + 5) :
    ∃ next, parser.receive octet octet = some (next, some (got ++ [octet])) ∧
      next.state = .noData ∧ next.decodeEscaped = true := by
  cases expecting with
  | high counted state => omega
  | low counted state length => omega
  | data counted state length =>
      have finished : parser.framePos + 1 = parser.frameLength := by
        apply UInt16.toNat_inj.mp
        have two : (2 : UInt16).toNat = 2 := rfl
        rw [length, UInt16.toNat_add, UInt16.toNat_add, UInt16.toNat_one, two]
        omega
      let switched : StreamParser := { parser with
        framePos := parser.framePos + 1
        state := .frameComplete
        isEscaped := false }
      obtain ⟨next, stored, state', decoding⟩ := put_completes switched got octet holds.position
        holds.content (by omega) rfl
      refine ⟨next, ?_, state', decoding.trans holds.decoding⟩
      simp only [receive, state]
      rw [if_pos finished]
      exact stored

-- Induction on the bytes still to come: the part of the frame already in the
-- buffer and the stuffed rest always make up the same frame.
theorem appendAll_rest (dst cnt : UInt8) (cmd : List UInt8) (short : cmd.length + 7 ≤ 2048)
    (todo : List UInt8) (got : List UInt8) (parser : StreamParser) (holds : Holds parser got)
    (expecting : Expecting parser (HmWire.lengthField cmd) got.length)
    (whole : got ++ todo = HmWire.plain dst cnt cmd) (pending : todo ≠ []) :
    ∃ next, parser.appendAll (stuff HmWire.escapeCode todo) =
        some (next, [HmWire.plain dst cnt cmd]) ∧
      next.state = .noData ∧ next.decodeEscaped = true := by
  have value : (HmWire.lengthField cmd).toNat = cmd.length + 2 := by
    rw [HmWire.lengthField, UInt16.toNat_ofNat']
    omega
  induction todo generalizing got parser with
  | nil => exact absurd rfl pending
  | cons octet todo ih =>
      have size := congrArg List.length whole
      rw [HmWire.plain_length, List.length_append, List.length_cons] at size
      have first := appendAll_stuffSymbol parser octet holds.decoding holds.plain
        expecting.inFrame.1 expecting.inFrame.2
      rw [stuff_cons]
      -- The last byte completes the frame; before it the field tells what a byte is.
      cases todo with
      | nil =>
          obtain ⟨next, received, state, decoding⟩ := receive_completes parser got
            (HmWire.lengthField cmd) octet holds expecting (by omega)
            (by simp only [List.length_nil] at size; omega)
          rw [received, Option.map_some] at first
          refine ⟨next, ?_, state, decoding⟩
          rw [stuff_nil, List.append_nil, first, ← whole]
          rfl
      | cons following todo =>
          have position : (HmWire.plain dst cnt cmd)[got.length]? = some octet := by
            rw [← whole]
            simp
          obtain ⟨next, received, held, expected⟩ := receive_continues parser got
            (HmWire.lengthField cmd) octet holds expecting
            (by
              intro counted
              rw [counted] at position
              simpa [HmWire.plain, HmWire.body, eq_comm] using position)
            (by
              intro counted
              rw [counted] at position
              simpa [HmWire.plain, HmWire.body, eq_comm] using position)
            (by omega) (by simp only [List.length_cons] at size; omega)
          rw [received, Option.map_some] at first
          obtain ⟨final, run, state, decoding⟩ := ih (got ++ [octet]) next held expected
            (by rw [← whole]; simp) (by simp)
          exact ⟨final, appendAll_trans first run, state, decoding⟩

theorem append_start (parser : StreamParser) (field : UInt16)
    (decoding : parser.decodeEscaped = true) :
    ∃ next, parser.append 0xfd = some (next, none) ∧ Holds next [0xfd] ∧
      Expecting next field 1 := by
  let switched : StreamParser := { parser with
    bufferPos := 0
    isEscaped := false
    state := .receiveLengthHighByte }
  have empty : Holds switched [] := ⟨decoding, rfl, rfl, rfl⟩
  obtain ⟨stored, holds⟩ := put_holds switched [] 0xfd empty (by decide) (by simp [switched])
  exact ⟨switched.stored 0xfd, stored, holds, .high rfl rfl⟩

/-- From every state in decode mode the escaped wire form is delivered as
exactly one buffer, the plain wire form. -/
theorem appendAll_escaped (parser : StreamParser) (dst cnt : UInt8) (cmd : List UInt8)
    (short : cmd.length + 7 ≤ 2048) (decoding : parser.decodeEscaped = true) :
    ∃ next, parser.appendAll (HmWire.escaped dst cnt cmd) =
        some (next, [HmWire.plain dst cnt cmd]) ∧
      next.state = .noData ∧ next.decodeEscaped = true := by
  obtain ⟨opened, started, holds, expecting⟩ :=
    append_start parser (HmWire.lengthField cmd) decoding
  obtain ⟨next, run, state, kept⟩ := appendAll_rest dst cnt cmd short
    (HmWire.body dst cnt cmd) [0xfd] opened holds expecting rfl (by simp [HmWire.body])
  refine ⟨next, ?_, state, kept⟩
  have one : parser.appendAll [0xfd] = some (opened, []) := by
    simp [appendAll, started]
  exact appendAll_trans one run

theorem appendAll_junk (parser : StreamParser) (junk : List UInt8) (clean : 0xfd ∉ junk)
    (idle : parser.state = .noData) (decoding : parser.decodeEscaped = true) :
    ∃ next, parser.appendAll junk = some (next, []) ∧
      next.state = .noData ∧ next.decodeEscaped = true := by
  induction junk generalizing parser with
  | nil => exact ⟨parser, rfl, idle, decoding⟩
  | cons chr rest ih =>
      obtain ⟨notStart, restClean⟩ := not_or.mp (List.mem_cons.not.mp clean)
      have skipped : ∃ next, parser.append chr = some (next, none) ∧ next.state = .noData ∧
          next.decodeEscaped = true := by
        by_cases escape : chr = 0xfc
        · exact ⟨{ parser with isEscaped := true }, by simp [append, escape, decoding], idle,
            decoding⟩
        · exact ⟨parser, by simp [append, Ne.symm notStart, escape, receive, idle], idle, decoding⟩
      obtain ⟨next, appended, state, kept⟩ := skipped
      obtain ⟨final, run, finalState, finalKept⟩ := ih next restClean state kept
      refine ⟨final, ?_, finalState, finalKept⟩
      simp [appendAll, appended, run]

def storable (stream : List UInt8) : Nat := stream.countP (· != 0xfc)

theorem put_cases {parser next : StreamParser} {chr : UInt8} {call : Option (List UInt8)}
    (result : parser.put chr = some (next, call)) :
    (∃ state, next = { parser.stored chr with state := state }) ∧
      (call = none ∨
        call = some ((parser.stored chr).buffer.take (parser.stored chr).bufferPos.toNat)) := by
  by_cases inside : parser.bufferPos.toNat < 2048
  · simp only [put, inside, ↓reduceIte] at result
    generalize (if (parser.stored chr).bufferPos = 2048 then ParserState.frameComplete
      else (parser.stored chr).state) = state at result
    by_cases complete : state = .frameComplete
    · simp only [complete, ↓reduceIte, Option.some.injEq, Prod.mk.injEq] at result
      exact ⟨⟨.noData, result.1.symm⟩, Or.inr result.2.symm⟩
    · simp only [complete, ↓reduceIte, Option.some.injEq, Prod.mk.injEq] at result
      exact ⟨⟨state, result.1.symm⟩, Or.inl result.2.symm⟩
  · simp [put, inside] at result

theorem put_bounded {parser next : StreamParser} {chr : UInt8} {call : Option (List UInt8)}
    (result : parser.put chr = some (next, call)) (limit : Nat)
    (position : parser.bufferPos.toNat < limit) (decoding : parser.decodeEscaped = true) :
    next.decodeEscaped = true ∧ next.bufferPos.toNat ≤ limit ∧
      ∀ delivered ∈ call, delivered.length ≤ limit := by
  have advanced : (parser.stored chr).bufferPos.toNat ≤ limit := by
    simp only [stored, UInt16.toNat_add, UInt16.toNat_one]
    omega
  obtain ⟨⟨state, rfl⟩, silent | delivers⟩ := put_cases result
  · rw [silent]
    exact ⟨decoding, advanced, nofun⟩
  · rw [delivers]
    refine ⟨decoding, advanced, ?_⟩
    rintro delivered ⟨⟩
    exact Nat.le_trans (List.length_take_le _ _) advanced

theorem receive_bounded {parser next : StreamParser} {chr value : UInt8}
    {call : Option (List UInt8)} (result : parser.receive chr value = some (next, call))
    (limit : Nat) (position : parser.bufferPos.toNat < limit)
    (decoding : parser.decodeEscaped = true) :
    next.decodeEscaped = true ∧ next.bufferPos.toNat ≤ limit ∧
      ∀ delivered ∈ call, delivered.length ≤ limit := by
  cases state : parser.state with
  | noData =>
      simp only [receive, state, Option.some.injEq, Prod.mk.injEq] at result
      obtain ⟨rfl, rfl⟩ := result
      exact ⟨decoding, Nat.le_of_lt position, nofun⟩
  | frameComplete =>
      simp only [receive, state, Option.some.injEq, Prod.mk.injEq] at result
      obtain ⟨rfl, rfl⟩ := result
      exact ⟨decoding, Nat.le_of_lt position, nofun⟩
  | receiveLengthHighByte =>
      simp only [receive, state] at result
      exact put_bounded result limit position decoding
  | receiveLengthLowByte =>
      simp only [receive, state] at result
      exact put_bounded result limit position decoding
  | receiveFrameData =>
      simp only [receive, state] at result
      exact put_bounded result limit position decoding

theorem append_bounded {parser next : StreamParser} {chr : UInt8} {call : Option (List UInt8)}
    (result : parser.append chr = some (next, call)) (limit : Nat)
    (position : parser.bufferPos.toNat ≤ limit) (decoding : parser.decodeEscaped = true) :
    next.decodeEscaped = true ∧ next.bufferPos.toNat ≤ limit + storable [chr] ∧
      ∀ delivered ∈ call, delivered.length ≤ limit + storable [chr] := by
  by_cases escape : chr = 0xfc
  · subst escape
    simp only [append, decoding, ↓reduceIte] at result
    cases result
    exact ⟨rfl, position, nofun⟩
  · have one : storable [chr] = 1 := by simp [storable, escape]
    rw [one]
    by_cases start : chr = 0xfd
    · simp only [append, start, ↓reduceIte] at result
      exact put_bounded result (limit + 1) (Nat.zero_lt_succ limit) decoding
    · simp only [append, start, escape, ↓reduceIte] at result
      exact receive_bounded result (limit + 1) (Nat.lt_succ_of_le position) decoding

theorem appendAll_bounded (stream : List UInt8) (parser : StreamParser) (limit : Nat)
    (decoding : parser.decodeEscaped = true) (position : parser.bufferPos.toNat ≤ limit)
    (next : StreamParser) (calls : List (List UInt8))
    (result : parser.appendAll stream = some (next, calls)) :
    ∀ delivered ∈ calls, delivered.length ≤ limit + storable stream := by
  induction stream generalizing parser limit calls with
  | nil =>
      simp only [appendAll, Option.some.injEq, Prod.mk.injEq] at result
      rw [← result.2]
      nofun
  | cons chr rest ih =>
      have split : storable (chr :: rest) = storable [chr] + storable rest := by
        simp [storable, List.countP_cons, Nat.add_comm]
      simp only [appendAll, Option.bind_eq_bind, Option.bind_eq_some_iff] at result
      obtain ⟨⟨middle, call⟩, appended, ⟨final, later⟩, run, same⟩ := result
      cases same
      obtain ⟨kept, advanced, first⟩ :=
        append_bounded appended limit position decoding
      intro delivered member
      rcases List.mem_append.mp member with now | after
      · have bound := first delivered (Option.mem_toList.mp now)
        omega
      · have bound := ih middle (limit + storable [chr]) kept advanced later run delivered after
        omega

theorem appendAll_decoding {stream : List UInt8} {parser next : StreamParser}
    {calls : List (List UInt8)} (result : parser.appendAll stream = some (next, calls))
    (decoding : parser.decodeEscaped = true) : next.decodeEscaped = true := by
  induction stream generalizing parser calls with
  | nil =>
      simp only [appendAll, Option.some.injEq, Prod.mk.injEq] at result
      rw [← result.1]
      exact decoding
  | cons chr rest ih =>
      simp only [appendAll, Option.bind_eq_bind, Option.bind_eq_some_iff] at result
      obtain ⟨⟨middle, call⟩, appended, ⟨final, later⟩, run, same⟩ := result
      cases same
      exact ih run (append_bounded appended _ (Nat.le_refl _) decoding).1

/-- A delivered buffer is no longer than what could be stored since a start
byte, the start byte included. -/
theorem appendAll_start_bounded (stream : List UInt8) (parser : StreamParser)
    (decoding : parser.decodeEscaped = true) (next : StreamParser) (calls : List (List UInt8))
    (result : parser.appendAll (0xfd :: stream) = some (next, calls)) :
    ∀ delivered ∈ calls, delivered.length ≤ 1 + storable stream := by
  obtain ⟨opened, started, holds, -⟩ := append_start parser 0 decoding
  simp only [appendAll, started, Option.bind_eq_bind, Option.bind_some,
    Option.bind_eq_some_iff] at result
  obtain ⟨⟨final, later⟩, run, same⟩ := result
  cases same
  have position : opened.bufferPos.toNat ≤ 1 := Nat.le_of_eq holds.position
  exact appendAll_bounded stream opened 1 holds.decoding position _ later run

end StreamParser
end PiVccu
