import Mathlib.Data.List.Induction
import PiVccu.StreamParserBounds

/-!
The framing of `detect_radio_module/streamparser.cpp` in decode mode, for every byte
stream. What the parser has received follows from the bytes behind the last start
byte alone.
-/

namespace PiVccu.StreamParser
open BigEndian ByteStuffing

def behindStart (stream : List UInt8) : Option (List UInt8) :=
  stream.foldl (fun behind chr => if chr = 0xfd then some [] else behind.map (· ++ [chr])) none

/-- An escape byte, however often it is repeated, marks the byte behind it. -/
def unescape (marked : Bool) : List UInt8 → List UInt8
  | [] => []
  | chr :: rest =>
      if chr = 0xfc then unescape true rest
      else (if marked then chr ||| 0x80 else chr) :: unescape false rest

def marks (marked : Bool) : List UInt8 → Bool
  | [] => marked
  | chr :: rest => marks (chr = 0xfc) rest

theorem behindStart_append (stream : List UInt8) (chr : UInt8) :
    behindStart (stream ++ [chr]) =
      if chr = 0xfd then some [] else (behindStart stream).map (· ++ [chr]) := by
  rw [behindStart, List.foldl_append]
  rfl

theorem behindStart_eq_some_iff (stream tail : List UInt8) :
    behindStart stream = some tail ↔
      ∃ before, stream = before ++ 0xfd :: tail ∧ 0xfd ∉ tail := by
  induction stream using List.reverseRecOn generalizing tail with
  | nil => simp [behindStart]
  | append_singleton stream chr ih =>
      rw [behindStart_append]
      by_cases start : chr = 0xfd
      · subst start
        rw [if_pos rfl, Option.some.injEq]
        constructor
        · rintro rfl
          exact ⟨stream, rfl, by simp⟩
        · rintro ⟨before, shape, clean⟩
          rcases List.eq_nil_or_concat tail with rfl | ⟨front, last, rfl⟩
          · rfl
          · rw [List.concat_eq_append, ← List.cons_append, ← List.append_assoc] at shape
            obtain ⟨-, same⟩ := List.append_inj' shape rfl
            cases same
            simp [List.concat_eq_append] at clean
      · rw [if_neg start, Option.map_eq_some_iff]
        constructor
        · rintro ⟨front, found, rfl⟩
          obtain ⟨before, rfl, clean⟩ := (ih front).mp found
          refine ⟨before, by simp, ?_⟩
          simp [clean, Ne.symm start]
        · rintro ⟨before, shape, clean⟩
          rcases List.eq_nil_or_concat tail with rfl | ⟨front, last, rfl⟩
          · obtain ⟨-, same⟩ := List.append_inj' shape rfl
            cases same
            exact absurd rfl start
          · rw [List.concat_eq_append, ← List.cons_append, ← List.append_assoc] at shape
            obtain ⟨whole, same⟩ := List.append_inj' shape rfl
            cases same
            rw [List.concat_eq_append] at clean ⊢
            exact ⟨front, (ih front).mpr ⟨before, whole,
              fun member => clean (List.mem_append_left _ member)⟩, rfl⟩

theorem marks_append (marked : Bool) (stretch : List UInt8) (chr : UInt8) :
    marks marked (stretch ++ [chr]) = decide (chr = 0xfc) := by
  induction stretch generalizing marked with
  | nil => rfl
  | cons first rest ih => exact ih _

theorem unescape_append (marked : Bool) (stretch : List UInt8) (chr : UInt8) :
    unescape marked (stretch ++ [chr]) =
      if chr = 0xfc then unescape marked stretch
      else unescape marked stretch ++ [if marks marked stretch then chr ||| 0x80 else chr] := by
  induction stretch generalizing marked with
  | nil =>
      by_cases last : chr = 0xfc
      · simp [unescape, last]
      · simp only [List.nil_append, unescape, last, ↓reduceIte]
        rfl
  | cons first rest ih =>
      rw [List.cons_append, unescape, unescape, marks]
      by_cases escape : first = 0xfc
      · simp only [escape, ↓reduceIte, decide_true]
        exact ih true
      · simp only [escape, ↓reduceIte, decide_false, ih false]
        by_cases last : chr = 0xfc
        · simp [last]
        · simp [last]

theorem unescape_stuff (octets : List UInt8) :
    unescape false (stuff HmWire.escapeCode octets) = octets := by
  induction octets with
  | nil => rfl
  | cons octet rest ih =>
      cases hit : HmWire.escapeCode.reserved octet with
      | false =>
          have ordinary : octet ≠ 0xfc := by
            rintro rfl
            cases hit
          simp [stuff_plain _ _ _ hit, unescape, ordinary, ih]
      | true =>
          have restored := HmWire.escapeCode.unmask_mask octet hit
          have plain := HmWire.escapeCode.mask_plain octet hit
          have ordinary : HmWire.escapeCode.mask octet ≠ 0xfc := by
            intro same
            rw [same] at plain
            cases plain
          have marked : HmWire.escapeCode.mask octet ||| 0x80 = octet := restored
          rw [stuff_reserved _ _ _ hit, show HmWire.escapeCode.escape = 0xfc from rfl, unescape,
            if_pos rfl, unescape, if_neg ordinary, if_pos rfl, marked, ih]

def announced (buffer : List UInt8) : Nat :=
  5 + 256 * (buffer.getD 1 0).toNat + (buffer.getD 2 0).toNat

/-- What the processor is to get: the frame, cut off at the size of the buffer. -/
structure Declared (stream buffer : List UInt8) : Prop where
  start : buffer.head? = some 0xfd
  length : buffer.length = min 2048 (announced buffer)
  content : ∃ tail, behindStart stream = some tail ∧ buffer = 0xfd :: unescape false tail

/-- Where the receiver stands with the bytes `got` of a frame. With the length field
0xffff `_frameLength` has wrapped to 1, with 0xfffe to 0, which is never reached. -/
inductive Stage (parser : StreamParser) : List UInt8 → Prop where
  | high (state : parser.state = .receiveLengthHighByte) : Stage parser [0xfd]
  | low (high : UInt8) (state : parser.state = .receiveLengthLowByte)
      (length : parser.frameLength = high.toUInt16 <<< 8) : Stage parser [0xfd, high]
  | data (high low : UInt8) (rest : List UInt8) (state : parser.state = .receiveFrameData)
      (length : parser.frameLength = join high low + 2)
      (position : parser.framePos.toNat = rest.length)
      (pending : rest.length < parser.frameLength.toNat ∨ parser.frameLength.toNat = 0) :
      Stage parser (0xfd :: high :: low :: rest)

theorem Stage.escape {parser : StreamParser} {got : List UInt8} (stage : Stage parser got) :
    Stage { parser with isEscaped := true } got := by
  cases stage with
  | high state => exact .high state
  | low high state length => exact .low high state length
  | data high low rest state length position pending =>
      exact .data high low rest state length position pending

structure Receiving (parser : StreamParser) (got : List UInt8) : Prop where
  position : parser.bufferPos.toNat = got.length
  content : parser.buffer.take got.length = got
  room : got.length < 2048
  stage : Stage parser got

theorem put_step (parser : StreamParser) (got : List UInt8) (octet : UInt8)
    (position : parser.bufferPos.toNat = got.length)
    (content : parser.buffer.take got.length = got) (room : got.length < 2048) :
    (parser.state = .frameComplete ∨ got.length + 1 = 2048) ∧
        (∃ next, parser.put octet = some (next, some (got ++ [octet])) ∧ next.state = .noData ∧
          next.decodeEscaped = parser.decodeEscaped) ∨
      parser.state ≠ .frameComplete ∧ (got ++ [octet]).length < 2048 ∧
        parser.put octet = some (parser.stored octet, none) ∧
        (parser.stored octet).bufferPos.toNat = (got ++ [octet]).length ∧
        (parser.stored octet).buffer.take (got ++ [octet]).length = got ++ [octet] := by
  obtain ⟨advanced, kept⟩ := stored_content parser got octet position content room
  have longer : (got ++ [octet]).length = got.length + 1 := by simp
  by_cases complete : parser.state = .frameComplete
  · exact .inl ⟨.inl complete, put_completes parser got octet position content room complete⟩
  · by_cases full : got.length + 1 = 2048
    · refine .inl ⟨.inr full, { parser.stored octet with state := .noData }, ?_, rfl, rfl⟩
      have inside : parser.bufferPos.toNat < 2048 := by omega
      have last : (parser.stored octet).bufferPos = 2048 :=
        UInt16.toNat_inj.mp (advanced.trans (longer.trans full))
      rw [put, if_pos inside]
      simp only [last, ↓reduceIte]
      rw [show UInt16.toNat 2048 = (got ++ [octet]).length by rw [longer, full]; rfl, kept]
    · exact .inr ⟨complete, by omega, put_continues parser octet (by omega) complete, advanced, kept⟩

section Step
variable {parser : StreamParser} {got : List UInt8}

/-- A frame as it is handed over: of the announced length, or the four bytes that the
length field 0xffff leads to. -/
def Finished (buffer : List UInt8) : Prop :=
  buffer.length = min 2048 (announced buffer) ∨ ∃ last, buffer = [0xfd, 0xff, 0xff, last]

theorem frameLength_toNat (high low : UInt8) :
    (join high low + 2).toNat = (256 * high.toNat + low.toNat + 2) % 2 ^ 16 := by
  rw [UInt16.toNat_add, join_toNat, Nat.mul_comm]
  rfl

theorem data_finished {high low octet : UInt8} {rest : List UInt8}
    (pending : rest.length < (join high low + 2).toNat ∨ (join high low + 2).toNat = 0)
    (beyond : rest.length + 1 = (join high low + 2).toNat ∨ rest.length + 4 = 2048)
    (room : rest.length + 3 < 2048) : Finished (0xfd :: high :: low :: rest ++ [octet]) := by
  have highBound := high.toNat_lt
  have lowBound := low.toNat_lt
  rw [frameLength_toNat] at pending beyond
  have size : (0xfd :: high :: low :: rest ++ [octet]).length = rest.length + 4 := by simp
  have sum : announced (0xfd :: high :: low :: rest ++ [octet]) =
      5 + 256 * high.toNat + low.toNat := rfl
  -- The field 0xffff alone leaves a counter that is reached too early.
  by_cases wraps : 256 * high.toNat + low.toNat = 65535
  · rcases beyond with complete | full
    · have empty : rest = [] := List.eq_nil_of_length_eq_zero (by omega)
      have top : high = 0xff := UInt8.toNat_inj.mp (show high.toNat = 255 by omega)
      have bottom : low = 0xff := UInt8.toNat_inj.mp (show low.toNat = 255 by omega)
      exact .inr ⟨octet, by rw [empty, top, bottom]; rfl⟩
    · omega
  · left
    rw [size, sum]
    omega

theorem receive_step (octet : UInt8) (receiving : Receiving parser got) :
    (∃ next, parser.receive octet octet = some (next, none) ∧ Receiving next (got ++ [octet]) ∧
        next.isEscaped = false ∧ next.decodeEscaped = parser.decodeEscaped) ∨
      ∃ next, parser.receive octet octet = some (next, some (got ++ [octet])) ∧
        next.state = .noData ∧ next.decodeEscaped = parser.decodeEscaped ∧ 3 ≤ got.length ∧
        Finished (got ++ [octet]) := by
  obtain ⟨position, content, room, stage⟩ := receiving
  cases stage with
  | high state =>
      let switched : StreamParser := { parser with
        frameLength := octet.toUInt16 <<< 8
        state := .receiveLengthLowByte
        isEscaped := false }
      rcases put_step switched _ octet position content room with
        ⟨ended | full, -⟩ | ⟨-, room, put, position, content⟩
      · cases ended
      · cases full
      · refine .inl ⟨switched.stored octet, ?_, ⟨position, content, room, .low octet rfl rfl⟩, rfl,
          rfl⟩
        rw [receive, state]
        exact put
  | low high state length =>
      let switched : StreamParser := { parser with
        frameLength := (parser.frameLength ||| octet.toUInt16) + 2
        framePos := 0
        state := .receiveFrameData
        isEscaped := false }
      rcases put_step switched _ octet position content room with
        ⟨ended | full, -⟩ | ⟨-, room, put, position, content⟩
      · cases ended
      · cases full
      · refine .inl ⟨switched.stored octet, ?_, ⟨position, content, room,
          .data high octet [] rfl ?_ rfl ?_⟩, rfl, rfl⟩
        · rw [receive, state]
          exact put
        · change (parser.frameLength ||| octet.toUInt16) + 2 = _
          rw [length]
          rfl
        · exact (Nat.eq_zero_or_pos _).symm
  | data high low rest state length counted pending =>
      let switched : StreamParser := { parser with
        framePos := parser.framePos + 1
        state := if parser.framePos + 1 = parser.frameLength then .frameComplete
          else .receiveFrameData
        isEscaped := false }
      have size : (0xfd :: high :: low :: rest).length = rest.length + 3 := rfl
      have next : (parser.framePos + 1).toNat = rest.length + 1 := by
        rw [UInt16.toNat_add, counted, UInt16.toNat_one]
        omega
      have complete : switched.state = .frameComplete ↔
          rest.length + 1 = parser.frameLength.toNat := by
        rw [← next, UInt16.toNat_inj]
        change (if parser.framePos + 1 = parser.frameLength then ParserState.frameComplete
          else .receiveFrameData) = .frameComplete ↔ _
        split
        · rename_i ended
          exact iff_of_true rfl ended
        · rename_i going
          refine iff_of_false ?_ going
          intro same
          cases same
      rcases put_step switched _ octet position content room with
        ⟨beyond, final, put, idle, decoding⟩ | ⟨busy, room, put, position, content⟩
      · refine .inr ⟨final, ?_, idle, decoding, by omega, ?_⟩
        · rw [receive, state]
          exact put
        · rw [complete] at beyond
          rw [length] at pending beyond
          exact data_finished pending beyond (by omega)
      · rw [ne_eq, complete] at busy
        refine .inl ⟨switched.stored octet, ?_, ⟨position, content, room,
          .data high low (rest ++ [octet]) ?_ length ?_ ?_⟩, rfl, rfl⟩
        · rw [receive, state]
          exact put
        · change (if parser.framePos + 1 = parser.frameLength then ParserState.frameComplete
            else .receiveFrameData) = .receiveFrameData
          rw [if_neg]
          rw [← UInt16.toNat_inj, next]
          exact busy
        · change (parser.framePos + 1).toNat = _
          rw [next, List.length_append, List.length_singleton]
        · change _ < parser.frameLength.toNat ∨ parser.frameLength.toNat = 0
          rw [List.length_append, List.length_singleton]
          omega

end Step

/-- The state behind a stream, from its last stretch: outside of a frame there was no
start byte yet, or the frame of the last one has been handed over. -/
structure Tracks (parser : StreamParser) (stream : List UInt8) : Prop where
  decoding : parser.decodeEscaped = true
  outside : behindStart stream = none → parser.state = .noData
  inside : ∀ tail, behindStart stream = some tail →
    parser.state = .noData ∧ 3 ≤ (unescape false tail).length ∨
      Receiving parser (0xfd :: unescape false tail) ∧ parser.isEscaped = marks false tail

theorem append_ordinary (parser : StreamParser) (decoding : parser.decodeEscaped = true)
    {chr : UInt8} (notStart : chr ≠ 0xfd) (notEscape : chr ≠ 0xfc) :
    parser.append chr = parser.receive (if parser.isEscaped then chr ||| 0x80 else chr)
      (if parser.isEscaped then chr ||| 0x80 else chr) := by
  rw [append, if_neg notStart, if_neg notEscape, decoding, Bool.and_true]
  cases parser.isEscaped with
  | false => rfl
  | true =>
      have twice : chr ||| 0x80 ||| 0x80 = chr ||| 0x80 := by rw [UInt8.or_assoc, UInt8.or_self]
      simp only [↓reduceIte, twice]

theorem idle_ignores {parser : StreamParser} (idle : parser.state = .noData) (octet : UInt8) :
    parser.receive octet octet = some (parser, none) := by
  rw [receive, idle]

def HandsOver (stream buffer : List UInt8) : Prop :=
  ∃ tail, behindStart stream = some tail ∧ buffer = 0xfd :: unescape false tail ∧ Finished buffer

theorem append_tracks {parser : StreamParser} {stream : List UInt8} (chr : UInt8)
    (tracks : Tracks parser stream) :
    ∃ next call, parser.append chr = some (next, call) ∧ Tracks next (stream ++ [chr]) ∧
      ∀ buffer ∈ call, HandsOver (stream ++ [chr]) buffer := by
  have behind := behindStart_append stream chr
  have silent : ∀ buffer ∈ (none : Option (List UInt8)), HandsOver (stream ++ [chr]) buffer := by
    intro buffer member
    cases member
  -- A start byte opens a new stretch, wherever the receiver stands.
  by_cases start : chr = 0xfd
  · rw [if_pos start] at behind
    let switched : StreamParser := { parser with
      bufferPos := 0
      isEscaped := false
      state := .receiveLengthHighByte }
    rcases put_step switched [] 0xfd rfl rfl (by decide) with
      ⟨ended | full, -⟩ | ⟨-, room, put, position, content⟩
    · cases ended
    · cases full
    · refine ⟨switched.stored 0xfd, none, ?_, ⟨tracks.decoding, ?_, ?_⟩, silent⟩
      · rw [start, append, if_pos rfl]
        exact put
      · intro outside
        rw [behind] at outside
        cases outside
      · intro tail found
        cases behind.symm.trans found
        exact .inr ⟨⟨position, content, room, .high rfl⟩, rfl⟩
  · rw [if_neg start] at behind
    -- An escape byte is no part of the unescaped stretch.
    by_cases escape : chr = 0xfc
    · refine ⟨{ parser with isEscaped := true }, none, ?_, ⟨tracks.decoding, ?_, ?_⟩, silent⟩
      · rw [append, if_neg start, if_pos escape, if_pos tracks.decoding]
      · intro none
        rw [behind, Option.map_eq_none_iff] at none
        exact tracks.outside none
      · intro tail found
        rw [behind, Option.map_eq_some_iff] at found
        obtain ⟨front, before, rfl⟩ := found
        rw [unescape_append, if_pos escape, marks_append, decide_eq_true escape]
        rcases tracks.inside front before with idle | ⟨receiving, -⟩
        · exact .inl idle
        · exact .inr ⟨⟨receiving.position, receiving.content, receiving.room,
            receiving.stage.escape⟩, rfl⟩
    · rw [append_ordinary parser tracks.decoding start escape]
      cases before : behindStart stream with
      | none =>
          -- Nothing is taken before the first start byte.
          have idle := tracks.outside before
          rw [before, Option.map_none] at behind
          refine ⟨parser, none, idle_ignores idle _, ⟨tracks.decoding, fun _ => idle, ?_⟩, silent⟩
          intro tail found
          rw [behind] at found
          cases found
      | some front =>
          rw [before, Option.map_some] at behind
          have decoded := unescape_append false front chr
          have unmarked := marks_append false front chr
          rw [if_neg escape] at decoded
          rw [decide_eq_false escape] at unmarked
          rcases tracks.inside front before with ⟨idle, long⟩ | ⟨receiving, escaped⟩
          · refine ⟨parser, none, idle_ignores idle _, ⟨tracks.decoding, fun _ => idle, ?_⟩, silent⟩
            intro tail found
            cases behind.symm.trans found
            rw [decoded, List.length_append]
            exact .inl ⟨idle, by omega⟩
          · rw [escaped]
            rcases receive_step (if marks false front then chr ||| 0x80 else chr) receiving with
              ⟨next, received, later, plain, mode⟩ | ⟨next, received, idle, mode, long, finished⟩
            · refine ⟨next, none, received, ⟨mode.trans tracks.decoding, ?_, ?_⟩, silent⟩
              · intro outside
                rw [behind] at outside
                cases outside
              · intro tail found
                cases behind.symm.trans found
                rw [decoded, unmarked]
                exact .inr ⟨later, plain⟩
            · refine ⟨next, _, received, ⟨mode.trans tracks.decoding, fun _ => idle, ?_⟩, ?_⟩
              · intro tail found
                cases behind.symm.trans found
                rw [decoded, List.length_append]
                rw [List.length_cons] at long
                exact .inl ⟨idle, by rw [List.length_singleton]; omega⟩
              · rintro buffer ⟨⟩
                refine ⟨front ++ [chr], behind, ?_, finished⟩
                rw [decoded]
                rfl

/-- The run over a stream: every call hands over what the stream up to it says. -/
theorem appendAll_tracks {parser : StreamParser} {stream : List UInt8} (more : List UInt8)
    (tracks : Tracks parser stream) :
    ∃ next calls, parser.appendAll more = some (next, calls) ∧ Tracks next (stream ++ more) := by
  induction more generalizing parser stream with
  | nil => exact ⟨parser, [], rfl, by rwa [List.append_nil]⟩
  | cons chr rest ih =>
      obtain ⟨next, call, appended, kept, -⟩ := append_tracks chr tracks
      obtain ⟨final, calls, ran, whole⟩ := ih kept
      refine ⟨final, call.toList ++ calls, ?_, ?_⟩
      · rw [appendAll, appended]
        simp only [Option.bind_eq_bind, Option.bind_some, ran]
      · rwa [List.append_assoc, List.singleton_append] at whole

theorem create_tracks (memory : StreamParser) : Tracks (create memory true) [] :=
  ⟨rfl, fun _ => rfl, nofun⟩

def Delivers (memory : StreamParser) (stream : List UInt8) : Prop :=
  (∃ final, (create memory true).appendAll stream = some final) ∧
    ∀ front chr back parser calls next buffer, stream = front ++ chr :: back →
      (create memory true).appendAll front = some (parser, calls) →
      parser.append chr = some (next, some buffer) → Declared (front ++ [chr]) buffer

/-- A frame of the stream whose length field is 0xffff has come to its fourth byte. -/
def WrapsAt (front : List UInt8) : Prop :=
  ∃ tail last, behindStart front = some tail ∧ unescape false tail = [0xff, 0xff, last]

theorem HandsOver.declared {stream buffer : List UInt8} (handed : HandsOver stream buffer)
    (narrow : ¬ WrapsAt stream) : Declared stream buffer := by
  obtain ⟨tail, found, rfl, finished⟩ := handed
  rcases finished with length | ⟨last, short⟩
  · exact ⟨rfl, length, tail, found, rfl⟩
  · exact absurd ⟨tail, last, found, (List.cons.inj short).2⟩ narrow

theorem wrap_byte {tail : List UInt8} {last : UInt8}
    (wraps : unescape false tail = [0xff, 0xff, last]) :
    ∃ front chr back, tail = front ++ chr :: back ∧ chr ≠ 0xfc ∧
      unescape false front = [0xff, 0xff] := by
  induction tail using List.reverseRecOn with
  | nil => cases wraps
  | append_singleton front chr ih =>
      rw [unescape_append] at wraps
      by_cases escape : chr = 0xfc
      · rw [if_pos escape] at wraps
        obtain ⟨before, found, back, rfl, ordinary, two⟩ := ih wraps
        exact ⟨before, found, back ++ [chr], by simp, ordinary, two⟩
      · rw [if_neg escape] at wraps
        have two := (List.append_inj' (wraps.trans
          (show [0xff, 0xff, last] = [0xff, 0xff] ++ [last] from rfl)) rfl).1
        exact ⟨front, chr, [], rfl, escape, two⟩

theorem append_wraps {parser : StreamParser} {stream tail : List UInt8}
    (tracks : Tracks parser stream) (found : behindStart stream = some tail)
    (two : unescape false tail = [0xff, 0xff]) {chr : UInt8} (notStart : chr ≠ 0xfd)
    (ordinary : chr ≠ 0xfc) :
    ∃ next last, parser.append chr = some (next, some [0xfd, 0xff, 0xff, last]) := by
  rcases tracks.inside tail found with ⟨-, long⟩ | ⟨receiving, -⟩
  · rw [two] at long
    exact absurd long (by decide)
  · rw [append_ordinary parser tracks.decoding notStart ordinary]
    rw [two] at receiving
    rcases receive_step (if parser.isEscaped then chr ||| 0x80 else chr) receiving with
      ⟨next, -, later, -⟩ | ⟨next, received, -⟩
    · -- The counter stands at zero and the wrapped length at one.
      cases later.stage with
      | data high low rest state length position pending =>
          have one : (join 0xff 0xff + 2).toNat = 1 := by decide
          rw [length, one] at pending
          rcases pending with below | zero
          · exact absurd below (Nat.lt_irrefl 1)
          · exact absurd zero Nat.one_ne_zero
    · exact ⟨next, _, received⟩

theorem wraps_undeclared (memory : StreamParser) {front : List UInt8} (back : List UInt8)
    (wraps : WrapsAt front) : ¬ Delivers memory (front ++ back) := by
  rintro ⟨-, declared⟩
  obtain ⟨tail, last, found, field⟩ := wraps
  obtain ⟨before, rfl, clean⟩ := (behindStart_eq_some_iff front tail).mp found
  obtain ⟨start, chr, rest, rfl, ordinary, two⟩ := wrap_byte field
  have notStart : chr ≠ 0xfd := by
    rintro rfl
    exact clean (by simp)
  have opened := (behindStart_eq_some_iff (before ++ 0xfd :: start) start).mpr
    ⟨before, rfl, fun member => clean (List.mem_append_left _ member)⟩
  obtain ⟨parser, calls, ran, tracks⟩ :=
    appendAll_tracks (before ++ 0xfd :: start) (create_tracks memory)
  rw [List.nil_append] at tracks
  obtain ⟨next, octet, appended⟩ := append_wraps tracks opened two notStart ordinary
  have length := (declared (before ++ 0xfd :: start) chr (rest ++ back) parser calls next _
    (by simp) ran appended).length
  exact absurd length (by simp [announced])

/-- The frames that the processor gets are the declared ones exactly if no frame of the
stream announces 0xffff bytes and has one byte more. -/
theorem framing_exact_iff (memory : StreamParser) (stream : List UInt8) :
    Delivers memory stream ↔ ∀ front, front <+: stream → ¬ WrapsAt front := by
  constructor
  · rintro delivers front ⟨back, rfl⟩ wraps
    exact wraps_undeclared memory back wraps delivers
  · intro narrow
    obtain ⟨final, calls, ran, -⟩ := appendAll_tracks stream (create_tracks memory)
    refine ⟨⟨(final, calls), ran⟩, ?_⟩
    intro front chr back parser calls next buffer shape ran appended
    obtain ⟨parser', calls', ran', tracks⟩ := appendAll_tracks front (create_tracks memory)
    rw [List.nil_append] at tracks
    cases ran.symm.trans ran'
    -- The run is deterministic: the given call is the one that the step describes.
    obtain ⟨next', call, appended', -, handed⟩ := append_tracks chr tracks
    cases appended.symm.trans appended'
    refine (handed buffer rfl).declared (narrow (front ++ [chr]) ⟨back, ?_⟩)
    rw [shape]
    simp

/-- The length field 0xffff: four bytes are handed over in place of 2048. -/
theorem wrapped_length_delivers_four : ¬ Delivers zeroed [0xfd, 0xff, 0xff, 0x00] ∧
    ((create zeroed true).appendAll [0xfd, 0xff, 0xff, 0x00]).map Prod.snd =
      some [[0xfd, 0xff, 0xff, 0x00]] ∧
    min 2048 (announced [0xfd, 0xff, 0xff, 0x00]) = 2048 := by
  refine ⟨?_, by decide +kernel, rfl⟩
  have wraps : WrapsAt [0xfd, 0xff, 0xff, 0x00] := ⟨[0xff, 0xff, 0x00], 0x00, rfl, rfl⟩
  have shown := wraps_undeclared zeroed [] wraps
  rwa [List.append_nil] at shown

end PiVccu.StreamParser
