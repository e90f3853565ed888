import PiVccu.StreamParser
import PiVccu.Transition

/-!
The memory safety of `detect_radio_module/streamparser.cpp` over whole sessions:
`append`, `flush` and `setDecodeEscaped` in any order behind the constructor. A
full buffer leaves `_bufferPos` at 2048 until the next start byte or `flush`.
-/

namespace PiVccu.StreamParser
open Transition

/-- `append` of a buffer is a loop over `append` of a byte, so it is a sequence of
these operations. -/
inductive Operation where
  | append (chr : UInt8)
  | flush
  | setDecodeEscaped (decodeEscaped : Bool)

def flush (parser : StreamParser) : StreamParser :=
  { parser with state := .noData, bufferPos := 0, isEscaped := false }

def setDecodeEscaped (parser : StreamParser) (decodeEscaped : Bool) : StreamParser :=
  { parser with decodeEscaped := decodeEscaped }

structure Session where
  parser : StreamParser
  lengths : List Nat

/-- One call from outside. `_bufferPos` is not changed behind the call of the
processor, so it still is the length that was passed. -/
def operate (session : Session) : Operation → Option Session
  | .append chr =>
      (session.parser.append chr).map fun result =>
        { parser := result.1
          lengths := session.lengths ++ (result.2.map fun _ => result.1.bufferPos.toNat).toList }
  | .flush => some { session with parser := session.parser.flush }
  | .setDecodeEscaped decodeEscaped =>
      some { session with parser := session.parser.setDecodeEscaped decodeEscaped }

def opened (memory : StreamParser) (decodeEscaped : Bool) : Session :=
  { parser := create memory decodeEscaped, lengths := [] }

/-- An escape byte that is to be kept meets a buffer that was filled up. -/
def Overfills (session : Session) : Operation → Prop
  | .append chr =>
      chr = 0xfc ∧ session.parser.decodeEscaped = false ∧ session.parser.bufferPos = 2048
  | .flush => False
  | .setDecodeEscaped _ => False

/-- A full buffer is handed over at once, so no frame is being received behind it. -/
structure Settled (parser : StreamParser) : Prop where
  bounded : parser.bufferPos.toNat ≤ 2048
  delivered : parser.bufferPos.toNat = 2048 → parser.state = .noData

structure Sound (session : Session) : Prop where
  settled : Settled session.parser
  lengths : ∀ length ∈ session.lengths, length ≤ 2048

theorem put_settles (parser : StreamParser) (chr : UInt8) (inside : parser.bufferPos.toNat < 2048) :
    ∃ next call, parser.put chr = some (next, call) ∧ Settled next := by
  have advanced : (parser.stored chr).bufferPos.toNat = parser.bufferPos.toNat + 1 := by
    simp only [stored, UInt16.toNat_add, UInt16.toNat_one]
    omega
  have bounded : (parser.stored chr).bufferPos.toNat ≤ 2048 := by omega
  rw [put, if_pos inside]
  by_cases full : (parser.stored chr).bufferPos = 2048
  · simp only [full, ↓reduceIte]
    exact ⟨_, _, rfl, Nat.le_refl 2048, fun _ => rfl⟩
  · have room : (parser.stored chr).bufferPos.toNat ≠ 2048 :=
      fun same => full (UInt16.toNat_inj.mp same)
    simp only [full, ↓reduceIte]
    split
    · exact ⟨_, _, rfl, bounded, fun _ => rfl⟩
    · exact ⟨_, _, rfl, bounded, fun same => absurd same room⟩

theorem receive_settles {parser : StreamParser} (settled : Settled parser) (chr value : UInt8) :
    ∃ next call, parser.receive chr value = some (next, call) ∧ Settled next := by
  have room : parser.state ≠ .noData → parser.bufferPos.toNat < 2048 := by
    intro receiving
    exact Nat.lt_of_le_of_ne settled.bounded fun full => receiving (settled.delivered full)
  cases state : parser.state with
  | noData =>
      simp only [receive, state]
      exact ⟨parser, none, rfl, settled⟩
  | frameComplete =>
      simp only [receive, state]
      exact ⟨parser, none, rfl, settled⟩
  | receiveLengthHighByte =>
      simp only [receive, state]
      exact put_settles _ chr (room (by simp [state]))
  | receiveLengthLowByte =>
      simp only [receive, state]
      exact put_settles _ chr (room (by simp [state]))
  | receiveFrameData =>
      simp only [receive, state]
      exact put_settles _ chr (room (by simp [state]))

/-- One byte in a settled parser: only the escape byte of the raw mode reaches the
store without a look at the state. -/
theorem append_settles {parser : StreamParser} (settled : Settled parser) (chr : UInt8)
    (fits : ¬ (chr = 0xfc ∧ parser.decodeEscaped = false ∧ parser.bufferPos = 2048)) :
    ∃ next call, parser.append chr = some (next, call) ∧ Settled next := by
  by_cases start : chr = 0xfd
  · rw [append, if_pos start]
    exact put_settles _ chr (by simp)
  · by_cases escape : chr = 0xfc
    · rw [append, if_neg start, if_pos escape]
      cases mode : parser.decodeEscaped with
      | true => exact ⟨_, none, rfl, settled.bounded, settled.delivered⟩
      | false =>
          -- The state says nothing here: a delivered buffer may still be full.
          have room : parser.bufferPos.toNat ≠ 2048 :=
            fun full => fits ⟨escape, mode, UInt16.toNat_inj.mp full⟩
          exact put_settles _ chr (Nat.lt_of_le_of_ne settled.bounded room)
    · rw [append, if_neg start, if_neg escape]
      exact receive_settles settled _ _

theorem append_overfills {parser : StreamParser} (raw : parser.decodeEscaped = false)
    (full : parser.bufferPos = 2048) : parser.append 0xfc = none := by
  simp [append, put, raw, full]

theorem operate_taken {session : Session} (sound : Sound session) (operation : Operation) :
    (∃ next, operate session operation = some next) ↔ ¬ Overfills session operation := by
  cases operation with
  | append chr =>
      constructor
      · rintro ⟨next, taken⟩ ⟨rfl, raw, full⟩
        rw [operate, append_overfills raw full] at taken
        cases taken
      · intro fits
        obtain ⟨next, call, appended, -⟩ := append_settles sound.settled chr fits
        rw [operate, appended]
        exact ⟨_, rfl⟩
  | flush => exact iff_of_true ⟨_, rfl⟩ id
  | setDecodeEscaped decodeEscaped => exact iff_of_true ⟨_, rfl⟩ id

theorem operate_sound {session next : Session} (sound : Sound session) (operation : Operation)
    (taken : operate session operation = some next) : Sound next := by
  cases operation with
  | append chr =>
      have fits : ¬ Overfills session (.append chr) :=
        (operate_taken sound (.append chr)).mp ⟨next, taken⟩
      obtain ⟨parser, call, appended, settled⟩ := append_settles sound.settled chr fits
      rw [operate, appended] at taken
      cases taken
      refine ⟨settled, ?_⟩
      intro length member
      rcases List.mem_append.mp member with before | now
      · exact sound.lengths length before
      -- The call of this very byte has the position as its length.
      · obtain ⟨-, -, rfl⟩ := Option.map_eq_some_iff.mp (Option.mem_toList.mp now)
        exact settled.bounded
  | flush =>
      cases taken
      exact ⟨⟨Nat.zero_le _, nofun⟩, sound.lengths⟩
  | setDecodeEscaped decodeEscaped =>
      cases taken
      exact ⟨⟨sound.settled.bounded, sound.settled.delivered⟩, sound.lengths⟩

theorem opened_sound (memory : StreamParser) (decodeEscaped : Bool) :
    Sound (opened memory decodeEscaped) :=
  ⟨⟨Nat.zero_le _, nofun⟩, nofun⟩

def Contained (memory : StreamParser) (decodeEscaped : Bool) (operations : List Operation) : Prop :=
  ∃ final, runAll operate (opened memory decodeEscaped) operations = some final ∧
    ∀ length ∈ final.lengths, length ≤ 2048

/-- A session stays inside of the buffer exactly if no escape byte is to be kept
while the buffer is full. -/
theorem session_contained_iff (memory : StreamParser) (decodeEscaped : Bool)
    (operations : List Operation) : Contained memory decodeEscaped operations ↔
      Meets operate (fun session operation => ¬ Overfills session operation)
        (opened memory decodeEscaped) operations := by
  have kept : ∀ session operation next, Sound session →
      operate session operation = some next → Sound next :=
    fun _ operation _ sound taken => operate_sound sound operation taken
  have initial := opened_sound memory decodeEscaped
  rw [← runAll_iff_meets (fun _ operation sound => operate_taken sound operation) kept operations
    initial]
  constructor
  · rintro ⟨final, ran, -⟩
    exact ⟨final, ran⟩
  · rintro ⟨final, ran⟩
    exact ⟨final, ran, (runAll_kept kept operations initial ran).lengths⟩

theorem append_raw_escape (parser : StreamParser) (raw : parser.decodeEscaped = false)
    (inside : parser.bufferPos.toNat < 2048) : ∃ next call,
      parser.append 0xfc = some (next, call) ∧ next.decodeEscaped = false ∧
        next.bufferPos.toNat = parser.bufferPos.toNat + 1 := by
  obtain ⟨next, call, appended, -⟩ := put_settles { parser with isEscaped := true } 0xfc inside
  obtain ⟨⟨state, same⟩, -⟩ := put_cases appended
  refine ⟨next, call, ?_, ?_, ?_⟩
  · rw [append, if_neg (by decide), if_pos rfl, if_neg (by simp [raw])]
    exact appended
  · rw [same]
    exact raw
  · rw [same]
    change (parser.bufferPos + 1).toNat = _
    rw [UInt16.toNat_add, UInt16.toNat_one]
    omega

theorem raw_escapes_fill (memory : StreamParser) (count : Nat) (inside : count ≤ 2048) :
    ∃ session, runAll operate (opened memory false) (List.replicate count (.append 0xfc)) =
      some session ∧ session.parser.decodeEscaped = false ∧
        session.parser.bufferPos.toNat = count := by
  induction count with
  | zero => exact ⟨opened memory false, rfl, rfl, rfl⟩
  | succ count ih =>
      obtain ⟨session, ran, raw, position⟩ := ih (by omega)
      obtain ⟨next, call, appended, kept, advanced⟩ :=
        append_raw_escape session.parser raw (by omega)
      obtain ⟨lengths, operated⟩ : ∃ lengths,
          operate session (.append 0xfc) = some ⟨next, lengths⟩ := by
        rw [operate, appended]
        exact ⟨_, rfl⟩
      refine ⟨⟨next, lengths⟩, ?_, kept, by rw [advanced, position]⟩
      rw [List.replicate_succ', runAll_append, ran, Option.bind_some, runAll_cons, operated]
      rfl

def zeroed : StreamParser where
  buffer := List.replicate 2048 0
  bufferPos := 0
  framePos := 0
  frameLength := 0
  state := .noData
  isEscaped := false
  decodeEscaped := false
  sized := List.length_replicate

/-- In raw mode, which the connector uses, 2049 escape bytes leave the buffer. -/
theorem escapes_leave_buffer :
    ¬ Contained zeroed false (List.replicate 2049 (.append 0xfc)) := by
  rintro ⟨final, ran, -⟩
  obtain ⟨session, filled, raw, position⟩ := raw_escapes_fill zeroed 2048 (Nat.le_refl _)
  rw [show 2049 = 2048 + 1 from rfl, List.replicate_succ', runAll_append, filled, Option.bind_some,
    runAll_cons, operate, append_overfills raw (UInt16.toNat_inj.mp position)] at ran
  cases ran

end PiVccu.StreamParser
