import PiVccu.FrameRoundTrip
import PiVccu.RawUartRx

/-!
The way of received bytes through the system, for any driver: a packet is taken apart
by the driver, its characters go one by one to `generic_raw_uart_handle_rx_char` while
readers empty the ring, and what the reads return is put to the stream parser.
-/

namespace PiVccu.ReceivePath
open RawUartRx StreamParser Transition

/-- The receive side and the characters of the packet that is being handled, with their
flags. `arrived` records the packets. -/
structure Path (Packet Reader : Type) where
  side : RxSide Reader
  todo : List (UInt8 × UInt8)
  arrived : List Packet

inductive PathAct (Packet Reader : Type) where
  | arrive (packet : Packet)
  | char
  | ring (action : RxAction Reader)

variable {Packet Reader : Type} [DecidableEq Reader] (decode : Packet → List (UInt8 × UInt8))

/-- A driver handles one packet after the other, and the next character when the call for
the last one has returned. -/
def step (path : Path Packet Reader) : PathAct Packet Reader → Option (Path Packet Reader)
  | .arrive packet =>
      if path.todo = [] ∧ path.side.producer = .idle then
        some { path with todo := decode packet, arrived := path.arrived ++ [packet] }
      else none
  | .char =>
      match path.todo with
      | [] => none
      | (flags, data) :: rest =>
          (RawUartRx.step path.side (.rxChar flags data)).map fun side =>
            { path with side := side, todo := rest }
  | .ring (.rxChar _ _) => none
  | .ring action => (RawUartRx.step path.side action).map fun side => { path with side := side }

def Opened (path : Path Packet Reader) : Prop :=
  Reset path.side ∧ path.todo = [] ∧ path.arrived = []

def Allowed (path : Path Packet Reader) : PathAct Packet Reader → Prop
  | .ring action => Reads path.side action
  | _ => True

structure Faithful (path : Path Packet Reader) : Prop where
  lossless : Lossless path.side
  passed : path.side.calls.map (fun call => (call.flags, call.data)) ++ path.todo =
    path.arrived.flatMap decode

section Steps
variable {decode} {path next : Path Packet Reader}

omit [DecidableEq Reader] in
theorem rxChar_calls {side after : RxSide Reader} {flags data : UInt8}
    (taken : producerStep side (.rxChar flags data) = some after) :
    after.calls.map (fun call => (call.flags, call.data)) =
      side.calls.map (fun call => (call.flags, call.data)) ++ [(flags, data)] := by
  rw [producerStep] at taken
  split at taken
  · cases taken
    rw [List.map_append]
    rfl
  · cases taken

theorem step_calls {side after : RxSide Reader} {action : RxAction Reader}
    (other : ∀ flags data, action ≠ .rxChar flags data)
    (taken : RawUartRx.step side action = some after) : after.calls = side.calls := by
  cases action with
  | rxChar flags data => exact absurd rfl (other flags data)
  | rxStore =>
      simp only [RawUartRx.step, producerStep] at taken
      split at taken
      · obtain ⟨buf, -, final⟩ := Option.bind_eq_some_iff.mp taken
        cases final
        rfl
      · cases taken
  | rxAdvance =>
      simp only [RawUartRx.step, producerStep] at taken
      split at taken <;> cases taken
      rfl
  | copy r fault =>
      simp only [RawUartRx.step, readerStep] at taken
      split at taken
      · obtain ⟨octets, -, final⟩ := Option.bind_eq_some_iff.mp taken
        split at final <;> cases final <;> rfl
      · cases taken
  | test r | leaveEmpty r =>
      simp only [RawUartRx.step, readerStep] at taken
      split at taken
      · split at taken <;> cases taken <;> rfl
      · cases taken
  | wake r =>
      simp only [RawUartRx.step, readerStep] at taken
      split at taken
      · split at taken <;> cases taken <;> rfl
      · cases taken
  | down r =>
      simp only [RawUartRx.step, readerStep] at taken
      split at taken <;> first | (cases taken; rfl) | cases taken
  | enter r count nonblock | size r | advance r | leave r | signal r =>
      simp only [RawUartRx.step, readerStep] at taken
      split at taken <;> cases taken <;> rfl

theorem faithful_step (faithful : Faithful decode path) {act : PathAct Packet Reader}
    (allowed : Allowed path act) (taken : step decode path act = some next) :
    Faithful decode next := by
  cases act with
  | arrive packet =>
      rw [step] at taken
      split at taken
      · rename_i idle
        cases taken
        have passed := faithful.passed
        rw [idle.1, List.append_nil] at passed
        exact ⟨faithful.lossless, by simp [passed]⟩
      · cases taken
  | char =>
      have passed := faithful.passed
      cases todo : path.todo with
      | nil => simp [step, todo] at taken
      | cons first rest =>
          obtain ⟨flags, data⟩ := first
          rw [todo] at passed
          simp only [step, todo] at taken
          obtain ⟨side, done, rfl⟩ := Option.map_eq_some_iff.mp taken
          have reads : Reads path.side (.rxChar flags data) := trivial
          refine ⟨lossless_step faithful.lossless reads done, ?_⟩
          dsimp only
          rw [rxChar_calls done, List.append_assoc, List.singleton_append, passed]
  | ring action =>
      have silent : (∀ flags data, action ≠ .rxChar flags data) ∧
          ∃ side, RawUartRx.step path.side action = some side ∧ next = { path with side := side } := by
        cases action
        case rxChar => cases taken
        all_goals
          obtain ⟨side, done, same⟩ := Option.map_eq_some_iff.mp taken
          exact ⟨nofun, side, done, same.symm⟩
      obtain ⟨other, side, done, rfl⟩ := silent
      refine ⟨lossless_step faithful.lossless allowed done, ?_⟩
      dsimp only
      rw [step_calls other done]
      exact faithful.passed

theorem faithful_reachable (reached : Reachable (step decode) Allowed Opened path) :
    Faithful decode path := by
  refine reached.invariant ?_ fun _ _ _ faithful allowed taken =>
    faithful_step faithful allowed taken
  rintro state ⟨reset, todo, arrived⟩
  refine ⟨lossless_reset reset, ?_⟩
  obtain ⟨-, -, -, -, -, -, calls, -⟩ := reset
  rw [calls, todo, arrived]
  rfl

end Steps

def carried (path : Path Packet Reader) : List UInt8 :=
  (path.arrived.flatMap decode).map Prod.snd

def readOut (path : Path Packet Reader) : List UInt8 := (returned path.side.returns).flatten

def underway (path : Path Packet Reader) : List UInt8 :=
  (inFlight path.side).flatten ++ path.side.rxbuf.contents ++ path.side.producer.pending ++
    path.todo.map Prod.snd

omit [DecidableEq Reader] in
/-- Where no character was refused, nothing is lost, doubled or reordered. -/
theorem readOut_underway {decode} {path : Path Packet Reader} (faithful : Faithful decode path)
    (kept : ∀ call ∈ path.side.calls, call.taken = true) :
    readOut path ++ underway path = carried decode path := by
  have all : path.side.calls.filter RxCall.taken = path.side.calls := List.filter_eq_self.mpr kept
  have offered := faithful.lossless.offered
  rw [all] at offered
  have settled := congrArg List.flatten faithful.lossless.settled
  rw [List.flatten_append] at settled
  have data : path.side.calls.map RxCall.data ++ path.todo.map Prod.snd = carried decode path := by
    rw [carried, ← faithful.passed, List.map_append, List.map_map]
    rfl
  rw [readOut, underway, ← data, offered, ← faithful.lossless.law, ← settled]
  simp only [List.append_assoc]

theorem appendAll_front {parser final : StreamParser} {front back : List UInt8}
    {calls : List (List UInt8)} (ran : parser.appendAll (front ++ back) = some (final, calls)) :
    ∃ middle early, parser.appendAll front = some (middle, early) ∧ early <+: calls := by
  rw [appendAll_append] at ran
  obtain ⟨⟨middle, early⟩, first, ran⟩ := Option.bind_eq_some_iff.mp ran
  obtain ⟨⟨last, later⟩, -, same⟩ := Option.map_eq_some_iff.mp ran
  cases same
  exact ⟨middle, early, first, List.prefix_append _ _⟩

theorem emitted_calls (sent : List FrameRoundTrip.Transmission) (parser : StreamParser)
    (decoding : parser.decodeEscaped = true) :
    ∃ stream final, FrameRoundTrip.emit sent = some stream ∧
      parser.appendAll stream = some (final, sent.map fun one => one.frame.wire) := by
  induction sent generalizing parser with
  | nil => exact ⟨[], parser, rfl, rfl⟩
  | cons one rest ih =>
      obtain ⟨middle, first, kept⟩ := one.received parser decoding
      obtain ⟨stream, final, emitted, ran⟩ := ih middle kept
      refine ⟨_, final, ?_, appendAll_trans first ran⟩
      rw [FrameRoundTrip.emit, one.encoded_eq]
      simp only [Option.bind_eq_bind, Option.bind_some, emitted]

/-- Frames that are encoded, cut into packets wherever it may be, taken apart by the
driver and read in any portions by any number of readers: while no character is refused,
the parser has delivered the first of them, each once and as it was, and all of them when
nothing is underway any more. -/
theorem frames_received {decode} {path : Path Packet Reader}
    (reached : Reachable (step decode) Allowed Opened path)
    (kept : ∀ call ∈ path.side.calls, call.taken = true)
    {sent : List FrameRoundTrip.Transmission} {stream ahead : List UInt8}
    (emitted : FrameRoundTrip.emit sent = some stream)
    (arrived : carried decode path ++ ahead = stream)
    {parser : StreamParser} (decoding : parser.decodeEscaped = true) :
    ∃ next calls, parser.appendAll (readOut path) = some (next, calls) ∧
      calls <+: sent.map (fun one => one.frame.wire) ∧
      (∀ call ∈ calls, ∃ one ∈ sent,
        HMFrame.tryParse call (UInt16.ofNat call.length) = some one.frame) ∧
      (underway path = [] → ahead = [] → calls = sent.map fun one => one.frame.wire) := by
  have whole := readOut_underway (faithful_reachable reached) kept
  obtain ⟨stream', final, emitted', ran⟩ := emitted_calls sent parser decoding
  cases emitted'.symm.trans emitted
  rw [← arrived, ← whole, List.append_assoc] at ran
  obtain ⟨next, calls, first, front⟩ := appendAll_front ran
  refine ⟨next, calls, first, front, ?_, ?_⟩
  · intro call member
    obtain ⟨one, listed, rfl⟩ := List.mem_map.mp (front.subset member)
    have short := one.short
    exact ⟨one, listed, FrameRoundTrip.tryParse_wire one.frame (by omega)⟩
  · intro quiet end_
    rw [quiet, end_, List.append_nil, List.append_nil, first] at ran
    cases ran
    rfl

end PiVccu.ReceivePath
