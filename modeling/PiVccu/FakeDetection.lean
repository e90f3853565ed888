import PiVccu.FakeDialogue
import PiVccu.FakeHmrfParameters

/-!
`detect_radio_module` on the device of `kernel/fake_hmrf.c`: the main thread, the
reader thread and the module as one system. Each request is encoded and written, each
byte read is put to the stream parser, and what the parser hands over goes to
`handleFrame`. A wait may time out whenever the semaphore is zero.
-/

namespace PiVccu.FakeDetection
open ByteBuffer FakeDialogue FakeHmrf FakeHmrfRead AnswerStream RadioModuleDetector
open RadioModuleDialogue StreamParser Transition
open FakeHmrfWrite hiding hmDstTrx hmDstHmip hmDstLlmac hmDstCommon

theorem no_data_fits : ([] : List UInt8).length < 2 ^ 16 := Nat.two_pow_pos 16

def requestFrame (request : Request) : HMFrame :=
  ⟨request.counter, request.destination, request.command, [], no_data_fits⟩

/-- `RadioModuleDetector::sendFrame` and the `write` of the connector, whose result
nobody looks at. -/
def sendFrame (device : Device) (request : Request) : Option Device := do
  let sendBuffer := List.replicate 18 0
  let sent ← (requestFrame request).encoded sendBuffer 18 true
  let written ← fakeHmrfWrite device sent false
  return written.1

structure Loop where
  detection : Detection
  parser : StreamParser
  device : Device

inductive LoopAct where
  | main
  | timeout
  | receive
deriving DecidableEq

namespace Loop

/-- A step of the detection, with the requests it sends. The last one takes the frame
handler away and the escapes with it. -/
def detect (loop : Loop) (act : DetectAct) : Option Loop := do
  let detection ← loop.detection.step act
  let device ← (detection.detector.sent.drop loop.detection.detector.sent.length).foldlM
    sendFrame loop.device
  return {
    detection := detection
    parser := if detection.phase = .returned then loop.parser.setDecodeEscaped false
      else loop.parser
    device := device }

def handleFrame (loop : Loop) (buffer : List UInt8) : Option Loop :=
  if loop.detection.phase = .returned then some loop else loop.detect (.frame buffer)

def receive (loop : Loop) : Option Loop := do
  let (device, result) ← fakeHmrfRead loop.device false 1 false
  match result with
  | .error _ | .octets [] => return { loop with device := device }
  | .octets (octet :: _) => do
      let (parser, call) ← loop.parser.append octet
      let loop := { loop with device := device, parser := parser }
      match call with
      | none => return loop
      | some buffer => loop.handleFrame buffer

def step (loop : Loop) : LoopAct → Option Loop
  | .main => loop.detect .main
  | .timeout => loop.detect .timeout
  | .receive => loop.receive

end Loop

structure Started (parameters : Parameters) (loop : Loop) : Prop where
  detection : loop.detection = started
  parser : ∃ memory, loop.parser = (create memory false).setDecodeEscaped true
  parameters : loop.device.parameters = parameters
  silent : pending loop.device = []

theorem empty_formed : (⟨List.replicate bufSize 0, 0, 0⟩ : CircBuf.CircRing UInt8).WellFormed
    bufSize :=
  ⟨List.length_replicate, Nat.two_pow_pos 10, Nat.two_pow_pos 10⟩

def fresh (parameters : Parameters) (isInBl : Bool) : Loop where
  detection := started
  parser := (create zeroed false).setDecodeEscaped true
  device :=
    { parameters := parameters
      isInBl := isInBl
      rxbuf := ⟨List.replicate bufSize 0, 0, 0⟩
      formed := empty_formed }

theorem fresh_started (parameters : Parameters) (isInBl : Bool) :
    Started parameters (fresh parameters isInBl) where
  detection := rfl
  parser := ⟨zeroed, rfl⟩
  parameters := rfl
  silent := by
    apply List.eq_nil_of_length_eq_zero
    rw [pending_length]
    change CircBuf.circCnt 0 0 1024 = 0
    decide

/-- A piece in the ring: what is left of an answer to the identification, or in the last
loop of an answer to an inquiry. -/
def Answers (parameters : Parameters) (asking : Prop) (piece : Piece) : Prop :=
  ∃ response : Response, piece.cmd = response.val ∧
    ((piece.dst, response) ∈ identification ∨ asking ∧ (piece.dst, response) ∈ inquiries parameters)

theorem encoded_request (request : Request) :
    (requestFrame request).encoded (List.replicate 18 0) 18 true =
      some (requestFrame request).escapedWire := by
  have bound := FrameRoundTrip.escapedWire_length_le (requestFrame request)
  have size : (requestFrame request).data.length = 0 := rfl
  have len : (18 : UInt16).toNat = 18 := rfl
  apply HMFrame.encoded_escaped
  · omega
  · rw [List.length_replicate]
    omega
  · omega

theorem sendFrame_piece {parameters : Parameters} (clean : Clean parameters) {asking : Prop}
    {device : Device} (own : device.parameters = parameters) {request : Request}
    (permitted : Permitted asking request) :
    ∃ after pieces, sendFrame device request = some after ∧ after.parameters = parameters ∧
      pending after = pending device ++ List.flatMap Piece.octets pieces ∧
      ∀ piece ∈ pieces, Answers parameters asking piece := by
  obtain ⟨after, written, kept, -, grown⟩ := fakeHmrfWrite_request device (requestFrame request)
    (Nat.zero_le _)
  have sent : sendFrame device request = some after := by
    simp only [sendFrame, encoded_request, Option.bind_eq_bind, Option.bind_some, written]
    rfl
  cases answered : (answer device request.destination request.command).2 with
  | none =>
      rw [show (answer device (requestFrame request).destination
        (requestFrame request).command).2 = none from answered, Option.map_none, Option.getD_none,
        List.take_nil] at grown
      exact ⟨after, [], sent, kept.trans own, grown, nofun⟩
  | some response =>
      rw [show (answer device (requestFrame request).destination
        (requestFrame request).command).2 = some response from answered, Option.map_some,
        Option.getD_some] at grown
      have told : (request.destination, response) ∈ identification ∨
          asking ∧ (request.destination, response) ∈ inquiries parameters := by
        rcases permitted with asked | ⟨late, asked⟩
        · exact .inl (identifies_answer device asked answered)
        · rw [← own]
          exact .inr ⟨late, inquires_answer device asked answered⟩
      have listed : (request.destination, response) ∈ identification ++ inquiries parameters :=
        List.mem_append.mpr (told.imp_right And.right)
      have plain := answers_plain clean listed
      let piece : Piece := ⟨request.destination, request.counter, response.val, _, plain.1, plain.2,
        List.take_prefix (bufSize - 1 - (pending device).length) _⟩
      refine ⟨after, [piece], sent, kept.trans own, ?_, ?_⟩
      · rw [grown, List.flatMap_singleton]
        rfl
      · intro other member
        cases List.mem_singleton.mp member
        exact ⟨response, rfl, told⟩

theorem sendFrames_pieces {parameters : Parameters} (clean : Clean parameters) {asking : Prop}
    {device : Device} (own : device.parameters = parameters) {requests : List Request}
    (permitted : ∀ request ∈ requests, Permitted asking request) :
    ∃ after pieces, requests.foldlM sendFrame device = some after ∧
      after.parameters = parameters ∧
      pending after = pending device ++ List.flatMap Piece.octets pieces ∧
      ∀ piece ∈ pieces, Answers parameters asking piece := by
  induction requests generalizing device with
  | nil => exact ⟨device, [], rfl, own, by simp, nofun⟩
  | cons request rest ih =>
      obtain ⟨middle, first, sent, kept, grown, answers⟩ :=
        sendFrame_piece clean own (permitted request List.mem_cons_self)
      obtain ⟨after, others, done, final, more, later⟩ :=
        ih kept fun other member => permitted other (List.mem_cons_of_mem _ member)
      refine ⟨after, first ++ others, ?_, final, ?_, ?_⟩
      · rw [List.foldlM_cons, sent]
        exact done
      · rw [more, grown, List.flatMap_append, List.append_assoc]
      · intro piece member
        exact (List.mem_append.mp member).elim (answers piece) (later piece)

/-- What the reader has consumed and what still waits are beginnings of answers. -/
def Conversing (parameters : Parameters) (asking : Prop) (parser : StreamParser)
    (waiting : List UInt8) : Prop :=
  ∃ consumed pieces, Tracks parser consumed ∧
    consumed ++ waiting = List.flatMap Piece.octets pieces ∧
    ∀ piece ∈ pieces, Answers parameters asking piece

structure Sound (parameters : Parameters) (loop : Loop) : Prop where
  own : loop.device.parameters = parameters
  learnt : Learnt parameters loop.detection.detector
  early : ¬ Asking loop.detection.phase → Early loop.detection.detector.detectState
  conversing : loop.detection.phase ≠ .returned →
    Conversing parameters (Asking loop.detection.phase) loop.parser (pending loop.device)

section System
variable {parameters : Parameters} {loop next : Loop}

theorem Answers.later {earlier later : Prop} {piece : Piece} (step : earlier → later)
    (answers : Answers parameters earlier piece) : Answers parameters later piece := by
  obtain ⟨response, same, listed⟩ := answers
  exact ⟨response, same, listed.imp_right (And.imp_left step)⟩

theorem step_running {detection after : Detection} {act : DetectAct}
    (taken : detection.step act = some after) : detection.phase ≠ .returned := by
  intro returned
  cases act with
  | frame buffer =>
      rw [Detection.step, if_pos returned] at taken
      cases taken
  | main =>
      rw [Detection.step, Detection.mainStep, returned] at taken
      cases taken
  | timeout =>
      rw [Detection.step, Detection.timeoutStep, returned] at taken
      dsimp only at taken
      split at taken
      · cases taken
      · cases taken

theorem sound_detect (clean : Clean parameters) (sound : Sound parameters loop) {act : DetectAct}
    {after : Detection} (taken : loop.detection.step act = some after)
    (advances : Advances parameters loop.detection after) :
    ∃ next, loop.detect act = some next ∧ Sound parameters next := by
  obtain ⟨⟨learnt, early, requests, sent, permitted⟩, later⟩ := advances
  obtain ⟨consumed, pieces, tracks, stream, answers⟩ := sound.conversing (step_running taken)
  obtain ⟨device, more, written, own, grown, told⟩ :=
    sendFrames_pieces clean sound.own permitted
  have added : after.detector.sent.drop loop.detection.detector.sent.length = requests := by
    rw [sent, List.drop_left]
  refine ⟨⟨after, if after.phase = .returned then loop.parser.setDecodeEscaped false
    else loop.parser, device⟩, ?_, own, learnt, early, ?_⟩
  · rw [Loop.detect, taken]
    simp only [Option.bind_eq_bind, Option.bind_some, added, written]
    rfl
  · intro running
    refine ⟨consumed, pieces ++ more, ?_, ?_, ?_⟩
    · dsimp only at running ⊢
      rw [if_neg running]
      exact tracks
    · dsimp only
      rw [grown, ← List.append_assoc, stream, List.flatMap_append]
    · intro piece member
      rcases List.mem_append.mp member with old | new
      · exact (answers piece old).later later
      · exact told piece new

theorem tryParse_answer (dst cnt : UInt8) {cmd : List UInt8} (plain : Plain cmd) :
    ∃ frame, HMFrame.tryParse (HmWire.plain dst cnt cmd)
        (UInt16.ofNat (HmWire.plain dst cnt cmd).length) = some frame ∧
      frame.destination = dst ∧ frame.cmd = cmd := by
  obtain ⟨ack, status, rest, rfl, -, -⟩ := plain.first
  have short := plain.short
  rw [List.length_cons] at short
  let frame : HMFrame := ⟨cnt, dst, ack, status :: rest, by omega⟩
  exact ⟨frame, FrameRoundTrip.tryParse_wire frame (by
    change (status :: rest).length + 8 < 2 ^ 16
    omega), rfl, rfl⟩

theorem sound_handleFrame (clean : Clean parameters) (sound : Sound parameters loop)
    (running : loop.detection.phase ≠ .returned) {piece : Piece}
    (answers : Answers parameters (Asking loop.detection.phase) piece) :
    ∃ next, loop.handleFrame (HmWire.plain piece.dst piece.cnt piece.cmd) = some next ∧
      Sound parameters next := by
  obtain ⟨frame, parsed, dst, cmd⟩ := tryParse_answer piece.dst piece.cnt piece.plain
  obtain ⟨response, same, listed⟩ := answers
  have told : Told parameters (Asking loop.detection.phase) frame := by
    refine ⟨response, cmd.trans same, ?_⟩
    rw [dst]
    exact listed
  obtain ⟨detector, handled⟩ := handleFrame_total sound.learnt.sized
    (HmWire.plain piece.dst piece.cnt piece.cmd)
  have progress := progress_handleFrame sound.learnt sound.early told parsed handled
  have taken : loop.detection.step (.frame (HmWire.plain piece.dst piece.cnt piece.cmd)) =
      some ⟨detector, loop.detection.phase⟩ := by
    rw [Detection.step, if_neg running, handled]
    rfl
  rw [Loop.handleFrame, if_neg running]
  exact sound_detect clean sound taken ⟨progress, id⟩

theorem read_byte (device : Device) (some : pending device ≠ []) :
    ∃ after octet, fakeHmrfRead device false 1 false = Option.some (after, .octets [octet]) ∧
      pending device = octet :: pending after ∧ after.parameters = device.parameters := by
  obtain ⟨after, octets, read, split, filled, short, own, -⟩ :=
    fakeHmrfRead_data device false (by decide : 1 ≤ RawUartRx.intMax) some
  have filled := List.length_pos_iff.mpr (filled (Nat.le_refl 1))
  obtain ⟨octet, rfl⟩ := List.length_eq_one_iff.mp (Nat.le_antisymm short filled)
  exact ⟨after, octet, read, split.symm, own⟩

theorem read_blocks (device : Device) (none : pending device = []) :
    fakeHmrfRead device false 1 false = Option.none := by
  have empty := pending_length device
  rw [none, List.length_nil] at empty
  rw [fakeHmrfRead, if_pos empty.symm]
  rfl

theorem sound_receive (clean : Clean parameters) (sound : Sound parameters loop)
    (running : loop.detection.phase ≠ .returned) (some : pending loop.device ≠ []) :
    ∃ next, loop.receive = Option.some next ∧ Sound parameters next := by
  obtain ⟨consumed, pieces, tracks, stream, answers⟩ := sound.conversing running
  obtain ⟨device, octet, read, split, own⟩ := read_byte loop.device some
  obtain ⟨parser, call, appended, kept, handed⟩ := append_tracks octet tracks
  rw [split, ← List.singleton_append, ← List.append_assoc] at stream
  have advanced : Sound parameters { loop with device := device, parser := parser } :=
    ⟨own.trans sound.own, sound.learnt, sound.early,
      fun _ => ⟨consumed ++ [octet], pieces, kept, stream, answers⟩⟩
  rw [Loop.receive, read]
  simp only [Option.bind_eq_bind, Option.bind_some, appended]
  cases call with
  | none => exact ⟨_, rfl, advanced⟩
  | some buffer =>
      obtain ⟨piece, member, rfl⟩ := handsOver_answer stream (handed buffer rfl)
      exact sound_handleFrame clean advanced running (answers piece member)

/-- Behind the return of `detectRadioModule` the reader changes nothing that is reported. -/
theorem sound_receive_returned (sound : Sound parameters loop)
    (returned : loop.detection.phase = .returned) (taken : loop.receive = some next) :
    Sound parameters next := by
  have kept : ∀ {device : Device} {parser : StreamParser}, device.parameters = parameters →
      Sound parameters { loop with device := device, parser := parser } :=
    fun own => ⟨own, sound.learnt, sound.early, fun running => absurd returned running⟩
  by_cases none : pending loop.device = []
  · rw [Loop.receive, read_blocks loop.device none] at taken
    cases taken
  · obtain ⟨device, octet, read, -, own⟩ := read_byte loop.device none
    rw [Loop.receive, read] at taken
    simp only [Option.bind_eq_bind, Option.bind_some] at taken
    obtain ⟨⟨parser, call⟩, -, done⟩ := Option.bind_eq_some_iff.mp taken
    cases call with
    | none =>
        cases done
        exact kept (own.trans sound.own)
    | some buffer =>
        dsimp only at done
        rw [Loop.handleFrame, if_pos returned] at done
        cases done
        exact kept (own.trans sound.own)

theorem sound_step (clean : Clean parameters) (sound : Sound parameters loop) (act : LoopAct)
    (taken : loop.step act = some next) : Sound parameters next := by
  -- A step of the detection has one outcome.
  have detected : ∀ {act : DetectAct} {after : Detection}, loop.detection.step act = some after →
      loop.detect act = some next → Advances parameters loop.detection after →
      Sound parameters next := by
    intro act after stepped done advances
    obtain ⟨other, same, kept⟩ := sound_detect clean sound stepped advances
    cases same.symm.trans done
    exact kept
  cases act with
  | main =>
      rw [Loop.step] at taken
      obtain ⟨after, stepped, -⟩ := Option.bind_eq_some_iff.mp taken
      exact detected stepped taken (advances_main sound.learnt sound.early stepped)
  | timeout =>
      rw [Loop.step] at taken
      obtain ⟨after, stepped, -⟩ := Option.bind_eq_some_iff.mp taken
      exact detected stepped taken (advances_timeout sound.learnt sound.early stepped)
  | receive =>
      rw [Loop.step] at taken
      by_cases returned : loop.detection.phase = .returned
      · exact sound_receive_returned sound returned taken
      · have some : pending loop.device ≠ [] := by
          intro none
          rw [Loop.receive, read_blocks loop.device none] at taken
          cases taken
        obtain ⟨other, same, kept⟩ := sound_receive clean sound returned some
        cases same.symm.trans taken
        exact kept

theorem sound_started (start : Started parameters loop) : Sound parameters loop := by
  obtain ⟨memory, parser⟩ := start.parser
  refine ⟨start.parameters, ?_, ?_, ?_⟩
  · rw [start.detection]
    exact ⟨0, .head _, .inl rfl, rfl, rfl, rfl, rfl, rfl⟩
  · rw [start.detection]
    exact fun _ => .inl rfl
  · intro _
    refine ⟨[], [], ?_, start.silent, nofun⟩
    rw [parser]
    exact create_tracks memory

theorem sound_reachable (clean : Clean parameters)
    (reached : Reachable Loop.step (fun _ _ => True) (Started parameters) loop) :
    Sound parameters loop :=
  reached.invariant (fun _ => sound_started) fun _ act _ sound _ taken =>
    sound_step clean sound act taken

end System

theorem answered_all_iff {detectState : DetectState} {count : Nat}
    (member : count ∈ answered detectState) (some : 1 ≤ count) :
    detectState = .finished ↔ count = 6 := by
  constructor
  · rintro rfl
    rcases List.mem_cons.mp member with rfl | last
    · cases some
    · exact List.mem_singleton.mp last
  · rintro rfl
    cases detectState <;> simp [answered] at member ⊢

theorem answered_le {detectState : DetectState} {count : Nat}
    (member : count ∈ answered detectState) : count ≤ 6 := by
  cases detectState <;> simp only [answered, List.mem_cons, List.not_mem_nil, or_false] at member <;>
    omega

def reads (count : Nat) : List LoopAct := List.replicate count .receive

/-- A module in its bootloader starts its application and gives its type. The main thread does
not wait for the version. -/
def impatient : List LoopAct :=
  List.flatten [[.main, .main, .timeout], reads 18, [.main, .main, .main, .main, .timeout],
    reads 27, [.timeout, .main, .main], reads 22, [.main, .main, .main, .main], reads 10,
    [.main, .main, .main, .timeout, .main]]

end PiVccu.FakeDetection
