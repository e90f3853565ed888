import Mathlib
import PiVccu.CircBuf
import PiVccu.Transition

/-!
The receive side of `kernel/generic_raw_uart.c`: one producer, which calls
`generic_raw_uart_handle_rx_char`, and any number of readers in
`generic_raw_uart_read` around one ring. The producer tests, stores and advances
the head in steps of its own; a reader tests, sizes its copy, copies and advances
the tail under `instance->sem`. An index is written back in one step: what the
statement holds in between, the size of the ring, is 0 to all of the macros.
`none` is a step that is not possible or an access outside the ring.
-/

namespace PiVccu.RawUartRx
open ByteBuffer CircBuf Transition

def circbufSize : Nat := 1024
def intMax : Nat := 2147483647
def rxStateBreak : UInt8 := 1
def eagain : Int := 11
def efault : Int := 14
def erestartsys : Int := 512

/-- Where a reader stands: at `down_interruptible`, at the condition of the loop,
behind `up` with nothing to read, in `wait_event_interruptible`, and then with
data at the count, at `copy_to_user`, at the tail and at the last `up`. -/
inductive ReadPhase where
  | idle
  | down (count : Nat) (nonblock : Bool)
  | testing (count : Nat) (nonblock : Bool)
  | empty (count : Nat) (nonblock : Bool)
  | waiting (count : Nat) (nonblock : Bool)
  | sizing (count : Nat)
  | sized (count : Nat)
  | copied (octets : List UInt8)
  | advanced (octets : List UInt8)
deriving DecidableEq

inductive ReadReturn where
  | error (errno : Int)
  | octets (octets : List UInt8)
deriving DecidableEq

/-- Where `generic_raw_uart_handle_rx_char` stands: the test for space passed,
and the byte stored. -/
inductive RxPhase where
  | idle
  | passed (data : UInt8)
  | stored (data : UInt8)
deriving DecidableEq

/-- A call of `generic_raw_uart_handle_rx_char` with the number of bytes in the
ring when it looked and whether it went on to store its byte. -/
structure RxCall where
  flags : UInt8
  data : UInt8
  held : Nat
  taken : Bool
deriving DecidableEq

/-- The ring and everybody around it. `accepted` are the bytes the head has
passed since the reset, `successes` the results of the reads that have moved the
tail and `returns` what the reads have returned. -/
structure RxSide (Reader : Type) where
  rxbuf : CircRing UInt8
  sem : Option Reader
  readers : Reader → ReadPhase
  producer : RxPhase
  calls : List RxCall
  accepted : List UInt8
  successes : List (List UInt8)
  returns : List (Reader × ReadReturn)

inductive RxAction (Reader : Type) where
  | rxChar (flags data : UInt8)
  | rxStore
  | rxAdvance
  | enter (r : Reader) (count : Nat) (nonblock : Bool)
  | down (r : Reader)
  | test (r : Reader)
  | leaveEmpty (r : Reader)
  | wake (r : Reader)
  | size (r : Reader)
  | copy (r : Reader) (fault : Bool)
  | advance (r : Reader)
  | leave (r : Reader)
  | signal (r : Reader)

def intOf (count : Nat) : Int := (count : Int).bmod (2 ^ 32)

def readCount (rxbuf : CircRing UInt8) (count : Nat) : Nat :=
  (min (intOf count) (circCntToEnd rxbuf.head rxbuf.tail circbufSize : Int) % 2 ^ 64).toNat

/-- `if (++head >= CIRCBUF_SIZE) head = 0`. -/
def bumpHead (head : Nat) : Nat := if head + 1 ≥ circbufSize then 0 else head + 1

/-- `tail += count; if (tail >= CIRCBUF_SIZE) tail -= CIRCBUF_SIZE`. -/
def addTail (tail count : Nat) : Nat :=
  if tail + count ≥ circbufSize then tail + count - circbufSize else tail + count

variable {Reader : Type} [DecidableEq Reader]

def RxSide.moveTo (side : RxSide Reader) (r : Reader) (phase : ReadPhase) (sem : Option Reader) :
    RxSide Reader :=
  { side with readers := Function.update side.readers r phase, sem := sem }

def RxSide.finish (side : RxSide Reader) (r : Reader) (ret : ReadReturn) (sem : Option Reader) :
    RxSide Reader :=
  { side.moveTo r .idle sem with returns := side.returns ++ [(r, ret)] }

def producerStep (side : RxSide Reader) : RxAction Reader → Option (RxSide Reader)
  | .rxChar flags data =>
      match side.producer with
      | .idle =>
          let held := side.rxbuf.contents.length
          let taken := flags &&& rxStateBreak = 0 ∧
            circSpace side.rxbuf.head side.rxbuf.tail circbufSize ≠ 0
          some { side with
            producer := if taken then .passed data else .idle
            calls := side.calls ++ [⟨flags, data, held, taken⟩] }
      | _ => none
  | .rxStore =>
      match side.producer with
      | .passed data => do
          let buf ← store side.rxbuf.buf side.rxbuf.head data
          return { side with
            rxbuf := { side.rxbuf with buf := buf }
            producer := .stored data }
      | _ => none
  | .rxAdvance =>
      match side.producer with
      | .stored data =>
          some { side with
            rxbuf := { side.rxbuf with head := bumpHead side.rxbuf.head }
            producer := .idle
            accepted := side.accepted ++ [data] }
      | _ => none
  | _ => none

/-- What a reader does next. A signal ends both waits; after the data was found
it changes nothing any more. -/
def readerStep (side : RxSide Reader) : RxAction Reader → Option (RxSide Reader)
  | .enter r count nonblock =>
      match side.readers r with
      | .idle => some (side.moveTo r (.down count nonblock) side.sem)
      | _ => none
  | .down r =>
      match side.readers r, side.sem with
      | .down count nonblock, none => some (side.moveTo r (.testing count nonblock) (some r))
      | _, _ => none
  | .test r =>
      match side.readers r with
      | .testing count nonblock =>
          if circCnt side.rxbuf.head side.rxbuf.tail circbufSize = 0 then
            some (side.moveTo r (.empty count nonblock) none)
          else some (side.moveTo r (.sizing count) side.sem)
      | _ => none
  | .leaveEmpty r =>
      match side.readers r with
      | .empty count nonblock =>
          if nonblock then some (side.finish r (.error (-eagain)) side.sem)
          else some (side.moveTo r (.waiting count nonblock) side.sem)
      | _ => none
  | .wake r =>
      match side.readers r with
      | .waiting count nonblock =>
          if circCnt side.rxbuf.head side.rxbuf.tail circbufSize = 0 then some side
          else some (side.moveTo r (.down count nonblock) side.sem)
      | _ => none
  | .size r =>
      match side.readers r with
      | .sizing count => some (side.moveTo r (.sized (readCount side.rxbuf count)) side.sem)
      | _ => none
  | .copy r fault =>
      match side.readers r with
      | .sized count => do
          let octets ← loadRange side.rxbuf.buf side.rxbuf.tail count
          if fault then return side.finish r (.error (-efault)) none
          else return side.moveTo r (.copied octets) side.sem
      | _ => none
  | .advance r =>
      match side.readers r with
      | .copied octets =>
          some { side.moveTo r (.advanced octets) side.sem with
            rxbuf := { side.rxbuf with tail := addTail side.rxbuf.tail octets.length }
            successes := side.successes ++ [octets] }
      | _ => none
  | .leave r =>
      match side.readers r with
      | .advanced octets => some (side.finish r (.octets octets) none)
      | _ => none
  | .signal r =>
      match side.readers r with
      | .down _ _ | .waiting _ _ => some (side.finish r (.error (-erestartsys)) side.sem)
      | _ => none
  | _ => none

def step (side : RxSide Reader) : RxAction Reader → Option (RxSide Reader)
  | .rxChar flags data => producerStep side (.rxChar flags data)
  | .rxStore => producerStep side .rxStore
  | .rxAdvance => producerStep side .rxAdvance
  | action => readerStep side action

/-- After the reset in `generic_raw_uart_open`, with whatever the buffer holds. -/
def Reset (side : RxSide Reader) : Prop :=
  side.rxbuf.buf.length = circbufSize ∧ side.rxbuf.head = 0 ∧ side.rxbuf.tail = 0 ∧
    side.sem = none ∧ (∀ r, side.readers r = .idle) ∧ side.producer = .idle ∧ side.calls = [] ∧
    side.accepted = [] ∧ side.successes = [] ∧ side.returns = []

def Reads (_ : RxSide Reader) : RxAction Reader → Prop
  | .enter _ count _ => count ≤ intMax
  | _ => True

def ReadPhase.holds : ReadPhase → Bool
  | .testing _ _ | .sizing _ | .sized _ | .copied _ | .advanced _ => true
  | _ => false

def ReadPhase.count? : ReadPhase → Option Nat
  | .down count _ | .testing count _ | .empty count _ | .waiting count _ | .sizing count =>
      some count
  | _ => none

/-- The result of a read that has moved the tail and not yet returned. -/
def ReadPhase.taken : ReadPhase → List (List UInt8)
  | .advanced octets => [octets]
  | _ => []

def ReadReturn.octets? : ReadReturn → Option (List UInt8)
  | .octets data => some data
  | .error _ => none

def RxPhase.pending : RxPhase → List UInt8
  | .idle => []
  | .passed data | .stored data => [data]

def returned (returns : List (Reader × ReadReturn)) : List (List UInt8) :=
  returns.filterMap fun entry => entry.2.octets?

/-- The read between the tail and its return; only the holder of the semaphore
can be there. -/
def inFlight (side : RxSide Reader) : List (List UInt8) :=
  match side.sem with
  | none => []
  | some r => (side.readers r).taken

def Prepared (rxbuf : CircRing UInt8) : ReadPhase → Prop
  | .sized count => count ≤ rxbuf.contents.length ∧ rxbuf.tail + count ≤ circbufSize
  | .copied octets => octets <+: rxbuf.contents ∧ rxbuf.tail + octets.length ≤ circbufSize
  | _ => True

/-- The test for space is still good and a stored byte lies at the head. -/
def Producing (rxbuf : CircRing UInt8) : RxPhase → Prop
  | .idle => True
  | .passed _ => 1 ≤ circSpace rxbuf.head rxbuf.tail circbufSize
  | .stored data => 1 ≤ circSpace rxbuf.head rxbuf.tail circbufSize ∧
      load rxbuf.buf rxbuf.head = some data

structure Lossless (side : RxSide Reader) : Prop where
  formed : side.rxbuf.WellFormed circbufSize
  law : side.successes.flatten ++ side.rxbuf.contents = side.accepted
  holder : ∀ r, (side.readers r).holds = true ↔ side.sem = some r
  bounded : ∀ r count, (side.readers r).count? = some count → count ≤ intMax
  prepared : ∀ r, Prepared side.rxbuf (side.readers r)
  producing : Producing side.rxbuf side.producer
  settled : returned side.returns ++ inFlight side = side.successes
  offered : (side.calls.filter RxCall.taken).map RxCall.data =
    side.accepted ++ side.producer.pending
  refused : ∀ call ∈ side.calls, call.taken = false →
    call.flags &&& rxStateBreak ≠ 0 ∨ call.held = 1023

omit [DecidableEq Reader] in
theorem lossless_reset {side : RxSide Reader} (reset : Reset side) : Lossless side := by
  obtain ⟨size, head, tail, sem, readers, producer, calls, accepted, successes, returns⟩ := reset
  have zero : 0 < circbufSize := by decide
  have empty : side.rxbuf.contents = [] := by
    simp [CircRing.contents, head, tail, circCnt]
  refine ⟨⟨size, by rw [head]; exact zero, by rw [tail]; exact zero⟩, ?_, ?_, ?_, ?_, ?_, ?_, ?_, ?_⟩
  · rw [successes, empty, accepted]
    rfl
  · intro r
    rw [readers, sem]
    simp [ReadPhase.holds]
  · intro r count running
    rw [readers] at running
    cases running
  · intro r
    rw [readers]
    trivial
  · rw [producer]
    trivial
  · rw [returns, successes, inFlight, sem]
    rfl
  · rw [calls, accepted, producer]
    rfl
  · intro call member
    rw [calls] at member
    cases member

theorem Lossless.reader {side : RxSide Reader} (held : Lossless side) {r : Reader}
    {phase : ReadPhase} {sem : Option Reader} {returns : List (Reader × ReadReturn)}
    (mine : phase.holds = true ↔ sem = some r)
    (others : ∀ other, other ≠ r → (sem = some other ↔ side.sem = some other))
    (bounded : ∀ count, phase.count? = some count → count ≤ intMax)
    (prepared : Prepared side.rxbuf phase)
    (settled : returned returns ++ inFlight (side.moveTo r phase sem) = side.successes) :
    Lossless { side.moveTo r phase sem with returns := returns } := by
  refine ⟨held.formed, held.law, ?_, ?_, ?_, held.producing, settled, held.offered, held.refused⟩
  · intro other
    dsimp only [RxSide.moveTo]
    by_cases same : other = r
    · subst same
      rw [Function.update_self]
      exact mine
    · rw [Function.update_of_ne same, held.holder other]
      exact (others other same).symm
  · intro other count running
    dsimp only [RxSide.moveTo] at running
    by_cases same : other = r
    · subst same
      rw [Function.update_self] at running
      exact bounded count running
    · rw [Function.update_of_ne same] at running
      exact held.bounded other count running
  · intro other
    dsimp only [RxSide.moveTo]
    by_cases same : other = r
    · subst same
      rw [Function.update_self]
      exact prepared
    · rw [Function.update_of_ne same]
      exact held.prepared other

theorem inFlight_quiet {side : RxSide Reader} {r : Reader} (phase : ReadPhase)
    {sem : Option Reader} (old : (side.readers r).taken = []) (new : phase.taken = [])
    (others : ∀ other, other ≠ r → (sem = some other ↔ side.sem = some other)) :
    inFlight (side.moveTo r phase sem) = inFlight side := by
  -- If no other reader holds the semaphore, nothing is in flight before.
  have nothing : (∀ other, other ≠ r → side.sem ≠ some other) → inFlight side = [] := by
    intro alone
    unfold inFlight
    cases holder : side.sem with
    | none => rfl
    | some first =>
        by_cases same : first = r
        · rw [same]
          exact old
        · exact absurd holder (alone first same)
  cases sem with
  | none =>
      rw [nothing]
      · rfl
      · intro other differs holder
        cases (others other differs).mpr holder
  | some first =>
      by_cases same : first = r
      · subst same
        rw [nothing]
        · simp only [inFlight, RxSide.moveTo, Function.update_self, new]
        · intro other differs holder
          cases (others other differs).mpr holder
          exact differs rfl
      · have holder := (others first same).mp rfl
        simp only [inFlight, RxSide.moveTo, Function.update_of_ne same, holder]

theorem Lossless.quiet {side : RxSide Reader} (held : Lossless side) {r : Reader}
    {phase : ReadPhase} {sem : Option Reader} (old : (side.readers r).taken = [])
    (new : phase.taken = []) (mine : phase.holds = true ↔ sem = some r)
    (others : ∀ other, other ≠ r → (sem = some other ↔ side.sem = some other))
    (bounded : ∀ count, phase.count? = some count → count ≤ intMax)
    (prepared : Prepared side.rxbuf phase) : Lossless (side.moveTo r phase sem) := by
  have settled := held.settled
  rw [← inFlight_quiet phase old new others] at settled
  exact held.reader mine others bounded prepared settled

theorem Lossless.fail {side : RxSide Reader} (held : Lossless side) {r : Reader} {errno : Int}
    {sem : Option Reader} (old : (side.readers r).taken = []) (mine : sem ≠ some r)
    (others : ∀ other, other ≠ r → (sem = some other ↔ side.sem = some other)) :
    Lossless (side.finish r (.error errno) sem) := by
  have settled := held.settled
  rw [← inFlight_quiet .idle old rfl others] at settled
  refine held.reader ?_ others nofun trivial ?_
  · simpa [ReadPhase.holds] using mine
  · simpa [returned, ReadReturn.octets?] using settled

theorem readCount_eq {rxbuf : CircRing UInt8} (formed : rxbuf.WellFormed circbufSize) {count : Nat}
    (bounded : count ≤ intMax) :
    readCount rxbuf count = min count (min rxbuf.contents.length (circbufSize - rxbuf.tail)) := by
  have same : intOf count = count := by
    unfold intMax at bounded
    exact Int.bmod_eq_of_le (by omega) (by omega)
  have small : circCnt rxbuf.head rxbuf.tail circbufSize < circbufSize :=
    Nat.mod_lt _ (by decide)
  rw [readCount, same, circCntToEnd_eq formed.tail, contents_length formed]
  unfold circbufSize intMax at *
  omega

theorem prepared_sized {rxbuf : CircRing UInt8} (formed : rxbuf.WellFormed circbufSize)
    {count : Nat} (bounded : count ≤ intMax) :
    Prepared rxbuf (.sized (readCount rxbuf count)) := by
  have tail := formed.tail
  rw [readCount_eq formed bounded]
  constructor
  · omega
  · omega

theorem prepared_copied {rxbuf : CircRing UInt8} (formed : rxbuf.WellFormed circbufSize)
    {count : Nat} (prepared : Prepared rxbuf (.sized count)) :
    ∃ octets, loadRange rxbuf.buf rxbuf.tail count = some octets ∧
      Prepared rxbuf (.copied octets) := by
  obtain ⟨available, unbroken⟩ := prepared
  have start : (rxbuf.tail + 0) % circbufSize = rxbuf.tail := Nat.mod_eq_of_lt formed.tail
  have loaded := read_behind formed 0 count
    (by rw [Nat.zero_add, ← contents_length formed]; exact available)
    (by rw [start]; exact unbroken)
  rw [start, List.drop_zero] at loaded
  refine ⟨rxbuf.contents.take count, loaded, List.take_prefix count _, ?_⟩
  rw [List.length_take, Nat.min_eq_left available]
  exact unbroken

theorem addTail_eq {tail count : Nat} (bounded : tail < circbufSize)
    (unbroken : tail + count ≤ circbufSize) : addTail tail count = (tail + count) % circbufSize := by
  rw [addTail, mod_wrap (by omega)]
  split <;> split <;> omega

theorem bumpHead_eq {head : Nat} (bounded : head < circbufSize) :
    bumpHead head = (head + 1) % circbufSize := by
  rw [bumpHead, mod_wrap (by omega)]
  split <;> split <;> omega

/-- Between its addition and its wrap an index may be the size of the ring. To the
other side it is then 0 already. -/
theorem index_in_between {other : Nat} (bounded : other < circbufSize) :
    circCnt circbufSize other circbufSize = circCnt 0 other circbufSize ∧
      circCntToEnd circbufSize other circbufSize = circCntToEnd 0 other circbufSize ∧
      circSpace other circbufSize circbufSize = circSpace other 0 circbufSize := by
  have count : circCnt circbufSize other circbufSize = circCnt 0 other circbufSize := by
    unfold circbufSize circCnt at *
    omega
  refine ⟨count, ?_, ?_⟩
  · rw [circCntToEnd_eq bounded, circCntToEnd_eq bounded, count]
  · unfold circbufSize circSpace circCnt at *
    omega

theorem advance_tail {rxbuf : CircRing UInt8} (formed : rxbuf.WellFormed circbufSize)
    {octets : List UInt8} (prepared : Prepared rxbuf (.copied octets)) :
    CircRing.WellFormed { rxbuf with tail := addTail rxbuf.tail octets.length } circbufSize ∧
      octets ++ CircRing.contents { rxbuf with tail := addTail rxbuf.tail octets.length } =
        rxbuf.contents := by
  obtain ⟨⟨rest, shape⟩, unbroken⟩ := prepared
  have available : octets.length ≤ circCnt rxbuf.head rxbuf.tail circbufSize := by
    rw [← contents_length formed, ← shape, List.length_append]
    exact Nat.le_add_right _ _
  obtain ⟨kept, contents⟩ := consume formed available
  rw [addTail_eq formed.tail unbroken]
  refine ⟨kept, ?_⟩
  rw [contents, ← shape, List.drop_left]

/-- Space only grows when the tail moves, and the head stays. -/
theorem producing_tail {rxbuf : CircRing UInt8} (formed : rxbuf.WellFormed circbufSize)
    {tail : Nat} (kept : CircRing.WellFormed { rxbuf with tail := tail } circbufSize)
    (fewer : (CircRing.contents { rxbuf with tail := tail }).length ≤ rxbuf.contents.length)
    {phase : RxPhase} (held : Producing rxbuf phase) :
    Producing { rxbuf with tail := tail } phase := by
  have space : 1 ≤ circSpace rxbuf.head rxbuf.tail circbufSize →
      1 ≤ circSpace rxbuf.head tail circbufSize := by
    intro room
    rw [contents_length formed, contents_length kept] at fewer
    rw [circSpace_eq formed.head formed.tail] at room
    have after := circSpace_eq kept.head kept.tail
    dsimp only at after fewer
    rw [after]
    omega
  cases phase with
  | idle => trivial
  | passed data => exact space held
  | stored data => exact ⟨space held.1, held.2⟩

theorem prepared_unheld {rxbuf : CircRing UInt8} {phase : ReadPhase}
    (unheld : ¬ phase.holds = true) : Prepared rxbuf phase := by
  cases phase with
  | sized count => exact absurd rfl unheld
  | copied octets => exact absurd rfl unheld
  | _ => trivial

omit [DecidableEq Reader] in
theorem release_others {side : RxSide Reader} {r : Reader} (holder : side.sem = some r) :
    ∀ other, other ≠ r → (none = some other ↔ side.sem = some other) := by
  intro other differs
  rw [holder]
  simp [Ne.symm differs]

omit [DecidableEq Reader] in
theorem Lossless.under {side : RxSide Reader} (held : Lossless side) {r : Reader}
    {phase : ReadPhase} (here : side.readers r = phase) (holds : phase.holds = true) :
    side.sem = some r := by
  rw [← here] at holds
  exact (held.holder r).mp holds

omit [DecidableEq Reader] in
theorem Lossless.outside {side : RxSide Reader} (held : Lossless side) {r : Reader}
    {phase : ReadPhase} (here : side.readers r = phase) (free : phase.holds = false) :
    side.sem ≠ some r := by
  intro holder
  have holds := (held.holder r).mpr holder
  rw [here, free] at holds
  cases holds

omit [DecidableEq Reader] in
theorem Lossless.asked {side : RxSide Reader} (held : Lossless side) {r : Reader}
    {before phase : ReadPhase} (here : side.readers r = before)
    (same : phase.count? = before.count?) :
    ∀ count, phase.count? = some count → count ≤ intMax := by
  intro count running
  rw [same, ← here] at running
  exact held.bounded r count running

omit [DecidableEq Reader] in
theorem Lossless.ready {side : RxSide Reader} (held : Lossless side) {r : Reader}
    {phase : ReadPhase} (here : side.readers r = phase) : Prepared side.rxbuf phase := by
  rw [← here]
  exact held.prepared r

theorem lossless_advance {side : RxSide Reader} (held : Lossless side) {r : Reader}
    {octets : List UInt8} (phase : side.readers r = .copied octets) :
    Lossless { side.moveTo r (.advanced octets) side.sem with
      rxbuf := { side.rxbuf with tail := addTail side.rxbuf.tail octets.length }
      successes := side.successes ++ [octets] } := by
  have holder : side.sem = some r := held.under phase rfl
  obtain ⟨formed, contents⟩ := advance_tail held.formed (held.ready phase)
  have fewer : (CircRing.contents { side.rxbuf with
      tail := addTail side.rxbuf.tail octets.length }).length ≤ side.rxbuf.contents.length := by
    rw [← contents, List.length_append]
    exact Nat.le_add_left _ _
  have others : ∀ other, other ≠ r → ¬ (side.readers other).holds = true := by
    intro other differs holds
    have also := (held.holder other).mp holds
    rw [holder] at also
    cases also
    exact differs rfl
  refine ⟨formed, ?_, ?_, ?_, ?_, producing_tail held.formed formed fewer held.producing, ?_,
    held.offered, held.refused⟩
  · rw [List.flatten_append, List.flatten_singleton, List.append_assoc]
    dsimp only
    rw [contents, held.law]
    rfl
  · intro other
    dsimp only [RxSide.moveTo]
    by_cases same : other = r
    · subst same
      rw [Function.update_self, holder]
      simp [ReadPhase.holds]
    · rw [Function.update_of_ne same]
      exact held.holder other
  · intro other count running
    dsimp only [RxSide.moveTo] at running
    by_cases same : other = r
    · subst same
      rw [Function.update_self] at running
      cases running
    · rw [Function.update_of_ne same] at running
      exact held.bounded other count running
  · intro other
    dsimp only [RxSide.moveTo]
    by_cases same : other = r
    · subst same
      rw [Function.update_self]
      trivial
    · rw [Function.update_of_ne same]
      exact prepared_unheld (others other same)
  · have settled := held.settled
    simp only [inFlight, holder, phase, ReadPhase.taken, List.append_nil] at settled
    simp only [inFlight, RxSide.moveTo, holder, Function.update_self, ReadPhase.taken, settled]

theorem Lossless.stay {side : RxSide Reader} (held : Lossless side) {r : Reader}
    {before phase : ReadPhase} (here : side.readers r = before) (old : before.taken = [])
    (new : phase.taken = []) (same : phase.holds = before.holds)
    (bounded : ∀ count, phase.count? = some count → count ≤ intMax)
    (prepared : Prepared side.rxbuf phase) : Lossless (side.moveTo r phase side.sem) := by
  refine held.quiet ?_ new ?_ (fun _ _ => Iff.rfl) bounded prepared
  · rw [here]
    exact old
  · rw [same, ← here]
    exact held.holder r

theorem Lossless.failOutside {side : RxSide Reader} (held : Lossless side) {r : Reader}
    {phase : ReadPhase} {errno : Int} (here : side.readers r = phase) (old : phase.taken = [])
    (free : phase.holds = false) : Lossless (side.finish r (.error errno) side.sem) := by
  refine held.fail ?_ (held.outside here free) fun _ _ => Iff.rfl
  rw [here]
  exact old

theorem lossless_down {side : RxSide Reader} (held : Lossless side) {r : Reader} {count : Nat}
    {nonblock : Bool} (phase : side.readers r = .down count nonblock) (free : side.sem = none) :
    Lossless (side.moveTo r (.testing count nonblock) (some r)) := by
  refine held.quiet (by rw [phase]; rfl) rfl (by simp [ReadPhase.holds]) ?_ (held.asked phase rfl)
    trivial
  intro other differs
  rw [free]
  simp [Ne.symm differs]

theorem lossless_empty {side : RxSide Reader} (held : Lossless side) {r : Reader} {count : Nat}
    {nonblock : Bool} (phase : side.readers r = .testing count nonblock) :
    Lossless (side.moveTo r (.empty count nonblock) none) :=
  held.quiet (by rw [phase]; rfl) rfl (by simp [ReadPhase.holds])
    (release_others (held.under phase rfl)) (held.asked phase rfl) trivial

theorem lossless_leave {side : RxSide Reader} (held : Lossless side) {r : Reader}
    {octets : List UInt8} (phase : side.readers r = .advanced octets) :
    Lossless (side.finish r (.octets octets) none) := by
  have holder : side.sem = some r := held.under phase rfl
  have settled := held.settled
  simp only [inFlight, holder, phase, ReadPhase.taken] at settled
  refine held.reader (by simp [ReadPhase.holds]) (release_others holder) nofun trivial ?_
  rw [returned, List.filterMap_append, ← returned, ← settled]
  exact List.append_nil _

theorem lossless_readerStep {side after : RxSide Reader} {action : RxAction Reader}
    (held : Lossless side) (allowed : Reads side action)
    (taken : readerStep side action = some after) : Lossless after := by
  cases action with
  | enter r count nonblock =>
      simp only [readerStep] at taken
      split at taken <;> cases taken
      rename_i phase
      refine held.stay phase rfl rfl rfl ?_ trivial
      rintro _ ⟨⟩
      exact allowed
  | down r =>
      simp only [readerStep] at taken
      split at taken <;> cases taken
      rename_i count nonblock phase free
      exact lossless_down held phase free
  | test r =>
      simp only [readerStep] at taken
      split at taken
      · rename_i count nonblock phase
        split at taken <;> cases taken
        · exact lossless_empty held phase
        · exact held.stay phase rfl rfl rfl (held.asked phase rfl) trivial
      · cases taken
  | leaveEmpty r =>
      simp only [readerStep] at taken
      split at taken
      · rename_i count nonblock phase
        split at taken <;> cases taken
        · exact held.failOutside phase rfl rfl
        · exact held.stay phase rfl rfl rfl (held.asked phase rfl) trivial
      · cases taken
  | wake r =>
      simp only [readerStep] at taken
      split at taken
      · rename_i count nonblock phase
        split at taken <;> cases taken
        · exact held
        · exact held.stay phase rfl rfl rfl (held.asked phase rfl) trivial
      · cases taken
  | size r =>
      simp only [readerStep] at taken
      split at taken <;> cases taken
      rename_i count phase
      have bounded : count ≤ intMax := held.asked phase rfl count rfl
      exact held.stay phase rfl rfl rfl nofun (prepared_sized held.formed bounded)
  | copy r fault =>
      simp only [readerStep] at taken
      split at taken
      · rename_i count phase
        obtain ⟨octets, loaded, copied⟩ := prepared_copied held.formed (held.ready phase)
        rw [loaded, Option.bind_eq_bind, Option.bind_some] at taken
        split at taken <;> cases taken
        · exact held.fail (by rw [phase]; rfl) nofun (release_others (held.under phase rfl))
        · exact held.stay phase rfl rfl rfl nofun copied
      · cases taken
  | advance r =>
      simp only [readerStep] at taken
      split at taken <;> cases taken
      rename_i octets phase
      exact lossless_advance held phase
  | leave r =>
      simp only [readerStep] at taken
      split at taken <;> cases taken
      rename_i octets phase
      exact lossless_leave held phase
  | signal r =>
      -- Only the two waits can be interrupted, and neither holds the semaphore.
      simp only [readerStep] at taken
      split at taken <;> cases taken
      · rename_i count nonblock phase
        exact held.failOutside phase rfl rfl
      · rename_i count nonblock phase
        exact held.failOutside phase rfl rfl
  | rxChar flags data => cases taken
  | rxStore => cases taken
  | rxAdvance => cases taken

theorem Prepared.grown {rxbuf after : CircRing UInt8} {more : List UInt8} {phase : ReadPhase}
    (held : Prepared rxbuf phase) (tail : after.tail = rxbuf.tail)
    (contents : after.contents = rxbuf.contents ++ more) : Prepared after phase := by
  cases phase with
  | sized count =>
      obtain ⟨available, unbroken⟩ := held
      refine ⟨?_, by rw [tail]; exact unbroken⟩
      rw [contents, List.length_append]
      exact Nat.le_add_right_of_le available
  | copied octets =>
      obtain ⟨front, unbroken⟩ := held
      refine ⟨?_, by rw [tail]; exact unbroken⟩
      rw [contents]
      exact front.trans (List.prefix_append _ _)
  | _ => trivial

omit [DecidableEq Reader] in
theorem lossless_rxChar {side : RxSide Reader} (held : Lossless side) (flags data : UInt8)
    (idle : side.producer = .idle) :
    ∃ after, producerStep side (.rxChar flags data) = some after ∧ Lossless after := by
  simp only [producerStep, idle]
  refine ⟨_, rfl, held.formed, held.law, held.holder, held.bounded, held.prepared, ?_, held.settled,
    ?_, ?_⟩
  · dsimp only
    split
    · rename_i passed
      exact Nat.one_le_iff_ne_zero.mpr passed.2
    · trivial
  · have offered := held.offered
    rw [idle] at offered
    simp only [List.filter_append, List.map_append, offered, RxPhase.pending, List.append_nil]
    by_cases passed : flags &&& rxStateBreak = 0 ∧
        circSpace side.rxbuf.head side.rxbuf.tail circbufSize ≠ 0
    · simp [passed]
    · rw [if_neg passed, decide_eq_false passed]
      simp
  · -- A byte is refused for its break flag or because the ring is full.
    intro call member
    rcases List.mem_append.mp member with older | new
    · exact held.refused call older
    · cases List.mem_singleton.mp new
      intro failed
      have full := of_decide_eq_false failed
      by_cases broken : flags &&& rxStateBreak = 0
      · right
        have space : circSpace side.rxbuf.head side.rxbuf.tail circbufSize = 0 := by
          by_contra room
          exact full ⟨broken, room⟩
        have small : circCnt side.rxbuf.head side.rxbuf.tail circbufSize < circbufSize :=
          Nat.mod_lt _ (by decide)
        rw [circSpace_eq held.formed.head held.formed.tail] at space
        dsimp only
        rw [contents_length held.formed]
        unfold circbufSize at *
        omega
      · exact .inl broken

omit [DecidableEq Reader] in
theorem lossless_rxStore {side : RxSide Reader} (held : Lossless side) {data : UInt8}
    (passed : side.producer = .passed data) :
    ∃ after, producerStep side .rxStore = some after ∧ Lossless after := by
  have room := held.producing
  rw [passed] at room
  obtain ⟨buf, stored, formed, contents, filled⟩ := store_head held.formed room data
  simp only [producerStep, passed, stored, Option.bind_eq_bind, Option.bind_some, Option.pure_def]
  refine ⟨_, rfl, formed, ?_, held.holder, held.bounded, ?_, ⟨room, filled⟩, held.settled, ?_,
    held.refused⟩
  · dsimp only
    rw [contents]
    exact held.law
  · intro r
    refine (held.prepared r).grown ?_ (contents.trans (List.append_nil _).symm)
    rfl
  · have offered := held.offered
    rw [passed] at offered
    exact offered

omit [DecidableEq Reader] in
theorem lossless_rxAdvance {side : RxSide Reader} (held : Lossless side) {data : UInt8}
    (stored : side.producer = .stored data) :
    ∃ after, producerStep side .rxAdvance = some after ∧ Lossless after := by
  have producing := held.producing
  rw [stored] at producing
  obtain ⟨room, filled⟩ := producing
  obtain ⟨formed, contents⟩ := advance_head held.formed room filled
  rw [← bumpHead_eq held.formed.head] at formed contents
  simp only [producerStep, stored]
  refine ⟨_, rfl, formed, ?_, held.holder, held.bounded, ?_, trivial, held.settled, ?_,
    held.refused⟩
  · dsimp only
    rw [contents, ← List.append_assoc, held.law]
  · intro r
    refine (held.prepared r).grown ?_ contents
    rfl
  · have offered := held.offered
    rw [stored] at offered
    rw [offered]
    simp [RxPhase.pending]

theorem lossless_step {side after : RxSide Reader} {action : RxAction Reader}
    (held : Lossless side) (allowed : Reads side action) (taken : step side action = some after) :
    Lossless after := by
  cases action with
  | rxChar flags data =>
      cases phase : side.producer with
      | idle =>
          obtain ⟨next, done, kept⟩ := lossless_rxChar held flags data phase
          rw [step, done] at taken
          cases taken
          exact kept
      | passed _ | stored _ => simp [step, producerStep, phase] at taken
  | rxStore =>
      cases phase : side.producer with
      | passed data =>
          obtain ⟨next, done, kept⟩ := lossless_rxStore held phase
          rw [step, done] at taken
          cases taken
          exact kept
      | idle | stored _ => simp [step, producerStep, phase] at taken
  | rxAdvance =>
      cases phase : side.producer with
      | stored data =>
          obtain ⟨next, done, kept⟩ := lossless_rxAdvance held phase
          rw [step, done] at taken
          cases taken
          exact kept
      | idle | passed _ => simp [step, producerStep, phase] at taken
  | _ => exact lossless_readerStep held allowed taken

theorem step_failed {side after : RxSide Reader} {action : RxAction Reader} {r : Reader}
    {errno : Int} (taken : step side action = some after)
    (failed : after.returns = side.returns ++ [(r, .error errno)]) :
    after.rxbuf = side.rxbuf ∧ after.successes = side.successes := by
  have silent : after.returns ≠ side.returns := by
    rw [failed]
    simp
  -- Only three steps add an error: an empty read, a fault of the copy and an interrupted wait.
  cases action with
  | rxChar flags data =>
      simp only [step, producerStep] at taken
      split at taken <;> cases taken
      exact absurd rfl silent
  | rxStore =>
      simp only [step, producerStep] at taken
      split at taken
      · obtain ⟨buf, -, final⟩ := Option.bind_eq_some_iff.mp taken
        cases final
        exact absurd rfl silent
      · cases taken
  | rxAdvance =>
      simp only [step, producerStep] at taken
      split at taken <;> cases taken
      exact absurd rfl silent
  | enter r count nonblock =>
      simp only [step, readerStep] at taken
      split at taken <;> cases taken
      exact absurd rfl silent
  | down r =>
      simp only [step, readerStep] at taken
      split at taken <;> cases taken
      exact absurd rfl silent
  | test r =>
      simp only [step, readerStep] at taken
      split at taken
      · split at taken <;> cases taken <;> exact absurd rfl silent
      · cases taken
  | leaveEmpty r =>
      simp only [step, readerStep] at taken
      split at taken
      · split at taken <;> cases taken
        · exact ⟨rfl, rfl⟩
        · exact absurd rfl silent
      · cases taken
  | wake r =>
      simp only [step, readerStep] at taken
      split at taken
      · split at taken <;> cases taken <;> exact absurd rfl silent
      · cases taken
  | size r =>
      simp only [step, readerStep] at taken
      split at taken <;> cases taken
      exact absurd rfl silent
  | copy r fault =>
      simp only [step, readerStep] at taken
      split at taken
      · obtain ⟨octets, -, final⟩ := Option.bind_eq_some_iff.mp taken
        split at final <;> cases final
        · exact ⟨rfl, rfl⟩
        · exact absurd rfl silent
      · cases taken
  | advance r =>
      simp only [step, readerStep] at taken
      split at taken <;> cases taken
      exact absurd rfl silent
  | leave r =>
      simp only [step, readerStep] at taken
      split at taken <;> cases taken
      exact ⟨rfl, rfl⟩
  | signal r =>
      simp only [step, readerStep] at taken
      split at taken <;> cases taken <;> exact ⟨rfl, rfl⟩

structure ReceiveLaw (side : RxSide Reader) : Prop where
  fifo : side.successes.flatten ++ side.rxbuf.contents = side.accepted
  returned : returned side.returns ++ inFlight side = side.successes
  offered : (side.calls.filter RxCall.taken).map RxCall.data =
    side.accepted ++ side.producer.pending
  refused : ∀ call ∈ side.calls, call.taken = false →
    call.flags &&& rxStateBreak ≠ 0 ∨ call.held = 1023
  head : side.rxbuf.head < 1024
  tail : side.rxbuf.tail < 1024
  failed : ∀ action after r errno, step side action = some after →
    after.returns = side.returns ++ [(r, .error errno)] →
    after.rxbuf = side.rxbuf ∧ after.successes = side.successes
  stores : ∀ data, side.producer = .passed data → ∃ after, step side .rxStore = some after
  copies : ∀ r count fault, side.readers r = .sized count →
    ∃ after, step side (.copy r fault) = some after

theorem Lossless.receiveLaw {side : RxSide Reader} (held : Lossless side) : ReceiveLaw side where
  fifo := held.law
  returned := held.settled
  offered := held.offered
  refused := held.refused
  head := held.formed.head
  tail := held.formed.tail
  failed _ _ _ _ := step_failed
  stores data passed := by
    obtain ⟨after, done, -⟩ := lossless_rxStore held passed
    exact ⟨after, done⟩
  copies r count fault phase := by
    obtain ⟨octets, loaded, -⟩ := prepared_copied held.formed (held.ready phase)
    simp only [step, readerStep, phase, loaded, Option.bind_eq_bind, Option.bind_some]
    cases fault with
    | false => exact ⟨_, rfl⟩
    | true => exact ⟨_, rfl⟩

/-- The receive ring is a lossless queue in every state behind its reset. -/
theorem receive_lossless (side : RxSide Reader) (reached : Reachable step Reads Reset side) :
    ReceiveLaw side := by
  apply Lossless.receiveLaw
  induction reached with
  | start reset => exact lossless_reset reset
  | next action _ allowed taken ih => exact lossless_step ih allowed taken

def readsGuard (_ : RxSide Nat) : RxAction Nat → Bool
  | .enter _ count _ => count ≤ intMax
  | _ => true

theorem readsGuard_sound (side : RxSide Nat) (action : RxAction Nat)
    (passed : readsGuard side action = true) : Reads side action := by
  cases action with
  | enter r count nonblock => simpa [readsGuard, Reads] using passed
  | _ => trivial

def resetSide : RxSide Nat where
  rxbuf := ⟨List.replicate circbufSize 0, 0, 0⟩
  sem := none
  readers _ := .idle
  producer := .idle
  calls := []
  accepted := []
  successes := []
  returns := []

/-- A reader finds nothing and waits for the byte that is just being stored; a
break condition comes in between. -/
def lateByte : Option (RxSide Nat) :=
  run step readsGuard resetSide [.enter 0 10 false, .down 0, .rxChar 0 0xaa, .rxStore, .test 0,
    .rxAdvance, .leaveEmpty 0, .rxChar 1 0xbb, .wake 0, .down 0, .test 0, .size 0, .copy 0 false,
    .advance 0, .leave 0]

theorem receive_lossless_late :
    ∃ side, lateByte = some side ∧ side.returns = [(0, .octets [0xaa])] ∧
      side.accepted = [0xaa] ∧ ReceiveLaw side := by
  have evaluated : (lateByte.map fun side => (side.returns, side.accepted)) =
      some ([(0, .octets [0xaa])], [0xaa]) := by decide +kernel
  obtain ⟨side, done, facts⟩ := Option.map_eq_some_iff.mp evaluated
  simp only [Prod.mk.injEq] at facts
  refine ⟨side, done, facts.1, facts.2, ?_⟩
  exact receive_lossless side (run_reachable readsGuard_sound _ (.start ⟨List.length_replicate, rfl,
    rfl, rfl, fun _ => rfl, rfl, rfl, rfl, rfl, rfl⟩) done)

end PiVccu.RawUartRx
