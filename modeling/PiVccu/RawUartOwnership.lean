import PiVccu.RawUartTx

/-!
Who owns the transmitter of `kernel/generic_raw_uart.c`. A signal in the second
wait of `generic_raw_uart_write` ends the call without giving the transmitter
back; in the runs where that exit is only taken after the transmitter has moved
on, `tx_connection` is always an open connection with a write in progress.
-/

namespace PiVccu.RawUartOwnership
open RawUartTx Transition

variable {Conn Hardware : Type}

/-- The call whose bytes are in `txbuf`. -/
def loaded? : Phase Conn → Option (Write Conn)
  | .copied write | .indexed write | .acquiring write | .sending write | .interrupted write
  | .completed write => some write
  | _ => none

/-- The call that acquired the sender and has neither seen its completion nor
returned. -/
def holding? : Phase Conn → Option (Write Conn)
  | .sending write | .interrupted write => some write
  | _ => none

def Owned (inst : Instance Conn Hardware) : Prop :=
  ∀ c, inst.txConnection = some c → ∃ conn write, inst.conns c = some conn ∧
    conn.opened = true ∧ (conn.phase = .sending write ∨ conn.phase = .interrupted write)

/-- No byte of a write goes to the driver after the write has returned. -/
def Silent (trace : List (Event Conn)) : Prop :=
  trace.Pairwise fun earlier later =>
    ∀ write ret octets, earlier = .returned write ret → later ≠ .txChars (some write) octets

/-- What holds of one connection, whoever owns the transmitter. -/
structure Writer (nextId : Nat) (trace : List (Event Conn)) (c : Conn) (conn : Connection Conn) :
    Prop where
  mine : ∀ write, conn.phase.write? = some write → write.conn = c
  numbered : ∀ write, conn.phase.write? = some write → write.id < nextId
  unreturned : ∀ write ret, conn.phase.write? = some write → .returned write ret ∉ trace
  opened : conn.phase ≠ .idle → conn.opened = true
  loaded : ∀ write, loaded? conn.phase = some write → conn.source = some write

structure Ownership (inst : Instance Conn Hardware) : Prop where
  writers : ∀ c conn, inst.conns c = some conn → Writer inst.nextId inst.trace c conn
  numbered : ∀ write ret, .returned write ret ∈ inst.trace → write.id < inst.nextId
  owner : ∀ c, inst.txConnection = some c → ∃ conn write, inst.conns c = some conn ∧
    holding? conn.phase = some write
  silent : Silent inst.trace
  safe : inst.useAfterFree = false

theorem holding_write {phase : Phase Conn} {write : Write Conn}
    (holding : holding? phase = some write) :
    phase.write? = some write ∧ loaded? phase = some write ∧ phase ≠ .idle := by
  cases phase <;> simp_all [holding?, loaded?, Phase.write?]

theorem Writer.extend {nextId later : Nat} {trace : List (Event Conn)} {c : Conn}
    {conn : Connection Conn} (writer : Writer nextId trace c conn) (events : List (Event Conn))
    (grown : nextId ≤ later)
    (quiet : ∀ write ret, conn.phase.write? = some write → .returned write ret ∉ events) :
    Writer later (trace ++ events) c conn where
  mine := writer.mine
  numbered := by
    intro write running
    exact Nat.lt_of_lt_of_le (writer.numbered write running) grown
  unreturned := by
    intro write ret running member
    rcases List.mem_append.mp member with before | after
    · exact writer.unreturned write ret running before
    · exact quiet write ret running after
  opened := writer.opened
  loaded := writer.loaded

theorem writer_idle {nextId : Nat} {trace : List (Event Conn)} {c : Conn} {conn : Connection Conn}
    (idle : conn.phase = .idle) : Writer nextId trace c conn where
  mine := by simp [idle, Phase.write?]
  numbered := by simp [idle, Phase.write?]
  unreturned := by simp [idle, Phase.write?]
  opened := by simp [idle]
  loaded := by simp [idle, loaded?]

theorem copyFromUser_phase (conn : Connection Conn) (write : Write Conn) (fault : Option (List UInt8)) :
    (copyFromUser conn write fault).opened = conn.opened ∧
      ((∃ error, (copyFromUser conn write fault).phase = .failed write error) ∨
        ((copyFromUser conn write fault).phase = .copied write ∧
          (copyFromUser conn write fault).source = some write)) := by
  unfold copyFromUser
  split
  · exact ⟨rfl, .inl ⟨_, rfl⟩⟩
  · cases fault with
    | some left => exact ⟨rfl, .inl ⟨_, rfl⟩⟩
    | none => exact ⟨rfl, .inr ⟨rfl, rfl⟩⟩

theorem localEffect_call {inst : Instance Conn Hardware} {c : Conn} {conn after : Connection Conn}
    {action : TxAction Conn Hardware} {events : List (Event Conn)}
    (effect : LocalEffect inst c conn action after events) :
    (events = [] ∧ after.phase.write? = conn.phase.write?) ∨
      (after.phase = .idle ∧
        ∃ write ret, conn.phase.write? = some write ∧ events = [.returned write ret]) := by
  cases effect with
  | copy fault write entered =>
      left
      obtain ⟨-, ⟨error, failed⟩ | ⟨copied, -⟩⟩ := copyFromUser_phase conn write fault
      · simp [failed, entered, Phase.write?]
      · simp [copied, entered, Phase.write?]
  | leaveFailed write error failed => simp [failed, Phase.write?]
  | leaveInterrupted write interrupted => simp [interrupted, Phase.write?]
  | leaveCompleted write completed => simp [completed, Phase.write?]
  | ioctl _ idle => simp [idle]
  | setIndex _ phase => simp [phase, Phase.write?]
  | setLength _ phase => simp [phase, Phase.write?]
  | interruptAcquire _ phase => simp [phase, Phase.write?]
  | complete _ phase => simp [phase, Phase.write?]
  | wait _ phase => simp
  | interruptComplete _ phase => simp [phase, Phase.write?]

theorem localEffect_writer {inst : Instance Conn Hardware} {c : Conn} {conn after : Connection Conn}
    {action : TxAction Conn Hardware} {events : List (Event Conn)}
    (effect : LocalEffect inst c conn action after events)
    (writer : Writer inst.nextId inst.trace c conn) :
    Writer inst.nextId (inst.trace ++ events) c after := by
  rcases localEffect_call effect with ⟨rfl, same⟩ | ⟨idle, -⟩
  · rw [List.append_nil]
    refine ⟨?_, ?_, ?_, ?_, ?_⟩
    · rw [same]
      exact writer.mine
    · rw [same]
      exact writer.numbered
    · rw [same]
      exact writer.unreturned
    · cases effect with
      | copy fault write entered =>
          intro _
          rw [(copyFromUser_phase conn write fault).1]
          exact writer.opened (by simp [entered])
      | ioctl _ idle => simp [idle]
      | _ =>
          intro _
          exact writer.opened (by simp [*])
    · cases effect with
      | copy fault write entered =>
          obtain ⟨-, ⟨error, failed⟩ | ⟨copied, source⟩⟩ := copyFromUser_phase conn write fault
          · simp [failed, loaded?]
          · simp [copied, source, loaded?]
      | ioctl _ idle => simp [idle, loaded?]
      | interruptAcquire => simp [loaded?]
      | _ =>
          have source := writer.loaded
          simp_all [loaded?]
  · exact writer_idle idle

theorem Silent.extend {trace : List (Event Conn)} (silent : Silent trace)
    (write : Write Conn) (unreturned : ∀ ret, Event.returned write ret ∉ trace)
    (chunks : List (List UInt8)) : Silent (trace ++ chunks.map (.txChars (some write))) := by
  refine List.pairwise_append.mpr ⟨silent, ?_, ?_⟩
  · refine List.pairwise_map.mpr (List.pairwise_of_forall ?_)
    intro first second call ret octets returned
    cases returned
  · intro earlier before later after call ret octets returned transmitted
    obtain ⟨chunk, -, rfl⟩ := List.mem_map.mp after
    cases transmitted
    rw [returned] at before
    exact unreturned ret before

theorem Silent.snoc {trace : List (Event Conn)} (silent : Silent trace) (event : Event Conn)
    (mute : ∀ source octets, event ≠ .txChars source octets) : Silent (trace ++ [event]) := by
  refine List.pairwise_append.mpr ⟨silent, List.pairwise_singleton _ _, ?_⟩
  intro earlier _ later after call ret octets _
  rw [List.mem_singleton.mp after]
  exact mute (some call) octets

theorem Ownership.others {inst : Instance Conn Hardware} (owned : Ownership inst) {c other : Conn}
    {conn : Connection Conn} (held : inst.conns other = some conn) (differs : other ≠ c)
    (events : List (Event Conn)) {later : Nat} (grown : inst.nextId ≤ later)
    (returns : ∀ write ret, .returned write ret ∈ events → write.conn = c) :
    Writer later (inst.trace ++ events) other conn := by
  apply (owned.writers other conn held).extend events grown
  intro write ret running member
  have home := (owned.writers other conn held).mine write running
  exact differs (home.symm.trans (returns write ret member))

variable [DecidableEq Conn]

theorem setConn_lookup {inst : Instance Conn Hardware} {c other : Conn}
    {update : Option (Connection Conn)} {conn : Connection Conn}
    (found : (inst.setConn c update).conns other = some conn) :
    (other = c ∧ update = some conn) ∨ (other ≠ c ∧ inst.conns other = some conn) := by
  by_cases same : other = c
  · subst same
    left
    exact ⟨rfl, by simpa [Instance.setConn] using found⟩
  · right
    exact ⟨same, by simpa [Instance.setConn, same] using found⟩

theorem setConn_other {inst : Instance Conn Hardware} {c other : Conn} (differs : other ≠ c)
    (update : Option (Connection Conn)) :
    (inst.setConn c update).conns other = inst.conns other := by
  simp [Instance.setConn, differs]

theorem setConn_same (inst : Instance Conn Hardware) (c : Conn)
    (update : Option (Connection Conn)) : (inst.setConn c update).conns c = update := by
  simp [Instance.setConn]

theorem ownership_thread {inst : Instance Conn Hardware} (owned : Ownership inst) {c : Conn}
    {conn after : Connection Conn} {action : TxAction Conn Hardware} {events : List (Event Conn)}
    (held : inst.conns c = some conn) (effect : LocalEffect inst c conn action after events)
    (handedOver : ∀ write, action = .leave c → conn.phase = .interrupted write →
      inst.txConnection ≠ some c) :
    Ownership { inst.setConn c (some after) with trace := inst.trace ++ events } := by
  have writer := owned.writers c conn held
  have returns : ∀ write ret, .returned write ret ∈ events →
      conn.phase.write? = some write := by
    intro write ret member
    rcases localEffect_call effect with ⟨rfl, -⟩ | ⟨-, call, ret, running, rfl⟩
    · cases member
    · cases List.mem_singleton.mp member
      exact running
  refine ⟨?_, ?_, ?_, ?_, owned.safe⟩
  · intro other conn' found
    rcases setConn_lookup found with ⟨rfl, same⟩ | ⟨differs, found⟩
    · cases same
      exact localEffect_writer effect writer
    · refine owned.others found differs events (Nat.le_refl _) ?_
      intro write ret member
      exact writer.mine write (returns write ret member)
  · intro write ret member
    rcases List.mem_append.mp member with before | now
    · exact owned.numbered write ret before
    · exact writer.numbered write (returns write ret now)
  · intro sender owns
    obtain ⟨conn', write, found, holding⟩ := owned.owner sender owns
    by_cases same : sender = c
    · subst same
      rw [held] at found
      cases found
      refine ⟨after, write, setConn_same inst sender _, ?_⟩
      -- The sender's thread can only wait, be interrupted, or leave too early.
      cases effect with
      | wait _ _ => exact holding
      | interruptComplete _ sending => simpa [sending, holding?] using holding
      | complete _ _ free => exact absurd owns free
      | leaveInterrupted call interrupted => exact absurd owns (handedOver call rfl interrupted)
      | ioctl _ idle => simp [idle, holding?] at holding
      | copy _ _ phase => simp [phase, holding?] at holding
      | setIndex _ phase => simp [phase, holding?] at holding
      | setLength _ phase => simp [phase, holding?] at holding
      | interruptAcquire _ phase => simp [phase, holding?] at holding
      | leaveFailed _ _ phase => simp [phase, holding?] at holding
      | leaveCompleted _ phase => simp [phase, holding?] at holding
    · exact ⟨conn', write, (setConn_other same _).trans found, holding⟩
  · rcases localEffect_call effect with ⟨rfl, -⟩ | ⟨-, call, ret, -, rfl⟩
    · rw [List.append_nil]
      exact owned.silent
    · exact owned.silent.snoc _ (by simp)

theorem ownership_pump (driver : RawUartDriver Hardware) {inst : Instance Conn Hardware}
    (owned : Ownership inst) : Ownership (txQueuedUnlocked driver inst) := by
  cases sender : inst.txConnection with
  | none =>
      rw [txQueuedUnlocked, sender]
      exact owned
  | some c =>
      obtain ⟨conn, write, held, holding⟩ := owned.owner c sender
      have writer := owned.writers c conn held
      obtain ⟨running, loaded, -⟩ := holding_write holding
      have source := writer.loaded write loaded
      obtain ⟨hardware, index, chunks, -, -, -, pumped⟩ :=
        txQueuedUnlocked_sender driver inst c conn sender held
      have quiet : ∀ call ret, .returned call ret ∉ chunks.map (Event.txChars conn.source) := by
        simp
      rw [pumped]
      refine ⟨?_, ?_, ?_, ?_, owned.safe⟩
      · intro other conn' found
        rcases setConn_lookup found with ⟨rfl, same⟩ | ⟨differs, found⟩
        · cases same
          have kept := writer.extend (chunks.map (.txChars conn.source)) (Nat.le_refl _)
            (fun call ret _ => quiet call ret)
          exact ⟨kept.mine, kept.numbered, kept.unreturned, kept.opened, kept.loaded⟩
        · exact owned.others found differs _ (Nat.le_refl _)
            (fun call ret member => absurd member (quiet call ret))
      · intro call ret member
        rcases List.mem_append.mp member with before | now
        · exact owned.numbered call ret before
        · exact absurd now (quiet call ret)
      · intro other owns
        dsimp only at owns
        split at owns <;> cases owns
        exact ⟨_, write, setConn_same inst c _, holding⟩
      · dsimp only
        rw [source]
        exact owned.silent.extend write (fun ret => writer.unreturned write ret running) chunks

theorem ownership_take {inst : Instance Conn Hardware} (owned : Ownership inst) {c : Conn}
    {conn : Connection Conn} {write : Write Conn} (held : inst.conns c = some conn)
    (acquiring : conn.phase = .acquiring write) : Ownership (takeSender inst c conn write) := by
  have writer := owned.writers c conn held
  have quiet : ∀ call ret, .returned call ret ∉ [Event.acquired write conn.priority] := by
    simp
  refine ⟨?_, ?_, ?_, ?_, owned.safe⟩
  · intro other conn' found
    rcases setConn_lookup found with ⟨rfl, same⟩ | ⟨differs, found⟩
    · cases same
      have kept := writer.extend [.acquired write conn.priority] (Nat.le_refl _)
        (fun call ret _ => quiet call ret)
      obtain ⟨mine, numbered, unreturned, opened, loaded⟩ := kept
      simp only [acquiring, Phase.write?, loaded?] at mine numbered unreturned opened loaded
      exact ⟨mine, numbered, unreturned, fun _ => opened (by simp), loaded⟩
    · exact owned.others found differs _ (Nat.le_refl _)
        (fun call ret member => absurd member (quiet call ret))
  · intro call ret member
    rcases List.mem_append.mp member with before | now
    · exact owned.numbered call ret before
    · exact absurd now (quiet call ret)
  · intro other owns
    cases owns
    exact ⟨_, write, setConn_same inst c _, rfl⟩
  · exact owned.silent.snoc _ (by simp)

theorem ownership_acquire (driver : RawUartDriver Hardware) {inst : Instance Conn Hardware}
    (owned : Ownership inst) {c : Conn} {conn : Connection Conn} {write : Write Conn}
    (held : inst.conns c = some conn) (acquiring : conn.phase = .acquiring write) :
    Ownership (acquireSender driver inst c conn write) := by
  have taken := ownership_take owned held acquiring
  cases sender : inst.txConnection with
  | none =>
      simp only [acquireSender, sender]
      apply ownership_pump driver
      exact ⟨taken.writers, taken.numbered, taken.owner, taken.silent, taken.safe⟩
  | some other =>
      obtain ⟨owner, call, found, -⟩ := owned.owner other sender
      simp only [acquireSender, sender, found]
      split
      · exact taken
      · exact owned

theorem ownership_openFile {inst : Instance Conn Hardware} (owned : Ownership inst) {c : Conn}
    (unallocated : inst.conns c = none) : Ownership (inst.setConn c (some freshConnection)) := by
  refine ⟨?_, owned.numbered, ?_, owned.silent, owned.safe⟩
  · intro other conn found
    rcases setConn_lookup found with ⟨rfl, same⟩ | ⟨-, found⟩
    · cases same
      exact writer_idle rfl
    · exact owned.writers other conn found
  · intro sender owns
    obtain ⟨conn, write, found, holding⟩ := owned.owner sender owns
    have differs : sender ≠ c := by
      rintro rfl
      rw [unallocated] at found
      cases found
    exact ⟨conn, write, (setConn_other differs _).trans found, holding⟩

theorem ownership_closeFile {inst : Instance Conn Hardware} (owned : Ownership inst) {c : Conn}
    {conn : Connection Conn} (held : inst.conns c = some conn) (idle : conn.phase = .idle)
    (signal : Bool) :
    Ownership (inst.setConn c (if signal then some { conn with opened := false } else none)) := by
  refine ⟨?_, owned.numbered, ?_, owned.silent, owned.safe⟩
  · intro other conn' found
    rcases setConn_lookup found with ⟨rfl, same⟩ | ⟨-, found⟩
    · split at same <;> cases same
      exact writer_idle idle
    · exact owned.writers other conn' found
  · intro sender owns
    obtain ⟨conn', write, found, holding⟩ := owned.owner sender owns
    have differs : sender ≠ c := by
      rintro rfl
      rw [held] at found
      cases found
      simp [idle, holding?] at holding
    exact ⟨conn', write, (setConn_other differs _).trans found, holding⟩

theorem ownership_enter {inst : Instance Conn Hardware} (owned : Ownership inst) {c : Conn}
    {conn : Connection Conn} (held : inst.conns c = some conn) (idle : conn.phase = .idle)
    (opened : conn.opened = true) (buffer : List UInt8) :
    Ownership { inst.setConn c (some { conn with phase := .entered ⟨inst.nextId, c, buffer⟩ }) with
      nextId := inst.nextId + 1 } := by
  refine ⟨?_, ?_, ?_, owned.silent, owned.safe⟩
  · intro other conn' found
    rcases setConn_lookup found with ⟨rfl, same⟩ | ⟨differs, found⟩
    · cases same
      refine ⟨?_, ?_, ?_, fun _ => opened, by simp [loaded?]⟩
      · rintro write ⟨⟩
        rfl
      · rintro write ⟨⟩
        exact Nat.lt_succ_self _
      · rintro write ret ⟨⟩ member
        exact Nat.lt_irrefl _ (owned.numbered _ ret member)
    · have kept := owned.others found differs [] (Nat.le_succ _) (by simp)
      rwa [List.append_nil] at kept
  · intro write ret member
    exact Nat.lt_succ_of_lt (owned.numbered write ret member)
  · intro sender owns
    obtain ⟨conn', write, found, holding⟩ := owned.owner sender owns
    have differs : sender ≠ c := by
      rintro rfl
      rw [held] at found
      cases found
      simp [idle, holding?] at holding
    exact ⟨conn', write, (setConn_other differs _).trans found, holding⟩

omit [DecidableEq Conn] in
theorem ownership_refuse {inst : Instance Conn Hardware} (owned : Ownership inst) (c : Conn)
    (buffer : List UInt8) :
    Ownership { inst with
      trace := inst.trace ++ [.returned ⟨inst.nextId, c, buffer⟩ (-erestartsys)]
      nextId := inst.nextId + 1 } := by
  refine ⟨?_, ?_, owned.owner, owned.silent.snoc _ (by simp), owned.safe⟩
  · intro other conn found
    refine (owned.writers other conn found).extend _ (Nat.le_succ _) ?_
    intro write ret running member
    -- The refused call has a number of its own.
    have older := (owned.writers other conn found).numbered write running
    cases List.mem_singleton.mp member
    exact Nat.lt_irrefl _ older
  · intro write ret member
    rcases List.mem_append.mp member with before | now
    · exact Nat.lt_succ_of_lt (owned.numbered write ret before)
    · cases List.mem_singleton.mp now
      exact Nat.lt_succ_self _

/-- The exit from an interrupted second wait is taken only when the transmitter
has already passed to another connection or to nobody. -/
def HandedOver (inst : Instance Conn Hardware) (action : TxAction Conn Hardware) : Prop :=
  ∀ c conn write, action = .leave c → inst.conns c = some conn →
    conn.phase = .interrupted write → inst.txConnection ≠ some c

theorem ownership_step (driver : RawUartDriver Hardware) {inst after : Instance Conn Hardware}
    {action : TxAction Conn Hardware} (owned : Ownership inst) (handedOver : HandedOver inst action)
    (taken : step driver inst action = some after) : Ownership after := by
  cases step_effect taken with
  | openFile c unallocated => exact ownership_openFile owned unallocated
  | closeFile c signal conn held idle => exact ownership_closeFile owned held idle signal
  | enter c buffer conn held idle opened => exact ownership_enter owned held idle opened buffer
  | refuse c buffer => exact ownership_refuse owned c buffer
  | acquire c conn write held acquiring => exact ownership_acquire driver owned held acquiring
  | thread c conn next _ events held effect =>
      exact ownership_thread owned held effect
        (fun write leaving interrupted => handedOver c conn write leaving held interrupted)
  | txQueued => exact ownership_pump driver owned
  | environment hardware =>
      exact ⟨owned.writers, owned.numbered, owned.owner, owned.silent, owned.safe⟩

def Initial (inst : Instance Conn Hardware) : Prop :=
  inst.txConnection = none ∧ (∀ c, inst.conns c = none) ∧ inst.trace = [] ∧
    inst.useAfterFree = false

omit [DecidableEq Conn] in
theorem ownership_initial {inst : Instance Conn Hardware} (initial : Initial inst) :
    Ownership inst := by
  obtain ⟨unowned, unallocated, empty, safe⟩ := initial
  refine ⟨?_, ?_, ?_, ?_, safe⟩
  · intro c conn held
    rw [unallocated c] at held
    cases held
  · intro write ret member
    rw [empty] at member
    cases member
  · intro c owns
    rw [unowned] at owns
    cases owns
  · rw [empty]
    exact List.Pairwise.nil

omit [DecidableEq Conn] in
theorem Ownership.owned {inst : Instance Conn Hardware} (owned : Ownership inst) : Owned inst := by
  intro c owns
  obtain ⟨conn, write, held, holding⟩ := owned.owner c owns
  refine ⟨conn, write, held, ?_, ?_⟩
  · exact (owned.writers c conn held).opened (holding_write holding).2.2
  · cases phase : conn.phase <;> simp_all [holding?]

/-- Along every run that satisfies `HandedOver`, the sender is open and writing,
returned writes transmit nothing and no freed connection is dereferenced. -/
theorem sender_in_progress (driver : RawUartDriver Hardware) (inst : Instance Conn Hardware)
    (reached : Reachable (step driver) HandedOver Initial inst) :
    Owned inst ∧ Silent inst.trace ∧ inst.useAfterFree = false := by
  have owned : Ownership inst := by
    refine Reachable.invariant ?_ ?_ reached
    · intro start initial
      exact ownership_initial initial
    · intro before action after owned handedOver taken
      exact ownership_step driver owned handedOver taken
  exact ⟨owned.owned, owned.silent, owned.safe⟩

def fifoDriver : RawUartDriver Nat where
  initTx := id
  isreadyForTx free := decide (0 < free)
  txChars free octets := free - octets.length
  stopTx := id
  txChunkSize := 16
  txBulktransferSize := 1
  chunk_pos := by decide
  bulk_pos := by decide

def fullFifo : Instance Nat Nat where
  txConnection := none
  conns _ := none
  hardware := 0
  trace := []
  nextId := 0
  useAfterFree := false

theorem fullFifo_initial : Initial fullFifo := ⟨rfl, fun _ => rfl, rfl, rfl⟩

def interruptedWrite : List (TxAction Nat Nat) :=
  [.openFile 0, .enter 0 [0xaa], .copy 0 none, .setIndex 0, .setLength 0, .acquire 0,
    .interruptComplete 0]

def leavesFree (inst : Instance Nat Nat) : TxAction Nat Nat → Bool
  | .leave _ => inst.txConnection.isNone
  | _ => true

theorem leavesFree_handedOver (inst : Instance Nat Nat) (action : TxAction Nat Nat)
    (passed : leavesFree inst action = true) : HandedOver inst action := by
  rintro c conn write rfl - -
  simp only [leavesFree, Option.isNone_iff_eq_none] at passed
  simp [passed]

/-- The byte is sent between the signal and the return of the call. -/
theorem sender_in_progress_interrupted :
    ∃ inst, run (step fifoDriver) leavesFree fullFifo
        (interruptedWrite ++ [.environment 1, .txQueued, .leave 0]) = some inst ∧
      inst.trace = [.acquired ⟨0, 0, [0xaa]⟩ 0, .txChars (some ⟨0, 0, [0xaa]⟩) [0xaa],
        .returned ⟨0, 0, [0xaa]⟩ (-512)] ∧
      Owned inst ∧ Silent inst.trace ∧ inst.useAfterFree = false := by
  refine ⟨_, rfl, rfl, ?_⟩
  exact sender_in_progress fifoDriver _ (run_reachable leavesFree_handedOver
    (interruptedWrite ++ [.environment 1, .txQueued, .leave 0]) (.start fullFifo_initial) rfl)

theorem interrupted_run (suffix : List (TxAction Nat Nat)) {inst : Instance Nat Nat}
    (taken : run (step fifoDriver) (fun _ _ => true) fullFifo
      (interruptedWrite ++ .leave 0 :: suffix) = some inst) :
    Reachable (step fifoDriver) (fun _ _ => True) Initial inst :=
  run_reachable (fun _ _ _ => trivial) _ (.start fullFifo_initial) taken

/-- After the signal the call returns as the sender: its connection then idles,
its byte is sent later, and the pump reads it after `kfree`. -/
theorem sender_left_behind :
    (¬ ∀ inst, Reachable (step fifoDriver) (fun _ _ => True) Initial inst →
      Owned (inst : Instance Nat Nat)) ∧
    (¬ ∀ inst, Reachable (step fifoDriver) (fun _ _ => True) Initial inst →
      Silent (inst : Instance Nat Nat).trace) ∧
    (¬ ∀ inst, Reachable (step fifoDriver) (fun _ _ => True) Initial inst →
      (inst : Instance Nat Nat).useAfterFree = false) := by
  refine ⟨?_, ?_, ?_⟩
  · intro owned
    obtain ⟨conn, write, held, -, phase⟩ := owned _ (interrupted_run [] rfl) 0 rfl
    cases held
    rcases phase with sending | interrupted
    · cases sending
    · cases interrupted
  · intro silent
    have ordered : Silent [Event.acquired (⟨0, 0, [0xaa]⟩ : Write Nat) 0,
        .returned ⟨0, 0, [0xaa]⟩ (-512), .txChars (some ⟨0, 0, [0xaa]⟩) [0xaa]] :=
      silent _ (interrupted_run [.environment 1, .txQueued] rfl)
    have late := List.pairwise_cons.mp (List.pairwise_cons.mp ordered).2
    exact late.1 _ (List.mem_singleton.mpr rfl) _ _ _ rfl rfl
  · intro safe
    have freed := safe _ (interrupted_run [.closeFile 0 false, .txQueued] rfl)
    cases freed

end PiVccu.RawUartOwnership
