import PiVccu.HbRfEthLoss

/-!
The transmit side of `kernel/hb_rf_usb.c` and `kernel/hb_rf_usb_2.c` on the generic one: one
URB with one buffer, the flag `is_in_tx` and the completion handler, which first clears the
flag and then calls `generic_raw_uart_tx_queued`. What comes between the two is up to the
other tasks.
-/

namespace PiVccu.HbRfUsbTx
open HbRfEthLoss RawUartTx Transition

def txChunkSize : Nat := 11

/-- `is_in_tx` of the port and `write_urb` as the USB core has it. `accepting` is what the next
`usb_submit_urb` meets. For the record: what was put into the buffer, with the outcome of
`usb_submit_urb`, what was given back, and whether a buffer in flight was written to. -/
structure UsbTx where
  isInTx : Bool
  urb : Option (List UInt8)
  accepting : Bool
  overwritten : Bool
  submitted : List (List UInt8 × Bool)
  finished : List (List UInt8)

/-- Nobody looks at the outcome of `usb_submit_urb`. -/
def usbTxChars (port : UsbTx) (octets : List UInt8) : UsbTx :=
  let taken := port.accepting && port.urb.isNone
  { port with
    isInTx := true
    urb := if taken then some octets else port.urb
    overwritten := port.overwritten || port.urb.isSome
    submitted := port.submitted ++ [(octets, taken)] }

/-- The first half of the completion handler. -/
def usbProcessWriteUrb (port : UsbTx) : UsbTx := { port with isInTx := false }

def usbDriver : RawUartDriver UsbTx where
  initTx := id
  isreadyForTx := fun port => !port.isInTx
  txChars := usbTxChars
  stopTx := id
  txChunkSize := txChunkSize
  txBulktransferSize := txChunkSize
  chunk_pos := Nat.succ_pos 10
  bulk_pos := Nat.succ_pos 10

def hbRfUsb : RawUartDriver UsbTx := usbDriver
def hbRfUsb2 : RawUartDriver UsbTx := usbDriver

/-- `callbacks` counts the completion handlers between their two halves. -/
structure Link (Conn : Type) where
  inst : Instance Conn UsbTx
  callbacks : Nat

inductive LinkAct (Conn : Type) where
  | file (action : TxAction Conn UsbTx)
  | giveBack
  | txQueued
  | accept (accepting : Bool)

variable {Conn : Type} [DecidableEq Conn]

def Link.setPort (link : Link Conn) (port : UsbTx) : Link Conn :=
  { link with inst := { link.inst with hardware := port } }

def step (link : Link Conn) : LinkAct Conn → Option (Link Conn)
  | .file .txQueued => none
  | .file (.environment _) => none
  | .file action => (RawUartTx.step usbDriver link.inst action).map fun inst =>
      { link with inst := inst }
  | .giveBack =>
      match link.inst.hardware.urb with
      | none => none
      | some octets =>
          let port := { link.inst.hardware with
            urb := none, finished := link.inst.hardware.finished ++ [octets] }
          some { link.setPort (usbProcessWriteUrb port) with callbacks := link.callbacks + 1 }
  | .txQueued =>
      if link.callbacks = 0 then none
      else some ⟨txQueuedUnlocked usbDriver link.inst, link.callbacks - 1⟩
  | .accept accepting => some (link.setPort { link.inst.hardware with accepting := accepting })

def remaining (inst : Instance Conn UsbTx) : Nat :=
  ((inst.txConnection.bind inst.conns).map fun conn => conn.txBufLength - conn.txBufIndex).getD 0

def chunks (inst : Instance Conn UsbTx) : Nat := (remaining inst + 10) / 11

def Freed (inst : Instance Conn UsbTx) : Prop :=
  ∃ c, inst.txConnection = some c ∧ inst.conns c = none

/-- What the pump does with this driver: nothing at all, or one chunk. -/
inductive Pumped (inst after : Instance Conn UsbTx) : Prop where
  | idle (port : after.hardware = inst.hardware) (handed : calls after.trace = calls inst.trace)
      (left : chunks after ≤ chunks inst)
      (held : after.txConnection ≠ none → inst.hardware.isInTx = true ∨ Freed inst)
  | sent (octets : List UInt8) (ready : inst.hardware.isInTx = false)
      (short : octets.length ≤ txChunkSize)
      (port : after.hardware = usbTxChars inst.hardware octets)
      (handed : calls after.trace = calls inst.trace ++ [octets])
      (left : chunks after < chunks inst)

omit [DecidableEq Conn] in
theorem txLoop_usb (txbuf : List UInt8) (length index : Nat) (port : UsbTx) :
    txLoop usbDriver txbuf length (length - index) 0 port index =
      if port.isInTx = false ∧ index < length then
        (usbTxChars port ((txbuf.drop index).take (min txChunkSize (length - index))),
          index + min txChunkSize (length - index),
          [(txbuf.drop index).take (min txChunkSize (length - index))])
      else (port, index, []) := by
  have busy : ∀ fuel txCount index octets,
      txLoop usbDriver txbuf length fuel txCount (usbTxChars port octets) index =
        (usbTxChars port octets, index, []) := by
    intro fuel txCount index octets
    cases fuel with
    | zero => rfl
    | succ fuel => simp [txLoop, usbDriver, usbTxChars]
  by_cases ready : port.isInTx = false ∧ index < length
  · rw [if_pos ready]
    have fuel : length - index = (length - index - 1) + 1 := by omega
    have enter : 0 < usbDriver.txChunkSize ∧ usbDriver.isreadyForTx port = true ∧
        index < length := ⟨usbDriver.chunk_pos, by simp [usbDriver, ready.1], ready.2⟩
    rw [fuel, txLoop, if_pos enter, ← fuel]
    dsimp only
    rw [show usbDriver.txChars = usbTxChars from rfl, busy]
    rfl
  · rw [if_neg ready]
    cases fuel : length - index with
    | zero => rfl
    | succ fuel =>
        have refused : ¬ (0 < usbDriver.txChunkSize ∧ usbDriver.isreadyForTx port = true ∧
            index < length) := by
          rintro ⟨-, idle, inside⟩
          exact ready ⟨by simpa [usbDriver] using idle, inside⟩
        rw [txLoop, if_neg refused]

section Pump
variable {inst : Instance Conn UsbTx} {c : Conn} {conn : Connection Conn}

theorem txQueuedUnlocked_usb (sender : inst.txConnection = some c)
    (held : inst.conns c = some conn) :
    txQueuedUnlocked usbDriver inst =
      if inst.hardware.isInTx = false ∧ conn.txBufIndex < conn.txBufLength then
        let bulksize := min txChunkSize (conn.txBufLength - conn.txBufIndex)
        let octets := (conn.txbuf.drop conn.txBufIndex).take bulksize
        { inst.setConn c (some { conn with txBufIndex := conn.txBufIndex + bulksize }) with
          hardware := usbTxChars inst.hardware octets
          trace := inst.trace ++ [.txChars conn.source octets]
          txConnection :=
            if conn.txBufIndex + bulksize ≥ conn.txBufLength then none else some c }
      else
        { inst.setConn c (some conn) with
          txConnection := if conn.txBufIndex ≥ conn.txBufLength then none else some c } := by
  simp only [txQueuedUnlocked, sender, held, txLoop_usb]
  by_cases ready : inst.hardware.isInTx = false ∧ conn.txBufIndex < conn.txBufLength
  · simp only [if_pos ready]
    split <;> simp [usbDriver, Instance.setConn, sender]
  · simp only [if_neg ready]
    split <;> simp [usbDriver, Instance.setConn, sender]

theorem setConn_files (held : inst.conns c = some conn) (after : Connection Conn) (other : Conn) :
    (inst.setConn c (some after)).conns other = none ↔ inst.conns other = none := by
  rw [Instance.setConn]
  dsimp only
  by_cases same : other = c
  · subst same
    simp [held]
  · rw [Function.update_of_ne same]

structure PumpFrame (inst after : Instance Conn UsbTx) : Prop where
  files : ∀ c, after.conns c = none ↔ inst.conns c = none
  sender : after.txConnection = inst.txConnection ∨ after.txConnection = none ∧
    ∀ c, inst.txConnection = some c →
      ∃ conn, after.conns c = some conn ∧ conn.txBufLength ≤ conn.txBufIndex

omit [DecidableEq Conn] in
theorem remaining_sender (sender : inst.txConnection = some c) (held : inst.conns c = some conn) :
    remaining inst = conn.txBufLength - conn.txBufIndex := by
  simp [remaining, sender, held]

theorem pump_none (idle : inst.txConnection = none) : txQueuedUnlocked usbDriver inst = inst := by
  simp [txQueuedUnlocked, idle]

theorem pump_freed (sender : inst.txConnection = some c) (freed : inst.conns c = none) :
    txQueuedUnlocked usbDriver inst = { inst with useAfterFree := true } := by
  simp [txQueuedUnlocked, sender, freed]

theorem sender_frame (sender : inst.txConnection = some c) (held : inst.conns c = some conn)
    (index : Nat) (port : UsbTx) (trace : List (Event Conn)) :
    PumpFrame inst { inst.setConn c (some { conn with txBufIndex := index }) with
      hardware := port
      trace := trace
      txConnection := if index ≥ conn.txBufLength then none else some c } := by
  refine ⟨setConn_files held _, ?_⟩
  dsimp only
  by_cases done : index ≥ conn.txBufLength
  · rw [if_pos done]
    refine .inr ⟨rfl, ?_⟩
    intro other same
    cases sender.symm.trans same
    exact ⟨_, Function.update_self .., done⟩
  · rw [if_neg done, sender]
    exact .inl rfl

theorem pump_frame (inst : Instance Conn UsbTx) :
    PumpFrame inst (txQueuedUnlocked usbDriver inst) := by
  cases sender : inst.txConnection with
  | none =>
      rw [pump_none sender]
      exact ⟨fun _ => Iff.rfl, .inl rfl⟩
  | some c =>
      cases held : inst.conns c with
      | none =>
          rw [pump_freed sender held]
          exact ⟨fun _ => Iff.rfl, .inl rfl⟩
      | some conn =>
          rw [txQueuedUnlocked_usb sender held]
          split
          · exact sender_frame sender held _ _ _
          · exact sender_frame sender held conn.txBufIndex inst.hardware inst.trace

theorem sender_remaining (inst : Instance Conn UsbTx) (c : Conn) (conn : Connection Conn)
    (index : Nat) (port : UsbTx) (trace : List (Event Conn)) :
    remaining { inst.setConn c (some { conn with txBufIndex := index }) with
      hardware := port
      trace := trace
      txConnection := if index ≥ conn.txBufLength then none else some c } =
        conn.txBufLength - index := by
  by_cases done : index ≥ conn.txBufLength
  · simp only [done, ↓reduceIte, remaining, Option.bind_none, Option.map_none, Option.getD_none]
    omega
  · simp [done, remaining, Instance.setConn]

theorem pump_pumped (inst : Instance Conn UsbTx) :
    Pumped inst (txQueuedUnlocked usbDriver inst) := by
  cases sender : inst.txConnection with
  | none =>
      rw [pump_none sender]
      exact .idle rfl rfl (Nat.le_refl _) fun held => absurd sender held
  | some c =>
      cases held : inst.conns c with
      | none =>
          rw [pump_freed sender held]
          exact .idle rfl rfl (Nat.le_refl _) fun _ => .inr ⟨c, sender, held⟩
      | some conn =>
          have before := remaining_sender sender held
          rw [txQueuedUnlocked_usb sender held]
          by_cases ready : inst.hardware.isInTx = false ∧ conn.txBufIndex < conn.txBufLength
          · rw [if_pos ready]
            refine .sent _ ready.1 ?_ rfl (calls_append _ _) ?_
            · rw [List.length_take]
              omega
            · rw [chunks, chunks, sender_remaining, before]
              have inside := ready.2
              unfold txChunkSize
              omega
          · rw [if_neg ready]
            refine .idle rfl rfl ?_ ?_
            · have after := sender_remaining inst c conn
                conn.txBufIndex inst.hardware inst.trace
              refine Nat.le_of_eq ?_
              rw [chunks, chunks, before]
              exact congrArg (fun bytes => (bytes + 10) / 11) after
            · intro unfinished
              refine .inl ?_
              by_contra idle
              have done : conn.txBufIndex ≥ conn.txBufLength := by
                by_contra inside
                exact ready ⟨Bool.eq_false_iff.mpr idle, Nat.lt_of_not_le inside⟩
              exact unfinished (if_pos done)

end Pump

/-- The record of the submissions and the state of the port. A submission that the USB core
does not accept is the last one. -/
structure UsbLaw (inst : Instance Conn UsbTx) : Prop where
  intact : inst.hardware.overwritten = false
  busy : inst.hardware.urb ≠ none → inst.hardware.isInTx = true
  handed : calls inst.trace = inst.hardware.submitted.map Prod.fst
  order : (inst.hardware.submitted.filter Prod.snd).map Prod.fst =
    inst.hardware.finished ++ inst.hardware.urb.toList
  short : ∀ entry ∈ inst.hardware.submitted, entry.1.length ≤ txChunkSize
  refused : (∃ entry ∈ inst.hardware.submitted, entry.2 = false) →
    inst.hardware.isInTx = true ∧ inst.hardware.urb = none
  last : ∀ entry ∈ inst.hardware.submitted.dropLast, entry.2 = true

section Law
variable {inst after : Instance Conn UsbTx}

omit [DecidableEq Conn] in
theorem UsbLaw.same (law : UsbLaw inst) (port : after.hardware = inst.hardware)
    (handed : calls after.trace = calls inst.trace) : UsbLaw after := by
  obtain ⟨intact, busy, given, order, short, refused, last⟩ := law
  rw [← port] at intact busy given order short refused last
  exact ⟨intact, busy, handed.trans given, order, short, refused, last⟩

omit [DecidableEq Conn] in
theorem UsbLaw.chars (law : UsbLaw inst) {octets : List UInt8}
    (ready : inst.hardware.isInTx = false) (short : octets.length ≤ txChunkSize)
    (port : after.hardware = usbTxChars inst.hardware octets)
    (handed : calls after.trace = calls inst.trace ++ [octets]) : UsbLaw after := by
  have free : inst.hardware.urb = none := by
    by_contra flying
    rw [law.busy flying] at ready
    cases ready
  have accepted : ∀ entry ∈ inst.hardware.submitted, entry.2 = true := by
    intro entry member
    by_contra failed
    have stuck := (law.refused ⟨entry, member, Bool.eq_false_iff.mpr failed⟩).1
    rw [stuck] at ready
    cases ready
  have all : inst.hardware.submitted.filter Prod.snd = inst.hardware.submitted :=
    List.filter_eq_self.mpr accepted
  have order := law.order
  rw [all, free, Option.toList_none, List.append_nil] at order
  refine ⟨?_, ?_, ?_, ?_, ?_, ?_, ?_⟩
  · rw [port]
    simp [usbTxChars, law.intact, free]
  · intro _
    rw [port]
    rfl
  · rw [handed, port, law.handed]
    simp [usbTxChars]
  · rw [port]
    simp only [usbTxChars, free, Option.isNone_none, Bool.and_true, List.filter_append, all,
      List.map_append, order]
    cases inst.hardware.accepting <;> simp
  · intro entry member
    rw [port] at member
    rcases List.mem_append.mp member with before | new
    · exact law.short entry before
    · cases List.mem_singleton.mp new
      exact short
  · rintro ⟨entry, member, failed⟩
    rw [port] at member ⊢
    refine ⟨rfl, ?_⟩
    rcases List.mem_append.mp member with before | new
    · rw [accepted entry before] at failed
      cases failed
    · cases List.mem_singleton.mp new
      simp only [usbTxChars, free] at failed ⊢
      rw [failed]
      rfl
  · intro entry member
    rw [port] at member
    simp only [usbTxChars, List.dropLast_concat] at member
    exact accepted entry member

omit [DecidableEq Conn] in
theorem UsbLaw.giveBack (law : UsbLaw inst) {octets : List UInt8}
    (flying : inst.hardware.urb = some octets) :
    UsbLaw { inst with hardware := usbProcessWriteUrb { inst.hardware with
      urb := none, finished := inst.hardware.finished ++ [octets] } } := by
  have accepted : ¬ ∃ entry ∈ inst.hardware.submitted, entry.2 = false := by
    intro failed
    rw [(law.refused failed).2] at flying
    cases flying
  refine ⟨law.intact, fun present => absurd rfl present, law.handed, ?_, law.short,
    fun failed => absurd failed accepted, law.last⟩
  have order := law.order
  rw [flying] at order
  simpa [usbProcessWriteUrb] using order

end Law

inductive Moved (inst after : Instance Conn UsbTx) : Prop where
  | silent (port : after.hardware = inst.hardware) (handed : calls after.trace = calls inst.trace)
      (sender : after.txConnection = inst.txConnection ∨
        inst.txConnection ≠ none ∧ ∃ c, after.txConnection = some c ∧ after.conns c ≠ none)
  | pumped (before : Instance Conn UsbTx) (port : before.hardware = inst.hardware)
      (handed : calls before.trace = calls inst.trace)
      (owned : ∀ c, before.txConnection = some c → before.conns c ≠ none)
      (same : after = txQueuedUnlocked usbDriver before)

theorem file_moved {inst after : Instance Conn UsbTx} {action : TxAction Conn UsbTx}
    (taken : RawUartTx.step usbDriver inst action = some after)
    (outside : action ≠ .txQueued ∧ ∀ hardware, action ≠ .environment hardware) :
    Moved inst after := by
  have silent : ∀ events : List (Event Conn), (∀ event ∈ events, ∀ source octets,
      event ≠ .txChars source octets) → calls (inst.trace ++ events) = calls inst.trace := by
    intro events quiet
    rw [calls_append, List.append_right_eq_self, calls, List.filterMap_eq_nil_iff]
    intro event member
    cases event with
    | txChars source octets => exact absurd rfl (quiet _ member source octets)
    | acquired write priority => rfl
    | returned write ret => rfl
  cases step_effect taken with
  | openFile c unallocated => exact .silent rfl rfl (.inl rfl)
  | closeFile c signal conn held idle => exact .silent rfl rfl (.inl rfl)
  | enter c buffer conn held idle opened => exact .silent rfl rfl (.inl rfl)
  | refuse c buffer => exact .silent rfl (silent _ (by simp)) (.inl rfl)
  | thread c conn next action events held effect =>
      refine .silent rfl (silent _ ?_) (.inl rfl)
      cases effect <;> simp
  | txQueued => exact absurd rfl outside.1
  | environment hardware => exact absurd rfl (outside.2 hardware)
  | acquire c conn write held acquiring =>
      cases sender : inst.txConnection with
      | none =>
          refine .pumped (takeSender inst c conn write) rfl (silent _ (by simp)) ?_ ?_
          · intro other same
            cases same
            simp [takeSender, Instance.setConn]
          · simp only [acquireSender, sender]
            rfl
      | some other =>
          simp only [acquireSender, sender]
          split
          · exact .silent rfl rfl (.inl sender.symm)
          · split
            · refine .silent rfl (silent _ (by simp)) (.inr ⟨?_, c, rfl, ?_⟩)
              · rw [sender]
                exact Option.some_ne_none other
              · simp [takeSender, Instance.setConn]
            · exact .silent rfl rfl (.inl rfl)

theorem UsbLaw.pumped {inst : Instance Conn UsbTx} (law : UsbLaw inst) :
    UsbLaw (txQueuedUnlocked usbDriver inst) := by
  cases pump_pumped inst with
  | idle port handed left held => exact law.same port handed
  | sent octets ready short port handed left => exact law.chars ready short port handed

theorem UsbLaw.moved {inst after : Instance Conn UsbTx} (law : UsbLaw inst)
    (moved : Moved inst after) : UsbLaw after := by
  cases moved with
  | silent port handed sender => exact law.same port handed
  | pumped before port handed owned same =>
      subst same
      exact (law.same port handed).pumped

theorem file_step {link after : Link Conn} {action : TxAction Conn UsbTx}
    (taken : step link (.file action) = some after) :
    ∃ inst, RawUartTx.step usbDriver link.inst action = some inst ∧
      after = { link with inst := inst } ∧
      action ≠ .txQueued ∧ ∀ hardware, action ≠ .environment hardware := by
  cases action
  case txQueued | environment => cases taken
  all_goals
    obtain ⟨inst, done, rfl⟩ := Option.map_eq_some_iff.mp taken
    exact ⟨inst, done, rfl, nofun, nofun⟩

theorem usbLaw_step {link after : Link Conn} {act : LinkAct Conn} (law : UsbLaw link.inst)
    (taken : step link act = some after) : UsbLaw after.inst := by
  cases act with
  | file action =>
      obtain ⟨inst, done, rfl, outside⟩ := file_step taken
      exact law.moved (file_moved done outside)
  | giveBack =>
      rw [step] at taken
      split at taken
      · cases taken
      · rename_i octets flying
        cases taken
        exact law.giveBack flying
  | txQueued =>
      rw [step] at taken
      split at taken
      · cases taken
      · cases taken
        exact law.pumped
  | accept accepting =>
      cases taken
      exact ⟨law.intact, law.busy, law.handed, law.order, law.short, law.refused, law.last⟩

structure Started (link : Link Conn) : Prop where
  port : link.inst.hardware = ⟨false, none, true, false, [], []⟩
  idle : link.inst.txConnection = none
  trace : link.inst.trace = []
  quiet : link.callbacks = 0

omit [DecidableEq Conn] in
theorem usbLaw_started {link : Link Conn} (started : Started link) : UsbLaw link.inst := by
  obtain ⟨port, -, trace, -⟩ := started
  refine ⟨?_, ?_, ?_, ?_, ?_, ?_, ?_⟩ <;> simp [port, trace, calls]

/-- In every run of writers, completions and refused submissions: the buffer is not touched
while the URB is in flight, the chunks of the writes go to the USB core in their order, and a
refused submission is the last one of all. -/
theorem usb_transmits (link : Link Conn)
    (reached : Reachable step (fun _ _ => True) Started link) : UsbLaw link.inst :=
  reached.invariant (fun _ => usbLaw_started) fun _ _ _ law _ taken => usbLaw_step law taken

def plugged : Link Nat where
  inst := ⟨none, fun _ => none, ⟨false, none, true, false, [], []⟩, [], 0, false⟩
  callbacks := 0

theorem plugged_started : Started plugged := ⟨rfl, rfl, rfl, rfl⟩

def firstChunk : List (LinkAct Nat) :=
  [.file (.openFile 0), .file (.enter 0 (List.replicate 20 0x41)), .file (.copy 0 none),
    .file (.setIndex 0), .file (.setLength 0), .file (.acquire 0)]

/-- The second chunk of the 20 bytes is refused. -/
theorem usb_transmits_twenty : ∃ link,
    run step (fun _ _ => true) plugged (firstChunk ++ [.giveBack, .accept false, .txQueued]) =
        some link ∧
      (∃ entry ∈ link.inst.hardware.submitted, entry.2 = false) ∧
      link.inst.hardware.isInTx = true ∧ link.inst.hardware.urb = none := by
  have possible : (run step (fun _ _ => true) plugged
      (firstChunk ++ [.giveBack, .accept false, .txQueued])).map (fun link =>
        link.inst.hardware.submitted.any fun entry => !entry.2) = some true := by decide +kernel
  obtain ⟨link, ran, failed⟩ := Option.map_eq_some_iff.mp possible
  have reached := run_reachable (fun _ _ _ => trivial) _ (.start plugged_started) ran
  have refused : ∃ entry ∈ link.inst.hardware.submitted, entry.2 = false := by
    simpa [List.any_eq_true] using failed
  have law := usb_transmits link reached
  exact ⟨link, ran, refused, law.refused refused⟩

/-- No submission is refused, and no file is closed while it has the transmitter. -/
def Accepted (link : Link Conn) : LinkAct Conn → Prop
  | .accept accepting => accepting = true
  | .file (.closeFile c false) => link.inst.txConnection ≠ some c
  | _ => True

structure Moving (link : Link Conn) : Prop where
  law : UsbLaw link.inst
  accepting : link.inst.hardware.accepting = true
  flying : link.inst.hardware.isInTx = true → link.inst.hardware.urb ≠ none
  owned : ∀ c, link.inst.txConnection = some c → link.inst.conns c ≠ none
  moving : link.inst.txConnection ≠ none → link.inst.hardware.urb ≠ none ∨ 0 < link.callbacks

section Progress
variable {link after : Link Conn}

theorem pumped_flying {inst : Instance Conn UsbTx} (law : UsbLaw inst)
    (accepting : inst.hardware.accepting = true)
    (flying : inst.hardware.isInTx = true → inst.hardware.urb ≠ none)
    (owned : ∀ c, inst.txConnection = some c → inst.conns c ≠ none) (callbacks : Nat) :
    Moving ⟨txQueuedUnlocked usbDriver inst, callbacks⟩ := by
  have frame := pump_frame inst
  have alive : ∀ c, (txQueuedUnlocked usbDriver inst).txConnection = some c →
      (txQueuedUnlocked usbDriver inst).conns c ≠ none := by
    intro c same gone
    rcases frame.sender with kept | ⟨none, -⟩
    · exact owned c (kept.symm.trans same) ((frame.files c).mp gone)
    · rw [none] at same
      cases same
  cases pump_pumped inst with
  | idle port handed left held =>
      refine ⟨law.pumped, ?_, ?_, alive, ?_⟩
      · dsimp only
        rw [port, accepting]
      · dsimp only
        rw [port]
        exact flying
      · dsimp only
        intro sending
        rcases held sending with busy | ⟨c, same, gone⟩
        · rw [port]
          exact .inl (flying busy)
        · exact absurd gone (owned c same)
  | sent octets ready short port handed left =>
      have free : inst.hardware.urb = none := by
        by_contra present
        rw [law.busy present] at ready
        cases ready
      have flies : (txQueuedUnlocked usbDriver inst).hardware.urb = some octets := by
        rw [port]
        simp [usbTxChars, accepting, free]
      refine ⟨law.pumped, ?_, ?_, alive, ?_⟩
      · dsimp only
        rw [port]
        exact accepting
      · intro _
        dsimp only
        rw [flies]
        nofun
      · intro _
        dsimp only
        rw [flies]
        exact .inl nofun

theorem setConn_held {inst : Instance Conn UsbTx} {c other : Conn}
    (held : inst.conns other ≠ none) (conn : Connection Conn) :
    (inst.setConn c (some conn)).conns other ≠ none := by
  rw [Instance.setConn]
  dsimp only
  by_cases same : other = c
  · subst same
    simp
  · rwa [Function.update_of_ne same]

theorem file_held {inst after : Instance Conn UsbTx} {action : TxAction Conn UsbTx} {c : Conn}
    (taken : RawUartTx.step usbDriver inst action = some after) (held : inst.conns c ≠ none)
    (kept : action ≠ .closeFile c false) : after.conns c ≠ none := by
  cases step_effect taken with
  | openFile other unallocated => exact setConn_held held _
  | closeFile other signal conn found idle =>
      by_cases same : c = other
      · subst same
        cases signal with
        | true => exact setConn_held held _
        | false => exact absurd rfl kept
      · simpa [Instance.setConn, Function.update_of_ne same] using held
  | enter other buffer conn found idle opened => exact setConn_held held _
  | refuse other buffer => exact held
  | thread other conn next action events found effect => exact setConn_held held _
  | txQueued => exact fun gone => held (((pump_frame inst).files c).mp gone)
  | environment hardware => exact held
  | acquire other conn write found acquiring =>
      cases sender : inst.txConnection with
      | none =>
          simp only [acquireSender, sender]
          intro gone
          have before := ((pump_frame _).files c).mp gone
          exact setConn_held held _ before
      | some owner =>
          simp only [acquireSender, sender]
          split
          · exact held
          · split
            · exact setConn_held held _
            · exact held

theorem moving_file {action : TxAction Conn UsbTx} (moving : Moving link)
    (accepted : Accepted link (.file action)) (taken : step link (.file action) = some after) :
    Moving after := by
  obtain ⟨inst, done, rfl, outside⟩ := file_step taken
  have moved := file_moved done outside
  have law := moving.law.moved moved
  cases moved with
  | silent port handed sender =>
      refine ⟨law, by rw [port]; exact moving.accepting, by rw [port]; exact moving.flying, ?_, ?_⟩
      · intro c same
        rcases sender with kept | ⟨-, owner, taken, present⟩
        · have owner : link.inst.txConnection = some c := kept.symm.trans same
          refine file_held done (moving.owned c owner) ?_
          rintro rfl
          exact accepted owner
        · cases taken.symm.trans same
          exact present
      · intro sending
        dsimp only
        rw [port]
        rcases sender with kept | ⟨busy, -⟩
        · exact moving.moving (kept ▸ sending)
        · exact moving.moving busy
  | pumped before port handed owned same =>
      subst same
      refine pumped_flying (moving.law.same port handed) ?_ ?_ owned link.callbacks
      · rw [port]
        exact moving.accepting
      · rw [port]
        exact moving.flying

theorem moving_step {act : LinkAct Conn} (moving : Moving link) (accepted : Accepted link act)
    (taken : step link act = some after) : Moving after := by
  cases act with
  | file action => exact moving_file moving accepted taken
  | giveBack =>
      have law := usbLaw_step moving.law taken
      rw [step] at taken
      split at taken
      · cases taken
      · cases taken
        exact ⟨law, moving.accepting, nofun, moving.owned, fun _ => .inr (Nat.succ_pos _)⟩
  | txQueued =>
      rw [step] at taken
      split at taken
      · cases taken
      · cases taken
        exact pumped_flying moving.law moving.accepting moving.flying moving.owned _
  | accept accepting =>
      have law := usbLaw_step moving.law taken
      cases taken
      exact ⟨law, accepted, moving.flying, moving.owned, moving.moving⟩

omit [DecidableEq Conn] in
theorem moving_started (started : Started link) : Moving link := by
  refine ⟨usbLaw_started started, ?_, ?_, ?_, ?_⟩ <;> simp [started.port, started.idle]

def work (link : Link Conn) : Nat :=
  2 * chunks link.inst + (if link.inst.hardware.urb.isSome then 2 else 0) + link.callbacks

def Hardware : LinkAct Conn → Prop
  | .giveBack | .txQueued => True
  | _ => False

omit [DecidableEq Conn] in
theorem chunks_port (inst : Instance Conn UsbTx) (port : UsbTx) :
    chunks { inst with hardware := port } = chunks inst := rfl

theorem work_falls {act : LinkAct Conn} (hardware : Hardware act)
    (taken : step link act = some after) : work after < work link := by
  cases act with
  | file action => exact hardware.elim
  | accept accepting => exact hardware.elim
  | giveBack =>
      rw [step] at taken
      split at taken
      · cases taken
      · rename_i octets flying
        cases taken
        simp only [work, Link.setPort, chunks_port, usbProcessWriteUrb, flying, Option.isSome_some,
          Option.isSome_none, ↓reduceIte, Bool.false_eq_true]
        omega
  | txQueued =>
      rw [step] at taken
      split at taken
      · cases taken
      · rename_i positive
        cases taken
        cases pump_pumped link.inst with
        | idle port handed left held =>
            simp only [work, port]
            omega
        | sent octets ready short port handed left =>
            have one : (if (txQueuedUnlocked usbDriver link.inst).hardware.urb.isSome
                then 2 else 0) ≤ 2 := by
              split <;> omega
            simp only [work] at one ⊢
            omega

end Progress

def Served (c : Conn) (inst : Instance Conn UsbTx) : Prop :=
  inst.txConnection = some c ∨
    inst.txConnection = none ∧
      ∃ conn, inst.conns c = some conn ∧ conn.txBufLength ≤ conn.txBufIndex

theorem served_step {link after : Link Conn} {act : LinkAct Conn} {c : Conn}
    (hardware : Hardware act) (served : Served c link.inst)
    (taken : step link act = some after) : Served c after.inst := by
  cases act with
  | file action => exact hardware.elim
  | accept accepting => exact hardware.elim
  | giveBack =>
      rw [step] at taken
      split at taken
      · cases taken
      · cases taken
        exact served
  | txQueued =>
      rw [step] at taken
      split at taken
      · cases taken
      · cases taken
        rcases served with sending | ⟨idle, conn, held, done⟩
        · rcases (pump_frame link.inst).sender with kept | ⟨free, all⟩
          · exact .inl (kept.trans sending)
          · exact .inr ⟨free, all c sending⟩
        · dsimp only
          rw [pump_none idle]
          exact .inr ⟨idle, conn, held, done⟩

omit [DecidableEq Conn] in
theorem hardware_accepted {link : Link Conn} {act : LinkAct Conn} (hardware : Hardware act) :
    Accepted link act := by
  cases act with
  | file action | accept accepting => exact hardware.elim
  | giveBack | txQueued => trivial

/-- The USB core alone brings every write to its end: its steps are bounded by the work that
is left, and when it has nothing more to do, the transmitter is free and all bytes of the
write that had it are handed over. -/
theorem usb_drains (link final : Link Conn)
    (reached : Reachable step Accepted Started link) (acts : List (LinkAct Conn))
    (hardware : ∀ act ∈ acts, Hardware act) (ran : runAll step link acts = some final) :
    acts.length ≤ work link ∧
      ((∀ act, Hardware act → step final act = none) →
        final.inst.txConnection = none ∧ final.inst.hardware.urb = none ∧
        ∀ c, link.inst.txConnection = some c → ∃ conn, final.inst.conns c = some conn ∧
          conn.txBufLength ≤ conn.txBufIndex) := by
  have moving := reached.invariant (fun _ => moving_started)
    fun _ _ _ moving accepted taken => moving_step moving accepted taken
  have meets : Meets step (fun _ => Hardware) link acts :=
    meets_of_forall (fun _ => hardware) link
  have kept : ∀ (state : Link Conn) act next, Moving state → Hardware act →
      step state act = some next → Moving next :=
    fun _ _ _ moving hardware taken => moving_step moving (hardware_accepted hardware) taken
  have bounded := runAll_bounded kept (fun _ _ _ _ hardware taken => work_falls hardware taken)
    acts moving meets ran
  have ended := runAll_admitted kept acts moving meets ran
  refine ⟨by omega, ?_⟩
  intro stuck
  have landed : final.inst.hardware.urb = none := by
    by_contra flying
    obtain ⟨octets, found⟩ := Option.ne_none_iff_exists'.mp flying
    have given := stuck .giveBack trivial
    rw [step, found] at given
    cases given
  have quiet : final.callbacks = 0 := by
    by_contra due
    have called := stuck .txQueued trivial
    rw [step, if_neg due] at called
    cases called
  have free : final.inst.txConnection = none := by
    by_contra sending
    rcases ended.moving sending with flying | due
    · exact flying landed
    · omega
  refine ⟨free, landed, ?_⟩
  intro c sending
  have serving : ∀ (state : Link Conn) act next, Served c state.inst → Hardware act →
      step state act = some next → Served c next.inst :=
    fun _ _ _ served hardware taken => served_step hardware served taken
  rcases runAll_admitted serving acts (.inl sending) meets ran with still | ⟨-, done⟩
  · rw [free] at still
    cases still
  · exact done

def acceptedGuard (_ : Link Nat) : LinkAct Nat → Bool
  | .accept accepting => accepting
  | .file (.closeFile _ _) => false
  | _ => true

theorem acceptedGuard_sound (link : Link Nat) (act : LinkAct Nat)
    (passed : acceptedGuard link act = true) : Accepted link act := by
  cases act with
  | accept accepting => exact passed
  | giveBack | txQueued => trivial
  | file action =>
      cases action
      case closeFile => cases passed
      all_goals trivial

/-- Two URBs carry the 20 bytes. -/
theorem usb_drains_twenty : ∃ link final,
    run step acceptedGuard plugged firstChunk = some link ∧
      runAll step link [.giveBack, .txQueued, .giveBack, .txQueued] = some final ∧
      4 ≤ work link ∧ final.inst.txConnection = none ∧
      ∃ conn, final.inst.conns 0 = some conn ∧ conn.txBufLength ≤ conn.txBufIndex := by
  have possible : ((run step acceptedGuard plugged firstChunk).bind fun link =>
      (runAll step link [.giveBack, .txQueued, .giveBack, .txQueued]).map fun final =>
        (link.inst.txConnection, final.inst.hardware.urb.isNone, final.callbacks)) =
      some (some 0, true, 0) := by decide +kernel
  obtain ⟨link, started, possible⟩ := Option.bind_eq_some_iff.mp possible
  obtain ⟨final, ran, facts⟩ := Option.map_eq_some_iff.mp possible
  simp only [Prod.mk.injEq, Option.isNone_iff_eq_none] at facts
  obtain ⟨sending, landed, quiet⟩ := facts
  have reached := run_reachable acceptedGuard_sound firstChunk (.start plugged_started) started
  obtain ⟨bounded, drained⟩ := usb_drains link final reached _ (by simp [Hardware]) ran
  have stuck : ∀ act, Hardware act → step final act = none := by
    intro act hardware
    cases act with
    | file action | accept accepting => exact hardware.elim
    | giveBack => rw [step, landed]
    | txQueued => rw [step, if_pos quiet]
  obtain ⟨free, -, handed⟩ := drained stuck
  exact ⟨link, final, started, ran, bounded, free, handed 0 sending⟩

end PiVccu.HbRfUsbTx
