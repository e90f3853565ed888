import PiVccu.RawUartOwnership
import PiVccu.RawUartRx
import PiVccu.WakeUps

/-!
The wait queues of `kernel/generic_raw_uart.c`: readers on `readq`, writers in either of their
two waits on `writeq`, and pollers on both. Every driver calls
`generic_raw_uart_rx_completed` behind a batch of bytes; here each byte leaves its own wake-up
behind, and the ones of a batch are made together.
-/

namespace PiVccu.RawUartWakeUps
open CircBuf RawUartTx RawUartOwnership Transition WakeUps

inductive Queue where
  | readq
  | writeq
deriving DecidableEq

/-- `POLLIN` and `POLLOUT`. The other events that a poll may ask for are never reported. -/
structure Events where
  input : Bool
  output : Bool

structure Uart (Conn Hardware Reader : Type) where
  tx : Instance Conn Hardware
  rx : RawUartRx.RxSide Reader

/-- A call of `read`, the two waits of a `write`, and a call of `poll`. -/
inductive Waiter (Conn Reader : Type) where
  | read (reader : Reader)
  | acquire (c : Conn)
  | complete (c : Conn)
  | poll (c : Conn) (requested : Events)

inductive Change (Conn Hardware Reader : Type) where
  | tx (action : TxAction Conn Hardware)
  | rx (action : RawUartRx.RxAction Reader)

variable {Conn Hardware Reader : Type}

def priority? (inst : Instance Conn Hardware) (c : Conn) : Option Nat :=
  (inst.conns c).map Connection.priority

/-- The test of `generic_raw_uart_acquire_sender` and of the poll. Nothing is known of a
sender that has been freed. -/
def mayTake (inst : Instance Conn Hardware) (c : Conn) : Bool :=
  match inst.txConnection with
  | none => true
  | some owner =>
      match priority? inst owner, priority? inst c with
      | some held, some own => decide (held < own)
      | _, _ => false

def dataThere (rx : RawUartRx.RxSide Reader) : Bool :=
  circCnt rx.rxbuf.head rx.rxbuf.tail RawUartRx.circbufSize != 0

def pollMask (uart : Uart Conn Hardware Reader) (c : Conn) : Events where
  input := dataThere uart.rx
  output := mayTake uart.tx c

def Waiter.queues : Waiter Conn Reader → List Queue
  | .read _ => [.readq]
  | .acquire _ | .complete _ => [.writeq]
  | .poll _ _ => [.readq, .writeq]

def Waiter.present : Waiter Conn Reader → Uart Conn Hardware Reader → Bool
  | .read reader, uart =>
      match uart.rx.readers reader with
      | .waiting _ _ => true
      | _ => false
  | .acquire c, uart =>
      match (uart.tx.conns c).map Connection.phase with
      | some (.acquiring _) => true
      | _ => false
  | .complete c, uart =>
      match (uart.tx.conns c).map Connection.phase with
      | some (.sending _) => true
      | _ => false
  | .poll c _, uart => (uart.tx.conns c).isSome

def Waiter.asks : Waiter Conn Reader → Option Conn
  | .acquire c => some c
  | .poll c requested => if requested.output then some c else none
  | _ => none

def Lowers (inst : Instance Conn Hardware) (c : Conn) (priority : Nat)
    (waiter : Waiter Conn Reader) : Prop :=
  inst.txConnection = some c ∧ ∃ d own, waiter.asks = some d ∧ d ≠ c ∧
    priority? inst d = some own ∧ priority < own

def Raises (inst : Instance Conn Hardware) (c : Conn) (priority : Nat)
    (waiter : Waiter Conn Reader) : Prop :=
  ∃ owner held requested, inst.txConnection = some owner ∧ owner ≠ c ∧
    priority? inst owner = some held ∧ held < priority ∧ waiter = .poll c requested ∧
    requested.output = true

def rxWakes : RawUartRx.RxAction Reader → List Queue
  | .rxAdvance => [.readq]
  | _ => []

/-- `vfs_read` asks for at most `INT_MAX` bytes. -/
def bounded : RawUartRx.RxAction Reader → Bool
  | .enter _ count _ => decide (count ≤ RawUartRx.intMax)
  | _ => true

section Taking
variable {inst after : Instance Conn Hardware} {waiter : Waiter Conn Reader}

theorem mayTake_same (sender : after.txConnection = inst.txConnection) {d : Conn}
    (owner : ∀ c, inst.txConnection = some c → priority? after c = priority? inst c)
    (own : priority? after d = priority? inst d) : mayTake after d = mayTake inst d := by
  rw [mayTake, mayTake, sender]
  cases held : inst.txConnection with
  | none => rfl
  | some c => simp only [owner c held, own]

theorem priority_other {c : Conn}
    (others : ∀ d, d ≠ c → after.conns d = inst.conns d) {d : Conn} (other : d ≠ c) :
    priority? after d = priority? inst d := by
  rw [priority?, priority?, others d other]

theorem mayTake_others {c d : Conn} (sender : after.txConnection = inst.txConnection)
    (others : ∀ d, d ≠ c → after.conns d = inst.conns d) (other : d ≠ c)
    (apart : inst.txConnection ≠ some c) : mayTake after d = mayTake inst d := by
  refine mayTake_same sender ?_ (priority_other others other)
  rintro o owner
  refine priority_other others ?_
  rintro rfl
  exact apart owner

theorem mayTake_owner {c d : Conn} {own : Nat}
    (sender : inst.txConnection = some c) (priority : priority? inst d = some own) :
    mayTake inst d = true ↔ ∃ held, priority? inst c = some held ∧ held < own := by
  rw [mayTake, sender]
  cases held : priority? inst c with
  | none => simp [held]
  | some lower => simp [held, priority]

theorem mayTake_lowered {c d : Conn} {priority : Nat}
    (asks : waiter.asks = some d) (other : d ≠ c)
    (sender : after.txConnection = inst.txConnection) (owner : inst.txConnection = some c)
    (set : priority? after c = some priority)
    (others : ∀ d, d ≠ c → after.conns d = inst.conns d) :
    mayTake after d = true ↔ Lowers inst c priority waiter := by
  have same := priority_other others other
  constructor
  · intro met
    rw [mayTake, sender, owner] at met
    simp only [set, same] at met
    cases own : priority? inst d with
    | none =>
        rw [own] at met
        cases met
    | some own' =>
        rw [own] at met
        exact ⟨owner, d, own', asks, other, own, of_decide_eq_true met⟩
  · rintro ⟨-, d', own, asks', -, found, below⟩
    cases asks.symm.trans asks'
    exact (mayTake_owner (sender.trans owner) (same.trans found)).mpr ⟨priority, set, below⟩

theorem present_asks {uart : Uart Conn Hardware Reader} {d : Conn} (asks : waiter.asks = some d)
    (present : waiter.present uart = true) :
    ∃ conn, uart.tx.conns d = some conn ∧
      (conn.phase = .idle → ∃ requested, waiter = .poll d requested ∧ requested.output = true) := by
  cases waiter with
  | read r => cases asks
  | complete c => cases asks
  | acquire c =>
      cases asks
      cases held : uart.tx.conns d with
      | none => simp [Waiter.present, held] at present
      | some conn =>
          refine ⟨conn, rfl, ?_⟩
          intro idle
          simp [Waiter.present, held, idle] at present
  | poll c requested =>
      simp only [Waiter.asks] at asks
      split at asks
      · rename_i output
        cases asks
        obtain ⟨conn, held⟩ := Option.isSome_iff_exists.mp present
        exact ⟨conn, held, fun _ => ⟨requested, rfl, output⟩⟩
      · cases asks

theorem present_same {uart : Uart Conn Hardware Reader} {d : Conn} (asks : waiter.asks = some d)
    (same : after.conns d = uart.tx.conns d) :
    waiter.present { uart with tx := after } = waiter.present uart := by
  cases waiter with
  | read r => rfl
  | complete c => cases asks
  | acquire c =>
      cases asks
      simp only [Waiter.present, same]
  | poll c requested =>
      simp only [Waiter.asks] at asks
      split at asks
      · cases asks
        simp only [Waiter.present, same]
      · cases asks

theorem prioritized_forsakes {uart : Uart Conn Hardware Reader} {c d : Conn} {priority : Nat}
    {conn next : Connection Conn}
    (settled : waiter.present uart = true) (asks : waiter.asks = some d)
    (refused : mayTake uart.tx d = false) (met : mayTake after d = true)
    (held : uart.tx.conns c = some conn) (idle : conn.phase = .idle)
    (sender : after.txConnection = uart.tx.txConnection)
    (set : after.conns c = some next) (new : next.priority = priority)
    (others : ∀ d, d ≠ c → after.conns d = uart.tx.conns d) :
    Lowers uart.tx c priority waiter ∨ Raises uart.tx c priority waiter := by
  have own : priority? after c = some priority := by simp [priority?, set, new]
  by_cases mine : uart.tx.txConnection = some c
  · have other : d ≠ c := by
      rintro rfl
      obtain ⟨low, found, below⟩ := (mayTake_owner (sender.trans mine) own).mp met
      cases own.symm.trans found
      exact Nat.lt_irrefl _ below
    exact .inl ((mayTake_lowered asks other sender mine own others).mp met)
  · have self : d = c := by
      by_contra other
      rw [mayTake_others sender others other mine, refused] at met
      cases met
    subst self
    obtain ⟨conn', held', polls⟩ := present_asks asks settled
    cases held.symm.trans held'
    obtain ⟨requested, rfl, output⟩ := polls idle
    cases owner : uart.tx.txConnection with
    | none => simp [mayTake, owner] at refused
    | some o =>
        have apart : o ≠ d := by
          rintro rfl
          exact mine owner
        obtain ⟨below, found, less⟩ := (mayTake_owner (sender.trans owner) own).mp met
        exact .inr ⟨o, below, requested, owner, apart, priority_other others apart ▸ found, less,
          rfl, output⟩

end Taking

variable [DecidableEq Conn]

def Waiter.condition : Waiter Conn Reader → Uart Conn Hardware Reader → Bool
  | .read _, uart => dataThere uart.rx
  | .acquire c, uart => mayTake uart.tx c
  | .complete c, uart => decide (uart.tx.txConnection ≠ some c)
  | .poll c requested, uart =>
      (pollMask uart c).output && requested.output || (pollMask uart c).input && requested.input

/-- The pump wakes when it has finished with a sender. `generic_raw_uart_acquire_sender` wakes
when it takes the transmitter away from somebody else. -/
def txWakes (before after : Instance Conn Hardware) : TxAction Conn Hardware → List Queue
  | .txQueued =>
      if before.txConnection ≠ none ∧ after.txConnection = none then [.writeq] else []
  | .acquire _ =>
      if before.txConnection = none then if after.txConnection = none then [.writeq] else []
      else if after.txConnection = before.txConnection then [] else [.writeq]
  | _ => []

section Meeting
variable {after : Instance Conn Hardware} {waiter : Waiter Conn Reader}

theorem met_asks {uart : Uart Conn Hardware Reader} (sender : after.txConnection =
      uart.tx.txConnection) (unmet : waiter.condition uart = false)
    (met : waiter.condition { uart with tx := after } = true) :
    ∃ d, waiter.asks = some d ∧ mayTake uart.tx d = false ∧ mayTake after d = true := by
  cases waiter with
  | read r => exact absurd (unmet.symm.trans met) Bool.false_ne_true
  | acquire c => exact ⟨c, rfl, unmet, met⟩
  | complete c =>
      simp only [Waiter.condition, sender] at unmet met
      rw [unmet] at met
      cases met
  | poll c requested =>
      simp only [Waiter.condition, pollMask, Bool.or_eq_false_iff, Bool.or_eq_true,
        Bool.and_eq_true] at unmet met
      rcases met with ⟨output, asked⟩ | ⟨input, asked⟩
      · refine ⟨c, if_pos asked, ?_, output⟩
        simpa [asked] using unmet.1
      · rw [input, asked] at unmet
        cases unmet.2

theorem asks_met {uart : Uart Conn Hardware Reader} {d : Conn} (asks : waiter.asks = some d)
    (met : mayTake uart.tx d = true) : waiter.condition uart = true := by
  cases waiter with
  | read r => cases asks
  | complete c => cases asks
  | acquire c =>
      cases asks
      exact met
  | poll c requested =>
      simp only [Waiter.asks] at asks
      split at asks
      · rename_i output
        cases asks
        simp [Waiter.condition, pollMask, met, output]
      · cases asks

theorem met_idle {uart : Uart Conn Hardware Reader} (idle : uart.tx.txConnection = none)
    (unmet : waiter.condition uart = false) :
    waiter.condition { uart with tx := after } = false := by
  cases waiter with
  | read r => exact unmet
  | acquire c => simp [Waiter.condition, mayTake, idle] at unmet
  | complete c => simp [Waiter.condition, idle] at unmet
  | poll c requested =>
      simp only [Waiter.condition, pollMask, mayTake, idle, Bool.true_and,
        Bool.or_eq_false_iff] at unmet
      simp [Waiter.condition, pollMask, unmet.1, unmet.2]

theorem met_woken {uart : Uart Conn Hardware Reader} (unmet : waiter.condition uart = false)
    (met : waiter.condition { uart with tx := after } = true) : .writeq ∈ waiter.queues := by
  cases waiter with
  | read r => exact absurd (unmet.symm.trans met) Bool.false_ne_true
  | acquire c | complete c | poll c requested => simp [Waiter.queues]

theorem met_data {uart : Uart Conn Hardware Reader} {rx : RawUartRx.RxSide Reader}
    (unmet : waiter.condition uart = false)
    (met : waiter.condition { uart with rx := rx } = true) :
    dataThere uart.rx = false ∧ dataThere rx = true ∧ .readq ∈ waiter.queues := by
  cases waiter with
  | read r => exact ⟨unmet, met, List.mem_singleton_self _⟩
  | acquire c | complete c => exact absurd (unmet.symm.trans met) Bool.false_ne_true
  | poll c requested =>
      simp only [Waiter.condition, pollMask, Bool.or_eq_false_iff, Bool.or_eq_true,
        Bool.and_eq_true] at unmet met
      rcases met with ⟨output, asked⟩ | ⟨input, asked⟩
      · rw [output, asked] at unmet
        cases unmet.1
      · refine ⟨?_, input, List.mem_cons_self⟩
        simpa [asked] using unmet.2

end Meeting

inductive Shown (inst after : Instance Conn Hardware) (wakes : List Queue) :
    TxAction Conn Hardware → Prop where
  | same (action : TxAction Conn Hardware) (sender : after.txConnection = inst.txConnection)
      (priorities : ∀ d, priority? after d = priority? inst d) : Shown inst after wakes action
  | woken (action : TxAction Conn Hardware) (called : .writeq ∈ wakes) :
      Shown inst after wakes action
  | taken (action : TxAction Conn Hardware) (idle : inst.txConnection = none) :
      Shown inst after wakes action
  | opened (c : Conn) (unallocated : inst.conns c = none)
      (sender : after.txConnection = inst.txConnection)
      (fresh : after.conns c = some freshConnection)
      (others : ∀ d, d ≠ c → after.conns d = inst.conns d) : Shown inst after wakes (.openFile c)
  | closed (c : Conn) (sender : after.txConnection = inst.txConnection)
      (freed : after.conns c = none) (others : ∀ d, d ≠ c → after.conns d = inst.conns d) :
      Shown inst after wakes (.closeFile c false)
  | prioritized (c : Conn) (priority : Nat) (conn : Connection Conn)
      (held : inst.conns c = some conn) (idle : conn.phase = .idle)
      (sender : after.txConnection = inst.txConnection)
      (set : after.conns c = some { conn with priority := priority })
      (others : ∀ d, d ≠ c → after.conns d = inst.conns d) :
      Shown inst after wakes (.ioctl c (some priority))

section Shown
variable {driver : RawUartDriver Hardware} {inst after : Instance Conn Hardware}

theorem priority_setConn {c : Conn} {conn next : Connection Conn} (held : inst.conns c = some conn)
    (kept : next.priority = conn.priority) (d : Conn) :
    priority? (inst.setConn c (some next)) d = priority? inst d := by
  by_cases same : d = c
  · subst same
    simp [priority?, setConn_same, held, kept]
  · simp [priority?, setConn_other same]

theorem pump_shown (driver : RawUartDriver Hardware) (inst : Instance Conn Hardware) :
    Shown inst (txQueuedUnlocked driver inst)
      (txWakes inst (txQueuedUnlocked driver inst) .txQueued) .txQueued := by
  cases sender : inst.txConnection with
  | none => exact .taken _ sender
  | some c =>
      cases held : inst.conns c with
      | none =>
          have left : txQueuedUnlocked driver inst = { inst with useAfterFree := true } := by
            simp [txQueuedUnlocked, sender, held]
          rw [left]
          exact .same _ rfl fun _ => rfl
      | some conn =>
          by_cases finished : (txQueuedUnlocked driver inst).txConnection = none
          · refine .woken _ ?_
            rw [txWakes, if_pos ⟨by rw [sender]; exact Option.some_ne_none c, finished⟩]
            exact List.mem_singleton_self _
          · simp only [txQueuedUnlocked, sender, held] at finished ⊢
            split at finished
            · exact absurd rfl finished
            · rename_i unfinished
              rw [if_neg unfinished]
              exact .same _ rfl (priority_setConn held rfl)

theorem acquire_shown {c : Conn} {conn : Connection Conn} {write : Write Conn}
    (held : inst.conns c = some conn) :
    Shown inst (acquireSender driver inst c conn write)
      (txWakes inst (acquireSender driver inst c conn write) (.acquire c)) (.acquire c) := by
  cases sender : inst.txConnection with
  | none => exact .taken _ sender
  | some owner =>
      cases there : inst.conns owner with
      | none =>
          simp only [acquireSender, sender, there]
          exact .same _ sender.symm fun _ => rfl
      | some conn' =>
          by_cases above : conn'.priority < conn.priority
          · refine .woken _ ?_
            have differs : c ≠ owner := by
              rintro rfl
              cases held.symm.trans there
              exact Nat.lt_irrefl _ above
            simp [txWakes, acquireSender, sender, there, above, takeSender, differs]
          · simp only [acquireSender, sender, there, if_neg above]
            exact .same _ rfl fun _ => rfl

theorem thread_shown {action : TxAction Conn Hardware} {c : Conn} {conn next : Connection Conn}
    {events : List (Event Conn)} (held : inst.conns c = some conn)
    (effect : LocalEffect inst c conn action next events) (wakes : List Queue) :
    Shown inst { inst.setConn c (some next) with trace := inst.trace ++ events } wakes action := by
  cases effect with
  | ioctl priority idle =>
      cases priority with
      | none => exact .same _ rfl (priority_setConn held rfl)
      | some priority =>
          exact .prioritized c priority conn held idle rfl (setConn_same ..)
            fun d other => setConn_other other _
  | copy fault write entered =>
      refine .same _ rfl (priority_setConn held ?_)
      unfold copyFromUser
      split
      · rfl
      · cases fault <;> rfl
  | _ => exact .same _ rfl (priority_setConn held rfl)

theorem step_shown {action : TxAction Conn Hardware}
    (taken : RawUartTx.step driver inst action = some after) :
    Shown inst after (txWakes inst after action) action := by
  cases step_effect taken with
  | openFile c unallocated =>
      exact .opened c unallocated rfl (setConn_same ..) fun d other => setConn_other other _
  | closeFile c signal conn held idle =>
      cases signal with
      | true => exact .same _ rfl (priority_setConn held rfl)
      | false => exact .closed c rfl (setConn_same ..) fun d other => setConn_other other _
  | enter c buffer conn held idle opened => exact .same _ rfl (priority_setConn held rfl)
  | refuse c buffer => exact .same _ rfl fun _ => rfl
  | acquire c conn write held acquiring => exact acquire_shown held
  | thread c conn next _ events held effect => exact thread_shown held effect _
  | txQueued => exact pump_shown driver inst
  | environment hardware => exact .same _ rfl fun _ => rfl

theorem ioctl_step {c : Conn} {priority : Nat}
    (taken : RawUartTx.step driver inst (.ioctl c (some priority)) = some after) :
    ∃ conn, inst.conns c = some conn ∧ conn.phase = .idle ∧
      after.txConnection = inst.txConnection ∧
      after.conns c = some { conn with priority := priority } ∧
      ∀ d, d ≠ c → after.conns d = inst.conns d := by
  cases step_effect taken with
  | thread c' conn next _ events held effect =>
      cases effect with
      | ioctl _ idle =>
          exact ⟨conn, held, idle, rfl, setConn_same .., fun d other => setConn_other other _⟩

end Shown

variable [DecidableEq Reader]

def change (driver : RawUartDriver Hardware) (uart : Uart Conn Hardware Reader) :
    Change Conn Hardware Reader → Option (Uart Conn Hardware Reader × List Queue)
  | .tx action => (RawUartTx.step driver uart.tx action).map fun tx =>
      ({ uart with tx := tx }, txWakes uart.tx tx action)
  | .rx action =>
      if bounded action then
        (RawUartRx.step uart.rx action).map fun rx => ({ uart with rx := rx }, rxWakes action)
      else none

def rawUart (driver : RawUartDriver Hardware) :
    System (Uart Conn Hardware Reader) (Change Conn Hardware Reader) (Waiter Conn Reader) Queue where
  change := change driver
  queues := Waiter.queues
  condition := Waiter.condition
  present := Waiter.present

abbrev Scene (Conn Hardware Reader : Type) :=
  WakeUps.Scene (Uart Conn Hardware Reader) (Waiter Conn Reader) Queue

abbrev Act (Conn Hardware Reader : Type) :=
  WakeUps.Act (Change Conn Hardware Reader) (Waiter Conn Reader) Queue

/-- Nobody wakes `writeq` when a priority changes, or when a new file takes the place of a
freed one that is still the sender. -/
def Forsakes (driver : RawUartDriver Hardware) (scene : Scene Conn Hardware Reader)
    (waiter : Waiter Conn Reader) : Act Conn Hardware Reader → Prop
  | .change (.tx (.ioctl c (some priority))) => Waits (rawUart driver) scene waiter ∧
      (Lowers scene.state.tx c priority waiter ∨ Raises scene.state.tx c priority waiter)
  | .change (.tx (.openFile c)) =>
      Waits (rawUart driver) scene waiter ∧ Lowers scene.state.tx c 0 waiter
  | _ => False

section Ring
variable {rx after : RawUartRx.RxSide Reader} {action : RawUartRx.RxAction Reader}

omit [DecidableEq Reader] in
theorem producer_ring (taken : RawUartRx.producerStep rx action = some after)
    (inside : action ≠ .rxAdvance) :
    after.rxbuf.head = rx.rxbuf.head ∧ after.rxbuf.tail = rx.rxbuf.tail := by
  cases action with
  | rxChar flags data =>
      simp only [RawUartRx.producerStep] at taken
      split at taken <;> cases taken
      exact ⟨rfl, rfl⟩
  | rxStore =>
      simp only [RawUartRx.producerStep] at taken
      split at taken
      · obtain ⟨buf, -, same⟩ := Option.bind_eq_some_iff.mp taken
        cases same
        exact ⟨rfl, rfl⟩
      · cases taken
  | rxAdvance => exact absurd rfl inside
  | _ => cases taken

theorem reader_ring (taken : RawUartRx.readerStep rx action = some after) :
    after.rxbuf.head = rx.rxbuf.head ∧ (after.rxbuf.tail = rx.rxbuf.tail ∨
      ∃ r octets, rx.readers r = .copied octets ∧
        after.rxbuf.tail = RawUartRx.addTail rx.rxbuf.tail octets.length) := by
  cases action with
  | advance r =>
      simp only [RawUartRx.readerStep] at taken
      split at taken
      · rename_i octets copied
        cases taken
        exact ⟨rfl, .inr ⟨r, octets, copied, rfl⟩⟩
      · cases taken
  | copy r fault =>
      simp only [RawUartRx.readerStep] at taken
      split at taken
      · obtain ⟨octets, -, same⟩ := Option.bind_eq_some_iff.mp taken
        split at same <;> cases same <;> exact ⟨rfl, .inl rfl⟩
      · cases taken
  | rxChar flags data => cases taken
  | rxStore => cases taken
  | rxAdvance => cases taken
  | _ =>
      simp only [RawUartRx.readerStep] at taken
      split at taken
      all_goals try split at taken
      all_goals cases taken
      all_goals exact ⟨rfl, .inl rfl⟩

/-- Data appears in the ring at the last step of the producer only. -/
theorem data_before (lossless : RawUartRx.Lossless rx)
    (taken : RawUartRx.step rx action = some after) (inside : action ≠ .rxAdvance)
    (present : dataThere after = true) : dataThere rx = true := by
  have ring : after.rxbuf.head = rx.rxbuf.head ∧ (after.rxbuf.tail = rx.rxbuf.tail ∨
      ∃ r octets, rx.readers r = .copied octets ∧
        after.rxbuf.tail = RawUartRx.addTail rx.rxbuf.tail octets.length) := by
    cases action with
    | rxChar flags data =>
        have made : RawUartRx.producerStep rx (.rxChar flags data) = some after := taken
        obtain ⟨head, tail⟩ := producer_ring made inside
        exact ⟨head, .inl tail⟩
    | rxStore =>
        have made : RawUartRx.producerStep rx .rxStore = some after := taken
        obtain ⟨head, tail⟩ := producer_ring made inside
        exact ⟨head, .inl tail⟩
    | rxAdvance => exact absurd rfl inside
    | _ =>
        simp only [RawUartRx.step] at taken
        exact reader_ring taken
  obtain ⟨head, tail | ⟨r, octets, copied, tail⟩⟩ := ring
  · rwa [dataThere, head, tail] at present
  · by_contra empty
    have zero : circCnt rx.rxbuf.head rx.rxbuf.tail RawUartRx.circbufSize = 0 := by
      simpa [dataThere] using empty
    have none : rx.rxbuf.contents = [] := by
      rw [← List.length_eq_zero_iff, contents_length lossless.formed, zero]
    have prepared := lossless.prepared r
    rw [copied, RawUartRx.Prepared, none] at prepared
    have nothing : octets = [] := List.prefix_nil.mp prepared.1
    have stays : after.rxbuf.tail = rx.rxbuf.tail := by
      rw [tail, nothing, List.length_nil, RawUartRx.addTail, Nat.add_zero,
        if_neg (Nat.not_le.mpr lossless.formed.tail)]
    rw [dataThere, head, stays, zero] at present
    cases present

end Ring

section Steps
variable {driver : RawUartDriver Hardware} {scene : Scene Conn Hardware Reader}
  {waiter : Waiter Conn Reader}

theorem change_tx {uart after : Uart Conn Hardware Reader} {action : TxAction Conn Hardware}
    {wakes : List Queue} (changed : (rawUart driver).change uart (.tx action) = some (after, wakes)) :
    ∃ tx, RawUartTx.step driver uart.tx action = some tx ∧ after = { uart with tx := tx } ∧
      wakes = txWakes uart.tx tx action := by
  obtain ⟨tx, taken, same⟩ := Option.map_eq_some_iff.mp changed
  obtain ⟨rfl, rfl⟩ := Prod.mk.inj same
  exact ⟨tx, taken, rfl, rfl⟩

theorem change_rx {uart after : Uart Conn Hardware Reader} {action : RawUartRx.RxAction Reader}
    {wakes : List Queue} (changed : (rawUart driver).change uart (.rx action) = some (after, wakes)) :
    ∃ rx, bounded action = true ∧ RawUartRx.step uart.rx action = some rx ∧
      after = { uart with rx := rx } ∧ wakes = rxWakes action := by
  rw [show (rawUart driver).change uart (.rx action) = change driver uart (.rx action) from rfl,
    change] at changed
  split at changed
  · rename_i asked
    obtain ⟨rx, taken, same⟩ := Option.map_eq_some_iff.mp changed
    obtain ⟨rfl, rfl⟩ := Prod.mk.inj same
    exact ⟨rx, asked, taken, rfl, rfl⟩
  · cases changed

theorem rx_attended (lossless : RawUartRx.Lossless scene.state.rx)
    (attended : AttendedTo (rawUart driver) waiter scene) {action : RawUartRx.RxAction Reader} :
    ¬ Overlooks (rawUart driver) scene waiter (.change (.rx action)) := by
  rintro ⟨after, wakes, changed, waits, -, met, apart⟩
  obtain ⟨rx, -, taken, rfl, rfl⟩ := change_rx changed
  obtain ⟨before, there, queued⟩ := met_data (attended waits) met
  by_cases last : action = .rxAdvance
  · subst last
    exact apart _ queued (List.mem_singleton_self _)
  · rw [data_before lossless taken last there] at before
    cases before

theorem tx_overlooks (settled : Settled (rawUart driver) scene)
    (attended : AttendedTo (rawUart driver) waiter scene) {action : TxAction Conn Hardware}
    (overlooked : Overlooks (rawUart driver) scene waiter (.change (.tx action))) :
    Forsakes driver scene waiter (.change (.tx action)) := by
  obtain ⟨after, wakes, changed, waits, stays, met, apart⟩ := overlooked
  have unmet : waiter.condition scene.state = false := attended waits
  have present : waiter.present scene.state = true := settled _ waits.1
  obtain ⟨tx, taken, rfl, rfl⟩ := change_tx changed
  cases step_shown taken with
  | same _ sender priorities =>
      obtain ⟨d, asks, refused, granted⟩ := met_asks sender unmet met
      rw [mayTake_same sender (fun c _ => priorities c) (priorities d), refused] at granted
      cases granted
  | woken _ called => exact absurd called (apart _ (met_woken unmet met))
  | taken _ idle => exact absurd ((met_idle idle unmet).symm.trans met) Bool.false_ne_true
  | opened c unallocated sender fresh others =>
      obtain ⟨d, asks, refused, granted⟩ := met_asks sender unmet met
      obtain ⟨conn, held, -⟩ := present_asks asks present
      have other : d ≠ c := by
        rintro rfl
        rw [unallocated] at held
        cases held
      have new : priority? tx c = some 0 := by simp [priority?, fresh, freshConnection]
      by_cases owner : scene.state.tx.txConnection = some c
      · exact ⟨waits, (mayTake_lowered asks other sender owner new others).mp granted⟩
      · rw [mayTake_others sender others other owner, refused] at granted
        cases granted
  | closed c sender freed others =>
      obtain ⟨d, asks, refused, granted⟩ := met_asks sender unmet met
      obtain ⟨conn, held, -⟩ := present_asks asks stays
      have other : d ≠ c := by
        rintro rfl
        rw [freed] at held
        cases held
      by_cases owner : scene.state.tx.txConnection = some c
      · simp [mayTake, sender, owner, priority?, freed] at granted
      · rw [mayTake_others sender others other owner, refused] at granted
        cases granted
  | prioritized c priority conn held idle sender set others =>
      obtain ⟨d, asks, refused, granted⟩ := met_asks sender unmet met
      exact ⟨waits, prioritized_forsakes present asks refused granted held idle sender set rfl others⟩

theorem lowers_overlooks (settled : Settled (rawUart driver) scene) {action : TxAction Conn Hardware}
    {tx : Instance Conn Hardware} {c : Conn} {priority : Nat}
    (taken : RawUartTx.step driver scene.state.tx action = some tx)
    (silent : txWakes scene.state.tx tx action = [])
    (sender : tx.txConnection = scene.state.tx.txConnection)
    (set : priority? tx c = some priority)
    (others : ∀ d, d ≠ c → tx.conns d = scene.state.tx.conns d)
    (waits : Waits (rawUart driver) scene waiter)
    (lowers : Lowers scene.state.tx c priority waiter) :
    Overlooks (rawUart driver) scene waiter (.change (.tx action)) := by
  obtain ⟨owner, d, own, asks, other, found, below⟩ := lowers
  have granted : mayTake tx d = true :=
    (mayTake_lowered asks other sender owner set others).mpr
      ⟨owner, d, own, asks, other, found, below⟩
  refine ⟨{ scene.state with tx := tx }, [], ?_, waits, ?_, ?_, fun _ _ => List.not_mem_nil⟩
  · show change driver scene.state (.tx action) = _
    rw [change, taken, ← silent]
    rfl
  · exact (present_same asks (others d other)).trans (settled _ waits.1)
  · exact asks_met asks granted

theorem raises_overlooks {c : Conn} {priority : Nat} {conn : Connection Conn}
    {tx : Instance Conn Hardware} {set : Option Nat}
    (taken : RawUartTx.step driver scene.state.tx (.ioctl c set) = some tx)
    (sender : tx.txConnection = scene.state.tx.txConnection)
    (new : tx.conns c = some conn) (own : conn.priority = priority)
    (others : ∀ d, d ≠ c → tx.conns d = scene.state.tx.conns d)
    (waits : Waits (rawUart driver) scene waiter)
    (raises : Raises scene.state.tx c priority waiter) :
    Overlooks (rawUart driver) scene waiter (.change (.tx (.ioctl c set))) := by
  obtain ⟨owner, held, requested, sending, apart, found, below, rfl, output⟩ := raises
  have mine : priority? tx c = some priority := by simp [priority?, new, own]
  have granted : mayTake tx c = true := (mayTake_owner (sender.trans sending) mine).mpr
    ⟨held, (priority_other others apart).trans found, below⟩
  refine ⟨{ scene.state with tx := tx }, [], ?_, waits, ?_, ?_, fun _ _ => List.not_mem_nil⟩
  · show change driver scene.state (.tx (.ioctl c set)) = _
    rw [change, taken]
    rfl
  · exact Option.isSome_iff_exists.mpr ⟨conn, new⟩
  · have asks : (Waiter.poll c requested : Waiter Conn Reader).asks = some c := if_pos output
    exact asks_met asks granted

theorem forsakes_overlooks (settled : Settled (rawUart driver) scene)
    {act : Act Conn Hardware Reader} {next : Scene Conn Hardware Reader}
    (taken : WakeUps.step (rawUart driver) scene act = some next)
    (forsaken : Forsakes driver scene waiter act) : Overlooks (rawUart driver) scene waiter act := by
  cases act with
  | wake queue | sleep waiter | leave index => exact forsaken.elim
  | change change =>
      obtain ⟨⟨after, wakes⟩, changed, rfl⟩ := Option.map_eq_some_iff.mp taken
      cases change with
      | rx action => exact forsaken.elim
      | tx action =>
          obtain ⟨tx, stepped, rfl, rfl⟩ := change_tx changed
          cases action with
          | openFile c =>
              obtain ⟨waits, lowers⟩ := forsaken
              cases step_effect stepped with
              | openFile _ unallocated =>
                  exact lowers_overlooks settled stepped rfl rfl
                    (by simp [priority?, setConn_same, freshConnection])
                    (fun d other => setConn_other other _) waits lowers
              | thread _ _ _ _ _ _ effect => cases effect
          | ioctl c set =>
              cases set with
              | none => exact forsaken.elim
              | some priority =>
                  obtain ⟨conn, -, -, sender, new, others⟩ := ioctl_step stepped
                  obtain ⟨waits, lowers | raises⟩ := forsaken
                  · exact lowers_overlooks settled stepped rfl sender (by simp [priority?, new])
                      others waits lowers
                  · exact raises_overlooks stepped sender new rfl others waits raises
          | _ => exact forsaken.elim

end Steps

/-- An instance after `generic_raw_uart_probe`, with the ring as the first open leaves it. -/
structure Fresh (uart : Uart Conn Hardware Reader) : Prop where
  tx : Initial uart.tx
  rx : RawUartRx.Reset uart.rx

def awake (uart : Uart Conn Hardware Reader) : Scene Conn Hardware Reader := ⟨uart, [], []⟩

section Runs
variable (driver : RawUartDriver Hardware) (uart : Uart Conn Hardware Reader) (fresh : Fresh uart)

omit [DecidableEq Conn] [DecidableEq Reader] in
theorem bounded_reads {rx : RawUartRx.RxSide Reader} {action : RawUartRx.RxAction Reader}
    (asked : bounded action = true) : RawUartRx.Reads rx action := by
  cases action with
  | enter r count nonblock =>
      have small : count ≤ RawUartRx.intMax := of_decide_eq_true asked
      exact small
  | _ => trivial

variable {driver} in
theorem change_lossless {uart after : Uart Conn Hardware Reader}
    {change : Change Conn Hardware Reader} {wakes : List Queue}
    (lossless : RawUartRx.Lossless uart.rx)
    (changed : (rawUart driver).change uart change = some (after, wakes)) :
    RawUartRx.Lossless after.rx := by
  cases change with
  | tx action =>
      obtain ⟨tx, -, rfl, -⟩ := change_tx changed
      exact lossless
  | rx action =>
      obtain ⟨rx, asked, taken, rfl, -⟩ := change_rx changed
      exact RawUartRx.lossless_step lossless (bounded_reads asked) taken

variable {driver} in
theorem overlooks_forsakes {scene : Scene Conn Hardware Reader} {waiter : Waiter Conn Reader}
    {act : Act Conn Hardware Reader} (lossless : RawUartRx.Lossless scene.state.rx)
    (settled : Settled (rawUart driver) scene)
    (attended : AttendedTo (rawUart driver) waiter scene)
    (overlooked : Overlooks (rawUart driver) scene waiter act) :
    Forsakes driver scene waiter act := by
  cases act with
  | wake queue | sleep waiter | leave index => exact overlooked.elim
  | change change =>
      cases change with
      | tx action => exact tx_overlooks settled attended overlooked
      | rx action => exact absurd overlooked (rx_attended lossless attended)

theorem awake_settled : Settled (rawUart driver) (awake uart) := by
  intro entry member
  cases member

theorem awake_attended (waiter : Waiter Conn Reader) :
    AttendedTo (rawUart driver) waiter (awake uart) := by
  rintro ⟨asleep, -⟩
  cases asleep

/-- A signal ends the second wait of a write only when the transmitter has moved on. -/
def Surrenders (scene : Scene Conn Hardware Reader) : Act Conn Hardware Reader → Prop
  | .change (.tx action) => HandedOver scene.state.tx action
  | _ => True

variable {driver} in
/-- A connection that sends has a call at work: its priority stands and its place is taken. -/
theorem owned_forsakes {scene next : Scene Conn Hardware Reader} {waiter : Waiter Conn Reader}
    {act : Act Conn Hardware Reader} (owned : Ownership scene.state.tx)
    (taken : WakeUps.step (rawUart driver) scene act = some next)
    (forsaken : Forsakes driver scene waiter act) : ∃ c requested, waiter = .poll c requested := by
  cases act with
  | wake queue | sleep waiter | leave index => exact forsaken.elim
  | change change =>
      obtain ⟨⟨after, wakes⟩, changed, -⟩ := Option.map_eq_some_iff.mp taken
      cases change with
      | rx action => exact forsaken.elim
      | tx action =>
          obtain ⟨tx, stepped, -, -⟩ := change_tx changed
          cases action with
          | openFile c =>
              obtain ⟨-, owner, -⟩ := forsaken
              obtain ⟨conn, write, held, -⟩ := owned.owner c owner
              cases step_effect stepped with
              | openFile _ unallocated =>
                  rw [unallocated] at held
                  cases held
              | thread _ _ _ _ _ _ effect => cases effect
          | ioctl c set =>
              cases set with
              | none => exact forsaken.elim
              | some priority =>
                  obtain ⟨conn, held, idle, -⟩ := ioctl_step stepped
                  obtain ⟨-, ⟨owner, -⟩ | ⟨o, low, requested, -, -, -, -, polls, -⟩⟩ := forsaken
                  · obtain ⟨conn', write, held', holding⟩ := owned.owner c owner
                    cases held.symm.trans held'
                    exact absurd idle (holding_write holding).2.2
                  · exact ⟨c, requested, polls⟩
          | _ => exact forsaken.elim

include fresh in
/-- In a run in which every writer waits for its transmission, no reader and no writer ever
sleeps through what it waits for without a wake-up on its way. -/
theorem calls_attended (acts : List (Act Conn Hardware Reader)) (waiter : Waiter Conn Reader)
    (call : ∀ c requested, waiter ≠ .poll c requested)
    (meets : Meets (WakeUps.step (rawUart driver)) Surrenders (awake uart) acts) :
    Throughout (WakeUps.step (rawUart driver)) (AttendedTo (rawUart driver) waiter) (awake uart)
      acts := by
  let holds (scene : Scene Conn Hardware Reader) : Prop :=
    Ownership scene.state.tx ∧ RawUartRx.Lossless scene.state.rx ∧
      Settled (rawUart driver) scene ∧ AttendedTo (rawUart driver) waiter scene
  have kept : ∀ scene act next, holds scene → Surrenders scene act →
      WakeUps.step (rawUart driver) scene act = some next → holds next := by
    rintro scene act next ⟨owned, lossless, settled, attended⟩ surrenders taken
    refine ⟨?_, ?_, settled_step settled taken, ?_⟩
    · refine state_step (fun uart => Ownership uart.tx) ?_ owned taken
      rintro change after wakes rfl changed
      cases change with
      | tx action =>
          obtain ⟨tx, stepped, rfl, -⟩ := change_tx changed
          exact ownership_step driver owned surrenders stepped
      | rx action =>
          obtain ⟨rx, -, -, rfl, -⟩ := change_rx changed
          exact owned
    · refine state_step (fun uart => RawUartRx.Lossless uart.rx) ?_ lossless taken
      exact fun _ _ _ _ => change_lossless lossless
    · refine (attendedTo_step_iff attended taken).mpr ?_
      intro overlooked
      obtain ⟨c, requested, polls⟩ :=
        owned_forsakes owned taken (overlooks_forsakes lossless settled attended overlooked)
      exact call c requested polls
  have start : holds (awake uart) :=
    ⟨ownership_initial fresh.tx, RawUartRx.lossless_reset fresh.rx, awake_settled driver uart,
      awake_attended driver uart waiter⟩
  exact (throughout_of_meets kept acts start meets).mono fun _ held => held.2.2.2

end Runs

def idleUart : Uart Nat Nat Nat := ⟨fullFifo, RawUartRx.resetSide⟩

theorem idleUart_fresh : Fresh idleUart :=
  ⟨fullFifo_initial, List.length_replicate, rfl, rfl, rfl, fun _ => rfl, rfl, rfl, rfl, rfl, rfl⟩

def txActs (actions : List (TxAction Nat Nat)) : List (Act Nat Nat Nat) :=
  actions.map fun action => .change (.tx action)

def writeUp (c priority : Nat) : List (TxAction Nat Nat) :=
  [.openFile c, .ioctl c (some priority), .enter c [0xaa], .copy c none, .setIndex c, .setLength c]

def leftBehind : List (Act Nat Nat Nat) :=
  txActs (writeUp 0 5 ++ [.acquire 0, .interruptComplete 0, .leave 0] ++ writeUp 1 3) ++
    [.sleep (.acquire 1)]

def waitsBehind : List (Act Nat Nat Nat) :=
  txActs (writeUp 0 0 ++ [.acquire 0] ++ writeUp 1 0) ++
    [.sleep (.acquire 1), .change (.tx (.environment 16)), .change (.tx .txQueued), .wake .writeq,
      .change (.tx (.acquire 1))]

def stays : Act Nat Nat Nat → Bool
  | .change (.tx (.leave _)) => false
  | _ => true

theorem stays_surrenders (scene : Scene Nat Nat Nat) (act : Act Nat Nat Nat)
    (passed : stays act = true) : Surrenders scene act := by
  cases act with
  | wake queue | sleep waiter | leave index => trivial
  | change change =>
      cases change with
      | rx action => trivial
      | tx action =>
          rintro c conn write rfl
          cases passed

theorem calls_attended_behind :
    (runAll (WakeUps.step (rawUart fifoDriver)) (awake idleUart) waitsBehind).isSome = true ∧
      Throughout (WakeUps.step (rawUart fifoDriver))
        (AttendedTo (rawUart fifoDriver) (.acquire 1)) (awake idleUart) waitsBehind := by
  have all : waitsBehind.all stays = true := rfl
  refine ⟨rfl, calls_attended fifoDriver idleUart idleUart_fresh _ _ ?_ ?_⟩
  · intro c requested same
    cases same
  · exact meets_of_forall
      (fun scene act member => stays_surrenders scene act (List.all_eq_true.mp all act member)) _

end PiVccu.RawUartWakeUps
