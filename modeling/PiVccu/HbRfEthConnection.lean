import PiVccu.HandleLedger
import PiVccu.Transition

/-!
The connection of `kernel/hb_rf_eth.c`: its socket, its two threads and the commands that make
and end it. A command is a write to the `connect` file, and the next one comes behind it. The
threads run at any time; a step of theirs is one access to what they share.
-/

namespace PiVccu.HbRfEthConnection
open HandleLedger Transition

/-- `hb_rf_eth_recv_threadproc`: in its loop, behind `sock_release`, behind `_sock = NULL`, in
the loop that reconnects, in `hb_rf_eth_try_connect` before and behind `connect`, behind
`_sock = sock`, and behind the last loop. -/
inductive RecvPhase where
  | fresh
  | receiving
  | expired
  | cleared
  | offline
  | connecting (sock : Nat)
  | greeting (sock : Nat)
  | published
  | leaving
deriving DecidableEq

/-- `hb_rf_eth_send_threadproc`, in its loop or in `hb_rf_eth_send_msg` with the `_sock` that
it read. -/
inductive SendPhase where
  | fresh
  | waiting
  | sending (sock : Option Nat)
deriving DecidableEq

/-- Where a command stands in `hb_rf_eth_disconnect`, and then, if it goes on, in
`hb_rf_eth_connect`. It is dead behind a call with `NULL`. -/
inductive Command where
  | idle
  | checkSender (again : Bool)
  | joinSender (again : Bool)
  | checkReceiver (again : Bool)
  | stopReceiver (again : Bool)
  | joinReceiver (again : Bool)
  | closing (again : Bool)
  | release (again : Bool)
  | clear (again : Bool)
  | lower (again : Bool)
  | creating
  | connecting (sock : Nat)
  | greeting (sock : Nat)
  | published
  | runReceiver
  | runSender
  | undoStop
  | undoJoin
  | dead
deriving DecidableEq

/-- Sockets are numbered as they are created. A thread is `none` when its pointer is `NULL`.
`connectionState` is the one of the raw uart. For the record: how many threads have been
created. -/
structure Eth where
  sock : Option Nat
  created : Nat
  released : List Nat
  connectionState : Bool
  receiver : Option RecvPhase
  recvStop : Bool
  sender : Option SendPhase
  sendStop : Bool
  command : Command
  oops : Bool
  receivers : Nat
  senders : Nat

def Eth.proceed (eth : Eth) (again : Bool) : Eth :=
  { eth with command := if again then .creating else .idle }

/-- `lucky` is the outcome of the next call that may fail: of the creation of a socket, of its
`connect`, of the greeting, or of `kthread_run`. -/
def commandStep (eth : Eth) (lucky : Bool) : Option Eth :=
  match eth.command with
  | .idle | .dead => none
  | .checkSender again =>
      if eth.sender.isSome then some { eth with sendStop := true, command := .joinSender again }
      else some { eth with command := .checkReceiver again }
  | .joinSender again =>
      if eth.sender.isSome then none else some { eth with command := .checkReceiver again }
  | .checkReceiver again =>
      some { eth with
        command := if eth.receiver.isSome then .stopReceiver again else .closing again }
  | .stopReceiver again =>
      if eth.receiver.isSome then
        some { eth with recvStop := true, command := .joinReceiver again }
      else some { eth with oops := true, command := .dead }
  | .joinReceiver again =>
      if eth.receiver.isSome then none else some { eth with command := .closing again }
  | .closing again =>
      if eth.sock.isSome then some { eth with command := .release again }
      else some (eth.proceed again)
  | .release again =>
      match eth.sock with
      | some sock =>
          some { eth with released := eth.released ++ [sock], command := .clear again }
      | none => some { eth with oops := true, command := .dead }
  | .clear again => some { eth with sock := none, command := .lower again }
  | .lower again => some ({ eth with connectionState := false }.proceed again)
  | .creating =>
      if lucky then
        some { eth with created := eth.created + 1, command := .connecting eth.created }
      else some { eth with command := .idle }
  | .connecting sock =>
      if lucky then some { eth with command := .greeting sock }
      else some { eth with released := eth.released ++ [sock], command := .idle }
  | .greeting sock =>
      if lucky then some { eth with sock := some sock, command := .published }
      else some { eth with released := eth.released ++ [sock], command := .idle }
  | .published => some { eth with connectionState := true, command := .runReceiver }
  | .runReceiver =>
      if lucky then
        some { eth with
          receiver := some .fresh, recvStop := false, receivers := eth.receivers + 1,
          command := .runSender }
      else some { eth with command := .release false }
  | .runSender =>
      if lucky then
        some { eth with
          sender := some .fresh, sendStop := false, senders := eth.senders + 1, command := .idle }
      else some { eth with command := .undoStop }
  | .undoStop =>
      if eth.receiver.isSome then some { eth with recvStop := true, command := .undoJoin }
      else some { eth with oops := true, command := .dead }
  | .undoJoin =>
      if eth.receiver.isSome then none else some { eth with command := .release false }

/-- `event` is the timeout of the keep-alive, `autoreconnect` or the outcome of a call. -/
def receiverStep (eth : Eth) (event : Bool) : Option Eth :=
  match eth.receiver with
  | none => none
  | some .fresh => some { eth with receiver := if eth.recvStop then none else some .receiving }
  | some .receiving =>
      if event then
        match eth.sock with
        | some sock => some { eth with
            released := eth.released ++ [sock], receiver := some .expired }
        | none => some { eth with oops := true, receiver := none }
      else some { eth with receiver := some (if eth.recvStop then .leaving else .receiving) }
  | some .expired => some { eth with sock := none, receiver := some .cleared }
  | some .cleared => some { eth with
      connectionState := false, receiver := some (if event then .offline else .leaving) }
  | some .offline =>
      if eth.recvStop then some { eth with receiver := some .leaving }
      else if event then
        some { eth with created := eth.created + 1, receiver := some (.connecting eth.created) }
      else some eth
  | some (.connecting sock) =>
      if event then some { eth with receiver := some (.greeting sock) }
      else some { eth with released := eth.released ++ [sock], receiver := some .offline }
  | some (.greeting sock) =>
      if event then some { eth with sock := some sock, receiver := some .published }
      else some { eth with released := eth.released ++ [sock], receiver := some .offline }
  | some .published => some { eth with
      connectionState := true, receiver := some (if eth.recvStop then .leaving else .receiving) }
  | some .leaving => some { eth with receiver := none }

/-- `event` is a message to send. There may be two of them before the thread looks at
`kthread_should_stop` again. -/
def senderStep (eth : Eth) (event : Bool) : Option Eth :=
  match eth.sender with
  | none => none
  | some .fresh => some { eth with sender := if eth.sendStop then none else some .waiting }
  | some .waiting =>
      if event then some { eth with sender := some (.sending eth.sock) }
      else some { eth with sender := if eth.sendStop then none else some .waiting }
  | some (.sending _) => some { eth with sender := some .waiting }

inductive Act where
  | ask (again : Bool)
  | command (lucky : Bool)
  | receiver (event : Bool)
  | sender (event : Bool)

def step (eth : Eth) : Act → Option Eth
  | .ask again =>
      if eth.command = .idle then some { eth with command := .checkSender again } else none
  | .command lucky => commandStep eth lucky
  | .receiver event => receiverStep eth event
  | .sender event => senderStep eth event

def unconnected : Eth := ⟨none, 0, [], false, none, false, none, false, .idle, false, 0, 0⟩

def Command.alone : Command → Bool
  | .closing _ | .release _ | .clear _ | .lower _ | .creating | .connecting _ | .greeting _
  | .published | .runReceiver => true
  | _ => false

def Command.senderGone : Command → Bool
  | .checkReceiver _ | .stopReceiver _ | .joinReceiver _ | .runSender | .undoStop
  | .undoJoin => true
  | command => command.alone

def Command.sock? : Command → Option Bool
  | .clear _ | .published | .runReceiver => some true
  | .lower _ | .creating | .connecting _ | .greeting _ => some false
  | _ => none

def RecvPhase.sock? : RecvPhase → Option Bool
  | .fresh | .receiving | .expired | .published => some true
  | .cleared | .offline | .connecting _ | .greeting _ => some false
  | .leaving => none

/-- The sockets that a command has when it is alone: not the one it has just released. -/
def Command.held (command : Command) (sock : Option Nat) : List Nat :=
  match command with
  | .connecting own | .greeting own => own :: sock.toList
  | .clear _ => []
  | _ => sock.toList

def RecvPhase.held (phase : RecvPhase) (sock : Option Nat) : List Nat :=
  match phase with
  | .connecting own | .greeting own => own :: sock.toList
  | .expired => []
  | _ => sock.toList

/-- `connection_state` follows `_sock` one step behind. -/
def Command.shown (command : Command) (sock : Option Nat) : Bool :=
  match command with
  | .lower _ => true
  | .published => false
  | _ => sock.isSome

def RecvPhase.shown (phase : RecvPhase) (sock : Option Nat) : Bool :=
  match phase with
  | .cleared => true
  | .published => false
  | _ => sock.isSome

def Eth.held (eth : Eth) : List Nat :=
  match eth.receiver with
  | some phase => phase.held eth.sock
  | none => eth.command.held eth.sock

def Eth.shown (eth : Eth) : Bool :=
  match eth.receiver with
  | some phase => phase.shown eth.sock
  | none => eth.command.shown eth.sock

structure Sound (eth : Eth) : Prop where
  ledger : Balanced eth.created eth.released eth.held
  apart : eth.command.alone = true → eth.receiver = none
  quiet : eth.command.senderGone = true → eth.sender = none
  commandSock : ∀ present, eth.command.sock? = some present → eth.sock.isSome = present
  receiverSock : ∀ phase present, eth.receiver = some phase → phase.sock? = some present →
    eth.sock.isSome = present
  state : eth.connectionState = eth.shown

/-- While a thread receives, commands do nothing to the socket. -/
theorem shared_command {command : Command} (there : command.alone = false) (sock : Option Nat) :
    command.held sock = sock.toList ∧ command.shown sock = sock.isSome ∧ command.sock? = none := by
  cases command <;> first | exact ⟨rfl, rfl, rfl⟩ | cases there

theorem unknown_sock {sock : Option Nat} (present : Bool) (known : none = some present) :
    sock.isSome = present := by
  cases known

theorem sound_sender {eth after : Eth} {event : Bool} (sound : Sound eth)
    (taken : senderStep eth event = some after) : Sound after := by
  have there : eth.command.senderGone = false := by
    by_contra gone
    rw [senderStep, sound.quiet (Bool.not_eq_false _ ▸ gone)] at taken
    cases taken
  have kept : ∃ sender, after = { eth with sender := sender } := by
    unfold senderStep at taken
    split at taken
    · cases taken
    · cases taken
      exact ⟨_, rfl⟩
    · split at taken <;> cases taken <;> exact ⟨_, rfl⟩
    · cases taken
      exact ⟨_, rfl⟩
  obtain ⟨sender, rfl⟩ := kept
  refine ⟨sound.ledger, sound.apart, ?_, sound.commandSock, sound.receiverSock, sound.state⟩
  intro gone
  rw [there] at gone
  cases gone

theorem sound_phase {eth : Eth} {phase : RecvPhase} (there : eth.command.alone = false)
    (running : eth.receiver = some phase) (quiet : eth.command.senderGone = true → eth.sender = none)
    (ledger : Balanced eth.created eth.released (phase.held eth.sock))
    (sock : ∀ present, phase.sock? = some present → eth.sock.isSome = present)
    (state : eth.connectionState = phase.shown eth.sock) : Sound eth := by
  refine ⟨?_, ?_, quiet, ?_, ?_, ?_⟩
  · rw [Eth.held, running]
    exact ledger
  · intro alone
    rw [there] at alone
    cases alone
  · intro present known
    rw [(shared_command there none).2.2] at known
    cases known
  · intro other present same known
    cases running.symm.trans same
    exact sock present known
  · rw [Eth.shown, running]
    exact state

theorem sound_ended {eth : Eth} (there : eth.command.alone = false) (gone : eth.receiver = none)
    (quiet : eth.command.senderGone = true → eth.sender = none)
    (ledger : Balanced eth.created eth.released eth.sock.toList)
    (state : eth.connectionState = eth.sock.isSome) : Sound eth := by
  obtain ⟨held, shown, unknown⟩ := shared_command there eth.sock
  refine ⟨?_, ?_, quiet, ?_, ?_, ?_⟩
  · rw [Eth.held, gone]
    exact held ▸ ledger
  · intro _
    exact gone
  · intro present known
    rw [unknown] at known
    cases known
  · intro phase present running
    rw [gone] at running
    cases running
  · rw [Eth.shown, gone]
    exact shown ▸ state

theorem sound_receiver {eth after : Eth} {event : Bool} (sound : Sound eth)
    (taken : receiverStep eth event = some after) : Sound after := by
  cases running : eth.receiver with
  | none =>
      rw [receiverStep, running] at taken
      cases taken
  | some phase =>
      have there : eth.command.alone = false := by
        by_contra alone
        rw [sound.apart (Bool.not_eq_false _ ▸ alone)] at running
        cases running
      have quiet := sound.quiet
      have ledger : Balanced eth.created eth.released (phase.held eth.sock) := by
        have ledger := sound.ledger
        rwa [Eth.held, running] at ledger
      have sock : ∀ present, phase.sock? = some present → eth.sock.isSome = present :=
        fun present => sound.receiverSock phase present running
      have state : eth.connectionState = phase.shown eth.sock := by
        have state := sound.state
        rwa [Eth.shown, running] at state
      rw [receiverStep, running] at taken
      cases phase with
      | fresh =>
          cases taken
          cases stop : eth.recvStop with
          | true => exact sound_ended there rfl quiet ledger state
          | false => exact sound_phase there rfl quiet ledger sock state
      | receiving =>
          cases event with
          | true =>
              cases there' : eth.sock with
              | none =>
                  have present := sock true rfl
                  rw [there'] at present
                  cases present
              | some own =>
                  rw [there'] at ledger sock state
                  simp only [↓reduceIte, there'] at taken
                  cases taken
                  exact sound_phase there rfl quiet ledger.release sock state
          | false =>
              cases taken
              cases stop : eth.recvStop with
              | true => exact sound_phase there rfl quiet ledger unknown_sock state
              | false => exact sound_phase there rfl quiet ledger sock state
      | expired =>
          cases taken
          refine sound_phase there rfl quiet ledger ?_ ?_
          · intro present known
            cases known
            rfl
          · exact state.trans (sock true rfl)
      | cleared =>
          have absent := sock false rfl
          cases taken
          cases event with
          | true => exact sound_phase there rfl quiet ledger sock absent.symm
          | false => exact sound_phase there rfl quiet ledger unknown_sock absent.symm
      | offline =>
          cases stop : eth.recvStop with
          | true =>
              simp only [stop, ↓reduceIte] at taken
              cases taken
              exact sound_phase there rfl quiet ledger unknown_sock state
          | false =>
              cases event with
              | true =>
                  simp only [stop, ↓reduceIte, Bool.false_eq_true] at taken
                  cases taken
                  exact sound_phase there rfl quiet ledger.take sock state
              | false =>
                  simp only [stop, ↓reduceIte, Bool.false_eq_true] at taken
                  cases taken
                  exact sound_phase there running quiet ledger sock state
      | connecting own =>
          have absent : eth.sock = none := by simpa using sock false rfl
          cases event with
          | true =>
              cases taken
              exact sound_phase there rfl quiet ledger sock state
          | false =>
              cases taken
              refine sound_phase there rfl quiet ?_ sock state
              rw [RecvPhase.held, absent] at ledger
              exact absent ▸ ledger.release
      | greeting own =>
          have absent : eth.sock = none := by simpa using sock false rfl
          rw [RecvPhase.held, absent] at ledger
          cases event with
          | true =>
              cases taken
              refine sound_phase there rfl quiet ledger ?_ ?_
              · intro present known
                cases known
                rfl
              · exact state.trans (sock false rfl)
          | false =>
              cases taken
              refine sound_phase there rfl quiet ?_ sock state
              exact absent ▸ ledger.release
      | published =>
          have present := sock true rfl
          cases taken
          cases stop : eth.recvStop with
          | true => exact sound_phase there rfl quiet ledger unknown_sock present.symm
          | false => exact sound_phase there rfl quiet ledger sock present.symm
      | leaving =>
          cases taken
          exact sound_ended there rfl quiet ledger state

theorem sound_beside {eth : Eth} (sound : Sound eth) (command : Command)
    (before : eth.command.alone = false) (behind : command.alone = false)
    {sender : Option SendPhase} (quiet : command.senderGone = false ∨ sender = none)
    (recvStop sendStop oops : Bool) (senders : Nat) :
    Sound { eth with
      recvStop := recvStop, sender := sender, sendStop := sendStop, command := command,
      oops := oops, senders := senders } := by
  have gone : command.senderGone = true → sender = none := by
    intro gone
    rcases quiet with not | none
    · exact absurd (not.symm.trans gone) Bool.false_ne_true
    · exact none
  have state := sound.state
  have ledger := sound.ledger
  cases running : eth.receiver with
  | none =>
      rw [Eth.shown, running] at state
      rw [Eth.held, running] at ledger
      obtain ⟨held, shown, -⟩ := shared_command before eth.sock
      exact sound_ended behind rfl gone (held ▸ ledger) (shown ▸ state)
  | some phase =>
      rw [Eth.shown, running] at state
      rw [Eth.held, running] at ledger
      exact sound_phase behind rfl gone ledger
        (fun present => sound.receiverSock phase present running) state

structure Alone (eth : Eth) : Prop where
  receiver : eth.receiver = none
  sender : eth.sender = none
  ledger : Balanced eth.created eth.released (eth.command.held eth.sock)
  sock : ∀ present, eth.command.sock? = some present → eth.sock.isSome = present
  state : eth.connectionState = eth.command.shown eth.sock

theorem Sound.alone {eth : Eth} (sound : Sound eth) (alone : eth.command.alone = true) :
    Alone eth := by
  have receiver := sound.apart alone
  have gone : eth.command.senderGone = true := by
    cases phase : eth.command <;> rw [phase] at alone <;> first | rfl | cases alone
  have ledger := sound.ledger
  have state := sound.state
  rw [Eth.held, receiver] at ledger
  rw [Eth.shown, receiver] at state
  exact ⟨receiver, sound.quiet gone, ledger, sound.commandSock, state⟩

theorem Alone.sound {eth : Eth} (alone : Alone eth) : Sound eth := by
  obtain ⟨receiver, sender, ledger, sock, state⟩ := alone
  refine ⟨?_, fun _ => receiver, fun _ => sender, sock, ?_, ?_⟩
  · rw [Eth.held, receiver]
    exact ledger
  · intro phase present running
    rw [receiver] at running
    cases running
  · rw [Eth.shown, receiver]
    exact state

structure Unconnected (eth : Eth) : Prop where
  receiver : eth.receiver = none
  sender : eth.sender = none
  sock : eth.sock = none
  ledger : Balanced eth.created eth.released []
  state : eth.connectionState = false

theorem Unconnected.alone {eth : Eth} (unconnected : Unconnected eth)
    (free : eth.command.held none = []) (absent : eth.command.sock?.getD false = false)
    (shown : eth.command.shown none = false) : Alone eth := by
  obtain ⟨receiver, sender, sock, ledger, state⟩ := unconnected
  refine ⟨receiver, sender, ?_, ?_, ?_⟩
  · rw [sock, free]
    exact ledger
  · intro present known
    rw [sock]
    rw [known] at absent
    exact absent.symm
  · rw [sock, shown]
    exact state

theorem Unconnected.proceed {eth : Eth} (unconnected : Unconnected eth) (again : Bool) :
    Sound (eth.proceed again) := by
  obtain ⟨receiver, sender, sock, ledger, state⟩ := unconnected
  have free : Unconnected (eth.proceed again) := ⟨receiver, sender, sock, ledger, state⟩
  cases again with
  | true => exact (free.alone rfl rfl rfl).sound
  | false => exact (free.alone rfl rfl rfl).sound

theorem sound_joined {eth : Eth} (sound : Sound eth) (command : Command)
    (before : eth.command.alone = false) (gone : eth.receiver = none) (quiet : eth.sender = none)
    (plain : command.held eth.sock = eth.sock.toList ∧ command.shown eth.sock = eth.sock.isSome ∧
      command.sock? = none) : Sound { eth with command := command } := by
  have ledger := sound.ledger
  have state := sound.state
  obtain ⟨held, shown, -⟩ := shared_command before eth.sock
  rw [Eth.held, gone] at ledger
  rw [Eth.shown, gone] at state
  refine Alone.sound ⟨gone, quiet, ?_, ?_, ?_⟩
  · exact plain.1 ▸ held ▸ ledger
  · intro present known
    rw [plain.2.2] at known
    cases known
  · exact state.trans (shown.trans plain.2.1.symm)

theorem sound_disconnect {eth after : Eth} {lucky : Bool} (sound : Sound eth)
    (there : eth.command.alone = false) (taken : commandStep eth lucky = some after) :
    Sound after := by
  cases phase : eth.command with
  | idle | dead =>
      rw [commandStep, phase] at taken
      cases taken
  | checkSender again =>
      simp only [commandStep, phase] at taken
      split at taken
      · cases taken
        exact sound_beside sound (.joinSender again) there rfl (.inl rfl) ..
      · rename_i absent
        cases taken
        exact sound_beside sound (.checkReceiver again) there rfl
          (.inr (by simpa using absent)) ..
  | joinSender again =>
      simp only [commandStep, phase] at taken
      split at taken
      · cases taken
      · rename_i absent
        cases taken
        exact sound_beside sound (.checkReceiver again) there rfl
          (.inr (by simpa using absent)) ..
  | checkReceiver again =>
      have quiet := sound.quiet (by rw [phase]; rfl)
      simp only [commandStep, phase] at taken
      split at taken
      · cases taken
        exact sound_beside sound (.stopReceiver again) there rfl (.inr quiet) ..
      · rename_i absent
        cases taken
        exact sound_joined sound (.closing again) there (by simpa using absent) quiet ⟨rfl, rfl, rfl⟩
  | stopReceiver again =>
      have quiet := sound.quiet (by rw [phase]; rfl)
      simp only [commandStep, phase] at taken
      split at taken <;> cases taken
      · exact sound_beside sound (.joinReceiver again) there rfl (.inr quiet) ..
      · exact sound_beside sound .dead there rfl (.inl rfl) ..
  | joinReceiver again =>
      have quiet := sound.quiet (by rw [phase]; rfl)
      simp only [commandStep, phase] at taken
      split at taken
      · cases taken
      · rename_i absent
        cases taken
        exact sound_joined sound (.closing again) there (by simpa using absent) quiet ⟨rfl, rfl, rfl⟩
  | runSender =>
      simp only [commandStep, phase] at taken
      split at taken <;> cases taken
      · exact sound_beside sound .idle there rfl (.inl rfl) ..
      · exact sound_beside sound .undoStop there rfl
          (.inr (sound.quiet (by rw [phase]; rfl))) ..
  | undoStop =>
      have quiet := sound.quiet (by rw [phase]; rfl)
      simp only [commandStep, phase] at taken
      split at taken <;> cases taken
      · exact sound_beside sound .undoJoin there rfl (.inr quiet) ..
      · exact sound_beside sound .dead there rfl (.inl rfl) ..
  | undoJoin =>
      have quiet := sound.quiet (by rw [phase]; rfl)
      simp only [commandStep, phase] at taken
      split at taken
      · cases taken
      · rename_i absent
        cases taken
        exact sound_joined sound (.release false) there (by simpa using absent) quiet ⟨rfl, rfl, rfl⟩
  | _ =>
      rw [phase] at there
      cases there

theorem sound_connect {eth after : Eth} {lucky : Bool} (alone : Alone eth)
    (here : eth.command.alone = true) (taken : commandStep eth lucky = some after) :
    Sound after := by
  obtain ⟨receiver, sender, ledger, sock, state⟩ := alone
  cases phase : eth.command with
  | closing again =>
      rw [phase] at ledger state
      simp only [commandStep, phase] at taken
      split at taken
      · cases taken
        exact Alone.sound ⟨receiver, sender, ledger, unknown_sock, state⟩
      · rename_i absent
        have absent : eth.sock = none := by simpa using absent
        cases taken
        refine Unconnected.proceed ⟨receiver, sender, absent, ?_, ?_⟩ again
        · rw [absent] at ledger
          exact ledger
        · rw [absent] at state
          exact state
  | release again =>
      rw [phase] at ledger state
      simp only [commandStep, phase] at taken
      split at taken
      · rename_i own present
        cases taken
        rw [present] at ledger
        refine Alone.sound ⟨receiver, sender, ledger.release, ?_, state⟩
        intro known same
        cases same
        exact congrArg Option.isSome present
      · cases taken
        exact Alone.sound ⟨receiver, sender, ledger, unknown_sock, state⟩
  | clear again =>
      rw [phase] at ledger state sock
      simp only [commandStep, phase] at taken
      cases taken
      refine Alone.sound ⟨receiver, sender, ledger, ?_, ?_⟩
      · intro known same
        cases same
        rfl
      · exact state.trans (sock true rfl)
  | lower again =>
      rw [phase] at ledger sock
      have absent : eth.sock = none := by simpa using sock false rfl
      simp only [commandStep, phase] at taken
      cases taken
      have free : Unconnected { eth with connectionState := false } := by
        refine ⟨receiver, sender, absent, ?_, rfl⟩
        rw [absent] at ledger
        exact ledger
      exact free.proceed again
  | creating =>
      rw [phase] at ledger state sock
      simp only [commandStep, phase] at taken
      split at taken <;> cases taken
      · exact Alone.sound ⟨receiver, sender, ledger.take, sock, state⟩
      · exact Alone.sound ⟨receiver, sender, ledger, unknown_sock, state⟩
  | connecting own =>
      rw [phase] at ledger state sock
      have absent : eth.sock = none := by simpa using sock false rfl
      simp only [commandStep, phase] at taken
      split at taken <;> cases taken
      · exact Alone.sound ⟨receiver, sender, ledger, sock, state⟩
      · refine Alone.sound ⟨receiver, sender, ?_, unknown_sock, state⟩
        rw [Command.held, absent] at ledger
        exact absent ▸ ledger.release
  | greeting own =>
      rw [phase] at ledger state sock
      have absent : eth.sock = none := by simpa using sock false rfl
      rw [Command.held, absent] at ledger
      simp only [commandStep, phase] at taken
      split at taken <;> cases taken
      · refine Alone.sound ⟨receiver, sender, ledger, ?_, ?_⟩
        · intro known same
          cases same
          rfl
        · exact state.trans (sock false rfl)
      · refine Alone.sound ⟨receiver, sender, ?_, unknown_sock, state⟩
        exact absent ▸ ledger.release
  | published =>
      rw [phase] at ledger sock
      simp only [commandStep, phase] at taken
      cases taken
      exact Alone.sound ⟨receiver, sender, ledger, sock, (sock true rfl).symm⟩
  | runReceiver =>
      rw [phase] at ledger state sock
      simp only [commandStep, phase] at taken
      split at taken <;> cases taken
      · refine sound_phase rfl rfl (fun _ => sender) ledger ?_ state
        intro present known
        cases known
        exact sock true rfl
      · exact Alone.sound ⟨receiver, sender, ledger, unknown_sock, state⟩
  | _ =>
      rw [phase] at here
      cases here

theorem sound_step {eth after : Eth} {act : Act} (sound : Sound eth)
    (taken : step eth act = some after) : Sound after := by
  cases act with
  | ask again =>
      rw [step] at taken
      split at taken
      · rename_i idle
        cases taken
        exact sound_beside sound (.checkSender again) (by rw [idle]; rfl) rfl (.inl rfl) ..
      · cases taken
  | receiver event => exact sound_receiver sound taken
  | sender event => exact sound_sender sound taken
  | command lucky =>
      cases here : eth.command.alone with
      | false => exact sound_disconnect sound here taken
      | true => exact sound_connect (sound.alone here) here taken

theorem sound_unconnected : Sound unconnected :=
  Alone.sound ⟨rfl, rfl, balanced_none, unknown_sock, rfl⟩

theorem Sound.single {eth : Eth} (sound : Sound eth) : eth.held.length ≤ 1 := by
  have one : ∀ sock : Option Nat, sock.toList.length ≤ 1 := by
    intro sock
    cases sock <;> simp
  cases running : eth.receiver with
  | none =>
      rw [Eth.held, running]
      cases phase : eth.command with
      | connecting own | greeting own =>
          have absent : eth.sock = none := by
            simpa using sound.commandSock false (by rw [phase]; rfl)
          simp [Command.held, absent]
      | clear again => exact Nat.zero_le 1
      | _ => exact one eth.sock
  | some phase =>
      rw [Eth.held, running]
      cases phase with
      | connecting own | greeting own =>
          have absent : eth.sock = none := by
            simpa using sound.receiverSock _ false running rfl
          simp [RecvPhase.held, absent]
      | expired => exact Nat.zero_le 1
      | _ => exact one eth.sock

theorem sound_reached {eth : Eth}
    (reached : Reachable step (fun _ _ => True) (· = unconnected) eth) : Sound eth := by
  refine reached.invariant ?_ ?_
  · rintro state rfl
    exact sound_unconnected
  · intro before act after sound _ taken
    exact sound_step sound taken

/-- In every run of commands, timeouts, reconnections and failures to create a socket or a
thread, each socket is released once or held once, there is one at most, and
`connection_state` is what `_sock` says, one step behind. -/
theorem sockets_accounted (eth : Eth)
    (reached : Reachable step (fun _ _ => True) (· = unconnected) eth) :
    Balanced eth.created eth.released eth.held ∧ eth.held.length ≤ 1 ∧
      eth.connectionState = eth.shown :=
  have sound := sound_reached reached
  ⟨sound.ledger, sound.single, sound.state⟩

def connecting : List Act := .ask true :: List.replicate 8 (.command true)

def reconnecting : List Act :=
  connecting ++ [.command true, .sender false, .receiver false, .receiver true, .receiver true,
    .receiver true, .receiver true, .receiver true, .receiver true, .receiver true, .sender true]

theorem sockets_accounted_reconnected : ∃ eth, runAll step unconnected reconnecting = some eth ∧
    eth.released = [0] ∧ eth.held = [1] ∧ Balanced eth.created eth.released eth.held := by
  have possible : (runAll step unconnected reconnecting).map (fun eth =>
      (eth.released, eth.held)) = some ([0], [1]) := rfl
  obtain ⟨eth, ran, facts⟩ := Option.map_eq_some_iff.mp possible
  obtain ⟨released, held⟩ := Prod.mk.inj facts
  have reached : Reachable step (fun _ _ => True) (· = unconnected) eth :=
    run_reachable (fun _ _ _ => trivial) reconnecting (.start rfl) ran
  exact ⟨eth, ran, released, held, (sockets_accounted eth reached).1⟩

theorem ends_unconnected {eth next : Eth} {lucky : Bool} (alone : Alone eth)
    (here : eth.command.alone = true) (taken : commandStep eth lucky = some next)
    (ended : next.command = .idle) : Unconnected next := by
  obtain ⟨receiver, sender, ledger, sock, state⟩ := alone
  cases phase : eth.command with
  | closing again =>
      rw [phase] at ledger state
      simp only [commandStep, phase] at taken
      split at taken
      · cases taken
        cases ended
      · rename_i absent
        have absent : eth.sock = none := by simpa using absent
        rw [absent] at ledger state
        cases taken
        exact ⟨receiver, sender, absent, ledger, state⟩
  | lower again =>
      rw [phase] at ledger sock
      have absent : eth.sock = none := by simpa using sock false rfl
      rw [absent] at ledger
      simp only [commandStep, phase] at taken
      cases taken
      exact ⟨receiver, sender, absent, ledger, rfl⟩
  | creating =>
      rw [phase] at ledger state sock
      have absent : eth.sock = none := by simpa using sock false rfl
      rw [absent] at ledger state
      simp only [commandStep, phase] at taken
      split at taken <;> cases taken
      · cases ended
      · exact ⟨receiver, sender, absent, ledger, state⟩
  | connecting own | greeting own =>
      rw [phase] at ledger state sock
      have absent : eth.sock = none := by simpa using sock false rfl
      rw [absent] at ledger state
      simp only [commandStep, phase] at taken
      split at taken <;> cases taken
      · cases ended
      · exact ⟨receiver, sender, absent, ledger.release, state⟩
  | release again =>
      simp only [commandStep, phase] at taken
      split at taken <;> cases taken <;> cases ended
  | clear again | published =>
      simp only [commandStep, phase] at taken
      cases taken
      cases ended
  | runReceiver =>
      simp only [commandStep, phase] at taken
      split at taken <;> cases taken <;> cases ended
  | _ =>
      rw [phase] at here
      cases here

/-- A receiver that nobody has stopped has ended because its socket is gone. -/
def GivenUp (eth : Eth) : Prop :=
  eth.receiver = none ∨ eth.receiver = some .leaving → eth.sock = none

/-- Both threads have been created since `before`, and nobody has stopped them. -/
structure Connected (before eth : Eth) : Prop where
  receivers : eth.receivers = before.receivers + 1
  senders : eth.senders = before.senders + 1
  unstopped : eth.recvStop = false ∧ eth.sendStop = false
  sender : eth.sender.isSome = true
  receiver : GivenUp eth

/-- How far a command has come that was given in the state `before`. -/
def Stage (again : Bool) (before eth : Eth) : Command → Prop
  | .idle => again = true ∧ Connected before eth ∨
      Unconnected eth ∧ eth.senders = before.senders
  | .checkSender again' | .joinSender again' | .checkReceiver again' | .stopReceiver again'
    | .joinReceiver again' =>
      again' = again ∧ eth.receivers = before.receivers ∧ eth.senders = before.senders
  | .closing again' | .release again' | .clear again' | .lower again' =>
      (again' = true → again = true ∧ eth.receivers = before.receivers) ∧
        eth.senders = before.senders
  | .creating | .connecting _ | .greeting _ | .published | .runReceiver =>
      again = true ∧ eth.receivers = before.receivers ∧ eth.senders = before.senders
  | .runSender => again = true ∧ eth.receivers = before.receivers + 1 ∧
      eth.senders = before.senders ∧ eth.recvStop = false ∧ GivenUp eth
  | .undoStop | .undoJoin => eth.senders = before.senders
  | .dead => True

section Outcome
variable {again : Bool} {before eth next : Eth}

/-- What a thread does concerns a command only where both threads are there. -/
theorem Stage.beside (stage : Stage again before eth eth.command)
    (command : next.command = eth.command) (receivers : next.receivers = eth.receivers)
    (senders : next.senders = eth.senders) (recvStop : next.recvStop = eth.recvStop)
    (givenUp : eth.recvStop = false → GivenUp eth → GivenUp next)
    (connected : Connected before eth → Connected before next)
    (there : ¬ Unconnected eth) : Stage again before next next.command := by
  rw [command]
  cases phase : eth.command <;> rw [phase] at stage <;>
    simp only [Stage, receivers, senders, recvStop] at stage ⊢
  case idle =>
      rcases stage with ⟨same, made⟩ | ⟨none, -⟩
      · exact .inl ⟨same, connected made⟩
      · exact absurd none there
  case runSender =>
      obtain ⟨same, created, alone, running, lost⟩ := stage
      exact ⟨same, created, alone, running, givenUp running lost⟩
  all_goals exact stage

theorem receiver_frame {event : Bool} (taken : receiverStep eth event = some next) :
    next.command = eth.command ∧ next.receivers = eth.receivers ∧ next.senders = eth.senders ∧
      next.recvStop = eth.recvStop ∧ next.sendStop = eth.sendStop ∧ next.sender = eth.sender := by
  unfold receiverStep at taken
  split at taken
  case h_3 =>
      split at taken
      · split at taken <;> cases taken <;> exact ⟨rfl, rfl, rfl, rfl, rfl, rfl⟩
      · cases taken
        exact ⟨rfl, rfl, rfl, rfl, rfl, rfl⟩
  case h_6 =>
      split at taken
      · cases taken
        exact ⟨rfl, rfl, rfl, rfl, rfl, rfl⟩
      · split at taken <;> cases taken <;> exact ⟨rfl, rfl, rfl, rfl, rfl, rfl⟩
  case h_7 | h_8 =>
      split at taken <;> cases taken <;> exact ⟨rfl, rfl, rfl, rfl, rfl, rfl⟩
  all_goals
      cases taken
      try exact ⟨rfl, rfl, rfl, rfl, rfl, rfl⟩

theorem givenUp_running {phase : RecvPhase} (running : eth.receiver = some phase)
    (stays : phase ≠ .leaving) : GivenUp eth := by
  rintro (gone | leaving)
  · rw [running] at gone
    cases gone
  · rw [running] at leaving
    exact absurd (Option.some.inj leaving) stays

theorem receiver_givenUp {event : Bool} (sound : Sound eth) (unstopped : eth.recvStop = false)
    (givenUp : GivenUp eth) (taken : receiverStep eth event = some next) : GivenUp next := by
  cases running : eth.receiver with
  | none =>
      rw [receiverStep, running] at taken
      cases taken
  | some phase =>
      have sock : ∀ present, phase.sock? = some present → eth.sock.isSome = present :=
        fun present => sound.receiverSock phase present running
      rw [receiverStep, running] at taken
      cases phase with
      | fresh | published =>
          simp only [unstopped, Bool.false_eq_true, ↓reduceIte] at taken
          cases taken
          exact givenUp_running rfl RecvPhase.noConfusion
      | receiving =>
          cases event with
          | true =>
              obtain ⟨own, present⟩ := Option.isSome_iff_exists.mp (sock true rfl)
              simp only [↓reduceIte, present] at taken
              cases taken
              exact givenUp_running rfl RecvPhase.noConfusion
          | false =>
              simp only [unstopped, Bool.false_eq_true, ↓reduceIte] at taken
              cases taken
              exact givenUp_running rfl RecvPhase.noConfusion
      | expired =>
          cases taken
          exact givenUp_running rfl RecvPhase.noConfusion
      | cleared =>
          have absent : eth.sock = none := by simpa using sock false rfl
          cases taken
          exact fun _ => absent
      | offline =>
          simp only [unstopped, Bool.false_eq_true, ↓reduceIte] at taken
          split at taken <;> cases taken
          · exact givenUp_running rfl RecvPhase.noConfusion
          · exact givenUp_running running RecvPhase.noConfusion
      | connecting own | greeting own =>
          dsimp only at taken
          split at taken <;> cases taken <;> exact givenUp_running rfl RecvPhase.noConfusion
      | leaving =>
          cases taken
          exact fun _ => givenUp (.inr running)

theorem stage_receiver {event : Bool} (sound : Sound eth)
    (stage : Stage again before eth eth.command) (taken : receiverStep eth event = some next) :
    Stage again before next next.command := by
  obtain ⟨command, receivers, senders, recvStop, sendStop, sender⟩ := receiver_frame taken
  refine stage.beside command receivers senders recvStop ?_ ?_ ?_
  · exact fun unstopped givenUp => receiver_givenUp sound unstopped givenUp taken
  · intro connected
    exact ⟨receivers.trans connected.receivers, senders.trans connected.senders,
      ⟨recvStop.trans connected.unstopped.1, sendStop.trans connected.unstopped.2⟩,
      sender ▸ connected.sender,
      receiver_givenUp sound connected.unstopped.1 connected.receiver taken⟩
  · intro none
    rw [receiverStep, none.receiver] at taken
    cases taken

theorem stage_sender {event : Bool} (stage : Stage again before eth eth.command)
    (taken : senderStep eth event = some next) : Stage again before next next.command := by
  have frame : ∃ sender, next = { eth with sender := sender } ∧
      (eth.sendStop = false → sender.isSome = true) := by
    unfold senderStep at taken
    split at taken
    · cases taken
    · cases taken
      exact ⟨_, rfl, fun unstopped => by rw [unstopped]; rfl⟩
    · split at taken <;> cases taken
      · exact ⟨_, rfl, fun _ => rfl⟩
      · exact ⟨_, rfl, fun unstopped => by rw [unstopped]; rfl⟩
    · cases taken
      exact ⟨_, rfl, fun _ => rfl⟩
  obtain ⟨sender, rfl, running⟩ := frame
  refine stage.beside rfl rfl rfl rfl (fun _ => id) ?_ ?_
  · intro connected
    exact ⟨connected.receivers, connected.senders, connected.unstopped,
      running connected.unstopped.2, connected.receiver⟩
  · intro none
    rw [senderStep, none.sender] at taken
    cases taken

theorem stage_command {lucky : Bool} (sound : Sound eth)
    (stage : Stage again before eth eth.command) (taken : commandStep eth lucky = some next) :
    Stage again before next next.command := by
  have ends : eth.command.alone = true → next.command = .idle → Unconnected next :=
    fun here => ends_unconnected (sound.alone here) here taken
  cases phase : eth.command with
  | idle | dead =>
      rw [commandStep, phase] at taken
      cases taken
  | checkSender again' =>
      rw [phase] at stage
      simp only [commandStep, phase] at taken
      split at taken <;> cases taken <;> exact stage
  | joinSender again' =>
      rw [phase] at stage
      simp only [commandStep, phase] at taken
      split at taken <;> cases taken
      exact stage
  | checkReceiver again' =>
      rw [phase] at stage
      obtain ⟨rfl, receivers, senders⟩ := stage
      simp only [commandStep, phase] at taken
      split at taken <;> cases taken
      · exact ⟨rfl, receivers, senders⟩
      · exact ⟨fun asked => ⟨asked, receivers⟩, senders⟩
  | stopReceiver again' =>
      rw [phase] at stage
      simp only [commandStep, phase] at taken
      split at taken <;> cases taken
      · exact stage
      · trivial
  | joinReceiver again' =>
      rw [phase] at stage
      obtain ⟨rfl, receivers, senders⟩ := stage
      simp only [commandStep, phase] at taken
      split at taken <;> cases taken
      exact ⟨fun asked => ⟨asked, receivers⟩, senders⟩
  | closing again' =>
      rw [phase] at stage ends
      simp only [commandStep, phase] at taken
      split at taken <;> cases taken
      · exact stage
      · cases again' with
        | true => exact ⟨(stage.1 rfl).1, (stage.1 rfl).2, stage.2⟩
        | false => exact .inr ⟨ends rfl rfl, stage.2⟩
  | release again' =>
      rw [phase] at stage
      simp only [commandStep, phase] at taken
      split at taken <;> cases taken
      · exact stage
      · trivial
  | clear again' =>
      rw [phase] at stage
      simp only [commandStep, phase] at taken
      cases taken
      exact stage
  | lower again' =>
      rw [phase] at stage ends
      simp only [commandStep, phase] at taken
      cases taken
      cases again' with
      | true => exact ⟨(stage.1 rfl).1, (stage.1 rfl).2, stage.2⟩
      | false => exact .inr ⟨ends rfl rfl, stage.2⟩
  | creating | connecting own | greeting own =>
      rw [phase] at stage ends
      simp only [commandStep, phase] at taken
      split at taken <;> cases taken
      · exact stage
      · exact .inr ⟨ends rfl rfl, stage.2.2⟩
  | published =>
      rw [phase] at stage
      simp only [commandStep, phase] at taken
      cases taken
      exact stage
  | runReceiver =>
      rw [phase] at stage
      obtain ⟨asked, receivers, senders⟩ := stage
      simp only [commandStep, phase] at taken
      split at taken <;> cases taken
      · exact ⟨asked, congrArg (· + 1) receivers, senders, rfl,
          givenUp_running rfl RecvPhase.noConfusion⟩
      · exact ⟨fun none => absurd none Bool.false_ne_true, senders⟩
  | runSender =>
      rw [phase] at stage
      obtain ⟨asked, receivers, senders, unstopped, givenUp⟩ := stage
      simp only [commandStep, phase] at taken
      split at taken <;> cases taken
      · exact .inl ⟨asked, receivers, congrArg (· + 1) senders, ⟨unstopped, rfl⟩, rfl, givenUp⟩
      · exact senders
  | undoStop =>
      rw [phase] at stage
      simp only [commandStep, phase] at taken
      split at taken <;> cases taken
      · exact stage
      · trivial
  | undoJoin =>
      rw [phase] at stage
      simp only [commandStep, phase] at taken
      split at taken <;> cases taken
      exact ⟨fun none => absurd none Bool.false_ne_true, stage⟩

theorem stage_run (acts : List Act) (single : ∀ other, .ask other ∉ acts) (sound : Sound eth)
    (stage : Stage again before eth eth.command) (ran : runAll step eth acts = some next) :
    Stage again before next next.command := by
  induction acts generalizing eth with
  | nil =>
      cases ran
      exact stage
  | cons act rest ih =>
      obtain ⟨middle, taken, later⟩ := Option.bind_eq_some_iff.mp ran
      refine ih (fun other member => single other (List.mem_cons_of_mem _ member))
        (sound_step sound taken) ?_ later
      cases act with
      | ask other => exact absurd List.mem_cons_self (single other)
      | command lucky => exact stage_command sound stage taken
      | receiver event => exact stage_receiver sound stage taken
      | sender event => exact stage_sender stage taken

end Outcome

/-- A command that ends has created both threads, or leaves no socket, no thread and a
disconnected device behind. -/
theorem command_outcome (eth begun final : Eth)
    (reached : Reachable step (fun _ _ => True) (· = unconnected) eth) (again : Bool)
    (asked : step eth (.ask again) = some begun) (acts : List Act)
    (single : ∀ other, .ask other ∉ acts) (ran : runAll step begun acts = some final)
    (ended : final.command = .idle) :
    again = true ∧ Connected eth final ∨ Unconnected final ∧ final.senders = eth.senders := by
  have sound := sound_step (sound_reached reached) asked
  have stage : Stage again eth begun begun.command := by
    rw [step] at asked
    split at asked <;> cases asked
    exact ⟨rfl, rfl, rfl⟩
  have stage := stage_run acts single sound stage ran
  rw [ended] at stage
  exact stage

/-- Both threads run. -/
theorem command_outcome_connected : ∃ begun final,
    step unconnected (.ask true) = some begun ∧
    runAll step begun (List.replicate 9 (.command true) ++ [.sender false, .receiver false]) =
      some final ∧
    Connected unconnected final := by
  have possible : ((step unconnected (.ask true)).bind fun begun =>
      (runAll step begun (List.replicate 9 (.command true) ++
        [.sender false, .receiver false])).map fun final => (final.command, final.sender)) =
      some (.idle, some .waiting) := rfl
  obtain ⟨begun, asked, possible⟩ := Option.bind_eq_some_iff.mp possible
  obtain ⟨final, ran, facts⟩ := Option.map_eq_some_iff.mp possible
  obtain ⟨ended, running⟩ := Prod.mk.inj facts
  refine ⟨begun, final, asked, ran, ?_⟩
  rcases command_outcome unconnected begun final (.start rfl) true asked _ (by simp) ran ended with
    ⟨-, connected⟩ | ⟨none, -⟩
  · exact connected
  · rw [none.sender] at running
    cases running

end PiVccu.HbRfEthConnection
