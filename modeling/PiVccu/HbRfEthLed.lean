import PiVccu.HbRfEthQueue

/-!
The LEDs of HB-RF-ETH. A gpio call changes `gpio_value` and queues a command-3
message under `gpio_lock`; the send thread writes the value of its own time into
each such message. While no message is lost, the newest value is always either
still to be read for a queued message or the one shown last.
-/

namespace PiVccu.HbRfEthLed
open CircBuf HbRfEth HbRfEthLoss HbRfEthQueue Transition

inductive GpioCall where
  | set (gpio : Nat) (value : Bool)
  | setMultiple (mask bits : UInt64)
deriving DecidableEq

inductive GpioPhase where
  | unlocked
  | locked (call : GpioCall)
  | cleared (mask bits : UInt64)
  | stored
  | queued
deriving DecidableEq

/-- The link with its gpio chip; `called` records that a gpio call has returned. -/
structure Leds where
  link : Link
  gpio : GpioPhase
  called : Bool
deriving DecidableEq

inductive LedAct where
  | lock (call : GpioCall)
  | gpio
  | link (act : LinkAct)

/-- `BIT(gpio)` as far as it reaches `gpio_value`. -/
def gpioBit (gpio : Nat) : UInt8 := UInt8.ofNat (1 <<< gpio)

def gpioSet (value : UInt8) (gpio : Nat) (on : Bool) : UInt8 :=
  if on then value ||| gpioBit gpio else value &&& ~~~ gpioBit gpio

def gpioClear (value : UInt8) (mask : UInt64) : UInt8 := (value.toUInt64 &&& ~~~ mask).toUInt8

def gpioMerge (value : UInt8) (mask bits : UInt64) : UInt8 :=
  (value.toUInt64 ||| bits &&& mask).toUInt8

def Leds.gpioStep (leds : Leds) : Option Leds :=
  let value := leds.link.eth.gpioValue
  match leds.gpio with
  | .unlocked => none
  | .locked (.set gpio on) =>
      (leds.link.step (.gpioStore (gpioSet value gpio on))).map fun link =>
        { leds with link := link, gpio := .stored }
  | .locked (.setMultiple mask bits) =>
      (leds.link.step (.gpioStore (gpioClear value mask))).map fun link =>
        { leds with link := link, gpio := .cleared mask bits }
  | .cleared mask bits =>
      (leds.link.step (.gpioStore (gpioMerge value mask bits))).map fun link =>
        { leds with link := link, gpio := .stored }
  | .stored =>
      (leds.link.step (.queue 3 [value])).map fun link =>
        { leds with link := link, gpio := .queued }
  | .queued => some { leds with gpio := .unlocked, called := true }

def Leds.step (leds : Leds) : LedAct → Option Leds
  | .lock call =>
      match leds.gpio with
      | .unlocked => some { leds with gpio := .locked call }
      | _ => none
  | .gpio => leds.gpioStep
  | .link act => (leds.link.step act).map fun link => { leds with link := link }

def Fresh (leds : Leds) : Prop :=
  Connected leds.link ∧ leds.gpio = .unlocked ∧ leds.called = false

/-- The socket stays connected and every command-3 message finds a free entry;
only gpio calls store to `gpio_value` or queue such a message. -/
def Unrejected (leds : Leds) : LedAct → Prop
  | .lock _ => True
  | .gpio => leds.gpio = .stored →
      1 ≤ circSpace leds.link.eth.queue.head leds.link.eth.queue.tail queueLength
  | .link (.queue cmd buffer) => cmd ≠ 3 ∧ buffer.length ≤ txChunkSize
  | .link (.gpioStore _) => False
  | .link (.socket connected) => connected = true
  | .link _ => True

def Linked (_ : Link) : LinkAct → Prop
  | .queue _ buffer => buffer.length ≤ txChunkSize
  | .socket connected => connected = true
  | _ => True

theorem gpioStep_link {leds after : Leds} (taken : leds.gpioStep = some after) :
    after.link = leds.link ∨ ∃ act, Linked leds.link act ∧
      (∀ cmd buffer, act = .queue cmd buffer → buffer.length = 1) ∧
      leds.link.step act = some after.link := by
  unfold Leds.gpioStep at taken
  split at taken
  · cases taken
  · obtain ⟨link, done, rfl⟩ := Option.map_eq_some_iff.mp taken
    refine .inr ⟨_, ?_, fun _ _ other => (by cases other), done⟩
    trivial
  · obtain ⟨link, done, rfl⟩ := Option.map_eq_some_iff.mp taken
    refine .inr ⟨_, ?_, fun _ _ other => (by cases other), done⟩
    trivial
  · obtain ⟨link, done, rfl⟩ := Option.map_eq_some_iff.mp taken
    refine .inr ⟨_, ?_, fun _ _ other => (by cases other), done⟩
    trivial
  · obtain ⟨link, done, rfl⟩ := Option.map_eq_some_iff.mp taken
    refine .inr ⟨_, ?_, ?_, done⟩
    · simp [Linked, txChunkSize]
    · rintro cmd buffer ⟨⟩
      rfl
  · cases taken
    exact .inl rfl

theorem link_reachable {leds : Leds} (reached : Reachable Leds.step Unrejected Fresh leds) :
    Reachable Link.step Linked Connected leds.link := by
  induction reached with
  | start fresh => exact .start fresh.1
  | next act _ allowed taken ih =>
      cases act with
      | lock call =>
          unfold Leds.step at taken
          dsimp only at taken
          split at taken
          · cases taken
            exact ih
          · cases taken
      | gpio =>
          rcases gpioStep_link taken with same | ⟨inner, linked, -, done⟩
          · rw [same]
            exact ih
          · exact .next inner ih linked done
      | link inner =>
          obtain ⟨link, done, rfl⟩ := Option.map_eq_some_iff.mp taken
          refine .next inner ih ?_ done
          cases inner with
          | queue cmd buffer => exact allowed.2
          | socket connected => exact allowed
          | _ => trivial

def lastLed (transmissions : List Transmission) : Option Transmission :=
  (transmissions.filter fun sent => sent.command = 3).getLast?

theorem lastLed_append (transmissions : List Transmission) (sent : Transmission) :
    lastLed (transmissions ++ [sent]) =
      if sent.command = 3 then some sent else lastLed transmissions := by
  by_cases led : sent.command = 3
  · simp [lastLed, List.filter_append, led]
  · simp [lastLed, List.filter_append, led]

def Shown (link : Link) : Prop :=
  ∃ sent, lastLed link.transmissions = some sent ∧ sent.shown = link.eth.gpioValue

def unread (eth : Eth) : List Entry :=
  match eth.phase with
  | .waiting | .taken _ => eth.queue.contents
  | _ => eth.queue.contents.tail

/-- The newest value is accounted for: a message will read it, the one in the
hands of the thread has read it, or it was shown last. -/
def Accounted (link : Link) : Prop :=
  (∃ entry ∈ unread link.eth, entry.command = 3) ∨
    if SendPhase.changed link.eth.phase then
      ∃ front rest, link.eth.queue.contents = front :: rest ∧
        if front.command = 3 then link.shown = link.eth.gpioValue else Shown link
    else Shown link

theorem accounted_queue {link after : Link} {cmd : UInt8} {buffer : List UInt8}
    (sound : Sound link.eth) (short : buffer.length ≤ txChunkSize) (held : Accounted link)
    (taken : link.step (.queue cmd buffer) = some after) : Accounted after := by
  obtain ⟨eth, done, rfl⟩ := Option.map_eq_some_iff.mp taken
  by_cases room : 1 ≤ circSpace link.eth.queue.head link.eth.queue.tail queueLength
  · obtain ⟨entry, queue, queued, -, contents, -⟩ := queueMsg_room sound cmd buffer short room
    rw [queued] at done
    cases done
    rcases held with ⟨led, member, command⟩ | shown
    · refine .inl ⟨led, ?_, command⟩
      unfold unread at member ⊢
      dsimp only
      rw [contents]
      -- A new entry comes behind all those not yet read.
      split at member
      · exact List.mem_append_left _ member
      · exact List.mem_append_left _ member
      · cases shape : link.eth.queue.contents with
        | nil =>
            rw [shape] at member
            cases member
        | cons front rest =>
            rw [shape] at member
            exact List.mem_append_left _ member
    · refine .inr ?_
      dsimp only
      split at shown
      · rename_i changed
        obtain ⟨front, rest, shape, value⟩ := shown
        rw [if_pos changed]
        refine ⟨front, rest ++ [entry], ?_, value⟩
        rw [contents, shape]
        rfl
      · rename_i unchanged
        rw [if_neg unchanged]
        exact shown
  · rw [queueMsg_full cmd buffer room] at done
    cases done
    exact held

theorem accounted_led {link after : Link} (sound : Sound link.eth)
    (room : 1 ≤ circSpace link.eth.queue.head link.eth.queue.tail queueLength)
    (taken : link.step (.queue 3 [link.eth.gpioValue]) = some after) : Accounted after := by
  obtain ⟨eth, done, rfl⟩ := Option.map_eq_some_iff.mp taken
  obtain ⟨entry, queue, queued, -, contents, command, -⟩ :=
    queueMsg_room sound 3 [link.eth.gpioValue] (by simp [txChunkSize]) room
  rw [queued] at done
  cases done
  refine .inl ⟨entry, ?_, command⟩
  have busy : ∀ tail, link.eth.phase.tail? = some tail → entry ∈ queue.contents.tail := by
    intro tail busy
    obtain ⟨front, rest, shape, -⟩ := front_entry sound tail busy
    rw [contents, shape]
    simp
  unfold unread
  dsimp only
  cases phase : link.eth.phase with
  | waiting | taken tail => simp [contents]
  | patched tail | stamped tail | transmitted tail => exact busy tail (by rw [phase]; rfl)

theorem accounted_thread {link after : Link} (sound : Sound link.eth) (held : Accounted link)
    (taken : link.step .thread = some after) : Accounted after := by
  obtain ⟨eth, done, -⟩ := sendStep_sound sound
  rw [Link.step, threadStep_eq done] at taken
  cases taken
  cases sendStep_effect sound done with
  | idle phase empty => simpa [Accounted, unread, phase, Shown, SendPhase.changed] using held
  | take front rest phase contents =>
      simpa [Accounted, unread, phase, Shown, SendPhase.changed] using held
  | patch front rest queue phase contents changed =>
      simp only [Accounted, unread, phase, contents, SendPhase.changed, Bool.false_eq_true,
        ↓reduceIte] at held
      have command := (patch_carries front link.eth.gpioValue).command
      by_cases led : front.command = 3
      · -- From here on the entry shows the value that the thread has just read.
        refine .inr ⟨_, rest, changed, ?_⟩
        rw [if_pos (command.trans led)]
        simp only [phase]
      · rcases held with ⟨entry, member, value⟩ | shown
        · refine .inl ⟨entry, ?_, value⟩
          rcases List.mem_cons.mp member with rfl | behind
          · exact absurd value led
          · simp only [unread, changed]
            exact behind
        · refine .inr ⟨_, rest, changed, ?_⟩
          rw [if_neg (by rw [command]; exact led)]
          simpa [Shown] using shown
  | stamp front rest queue stamped phase contents stamps changed =>
      obtain ⟨long, fits⟩ := front_bounds sound contents
      have command := stamp_command long fits stamps
      simp only [Accounted, unread, phase, contents, SendPhase.changed, ↓reduceIte] at held
      rcases held with ⟨entry, member, value⟩ | ⟨entry, others, shape, value⟩
      · refine .inl ⟨entry, ?_, value⟩
        simp only [unread, changed]
        exact member
      · cases shape
        refine .inr ⟨_, rest, changed, ?_⟩
        rw [command]
        simpa [phase, Shown] using value
  | transmit front rest phase contents =>
      obtain ⟨long, fits⟩ := front_bounds sound contents
      have command := datagram_command long
      simp only [Accounted, unread, phase, contents, SendPhase.changed, ↓reduceIte] at held
      rcases held with ⟨entry, member, value⟩ | ⟨entry, others, shape, value⟩
      · refine .inl ⟨entry, ?_, value⟩
        simp only [unread, contents]
        exact member
      · -- The datagram is the newest one, so it decides what is shown if it is a LED command.
        cases shape
        refine .inr ?_
        simp only [SendPhase.changed, Bool.false_eq_true, ↓reduceIte, Shown, List.drop_left,
          List.map_cons, List.map_nil, lastLed_append, Transmission.command, command]
        by_cases led : front.command = 3
        · rw [if_pos led] at value
          rw [if_pos led]
          exact ⟨_, rfl, value⟩
        · rw [if_neg led] at value
          rw [if_neg led]
          exact value
  | release front rest queue phase contents freed =>
      simp only [Accounted, unread, phase, contents, SendPhase.changed, Bool.false_eq_true,
        ↓reduceIte, List.tail_cons] at held
      rcases held with ⟨entry, member, value⟩ | shown
      · refine .inl ⟨entry, ?_, value⟩
        simp only [unread, freed]
        exact member
      · refine .inr ?_
        simpa [SendPhase.changed, Shown] using shown

theorem Accounted.frame {link after : Link} (held : Accounted link)
    (queue : after.eth.queue = link.eth.queue) (phase : after.eth.phase = link.eth.phase)
    (value : after.eth.gpioValue = link.eth.gpioValue) (shown : after.shown = link.shown)
    (transmissions : after.transmissions = link.transmissions) : Accounted after := by
  unfold Accounted unread Shown at held ⊢
  rw [queue, phase, value, shown, transmissions]
  exact held

theorem step_accepted {link after : Link} {act : LinkAct} (sound : Sound link.eth)
    (linked : Linked link act) (taken : link.step act = some after) :
    after.eth.accepted = link.eth.accepted ∨ ∃ cmd buffer entry, act = .queue cmd buffer ∧
      after.eth.accepted = link.eth.accepted ++ [entry] ∧ entry.command = cmd ∧
      entry.payload = buffer := by
  cases act with
  | queue cmd buffer =>
      obtain ⟨eth, done, rfl⟩ := Option.map_eq_some_iff.mp taken
      by_cases room : 1 ≤ circSpace link.eth.queue.head link.eth.queue.tail queueLength
      · obtain ⟨entry, queue, queued, -, -, command, payload⟩ :=
          queueMsg_room sound cmd buffer linked room
        rw [queued] at done
        cases done
        exact .inr ⟨cmd, buffer, entry, rfl, rfl, command, payload⟩
      · rw [queueMsg_full cmd buffer room] at done
        cases done
        exact .inl rfl
  | thread =>
      obtain ⟨eth, done, -, same⟩ := sendStep_sound sound
      rw [Link.step, threadStep_eq done] at taken
      cases taken
      exact .inl same
  | keepAlive =>
      obtain ⟨msgCnt, sent, done⟩ := keepAlive_step link
      rw [done] at taken
      cases taken
      exact .inl rfl
  | gpioStore value | socket connected | otherMsg =>
      cases taken
      exact .inl rfl

def OneByte (link : Link) : Prop :=
  ∀ entry ∈ link.eth.accepted, entry.command = 3 → entry.payload.length = 1

structure Lit (leds : Leds) : Prop where
  accounted : leds.gpio = .unlocked ∧ leds.called = true ∨ leds.gpio = .queued →
    Accounted leds.link
  oneByte : OneByte leds.link

theorem oneByte_step {link after : Link} {act : LinkAct} (sound : Sound link.eth)
    (linked : Linked link act) (taken : link.step act = some after)
    (single : ∀ buffer, act = .queue 3 buffer → buffer.length = 1) (held : OneByte link) :
    OneByte after := by
  rcases step_accepted sound linked taken with same | ⟨cmd, buffer, entry, rfl, grown, command,
    payload⟩
  · unfold OneByte
    rw [same]
    exact held
  · intro message member led
    rw [grown] at member
    rcases List.mem_append.mp member with older | new
    · exact held message older led
    · cases List.mem_singleton.mp new
      rw [payload]
      apply single buffer
      rw [← command, led]

theorem lit_gpio {leds after : Leds} (queued : Queued leds.link) (held : Lit leds)
    (allowed : Unrejected leds .gpio) (taken : leds.gpioStep = some after) : Lit after := by
  have oneByte : OneByte after.link := by
    rcases gpioStep_link taken with same | ⟨act, linked, single, done⟩
    · rw [same]
      exact held.oneByte
    · exact oneByte_step queued.sound linked done (single 3) held.oneByte
  refine ⟨?_, oneByte⟩
  unfold Leds.gpioStep at taken
  split at taken
  · cases taken
  · obtain ⟨link, done, rfl⟩ := Option.map_eq_some_iff.mp taken
    rintro (⟨⟨⟩, -⟩ | ⟨⟨⟩⟩)
  · obtain ⟨link, done, rfl⟩ := Option.map_eq_some_iff.mp taken
    rintro (⟨⟨⟩, -⟩ | ⟨⟨⟩⟩)
  · obtain ⟨link, done, rfl⟩ := Option.map_eq_some_iff.mp taken
    rintro (⟨⟨⟩, -⟩ | ⟨⟨⟩⟩)
  · rename_i stored
    obtain ⟨link, done, rfl⟩ := Option.map_eq_some_iff.mp taken
    intro
    exact accounted_led queued.sound (allowed stored) done
  · rename_i sent
    cases taken
    intro
    exact held.accounted (.inr sent)

theorem lit_link {leds : Leds} {act : LinkAct} {link : Link} (queued : Queued leds.link)
    (held : Lit leds) (allowed : Unrejected leds (.link act))
    (taken : leds.link.step act = some link) : Lit { leds with link := link } := by
  have linked : Linked leds.link act := by
    cases act with
    | queue cmd buffer => exact allowed.2
    | socket connected => exact allowed
    | _ => trivial
  have single : ∀ buffer, act = .queue 3 buffer → buffer.length = 1 := by
    rintro buffer rfl
    exact absurd rfl allowed.1
  refine ⟨fun quiet => ?_, oneByte_step queued.sound linked taken single held.oneByte⟩
  have accounted := held.accounted quiet
  cases act with
  | queue cmd buffer => exact accounted_queue queued.sound allowed.2 accounted taken
  | thread => exact accounted_thread queued.sound accounted taken
  | keepAlive =>
      obtain ⟨msgCnt, sent, done⟩ := keepAlive_step leds.link
      rw [done] at taken
      cases taken
      exact accounted.frame rfl rfl rfl rfl rfl
  | gpioStore value => exact absurd allowed id
  | socket connected | otherMsg =>
      cases taken
      exact accounted.frame rfl rfl rfl rfl rfl

theorem lit_reachable {leds : Leds} (reached : Reachable Leds.step Unrejected Fresh leds) :
    Queued leds.link ∧ Lit leds := by
  have queued : ∀ {leds : Leds}, Reachable Leds.step Unrejected Fresh leds → Queued leds.link := by
    intro leds reached
    exact queued_reachable (fun _ _ _ linked => linked) (link_reachable reached)
  refine ⟨queued reached, ?_⟩
  induction reached with
  | start fresh =>
      obtain ⟨⟨initial, -⟩, unlocked, uncalled⟩ := fresh
      refine ⟨?_, ?_⟩
      · rw [unlocked, uncalled]
        rintro (⟨-, ⟨⟩⟩ | ⟨⟨⟩⟩)
      · unfold OneByte
        rw [initial]
        nofun
  | next act prior allowed taken ih =>
      cases act with
      | lock call =>
          unfold Leds.step at taken
          dsimp only at taken
          split at taken
          · cases taken
            refine ⟨?_, ih.oneByte⟩
            rintro (⟨⟨⟩, -⟩ | ⟨⟨⟩⟩)
          · cases taken
      | gpio => exact lit_gpio (queued prior) ih allowed taken
      | link inner =>
          obtain ⟨link, done, rfl⟩ := Option.map_eq_some_iff.mp taken
          exact lit_link (queued prior) ih allowed done

theorem value_byte {message : Entry} {sent : Transmission} (delivers : Delivers message sent)
    (led : message.command = 3) (single : message.payload.length = 1) :
    sent.datagram[2]? = some sent.shown := by
  obtain ⟨value, shape⟩ := List.length_eq_one_iff.mp single
  have payload := delivers.payload
  rw [patchPayload, if_pos led, shape, List.set_cons_zero] at payload
  have first : sent.payload[0]? = some sent.shown := by
    rw [payload]
    rfl
  rw [Transmission.payload, List.getElem?_take, List.getElem?_drop] at first
  split at first
  · exact first
  · cases first

/-- With an empty queue, an idle thread and no gpio call in progress, the last
command-3 message showed the device the value of `gpio_value`. -/
theorem led_state_shown (leds : Leds) (reached : Reachable Leds.step Unrejected Fresh leds)
    (empty : leds.link.eth.queue.contents = []) (idle : leds.link.eth.phase = .waiting)
    (unlocked : leds.gpio = .unlocked) (called : leds.called = true) :
    ∃ sent, lastLed leds.link.transmissions = some sent ∧ sent.connected = true ∧
      sent.datagram[2]? = some leds.link.eth.gpioValue := by
  obtain ⟨queued, lit⟩ := lit_reachable reached
  obtain ⟨-, connected⟩ := connected_reachable (fun _ linked => by cases linked)
    (link_reachable reached)
  have accounted := lit.accounted (.inl ⟨unlocked, called⟩)
  simp only [Accounted, unread, idle, empty, List.not_mem_nil, false_and, exists_false,
    SendPhase.changed, Bool.false_eq_true, ↓reduceIte, false_or] at accounted
  obtain ⟨sent, last, value⟩ := accounted
  obtain ⟨member, led⟩ := List.mem_filter.mp (List.mem_of_getLast? last)
  refine ⟨sent, last, connected sent member, ?_⟩
  obtain ⟨message, accepted, delivers⟩ : ∃ message ∈ leds.link.eth.accepted,
      Delivers message sent := by
    obtain ⟨index, inside, rfl⟩ := List.mem_iff_getElem.mp member
    have delivered := queued.exactlyOnce.delivered
    have bound : index < (leds.link.eth.accepted.take leds.link.transmissions.length).length := by
      rw [delivered.length_eq]
      exact inside
    exact ⟨_, List.mem_of_mem_take (List.getElem_mem bound), delivered.get bound inside⟩
  -- What was sent carries the value that the word has now.
  have command : message.command = 3 := by
    rw [← delivers.command]
    exact of_decide_eq_true led
  rw [← value]
  exact value_byte delivers command (lit.oneByte message accepted command)

def ledGuard (leds : Leds) : LedAct → Bool
  | .lock _ => true
  | .gpio => leds.gpio = .stored →
      1 ≤ circSpace leds.link.eth.queue.head leds.link.eth.queue.tail queueLength
  | .link .thread => true
  | .link _ => false

theorem ledGuard_sound (leds : Leds) (act : LedAct) (passed : ledGuard leds act = true) :
    Unrejected leds act := by
  cases act with
  | lock call => trivial
  | gpio => simpa [ledGuard, Unrejected, Decidable.imp_iff_not_or] using passed
  | link inner =>
      cases inner with
      | thread => trivial
      | _ => cases passed

/-- A second call stores its value while the message of the first one is on its
way; its own message shows it. -/
def twoCalls : Option Leds :=
  run Leds.step ledGuard ⟨⟨initialEth, true, 0, []⟩, .unlocked, false⟩
    ([.lock (.set 1 true), .gpio, .gpio, .gpio, .link .thread, .link .thread,
      .lock (.setMultiple 3 1), .gpio, .gpio, .gpio, .gpio] ++ List.replicate 8 (.link .thread))

theorem led_state_shown_twice :
    ∃ leds, twoCalls = some leds ∧
      leds.link.transmissions.map Transmission.payload = [[2], [1]] ∧
      leds.link.eth.gpioValue = 1 ∧
      ∃ sent, lastLed leds.link.transmissions = some sent ∧ sent.connected = true ∧
        sent.datagram[2]? = some leds.link.eth.gpioValue := by
  have evaluated : (twoCalls.map fun leds =>
      (leds.link.transmissions.map Transmission.payload, leds.link.eth.gpioValue)) =
        some ([[2], [1]], 1) := by decide +kernel
  have finished : (twoCalls.map fun leds => (leds.link.eth.queue.contents.length,
      leds.link.eth.phase, leds.gpio, leds.called)) = some (0, .waiting, .unlocked, true) := by
    decide +kernel
  obtain ⟨leds, done, facts⟩ := Option.map_eq_some_iff.mp evaluated
  rw [done, Option.map_some] at finished
  simp only [Option.some.injEq, Prod.mk.injEq] at facts finished
  obtain ⟨payloads, value⟩ := facts
  obtain ⟨empty, idle, unlocked, called⟩ := finished
  refine ⟨leds, done, payloads, value, ?_⟩
  exact led_state_shown leds
    (run_reachable ledGuard_sound _ (.start ⟨⟨rfl, rfl, rfl⟩, rfl, rfl⟩) done) (List.length_eq_zero_iff.mp empty)
    idle unlocked called

end PiVccu.HbRfEthLed
