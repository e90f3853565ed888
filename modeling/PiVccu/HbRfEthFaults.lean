import PiVccu.HbRfEthConnection

/-!
What may go wrong with the connection of `kernel/hb_rf_eth.c`: a call with `NULL`, and a
socket that is used while or after it is released.
-/

namespace PiVccu.HbRfEthFaults
open HandleLedger HbRfEthConnection Transition

/-- The four things that may not happen: the receiver gives up the socket during a
`hb_rf_eth_send_msg`, the sender starts one between `sock_release` and `_sock = NULL`, the
receiver ends by itself, and the sender cannot be created. -/
def Calm (eth : Eth) : Act → Prop
  | .ask _ => True
  | .command lucky => eth.command = .runSender → lucky = true
  | .receiver event =>
      (eth.receiver = some .receiving → event = true → ∀ sock, eth.sender ≠ some (.sending sock)) ∧
        (eth.receiver = some .cleared → event = true)
  | .sender event => eth.receiver = some .expired → event = false

def Faultless (eth : Eth) : Prop :=
  eth.oops = false ∧ ∀ sock, eth.sender = some (.sending (some sock)) → sock ∉ eth.released

def fits (command : Command) (receiver : Option RecvPhase) (sock : Option Nat) : Bool :=
  match command with
  | .stopReceiver _ => receiver.isSome
  | .release _ => sock.isSome
  | .undoStop | .undoJoin => false
  | _ => true

def joins : Command → Bool
  | .joinReceiver _ => true
  | _ => false

structure Careful (eth : Eth) : Prop where
  sound : Sound eth
  sending : ∀ sock, eth.sender = some (.sending (some sock)) →
    eth.sock = some sock ∧ eth.receiver ≠ some .expired
  leaving : eth.receiver = some .leaving → eth.recvStop = true
  stopping : eth.recvStop = true → eth.receiver = none ∨ joins eth.command = true
  fits : fits eth.command eth.receiver eth.sock = true
  intact : eth.oops = false

theorem Careful.faultless {eth : Eth} (careful : Careful eth) : Faultless eth := by
  refine ⟨careful.intact, ?_⟩
  intro own sending
  obtain ⟨present, still⟩ := careful.sending own sending
  have there : eth.command.alone = false := by
    by_contra alone
    have quiet := (careful.sound.alone (Bool.not_eq_false _ ▸ alone)).sender
    rw [sending] at quiet
    cases quiet
  refine careful.sound.ledger.live ?_
  rw [Eth.held, present]
  cases running : eth.receiver with
  | none =>
      simp only [(shared_command there (some own)).1]
      exact List.mem_singleton_self own
  | some phase =>
      cases phase with
      | expired => exact absurd running still
      | connecting other | greeting other => simp [RecvPhase.held]
      | _ => exact List.mem_singleton_self own

theorem careful_sender {eth after : Eth} {event : Bool} (careful : Careful eth)
    (calm : Calm eth (.sender event)) (taken : senderStep eth event = some after) :
    Careful after := by
  have sound := sound_sender careful.sound taken
  obtain ⟨-, sending, leaving, stopping, fits, intact⟩ := careful
  unfold senderStep at taken
  split at taken
  · cases taken
  · cases taken
    refine ⟨sound, ?_, leaving, stopping, fits, intact⟩
    intro sock same
    dsimp only at same
    split at same <;> cases same
  · split at taken
    · rename_i asked
      cases taken
      refine ⟨sound, ?_, leaving, stopping, fits, intact⟩
      intro sock same
      refine ⟨by simpa using same, ?_⟩
      intro expired
      rw [calm expired] at asked
      cases asked
    · cases taken
      refine ⟨sound, ?_, leaving, stopping, fits, intact⟩
      intro sock same
      dsimp only at same
      split at same <;> cases same
  · cases taken
    refine ⟨sound, ?_, leaving, stopping, fits, intact⟩
    intro sock same
    cases same

theorem Careful.phase {eth : Eth} (careful : Careful eth) (running : eth.receiver ≠ none)
    {phase : RecvPhase} {sock : Option Nat} {created : Nat} {released : List Nat}
    {connectionState : Bool}
    (sound : Sound { eth with
      sock := sock, created := created, released := released, connectionState := connectionState,
      receiver := some phase })
    (kept : sock = eth.sock ∨ ∀ own, eth.sender ≠ some (.sending (some own)))
    (expired : phase = .expired → ∀ own, eth.sender ≠ some (.sending own))
    (leaving : phase = .leaving → eth.recvStop = true) :
    Careful { eth with
      sock := sock, created := created, released := released, connectionState := connectionState,
      receiver := some phase } := by
  refine ⟨sound, ?_, ?_, ?_, ?_, careful.intact⟩
  · intro own sending
    refine ⟨?_, ?_⟩
    · rcases kept with same | silent
      · exact same.trans (careful.sending own sending).1
      · exact absurd sending (silent own)
    · intro same
      exact expired (Option.some.inj same) _ sending
  · intro same
    exact leaving (Option.some.inj same)
  · intro stop
    rcases careful.stopping stop with gone | joining
    · exact absurd gone running
    · exact .inr joining
  · have there : eth.command.alone = false := by
      by_contra alone
      exact running (careful.sound.apart (Bool.not_eq_false _ ▸ alone))
    have before := careful.fits
    dsimp only
    cases phase : eth.command <;> rw [phase] at there before <;>
      first | rfl | (cases there; done) | cases before

theorem Careful.goOn {eth : Eth} (careful : Careful eth) (running : eth.receiver ≠ none)
    {phase : RecvPhase} {sock : Option Nat} {created : Nat} {released : List Nat}
    {connectionState : Bool}
    (sound : Sound { eth with
      sock := sock, created := created, released := released, connectionState := connectionState,
      receiver := some phase })
    (kept : sock = eth.sock ∨ ∀ own, eth.sender ≠ some (.sending (some own)))
    (plain : phase ≠ .expired ∧ phase ≠ .leaving) :
    Careful { eth with
      sock := sock, created := created, released := released, connectionState := connectionState,
      receiver := some phase } :=
  careful.phase running sound kept (fun same => absurd same plain.1) fun same => absurd same plain.2

theorem Careful.ended {eth : Eth} (careful : Careful eth) (running : eth.receiver ≠ none)
    (stop : eth.recvStop = true) (sound : Sound { eth with receiver := none }) :
    Careful { eth with receiver := none } := by
  have joining : joins eth.command = true := (careful.stopping stop).resolve_left running
  refine ⟨sound, ?_, ?_, fun _ => .inl rfl, ?_, careful.intact⟩
  · intro sock sending
    refine ⟨(careful.sending sock sending).1, ?_⟩
    intro same
    cases same
  · intro same
    cases same
  · dsimp only
    cases phase : eth.command <;> rw [phase] at joining <;> first | rfl | cases joining

theorem careful_receiver {eth after : Eth} {event : Bool} (careful : Careful eth)
    (calm : Calm eth (.receiver event)) (taken : receiverStep eth event = some after) :
    Careful after := by
  have sound := sound_receiver careful.sound taken
  cases running : eth.receiver with
  | none =>
      rw [receiverStep, running] at taken
      cases taken
  | some phase =>
      have alive : eth.receiver ≠ none := by
        rw [running]
        exact Option.some_ne_none phase
      rw [receiverStep, running] at taken
      -- Where `_sock` is exchanged, nobody sends with it.
      have silent : eth.sock = none → ∀ own, eth.sender ≠ some (.sending (some own)) := by
        intro absent own sending
        have present := (careful.sending own sending).1
        rw [absent] at present
        cases present
      cases phase with
      | fresh =>
          cases taken
          cases stop : eth.recvStop with
          | true =>
              simp only [stop, ↓reduceIte] at sound ⊢
              exact stop ▸ careful.ended alive stop (stop ▸ sound)
          | false =>
              simp only [stop, ↓reduceIte, Bool.false_eq_true] at sound ⊢
              exact stop ▸ careful.goOn alive (stop ▸ sound) (.inl rfl) ⟨by simp, by simp⟩
      | receiving =>
          cases event with
          | true =>
              cases present : eth.sock with
              | none =>
                  have there := careful.sound.receiverSock _ true running rfl
                  rw [present] at there
                  cases there
              | some own =>
                  simp only [↓reduceIte, present] at taken
                  cases taken
                  exact careful.phase alive sound (.inl present.symm)
                    (fun _ => calm.1 running rfl) fun same => RecvPhase.noConfusion same
          | false =>
              cases taken
              refine careful.phase alive sound (.inl rfl) ?_ ?_
              · intro same
                split at same <;> cases same
              · intro same
                split at same
                · assumption
                · cases same
      | expired =>
          cases taken
          exact careful.goOn alive sound
            (.inr fun own sending => (careful.sending own sending).2 running) ⟨by simp, by simp⟩
      | cleared =>
          cases calm.2 running
          cases taken
          exact careful.goOn alive sound (.inl rfl) ⟨by simp, by simp⟩
      | offline =>
          dsimp only at taken
          split at taken
          · rename_i stop
            cases taken
            exact careful.phase alive sound (.inl rfl) (fun same => RecvPhase.noConfusion same) fun _ => stop
          · split at taken <;> cases taken
            · exact careful.goOn alive sound (.inl rfl) ⟨by simp, by simp⟩
            · exact careful
      | connecting own =>
          dsimp only at taken
          split at taken <;> cases taken
          all_goals exact careful.goOn alive sound (.inl rfl) ⟨by simp, by simp⟩
      | greeting own =>
          have absent : eth.sock = none := by
            simpa using careful.sound.receiverSock _ false running rfl
          cases event with
          | true =>
              cases taken
              exact careful.goOn alive sound (.inr (silent absent)) ⟨by simp, by simp⟩
          | false =>
              cases taken
              exact careful.goOn alive sound (.inl rfl) ⟨by simp, by simp⟩
      | published =>
          cases taken
          refine careful.phase alive sound (.inl rfl) ?_ ?_
          · intro same
            split at same <;> cases same
          · intro same
            split at same
            · assumption
            · cases same
      | leaving =>
          cases taken
          exact careful.ended alive (careful.leaving running) sound

theorem Careful.command {eth : Eth} (careful : Careful eth) {command : Command} {sendStop : Bool}
    (sound : Sound { eth with sendStop := sendStop, command := command })
    (running : eth.recvStop = true → eth.receiver = none)
    (suits : HbRfEthFaults.fits command eth.receiver eth.sock = true) :
    Careful { eth with sendStop := sendStop, command := command } :=
  ⟨sound, careful.sending, careful.leaving, fun stop => .inl (running stop), suits, careful.intact⟩

theorem careful_alone {eth : Eth} (sound : Sound eth) (receiver : eth.receiver = none)
    (sender : eth.sender = none) (suits : fits eth.command eth.receiver eth.sock = true)
    (intact : eth.oops = false) : Careful eth := by
  refine ⟨sound, ?_, ?_, fun _ => .inl receiver, suits, intact⟩
  · intro sock sending
    rw [sender] at sending
    cases sending
  · intro leaving
    rw [receiver] at leaving
    cases leaving

theorem Careful.running {eth : Eth} (careful : Careful eth) (apart : joins eth.command = false)
    (stop : eth.recvStop = true) : eth.receiver = none := by
  rcases careful.stopping stop with gone | joining
  · exact gone
  · rw [apart] at joining
    cases joining

theorem careful_disconnect {eth after : Eth} {lucky : Bool} (careful : Careful eth)
    (there : eth.command.alone = false) (calm : Calm eth (.command lucky))
    (taken : commandStep eth lucky = some after) : Careful after := by
  have sound := sound_disconnect careful.sound there taken
  have before := careful.fits
  cases phase : eth.command with
  | idle | dead =>
      rw [commandStep, phase] at taken
      cases taken
  | checkSender again =>
      have running := careful.running (by rw [phase]; rfl)
      simp only [commandStep, phase] at taken
      split at taken <;> cases taken
      all_goals exact careful.command sound running rfl
  | joinSender again =>
      have running := careful.running (by rw [phase]; rfl)
      simp only [commandStep, phase] at taken
      split at taken <;> cases taken
      exact careful.command sound running rfl
  | checkReceiver again =>
      have running := careful.running (by rw [phase]; rfl)
      simp only [commandStep, phase] at taken
      split at taken <;> cases taken
      · exact careful.command sound running ‹_›
      · exact careful.command sound running rfl
  | stopReceiver again =>
      rw [phase] at before
      simp only [commandStep, phase] at taken
      split at taken <;> cases taken
      · exact ⟨sound, careful.sending, fun _ => rfl, fun _ => .inr rfl, rfl, careful.intact⟩
      · rename_i absent
        exact absurd before absent
  | joinReceiver again =>
      simp only [commandStep, phase] at taken
      split at taken <;> cases taken
      rename_i absent
      exact careful.command sound (fun _ => by simpa using absent) rfl
  | runSender =>
      have running := careful.running (by rw [phase]; rfl)
      cases calm phase
      simp only [commandStep, phase, ↓reduceIte] at taken
      cases taken
      refine ⟨sound, ?_, careful.leaving, fun stop => .inl (running stop), rfl, careful.intact⟩
      intro sock sending
      cases sending
  | undoStop | undoJoin =>
      rw [phase] at before
      cases before
  | _ =>
      rw [phase] at there
      cases there

theorem careful_connect {eth after : Eth} {lucky : Bool} (careful : Careful eth)
    (here : eth.command.alone = true) (taken : commandStep eth lucky = some after) :
    Careful after := by
  have alone := careful.sound.alone here
  have sound := sound_connect alone here taken
  have intact := careful.intact
  have before := careful.fits
  obtain ⟨receiver, sender, -, sock, -⟩ := alone
  cases phase : eth.command with
  | closing again =>
      simp only [commandStep, phase] at taken
      split at taken <;> cases taken
      · exact careful_alone sound receiver sender ‹_› intact
      · cases again <;> exact careful_alone sound receiver sender rfl intact
  | release again =>
      rw [phase] at before
      simp only [commandStep, phase] at taken
      split at taken
      · cases taken
        exact careful_alone sound receiver sender rfl intact
      · rename_i absent
        rw [fits, absent] at before
        cases before
  | lower again =>
      simp only [commandStep, phase] at taken
      cases taken
      cases again <;> exact careful_alone sound receiver sender rfl intact
  | creating | connecting own | greeting own =>
      simp only [commandStep, phase] at taken
      split at taken <;> cases taken <;> exact careful_alone sound receiver sender rfl intact
  | clear again | published =>
      simp only [commandStep, phase] at taken
      cases taken
      exact careful_alone sound receiver sender rfl intact
  | runReceiver =>
      rw [phase] at sock
      simp only [commandStep, phase] at taken
      split at taken <;> cases taken
      · refine ⟨sound, ?_, ?_, ?_, rfl, intact⟩
        · intro own sending
          rw [show eth.sender = _ from sending] at sender
          cases sender
        · intro leaving
          cases leaving
        · intro stop
          cases stop
      · exact careful_alone sound receiver sender (sock true rfl) intact
  | _ =>
      rw [phase] at here
      cases here

theorem careful_step {eth after : Eth} {act : Act} (careful : Careful eth) (calm : Calm eth act)
    (taken : step eth act = some after) : Careful after := by
  cases act with
  | ask again =>
      have sound := sound_step careful.sound taken
      rw [step] at taken
      split at taken
      · rename_i idle
        cases taken
        exact careful.command sound (careful.running (by rw [idle]; rfl)) rfl
      · cases taken
  | receiver event => exact careful_receiver careful calm taken
  | sender event => exact careful_sender careful calm taken
  | command lucky =>
      cases here : eth.command.alone with
      | false => exact careful_disconnect careful here calm taken
      | true => exact careful_connect careful here taken

theorem careful_unconnected : Careful unconnected :=
  careful_alone sound_unconnected rfl rfl rfl rfl

/-- In a run without these four things no call gets a `NULL` that it cannot take, and no
socket is used behind its release. -/
theorem calm_faultless (eth : Eth) (reached : Reachable step Calm (· = unconnected) eth) :
    Faultless eth := by
  have careful : Careful eth := by
    refine reached.invariant ?_ ?_
    · rintro state rfl
      exact careful_unconnected
    · intro before act after careful calm taken
      exact careful_step careful calm taken
  exact careful.faultless

def calmGuard (eth : Eth) : Act → Bool
  | .ask _ => true
  | .command lucky => lucky || decide (eth.command ≠ .runSender)
  | .receiver event =>
      (!event || decide (eth.sender = some .waiting) || decide (eth.receiver ≠ some .receiving)) &&
        (event || decide (eth.receiver ≠ some .cleared))
  | .sender event => !event || decide (eth.receiver ≠ some .expired)

theorem calmGuard_sound (eth : Eth) (act : Act) (passed : calmGuard eth act = true) :
    Calm eth act := by
  cases act with
  | ask again => trivial
  | command lucky =>
      intro phase
      simpa [calmGuard, phase] using passed
  | receiver event =>
      simp only [calmGuard, Bool.and_eq_true, Bool.or_eq_true, Bool.not_eq_true',
        decide_eq_true_eq] at passed
      refine ⟨?_, ?_⟩
      · rintro running rfl sock sending
        rcases passed.1 with (absurd | waiting) | other
        · cases absurd
        · rw [waiting] at sending
          cases sending
        · exact other running
      · intro cleared
        rcases passed.2 with event | other
        · exact event
        · exact absurd cleared other
  | sender event =>
      intro expired
      simpa [calmGuard, expired] using passed

theorem calm_faultless_reconnected : ∃ eth,
    run step calmGuard unconnected reconnecting = some eth ∧
      eth.sender = some (.sending (some 1)) ∧ eth.released = [0] ∧ Faultless eth := by
  have possible : (run step calmGuard unconnected reconnecting).map (fun eth =>
      (eth.sender, eth.released)) = some (some (.sending (some 1)), [0]) := rfl
  obtain ⟨eth, ran, facts⟩ := Option.map_eq_some_iff.mp possible
  obtain ⟨sending, released⟩ := Prod.mk.inj facts
  have reached : Reachable step Calm (· = unconnected) eth :=
    run_reachable calmGuard_sound reconnecting (.start rfl) ran
  exact ⟨eth, ran, sending, released, calm_faultless eth reached⟩

theorem faults_reached :
    (∃ eth, runAll step unconnected (connecting ++ [.command true, .sender false, .sender true,
      .receiver false, .receiver true]) = some eth ∧ ¬ Faultless eth) ∧
    (∃ eth, runAll step unconnected (connecting ++ [.command true, .sender false, .receiver false,
      .receiver true, .sender true]) = some eth ∧ ¬ Faultless eth) ∧
    (∃ eth, runAll step unconnected (connecting ++ [.command true, .ask false, .command true,
      .sender false, .command true, .command true, .receiver false, .receiver true,
      .receiver true, .receiver false, .receiver false, .command true]) = some eth ∧
        ¬ Faultless eth) ∧
    ∃ eth, runAll step unconnected (connecting ++ [.receiver false, .receiver true, .receiver true,
      .receiver true, .command false, .command true, .receiver false, .receiver false,
      .command true, .command true]) = some eth ∧ ¬ Faultless eth := by
  refine ⟨⟨_, rfl, ?_⟩, ⟨_, rfl, ?_⟩, ⟨_, rfl, ?_⟩, ⟨_, rfl, ?_⟩⟩
  · exact fun faultless => faultless.2 0 rfl (List.mem_singleton_self 0)
  · exact fun faultless => faultless.2 0 rfl (List.mem_singleton_self 0)
  · exact fun faultless => Bool.noConfusion faultless.1
  · exact fun faultless => Bool.noConfusion faultless.1

end PiVccu.HbRfEthFaults
