import PiVccu.ByteBuffer
import PiVccu.RawUartChars

/-!
`hb_rf_usb_2_process_read_urb` in `kernel/hb_rf_usb_2.c`: the bytes of a CP2102N in
embedded-event mode. Every read URB is decoded from the start of the one read
buffer, and nothing is kept from one URB to the next but the bytes in that buffer.
-/

namespace PiVccu.HbRfUsb2Urb
open ByteBuffer RawUartChars RawUartRx

def bufferSize : Nat := 256
def embedEventChar : UInt8 := 0xff

def statusFlags (status : UInt8) : UInt8 :=
  let flags := rxStateNone
  let flags := if status &&& 0x02 ≠ 0 then flags ||| rxStateOverrun else flags
  let flags := if status &&& 0x04 ≠ 0 then flags ||| rxStateParity else flags
  let flags := if status &&& 0x08 ≠ 0 then flags ||| rxStateFrame else flags
  if status &&& 0x10 ≠ 0 then flags ||| rxStateBreak else flags

/-- What a URB leads to: the flags and characters that are passed on, and the
indices at which `data` is read. -/
structure Trace where
  calls : List (UInt8 × UInt8)
  reads : List Nat

def Trace.behind (trace : Trace) (calls : List (UInt8 × UInt8)) (reads : List Nat) : Trace :=
  { calls := calls ++ trace.calls, reads := reads ++ trace.reads }

/-- The loop at index `i`; `none` is a read outside of the buffer. `fuel` bounds the
iterations. -/
def processLoop (data : List UInt8) (actualLength : Nat) : Nat → Nat → Option Trace
  | 0, i => if i < actualLength then none else some ⟨[], []⟩
  | fuel + 1, i =>
      if i < actualLength then do
        let octet ← load data i
        if octet = embedEventChar then
          -- Neither this byte nor the ones behind it are tested against `actualLength`.
          let code ← load data (i + 1)
          if code = 0 then
            let rest ← processLoop data actualLength fuel (i + 2)
            return rest.behind [(rxStateNone, embedEventChar)] [i, i + 1]
          else if code = 1 ∨ code = 2 then
            let status ← load data (i + 2)
            if status &&& 0x01 ≠ 0 then
              let character ← load data (i + 3)
              let rest ← processLoop data actualLength fuel (i + 4)
              return rest.behind [(statusFlags status, character)] [i, i + 1, i + 2, i + 3]
            else
              let rest ← processLoop data actualLength fuel (i + 3)
              return rest.behind [(statusFlags status, 0)] [i, i + 1, i + 2]
          -- An unknown code is dropped together with the event character.
          else
            let rest ← processLoop data actualLength fuel (i + 2)
            return rest.behind [] [i, i + 1]
        else
          let rest ← processLoop data actualLength fuel (i + 1)
          return rest.behind [(rxStateNone, octet)] [i]
      else some ⟨[], []⟩

/-- Every iteration moves the index, so that there are no more of them than bytes. -/
def hbRfUsb2ProcessReadUrb (data : List UInt8) (actualLength : Nat) : Option Trace :=
  processLoop data actualLength actualLength 0

/-- The URBs one after the other, each with its length. The device fills the front of
the buffer. -/
def receiveUrbs (buffer : List UInt8) : List (List UInt8) → Option (List (Nat × Trace))
  | [] => some []
  | octets :: rest => do
      let buffer ← memcpy buffer 0 octets
      let trace ← hbRfUsb2ProcessReadUrb buffer octets.length
      let others ← receiveUrbs buffer rest
      return (octets.length, trace) :: others

/-- The streams of embedded-event mode and what they say: plain bytes, the event
character itself, and a line status without or with a character. -/
inductive Decodes : List UInt8 → List (UInt8 × UInt8) → Prop where
  | nil : Decodes [] []
  | plain {octet : UInt8} {rest : List UInt8} {calls : List (UInt8 × UInt8)}
      (plain : octet ≠ embedEventChar) (later : Decodes rest calls) :
      Decodes (octet :: rest) ((rxStateNone, octet) :: calls)
  | escape {rest : List UInt8} {calls : List (UInt8 × UInt8)} (later : Decodes rest calls) :
      Decodes (embedEventChar :: 0 :: rest) ((rxStateNone, embedEventChar) :: calls)
  | status {code status : UInt8} {rest : List UInt8} {calls : List (UInt8 × UInt8)}
      (known : code = 1 ∨ code = 2) (empty : status &&& 0x01 = 0) (later : Decodes rest calls) :
      Decodes (embedEventChar :: code :: status :: rest) ((statusFlags status, 0) :: calls)
  | character {code status character : UInt8} {rest : List UInt8} {calls : List (UInt8 × UInt8)}
      (known : code = 1 ∨ code = 2) (filled : status &&& 0x01 ≠ 0) (later : Decodes rest calls) :
      Decodes (embedEventChar :: code :: status :: character :: rest)
        ((statusFlags status, character) :: calls)

def Complete (octets : List UInt8) : Prop := ∃ calls, Decodes octets calls

section Inversion
variable {octet code status character : UInt8} {rest : List UInt8} {calls : List (UInt8 × UInt8)}

theorem Decodes.of_plain (plain : octet ≠ embedEventChar) (all : Decodes (octet :: rest) calls) :
    ∃ later, Decodes rest later ∧ calls = (rxStateNone, octet) :: later := by
  cases all with
  | plain _ later => exact ⟨_, later, rfl⟩
  | escape | status | character => exact absurd rfl plain

theorem Decodes.of_escape (all : Decodes (embedEventChar :: 0 :: rest) calls) :
    ∃ later, Decodes rest later ∧ calls = (rxStateNone, embedEventChar) :: later := by
  cases all with
  | plain plain => exact absurd rfl plain
  | escape later => exact ⟨_, later, rfl⟩
  | status known | character known => exact absurd known (by decide)

theorem Decodes.of_status (known : code = 1 ∨ code = 2) (empty : status &&& 0x01 = 0)
    (all : Decodes (embedEventChar :: code :: status :: rest) calls) :
    ∃ later, Decodes rest later ∧ calls = (statusFlags status, 0) :: later := by
  cases all with
  | plain plain => exact absurd rfl plain
  | escape => exact absurd known (by decide)
  | status _ _ later => exact ⟨_, later, rfl⟩
  | character _ filled => exact absurd empty filled

theorem Decodes.of_character (known : code = 1 ∨ code = 2) (filled : status &&& 0x01 ≠ 0)
    (all : Decodes (embedEventChar :: code :: status :: character :: rest) calls) :
    ∃ later, Decodes rest later ∧ calls = (statusFlags status, character) :: later := by
  cases all with
  | plain plain => exact absurd rfl plain
  | escape => exact absurd known (by decide)
  | status _ empty => exact absurd empty filled
  | character _ _ later => exact ⟨_, later, rfl⟩

end Inversion

theorem Decodes.remaining {front back : List UInt8} {first whole : List (UInt8 × UInt8)}
    (decoded : Decodes front first) (all : Decodes (front ++ back) whole) :
    ∃ second, Decodes back second ∧ whole = first ++ second := by
  induction decoded generalizing whole with
  | nil => exact ⟨whole, all, rfl⟩
  | plain plain _ ih =>
      obtain ⟨later, left, rfl⟩ := Decodes.of_plain plain all
      obtain ⟨second, there, rfl⟩ := ih left
      exact ⟨second, there, rfl⟩
  | escape _ ih =>
      obtain ⟨later, left, rfl⟩ := Decodes.of_escape all
      obtain ⟨second, there, rfl⟩ := ih left
      exact ⟨second, there, rfl⟩
  | status known empty _ ih =>
      obtain ⟨later, left, rfl⟩ := Decodes.of_status known empty all
      obtain ⟨second, there, rfl⟩ := ih left
      exact ⟨second, there, rfl⟩
  | character known filled _ ih =>
      obtain ⟨later, left, rfl⟩ := Decodes.of_character known filled all
      obtain ⟨second, there, rfl⟩ := ih left
      exact ⟨second, there, rfl⟩

section Loop
variable {data : List UInt8} {actualLength fuel i : Nat} {octet code status character : UInt8}

theorem loop_done (done : ¬ i < actualLength) :
    processLoop data actualLength fuel i = some ⟨[], []⟩ := by
  cases fuel with
  | zero => rw [processLoop, if_neg done]
  | succ fuel => rw [processLoop, if_neg done]

theorem loop_plain (inside : i < actualLength) (first : load data i = some octet)
    (plain : octet ≠ embedEventChar) : processLoop data actualLength (fuel + 1) i =
      (processLoop data actualLength fuel (i + 1)).map
        (·.behind [(rxStateNone, octet)] [i]) := by
  rw [processLoop, if_pos inside, first]
  simp only [Option.bind_eq_bind, Option.bind_some, if_neg plain]
  cases processLoop data actualLength fuel (i + 1) <;> rfl

theorem loop_escape (inside : i < actualLength) (first : load data i = some embedEventChar)
    (second : load data (i + 1) = some 0) : processLoop data actualLength (fuel + 1) i =
      (processLoop data actualLength fuel (i + 2)).map
        (·.behind [(rxStateNone, embedEventChar)] [i, i + 1]) := by
  rw [processLoop, if_pos inside, first, second]
  simp only [Option.bind_eq_bind, Option.bind_some, ↓reduceIte]
  cases processLoop data actualLength fuel (i + 2) <;> rfl

theorem loop_status (inside : i < actualLength) (first : load data i = some embedEventChar)
    (second : load data (i + 1) = some code) (known : code = 1 ∨ code = 2)
    (third : load data (i + 2) = some status) (empty : status &&& 0x01 = 0) :
    processLoop data actualLength (fuel + 1) i =
      (processLoop data actualLength fuel (i + 3)).map
        (·.behind [(statusFlags status, 0)] [i, i + 1, i + 2]) := by
  have other : code ≠ 0 := by
    rintro rfl
    exact absurd known (by decide)
  rw [processLoop, if_pos inside, first, second, third]
  simp only [Option.bind_eq_bind, Option.bind_some, ↓reduceIte, if_neg other, if_pos known,
    if_neg (not_not_intro empty)]
  cases processLoop data actualLength fuel (i + 3) <;> rfl

theorem loop_character (inside : i < actualLength) (first : load data i = some embedEventChar)
    (second : load data (i + 1) = some code) (known : code = 1 ∨ code = 2)
    (third : load data (i + 2) = some status) (filled : status &&& 0x01 ≠ 0)
    (fourth : load data (i + 3) = some character) :
    processLoop data actualLength (fuel + 1) i =
      (processLoop data actualLength fuel (i + 4)).map
        (·.behind [(statusFlags status, character)] [i, i + 1, i + 2, i + 3]) := by
  have other : code ≠ 0 := by
    rintro rfl
    exact absurd known (by decide)
  rw [processLoop, if_pos inside, first, second, third, fourth]
  simp only [Option.bind_eq_bind, Option.bind_some, ↓reduceIte, if_neg other, if_pos known,
    if_pos filled]
  cases processLoop data actualLength fuel (i + 4) <;> rfl

end Loop

theorem Trace.behind_behind (trace : Trace) (first second : List (UInt8 × UInt8))
    (reads later : List Nat) : (trace.behind second later).behind first reads =
      trace.behind (first ++ second) (reads ++ later) := by
  simp only [Trace.behind, List.append_assoc]

theorem map_behind (rest : Option Trace) (first second : List (UInt8 × UInt8))
    (reads later : List Nat) : (rest.map (·.behind second later)).map (·.behind first reads) =
      rest.map (·.behind (first ++ second) (reads ++ later)) := by
  cases rest with
  | none => rfl
  | some trace => rw [Option.map_some, Option.map_some, Trace.behind_behind, Option.map_some]

def Passes (data : List UInt8) (actualLength fuel i length : Nat) (calls : List (UInt8 × UInt8)) :
    Prop :=
  ∃ reads spare, fuel - length ≤ spare ∧ (∀ index ∈ reads, index < i + length) ∧
    processLoop data actualLength fuel i =
      (processLoop data actualLength spare (i + length)).map (·.behind calls reads)

theorem Passes.cons {data : List UInt8} {actualLength fuel i width length : Nat}
    {call calls : List (UInt8 × UInt8)} {reads : List Nat} (some : 0 < width)
    (near : ∀ index ∈ reads, index < i + width)
    (one : processLoop data actualLength (fuel + 1) i =
      (processLoop data actualLength fuel (i + width)).map (·.behind call reads))
    (rest : Passes data actualLength fuel (i + width) length calls) :
    Passes data actualLength (fuel + 1) i (length + width) (call ++ calls) := by
  obtain ⟨later, spare, left, inside, done⟩ := rest
  refine ⟨reads ++ later, spare, by omega, List.forall_mem_append.mpr ⟨?_, ?_⟩, ?_⟩
  · intro index member
    have bound := near index member
    omega
  · intro index member
    have bound := inside index member
    omega
  · have position : i + width + length = i + (length + width) := by omega
    rw [one, done, map_behind, position]

theorem loop_front {data front left : List UInt8} {calls : List (UInt8 × UInt8)}
    (decoded : Decodes front calls) {actualLength fuel i : Nat}
    (shape : data.drop i = front ++ left) (within : i + front.length ≤ actualLength)
    (enough : front.length ≤ fuel) : Passes data actualLength fuel i front.length calls := by
  induction decoded generalizing fuel i with
  | nil =>
      refine ⟨[], fuel, Nat.le_refl _, nofun, ?_⟩
      rw [List.length_nil, Nat.add_zero]
      cases processLoop data actualLength fuel i <;> rfl
  | plain plain _ ih =>
      obtain ⟨first, shape⟩ := load_drop shape
      simp only [List.length_cons] at within enough ⊢
      obtain ⟨fuel, rfl⟩ : ∃ less, fuel = less + 1 := ⟨fuel - 1, by omega⟩
      exact .cons (by decide) (by simp) (loop_plain (by omega) first plain)
        (ih shape (by omega) (by omega))
  | escape _ ih =>
      obtain ⟨first, shape⟩ := load_drop shape
      obtain ⟨second, shape⟩ := load_drop shape
      simp only [List.length_cons] at within enough ⊢
      obtain ⟨fuel, rfl⟩ : ∃ less, fuel = less + 1 := ⟨fuel - 1, by omega⟩
      exact .cons (by decide) (by simp) (loop_escape (by omega) first second)
        (ih shape (by omega) (by omega))
  | status known empty _ ih =>
      obtain ⟨first, shape⟩ := load_drop shape
      obtain ⟨second, shape⟩ := load_drop shape
      obtain ⟨third, shape⟩ := load_drop shape
      simp only [List.length_cons] at within enough ⊢
      obtain ⟨fuel, rfl⟩ : ∃ less, fuel = less + 1 := ⟨fuel - 1, by omega⟩
      exact .cons (by decide) (by simp) (loop_status (by omega) first second known third empty)
        (ih shape (by omega) (by omega))
  | character known filled _ ih =>
      obtain ⟨first, shape⟩ := load_drop shape
      obtain ⟨second, shape⟩ := load_drop shape
      obtain ⟨third, shape⟩ := load_drop shape
      obtain ⟨fourth, shape⟩ := load_drop shape
      simp only [List.length_cons] at within enough ⊢
      obtain ⟨fuel, rfl⟩ : ∃ less, fuel = less + 1 := ⟨fuel - 1, by omega⟩
      exact .cons (by decide) (by simp)
        (loop_character (by omega) first second known third filled fourth)
        (ih shape (by omega) (by omega))

theorem urb_decodes {octets : List UInt8} {calls : List (UInt8 × UInt8)}
    (decoded : Decodes octets calls) (left : List UInt8) : ∃ reads,
      hbRfUsb2ProcessReadUrb (octets ++ left) octets.length = some ⟨calls, reads⟩ ∧
        ∀ index ∈ reads, index < octets.length := by
  obtain ⟨reads, spare, -, inside, done⟩ := loop_front decoded (i := 0) rfl
    (Nat.le_of_eq (Nat.zero_add _)) (Nat.le_refl _)
  rw [Nat.zero_add] at inside done
  refine ⟨reads, ?_, inside⟩
  rw [hbRfUsb2ProcessReadUrb, done, loop_done (Nat.lt_irrefl _)]
  simp [Trace.behind]

section Cut
variable {data : List UInt8} {actualLength fuel i : Nat} {trace : Trace} {code status : UInt8}

theorem reads_code (inside : i < actualLength) (first : load data i = some embedEventChar)
    (done : processLoop data actualLength (fuel + 1) i = some trace) : i + 1 ∈ trace.reads := by
  rw [processLoop, if_pos inside, first] at done
  simp only [Option.bind_eq_bind, Option.bind_some, ↓reduceIte] at done
  obtain ⟨code, -, done⟩ := Option.bind_eq_some_iff.mp done
  split at done
  · obtain ⟨rest, -, same⟩ := Option.bind_eq_some_iff.mp done
    cases same
    simp [Trace.behind]
  · split at done
    · obtain ⟨status, -, done⟩ := Option.bind_eq_some_iff.mp done
      split at done
      · obtain ⟨character, -, done⟩ := Option.bind_eq_some_iff.mp done
        obtain ⟨rest, -, same⟩ := Option.bind_eq_some_iff.mp done
        cases same
        simp [Trace.behind]
      · obtain ⟨rest, -, same⟩ := Option.bind_eq_some_iff.mp done
        cases same
        simp [Trace.behind]
    · obtain ⟨rest, -, same⟩ := Option.bind_eq_some_iff.mp done
      cases same
      simp [Trace.behind]

theorem reads_status (inside : i < actualLength) (first : load data i = some embedEventChar)
    (second : load data (i + 1) = some code) (known : code = 1 ∨ code = 2)
    (done : processLoop data actualLength (fuel + 1) i = some trace) : i + 2 ∈ trace.reads := by
  have other : code ≠ 0 := by
    rintro rfl
    exact absurd known (by decide)
  rw [processLoop, if_pos inside, first, second] at done
  simp only [Option.bind_eq_bind, Option.bind_some, ↓reduceIte, if_neg other, if_pos known] at done
  obtain ⟨status, -, done⟩ := Option.bind_eq_some_iff.mp done
  split at done
  · obtain ⟨character, -, done⟩ := Option.bind_eq_some_iff.mp done
    obtain ⟨rest, -, same⟩ := Option.bind_eq_some_iff.mp done
    cases same
    simp [Trace.behind]
  · obtain ⟨rest, -, same⟩ := Option.bind_eq_some_iff.mp done
    cases same
    simp [Trace.behind]

theorem reads_character (inside : i < actualLength) (first : load data i = some embedEventChar)
    (second : load data (i + 1) = some code) (known : code = 1 ∨ code = 2)
    (third : load data (i + 2) = some status) (filled : status &&& 0x01 ≠ 0)
    (done : processLoop data actualLength (fuel + 1) i = some trace) : i + 3 ∈ trace.reads := by
  have other : code ≠ 0 := by
    rintro rfl
    exact absurd known (by decide)
  rw [processLoop, if_pos inside, first, second, third] at done
  simp only [Option.bind_eq_bind, Option.bind_some, ↓reduceIte, if_neg other, if_pos known,
    if_pos filled] at done
  obtain ⟨character, -, done⟩ := Option.bind_eq_some_iff.mp done
  obtain ⟨rest, -, same⟩ := Option.bind_eq_some_iff.mp done
  cases same
  simp [Trace.behind]

end Cut

inductive Stub : List UInt8 → Prop where
  | escape : Stub [embedEventChar]
  | code {code : UInt8} (known : code = 1 ∨ code = 2) : Stub [embedEventChar, code]
  | status {code status : UInt8} (known : code = 1 ∨ code = 2) (filled : status &&& 0x01 ≠ 0) :
      Stub [embedEventChar, code, status]

/-- The front of a stream consists of complete sequences, with or without one that is
cut off. -/
def Ends (octets : List UInt8) : Prop :=
  Complete octets ∨ ∃ front stub, octets = front ++ stub ∧ Complete front ∧ Stub stub

theorem Ends.stub {stub : List UInt8} (cut : Stub stub) : Ends stub :=
  .inr ⟨[], stub, rfl, ⟨[], .nil⟩, cut⟩

theorem Ends.behind (sequence : List UInt8) {call : UInt8 × UInt8}
    (complete : ∀ rest calls, Decodes rest calls → Decodes (sequence ++ rest) (call :: calls))
    {rest : List UInt8} (ends : Ends rest) : Ends (sequence ++ rest) := by
  rcases ends with ⟨calls, decoded⟩ | ⟨front, stub, rfl, ⟨calls, decoded⟩, cut⟩
  · exact .inl ⟨_, complete rest calls decoded⟩
  · exact .inr ⟨sequence ++ front, stub, (List.append_assoc ..).symm,
      ⟨_, complete front calls decoded⟩, cut⟩

theorem ends_of_decodes {whole : List UInt8} {calls : List (UInt8 × UInt8)}
    (decoded : Decodes whole calls) {rest more : List UInt8} (split : whole = rest ++ more) :
    Ends rest := by
  have empty : Ends [] := .inl ⟨[], .nil⟩
  -- A sequence of n bytes is cut at one of n places, or it lies in front of the cut.
  induction decoded generalizing rest with
  | nil =>
      obtain ⟨rfl, -⟩ := List.append_eq_nil_iff.mp split.symm
      exact empty
  | plain plain _ ih =>
      match rest, split with
      | [], _ => exact empty
      | octet :: rest, same =>
          obtain ⟨rfl, tail⟩ := List.cons.inj same
          exact (ih tail).behind [_] fun _ _ later => .plain plain later
  | escape _ ih =>
      match rest, split with
      | [], _ => exact empty
      | [octet], same =>
          obtain ⟨rfl, -⟩ := List.cons.inj same
          exact .stub .escape
      | octet :: code :: rest, same =>
          simp only [List.cons_append, List.cons.injEq] at same
          obtain ⟨rfl, rfl, tail⟩ := same
          exact (ih tail).behind [_, _] fun _ _ later => .escape later
  | status known empty' _ ih =>
      match rest, split with
      | [], _ => exact empty
      | [octet], same =>
          obtain ⟨rfl, -⟩ := List.cons.inj same
          exact .stub .escape
      | [octet, code], same =>
          simp only [List.cons_append, List.nil_append, List.cons.injEq] at same
          obtain ⟨rfl, rfl, -⟩ := same
          exact .stub (.code known)
      | octet :: code :: status :: rest, same =>
          simp only [List.cons_append, List.cons.injEq] at same
          obtain ⟨rfl, rfl, rfl, tail⟩ := same
          exact (ih tail).behind [_, _, _] fun _ _ later => .status known empty' later
  | character known filled _ ih =>
      match rest, split with
      | [], _ => exact empty
      | [octet], same =>
          obtain ⟨rfl, -⟩ := List.cons.inj same
          exact .stub .escape
      | [octet, code], same =>
          simp only [List.cons_append, List.nil_append, List.cons.injEq] at same
          obtain ⟨rfl, rfl, -⟩ := same
          exact .stub (.code known)
      | [octet, code, status], same =>
          simp only [List.cons_append, List.nil_append, List.cons.injEq] at same
          obtain ⟨rfl, rfl, rfl, -⟩ := same
          exact .stub (.status known filled)
      | octet :: code :: status :: character :: rest, same =>
          simp only [List.cons_append, List.cons.injEq] at same
          obtain ⟨rfl, rfl, rfl, rfl, tail⟩ := same
          exact (ih tail).behind [_, _, _, _] fun _ _ later => .character known filled later

theorem stub_overruns {data stub left : List UInt8} (cut : Stub stub) {actualLength fuel i : Nat}
    (shape : data.drop i = stub ++ left) (ending : actualLength = i + stub.length)
    (enough : stub.length ≤ fuel) {trace : Trace}
    (done : processLoop data actualLength fuel i = some trace) : actualLength ∈ trace.reads := by
  cases cut with
  | escape =>
      obtain ⟨first, -⟩ := load_drop shape
      simp only [List.length_cons, List.length_nil] at ending enough
      obtain ⟨fuel, rfl⟩ : ∃ less, fuel = less + 1 := ⟨fuel - 1, by omega⟩
      rw [show actualLength = i + 1 by omega] at done ⊢
      exact reads_code (by omega) first done
  | code known =>
      obtain ⟨first, shape⟩ := load_drop shape
      obtain ⟨second, -⟩ := load_drop shape
      simp only [List.length_cons, List.length_nil] at ending enough
      obtain ⟨fuel, rfl⟩ : ∃ less, fuel = less + 1 := ⟨fuel - 1, by omega⟩
      rw [show actualLength = i + 2 by omega] at done ⊢
      exact reads_status (by omega) first second known done
  | status known filled =>
      obtain ⟨first, shape⟩ := load_drop shape
      obtain ⟨second, shape⟩ := load_drop shape
      obtain ⟨third, -⟩ := load_drop shape
      simp only [List.length_cons, List.length_nil] at ending enough
      obtain ⟨fuel, rfl⟩ : ∃ less, fuel = less + 1 := ⟨fuel - 1, by omega⟩
      rw [show actualLength = i + 3 by omega] at done ⊢
      exact reads_character (by omega) first second known third filled done

theorem urb_overruns {octets more : List UInt8} {calls : List (UInt8 × UInt8)}
    (decoded : Decodes (octets ++ more) calls) (cut : ¬ Complete octets) (left : List UInt8)
    {trace : Trace} (done : hbRfUsb2ProcessReadUrb (octets ++ left) octets.length = some trace) :
    octets.length ∈ trace.reads := by
  rcases ends_of_decodes decoded rfl with complete | ⟨front, stub, rfl, ⟨first, parsed⟩, stubbed⟩
  · exact absurd complete cut
  · have within : 0 + front.length ≤ (front ++ stub).length := by
      rw [List.length_append]
      omega
    have room : front.length ≤ (front ++ stub).length := by omega
    have shape : ((front ++ stub) ++ left).drop 0 = front ++ (stub ++ left) := by simp
    obtain ⟨reads, spare, enough, -, passed⟩ := loop_front parsed shape within room
    rw [hbRfUsb2ProcessReadUrb, passed] at done
    obtain ⟨rest, later, rfl⟩ := Option.map_eq_some_iff.mp done
    have behind : ((front ++ stub) ++ left).drop (0 + front.length) = stub ++ left := by
      rw [Nat.zero_add, List.append_assoc, List.drop_left]
    refine List.mem_append_right reads (stub_overruns stubbed behind ?_ ?_ later)
    · rw [Nat.zero_add, List.length_append]
    · rw [List.length_append, Nat.add_sub_cancel_left] at enough
      exact enough

/-- The URBs pass on what the unsplit stream says, and are read only up to their
lengths. -/
def Invisible (buffer : List UInt8) (urbs : List (List UInt8)) : Prop :=
  ∃ traces whole, receiveUrbs buffer urbs = some traces ∧
    hbRfUsb2ProcessReadUrb urbs.flatten urbs.flatten.length = some whole ∧
    (traces.flatMap fun entry => entry.2.calls) = whole.calls ∧
    ∀ entry ∈ traces, ∀ index ∈ entry.2.reads, index < entry.1

theorem receiveUrbs_iff (urbs : List (List UInt8)) {buffer : List UInt8}
    {calls : List (UInt8 × UInt8)} (sized : buffer.length = bufferSize)
    (fit : ∀ octets ∈ urbs, octets.length ≤ bufferSize) (decoded : Decodes urbs.flatten calls) :
    (∃ traces, receiveUrbs buffer urbs = some traces ∧
      (traces.flatMap fun entry => entry.2.calls) = calls ∧
        ∀ entry ∈ traces, ∀ index ∈ entry.2.reads, index < entry.1) ↔
      ∀ octets ∈ urbs, Complete octets := by
  induction urbs generalizing buffer calls with
  | nil =>
      cases decoded
      exact iff_of_true ⟨[], rfl, rfl, nofun⟩ nofun
  | cons octets rest ih =>
      rw [List.flatten_cons] at decoded
      rw [List.forall_mem_cons] at fit ⊢
      have filled : memcpy buffer 0 octets = some (octets ++ buffer.drop octets.length) :=
        memcpy_front (by rw [sized]; exact fit.1)
      have kept : (octets ++ buffer.drop octets.length).length = bufferSize := by
        rw [List.length_append, List.length_drop, sized]
        omega
      -- The first URB decides: behind a complete one the rest of the stream is decoded anew.
      by_cases complete : Complete octets
      · obtain ⟨first, parsed⟩ := complete
        obtain ⟨second, later, rfl⟩ := parsed.remaining decoded
        obtain ⟨reads, processed, inside⟩ := urb_decodes parsed (buffer.drop octets.length)
        rw [and_iff_right ⟨first, parsed⟩, ← ih kept fit.2 later]
        simp only [receiveUrbs, filled, processed, Option.bind_eq_bind, Option.bind_some]
        constructor
        · rintro ⟨traces, received, said, bounded⟩
          obtain ⟨others, one, same⟩ := Option.bind_eq_some_iff.mp received
          cases same
          rw [List.flatMap_cons] at said
          exact ⟨others, one, List.append_cancel_left said,
            (List.forall_mem_cons.mp bounded).2⟩
        · rintro ⟨others, received, said, bounded⟩
          refine ⟨(octets.length, ⟨first, reads⟩) :: others, by rw [received]; rfl, ?_, ?_⟩
          · rw [List.flatMap_cons, said]
          · exact List.forall_mem_cons.mpr ⟨inside, bounded⟩
      · refine iff_of_false ?_ fun all => complete all.1
        rintro ⟨traces, received, -, bounded⟩
        simp only [receiveUrbs, filled, Option.bind_eq_bind, Option.bind_some] at received
        obtain ⟨trace, processed, received⟩ := Option.bind_eq_some_iff.mp received
        obtain ⟨others, -, same⟩ := Option.bind_eq_some_iff.mp received
        cases same
        have read := urb_overruns decoded complete _ processed
        exact absurd (bounded _ List.mem_cons_self _ read) (Nat.lt_irrefl _)

/-- The boundaries of the URBs are invisible exactly if none of them lies inside of a
sequence. -/
theorem urb_boundaries_invisible_iff (buffer : List UInt8) (urbs : List (List UInt8))
    (sized : buffer.length = bufferSize) (fit : ∀ octets ∈ urbs, octets.length ≤ bufferSize)
    (stream : Complete urbs.flatten) : Invisible buffer urbs ↔
      ∀ octets ∈ urbs, Complete octets := by
  obtain ⟨calls, decoded⟩ := stream
  obtain ⟨reads, processed, -⟩ := urb_decodes decoded []
  rw [List.append_nil] at processed
  rw [← receiveUrbs_iff urbs sized fit decoded]
  constructor
  · rintro ⟨traces, whole, received, unsplit, said, bounded⟩
    cases processed.symm.trans unsplit
    exact ⟨traces, received, said, bounded⟩
  · rintro ⟨traces, received, said, bounded⟩
    exact ⟨traces, ⟨calls, reads⟩, received, processed, said, bounded⟩

/-- A plain byte and an event character, then a byte with a parity error. -/
theorem urb_boundaries_invisible_iff_whole_sequences :
    Invisible (List.replicate bufferSize 0) [[0x41, 0xff, 0x00], [0xff, 0x01, 0x05, 0x42]] := by
  have last : Decodes [0xff, 0x01, 0x05, 0x42] [(statusFlags 0x05, 0x42)] :=
    .character (.inl rfl) (by decide) .nil
  have first : Decodes [0x41, 0xff, 0x00] [(rxStateNone, 0x41), (rxStateNone, embedEventChar)] :=
    .plain (by decide) (.escape .nil)
  have whole : Complete [[0x41, 0xff, 0x00], [0xff, 0x01, 0x05, 0x42]].flatten :=
    ⟨_, .plain (by decide) (.escape last)⟩
  refine (urb_boundaries_invisible_iff _ _ List.length_replicate (by decide) whole).mpr ?_
  rw [List.forall_mem_cons, List.forall_mem_singleton]
  exact ⟨⟨_, first⟩, _, last⟩

/-- The event character at the end of a URB: with the old byte behind it, it is passed
on, and the rest of the sequence is taken for data. -/
theorem split_escape_visible : Complete [0xff, 0x00] ∧
    ¬ Invisible (List.replicate bufferSize 0) [[0xff], [0x00]] ∧
    ((receiveUrbs (List.replicate bufferSize 0) [[0xff], [0x00]]).map fun traces =>
      traces.flatMap fun entry => entry.2.calls) = some [(0, 0xff), (0, 0x00)] := by
  have calls : ((receiveUrbs (List.replicate bufferSize 0) [[0xff], [0x00]]).map fun traces =>
      traces.flatMap fun entry => entry.2.calls) = some [(0, 0xff), (0, 0x00)] := by
    decide +kernel
  have unsplitCalls : ((hbRfUsb2ProcessReadUrb [[0xff], [0x00]].flatten
      [[(0xff : UInt8)], [0x00]].flatten.length).map Trace.calls) = some [(0, 0xff)] := by
    decide +kernel
  refine ⟨⟨_, .escape .nil⟩, ?_, calls⟩
  rintro ⟨traces, whole, received, unsplit, said, -⟩
  rw [received, Option.map_some, said] at calls
  rw [unsplit, Option.map_some] at unsplitCalls
  cases calls.symm.trans unsplitCalls

end PiVccu.HbRfUsb2Urb
