import Mathlib.Data.List.Basic

/-!
Byte stuffing over an arbitrary symbol type. A reserved symbol is sent as the
escape symbol followed by its masked form, every other symbol as itself, so no
reserved symbol other than the escape itself occurs in a stuffed stream.
-/

namespace PiVccu.ByteStuffing

structure Code (Symbol : Type) where
  reserved : Symbol → Bool
  escape : Symbol
  mask : Symbol → Symbol
  unmask : Symbol → Symbol
  escape_reserved : reserved escape = true
  mask_plain : ∀ symbol, reserved symbol = true → reserved (mask symbol) = false
  unmask_mask : ∀ symbol, reserved symbol = true → unmask (mask symbol) = symbol

variable {Symbol : Type} (code : Code Symbol)

def stuffSymbol (symbol : Symbol) : List Symbol :=
  if code.reserved symbol then [code.escape, code.mask symbol] else [symbol]

def stuff (symbols : List Symbol) : List Symbol := symbols.flatMap (stuffSymbol code)

@[simp] theorem stuff_nil : stuff code [] = [] := rfl

theorem stuff_cons (symbol : Symbol) (rest : List Symbol) :
    stuff code (symbol :: rest) = stuffSymbol code symbol ++ stuff code rest := rfl

theorem stuff_reserved (symbol : Symbol) (rest : List Symbol)
    (hit : code.reserved symbol = true) :
    stuff code (symbol :: rest) = code.escape :: code.mask symbol :: stuff code rest := by
  simp [stuff_cons, stuffSymbol, hit]

theorem stuff_plain (symbol : Symbol) (rest : List Symbol)
    (plain : code.reserved symbol = false) :
    stuff code (symbol :: rest) = symbol :: stuff code rest := by
  simp [stuff_cons, stuffSymbol, plain]

theorem stuff_length_bounds (symbols : List Symbol) :
    symbols.length ≤ (stuff code symbols).length ∧
      (stuff code symbols).length ≤ 2 * symbols.length := by
  induction symbols with
  | nil => simp
  | cons symbol rest ih =>
      cases hit : code.reserved symbol with
      | true =>
          simp only [stuff_reserved code symbol rest hit, List.length_cons]
          omega
      | false =>
          simp only [stuff_plain code symbol rest hit, List.length_cons]
          omega

theorem stuff_length (symbols : List Symbol) :
    (stuff code symbols).length = symbols.length + symbols.countP code.reserved := by
  induction symbols with
  | nil => rfl
  | cons symbol rest ih =>
      cases hit : code.reserved symbol with
      | true =>
          rw [stuff_reserved code symbol rest hit, List.countP_cons_of_pos hit]
          simp only [List.length_cons, ih]
          omega
      | false =>
          rw [stuff_plain code symbol rest hit, List.countP_cons_of_neg (by simp [hit])]
          simp only [List.length_cons, ih]
          omega

theorem delimiter_not_mem_stuff (delimiter : Symbol) (reserved : code.reserved delimiter = true)
    (different : delimiter ≠ code.escape) (symbols : List Symbol) :
    delimiter ∉ stuff code symbols := by
  induction symbols with
  | nil => simp
  | cons symbol rest ih =>
      cases hit : code.reserved symbol with
      | true =>
          have masked : delimiter ≠ code.mask symbol := by
            intro same
            have plain := code.mask_plain symbol hit
            rw [← same, reserved] at plain
            cases plain
          simp [stuff_reserved code symbol rest hit, different, masked, ih]
      | false =>
          have other : delimiter ≠ symbol := by
            intro same
            rw [← same, reserved] at hit
            cases hit
          simp [stuff_plain code symbol rest hit, other, ih]

end PiVccu.ByteStuffing
