import PiVccu.BigEndian
import PiVccu.ByteStuffing
import PiVccu.Crc16

/-!
What an HM frame is on the serial line, independent of the two programs that
read and write it: the start byte, a 16-bit length of everything between the
length and the checksum, destination, counter, command bytes and the checksum
of all bytes before it. On an escaped line 0xfc and 0xfd are reserved after the
start byte.
-/

namespace PiVccu.HmWire
open BigEndian ByteStuffing

def checksum (octets : List UInt8) : UInt16 := Crc16.remainder 0x8005 0xd77f octets

def lengthField (cmd : List UInt8) : UInt16 := UInt16.ofNat (cmd.length + 2)

def covered (dst cnt : UInt8) (cmd : List UInt8) : List UInt8 :=
  0xfd :: highByte (lengthField cmd) :: lowByte (lengthField cmd) :: dst :: cnt :: cmd

def trailer (dst cnt : UInt8) (cmd : List UInt8) : List UInt8 :=
  [highByte (checksum (covered dst cnt cmd)), lowByte (checksum (covered dst cnt cmd))]

def body (dst cnt : UInt8) (cmd : List UInt8) : List UInt8 :=
  highByte (lengthField cmd) :: lowByte (lengthField cmd) :: dst :: cnt ::
    (cmd ++ trailer dst cnt cmd)

def plain (dst cnt : UInt8) (cmd : List UInt8) : List UInt8 := 0xfd :: body dst cnt cmd

def escapeCode : Code UInt8 where
  reserved octet := octet == 0xfc || octet == 0xfd
  escape := 0xfc
  mask octet := octet &&& 0x7f
  unmask octet := octet ||| 0x80
  escape_reserved := rfl
  mask_plain := by
    intro octet hit
    rcases Bool.or_eq_true _ _ ▸ hit with same | same <;> rw [beq_iff_eq.mp same] <;> decide
  unmask_mask := by
    intro octet hit
    rcases Bool.or_eq_true _ _ ▸ hit with same | same <;> rw [beq_iff_eq.mp same] <;> decide

def escaped (dst cnt : UInt8) (cmd : List UInt8) : List UInt8 :=
  0xfd :: stuff escapeCode (body dst cnt cmd)

theorem plain_eq (dst cnt : UInt8) (cmd : List UInt8) :
    plain dst cnt cmd = covered dst cnt cmd ++ trailer dst cnt cmd := by
  simp [plain, body, covered]

@[simp] theorem trailer_length (dst cnt : UInt8) (cmd : List UInt8) :
    (trailer dst cnt cmd).length = 2 := rfl

@[simp] theorem body_length (dst cnt : UInt8) (cmd : List UInt8) :
    (body dst cnt cmd).length = cmd.length + 6 := by
  simp [body]

@[simp] theorem plain_length (dst cnt : UInt8) (cmd : List UInt8) :
    (plain dst cnt cmd).length = cmd.length + 7 := by
  simp [plain]

theorem escaped_length_bounds (dst cnt : UInt8) (cmd : List UInt8) :
    cmd.length + 7 ≤ (escaped dst cnt cmd).length ∧
      (escaped dst cnt cmd).length ≤ 2 * cmd.length + 13 := by
  have bounds := stuff_length_bounds escapeCode (body dst cnt cmd)
  rw [body_length] at bounds
  simp only [escaped, List.length_cons]
  omega

/-- The start byte of an escaped frame is the only 0xfd on the line. -/
theorem start_not_mem_stuffed (octets : List UInt8) :
    (0xfd : UInt8) ∉ stuff escapeCode octets :=
  delimiter_not_mem_stuff escapeCode 0xfd (by decide) (by decide) octets

end PiVccu.HmWire
