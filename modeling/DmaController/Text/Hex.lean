/-
Hexadecimal numbers as the library writes them everywhere: lower case,
with the mark `0x` in front unless the place says otherwise, and never
shorter than the width that was asked for. A byte in a byte list is the
one form without a mark, because the list's brackets already say what
its entries are.
-/
namespace DmaController.Text

/-- The digits of `n` in base sixteen, most significant first; zero has
one digit. -/
def hexDigits (n : Nat) : String :=
  String.ofList (Nat.toDigits 16 n)

/-- `digits`, filled up with zeros on the left to `width` places. -/
def padLeft (width : Nat) (digits : String) : String :=
  String.ofList (List.replicate (width - digits.length) '0') ++ digits

/-- A number with its mark: `0x1f`. -/
def hex (n : Nat) : String :=
  "0x" ++ hexDigits n

/-- A number with its mark and at least `width` digits: `0x0000001f`. -/
def hexWide (width n : Nat) : String :=
  "0x" ++ padLeft width (hexDigits n)

/-- A byte as two digits without a mark. -/
def hexByte (b : UInt8) : String :=
  padLeft 2 (hexDigits b.toNat)

/-- A list of bytes: `[bc, 00, 01]`. -/
def hexBytes (bytes : List UInt8) : String :=
  "[" ++ ", ".intercalate (bytes.map hexByte) ++ "]"

end DmaController.Text
