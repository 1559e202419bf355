import Mathlib.Algebra.GroupWithZero.Nat
import Mathlib.Data.List.DropRight
import Mathlib.Data.List.Lex
import Mathlib.Order.Fin.Basic

/-!
# Strings as the sources treat them

The few string operations that both services and the client rely on: the white
space that `String.prototype.trim` removes, and trimming itself, over a list of
any kind of character so that it serves texts and lists of UTF-16 code units
alike.
-/

namespace MinesApp.JsString

/-- ECMAScript's WhiteSpace and LineTerminator code points. -/
def isWhiteSpace (code : Nat) : Bool :=
  (0x09 ≤ code && code ≤ 0x0d) || code == 0x20 || code == 0xa0 || code == 0x1680 ||
    (0x2000 ≤ code && code ≤ 0x200a) || code == 0x2028 || code == 0x2029 || code == 0x202f ||
    code == 0x205f || code == 0x3000 || code == 0xfeff

def trimBlank {Unit : Type} (blank : Unit → Bool) (text : List Unit) : List Unit :=
  (text.dropWhile blank).rdropWhile blank

def trim (text : String) : String :=
  String.ofList (trimBlank (fun char => isWhiteSpace char.toNat) text.toList)

/-- A string as the language has it: any list of UTF-16 code units.  Its order is the
    lexicographic order of the units, which is what `<` compares. -/
abbrev Utf16 := List (Fin 65536)

-- Named, so that the literals and the membership tests of the modules that use texts all
-- refer to one instance.
instance neZero_units : NeZero 65536 := ⟨by decide⟩

instance Utf16.lawfulBEq : LawfulBEq Utf16 := inferInstance

def Utf16.trim (text : Utf16) : Utf16 := trimBlank (fun unit => isWhiteSpace unit.val) text

def Utf16.ofChars (chars : List Char) : Utf16 := chars.map fun char => Fin.ofNat 65536 char.toNat

/-- `n.toString(16).padStart(width, '0')` for a non-negative integer. -/
def hexPadded (width n : Nat) : Utf16 :=
  .ofChars (List.leftpad width '0' (Nat.toDigits 16 n))

/-- An integer in a template string. -/
def decimal : Int → Utf16
  | .ofNat n => .ofChars (Nat.toDigits 10 n)
  | .negSucc n => .ofChars ('-' :: Nat.toDigits 10 (n + 1))

/-- `parts.join(separator)`. -/
def join (separator : Utf16) (parts : List Utf16) : Utf16 := (parts.intersperse separator).flatten

end MinesApp.JsString
