import Mathlib.Data.Int.Bitwise
/-!
# Tokens

The checker reads interned token IDs through the token map (`lang/token`, not part of this
source). An `ID` here is the token itself: the zero ID, a built-in key, an identifier named by
its text, or a numeric literal kept as its text. Operators appear as the disambiguated
operator types below, the way the parser stores them in `Expr.ID0`; assignment operators
appear as `AssignOp`.
-/
namespace Puffs

/-- Modelled from the spec: the token map's IDs, with the built-in keys the checker
switches on. `ident "src"` is `tm.ByName("src")`. -/
inductive ID where
  | zero
  | ident (s : String)
  | numLiteral (s : String)
  | keyIn | keyOut | keyReadU8 | keyLowBits
  | keyFalse | keyTrue | keyUnderscore | keyThis
  | keyBreak | keyContinue
  | keyBool | keyBuf1 | keyIdeal
  | keyOpenParen | keyOpenBracket | keyColon
  | keyU8 | keyU16 | keyU32 | keyU64 | keyI8 | keyI16 | keyI32 | keyI64
  deriving DecidableEq, Repr

namespace ID

/-- Identifiers, including the built-in names `in`, `out`, `read_u8` and `low_bits`. -/
def isIdent : ID → Bool
  | .ident _ | .keyIn | .keyOut | .keyReadU8 | .keyLowBits => true
  | _ => false

def isNumLiteral : ID → Bool
  | .numLiteral _ => true
  | _ => false

/-- `id.String(tm)` for the IDs whose text the checker reads: literals and identifiers. -/
def text : ID → String
  | .numLiteral s | .ident s => s
  | _ => ""

/-- The primitive numeric type names. `keyIdeal`, the name of the ideal pseudo-type, is not
one of them. -/
def isNumType : ID → Bool
  | .keyU8 | .keyU16 | .keyU32 | .keyU64 | .keyI8 | .keyI16 | .keyI32 | .keyI64 => true
  | _ => false

end ID

/-- Disambiguated unary operators (`t.KeyXUnary*`). -/
inductive UnaryOp where
  | xUnaryPlus | xUnaryMinus | xUnaryNot
  deriving DecidableEq, Repr

/-- Disambiguated binary operators (`t.KeyXBinary*`), `as` apart: its right operand is a
type expression, so it is its own `Expr` shape. -/
inductive BinaryOp where
  | xBinaryPlus | xBinaryMinus | xBinaryStar | xBinarySlash
  | xBinaryShiftL | xBinaryShiftR
  | xBinaryAmp | xBinaryAmpHat | xBinaryPipe | xBinaryHat
  | xBinaryNotEq | xBinaryLessThan | xBinaryLessEq | xBinaryEqEq
  | xBinaryGreaterEq | xBinaryGreaterThan
  | xBinaryAnd | xBinaryOr
  deriving DecidableEq, Repr

/-- `comparisonOps`: the operators whose result has type bool. -/
def BinaryOp.isComparison : BinaryOp → Bool
  | .xBinaryNotEq | .xBinaryLessThan | .xBinaryLessEq | .xBinaryEqEq
  | .xBinaryGreaterEq | .xBinaryGreaterThan => true
  | _ => false

/-- Disambiguated associative operators (`t.KeyXAssociative*`). -/
inductive AssociativeOp where
  | xAssociativePlus | xAssociativeStar | xAssociativeAmp | xAssociativePipe
  | xAssociativeHat | xAssociativeAnd | xAssociativeOr
  deriving DecidableEq, Repr

/-- Assignment operators: `=` and the compound `op=` forms. -/
inductive AssignOp where
  | eq | plusEq | minusEq | starEq | slashEq | shiftLEq | shiftREq
  | ampEq | ampHatEq | pipeEq | hatEq
  deriving DecidableEq, Repr

/-- The value of a digit character, in any base up to 16. -/
def digitValue (c : Char) : Option Nat :=
  if '0' ≤ c ∧ c ≤ '9' then some (c.toNat - '0'.toNat)
  else if 'a' ≤ c ∧ c ≤ 'f' then some (c.toNat - 'a'.toNat + 10)
  else if 'A' ≤ c ∧ c ≤ 'F' then some (c.toNat - 'A'.toNat + 10)
  else none

/-- Digits in `base`, most significant first, accumulated onto `acc`. -/
def scanDigits (base : Nat) : Nat → List Char → Option Nat
  | acc, [] => some acc
  | acc, c :: cs =>
    match digitValue c with
    | some d => if d < base then scanDigits base (acc * base + d) cs else none
    | none => none

/-- A non-empty digit string in `base`. -/
def parseDigits (base : Nat) : List Char → Option Nat
  | [] => none
  | cs => scanDigits base 0 cs

/-- Modelled from the spec: `big.Int.SetString(s, 0)`, an optional sign and then the base
prefixes `0x`, `0b` or `0` (octal), decimal otherwise. -/
def setString (s : String) : Option Int :=
  let (neg, rest) : Bool × List Char := match s.toList with
    | '-' :: r => (true, r)
    | '+' :: r => (false, r)
    | r => (false, r)
  let mag : Option Nat := match rest with
    | '0' :: 'x' :: ds | '0' :: 'X' :: ds => parseDigits 16 ds
    | '0' :: 'b' :: ds | '0' :: 'B' :: ds => parseDigits 2 ds
    | '0' :: ds => scanDigits 8 0 ds
    | ds => parseDigits 10 ds
  mag.map fun m => if neg then -(m : Int) else m

example : setString "0x1F" = some 31 := by decide
example : setString "010" = some 8 := by decide
example : setString "08" = none := by decide

end Puffs
