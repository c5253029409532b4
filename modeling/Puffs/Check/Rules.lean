import Puffs.Checker
/-!
# Typing rules

What `lang/check/type.go` checks on a node once its operands are checked, and the type and
constant it then gives the node, as functions of the operands' types and constants that return
the result or the error. The checker's methods (`Puffs.Check.Expr`) check the operands, apply
the rule and write its result. The Go methods make every check of a rule before their first
write to the node, so the split changes no state.

Constants are computed with `math/big`. On `Int`, Lean's `/` is `big.Int.Div` (Euclidean: the
remainder lies in `[0, |r|)`), `>>>` is `Rsh` (an arithmetic shift, rounding down), and
`Int.land`, `Int.ldiff`, `Int.lor`, `Int.xor` are `And`, `AndNot`, `Or`, `Xor` on
two's-complement integers of unbounded width. `Lsh` by `n` multiplies by `2 ^ n`.
-/
namespace Puffs

/-- `if !ok { return e }`, inside a rule. -/
def ensure (ok : Bool) (e : Err) : Except Err Unit := if ok then .ok () else .error e

@[simp] theorem ensure_eq_ok {ok : Bool} {e : Err} {u : Unit} : ensure ok e = .ok u ↔ ok = true := by
  cases ok <;> simp [ensure]

@[simp] theorem ensure_bind_eq_ok {ok : Bool} {e : Err} {m : Except Err α} {x : α} :
    (ensure ok e >>= fun _ => m) = .ok x ↔ ok = true ∧ m = .ok x := by
  cases ok <;> simp [ensure, bind, Except.bind]

/-- `btoi`: a comparison's result as a constant. -/
def btoi (b : Bool) : Int := if b then 1 else 0

/-- `ffff`, the largest shift count of a constant shift. -/
def ffff : Int := 0xFFFF

/-- The `case 0:` branch of `tcheckExprOther`: a numeric literal, a local variable, `false` or
`true`. -/
def leafRule (localVars : ID → Option TypeExpr) (id1 : ID) : Except Err (MType × Option Int) :=
  if id1.isNumLiteral then
    match setString id1.text with
    | some z => .ok (.ideal, some z)
    | none => .error (.invalidNumericLiteral id1.text)
  else if id1.isIdent then
    match localVars id1 with
    | some typ => .ok (.node typ, none)
    | none => .error (.unrecognizedIdentifier id1)
  else if id1 == .keyFalse then .ok (.bool, some 0)
  else if id1 == .keyTrue then .ok (.bool, some 1)
  else .error (.unrecognizedOther .zero)

/-- `tcheckExprUnaryOp` after its operand `rhs`: `+` and `-` need a numeric operand, `!` a
boolean one. -/
def unaryRule (op : UnaryOp) (rhs : Expr) (rTyp : MType) (cv : Option Int) :
    Except Err (MType × Option Int) :=
  match op with
  | .xUnaryPlus | .xUnaryMinus =>
    if numeric rTyp then .ok (rTyp, cv.map fun cv => if op == .xUnaryMinus then -cv else cv)
    else .error (.unaryNotNumeric op rhs rTyp)
  | .xUnaryNot =>
    if rTyp.eq .bool then .ok (.bool, cv.map fun cv => btoi (cv == 0))
    else .error (.unaryNotBool op rhs rTyp)

/-- The operand-category switch of `tcheckExprBinaryOp`. -/
def checkBinaryOperands (op : BinaryOp) (lhs rhs : Expr) (lTyp rTyp : MType) : Except Err Unit :=
  match op with
  | .xBinaryNotEq | .xBinaryEqEq => .ok ()
  | .xBinaryAnd | .xBinaryOr => do
    ensure lTyp.isBool (.binaryNotBool op lhs lTyp)
    ensure rTyp.isBool (.binaryNotBool op rhs rTyp)
  | _ => do
    ensure (numeric lTyp) (.binaryNotNumeric op lhs lTyp)
    ensure (numeric rTyp) (.binaryNotNumeric op rhs rTyp)

/-- The compatibility switch of `tcheckExprBinaryOp`. -/
def checkBinaryCompatible (op : BinaryOp) (lhs rhs : Expr) (lTyp rTyp : MType) : Except Err Unit :=
  match op with
  | .xBinaryShiftL | .xBinaryShiftR =>
    ensure (!(lTyp.isIdeal && !rTyp.isIdeal)) (.shiftIdealByNonIdeal op lhs rhs lTyp rTyp)
  | _ =>
    ensure (!(!lTyp.eqIgnoringRefinements rTyp && !lTyp.isIdeal && !rTyp.isIdeal))
      (.incompatibleTypes op lhs rhs lTyp rTyp)

/-- The switch of `setConstValueBinaryOp` on the node `a` with operands `lhs` and `rhs`, as the
value it sets or the error it returns. -/
def constValueBinaryOp (a : Addr) (op : BinaryOp) (lhs rhs : Expr) (l r : Int) : Except Err Int :=
  match op with
  | .xBinaryPlus => .ok (l + r)
  | .xBinaryMinus => .ok (l - r)
  | .xBinaryStar => .ok (l * r)
  | .xBinarySlash =>
    if r = 0 then .error (.divisionByZero (.binaryOp (.mk a op lhs rhs))) else .ok (l / r)
  | .xBinaryShiftL =>
    if r < 0 ∨ r > ffff then .error (.shiftOutOfRange rhs (.binaryOp (.mk a op lhs rhs)))
    else .ok (l * 2 ^ r.toNat)
  | .xBinaryShiftR =>
    if r < 0 ∨ r > ffff then .error (.shiftOutOfRange rhs (.binaryOp (.mk a op lhs rhs)))
    else .ok (l >>> r.toNat)
  | .xBinaryAmp => .ok (Int.land l r)
  | .xBinaryAmpHat => .ok (Int.ldiff l r)
  | .xBinaryPipe => .ok (Int.lor l r)
  | .xBinaryHat => .ok (Int.xor l r)
  | .xBinaryNotEq => .ok (btoi (l != r))
  | .xBinaryLessThan => .ok (btoi (l < r))
  | .xBinaryLessEq => .ok (btoi (l ≤ r))
  | .xBinaryEqEq => .ok (btoi (l == r))
  | .xBinaryGreaterEq => .ok (btoi (l ≥ r))
  | .xBinaryGreaterThan => .ok (btoi (l > r))
  | .xBinaryAnd => .ok (btoi (l != 0 && r != 0))
  | .xBinaryOr => .ok (btoi (l != 0 || r != 0))

/-- Folding happens when both operands are constants. -/
def foldBinaryOp (a : Addr) (op : BinaryOp) (lhs rhs : Expr) :
    Option Int → Option Int → Except Err (Option Int)
  | some l, some r => some <$> constValueBinaryOp a op lhs rhs l r
  | _, _ => .ok none

/-- The result type of a binary operator: bool for a comparison, else the non-ideal side,
the left one first. -/
def binaryResultType (op : BinaryOp) (lTyp rTyp : MType) : MType :=
  if op.isComparison then .bool else if !lTyp.isIdeal then lTyp else rTyp

/-- `tcheckExprBinaryOp` on the node `a` after its operands `lhs` and `rhs`, `as` apart. -/
def binaryRule (a : Addr) (op : BinaryOp) (lhs rhs : Expr) (lTyp rTyp : MType) (l r : Option Int) :
    Except Err (MType × Option Int) := do
  checkBinaryOperands op lhs rhs lTyp rTyp
  checkBinaryCompatible op lhs rhs lTyp rTyp
  let c ← foldBinaryOp a op lhs rhs l r
  pure (binaryResultType op lTyp rTyp, c)

/-- `as`: a numeric value converts to a numeric type. -/
def asRule (lhs : Expr) (lTyp : MType) (rhs : TypeExpr) : Except Err MType :=
  if numeric lTyp && rhs.isNumType then .ok (.node rhs) else .error (.cannotConvert lhs lTyp rhs)

/-- The struct `tcheckDot` looks a field up in, for a receiver type named `name` other than
`buf1`: the function's in- or out-parameters, or the declared struct of that name. -/
def structOf (f : Func) (structs : ID → Option Struct) (name : ID) : Option Struct :=
  if name == .keyIn then some f.in_ else if name == .keyOut then some f.out else structs name

/-- `tcheckDot` on the selector `a`, "lhs.id1", after its receiver: the receiver's type,
pointers stripped, names a struct (or `buf1`) and the selector one of its fields. -/
def dotRule (func : Option Func) (structs : ID → Option Struct) (a : Addr) (lhs : Expr)
    (lTyp : MType) (id1 : ID) : Except Err MType :=
  match lTyp.typeExpr.stripPtr with
  | .named _ .zero name _ _ =>
    match func with
    | none => .error (.noStructType name lhs)
    | some f =>
      if name == .keyBuf1 then .ok .u8
      else
        match structOf f structs name with
        | none => .error (.noStructType name lhs)
        | some s =>
          match s.fields.find? (·.name == id1) with
          | some field => .ok (.node field.xType)
          | none => .error (.noField id1 name (.other (.dot (.mk a lhs id1))))
  | _ => .error .unsupportedPackageOrDecorator

/-- `tcheckAssign` after its operands: `=` takes an ideal value into a numeric type or a
value of the same type; `op=` needs a numeric assignee and, for the shifts, a numeric shift
count, else an ideal or same-typed value. -/
def assignRule (op : AssignOp) (lhs rhs : Expr) (lTyp rTyp : MType) : Except Err Unit :=
  if op == .eq then
    ensure ((rTyp.isIdeal && lTyp.isNumType) || lTyp.eqIgnoringRefinements rTyp)
      (.cannotAssign rhs rTyp lhs lTyp)
  else do
    ensure lTyp.isNumType (.assigneeNotNumeric op lhs lTyp)
    match op with
    | .shiftLEq | .shiftREq => ensure rTyp.isNumType (.shiftNotNumeric op rhs rTyp)
    | _ =>
      ensure (rTyp.isIdeal || lTyp.eqIgnoringRefinements rTyp)
        (.incompatibleAssign op lhs rhs lTyp rTyp)

end Puffs
