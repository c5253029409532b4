import Puffs.Check.Rules
/-!
# Checking expressions and type expressions

`tcheckExpr`, `tcheckExprOther`, `tcheckDot`, `tcheckExprUnaryOp`, `tcheckExprBinaryOp`,
`tcheckArg` and `tcheckTypeExpr` of `lang/check/type.go`, one definition each, recursing on
the nodes they are given. The `for` loops over a node's lists are the list functions
`tcheckArgs` and `tcheckBound`.
-/
namespace Puffs

open CheckM

/-- `a.MaxExprDepth`. -/
def maxExprDepth : Nat := 255

/-- `a.MaxTypeExprDepth`. -/
def maxTypeExprDepth : Nat := 63

/-- `isInSrcReadU8`: the callee is `in.src.read_u8`. -/
def isInSrcReadU8 : Expr → Bool
  | .other (.dot (.mk _ (.other (.dot (.mk _ (.other (.leaf _ .keyIn)) (.ident "src"))))
      .keyReadU8)) => true
  | _ => false

/-- `isLowBits`: the callee is a selector whose `ID1` is `low_bits`. -/
def isLowBits : Expr → Bool
  | .other (.dot (.mk _ _ id1)) => id1 == .keyLowBits
  | _ => false

def tcheckExprAssociativeOp : ExprAssociativeOp → Nat → CheckM Unit
  | .mk _ op _, _ => fail (.unrecognizedAssociative op)

/-- Write a rule's result on the node at `a`: its constant, if it has one, then its type. -/
def annotate (a : Addr) : Except Err (MType × Option Int) → CheckM Unit
  | .ok (t, c) => do
    whenSome c (setConstValue a)
    setMType a t
  | .error e => fail e

mutual
def tcheckExpr (n : Expr) (depth : Nat) : CheckM Unit := do
  require (depth ≤ maxExprDepth) .exprRecursionDepthTooLarge
  (match n with
    | .other o => tcheckExprOther o (depth + 1)
    | .unaryOp u => tcheckExprUnaryOp u (depth + 1)
    | .binaryOp b => tcheckExprBinaryOp b (depth + 1)
    | .associativeOp a => tcheckExprAssociativeOp a (depth + 1))
  setTypeChecked n.addr

def tcheckExprOther (n : ExprOther) (depth : Nat) : CheckM Unit :=
  match n with
  | .leaf a id1 => do annotate a (leafRule (← read (·.localVars)) id1)
  | .call a impure suspendible lhs args =>
    if isInSrcReadU8 lhs && suspendible && args.isEmpty then do
      tcheckExpr lhs depth
      setMType a .u8
    else if isLowBits lhs && !impure && args.length == 1 then
      -- `foo := n.LHS().Expr().LHS().Expr()`; `isLowBits` makes the callee a selector
      match lhs with
      | .other (.dot (.mk la foo _)) => do
        tcheckExpr foo depth
        setTypeChecked la
        setMType la .u8
        tcheckArgs args depth
        let t ← read fun q => (q.ann foo.addr).mType
        update (·.setAnn a fun x => { x with mType := t })
      | _ => fail (.unrecognizedOther .keyOpenParen)
    else fail (.unrecognizedOther .keyOpenParen)
  | .index .. => fail (.unrecognizedOther .keyOpenBracket)
  | .slice .. => fail (.unrecognizedOther .keyColon)
  | .dot d => tcheckDot d depth

def tcheckDot (n : ExprDot) (depth : Nat) : CheckM Unit :=
  match n with
  | .mk a lhs id1 => do
    tcheckExpr lhs depth
    setMType a (← ofExcept (dotRule (← read (·.func)) (← read (·.structs)) a lhs (← mTypeOf lhs) id1))

def tcheckExprUnaryOp (n : ExprUnaryOp) (depth : Nat) : CheckM Unit :=
  match n with
  | .mk a op rhs => do
    tcheckExpr rhs depth
    annotate a (unaryRule op rhs (← mTypeOf rhs) (← constValueOf rhs))

def tcheckExprBinaryOp (n : ExprBinaryOp) (depth : Nat) : CheckM Unit :=
  match n with
  | .as a lhs rhs => do
    tcheckExpr lhs depth
    let lTyp ← mTypeOf lhs
    tcheckTypeExpr rhs 0
    setMType a (← ofExcept (asRule lhs lTyp rhs))
  | .mk a op lhs rhs => do
    tcheckExpr lhs depth
    let lTyp ← mTypeOf lhs
    tcheckExpr rhs depth
    let rTyp ← mTypeOf rhs
    annotate a (binaryRule a op lhs rhs lTyp rTyp (← constValueOf lhs) (← constValueOf rhs))

def tcheckArg (n : Arg) (depth : Nat) : CheckM Unit :=
  match n with
  | .mk a _ _ value => do
    tcheckExpr value depth
    setTypeChecked a

def tcheckArgs (args : List Arg) (depth : Nat) : CheckM Unit :=
  match args with
  | [] => pure ()
  | o :: os => do
    tcheckArg o depth
    tcheckArgs os depth

def tcheckTypeExpr (n : TypeExpr) (depth : Nat) : CheckM Unit := do
  require (depth ≤ maxTypeExprDepth) .typeExprRecursionDepthTooLarge
  match n with
  | .named a pkg name min max =>
    if pkg != .zero then fail .unrecognizedTypeExpr
    else if name.isNumType then do
      tcheckBound min
      tcheckBound max
      setTypeChecked a
    else if name == .keyBool || name == .keyBuf1 then setTypeChecked a
    else fail (.notAType name)
  | .ptr a inner => do
    tcheckTypeExpr inner (depth + 1)
    setTypeChecked a
  | .array a aLen inner => do
    tcheckExpr aLen 0
    require ((← constValueOf aLen).isSome) (.notConstant aLen)
    tcheckTypeExpr inner (depth + 1)
    setTypeChecked a

/-- One refinement bound of a numeric type: absent, or a constant expression. -/
def tcheckBound (b : Option Expr) : CheckM Unit :=
  match b with
  | none => pure ()
  | some b => do
    tcheckExpr b 0
    require ((← constValueOf b).isSome) (.notConstant b)
end

end Puffs
