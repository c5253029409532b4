import Puffs.Types
/-!
# Checker state

The Go checker mutates two things: its own record `q` (`q.f.LocalVars`, `q.jumpTargets`,
`q.errFilename`, `q.errLine`) and the annotation fields of the AST's nodes. `Checker` holds
both; the node annotations are a store `ann` indexed by node address. A method of the checker
returns `nil` or an error and keeps every mutation it made before returning, so a method is a
`CheckM Unit`: a state transformer that may stop with an `Err`, keeping the state reached.
-/
namespace Puffs

/-- The fields of a node that the checker writes. `jumpTarget` (a `Jump`'s `While`, by
address), `hasBreak` and `hasContinue` are not part of this source's `ast.Node`. -/
structure Annot where
  typeChecked : Bool := false
  constValue : Option Int := none
  mType : Option MType := none
  jumpTarget : Option Addr := none
  hasBreak : Bool := false
  hasContinue : Bool := false

/-- The checker `q` together with the annotations of the AST. `localVars` is total: looking
up a missing name in Go's map, nil or not, finds nothing. -/
structure Checker where
  localVars : ID → Option TypeExpr
  func : Option Func
  structs : ID → Option Struct
  jumpTargets : List While
  errFilename : String
  errLine : Nat
  ann : Addr → Annot

/-- The errors the checker returns, one per `fmt.Errorf` site, named after its message, with
the values the message prints: expressions and type expressions as nodes, types as `MType`s. -/
inductive Err where
  /-- "check: duplicate var %q" -/
  | duplicateVar (name : ID)
  /-- "check: if condition %q, of type %q, does not have a boolean type" -/
  | ifConditionNotBool (cond : Expr) (typ : MType)
  /-- "no matching while statement for %s%s%s" (keyword, ":" and label) -/
  | noMatchingWhile (keyword label : ID)
  /-- "check: internal error: unchecked type expression %q" -/
  | uncheckedTypeExpr (xType : TypeExpr)
  /-- "check: for-loop condition %q, of type %q, does not have a boolean type" -/
  | whileConditionNotBool (cond : Expr) (typ : MType)
  /-- "check: assert condition %q, of type %q, does not have a boolean type" -/
  | assertConditionNotBool (cond : Expr) (typ : MType)
  /-- "check: cannot assign %q of type %q to %q of type %q" -/
  | cannotAssign (rhs : Expr) (rTyp : MType) (lhs : Expr) (lTyp : MType)
  /-- "check: assignment %q: assignee %q, of type %q, does not have numeric type" -/
  | assigneeNotNumeric (op : AssignOp) (lhs : Expr) (lTyp : MType)
  /-- "check: assignment %q: shift %q, of type %q, does not have numeric type" -/
  | shiftNotNumeric (op : AssignOp) (rhs : Expr) (rTyp : MType)
  /-- "check: assignment %q: %q and %q, of types %q and %q, do not have compatible types" -/
  | incompatibleAssign (op : AssignOp) (lhs rhs : Expr) (lTyp rTyp : MType)
  /-- "check: expression recursion depth too large" -/
  | exprRecursionDepthTooLarge
  /-- "check: invalid numeric literal %q" -/
  | invalidNumericLiteral (s : String)
  /-- "check: unrecognized identifier %q" -/
  | unrecognizedIdentifier (id : ID)
  /-- "check: unrecognized token.Key (0x%X) for tcheckExprOther", with the key of `ID0` -/
  | unrecognizedOther (key : ID)
  /-- "check: unsupported package-or-decorator for tcheckDot" -/
  | unsupportedPackageOrDecorator
  /-- "check: no struct type %q found for expression %q" -/
  | noStructType (name : ID) (lhs : Expr)
  /-- "check: no field named %q found in struct type %q for expression %q" -/
  | noField (field name : ID) (n : Expr)
  /-- "check: unary %q: %q, of type %q, does not have a numeric type" -/
  | unaryNotNumeric (op : UnaryOp) (rhs : Expr) (rTyp : MType)
  /-- "check: unary %q: %q, of type %q, does not have a boolean type" -/
  | unaryNotBool (op : UnaryOp) (rhs : Expr) (rTyp : MType)
  /-- "check: cannot convert expression %q, of type %q, as type %q" -/
  | cannotConvert (lhs : Expr) (lTyp : MType) (rhs : TypeExpr)
  /-- "check: binary %q: %q, of type %q, does not have a numeric type", for the operand that
  fails, the left one first -/
  | binaryNotNumeric (op : BinaryOp) (operand : Expr) (typ : MType)
  /-- "check: binary %q: %q, of type %q, does not have a boolean type", for the operand that
  fails, the left one first -/
  | binaryNotBool (op : BinaryOp) (operand : Expr) (typ : MType)
  /-- "check: binary %q: %q and %q, of types %q and %q, do not have compatible types" -/
  | incompatibleTypes (op : BinaryOp) (lhs rhs : Expr) (lTyp rTyp : MType)
  /-- "check: binary %q: %q and %q, of types %q and %q; cannot shift an ideal number by a
  non-ideal number" -/
  | shiftIdealByNonIdeal (op : BinaryOp) (lhs rhs : Expr) (lTyp rTyp : MType)
  /-- "check: division by zero in const expression %q" -/
  | divisionByZero (n : Expr)
  /-- "check: shift %q out of range in const expression %q" -/
  | shiftOutOfRange (rhs n : Expr)
  /-- "check: unrecognized token.Key (0x%X) for tcheckExprAssociativeOp" -/
  | unrecognizedAssociative (op : AssociativeOp)
  /-- "check: type expression recursion depth too large" -/
  | typeExprRecursionDepthTooLarge
  /-- "check: %q is not constant" -/
  | notConstant (e : Expr)
  /-- "check: %q is not a type" -/
  | notAType (name : ID)
  /-- "check: unrecognized node for tcheckTypeExpr" -/
  | unrecognizedTypeExpr
  /-- A method call on a nil `MType()`, which panics in Go. A checked expression always has
  a type, so this is never reached. -/
  | nilMType
  deriving Repr

/-- A checker method. -/
def CheckM (α : Type) : Type := Checker → Except Err α × Checker

namespace CheckM

instance : Monad CheckM where
  pure a := fun q => (.ok a, q)
  bind m f := fun q => match m q with
    | (.ok a, q') => f a q'
    | (.error e, q') => (.error e, q')

@[simp] theorem pure_apply (a : α) (q : Checker) : (pure a : CheckM α) q = (.ok a, q) := rfl

theorem bind_apply (m : CheckM α) (f : α → CheckM β) (q : Checker) :
    (m >>= f) q = match m q with
      | (.ok a, q') => f a q'
      | (.error e, q') => (.error e, q') := rfl

/-- Return `e`. -/
def fail (e : Err) : CheckM α := fun q => (.error e, q)

/-- Read the state. -/
def read (f : Checker → α) : CheckM α := fun q => (.ok (f q), q)

/-- Mutate the state. -/
def update (f : Checker → Checker) : CheckM Unit := fun q => (.ok (), f q)

/-- `defer`: run `f` on the state `m` leaves, whether `m` returned or failed. -/
def deferring (m : CheckM α) (f : Checker → Checker) : CheckM α := fun q =>
  let r := m q
  (r.1, f r.2)

/-- Return a rule's error, or go on with its result. -/
def ofExcept (r : Except Err α) : CheckM α := fun q => (r, q)

/-- `if !ok { return e }`. -/
def require (ok : Bool) (e : Err) : CheckM Unit := if ok then pure () else fail e

/-- `if x != nil { f(x) }`. -/
def whenSome (x : Option α) (f : α → CheckM Unit) : CheckM Unit :=
  match x with
  | some a => f a
  | none => pure ()

@[simp] theorem ofExcept_apply (r : Except Err α) (q : Checker) : ofExcept r q = (r, q) := rfl
@[simp] theorem fail_apply (e : Err) (q : Checker) : (fail e : CheckM α) q = (.error e, q) := rfl
@[simp] theorem read_apply (f : Checker → α) (q : Checker) : read f q = (.ok (f q), q) := rfl
@[simp] theorem update_apply (f : Checker → Checker) (q : Checker) :
    update f q = (.ok (), f q) := rfl
@[simp] theorem deferring_apply (m : CheckM α) (f : Checker → Checker) (q : Checker) :
    deferring m f q = ((m q).1, f (m q).2) := rfl

end CheckM

open CheckM

namespace Checker

/-- Write the annotation of the node at `a`. -/
def setAnn (q : Checker) (a : Addr) (f : Annot → Annot) : Checker :=
  { q with ann := Function.update q.ann a (f (q.ann a)) }

@[simp] theorem setAnn_ann (q : Checker) (a b : Addr) (f : Annot → Annot) :
    (q.setAnn a f).ann b = if b = a then f (q.ann a) else q.ann b := by
  by_cases h : b = a
  · subst h; simp [setAnn]
  · simp [setAnn, h, Function.update_noteq]

@[simp] theorem setAnn_localVars (q : Checker) (a : Addr) (f : Annot → Annot) :
    (q.setAnn a f).localVars = q.localVars := rfl
@[simp] theorem setAnn_func (q : Checker) (a : Addr) (f : Annot → Annot) :
    (q.setAnn a f).func = q.func := rfl
@[simp] theorem setAnn_structs (q : Checker) (a : Addr) (f : Annot → Annot) :
    (q.setAnn a f).structs = q.structs := rfl
@[simp] theorem setAnn_jumpTargets (q : Checker) (a : Addr) (f : Annot → Annot) :
    (q.setAnn a f).jumpTargets = q.jumpTargets := rfl
@[simp] theorem setAnn_errFilename (q : Checker) (a : Addr) (f : Annot → Annot) :
    (q.setAnn a f).errFilename = q.errFilename := rfl
@[simp] theorem setAnn_errLine (q : Checker) (a : Addr) (f : Annot → Annot) :
    (q.setAnn a f).errLine = q.errLine := rfl

end Checker

/-- `n.SetTypeChecked()`. -/
def setTypeChecked (a : Addr) : CheckM Unit :=
  update (·.setAnn a fun x => { x with typeChecked := true })

/-- `n.SetMType(typ)`. -/
def setMType (a : Addr) (t : MType) : CheckM Unit :=
  update (·.setAnn a fun x => { x with mType := some t })

/-- `n.SetConstValue(v)`. -/
def setConstValue (a : Addr) (v : Int) : CheckM Unit :=
  update (·.setAnn a fun x => { x with constValue := some v })

/-- `n.MType()`, for a method call on it; `nil` would panic. -/
def mTypeOf (e : Expr) : CheckM MType := fun q =>
  match (q.ann e.addr).mType with
  | some t => (.ok t, q)
  | none => (.error .nilMType, q)

/-- `n.ConstValue()`. -/
def constValueOf (e : Expr) : CheckM (Option Int) := read fun q => (q.ann e.addr).constValue

/-- `q.errFilename, q.errLine = n.Raw().FilenameLine()`. -/
def setErrPos (p : Pos) : CheckM Unit :=
  update fun q => { q with errFilename := p.filename, errLine := p.line }

end Puffs
