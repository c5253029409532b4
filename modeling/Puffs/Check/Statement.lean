import Puffs.Check.Expr
/-!
# Checking statements

`tcheckVars`, `tcheckStatement`, `tcheckAssert` and `tcheckAssign` of `lang/check/type.go`.
The generic tail of `tcheckStatement` (`n.SetTypeChecked()` after the switch) is written at the
end of each case but `If`, which marks its chain itself. The `While` case pushes the loop onto
`q.jumpTargets` and pops it in a deferred call, on every exit of the case's remainder.
-/
namespace Puffs

open CheckM

def tcheckAssert (n : Assert) : CheckM Unit := do
  tcheckExpr n.condition 0
  let t ← mTypeOf n.condition
  require (t.eq .bool) (.assertConditionNotBool n.condition t)
  tcheckAssertArgs n.args
where
  /-- The loop over the reason arguments. -/
  tcheckAssertArgs : List Arg → CheckM Unit
    | [] => pure ()
    | o :: os => do
      tcheckExpr o.value 0
      setTypeChecked o.addr
      tcheckAssertArgs os

def tcheckAssign (n : Assign) : CheckM Unit := do
  tcheckExpr n.lhs 0
  tcheckExpr n.rhs 0
  ofExcept (assignRule n.operator n.lhs n.rhs (← mTypeOf n.lhs) (← mTypeOf n.rhs))

/-- The jump target lookup: with a label, the innermost loop of that label; without one,
the innermost loop. The stack is kept outermost first, as Go appends to it. -/
def findJumpTarget (jumpTargets : List While) (label : ID) : Option While :=
  if label != .zero then jumpTargets.reverse.find? (·.label == label)
  else jumpTargets.getLast?

/-- The condition and asserts of a `While`, checked before its body. -/
def tcheckWhileHead (n : While) : CheckM Unit := do
  tcheckExpr n.condition 0
  let t ← mTypeOf n.condition
  require (t.eq .bool) (.whileConditionNotBool n.condition t)
  tcheckWhileAsserts n.asserts
where
  /-- `tcheckAssert(o.Assert())` and `o.SetTypeChecked()` for each assert `o`. -/
  tcheckWhileAsserts : List Assert → CheckM Unit
    | [] => pure ()
    | o :: os => do
      tcheckAssert o
      setTypeChecked o.addr
      tcheckWhileAsserts os

/-- The condition of one clause of an `If` chain. -/
def tcheckIfCondition (n : If) : CheckM Unit := do
  tcheckExpr n.condition 0
  let t ← mTypeOf n.condition
  require (t.eq .bool) (.ifConditionNotBool n.condition t)

/-- `q.jumpTargets = append(q.jumpTargets, n)`. -/
def pushJumpTarget (n : While) : CheckM Unit :=
  update fun q => { q with jumpTargets := q.jumpTargets ++ [n] }

/-- `q.jumpTargets = q.jumpTargets[:len(q.jumpTargets)-1]`. -/
def popJumpTarget (q : Checker) : Checker :=
  { q with jumpTargets := q.jumpTargets.dropLast }

/-- The `KJump` case: resolve the target, set its `has_break` or `has_continue`, and record
it on the jump. -/
def tcheckJump (n : Jump) : CheckM Unit := do
  match findJumpTarget (← read (·.jumpTargets)) n.label with
  | none => fail (.noMatchingWhile n.keyword n.label)
  | some w => do
    (if n.keyword == .keyBreak then update (·.setAnn w.addr fun x => { x with hasBreak := true })
      else update (·.setAnn w.addr fun x => { x with hasContinue := true }))
    update (·.setAnn n.addr fun x => { x with jumpTarget := some w.addr })

/-- The `KVar` case: the declared type must already be checked. -/
def tcheckVarStatement (n : Var) : CheckM Unit := do
  require (← read fun q => (q.ann n.xType.addr).typeChecked) (.uncheckedTypeExpr n.xType)
  whenSome n.value fun value => tcheckExpr value 0

/-- The `KReturn` case. -/
def tcheckReturn (n : Return) : CheckM Unit :=
  match n.value with
  | some value => tcheckExpr value 0
  | none => pure ()

/-- The second loop of the `KIf` case: mark every clause of the chain. -/
def markIfChain : If → CheckM Unit
  | .mk a _ _ elseIf _ _ => do
    setTypeChecked a
    match elseIf with
    | some n => markIfChain n
    | none => pure ()

mutual
def tcheckStatement (n : Stmt) : CheckM Unit := do
  setErrPos n.pos
  match n with
  | .kAssert n => do
    tcheckAssert n
    setTypeChecked n.addr
  | .kAssign n => do
    tcheckAssign n
    setTypeChecked n.addr
  | .kIf n => do
    tcheckIfChain n
    markIfChain n
  | .kJump n => do
    tcheckJump n
    setTypeChecked n.addr
  | .kReturn n => do
    tcheckReturn n
    setTypeChecked n.addr
  | .kVar n => do
    tcheckVarStatement n
    setTypeChecked n.addr
  | .kWhile n =>
    match n with
    | .mk a p l cond asserts body => do
      tcheckWhileHead (.mk a p l cond asserts body)
      pushJumpTarget (.mk a p l cond asserts body)
      deferring (do tcheckStatements body; setTypeChecked a) popJumpTarget

/-- `for _, o := range body { if err := q.tcheckStatement(o); err != nil { return err } }` -/
def tcheckStatements (body : List Stmt) : CheckM Unit :=
  match body with
  | [] => pure ()
  | o :: os => do
    tcheckStatement o
    tcheckStatements os

/-- The first loop of the `KIf` case, over the chain of clauses. -/
def tcheckIfChain (n : If) : CheckM Unit :=
  match n with
  | .mk a p cond elseIf bodyIfTrue bodyIfFalse => do
    tcheckIfCondition (.mk a p cond elseIf bodyIfTrue bodyIfFalse)
    tcheckStatements bodyIfTrue
    tcheckStatements bodyIfFalse
    match elseIf with
    | some n => tcheckIfChain n
    | none => pure ()
end

/-- `tcheckVars` on an `Arg` node: it is not a `Var` and its lists are empty. -/
def tcheckVarsArgs : List Arg → CheckM Unit
  | [] => pure ()
  | o :: os => do
    setErrPos o.pos
    tcheckVarsArgs os

/-- `tcheckVars` on an `Assert` node, whose first list holds its `Arg`s. -/
def tcheckVarsAssert (n : Assert) : CheckM Unit := do
  setErrPos n.pos
  tcheckVarsArgs n.args

def tcheckVarsAsserts : List Assert → CheckM Unit
  | [] => pure ()
  | o :: os => do
    tcheckVarsAssert o
    tcheckVarsAsserts os

/-- The `KVar` case of `tcheckVars`: reject a name already in `LocalVars`, check the type,
register it. -/
def registerVar (n : Var) : CheckM Unit := do
  require ((← read (·.localVars n.name)).isNone) (.duplicateVar n.name)
  tcheckTypeExpr n.xType 0
  update fun q => { q with localVars := Function.update q.localVars n.name (some n.xType) }

mutual
/-- `tcheckVars` descends into the two lists of every node (`SubLists`): an `If`'s then- and
else-bodies, a `While`'s asserts and body, an `Assert`'s arguments. -/
def tcheckVars (n : Stmt) : CheckM Unit := do
  setErrPos n.pos
  match n with
  | .kVar n => registerVar n
  | .kAssert n => tcheckVarsArgs n.args
  | .kIf n =>
    match n with
    | .mk _ _ _ _ bodyIfTrue bodyIfFalse => do
      tcheckVarsList bodyIfTrue
      tcheckVarsList bodyIfFalse
  | .kWhile n =>
    match n with
    | .mk _ _ _ _ asserts body => do
      tcheckVarsAsserts asserts
      tcheckVarsList body
  | .kAssign _ | .kJump _ | .kReturn _ => pure ()

def tcheckVarsList (l : List Stmt) : CheckM Unit :=
  match l with
  | [] => pure ()
  | o :: os => do
    tcheckVars o
    tcheckVarsList os
end

end Puffs
