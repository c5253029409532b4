import Puffs.Vars
/-!
# Which errors a check returns

Each `fmt.Errorf` site of `type.go` lies in one method. The checks of expressions and type
expressions return none of the statement-level messages (`exprChecks_errors`): those come
only from the statement checks and the var pre-pass. So a pre-pass that fails with
`duplicate var` met a name already in scope or already registered by that pass
(`prePass_duplicate`), and after a successful pre-pass, checking the body fails with
`unchecked type expression` only at a `Var` the pre-pass did not visit, which sits in an
`else if` clause (`unchecked_only_unvisited`).

`ErrIn S r` and `ErrsIn S m` say that every error of a rule's result `r`, or of a run of a
method `m`, is in `S`; their lemmas follow the combinators the methods are written with.
-/
namespace Puffs

open CheckM

/-- The messages of the statement checks and of the pre-pass. -/
def Err.ofStatement : Err → Bool
  | .duplicateVar _ | .ifConditionNotBool .. | .noMatchingWhile .. | .uncheckedTypeExpr _
  | .whileConditionNotBool .. | .assertConditionNotBool .. | .cannotAssign .. | .assigneeNotNumeric ..
  | .shiftNotNumeric .. | .incompatibleAssign .. => true
  | _ => false

/-- The `KVar` case's internal error, whichever type expression it names. -/
def Err.isUnchecked : Err → Bool
  | .uncheckedTypeExpr _ => true
  | _ => false

theorem Err.isUnchecked_of_ofStatement {e : Err} (h : e.ofStatement = false) :
    e.isUnchecked = false := by
  cases e <;> first | rfl | cases h

/-- Every error `r` holds is in `S`. -/
def ErrIn (S : Err → Prop) (r : Except Err α) : Prop := ∀ e, r = .error e → S e

namespace ErrIn

variable {S : Err → Prop}

theorem ok (a : α) : ErrIn S (.ok a : Except Err α) := fun _ h => nomatch h

theorem error {e : Err} (he : S e) : ErrIn S (.error e : Except Err α) := fun _ h => by
  cases h; exact he

theorem bind {x : Except Err α} {f : α → Except Err β} (hx : ErrIn S x)
    (hf : ∀ a, ErrIn S (f a)) : ErrIn S (x >>= f) := by
  cases x with
  | error e => intro e' h; cases h; exact hx e rfl
  | ok a => exact hf a

theorem map {x : Except Err α} (f : α → β) (hx : ErrIn S x) : ErrIn S (f <$> x) := by
  cases x with
  | error e => intro e' h; cases h; exact hx e rfl
  | ok a => exact ok _

theorem ensure (ok : Bool) {e : Err} (he : S e) : ErrIn S (Puffs.ensure ok e) := by
  unfold Puffs.ensure
  split
  · exact .ok _
  · exact .error he

end ErrIn

section Rules

variable {a : Addr} {lhs rhs : Expr} {lTyp rTyp : MType}

theorem leafRule_errIn (localVars : ID → Option TypeExpr) (id1 : ID) :
    ErrIn (·.ofStatement = false) (leafRule localVars id1) := by
  unfold leafRule
  repeat' split
  all_goals first | exact .ok _ | exact .error rfl

theorem unaryRule_errIn (op : UnaryOp) (cv : Option Int) :
    ErrIn (·.ofStatement = false) (unaryRule op rhs rTyp cv) := by
  unfold unaryRule
  split <;> split
  all_goals first | exact .ok _ | exact .error rfl

theorem constValueBinaryOp_errIn (op : BinaryOp) (l r : Int) :
    ErrIn (·.ofStatement = false) (constValueBinaryOp a op lhs rhs l r) := by
  unfold constValueBinaryOp
  split <;> (try split) <;> first | exact .ok _ | exact .error rfl

theorem binaryRule_errIn (op : BinaryOp) (l r : Option Int) :
    ErrIn (·.ofStatement = false) (binaryRule a op lhs rhs lTyp rTyp l r) := by
  refine .bind ?_ fun _ => .bind ?_ fun _ => .bind ?_ fun _ => .ok _
  · unfold checkBinaryOperands
    split <;> first | exact .ok _ | exact .bind (.ensure _ rfl) fun _ => .ensure _ rfl
  · unfold checkBinaryCompatible
    split <;> exact .ensure _ rfl
  · unfold foldBinaryOp
    split
    · exact .map _ (constValueBinaryOp_errIn _ _ _)
    · exact .ok _

theorem asRule_errIn (t : TypeExpr) : ErrIn (·.ofStatement = false) (asRule lhs lTyp t) := by
  unfold asRule
  split
  · exact .ok _
  · exact .error rfl

theorem dotRule_errIn (func : Option Func) (structs : ID → Option Struct) (id1 : ID) :
    ErrIn (·.ofStatement = false) (dotRule func structs a lhs lTyp id1) := by
  unfold dotRule
  repeat' split
  all_goals first | exact .ok _ | exact .error rfl

end Rules

/-- Every error a run of `m` returns is in `S`. -/
def ErrsIn (S : Err → Prop) (m : CheckM α) : Prop := ∀ q e q', m q = (.error e, q') → S e

namespace ErrsIn

variable {S S' : Err → Prop} {m : CheckM α}

theorem mono (h : ErrsIn S m) (hS : ∀ {e}, S e → S' e) : ErrsIn S' m :=
  fun q e q' he => hS (h q e q' he)

theorem pure (a : α) : ErrsIn S (Pure.pure a : CheckM α) := fun _ _ _ h => nomatch h

theorem fail {e : Err} (he : S e) : ErrsIn S (CheckM.fail e : CheckM α) := fun _ _ _ h => by
  cases h; exact he

theorem read (f : Checker → α) : ErrsIn S (CheckM.read f) := fun _ _ _ h => nomatch h

theorem update (f : Checker → Checker) : ErrsIn S (CheckM.update f) := fun _ _ _ h => nomatch h

theorem require (ok : Bool) {e : Err} (he : S e) : ErrsIn S (CheckM.require ok e) := by
  unfold CheckM.require
  split
  · exact pure _
  · exact fail he

theorem bind {f : α → CheckM β} (hm : ErrsIn S m) (hf : ∀ a, ErrsIn S (f a)) :
    ErrsIn S (m >>= f) := by
  intro q e q' h
  rcases bind_eq_error.mp h with h | ⟨a, _, -, h⟩
  · exact hm _ _ _ h
  · exact hf a _ _ _ h

theorem ofExcept {r : Except Err α} (hr : ErrIn S r) : ErrsIn S (CheckM.ofExcept r) :=
  fun _ e _ h => hr e (congrArg Prod.fst h)

theorem ite {c : Prop} {_ : Decidable c} {a b : CheckM α} (ha : ErrsIn S a) (hb : ErrsIn S b) :
    ErrsIn S (if c then a else b) := by
  split <;> assumption

theorem whenSome (x : Option α) {f : α → CheckM Unit} (hf : ∀ a, ErrsIn S (f a)) :
    ErrsIn S (CheckM.whenSome x f) := by
  cases x
  · exact pure _
  · exact hf _

theorem mTypeOf (he : S .nilMType) (x : Expr) : ErrsIn S (Puffs.mTypeOf x) := by
  intro q e q' h
  unfold Puffs.mTypeOf at h
  split at h
  · cases h
  · cases h; exact he

theorem deferring {f : Checker → Checker} (hm : ErrsIn S m) : ErrsIn S (deferring m f) := by
  intro q e _ h
  replace h := congrArg Prod.fst h
  rw [deferring_apply] at h
  exact hm q e (m q).2 (Prod.ext h rfl)

theorem annotate {a : Addr} {r : Except Err (MType × Option Int)} (hr : ErrIn S r) :
    ErrsIn S (Puffs.annotate a r) := by
  rcases r with e | ⟨t, c⟩
  · exact fail (hr e rfl)
  · exact bind (whenSome _ fun _ => update _) fun _ => update _

end ErrsIn

mutual
theorem tcheckExpr_errsIn (n : Expr) (d : Nat) :
    ErrsIn (·.ofStatement = false) (tcheckExpr n d) := by
  unfold tcheckExpr
  refine .bind (.require _ rfl) fun _ => .bind ?_ fun _ => .update _
  match n with
  | .other o => exact tcheckExprOther_errsIn o _
  | .unaryOp u => exact tcheckExprUnaryOp_errsIn u _
  | .binaryOp b => exact tcheckExprBinaryOp_errsIn b _
  | .associativeOp (.mk _ _ _) => exact .fail rfl

theorem tcheckExprOther_errsIn (n : ExprOther) (d : Nat) :
    ErrsIn (·.ofStatement = false) (tcheckExprOther n d) := by
  match n with
  | .leaf a id1 => exact .bind (.read _) fun _ => .annotate (leafRule_errIn _ _)
  | .call a i s lhs args =>
    unfold tcheckExprOther
    refine .ite (.bind (tcheckExpr_errsIn lhs _) fun _ => .update _) (.ite ?_ (.fail rfl))
    match lhs with
    | .other (.dot (.mk la foo id)) =>
      exact .bind (tcheckExpr_errsIn foo _) fun _ => .bind (.update _) fun _ =>
        .bind (.update _) fun _ => .bind (tcheckArgs_errsIn args _) fun _ =>
        .bind (.read _) fun _ => .update _
    | .other (.leaf ..) | .other (.call ..) | .other (.index ..) | .other (.slice ..) | .unaryOp _
    | .binaryOp _ | .associativeOp _ => exact .fail rfl
  | .index .. | .slice .. => exact .fail rfl
  | .dot (.mk a lhs id1) =>
    exact .bind (tcheckExpr_errsIn lhs _) fun _ => .bind (.read _) fun _ =>
      .bind (.read _) fun _ => .bind (.mTypeOf (by rfl) _) fun _ =>
      .bind (.ofExcept (dotRule_errIn _ _ _)) fun _ => .update _

theorem tcheckExprUnaryOp_errsIn (n : ExprUnaryOp) (d : Nat) :
    ErrsIn (·.ofStatement = false) (tcheckExprUnaryOp n d) := by
  match n with
  | .mk a op rhs =>
    exact .bind (tcheckExpr_errsIn rhs _) fun _ => .bind (.mTypeOf (by rfl) _) fun _ =>
      .bind (.read _) fun _ => .annotate (unaryRule_errIn _ _)

theorem tcheckExprBinaryOp_errsIn (n : ExprBinaryOp) (d : Nat) :
    ErrsIn (·.ofStatement = false) (tcheckExprBinaryOp n d) := by
  match n with
  | .as a lhs rhs =>
    exact .bind (tcheckExpr_errsIn lhs _) fun _ => .bind (.mTypeOf (by rfl) _) fun _ =>
      .bind (tcheckTypeExpr_errsIn rhs _) fun _ =>
      .bind (.ofExcept (asRule_errIn _)) fun _ => .update _
  | .mk a op lhs rhs =>
    exact .bind (tcheckExpr_errsIn lhs _) fun _ => .bind (.mTypeOf (by rfl) _) fun _ =>
      .bind (tcheckExpr_errsIn rhs _) fun _ => .bind (.mTypeOf (by rfl) _) fun _ =>
      .bind (.read _) fun _ => .bind (.read _) fun _ => .annotate (binaryRule_errIn _ _ _)

theorem tcheckArgs_errsIn (args : List Arg) (d : Nat) :
    ErrsIn (·.ofStatement = false) (tcheckArgs args d) := by
  match args with
  | [] => exact .pure _
  | .mk a p n v :: os =>
    unfold tcheckArgs tcheckArg
    exact .bind (.bind (tcheckExpr_errsIn v _) fun _ => .update _) fun _ => tcheckArgs_errsIn os _

theorem tcheckTypeExpr_errsIn (t : TypeExpr) (d : Nat) :
    ErrsIn (·.ofStatement = false) (tcheckTypeExpr t d) := by
  unfold tcheckTypeExpr
  refine .bind (.require _ rfl) fun _ => ?_
  match t with
  | .named a _ _ min max =>
    exact .ite (.fail rfl) (.ite
      (.bind (tcheckBound_errsIn min) fun _ => .bind (tcheckBound_errsIn max) fun _ => .update _)
      (.ite (.update _) (.fail rfl)))
  | .ptr a inner => exact .bind (tcheckTypeExpr_errsIn inner _) fun _ => .update _
  | .array a aLen inner =>
    exact .bind (tcheckExpr_errsIn aLen _) fun _ => .bind (.read _) fun _ =>
      .bind (.require _ rfl) fun _ =>
      .bind (tcheckTypeExpr_errsIn inner _) fun _ => .update _

theorem tcheckBound_errsIn (b : Option Expr) :
    ErrsIn (·.ofStatement = false) (tcheckBound b) := by
  match b with
  | none => exact .pure _
  | some b =>
    unfold tcheckBound
    exact .bind (tcheckExpr_errsIn b _) fun _ => .bind (.read _) fun _ => .require _ rfl
end

/-- The checks of expressions and type expressions, from any depth and any state, never
return a statement-level message: no duplicate var, no unchecked type expression, no
condition, jump or assignment error. -/
theorem exprChecks_errors :
    (∀ (e : Expr) (d : Nat) (q q' : Checker) (err : Err),
      tcheckExpr e d q = (.error err, q') → err.ofStatement = false) ∧
    ∀ (t : TypeExpr) (d : Nat) (q q' : Checker) (err : Err),
      tcheckTypeExpr t d q = (.error err, q') → err.ofStatement = false :=
  ⟨fun e d q q' err => tcheckExpr_errsIn e d q err q',
    fun t d q q' err => tcheckTypeExpr_errsIn t d q err q'⟩

/-- An undeclared `y` fails with an expression error. -/
theorem undeclaredY_errors : (Err.unrecognizedIdentifier (.ident "y")).ofStatement = false :=
  exprChecks_errors.1 (.other (.leaf 1 (.ident "y"))) 0 .empty _ _ rfl

theorem ErrsIn.of_expr {m : CheckM α} (h : ErrsIn (·.ofStatement = false) m) :
    ErrsIn (·.isUnchecked = false) m :=
  h.mono Err.isUnchecked_of_ofStatement

/-- A run of `m`, visiting the `Var`s `vs`, fails with `duplicate var x` only at a `Var` of `vs`
named `x` whose name was in scope at the start or is that of a `Var` visited before it. -/
def Duplicates (vs : List Var) (m : CheckM Unit) : Prop :=
  ∀ q q' x, m q = (.error (.duplicateVar x), q') → ∃ pre v post, vs = pre ++ v :: post ∧
    v.name = x ∧ (q.localVars x ≠ none ∨ ∃ u ∈ pre, u.name = x)

namespace Duplicates

variable {vs ws : List Var} {m : CheckM Unit}

theorem pure : Duplicates [] (Pure.pure ()) := fun _ _ _ h => nomatch h

theorem after_setErrPos {p : Pos} (hm : Duplicates vs m) :
    Duplicates vs (setErrPos p >>= fun _ => m) :=
  fun q q' x h => hm (setErrPos p q).2 q' x h

/-- After a first part registered `vs`, a name taken at the start of the second part was taken
at the start or is the name of a `Var` of `vs`. -/
theorem bind {f : Unit → CheckM Unit} (hm : Duplicates vs m) (hr : Registering vs m)
    (hf : Duplicates ws (f ())) : Duplicates (vs ++ ws) (m >>= f) := by
  intro q q' x h
  rcases bind_eq_error.mp h with h | ⟨⟨⟩, q₁, h₁, h⟩
  · obtain ⟨pre, v, post, rfl, hv, hx⟩ := hm q q' x h
    exact ⟨pre, v, post ++ ws, by simp, hv, hx⟩
  · obtain ⟨pre, v, post, rfl, hv, hx⟩ := hf q₁ q' x h
    refine ⟨vs ++ pre, v, post, by simp, hv, ?_⟩
    rcases hx with hx | ⟨u, hu, rfl⟩
    · by_cases hvs : ∃ u ∈ vs, u.name = x
      · obtain ⟨u, hu, rfl⟩ := hvs
        exact .inr ⟨u, List.mem_append_left _ hu, rfl⟩
      · push_neg at hvs
        exact .inl (by rwa [← (hr h₁).others x hvs])
    · exact .inr ⟨u, List.mem_append_right _ hu, rfl⟩

/-- The `KVar` case fails with `duplicate var` only at its own name, when that was taken: the
type check returns no statement-level message. -/
theorem registerVar (n : Var) : Duplicates [n] (Puffs.registerVar n) := by
  intro q q' x h
  simp only [Puffs.registerVar, read_bind] at h
  rcases bind_eq_error.mp h with h | ⟨⟨⟩, _, -, h⟩
  · obtain ⟨hnone, hx, -⟩ := require_eq_error.mp h
    cases hx
    exact ⟨[], n, [], rfl, rfl, .inl fun h0 => by simp [h0] at hnone⟩
  · rcases bind_eq_error.mp h with h | ⟨⟨⟩, _, -, h⟩
    · cases tcheckTypeExpr_errsIn _ _ _ _ _ h
    · cases h

theorem tcheckVarsArgs (args : List Arg) : Duplicates [] (Puffs.tcheckVarsArgs args) := by
  induction args with
  | nil => exact pure
  | cons o os ih => exact after_setErrPos ih

theorem tcheckVarsAsserts (asserts : List Assert) :
    Duplicates [] (Puffs.tcheckVarsAsserts asserts) := by
  induction asserts with
  | nil => exact pure
  | cons o os ih =>
    exact (after_setErrPos (tcheckVarsArgs _)).bind
      (Registering.after_setErrPos (Registering.tcheckVarsArgs _)) ih

end Duplicates

/-- Where the pre-pass over `c` fails with `duplicate var`: over a statement and a list as
`tcheckVars` and `tcheckVarsList` visit them, and over an `If` chain through the two bodies of
its first clause only, as the `KIf` case visits them. -/
def DupSpec : Code → Prop
  | .stmt s => Duplicates s.registeredVars (tcheckVars s)
  | .stmts l => Duplicates (Stmt.registeredVarsList l) (tcheckVarsList l)
  | .chain n => Duplicates (Stmt.registeredVarsList n.bodyIfTrue ++
      Stmt.registeredVarsList n.bodyIfFalse) (tcheckVarsList n.bodyIfTrue >>= fun _ =>
      tcheckVarsList n.bodyIfFalse)

/-- The pre-pass over a statement records its position, then visits the statement's lists. -/
theorem DupSpec.stmt {s : Stmt} {m : CheckM Unit}
    (he : tcheckVars s = (setErrPos s.pos >>= fun _ => m)) (h : Duplicates s.registeredVars m) :
    DupSpec (.stmt s) :=
  show Duplicates _ (tcheckVars s) from he ▸ Duplicates.after_setErrPos h

/-- The pre-pass over a function body fails with `duplicate var x` only at a `Var` it visits
named `x`, when `x` was in scope at the start or names a `Var` it visited before. -/
theorem prePass_duplicate (body : List Stmt) (q q' : Checker) (x : ID)
    (h : tcheckVarsList body q = (.error (.duplicateVar x), q')) :
    ∃ pre v post, Stmt.registeredVarsList body = pre ++ v :: post ∧ v.name = x ∧
      (q.localVars x ≠ none ∨ ∃ u ∈ pre, u.name = x) := by
  have spec : ∀ c, DupSpec c := by
    intro c
    induction c using Code.induction with
    | kAssert n => exact .stmt rfl (Duplicates.tcheckVarsArgs _)
    | kAssign n | kJump n | kReturn n => exact .stmt rfl Duplicates.pure
    | kVar n => exact .stmt rfl (Duplicates.registerVar n)
    | kIf n ih => rcases n with ⟨_, _, _, _, _, _⟩; exact .stmt rfl ih
    | kWhile w ih =>
      rcases w with ⟨_, _, _, _, _, _⟩
      exact .stmt rfl ((Duplicates.tcheckVarsAsserts _).bind (Registering.tcheckVarsAsserts _) ih)
    | nil => exact Duplicates.pure
    | cons s _ hs hb => exact Duplicates.bind hs (tcheckVars_registers s) hb
    | chain n ht hf _ => exact Duplicates.bind ht (tcheckVarsList_registers _) hf
  exact spec (.stmts body) q q' x h

/-- `var x u8` then `while true { var x bool }`. -/
def varXTwice : List Stmt :=
  [.kVar varX, .kWhile (.mk 6 ⟨"", 3⟩ .zero (.other (.leaf 7 .keyTrue)) []
    [.kVar ⟨8, ⟨"", 4⟩, .ident "x", .named 9 .zero .keyBool none none, none⟩])]

/-- The second `x` is the duplicate, after the first. -/
theorem varXTwice_duplicate :
    ∃ pre v post, Stmt.registeredVarsList varXTwice = pre ++ v :: post ∧ v.name = .ident "x" ∧
      (Checker.empty.localVars (.ident "x") ≠ none ∨ ∃ u ∈ pre, u.name = .ident "x") :=
  prePass_duplicate varXTwice .empty _ (.ident "x") rfl

section Parts

theorem tcheckAssertArgs_errsIn (args : List Arg) :
    ErrsIn (·.isUnchecked = false) (tcheckAssert.tcheckAssertArgs args) := by
  induction args with
  | nil => exact .pure _
  | cons o os ih =>
    exact .bind (tcheckExpr_errsIn _ 0).of_expr fun _ => .bind (.update _) fun _ => ih

theorem tcheckAssert_errsIn (n : Assert) : ErrsIn (·.isUnchecked = false) (tcheckAssert n) :=
  .bind (tcheckExpr_errsIn _ 0).of_expr fun _ =>
    .bind (.mTypeOf (by rfl) _) fun _ => .bind (.require _ rfl) fun _ =>
    tcheckAssertArgs_errsIn n.args

theorem tcheckWhileHead_errsIn (n : While) :
    ErrsIn (·.isUnchecked = false) (tcheckWhileHead n) := by
  refine .bind (tcheckExpr_errsIn _ 0).of_expr fun _ =>
    .bind (.mTypeOf (by rfl) _) fun _ => .bind (.require _ rfl) fun _ => ?_
  induction n.asserts with
  | nil => exact .pure _
  | cons o os ih =>
    exact .bind (tcheckAssert_errsIn o) fun _ => .bind (.update _) fun _ => ih

theorem tcheckIfCondition_errsIn (n : If) :
    ErrsIn (·.isUnchecked = false) (tcheckIfCondition n) :=
  .bind (tcheckExpr_errsIn _ 0).of_expr fun _ =>
    .bind (.mTypeOf (by rfl) _) fun _ => .require _ rfl

theorem tcheckAssign_errsIn (n : Assign) : ErrsIn (·.isUnchecked = false) (tcheckAssign n) := by
  refine .bind (tcheckExpr_errsIn _ 0).of_expr fun _ =>
    .bind (tcheckExpr_errsIn _ 0).of_expr fun _ =>
    .bind (.mTypeOf (by rfl) _) fun _ => .bind (.mTypeOf (by rfl) _) fun _ => .ofExcept ?_
  unfold assignRule
  split
  · exact ErrIn.ensure _ rfl
  · refine .bind (.ensure _ rfl) fun _ => ?_
    split <;> exact .ensure _ rfl

theorem tcheckReturn_errsIn (n : Return) : ErrsIn (·.isUnchecked = false) (tcheckReturn n) := by
  unfold tcheckReturn
  split
  · exact (tcheckExpr_errsIn _ 0).of_expr
  · exact .pure _

theorem tcheckJump_errsIn (n : Jump) : ErrsIn (·.isUnchecked = false) (tcheckJump n) := by
  unfold tcheckJump
  refine .bind (.read _) fun _ => ?_
  split
  · exact .fail rfl
  · exact .bind (.ite (.update _) (.update _)) fun _ => .update _

end Parts

/-- A check of `c` fails with `unchecked type expression t` only at a `Var` of type `t` it
reaches with that type unmarked. -/
def UncheckedAt (c : Code) : Prop :=
  ∀ q q' t, c.check q = (.error (.uncheckedTypeExpr t), q') →
    ∃ v path q₂, Reaches c q (.kVar v) path q₂ ∧ v.xType = t ∧
      (q₂.ann v.xType.addr).typeChecked = false

namespace UncheckedAt

variable {q q' : Checker}

/-- A statement is marked last, which cannot fail. -/
theorem setTypeChecked_ne {a : Addr} {e : Err} : setTypeChecked a q ≠ (.error e, q') := nofun

theorem leaf {s : Stmt} {A : List Addr} {m : CheckM Unit} (hl : LeafCheck s A m)
    (hm : ErrsIn (·.isUnchecked = false) m) : UncheckedAt (.stmt s) := by
  intro q q' t h
  rw [Code.check, hl.apply] at h
  rcases bind_eq_error.mp h with h | ⟨_, _, -, h⟩
  · cases hm _ _ _ h
  · exact absurd h setTypeChecked_ne

theorem kVar (n : Var) : UncheckedAt (.stmt (.kVar n)) := by
  intro q q' t h
  rw [Code.check, (leafCheck_kVar n).apply] at h
  rcases bind_eq_error.mp h with h | ⟨_, _, -, h⟩
  · simp only [tcheckVarStatement, read_bind] at h
    rcases bind_eq_error.mp h with h | ⟨_, _, -, h⟩
    · obtain ⟨hc, ht, -⟩ := require_eq_error.mp h
      exact ⟨n, [], q, .self _ q, (Err.uncheckedTypeExpr.inj ht).symm, hc⟩
    · cases (ErrsIn.whenSome _ fun _ => (tcheckExpr_errsIn _ 0).of_expr) _ _ _ h
  · exact absurd h setTypeChecked_ne

theorem kJump (j : Jump) : UncheckedAt (.stmt (.kJump j)) := by
  intro q q' t h
  rw [Code.check, tcheckStatement_kJump] at h
  rcases bind_eq_error.mp h with h | ⟨_, _, -, h⟩
  · cases tcheckJump_errsIn j _ _ _ h
  · exact absurd h setTypeChecked_ne

theorem kIf {n : If} (ih : UncheckedAt (.chain n)) : UncheckedAt (.stmt (.kIf n)) := by
  intro q q' t h
  rw [Code.check, tcheckStatement_kIf] at h
  rcases bind_eq_error.mp h with h | ⟨_, _, -, h⟩
  · obtain ⟨v, path, q₂, hr, hc⟩ := ih _ _ _ h
    exact ⟨v, path, q₂, .ifChain hr, hc⟩
  · exact absurd (congrArg Prod.fst h) (by rw [markIfChain_fst]; exact nofun)

theorem kWhile {w : While} (ih : UncheckedAt (.stmts w.body)) : UncheckedAt (.stmt (.kWhile w)) := by
  intro q q' t h
  rw [Code.check, tcheckStatement_kWhile] at h
  rcases bind_eq_error.mp h with h | ⟨_, q₁, hh, h⟩
  · cases tcheckWhileHead_errsIn w _ _ _ h
  rw [pushJumpTarget, update_bind, deferring_apply] at h
  have hb := congrArg Prod.fst h
  dsimp only at hb
  rcases bind_eq_error.mp (Prod.ext hb rfl) with h | ⟨_, _, -, h⟩
  · obtain ⟨v, path, q₂, hr, hc⟩ := ih _ _ _ h
    exact ⟨v, w :: path, q₂, .whileBody hh hr, hc⟩
  · exact absurd h setTypeChecked_ne

theorem nil : UncheckedAt (.stmts []) := fun _ _ _ h => nomatch h

theorem cons {s : Stmt} {body : List Stmt} (hs : UncheckedAt (.stmt s))
    (hb : UncheckedAt (.stmts body)) : UncheckedAt (.stmts (s :: body)) := by
  intro q q' t h
  rcases bind_eq_error.mp h with h | ⟨_, _, h₁, h⟩
  · obtain ⟨v, path, q₂, hr, hc⟩ := hs _ _ _ h
    exact ⟨v, path, q₂, .head hr, hc⟩
  · obtain ⟨v, path, q₂, hr, hc⟩ := hb _ _ _ h
    exact ⟨v, path, q₂, .tail h₁ hr, hc⟩

theorem chain {n : If} (ht : UncheckedAt (.stmts n.bodyIfTrue))
    (hf : UncheckedAt (.stmts n.bodyIfFalse))
    (he : ∀ n', n.elseIf = some n' → UncheckedAt (.chain n')) : UncheckedAt (.chain n) := by
  intro q q' t h
  rw [Code.check, tcheckIfChain_apply] at h
  rcases bind_eq_error.mp h with h | ⟨_, _, hc, h⟩
  · cases tcheckIfCondition_errsIn n _ _ _ h
  rcases bind_eq_error.mp h with h | ⟨_, _, h₁, h⟩
  · obtain ⟨v, path, q₂, hr, hu⟩ := ht _ _ _ h
    exact ⟨v, path, q₂, .bodyIfTrue hc hr, hu⟩
  rcases bind_eq_error.mp h with h | ⟨_, _, h₂, h⟩
  · obtain ⟨v, path, q₂, hr, hu⟩ := hf _ _ _ h
    exact ⟨v, path, q₂, .bodyIfFalse hc h₁ hr, hu⟩
  cases hn : n.elseIf with
  | none => rw [hn] at h; exact nomatch h
  | some n' =>
    rw [hn] at h
    obtain ⟨v, path, q₂, hr, hu⟩ := he n' hn _ _ _ h
    exact ⟨v, path, q₂, .elseIf hc h₁ h₂ hn hr, hu⟩

end UncheckedAt

theorem Code.uncheckedAt (c : Code) : UncheckedAt c := by
  induction c using Code.induction with
  | kAssert n => exact .leaf (leafCheck_kAssert n) (tcheckAssert_errsIn n)
  | kAssign n => exact .leaf (leafCheck_kAssign n) (tcheckAssign_errsIn n)
  | kIf n ih => exact .kIf ih
  | kJump j => exact .kJump j
  | kReturn n => exact .leaf (leafCheck_kReturn n) (tcheckReturn_errsIn n)
  | kVar n => exact .kVar n
  | kWhile w ih => exact .kWhile ih
  | nil => exact .nil
  | cons s body hs hb => exact .cons hs hb
  | chain n ht hf he => exact .chain ht hf he

/-- After a successful var pre-pass over a function body, checking the body fails with
`unchecked type expression t` only at a `Var` of type `t` it reaches with `t` unmarked, which
the pre-pass did not visit: the pre-pass skips `else if` clauses, the statement checker does
not. Every `Var` the pre-pass visited has its type marked wherever the check reaches it, so
passes the guard. -/
theorem unchecked_only_unvisited {body : List Stmt} {q₀ q₁ : Checker}
    (hp : tcheckVarsList body q₀ = (.ok (), q₁)) :
    (∀ t, (tcheckStatements body q₁).1 = .error (.uncheckedTypeExpr t) →
      ∃ v path q₂, Reaches (.stmts body) q₁ (.kVar v) path q₂ ∧ v.xType = t ∧
        (q₂.ann v.xType.addr).typeChecked = false ∧ v ∉ Stmt.registeredVarsList body) ∧
    ∀ v ∈ Stmt.registeredVarsList body, ∀ path q₂, Reaches (.stmts body) q₁ (.kVar v) path q₂ →
      (q₂.ann v.xType.addr).typeChecked = true := by
  have visited : ∀ v ∈ Stmt.registeredVarsList body, ∀ path q₂,
      Reaches (.stmts body) q₁ (.kVar v) path q₂ → (q₂.ann v.xType.addr).typeChecked = true :=
    fun v hv _ _ hr => hr.inScope.checked _ ((tcheckVarsList_registers body hp).typeChecked v hv)
  refine ⟨fun t h => ?_, visited⟩
  obtain ⟨v, path, q₂, hr, ht, hc⟩ := Code.uncheckedAt (.stmts body) q₁ _ t (Prod.ext h rfl)
  refine ⟨v, path, q₂, hr, ht, hc, fun hv => ?_⟩
  rw [visited v hv path q₂ hr] at hc
  cases hc

/-- `if true {} else if true { var y u8 }`. -/
def elseIfVarY : List Stmt :=
  [.kIf (.mk 1 ⟨"", 1⟩ (.other (.leaf 2 .keyTrue))
    (some (.mk 3 ⟨"", 2⟩ (.other (.leaf 4 .keyTrue)) none
      [.kVar ⟨5, ⟨"", 3⟩, .ident "y", .named 6 .zero .keyU8 none none, none⟩] []))
    [] [])]

/-- The pre-pass passes over `y`, and the check of the body stops there, naming `y`'s type. -/
theorem elseIfVarY_unchecked :
    ∃ v path q₂, Reaches (.stmts elseIfVarY) (tcheckVarsList elseIfVarY .empty).2 (.kVar v) path q₂ ∧
      v.xType = .named 6 .zero .keyU8 none none ∧ (q₂.ann v.xType.addr).typeChecked = false ∧
      v ∉ Stmt.registeredVarsList elseIfVarY :=
  (@unchecked_only_unvisited elseIfVarY .empty _ rfl).1 _ rfl

end Puffs
