import Puffs.Consts
/-!
# Operand types

Which operand types the binary operators and the assignments accept. The ideal type of a
constant meets only numeric types, but under `==` and `!=`, which compare operands of any
types. For assignments this rests on the declared types: with no type spelled `ideal` in
scope (`Env.Declared`), no expression has one but the ideal type itself.

`and`, `or` and the compound shift assignments make tests of their own, where conditions and
binary shifts use `Eq` and `numeric`.
-/
namespace Puffs

open CheckM

/-- Spelled like the ideal type, refinements ignored: the ideal type itself, or a type
expression of the program named `ideal`. -/
def MType.idealLike (t : MType) : Bool := t.eqIgnoringRefinements .ideal

/-- The names in scope have declared types, none spelled `ideal`: the local variables and
every field `tcheckDot` can select. -/
structure Env.Declared (env : Env) : Prop where
  localVars : ∀ x t, env.localVars x = some t → (MType.node t).idealLike = false
  fields : ∀ f name s, env.func = some f → structOf f env.structs name = some s →
    ∀ field ∈ s.fields, (MType.node field.xType).idealLike = false

theorem idealLike_named {a : Addr} {pkg name : ID} {min max : Option Expr} :
    (MType.node (.named a pkg name min max)).idealLike = (pkg == .zero && name == .keyIdeal) :=
  Bool.and_true _

/-- A numeric type is not spelled `ideal`. -/
theorem idealLike_of_isNumType {t : TypeExpr} (h : t.isNumType) : (MType.node t).idealLike = false := by
  unfold TypeExpr.isNumType at h
  split at h
  · rename_i name _ _
    have hn : name ≠ .keyIdeal := by rintro rfl; cases h
    simp [idealLike_named, hn]
  · cases h

theorem dotRule_type {func : Option Func} {structs : ID → Option Struct} {a : Addr} {lhs : Expr}
    {t t' : MType} {id1 : ID} (h : dotRule func structs a lhs t id1 = .ok t') :
    t' = .u8 ∨ ∃ f name s field, func = some f ∧ structOf f structs name = some s ∧
      field ∈ s.fields ∧ t' = .node field.xType := by
  unfold dotRule at h
  repeat' split at h
  all_goals cases h
  · exact .inl rfl
  · exact .inr ⟨_, _, _, _, rfl, ‹_›, List.mem_of_find?_eq_some ‹_›, rfl⟩

/-- With declared types in scope, only the ideal type is spelled `ideal`. -/
theorem infer_idealLike {env : Env} (hd : env.Declared) :
    (e : Expr) → ∀ {r}, infer env e = some r → r.1.idealLike → r.1 = .ideal
  | .other (.leaf a id1), r, h, hi => by
    replace h : leafRule env.localVars id1 = .ok r := by simpa using h
    unfold leafRule at h
    repeat' split at h
    all_goals cases h
    · rfl
    · simp [hd.localVars _ _ ‹_›] at hi
    all_goals cases hi
  | .other (.call _ _ _ (.other (.dot (.mk _ foo _))) _), r, h, hi => by
    rcases infer_call_dot h with h' | ⟨r', hr', h'⟩ <;> rw [h'] at hi ⊢
    · cases hi
    · exact infer_idealLike hd foo hr' hi
  | .other (.call _ _ _ (.other (.leaf ..)) _), r, h, hi
  | .other (.call _ _ _ (.other (.call ..)) _), r, h, hi
  | .other (.call _ _ _ (.other (.index ..)) _), r, h, hi
  | .other (.call _ _ _ (.other (.slice ..)) _), r, h, hi
  | .other (.call _ _ _ (.unaryOp _) _), r, h, hi | .other (.call _ _ _ (.binaryOp _) _), r, h, hi
  | .other (.call _ _ _ (.associativeOp _) _), r, h, hi => by
    obtain ⟨-, h' | h'⟩ := infer_call h
    · rw [h'] at hi; cases hi
    · cases h'
  | .other (.index ..), _, h, _ => nomatch h
  | .other (.slice ..), _, h, _ => nomatch h
  | .other (.dot (.mk a lhs id1)), _, h, hi => by
    simp only [infer_dot, Option.bind_eq_some, Option.map_eq_some', toOption_eq_some] at h
    obtain ⟨r, -, t, hdot, rfl⟩ := h
    rcases dotRule_type hdot with rfl | ⟨f, name, s, field, hf, hs, hm, rfl⟩
    · cases hi
    · simp [hd.fields f name s hf hs field hm] at hi
  | .unaryOp (.mk a op rhs), _, h, hi => by
    simp only [infer_unaryOp, Option.bind_eq_some, toOption_eq_some] at h
    obtain ⟨r, hr, hrule⟩ := h
    rcases unaryRule_type hrule with ht | ht <;> rw [ht] at hi ⊢
    · exact infer_idealLike hd rhs hr hi
    · cases hi
  | .binaryOp (.as a lhs rhs), _, h, hi => by
    simp only [infer_as, Option.bind_eq_some, Option.map_eq_some', toOption_eq_some] at h
    obtain ⟨r, -, t, has, rfl⟩ := h
    unfold asRule at has
    split at has <;> cases has
    rename_i hn
    simp [idealLike_of_isNumType (Bool.and_eq_true _ _ ▸ hn).2] at hi
  | .binaryOp (.mk a op lhs rhs), _, h, hi => by
    simp only [infer_binaryOp, Option.bind_eq_some, toOption_eq_some] at h
    obtain ⟨l, hl, r, hr, hrule⟩ := h
    rw [binaryRule_type hrule] at hi ⊢
    unfold binaryResultType at hi ⊢
    by_cases hc : op.isComparison
    · rw [if_pos hc] at hi; cases hi
    rw [if_neg hc] at hi ⊢
    by_cases hl' : !l.1.isIdeal
    · rw [if_pos hl'] at hi ⊢; exact infer_idealLike hd lhs hl hi
    · rw [if_neg hl'] at hi ⊢; exact infer_idealLike hd rhs hr hi
  | .associativeOp _, _, h, _ => nomatch h

theorem binaryRule_checks {a : Addr} {op : BinaryOp} {lhs rhs : Expr} {l r : MType}
    {cl cr : Option Int} {x : MType × Option Int} (h : binaryRule a op lhs rhs l r cl cr = .ok x) :
    checkBinaryOperands op lhs rhs l r = .ok () ∧ checkBinaryCompatible op lhs rhs l r = .ok () := by
  simp only [binaryRule, bind, Except.bind] at h
  split at h <;> [cases h; skip]
  split at h <;> [cases h; skip]
  exact ⟨‹_›, ‹_›⟩

/-- Operands of an operator other than `==` and `!=`: an ideal one beside a numeric one. -/
theorem checkBinaryOperands_ideal {op : BinaryOp} {lhs rhs : Expr} {l r : MType}
    (h : checkBinaryOperands op lhs rhs l r = .ok ()) (h₁ : op ≠ .xBinaryEqEq)
    (h₂ : op ≠ .xBinaryNotEq) :
    (l.isIdeal → numeric r) ∧ (r.isIdeal → numeric l) := by
  cases op <;> simp only [checkBinaryOperands, ensure_bind_eq_ok, ensure_eq_ok] at h
  case xBinaryNotEq | xBinaryEqEq => contradiction
  case xBinaryAnd | xBinaryOr =>
    cases l <;> cases r <;> simp_all [MType.isBool, MType.isIdeal]
  all_goals exact ⟨fun _ => h.2, fun _ => h.1⟩

theorem idealLike_of_ideal_eq {t : MType} (h : MType.ideal.eqIgnoringRefinements t) :
    t.idealLike := by
  match t, h with
  | .ideal, _ => rfl
  | .node (.named _ p n _ _), h =>
    have h : (ID.zero == p && ID.keyIdeal == n && true) = true := h
    simp only [Bool.and_true, Bool.and_eq_true, beq_iff_eq] at h
    obtain ⟨rfl, rfl⟩ := h
    rfl
  | .bool, h | .u8, h | .node (.ptr ..), h | .node (.array ..), h => exact absurd h Bool.false_ne_true

/-- An accepted assignment between types spelled `ideal` only when ideal: an ideal side beside
a numeric one. -/
theorem assignRule_ideal {op : AssignOp} {lhs rhs : Expr} {l r : MType}
    (h : assignRule op lhs rhs l r = .ok ())
    (hl : l.idealLike → l = .ideal) (hr : r.idealLike → r = .ideal) :
    (l.isIdeal → numeric r) ∧ (r.isIdeal → numeric l) := by
  unfold assignRule at h
  split at h
  · rw [ensure_eq_ok] at h
    constructor
    · intro hi
      cases l <;> simp [MType.isIdeal] at hi
      simp only [MType.isNumType_ideal, Bool.and_false, Bool.false_or] at h
      simp [hr (idealLike_of_ideal_eq h), numeric]
    · intro hi
      cases r <;> simp [MType.isIdeal] at hi
      simp only [MType.isIdeal_ideal, Bool.true_and, Bool.or_eq_true] at h
      rcases h with h | h
      · simp [numeric, h]
      · simp [hl h, numeric]
  · rw [ensure_bind_eq_ok] at h
    exact ⟨fun hi => by cases l <;> simp_all [MType.isIdeal], fun _ => by simp [numeric, h.1]⟩

section Methods

variable {q q' : Checker}

/-- A successful check of a binary expression applied `binaryRule` to its operands' types
and constants, as they stand after it. -/
theorem tcheckExprBinaryOp_rule {a : Addr} {op : BinaryOp} {lhs rhs : Expr} {d : Nat}
    (hn : (a :: (lhs.addrs ++ rhs.addrs)).Nodup)
    (h : tcheckExprBinaryOp (.mk a op lhs rhs) d q = (.ok (), q')) :
    ∃ l r x, (q'.ann lhs.addr).mType = some l ∧ (q'.ann rhs.addr).mType = some r ∧
      binaryRule a op lhs rhs l r (q'.ann lhs.addr).constValue (q'.ann rhs.addr).constValue =
        .ok x := by
  unfold tcheckExprBinaryOp at h
  simp only [bind_eq_ok, mTypeOf_eq_ok, constValueOf, read_bind, and_assoc, exists_and_left,
    exists_eq_left] at h
  obtain ⟨_, q₁, h₁, l, hl, _, q₂, h₂, r, hr, h₃⟩ := h
  obtain ⟨t, c, hrule, -, -, K₃⟩ := annotate_ok h₃
  have K₂ := (tcheckExpr_keeps rhs d).of_eq h₂
  obtain ⟨ha, hn'⟩ := List.nodup_cons.mp hn
  have hlr : lhs.addr ∉ rhs.addrs := fun h' =>
    List.disjoint_of_nodup_append hn' lhs.addr_mem_addrs h'
  have e₁ : q'.ann lhs.addr = q₂.ann lhs.addr := K₃.outside _ fun h' =>
    ha (List.mem_singleton.mp h' ▸ List.mem_append_left _ lhs.addr_mem_addrs)
  have e₂ : q'.ann rhs.addr = q₂.ann rhs.addr := K₃.outside _ fun h' =>
    ha (List.mem_singleton.mp h' ▸ List.mem_append_right _ rhs.addr_mem_addrs)
  refine ⟨l, r, (t, c), ?_, by rw [e₂, hr], by rw [e₁, e₂]; exact hrule⟩
  rw [e₁, K₂.outside _ hlr, hl]

/-- A successful check of an assignment applied `assignRule` to the types `infer` gives its
sides, which they carry after it. -/
theorem tcheckAssign_infer {n : Assign} (hn : (n.lhs.addrs ++ n.rhs.addrs).Nodup)
    (h : tcheckAssign n q = (.ok (), q')) :
    ∃ l r, infer q.env n.lhs = some l ∧ infer q.env n.rhs = some r ∧
      (q'.ann n.lhs.addr).mType = some l.1 ∧ (q'.ann n.rhs.addr).mType = some r.1 ∧
      assignRule n.operator n.lhs n.rhs l.1 r.1 = .ok () := by
  unfold tcheckAssign at h
  simp only [bind_eq_ok, mTypeOf_eq_ok, ofExcept_apply, Prod.mk.injEq, and_assoc,
    exists_and_left, exists_eq_left] at h
  obtain ⟨_, q₁, h₁, _, q₂, h₂, l, hl, r, hr, hrule, rfl⟩ := h
  obtain ⟨il, hil, Al⟩ := tcheckExpr_infers n.lhs (hn.sublist (List.sublist_append_left _ _)) 0 q q₁ h₁
  obtain ⟨ir, hir, Ar⟩ := tcheckExpr_infers n.rhs (hn.sublist (List.sublist_append_right _ _)) 0 q₁ q₂ h₂
  have K₁ := (tcheckExpr_keeps n.lhs 0).of_eq h₁
  have K₂ := (tcheckExpr_keeps n.rhs 0).of_eq h₂
  have e₁ : q₂.ann n.lhs.addr = q₁.ann n.lhs.addr := K₂.outside _ fun h' =>
    List.disjoint_of_nodup_append hn n.lhs.addr_mem_addrs h'
  rw [e₁, Al.mType, Option.some.injEq] at hl
  rw [Ar.mType, Option.some.injEq] at hr
  subst hl hr
  exact ⟨il, ir, hil, K₁.env ▸ hir, e₁ ▸ Al.mType, Ar.mType, hrule⟩

end Methods

theorem ideal_operand_numeric :
    (∀ (a : Addr) (op : BinaryOp) (lhs rhs : Expr) (d : Nat) (q q' : Checker),
      op ≠ .xBinaryEqEq → op ≠ .xBinaryNotEq → (a :: (lhs.addrs ++ rhs.addrs)).Nodup →
      tcheckExprBinaryOp (.mk a op lhs rhs) d q = (.ok (), q') →
      ∃ l r, (q'.ann lhs.addr).mType = some l ∧ (q'.ann rhs.addr).mType = some r ∧
        (l.isIdeal → numeric r) ∧ (r.isIdeal → numeric l)) ∧
    (∀ (n : Assign) (q q' : Checker), q.env.Declared → (n.lhs.addrs ++ n.rhs.addrs).Nodup →
      tcheckAssign n q = (.ok (), q') →
      ∃ l r, (q'.ann n.lhs.addr).mType = some l ∧ (q'.ann n.rhs.addr).mType = some r ∧
        (l.isIdeal → numeric r) ∧ (r.isIdeal → numeric l)) := by
  refine ⟨fun a op lhs rhs d q q' h₁ h₂ hn h => ?_, fun n q q' hd hn h => ?_⟩
  · obtain ⟨l, r, x, hl, hr, hrule⟩ := tcheckExprBinaryOp_rule hn h
    exact ⟨l, r, hl, hr, checkBinaryOperands_ideal (binaryRule_checks hrule).1 h₁ h₂⟩
  · obtain ⟨l, r, hil, hir, hl, hr, hrule⟩ := tcheckAssign_infer hn h
    exact ⟨l.1, r.1, hl, hr,
      assignRule_ideal hrule (infer_idealLike hd _ hil) (infer_idealLike hd _ hir)⟩

/-- `x : u32` in scope declares no type spelled `ideal`. -/
theorem declaring_u32_declared : (Checker.declaring "x" .keyU32).env.Declared where
  localVars v t h := by
    simp only [Checker.env_localVars, Checker.declaring] at h
    split at h <;> cases h
    rfl
  fields _ _ _ h := nomatch h

/-- `1 + 2`. -/
def onePlusTwo : ExprBinaryOp :=
  .mk 1 .xBinaryPlus (.other (.leaf 2 (.numLiteral "1"))) (.other (.leaf 3 (.numLiteral "2")))

/-- `x = 1`. -/
def xEqOne : Assign := ⟨1, ⟨"", 0⟩, .eq, .other (.leaf 2 (.ident "x")), .other (.leaf 3 (.numLiteral "1"))⟩

theorem onePlusTwo_xEqOne_numeric :
    (∃ l r, ((tcheckExprBinaryOp onePlusTwo 0 .empty).2.ann 2).mType = some l ∧
      ((tcheckExprBinaryOp onePlusTwo 0 .empty).2.ann 3).mType = some r ∧
      (l.isIdeal → numeric r) ∧ (r.isIdeal → numeric l)) ∧
    (∃ l r, ((tcheckAssign xEqOne (.declaring "x" .keyU32)).2.ann 2).mType = some l ∧
      ((tcheckAssign xEqOne (.declaring "x" .keyU32)).2.ann 3).mType = some r ∧
      (l.isIdeal → numeric r) ∧ (r.isIdeal → numeric l)) :=
  ⟨ideal_operand_numeric.1 1 .xBinaryPlus (.other (.leaf 2 (.numLiteral "1")))
      (.other (.leaf 3 (.numLiteral "2"))) 0 .empty (tcheckExprBinaryOp onePlusTwo 0 .empty).2
      (by decide) (by decide) (by decide) rfl,
    ideal_operand_numeric.2 xEqOne _ (tcheckAssign xEqOne (.declaring "x" .keyU32)).2
      declaring_u32_declared (by decide) rfl⟩

/-- `true == 1`. -/
def trueEqEqOne : ExprBinaryOp :=
  .mk 1 .xBinaryEqEq (.other (.leaf 2 .keyTrue)) (.other (.leaf 3 (.numLiteral "1")))

/-- `==` accepts a bool beside an ideal constant. -/
theorem trueEqEqOne_accepted :
    (tcheckExprBinaryOp trueEqEqOne 0 .empty).1 = .ok () ∧
      ((tcheckExprBinaryOp trueEqEqOne 0 .empty).2.ann 2).mType = some .bool ∧
      ((tcheckExprBinaryOp trueEqEqOne 0 .empty).2.ann 3).mType = some .ideal :=
  ⟨rfl, rfl, rfl⟩

/-- `b and true`. -/
def bAndTrue : Expr :=
  .binaryOp (.mk 1 .xBinaryAnd (.other (.leaf 2 (.ident "b"))) (.other (.leaf 3 .keyTrue)))

/-- `!b`. -/
def notB : Expr := .unaryOp (.mk 1 .xUnaryNot (.other (.leaf 2 (.ident "b"))))

/-- A local `b : bool` is rejected by `and`, but accepted by `!` and as an `if`, `while` or
`assert` condition. -/
theorem boolVar_and_rejected :
    (tcheckExpr bAndTrue 0 (.declaring "b" .keyBool)).1 = .error (.binaryNotBool .xBinaryAnd
        (.other (.leaf 2 (.ident "b"))) (.node (.named 0 .zero .keyBool none none))) ∧
      (tcheckExpr notB 0 (.declaring "b" .keyBool)).1 = .ok () ∧
      (tcheckIfCondition (.mk 1 ⟨"", 0⟩ (.other (.leaf 2 (.ident "b"))) none [] [])
        (.declaring "b" .keyBool)).1 = .ok () ∧
      (tcheckWhileHead (.mk 1 ⟨"", 0⟩ .zero (.other (.leaf 2 (.ident "b"))) [] [])
        (.declaring "b" .keyBool)).1 = .ok () ∧
      (tcheckAssert ⟨1, ⟨"", 0⟩, .other (.leaf 2 (.ident "b")), []⟩
        (.declaring "b" .keyBool)).1 = .ok () :=
  ⟨rfl, rfl, rfl, rfl, rfl⟩

/-- `x <<= 8`. -/
def xShiftLEqEight : Assign :=
  ⟨1, ⟨"", 0⟩, .shiftLEq, .other (.leaf 2 (.ident "x")), .other (.leaf 3 (.numLiteral "8"))⟩

/-- `x = x << 8`. -/
def xEqXShiftLEight : Assign :=
  ⟨1, ⟨"", 0⟩, .eq, .other (.leaf 2 (.ident "x")),
    .binaryOp (.mk 3 .xBinaryShiftL (.other (.leaf 4 (.ident "x"))) (.other (.leaf 5 (.numLiteral "8"))))⟩

/-- For `x : u32`, `x <<= 8` is rejected and `x = x << 8` accepted. -/
theorem shiftAssign_ideal_rejected :
    (tcheckAssign xShiftLEqEight (.declaring "x" .keyU32)).1 =
        .error (.shiftNotNumeric .shiftLEq (.other (.leaf 3 (.numLiteral "8"))) .ideal) ∧
      (tcheckAssign xEqXShiftLEight (.declaring "x" .keyU32)).1 = .ok () :=
  ⟨rfl, rfl⟩

end Puffs
