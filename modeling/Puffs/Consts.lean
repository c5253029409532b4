import Puffs.Infer
/-!
# Constant folding

The checker gives a constant to every expression built from literals, `false`, `true` and the
unary and binary operators, and to no other. `denote` is the meaning the spec gives such an
expression, with the quotient of `/` as a parameter: the spec rounds it toward zero
(`Int.tdiv`); `big.Int.Div`, which the source calls, is Euclidean (`/` on `Int`). With the
Euclidean quotient, every constant `infer` finds is the expression's meaning
(`infer_folds`), and so is every constant a check leaves on a fresh tree.

Types and constants go together: an ideal expression has a constant unless a `low_bits` call,
which takes its receiver's type and no constant, sits below it; a constant expression is ideal
or bool.
-/
namespace Puffs

/-- The spec's unary operators on constants. -/
def refUnary : UnaryOp → Int → Int
  | .xUnaryPlus, x => x
  | .xUnaryMinus, x => -x
  | .xUnaryNot, x => if x = 0 then 1 else 0

/-- The spec's binary operators on constants; `div` is the quotient of `/`. A shift by a
negative count has no meaning. -/
def refBinary (div : Int → Int → Int) : BinaryOp → Int → Int → Option Int
  | .xBinaryPlus, x, y => some (x + y)
  | .xBinaryMinus, x, y => some (x - y)
  | .xBinaryStar, x, y => some (x * y)
  | .xBinarySlash, x, y => if y = 0 then none else some (div x y)
  | .xBinaryShiftL, x, r => if r < 0 then none else some (x * 2 ^ r.toNat)
  | .xBinaryShiftR, x, r => if r < 0 then none else some (Int.fdiv x (2 ^ r.toNat))
  | .xBinaryAmp, x, y => some (Int.land x y)
  | .xBinaryAmpHat, x, y => some (Int.ldiff x y)
  | .xBinaryPipe, x, y => some (Int.lor x y)
  | .xBinaryHat, x, y => some (Int.xor x y)
  | .xBinaryNotEq, x, y => some (if x ≠ y then 1 else 0)
  | .xBinaryLessThan, x, y => some (if x < y then 1 else 0)
  | .xBinaryLessEq, x, y => some (if x ≤ y then 1 else 0)
  | .xBinaryEqEq, x, y => some (if x = y then 1 else 0)
  | .xBinaryGreaterEq, x, y => some (if x ≥ y then 1 else 0)
  | .xBinaryGreaterThan, x, y => some (if x > y then 1 else 0)
  | .xBinaryAnd, x, y => some (if x ≠ 0 ∧ y ≠ 0 then 1 else 0)
  | .xBinaryOr, x, y => some (if x ≠ 0 ∨ y ≠ 0 then 1 else 0)

/-- The spec's `[[e]]`: the integer a constant expression denotes. -/
def denote (div : Int → Int → Int) : Expr → Option Int
  | .other (.leaf _ id1) =>
    if id1.isNumLiteral then setString id1.text
    else if id1 == .keyFalse then some 0
    else if id1 == .keyTrue then some 1
    else none
  | .unaryOp (.mk _ op rhs) => (denote div rhs).map (refUnary op)
  | .binaryOp (.mk _ op lhs rhs) =>
    (denote div lhs).bind fun x => (denote div rhs).bind fun y => refBinary div op x y
  | _ => none

@[simp] theorem denote_leaf (div : Int → Int → Int) (a : Addr) (id1 : ID) :
    denote div (.other (.leaf a id1)) =
      if id1.isNumLiteral then setString id1.text
      else if id1 == .keyFalse then some 0
      else if id1 == .keyTrue then some 1
      else none := rfl

@[simp] theorem denote_unaryOp (div : Int → Int → Int) (a : Addr) (op : UnaryOp) (rhs : Expr) :
    denote div (.unaryOp (.mk a op rhs)) = (denote div rhs).map (refUnary op) := rfl

@[simp] theorem denote_binaryOp (div : Int → Int → Int) (a : Addr) (op : BinaryOp) (lhs rhs : Expr) :
    denote div (.binaryOp (.mk a op lhs rhs)) =
      (denote div lhs).bind fun x => (denote div rhs).bind fun y => refBinary div op x y := rfl

/-- Built from literals, `false`, `true` and unary and binary operators other than `as`. -/
def Expr.isConstShape : Expr → Bool
  | .other (.leaf _ id1) => id1.isNumLiteral || id1 == .keyFalse || id1 == .keyTrue
  | .unaryOp (.mk _ _ rhs) => rhs.isConstShape
  | .binaryOp (.mk _ _ lhs rhs) => lhs.isConstShape && rhs.isConstShape
  | _ => false

@[simp] theorem Expr.isConstShape_leaf (a : Addr) (id1 : ID) :
    (Expr.other (.leaf a id1)).isConstShape = (id1.isNumLiteral || id1 == .keyFalse || id1 == .keyTrue) :=
  rfl

@[simp] theorem Expr.isConstShape_binaryOp (a : Addr) (op : BinaryOp) (lhs rhs : Expr) :
    (Expr.binaryOp (.mk a op lhs rhs)).isConstShape = (lhs.isConstShape && rhs.isConstShape) := rfl

/-- A call matched by `isLowBits`. -/
def Expr.isLowBitsCall : Expr → Bool
  | .other (.call _ _ _ lhs _) => isLowBits lhs
  | _ => false

/-- `e` or an expression below it is a `low_bits` call. -/
def Expr.hasLowBitsCall (e : Expr) : Bool := e.subexprs.any Expr.isLowBitsCall

@[simp] theorem hasLowBitsCall_unaryOp (a : Addr) (op : UnaryOp) (rhs : Expr) :
    (Expr.unaryOp (.mk a op rhs)).hasLowBitsCall = rhs.hasLowBitsCall := by
  simp [Expr.hasLowBitsCall, Expr.subexprs, ExprUnaryOp.subexprs, Expr.isLowBitsCall]

@[simp] theorem hasLowBitsCall_binaryOp (a : Addr) (op : BinaryOp) (lhs rhs : Expr) :
    (Expr.binaryOp (.mk a op lhs rhs)).hasLowBitsCall =
      (lhs.hasLowBitsCall || rhs.hasLowBitsCall) := by
  simp [Expr.hasLowBitsCall, Expr.subexprs, ExprBinaryOp.subexprs, Expr.isLowBitsCall]

theorem hasLowBitsCall_call {a : Addr} {i s : Bool} {lhs : Expr} {args : List Arg}
    (h : isLowBits lhs) : (Expr.other (.call a i s lhs args)).hasLowBitsCall := by
  simp [Expr.hasLowBitsCall, Expr.subexprs, Expr.isLowBitsCall, h]

theorem unaryConst_eq_refUnary (op : UnaryOp) : unaryConst op = refUnary op := by
  funext x
  cases op <;> simp [unaryConst, refUnary, btoi]

/-- `setConstValueBinaryOp` computes the spec's operator, with the Euclidean quotient. -/
theorem constValueBinaryOp_sound {a : Addr} {op : BinaryOp} {lhs rhs : Expr} {l r v : Int}
    (h : constValueBinaryOp a op lhs rhs l r = .ok v) : refBinary (· / ·) op l r = some v := by
  cases op <;> simp only [constValueBinaryOp, refBinary, btoi] at h ⊢
  all_goals first
    | (injection h with h; subst h; simp)
    | (split at h
       · cases h
       · injection h with h; subst h
         simp_all)
    | (split at h
       · cases h
       · injection h with h; subst h
         have h2 : (2 : Int) ^ r.toNat = ((2 ^ r.toNat : Nat) : Int) := (Int.natCast_pow 2 _).symm
         rw [if_neg (by omega), h2, Int.fdiv_eq_ediv _ (Int.ofNat_nonneg _),
           Int.shiftRight_eq_div_pow])

theorem foldBinaryOp_eq_some {a : Addr} {op : BinaryOp} {lhs rhs : Expr} {cl cr : Option Int}
    {v : Int} : foldBinaryOp a op lhs rhs cl cr = .ok (some v) ↔
      ∃ x y, cl = some x ∧ cr = some y ∧ constValueBinaryOp a op lhs rhs x y = .ok v := by
  rcases cl with _ | x <;> rcases cr with _ | y <;>
    simp [foldBinaryOp, Functor.map, Except.map]
  cases constValueBinaryOp a op lhs rhs x y <;> simp

theorem foldBinaryOp_isSome {a : Addr} {op : BinaryOp} {lhs rhs : Expr} {x y : Int}
    {c : Option Int} (h : foldBinaryOp a op lhs rhs (some x) (some y) = .ok c) : c.isSome := by
  simp only [foldBinaryOp, Functor.map, Except.map] at h
  split at h <;> cases h
  rfl

theorem foldBinaryOp_none {a : Addr} {op : BinaryOp} {lhs rhs : Expr} {cl cr c : Option Int}
    (h : foldBinaryOp a op lhs rhs cl cr = .ok c) (hn : cl = none ∨ cr = none) : c = none := by
  rcases hn with rfl | rfl <;> [skip; rcases cl with _ | _] <;> simp [foldBinaryOp] at h <;>
    exact h.symm

theorem unaryRule_type {op : UnaryOp} {rhs : Expr} {t : MType} {c : Option Int}
    {r : MType × Option Int} (h : unaryRule op rhs t c = .ok r) : r.1 = t ∨ r.1 = .bool := by
  cases op <;> simp only [unaryRule] at h <;> split at h <;> cases h <;> simp

theorem binaryRule_type {a : Addr} {op : BinaryOp} {lhs rhs : Expr} {l r : MType}
    {cl cr : Option Int} {x : MType × Option Int} (h : binaryRule a op lhs rhs l r cl cr = .ok x) :
    x.1 = binaryResultType op l r := by
  simp only [binaryRule, bind, Except.bind, pure, Except.pure] at h
  split at h <;> [cases h; skip]
  split at h <;> [cases h; skip]
  split at h <;> cases h
  rfl

theorem binaryResultType_ideal {op : BinaryOp} {l r : MType}
    (h : binaryResultType op l r = .ideal) : l = .ideal ∧ r = .ideal := by
  unfold binaryResultType at h
  split at h
  · cases h
  split at h
  · subst h; simp [MType.isIdeal] at *
  · cases l <;> simp_all [MType.isIdeal]

theorem binaryResultType_const {op : BinaryOp} {l r : MType} (hl : l = .ideal ∨ l = .bool)
    (hr : r = .ideal ∨ r = .bool) :
    binaryResultType op l r = .ideal ∨ binaryResultType op l r = .bool := by
  unfold binaryResultType
  split
  · exact .inr rfl
  split
  · exact hl
  · exact hr

/-- What `infer` gives an expression `e`, as to constants: only the meaning of `e`, always one
when `e` is built from constants, always one when ideal unless a `low_bits` call is involved,
and only with an ideal or bool type. -/
structure Folds (e : Expr) (r : MType × Option Int) : Prop where
  sound : ∀ v, r.2 = some v → denote (· / ·) e = some v
  complete : e.isConstShape → r.2.isSome
  idealConst : r.1 = .ideal → r.2.isSome ∨ e.hasLowBitsCall
  constType : r.2.isSome → r.1 = .ideal ∨ r.1 = .bool

namespace Folds

variable {a : Addr} {e lhs rhs : Expr} {r r' l : MType × Option Int}

/-- A node with no constant, not built from constants, and not ideal but through `low_bits`. -/
theorem typed {t : MType} (hs : e.isConstShape = false) (ht : t = .ideal → e.hasLowBitsCall) :
    Folds e (t, none) :=
  ⟨(fun _ h => nomatch h), by simp [hs], fun h => .inr (ht h), (fun h => nomatch h)⟩

theorem leaf {lv : ID → Option TypeExpr} {id1 : ID} (h : leafRule lv id1 = .ok r) :
    Folds (.other (.leaf a id1)) r := by
  unfold leafRule at h
  split at h
  · split at h <;> cases h
    exact ⟨by simp_all, by simp, by simp, by simp⟩
  split at h
  · split at h <;> cases h
    have : id1 ≠ .keyFalse ∧ id1 ≠ .keyTrue := by
      constructor <;> rintro rfl <;> simp_all [ID.isIdent]
    exact typed (by simp_all) (fun h => nomatch h)
  split at h
  · cases h
    exact ⟨by simp_all, by simp, (fun h => nomatch h), by simp⟩
  split at h
  · cases h
    exact ⟨by simp_all, by simp, (fun h => nomatch h), by simp⟩
  · cases h

theorem unaryOp {op : UnaryOp} (F : Folds rhs r) (h : unaryRule op rhs r.1 r.2 = .ok r') :
    Folds (.unaryOp (.mk a op rhs)) r' := by
  obtain ⟨-, hc⟩ := unaryRule_ok.mp h
  have ht := unaryRule_type h
  rw [unaryConst_eq_refUnary] at hc
  refine ⟨fun v hv => ?_, fun hs => ?_, fun hi => ?_, fun hs => ?_⟩
  · obtain ⟨w, hw, rfl⟩ := Option.map_eq_some'.mp (hc.trans hv)
    simp [F.sound w hw]
  · simpa [← hc] using F.complete hs
  · rcases ht with ht | ht <;> rw [ht] at hi
    · simpa [← hc] using F.idealConst hi
    · cases hi
  · rcases ht with ht | ht <;> rw [ht]
    · exact F.constType (by simpa [← hc] using hs)
    · exact .inr rfl

theorem binaryOp {op : BinaryOp} (Fl : Folds lhs l) (Fr : Folds rhs r)
    (h : binaryRule a op lhs rhs l.1 r.1 l.2 r.2 = .ok r') :
    Folds (.binaryOp (.mk a op lhs rhs)) r' := by
  obtain ⟨-, hfold⟩ := binaryRule_ok.mp h
  have ht := binaryRule_type h
  refine ⟨fun v hv => ?_, fun hs => ?_, fun hi => ?_, fun hs => ?_⟩
  · obtain ⟨x, y, hx, hy, hv⟩ := foldBinaryOp_eq_some.mp (hv ▸ hfold)
    simp [Fl.sound x hx, Fr.sound y hy, constValueBinaryOp_sound hv]
  · simp only [Expr.isConstShape_binaryOp, Bool.and_eq_true] at hs
    obtain ⟨x, hx⟩ := Option.isSome_iff_exists.mp (Fl.complete hs.1)
    obtain ⟨y, hy⟩ := Option.isSome_iff_exists.mp (Fr.complete hs.2)
    rw [hx, hy] at hfold
    exact foldBinaryOp_isSome hfold
  · obtain ⟨hl, hr⟩ := binaryResultType_ideal (ht ▸ hi)
    rcases Fl.idealConst hl with hx | hx
    · rcases Fr.idealConst hr with hy | hy
      · obtain ⟨x, hx⟩ := Option.isSome_iff_exists.mp hx
        obtain ⟨y, hy⟩ := Option.isSome_iff_exists.mp hy
        rw [hx, hy] at hfold
        exact .inl (foldBinaryOp_isSome hfold)
      · exact .inr (by simp [hy])
    · exact .inr (by simp [hx])
  · have hb : l.2.isSome ∧ r.2.isSome := by
      rcases hx : l.2 with _ | x <;> rcases hy : r.2 with _ | y <;>
        simp only [Option.isSome_some, and_self]
      all_goals rw [foldBinaryOp_none hfold (by simp [hx, hy])] at hs; cases hs
    rw [ht]
    exact binaryResultType_const (Fl.constType hb.1) (Fr.constType hb.2)

end Folds

theorem dotRule_ne_ideal {func : Option Func} {structs : ID → Option Struct} {a : Addr}
    {lhs : Expr} {t t' : MType} {id1 : ID} (h : dotRule func structs a lhs t id1 = .ok t') :
    t' ≠ .ideal := by
  unfold dotRule at h
  repeat' split at h
  all_goals cases h
  all_goals nofun

theorem asRule_ne_ideal {lhs : Expr} {t t' : MType} {rhs : TypeExpr} (h : asRule lhs t rhs = .ok t') :
    t' ≠ .ideal := by
  unfold asRule at h
  split at h <;> cases h
  nofun

/-- Every result of the pure checker folds. -/
theorem infer_folds (env : Env) : (e : Expr) → ∀ {r}, infer env e = some r → Folds e r
  | .other (.leaf a id1), _, h => .leaf (by simpa using h)
  | .other (.call a i s lhs args), r, h => by
    obtain ⟨h2, ht⟩ := infer_call h
    rw [← Prod.mk.eta (p := r), h2]
    refine Folds.typed rfl fun hi => ?_
    rcases ht with ht | ht
    · rw [hi] at ht; cases ht
    · exact hasLowBitsCall_call ht
  | .other (.index ..), _, h => nomatch h
  | .other (.slice ..), _, h => nomatch h
  | .other (.dot (.mk a lhs id1)), _, h => by
    simp only [infer_dot, Option.bind_eq_some, Option.map_eq_some', toOption_eq_some] at h
    obtain ⟨r, -, t, hdot, rfl⟩ := h
    exact Folds.typed rfl fun hi => absurd hi (dotRule_ne_ideal hdot)
  | .unaryOp (.mk a op rhs), _, h => by
    simp only [infer_unaryOp, Option.bind_eq_some, toOption_eq_some] at h
    obtain ⟨r, hr, hrule⟩ := h
    exact .unaryOp (infer_folds env rhs hr) hrule
  | .binaryOp (.as a lhs rhs), _, h => by
    simp only [infer_as, Option.bind_eq_some, Option.map_eq_some', toOption_eq_some] at h
    obtain ⟨r, -, t, has, rfl⟩ := h
    exact Folds.typed rfl fun hi => absurd hi (asRule_ne_ideal has)
  | .binaryOp (.mk a op lhs rhs), _, h => by
    simp only [infer_binaryOp, Option.bind_eq_some, toOption_eq_some] at h
    obtain ⟨l, hl, r, hr, hrule⟩ := h
    exact .binaryOp (infer_folds env lhs hl) (infer_folds env rhs hr) hrule
  | .associativeOp _, _, h => nomatch h

/-- A successful check of a fresh tree leaves on its root a type and the constant of a result
that folds. -/
theorem tcheckExpr_folds {e : Expr} {d : Nat} {q q' : Checker} (hf : Fresh q e.addrs)
    (h : tcheckExpr e d q = (.ok (), q')) :
    ∃ t, (q'.ann e.addr).mType = some t ∧ Folds e (t, (q'.ann e.addr).constValue) := by
  obtain ⟨r, hr, A⟩ := tcheckExpr_infers e hf.nodup d q q' h
  exact ⟨r.1, A.mType, by simpa [A.fresh hf] using infer_folds q.env e hr⟩

theorem tcheckExpr_constValue_denote (e : Expr) (q q' : Checker) (hf : Fresh q e.addrs)
    (h : tcheckExpr e 0 q = (.ok (), q')) :
    (∀ v, (q'.ann e.addr).constValue = some v → denote (· / ·) e = some v) ∧
      (e.isConstShape → (q'.ann e.addr).constValue.isSome) := by
  obtain ⟨t, -, F⟩ := tcheckExpr_folds hf h
  exact ⟨F.sound, F.complete⟩

/-- `-7 / 2`. -/
def minusSevenSlashTwo : Expr :=
  .binaryOp (.mk 1 .xBinarySlash (.unaryOp (.mk 2 .xUnaryMinus (.other (.leaf 3 (.numLiteral "7")))))
    (.other (.leaf 4 (.numLiteral "2"))))

theorem minusSevenSlashTwo_denote : denote (· / ·) minusSevenSlashTwo = some (-4) :=
  (tcheckExpr_constValue_denote minusSevenSlashTwo .empty
    (tcheckExpr minusSevenSlashTwo 0 .empty).2 (Fresh.empty (by decide)) rfl).1 _ (by decide)

/-- The checker folds `-7 / 2` to `-4`, where the quotient rounded toward zero is `-3`. -/
theorem minusSevenSlashTwo_euclidean :
    (tcheckExpr minusSevenSlashTwo 0 .empty).1 = .ok () ∧
      ((tcheckExpr minusSevenSlashTwo 0 .empty).2.ann 1).constValue = some (-4) ∧
      denote Int.tdiv minusSevenSlashTwo = some (-3) :=
  ⟨rfl, by decide, by decide⟩

theorem tcheckExpr_ideal_const (e : Expr) (q q' : Checker) (hf : Fresh q e.addrs)
    (h : tcheckExpr e 0 q = (.ok (), q')) :
    ((q'.ann e.addr).mType = some .ideal →
        (q'.ann e.addr).constValue.isSome ∨ e.hasLowBitsCall) ∧
      ((q'.ann e.addr).constValue.isSome →
        (q'.ann e.addr).mType = some .ideal ∨ (q'.ann e.addr).mType = some .bool) := by
  obtain ⟨t, ht, F⟩ := tcheckExpr_folds hf h
  rw [ht]
  exact ⟨fun hi => F.idealConst (Option.some.inj hi), fun hc => by simpa using F.constType hc⟩

/-- `7.low_bits(n: 3)`. -/
def sevenLowBits : Expr :=
  .other (.call 1 false false (.other (.dot (.mk 2 (.other (.leaf 3 (.numLiteral "7"))) .keyLowBits)))
    [.mk 4 ⟨"", 0⟩ (.ident "n") (.other (.leaf 5 (.numLiteral "3")))])

theorem sevenLowBits_ideal_const :
    ((tcheckExpr sevenLowBits 0 .empty).2.ann 1).constValue.isSome ∨ sevenLowBits.hasLowBitsCall :=
  (tcheckExpr_ideal_const sevenLowBits .empty (tcheckExpr sevenLowBits 0 .empty).2
    (Fresh.empty (by decide)) rfl).1 rfl

/-- `7.low_bits(n: 3)` is accepted, ideal, and has no constant. -/
theorem sevenLowBits_ideal_without_const :
    (tcheckExpr sevenLowBits 0 .empty).1 = .ok () ∧
      ((tcheckExpr sevenLowBits 0 .empty).2.ann 1).mType = some .ideal ∧
      ((tcheckExpr sevenLowBits 0 .empty).2.ann 1).constValue = none :=
  ⟨rfl, rfl, rfl⟩

end Puffs
