import Puffs.Writes
/-!
# The checker as a function

Checking an expression gives its root a type and perhaps a constant, computed by the typing
rules from those of the operands. `infer` is that computation with the annotations left out:
a function of the expression and of the names in scope. It says what the type checker is for;
it does not decide acceptance (depth limits, the arguments of `low_bits` and the type
expression of `as` are checked by the methods only).

`tcheckExpr_infers` connects the two levels: a successful check of a tree whose nodes have
distinct addresses leaves on its root the type `infer` gives, and the constant as well when the
tree carried no annotations before. A rule's verdict and type do not depend on the operands'
constants, which only feed the folding (`unaryRule_ok`, `binaryRule_ok`).
-/
namespace Puffs

open CheckM

/-- What an expression's check reads besides annotations: the names in scope. -/
structure Env where
  localVars : ID → Option TypeExpr
  func : Option Func
  structs : ID → Option Struct

/-- The names in scope of a checker. -/
def Checker.env (q : Checker) : Env := ⟨q.localVars, q.func, q.structs⟩

mutual
/-- The type and constant of an expression, where checking gives it one. -/
def infer (env : Env) : Expr → Option (MType × Option Int)
  | .other n => inferOther env n
  | .unaryOp (.mk _ op rhs) => (infer env rhs).bind fun r => (unaryRule op rhs r.1 r.2).toOption
  | .binaryOp n => inferBinaryOp env n
  | .associativeOp _ => none

def inferOther (env : Env) : ExprOther → Option (MType × Option Int)
  | .leaf _ id1 => (leafRule env.localVars id1).toOption
  | .call _ impure suspendible lhs args =>
    if isInSrcReadU8 lhs && suspendible && args.isEmpty then (infer env lhs).map fun _ => (.u8, none)
    else if isLowBits lhs && !impure && args.length == 1 then
      match lhs with
      | .other (.dot (.mk _ foo _)) => (infer env foo).map fun r => (r.1, none)
      | _ => none
    else none
  | .index .. | .slice .. => none
  | .dot (.mk a lhs id1) =>
    (infer env lhs).bind fun r => (dotRule env.func env.structs a lhs r.1 id1).toOption.map (·, none)

def inferBinaryOp (env : Env) : ExprBinaryOp → Option (MType × Option Int)
  | .as _ lhs rhs => (infer env lhs).bind fun r => (asRule lhs r.1 rhs).toOption.map (·, none)
  | .mk a op lhs rhs => (infer env lhs).bind fun l => (infer env rhs).bind fun r =>
    (binaryRule a op lhs rhs l.1 r.1 l.2 r.2).toOption
end

section Equations

variable {env : Env} {a : Addr}

@[simp] theorem infer_leaf (id1 : ID) :
    infer env (.other (.leaf a id1)) = (leafRule env.localVars id1).toOption := rfl
@[simp] theorem infer_index (lhs rhs : Expr) : infer env (.other (.index a lhs rhs)) = none := rfl
@[simp] theorem infer_slice (lhs : Expr) (mhs rhs : Option Expr) :
    infer env (.other (.slice a lhs mhs rhs)) = none := rfl
@[simp] theorem infer_dot (lhs : Expr) (id1 : ID) :
    infer env (.other (.dot (.mk a lhs id1))) =
      (infer env lhs).bind fun r =>
        (dotRule env.func env.structs a lhs r.1 id1).toOption.map (·, none) :=
  rfl
@[simp] theorem infer_unaryOp (op : UnaryOp) (rhs : Expr) :
    infer env (.unaryOp (.mk a op rhs)) =
      (infer env rhs).bind fun r => (unaryRule op rhs r.1 r.2).toOption := rfl
@[simp] theorem infer_as (lhs : Expr) (rhs : TypeExpr) :
    infer env (.binaryOp (.as a lhs rhs)) =
      (infer env lhs).bind fun r => (asRule lhs r.1 rhs).toOption.map (·, none) := rfl
@[simp] theorem infer_binaryOp (op : BinaryOp) (lhs rhs : Expr) :
    infer env (.binaryOp (.mk a op lhs rhs)) = (infer env lhs).bind fun l =>
      (infer env rhs).bind fun r => (binaryRule a op lhs rhs l.1 r.1 l.2 r.2).toOption := rfl
@[simp] theorem infer_associativeOp (n : ExprAssociativeOp) : infer env (.associativeOp n) = none :=
  rfl

/-- The two calls the checker knows give a type and never a constant. -/
theorem infer_call {i s : Bool} {lhs : Expr} {args : List Arg} {r : MType × Option Int}
    (h : infer env (.other (.call a i s lhs args)) = some r) :
    r.2 = none ∧ (r.1 = .u8 ∨ isLowBits lhs) := by
  simp only [infer] at h
  unfold inferOther at h
  split at h
  · obtain ⟨_, -, rfl⟩ := Option.map_eq_some'.mp h
    exact ⟨rfl, .inl rfl⟩
  split at h
  · split at h
    · obtain ⟨_, -, rfl⟩ := Option.map_eq_some'.mp h
      exact ⟨rfl, .inr (by simp_all)⟩
    · cases h
  · cases h

/-- A call whose callee is a selector `foo.id1`: `read_u8` gives `u8`, `low_bits` the type
of `foo`. -/
theorem infer_call_dot {i s : Bool} {la : Addr} {foo : Expr} {id1 : ID} {args : List Arg}
    {r : MType × Option Int} (h : infer env (.other (.call a i s (.other (.dot (.mk la foo id1))) args)) = some r) :
    r.1 = .u8 ∨ ∃ r', infer env foo = some r' ∧ r.1 = r'.1 := by
  simp only [infer] at h
  unfold inferOther at h
  split at h
  · obtain ⟨_, -, rfl⟩ := Option.map_eq_some'.mp h
    exact .inl rfl
  split at h
  · obtain ⟨r', hr', rfl⟩ := Option.map_eq_some'.mp h
    exact .inr ⟨r', hr', rfl⟩
  · cases h

end Equations

@[simp] theorem toOption_eq_some {ε α : Type} {r : Except ε α} {x : α} :
    r.toOption = some x ↔ r = .ok x := by
  cases r <;> simp [Except.toOption]

@[simp] theorem Checker.env_localVars (q : Checker) : q.env.localVars = q.localVars := rfl
@[simp] theorem Checker.env_func (q : Checker) : q.env.func = q.func := rfl
@[simp] theorem Checker.env_structs (q : Checker) : q.env.structs = q.structs := rfl

theorem AnnFrame.env {A : List Addr} {q q' : Checker} (h : AnnFrame A q q') : q'.env = q.env := by
  rw [Checker.env, Checker.env, h.localVars, h.func, h.structs]

/-- The constant `unaryRule` gives for an operand's constant `cv`. -/
def unaryConst (op : UnaryOp) (cv : Int) : Int :=
  match op with
  | .xUnaryPlus => cv
  | .xUnaryMinus => -cv
  | .xUnaryNot => btoi (cv == 0)

theorem unaryRule_ok {op : UnaryOp} {rhs : Expr} {t t' : MType} {c c' : Option Int} :
    unaryRule op rhs t c = .ok (t', c') ↔ unaryRule op rhs t none = .ok (t', none) ∧
      c.map (unaryConst op) = c' := by
  cases op <;> simp only [unaryRule] <;> split <;> cases c <;> simp [unaryConst]

theorem binaryRule_ok {a : Addr} {op : BinaryOp} {lhs rhs : Expr} {l r t : MType}
    {cl cr c : Option Int} :
    binaryRule a op lhs rhs l r cl cr = .ok (t, c) ↔
      binaryRule a op lhs rhs l r none none = .ok (t, none) ∧
        foldBinaryOp a op lhs rhs cl cr = .ok c := by
  unfold binaryRule
  cases checkBinaryOperands op lhs rhs l r <;> cases checkBinaryCompatible op lhs rhs l r <;>
    cases h : foldBinaryOp a op lhs rhs cl cr <;>
    simp [bind, Except.bind, pure, Except.pure, foldBinaryOp, h]

/-- `i` is a constant `infer` finds, `c` one a checked node carries: every constant `infer`
finds is carried. -/
def ConstLE (i c : Option Int) : Prop := ∀ v, i = some v → c = some v

theorem foldBinaryOp_le {a : Addr} {op : BinaryOp} {lhs rhs : Expr} {il ir cl cr c : Option Int}
    (hl : ConstLE il cl) (hr : ConstLE ir cr) (h : foldBinaryOp a op lhs rhs cl cr = .ok c) :
    ∃ i, foldBinaryOp a op lhs rhs il ir = .ok i ∧ ConstLE i c := by
  rcases il with _ | x <;> rcases ir with _ | y
  all_goals first
    | exact ⟨none, rfl, fun _ h => nomatch h⟩
    | rw [hl x rfl, hr y rfl] at h; exact ⟨c, h, fun _ h => h⟩

theorem annotate_ok {a : Addr} {r : Except Err (MType × Option Int)} {q q' : Checker} {u : Unit}
    (h : annotate a r q = (.ok u, q')) :
    ∃ t c, r = .ok (t, c) ∧ (q'.ann a).mType = some t ∧
      (q'.ann a).constValue = c.or (q.ann a).constValue ∧ AnnFrame [a] q q' := by
  rcases r with e | ⟨t, c⟩
  · cases h
  refine ⟨t, c, rfl, ?_⟩
  have K : Keeps (annFrame [a]) (annotate a (.ok (t, c))) := keeps_annotate _
  replace K := K.of_eq h
  unfold annotate at h
  cases c <;> simp only [bind_eq_ok, whenSome_none, whenSome_some, pure_eq, setConstValue, setMType,
    update_apply, Prod.mk.injEq] at h
  all_goals obtain ⟨_, _, ⟨-, rfl⟩, -, rfl⟩ := h
  all_goals exact ⟨by simp, by simp, K⟩

/-- The annotation `x` a check leaves on a node agrees with `infer`'s result `r`: the type,
every constant `infer` finds, and all of the constant on a tree not annotated before. -/
structure Agrees (q : Checker) (A : List Addr) (x : Annot) (r : MType × Option Int) : Prop where
  mType : x.mType = some r.1
  const : ConstLE r.2 x.constValue
  fresh : Fresh q A → x.constValue = r.2

/-- Every successful run of `m` leaves on the root of `e` what `infer` gives `e`, in the
names in scope at the start. -/
def Infers (m : CheckM Unit) (e : Expr) : Prop :=
  ∀ q q', m q = (.ok (), q') → ∃ r, infer q.env e = some r ∧ Agrees q e.addrs (q'.ann e.addr) r

section Steps

variable {a : Addr} {d : Nat}

theorem Infers.leaf (id1 : ID) : Infers (tcheckExprOther (.leaf a id1) d) (.other (.leaf a id1)) := by
  intro q q' h
  simp only [tcheckExprOther, read_bind] at h
  obtain ⟨t, c, hrule, hm, hc, -⟩ := annotate_ok h
  refine ⟨(t, c), by simp [infer, inferOther, hrule, Except.toOption],
    by simpa using hm, fun v hv => ?_, fun hf => ?_⟩
  · simp only at hv
    simp [hc, hv]
  · simp [hc, hf.head]

theorem Infers.unaryOp {op : UnaryOp} {rhs : Expr} (ih : Infers (tcheckExpr rhs d) rhs) :
    Infers (tcheckExprUnaryOp (.mk a op rhs) d) (.unaryOp (.mk a op rhs)) := by
  intro q q' h
  unfold tcheckExprUnaryOp at h
  simp only [bind_eq_ok, mTypeOf_eq_ok, constValueOf, read_bind, and_assoc, exists_and_left,
    exists_eq_left] at h
  obtain ⟨_, q₁, h₁, t, ht, h₂⟩ := h
  obtain ⟨r, hr, A⟩ := ih q q₁ h₁
  obtain ⟨t', c', hrule, hm, hc, -⟩ := annotate_ok h₂
  have K₁ := (tcheckExpr_keeps rhs d).of_eq h₁
  rw [A.mType, Option.some.injEq] at ht
  subst ht
  obtain ⟨hrule₀, rfl⟩ := unaryRule_ok.mp hrule
  refine ⟨(t', r.2.map (unaryConst op)), ?_, hm, fun v hv => ?_, fun hf => ?_⟩
  · simp [infer, hr, unaryRule_ok.mpr ⟨hrule₀, rfl⟩, Except.toOption]
  · obtain ⟨w, hw, rfl⟩ := Option.map_eq_some'.mp hv
    simp [hc, A.const w hw]
  · simp [hc, A.fresh hf.tail, hf.head_after K₁]

theorem Infers.dot {lhs : Expr} {id1 : ID} (ih : Infers (tcheckExpr lhs d) lhs) :
    Infers (tcheckDot (.mk a lhs id1) d) (.other (.dot (.mk a lhs id1))) := by
  intro q q' h
  unfold tcheckDot at h
  simp only [bind_eq_ok, read_bind, mTypeOf_eq_ok, ofExcept_apply, setMType, update_apply,
    Prod.mk.injEq, and_assoc, exists_and_left, exists_eq_left] at h
  obtain ⟨_, q₁, h₁, lTyp, hl, t, hdot, _, rfl, -, rfl⟩ := h
  obtain ⟨r, hr, A⟩ := ih q q₁ h₁
  have K₁ := (tcheckExpr_keeps lhs d).of_eq h₁
  rw [A.mType, Option.some.injEq] at hl
  subst hl
  rw [K₁.func, K₁.structs] at hdot
  refine ⟨(t, none), ?_, by simp, (fun _ h => nomatch h), fun hf => by simp [hf.head_after K₁]⟩
  simp [infer, inferOther, hr, hdot, Except.toOption]

theorem Infers.readU8 {i s : Bool} {lhs : Expr} {args : List Arg}
    (hr : isInSrcReadU8 lhs && s && args.isEmpty) (ih : Infers (tcheckExpr lhs d) lhs) :
    Infers (tcheckExprOther (.call a i s lhs args) d) (.other (.call a i s lhs args)) := by
  intro q q' h
  unfold tcheckExprOther at h
  rw [if_pos hr] at h
  simp only [bind_eq_ok, setMType, update_apply, Prod.mk.injEq] at h
  obtain ⟨_, q₁, h₁, -, rfl⟩ := h
  obtain ⟨r, hr', -⟩ := ih q q₁ h₁
  have K₁ := (tcheckExpr_keeps lhs d).of_eq h₁
  refine ⟨(.u8, none), ?_, by simp, (fun _ h => nomatch h), fun hf => ?_⟩
  · simp only [infer]
    unfold inferOther
    simp [hr, hr']
  · simp [hf.head_after (K₁.mono (List.subset_append_left _ _))]

theorem Infers.lowBits {i s : Bool} {la : Addr} {foo : Expr} {id1 : ID} {args : List Arg}
    (hn : (a :: (la :: foo.addrs ++ Arg.addrsList args)).Nodup)
    (hr : ¬(isInSrcReadU8 (.other (.dot (.mk la foo id1))) && s && args.isEmpty))
    (ih : Infers (tcheckExpr foo d) foo) :
    Infers (tcheckExprOther (.call a i s (.other (.dot (.mk la foo id1))) args) d)
      (.other (.call a i s (.other (.dot (.mk la foo id1))) args)) := by
  intro q q' h
  unfold tcheckExprOther at h
  rw [if_neg hr] at h
  split at h
  · rename_i hlb
    simp only [bind_eq_ok, read_bind, setTypeChecked, setMType, update_bind, update_apply,
      Prod.mk.injEq] at h
    obtain ⟨_, q₁, h₁, _, q₄, h₄, -, rfl⟩ := h
    obtain ⟨hna, hn'⟩ := List.nodup_cons.mp hn
    obtain ⟨r, hr', A⟩ := ih q q₁ h₁
    have K₁ := (tcheckExpr_keeps foo d).of_eq h₁
    have K₄ := (tcheckArgs_keeps args d).of_eq h₄
    have hla : la ≠ foo.addr := fun e => (List.nodup_cons.mp (List.nodup_append.mp hn').1).1
      (e ▸ foo.addr_mem_addrs)
    have hfa : foo.addr ∉ Arg.addrsList args := fun h' =>
      List.disjoint_of_nodup_append hn' (List.mem_cons_of_mem _ foo.addr_mem_addrs) h'
    have hm : (q₄.ann foo.addr).mType = some r.1 := by
      rw [K₄.outside _ hfa]; simp [Ne.symm hla, A.mType]
    refine ⟨(r.1, none), ?_, by simp [hm], (fun _ h => nomatch h), fun hf => ?_⟩
    · simp only [infer, inferOther, if_neg hr, if_pos hlb, hr']
      rfl
    · have ha : a ∉ Arg.addrsList args := fun h' => hna (List.mem_append_right _ h')
      have ha' : a ≠ la := fun e => hna (e ▸ List.mem_append_left _ (List.mem_cons_self _ _))
      have ha'' : a ∉ foo.addrs := fun h' =>
        hna (List.mem_append_left _ (List.mem_cons_of_mem _ h'))
      simp [K₄.outside _ ha, ha', K₁.outside _ ha'', hf.head]
  · cases h

/-- A call whose callee is neither hack is never accepted. -/
theorem Infers.call_of_not_lowBits {i s : Bool} {lhs : Expr} {args : List Arg}
    (hr : ¬(isInSrcReadU8 lhs && s && args.isEmpty)) (hl : isLowBits lhs = false) :
    Infers (tcheckExprOther (.call a i s lhs args) d) (.other (.call a i s lhs args)) := by
  intro q q' h
  unfold tcheckExprOther at h
  rw [if_neg hr, if_neg (by simp [hl])] at h
  cases h

theorem Infers.as {lhs : Expr} {rhs : TypeExpr} (ih : Infers (tcheckExpr lhs d) lhs) :
    Infers (tcheckExprBinaryOp (.as a lhs rhs) d) (.binaryOp (.as a lhs rhs)) := by
  intro q q' h
  unfold tcheckExprBinaryOp at h
  simp only [bind_eq_ok, mTypeOf_eq_ok, ofExcept_apply, setMType, update_apply, Prod.mk.injEq,
    and_assoc, exists_and_left, exists_eq_left] at h
  obtain ⟨_, q₁, h₁, lTyp, hl, _, q₂, h₂, t, has, _, rfl, -, rfl⟩ := h
  obtain ⟨r, hr, A⟩ := ih q q₁ h₁
  have K₁ := (tcheckExpr_keeps lhs d).of_eq h₁
  have K₂ := (tcheckTypeExpr_keeps rhs 0).of_eq h₂
  rw [A.mType, Option.some.injEq] at hl
  subst hl
  refine ⟨(t, none), by simp [infer, inferBinaryOp, hr, has, Except.toOption], by simp,
    (fun _ h => nomatch h), fun hf => ?_⟩
  simp [hf.head_after ((K₁.mono (List.subset_append_left _ _)).trans
    (K₂.mono (List.subset_append_right _ _)))]

theorem Infers.binaryOp {op : BinaryOp} {lhs rhs : Expr}
    (hn : (a :: (lhs.addrs ++ rhs.addrs)).Nodup) (ihl : Infers (tcheckExpr lhs d) lhs)
    (ihr : Infers (tcheckExpr rhs d) rhs) :
    Infers (tcheckExprBinaryOp (.mk a op lhs rhs) d) (.binaryOp (.mk a op lhs rhs)) := by
  intro q q' h
  unfold tcheckExprBinaryOp at h
  simp only [bind_eq_ok, mTypeOf_eq_ok, constValueOf, read_bind, and_assoc, exists_and_left,
    exists_eq_left] at h
  obtain ⟨_, q₁, h₁, l, hl, _, q₂, h₂, r, hr, h₃⟩ := h
  obtain ⟨il, hil, Al⟩ := ihl q q₁ h₁
  obtain ⟨ir, hir, Ar⟩ := ihr q₁ q₂ h₂
  obtain ⟨t, c, hrule, hm, hc, -⟩ := annotate_ok h₃
  have K₁ := (tcheckExpr_keeps lhs d).of_eq h₁
  have K₂ := (tcheckExpr_keeps rhs d).of_eq h₂
  have hlr : lhs.addr ∉ rhs.addrs := fun h' =>
    List.disjoint_of_nodup_append (List.nodup_cons.mp hn).2 lhs.addr_mem_addrs h'
  have hl₂ : q₂.ann lhs.addr = q₁.ann lhs.addr := K₂.outside _ hlr
  rw [K₁.env] at hir
  rw [Al.mType, Option.some.injEq] at hl
  rw [Ar.mType, Option.some.injEq] at hr
  subst hl hr
  obtain ⟨hrule₀, hfold⟩ := binaryRule_ok.mp hrule
  obtain ⟨i, hi, hle⟩ := foldBinaryOp_le (hl₂ ▸ Al.const) Ar.const hfold
  refine ⟨(t, i), ?_, by simpa using hm, fun v hv => ?_, fun hf => ?_⟩
  · simp [infer, inferBinaryOp, hil, hir, binaryRule_ok.mpr ⟨hrule₀, hi⟩, Except.toOption]
  · simp [hc, hle v hv]
  · rw [hl₂, Al.fresh hf.tail.left, Ar.fresh (hf.tail.after K₁)] at hfold
    obtain rfl : c = i := by simpa [hfold] using hi
    simp [hc, hf.head_after ((K₁.mono (List.subset_append_left _ _)).trans
      (K₂.mono (List.subset_append_right _ _)))]

end Steps

mutual
theorem tcheckExpr_infers (n : Expr) (hn : n.addrs.Nodup) (d : Nat) : Infers (tcheckExpr n d) n := by
  intro q q' h
  unfold tcheckExpr at h
  simp only [bind_eq_ok, require_eq_ok, setTypeChecked, update_apply, Prod.mk.injEq, and_assoc,
    exists_and_left, exists_eq_left] at h
  obtain ⟨_, -, _, q₁, h₁, -, rfl⟩ := h
  have : ∃ r, infer q.env n = some r ∧ Agrees q n.addrs (q₁.ann n.addr) r := by
    match n with
    | .other o => exact tcheckExprOther_infers o hn _ q q₁ h₁
    | .unaryOp (.mk a op rhs) =>
      exact Infers.unaryOp (tcheckExpr_infers rhs (List.nodup_cons.mp hn).2 _) q q₁ h₁
    | .binaryOp b => exact tcheckExprBinaryOp_infers b hn _ q q₁ h₁
    | .associativeOp (.mk _ _ _) => cases h₁
  obtain ⟨r, hr, A⟩ := this
  exact ⟨r, hr, by simpa using A.mType, by simpa using A.const, by simpa using A.fresh⟩

theorem tcheckExprOther_infers (n : ExprOther) (hn : n.addrs.Nodup) (d : Nat) :
    Infers (tcheckExprOther n d) (.other n) := by
  match n with
  | .leaf a id1 => exact Infers.leaf id1
  | .call a i s lhs args =>
    by_cases hr : isInSrcReadU8 lhs && s && args.isEmpty
    · exact Infers.readU8 hr (tcheckExpr_infers lhs
        (hn.sublist ((List.sublist_append_left _ _).cons _)) d)
    match lhs with
    | .other (.dot (.mk la foo id)) =>
      exact Infers.lowBits hn hr (tcheckExpr_infers foo (hn.sublist
        (((List.sublist_cons_self la _).trans (List.sublist_append_left _ _)).cons _)) d)
    | .other (.leaf ..) | .other (.call ..) | .other (.index ..) | .other (.slice ..) | .unaryOp _
    | .binaryOp _ | .associativeOp _ => exact Infers.call_of_not_lowBits hr rfl
  | .index .. | .slice .. => intro q q' h; cases h
  | .dot (.mk a lhs id1) => exact Infers.dot (tcheckExpr_infers lhs (List.nodup_cons.mp hn).2 d)

theorem tcheckExprBinaryOp_infers (n : ExprBinaryOp) (hn : n.addrs.Nodup) (d : Nat) :
    Infers (tcheckExprBinaryOp n d) (.binaryOp n) := by
  match n with
  | .as a lhs rhs =>
    exact Infers.as (tcheckExpr_infers lhs (hn.sublist ((List.sublist_append_left _ _).cons _)) d)
  | .mk a op lhs rhs =>
    exact Infers.binaryOp hn
      (tcheckExpr_infers lhs (hn.sublist ((List.sublist_append_left _ _).cons _)) d)
      (tcheckExpr_infers rhs (hn.sublist ((List.sublist_append_right _ _).cons _)) d)
end

/-- The checker refines `infer`: on a tree whose nodes have distinct addresses, every
successful check of `e`, from any depth and any state, leaves on its root the type `infer`
gives `e` under the names in scope at the start, every constant `infer` finds, and exactly
`infer`'s constant when the tree carried no annotations before. -/
theorem tcheckExpr_refines_infer (e : Expr) (d : Nat) (q q' : Checker) (hn : e.addrs.Nodup)
    (h : tcheckExpr e d q = (.ok (), q')) :
    ∃ r, infer q.env e = some r ∧ Agrees q e.addrs (q'.ann e.addr) r :=
  tcheckExpr_infers e hn d q q' h

/-- `x + 1`. -/
def xPlusOne : Expr :=
  .binaryOp (.mk 1 .xBinaryPlus (.other (.leaf 2 (.ident "x"))) (.other (.leaf 3 (.numLiteral "1"))))

/-- `x + 1` with `x` a `u32`: the check succeeds and agrees with `infer`. -/
theorem xPlusOne_refines :
    ∃ r, infer (Checker.declaring "x" .keyU32).env xPlusOne = some r ∧
      Agrees (Checker.declaring "x" .keyU32) xPlusOne.addrs
        ((tcheckExpr xPlusOne 0 (Checker.declaring "x" .keyU32)).2.ann xPlusOne.addr) r :=
  tcheckExpr_refines_infer xPlusOne 0 _ _ (by decide) rfl

end Puffs
