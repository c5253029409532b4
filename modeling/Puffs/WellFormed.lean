import Puffs.Marks
/-!
# Well-formed annotations

An expression check gives a node its type as the last step of the node's own rule and marks
it right after, once its operands are checked and marked. So between two calls of the checker
every expression node of a fresh tree has a type exactly when it is marked, and a marked node
has marked operands. A tree is given by its expression nodes and the addresses of its other
nodes (arguments, type expressions, statements), all distinct (`Tree`). Inside one expression
check the node being checked is the only one out of that shape (`Settles`).
-/
namespace Puffs

open CheckM

mutual
/-- The nodes below and including an expression that are not expressions: arguments, and the
nodes of the type expression of an `as`. -/
def Expr.otherAddrs : Expr → List Addr
  | .other n => n.otherAddrs
  | .unaryOp n => n.otherAddrs
  | .binaryOp n => n.otherAddrs
  | .associativeOp n => n.otherAddrs

def ExprOther.otherAddrs : ExprOther → List Addr
  | .leaf _ _ => []
  | .call _ _ _ lhs args => lhs.otherAddrs ++ Arg.otherAddrsList args
  | .index _ lhs rhs => lhs.otherAddrs ++ rhs.otherAddrs
  | .slice _ lhs mhs rhs => lhs.otherAddrs ++ (Expr.otherAddrsOpt mhs ++ Expr.otherAddrsOpt rhs)
  | .dot n => n.otherAddrs

def ExprDot.otherAddrs : ExprDot → List Addr
  | .mk _ lhs _ => lhs.otherAddrs

def ExprUnaryOp.otherAddrs : ExprUnaryOp → List Addr
  | .mk _ _ rhs => rhs.otherAddrs

def ExprBinaryOp.otherAddrs : ExprBinaryOp → List Addr
  | .mk _ _ lhs rhs => lhs.otherAddrs ++ rhs.otherAddrs
  | .as _ lhs rhs => lhs.otherAddrs ++ rhs.otherAddrs

def ExprAssociativeOp.otherAddrs : ExprAssociativeOp → List Addr
  | .mk _ _ args => Expr.otherAddrsList args

def Arg.otherAddrsList : List Arg → List Addr
  | [] => []
  | .mk a _ _ value :: os => a :: (value.otherAddrs ++ Arg.otherAddrsList os)

def Expr.otherAddrsList : List Expr → List Addr
  | [] => []
  | e :: es => e.otherAddrs ++ Expr.otherAddrsList es

def Expr.otherAddrsOpt : Option Expr → List Addr
  | none => []
  | some e => e.otherAddrs

def TypeExpr.otherAddrs : TypeExpr → List Addr
  | .named a _ _ min max => a :: (Expr.otherAddrsOpt min ++ Expr.otherAddrsOpt max)
  | .ptr a inner => a :: inner.otherAddrs
  | .array a aLen inner => a :: (aLen.otherAddrs ++ inner.otherAddrs)
end

/-- The operands of an expression node: its `LHS`, `MHS` and `RHS` when they are expressions,
and the values of its `Arg` arguments. -/
def Expr.operands : Expr → List Expr
  | .other (.leaf _ _) => []
  | .other (.call _ _ _ lhs args) => lhs :: args.map Arg.value
  | .other (.index _ lhs rhs) => [lhs, rhs]
  | .other (.slice _ lhs mhs rhs) => lhs :: (mhs.toList ++ rhs.toList)
  | .other (.dot (.mk _ lhs _)) => [lhs]
  | .unaryOp (.mk _ _ rhs) => [rhs]
  | .binaryOp (.mk _ _ lhs rhs) => [lhs, rhs]
  | .binaryOp (.as _ lhs _) => [lhs]
  | .associativeOp _ => []

/-- `x` has a type exactly when it is marked, and is marked only over marked operands. -/
def WellFormed (q : Checker) (x : Expr) : Prop :=
  (q.ann x.addr).mType.isSome = (q.ann x.addr).typeChecked ∧
    ((q.ann x.addr).typeChecked → ∀ o ∈ x.operands, (q.ann o.addr).typeChecked)

/-- The nodes of a fresh tree: its expression nodes, and the addresses of its other nodes, all
distinct. -/
structure Tree where
  exprs : List Expr
  others : List Addr
  nodup : (exprs.map Expr.addr ++ others).Nodup

namespace Tree

variable (T : Tree)

/-- Nodes at the distinct addresses `A`, with expression nodes `X` and other nodes at `B`, of
the tree. -/
def Holds (A : List Addr) (X : List Expr) (B : List Addr) : Prop :=
  A.Nodup ∧ X ⊆ T.exprs ∧ B ⊆ T.others

/-- Every expression node of the tree is well formed. -/
def Inv (q : Checker) : Prop := ∀ x ∈ T.exprs, WellFormed q x

/-- A run that keeps the tree well formed. -/
def wfFrame : Frame where
  rel q q' := T.Inv q → T.Inv q'
  refl _ := id
  trans h₁ h₂ := h₂ ∘ h₁

variable {T}

/-- On a fresh tree a node is determined by its address. -/
theorem eq_of_addr {x z : Expr} (hx : x ∈ T.exprs) (hz : z ∈ T.exprs) (h : x.addr = z.addr) :
    x = z :=
  List.inj_on_of_nodup_map (T.nodup.sublist (List.sublist_append_left _ _)) hx hz h

theorem addr_ne_other {x : Expr} {b : Addr} (hx : x ∈ T.exprs) (hb : b ∈ T.others) :
    x.addr ≠ b :=
  fun h => List.disjoint_of_nodup_append T.nodup (List.mem_map_of_mem _ hx) (h ▸ hb)

theorem Holds.mono {A A' : List Addr} {X X' : List Expr} {B B' : List Addr} (h : T.Holds A X B)
    (hA : A'.Sublist A) (hX : X' ⊆ X) (hB : B' ⊆ B) : T.Holds A' X' B' :=
  ⟨h.1.sublist hA, hX.trans h.2.1, hB.trans h.2.2⟩

namespace Holds

variable {a : Addr} {x : Expr} {A A' : List Addr} {X X' : List Expr} {B B' : List Addr}

theorem left (h : T.Holds (A ++ A') (X ++ X') (B ++ B')) : T.Holds A X B :=
  h.mono (List.sublist_append_left _ _) (List.subset_append_left _ _) (List.subset_append_left _ _)

theorem right (h : T.Holds (A ++ A') (X ++ X') (B ++ B')) : T.Holds A' X' B' :=
  h.mono (List.sublist_append_right _ _) (List.subset_append_right _ _)
    (List.subset_append_right _ _)

/-- Below an expression node. -/
theorem below (h : T.Holds (a :: A) (x :: X) B) : T.Holds A X B :=
  h.mono (List.sublist_cons_self _ _) (List.subset_cons_self _ _) (List.Subset.refl _)

/-- Past a node that is not an expression. -/
theorem tail (h : T.Holds (a :: A) X (a :: B)) : T.Holds A X B :=
  h.mono (List.sublist_cons_self _ _) (List.Subset.refl _) (List.subset_cons_self _ _)

theorem head (h : T.Holds (a :: A) X (a :: B)) : a ∈ T.others := h.2.2 (List.mem_cons_self _ _)

end Holds

end Tree

section Invariant

variable {T : Tree} {q q' : Checker} {x : Expr}

theorem WellFormed.of_ann (h : q'.ann x.addr = q.ann x.addr)
    (hm : ∀ b, (q.ann b).typeChecked → (q'.ann b).typeChecked) (hw : WellFormed q x) :
    WellFormed q' x :=
  ⟨by rw [h]; exact hw.1, fun hc o ho => hm _ (hw.2 (h ▸ hc) o ho)⟩

theorem Tree.Inv.typed (hq : T.Inv q) (hx : x ∈ T.exprs) (hc : (q.ann x.addr).typeChecked) :
    ∃ t, (q.ann x.addr).mType = some t :=
  Option.isSome_iff_exists.mp ((hq x hx).1.trans hc)

/-- Marking a node that is not an expression keeps the tree well formed. -/
theorem Tree.keeps_setTypeChecked {b : Addr} (hb : b ∈ T.others) :
    Keeps T.wfFrame (setTypeChecked b) := by
  intro q hq x hx
  refine (hq x hx).of_ann ?_ fun c hc => ?_
  · simp [setTypeChecked, Tree.addr_ne_other hx hb]
  · simp only [setTypeChecked, update_apply, Checker.setAnn_ann]
    split <;> simp [hc]

end Invariant

/-- What the check of an expression's operands and its rule leaves, from a well-formed state:
every other node well formed, the expression not marked by it, and a type on the expression
only once the rule passed, over marked operands. -/
structure Settles (T : Tree) (e : Expr) (q : Checker) (p : Except Err Unit × Checker) : Prop where
  others : ∀ x ∈ T.exprs, x.addr ≠ e.addr → WellFormed p.2 x
  checked : (p.2.ann e.addr).typeChecked = (q.ann e.addr).typeChecked
  ok : p.1 = .ok () → (p.2.ann e.addr).mType.isSome ∧ ∀ o ∈ e.operands, (p.2.ann o.addr).typeChecked
  error : p.1 ≠ .ok () → (p.2.ann e.addr).mType.isSome = (q.ann e.addr).mType.isSome

/-- A state on the way through the operands of the node at `a`: well formed, the node as it
was, nothing unmarked. -/
def Stage (T : Tree) (a : Addr) (q₀ q : Checker) : Prop :=
  T.Inv q ∧ q.ann a = q₀.ann a ∧ ∀ b, (q₀.ann b).typeChecked → (q.ann b).typeChecked

/-- The write of a rule's result: only at `a`, a type, no mark. -/
def WritesType (a : Addr) (q q' : Checker) : Prop :=
  (∀ b ≠ a, q'.ann b = q.ann b) ∧ (q'.ann a).typeChecked = (q.ann a).typeChecked ∧
    (q'.ann a).mType.isSome

namespace Stage

variable {T : Tree} {a : Addr} {q₀ q : Checker} {e : Expr}

theorem refl (hq : T.Inv q) : Stage T a q q := ⟨hq, rfl, fun _ => id⟩

/-- A check below the node, away from it. -/
theorem child {A : List Addr} {m : CheckM α} (hs : Stage T a q₀ q) (hk : Keeps (annFrame A) m)
    (hw : Keeps T.wfFrame m) (ha : a ∉ A) : Stage T a q₀ (m q).2 :=
  ⟨hw q hs.1, ((hk q).outside a ha).trans hs.2.1, fun b h => (hk q).checked b (hs.2.2 b h)⟩

theorem error {err : Err} (hs : Stage T e.addr q₀ q) : Settles T e q₀ (.error err, q) :=
  ⟨fun x hx _ => hs.1 x hx, by rw [hs.2.1], nofun, fun _ => by rw [hs.2.1]⟩

/-- A check below the node, then the rest of the rule: an error of the check settles the node
as it was. -/
theorem bind {A : List Addr} {m : CheckM Unit} {f : Unit → CheckM Unit} (hs : Stage T e.addr q₀ q)
    (hk : Keeps (annFrame A) m) (hw : Keeps T.wfFrame m) (ha : e.addr ∉ A)
    (hf : ∀ q', m q = (.ok (), q') → Stage T e.addr q₀ q' → Settles T e q₀ (f () q')) :
    Settles T e q₀ ((m >>= f) q) := by
  have S := hs.child hk hw ha
  rcases h : m q with ⟨_ | _, q'⟩ <;> rw [h] at S
  · rw [bind_of_error h]; exact S.error
  · rw [bind_of_ok h]; exact hf q' h S

theorem write {q' : Checker} (hs : Stage T e.addr q₀ q)
    (hops : ∀ o ∈ e.operands, (q.ann o.addr).typeChecked ∧ o.addr ≠ e.addr)
    (hw : WritesType e.addr q q') : Settles T e q₀ (.ok (), q') := by
  have hm : ∀ b, (q.ann b).typeChecked → (q'.ann b).typeChecked := fun b hb => by
    by_cases h : b = e.addr
    · subst h; rw [hw.2.1]; exact hb
    · rw [hw.1 b h]; exact hb
  refine ⟨fun x hx hne => (hs.1 x hx).of_ann (hw.1 _ hne) hm, by rw [hw.2.1, hs.2.1],
    fun _ => ⟨hw.2.2, fun o ho => ?_⟩, fun h => absurd rfl h⟩
  rw [hw.1 _ (hops o ho).2]
  exact (hops o ho).1

theorem annotate (hs : Stage T e.addr q₀ q)
    (hops : ∀ o ∈ e.operands, (q.ann o.addr).typeChecked ∧ o.addr ≠ e.addr)
    (r : Except Err (MType × Option Int)) : Settles T e q₀ (Puffs.annotate e.addr r q) := by
  rcases r with err | ⟨t, _ | v⟩
  · exact hs.error
  all_goals exact hs.write hops ⟨fun b hb => by simp [setConstValue, Puffs.setMType, hb],
    by simp [setConstValue, Puffs.setMType], by simp [setConstValue, Puffs.setMType]⟩

theorem setMType (hs : Stage T e.addr q₀ q)
    (hops : ∀ o ∈ e.operands, (q.ann o.addr).typeChecked ∧ o.addr ≠ e.addr)
    (r : Except Err MType) :
    Settles T e q₀ ((ofExcept r >>= fun t => Puffs.setMType e.addr t) q) := by
  rcases r with err | t
  · exact hs.error
  · exact hs.write hops ⟨fun b hb => by simp [Puffs.setMType, hb], by simp [Puffs.setMType],
      by simp [Puffs.setMType]⟩

end Stage

section Steps

variable {T : Tree} {d : Nat} {q q' : Checker}

@[simp] theorem Expr.mem_subexprs_self (e : Expr) : e ∈ e.subexprs := by
  cases e <;> simp [Expr.subexprs]

theorem Expr.addr_ne_of_not_mem {x : Expr} {a : Addr} (h : a ∉ x.addrs) : x.addr ≠ a :=
  fun hx => h (hx ▸ x.addr_mem_addrs)

theorem mTypeOf_bind_of {x : Expr} {t : MType} {f : MType → CheckM β}
    (h : (q.ann x.addr).mType = some t) : (mTypeOf x >>= f) q = f t q := by
  simp only [bind_apply, mTypeOf, h]

theorem writesType_setMType (a : Addr) (t : MType) (q : Checker) :
    WritesType a q (setMType a t q).2 :=
  ⟨fun b hb => by simp [setMType, hb], by simp [setMType], by simp [setMType]⟩

theorem tcheckExpr_marks {e : Expr} (h : tcheckExpr e d q = (.ok (), q')) :
    (q'.ann e.addr).typeChecked = true := by
  unfold tcheckExpr at h
  exact marked_of_setTypeChecked_last (require_bind_eq_ok.mp h).2

theorem Arg.value_addr_mem {o : Arg} {args : List Arg} (h : o ∈ args) :
    o.value.addr ∈ Arg.addrsList args := by
  induction args with
  | nil => cases h
  | cons o' os ih =>
    rcases List.mem_cons.mp h with rfl | h
    · rcases o with ⟨a, p, n, v⟩
      simp [Arg.addrsList, Arg.addrs, Arg.value]
    · exact List.mem_append_right _ (ih h)

theorem tcheckArgs_marks {args : List Arg} (h : tcheckArgs args d q = (.ok (), q')) :
    ∀ o ∈ args, (q'.ann o.value.addr).typeChecked = true := by
  induction args generalizing q with
  | nil => exact nofun
  | cons o os ih =>
    rcases o with ⟨a, p, n, v⟩
    obtain ⟨_, q₁, h₁, h₂⟩ := bind_eq_ok.mp h
    obtain ⟨_, q₀, h₀, hc⟩ := bind_eq_ok.mp h₁
    rintro o (_ | ⟨_, ho⟩)
    · exact ((tcheckArgs_keeps os d).of_eq h₂).checked _
        (((keeps_setTypeChecked (List.mem_singleton_self a)).of_eq hc).checked _
          (tcheckExpr_marks h₀))
    · exact ih h₂ o ho

/-- A check that marks the node after its rule settled it keeps the tree well formed. -/
theorem Settles.keeps {e : Expr} {m : CheckM Unit} (he : e ∈ T.exprs)
    (hk : Keeps (annFrame e.addrs) m) (hs : ∀ q, T.Inv q → Settles T e q (m q)) :
    Keeps T.wfFrame (m >>= fun _ => setTypeChecked e.addr) := by
  intro q hq x hx
  have S := hs q hq
  have K := hk q
  rw [bind_apply]
  rcases hm : m q with ⟨_ | _, q₁⟩ <;> rw [hm] at S K <;> dsimp only
  · by_cases hxe : x.addr = e.addr
    · obtain rfl := T.eq_of_addr hx he hxe
      refine ⟨by rw [S.error nofun, (hq x hx).1, S.checked], fun hc o ho => ?_⟩
      exact K.checked _ ((hq x hx).2 (S.checked ▸ hc) o ho)
    · exact S.others x hx hxe
  · have K' := (keeps_setTypeChecked (List.mem_singleton_self e.addr)) q₁
    by_cases hxe : x.addr = e.addr
    · obtain rfl := T.eq_of_addr hx he hxe
      obtain ⟨hty, hops⟩ := S.ok rfl
      exact ⟨by simp [setTypeChecked, hty], fun _ o ho => K'.checked _ (hops o ho)⟩
    · exact (S.others x hx hxe).of_ann (K'.outside _ (by simpa using hxe)) K'.checked

theorem settles_leaf {a : Addr} {id1 : ID} (q : Checker) (hq : T.Inv q) :
    Settles T (.other (.leaf a id1)) q (tcheckExprOther (.leaf a id1) d q) := by
  unfold tcheckExprOther
  rw [read_bind]
  exact (Stage.refl hq).annotate (by simp [Expr.operands]) _

theorem settles_unaryOp {a : Addr} {op : UnaryOp} {rhs : Expr}
    (hw : T.Holds (a :: rhs.addrs) (.unaryOp (.mk a op rhs) :: rhs.subexprs) rhs.otherAddrs)
    (ih : T.Holds rhs.addrs rhs.subexprs rhs.otherAddrs → Keeps T.wfFrame (tcheckExpr rhs d))
    (q : Checker) (hq : T.Inv q) :
    Settles T (.unaryOp (.mk a op rhs)) q (tcheckExprUnaryOp (.mk a op rhs) d q) := by
  have ha : a ∉ rhs.addrs := (List.nodup_cons.mp hw.1).1
  have ih := ih hw.below
  unfold tcheckExprUnaryOp
  refine (Stage.refl hq).bind (tcheckExpr_keeps rhs d) ih ha fun q₁ h₁ S₁ => ?_
  obtain ⟨t, ht⟩ := S₁.1.typed (hw.2.1 (by simp)) (tcheckExpr_marks h₁)
  rw [mTypeOf_bind_of ht, constValueOf, read_bind]
  exact S₁.annotate (by
    simp only [Expr.operands, List.mem_singleton, forall_eq]
    exact ⟨tcheckExpr_marks h₁, Expr.addr_ne_of_not_mem ha⟩) _

theorem settles_dot {a : Addr} {lhs : Expr} {id1 : ID}
    (hw : T.Holds (a :: lhs.addrs) (.other (.dot (.mk a lhs id1)) :: lhs.subexprs) lhs.otherAddrs)
    (ih : T.Holds lhs.addrs lhs.subexprs lhs.otherAddrs → Keeps T.wfFrame (tcheckExpr lhs d))
    (q : Checker) (hq : T.Inv q) :
    Settles T (.other (.dot (.mk a lhs id1))) q (tcheckDot (.mk a lhs id1) d q) := by
  have ha : a ∉ lhs.addrs := (List.nodup_cons.mp hw.1).1
  have ih := ih hw.below
  unfold tcheckDot
  refine (Stage.refl hq).bind (tcheckExpr_keeps lhs d) ih ha fun q₁ h₁ S₁ => ?_
  obtain ⟨t, ht⟩ := S₁.1.typed (hw.2.1 (by simp)) (tcheckExpr_marks h₁)
  rw [read_bind, read_bind, mTypeOf_bind_of ht]
  exact S₁.setMType (by
    simp only [Expr.operands, List.mem_singleton, forall_eq]
    exact ⟨tcheckExpr_marks h₁, Expr.addr_ne_of_not_mem ha⟩) _

theorem settles_as {a : Addr} {lhs : Expr} {rhs : TypeExpr}
    (hw : T.Holds (a :: (lhs.addrs ++ rhs.addrs)) (.binaryOp (.as a lhs rhs) :: (lhs.subexprs ++
      rhs.subexprs)) (lhs.otherAddrs ++ rhs.otherAddrs))
    (ihl : T.Holds lhs.addrs lhs.subexprs lhs.otherAddrs → Keeps T.wfFrame (tcheckExpr lhs d))
    (ihr : T.Holds rhs.addrs rhs.subexprs rhs.otherAddrs → Keeps T.wfFrame (tcheckTypeExpr rhs 0))
    (q : Checker) (hq : T.Inv q) :
    Settles T (.binaryOp (.as a lhs rhs)) q (tcheckExprBinaryOp (.as a lhs rhs) d q) := by
  have ha := (List.nodup_cons.mp hw.1).1
  have ihl := ihl hw.below.left
  have ihr := ihr hw.below.right
  have hl : a ∉ lhs.addrs := fun h => ha (List.mem_append_left _ h)
  unfold tcheckExprBinaryOp
  refine (Stage.refl hq).bind (tcheckExpr_keeps lhs d) ihl hl fun q₁ h₁ S₁ => ?_
  obtain ⟨t, ht⟩ := S₁.1.typed (hw.2.1 (by simp)) (tcheckExpr_marks h₁)
  rw [mTypeOf_bind_of ht]
  refine S₁.bind (tcheckTypeExpr_keeps rhs 0) ihr (fun h => ha (List.mem_append_right _ h))
    fun q₂ h₂ S₂ => ?_
  exact S₂.setMType (by
    simp only [Expr.operands, List.mem_singleton, forall_eq]
    exact ⟨((tcheckTypeExpr_keeps rhs 0).of_eq h₂).checked _ (tcheckExpr_marks h₁),
      Expr.addr_ne_of_not_mem hl⟩) _

theorem settles_binaryOp {a : Addr} {op : BinaryOp} {lhs rhs : Expr}
    (hw : T.Holds (a :: (lhs.addrs ++ rhs.addrs)) (.binaryOp (.mk a op lhs rhs) :: (lhs.subexprs ++
      rhs.subexprs)) (lhs.otherAddrs ++ rhs.otherAddrs))
    (ihl : T.Holds lhs.addrs lhs.subexprs lhs.otherAddrs → Keeps T.wfFrame (tcheckExpr lhs d))
    (ihr : T.Holds rhs.addrs rhs.subexprs rhs.otherAddrs → Keeps T.wfFrame (tcheckExpr rhs d))
    (q : Checker) (hq : T.Inv q) :
    Settles T (.binaryOp (.mk a op lhs rhs)) q (tcheckExprBinaryOp (.mk a op lhs rhs) d q) := by
  have ha := (List.nodup_cons.mp hw.1).1
  have ihl := ihl hw.below.left
  have ihr := ihr hw.below.right
  have hl : a ∉ lhs.addrs := fun h => ha (List.mem_append_left _ h)
  have hr : a ∉ rhs.addrs := fun h => ha (List.mem_append_right _ h)
  unfold tcheckExprBinaryOp
  refine (Stage.refl hq).bind (tcheckExpr_keeps lhs d) ihl hl fun q₁ h₁ S₁ => ?_
  obtain ⟨t, ht⟩ := S₁.1.typed (hw.2.1 (by simp)) (tcheckExpr_marks h₁)
  rw [mTypeOf_bind_of ht]
  refine S₁.bind (tcheckExpr_keeps rhs d) ihr hr fun q₂ h₂ S₂ => ?_
  obtain ⟨u, hu⟩ := S₂.1.typed (hw.2.1 (by simp)) (tcheckExpr_marks h₂)
  rw [mTypeOf_bind_of hu]
  simp only [constValueOf, read_bind]
  exact S₂.annotate (by
    simp only [Expr.operands, List.mem_cons, List.mem_singleton, forall_eq_or_imp, forall_eq,
      List.not_mem_nil, or_false]
    exact ⟨⟨((tcheckExpr_keeps rhs d).of_eq h₂).checked _ (tcheckExpr_marks h₁),
      Expr.addr_ne_of_not_mem hl⟩, tcheckExpr_marks h₂, Expr.addr_ne_of_not_mem hr⟩) _

/-- The `in.src.read_u8?()` hack: the callee is checked, the call is typed `u8`. -/
theorem settles_readU8 {a : Addr} {i s : Bool} {lhs : Expr} {args : List Arg}
    (hr : isInSrcReadU8 lhs && s && args.isEmpty)
    (hw : T.Holds (a :: (lhs.addrs ++ Arg.addrsList args))
      (.other (.call a i s lhs args) :: (lhs.subexprs ++ Arg.subexprsList args))
      (lhs.otherAddrs ++ Arg.otherAddrsList args))
    (ih : T.Holds lhs.addrs lhs.subexprs lhs.otherAddrs → Keeps T.wfFrame (tcheckExpr lhs d))
    (q : Checker) (hq : T.Inv q) :
    Settles T (.other (.call a i s lhs args)) q (tcheckExprOther (.call a i s lhs args) d q) := by
  have hl : a ∉ lhs.addrs := fun h => (List.nodup_cons.mp hw.1).1 (List.mem_append_left _ h)
  have ih := ih hw.below.left
  have hargs : args = [] := List.isEmpty_iff.mp (by simp_all)
  unfold tcheckExprOther
  rw [if_pos hr]
  refine (Stage.refl hq).bind (tcheckExpr_keeps lhs d) ih hl fun q₁ h₁ S₁ => ?_
  exact S₁.write (by
    subst hargs
    simp only [Expr.operands, List.map_nil, List.mem_singleton, forall_eq]
    exact ⟨tcheckExpr_marks h₁, Expr.addr_ne_of_not_mem hl⟩)
    (writesType_setMType a .u8 q₁)

/-- The `foo.low_bits(n: etc)` hack: `foo` and the arguments are checked, the callee is marked
and typed `u8` directly, and the call takes `foo`'s type. -/
theorem settles_lowBits {a la : Addr} {i s : Bool} {foo : Expr} {id1 : ID} {args : List Arg}
    (hr : ¬(isInSrcReadU8 (.other (.dot (.mk la foo id1))) && s && args.isEmpty))
    (hw : T.Holds (a :: ((la :: foo.addrs) ++ Arg.addrsList args))
      (.other (.call a i s (.other (.dot (.mk la foo id1))) args) ::
        ((.other (.dot (.mk la foo id1)) :: foo.subexprs) ++ Arg.subexprsList args))
      (foo.otherAddrs ++ Arg.otherAddrsList args))
    (ihf : T.Holds foo.addrs foo.subexprs foo.otherAddrs → Keeps T.wfFrame (tcheckExpr foo d))
    (iha : T.Holds (Arg.addrsList args) (Arg.subexprsList args) (Arg.otherAddrsList args) →
      Keeps T.wfFrame (tcheckArgs args d))
    (q : Checker) (hq : T.Inv q) :
    Settles T (.other (.call a i s (.other (.dot (.mk la foo id1))) args)) q
      (tcheckExprOther (.call a i s (.other (.dot (.mk la foo id1))) args) d q) := by
  obtain ⟨ha, hn⟩ := List.nodup_cons.mp hw.1
  simp only [List.cons_append, List.nodup_cons, List.mem_cons, List.mem_append, not_or] at ha hn
  have hcallee : Expr.other (.dot (.mk la foo id1)) ∈ T.exprs := hw.2.1 (by simp)
  have ihf := ihf hw.below.left.below
  have iha := iha hw.below.right
  unfold tcheckExprOther
  rw [if_neg hr]
  split
  · dsimp only
    refine (Stage.refl hq).bind (tcheckExpr_keeps foo d) ihf ha.2.1 fun q₁ h₁ S₁ => ?_
    have hfoo := tcheckExpr_marks h₁
    have hfla : foo.addr ≠ la := Expr.addr_ne_of_not_mem hn.1.1
    simp only [setTypeChecked, setMType, update_bind]
    -- the callee, marked and typed over `foo`, marked already
    have K : AnnFrame [la] q₁ ((q₁.setAnn la fun x => { x with typeChecked := true }).setAnn la
        fun x => { x with mType := some .u8 }) :=
      Keeps.bind (keeps_setTypeChecked (List.mem_singleton_self la))
        (fun _ => keeps_setMType (List.mem_singleton_self la) .u8) q₁
    have S₂ : Stage T a q ((q₁.setAnn la fun x => { x with typeChecked := true }).setAnn la
        fun x => { x with mType := some .u8 }) := by
      refine ⟨fun x hx => ?_, (K.outside a (by simpa using ha.1)).trans S₁.2.1,
        fun b hb => K.checked b (S₁.2.2 b hb)⟩
      by_cases hxl : x.addr = la
      · obtain rfl := T.eq_of_addr hx hcallee hxl
        exact ⟨by simp, fun _ => by simp [Expr.operands, hfla, hfoo]⟩
      · exact (S₁.1 x hx).of_ann (K.outside _ (by simpa using hxl)) K.checked
    refine S₂.bind (tcheckArgs_keeps args d) iha ha.2.2 fun q₃ h₃ S₃ => ?_
    have K₃ := (tcheckArgs_keeps args d).of_eq h₃
    have hfoo₃ : (q₃.ann foo.addr).typeChecked := K₃.checked _ (by simp [hfla, hfoo])
    obtain ⟨t, ht⟩ := S₃.1.typed (hw.2.1 (by simp)) hfoo₃
    rw [read_bind, update_apply]
    refine S₃.write ?_ ⟨fun b hb => by simp only [Checker.setAnn_ann, if_neg (by simpa using hb)], by simp,
      by simp [ht]⟩
    simp only [Expr.operands, List.mem_cons, List.mem_map, forall_eq_or_imp,
      forall_exists_index, and_imp]
    refine ⟨⟨K₃.checked _ (by simp), Ne.symm ha.1⟩, ?_⟩
    rintro _ o ho rfl
    exact ⟨tcheckArgs_marks h₃ o ho, fun h => ha.2.2 (by simpa [h] using Arg.value_addr_mem ho)⟩
  · exact (Stage.refl hq).error

/-- A call whose callee is neither hack fails before checking anything. -/
theorem settles_call_of_not_lowBits {a : Addr} {i s : Bool} {lhs : Expr} {args : List Arg}
    (hr : ¬(isInSrcReadU8 lhs && s && args.isEmpty)) (hl : isLowBits lhs = false) (q : Checker)
    (hq : T.Inv q) :
    Settles T (.other (.call a i s lhs args)) q (tcheckExprOther (.call a i s lhs args) d q) := by
  unfold tcheckExprOther
  rw [if_neg hr, if_neg (by simp [hl])]
  exact (Stage.refl hq).error

end Steps

section Dispatch

variable {T : Tree}

mutual
theorem tcheckExpr_wf (e : Expr) (d : Nat) (hw : T.Holds e.addrs e.subexprs e.otherAddrs) :
    Keeps T.wfFrame (tcheckExpr e d) := by
  unfold tcheckExpr
  refine Keeps.bind (Keeps.require _ _) fun _ => ?_
  have he : e ∈ T.exprs := hw.2.1 e.mem_subexprs_self
  match e with
  | .other o =>
    exact Settles.keeps he (tcheckExprOther_keeps o _) (tcheckExprOther_settles o _ hw)
  | .unaryOp (.mk a op rhs) =>
    exact Settles.keeps he (tcheckExprUnaryOp_keeps _ _) (settles_unaryOp hw (tcheckExpr_wf rhs _))
  | .binaryOp (.as a lhs rhs) =>
    exact Settles.keeps he (tcheckExprBinaryOp_keeps _ _)
      (settles_as hw (tcheckExpr_wf lhs _) (tcheckTypeExpr_wf rhs 0))
  | .binaryOp (.mk a op lhs rhs) =>
    exact Settles.keeps he (tcheckExprBinaryOp_keeps _ _)
      (settles_binaryOp hw (tcheckExpr_wf lhs _) (tcheckExpr_wf rhs _))
  | .associativeOp (.mk _ _ _) =>
    exact Settles.keeps he (Keeps.fail _) fun q hq => (Stage.refl hq).error

theorem tcheckExprOther_settles (o : ExprOther) (d : Nat)
    (hw : T.Holds (Expr.other o).addrs (Expr.other o).subexprs (Expr.other o).otherAddrs) :
    ∀ q, T.Inv q → Settles T (.other o) q (tcheckExprOther o d q) := by
  match o with
  | .leaf a id1 => exact settles_leaf
  | .call a i s lhs args =>
    by_cases hr : isInSrcReadU8 lhs && s && args.isEmpty
    · exact settles_readU8 hr hw (tcheckExpr_wf lhs d)
    match lhs with
    | .other (.dot (.mk la foo id)) =>
      exact settles_lowBits hr hw (tcheckExpr_wf foo d) (tcheckArgs_wf args d)
    | .other (.leaf ..) | .other (.call ..) | .other (.index ..) | .other (.slice ..) | .unaryOp _
    | .binaryOp _ | .associativeOp _ => exact settles_call_of_not_lowBits hr rfl
  | .index .. | .slice .. => exact fun q hq => (Stage.refl hq).error
  | .dot (.mk a lhs id1) => exact settles_dot hw (tcheckExpr_wf lhs d)

theorem tcheckArgs_wf (args : List Arg) (d : Nat)
    (hw : T.Holds (Arg.addrsList args) (Arg.subexprsList args) (Arg.otherAddrsList args)) :
    Keeps T.wfFrame (tcheckArgs args d) := by
  match args with
  | [] => exact Keeps.pure _
  | .mk a p name value :: os =>
    unfold tcheckArgs tcheckArg
    exact Keeps.bind (Keeps.bind (tcheckExpr_wf value d hw.tail.left) fun _ =>
      T.keeps_setTypeChecked hw.head) fun _ => tcheckArgs_wf os d hw.tail.right

theorem tcheckTypeExpr_wf (t : TypeExpr) (d : Nat)
    (hw : T.Holds t.addrs t.subexprs t.otherAddrs) : Keeps T.wfFrame (tcheckTypeExpr t d) := by
  unfold tcheckTypeExpr
  refine Keeps.bind (Keeps.require _ _) fun _ => ?_
  match t with
  | .named a _ _ min max =>
    exact Keeps.ite (Keeps.fail _) (Keeps.ite
      (Keeps.bind (tcheckBound_wf min hw.tail.left) fun _ =>
        Keeps.bind (tcheckBound_wf max hw.tail.right) fun _ => T.keeps_setTypeChecked hw.head)
      (Keeps.ite (T.keeps_setTypeChecked hw.head) (Keeps.fail _)))
  | .ptr a inner =>
    exact Keeps.bind (tcheckTypeExpr_wf inner _ hw.tail) fun _ => T.keeps_setTypeChecked hw.head
  | .array a aLen inner =>
    exact Keeps.bind (tcheckExpr_wf aLen _ hw.tail.left) fun _ =>
      Keeps.bind (Keeps.read _) fun _ => Keeps.bind (Keeps.require _ _) fun _ =>
      Keeps.bind (tcheckTypeExpr_wf inner _ hw.tail.right) fun _ => T.keeps_setTypeChecked hw.head

theorem tcheckBound_wf (b : Option Expr)
    (hw : T.Holds (Expr.addrsOpt b) (Expr.subexprsOpt b) (Expr.otherAddrsOpt b)) :
    Keeps T.wfFrame (tcheckBound b) := by
  match b with
  | none => exact Keeps.pure _
  | some b =>
    unfold tcheckBound
    exact Keeps.bind (tcheckExpr_wf b 0 hw) fun _ => Keeps.bind (Keeps.read _) fun _ =>
      Keeps.require _ _
end

end Dispatch

end Puffs
