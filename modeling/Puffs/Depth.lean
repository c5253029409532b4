import Puffs.WellFormed
import Puffs.Consts
/-!
# The expression depth limit

`tcheckExpr` refuses a depth past `MaxExprDepth` and checks the operands of a node one depth
further down. The depth counts the checks on the way down, not the edges of the tree: the
`low_bits` hack checks the receiver `foo` of `foo.low_bits(n: k)` one depth down but two edges
down, past the callee selector, which it marks without a check of its own. So the chains of
child edges of an expression accepted at depth `d` have at most `MaxExprDepth - d` edges when
it has no `low_bits` call and at most `2 * (MaxExprDepth - d)` when it has
(`tcheckExpr_chain_le`), and nested `low_bits` calls reach the second bound from every depth
(`lowBitsNest_accepted`).

The limits only cut off: a check that does not stop at a depth limit computes the same from
every smaller depth, so the depth counter decides acceptance and nothing else. `AgreesBelow E m
m'` says that `m'` does what `m` does on every run that `m` does not end with the error `E`; it
is threaded along the `do` blocks of the methods.
-/
namespace Puffs

open CheckM

/-- `Chain e n`: a chain of `n` child edges starts at `e`, each edge from a node to one of its
operands. -/
inductive Expr.Chain : Expr → Nat → Prop
  | nil (e : Expr) : Expr.Chain e 0
  | cons {e o : Expr} {n : Nat} : o ∈ e.operands → Expr.Chain o n → Expr.Chain e (n + 1)

/-- Every chain of child edges from `e` has at most `k` edges. -/
def Expr.ChainsAtMost (e : Expr) (k : Nat) : Prop := ∀ n, e.Chain n → n ≤ k

namespace Expr.ChainsAtMost

theorem mono {e : Expr} {k k' : Nat} (h : e.ChainsAtMost k) (hk : k ≤ k') : e.ChainsAtMost k' :=
  fun n hn => (h n hn).trans hk

/-- A node is one edge above its operands. -/
theorem of_operands {e : Expr} {k : Nat} (h : ∀ o ∈ e.operands, o.ChainsAtMost k) :
    e.ChainsAtMost (k + 1) := by
  intro n hn
  cases hn with
  | nil => exact Nat.zero_le _
  | cons ho hc => exact Nat.succ_le_succ (h _ ho _ hc)

/-- The step of the bound of `w` edges a depth: a node checked at `d`, over operands within
`w - 1` edges more than the bound one depth down. -/
theorem step {e : Expr} {w d : Nat} (hw : 1 ≤ w) (hd : d + 1 ≤ maxExprDepth)
    (h : ∀ o ∈ e.operands, o.ChainsAtMost (w * (maxExprDepth - (d + 1)) + (w - 1))) :
    e.ChainsAtMost (w * (maxExprDepth - d)) := by
  have hm : maxExprDepth - d = maxExprDepth - (d + 1) + 1 := by omega
  exact (of_operands h).mono (by rw [hm, Nat.mul_succ]; omega)

end Expr.ChainsAtMost

theorem Arg.subexprs_subset {o : Arg} {args : List Arg} (h : o ∈ args) :
    o.value.subexprs ⊆ Arg.subexprsList args := by
  induction args with
  | nil => cases h
  | cons x xs ih =>
    obtain ⟨_, _, _, v⟩ := x
    rcases List.mem_cons.1 h with rfl | h
    · exact List.subset_append_left _ _
    · exact (ih h).trans (List.subset_append_right _ _)

theorem Expr.subexprs_subset_of_operand {e o : Expr} (h : o ∈ e.operands) :
    o.subexprs ⊆ e.subexprs := by
  intro x hx
  match e, h with
  | .other (.call _ _ _ lhs args), h =>
    rcases List.mem_cons.1 h with rfl | h
    · simp [Expr.subexprs, ExprOther.subexprs, hx]
    · obtain ⟨a, ha, rfl⟩ := List.mem_map.1 h
      simp [Expr.subexprs, ExprOther.subexprs, Arg.subexprs_subset ha hx]
  | .other (.index _ lhs rhs), h | .binaryOp (.mk _ _ lhs rhs), h =>
    rcases List.mem_pair.1 h with rfl | rfl <;>
      simp [Expr.subexprs, ExprOther.subexprs, ExprBinaryOp.subexprs, hx]
  | .other (.slice _ lhs mhs rhs), h =>
    simp only [Expr.operands, List.mem_cons, List.mem_append, Option.mem_toList,
      Option.mem_def] at h
    rcases h with rfl | rfl | rfl <;> simp [Expr.subexprs, ExprOther.subexprs, Expr.subexprsOpt, hx]
  | .other (.dot (.mk _ lhs _)), h | .unaryOp (.mk _ _ lhs), h | .binaryOp (.as _ lhs _), h =>
    obtain rfl := List.mem_singleton.1 h
    simp [Expr.subexprs, ExprOther.subexprs, ExprDot.subexprs, ExprUnaryOp.subexprs,
      ExprBinaryOp.subexprs, hx]

/-- No operand of an expression with no `low_bits` call has one. -/
theorem Expr.hasLowBitsCall_operand {e o : Expr} (h : o ∈ e.operands)
    (he : e.hasLowBitsCall = false) : o.hasLowBitsCall = false := by
  simp only [Expr.hasLowBitsCall, List.any_eq_false] at he ⊢
  exact fun x hx => he x (Expr.subexprs_subset_of_operand h hx)

/-- Some run of `m` returns. -/
def Accepts (m : CheckM α) : Prop := ∃ q a q', m q = (.ok a, q')

theorem Accepts.of_bind {m : CheckM α} {f : α → CheckM β} (h : Accepts (m >>= f)) :
    Accepts m ∧ ∃ a, Accepts (f a) := by
  obtain ⟨q, b, q', h⟩ := h
  obtain ⟨a, q₁, h₁, h₂⟩ := bind_eq_ok.1 h
  exact ⟨⟨q, a, q₁, h₁⟩, a, q₁, b, q', h₂⟩

/-- An accepted expression was checked within the limit. -/
theorem Accepts.depth_le {e : Expr} {d : Nat} (h : Accepts (tcheckExpr e d)) : d ≤ maxExprDepth := by
  obtain ⟨q, _, q', h⟩ := h
  unfold tcheckExpr at h
  exact of_decide_eq_true (require_bind_eq_ok.1 h).1

/-- What `m` accepts is within `w` edges a depth below `d`; one edge a depth is claimed only
when `e` has no `low_bits` call. -/
def Bounded (w : Nat) (m : CheckM Unit) (e : Expr) (d : Nat) : Prop :=
  Accepts m → (w = 1 → e.hasLowBitsCall = false) → e.ChainsAtMost (w * (maxExprDepth - d))

section Steps

variable {w : Nat} {a : Addr} {d : Nat}

/-- An operand accepted one depth down is within `w - 1` edges more than that depth's bound. -/
theorem Bounded.operand {e o : Expr} (ih : Bounded w (tcheckExpr o (d + 1)) o (d + 1))
    (h : Accepts (tcheckExpr o (d + 1))) (hl : w = 1 → e.hasLowBitsCall = false)
    (ho : o ∈ e.operands) :
    d + 1 ≤ maxExprDepth ∧ o.ChainsAtMost (w * (maxExprDepth - (d + 1)) + (w - 1)) :=
  ⟨h.depth_le, (ih h fun h1 => Expr.hasLowBitsCall_operand ho (hl h1)).mono (Nat.le_add_right _ _)⟩

theorem Bounded.unaryOp {op : UnaryOp} {rhs : Expr} (hw : 1 ≤ w)
    (ih : Bounded w (tcheckExpr rhs (d + 1)) rhs (d + 1)) :
    Bounded w (tcheckExprUnaryOp (.mk a op rhs) (d + 1)) (.unaryOp (.mk a op rhs)) d := by
  intro h hl
  unfold tcheckExprUnaryOp at h
  obtain ⟨hd, hr⟩ := ih.operand (Accepts.of_bind h).1 hl (by simp [Expr.operands])
  exact .step hw hd (List.forall_mem_singleton.2 hr)

theorem Bounded.dot {lhs : Expr} {id1 : ID} (hw : 1 ≤ w)
    (ih : Bounded w (tcheckExpr lhs (d + 1)) lhs (d + 1)) :
    Bounded w (tcheckDot (.mk a lhs id1) (d + 1)) (.other (.dot (.mk a lhs id1))) d := by
  intro h hl
  unfold tcheckDot at h
  obtain ⟨hd, hl⟩ := ih.operand (Accepts.of_bind h).1 hl (by simp [Expr.operands])
  exact .step hw hd (List.forall_mem_singleton.2 hl)

theorem Bounded.as {lhs : Expr} {rhs : TypeExpr} (hw : 1 ≤ w)
    (ih : Bounded w (tcheckExpr lhs (d + 1)) lhs (d + 1)) :
    Bounded w (tcheckExprBinaryOp (.as a lhs rhs) (d + 1)) (.binaryOp (.as a lhs rhs)) d := by
  intro h hl
  unfold tcheckExprBinaryOp at h
  obtain ⟨hd, hl⟩ := ih.operand (Accepts.of_bind h).1 hl (by simp [Expr.operands])
  exact .step hw hd (List.forall_mem_singleton.2 hl)

theorem Bounded.binaryOp {op : BinaryOp} {lhs rhs : Expr} (hw : 1 ≤ w)
    (ihl : Bounded w (tcheckExpr lhs (d + 1)) lhs (d + 1))
    (ihr : Bounded w (tcheckExpr rhs (d + 1)) rhs (d + 1)) :
    Bounded w (tcheckExprBinaryOp (.mk a op lhs rhs) (d + 1)) (.binaryOp (.mk a op lhs rhs)) d := by
  intro h hl
  unfold tcheckExprBinaryOp at h
  obtain ⟨hl₁, _, h⟩ := Accepts.of_bind h
  obtain ⟨-, _, h⟩ := Accepts.of_bind h
  obtain ⟨hd, hlc⟩ := ihl.operand hl₁ hl (by simp [Expr.operands])
  exact .step hw hd (List.forall_mem_cons.2 ⟨hlc, List.forall_mem_singleton.2
    (ihr.operand (Accepts.of_bind h).1 hl (by simp [Expr.operands])).2⟩)

theorem Bounded.readU8 {i s : Bool} {lhs : Expr} {args : List Arg} (hw : 1 ≤ w)
    (hr : isInSrcReadU8 lhs && s && args.isEmpty)
    (ih : Bounded w (tcheckExpr lhs (d + 1)) lhs (d + 1)) :
    Bounded w (tcheckExprOther (.call a i s lhs args) (d + 1)) (.other (.call a i s lhs args)) d := by
  intro h hl
  unfold tcheckExprOther at h
  rw [if_pos hr] at h
  obtain ⟨-, rfl⟩ : _ ∧ args = [] := by simpa using hr
  obtain ⟨hd, hlc⟩ := ih.operand (Accepts.of_bind h).1 hl (by simp [Expr.operands])
  exact .step hw hd (List.forall_mem_singleton.2 hlc)

/-- The `low_bits` hack: the receiver is checked one depth down, two edges down, so a call
is within the bound only from two edges a depth on. -/
theorem Bounded.lowBits {i s : Bool} {la : Addr} {foo : Expr} {id1 : ID} {args : List Arg}
    (hw : 1 ≤ w) (hr : ¬(isInSrcReadU8 (.other (.dot (.mk la foo id1))) && s && args.isEmpty))
    (ih : Bounded w (tcheckExpr foo (d + 1)) foo (d + 1))
    (iha : Accepts (tcheckArgs args (d + 1)) → (w = 1 → ∀ o ∈ args, o.value.hasLowBitsCall = false) →
      ∀ o ∈ args, o.value.ChainsAtMost (w * (maxExprDepth - (d + 1)))) :
    Bounded w (tcheckExprOther (.call a i s (.other (.dot (.mk la foo id1))) args) (d + 1))
      (.other (.call a i s (.other (.dot (.mk la foo id1))) args)) d := by
  intro h hl
  unfold tcheckExprOther at h
  rw [if_neg hr] at h
  split at h
  · rename_i hc
    have hw2 : w ≠ 1 := fun h1 => by
      simp only [Bool.and_eq_true] at hc
      simpa [hasLowBitsCall_call hc.1.1] using hl h1
    obtain ⟨hf, _, h⟩ := Accepts.of_bind h
    obtain ⟨-, _, h⟩ := Accepts.of_bind h
    obtain ⟨-, _, h⟩ := Accepts.of_bind h
    have hcallee : (Expr.other (.dot (.mk la foo id1))).ChainsAtMost
        (w * (maxExprDepth - (d + 1)) + 1) :=
      .of_operands (List.forall_mem_singleton.2 (ih hf fun h1 => by omega))
    refine .step hw hf.depth_le
      (List.forall_mem_cons.2 ⟨hcallee.mono (by omega), List.forall_mem_map.2 fun o ho => ?_⟩)
    exact (iha (Accepts.of_bind h).1 (fun h1 => by omega) o ho).mono (Nat.le_add_right _ _)
  · obtain ⟨_, _, _, h⟩ := h
    cases h

/-- A call whose callee is neither hack is never accepted. -/
theorem Bounded.call_of_not_lowBits {i s : Bool} {lhs : Expr} {args : List Arg}
    (hr : ¬(isInSrcReadU8 lhs && s && args.isEmpty)) (hl : isLowBits lhs = false) :
    Bounded w (tcheckExprOther (.call a i s lhs args) (d + 1)) (.other (.call a i s lhs args)) d := by
  rintro ⟨_, _, _, h⟩
  unfold tcheckExprOther at h
  rw [if_neg hr, if_neg (by simp [hl])] at h
  cases h

end Steps

section Bound

variable {w : Nat}

mutual
theorem tcheckExpr_bounded (hw : 1 ≤ w) (e : Expr) (d : Nat) : Bounded w (tcheckExpr e d) e d := by
  intro h hl
  obtain ⟨q, _, q', h⟩ := h
  unfold tcheckExpr at h
  obtain ⟨-, h⟩ := require_bind_eq_ok.1 h
  obtain ⟨_, q₁, h₁, -⟩ := bind_eq_ok.1 h
  match e with
  | .other o => exact tcheckExprOther_bounded hw o d ⟨q, _, q₁, h₁⟩ hl
  | .unaryOp (.mk a op rhs) => exact Bounded.unaryOp hw (tcheckExpr_bounded hw rhs _) ⟨q, _, q₁, h₁⟩ hl
  | .binaryOp (.as a lhs rhs) => exact Bounded.as hw (tcheckExpr_bounded hw lhs _) ⟨q, _, q₁, h₁⟩ hl
  | .binaryOp (.mk a op lhs rhs) =>
    exact Bounded.binaryOp hw (tcheckExpr_bounded hw lhs _) (tcheckExpr_bounded hw rhs _)
      ⟨q, _, q₁, h₁⟩ hl
  | .associativeOp (.mk _ _ _) => cases h₁

theorem tcheckExprOther_bounded (hw : 1 ≤ w) (n : ExprOther) (d : Nat) :
    Bounded w (tcheckExprOther n (d + 1)) (.other n) d := by
  match n with
  | .leaf a id1 => exact fun _ _ n hn => by cases hn <;> first | exact Nat.zero_le _ | contradiction
  | .call a i s lhs args =>
    by_cases hr : isInSrcReadU8 lhs && s && args.isEmpty
    · exact Bounded.readU8 hw hr (tcheckExpr_bounded hw lhs _)
    match lhs with
    | .other (.dot (.mk la foo id)) =>
      exact Bounded.lowBits hw hr (tcheckExpr_bounded hw foo _) (tcheckArgs_bounded hw args _)
    | .other (.leaf ..) | .other (.call ..) | .other (.index ..) | .other (.slice ..) | .unaryOp _
    | .binaryOp _ | .associativeOp _ => exact Bounded.call_of_not_lowBits hr rfl
  | .index .. | .slice .. => rintro ⟨_, _, _, h⟩; cases h
  | .dot (.mk a lhs id1) => exact Bounded.dot hw (tcheckExpr_bounded hw lhs _)

theorem tcheckArgs_bounded (hw : 1 ≤ w) (args : List Arg) (d : Nat) :
    Accepts (tcheckArgs args d) → (w = 1 → ∀ o ∈ args, o.value.hasLowBitsCall = false) →
      ∀ o ∈ args, o.value.ChainsAtMost (w * (maxExprDepth - d)) := by
  intro h hl
  match args with
  | [] => exact fun _ h => nomatch h
  | .mk a p n v :: os =>
    unfold tcheckArgs tcheckArg at h
    obtain ⟨h₁, _, h⟩ := Accepts.of_bind h
    refine List.forall_mem_cons.2 ⟨tcheckExpr_bounded hw v d (Accepts.of_bind h₁).1
      fun h1 => hl h1 _ (List.mem_cons_self _ _), ?_⟩
    exact tcheckArgs_bounded hw os d h fun h1 o ho => hl h1 o (List.mem_cons_of_mem _ ho)
end

end Bound

/-- Every chain of child edges of an expression that `tcheckExpr` accepts at depth `d`, from
any state, has at most `2 * (MaxExprDepth - d)` edges, and at most `MaxExprDepth - d` when the
expression has no `low_bits` call. -/
theorem tcheckExpr_chain_le (e : Expr) (d : Nat) (q q' : Checker)
    (h : tcheckExpr e d q = (.ok (), q')) :
    (∀ n, e.Chain n → n ≤ 2 * (maxExprDepth - d)) ∧
      (e.hasLowBitsCall = false → ∀ n, e.Chain n → n ≤ maxExprDepth - d) :=
  ⟨tcheckExpr_bounded (by omega) e d ⟨q, (), q', h⟩ (by omega), fun hl n hn => by
    simpa using tcheckExpr_bounded le_rfl e d ⟨q, (), q', h⟩ (fun _ => hl) n hn⟩

/-- `m` returns from every state. -/
def Succeeds (m : CheckM α) : Prop := ∀ q, ∃ a q', m q = (.ok a, q')

namespace Succeeds

theorem pure (a : α) : Succeeds (Pure.pure a : CheckM α) := fun q => ⟨a, q, rfl⟩

theorem update (g : Checker → Checker) : Succeeds (CheckM.update g) := fun q => ⟨(), g q, rfl⟩

theorem read (g : Checker → α) : Succeeds (CheckM.read g) := fun q => ⟨g q, q, rfl⟩

theorem require {ok : Bool} (h : ok = true) (e : Err) : Succeeds (CheckM.require ok e) := by
  subst h
  exact pure ()

theorem bind {m : CheckM α} {f : α → CheckM β} (hm : Succeeds m) (hf : ∀ a, Succeeds (f a)) :
    Succeeds (m >>= f) := by
  intro q
  obtain ⟨a, q₁, h₁⟩ := hm q
  obtain ⟨b, q₂, h₂⟩ := hf a q₁
  exact ⟨b, q₂, bind_eq_ok.2 ⟨a, q₁, h₁, h₂⟩⟩

end Succeeds

/-- A numeric literal is accepted within the limit. -/
theorem Succeeds.numLiteral {a : Addr} {s : String} {z : Int} {d : Nat} (hs : setString s = some z)
    (hd : d ≤ maxExprDepth) : Succeeds (tcheckExpr (.other (.leaf a (.numLiteral s))) d) := by
  rw [tcheckExpr]
  refine .bind (.require (decide_eq_true hd) _) fun _ => .bind ?_ fun _ => .update _
  refine .bind (.read _) fun lv => ?_
  have : leafRule lv (.numLiteral s) = .ok (.ideal, some z) := by
    simp only [leafRule, ID.isNumLiteral, ID.text, if_true, hs]
  rw [this]
  exact .bind (.update _) fun _ => .update _

/-- `foo.low_bits(n: 3)` is accepted at `d` when `foo` is accepted at `d + 1`. -/
theorem Succeeds.lowBits {a la b c : Addr} {foo : Expr} {d : Nat} (hd : d + 1 ≤ maxExprDepth)
    (hfoo : Succeeds (tcheckExpr foo (d + 1))) :
    Succeeds (tcheckExpr (.other (.call a false false (.other (.dot (.mk la foo .keyLowBits)))
      [.mk b ⟨"", 0⟩ (.ident "n") (.other (.leaf c (.numLiteral "3")))])) d) := by
  rw [tcheckExpr]
  refine .bind (.require (decide_eq_true (by omega)) _) fun _ => .bind ?_ fun _ => .update _
  show Succeeds (tcheckExprOther _ _)
  rw [tcheckExprOther, if_neg (by simp)]
  split
  · refine .bind hfoo fun _ => .bind (.update _) fun _ => .bind (.update _) fun _ =>
      .bind ?_ fun _ => .bind (.read _) fun _ => .update _
    exact .bind (.bind (.numLiteral rfl hd) fun _ => .update _) fun _ => .pure ()
  · exact absurd rfl ‹_›

/-- `7`, inside `k` calls `·.low_bits(n: 3)`; the nodes of the call around the `j`th are at
`4 * j + 1` to `4 * j + 4`. -/
def lowBitsNest : Nat → Expr
  | 0 => .other (.leaf 0 (.numLiteral "7"))
  | k + 1 => .other (.call (4 * k + 1) false false
      (.other (.dot (.mk (4 * k + 2) (lowBitsNest k) .keyLowBits)))
      [.mk (4 * k + 3) ⟨"", 0⟩ (.ident "n") (.other (.leaf (4 * k + 4) (.numLiteral "3")))])

/-- Each call adds two edges: to its callee, then to the receiver. -/
theorem lowBitsNest_chain : ∀ k, (lowBitsNest k).Chain (2 * k)
  | 0 => .nil _
  | k + 1 => .cons (List.mem_cons_self _ _) (.cons (List.mem_singleton_self _) (lowBitsNest_chain k))

/-- `k` nested calls are accepted from every state at every depth `d` with `d + k` within
the limit: one depth per call, two edges. -/
theorem lowBitsNest_accepted : ∀ (k d : Nat), d + k ≤ maxExprDepth →
    Succeeds (tcheckExpr (lowBitsNest k) d)
  | 0, _, hd => .numLiteral rfl hd
  | k + 1, d, hd => .lowBits (by omega) (lowBitsNest_accepted k (d + 1) (by omega))

/-- `-7`, with the nodes of the literal and of the negation at 0 and 1. -/
def minusSeven : Expr := .unaryOp (.mk 1 .xUnaryMinus (.other (.leaf 0 (.numLiteral "7"))))

/-- At `MaxExprDepth - 1` both bounds are reached: one call has a chain of two edges, and `-7`,
with no call, a chain of one. -/
theorem lowBitsNest_one_chain_le :
    (tcheckExpr (lowBitsNest 1) 254 .empty).1 = .ok () ∧ 2 ≤ 2 * (maxExprDepth - 254) ∧
      (tcheckExpr minusSeven 254 .empty).1 = .ok () ∧ 1 ≤ maxExprDepth - 254 :=
  ⟨rfl, (tcheckExpr_chain_le (lowBitsNest 1) 254 .empty _ rfl).1 2 (lowBitsNest_chain 1), rfl,
    (tcheckExpr_chain_le minusSeven 254 .empty _ rfl).2 rfl 1
      (.cons (List.mem_singleton_self _) (.nil _))⟩

/-- 255 nested calls are accepted at depth 0, with a chain of 510 edges: more than
`MaxExprDepth - 0`. -/
theorem lowBitsNest_exceeds_limit :
    (∃ q', tcheckExpr (lowBitsNest 255) 0 .empty = (.ok (), q')) ∧ (lowBitsNest 255).Chain 510 ∧
      maxExprDepth - 0 < 510 := by
  obtain ⟨_, q', h⟩ := lowBitsNest_accepted 255 0 (by decide) .empty
  exact ⟨⟨q', h⟩, lowBitsNest_chain 255, by decide⟩

/-- `m'` does what `m` does on every run of `m` that does not end with the error `E`. -/
def AgreesBelow (E : Err) (m m' : CheckM α) : Prop :=
  ∀ q r q', m q = (r, q') → r ≠ .error E → m' q = (r, q')

namespace AgreesBelow

variable {E : Err}

theorem refl (m : CheckM α) : AgreesBelow E m m := fun _ _ _ h _ => h

theorem bind {m m' : CheckM α} {f f' : α → CheckM β} (hm : AgreesBelow E m m')
    (hf : ∀ a, AgreesBelow E (f a) (f' a)) : AgreesBelow E (m >>= f) (m' >>= f') := by
  intro q r q' h hr
  rw [bind_apply] at h ⊢
  rcases h₁ : m q with ⟨_ | a, q₁⟩ <;> rw [h₁] at h
  · obtain ⟨rfl, rfl⟩ := Prod.mk.inj h
    rw [hm q _ q₁ h₁ fun h' => hr (congrArg Except.error (Except.error.inj h'))]
  · rw [hm q _ q₁ h₁ (fun h => nomatch h)]
    exact hf a q₁ r q' h hr

theorem ite {c : Prop} [Decidable c] {a a' b b' : CheckM α} (ha : AgreesBelow E a a')
    (hb : AgreesBelow E b b') : AgreesBelow E (if c then a else b) (if c then a' else b') := by
  split <;> assumption

/-- The limit's test: passing it at the larger depth passes it at the smaller one, and failing
it ends the run with `E`. -/
theorem require {ok ok' : Bool} (h : ok = true → ok' = true) :
    AgreesBelow E (CheckM.require ok E) (CheckM.require ok' E) := by
  intro q r q' hm hr
  cases ok
  · exact absurd (congrArg Prod.fst hm).symm hr
  · rw [h rfl]; exact hm

end AgreesBelow

/-- The expression limit's test, at two depths `d' ≤ d`. -/
theorem AgreesBelow.exprDepth {d d' : Nat} (hd : d' ≤ d) :
    AgreesBelow .exprRecursionDepthTooLarge (CheckM.require (decide (d ≤ maxExprDepth))
      .exprRecursionDepthTooLarge) (CheckM.require (decide (d' ≤ maxExprDepth))
      .exprRecursionDepthTooLarge) :=
  .require fun h => decide_eq_true (hd.trans (of_decide_eq_true h))

mutual
theorem tcheckExpr_agreesBelow (e : Expr) {d d' : Nat} (hd : d' ≤ d) :
    AgreesBelow .exprRecursionDepthTooLarge (tcheckExpr e d) (tcheckExpr e d') := by
  unfold tcheckExpr
  refine .bind (.exprDepth hd) fun _ => .bind ?_ fun _ => .refl _
  have hd₁ := Nat.succ_le_succ hd
  match e with
  | .other o => exact tcheckExprOther_agreesBelow o hd₁
  | .unaryOp (.mk a op rhs) =>
    unfold tcheckExprUnaryOp
    exact .bind (tcheckExpr_agreesBelow rhs hd₁) fun _ => .refl _
  | .binaryOp (.as a lhs rhs) =>
    unfold tcheckExprBinaryOp
    exact .bind (tcheckExpr_agreesBelow lhs hd₁) fun _ => .refl _
  | .binaryOp (.mk a op lhs rhs) =>
    unfold tcheckExprBinaryOp
    exact .bind (tcheckExpr_agreesBelow lhs hd₁) fun _ => .bind (.refl _) fun _ =>
      .bind (tcheckExpr_agreesBelow rhs hd₁) fun _ => .refl _
  | .associativeOp (.mk _ _ _) => exact .refl _

theorem tcheckExprOther_agreesBelow (n : ExprOther) {d d' : Nat} (hd : d' ≤ d) :
    AgreesBelow .exprRecursionDepthTooLarge (tcheckExprOther n d) (tcheckExprOther n d') := by
  unfold tcheckExprOther
  match n with
  | .leaf a id1 => exact .refl _
  | .call a i s lhs args =>
    refine .ite (.bind (tcheckExpr_agreesBelow lhs hd) fun _ => .refl _) (.ite ?_ (.refl _))
    match lhs with
    | .other (.dot (.mk la foo id)) =>
      exact .bind (tcheckExpr_agreesBelow foo hd) fun _ => .bind (.refl _) fun _ =>
        .bind (.refl _) fun _ => .bind (tcheckArgs_agreesBelow args hd) fun _ => .refl _
    | .other (.leaf ..) | .other (.call ..) | .other (.index ..) | .other (.slice ..) | .unaryOp _
    | .binaryOp _ | .associativeOp _ => exact .refl _
  | .index .. | .slice .. => exact .refl _
  | .dot (.mk a lhs id1) =>
    unfold tcheckDot
    exact .bind (tcheckExpr_agreesBelow lhs hd) fun _ => .refl _

theorem tcheckArgs_agreesBelow (args : List Arg) {d d' : Nat} (hd : d' ≤ d) :
    AgreesBelow .exprRecursionDepthTooLarge (tcheckArgs args d) (tcheckArgs args d') := by
  match args with
  | [] => exact .refl _
  | .mk a p n v :: os =>
    unfold tcheckArgs tcheckArg
    exact .bind (.bind (tcheckExpr_agreesBelow v hd) fun _ => .refl _) fun _ =>
      tcheckArgs_agreesBelow os hd
end

/-- The expression depth limit only cuts off: a check of `e` from depth `d`, from any state,
that does not stop at the limit returns the same result and leaves the same state from every
smaller depth. -/
theorem tcheckExpr_depth_cutoff (e : Expr) {d d' : Nat} (hd : d' ≤ d) (q q' : Checker)
    (r : Except Err Unit) (h : tcheckExpr e d q = (r, q'))
    (hr : r ≠ .error .exprRecursionDepthTooLarge) : tcheckExpr e d' q = (r, q') :=
  tcheckExpr_agreesBelow e hd q r q' h hr

/-- Two nested calls checked from depth 253 and from depth 0 compute the same. -/
theorem lowBitsNest_two_cutoff :
    tcheckExpr (lowBitsNest 2) 0 .empty =
      ((tcheckExpr (lowBitsNest 2) 253 .empty).1, (tcheckExpr (lowBitsNest 2) 253 .empty).2) :=
  tcheckExpr_depth_cutoff (lowBitsNest 2) (Nat.zero_le 253) .empty _ _ rfl (by intro h; cases h)

theorem tcheckTypeExpr_agreesBelow (t : TypeExpr) {d d' : Nat} (hd : d' ≤ d) :
    AgreesBelow .typeExprRecursionDepthTooLarge (tcheckTypeExpr t d) (tcheckTypeExpr t d') := by
  unfold tcheckTypeExpr
  refine .bind (.require fun h => decide_eq_true (hd.trans (of_decide_eq_true h))) fun _ => ?_
  have hd₁ := Nat.succ_le_succ hd
  match t with
  | .named .. => exact .refl _
  | .ptr a inner => exact .bind (tcheckTypeExpr_agreesBelow inner hd₁) fun _ => .refl _
  | .array a aLen inner =>
    exact .bind (.refl _) fun _ => .bind (.refl _) fun _ => .bind (.refl _) fun _ =>
      .bind (tcheckTypeExpr_agreesBelow inner hd₁) fun _ => .refl _

/-- The type expression depth limit only cuts off: a check of `t` from depth `d`, from any
state, that does not stop at the limit returns the same result and leaves the same state from
every smaller depth. -/
theorem tcheckTypeExpr_depth_cutoff (t : TypeExpr) {d d' : Nat} (hd : d' ≤ d) (q q' : Checker)
    (r : Except Err Unit) (h : tcheckTypeExpr t d q = (r, q'))
    (hr : r ≠ .error .typeExprRecursionDepthTooLarge) : tcheckTypeExpr t d' q = (r, q') :=
  tcheckTypeExpr_agreesBelow t hd q r q' h hr

/-- `ptr ptr u8`, its nodes at 0 to 2. -/
def ptrPtrU8 : TypeExpr := .ptr 0 (.ptr 1 (.named 2 .zero .keyU8 none none))

/-- `ptr ptr u8` checked from depth 61 and from depth 0 computes the same. -/
theorem ptrPtrU8_cutoff :
    tcheckTypeExpr ptrPtrU8 0 .empty =
      ((tcheckTypeExpr ptrPtrU8 61 .empty).1, (tcheckTypeExpr ptrPtrU8 61 .empty).2) :=
  tcheckTypeExpr_depth_cutoff ptrPtrU8 (Nat.zero_le 61) .empty _ _ rfl (by intro h; cases h)

/-- The `Inner` edges below `t`: its `ptr` and array decorators, down to its named type. -/
def TypeExpr.innerDepth : TypeExpr → Nat
  | .named .. => 0
  | .ptr _ inner | .array _ _ inner => inner.innerDepth + 1

/-- A type expression accepted at depth `d` has at most `MaxTypeExprDepth - d` decorators
above its named type: the decorators and the named type are checked at `d`, `d + 1`, ..., each
within the limit. Bounds and array lengths are expressions, checked from depth 0 under their
own limit. -/
theorem tcheckTypeExpr_innerDepth_le {t : TypeExpr} {d : Nat} {q q' : Checker}
    (h : tcheckTypeExpr t d q = (.ok (), q')) : d + t.innerDepth ≤ maxTypeExprDepth := by
  unfold tcheckTypeExpr at h
  obtain ⟨hd, h⟩ := require_bind_eq_ok.mp h
  replace hd : d ≤ maxTypeExprDepth := of_decide_eq_true hd
  match t with
  | .named .. => exact hd
  | .ptr a inner =>
    obtain ⟨_, _, hi, -⟩ := bind_eq_ok.mp h
    have := tcheckTypeExpr_innerDepth_le hi
    simp only [TypeExpr.innerDepth]; omega
  | .array a aLen inner =>
    obtain ⟨_, _, -, h⟩ := bind_eq_ok.mp h
    obtain ⟨_, _, -, h⟩ := bind_eq_ok.mp h
    obtain ⟨_, _, -, h⟩ := bind_eq_ok.mp h
    obtain ⟨_, _, hi, -⟩ := bind_eq_ok.mp h
    have := tcheckTypeExpr_innerDepth_le hi
    simp only [TypeExpr.innerDepth]; omega

/-- `ptr ptr u8` is accepted from depth 61, where its two decorators reach the limit. -/
theorem ptrPtrU8_innerDepth : 61 + ptrPtrU8.innerDepth ≤ maxTypeExprDepth :=
  @tcheckTypeExpr_innerDepth_le ptrPtrU8 61 .empty _ rfl

end Puffs
