import Puffs.Jumps
import Puffs.Operands
/-!
# The statements the checker accepts

A typing judgment for statements, given apart from the checker and built on `infer` and
`IsTarget`: the condition of an `assert`, of a `while` and of each `if` clause is an expression
`infer` types `bool`; an assignment's operands have the types `infer` gives them and
`assignRule` accepts the pair; each reason of an `assert` and the value of a `return` or a
`var` has a type; a `break` or `continue` has a target among the loops open around it; and the
body of a `while` is judged with that loop open. It leaves out what `tcheckStatement` leaves
out: the value of a `return` is not compared with the function's result, nor that of a `var`
with its declared type (the two `TODO`s of the Go source).

`tcheckStatement_typed`: every statement `tcheckStatement` accepts, with distinct nodes, is
typed, in the names in scope and under the loops open where its check began.
-/
namespace Puffs

open CheckM

/-- `infer` gives `e` a type in `env`. -/
def Env.HasType (env : Env) (e : Expr) : Prop := ∃ r, infer env e = some r

/-- `infer` gives `e` a type in `env`, and it is `bool`. -/
def Env.IsBool (env : Env) (e : Expr) : Prop := ∃ r, infer env e = some r ∧ r.1.eq .bool = true

/-- An assert: its condition is a `bool` and each reason argument has a type. -/
def Assert.Typed (env : Env) (n : Assert) : Prop :=
  env.IsBool n.condition ∧ ∀ o ∈ n.args, env.HasType o.value

mutual
/-- The judgment for a statement, in the names `env` and under the open loops `ts`, outermost
first as `q.jumpTargets` keeps them. -/
inductive Stmt.Typed (env : Env) : List While → Stmt → Prop
  | kAssert {ts : List While} {n : Assert} : n.Typed env → Stmt.Typed env ts (.kAssert n)
  | kAssign {ts : List While} {n : Assign} {l r : MType × Option Int} :
      infer env n.lhs = some l → infer env n.rhs = some r →
      assignRule n.operator n.lhs n.rhs l.1 r.1 = .ok () → Stmt.Typed env ts (.kAssign n)
  | kIf {ts : List While} {n : If} : If.Typed env ts n → Stmt.Typed env ts (.kIf n)
  | kJump {ts : List While} {n : Jump} {w : While} : IsTarget ts n.label w →
      Stmt.Typed env ts (.kJump n)
  | kReturn {ts : List While} {n : Return} : (∀ v ∈ n.value, env.HasType v) →
      Stmt.Typed env ts (.kReturn n)
  | kVar {ts : List While} {n : Var} : (∀ v ∈ n.value, env.HasType v) →
      Stmt.Typed env ts (.kVar n)
  | kWhile {ts : List While} {w : While} : env.IsBool w.condition →
      (∀ a ∈ w.asserts, a.Typed env) → Stmt.TypedList env (ts ++ [w]) w.body →
      Stmt.Typed env ts (.kWhile w)

/-- The judgment for an `if` clause and the `else if` clauses after it. -/
inductive If.Typed (env : Env) : List While → If → Prop
  | mk {ts : List While} {n : If} : env.IsBool n.condition → Stmt.TypedList env ts n.bodyIfTrue →
      Stmt.TypedList env ts n.bodyIfFalse → (∀ n', n.elseIf = some n' → If.Typed env ts n') →
      If.Typed env ts n

/-- The judgment for a block, statement by statement. -/
inductive Stmt.TypedList (env : Env) : List While → List Stmt → Prop
  | nil {ts : List While} : Stmt.TypedList env ts []
  | cons {ts : List While} {s : Stmt} {body : List Stmt} :
      Stmt.Typed env ts s → Stmt.TypedList env ts body → Stmt.TypedList env ts (s :: body)
end

/-- The judgment for each kind of code the statement checker walks. -/
def Code.Typed (env : Env) (ts : List While) : Code → Prop
  | .stmt s => Stmt.Typed env ts s
  | .stmts body => Stmt.TypedList env ts body
  | .chain n => If.Typed env ts n

section Parts

variable {q q' : Checker}

theorem While.condition_sublist (w : While) : w.condition.addrs.Sublist w.addrs := by
  rcases w with ⟨a, p, l, cond, asserts, body⟩
  exact (List.sublist_append_left _ _).trans (List.sublist_cons_self _ _)

theorem While.asserts_sublist (w : While) : (Assert.addrsList w.asserts).Sublist w.addrs := by
  rcases w with ⟨a, p, l, cond, asserts, body⟩
  exact ((List.sublist_append_left _ _).trans (List.sublist_append_right _ _)).trans
    (List.sublist_cons_self _ _)

theorem If.condition_sublist (n : If) : n.condition.addrs.Sublist n.addrs := by
  rcases n with ⟨a, p, cond, e, t, f⟩
  exact (List.sublist_append_left _ _).trans (List.sublist_cons_self _ _)

theorem Code.Typed.of_frame {A : List Addr} {c : Code} (K : StmtFrame A q q')
    (h : c.Typed q'.env q'.jumpTargets) : c.Typed q.env q.jumpTargets := by
  rwa [K.env, K.jumpTargets] at h

theorem tcheckExpr_hasType {e : Expr} (hn : e.addrs.Nodup) {d : Nat}
    (h : tcheckExpr e d q = (.ok (), q')) : q.env.HasType e :=
  let ⟨r, hr, _⟩ := tcheckExpr_infers e hn d q q' h
  ⟨r, hr⟩

theorem whenSome_hasType {x : Option Expr} (hn : (Expr.addrsOpt x).Nodup)
    (h : whenSome x (tcheckExpr · 0) q = (.ok (), q')) : ∀ v ∈ x, q.env.HasType v := by
  rintro v (rfl : x = some v)
  exact tcheckExpr_hasType hn h

/-- A check of `e`, then a read of the type it left on `e`, then `g` of that type: `g` runs on
the type `infer` gives `e`, from a state with the same names in scope. -/
theorem checked_then {e : Expr} (hn : e.addrs.Nodup) {g : MType → CheckM Unit}
    (h : (tcheckExpr e 0 >>= fun _ => mTypeOf e >>= g) q = (.ok (), q')) :
    ∃ r q₁, infer q.env e = some r ∧ q₁.env = q.env ∧ g r.1 q₁ = (.ok (), q') := by
  obtain ⟨_, q₁, h₁, h⟩ := bind_eq_ok.mp h
  obtain ⟨r, hr, A⟩ := tcheckExpr_infers e hn 0 q q₁ h₁
  obtain ⟨t, ht, h⟩ := mTypeOf_bind_eq_ok.mp h
  obtain rfl : r.1 = t := Option.some.inj (A.mType.symm.trans ht)
  exact ⟨r, q₁, hr, ((tcheckExpr_keeps e 0).of_eq h₁).env, h⟩

theorem tcheckAssertArgs_typed {args : List Arg} (hn : (Arg.addrsList args).Nodup)
    (h : tcheckAssert.tcheckAssertArgs args q = (.ok (), q')) :
    ∀ o ∈ args, q.env.HasType o.value := by
  induction args generalizing q with
  | nil => nofun
  | cons o os ih =>
    rcases o with ⟨a, p, name, value⟩
    obtain ⟨_, q₁, h₁, h⟩ := bind_eq_ok.mp h
    obtain ⟨_, q₂, h₂, h⟩ := bind_eq_ok.mp h
    have hn' := List.nodup_append.mp hn
    have e : q₂.env = q.env := (Prod.mk.inj h₂).2 ▸ ((tcheckExpr_keeps value 0).of_eq h₁).env
    rintro o (_ | ⟨_, ho⟩)
    · exact tcheckExpr_hasType (List.nodup_cons.mp hn'.1).2 h₁
    · exact e ▸ ih hn'.2.1 h o ho

theorem tcheckAssert_typed {n : Assert} (hn : n.addrs.Nodup) (h : tcheckAssert n q = (.ok (), q')) :
    n.Typed q.env := by
  have hn' := List.nodup_append.mp (List.nodup_cons.mp hn).2
  obtain ⟨r, q₁, hr, e, h⟩ := checked_then hn'.1 h
  obtain ⟨hb, h⟩ := require_bind_eq_ok.mp h
  exact ⟨⟨r, hr, hb⟩, e ▸ tcheckAssertArgs_typed hn'.2.1 h⟩

theorem tcheckWhileAsserts_typed {asserts : List Assert} (hn : (Assert.addrsList asserts).Nodup)
    (h : tcheckWhileHead.tcheckWhileAsserts asserts q = (.ok (), q')) :
    ∀ a ∈ asserts, a.Typed q.env := by
  induction asserts generalizing q with
  | nil => nofun
  | cons o os ih =>
    obtain ⟨_, q₁, h₁, h⟩ := bind_eq_ok.mp h
    obtain ⟨_, q₂, h₂, h⟩ := bind_eq_ok.mp h
    have hn' := List.nodup_append.mp hn
    have e : q₂.env = q.env := (Prod.mk.inj h₂).2 ▸ ((tcheckAssert_keeps o).of_eq h₁).env
    rintro a (_ | ⟨_, ha⟩)
    · exact tcheckAssert_typed hn'.1 h₁
    · exact e ▸ ih hn'.2.1 h a ha

theorem tcheckWhileHead_typed {w : While} (hn : w.addrs.Nodup)
    (h : tcheckWhileHead w q = (.ok (), q')) :
    q.env.IsBool w.condition ∧ ∀ a ∈ w.asserts, a.Typed q.env := by
  obtain ⟨r, q₁, hr, e, h⟩ := checked_then (hn.sublist w.condition_sublist) h
  obtain ⟨hb, h⟩ := require_bind_eq_ok.mp h
  exact ⟨⟨r, hr, hb⟩, e ▸ tcheckWhileAsserts_typed (hn.sublist w.asserts_sublist) h⟩

theorem tcheckIfCondition_isBool {n : If} (hn : n.condition.addrs.Nodup)
    (h : tcheckIfCondition n q = (.ok (), q')) : q.env.IsBool n.condition := by
  obtain ⟨r, q₁, hr, -, h⟩ := checked_then hn h
  exact ⟨r, hr, (require_eq_ok.mp h).1⟩

end Parts

/-- Every successful check of `c`, with distinct nodes, accepts code the judgment types in the
names in scope and under the loops open at the start. -/
def TypedSpec (c : Code) : Prop :=
  ∀ ⦃q q'⦄, c.addrs.Nodup → c.check q = (.ok (), q') → c.Typed q.env q.jumpTargets

namespace TypedSpec

theorem kAssert (n : Assert) : TypedSpec (.stmt (.kAssert n)) := by
  intro q q' hn h
  rw [Code.check, (leafCheck_kAssert n).apply] at h
  obtain ⟨_, _, h, -⟩ := bind_eq_ok.mp h
  have ha := tcheckAssert_typed hn h
  exact Stmt.Typed.kAssert ha

theorem kAssign (n : Assign) : TypedSpec (.stmt (.kAssign n)) := by
  intro q q' hn h
  rw [Code.check, (leafCheck_kAssign n).apply] at h
  obtain ⟨_, _, h, -⟩ := bind_eq_ok.mp h
  obtain ⟨l, r, hl, hr, -, -, ha⟩ := tcheckAssign_infer (List.nodup_cons.mp hn).2 h
  exact Stmt.Typed.kAssign hl hr ha

theorem kIf {n : If} (ih : TypedSpec (.chain n)) : TypedSpec (.stmt (.kIf n)) := by
  intro q q' hn h
  rw [Code.check, tcheckStatement_kIf] at h
  obtain ⟨_, _, h, -⟩ := bind_eq_ok.mp h
  have hc := ih hn h
  exact Stmt.Typed.kIf hc

theorem kJump (j : Jump) : TypedSpec (.stmt (.kJump j)) := by
  intro q q' _ h
  rw [Code.check, tcheckStatement_kJump] at h
  obtain ⟨_, _, h, -⟩ := bind_eq_ok.mp h
  obtain ⟨w, hw, -⟩ := tcheckJump_ok h
  exact Stmt.Typed.kJump (findJumpTarget_eq_some.mp hw)

theorem kReturn (n : Return) : TypedSpec (.stmt (.kReturn n)) := by
  intro q q' hn h
  rw [Code.check, (leafCheck_kReturn n).apply] at h
  obtain ⟨_, _, h, -⟩ := bind_eq_ok.mp h
  rcases n with ⟨a, p, _ | v⟩
  · exact Stmt.Typed.kReturn nofun
  · have hv := whenSome_hasType (List.nodup_cons.mp hn).2 h
    exact Stmt.Typed.kReturn hv

theorem kVar (n : Var) : TypedSpec (.stmt (.kVar n)) := by
  intro q q' hn h
  rw [Code.check, (leafCheck_kVar n).apply] at h
  obtain ⟨_, _, h, -⟩ := bind_eq_ok.mp h
  rw [tcheckVarStatement, read_bind, require_bind_eq_ok] at h
  have hv := whenSome_hasType (List.nodup_append.mp (List.nodup_cons.mp hn).2).2.1 h.2
  exact Stmt.Typed.kVar hv

theorem kWhile {w : While} (ih : TypedSpec (.stmts w.body)) : TypedSpec (.stmt (.kWhile w)) := by
  intro q q' hn h
  rw [Code.check, tcheckStatement_kWhile, bind_eq_ok] at h
  obtain ⟨_, q₁, hh, h⟩ := h
  rw [pushJumpTarget, update_bind, deferring_eq_ok] at h
  obtain ⟨_, h, -⟩ := h
  obtain ⟨_, _, h, -⟩ := bind_eq_ok.mp h
  obtain ⟨hc, ha⟩ := tcheckWhileHead_typed hn hh
  have K := ((tcheckWhileHead_keeps w).of_eq hh).stmt
  have hb : Stmt.TypedList q₁.env (q₁.jumpTargets ++ [w]) w.body :=
    ih (hn.sublist w.body_sublist) h
  rw [K.env, K.jumpTargets] at hb
  exact Stmt.Typed.kWhile hc ha hb

theorem nil : TypedSpec (.stmts []) := fun _ _ _ _ => Stmt.TypedList.nil

theorem cons {s : Stmt} {body : List Stmt} (hs : TypedSpec (.stmt s))
    (hb : TypedSpec (.stmts body)) : TypedSpec (.stmts (s :: body)) := by
  intro q q' hn h
  rw [Code.check, tcheckStatements_cons] at h
  obtain ⟨_, q₁, h₁, h⟩ := bind_eq_ok.mp h
  have hn' := List.nodup_append.mp hn
  exact Stmt.TypedList.cons (hs hn'.1 h₁)
    (Code.Typed.of_frame ((tcheckStatement_keeps s).of_eq h₁) (hb hn'.2.1 h))

theorem chain {n : If} (ht : TypedSpec (.stmts n.bodyIfTrue))
    (hf : TypedSpec (.stmts n.bodyIfFalse))
    (he : ∀ n', n.elseIf = some n' → TypedSpec (.chain n')) : TypedSpec (.chain n) := by
  intro q q' hn h
  rw [Code.check, tcheckIfChain_apply] at h
  obtain ⟨_, q₁, hc, h⟩ := bind_eq_ok.mp h
  obtain ⟨_, q₂, h₁, h⟩ := bind_eq_ok.mp h
  obtain ⟨_, q₃, h₂, h⟩ := bind_eq_ok.mp h
  have K₁ := ((tcheckIfCondition_keeps n).of_eq hc).stmt
  have K₂ := (tcheckStatements_keeps _).of_eq h₁
  have K₃ := (tcheckStatements_keeps _).of_eq h₂
  have hb := List.nodup_append.mp (hn.sublist n.bodies_sublist)
  refine If.Typed.mk (tcheckIfCondition_isBool (hn.sublist n.condition_sublist) hc)
    (Code.Typed.of_frame K₁ (ht hb.1 h₁))
    (Code.Typed.of_frame K₁ (Code.Typed.of_frame K₂ (hf (List.nodup_append.mp hb.2.1).1 h₂)))
    fun n' hn' => ?_
  rw [hn', whenSome_some] at h
  exact Code.Typed.of_frame K₁ (Code.Typed.of_frame K₂
    (Code.Typed.of_frame K₃ (he n' hn' (hn.sublist (If.elseIf_sublist hn')) h)))

end TypedSpec

theorem Code.typedSpec (c : Code) : TypedSpec c := by
  induction c using Code.induction with
  | kAssert n => exact .kAssert n
  | kAssign n => exact .kAssign n
  | kIf n ih => exact .kIf ih
  | kJump j => exact .kJump j
  | kReturn n => exact .kReturn n
  | kVar n => exact .kVar n
  | kWhile w ih => exact .kWhile ih
  | nil => exact .nil
  | cons s body hs hb => exact .cons hs hb
  | chain n ht hf he => exact .chain ht hf he

/-- Every statement `tcheckStatement` accepts, with distinct nodes, is typed: in the names in
scope and under the loops open where its check began. -/
theorem tcheckStatement_typed (s : Stmt) (q q' : Checker) (hn : s.addrs.Nodup)
    (h : tcheckStatement s q = (.ok (), q')) : Stmt.Typed q.env q.jumpTargets s :=
  Code.typedSpec (.stmt s) hn h

/-- `while true { x += 1; break }`. -/
def whileIncBreak : Stmt :=
  .kWhile (.mk 1 ⟨"", 1⟩ .zero (.other (.leaf 2 .keyTrue)) []
    [.kAssign ⟨3, ⟨"", 2⟩, .plusEq, .other (.leaf 4 (.ident "x")),
        .other (.leaf 5 (.numLiteral "1"))⟩,
      .kJump ⟨6, ⟨"", 3⟩, .keyBreak, .zero⟩])

/-- With `x` a `u32` the loop is accepted, and is typed with no loop open around it. -/
theorem whileIncBreak_typed :
    whileIncBreak.addrs.Nodup ∧ Stmt.Typed (Checker.declaring "x" .keyU32).env [] whileIncBreak :=
  ⟨by decide, tcheckStatement_typed whileIncBreak (Checker.declaring "x" .keyU32) _ (by decide) rfl⟩

end Puffs
