import Mathlib.Control.Lawful
/-!
# Walking the raw node layout

Every node of `lang/ast` shares one layout: three child pointers `LHS`, `MHS`, `RHS` and two
child lists `List0`, `List1`, any pointer possibly nil. `Node.Walk` visits a node, then walks
its `SubNodes` and its `SubLists`, and returns the first error. A visitor is any function of the
node in any monad, its effects being the monad's; it reads the tree and does not rewrite its
child links, which immutable nodes cannot express.

Walking is running the visitor over the pre-order sequence of the non-nil nodes, stopping at
the first error (`Node.walk_eq_forM`). With a visitor that records its calls, the recorded
calls are the prefix of that sequence up to the first rejected node.
-/
namespace Puffs

/-- The raw layout of an AST node. `data` stands for the fields `Walk` does not read (kind,
flags, IDs, position, annotations); the visitor may read them. -/
inductive Node (α : Type) where
  | mk (data : α) (lhs mhs rhs : Option (Node α)) (list0 list1 : List (Option (Node α)))

namespace Node

variable {α ε : Type} {m : Type → Type} [Monad m]

def data : Node α → α
  | .mk d .. => d

mutual
/-- `n.Walk(f)`: call `f` on `n`, then walk `LHS`, `MHS` and `RHS` (the loop over
`SubNodes`), then the elements of `List0` and of `List1` (the loop over `SubLists`), returning
the first error. -/
def walk (f : Node α → ExceptT ε m Unit) : Node α → ExceptT ε m Unit
  | n@(.mk _ lhs mhs rhs list0 list1) => do
    f n
    walkOpt f lhs
    walkOpt f mhs
    walkOpt f rhs
    walkList f list0
    walkList f list1

/-- `o.Walk(f)` on a child pointer: nothing when `o` is nil. -/
def walkOpt (f : Node α → ExceptT ε m Unit) : Option (Node α) → ExceptT ε m Unit
  | none => pure ()
  | some n => walk f n

/-- `for _, o := range l { if err := o.Walk(f); err != nil { return err } }`. -/
def walkList (f : Node α → ExceptT ε m Unit) : List (Option (Node α)) → ExceptT ε m Unit
  | [] => pure ()
  | o :: os => do
    walkOpt f o
    walkList f os
end

mutual
/-- The pre-order sequence of the non-nil nodes: a node, then recursively its `LHS`, `MHS`
and `RHS`, then each element of `List0`, then each element of `List1`. -/
def preorder : Node α → List (Node α)
  | n@(.mk _ lhs mhs rhs list0 list1) =>
    n :: (preorderOpt lhs ++ preorderOpt mhs ++ preorderOpt rhs ++ preorderList list0 ++
      preorderList list1)

def preorderOpt : Option (Node α) → List (Node α)
  | none => []
  | some n => preorder n

def preorderList : List (Option (Node α)) → List (Node α)
  | [] => []
  | o :: os => preorderOpt o ++ preorderList os
end

mutual
/-- Walking a node runs the visitor over its pre-order sequence, stopping at the first
error. -/
theorem walk_eq_forM [LawfulMonad m] (f : Node α → ExceptT ε m Unit) :
    ∀ n : Node α, n.walk f = n.preorder.forM f
  | .mk _ lhs mhs rhs list0 list1 => by
    simp only [walk, preorder, List.forM_cons', List.forM_append, bind_assoc, walkOpt_eq_forM f lhs,
      walkOpt_eq_forM f mhs, walkOpt_eq_forM f rhs, walkList_eq_forM f list0,
      walkList_eq_forM f list1]

theorem walkOpt_eq_forM [LawfulMonad m] (f : Node α → ExceptT ε m Unit) :
    ∀ o : Option (Node α), walkOpt f o = (preorderOpt o).forM f
  | none => rfl
  | some n => walk_eq_forM f n

theorem walkList_eq_forM [LawfulMonad m] (f : Node α → ExceptT ε m Unit) :
    ∀ l : List (Option (Node α)), walkList f l = (preorderList l).forM f
  | [] => rfl
  | o :: os => by
    simp only [walkList, preorderList, List.forM_append, walkOpt_eq_forM f o, walkList_eq_forM f os]
end

/-- The visitor that decides by `g` and records each of its calls: the state lists the nodes
it was called on, in order. -/
def recording (g : Node α → Except ε Unit) (n : Node α) :
    ExceptT ε (StateM (List (Node α))) Unit := do
  modify (· ++ [n])
  match g n with
  | .ok () => pure ()
  | .error e => throw e

theorem recording_run (g : Node α → Except ε Unit) (n : Node α) (log : List (Node α)) :
    (recording g n).run.run log = (g n, log ++ [n]) := by
  cases h : g n <;> simp [recording, h] <;> rfl

theorem forM_recording_ok (g : Node α → Except ε Unit) :
    ∀ (xs log : List (Node α)), (∀ y ∈ xs, g y = .ok ()) →
      (xs.forM (recording g)).run.run log = (.ok (), log ++ xs)
  | [], log, _ => by simp
  | y :: ys, log, h => by
    simp [ExceptT.run_bind, recording_run, h y (List.mem_cons_self _ _),
      forM_recording_ok g ys _ fun z hz => h z (List.mem_cons_of_mem _ hz)]

theorem forM_recording_error (g : Node α → Except ε Unit) {x : Node α} {e : ε} (hx : g x = .error e)
    (after : List (Node α)) :
    ∀ (before log : List (Node α)), (∀ y ∈ before, g y = .ok ()) →
      ((before ++ x :: after).forM (recording g)).run.run log = (.error e, log ++ before ++ [x])
  | [], log, _ => by simp [ExceptT.run_bind, recording_run, hx]
  | y :: ys, log, h => by
    simp [-List.forM_append, ExceptT.run_bind, recording_run, h y (List.mem_cons_self _ _),
      forM_recording_error g hx after ys _ fun z hz => h z (List.mem_cons_of_mem _ hz)]

/-- `n.Walk(f)` is `f` run over the pre-order sequence of `n`, whatever the visitor's effects.
With a visitor deciding by `g`, it calls `g` on exactly the prefix of that sequence up to and
including the first node `g` rejects, and returns that error; when `g` rejects none, it calls
`g` on the whole sequence, in order, and returns nil. -/
theorem walk_preorder :
    (∀ {m : Type → Type} [Monad m] [LawfulMonad m] (f : Node α → ExceptT ε m Unit) (n : Node α),
      n.walk f = n.preorder.forM f) ∧
    ∀ (g : Node α → Except ε Unit) (n : Node α),
      ((∀ y ∈ n.preorder, g y = .ok ()) →
        (n.walk (recording g)).run.run [] = (.ok (), n.preorder)) ∧
      ∀ before x after e, n.preorder = before ++ x :: after → (∀ y ∈ before, g y = .ok ()) →
        g x = .error e → (n.walk (recording g)).run.run [] = (.error e, before ++ [x]) :=
  ⟨fun f n => walk_eq_forM f n, fun g n =>
    ⟨fun h => by simpa [walk_eq_forM] using forM_recording_ok g _ [] h,
      fun before x after e hn hb hx => by
        simpa [walk_eq_forM, hn, -List.forM_append] using forM_recording_error g hx after before [] hb⟩⟩

/-- A node numbered `k`, with no children. -/
def leaf (k : Nat) : Node Nat := .mk k none none none [] []

/-- Node 1, with `LHS` node 2 and `List0` holding node 3, a nil pointer and node 4. -/
def sampleTree : Node Nat := .mk 1 (some (leaf 2)) none none [some (leaf 3), none, some (leaf 4)] []

/-- A visitor that rejects node 3. -/
def rejectThree (n : Node Nat) : Except Nat Unit := if n.data = 3 then .error 3 else .ok ()

/-- The walk calls the visitor on nodes 1, 2 and 3, and returns node 3's error. -/
theorem sampleTree_walk :
    (sampleTree.walk (recording rejectThree)).run.run [] = (.error 3, [sampleTree, leaf 2, leaf 3]) :=
  (walk_preorder.2 rejectThree sampleTree).2 [sampleTree, leaf 2] (leaf 3) [leaf 4] 3 rfl
    (by simp [rejectThree, sampleTree, leaf, data]) rfl

end Node

end Puffs
