import Gzscript.Library.Descent

/-!
# Terminating the processes of a compiler

`gzTerminateProcessTree` kills a compiler with the processes below it. `collectDescendants` walks
down the table of parents and children that `process_tree` has read, which may hold any pairs: the
processes come and go while it is read, identifiers are reused, and dead parents are named. The walk
remembers nothing of where it has been.

It ends exactly if the root leads into no cycle of the table, and then it has collected the
processes below the root (`collectDescendants_exact_iff`). With a table that has two processes below
each other it never returns (`cycle_never_collected`).
-/

set_option autoImplicit false
set_option relaxedAutoImplicit false

namespace Gzscript.Build.Descendants

open Library.Descent Relation

/-- The pairs of a parent and a child, in an order in which the multimap may visit them. -/
abbrev ProcessTree : Type := List (Int32 × Int32)

/-- `equal_range`: the children of a process. -/
def equalRange (tree : ProcessTree) (parent : Int32) : List Int32 :=
  (tree.filter fun pair ↦ pair.1 = parent).map Prod.snd

/-- `collect_descendants`, with a bound on the depth of the recursion: nothing is returned where the
bound is met. -/
def collectDescendants (tree : ProcessTree) : ℕ → Int32 → List Int32 → Option (List Int32)
  | 0, _, _ => none
  | depth + 1, parent, result =>
    (equalRange tree parent).foldlM
      (fun result child ↦ collectDescendants tree depth child (result ++ [child])) result

/-- What is killed, in this order: the group of the root, and single processes. -/
inductive Kill
  | group (pid : Int32)
  | process (pid : Int32)
  deriving DecidableEq

def gzTerminateProcessTree (tree : ProcessTree) (depth : ℕ) (rootPid : Int32) :
    Option (List Kill) :=
  if rootPid ≤ 0 then some []
  else (collectDescendants tree depth rootPid []).map fun descendants ↦
    .group rootPid :: .process rootPid :: descendants.map .process

theorem collectDescendants_eq_descend (tree : ProcessTree) (depth : ℕ) :
    collectDescendants tree depth = descend (equalRange tree) depth := by
  induction depth with
  | zero => rfl
  | succ depth ih =>
    funext parent result
    rw [collectDescendants, descend, ih]

theorem mem_equalRange {tree : ProcessTree} {parent child : Int32} :
    child ∈ equalRange tree parent ↔ (parent, child) ∈ tree := by
  simp [equalRange]

/-- The second process is a child of the first in the table. -/
def ChildIn (tree : ProcessTree) (parent child : Int32) : Prop := (parent, child) ∈ tree

theorem child_equalRange (tree : ProcessTree) : Child (equalRange tree) = ChildIn tree := by
  funext parent child
  exact propext mem_equalRange

/-- The recursion ends, and has collected the processes that the root leads to by one step or
more. -/
def CollectsExactly (tree : ProcessTree) (root : Int32) : Prop :=
  ∃ depth result, collectDescendants tree depth root [] = some result ∧
    ∀ pid, pid ∈ result ↔ TransGen (ChildIn tree) root pid

theorem collects_iff (tree : ProcessTree) (root : Int32) :
    (∃ depth result, collectDescendants tree depth root [] = some result) ↔
      NoCycleBelow (equalRange tree) root := by
  have hfinite : ∀ parent, ∀ child ∈ equalRange tree parent, child ∈ tree.map Prod.snd :=
    fun parent child hchild ↦ List.mem_map.mpr ⟨(parent, child), mem_equalRange.mp hchild, rfl⟩
  simp only [collectDescendants_eq_descend]
  rw [descend_ends_iff, acc_iff_noCycleBelow _ hfinite]

/-- The recursion ends with the processes below the root exactly if no process that the root leads
to, the root among them, is below itself. -/
theorem collectDescendants_exact_iff (tree : ProcessTree) (root : Int32) :
    CollectsExactly tree root ↔
      ∀ pid, ReflTransGen (ChildIn tree) root pid → ¬TransGen (ChildIn tree) pid pid := by
  have hiff := collects_iff tree root
  rw [NoCycleBelow, child_equalRange] at hiff
  rw [← hiff]
  constructor
  · rintro ⟨depth, result, hcollected, -⟩
    exact ⟨depth, result, hcollected⟩
  · rintro ⟨depth, result, hcollected⟩
    refine ⟨depth, result, hcollected, fun pid ↦ ?_⟩
    rw [collectDescendants_eq_descend] at hcollected
    rw [mem_descend hcollected, child_equalRange]
    exact or_iff_right List.not_mem_nil

/-- A process whose identifier was reused by one below it. -/
def reusedTree : ProcessTree := [(4242, 4243), (4243, 4242)]

theorem cycle_never_collected :
    (∀ depth, collectDescendants reusedTree depth 4242 [] = none) ∧
      ¬CollectsExactly reusedTree 4242 := by
  have hnever : ∀ depth, collectDescendants reusedTree depth 4242 [] = none := by
    intro depth
    rw [Option.eq_none_iff_forall_ne_some]
    intro result hcollected
    have hacyclic := (collects_iff _ _).mp ⟨depth, result, hcollected⟩
    have hdown : (4242, 4243) ∈ reusedTree := by decide
    have hback : (4243, 4242) ∈ reusedTree := by decide
    refine hacyclic 4242 .refl ?_
    rw [child_equalRange]
    exact .tail (.single hdown) hback
  refine ⟨hnever, ?_⟩
  rintro ⟨depth, result, hcollected, -⟩
  rw [hnever depth] at hcollected
  cases hcollected

end Gzscript.Build.Descendants
