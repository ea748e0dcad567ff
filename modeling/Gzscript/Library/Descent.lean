import Mathlib.Data.Fintype.Card
import Mathlib.Data.Set.Finite.List
import Mathlib.Logic.Relation

/-!
# Walking down a graph

A walk visits the children of a node one after the other, records each of them and walks down from
it at once. It does not remember what it has visited, so a node is recorded once for every way down
to it, and a cycle is never left. `descend` walks with a bound on the depth, and returns nothing
where the bound is met.

A walk ends from a node exactly if the relation of children is well-founded below it
(`descend_ends_iff`), which in a finite graph means that the node leads into no cycle
(`acc_iff_acyclic`). What a walk has recorded when it ends is what the node reaches by one step or
more (`mem_descend`).
-/

set_option autoImplicit false
set_option relaxedAutoImplicit false

namespace Gzscript.Library.Descent

open Relation

variable {N : Type*} (children : N → List N)

/-- The walk down from a node, which appends to what has been recorded. -/
def descend : ℕ → N → List N → Option (List N)
  | 0, _, _ => none
  | depth + 1, node, recorded =>
    (children node).foldlM (fun recorded child ↦ descend depth child (recorded ++ [child])) recorded

/-- The second node is a child of the first. -/
def Child (parent child : N) : Prop := child ∈ children parent

/-- The walks down from some nodes, one after the other. -/
def descendAll (depth : ℕ) (nodes recorded : List N) : Option (List N) :=
  nodes.foldlM (fun recorded child ↦ descend children depth child (recorded ++ [child])) recorded

variable {children}

theorem descend_succ (depth : ℕ) (node : N) (recorded : List N) :
    descend children (depth + 1) node recorded =
      descendAll children depth (children node) recorded := rfl

theorem descendAll_cons {depth : ℕ} {node : N} {nodes recorded after : List N} :
    descendAll children depth (node :: nodes) recorded = some after ↔
      ∃ between, descend children depth node (recorded ++ [node]) = some between ∧
        descendAll children depth nodes between = some after := by
  rw [descendAll, List.foldlM_cons]
  exact Option.bind_eq_some_iff

/-! ### What is recorded -/

theorem mem_descendAll {depth : ℕ}
    (hdescend : ∀ {node : N} {recorded after : List N},
      descend children depth node recorded = some after →
        ∀ other, other ∈ after ↔ other ∈ recorded ∨ TransGen (Child children) node other)
    {nodes recorded after : List N} (hall : descendAll children depth nodes recorded = some after)
    (other : N) :
    other ∈ after ↔
      other ∈ recorded ∨ ∃ node ∈ nodes, ReflTransGen (Child children) node other := by
  induction nodes generalizing recorded with
  | nil =>
    obtain rfl := Option.some.inj hall
    simp
  | cons node nodes ih =>
    obtain ⟨between, hfirst, hrest⟩ := descendAll_cons.mp hall
    rw [ih hrest, hdescend hfirst, List.mem_append, List.mem_singleton, List.exists_mem_cons_iff,
      reflTransGen_iff_eq_or_transGen]
    tauto

/-- A walk that ends has recorded what the node reaches by one step or more. -/
theorem mem_descend {depth : ℕ} {node : N} {recorded after : List N}
    (hdescend : descend children depth node recorded = some after) (other : N) :
    other ∈ after ↔ other ∈ recorded ∨ TransGen (Child children) node other := by
  induction depth generalizing node recorded after other with
  | zero => cases hdescend
  | succ depth ih =>
    rw [descend_succ] at hdescend
    rw [mem_descendAll (fun h other ↦ ih h other) hdescend, TransGen.head'_iff]
    rfl

/-! ### Where a walk ends -/

theorem descendAll_mono {depth deeper : ℕ}
    (hdescend : ∀ {node : N} {recorded after : List N},
      descend children depth node recorded = some after →
        descend children deeper node recorded = some after)
    {nodes recorded after : List N}
    (hall : descendAll children depth nodes recorded = some after) :
    descendAll children deeper nodes recorded = some after := by
  induction nodes generalizing recorded with
  | nil => exact hall
  | cons node nodes ih =>
    obtain ⟨between, hfirst, hrest⟩ := descendAll_cons.mp hall
    exact descendAll_cons.mpr ⟨between, hdescend hfirst, ih hrest⟩

theorem descend_of_le {depth deeper : ℕ} (hle : depth ≤ deeper) {node : N}
    {recorded after : List N} (hdescend : descend children depth node recorded = some after) :
    descend children deeper node recorded = some after := by
  induction depth generalizing deeper node recorded after with
  | zero => cases hdescend
  | succ depth ih =>
    obtain ⟨deeper, rfl⟩ := Nat.exists_eq_add_of_le' (Nat.le_of_add_left_le hle)
    exact descendAll_mono (fun h ↦ ih (Nat.le_of_succ_le_succ hle) h) hdescend

/-- Walks that end from each of some nodes end from one node after the other. -/
theorem exists_descendAll {nodes : List N}
    (hends : ∀ node ∈ nodes, ∀ recorded, ∃ depth after,
      descend children depth node recorded = some after) (recorded : List N) :
    ∃ depth after, descendAll children depth nodes recorded = some after := by
  induction nodes generalizing recorded with
  | nil => exact ⟨0, recorded, rfl⟩
  | cons node nodes ih =>
    obtain ⟨first, between, hfirst⟩ := hends node List.mem_cons_self (recorded ++ [node])
    obtain ⟨rest, after, hrest⟩ :=
      ih (fun other hother ↦ hends other (List.mem_cons_of_mem _ hother)) between
    refine ⟨max first rest, after, descendAll_cons.mpr ⟨between, ?_, ?_⟩⟩
    · exact descend_of_le (Nat.le_max_left _ _) hfirst
    · exact descendAll_mono (descend_of_le (Nat.le_max_right _ _)) hrest

theorem exists_descend_of_descendAll {depth : ℕ} {nodes recorded after : List N}
    (hall : descendAll children depth nodes recorded = some after) {node : N}
    (hnode : node ∈ nodes) :
    ∃ before between, descend children depth node before = some between := by
  induction nodes generalizing recorded with
  | nil => cases hnode
  | cons first nodes ih =>
    obtain ⟨between, hfirst, hrest⟩ := descendAll_cons.mp hall
    rcases List.mem_cons.mp hnode with rfl | hlater
    · exact ⟨_, between, hfirst⟩
    · exact ih hrest hlater

/-- A walk ends just where there is no infinite way down. -/
theorem descend_ends_iff (node : N) (recorded : List N) :
    (∃ depth after, descend children depth node recorded = some after) ↔
      Acc (fun child parent ↦ Child children parent child) node := by
  constructor
  · rintro ⟨depth, after, hdescend⟩
    induction depth generalizing node recorded after with
    | zero => cases hdescend
    | succ depth ih =>
      refine Acc.intro node fun child hchild ↦ ?_
      obtain ⟨before, between, hwalk⟩ := exists_descend_of_descendAll hdescend hchild
      exact ih child before between hwalk
  · intro hacc
    induction hacc generalizing recorded with
    | intro node _ ih =>
      obtain ⟨depth, after, hall⟩ := exists_descendAll ih recorded
      exact ⟨depth + 1, after, hall⟩

/-! ### Finite graphs -/

/-- No node that a node leads to, itself among them, is below itself. -/
def NoCycleBelow (children : N → List N) (node : N) : Prop :=
  ∀ other, ReflTransGen (Child children) node other → ¬TransGen (Child children) other other

theorem noCycleBelow_of_acc {node : N}
    (hacc : Acc (fun child parent ↦ Child children parent child) node) :
    NoCycleBelow children node := by
  induction hacc with
  | intro node _ ih =>
    intro other hreach hcycle
    rcases ReflTransGen.cases_head hreach with rfl | ⟨child, hchild, hrest⟩
    · -- The first step of the cycle leads to a child, which the cycle comes back to.
      obtain ⟨child, hchild, hback⟩ := TransGen.head'_iff.mp hcycle
      exact ih child hchild child .refl (TransGen.tail' hback hchild)
    · exact ih child hchild other hrest hcycle

/-- In a graph with finitely many children in all, a node that leads into no cycle has no infinite
way down. -/
theorem acc_iff_noCycleBelow (nodes : List N)
    (hfinite : ∀ parent, ∀ child ∈ children parent, child ∈ nodes) (node : N) :
    Acc (fun child parent ↦ Child children parent child) node ↔ NoCycleBelow children node := by
  refine ⟨noCycleBelow_of_acc, fun hacyclic ↦ ?_⟩
  let Below := { other // ReflTransGen (Child children) node other }
  have hbelow : Finite Below := by
    refine Set.Finite.to_subtype (s := {other | ReflTransGen (Child children) node other}) ?_
    refine Set.Finite.subset (List.finite_toSet (node :: nodes)) fun other hreach ↦ ?_
    rcases ReflTransGen.cases_tail hreach with rfl | ⟨parent, -, hchild⟩
    · exact List.mem_cons_self
    · exact List.mem_cons_of_mem _ (hfinite parent other hchild)
  let Under (lower upper : Below) : Prop := TransGen (Child children) upper.1 lower.1
  have htrans : IsTrans Below Under := ⟨fun _ _ _ hlower hupper ↦ hupper.trans hlower⟩
  have hirrefl : Std.Irrefl Under := ⟨fun other ↦ hacyclic other.1 other.2⟩
  have hwellFounded : WellFounded Under := Finite.wellFounded_of_trans_of_irrefl Under
  have hall : ∀ other : Below, Acc (fun child parent ↦ Child children parent child) other.1 := by
    intro other
    induction other using hwellFounded.induction with
    | _ other ih =>
      refine Acc.intro other.1 fun child hchild ↦ ?_
      exact ih ⟨child, other.2.tail hchild⟩ (TransGen.single hchild)
  exact hall ⟨node, .refl⟩

end Gzscript.Library.Descent
