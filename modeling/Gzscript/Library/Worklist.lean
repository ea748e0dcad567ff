import Mathlib.Data.Finset.Card
import Mathlib.Logic.Relation

/-!
# Searching a graph with a worklist

A search takes the nodes of a stack one after the other. A node whose key is marked is dropped; any
other node is marked, recorded in an accumulator, and its children are pushed. Recording a node and
reading its children may fail, which ends the search.

Only finitely many keys belong to nodes with children, so every search ends: `Search.run` is total.
When it succeeds, it has recorded every node that the start reaches exactly once
(`exists_order_of_run`), and when it fails, it has failed at such a node
(`exists_failure_of_run`).
-/

set_option autoImplicit false
set_option relaxedAutoImplicit false

namespace Gzscript.Library.Worklist

variable {N K σ ε : Type}

/-- What a search does at a node. -/
structure Search (N K σ ε : Type) where
  key : N → K
  key_injective : Function.Injective key
  record : N → σ → Except ε σ
  children : N → Except ε (List N)
  /-- The keys of the nodes with children. -/
  parents : Finset K
  key_mem_parents : ∀ node nodes, children node = .ok nodes → nodes ≠ [] → key node ∈ parents

/-- The stack after pushing nodes one after the other. -/
def push (pending nodes : List N) : List N := nodes.reverse ++ pending

theorem mem_push (pending nodes : List N) (node : N) :
    node ∈ push pending nodes ↔ node ∈ nodes ∨ node ∈ pending := by
  rw [push, List.mem_append, List.mem_reverse]

variable [DecidableEq K]

/-- The search from a stack of nodes whose top is the head of the list. -/
def Search.run (search : Search N K σ ε) (marked : List K) (state : σ) (pending : List N) :
    Except ε σ :=
  match pending with
  | [] => .ok state
  | node :: pending =>
    if search.key node ∈ marked then
      run search marked state pending
    else
      match search.record node state with
      | .error error => .error error
      | .ok next =>
        match _hchildren : search.children node with
        | .error error => .error error
        | .ok nodes => run search (search.key node :: marked) next (push pending nodes)
termination_by ((search.parents.filter (· ∉ marked)).card, pending.length)
decreasing_by
  · exact Prod.Lex.right _ (Nat.lt_succ_self _)
  · have hsubset : search.parents.filter (· ∉ search.key node :: marked) ⊆
        search.parents.filter (· ∉ marked) := by
      intro key hkey
      simp only [Finset.mem_filter, List.mem_cons, not_or] at hkey ⊢
      exact ⟨hkey.1, hkey.2.2⟩
    rcases (Finset.card_le_card hsubset).lt_or_eq with hless | hequal
    · exact Prod.Lex.left _ _ hless
    · -- a node that marks nothing new among the parents has no children
      have hnodes : nodes = [] := by
        by_contra hnodes
        have hparent := search.key_mem_parents node nodes _hchildren hnodes
        have hmember : search.key node ∈ search.parents.filter (· ∉ marked) :=
          Finset.mem_filter.mpr ⟨hparent, ‹search.key node ∉ marked›⟩
        rw [← Finset.eq_of_subset_of_card_le hsubset hequal.ge] at hmember
        simp at hmember
      subst hnodes
      rw [hequal]
      exact Prod.Lex.right _ (Nat.lt_succ_self _)

namespace Search

variable (search : Search N K σ ε)

/-- One node is among the children of another. -/
def Edge (parent child : N) : Prop :=
  ∃ nodes, search.children parent = .ok nodes ∧ child ∈ nodes

/-- Paths along edges. -/
def Reaches : N → N → Prop := Relation.ReflTransGen search.Edge

/-- Record the nodes of a list one after the other. -/
def recordAll : σ → List N → Except ε σ
  | state, [] => .ok state
  | state, node :: nodes =>
    match search.record node state with
    | .error error => .error error
    | .ok next => recordAll next nodes

omit [DecidableEq K] in
theorem recordAll_cons (state : σ) (node : N) (nodes : List N) :
    search.recordAll state (node :: nodes) =
      (search.record node state).bind fun next ↦ search.recordAll next nodes := by
  rw [recordAll]
  cases search.record node state <;> rfl

/-- `order` lists, each once, the nodes that a search from `pending` visits beyond the marked ones:
everything that `pending` reaches before it meets a mark. -/
structure Explored (marked : List K) (pending order : List N) : Prop where
  nodup : order.Nodup
  fresh : ∀ node ∈ order, search.key node ∉ marked
  reached : ∀ node ∈ order, ∃ start ∈ pending, search.Reaches start node
  covers : ∀ start ∈ pending, search.key start ∈ marked ∨ start ∈ order
  closed : ∀ node ∈ order, ∀ child, search.Edge node child →
    search.key child ∈ marked ∨ child ∈ order
  read : ∀ node ∈ order, ∃ nodes, search.children node = .ok nodes

variable {search}

omit [DecidableEq K] in
theorem explored_nil (marked : List K) : search.Explored marked [] [] where
  nodup := List.nodup_nil
  fresh := by simp
  reached := by simp
  covers := by simp
  closed := by simp
  read := by simp

omit [DecidableEq K] in
/-- A marked node adds nothing. -/
theorem Explored.skip {marked : List K} {node : N} {pending order : List N}
    (h : search.Explored marked pending order) (hmarked : search.key node ∈ marked) :
    search.Explored marked (node :: pending) order where
  nodup := h.nodup
  fresh := h.fresh
  reached visited hvisited := by
    obtain ⟨start, hstart, hreaches⟩ := h.reached visited hvisited
    exact ⟨start, List.mem_cons_of_mem _ hstart, hreaches⟩
  covers start hstart := by
    rcases List.mem_cons.mp hstart with rfl | hstart
    · exact .inl hmarked
    · exact h.covers start hstart
  closed := h.closed
  read := h.read

omit [DecidableEq K] in
/-- A node that is not marked is visited before what is reached from its children and the rest. -/
theorem Explored.visit {marked : List K} {node : N} {pending nodes order : List N}
    (h : search.Explored (search.key node :: marked) (push pending nodes) order)
    (hchildren : search.children node = .ok nodes) (hfresh : search.key node ∉ marked) :
    search.Explored marked (node :: pending) (node :: order) where
  nodup := by
    refine List.nodup_cons.mpr ⟨fun hnode ↦ ?_, h.nodup⟩
    exact h.fresh node hnode List.mem_cons_self
  fresh visited hvisited := by
    rcases List.mem_cons.mp hvisited with rfl | hvisited
    · exact hfresh
    · exact fun hmarked ↦ h.fresh visited hvisited (List.mem_cons_of_mem _ hmarked)
  reached visited hvisited := by
    rcases List.mem_cons.mp hvisited with rfl | hvisited
    · exact ⟨visited, List.mem_cons_self, .refl⟩
    · obtain ⟨start, hstart, hreaches⟩ := h.reached visited hvisited
      rcases (mem_push _ _ _).mp hstart with hchild | hpending
      · have hedge : search.Edge node start := ⟨nodes, hchildren, hchild⟩
        exact ⟨node, List.mem_cons_self, .head hedge hreaches⟩
      · exact ⟨start, List.mem_cons_of_mem _ hpending, hreaches⟩
  covers start hstart := by
    rcases List.mem_cons.mp hstart with rfl | hstart
    · exact .inr List.mem_cons_self
    · rcases h.covers start ((mem_push _ _ _).mpr (.inr hstart)) with hmarked | hvisited
      · rcases List.mem_cons.mp hmarked with hsame | hmarked
        · rw [search.key_injective hsame]
          exact .inr List.mem_cons_self
        · exact .inl hmarked
      · exact .inr (List.mem_cons_of_mem _ hvisited)
  closed visited hvisited child hedge := by
    have hcovered : search.key child ∈ search.key node :: marked ∨ child ∈ order := by
      rcases List.mem_cons.mp hvisited with rfl | hvisited
      · obtain ⟨_, hread, hchild⟩ := hedge
        obtain rfl := Except.ok.inj (hchildren.symm.trans hread)
        exact h.covers child ((mem_push _ _ _).mpr (.inl hchild))
      · exact h.closed visited hvisited child hedge
    rcases hcovered with hmarked | hvisited
    · rcases List.mem_cons.mp hmarked with hsame | hmarked
      · rw [search.key_injective hsame]
        exact .inr List.mem_cons_self
      · exact .inl hmarked
    · exact .inr (List.mem_cons_of_mem _ hvisited)
  read visited hvisited := by
    rcases List.mem_cons.mp hvisited with rfl | hvisited
    · exact ⟨nodes, hchildren⟩
    · exact h.read visited hvisited

/-! ### One round -/

theorem run_nil (marked : List K) (state : σ) : search.run marked state [] = .ok state := by
  rw [run]

theorem run_marked {marked : List K} {node : N} (hmarked : search.key node ∈ marked) (state : σ)
    (pending : List N) :
    search.run marked state (node :: pending) = search.run marked state pending := by
  rw [run, if_pos hmarked]

/-- A node that is not marked is recorded, and its children are searched with the rest. -/
theorem run_fresh {marked : List K} {node : N} (hfresh : search.key node ∉ marked) (state : σ)
    (pending : List N) :
    search.run marked state (node :: pending) =
      (search.record node state).bind fun next ↦ (search.children node).bind fun nodes ↦
        search.run (search.key node :: marked) next (push pending nodes) := by
  rw [run, if_neg hfresh]
  cases search.record node state with
  | error error => rfl
  | ok next =>
    change (match _ : search.children node with | .error error => _ | .ok nodes => _) = _
    split <;> simp_all [Except.bind]

/-! ### The result of a search -/

/-- A search that succeeds has recorded what it explored, each node once. -/
theorem exists_order_of_run {marked : List K} {state final : σ} {pending : List N}
    (hrun : search.run marked state pending = .ok final) :
    ∃ order, search.Explored marked pending order ∧ search.recordAll state order = .ok final := by
  induction marked, state, pending using Search.run.induct search with
  | case1 marked state =>
    rw [run_nil] at hrun
    exact ⟨[], explored_nil marked, hrun⟩
  | case2 marked state node pending hmarked ih =>
    rw [run_marked hmarked] at hrun
    obtain ⟨order, hexplored, hrecorded⟩ := ih hrun
    exact ⟨order, hexplored.skip hmarked, hrecorded⟩
  | case3 marked state node pending hfresh error hrecord =>
    rw [run_fresh hfresh, hrecord] at hrun
    cases hrun
  | case4 marked state node pending hfresh next hrecord error hchildren =>
    rw [run_fresh hfresh, hrecord, hchildren] at hrun
    cases hrun
  | case5 marked state node pending hfresh next hrecord nodes hchildren ih =>
    rw [run_fresh hfresh, hrecord, hchildren] at hrun
    obtain ⟨order, hexplored, hrecorded⟩ := ih hrun
    refine ⟨node :: order, hexplored.visit hchildren hfresh, ?_⟩
    rw [recordAll, hrecord]
    exact hrecorded

/-- A search that fails has failed at a node that it reached and had not marked. -/
theorem exists_failure_of_run {marked : List K} {state : σ} {error : ε} {pending : List N}
    (hrun : search.run marked state pending = .error error) :
    ∃ node, (∃ start ∈ pending, search.Reaches start node) ∧ search.key node ∉ marked ∧
      (search.children node = .error error ∨
        ∃ before current, search.recordAll state before = .ok current ∧
          search.record node current = .error error) := by
  induction marked, state, pending using Search.run.induct search with
  | case1 marked state =>
    rw [run_nil] at hrun
    cases hrun
  | case2 marked state node pending hmarked ih =>
    rw [run_marked hmarked] at hrun
    obtain ⟨failed, ⟨start, hstart, hreaches⟩, hfailed⟩ := ih hrun
    exact ⟨failed, ⟨start, List.mem_cons_of_mem _ hstart, hreaches⟩, hfailed⟩
  | case3 marked state node pending hfresh failure hrecord =>
    rw [run_fresh hfresh, hrecord] at hrun
    obtain rfl := Except.error.inj hrun
    exact ⟨node, ⟨node, List.mem_cons_self, .refl⟩, hfresh, .inr ⟨[], state, rfl, hrecord⟩⟩
  | case4 marked state node pending hfresh next hrecord failure hchildren =>
    rw [run_fresh hfresh, hrecord, hchildren] at hrun
    obtain rfl := Except.error.inj hrun
    exact ⟨node, ⟨node, List.mem_cons_self, .refl⟩, hfresh, .inl hchildren⟩
  | case5 marked state node pending hfresh next hrecord nodes hchildren ih =>
    rw [run_fresh hfresh, hrecord, hchildren] at hrun
    obtain ⟨failed, ⟨start, hstart, hreaches⟩, hunmarked, hfailed⟩ := ih hrun
    refine ⟨failed, ?_, fun hmarked ↦ hunmarked (List.mem_cons_of_mem _ hmarked), ?_⟩
    · rcases (mem_push _ _ _).mp hstart with hchild | hpending
      · have hedge : search.Edge node start := ⟨nodes, hchildren, hchild⟩
        exact ⟨node, List.mem_cons_self, .head hedge hreaches⟩
      · exact ⟨start, List.mem_cons_of_mem _ hpending, hreaches⟩
    · refine hfailed.imp_right ?_
      rintro ⟨before, current, hbefore, hfailure⟩
      refine ⟨node :: before, current, ?_, hfailure⟩
      rw [recordAll, hrecord]
      exact hbefore

omit [DecidableEq K] in
/-- What is explored from the children of a root, with the root marked, is what the root reaches
besides itself. -/
theorem Explored.mem_iff {root : N} {nodes order : List N}
    (h : search.Explored [search.key root] (push [] nodes) order)
    (hchildren : search.children root = .ok nodes) (node : N) :
    node ∈ order ↔ node ≠ root ∧ search.Reaches root node := by
  constructor
  · intro hnode
    obtain ⟨start, hstart, hreaches⟩ := h.reached node hnode
    have hchild : start ∈ nodes := by simpa [push] using hstart
    have hedge : search.Edge root start := ⟨nodes, hchildren, hchild⟩
    refine ⟨?_, .head hedge hreaches⟩
    rintro rfl
    exact h.fresh node hnode List.mem_cons_self
  · rintro ⟨hne, hreaches⟩
    have hcovered : node = root ∨ node ∈ order := by
      induction hreaches with
      | refl => exact .inl rfl
      | @tail parent child _ hedge ih =>
        have hmarked : search.key child ∈ [search.key root] ∨ child ∈ order := by
          by_cases hroot : parent = root
          · subst hroot
            obtain ⟨_, hread, hchild⟩ := hedge
            obtain rfl := Except.ok.inj (hchildren.symm.trans hread)
            exact h.covers child ((mem_push _ _ _).mpr (.inl hchild))
          · exact h.closed parent ((ih hroot).resolve_left hroot) child hedge
        refine hmarked.imp_left fun hkey ↦ ?_
        exact search.key_injective (List.mem_singleton.mp hkey)
    exact hcovered.resolve_left hne

end Search

end Gzscript.Library.Worklist
