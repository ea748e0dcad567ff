import Gzscript.Bindings.Rendering
import Gzscript.Library.Sorting

/-!
# Components of classes

A generated class depends on the generated classes among those it inherits from and in the types of
its methods. Classes that depend on one another go into one file: from the dependencies the
generator closes a reachability relation, and each class that is not assigned yet takes with it the
later classes that it reaches and that reach it.

Every generated class is in exactly one component (`exists_component`, `components_disjoint`).
-/

set_option autoImplicit false
set_option relaxedAutoImplicit false

namespace Gzscript.Bindings.Components

open Library.Fallible Library.Sorting Api Selection Resolve Rendering

/-- A relation between the indices of the generated classes. -/
abbrev Matrix : Type := ℕ → ℕ → Bool

def setEdge (matrix : Matrix) (source target : ℕ) : Matrix :=
  fun row column ↦ matrix row column || (row = source && column = target)

/-- Every class reaches itself. -/
def diagonal : Matrix := fun row column ↦ row = column

/-- The index of a generated class. -/
def classIndex (generatedNames : List String) (name : String) : Option ℕ :=
  generatedNames.findIdx? fun other ↦ other = name

/-- An edge to a class, if it is generated. -/
def addNameEdge (generatedNames : List String) (source : ℕ) (matrix : Matrix) (name : String) :
    Matrix :=
  match classIndex generatedNames name with
  | some target => setEdge matrix source target
  | none => matrix

def addTypeEdge (generatedNames : List String) (source : ℕ) (matrix : Matrix) (typeRef : TypeRef) :
    Matrix :=
  match enumReference typeRef.name with
  | some ⟨some owner, _⟩ => addNameEdge generatedNames source matrix owner
  | some ⟨none, _⟩ => matrix
  | none => addNameEdge generatedNames source matrix typeRef.name

/-- The edges of one class. -/
def addClassEdges (bindings : ResolvedBindings) (matrix : Matrix) (entry : String × ℕ) :
    Except Error Matrix :=
  if entry.1 ∈ bindings.collected.shells then .ok matrix
  else do
    let chain ← bindings.api.inheritanceChain entry.1
    let inherited := (chain.dropLast.map Api.Class.name).foldl
      (addNameEdge bindings.collected.generatedNames entry.2) matrix
    let methods := (bindings.methodsByClass entry.1).getD []
    return (methods.flatMap methodTypes).foldl
      (addTypeEdge bindings.collected.generatedNames entry.2) inherited

/-- The dependencies of all generated classes. -/
def dependencyMatrix (bindings : ResolvedBindings) : Except Error Matrix :=
  bindings.collected.generatedNames.zipIdx.foldlM (addClassEdges bindings) diagonal

/-- One class as an intermediate one: a class that reaches it reaches what it reaches. The rows are
written one after the other. -/
def closeVia (count via : ℕ) (matrix : Matrix) : Matrix :=
  (List.range count).foldl (fun current source ↦
    if current source via then
      (List.range count).foldl (fun row target ↦
        if row via target then setEdge row source target else row) current
    else current) matrix

/-- The reachability relation. -/
def reachabilityMatrix (count : ℕ) (dependencies : Matrix) : Matrix :=
  (List.range count).foldl (fun matrix via ↦ closeVia count via matrix) dependencies

/-- The order in which a component lists its members. -/
def sortNames (names : List String) : List String :=
  stableSort (fun first second ↦ decide (first.toList < second.toList)) names

/-- The members of the component of a class: the classes from it on that are not assigned, are
reached by it and reach it. -/
def componentMembers (reachability : Matrix) (count : ℕ) (assigned : List ℕ) (source : ℕ) :
    List ℕ :=
  (List.range count).filter fun target ↦
    source ≤ target && target ∉ assigned && reachability source target && reachability target source

/-- The components from a class on, as lists of indices. -/
def assignComponents (reachability : Matrix) (count : ℕ) : List ℕ → List ℕ → List (List ℕ)
  | [], _ => []
  | source :: sources, assigned =>
    if source ∈ assigned then assignComponents reachability count sources assigned
    else
      componentMembers reachability count assigned source ::
        assignComponents reachability count sources
          (assigned ++ componentMembers reachability count assigned source)

/-! ### Edges are only added -/

/-- Every edge of one relation is one of another. -/
def Extends (matrix larger : Matrix) : Prop :=
  ∀ source target, matrix source target = true → larger source target = true

theorem Extends.refl (matrix : Matrix) : Extends matrix matrix := fun _ _ h ↦ h

theorem Extends.trans {first second third : Matrix} (h : Extends first second)
    (h' : Extends second third) : Extends first third :=
  fun source target hedge ↦ h' source target (h source target hedge)

theorem extends_setEdge (matrix : Matrix) (source target : ℕ) :
    Extends matrix (setEdge matrix source target) := by
  intro row column hedge
  rw [setEdge, hedge, Bool.true_or]

/-- A loop whose passes only add edges only adds edges. -/
theorem extends_foldl {α : Type} {f : Matrix → α → Matrix}
    (hf : ∀ matrix element, Extends matrix (f matrix element)) (elements : List α)
    (matrix : Matrix) : Extends matrix (elements.foldl f matrix) := by
  induction elements generalizing matrix with
  | nil => exact .refl matrix
  | cons element elements ih => exact (hf matrix element).trans (ih (f matrix element))

theorem extends_addNameEdge (generatedNames : List String) (source : ℕ) (matrix : Matrix)
    (name : String) : Extends matrix (addNameEdge generatedNames source matrix name) := by
  unfold addNameEdge
  split
  · exact extends_setEdge matrix source _
  · exact .refl matrix

theorem extends_addTypeEdge (generatedNames : List String) (source : ℕ) (matrix : Matrix)
    (typeRef : TypeRef) : Extends matrix (addTypeEdge generatedNames source matrix typeRef) := by
  unfold addTypeEdge
  split
  · exact extends_addNameEdge generatedNames source matrix _
  · exact .refl matrix
  · exact extends_addNameEdge generatedNames source matrix _

theorem extends_addClassEdges {bindings : ResolvedBindings} {matrix next : Matrix}
    {entry : String × ℕ} (h : addClassEdges bindings matrix entry = .ok next) :
    Extends matrix next := by
  unfold addClassEdges at h
  split_ifs at h
  · obtain rfl := Except.ok.inj h
    exact .refl matrix
  · obtain ⟨chain, -, h⟩ := bind_eq_ok.mp h
    obtain rfl := Except.ok.inj h
    refine (extends_foldl ?_ _ matrix).trans (extends_foldl ?_ _ _)
    · exact fun matrix name ↦ extends_addNameEdge _ entry.2 matrix name
    · exact fun matrix typeRef ↦ extends_addTypeEdge _ entry.2 matrix typeRef

theorem extends_closeVia (count via : ℕ) (matrix : Matrix) :
    Extends matrix (closeVia count via matrix) := by
  refine extends_foldl (fun current source ↦ ?_) _ matrix
  split_ifs
  · refine extends_foldl (fun row target ↦ ?_) _ current
    split_ifs
    · exact extends_setEdge row source target
    · exact .refl row
  · exact .refl current

theorem extends_reachabilityMatrix (count : ℕ) (dependencies : Matrix) :
    Extends dependencies (reachabilityMatrix count dependencies) :=
  extends_foldl (fun matrix via ↦ extends_closeVia count via matrix) _ dependencies

theorem extends_dependencyMatrix {bindings : ResolvedBindings} {dependencies : Matrix}
    (h : dependencyMatrix bindings = .ok dependencies) : Extends diagonal dependencies :=
  foldlM_invariant (Extends diagonal)
    (fun _ _ _ _ hstate hnext ↦ hstate.trans (extends_addClassEdges hnext)) (.refl diagonal) h

/-! ### Every dependency has an edge -/

/-- The class that the type of a method needs, if it needs one. -/
def typeClass (typeRef : TypeRef) : Option String :=
  match enumReference typeRef.name with
  | some reference => reference.owner
  | none => some typeRef.name

theorem edge_setEdge (matrix : Matrix) (source target : ℕ) :
    setEdge matrix source target source target = true := by
  simp [setEdge]

theorem edge_addNameEdge {generatedNames : List String} {name : String} {target : ℕ}
    (h : classIndex generatedNames name = some target) (source : ℕ) (matrix : Matrix) :
    addNameEdge generatedNames source matrix name source target = true := by
  rw [addNameEdge, h]
  exact edge_setEdge matrix source target

theorem edge_addTypeEdge {generatedNames : List String} {typeRef : TypeRef} {name : String}
    {target : ℕ} (hclass : typeClass typeRef = some name)
    (h : classIndex generatedNames name = some target) (source : ℕ) (matrix : Matrix) :
    addTypeEdge generatedNames source matrix typeRef source target = true := by
  unfold typeClass at hclass
  unfold addTypeEdge
  split at hclass
  next reference href =>
    obtain ⟨owner, enumName⟩ := reference
    obtain rfl : owner = some name := hclass
    rw [href]
    exact edge_addNameEdge h source matrix
  next href =>
    obtain rfl := Option.some.inj hclass
    rw [href]
    exact edge_addNameEdge h source matrix

/-- The edges of a pass of a loop are there after it. -/
theorem extends_of_mem {α : Type} {f : Matrix → α → Matrix}
    (hf : ∀ matrix element, Extends matrix (f matrix element)) {elements : List α} {element : α}
    (hmem : element ∈ elements) (matrix : Matrix) :
    ∃ current, Extends (f current element) (elements.foldl f matrix) := by
  induction elements generalizing matrix with
  | nil => exact absurd hmem List.not_mem_nil
  | cons first elements ih =>
    obtain rfl | hrest := List.mem_cons.mp hmem
    · exact ⟨matrix, extends_foldl hf elements _⟩
    · exact ih hrest (f matrix first)

theorem classIndex_of_mem {generatedNames : List String} {name : String}
    (h : name ∈ generatedNames) :
    ∃ index, classIndex generatedNames name = some index ∧
      (name, index) ∈ generatedNames.zipIdx := by
  have hsome : (classIndex generatedNames name).isSome = true := by
    rw [classIndex, List.findIdx?_isSome, List.any_eq_true]
    exact ⟨name, h, decide_eq_true rfl⟩
  obtain ⟨index, hindex⟩ := Option.isSome_iff_exists.mp hsome
  obtain ⟨hlt, hname, -⟩ := List.findIdx?_eq_some_iff_getElem.mp hindex
  refine ⟨index, hindex, List.mem_zipIdx_iff_getElem?.mpr ?_⟩
  rw [List.getElem?_eq_getElem hlt, of_decide_eq_true hname]

/-- A class has an edge to each generated class that it inherits from, or that the type of one of
its methods needs. -/
theorem dependency_edge {bindings : ResolvedBindings} {dependencies : Matrix}
    (h : dependencyMatrix bindings = .ok dependencies) {name target : String} {source index : ℕ}
    {chain : List Api.Class} (hname : (name, source) ∈ bindings.collected.generatedNames.zipIdx)
    (hshell : name ∉ bindings.collected.shells)
    (hchain : bindings.api.inheritanceChain name = .ok chain)
    (hindex : classIndex bindings.collected.generatedNames target = some index)
    (htarget : target ∈ chain.dropLast.map Api.Class.name ∨
      ∃ typeRef ∈ ((bindings.methodsByClass name).getD []).flatMap methodTypes,
        typeClass typeRef = some target) :
    dependencies source index = true := by
  obtain ⟨-, hpasses⟩ := foldlM_reaches Extends.refl
    (fun _ _ _ hfirst hsecond ↦ Extends.trans hfirst hsecond)
    (fun _ _ _ hstep ↦ extends_addClassEdges hstep) h
  obtain ⟨state, next, hnext, hlast⟩ := hpasses _ hname
  refine hlast source index ?_
  rw [addClassEdges, if_neg hshell] at hnext
  obtain ⟨found, hfound, hnext⟩ := bind_eq_ok.mp hnext
  obtain rfl := Except.ok.inj (hchain.symm.trans hfound)
  obtain rfl := Except.ok.inj hnext
  have htypes := extends_addTypeEdge bindings.collected.generatedNames source
  have hnames := extends_addNameEdge bindings.collected.generatedNames source
  obtain hancestor | ⟨typeRef, htypeRef, hclass⟩ := htarget
  · obtain ⟨current, hcurrent⟩ := extends_of_mem hnames hancestor state
    exact extends_foldl htypes _ _ source index
      (hcurrent source index (edge_addNameEdge hindex source current))
  · obtain ⟨current, hcurrent⟩ := extends_of_mem htypes htypeRef
      ((chain.dropLast.map Api.Class.name).foldl
        (addNameEdge bindings.collected.generatedNames source) state)
    exact hcurrent source index (edge_addTypeEdge hclass hindex source current)

/-- Every class reaches itself. -/
theorem reachability_self {bindings : ResolvedBindings} {dependencies : Matrix}
    (h : dependencyMatrix bindings = .ok dependencies) (count index : ℕ) :
    reachabilityMatrix count dependencies index index = true :=
  extends_reachabilityMatrix count dependencies index index
    (extends_dependencyMatrix h index index (decide_eq_true rfl))

/-! ### The components -/

section Assignment

variable {reachability : Matrix} {count : ℕ}

theorem mem_componentMembers_iff {assigned : List ℕ} {source target : ℕ} :
    target ∈ componentMembers reachability count assigned source ↔
      target < count ∧ source ≤ target ∧ target ∉ assigned ∧
        reachability source target = true ∧ reachability target source = true := by
  simp only [componentMembers, List.mem_filter, List.mem_range, Bool.and_eq_true,
    decide_eq_true_eq, and_assoc]

/-- Every class that is not assigned yet gets a component. -/
theorem exists_component (hself : ∀ index, reachability index index = true) (sources : List ℕ)
    {assigned : List ℕ} {index : ℕ} (hindex : index ∈ sources) (hcount : index < count)
    (hfree : index ∉ assigned) :
    ∃ members ∈ assignComponents reachability count sources assigned, index ∈ members := by
  induction sources generalizing assigned with
  | nil => exact absurd hindex List.not_mem_nil
  | cons source sources ih =>
    rw [assignComponents]
    split_ifs with hassigned
    · obtain rfl | hrest := List.mem_cons.mp hindex
      · exact absurd hassigned hfree
      · exact ih hrest hfree
    · by_cases hmember : index ∈ componentMembers reachability count assigned source
      · exact ⟨_, List.mem_cons_self, hmember⟩
      · obtain rfl | hrest := List.mem_cons.mp hindex
        · refine absurd (mem_componentMembers_iff.mpr ?_) hmember
          exact ⟨hcount, Nat.le_refl index, hfree, hself index, hself index⟩
        · have hrestFree :
              index ∉ assigned ++ componentMembers reachability count assigned source :=
            fun hmem ↦ (List.mem_append.mp hmem).elim hfree hmember
          obtain ⟨members, hmembers, hmem⟩ := ih hrest hrestFree
          exact ⟨members, List.mem_cons_of_mem _ hmembers, hmem⟩

/-- A component has no class that was assigned before, and only generated ones. -/
theorem component_free (sources : List ℕ) {assigned members : List ℕ}
    (h : members ∈ assignComponents reachability count sources assigned) :
    ∀ index ∈ members, index < count ∧ index ∉ assigned := by
  induction sources generalizing assigned with
  | nil => exact absurd h List.not_mem_nil
  | cons source sources ih =>
    rw [assignComponents] at h
    split_ifs at h
    · exact ih h
    · intro index hindex
      obtain rfl | hrest := List.mem_cons.mp h
      · obtain ⟨hcount, -, hfree, -⟩ := mem_componentMembers_iff.mp hindex
        exact ⟨hcount, hfree⟩
      · obtain ⟨hcount, hfree⟩ := ih hrest index hindex
        exact ⟨hcount, fun hmem ↦ hfree (List.mem_append_left _ hmem)⟩

/-- No class is in two components. -/
theorem components_disjoint (sources assigned : List ℕ) :
    (assignComponents reachability count sources assigned).Pairwise List.Disjoint := by
  induction sources generalizing assigned with
  | nil => exact .nil
  | cons source sources ih =>
    rw [assignComponents]
    split_ifs
    · exact ih assigned
    · refine List.pairwise_cons.mpr ⟨fun members hmembers index hindex hmem ↦ ?_, ih _⟩
      exact (component_free sources hmembers index hmem).2 (List.mem_append_right _ hindex)

end Assignment

end Gzscript.Bindings.Components
