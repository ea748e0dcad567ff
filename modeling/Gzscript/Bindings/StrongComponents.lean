import Gzscript.Bindings.Renderable
import Gzscript.Bindings.NameClosure
import Gzscript.Library.Reachability
import Mathlib.Data.List.Pairwise

/-!
# The components are strongly connected

A root depends on the generated classes among its ancestors and on those that the types of its
methods name (`DependsOn`). The matrix of the dependencies has these and the diagonal
(`dependencies_iff`). The generator closes it in place, which adds the ways over one class after
the other (`closeVia_iff`), so the closed matrix tells which class reaches which
(`reachability_iff`). From it the classes are grouped in one pass that looks at later classes only;
each group is all the classes that reach each other (`assigned_together_iff`).

So in a rendered tree every class has a place, two classes share it if they reach each other, and
the places depend on each other without a cycle (`rendered_strongComponents`).
-/

set_option autoImplicit false
set_option relaxedAutoImplicit false

namespace Gzscript.Bindings.StrongComponents

open Relation Library.Fallible Library.Sorting Library.Reachability Api Selection Resolve Rendering
  Components Bindings.Tree TreeContents

/-! ### Closing the matrix in place -/

/-- A matrix as a relation. -/
def Edge (matrix : Matrix) (source target : ℕ) : Prop := matrix source target = true

theorem edge_setEdge_iff (matrix : Matrix) (row column source target : ℕ) :
    Edge (setEdge matrix row column) source target ↔
      Edge matrix source target ∨ source = row ∧ target = column := by
  simp [Edge, setEdge]

/-- The inner loop adds to the row of one class what the intermediate class reaches. The row of
the intermediate class itself it leaves as it is. -/
theorem closeRow_iff (targets : List ℕ) (matrix : Matrix) (row via source target : ℕ) :
    Edge (targets.foldl (fun current column ↦
        if current via column then setEdge current row column else current) matrix) source target ↔
      Edge matrix source target ∨ source = row ∧ target ∈ targets ∧ Edge matrix via target := by
  induction targets generalizing matrix with
  | nil => simp
  | cons column targets ih =>
    rw [List.foldl_cons, ih]
    by_cases hreached : matrix via column = true
    · have hvia : Edge (setEdge matrix row column) via target ↔ Edge matrix via target := by
        rw [edge_setEdge_iff]
        refine ⟨fun h ↦ h.elim id ?_, .inl⟩
        rintro ⟨-, rfl⟩
        exact hreached
      rw [if_pos hreached, hvia, edge_setEdge_iff, List.mem_cons]
      constructor
      · rintro ((hold | ⟨hrow, rfl⟩) | ⟨hrow, hmem, hedge⟩)
        · exact .inl hold
        · exact .inr ⟨hrow, .inl rfl, hreached⟩
        · exact .inr ⟨hrow, .inr hmem, hedge⟩
      · rintro (hold | ⟨hrow, rfl | hmem, hedge⟩)
        · exact .inl (.inl hold)
        · exact .inl (.inr ⟨hrow, rfl⟩)
        · exact .inr ⟨hrow, hmem, hedge⟩
    · rw [if_neg hreached, List.mem_cons]
      constructor
      · rintro (hold | ⟨hrow, hmem, hedge⟩)
        · exact .inl hold
        · exact .inr ⟨hrow, .inr hmem, hedge⟩
      · rintro (hold | ⟨hrow, rfl | hmem, hedge⟩)
        · exact .inl hold
        · exact absurd hedge hreached
        · exact .inr ⟨hrow, hmem, hedge⟩

/-- The outer loop changes neither the row nor the column of the intermediate class, so that it
adds the ways over it that were there before. -/
theorem closeVia_iff (count via : ℕ) (matrix : Matrix) (source target : ℕ) :
    Edge (closeVia count via matrix) source target ↔
      Edge matrix source target ∨
        source < count ∧ target < count ∧ Edge matrix source via ∧ Edge matrix via target := by
  have hloop : ∀ (sources : List ℕ) (matrix : Matrix),
      Edge (sources.foldl (fun current row ↦
          if current row via then
            (List.range count).foldl (fun current column ↦
              if current via column then setEdge current row column else current) current
          else current) matrix) source target ↔
        Edge matrix source target ∨
          source ∈ sources ∧ target < count ∧ Edge matrix source via ∧ Edge matrix via target := by
    intro sources
    induction sources with
    | nil => simp
    | cons row sources ih =>
      intro matrix
      rw [List.foldl_cons, ih]
      by_cases hreaches : matrix row via = true
      · rw [if_pos hreaches]
        simp only [closeRow_iff, List.mem_range, List.mem_cons]
        constructor
        · rintro ((hold | ⟨rfl, hlt, hedge⟩) | ⟨hmem, hlt, hto, hfrom⟩)
          · exact .inl hold
          · exact .inr ⟨.inl rfl, hlt, hreaches, hedge⟩
          · refine .inr ⟨.inr hmem, hlt, hto.elim id ?_, hfrom.elim id fun h ↦ h.2.2⟩
            rintro ⟨rfl, -⟩
            exact hreaches
        · rintro (hold | ⟨rfl | hmem, hlt, hto, hfrom⟩)
          · exact .inl (.inl hold)
          · exact .inl (.inr ⟨rfl, hlt, hfrom⟩)
          · exact .inr ⟨hmem, hlt, .inl hto, .inl hfrom⟩
      · rw [if_neg hreaches, List.mem_cons]
        constructor
        · rintro (hold | ⟨hmem, hrest⟩)
          · exact .inl hold
          · exact .inr ⟨.inr hmem, hrest⟩
        · rintro (hold | ⟨rfl | hmem, hlt, hto, hfrom⟩)
          · exact .inl hold
          · exact absurd hto hreaches
          · exact .inr ⟨hmem, hlt, hto, hfrom⟩
  rw [closeVia, hloop, List.mem_range]

/-- Off the diagonal a matrix has entries only for the generated classes. -/
def Bounded (count : ℕ) (matrix : Matrix) : Prop :=
  ∀ source target, Edge matrix source target → source = target ∨ source < count ∧ target < count

theorem closeVia_eq {count via : ℕ} {matrix : Matrix} (h : Bounded count matrix)
    (hvia : via < count) : Edge (closeVia count via matrix) = Via via (Edge matrix) := by
  ext source target
  rw [closeVia_iff, Via]
  refine or_congr_right ⟨fun hway ↦ hway.2.2, fun hway ↦ ⟨?_, ?_, hway⟩⟩
  · exact (h source via hway.1).elim (fun heq ↦ heq ▸ hvia) And.left
  · exact (h via target hway.2).elim (fun heq ↦ heq ▸ hvia) And.right

theorem bounded_closeVia {count via : ℕ} {matrix : Matrix} (h : Bounded count matrix) :
    Bounded count (closeVia count via matrix) := by
  intro source target hedge
  obtain hold | ⟨hsource, htarget, -⟩ := (closeVia_iff count via matrix source target).mp hedge
  · exact h source target hold
  · exact .inr ⟨hsource, htarget⟩

theorem reachabilityMatrix_eq {count : ℕ} {dependencies : Matrix}
    (h : Bounded count dependencies) :
    Edge (reachabilityMatrix count dependencies) =
      viaAll (List.range count) (Edge dependencies) := by
  have hloop : ∀ (elements : List ℕ) (matrix : Matrix), (∀ via ∈ elements, via < count) →
      Bounded count matrix →
        Edge (elements.foldl (fun matrix via ↦ closeVia count via matrix) matrix) =
          viaAll elements (Edge matrix) := by
    intro elements
    induction elements with
    | nil => exact fun _ _ _ ↦ rfl
    | cons via elements ih =>
      intro matrix hlt hbounded
      rw [List.foldl_cons, viaAll_cons, ← closeVia_eq hbounded (hlt via List.mem_cons_self)]
      exact ih _ (fun other hother ↦ hlt other (List.mem_cons_of_mem via hother))
        (bounded_closeVia hbounded)
  exact hloop (List.range count) dependencies (fun via ↦ List.mem_range.mp) h

/-- The closed matrix tells which class reaches which. -/
theorem reachability_iff {count : ℕ} {dependencies : Matrix} (h : Bounded count dependencies)
    (hself : ∀ index, Edge dependencies index index) (source target : ℕ) :
    reachabilityMatrix count dependencies source target = true ↔
      ReflTransGen (Edge dependencies) source target := by
  show Edge (reachabilityMatrix count dependencies) source target ↔ _
  rw [reachabilityMatrix_eq h]
  refine viaAll_iff hself (fun before after hedge ↦ ?_) source target
  exact (h before after hedge).imp_right fun hlt ↦ List.mem_range.mpr hlt.2

/-! ### Grouping in one pass -/

section Grouping

variable {reachability : Matrix} {count : ℕ}

/-- Two classes reach each other. -/
def Together (reachability : Matrix) (first second : ℕ) : Prop :=
  reachability first second = true ∧ reachability second first = true

/-- Every class reaches itself and what the classes that it reaches do. -/
structure Reaching (reachability : Matrix) : Prop where
  self : ∀ index, reachability index index = true
  trans : ∀ first second third, reachability first second = true →
    reachability second third = true → reachability first third = true

theorem Together.symm {first second : ℕ} (h : Together reachability first second) :
    Together reachability second first :=
  ⟨h.2, h.1⟩

theorem Together.trans (hreach : Reaching reachability) {first second third : ℕ}
    (h : Together reachability first second)
    (h' : Together reachability second third) : Together reachability first third :=
  ⟨hreach.trans first second third h.1 h'.1, hreach.trans third second first h'.2 h.2⟩

/-- A component is what the pass collects for one class. -/
theorem exists_componentMembers (sources : List ℕ) {assigned members : List ℕ}
    (h : members ∈ assignComponents reachability count sources assigned) :
    ∃ before source, members = componentMembers reachability count before source := by
  induction sources generalizing assigned with
  | nil => exact absurd h List.not_mem_nil
  | cons source sources ih =>
    rw [assignComponents] at h
    split_ifs at h
    · exact ih h
    · obtain rfl | hrest := List.mem_cons.mp h
      · exact ⟨assigned, source, rfl⟩
      · exact ih hrest

/-- The classes of a component reach each other, by way of its first one. -/
theorem members_together (hreach : Reaching reachability) (sources : List ℕ)
    {assigned members : List ℕ}
    (h : members ∈ assignComponents reachability count sources assigned) {first second : ℕ}
    (hfirst : first ∈ members) (hsecond : second ∈ members) :
    Together reachability first second := by
  obtain ⟨before, source, rfl⟩ := exists_componentMembers sources h
  obtain ⟨-, -, -, hto⟩ := mem_componentMembers_iff.mp hfirst
  obtain ⟨-, -, -, hfrom⟩ := mem_componentMembers_iff.mp hsecond
  exact Together.trans hreach (Together.symm hto) hfrom

/-- What the pass relies on when it comes to some classes: they are in order, every class that is
not assigned is still to come, and with a class all that it is to be together with are assigned. -/
structure Pending (reachability : Matrix) (count : ℕ) (sources assigned : List ℕ) : Prop where
  ordered : sources.Pairwise (· < ·)
  toCome : ∀ index < count, index ∉ assigned → index ∈ sources
  closed : ∀ index ∈ assigned, ∀ other < count, Together reachability index other →
    other ∈ assigned

theorem pending_start (reachability : Matrix) (count : ℕ) :
    Pending reachability count (List.range count) [] where
  ordered := List.pairwise_lt_range
  toCome _ hlt _ := List.mem_range.mpr hlt
  closed _ hmem := absurd hmem List.not_mem_nil

variable {source : ℕ} {sources assigned : List ℕ}

theorem Pending.skip (h : Pending reachability count (source :: sources) assigned)
    (hsource : source ∈ assigned) : Pending reachability count sources assigned where
  ordered := (List.pairwise_cons.mp h.ordered).2
  toCome index hlt hfree := (List.mem_cons.mp (h.toCome index hlt hfree)).resolve_left
    fun heq ↦ hfree (heq ▸ hsource)
  closed := h.closed

/-- The component of a class has all classes that it is together with: none of them is assigned, so
they are still to come. -/
theorem Pending.mem_members (h : Pending reachability count (source :: sources) assigned)
    (hsource : source ∉ assigned) (hlt : source < count) {index : ℕ} (hindex : index < count)
    (htogether : Together reachability source index) :
    index ∈ componentMembers reachability count assigned source := by
  have hfree : index ∉ assigned := fun hmem ↦
    hsource (h.closed index hmem source hlt htogether.symm)
  refine mem_componentMembers_iff.mpr ⟨hindex, ?_, hfree, htogether⟩
  obtain rfl | hlater := List.mem_cons.mp (h.toCome index hindex hfree)
  · exact Nat.le_refl index
  · exact Nat.le_of_lt ((List.pairwise_cons.mp h.ordered).1 index hlater)

theorem Pending.assign (hreach : Reaching reachability)
    (h : Pending reachability count (source :: sources) assigned) (hsource : source ∉ assigned)
    (hlt : source < count) :
    Pending reachability count sources
      (assigned ++ componentMembers reachability count assigned source) where
  ordered := (List.pairwise_cons.mp h.ordered).2
  toCome index hindex hfree := by
    have hold : index ∉ assigned := fun hmem ↦ hfree (List.mem_append_left _ hmem)
    refine (List.mem_cons.mp (h.toCome index hindex hold)).resolve_left ?_
    rintro rfl
    have hself : Together reachability index index := ⟨hreach.self index, hreach.self index⟩
    exact hfree (List.mem_append_right _ (h.mem_members hsource hlt hlt hself))
  closed index hmem other hother htogether := by
    obtain hold | hnew := List.mem_append.mp hmem
    · exact List.mem_append_left _ (h.closed index hold other hother htogether)
    · obtain ⟨-, -, -, hindex⟩ := mem_componentMembers_iff.mp hnew
      exact List.mem_append_right _
        (h.mem_members hsource hlt hother (Together.trans hreach hindex htogether))

/-- A component has all classes that one of its classes is together with. -/
theorem members_closed (hreach : Reaching reachability) (sources : List ℕ)
    (hsources : ∀ source ∈ sources, source < count) {assigned members : List ℕ}
    (hpending : Pending reachability count sources assigned)
    (h : members ∈ assignComponents reachability count sources assigned) {first second : ℕ}
    (hfirst : first ∈ members) (hsecond : second < count)
    (htogether : Together reachability first second) : second ∈ members := by
  induction sources generalizing assigned with
  | nil => exact absurd h List.not_mem_nil
  | cons source sources ih =>
    have hrest : ∀ later ∈ sources, later < count := fun later hlater ↦
      hsources later (List.mem_cons_of_mem source hlater)
    rw [assignComponents] at h
    split_ifs at h with hassigned
    · exact ih hrest (hpending.skip hassigned) h
    · have hlt := hsources source List.mem_cons_self
      obtain rfl | hlater := List.mem_cons.mp h
      · obtain ⟨-, -, -, hindex⟩ := mem_componentMembers_iff.mp hfirst
        exact hpending.mem_members hassigned hlt hsecond (Together.trans hreach hindex htogether)
      · exact ih hrest (hpending.assign hreach hassigned hlt) hlater

/-- Two classes get one component exactly if they reach each other. -/
theorem assigned_together_iff (hreach : Reaching reachability) {first second : ℕ}
    (hfirst : first < count) (hsecond : second < count) :
    (∃ members ∈ assignComponents reachability count (List.range count) [],
        first ∈ members ∧ second ∈ members) ↔ Together reachability first second := by
  constructor
  · rintro ⟨members, hmembers, hmem, hother⟩
    exact members_together hreach (List.range count) hmembers hmem hother
  · intro htogether
    obtain ⟨members, hmembers, hmem⟩ := exists_component hreach.self (List.range count)
      (List.mem_range.mpr hfirst) hfirst List.not_mem_nil
    exact ⟨members, hmembers, hmem, members_closed hreach (List.range count)
      (fun source ↦ List.mem_range.mp) (pending_start reachability count) hmembers hmem hsecond
      htogether⟩

end Grouping

/-! ### What depends on what -/

/-- A root depends on the generated classes that it inherits from, and on those that a type of one
of its methods names, as a class or as the owner of an enum. -/
structure DependsOn (bindings : ResolvedBindings) (name target : String) : Prop where
  root : name ∈ bindings.rootNames
  generated : target ∈ bindings.collected.generatedNames
  named :
    (∃ chain, bindings.api.inheritanceChain name = .ok chain ∧
        target ∈ chain.dropLast.map Api.Class.name) ∨
      ∃ methods, bindings.methodsByClass name = some methods ∧
        ∃ typeRef ∈ methods.flatMap methodTypes, typeClass typeRef = some target

variable {bindings : ResolvedBindings} {dependencies : Matrix}

theorem classIndex_getElem {generatedNames : List String} {name : String} {index : ℕ}
    (h : classIndex generatedNames name = some index) : generatedNames[index]? = some name := by
  obtain ⟨hlt, hname, -⟩ := List.findIdx?_eq_some_iff_getElem.mp h
  rw [List.getElem?_eq_getElem hlt, of_decide_eq_true hname]

/-- Where the names are distinct, each is found where it stands. -/
theorem classIndex_of_getElem {generatedNames : List String} (hdistinct : generatedNames.Nodup)
    {name : String} {index : ℕ} (h : generatedNames[index]? = some name) :
    classIndex generatedNames name = some index := by
  obtain ⟨other, hother, -⟩ := classIndex_of_mem (List.mem_of_getElem? h)
  obtain ⟨hltOther, -⟩ := List.getElem?_eq_some_iff.mp (classIndex_getElem hother)
  have hsame : other = index :=
    (List.getElem?_inj hltOther hdistinct).mp ((classIndex_getElem hother).trans h.symm)
  rw [hother, hsame]

theorem edge_addNameEdge_iff (generatedNames : List String) (row : ℕ) (matrix : Matrix)
    (name : String) (source target : ℕ) :
    Edge (addNameEdge generatedNames row matrix name) source target ↔
      Edge matrix source target ∨ source = row ∧ classIndex generatedNames name = some target := by
  unfold addNameEdge
  split
  next index hindex =>
    rw [edge_setEdge_iff, hindex, Option.some.injEq, eq_comm (a := target)]
  next hnone => simp [hnone]

theorem edge_addTypeEdge_iff (generatedNames : List String) (row : ℕ) (matrix : Matrix)
    (typeRef : TypeRef) (source target : ℕ) :
    Edge (addTypeEdge generatedNames row matrix typeRef) source target ↔
      Edge matrix source target ∨ source = row ∧ ∃ name, typeClass typeRef = some name ∧
        classIndex generatedNames name = some target := by
  unfold addTypeEdge typeClass
  split
  next owner _ href => simp [href, edge_addNameEdge_iff]
  next _ href => simp [href]
  next href => simp [href, edge_addNameEdge_iff]

/-- A loop each of whose passes adds some edges adds those of all passes. -/
theorem edge_foldl_iff {α : Type} {f : Matrix → α → Matrix} {adds : α → ℕ → ℕ → Prop}
    (hf : ∀ matrix element source target, Edge (f matrix element) source target ↔
      Edge matrix source target ∨ adds element source target)
    (elements : List α) (matrix : Matrix) (source target : ℕ) :
    Edge (elements.foldl f matrix) source target ↔
      Edge matrix source target ∨ ∃ element ∈ elements, adds element source target := by
  induction elements generalizing matrix with
  | nil => simp
  | cons element elements ih => rw [List.foldl_cons, ih, hf, or_assoc, List.exists_mem_cons_iff]

/-- The edges off the diagonal are those of the dependencies. -/
def Sound (bindings : ResolvedBindings) (matrix : Matrix) : Prop :=
  ∀ source target, Edge matrix source target → source = target ∨
    ∃ name other, bindings.collected.generatedNames[source]? = some name ∧
      bindings.collected.generatedNames[target]? = some other ∧ DependsOn bindings name other

theorem sound_addClassEdges (h : Resolved bindings) {matrix next : Matrix} {entry : String × ℕ}
    (hentry : entry ∈ bindings.collected.generatedNames.zipIdx) (hsound : Sound bindings matrix)
    (hnext : addClassEdges bindings matrix entry = .ok next) : Sound bindings next := by
  have hname := List.mem_zipIdx_iff_getElem?.mp hentry
  unfold addClassEdges at hnext
  split_ifs at hnext with hshell
  · obtain rfl := Except.ok.inj hnext
    exact hsound
  obtain ⟨chain, hchain, hnext⟩ := bind_eq_ok.mp hnext
  obtain rfl := Except.ok.inj hnext
  have hroot := (Renderable.root_or_shell h (List.mem_of_getElem? hname)).resolve_right hshell
  obtain ⟨methods, hmethods, -⟩ := h.methods entry.1 hroot
  intro source target hedge
  rw [edge_foldl_iff (edge_addTypeEdge_iff _ entry.2),
    edge_foldl_iff (edge_addNameEdge_iff _ entry.2), hmethods, Option.getD_some] at hedge
  obtain (hold | ⟨ancestor, hancestor, rfl, hindex⟩) |
      ⟨typeRef, htype, rfl, name, hclass, hindex⟩ :=
    hedge
  · exact hsound source target hold
  · have htarget := classIndex_getElem hindex
    exact .inr ⟨entry.1, ancestor, hname, htarget,
      ⟨hroot, List.mem_of_getElem? htarget, .inl ⟨chain, hchain, hancestor⟩⟩⟩
  · have htarget := classIndex_getElem hindex
    exact .inr ⟨entry.1, name, hname, htarget,
      ⟨hroot, List.mem_of_getElem? htarget, .inr ⟨methods, hmethods, typeRef, htype, hclass⟩⟩⟩

theorem sound_dependencies (h : Resolved bindings)
    (hmatrix : dependencyMatrix bindings = .ok dependencies) : Sound bindings dependencies :=
  foldlM_invariant (Sound bindings)
    (fun _ _ _ hentry hsound hnext ↦ sound_addClassEdges h hentry hsound hnext)
    (fun _ _ hedge ↦ .inl (of_decide_eq_true hedge)) hmatrix

/-- The matrix has the dependencies, and the diagonal. -/
theorem dependencies_iff (h : Resolved bindings)
    (hmatrix : dependencyMatrix bindings = .ok dependencies) (source target : ℕ) :
    Edge dependencies source target ↔ source = target ∨
      ∃ name other, bindings.collected.generatedNames[source]? = some name ∧
        bindings.collected.generatedNames[target]? = some other ∧
        DependsOn bindings name other := by
  refine ⟨sound_dependencies h hmatrix source target, ?_⟩
  rintro (rfl | ⟨name, other, hname, hother, hroot, -, hnamed⟩)
  · exact extends_dependencyMatrix hmatrix source source (decide_eq_true rfl)
  · obtain ⟨chain, hchain⟩ := Renderable.root_chain h hroot
    refine dependency_edge hmatrix (List.mem_zipIdx_iff_getElem?.mpr hname)
      (h.root_not_shell hroot) hchain (classIndex_of_getElem h.coherent.distinct hother) ?_
    obtain ⟨found, hfound, hancestor⟩ | ⟨methods, hmethods, htype⟩ := hnamed
    · obtain rfl := Except.ok.inj (hchain.symm.trans hfound)
      exact .inl hancestor
    · rw [hmethods, Option.getD_some]
      exact .inr htype

theorem bounded_dependencies (h : Resolved bindings)
    (hmatrix : dependencyMatrix bindings = .ok dependencies) :
    Bounded bindings.collected.generatedNames.length dependencies := by
  intro source target hedge
  refine (sound_dependencies h hmatrix source target hedge).imp_right ?_
  rintro ⟨name, other, hname, hother, -⟩
  exact ⟨(List.getElem?_eq_some_iff.mp hname).1, (List.getElem?_eq_some_iff.mp hother).1⟩

/-- The matrix and the dependencies lead from the same classes to the same ones. -/
theorem reaches_iff (h : Resolved bindings)
    (hmatrix : dependencyMatrix bindings = .ok dependencies) {first second : String}
    {source target : ℕ} (hfirst : bindings.collected.generatedNames[source]? = some first)
    (hsecond : bindings.collected.generatedNames[target]? = some second) :
    ReflTransGen (Edge dependencies) source target ↔
      ReflTransGen (DependsOn bindings) first second := by
  constructor
  · intro hreach
    induction hreach generalizing second with
    | refl =>
      obtain rfl := Option.some.inj (hfirst.symm.trans hsecond)
      exact .refl
    | @tail middle last _ hedge ih =>
      obtain rfl | ⟨name, other, hname, hother, hdepends⟩ :=
        (dependencies_iff h hmatrix middle last).mp hedge
      · exact ih hsecond
      · obtain rfl := Option.some.inj (hother.symm.trans hsecond)
        exact (ih hname).tail hdepends
  · intro hreach
    induction hreach generalizing target with
    | refl =>
      have hsame := (classIndex_of_getElem h.coherent.distinct hfirst).symm.trans
        (classIndex_of_getElem h.coherent.distinct hsecond)
      obtain rfl := Option.some.inj hsame
      exact .refl
    | @tail middle last _ hdepends ih =>
      obtain ⟨index, hindex⟩ := List.mem_iff_getElem?.mp (h.root_generated hdepends.root)
      refine (ih hindex).tail ((dependencies_iff h hmatrix index target).mpr (.inr ?_))
      exact ⟨middle, last, hindex, hsecond, hdepends⟩

/-! ### The components of the classes -/

theorem reaching_reachability (h : Resolved bindings)
    (hmatrix : dependencyMatrix bindings = .ok dependencies) :
    Reaching (reachabilityMatrix bindings.collected.generatedNames.length dependencies) where
  self := reachability_self hmatrix bindings.collected.generatedNames.length
  trans first second third hfirst hsecond := by
    have hself : ∀ index, Edge dependencies index index := fun index ↦
      extends_dependencyMatrix hmatrix index index (decide_eq_true rfl)
    have hbounded := bounded_dependencies h hmatrix
    rw [reachability_iff hbounded hself] at hfirst hsecond ⊢
    exact hfirst.trans hsecond

/-- The closed matrix, in terms of the classes. -/
theorem together_iff (h : Resolved bindings)
    (hmatrix : dependencyMatrix bindings = .ok dependencies) {first second : String}
    {source target : ℕ} (hfirst : bindings.collected.generatedNames[source]? = some first)
    (hsecond : bindings.collected.generatedNames[target]? = some second) :
    Together (reachabilityMatrix bindings.collected.generatedNames.length dependencies)
        source target ↔ Mutual (DependsOn bindings) first second := by
  have hself : ∀ index, Edge dependencies index index := fun index ↦
    extends_dependencyMatrix hmatrix index index (decide_eq_true rfl)
  have hbounded := bounded_dependencies h hmatrix
  rw [Together, Mutual, reachability_iff hbounded hself, reachability_iff hbounded hself,
    reaches_iff h hmatrix hfirst hsecond, reaches_iff h hmatrix hsecond hfirst]

/-- Two classes are in one component exactly if they reach each other. -/
theorem component_together_iff (h : Resolved bindings)
    (hmatrix : dependencyMatrix bindings = .ok dependencies) {first second : String}
    (hfirst : first ∈ bindings.collected.generatedNames)
    (hsecond : second ∈ bindings.collected.generatedNames) :
    (∃ component ∈ componentsOf bindings dependencies,
        first ∈ component.members ∧ second ∈ component.members) ↔
      Mutual (DependsOn bindings) first second := by
  obtain ⟨source, hsource⟩ := List.mem_iff_getElem?.mp hfirst
  obtain ⟨target, htarget⟩ := List.mem_iff_getElem?.mp hsecond
  obtain ⟨hsourceLt, -⟩ := List.getElem?_eq_some_iff.mp hsource
  obtain ⟨htargetLt, -⟩ := List.getElem?_eq_some_iff.mp htarget
  have hdistinct := h.coherent.distinct
  rw [← together_iff h hmatrix hsource htarget,
    ← assigned_together_iff (reaching_reachability h hmatrix) hsourceLt htargetLt]
  constructor
  · rintro ⟨component, hcomponent, hmem, hother⟩
    obtain ⟨indices, hindices, rfl⟩ := List.mem_map.mp hcomponent
    obtain ⟨before, hbefore, hgetBefore⟩ := mem_members_iff.mp hmem
    obtain ⟨after, hafter, hgetAfter⟩ := mem_members_iff.mp hother
    obtain rfl : source = before :=
      (List.getElem?_inj hsourceLt hdistinct).mp (hsource.trans hgetBefore.symm)
    obtain rfl : target = after :=
      (List.getElem?_inj htargetLt hdistinct).mp (htarget.trans hgetAfter.symm)
    exact ⟨indices, hindices, hbefore, hafter⟩
  · rintro ⟨indices, hindices, hmem, hother⟩
    exact ⟨_, List.mem_map.mpr ⟨indices, hindices, rfl⟩,
      mem_members_iff.mpr ⟨source, hmem, hsource⟩, mem_members_iff.mpr ⟨target, hother, htarget⟩⟩

/-- Where the names are distinct, a component has each of its members once. -/
theorem members_nodup {generatedNames : List String} (hdistinct : generatedNames.Nodup)
    {indices : List ℕ} (h : indices.Nodup) :
    (sortNames (indices.filterMap fun index ↦ generatedNames[index]?)).Nodup := by
  refine (stableSort_perm _ _).nodup_iff.mpr (List.Nodup.filterMap ?_ h)
  intro first second name hfirst hsecond
  have hlt := (List.getElem?_eq_some_iff.mp (Option.mem_def.mp hfirst)).1
  exact (List.getElem?_inj hlt hdistinct).mp
    ((Option.mem_def.mp hfirst).trans (Option.mem_def.mp hsecond).symm)

theorem indices_nodup {reachability : Matrix} {count : ℕ} (sources : List ℕ)
    {assigned indices : List ℕ}
    (h : indices ∈ assignComponents reachability count sources assigned) : indices.Nodup := by
  obtain ⟨before, source, rfl⟩ := exists_componentMembers sources h
  exact List.nodup_range.filter _

/-- Together the components have every generated class once. -/
theorem components_perm (h : Resolved bindings)
    (hmatrix : dependencyMatrix bindings = .ok dependencies) :
    ((componentsOf bindings dependencies).map ClassComponent.members).flatten.Perm
      bindings.collected.generatedNames := by
  have hdistinct := h.coherent.distinct
  refine (List.perm_ext_iff_of_nodup (List.nodup_flatten.mpr ⟨?_, ?_⟩) hdistinct).mpr ?_
  · intro members hmembers
    obtain ⟨component, hcomponent, rfl⟩ := List.mem_map.mp hmembers
    obtain ⟨indices, hindices, rfl⟩ := List.mem_map.mp hcomponent
    exact members_nodup hdistinct (indices_nodup _ hindices)
  · rw [componentsOf, classComponents, List.map_map, List.pairwise_map]
    refine (components_disjoint _ []).imp fun {first second} hdisjoint ↦ ?_
    intro name hfirst hsecond
    obtain ⟨index, hindex, hget⟩ := mem_members_iff.mp hfirst
    obtain ⟨other, hother, hgetOther⟩ := mem_members_iff.mp hsecond
    have hlt := (List.getElem?_eq_some_iff.mp hget).1
    obtain rfl := (List.getElem?_inj hlt hdistinct).mp (hget.trans hgetOther.symm)
    exact hdisjoint hindex hother
  · intro name
    rw [List.mem_flatten]
    constructor
    · rintro ⟨members, hmembers, hname⟩
      obtain ⟨component, hcomponent, rfl⟩ := List.mem_map.mp hmembers
      exact members_generated hcomponent hname
    · intro hname
      obtain ⟨component, hcomponent, hmember⟩ := exists_componentOf hmatrix hname
      exact ⟨_, List.mem_map_of_mem hcomponent, hmember⟩

/-! ### The places of the classes in the tree -/

/-- The classes in a file, if it is the file of a component. -/
def classesIn : Contents → Option (List String)
  | .component file => some (file.structs.map ClassStruct.name)
  | .sentinel => none
  | .globalEnums _ => none
  | .index _ _ => none
  | .facade _ _ _ => none
  | .manifest _ => none

/-- The classes of each component in a tree. -/
def placement (files : List GeneratedFile) : List (List String) :=
  files.filterMap fun file ↦ classesIn file.contents

/-- A class is in a component of a tree. -/
def PlacedIn (files : List GeneratedFile) (members : List String) (name : String) : Prop :=
  members ∈ placement files ∧ name ∈ members

/-- The components of a tree are the strongly connected ones. -/
structure StronglyConnected (bindings : ResolvedBindings) (files : List GeneratedFile) : Prop where
  once : (placement files).flatten.Perm bindings.collected.generatedNames
  placed : ∀ name ∈ bindings.collected.generatedNames, ∃! members, PlacedIn files members name
  together : ∀ first ∈ bindings.collected.generatedNames,
    ∀ second ∈ bindings.collected.generatedNames,
      (∃ members, PlacedIn files members first ∧ PlacedIn files members second) ↔
        Mutual (DependsOn bindings) first second
  acyclic : ∀ members,
    ¬ TransGen (GroupRelated (DependsOn bindings) (PlacedIn files)) members members

variable {files : List GeneratedFile}

theorem placement_append (first second : List GeneratedFile) :
    placement (first ++ second) = placement first ++ placement second :=
  List.filterMap_append

theorem placement_sortFiles (files : List GeneratedFile) :
    (placement (sortFiles files)).Perm (placement files) :=
  (stableSort_perm _ files).filterMap _

/-- The files of the components have the classes of the components. -/
theorem placement_components {components : List ClassComponent}
    {componentFiles : List GeneratedFile}
    (h : (components.zipIdx.mapM fun (component, index) ↦ do
      let file ← renderClassComponent bindings components dependencies index component
      return (⟨component.path, .component file⟩ : GeneratedFile)) = .ok componentFiles) :
    placement componentFiles = components.map ClassComponent.members := by
  have hseen : componentFiles.map (fun file ↦ classesIn file.contents) =
      components.zipIdx.map fun entry ↦ some entry.1.members := by
    refine map_mapM_eq (fun entry file hfile ↦ ?_) h
    obtain ⟨contents, hcontents, hfile⟩ := bind_eq_ok.mp hfile
    obtain rfl := Except.ok.inj hfile
    obtain ⟨structs, hstructs, hcontents⟩ := bind_eq_ok.mp hcontents
    obtain rfl := Except.ok.inj hcontents
    have hnames : structs.map ClassStruct.name = entry.1.members.map id :=
      map_mapM_eq (fun name struct hrender ↦ (NameClosure.renderResolvedClass_fields hrender).1)
        hstructs
    rw [List.map_id] at hnames
    exact congrArg some hnames
  calc placement componentFiles
      = (componentFiles.map fun file ↦ classesIn file.contents).filterMap id := by
        rw [List.filterMap_map]
        rfl
    _ = (components.zipIdx.map Prod.fst).map ClassComponent.members := by
        rw [hseen, List.filterMap_map, List.map_map, ← List.filterMap_eq_map]
        rfl
    _ = components.map ClassComponent.members := by rw [List.zipIdx_map_fst]

theorem placement_perm (h : renderResolvedTree bindings = .ok files) :
    ∃ dependencies, dependencyMatrix bindings = .ok dependencies ∧
      (placement files).Perm ((componentsOf bindings dependencies).map ClassComponent.members) := by
  obtain ⟨dependencies, hdependencies, h⟩ := bind_eq_ok.mp h
  obtain ⟨componentFiles, hfiles, h⟩ := bind_eq_ok.mp h
  obtain rfl := Except.ok.inj h
  refine ⟨dependencies, hdependencies, ?_⟩
  rw [componentsOf, ← placement_components hfiles]
  refine (placement_sortFiles _).trans ?_
  rw [placement_append]
  show (placement _ ++ []).Perm _
  rw [List.append_nil]
  refine (placement_sortFiles _).trans ?_
  rw [placement_append, placement_append]
  show ([] ++ placement componentFiles ++ []).Perm _
  rw [List.nil_append, List.append_nil]

/-- Whatever is resolved is rendered in strongly connected components. -/
theorem rendered_strongComponents {api : ExtensionApi} {profile : List (Option String)}
    (hbindings : resolveBindings api profile = .ok bindings) :
    ∃ files, renderResolvedTree bindings = .ok files ∧ StronglyConnected bindings files := by
  have h := (resolved_of_ok hbindings).1
  obtain ⟨files, hfiles⟩ := Renderable.exists_files h
  obtain ⟨dependencies, hmatrix, hperm⟩ := placement_perm hfiles
  have hmem : ∀ members, members ∈ placement files ↔
      ∃ component ∈ componentsOf bindings dependencies, component.members = members := fun members ↦
    hperm.mem_iff.trans List.mem_map
  have honce : (placement files).flatten.Perm bindings.collected.generatedNames :=
    hperm.flatten.trans (components_perm h hmatrix)
  have hgenerated : ∀ {members name}, PlacedIn files members name →
      name ∈ bindings.collected.generatedNames := fun hplaced ↦
    honce.mem_iff.mp (List.mem_flatten.mpr ⟨_, hplaced.1, hplaced.2⟩)
  have hunique : ∀ {members other name}, PlacedIn files members name →
      PlacedIn files other name → members = other := by
    intro members other name hplaced hother
    by_contra hne
    have hdisjoint := (List.nodup_flatten.mp (honce.nodup_iff.mpr h.coherent.distinct)).2
    have : Std.Symm (@List.Disjoint String) :=
      ⟨fun _ _ hlists _ hfirst hsecond ↦ hlists hsecond hfirst⟩
    exact hdisjoint.forall hplaced.1 hother.1 hne hplaced.2 hother.2
  have htogether : ∀ first ∈ bindings.collected.generatedNames,
      ∀ second ∈ bindings.collected.generatedNames,
        (∃ members, PlacedIn files members first ∧ PlacedIn files members second) ↔
          Mutual (DependsOn bindings) first second := by
    intro first hfirst second hsecond
    rw [← component_together_iff h hmatrix hfirst hsecond]
    constructor
    · rintro ⟨members, ⟨hmembers, hplaced⟩, -, hother⟩
      obtain ⟨component, hcomponent, rfl⟩ := (hmem members).mp hmembers
      exact ⟨component, hcomponent, hplaced, hother⟩
    · rintro ⟨component, hcomponent, hplaced, hother⟩
      have hmembers := (hmem component.members).mpr ⟨component, hcomponent, rfl⟩
      exact ⟨component.members, ⟨hmembers, hplaced⟩, hmembers, hother⟩
  refine ⟨files, hfiles, honce, fun name hname ↦ ?_, htogether, groups_acyclic ?_ ?_⟩
  · obtain ⟨members, hmembers, hplaced⟩ := List.mem_flatten.mp (honce.mem_iff.mpr hname)
    exact ⟨members, ⟨hmembers, hplaced⟩, fun other hother ↦ hunique hother ⟨hmembers, hplaced⟩⟩
  · intro members first second hfirst hsecond
    exact ((htogether first (hgenerated hfirst) second (hgenerated hsecond)).mp
      ⟨members, hfirst, hsecond⟩).1
  · intro members other first second hfirst hsecond hmutual
    obtain ⟨common, hcommon, hcommon'⟩ :=
      (htogether first (hgenerated hfirst) second (hgenerated hsecond)).mpr hmutual
    exact (hunique hfirst hcommon).trans (hunique hsecond hcommon').symm

/-- A method that returns an object of a class. -/
def returning (name className : String) : Method where
  name := name
  returnValue := some ⟨className, none⟩
  arguments := []
  isVararg := false
  isStatic := false
  isVirtual := false
  hash := 0

/-- Two classes whose methods return one another. -/
def cycleApi : ExtensionApi where
  header := ⟨4, 7, "single"⟩
  globalEnums := []
  classes :=
    [⟨"A", none, [returning "get_b" "B"], []⟩, ⟨"B", none, [returning "get_a" "A"], []⟩]

theorem rendered_strongComponents_cycle :
    ∃ bindings, resolveBindings cycleApi [some "A", some "B"] = .ok bindings ∧
      ∃ files, renderResolvedTree bindings = .ok files ∧ StronglyConnected bindings files := by
  have hany :
      (resolveBindings cycleApi [some "A", some "B"]).toOption.any (fun _ ↦ true) = true := by
    decide
  obtain ⟨bindings, hbindings, -⟩ := exists_of_any hany
  exact ⟨bindings, hbindings, rendered_strongComponents hbindings⟩

end Gzscript.Bindings.StrongComponents
