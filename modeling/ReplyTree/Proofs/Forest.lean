import ReplyTree.Proofs.Ancestry
import ReplyTree.Proofs.Precedence
import ReplyTree.Proofs.RoundTrip
import ReplyTree.Value.Relations

/- The nodes above a node. They are reached by going from parent to parent, they are what is cut
   from the ordinals of the node, and they are what lies above it by comparison of ordinals. So
   the nodes of all layouts form a forest. -/
namespace ReplyTree.Position

variable {p q r : Position} {chain : List Position} {i : Nat}

/-- What is passed on the way from parent to parent, up to a node without one. -/
inductive Lineage : Position → List Position → Prop
  | top {p : Position} : p.parent? = none → Lineage p []
  | child {p q : Position} {chain : List Position} : p.parent? = some q → Lineage q chain →
      Lineage p (q :: chain)

theorem ancestors_of_root (root : p.parent? = none) : p.ancestors = [] := by
  apply List.eq_nil_of_length_eq_zero
  rw [length_ancestors]
  exact parent_eq_none.mp root

theorem ancestors_of_parent (parent : p.parent? = some q) : p.ancestors = q :: q.ancestors := by
  obtain ⟨deep, rfl⟩ := parent_eq_some.mp parent
  obtain ⟨d, depth⟩ : ∃ d, p.depth = d + 1 := ⟨p.depth - 1, by omega⟩
  rw [depth, Nat.add_sub_cancel]
  have shorter : (p.upTo d).depth = d := depth_upTo p (by omega)
  rw [ancestors, ancestors, depth, shorter, List.range_succ, List.reverse_append, List.map_append]
  refine congrArg (p.upTo d :: ·) (List.map_congr_left ?_)
  intro e member
  have below : e < d := by simpa using member
  exact (upTo_upTo p (Nat.le_of_lt below)).symm

theorem Lineage.ancestors (lineage : p.Lineage chain) : p.ancestors = chain := by
  induction lineage with
  | top root => exact ancestors_of_root root
  | child parent _ ih => rw [ancestors_of_parent parent, ih]

theorem Lineage.of_ancestors (p : Position) : p.Lineage p.ancestors := by
  -- A parent is no part of the structure of its child, so the induction is on the depth.
  induction depth : p.depth generalizing p with
  | zero =>
    have root : p.parent? = none := parent_eq_none.mpr depth
    rw [ancestors_of_root root]
    exact .top root
  | succ d ih =>
    have parent : p.parent? = some (p.upTo d) := by rw [parent?, depth]
    rw [ancestors_of_parent parent]
    exact .child parent (ih (p.upTo d) (depth_upTo p (by omega)))

theorem lineage_iff : p.Lineage chain ↔ chain = p.ancestors := by
  constructor
  · intro lineage
    exact lineage.ancestors.symm
  · rintro rfl
    exact .of_ancestors p

theorem mem_ancestors : q ∈ p.ancestors ↔ ∃ d, d < p.depth ∧ q = p.upTo d := by
  simp only [ancestors, List.mem_map, List.mem_reverse, List.mem_range, eq_comm]

theorem build_upTo (p : Position) (d : Nat) :
    build ((p.ordinals.take (d + 1)).map .ofNat) (.named p.layout) = .ok (p.upTo d) :=
  p.layout.build_ok (p.upTo d).nonempty (p.upTo d).fits

theorem ancestor_at (deep : i < p.depth) :
    ∃ q, p.ancestors[i]? = some q ∧ q.layout = p.layout ∧
      q.ordinals = p.ordinals.take (p.depth - i) ∧
      build ((p.ordinals.take (p.depth - i)).map .ofNat) (.named p.layout) = .ok q := by
  have size : p.depth - i = p.depth - 1 - i + 1 := by omega
  refine ⟨p.upTo (p.depth - 1 - i), ?_, rfl, ?_, ?_⟩
  · simp [ancestors, deep]
  · rw [size, ordinals_upTo]
  · rw [size, build_upTo]

/-- Some ancestor has the width and the ordinals of the position, and is the same if the marks
    are the same. -/
def Heads (p q : Position) : Prop :=
  ∃ a ∈ q.ancestors, a.layout.width = p.layout.width ∧ a.ordinals = p.ordinals ∧
    (p.SharesMarks q → a.Same p)

theorem Above.heads (above : p.Above q) : p.Heads q := by
  have ordinals := ordinals_upTo_of_prefix above.2.2
  refine ⟨q.upTo p.depth, mem_ancestors.mpr ⟨p.depth, above.depth_lt, rfl⟩, above.1.symm,
    ordinals, ?_⟩
  intro marks
  exact same_of_eq above.1.symm ordinals marks.2.symm (Or.inl marks.1.symm)

theorem above_iff_heads : p.Above q ↔ p.Heads q := by
  constructor
  · exact Above.heads
  · rintro ⟨a, member, width, ordinals, _⟩
    obtain ⟨d, deep, rfl⟩ := mem_ancestors.mp member
    exact (above_congr width ordinals).mp (upTo_above deep)

theorem Above.on_one_path (above : p.Above r) (above' : q.Above r) :
    (p.layout.width = q.layout.width ∧ p.ordinals = q.ordinals) ∨ p.Above q ∨ q.Above p := by
  -- Both begin the ordinals of `r`, so the shorter one begins the longer one.
  have width : p.layout.width = q.layout.width := above.1.trans above'.1.symm
  rcases Nat.lt_trichotomy p.ordinals.length q.ordinals.length with shorter | same | longer
  · have start := List.prefix_of_prefix_length_le above.2.2 above'.2.2 (Nat.le_of_lt shorter)
    exact Or.inr (Or.inl ⟨width, shorter, start⟩)
  · have start := List.prefix_of_prefix_length_le above.2.2 above'.2.2 (Nat.le_of_eq same)
    exact Or.inl ⟨width, start.eq_of_length same⟩
  · have start := List.prefix_of_prefix_length_le above'.2.2 above.2.2 (Nat.le_of_lt longer)
    exact Or.inr (Or.inr ⟨width.symm, longer, start⟩)

/-- The ancestors of a node are its parents one above the other, and nothing else lies above it
    but for the marks. -/
theorem ancestry_is_a_forest (p : Position) :
    (∀ chain, p.Lineage chain ↔ chain = p.ancestors) ∧ p.ancestors.length = p.depth ∧
    (∀ i, i < p.depth → ∃ q, p.ancestors[i]? = some q ∧ q.layout = p.layout ∧
      q.ordinals = p.ordinals.take (p.depth - i) ∧
      build ((p.ordinals.take (p.depth - i)).map .ofNat) (.named p.layout) = .ok q) ∧
    (∀ q : Position, Value.isAbove (.position q) (.position p) = .ok (decide (q.Above p)) ∧
      Value.isBelow (.position p) (.position q) = .ok (decide (q.Above p)) ∧
      (q.Above p ↔ q.Heads p)) ∧
    ¬ p.Above p ∧ (∀ q r : Position, q.Above r → r.Above p → q.Above p) ∧
    ∀ q r : Position, q.Above p → r.Above p →
      (q.layout.width = r.layout.width ∧ q.ordinals = r.ordinals) ∨ q.Above r ∨ r.Above q :=
  ⟨fun _ => lineage_iff, p.length_ancestors, fun _ => ancestor_at,
    fun _ => ⟨rfl, rfl, above_iff_heads⟩, Above.irrefl p, fun _ _ => Above.trans,
    fun _ _ => Above.on_one_path⟩

theorem ancestry_across_separators :
    let dashed : Layout := { Layout.standard with separator := '-', separator_lt := by decide }
    let p : Position := ⟨dashed, [1, 0, 5], by decide, by decide⟩
    let q : Position := ⟨.standard, [1, 0], by decide, by decide⟩
    p.Lineage p.ancestors ∧ p.ancestors.map ordinals = [[1, 0], [1]] ∧
      Value.isAbove (.position q) (.position p) = .ok true ∧ q.Heads p ∧
      ∀ a ∈ p.ancestors, ¬ a.Same q := by
  intro dashed p q
  obtain ⟨lineage, _, _, related, _⟩ := ancestry_is_a_forest p
  obtain ⟨answer, _, heads⟩ := related q
  have above : q.Above p := by decide
  rw [decide_eq_true above] at answer
  exact ⟨(lineage _).mpr rfl, rfl, answer, heads.mp above, by decide⟩

end ReplyTree.Position
