import ReplyTree.Proofs.Lines
import ReplyTree.Proofs.Traversal

/- Listings of sorted positions. The line of a node stands inside the node above it: what comes
   between the two is below that node, so it is shown no further to the left, also where the
   limit holds the levels back. -/
namespace ReplyTree

theorem split_last {α : Type} {keep : α → Prop} {xs : List α} (some_kept : ∃ x ∈ xs, keep x) :
    ∃ front y back, xs = front ++ y :: back ∧ keep y ∧ ∀ z ∈ back, ¬ keep z := by
  induction xs with
  | nil => simp at some_kept
  | cons x rest ih =>
    by_cases later : ∃ z ∈ rest, keep z
    · obtain ⟨front, y, back, rfl, kept, none_after⟩ := ih later
      exact ⟨x :: front, y, back, rfl, kept, none_after⟩
    · have none_after : ∀ z ∈ rest, ¬ keep z := fun z among kept => later ⟨z, among, kept⟩
      obtain ⟨z, member, kept⟩ := some_kept
      rcases List.mem_cons.mp member with rfl | among
      · exact ⟨[], z, rest, rfl, kept, none_after⟩
      · exact absurd kept (none_after z among)

theorem sublist_of_split {α : Type} {outer between back : List α} {x y z : α}
    (member : y ∈ between) : [x, y, z].Sublist (outer ++ x :: between ++ z :: back) := by
  have middle : [y].Sublist between := List.singleton_sublist.mpr member
  have last : [z].Sublist (z :: back) := List.singleton_sublist.mpr (by simp)
  have inner := (middle.append last).cons_cons x
  simpa using inner.trans (List.sublist_append_right outer _)

/-- The nearest line before that is shown further to the left is one level up, and it is the
    line of the given node. -/
def Line.EnclosedBy (line : Line) (front : List Line) (p : Position) : Prop :=
  ∃ outer enclosing between, front = outer ++ enclosing :: between ∧
    enclosing.shown + 1 = line.shown ∧ enclosing.position.Same p ∧
    ∀ e ∈ between, line.shown ≤ e.shown

structure Arranged (newestFirst : Bool) (most : Nat) (lines : List Line) : Prop where
  ordered : Ordered newestFirst (lines.map Line.position)
  shared : SharedMarks (lines.map Line.position)
  shown : ∀ line ∈ lines, line.shown = min line.position.depth most
  indent : ∀ front line back, lines = front ++ line :: back →
    line.indent = (line.shown : Int) - Listing.levelAfter 0 front

def Rooted (ps : List Position) : Prop :=
  ∀ p ∈ ps, ∀ q, p.parent? = some q → ∃ k ∈ ps, k.Same q

variable {newestFirst : Bool} {most : Nat} {lines front back : List Line} {line : Line}
  {k : Position}

theorem mem_positions (split : lines = front ++ line :: back) :
    line.position ∈ lines.map Line.position :=
  List.mem_map.mpr ⟨line, by simp [split], rfl⟩

theorem Arranged.line_before (arranged : Arranged newestFirst most lines)
    (split : lines = front ++ line :: back) (listed : k ∈ lines.map Line.position)
    (above : k.Above line.position) : k ∈ front.map Line.position := by
  have precedes : k.Precedes newestFirst line.position :=
    above.precedes (arranged.shared k listed line.position (mem_positions split))
  have ordered := arranged.ordered
  rw [split, List.map_append, List.map_cons] at ordered listed
  exact mem_front_of_precedes ordered listed precedes

theorem Arranged.covers_between {outer between : List Line} {top e : Line}
    (arranged : Arranged newestFirst most lines)
    (split : lines = outer ++ top :: between ++ line :: back) (member : e ∈ between)
    (same : k.Same top.position) (above : k.Above line.position) : k.Covers e.position := by
  have sub : [top.position, e.position, line.position].Sublist (lines.map Line.position) := by
    rw [split]
    exact (sublist_of_split member).map Line.position
  exact between_of_ordered arranged.ordered arranged.shared k _ _ _ sub (Or.inl same)
    (Or.inr above)

theorem Arranged.enclosed (arranged : Arranged newestFirst most lines)
    (split : lines = front ++ line :: back) (inner : 0 < line.shown)
    (listed : k ∈ lines.map Line.position)
    (same : k.Same (line.position.upTo (line.shown - 1))) :
    line.EnclosedBy front (line.position.upTo (line.shown - 1)) := by
  have shown := arranged.shown line (by simp [split])
  have within : line.shown - 1 < line.position.depth := by omega
  have above : k.Above line.position :=
    (Position.upTo_above within).of_same same.symm rfl
  have depth : k.depth = line.shown - 1 := by
    rw [same.depth_eq, Position.depth_upTo _ (Nat.le_of_lt within)]
  have before : ∃ e ∈ front, k.Same e.position := by
    obtain ⟨e, member, position⟩ := List.mem_map.mp (arranged.line_before split listed above)
    exact ⟨e, member, by rw [position]; rfl⟩
  -- The last line of the node above is the one: below it comes nothing but its subtree.
  obtain ⟨outer, top, between, rfl, top_same, none_after⟩ := split_last before
  refine ⟨outer, top, between, rfl, ?_, top_same.symm.trans same, ?_⟩
  · have top_shown := arranged.shown top (by simp [split])
    have top_depth := top_same.depth_eq
    omega
  · intro e member
    have e_shown := arranged.shown e (by simp [split, member])
    rcases arranged.covers_between split member top_same above with again | below
    · exact absurd again (none_after e member)
    · have deeper := below.depth_lt
      omega

theorem listed_of_rooted {ps : List Position} (rooted : Rooted ps) (p : Position)
    (member : p ∈ ps) (d : Nat) (below : d < p.depth) : ∃ k ∈ ps, k.Same (p.upTo d) := by
  induction h : p.depth generalizing p with
  | zero => omega
  | succ depth ih =>
    have parent : p.parent? = some (p.upTo depth) :=
      Position.parent_eq_some.mpr ⟨by omega, by rw [h]; rfl⟩
    obtain ⟨k, listed, same⟩ := rooted p member _ parent
    by_cases nearest : d = depth
    · subst nearest
      exact ⟨k, listed, same⟩
    · have k_depth : k.depth = depth := by
        rw [same.depth_eq, Position.depth_upTo p (by omega)]
      obtain ⟨k', listed', same'⟩ := ih k listed (by omega) k_depth
      refine ⟨k', listed', same'.trans ?_⟩
      rw [← Position.upTo_upTo p (by omega : d ≤ depth)]
      exact same.upTo d

theorem Arranged.enclosed_of_rooted (arranged : Arranged newestFirst most lines)
    (rooted : Rooted (lines.map Line.position)) (split : lines = front ++ line :: back)
    (inner : 0 < line.shown) :
    line.EnclosedBy front (line.position.upTo (line.shown - 1)) := by
  have shown := arranged.shown line (by simp [split])
  obtain ⟨k, listed, same⟩ := listed_of_rooted rooted line.position (mem_positions split)
    (line.shown - 1) (by omega)
  exact arranged.enclosed split inner listed same

theorem Line.EnclosedBy.last {p : Position} (enclosed : line.EnclosedBy front p) :
    (∃ outer enclosing, front = outer ++ [enclosing] ∧ enclosing.position.Same p ∧
      Listing.levelAfter 0 front + 1 = line.shown) ∨ line.shown ≤ Listing.levelAfter 0 front := by
  obtain ⟨outer, enclosing, between, rfl, level, same, right⟩ := enclosed
  rcases List.eq_nil_or_concat between with rfl | ⟨between, e, rfl⟩
  · refine Or.inl ⟨outer, enclosing, rfl, same, ?_⟩
    rw [Listing.level_after_last, level]
  · refine Or.inr ?_
    rw [List.concat_eq_append, ← List.cons_append, ← List.append_assoc,
      Listing.level_after_last]
    exact right e (by simp)

theorem Arranged.indent_le_one (arranged : Arranged newestFirst most lines)
    (rooted : Rooted (lines.map Line.position)) (split : lines = front ++ line :: back) :
    line.indent ≤ 1 := by
  rw [arranged.indent front line back split]
  by_cases inner : 0 < line.shown
  · rcases (arranged.enclosed_of_rooted rooted split inner).last with
      ⟨_, _, _, _, level⟩ | level
    · omega
    · omega
  · omega

theorem Arranged.first_indent (arranged : Arranged newestFirst most lines)
    (rooted : Rooted (lines.map Line.position)) (split : lines = line :: back) :
    line.indent = 0 := by
  rw [arranged.indent [] line back split]
  by_cases inner : 0 < line.shown
  · have enclosed : line.EnclosedBy [] (line.position.upTo (line.shown - 1)) :=
      arranged.enclosed_of_rooted rooted split inner
    obtain ⟨outer, enclosing, between, absent, _⟩ := enclosed
    simp at absent
  · simp only [Listing.levelAfter]
    omega

theorem Arranged.not_below_before (arranged : Arranged newestFirst most lines)
    (split : lines = front ++ line :: back) (listed : k ∈ front.map Line.position) :
    ¬ line.position.Above k := by
  intro above
  have marks := arranged.shared line.position (mem_positions split) k
    (by rw [split, List.map_append]; exact List.mem_append_left _ listed)
  have ordered := arranged.ordered
  rw [split, List.map_append, List.map_cons] at ordered
  exact (List.pairwise_append.mp ordered).2.2 k listed line.position (by simp)
    (above.precedes marks)

theorem Arranged.not_held_back {outer : List Line} {enclosing : Line}
    (arranged : Arranged newestFirst most lines)
    (split : lines = outer ++ enclosing :: line :: back) (inner : 0 < line.shown)
    (same : enclosing.position.Same (line.position.upTo (line.shown - 1)))
    (same_k : k.Same (line.position.upTo (line.position.depth - 1)))
    (outside : k ∈ outer.map Line.position) : line.position.depth ≤ line.shown := by
  apply Nat.le_of_not_lt
  intro held
  have nested : (line.position.upTo (line.shown - 1)).Above
      (line.position.upTo (line.position.depth - 1)) :=
    Position.upTo_above_upTo (by omega) (by omega)
  exact arranged.not_below_before split outside (nested.of_same same.symm same_k.symm)

theorem Arranged.parent_before (arranged : Arranged newestFirst most lines)
    (rooted : Rooted (lines.map Line.position)) (split : lines = front ++ line :: back)
    (opened : line.indent = 1) :
    ∃ outer before, front = outer ++ [before] ∧
      ∃ q, line.position.parent? = some q ∧ before.position.Same q := by
  have indent := arranged.indent front line back split
  have shown := arranged.shown line (by simp [split])
  have inner : 0 < line.shown := by omega
  rcases (arranged.enclosed_of_rooted rooted split inner).last with
    ⟨outer, enclosing, rfl, same, level⟩ | level
  · have deep : 0 < line.position.depth := by omega
    obtain ⟨k, listed, same_k⟩ := listed_of_rooted rooted line.position (mem_positions split)
      (line.position.depth - 1) (by omega)
    have above := (Position.upTo_above (by omega)).of_same same_k.symm rfl
    refine ⟨outer, enclosing, rfl, _, Position.parent_eq_some.mpr ⟨deep, rfl⟩, ?_⟩
    have before := arranged.line_before split listed above
    rw [List.map_append, List.mem_append] at before
    rcases before with outside | last
    · have split' : lines = outer ++ enclosing :: line :: back := by simp [split]
      have free := arranged.not_held_back split' inner same same_k outside
      have depth : line.shown - 1 = line.position.depth - 1 := by omega
      rw [← depth]
      exact same
    · rw [← List.mem_singleton.mp last]
      exact same_k
  · omega

/-- The lines of some nodes stand inside the lines of the nodes above them. If no parent is
    missing, a listing starts at the left, goes in by one level at most, and goes in only
    directly below the line of the parent. -/
structure Nested (ps : List Position) (lines : List Line) : Prop where
  enclosed : ∀ front line back, lines = front ++ line :: back → 0 < line.shown →
    (∃ k ∈ ps, k.Same (line.position.upTo (line.shown - 1))) →
      line.EnclosedBy front (line.position.upTo (line.shown - 1))
  steps : Rooted ps → ∀ front line back, lines = front ++ line :: back →
    (front = [] → line.indent = 0) ∧ line.indent ≤ 1 ∧
      (line.indent = 1 → ∃ outer before, front = outer ++ [before] ∧
        ∃ q, line.position.parent? = some q ∧ before.position.Same q)

theorem Arranged.nested (arranged : Arranged newestFirst most lines) {ps : List Position}
    (same : ∀ p, p ∈ lines.map Line.position ↔ p ∈ ps) : Nested ps lines where
  enclosed := by
    rintro front line back split inner ⟨k, listed, above⟩
    exact arranged.enclosed split inner ((same k).mpr listed) above
  steps := by
    intro rooted front line back split
    have rooted' : Rooted (lines.map Line.position) := by
      intro p member q parent
      obtain ⟨k, listed, equal⟩ := rooted p ((same p).mp member) q parent
      exact ⟨k, (same k).mpr listed, equal⟩
    refine ⟨?_, arranged.indent_le_one rooted' split, arranged.parent_before rooted' split⟩
    rintro rfl
    exact arranged.first_indent rooted' split

theorem arranged_of_sorted (bound : Decimal.Bound) (newestFirst : Bool) (most : Nat)
    {ps : List Position} (shared : SharedMarks ps) :
    Arranged newestFirst most (Listing.ofValues bound (.ofNat most) .unset
      ((arrange newestFirst ps).map .position)).lines := by
  have positions := (Listing.outline_positions bound most 0 (arrange newestFirst ps)).2
  refine ⟨?_, ?_, ?_, fun front line back split => Listing.indent_of_outline split⟩
  · rw [Listing.ofValues, positions]
    exact arrange_ordered newestFirst ps
  · rw [Listing.ofValues, positions]
    exact fun p hp q hq => shared p (mem_arrange.mp hp) q (mem_arrange.mp hq)
  · intro line member
    obtain ⟨depth, limit, natural, shown⟩ := Listing.shown_of_outline member
    cases natural
    rw [shown, depth]

/-- The listing of sorted nodes has a line for each, at the depth of the node or at the limit, and
    nests every line inside the line of the node above it. -/
theorem sorted_listing_nests {bound : Decimal.Bound} {choice : LayoutChoice}
    {items : List Value} {ps : List Position}
    (accepted : (Position.ofValues bound choice items).result = .ok ps)
    (shared : SharedMarks ps) (newestFirst : Bool) (most : Nat) :
    ∃ listed, (arrangeValues bound newestFirst choice items).result = .ok listed ∧
      listed.Perm ps ∧
      let listing := Listing.ofValues bound (.ofNat most) .unset (listed.map .position)
      listing.fault? = none ∧ listing.lines.map Line.position = listed ∧
        (∀ line ∈ listing.lines, line.shown = min line.position.depth most) ∧
        Nested ps listing.lines := by
  refine ⟨_, arrange_of_read accepted newestFirst, arrange_perm newestFirst ps, ?_⟩
  obtain ⟨complete, positions⟩ :=
    Listing.outline_positions bound most 0 (arrange newestFirst ps)
  have arranged := arranged_of_sorted bound newestFirst most shared
  refine ⟨complete, positions, arranged.shown, arranged.nested ?_⟩
  intro p
  rw [Listing.ofValues, positions]
  exact mem_arrange

theorem sorted_listing_of_chain_nests :
    let root : Position := ⟨.standard, [1], by decide, by decide⟩
    let other : Position := ⟨.standard, [2], by decide, by decide⟩
    let reply : Position := ⟨.standard, [1, 0], by decide, by decide⟩
    let inner : Position := ⟨.standard, [1, 0, 0], by decide, by decide⟩
    let innermost : Position := ⟨.standard, [1, 0, 0, 0], by decide, by decide⟩
    let items : List Value := [.position innermost, .text "01.00/", .text "02/", .position inner,
      .text "01/", .position reply]
    let ps : List Position := [innermost, reply, other, inner, root, reply]
    (Position.ofValues .unbounded .unset items).result = .ok ps ∧ SharedMarks ps ∧ Rooted ps ∧
    ∃ listed, (arrangeValues .unbounded true .unset items).result = .ok listed ∧
      let lines := (Listing.ofValues .unbounded (.ofNat 2) .unset (listed.map .position)).lines
      Nested ps lines ∧ ∃ front line back, lines = front ++ line :: back ∧
        line.position = innermost ∧ line.shown = 2 ∧ line.EnclosedBy front reply := by
  intro root other reply inner innermost items ps
  have accepted : (Position.ofValues .unbounded .unset items).result = .ok ps := rfl
  have shared : SharedMarks ps := by
    simp [ps, SharedMarks, Position.SharesMarks, root, other, reply, inner, innermost]
  have rooted : Rooted ps := by
    intro p member q parent
    simp only [ps, List.mem_cons, List.not_mem_nil, or_false] at member
    rcases member with rfl | rfl | rfl | rfl | rfl | rfl
    · cases parent; exact ⟨inner, by simp [ps], rfl⟩
    · cases parent; exact ⟨root, by simp [ps], rfl⟩
    · cases parent
    · cases parent; exact ⟨reply, by simp [ps], rfl⟩
    · cases parent
    · cases parent; exact ⟨root, by simp [ps], rfl⟩
  obtain ⟨listed, sorted, perm, _, positions, levels, nested⟩ :=
    sorted_listing_nests accepted shared true 2
  refine ⟨accepted, shared, rooted, listed, sorted, nested, ?_⟩
  have inside : innermost ∈ listed := perm.mem_iff.mpr (by simp [ps])
  rw [← positions] at inside
  obtain ⟨line, member, position⟩ := List.mem_map.mp inside
  have level : line.shown = 2 := by
    rw [levels line member, position]
    rfl
  obtain ⟨front, back, split⟩ := List.append_of_mem member
  have enclosed := nested.enclosed front line back split (by omega)
  rw [position, level] at enclosed
  exact ⟨front, line, back, split, position, level, enclosed ⟨reply, by simp [ps], rfl⟩⟩

end ReplyTree
