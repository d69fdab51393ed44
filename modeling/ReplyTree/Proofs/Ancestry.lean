import ReplyTree.Proofs.Texts

/- Nodes above and below each other. A node is above another one if its ordinals lead there, and
   which marks the two are written in does not matter. -/
namespace ReplyTree.Position

variable {p q r c : Position} {d e n : Nat}

def Covers (p q : Position) : Prop := p.Same q ∨ p.Above q

theorem Above.irrefl (p : Position) : ¬ p.Above p := fun above => Nat.lt_irrefl _ above.2.1

theorem Above.trans (first : p.Above q) (second : q.Above r) : p.Above r :=
  ⟨first.1.trans second.1, Nat.lt_trans first.2.1 second.2.1, first.2.2.trans second.2.2⟩

theorem Above.of_same {p' q' : Position} (above : p.Above q) (left : p.Same p')
    (right : q.Same q') : p'.Above q' := by
  obtain ⟨width, ordinals, _⟩ := (same_iff p p').mp left
  obtain ⟨width', ordinals', _⟩ := (same_iff q q').mp right
  rw [Above, width, width', ordinals, ordinals'] at above
  exact above

theorem Above.of_covers_right (above : p.Above q) (covers : q.Covers r) : p.Above r := by
  rcases covers with same | below
  · exact above.of_same rfl same
  · exact above.trans below

theorem above_congr {a b : Position} (width : b.layout.width = a.layout.width)
    (ordinals : b.ordinals = a.ordinals) : b.Above q ↔ a.Above q := by
  rw [Above, Above, width, ordinals]

theorem Covers.width_ordinals (covers : p.Covers q) :
    p.layout.width = q.layout.width ∧ p.ordinals <+: q.ordinals := by
  rcases covers with same | below
  · obtain ⟨width, ordinals, _⟩ := (same_iff p q).mp same
    exact ⟨width, ordinals ▸ List.prefix_rfl⟩
  · exact ⟨below.1, below.2.2⟩

theorem Above.depth_lt (above : p.Above q) : p.depth < q.depth := by
  have longer := above.2.1
  rw [length_ordinals, length_ordinals] at longer
  omega

theorem Same.depth_eq (same : p.Same q) : p.depth = q.depth := by
  obtain ⟨_, ordinals, _⟩ := (same_iff p q).mp same
  rw [depth, depth, ordinals]

theorem ordinals_upTo (p : Position) (d : Nat) : (p.upTo d).ordinals = p.ordinals.take (d + 1) :=
  rfl

theorem ordinals_upTo_of_prefix (start : p.ordinals <+: q.ordinals) :
    (q.upTo p.depth).ordinals = p.ordinals := by
  rw [ordinals_upTo, ← length_ordinals]
  exact (List.prefix_iff_eq_take.mp start).symm

theorem ordinals_eq_concat (p : Position) : p.ordinals = p.ordinals.dropLast ++ [p.ordinal] :=
  (List.dropLast_concat_getLast p.nonempty).symm

theorem upTo_above (below : d < p.depth) : (p.upTo d).Above p := by
  refine ⟨rfl, ?_, List.take_prefix _ _⟩
  rw [length_ordinals, length_ordinals, depth_upTo p (Nat.le_of_lt below)]
  omega

theorem upTo_upTo (p : Position) (within : d ≤ e) : (p.upTo e).upTo d = p.upTo d := by
  refine eq_of_ordinals (p := (p.upTo e).upTo d) rfl ?_
  rw [ordinals_upTo, ordinals_upTo, ordinals_upTo, List.take_take, Nat.min_eq_left (by omega)]

theorem upTo_above_upTo (within : d < e) (below : e ≤ p.depth) :
    (p.upTo d).Above (p.upTo e) := by
  rw [← upTo_upTo p (Nat.le_of_lt within)]
  exact upTo_above (by rw [depth_upTo p below]; exact within)

theorem Same.upTo (same : p.Same q) (d : Nat) : (p.upTo d).Same (q.upTo d) := by
  obtain ⟨width, ordinals, terminator, separator⟩ := (same_iff p q).mp same
  refine same_of_eq width (by rw [ordinals_upTo, ordinals_upTo, ordinals]) terminator ?_
  rcases separator with mark | root
  · exact Or.inl mark
  · refine Or.inr ?_
    have length := p.length_ordinals
    rw [depth, ordinals_upTo, List.length_take]
    omega

theorem parent_eq_none : p.parent? = none ↔ p.depth = 0 := by
  unfold parent?
  split
  · rename_i root
    simp [root]
  · rename_i d deep
    simp [deep]

theorem parent_eq_some : p.parent? = some q ↔ 0 < p.depth ∧ q = p.upTo (p.depth - 1) := by
  unfold parent?
  split
  · rename_i root
    simp [root]
  · rename_i d deep
    simp [deep, eq_comm]

/- One step down adds one ordinal. -/

theorem parent_of_top (path : c.ordinals = [n]) : c.parent? = none := by
  rw [parent_eq_none, depth, path, List.length_singleton]

theorem depth_of_path (path : c.ordinals = p.ordinals ++ [n]) : c.depth = p.depth + 1 := by
  have length := c.length_ordinals
  rw [path, List.length_append, List.length_singleton, p.length_ordinals] at length
  omega

theorem ordinals_of_path (path : c.ordinals = p.ordinals ++ [n]) :
    (c.upTo p.depth).ordinals = p.ordinals := by
  apply ordinals_upTo_of_prefix
  rw [path]
  exact List.prefix_append _ _

theorem parent_of_path (path : c.ordinals = p.ordinals ++ [n]) :
    c.parent? = some (c.upTo p.depth) := by
  have deep := depth_of_path path
  exact parent_eq_some.mpr ⟨by omega, by rw [deep, Nat.add_sub_cancel]⟩

theorem above_of_path (width : p.layout.width = c.layout.width)
    (path : c.ordinals = p.ordinals ++ [n]) : p.Above c := by
  refine ⟨width, ?_, ?_⟩
  · rw [path, List.length_append, List.length_singleton]
    omega
  · rw [path]
    exact List.prefix_append _ _

end ReplyTree.Position
