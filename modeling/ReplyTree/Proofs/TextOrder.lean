import ReplyTree.Proofs.Ancestry
import ReplyTree.Proofs.Traversal
import ReplyTree.Value.Order

/- Positions are ordered by their ordinals and listed by their texts. In one width the two orders
   agree, except where nodes below one node are written with different separators: there the
   separators decide the order of the texts, whatever the ordinals are. -/
namespace ReplyTree

theorem prefix_or_part_of_lt {xs ys : List Nat} (less : xs < ys) :
    (xs.length < ys.length ∧ xs <+: ys) ∨
      ∃ common m n rest rest', xs = common ++ m :: rest ∧ ys = common ++ n :: rest' ∧ m < n := by
  induction xs generalizing ys with
  | nil =>
    cases ys with
    | nil => exact absurd less (List.lt_irrefl _)
    | cons y ys => exact Or.inl ⟨by simp, List.nil_prefix⟩
  | cons x xs ih =>
    cases ys with
    | nil => exact absurd less (List.not_lt_nil _)
    | cons y ys =>
      rcases List.cons_lt_cons_iff.mp less with smaller | ⟨rfl, tails⟩
      · exact Or.inr ⟨[], x, y, xs, ys, rfl, rfl, smaller⟩
      · rcases ih tails with ⟨longer, start⟩ | ⟨common, m, n, rest, rest', rfl, rfl, lower⟩
        · exact Or.inl ⟨by simpa using longer, List.cons_prefix_cons.mpr ⟨rfl, start⟩⟩
        · exact Or.inr ⟨x :: common, m, n, rest, rest', rfl, rfl, lower⟩

namespace Position

variable {p q r : Position}

/-- Where both texts go on below one node, they go on with the same separator. -/
def WrittenAlike (p q : Position) : Prop :=
  ∀ r : Position, r.Above p → r.Above q → p.layout.separator = q.layout.separator

theorem WrittenAlike.symm (alike : p.WrittenAlike q) : q.WrittenAlike p :=
  fun r above above' => (alike r above' above).symm

theorem WrittenAlike.of_separator (same : p.layout.separator = q.layout.separator) :
    p.WrittenAlike q :=
  fun _ _ _ => same

theorem WrittenAlike.of_roots (differ : p.ordinals.head? ≠ q.ordinals.head?) :
    p.WrittenAlike q := by
  intro r above above'
  obtain ⟨rest, path⟩ := above.2.2
  obtain ⟨rest', path'⟩ := above'.2.2
  obtain ⟨k, tail, first⟩ := List.exists_cons_of_ne_nil r.nonempty
  rw [← path, ← path', first] at differ
  exact absurd rfl differ

theorem Above.body_continues (above : p.Above q)
    (separator : p.layout.separator = q.layout.separator ∨ p.depth = 0) :
    p.body ++ [q.layout.separator] <+: q.body := by
  have ordinals : p.ordinals = (q.upTo p.depth).ordinals := by
    rw [ordinals_upTo, ← length_ordinals]
    exact List.prefix_iff_eq_take.mp above.2.2
  have body : p.body = (q.upTo p.depth).body := body_of_eq above.1 ordinals separator
  have top : (q.upTo p.depth).Above q := upTo_above above.depth_lt
  rw [body]
  exact (above_iff_continues (p := q.upTo p.depth) (q := q) rfl).mp top

theorem WrittenAlike.separator_or_root (alike : p.WrittenAlike q)
    (below : ∀ r : Position, r.Above p → r.Above q) :
    p.layout.separator = q.layout.separator ∨ p.depth = 0 := by
  by_cases root : p.depth = 0
  · exact Or.inr root
  · -- The root that `p` descends from is then above both.
    have top : (p.upTo 0).Above p := upTo_above (by omega)
    exact Or.inl (alike _ top (below _ top))

theorem WrittenAlike.body_eq (alike : p.WrittenAlike q)
    (width : p.layout.width = q.layout.width) (ordinals : p.ordinals = q.ordinals) :
    p.body = q.body := by
  apply body_of_eq width ordinals
  apply alike.separator_or_root
  intro r above
  rwa [Above, width, ordinals] at above

theorem WrittenAlike.lead_eq (alike : p.WrittenAlike q)
    (width : p.layout.width = q.layout.width) {common rest rest' : List Nat} {m n : Nat}
    (path : p.ordinals = common ++ m :: rest) (path' : q.ordinals = common ++ n :: rest') :
    p.layout.lead common = q.layout.lead common := by
  -- With nothing in common no separator stands before the place where the ordinals part.
  cases common with
  | nil => rfl
  | cons k common =>
    have root : (p.upTo 0).ordinals = [k] := by simp [ordinals_upTo, path]
    have longer (j : Nat) (tail : List Nat) :
        [k].length < (k :: common ++ j :: tail).length := by
      simp only [List.length_append, List.length_cons, List.length_nil]
      omega
    have top : (p.upTo 0).Above p :=
      ⟨rfl, by rw [root, path]; exact longer m rest, by simp [root, path]⟩
    have top' : (p.upTo 0).Above q :=
      ⟨width, by rw [root, path']; exact longer n rest', by simp [root, path']⟩
    rw [Layout.lead, Layout.lead, width, alike _ top top']

theorem WrittenAlike.body_lt_of_lt (alike : p.WrittenAlike q)
    (width : p.layout.width = q.layout.width) (less : p.ordinals < q.ordinals) :
    p.body < q.body := by
  rcases prefix_or_part_of_lt less with
    ⟨longer, start⟩ | ⟨common, m, n, rest, rest', path, path', lower⟩
  · have above : p.Above q := ⟨width, longer, start⟩
    have separator := alike.separator_or_root fun _ higher => higher.trans above
    exact lt_of_continued (above.body_continues separator)
  · have lead := alike.lead_eq width path path'
    obtain ⟨front, c, d, below, _, fork⟩ := fork_of_ordinals width lead path path' lower
    exact lt_of_fork fork below

theorem WrittenAlike.body_lt_iff (alike : p.WrittenAlike q)
    (width : p.layout.width = q.layout.width) : p.body < q.body ↔ p.ordinals < q.ordinals := by
  constructor
  · intro texts
    by_cases less : p.ordinals < q.ordinals
    · exact less
    · by_cases greater : q.ordinals < p.ordinals
      · exact absurd (alike.symm.body_lt_of_lt width.symm greater) (List.lt_asymm texts)
      · have same : p.ordinals = q.ordinals := List.le_antisymm greater less
        rw [alike.body_eq width same] at texts
        exact absurd texts (List.lt_irrefl _)
  · exact alike.body_lt_of_lt width

structure OrderedAsTexts (p q : Position) : Prop where
  lt : p.lt? q = some (decide (p.body < q.body))
  le : p.le? q = some (!decide (q.body < p.body))
  gt : p.gt? q = some (decide (q.body < p.body))
  ge : p.ge? q = some (!decide (p.body < q.body))

theorem WrittenAlike.ordered (alike : p.WrittenAlike q)
    (width : p.layout.width = q.layout.width) : p.OrderedAsTexts q := by
  have less := alike.body_lt_iff width
  have greater := alike.symm.body_lt_iff width.symm
  constructor
  · simp only [lt?, compare?, if_pos width, less]
  · simp only [le?, compare?, if_pos width, greater]
  · simp only [gt?, lt?, compare?, if_pos width.symm, greater]
  · simp only [ge?, le?, compare?, if_pos width.symm, less]

theorem Above.root (above : r.Above p) : (r.upTo 0).Above p := by
  by_cases top : r.depth = 0
  · have whole := r.upTo_depth
    rw [top] at whole
    rwa [whole]
  · exact (upTo_above (by omega)).trans above

theorem body_lt_of_separator (above : r.Above p) (above' : r.Above q)
    (less : p.layout.separator < q.layout.separator) : p.body < q.body := by
  have root : (r.upTo 0).depth = 0 := depth_upTo r (Nat.zero_le _)
  have start := above.root.body_continues (Or.inr root)
  have start' := above'.root.body_continues (Or.inr root)
  exact lt_of_fork ⟨start, start'⟩ less

theorem body_lt_iff_separator (above : r.Above p) (above' : r.Above q)
    (differ : p.layout.separator ≠ q.layout.separator) :
    p.body < q.body ↔ p.layout.separator < q.layout.separator := by
  constructor
  · intro texts
    rcases char_lt_or_gt differ with less | greater
    · exact less
    · exact absurd (body_lt_of_separator above' above greater) (List.lt_asymm texts)
  · exact body_lt_of_separator above above'

theorem sort_eq_arrange {ps : List Position}
    (width : ∀ p ∈ ps, ∀ q ∈ ps, p.layout.width = q.layout.width)
    (alike : ∀ p ∈ ps, ∀ q ∈ ps, p.WrittenAlike q) : sort? ps = some (arrange false ps) := by
  have answers : ∀ p ∈ ps, ∀ q ∈ ps,
      q.lt? p = some (decide (Before false (q.sortText false) (p.sortText false))) := by
    intro p member q member'
    exact ((alike q member' p member).ordered (width q member' p member)).lt
  obtain ⟨listed, sorted, by_text⟩ :=
    stable_insertion_sort.sorted_by (ranking_of_order false) answers
  rw [sort?, sorted, sorts_iff.mp by_text]

/-- In one width the order of positions is that of their texts, unless two nodes below one node are
    written with different separators. Then the separators order the texts. -/
theorem order_follows_texts (bound : Decimal.Bound) :
    (∀ p q : Position, p.layout.width = q.layout.width → p.WrittenAlike q →
      p.OrderedAsTexts q) ∧
    (∀ ps : List Position, (∀ p ∈ ps, ∀ q ∈ ps, p.layout.width = q.layout.width) →
      (∀ p ∈ ps, ∀ q ∈ ps, p.WrittenAlike q) →
        ∃ listed, (arrangeValues bound false .unset (ps.map .position)).result = .ok listed ∧
          Value.sorted false (ps.map .position) = .ok (listed.map .position)) ∧
    ∀ p q r : Position, r.Above p → r.Above q → p.layout.separator ≠ q.layout.separator →
      (p.body < q.body ↔ p.layout.separator < q.layout.separator) := by
  refine ⟨?_, ?_, ?_⟩
  · intro p q width alike
    exact alike.ordered width
  · intro ps width alike
    refine ⟨_, listed_of_positions bound false ps, ?_⟩
    rw [Value.sorted_positions, if_neg Bool.false_ne_true, sort_eq_arrange width alike]
  · intro p q r above above' differ
    exact body_lt_iff_separator above above' differ

theorem order_follows_texts_of_two_layouts :
    let dashed : Layout := { Layout.standard with separator := '-', separator_lt := by decide }
    let p : Position := ⟨dashed, [2, 0], by decide, by decide⟩
    let q : Position := ⟨.standard, [1, 5], by decide, by decide⟩
    let root : Position := ⟨.standard, [2], by decide, by decide⟩
    let reply : Position := ⟨.standard, [2, 0], by decide, by decide⟩
    (p.layout.width = q.layout.width ∧ p.WrittenAlike q ∧ p.OrderedAsTexts q) ∧
    (∃ listed, (arrangeValues .standard false .unset [.position p, .position q]).result =
        .ok listed ∧ Value.sorted false [.position p, .position q] =
          .ok (listed.map .position)) ∧
    root.Above p ∧ root.Above reply ∧ p.body < reply.body := by
  intro dashed p q root reply
  obtain ⟨tests, sorts, separators⟩ := order_follows_texts .standard
  have alike : p.WrittenAlike q := .of_roots (by decide)
  have widths : ∀ a ∈ [p, q], ∀ b ∈ [p, q], a.layout.width = b.layout.width := by decide
  have all_alike : ∀ a ∈ [p, q], ∀ b ∈ [p, q], a.WrittenAlike b := by
    intro a member b member'
    simp only [List.mem_cons, List.not_mem_nil, or_false] at member member'
    rcases member with rfl | rfl <;> rcases member' with rfl | rfl
    · exact .of_separator rfl
    · exact alike
    · exact alike.symm
    · exact .of_separator rfl
  have above : root.Above p := by decide
  have above' : root.Above reply := by decide
  refine ⟨⟨rfl, alike, tests p q rfl alike⟩, sorts [p, q] widths all_alike, above, above', ?_⟩
  exact (separators p reply root above above' (by decide)).mpr (by decide)

/-- Two replies to one root in layouts of one width: the text of the later one comes first, and
    the two ways of sorting differ. -/
theorem order_departs_from_texts :
    let dashed : Layout := { Layout.standard with separator := '-', separator_lt := by decide }
    let p : Position := ⟨dashed, [1, 1], by decide, by decide⟩
    let q : Position := ⟨.standard, [1, 0], by decide, by decide⟩
    p.layout.width = q.layout.width ∧ p.body < q.body ∧
      [p.lt? q, p.le? q, p.gt? q, p.ge? q] = [some false, some false, some true, some true] ∧
      (arrangeValues .standard false .unset [.position q, .position p]).result = .ok [p, q] ∧
      Value.sorted false [.position q, .position p] = .ok [.position q, .position p] := by
  intro dashed p q
  have sorted : arrange false [q, p] = [p, q] := arrange_unique (by decide) (by decide) (by decide)
  have listed := listed_of_positions .standard false [q, p]
  rw [sorted] at listed
  have direct := Value.sorted_positions false [q, p]
  have order : sort? [q, p] = some [q, p] := by decide
  rw [if_neg Bool.false_ne_true, order] at direct
  exact ⟨rfl, by decide, by decide, listed, direct⟩

end Position

end ReplyTree
