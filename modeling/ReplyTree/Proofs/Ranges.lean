import ReplyTree.Proofs.RoundTrip
import ReplyTree.Proofs.TextOrder

/- What lies below a position is a range: of ordinals in one width, and of texts in one width with
   one separator. Across widths it is still what continues the text of the position. -/
namespace ReplyTree

theorem longer_iff_between (front : List Nat) (n : Nat) (ys : List Nat) :
    ((front ++ [n]).length < ys.length ∧ front ++ [n] <+: ys) ↔
      front ++ [n] < ys ∧ ys < front ++ [n + 1] := by
  induction front generalizing ys with
  | nil =>
    cases ys with
    | nil => simp
    | cons y rest =>
      simp only [List.nil_append, List.length_cons, List.length_nil, List.cons_prefix_cons,
        List.nil_prefix, and_true, List.cons_lt_cons_iff, List.not_lt_nil, and_false, or_false]
      constructor
      · rintro ⟨longer, rfl⟩
        have more : rest ≠ [] := List.length_pos_iff.mp (by omega)
        obtain ⟨z, tail, rfl⟩ := List.exists_cons_of_ne_nil more
        exact ⟨Or.inr ⟨rfl, List.nil_lt_cons z tail⟩, by omega⟩
      · rintro ⟨lower | ⟨rfl, more⟩, upper⟩
        · omega
        · cases rest with
          | nil => exact absurd more (List.not_lt_nil _)
          | cons z tail => exact ⟨by simp, rfl⟩
  | cons x front ih =>
    cases ys with
    | nil => simp
    | cons y rest =>
      have tail := ih rest
      simp only [List.cons_append, List.length_cons, List.cons_prefix_cons,
        List.cons_lt_cons_iff] at tail ⊢
      constructor
      · rintro ⟨longer, rfl, start⟩
        obtain ⟨lower, upper⟩ := tail.mp ⟨by omega, start⟩
        exact ⟨Or.inr ⟨rfl, lower⟩, Or.inr ⟨rfl, upper⟩⟩
      · rintro ⟨low | ⟨rfl, lower⟩, high | ⟨same, upper⟩⟩
        · omega
        · omega
        · omega
        · obtain ⟨longer, start⟩ := tail.mpr ⟨lower, upper⟩
          exact ⟨by omega, rfl, start⟩

namespace Position

variable {p q : Position}

/-- The ordinals of the sibling that comes next. They may be too large for the layout. -/
def nextOrdinals (p : Position) : List Nat := p.ordinals.dropLast ++ [p.ordinal + 1]

theorem above_iff_between (width : p.layout.width = q.layout.width) :
    p.Above q ↔ p.ordinals < q.ordinals ∧ q.ordinals < p.nextOrdinals := by
  have range := longer_iff_between p.ordinals.dropLast p.ordinal q.ordinals
  rw [← ordinals_eq_concat] at range
  exact ⟨fun above => range.mp above.2, fun between => ⟨width, range.mpr between⟩⟩

theorem lt_eq_true_iff (width : p.layout.width = q.layout.width) :
    p.lt? q = some true ↔ p.ordinals < q.ordinals := by
  simp [lt?, compare?, width]

theorem nextOrdinals_fit (room : p.ordinal < p.layout.top) :
    ∀ n ∈ p.nextOrdinals, n < p.layout.capacity := by
  intro n member
  rcases List.mem_append.mp member with front | last
  · exact p.fits n ((List.dropLast_sublist _).subset front)
  · rw [List.mem_singleton.mp last, Layout.lt_capacity_iff]
    omega

theorem above_iff_text_between (width : p.layout.width = q.layout.width)
    (separator : p.layout.separator = q.layout.separator) {next : Position}
    (layout : next.layout = p.layout) (ordinals : next.ordinals = p.nextOrdinals) :
    p.Above q ↔ p.body < q.body ∧ q.body < next.body := by
  have lower : p.WrittenAlike q := .of_separator separator
  have upper : q.WrittenAlike next := .of_separator (by rw [layout, separator])
  rw [above_iff_between width, lower.body_lt_iff width,
    upper.body_lt_iff (by rw [layout, width]), ordinals]

/-- What lies below a position comes after it and before the sibling that comes next, by the
    ordinals and by the texts. -/
theorem descendants_are_a_range (p q : Position) :
    (p.layout.width = q.layout.width →
      (p.Above q ↔ p.lt? q = some true ∧ q.ordinals < p.nextOrdinals)) ∧
    (p.layout.separator = q.layout.separator →
      (p.Above q ↔ p.body ++ [p.layout.separator] <+: q.body)) ∧
    (p.layout.width = q.layout.width → p.layout.separator = q.layout.separator →
      p.ordinal < p.layout.top →
        ∃ next, build (p.nextOrdinals.map .ofNat) (.named p.layout) = .ok next ∧
          (p.Above q ↔ p.body < q.body ∧ q.body < next.body)) := by
  refine ⟨?_, above_iff_continues, ?_⟩
  · intro width
    rw [lt_eq_true_iff width]
    exact above_iff_between width
  · intro width separator room
    have nonempty : p.nextOrdinals ≠ [] := by simp [nextOrdinals]
    refine ⟨_, p.layout.build_ok nonempty (nextOrdinals_fit room), ?_⟩
    exact above_iff_text_between width separator rfl rfl

theorem descendants_of_reply_are_a_range :
    let marked : Layout := { Layout.standard with
      terminator := '.', separator := '-', separator_lt := by decide, terminator_lt := by decide }
    let dashed : Layout := { Layout.standard with separator := '-', separator_lt := by decide }
    let p : Position := ⟨dashed, [1, 98], by decide, by decide⟩
    let q : Position := ⟨marked, [1, 98, 0, 99], by decide, by decide⟩
    let next : Position := ⟨dashed, [1, 99], by decide, by decide⟩
    p.layout.width = q.layout.width ∧ p.layout.separator = q.layout.separator ∧
      p.ordinal < p.layout.top ∧ p.lt? q = some true ∧ q.ordinals < [1, 99] ∧
      p.body ++ ['-'] <+: q.body ∧ p.body < q.body ∧ q.body < next.body := by
  intro marked dashed p q next
  obtain ⟨ordinals, continues, texts⟩ := descendants_are_a_range p q
  have above : p.Above q := by decide
  have room : p.ordinal < p.layout.top := by decide
  obtain ⟨lower, upper⟩ := (ordinals rfl).mp above
  obtain ⟨sibling, built, between⟩ := texts rfl rfl room
  cases built
  obtain ⟨first, last⟩ := between.mp above
  exact ⟨rfl, rfl, room, lower, upper, (continues rfl).mp above, first, last⟩

end Position

end ReplyTree
