import ReplyTree.Proofs.Precedence
import ReplyTree.Proofs.StableSorting
import ReplyTree.Value.Order
import ReplyTree.Value.Relations

/- The order of positions by their ordinals. Within one width any two positions can be compared,
   and with the same marks the order and the sameness of texts leave exactly one case. Between
   widths nothing can be compared, so a list is sorted if and only if it is of one width, whatever
   stable sort is used. -/
namespace ReplyTree.Position

variable {p q : Position} {ps : List Position}

def ExactlyOne (a b c : Prop) : Prop :=
  (a ∧ ¬ b ∧ ¬ c) ∨ (¬ a ∧ b ∧ ¬ c) ∨ (¬ a ∧ ¬ b ∧ c)

/-- How positions of one width compare: by their ordinals, each test in agreement with the
    others, and with the same marks also in agreement with the sameness of texts. -/
structure Comparable (p q : Position) : Prop where
  lt : p.lt? q = some (decide (p.ordinals < q.ordinals))
  gt : p.gt? q = some (decide (q.ordinals < p.ordinals))
  le : p.le? q = (q.lt? p).map not
  ge : p.ge? q = (p.lt? q).map not
  one_case : p.SharesMarks q →
    ExactlyOne (p.lt? q = some true) (p.Same q) (p.gt? q = some true)
  le_iff : p.SharesMarks q → (p.le? q = some true ↔ p.lt? q = some true ∨ p.Same q)

theorem relate_mismatch_iff (test : Position → Position → Option Bool) (p q : Position) :
    Value.relate test (.position p) (.position q) = .error .typeMismatch ↔ test p q = none := by
  unfold Value.relate
  cases answer : test p q with
  | none => simp [answer]
  | some answer' => simp [answer]

theorem compare_none_iff (test : List Nat → List Nat → Bool) (p q : Position) :
    compare? test p q = none ↔ p.layout.width ≠ q.layout.width := by
  unfold compare?
  split
  · rename_i same
    simp [same]
  · rename_i differ
    simp [differ]

theorem order_none_iff {test : Position → Position → Option Bool}
    (member : test ∈ [lt?, le?, gt?, ge?]) (p q : Position) :
    test p q = none ↔ p.layout.width ≠ q.layout.width := by
  have less (p q : Position) := compare_none_iff (fun a b => decide (a < b)) p q
  have most (p q : Position) := compare_none_iff (fun a b => !decide (b < a)) p q
  simp only [List.mem_cons, List.not_mem_nil, or_false] at member
  rcases member with rfl | rfl | rfl | rfl
  · exact less p q
  · exact most p q
  · exact (less q p).trans ne_comm
  · exact (most q p).trans ne_comm

theorem same_iff_ordinals (width : p.layout.width = q.layout.width) (marks : p.SharesMarks q) :
    p.Same q ↔ p.ordinals = q.ordinals := by
  constructor
  · intro same
    exact ((same_iff p q).mp same).2.1
  · intro ordinals
    exact same_of_eq width ordinals marks.2 (Or.inl marks.1)

theorem ordinals_one_case (xs ys : List Nat) : ExactlyOne (xs < ys) (xs = ys) (ys < xs) := by
  have ranking : Ranking (Before false : List Nat → List Nat → Prop) := ranking_of_order false
  by_cases less : xs < ys
  · have differ : xs ≠ ys := by
      rintro rfl
      exact List.lt_irrefl _ less
    exact Or.inl ⟨less, differ, ranking.asymm less⟩
  · by_cases greater : ys < xs
    · have differ : xs ≠ ys := by
        rintro rfl
        exact List.lt_irrefl _ greater
      exact Or.inr (Or.inr ⟨less, differ, greater⟩)
    · exact Or.inr (Or.inl ⟨less, ranking.connected less greater, greater⟩)

theorem comparable_of_width (width : p.layout.width = q.layout.width) : p.Comparable q := by
  have lt : p.lt? q = some (decide (p.ordinals < q.ordinals)) := by simp [lt?, compare?, width]
  have gt : p.gt? q = some (decide (q.ordinals < p.ordinals)) := by
    simp [gt?, lt?, compare?, width]
  have le : p.le? q = some (!decide (q.ordinals < p.ordinals)) := by simp [le?, compare?, width]
  refine ⟨lt, gt, ?_, ?_, ?_, ?_⟩
  · simp [le?, lt?, compare?, width]
  · simp [ge?, le?, lt?, compare?, width]
  · intro marks
    rw [lt, gt, same_iff_ordinals width marks]
    simpa using ordinals_one_case p.ordinals q.ordinals
  · intro marks
    rw [le, lt, same_iff_ordinals width marks]
    simp only [Option.some.injEq, Bool.not_eq_true', decide_eq_false_iff_not, decide_eq_true_eq]
    rcases ordinals_one_case p.ordinals q.ordinals with
      ⟨less, _, not_greater⟩ | ⟨not_less, same, not_greater⟩ | ⟨not_less, differ, greater⟩
    · simp [less, not_greater]
    · simp [same]
    · simp [not_less, differ, greater]

def comesFirst? (descending : Bool) : Position → Position → Option Bool :=
  if descending then gt? else lt?

theorem comes_first_answers (descending : Bool) (p q : Position) :
    comesFirst? descending p q = if p.layout.width = q.layout.width then
      some (decide (Before descending p.ordinals q.ordinals)) else none := by
  cases descending
  · rfl
  · simp only [comesFirst?, if_true, gt?, lt?, compare?, eq_comm, Before]

theorem sorted_by_ask (descending : Bool) (ps : List Position) :
    Value.sorted descending (ps.map .position) =
      match sortBy? (comesFirst? descending) ps with
      | some listed => .ok (listed.map .position)
      | none => .error .typeMismatch := by
  rw [Value.sorted_positions]
  cases descending
  · rfl
  · rfl

theorem sorted_or_mixed (descending : Bool) (ps : List Position) :
    (∃ listed, sortBy? (comesFirst? descending) ps = some listed ∧
      SortedBy (Before descending) ordinals ps listed ∧
      ∀ p ∈ ps, ∀ q ∈ ps, p.layout.width = q.layout.width) ∨
    (sortBy? (comesFirst? descending) ps = none ∧
      ∃ p ∈ ps, ∃ q ∈ ps, p.layout.width ≠ q.layout.width) :=
  stable_insertion_sort.grouped (ranking_of_order descending) (comes_first_answers descending) ps

/-- Positions of one width are ordered as their ordinals are, whichever stable sort asks for this
    order. Positions of two widths have no order. -/
theorem order_is_total_in_one_width :
    (∀ p q : Position,
      (∀ test ∈ [lt?, le?, gt?, ge?],
        Value.relate test (.position p) (.position q) = .error .typeMismatch ↔
          p.layout.width ≠ q.layout.width) ∧
      (p.layout.width = q.layout.width → p.Comparable q)) ∧
    (∀ (descending : Bool) (ps : List Position),
      (Value.sorted descending (ps.map .position) = .error .typeMismatch ↔
        ∃ p ∈ ps, ∃ q ∈ ps, p.layout.width ≠ q.layout.width) ∧
      ((∀ p ∈ ps, ∀ q ∈ ps, p.layout.width = q.layout.width) →
        ∃ listed, Value.sorted descending (ps.map .position) = .ok (listed.map .position) ∧
          SortedBy (Before descending) ordinals ps listed)) ∧
    ∀ sort : (Position → Position → Option Bool) → List Position → Option (List Position),
      StableSort sort → ∀ (descending : Bool) (ps : List Position),
        sort (comesFirst? descending) ps = sortBy? (comesFirst? descending) ps := by
  refine ⟨?_, ?_, ?_⟩
  · intro p q
    constructor
    · intro test member
      rw [relate_mismatch_iff, order_none_iff member]
    · exact comparable_of_width
  · intro descending ps
    rw [sorted_by_ask]
    rcases sorted_or_mixed descending ps with
      ⟨listed, sorted, by_ordinals, one⟩ | ⟨unsorted, p, member, q, member', differ⟩
    · constructor
      · simp only [sorted, reduceCtorEq, false_iff]
        rintro ⟨p, member, q, member', differ⟩
        exact differ (one p member q member')
      · intro _
        exact ⟨listed, by rw [sorted], by_ordinals⟩
    · constructor
      · simp only [unsorted, true_iff]
        exact ⟨p, member, q, member', differ⟩
      · intro one
        exact absurd (one p member q member') differ
  · intro sort stable descending ps
    exact stable.agree stable_insertion_sort (ranking_of_order descending)
      (comes_first_answers descending) ps

theorem order_of_roots :
    let dashed : Layout := { Layout.standard with separator := '-', separator_lt := by decide }
    let wide : Layout := { Layout.standard with width := 3, width_pos := by decide }
    let p : Position := ⟨dashed, [7], by decide, by decide⟩
    let q : Position := ⟨.standard, [12], by decide, by decide⟩
    let r : Position := ⟨wide, [7], by decide, by decide⟩
    Value.relate lt? (.position p) (.position r) = .error .typeMismatch ∧ p.Comparable q ∧
      Value.sorted true [.position p, .position q, .position r] = .error .typeMismatch ∧
      ∃ listed, Value.sorted true [.position p, .position q] = .ok (listed.map .position) ∧
        SortedBy (Before true) ordinals [p, q] listed := by
  intro dashed wide p q r
  obtain ⟨pairs, lists, _⟩ := order_is_total_in_one_width
  have apart : p.layout.width ≠ r.layout.width := by decide
  refine ⟨((pairs p r).1 lt? (by simp)).mpr apart, (pairs p q).2 rfl, ?_, ?_⟩
  · exact (lists true [p, q, r]).1.mpr ⟨p, by simp, r, by simp, apart⟩
  · exact (lists true [p, q]).2 (by decide)

end ReplyTree.Position
