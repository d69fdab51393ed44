import Mathlib.Data.List.Forall2
import ReplyTree.Proofs.Ancestry
import ReplyTree.Proofs.RoundTrip
import ReplyTree.Value.Relations

/- A text means one position. Two positions with one text have everything in common that can be
   asked of them, and a layout of another width never reads the text at all. -/
namespace ReplyTree.Position

variable {p q r : Position}

/-- Nothing that is asked of two positions tells them apart: where they stand, what lies above
    them, and how they compare with a third value of any kind. -/
structure Alike (p q : Position) : Prop where
  depth : p.depth = q.depth
  ordinal : p.ordinal = q.ordinal
  parent : Option.Rel Same p.parent? q.parent?
  ancestors : List.Forall₂ Same p.ancestors q.ancestors
  order : ∀ test ∈ [lt?, le?, gt?, ge?], ∀ v,
    Value.relate test (.position p) v = Value.relate test (.position q) v ∧
      Value.relate test v (.position p) = Value.relate test v (.position q)
  above : ∀ v, Value.isAbove (.position p) v = Value.isAbove (.position q) v ∧
    Value.isAbove v (.position p) = Value.isAbove v (.position q)

theorem Same.ordinal_eq (same : p.Same q) : p.ordinal = q.ordinal := by
  obtain ⟨_, ordinals, _⟩ := (same_iff p q).mp same
  simp only [ordinal, ordinals]

theorem Same.parent (same : p.Same q) : Option.Rel Same p.parent? q.parent? := by
  unfold parent?
  rw [← same.depth_eq]
  split
  · exact Option.Rel.none
  · exact Option.Rel.some (same.upTo _)

theorem Same.ancestors (same : p.Same q) : List.Forall₂ Same p.ancestors q.ancestors := by
  unfold Position.ancestors
  rw [← same.depth_eq, List.forall₂_map_left_iff, List.forall₂_map_right_iff, List.forall₂_same]
  intro d _
  exact same.upTo d

theorem Same.compare (same : p.Same q) (test : List Nat → List Nat → Bool) (r : Position) :
    compare? test p r = compare? test q r ∧ compare? test r p = compare? test r q := by
  obtain ⟨width, ordinals, _⟩ := (same_iff p q).mp same
  unfold compare?
  rw [width, ordinals]
  exact ⟨rfl, rfl⟩

theorem Same.order (same : p.Same q) {test : Position → Position → Option Bool}
    (member : test ∈ [lt?, le?, gt?, ge?]) (r : Position) :
    test p r = test q r ∧ test r p = test r q := by
  have less : lt? p r = lt? q r ∧ lt? r p = lt? r q := same.compare _ r
  have most : le? p r = le? q r ∧ le? r p = le? r q := same.compare _ r
  simp only [List.mem_cons, List.not_mem_nil, or_false] at member
  rcases member with rfl | rfl | rfl | rfl
  · exact less
  · exact most
  · exact less.symm
  · exact most.symm

theorem Same.relate (same : p.Same q) {test : Position → Position → Option Bool}
    (member : test ∈ [lt?, le?, gt?, ge?]) (v : Value) :
    Value.relate test (.position p) v = Value.relate test (.position q) v ∧
      Value.relate test v (.position p) = Value.relate test v (.position q) := by
  unfold Value.relate
  cases v with
  | position r =>
    obtain ⟨left, right⟩ := same.order member r
    simp only [left, right, and_self]
  | _ => exact ⟨rfl, rfl⟩

theorem Same.above_iff (same : p.Same q) (r : Position) :
    (p.Above r ↔ q.Above r) ∧ (r.Above p ↔ r.Above q) := by
  refine ⟨⟨?_, ?_⟩, ?_, ?_⟩
  · exact fun above => above.of_same same rfl
  · exact fun above => above.of_same same.symm rfl
  · exact fun above => above.of_same rfl same
  · exact fun above => above.of_same rfl same.symm

theorem Same.above (same : p.Same q) (v : Value) :
    Value.isAbove (.position p) v = Value.isAbove (.position q) v ∧
      Value.isAbove v (.position p) = Value.isAbove v (.position q) := by
  unfold Value.isAbove
  cases v with
  | position r =>
    obtain ⟨left, right⟩ := same.above_iff r
    simp only [left, right, and_self]
  | _ => exact ⟨rfl, rfl⟩

theorem Same.alike (same : p.Same q) : p.Alike q where
  depth := same.depth_eq
  ordinal := same.ordinal_eq
  parent := same.parent
  ancestors := same.ancestors
  order := fun _ member v => same.relate member v
  above := same.above

theorem width_of_piece {c : Char} (mark : c.isDigit ≠ true) {segment : List Char}
    (member : segment ∈ p.body.splitOn c) (digits : segment.all Char.isDigit = true) :
    segment.length = p.layout.width := by
  by_cases separator : c = p.layout.separator
  · rw [separator, split_segments] at member
    exact length_of_mem_segments member
  · -- A foreign mark cuts nothing, so the piece is the whole text and has no separator.
    have absent : c ∉ p.body := by
      intro inside
      rcases mem_body inside with digit | own
      · exact mark digit
      · exact separator own
    have whole : p.body.splitOn c = [p.body] := by
      have split : ([c].intercalate [p.body]).splitOn c = [p.body] :=
        List.splitOn_intercalate c (by simpa using absent) (by simp)
      rwa [List.intercalate_singleton] at split
    rw [whole, List.mem_singleton] at member
    have root : p.depth = 0 := by
      apply Nat.eq_zero_of_not_pos
      intro deep
      have inside := separator_mem_body deep
      rw [← member] at inside
      exact p.layout.separator_not_digit (List.all_eq_true.mp digits _ inside)
    rw [member]
    exact length_of_mem_segments (by rw [← body_of_root root]; simp)

theorem readable_of_other_width {bound : Decimal.Bound} {l : Layout}
    (other : l.width ≠ p.layout.width) :
    l.Readable bound (p.letters.dropLast.splitOn l.separator) := by
  intro segment member width digits
  rw [letters, List.dropLast_concat] at member
  exact absurd (width.symm.trans (width_of_piece l.separator_not_digit member digits)) other

theorem same_of_text (text : Value.text p.text = .text q.text) : p.Same q := by
  rw [Same, ← toList_text, ← toList_text, Value.text.inj text]

theorem same_of_read {bound : Decimal.Bound} {v : Value} {l m : Layout}
    (first : (read bound v (.named l)).result = .ok p)
    (second : (read bound v (.named m)).result = .ok q) : p.Same q := by
  obtain ⟨_, text_p⟩ := text_of_read first
  obtain ⟨_, text_q⟩ := text_of_read second
  exact same_of_text (text_p.symm.trans text_q)

theorem malformed_of_other_width {bound : Decimal.Bound} {l : Layout}
    (other : l.width ≠ p.layout.width) :
    ∃ why, (read bound (.text p.text) (.named l)).result =
      .error (.malformed (.text p.text) why) := by
  cases outcome : (read bound (.text p.text) (.named l)).result with
  | ok q =>
    obtain ⟨layout, text⟩ := text_of_read outcome
    have width := ((same_iff p q).mp (same_of_text text)).1
    rw [layout] at width
    exact absurd width.symm other
  | error fault =>
    have readable : ∀ s, Value.text p.text = .text s →
        l.Readable bound (s.toList.dropLast.splitOn l.separator) := by
      intro s text
      rw [← Value.text.inj text, toList_text]
      exact readable_of_other_width other
    obtain ⟨why, rfl⟩ := malformed_of_readable readable outcome
    exact ⟨why, rfl⟩

/-- Positions are the same if they agree in all that their texts show, and nothing else tells the
    same positions apart. -/
theorem sameness_is_structural (p q : Position) :
    (p.Same q ↔ p.layout.width = q.layout.width ∧ p.ordinals = q.ordinals ∧
      p.layout.terminator = q.layout.terminator ∧
      (p.layout.separator = q.layout.separator ∨ p.ordinals.length = 1)) ∧
    (p.Same q → p.Alike q) ∧
    (∀ (bound : Decimal.Bound) (l : Layout), l.width ≠ p.layout.width →
      ∃ why, (read bound (.text p.text) (.named l)).result =
        .error (.malformed (.text p.text) why)) ∧
    ∀ (bound : Decimal.Bound) (v : Value) (l m : Layout) (a b : Position),
      (read bound v (.named l)).result = .ok a → (read bound v (.named m)).result = .ok b →
        a.Same b ∧ a.ordinals = b.ordinals := by
  refine ⟨?_, Same.alike, ?_, ?_⟩
  · have root : p.ordinals.length = 1 ↔ p.depth = 0 := by
      rw [length_ordinals]
      omega
    rw [root]
    exact same_iff p q
  · intro bound l other
    exact malformed_of_other_width other
  · intro bound v l m a b first second
    have same := same_of_read first second
    exact ⟨same, ((same_iff a b).mp same).2.1⟩

theorem sameness_of_root_in_two_layouts :
    let dashed : Layout := { Layout.standard with separator := '-', separator_lt := by decide }
    let wide : Layout := { Layout.standard with width := 3, width_pos := by decide }
    let p : Position := ⟨.standard, [7], by decide, by decide⟩
    let q : Position := ⟨dashed, [7], by decide, by decide⟩
    (p.Same q ∧ p.Alike q) ∧
    (wide.width ≠ p.layout.width ∧
      ∃ why, (read .standard (.text p.text) (.named wide)).result =
        .error (.malformed (.text p.text) why)) ∧
    (read .standard (.text "07/") (.named .standard)).result = .ok p ∧
    (read .standard (.text "07/") (.named dashed)).result = .ok q ∧ p.ordinals = q.ordinals := by
  intro dashed wide p q
  obtain ⟨structural, alike, refused, read_same⟩ := sameness_is_structural p q
  have same : p.Same q := structural.mpr ⟨rfl, rfl, rfl, Or.inr rfl⟩
  have other : wide.width ≠ p.layout.width := by decide
  have first : (read .standard (.text "07/") (.named .standard)).result = .ok p := rfl
  have second : (read .standard (.text "07/") (.named dashed)).result = .ok q := rfl
  have ordinals := (read_same .standard (.text "07/") .standard dashed p q first second).2
  exact ⟨⟨same, alike same⟩, ⟨other, refused .standard wide other⟩, first, second, ordinals⟩

end ReplyTree.Position
