import ReplyTree.Proofs.Stopping

/- The levels that a listing opens and closes. The indents of the lines down to any line add up to
   the level of that line, whatever the order of the nodes and however the listing ends, so the
   level never leaves its bounds and the levels still open at the end are all that is left. -/
namespace ReplyTree.Listing

variable {bound : Decimal.Bound} {limit : Value} {choice : LayoutChoice} {current : Nat}
  {items : List Value} {front back : List Line} {line : Line}

/-- The sum of the indents: the levels that some lines open less those that they close. -/
def rise : List Line → Int
  | [] => 0
  | line :: rest => line.indent + rise rest

theorem rise_of_outline
    (split : (outline bound limit choice current items).lines = front ++ back) :
    (current : Int) + rise front = levelAfter current front := by
  -- An indent is the step from the level before its line, so the sum telescopes.
  induction front generalizing current items with
  | nil => simp [rise, levelAfter]
  | cons line front ih =>
    obtain ⟨_, _, _, _, _, first, others⟩ := first_of_outline split
    have step := first.indent
    have later := ih others
    simp only [rise, levelAfter]
    omega

theorem item_of_outline
    (split : (outline bound limit choice current items).lines = front ++ line :: back) :
    ∃ v, items[front.length]? = some v ∧
      (Position.ofValue bound v choice).result = .ok line.position := by
  induction front generalizing current items with
  | nil =>
    obtain ⟨v, _, _, rfl, _, first, _⟩ := first_of_outline split
    exact ⟨v, rfl, first.read⟩
  | cons first front ih =>
    obtain ⟨_, _, _, rfl, _, _, others⟩ := first_of_outline split
    exact ih others

theorem level_within (split : (ofValues bound limit choice items).lines = front ++ back) :
    rise front = levelAfter 0 front ∧
      ∀ most : Nat, limit = .ofNat most → levelAfter 0 front ≤ most := by
  constructor
  · simpa using rise_of_outline split
  · rintro most rfl
    rcases List.eq_nil_or_concat front with rfl | ⟨outer, line, rfl⟩
    · exact Nat.zero_le most
    · obtain ⟨_, limit, natural, shown⟩ := shown_of_outline
        (split ▸ by simp : line ∈ (ofValues bound (.ofNat most) choice items).lines)
      cases natural
      rw [List.concat_eq_append, level_after_last, shown]
      exact Nat.min_le_right _ _

theorem rise_eq_open_levels (bound : Decimal.Bound) (limit : Value) (choice : LayoutChoice)
    (items : List Value) :
    let lines := (ofValues bound limit choice items).lines
    rise lines = openLevels lines := by
  intro lines
  have whole : lines = lines ++ [] := (List.append_nil lines).symm
  rw [open_levels_eq]
  exact (level_within whole).1

theorem open_levels_of_values (lines : List Line) :
    openLevelsOf (.list (lines.map Line.value)) = .ok (.ofNat (openLevels lines)) := by
  rcases List.eq_nil_or_concat lines with rfl | ⟨front, line, rfl⟩
  · rfl
  · simp [openLevelsOf, Value.truth, openLevels, Line.value]

/-- What a line says that comes after some others: it is the line of the item in that place, its
    node is shown at its depth or at the limit, and the indents up to it make that level. -/
structure Balanced (bound : Decimal.Bound) (limit : Value) (choice : LayoutChoice)
    (items : List Value) (front : List Line) (line : Line) : Prop where
  item : ∃ v, items[front.length]? = some v ∧
    (Position.ofValue bound v choice).result = .ok line.position
  depth : line.depth = line.position.depth
  shown : ∃ most : Nat, limit = .ofNat most ∧ line.shown = min line.depth most
  level : rise (front ++ [line]) = line.shown

theorem balanced_of_outline
    (split : (ofValues bound limit choice items).lines = front ++ line :: back) :
    Balanced bound limit choice items front line := by
  have member : line ∈ (ofValues bound limit choice items).lines := by simp [split]
  obtain ⟨depth, most, natural, shown⟩ := shown_of_outline member
  have through : (ofValues bound limit choice items).lines = (front ++ [line]) ++ back := by
    rw [split, List.append_cons]
  have level := (level_within through).1
  rw [level_after_last] at level
  exact ⟨item_of_outline split, depth, ⟨most, Value.natural_eq_some.mp natural, shown⟩, level⟩

/-- Every line stands for its item at the level that the indents so far make. There is a line for
    each item, up to the first at which the listing ends, and the levels still open after the last
    line are what all indents add up to. -/
theorem levels_balance (bound : Decimal.Bound) (limit : Value) (choice : LayoutChoice)
    (items : List Value) :
    let lines := (ofValues bound limit choice items).lines
    Lists bound limit choice items (ofValues bound limit choice items) ∧
    (∀ front line back, lines = front ++ line :: back →
      Balanced bound limit choice items front line) ∧
    (∀ front back, lines = front ++ back →
      0 ≤ rise front ∧ ∀ most : Nat, limit = .ofNat most → rise front ≤ most) ∧
    openLevelsOf (.list (lines.map Line.value)) = .ok (.whole (rise lines)) := by
  intro lines
  refine ⟨lists_outline bound limit choice 0 items, fun front line back => balanced_of_outline,
    ?_, ?_⟩
  · intro front back split
    obtain ⟨level, within⟩ := level_within split
    rw [level]
    exact ⟨Int.natCast_nonneg _, fun most natural => Int.ofNat_le.mpr (within most natural)⟩
  · rw [open_levels_of_values, rise_eq_open_levels]
    rfl

end ReplyTree.Listing
