import ReplyTree.Listing

/- What the lines of a listing say, one after the other. A line shows its node at the depth of
   the node or at the limit, and its indent is the step from the line before, so that the level
   never has to be carried along. -/
namespace ReplyTree.Listing

def levelAfter (current : Nat) : List Line → Nat
  | [] => current
  | line :: rest => levelAfter line.shown rest

theorem level_after_last (current : Nat) (lines : List Line) (line : Line) :
    levelAfter current (lines ++ [line]) = line.shown := by
  induction lines generalizing current with
  | nil => rfl
  | cons first rest ih => exact ih first.shown

theorem open_levels_eq (lines : List Line) : openLevels lines = levelAfter 0 lines := by
  rcases List.eq_nil_or_concat lines with rfl | ⟨front, line, rfl⟩
  · rfl
  · simp [openLevels, level_after_last]

inductive EndsAt (bound : Decimal.Bound) (limit : Value) (choice : LayoutChoice) (v : Value) :
    Fault → Prop
  | refused {fault : Fault} : (Position.ofValue bound v choice).result = .error fault →
      EndsAt bound limit choice v fault
  | limitless {p : Position} : (Position.ofValue bound v choice).result = .ok p →
      (∀ n : Nat, limit ≠ .ofNat n) → EndsAt bound limit choice v (.badSetting .limit limit)

theorem ends_or_reads (bound : Decimal.Bound) (limit : Value) (choice : LayoutChoice)
    (v : Value) :
    (∃ fault, EndsAt bound limit choice v fault) ∨
      ∃ p most, (Position.ofValue bound v choice).result = .ok p ∧
        limit.natural? = some most := by
  cases outcome : (Position.ofValue bound v choice).result with
  | error fault => exact Or.inl ⟨fault, .refused outcome⟩
  | ok p =>
    cases natural : limit.natural? with
    | none => exact Or.inl ⟨_, .limitless outcome (Value.natural_eq_none.mp natural)⟩
    | some most => exact Or.inr ⟨p, most, rfl, rfl⟩

theorem outline_ended {bound : Decimal.Bound} {limit : Value} {choice : LayoutChoice} {v : Value}
    {fault : Fault} (ends : EndsAt bound limit choice v fault) (current : Nat)
    (rest : List Value) :
    outline bound limit choice current (v :: rest) =
      stopped fault (Position.ofValue bound v choice).log := by
  cases ends with
  | refused error => simp only [outline, error]
  | limitless read unnatural =>
    simp only [outline, read, levelUnder, Value.natural_eq_none.mpr unnatural]

theorem outline_passed {bound : Decimal.Bound} {limit : Value} {choice : LayoutChoice} {v : Value}
    {p : Position} {most : Nat} (read : (Position.ofValue bound v choice).result = .ok p)
    (natural : limit.natural? = some most) (current : Nat) (rest : List Value) :
    outline bound limit choice current (v :: rest) =
      after ⟨p, p.depth, min p.depth most, (min p.depth most : Nat) - current⟩
        (Position.ofValue bound v choice).log
        (outline bound limit choice (min p.depth most) rest) := by
  simp only [outline, read, levelUnder, natural]

/-- What the line of an item says when the line before was shown at level `current`. -/
structure Shows (bound : Decimal.Bound) (choice : LayoutChoice) (most current : Nat) (v : Value)
    (line : Line) : Prop where
  read : (Position.ofValue bound v choice).result = .ok line.position
  depth : line.depth = line.position.depth
  shown : line.shown = min line.depth most
  indent : line.indent = (line.shown : Int) - current

theorem first_of_outline {bound : Decimal.Bound} {limit : Value} {choice : LayoutChoice}
    {current : Nat} {items : List Value} {line : Line} {later : List Line}
    (split : (outline bound limit choice current items).lines = line :: later) :
    ∃ v rest most, items = v :: rest ∧ limit.natural? = some most ∧
      Shows bound choice most current v line ∧
      (outline bound limit choice line.shown rest).lines = later := by
  cases items with
  | nil => simp [outline] at split
  | cons v rest =>
    rcases ends_or_reads bound limit choice v with ⟨fault, ends⟩ | ⟨p, most, read, natural⟩
    · simp [outline_ended ends, stopped] at split
    · rw [outline_passed read natural] at split
      obtain ⟨rfl, rfl⟩ := List.cons.inj split
      exact ⟨v, rest, most, rfl, natural, ⟨read, rfl, rfl, rfl⟩, rfl⟩

theorem shown_of_outline {bound : Decimal.Bound} {limit : Value} {choice : LayoutChoice}
    {current : Nat} {items : List Value} {line : Line}
    (member : line ∈ (outline bound limit choice current items).lines) :
    line.depth = line.position.depth ∧
      ∃ most, limit.natural? = some most ∧ line.shown = min line.depth most := by
  obtain ⟨front, back, split⟩ := List.append_of_mem member
  clear member
  induction front generalizing current items with
  | nil =>
    obtain ⟨_, _, most, _, natural, first, _⟩ := first_of_outline split
    exact ⟨first.depth, most, natural, first.shown⟩
  | cons first front ih =>
    obtain ⟨_, _, _, _, _, _, others⟩ := first_of_outline split
    exact ih others

theorem indent_of_outline {bound : Decimal.Bound} {limit : Value} {choice : LayoutChoice}
    {current : Nat} {items : List Value} {front back : List Line} {line : Line}
    (split : (outline bound limit choice current items).lines = front ++ line :: back) :
    line.indent = (line.shown : Int) - levelAfter current front := by
  induction front generalizing current items with
  | nil =>
    obtain ⟨_, _, _, _, _, first, _⟩ := first_of_outline split
    exact first.indent
  | cons first front ih =>
    obtain ⟨_, _, _, _, _, _, others⟩ := first_of_outline split
    exact ih others

theorem outline_positions (bound : Decimal.Bound) (most current : Nat) (ps : List Position) :
    (outline bound (.ofNat most) .unset current (ps.map .position)).fault? = none ∧
      (outline bound (.ofNat most) .unset current (ps.map .position)).lines.map
        Line.position = ps := by
  induction ps generalizing current with
  | nil => exact ⟨rfl, rfl⟩
  | cons p rest ih =>
    obtain ⟨complete, positions⟩ := ih (min p.depth most)
    exact ⟨complete, congrArg (p :: ·) positions⟩

end ReplyTree.Listing
