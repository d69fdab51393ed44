import ReplyTree.Position.Written

/- Reading and writing are inverse: the letters of a position read as its own ordinals if
   numerals of its width are converted, and whatever can be read is the letters of what was
   read. -/
namespace ReplyTree

def Position.path (p : Position) : p.layout.Path := ⟨p.ordinals, p.nonempty, p.fits⟩

namespace Layout

theorem read_segment_padded {bound : Decimal.Bound} (l : Layout)
    (short : bound.exceeded? l.width = none) {n : Nat} (fits : n < l.capacity) :
    l.readSegment bound (Decimal.padded l.width n) = .ok ⟨n, fits⟩ := by
  have width := (Decimal.padded_length (n := n) l.width_pos).mpr fits
  have digits := List.all_eq_true.mpr (Decimal.padded_digits l.width n)
  unfold readSegment
  rw [dif_pos width, dif_pos digits]
  simp only [short, Decimal.value_padded]

theorem read_segments_padded {bound : Decimal.Bound} (l : Layout)
    (short : bound.exceeded? l.width = none) (ns : List Nat)
    (fits : ∀ n ∈ ns, n < l.capacity) :
    l.readSegments bound (ns.map (Decimal.padded l.width)) = .ok ⟨ns, by simp, fits⟩ := by
  induction ns with
  | nil => rfl
  | cons n ns ih =>
    have head := l.read_segment_padded short (fits n (by simp))
    have tail := ih (fun m hm => fits m (by simp [hm]))
    change l.readSegments bound
      (Decimal.padded l.width n :: ns.map (Decimal.padded l.width)) = _
    simp only [readSegments, head, tail]

theorem digit_ne_separator (l : Layout) {c : Char} (digit : c.isDigit = true) :
    c ≠ l.separator := by
  rintro rfl
  have low := (Decimal.digit_bounds digit).1
  have high : l.separator.toNat < 48 := l.separator_lt_zero
  omega

theorem split_body (p : Position) :
    p.body.splitOn p.layout.separator = p.ordinals.map (Decimal.padded p.layout.width) := by
  apply List.splitOn_intercalate
  · intro segment member inside
    obtain ⟨n, _, rfl⟩ := List.mem_map.mp member
    exact p.layout.digit_ne_separator (Decimal.padded_digits _ _ _ inside) rfl
  · simp [p.nonempty]

theorem read_letters {bound : Decimal.Bound} (p : Position)
    (short : bound.exceeded? p.layout.width = none) :
    p.layout.readLetters bound p.letters = .ok p.path := by
  have body : p.letters.dropLast = p.body := by simp [Position.letters]
  have last : p.letters.getLast? = some p.layout.terminator := by simp [Position.letters]
  unfold readLetters
  rw [if_pos last]
  simp only [body, split_body]
  simp [readPath, Position.path, read_segments_padded _ short _ p.fits]

theorem padded_of_read {bound : Decimal.Bound} {l : Layout} {segment : List Char}
    {n : {n : Nat // n < l.capacity}} (read : l.readSegment bound segment = .ok n) :
    Decimal.padded l.width n.val = segment := by
  unfold readSegment at read
  split at read
  · rename_i width
    split at read
    · rename_i digits
      split at read
      · cases read
        rw [← width]
        exact Decimal.padded_value (width ▸ l.width_pos) (List.all_eq_true.mp digits)
      · cases read
    · cases read
  · cases read

theorem segments_of_read {bound : Decimal.Bound} {l : Layout} {segments : List (List Char)}
    {ns} (read : l.readSegments bound segments = .ok ns) :
    ns.val.map (Decimal.padded l.width) = segments := by
  induction segments with
  | nil =>
    cases read
    rfl
  | cons segment rest ih =>
    simp only [readSegments] at read
    split at read
    · cases read
    · rename_i n head
      split at read
      · cases read
      · rename_i ms tail
        cases read
        simp [padded_of_read head, ih tail]

theorem letters_of_read {bound : Decimal.Bound} {l : Layout} {letters : List Char}
    {path : l.Path} (read : l.readLetters bound letters = .ok path) :
    (Position.ofPath l path).letters = letters := by
  unfold readLetters readPath at read
  split at read
  · rename_i last
    split at read
    · cases read
    · rename_i ns segments
      cases read
      have body : [l.separator].intercalate (ns.val.map (Decimal.padded l.width)) =
          letters.dropLast := by
        rw [segments_of_read segments, List.intercalate_splitOn]
      simp only [Position.letters, Position.body, Position.ofPath, body]
      obtain ⟨front, rfl⟩ := List.getLast?_eq_some_iff.mp last
      simp
  · cases read

end Layout

end ReplyTree
