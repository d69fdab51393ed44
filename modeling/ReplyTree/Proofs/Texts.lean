import ReplyTree.Position.Written
import ReplyTree.Position.Reading

/- What the characters of a text say about the position that it stands for. All of it comes
   from cutting a text at the separator, which gives the numerals back: neither mark is a
   digit, and every numeral of a text is as long as the width. -/
namespace ReplyTree

theorem intercalate_append (c : Char) {xs ys : List (List Char)} (front : xs ≠ [])
    (back : ys ≠ []) :
    [c].intercalate (xs ++ ys) = [c].intercalate xs ++ c :: [c].intercalate ys := by
  induction xs with
  | nil => contradiction
  | cons x xs ih =>
    cases xs with
    | nil => simp [List.intercalate_cons_of_ne_nil back]
    | cons x' xs =>
      have rest := ih (by simp)
      simp only [List.cons_append, List.intercalate_cons_cons] at rest ⊢
      rw [rest]
      simp

theorem intercalate_cut (c : Char) (xs : List (List Char)) (y : List Char)
    (ys : List (List Char)) :
    [c].intercalate (xs ++ y :: ys) =
      xs.flatMap (· ++ [c]) ++ [c].intercalate (y :: ys) := by
  induction xs with
  | nil => rfl
  | cons x xs ih =>
    rw [List.cons_append, List.intercalate_cons_of_ne_nil (by simp), ih, List.flatMap_cons]
    simp only [List.append_assoc]

theorem mem_intercalate {c d : Char} {xs : List (List Char)}
    (member : d ∈ [c].intercalate xs) : d = c ∨ ∃ x ∈ xs, d ∈ x := by
  induction xs with
  | nil => simp at member
  | cons x xs ih =>
    cases xs with
    | nil => exact Or.inr ⟨x, by simp, by simpa using member⟩
    | cons x' xs =>
      simp only [List.intercalate_cons_cons, List.mem_append, List.mem_singleton] at member
      rcases member with (inside | mark) | later
      · exact Or.inr ⟨x, by simp, inside⟩
      · exact Or.inl mark
      · rcases ih later with mark | ⟨y, among, inside⟩
        · exact Or.inl mark
        · exact Or.inr ⟨y, List.mem_cons_of_mem x among, inside⟩

namespace Layout

theorem terminator_not_digit (l : Layout) : l.terminator.isDigit ≠ true := by
  intro digit
  have low := (Decimal.digit_bounds digit).1
  have high : l.terminator.toNat < 48 := l.terminator_lt
  omega

theorem separator_not_digit (l : Layout) : l.separator.isDigit ≠ true := by
  intro digit
  exact l.digit_ne_separator digit rfl

theorem terminator_lt_digit (l : Layout) {c : Char} (digit : c.isDigit = true) :
    l.terminator < c :=
  Nat.lt_of_lt_of_le l.terminator_lt (Decimal.digit_bounds digit).1

theorem separator_lt_digit (l : Layout) {c : Char} (digit : c.isDigit = true) :
    l.separator < c :=
  Nat.lt_trans l.separator_lt (l.terminator_lt_digit digit)

end Layout

def Layout.lead (l : Layout) (ordinals : List Nat) : List Char :=
  ordinals.flatMap fun n => Decimal.padded l.width n ++ [l.separator]

namespace Position

def segments (p : Position) : List (List Char) :=
  p.ordinals.map (Decimal.padded p.layout.width)

theorem segments_ne_nil (p : Position) : p.segments ≠ [] := by simp [segments, p.nonempty]

theorem body_eq_intercalate (p : Position) :
    p.body = [p.layout.separator].intercalate p.segments := rfl

theorem segments_length (p : Position) : p.segments.length = p.depth + 1 := by
  simp [segments, p.length_ordinals]

theorem split_segments (p : Position) : p.body.splitOn p.layout.separator = p.segments :=
  Layout.split_body p

theorem length_of_mem_segments {p : Position} {segment : List Char}
    (member : segment ∈ p.segments) : segment.length = p.layout.width := by
  obtain ⟨n, inside, rfl⟩ := List.mem_map.mp member
  exact (Decimal.padded_length p.layout.width_pos).mpr (p.fits n inside)

theorem value_segments (p : Position) : p.segments.map Decimal.value = p.ordinals := by
  simp [segments, Function.comp_def, Decimal.value_padded]

theorem segments_prefix_iff (p q : Position) :
    p.segments <+: q.segments ↔
      p.layout.width = q.layout.width ∧ p.ordinals <+: q.ordinals := by
  constructor
  · intro start
    constructor
    · have first := List.head_mem p.segments_ne_nil
      rw [← length_of_mem_segments first, length_of_mem_segments (start.subset first)]
    · rw [← value_segments p, ← value_segments q]
      exact start.map Decimal.value
  · rintro ⟨width, start⟩
    rw [segments, segments, width]
    exact start.map _

theorem segments_eq_iff (p q : Position) :
    p.segments = q.segments ↔ p.layout.width = q.layout.width ∧ p.ordinals = q.ordinals := by
  constructor
  · intro same
    refine ⟨((segments_prefix_iff p q).mp (same ▸ List.prefix_rfl)).1, ?_⟩
    rw [← value_segments p, ← value_segments q, same]
  · rintro ⟨width, ordinals⟩
    rw [segments, segments, width, ordinals]

theorem body_cut {p : Position} {common rest : List Nat} {n : Nat}
    (path : p.ordinals = common ++ n :: rest) :
    p.body = p.layout.lead common ++
      [p.layout.separator].intercalate ((n :: rest).map (Decimal.padded p.layout.width)) := by
  rw [body, path, List.map_append, List.map_cons, intercalate_cut, List.flatMap_map]
  rfl

theorem numeral_at {p : Position} {common rest : List Nat} {n : Nat}
    (path : p.ordinals = common ++ n :: rest) :
    p.layout.lead common ++ Decimal.padded p.layout.width n <+: p.body := by
  rw [body_cut path]
  apply (List.prefix_append_right_inj _).mpr
  cases rest with
  | nil => simp
  | cons m rest => simp [List.intercalate_cons_cons]

theorem mem_body {p : Position} {c : Char} (member : c ∈ p.body) :
    c.isDigit = true ∨ c = p.layout.separator := by
  rcases mem_intercalate member with mark | ⟨segment, among, inside⟩
  · exact Or.inr mark
  · obtain ⟨n, _, rfl⟩ := List.mem_map.mp among
    exact Or.inl (Decimal.padded_digits _ _ _ inside)

theorem mem_letters {p : Position} {c : Char} (member : c ∈ p.letters) :
    c.isDigit = true ∨ c = p.layout.separator ∨ c = p.layout.terminator := by
  rcases List.mem_append.mp member with inside | last
  · rcases mem_body inside with digit | mark
    · exact Or.inl digit
    · exact Or.inr (Or.inl mark)
  · exact Or.inr (Or.inr (List.mem_singleton.mp last))

theorem body_of_root {p : Position} (root : p.depth = 0) : [p.body] = p.segments := by
  have one : p.segments.length = 1 := by simp [segments_length, root]
  obtain ⟨segment, only⟩ := List.length_eq_one_iff.mp one
  rw [body_eq_intercalate, only, List.intercalate_singleton]

theorem separator_mem_body {p : Position} (deep : 0 < p.depth) :
    p.layout.separator ∈ p.body := by
  have more : 1 < p.segments.length := by rw [segments_length]; omega
  rw [body_eq_intercalate]
  match p.segments, more with
  | first :: second :: rest, _ => simp [List.intercalate_cons_cons]

theorem terminator_at_end {p : Position} {front : List Char}
    (start : front ++ [p.layout.terminator] <+: p.letters) : front = p.body := by
  rcases List.prefix_concat_iff.mp start with whole | inside
  · exact (List.append_inj' whole rfl).1
  · rcases mem_body (inside.subset (by simp : p.layout.terminator ∈ _)) with digit | mark
    · exact absurd digit p.layout.terminator_not_digit
    · exact absurd (mark ▸ p.layout.separator_lt) (Nat.lt_irrefl _)

theorem body_of_eq {p q : Position} (width : p.layout.width = q.layout.width)
    (ordinals : p.ordinals = q.ordinals)
    (separator : p.layout.separator = q.layout.separator ∨ p.depth = 0) : p.body = q.body := by
  have segments := (segments_eq_iff p q).mpr ⟨width, ordinals⟩
  rcases separator with mark | root
  · rw [body_eq_intercalate, body_eq_intercalate, segments, mark]
  · -- A root shows no separator.
    have root' : q.depth = 0 := by rw [depth, ← ordinals]; exact root
    rw [← body_of_root root, ← body_of_root root'] at segments
    exact List.singleton_inj.mp segments

theorem same_of_eq {p q : Position} (width : p.layout.width = q.layout.width)
    (ordinals : p.ordinals = q.ordinals)
    (terminator : p.layout.terminator = q.layout.terminator)
    (separator : p.layout.separator = q.layout.separator ∨ p.depth = 0) : p.Same q := by
  rw [Same, letters, letters, body_of_eq width ordinals separator, terminator]

theorem separator_of_body {p q : Position} (same : p.body = q.body) (deep : 0 < p.depth) :
    p.layout.separator = q.layout.separator := by
  have inside : p.layout.separator ∈ p.body := separator_mem_body deep
  rw [same] at inside
  rcases mem_body inside with digit | mark
  · exact absurd digit p.layout.separator_not_digit
  · exact mark

theorem segments_of_body {p q : Position} (same : p.body = q.body) :
    p.segments = q.segments := by
  by_cases deep : 0 < p.depth
  · have mark := separator_of_body same deep
    rw [← p.split_segments, ← q.split_segments, same, mark]
  · by_cases deep' : 0 < q.depth
    · have mark := separator_of_body same.symm deep'
      rw [← p.split_segments, ← q.split_segments, same, mark]
    · rw [← body_of_root (by omega), ← body_of_root (by omega), same]

theorem same_iff (p q : Position) :
    p.Same q ↔ p.layout.width = q.layout.width ∧ p.ordinals = q.ordinals ∧
      p.layout.terminator = q.layout.terminator ∧
      (p.layout.separator = q.layout.separator ∨ p.depth = 0) := by
  constructor
  · intro same
    obtain ⟨body, last⟩ := List.append_inj' (same : p.letters = q.letters) rfl
    obtain ⟨width, ordinals⟩ := (segments_eq_iff p q).mp (segments_of_body body)
    refine ⟨width, ordinals, by simpa using last, ?_⟩
    by_cases root : p.depth = 0
    · exact Or.inr root
    · exact Or.inl (separator_of_body body (by omega))
  · rintro ⟨width, ordinals, terminator, separator⟩
    exact same_of_eq width ordinals terminator separator

theorem above_iff_continues {p q : Position}
    (separator : p.layout.separator = q.layout.separator) :
    p.Above q ↔ p.body ++ [p.layout.separator] <+: q.body := by
  constructor
  · rintro ⟨width, longer, start⟩
    obtain ⟨rest, split⟩ := (segments_prefix_iff p q).mpr ⟨width, start⟩
    have more : rest ≠ [] := by
      rintro rfl
      have lengths := congrArg List.length split
      simp only [List.append_nil, segments_length] at lengths
      have := p.length_ordinals; have := q.length_ordinals
      omega
    refine ⟨[p.layout.separator].intercalate rest, ?_⟩
    rw [body_eq_intercalate, body_eq_intercalate, ← split, ← separator,
      intercalate_append _ p.segments_ne_nil more, List.append_assoc, List.singleton_append]
  · rintro ⟨rest, continued⟩
    have pieces : q.segments = p.segments ++ rest.splitOn p.layout.separator := by
      rw [← q.split_segments, ← continued, ← separator, List.append_assoc,
        List.singleton_append, List.splitOn_append_cons_self, split_segments]
    obtain ⟨width, start⟩ := (segments_prefix_iff p q).mp ⟨_, pieces.symm⟩
    refine ⟨width, ?_, start⟩
    have lengths := congrArg List.length pieces
    have more := List.length_pos_iff.mpr (List.splitOn_ne_nil p.layout.separator rest)
    simp only [List.length_append, segments_length] at lengths
    have := p.length_ordinals; have := q.length_ordinals
    omega

end Position

end ReplyTree
