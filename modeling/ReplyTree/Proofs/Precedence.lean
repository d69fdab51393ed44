import ReplyTree.Proofs.Texts

/- How the texts of two positions with the same marks compare. Either one lies in the subtree
   of the other, or the texts part at a place where the greater one has a digit, and then both
   orders of texts follow that digit, and so does everything below the two. Widths may differ
   throughout. -/
namespace ReplyTree

/-- Two texts part where one has `c` and the other has `d`. -/
def Fork (front : List Char) (c d : Char) (xs ys : List Char) : Prop :=
  front ++ [c] <+: xs ∧ front ++ [d] <+: ys

theorem Fork.symm {front xs ys : List Char} {c d : Char} (fork : Fork front c d xs ys) :
    Fork front d c ys xs :=
  ⟨fork.2, fork.1⟩

theorem Fork.within {front lead xs ys xs' ys' : List Char} {c d : Char}
    (fork : Fork front c d xs ys) (start : lead ++ xs <+: xs') (start' : lead ++ ys <+: ys') :
    Fork (lead ++ front) c d xs' ys' := by
  rw [Fork, List.append_assoc, List.append_assoc]
  exact ⟨((List.prefix_append_right_inj lead).mpr fork.1).trans start,
    ((List.prefix_append_right_inj lead).mpr fork.2).trans start'⟩

theorem prefix_or_fork (xs ys : List Char) :
    xs <+: ys ∨ ys <+: xs ∨ ∃ front c d, c ≠ d ∧ Fork front c d xs ys := by
  induction xs generalizing ys with
  | nil => exact Or.inl List.nil_prefix
  | cons x xs ih =>
    cases ys with
    | nil => exact Or.inr (Or.inl List.nil_prefix)
    | cons y ys =>
      by_cases heads : x = y
      · subst y
        rcases ih ys with start | start | ⟨front, c, d, differ, left, right⟩
        · exact Or.inl (List.cons_prefix_cons.mpr ⟨rfl, start⟩)
        · exact Or.inr (Or.inl (List.cons_prefix_cons.mpr ⟨rfl, start⟩))
        · refine Or.inr (Or.inr ⟨x :: front, c, d, differ, ?_, ?_⟩)
          · exact List.cons_prefix_cons.mpr ⟨rfl, left⟩
          · exact List.cons_prefix_cons.mpr ⟨rfl, right⟩
      · refine Or.inr (Or.inr ⟨[], x, y, heads, ?_, ?_⟩)
        · exact List.cons_prefix_cons.mpr ⟨rfl, List.nil_prefix⟩
        · exact List.cons_prefix_cons.mpr ⟨rfl, List.nil_prefix⟩

theorem char_lt_or_gt {c d : Char} (differ : c ≠ d) : c < d ∨ d < c :=
  Nat.lt_or_gt_of_ne (mt Char.toNat_inj.mp differ)

theorem lt_of_fork {front xs ys : List Char} {c d : Char} (fork : Fork front c d xs ys)
    (less : c < d) : xs < ys := by
  obtain ⟨⟨xs', rfl⟩, ⟨ys', rfl⟩⟩ := fork
  rw [List.append_assoc, List.append_assoc]
  exact List.append_left_lt (List.cons_lt_cons_iff.mpr (Or.inl less))

theorem lt_of_continued {xs ys : List Char} {c : Char} (start : xs ++ [c] <+: ys) :
    xs < ys := by
  obtain ⟨rest, rfl⟩ := start
  rw [List.append_assoc]
  simpa using (List.append_left_lt (List.nil_lt_cons c rest) : xs ++ [] < xs ++ c :: rest)

namespace Decimal

theorem value_append (cs ds : List Char) :
    value (cs ++ ds) = value cs * span ds.length + value ds := by
  induction cs with
  | nil => simp [value]
  | cons c cs ih =>
    have spans : span (cs ++ ds).length = span cs.length * span ds.length := by
      rw [List.length_append]
      exact Nat.pow_add 10 cs.length ds.length
    rw [List.cons_append, value_cons, value_cons, ih, spans, Nat.add_mul, Nat.mul_assoc]
    omega

theorem value_lt_of_fork {front cs ds : List Char} {c d : Char}
    (fork : Fork front c d cs ds) (length : cs.length = ds.length)
    (digits : ∀ c ∈ cs, c.isDigit = true) (less : c < d) : value cs < value ds := by
  obtain ⟨⟨xs, rfl⟩, ⟨ys, rfl⟩⟩ := fork
  have tails : xs.length = ys.length := by simpa using length
  have below : value xs < span xs.length := value_lt fun x hx => digits x (by simp [hx])
  have low := (digit_bounds (digits c (by simp))).1
  have apart : c.toNat - 48 + 1 ≤ d.toNat - 48 := by
    have : c.toNat < d.toNat := less
    omega
  have scaled := Nat.mul_le_mul_right (span xs.length) apart
  rw [Nat.add_mul, Nat.one_mul] at scaled
  rw [List.append_assoc, List.append_assoc, value_append, value_append front,
    List.singleton_append, List.singleton_append, value_cons, value_cons,
    List.length_cons, List.length_cons, ← tails]
  omega

theorem fork_of_value_lt {cs ds : List Char} (length : cs.length = ds.length)
    (digits : ∀ d ∈ ds, d.isDigit = true) (less : value cs < value ds) :
    ∃ front c d, c < d ∧ Fork front c d cs ds := by
  rcases prefix_or_fork cs ds with start | start | ⟨front, c, d, differ, fork⟩
  · rw [start.eq_of_length length] at less
    exact absurd less (Nat.lt_irrefl _)
  · rw [start.eq_of_length length.symm] at less
    exact absurd less (Nat.lt_irrefl _)
  · refine ⟨front, c, d, ?_, fork⟩
    rcases char_lt_or_gt differ with right | wrong
    · exact right
    · have more := value_lt_of_fork fork.symm length.symm digits wrong
      exact absurd (Nat.lt_trans less more) (Nat.lt_irrefl _)

theorem fork_of_lt {width m n : Nat} (pos : 0 < width) (fits : m < span width)
    (fits' : n < span width) (less : m < n) :
    ∃ front c d, c < d ∧ Fork front c d (padded width m) (padded width n) := by
  have length : (padded width m).length = width := (padded_length pos).mpr fits
  have length' : (padded width n).length = width := (padded_length pos).mpr fits'
  apply fork_of_value_lt (length.trans length'.symm) (padded_digits width n)
  rwa [value_padded, value_padded]

end Decimal

namespace Position

def SharesMarks (p q : Position) : Prop :=
  p.layout.separator = q.layout.separator ∧ p.layout.terminator = q.layout.terminator

theorem SharesMarks.of_layout {p q : Position} (same : p.layout = q.layout) :
    p.SharesMarks q :=
  ⟨by rw [same], by rw [same]⟩

theorem SharesMarks.symm {p q : Position} (marks : p.SharesMarks q) : q.SharesMarks p :=
  ⟨marks.1.symm, marks.2.symm⟩

/-- The texts part, and the second has the greater character there, which is a digit. -/
def LeftOf (p q : Position) : Prop :=
  ∃ front c d, c < d ∧ d.isDigit = true ∧ Fork front c d p.letters q.letters

variable {p q : Position} {front : List Char} {c : Char}

theorem prefix_body_of_ne (start : front ++ [c] <+: p.letters)
    (inner : c ≠ p.layout.terminator) : front ++ [c] <+: p.body := by
  rcases List.prefix_concat_iff.mp start with whole | inside
  · exact absurd (List.singleton_inj.mp (List.append_inj' whole rfl).2) inner
  · exact inside

theorem prefix_body_of_digit (start : front ++ [c] <+: p.letters) (digit : c.isDigit = true) :
    front ++ [c] <+: p.body := by
  apply prefix_body_of_ne start
  rintro rfl
  exact p.layout.terminator_not_digit digit

theorem Above.text_continues (above : p.Above q) (marks : p.SharesMarks q) :
    p.body ++ [p.layout.separator] <+: q.letters :=
  ((above_iff_continues marks.1).mp above).trans (List.prefix_append _ _)

theorem Above.body_lt (above : p.Above q) (marks : p.SharesMarks q) : p.body < q.body :=
  lt_of_continued ((above_iff_continues marks.1).mp above)

theorem Above.letters_lt (above : p.Above q) (marks : p.SharesMarks q) :
    q.letters < p.letters :=
  -- The separator sorts below the terminator, so the longer text is the lesser one.
  lt_of_fork ⟨above.text_continues marks, List.prefix_rfl⟩ p.layout.separator_lt

theorem LeftOf.letters_lt (left : p.LeftOf q) : p.letters < q.letters := by
  obtain ⟨front, c, d, less, _, fork⟩ := left
  exact lt_of_fork fork less

theorem LeftOf.body_lt (left : p.LeftOf q) : p.body < q.body := by
  obtain ⟨front, c, d, less, digit, start, start'⟩ := left
  have inside := prefix_body_of_digit start' digit
  rcases List.prefix_concat_iff.mp start with whole | within
  · rw [(List.append_inj' whole rfl).1] at inside
    exact lt_of_continued inside
  · exact lt_of_fork ⟨within, inside⟩ less

theorem LeftOf.of_above_left {p' : Position} (left : p.LeftOf q) (above : p.Above p')
    (marks : p.SharesMarks p') : p'.LeftOf q := by
  obtain ⟨front, c, d, less, digit, start, start'⟩ := left
  rcases List.prefix_concat_iff.mp start with whole | within
  · rw [(List.append_inj' whole rfl).1] at start'
    exact ⟨p.body, p.layout.separator, d, p.layout.separator_lt_digit digit, digit,
      above.text_continues marks, start'⟩
  · exact ⟨front, c, d, less, digit,
      within.trans ((List.prefix_append _ _).trans (above.text_continues marks)), start'⟩

theorem LeftOf.of_above_right {q' : Position} (left : p.LeftOf q) (above : q.Above q')
    (marks : q.SharesMarks q') : p.LeftOf q' := by
  obtain ⟨front, c, d, less, digit, start, start'⟩ := left
  have inside := prefix_body_of_digit start' digit
  exact ⟨front, c, d, less, digit, start,
    inside.trans ((List.prefix_append _ _).trans (above.text_continues marks))⟩

theorem above_of_fork (marks : p.SharesMarks q)
    (fork : Fork front p.layout.terminator p.layout.separator p.letters q.letters) :
    p.Above q := by
  have whole := terminator_at_end fork.1
  have continued := fork.2
  have inner : p.layout.separator ≠ q.layout.terminator := by
    rw [marks.1]
    exact Char.ne_of_lt q.layout.separator_lt
  rw [whole] at continued
  exact (above_iff_continues marks.1).mpr (prefix_body_of_ne continued inner)

theorem related_of_lt {d : Char} (marks : p.SharesMarks q)
    (fork : Fork front c d p.letters q.letters) (less : c < d) : p.LeftOf q ∨ q.Above p := by
  have first : c.isDigit = true ∨ c = q.layout.separator ∨ c = q.layout.terminator := by
    rw [← marks.1, ← marks.2]
    exact mem_letters (fork.1.subset (by simp))
  rcases mem_letters (fork.2.subset (by simp : d ∈ front ++ [d])) with digit | rfl | rfl
  · exact Or.inl ⟨front, c, d, less, digit, fork⟩
  · -- Nothing in a text sorts below the separator.
    rcases first with digit | rfl | rfl
    · exact absurd (Nat.lt_trans less (q.layout.separator_lt_digit digit)) (Nat.lt_irrefl _)
    · exact absurd less (Nat.lt_irrefl _)
    · exact absurd (Nat.lt_trans less q.layout.separator_lt) (Nat.lt_irrefl _)
  · rcases first with digit | rfl | rfl
    · exact absurd (Nat.lt_trans less (q.layout.terminator_lt_digit digit)) (Nat.lt_irrefl _)
    · exact Or.inr (above_of_fork marks.symm fork.symm)
    · exact absurd less (Nat.lt_irrefl _)

theorem same_of_letters_start (marks : p.SharesMarks q) (start : p.letters <+: q.letters) :
    p.Same q := by
  rw [letters, marks.2] at start
  have body := terminator_at_end start
  rw [Same, letters, letters, body, marks.2]

theorem related (marks : p.SharesMarks q) :
    p.Same q ∨ p.Above q ∨ q.Above p ∨ p.LeftOf q ∨ q.LeftOf p := by
  rcases prefix_or_fork p.letters q.letters with start | start | ⟨front, c, d, differ, fork⟩
  · exact Or.inl (same_of_letters_start marks start)
  · exact Or.inl (same_of_letters_start marks.symm start).symm
  · rcases char_lt_or_gt differ with less | greater
    · rcases related_of_lt marks fork less with left | below
      · exact Or.inr (Or.inr (Or.inr (Or.inl left)))
      · exact Or.inr (Or.inr (Or.inl below))
    · rcases related_of_lt marks.symm fork.symm greater with right | above
      · exact Or.inr (Or.inr (Or.inr (Or.inr right)))
      · exact Or.inr (Or.inl above)

theorem fork_of_ordinals (width : p.layout.width = q.layout.width) {common rest rest' : List Nat}
    {m n : Nat} (lead : p.layout.lead common = q.layout.lead common)
    (path : p.ordinals = common ++ m :: rest) (path' : q.ordinals = common ++ n :: rest')
    (less : m < n) :
    ∃ front c d, c < d ∧ d.isDigit = true ∧ Fork front c d p.body q.body := by
  have start := numeral_at path
  have start' := numeral_at path'
  rw [← lead, ← width] at start'
  have fits : m < p.layout.capacity := p.fits m (by simp [path])
  have fits' : n < p.layout.capacity := q.fits_width width.symm n (by simp [path'])
  obtain ⟨front, c, d, lower, fork⟩ := Decimal.fork_of_lt p.layout.width_pos fits fits' less
  have digit := Decimal.padded_digits _ n d (fork.2.subset (by simp))
  exact ⟨p.layout.lead common ++ front, c, d, lower, digit, fork.within start start'⟩

theorem left_of_ordinals (width : p.layout.width = q.layout.width)
    (separator : p.layout.separator = q.layout.separator) {common rest rest' : List Nat}
    {m n : Nat} (path : p.ordinals = common ++ m :: rest)
    (path' : q.ordinals = common ++ n :: rest') (less : m < n) : p.LeftOf q := by
  have lead : p.layout.lead common = q.layout.lead common := by
    rw [Layout.lead, Layout.lead, width, separator]
  obtain ⟨front, c, d, lower, digit, start, start'⟩ := fork_of_ordinals width lead path path' less
  exact ⟨front, c, d, lower, digit, start.trans (List.prefix_append _ _),
    start'.trans (List.prefix_append _ _)⟩

end Position

end ReplyTree
