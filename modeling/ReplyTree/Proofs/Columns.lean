import ReplyTree.Proofs.Forest

/- Where the ordinals of a position stand in its text. Every numeral is as long as the width and
   is followed by one mark, so the place of each depends on nothing but the width and the depth. -/
namespace ReplyTree

namespace Decimal

variable {width m n : Nat}

theorem padded_lt_of_lt (pos : 0 < width) (fits : m < span width) (fits' : n < span width)
    (less : m < n) : padded width m < padded width n := by
  obtain ⟨front, c, d, lower, fork⟩ := fork_of_lt pos fits fits' less
  exact lt_of_fork fork lower

theorem padded_lt_iff (pos : 0 < width) (fits : m < span width) (fits' : n < span width) :
    padded width m < padded width n ↔ m < n := by
  constructor
  · intro texts
    rcases Nat.lt_trichotomy m n with less | same | greater
    · exact less
    · rw [same] at texts
      exact absurd texts (List.lt_irrefl _)
    · exact absurd texts (List.lt_asymm (padded_lt_of_lt pos fits' fits greater))
  · exact padded_lt_of_lt pos fits fits'

end Decimal

namespace Layout

def markBefore (l : Layout) : List Nat → Char
  | [] => l.terminator
  | _ :: _ => l.separator

theorem lead_concat (l : Layout) (front : List Nat) (n : Nat) :
    l.lead (front ++ [n]) = l.lead front ++ Decimal.padded l.width n ++ [l.separator] := by
  simp [lead]

theorem length_lead (l : Layout) {ns : List Nat} (fits : ∀ n ∈ ns, n < l.capacity) :
    (l.lead ns).length = ns.length * (l.width + 1) := by
  induction ns with
  | nil => simp [lead]
  | cons n ns ih =>
    have numeral := (Decimal.padded_length l.width_pos).mpr (fits n (by simp))
    have rest := ih fun m member => fits m (by simp [member])
    simp only [lead] at rest
    simp only [lead, List.flatMap_cons, List.length_append, List.length_cons, List.length_nil,
      numeral, rest, Nat.succ_mul]
    omega

end Layout

namespace Position

variable {p : Position} {front rest : List Nat} {n i : Nat}

theorem length_numeral (path : p.ordinals = front ++ n :: rest) :
    (Decimal.padded p.layout.width n).length = p.layout.width :=
  (Decimal.padded_length p.layout.width_pos).mpr (p.fits n (by simp [path]))

theorem length_lead (path : p.ordinals = front ++ n :: rest) :
    (p.layout.lead front).length = front.length * (p.layout.width + 1) := by
  apply Layout.length_lead
  intro m member
  exact p.fits m (by simp [path, member])

theorem text_cut (path : p.ordinals = front ++ n :: rest) :
    ∃ tail, p.letters = p.layout.lead front ++ Decimal.padded p.layout.width n ++
      p.layout.markBefore rest :: tail := by
  cases rest with
  | nil =>
    refine ⟨[], ?_⟩
    rw [letters, body_cut path, List.map_singleton, List.intercalate_singleton]
    rfl
  | cons m rest =>
    -- The next numeral has the separator in front of it.
    have path_next : p.ordinals = (front ++ [n]) ++ m :: rest := by rw [path, List.append_cons]
    obtain ⟨tail, next⟩ := numeral_at path_next
    refine ⟨Decimal.padded p.layout.width m ++ tail ++ [p.layout.terminator], ?_⟩
    rw [letters, ← next, Layout.lead_concat]
    simp [Layout.markBefore]

theorem length_body (p : Position) :
    p.body.length = p.depth * (p.layout.width + 1) + p.layout.width := by
  have path : p.ordinals = p.ordinals.dropLast ++ [p.ordinal] := p.ordinals_eq_concat
  have above : p.ordinals.dropLast.length = p.depth := List.length_dropLast
  rw [body_cut path, List.map_singleton, List.intercalate_singleton, List.length_append,
    length_lead path, length_numeral path, above]

theorem length_letters (p : Position) :
    p.letters.length = (p.depth + 1) * (p.layout.width + 1) := by
  rw [letters, List.length_append, length_body, List.length_singleton, Nat.succ_mul]
  omega

/-- The characters where the numeral at depth `i` has its place. -/
def column (p : Position) (i : Nat) : List Char :=
  (p.text.toList.drop (i * (p.layout.width + 1))).take p.layout.width

def markAt? (p : Position) (i : Nat) : Option Char :=
  p.text.toList[i * (p.layout.width + 1) + p.layout.width]?

theorem path_at (found : p.ordinals[i]? = some n) :
    p.ordinals = p.ordinals.take i ++ n :: p.ordinals.drop (i + 1) ∧
      (p.ordinals.take i).length = i := by
  obtain ⟨inside, ordinal⟩ := List.getElem?_eq_some_iff.mp found
  constructor
  · rw [← ordinal, ← List.drop_eq_getElem_cons inside, List.take_append_drop]
  · rw [List.length_take]
    omega

theorem text_cut_at (found : p.ordinals[i]? = some n) :
    ∃ lead tail, lead.length = i * (p.layout.width + 1) ∧
      (Decimal.padded p.layout.width n).length = p.layout.width ∧
      p.text.toList = lead ++ Decimal.padded p.layout.width n ++
        p.layout.markBefore (p.ordinals.drop (i + 1)) :: tail := by
  obtain ⟨path, place⟩ := path_at found
  obtain ⟨tail, whole⟩ := text_cut path
  have start := length_lead path
  rw [place] at start
  exact ⟨_, tail, start, length_numeral path, p.toList_text.trans whole⟩

theorem column_at (found : p.ordinals[i]? = some n) :
    p.column i = Decimal.padded p.layout.width n := by
  obtain ⟨lead, tail, start, numeral, whole⟩ := text_cut_at found
  rw [column, whole, List.append_assoc, List.drop_left' start, List.take_left' numeral]

theorem mark_at (found : p.ordinals[i]? = some n) :
    p.markAt? i = some (p.layout.markBefore (p.ordinals.drop (i + 1))) := by
  obtain ⟨lead, tail, start, numeral, whole⟩ := text_cut_at found
  have place : (lead ++ Decimal.padded p.layout.width n).length =
      i * (p.layout.width + 1) + p.layout.width := by
    rw [List.length_append, start, numeral]
  rw [markAt?, whole, ← place, List.getElem?_append_right (Nat.le_refl _), Nat.sub_self]
  rfl

theorem ordinal_at (within : i ≤ p.depth) : ∃ n, p.ordinals[i]? = some n := by
  have length := p.length_ordinals
  exact ⟨_, List.getElem?_eq_getElem (by omega)⟩

theorem separator_at (inner : i < p.depth) : p.markAt? i = some p.layout.separator := by
  obtain ⟨n, found⟩ := ordinal_at (Nat.le_of_lt inner)
  obtain ⟨m, next⟩ := ordinal_at (Nat.succ_le_of_lt inner)
  rw [mark_at found]
  obtain ⟨inside, -⟩ := List.getElem?_eq_some_iff.mp next
  rw [List.drop_eq_getElem_cons inside]
  rfl

theorem terminator_at (p : Position) : p.markAt? p.depth = some p.layout.terminator := by
  obtain ⟨n, found⟩ := ordinal_at (Nat.le_refl p.depth)
  have none_left : p.ordinals.drop (p.depth + 1) = [] := by
    rw [← p.length_ordinals, List.drop_length]
  rw [mark_at found, none_left]
  rfl

theorem depths_of_ancestors (p : Position) :
    p.ancestors.map depth = (List.range p.depth).reverse := by
  have same : ∀ d ∈ (List.range p.depth).reverse, (depth ∘ p.upTo) d = id d := by
    intro d member
    have below : d < p.depth := by simpa using member
    exact depth_upTo p (Nat.le_of_lt below)
  rw [ancestors, List.map_map, List.map_congr_left same, List.map_id]

theorem body_of_ancestor {a : Position} (member : a ∈ p.ancestors) :
    p.body.take ((a.depth + 1) * (p.layout.width + 1) - 1) = a.body := by
  obtain ⟨d, below, rfl⟩ := mem_ancestors.mp member
  have continued := (above_iff_continues (p := p.upTo d) (q := p) rfl).mp (upTo_above below)
  have start : (p.upTo d).body <+: p.body := (List.prefix_append _ _).trans continued
  have length := (p.upTo d).length_body
  have place : ((p.upTo d).depth + 1) * (p.layout.width + 1) - 1 = (p.upTo d).body.length := by
    rw [length, Nat.succ_mul]
    rfl
  rw [place]
  exact (List.prefix_iff_eq_take.mp start).symm

theorem length_text (p : Position) : p.text.length = (p.depth + 1) * (p.layout.width + 1) := by
  rw [← String.length_toList, toList_text, length_letters]

/-- How a position stands in its text: the numeral of every ordinal in its column, the separator
    after each but the last, and the terminator at the end. -/
structure InColumns (p : Position) : Prop where
  length : p.text.length = (p.depth + 1) * (p.layout.width + 1)
  numeral : ∀ i n, p.ordinals[i]? = some n →
    (p.column i).length = p.layout.width ∧ (∀ c ∈ p.column i, c.isDigit = true) ∧
      Decimal.value (p.column i) = n ∧ p.column i = Decimal.padded p.layout.width n
  separator : ∀ i, i < p.depth → p.markAt? i = some p.layout.separator
  terminator : p.markAt? p.depth = some p.layout.terminator

theorem in_columns (p : Position) : p.InColumns := by
  refine ⟨p.length_text, ?_, fun i => separator_at, p.terminator_at⟩
  intro i n found
  obtain ⟨_, _, _, numeral, _⟩ := text_cut_at found
  rw [column_at found]
  exact ⟨numeral, Decimal.padded_digits _ n, Decimal.value_padded _ n, rfl⟩

/-- Every numeral and every mark of a text has its place, which the width and the depth alone
    decide. Numerals that fill a width are ordered as the numbers are. -/
theorem texts_stand_in_columns (p : Position) (l : Layout) :
    p.InColumns ∧
    p.ancestors.map depth = (List.range p.depth).reverse ∧
    (∀ a ∈ p.ancestors,
      p.body.take ((a.depth + 1) * (p.layout.width + 1) - 1) = a.body) ∧
    (∀ n, (Decimal.padded l.width n).length = l.width ↔ n ≤ l.top) ∧
    ∀ m n, m ≤ l.top → n ≤ l.top →
      (Decimal.padded l.width m < Decimal.padded l.width n ↔ m < n) := by
  refine ⟨p.in_columns, p.depths_of_ancestors, fun a => body_of_ancestor, ?_, ?_⟩
  · intro n
    rw [Decimal.padded_length l.width_pos]
    exact l.lt_capacity_iff n
  · intro m n small small'
    have fits : m < l.capacity := (l.lt_capacity_iff m).mpr small
    have fits' : n < l.capacity := (l.lt_capacity_iff n).mpr small'
    exact Decimal.padded_lt_iff l.width_pos fits fits'

end Position

end ReplyTree
