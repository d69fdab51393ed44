import ReplyTree.Listing
import ReplyTree.Proofs.Ancestry
import ReplyTree.Proofs.Batches
import ReplyTree.Proofs.Precedence
import ReplyTree.Proofs.StableSorting

/- Sorting texts walks the tree. Neither order of texts looks at parents or depths, and yet a
   node comes before everything below it, every subtree stays together, and siblings come in
   the order of their ordinals, whichever nodes are missing from the list. -/
namespace ReplyTree

theorem nothing_before {α : Type} {keep : α → Prop} {front back : List α} {x y : α}
    (between : ∀ z, [x, z, y].Sublist (x :: (front ++ y :: back)) → keep z)
    (outside : ∀ z ∈ front, ¬ keep z) : front = [] := by
  refine List.eq_nil_iff_forall_not_mem.mpr ?_
  intro z member
  have first : [z].Sublist front := List.singleton_sublist.mpr member
  have last : [y].Sublist (y :: back) := List.singleton_sublist.mpr (by simp)
  exact outside z member (between z ((first.append last).cons_cons x))

theorem exists_block {α : Type} {keep : α → Prop} (xs : List α)
    (between : ∀ x y z, [x, y, z].Sublist xs → keep x → keep z → keep y) :
    ∃ front block back, xs = front ++ block ++ back ∧ (∀ x ∈ block, keep x) ∧
      ∀ x ∈ front ++ back, ¬ keep x := by
  induction xs with
  | nil => exact ⟨[], [], [], rfl, by simp, by simp⟩
  | cons x xs ih =>
    obtain ⟨front, block, back, rfl, inside, outside⟩ :=
      ih fun a b c sub => between a b c (sub.cons x)
    by_cases kept : keep x
    · cases block with
      | nil =>
        refine ⟨[], [x], front ++ back, by simp, by simpa using kept, by simpa using outside⟩
      | cons y block =>
        -- Whatever stands between `x` and the block belongs to it, so nothing does.
        have among : ∀ z, [x, z, y].Sublist (x :: (front ++ y :: (block ++ back))) → keep z := by
          intro z sub
          exact between x z y (by simpa using sub) kept (inside y (by simp))
        have gap : front = [] := nothing_before among fun z member => outside z (by simp [member])
        subst gap
        refine ⟨[], x :: y :: block, back, by simp, ?_, by simpa using outside⟩
        intro z member
        rcases List.mem_cons.mp member with rfl | later
        · exact kept
        · exact inside z later
    · refine ⟨x :: front, block, back, by simp, inside, ?_⟩
      intro y member
      rcases List.mem_cons.mp member with rfl | later
      · exact kept
      · exact outside y later

namespace Position

def Precedes (newestFirst : Bool) (p q : Position) : Prop :=
  if newestFirst then q.letters < p.letters else p.body < q.body

def sortText (newestFirst : Bool) (p : Position) : List Char :=
  if newestFirst then p.letters else p.body

variable {p q r : Position} {newestFirst : Bool}

theorem precedes_iff : p.Precedes newestFirst q ↔
    Before newestFirst (p.sortText newestFirst) (q.sortText newestFirst) := by
  cases newestFirst
  · rfl
  · rfl

theorem SharesMarks.trans (first : p.SharesMarks q) (second : q.SharesMarks r) :
    p.SharesMarks r :=
  ⟨first.1.trans second.1, first.2.trans second.2⟩

instance (newestFirst : Bool) (p q : Position) : Decidable (p.Precedes newestFirst q) :=
  inferInstanceAs (Decidable (if newestFirst then _ else _))

theorem Precedes.irrefl (p : Position) : ¬ p.Precedes newestFirst p := by
  cases newestFirst
  · exact List.lt_irrefl p.body
  · exact List.lt_irrefl p.letters

theorem Above.precedes (above : p.Above q) (marks : p.SharesMarks q) :
    p.Precedes newestFirst q := by
  cases newestFirst
  · exact above.body_lt marks
  · exact above.letters_lt marks

theorem LeftOf.precedes (newestFirst : Bool) (left : p.LeftOf q) :
    if newestFirst then q.Precedes newestFirst p else p.Precedes newestFirst q := by
  cases newestFirst
  · exact left.body_lt
  · exact left.letters_lt

theorem LeftOf.of_covers_left (left : p.LeftOf q) (covers : p.Covers r)
    (marks : p.SharesMarks r) : r.LeftOf q := by
  rcases covers with same | below
  · rwa [LeftOf, (same : p.letters = r.letters)] at left
  · exact left.of_above_left below marks

theorem LeftOf.of_covers_right (left : p.LeftOf q) (covers : q.Covers r)
    (marks : q.SharesMarks r) : p.LeftOf r := by
  rcases covers with same | below
  · rwa [LeftOf, (same : q.letters = r.letters)] at left
  · exact left.of_above_right below marks

theorem covers_of_between_marked {a : Position} (marks : a.SharesMarks q)
    (marks_p : a.SharesMarks p) (marks_r : a.SharesMarks r)
    (first : ¬ q.Precedes newestFirst p) (second : ¬ r.Precedes newestFirst q)
    (covers : a.Covers p) (covers' : a.Covers r) : a.Covers q := by
  rcases related marks with same | above | below | left | right
  · exact Or.inl same
  · exact Or.inr above
  · have above := below.of_covers_right covers
    exact absurd (above.precedes (marks.symm.trans marks_p)) first
  · -- The whole subtree is on one side of `q`, and so are both ends.
    have left_p := (left.of_covers_left covers marks_p).precedes newestFirst
    have left_r := (left.of_covers_left covers' marks_r).precedes newestFirst
    cases newestFirst
    · exact absurd left_r second
    · exact absurd left_p first
  · have right_p := (right.of_covers_right covers marks_p).precedes newestFirst
    have right_r := (right.of_covers_right covers' marks_r).precedes newestFirst
    cases newestFirst
    · exact absurd right_p first
    · exact absurd right_r second

theorem covers_of_width_ordinals (marks : p.SharesMarks q)
    (width : p.layout.width = q.layout.width) (start : p.ordinals <+: q.ordinals) :
    p.Covers q := by
  by_cases length : p.ordinals.length = q.ordinals.length
  · exact Or.inl (same_of_eq width (start.eq_of_length length) marks.2 (Or.inl marks.1))
  · exact Or.inr ⟨width, Nat.lt_of_le_of_ne start.length_le length, start⟩

theorem exists_marked {a : Position} (covers : a.Covers p) :
    ∃ b : Position, b.SharesMarks p ∧ b.layout.width = a.layout.width ∧
      b.ordinals = a.ordinals := by
  obtain ⟨width, start⟩ := covers.width_ordinals
  exact ⟨p.upTo a.depth, ⟨rfl, rfl⟩, width.symm, ordinals_upTo_of_prefix start⟩

theorem covers_of_between {a : Position} (marks : p.SharesMarks q) (marks_r : p.SharesMarks r)
    (first : ¬ q.Precedes newestFirst p) (second : ¬ r.Precedes newestFirst q)
    (covers : a.Covers p) (covers' : a.Covers r) : a.Covers q := by
  obtain ⟨b, marks_b, width, ordinals⟩ := exists_marked covers
  obtain ⟨width_p, start_p⟩ := covers.width_ordinals
  obtain ⟨width_r, start_r⟩ := covers'.width_ordinals
  have top_p : b.Covers p :=
    covers_of_width_ordinals marks_b (width.trans width_p) (ordinals ▸ start_p)
  have top_r : b.Covers r :=
    covers_of_width_ordinals (marks_b.trans marks_r) (width.trans width_r)
      (ordinals ▸ start_r)
  rcases covers_of_between_marked (marks_b.trans marks) marks_b (marks_b.trans marks_r) first
    second top_p top_r with same | below
  · rcases covers with same_p | above_p
    · obtain ⟨width', ordinals', _⟩ := (same_iff a p).mp same_p
      have same_b : b.Same p := same_of_eq (width.trans width') (ordinals.trans ordinals')
        marks_b.2 (Or.inl marks_b.1)
      exact Or.inl ((same_p.trans same_b.symm).trans same)
    · have above := ((above_congr width ordinals).mpr above_p).of_same same rfl
      exact absurd (above.precedes marks.symm) first
  · exact Or.inr ((above_congr width ordinals).mp below)

end Position

abbrev Ordered (newestFirst : Bool) (listed : List Position) : Prop :=
  listed.Pairwise fun p q => ¬ q.Precedes newestFirst p

def SharedMarks (ps : List Position) : Prop :=
  ∀ p ∈ ps, ∀ q ∈ ps, p.SharesMarks q

/-- The nodes in ascending order of their texts, or in descending order of their complete texts
    with the newest first. Nodes of one text are as they were given. -/
abbrev Sorts (newestFirst : Bool) (ps listed : List Position) : Prop :=
  SortedBy (Before newestFirst) (Position.sortText newestFirst) ps listed

theorem arrange_sorts (newestFirst : Bool) (ps : List Position) :
    Sorts newestFirst ps (arrange newestFirst ps) := by
  have merged : arrange newestFirst ps =
      ps.mergeSort (notAfter (Before newestFirst) (Position.sortText newestFirst)) := by
    cases newestFirst
    · rfl
    · rfl
  rw [merged]
  exact sorted_by_mergeSort (ranking_of_order newestFirst) _ ps

theorem sorts_iff {newestFirst : Bool} {ps listed : List Position} :
    Sorts newestFirst ps listed ↔ listed = arrange newestFirst ps := by
  constructor
  · intro sorts
    exact sorts.unique (ranking_of_order newestFirst) (arrange_sorts newestFirst ps)
  · intro same
    rw [same]
    exact arrange_sorts newestFirst ps

theorem arrange_perm (newestFirst : Bool) (ps : List Position) :
    (arrange newestFirst ps).Perm ps :=
  (arrange_sorts newestFirst ps).perm

theorem mem_arrange {newestFirst : Bool} {ps : List Position} {p : Position} :
    p ∈ arrange newestFirst ps ↔ p ∈ ps :=
  (arrange_perm newestFirst ps).mem_iff

theorem arrange_ordered (newestFirst : Bool) (ps : List Position) :
    Ordered newestFirst (arrange newestFirst ps) := by
  refine (arrange_sorts newestFirst ps).ordered.imp ?_
  intro p q not_before precedes
  exact not_before (Position.precedes_iff.mp precedes)

theorem arrange_unique {newestFirst : Bool} {ps listed : List Position}
    (perm : listed.Perm ps) (ordered : Ordered newestFirst listed)
    (apart : ∀ p ∈ ps, ∀ q ∈ ps, ¬ q.Precedes newestFirst p → ¬ p.Precedes newestFirst q →
      p = q) : arrange newestFirst ps = listed := by
  refine List.Perm.eq_of_pairwise ?_ (arrange_ordered newestFirst ps) ordered
    ((arrange_perm newestFirst ps).trans perm.symm)
  intro p q member member'
  exact apart p (mem_arrange.mp member) q (perm.mem_iff.mp member')

theorem index_lt_of_precedes {newestFirst : Bool} {listed : List Position} {i j : Nat}
    {p q : Position} (ordered : Ordered newestFirst listed)
    (at_i : listed[i]? = some p) (at_j : listed[j]? = some q)
    (precedes : p.Precedes newestFirst q) : i < j := by
  obtain ⟨bound, rfl⟩ := List.getElem?_eq_some_iff.mp at_i
  obtain ⟨bound', rfl⟩ := List.getElem?_eq_some_iff.mp at_j
  rcases Nat.lt_trichotomy i j with before | rfl | after
  · exact before
  · exact absurd precedes (Position.Precedes.irrefl _)
  · exact absurd precedes (List.pairwise_iff_getElem.mp ordered j i bound' bound after)

theorem mem_front_of_precedes {newestFirst : Bool} {front back : List Position}
    {p q : Position} (ordered : Ordered newestFirst (front ++ q :: back))
    (member : p ∈ front ++ q :: back) (precedes : p.Precedes newestFirst q) : p ∈ front := by
  rcases List.mem_append.mp member with before | rest
  · exact before
  · rcases List.mem_cons.mp rest with rfl | after
    · exact absurd precedes (Position.Precedes.irrefl _)
    · have tail := (List.pairwise_append.mp ordered).2.1
      exact absurd precedes ((List.pairwise_cons.mp tail).1 p after)

/-- A listing that walks the tree: a node comes before everything below it, the part of the
    list that belongs to one subtree is a single block, whether or not its top is listed, and
    where the ordinals of two nodes part, these decide. -/
structure Traversal (newestFirst : Bool) (listed : List Position) : Prop where
  above_first : ∀ a b : Position, a.Above b → ∀ (i j : Nat) (p q : Position),
    listed[i]? = some p → listed[j]? = some q → a.Same p → b.Same q → i < j
  subtree_block : ∀ a : Position, ∃ front block back, listed = front ++ block ++ back ∧
    (∀ p ∈ block, a.Covers p) ∧ ∀ p ∈ front ++ back, ¬ a.Covers p
  siblings_ordered : ∀ (i j : Nat) (p q : Position), listed[i]? = some p →
    listed[j]? = some q → p.layout.width = q.layout.width →
    ∀ (common rest rest' : List Nat) (m n : Nat), p.ordinals = common ++ m :: rest →
      q.ordinals = common ++ n :: rest' → m < n → if newestFirst then j < i else i < j

theorem between_of_ordered {newestFirst : Bool} {listed : List Position}
    (ordered : Ordered newestFirst listed) (shared : SharedMarks listed)
    (a p q r : Position) (sub : [p, q, r].Sublist listed)
    (covers : a.Covers p) (covers' : a.Covers r) : a.Covers q := by
  have among : ∀ x ∈ [p, q, r], x ∈ listed := fun x member => sub.subset member
  have order := ordered.sublist sub
  simp only [List.pairwise_cons, List.mem_cons, List.not_mem_nil, or_false] at order
  exact Position.covers_of_between
    (shared p (among p (by simp)) q (among q (by simp)))
    (shared p (among p (by simp)) r (among r (by simp)))
    (order.1 q (Or.inl rfl)) (order.2.1 r rfl) covers covers'

theorem traversal_of_ordered {newestFirst : Bool} {listed : List Position}
    (ordered : Ordered newestFirst listed) (shared : SharedMarks listed) :
    Traversal newestFirst listed where
  above_first := by
    intro a b above i j p q at_i at_j same same'
    have marks := shared p (List.mem_of_getElem? at_i) q (List.mem_of_getElem? at_j)
    exact index_lt_of_precedes ordered at_i at_j ((above.of_same same same').precedes marks)
  subtree_block := by
    intro a
    exact exists_block listed fun p q r sub => between_of_ordered ordered shared a p q r sub
  siblings_ordered := by
    intro i j p q at_i at_j width common rest rest' m n path path' less
    have marks := shared p (List.mem_of_getElem? at_i) q (List.mem_of_getElem? at_j)
    have order := (Position.left_of_ordinals width marks.1 path path' less).precedes newestFirst
    cases newestFirst
    · exact index_lt_of_precedes ordered at_i at_j order
    · exact index_lt_of_precedes ordered at_j at_i order

theorem arrange_of_read {bound : Decimal.Bound} {choice : LayoutChoice} {items : List Value}
    {ps : List Position} (read : (Position.ofValues bound choice items).result = .ok ps)
    (newestFirst : Bool) :
    (arrangeValues bound newestFirst choice items).result = .ok (arrange newestFirst ps) := by
  rw [arrangeValues, Outcome.bind_of_ok read]
  rfl

theorem arrange_ok {bound : Decimal.Bound} {newestFirst : Bool} {choice : LayoutChoice}
    {items : List Value} {listed : List Position}
    (accepted : (arrangeValues bound newestFirst choice items).result = .ok listed) :
    ∃ ps, (Position.ofValues bound choice items).result = .ok ps ∧
      listed = arrange newestFirst ps := by
  obtain ⟨ps, read, done⟩ := Outcome.ok_of_bind accepted
  exact ⟨ps, read, by cases done; rfl⟩

theorem listed_of_positions (bound : Decimal.Bound) (newestFirst : Bool) (ps : List Position) :
    (arrangeValues bound newestFirst .unset (ps.map .position)).result =
      .ok (arrange newestFirst ps) := by
  have read : YieldsAll bound .unset (ps.map .position) ps := yields_positions fun _ _ => rfl
  exact arrange_of_read (of_values_read read) newestFirst

/-- Whatever is accepted for sorting comes out whole and, if its positions have the same marks,
    in an order that walks the tree. -/
theorem sorted_listing_walks_tree {bound : Decimal.Bound} {newestFirst : Bool}
    {choice : LayoutChoice} {items : List Value} {listed : List Position}
    (accepted : (arrangeValues bound newestFirst choice items).result = .ok listed)
    (shared : SharedMarks listed) :
    Traversal newestFirst listed ∧
      ∃ ps, (Position.ofValues bound choice items).result = .ok ps ∧ listed.Perm ps := by
  obtain ⟨ps, read, rfl⟩ := arrange_ok accepted
  exact ⟨traversal_of_ordered (arrange_ordered newestFirst ps) shared, ps, read,
    arrange_perm newestFirst ps⟩

theorem sorted_listing_of_two_widths :
    let wide : Layout := { Layout.standard with width := 3, width_pos := by decide }
    let other : Position := ⟨wide, [10, 0], by decide, by decide⟩
    let root : Position := ⟨.standard, [1], by decide, by decide⟩
    let deep : Position := ⟨.standard, [1, 0, 3], by decide, by decide⟩
    (arrangeValues .unbounded true .unset
        [.text "01.00.03/", .position other, .position deep, .text "01/"]).result =
      .ok [other, root, deep, deep] ∧ SharedMarks [other, root, deep, deep] ∧
      Traversal true [other, root, deep, deep] := by
  intro wide other root deep
  have sorted : arrange true [deep, other, deep, root] = [other, root, deep, deep] :=
    arrange_unique (by decide) (by decide) (by decide)
  have accepted : (arrangeValues .unbounded true .unset
      [.text "01.00.03/", .position other, .position deep, .text "01/"]).result =
      .ok [other, root, deep, deep] := by
    rw [← sorted]
    exact arrange_of_read rfl true
  have shared : SharedMarks [other, root, deep, deep] := by
    simp [SharedMarks, Position.SharesMarks, wide, other, root, deep, Layout.standard]
  exact ⟨accepted, shared, (sorted_listing_walks_tree accepted shared).1⟩

end ReplyTree
