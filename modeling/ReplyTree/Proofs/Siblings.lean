import Mathlib.Data.List.Induction
import ReplyTree.Proofs.Issuing
import ReplyTree.Proofs.Traversal
import ReplyTree.Value.Relations

/- The search for a free ordinal among siblings. It compares each node with the first one only.
   As to be siblings is an equivalence, this finds out whether any two nodes differ in width or in
   parent, so the order in which the siblings are given does not matter. -/
namespace ReplyTree

variable {bound : Decimal.Bound} {choice : LayoutChoice} {v : Value} {p q first : Position}
  {items items' front back : List Value} {ps qs : List Position} {m n : Nat} {fault : Fault}
  {answer : Except Fault Nat}

namespace Position

theorem sibling_iff : p.Sibling q ↔
    p.layout.width = q.layout.width ∧ Option.Rel Same p.parent? q.parent? := by
  unfold Sibling
  apply and_congr_right
  intro _
  cases p.parent? with
  | none =>
    cases q.parent? with
    | none => simp
    | some b => simp
  | some a =>
    cases q.parent? with
    | none => simp
    | some b => simp [Same]

theorem ordinals_of_parent? (p : Position) :
    p.ordinals = (p.parent?.map ordinals).getD [] ++ [p.ordinal] := by
  have whole := p.ordinals_eq_concat
  have length := p.length_ordinals
  cases parent : p.parent? with
  | none =>
    have root : p.depth = 0 := parent_eq_none.mp parent
    have front : p.ordinals.dropLast = [] := by
      apply List.eq_nil_of_length_eq_zero
      rw [List.length_dropLast]
      omega
    rwa [front] at whole
  | some a =>
    obtain ⟨deep, rfl⟩ := parent_eq_some.mp parent
    have front : (p.upTo (p.depth - 1)).ordinals = p.ordinals.dropLast := by
      rw [ordinals_upTo, List.dropLast_eq_take]
      congr 1
      omega
    simp only [Option.map_some, Option.getD_some, front]
    exact whole

theorem ordinals_of_rel {a b : Option Position} (same : Option.Rel Same a b) :
    a.map ordinals = b.map ordinals := by
  cases same with
  | none => rfl
  | some same => simp only [Option.map_some, ((same_iff _ _).mp same).2.1]

theorem Sibling.same (sibling : p.Sibling q) (marks : p.SharesMarks q)
    (ordinal : p.ordinal = q.ordinal) : p.Same q := by
  have parents := ordinals_of_rel (sibling_iff.mp sibling).2
  apply same_of_eq sibling.1 _ marks.2 (Or.inl marks.1)
  rw [p.ordinals_of_parent?, q.ordinals_of_parent?, parents, ordinal]

end Position

theorem FirstFree.perm (free : FirstFree ps n) (perm : ps.Perm qs) : FirstFree qs n := by
  constructor
  · intro p member
    exact free.above p (perm.mem_iff.mpr member)
  · rcases free.reached with ⟨rfl, zero⟩ | ⟨p, member, next⟩
    · exact Or.inl ⟨perm.nil_eq.symm, zero⟩
    · exact Or.inr ⟨p, perm.mem_iff.mp member, next⟩

theorem first_free_exists (ps : List Position) : ∃ n, FirstFree ps n := by
  induction ps using List.reverseRecOn with
  | nil => exact ⟨0, .empty⟩
  | append_singleton ps p ih =>
    obtain ⟨n, free⟩ := ih
    exact ⟨_, free.concat p⟩

/-- What the search stops at after some positions: an item that gives no position, or one that
    gives no sibling of the first. -/
inductive Stops (bound : Decimal.Bound) (choice : LayoutChoice) (ps : List Position) (v : Value) :
    Fault → Prop
  | refused {fault : Fault} : (Position.ofValue bound v choice).result = .error fault →
      Stops bound choice ps v fault
  | stranger {p first : Position} : ps.head? = some first → Yields bound choice v p →
      ¬ p.Sibling first → Stops bound choice ps v (.notSiblings p first)

/-- What the search comes to: the fault of the first item that it stops at, or the first free
    ordinal if there is no such item. -/
inductive FreshAnswers (bound : Decimal.Bound) (choice : LayoutChoice) (items : List Value) :
    Except Fault Nat → Prop
  | stopped {front back : List Value} {v : Value} {ps : List Position} {fault : Fault} :
      items = front ++ v :: back → YieldsAll bound choice front ps → SiblingsOfFirst ps →
      Stops bound choice ps v fault → FreshAnswers bound choice items (.error fault)
  | free {ps : List Position} {n : Nat} : YieldsAll bound choice items ps → SiblingsOfFirst ps →
      FirstFree ps n → FreshAnswers bound choice items (.ok n)

theorem FreshAnswers.result (answers : FreshAnswers bound choice items answer) :
    (freshOrdinal bound choice items).result = answer := by
  cases answers with
  | @stopped front back v ps fault split yields siblings stops =>
    subst split
    cases yields with
    | nil =>
      cases stops with
      | refused error => rw [List.nil_append, freshOrdinal, Outcome.bind_of_error error]
      | stranger head _ _ => cases head
    | @cons w start front ps head tail =>
      obtain ⟨n, _, run⟩ := fresh_ordinal_run (.cons head tail) siblings (v :: back)
      rw [run, freshAfter]
      cases stops with
      | refused error => rw [Outcome.bind_of_error error]
      | stranger first ok differ =>
        cases first
        rw [Outcome.bind_of_ok ok, if_neg differ]
        rfl
  | free yields siblings free =>
    obtain ⟨n, free', found⟩ := fresh_ordinal_siblings yields siblings
    rw [found, free.unique free']

theorem fresh_answer_exists (yields : YieldsAll bound choice front ps)
    (siblings : SiblingsOfFirst ps) (rest : List Value) :
    ∃ answer, FreshAnswers bound choice (front ++ rest) answer := by
  induction rest generalizing front ps with
  | nil =>
    obtain ⟨n, free⟩ := first_free_exists ps
    exact ⟨.ok n, .free (by rwa [List.append_nil]) siblings free⟩
  | cons v rest ih =>
    cases outcome : (Position.ofValue bound v choice).result with
    | error fault => exact ⟨_, .stopped rfl yields siblings (.refused outcome)⟩
    | ok p =>
      by_cases joins : ∀ first, ps.head? = some first → p.Sibling first
      · have more := ih (yields.append (.cons outcome .nil)) (siblings.concat joins)
        rwa [← List.append_cons] at more
      · obtain ⟨first, differ⟩ := not_forall.mp joins
        obtain ⟨head, stranger⟩ := Classical.not_imp.mp differ
        exact ⟨_, .stopped rfl yields siblings (.stranger head outcome stranger)⟩

theorem fresh_iff_answers (bound : Decimal.Bound) (choice : LayoutChoice) (items : List Value)
    (answer : Except Fault Nat) :
    (freshOrdinal bound choice items).result = answer ↔ FreshAnswers bound choice items answer := by
  have start : YieldsAll bound choice [] [] := .nil
  have some_answer := fresh_answer_exists start (by simp [SiblingsOfFirst]) items
  rw [List.nil_append] at some_answer
  exact answer_iff (fun _ => FreshAnswers.result) some_answer answer

theorem fresh_of_read (yields : YieldsAll bound choice items ps) :
    ((∀ p ∈ ps, ∀ q ∈ ps, p.Sibling q) ∧
      ∃ n, FirstFree ps n ∧ (freshOrdinal bound choice items).result = .ok n) ∨
    ((∃ p ∈ ps, ∃ q ∈ ps, ¬ p.Sibling q) ∧
      ∃ p first, (freshOrdinal bound choice items).result = .error (.notSiblings p first)) := by
  have answers := (fresh_iff_answers bound choice items _).mp rfl
  cases outcome : (freshOrdinal bound choice items).result with
  | ok n =>
    rw [outcome] at answers
    cases answers with
    | free yields' siblings free =>
      cases yields.unique yields'
      exact Or.inl ⟨siblings_of_first_iff.mp siblings, n, free, rfl⟩
  | error fault =>
    rw [outcome] at answers
    cases answers with
    | stopped split before siblings stops =>
      subst split
      cases stops with
      | refused error =>
        obtain ⟨_, p, _, _, _, ok⟩ := yields.split
        cases ok.symm.trans error
      | @stranger p first head ok differ =>
        obtain ⟨qs, r, rs, rfl, before', ok'⟩ := yields.split
        cases before.unique before'
        cases ok.symm.trans ok'
        have member := List.mem_of_head? head
        exact Or.inr ⟨⟨p, by simp, first, by simp [member], differ⟩, p, first, rfl⟩

/-- Both are one number, or both say that two nodes are no siblings. -/
def Agree (x y : Except Fault Nat) : Prop :=
  (∃ n, x = .ok n ∧ y = .ok n) ∨
    ∃ p first q first', x = .error (.notSiblings p first) ∧ y = .error (.notSiblings q first')

theorem fresh_of_perm (yields : YieldsAll bound choice items ps) (perm : items.Perm items') :
    Agree (freshOrdinal bound choice items).result (freshOrdinal bound choice items').result := by
  obtain ⟨qs, yields', perm'⟩ := yields.perm perm
  rcases fresh_of_read yields with
    ⟨siblings, n, free, found⟩ | ⟨⟨p, member, q, member', differ⟩, a, first, refused⟩
  · rcases fresh_of_read yields' with
      ⟨_, m, free', found'⟩ | ⟨⟨p, member, q, member', differ⟩, _⟩
    · rw [found, found', (free.perm perm').unique free']
      exact Or.inl ⟨m, rfl, rfl⟩
    · exact absurd (siblings p (perm'.mem_iff.mpr member) q (perm'.mem_iff.mpr member')) differ
  · rcases fresh_of_read yields' with ⟨siblings, _⟩ | ⟨_, b, first', refused'⟩
    · exact absurd (siblings p (perm'.mem_iff.mp member) q (perm'.mem_iff.mp member')) differ
    · rw [refused, refused']
      exact Or.inr ⟨a, first, b, first', rfl, rfl⟩

namespace Value

theorem any_same_position (p : Position) (seen : List Position) :
    (seen.map Value.position).any (same (.position p)) = true ↔ ∃ q ∈ seen, p.Same q := by
  simp [same]

theorem representatives_from (seen ps : List Position)
    (distinct : seen.Pairwise fun p q => ¬ p.Same q) :
    ∃ kept : List Position, kept.Pairwise (fun p q => ¬ p.Same q) ∧
      (∀ p ∈ kept, p ∈ seen ∨ p ∈ ps) ∧
      (ps.map Value.position).foldl
        (fun seen v => if seen.any (same v) then seen else v :: seen) (seen.map .position) =
          kept.map .position := by
  induction ps generalizing seen with
  | nil => exact ⟨seen, distinct, fun p member => Or.inl member, rfl⟩
  | cons p ps ih =>
    by_cases known : ∃ q ∈ seen, p.Same q
    · obtain ⟨kept, distinct', among, folded⟩ := ih seen distinct
      refine ⟨kept, distinct', ?_, ?_⟩
      · intro q member
        rcases among q member with before | later
        · exact Or.inl before
        · exact Or.inr (List.mem_cons_of_mem p later)
      · rw [List.map_cons, List.foldl_cons, if_pos ((any_same_position p seen).mpr known)]
        exact folded
    · have apart : ∀ q ∈ seen, ¬ p.Same q := fun q member same => known ⟨q, member, same⟩
      obtain ⟨kept, distinct', among, folded⟩ :=
        ih (p :: seen) (List.pairwise_cons.mpr ⟨apart, distinct⟩)
      refine ⟨kept, distinct', ?_, ?_⟩
      · intro q member
        rcases among q member with before | later
        · rcases List.mem_cons.mp before with rfl | earlier
          · exact Or.inr (by simp)
          · exact Or.inl earlier
        · exact Or.inr (List.mem_cons_of_mem p later)
      · rw [List.map_cons, List.foldl_cons,
          if_neg fun found => known ((any_same_position p seen).mp found)]
        exact folded

theorem hashable_positions (ps : List Position) : hashableAll (ps.map .position) = true := by
  induction ps with
  | nil => rfl
  | cons p ps ih => simp [hashableAll, hashable, ih]

theorem count_positions (ps : List Position) :
    ∃ kept : List Position, kept.Pairwise (fun p q => ¬ p.Same q) ∧ (∀ p ∈ kept, p ∈ ps) ∧
      countDistinct (ps.map .position) = .ok kept.length := by
  obtain ⟨kept, distinct, among, folded⟩ := representatives_from [] ps .nil
  refine ⟨kept, distinct, ?_, ?_⟩
  · intro p member
    rcases among p member with none | inside
    · simp at none
    · exact inside
  · rw [countDistinct, if_pos (hashable_positions ps)]
    have whole : representatives (ps.map .position) = kept.map .position := folded
    rw [whole, List.length_map]

end Value

theorem FirstFree.count_le (free : FirstFree ps n) (siblings : ∀ p ∈ ps, ∀ q ∈ ps, p.Sibling q)
    (shared : SharedMarks ps) :
    ∃ k, Value.countDistinct (ps.map .position) = .ok k ∧ k ≤ n := by
  obtain ⟨kept, distinct, among, counted⟩ := Value.count_positions ps
  refine ⟨kept.length, counted, ?_⟩
  have nodup : (kept.map Position.ordinal).Nodup := by
    apply List.pairwise_map.mpr
    apply distinct.imp_of_mem
    intro p q member member' differ same
    have inside := among p member
    have inside' := among q member'
    exact differ ((siblings p inside q inside').same (shared p inside q inside') same)
  have below : kept.map Position.ordinal ⊆ List.range n := by
    intro k member
    obtain ⟨p, inside, rfl⟩ := List.mem_map.mp member
    exact List.mem_range.mpr (free.above p (among p inside))
  simpa using nodup.length_le_of_subset below

/-- The search for a free ordinal ends at the first item that gives no position, or no sibling of
    the first node, and otherwise finds the ordinal after the largest. -/
theorem free_ordinal_is_exact (bound : Decimal.Bound) (choice : LayoutChoice)
    (items : List Value) :
    (∀ answer, (freshOrdinal bound choice items).result = answer ↔
      FreshAnswers bound choice items answer) ∧
    (∀ p first, (Fault.notSiblings p first).family = .badValue) ∧
    ∀ ps, YieldsAll bound choice items ps →
      ((∃ p first, (freshOrdinal bound choice items).result = .error (.notSiblings p first)) ↔
        ∃ p ∈ ps, ∃ q ∈ ps, p.layout.width ≠ q.layout.width ∨
          ¬ Option.Rel Position.Same p.parent? q.parent?) ∧
      (∀ items', items.Perm items' →
        Agree (freshOrdinal bound choice items).result (freshOrdinal bound choice items').result) ∧
      ∀ n, (freshOrdinal bound choice items).result = .ok n → SharedMarks ps →
        ∃ k, Value.countDistinct (ps.map .position) = .ok k ∧ k ≤ n := by
  refine ⟨fresh_iff_answers bound choice items, fun _ _ => rfl, ?_⟩
  intro ps yields
  refine ⟨?_, fun items' => fresh_of_perm yields, ?_⟩
  · simp only [← not_and_or, ← Position.sibling_iff]
    rcases fresh_of_read yields with ⟨siblings, n, _, found⟩ | ⟨differ, refused⟩
    · constructor
      · rintro ⟨p, first, refused⟩
        cases found.symm.trans refused
      · rintro ⟨p, member, q, member', differ⟩
        exact absurd (siblings p member q member') differ
    · exact ⟨fun _ => differ, fun _ => refused⟩
  · intro n found shared
    rcases fresh_of_read yields with ⟨siblings, m, free, found'⟩ | ⟨_, p, first, refused⟩
    · cases found.symm.trans found'
      exact free.count_le siblings shared
    · cases found.symm.trans refused

theorem free_ordinal_among_roots :
    let dashed : Layout := { Layout.standard with separator := '-', separator_lt := by decide }
    let p : Position := ⟨dashed, [7], by decide, by decide⟩
    let reply : Position := ⟨.standard, [3, 0], by decide, by decide⟩
    (freshOrdinal .standard .unset [.position p, .text "03/"]).result = .ok 8 ∧
      (freshOrdinal .standard .unset [.position p, .text "03/", .position reply, .nothing]).result =
        .error (.notSiblings reply p) := by
  intro dashed p reply
  let q : Position := ⟨.standard, [3], by decide, by decide⟩
  have read : YieldsAll .standard .unset [.position p, .text "03/"] [p, q] :=
    .cons rfl (.cons rfl .nil)
  have siblings : SiblingsOfFirst [p, q] := siblings_of_first_iff.mpr (by decide)
  have free : FirstFree [p, q] 8 := ⟨by decide, Or.inr ⟨p, by decide, rfl⟩⟩
  constructor
  · obtain ⟨answers, _⟩ := free_ordinal_is_exact .standard .unset [.position p, .text "03/"]
    exact (answers _).mpr (.free read siblings free)
  · obtain ⟨answers, _⟩ := free_ordinal_is_exact .standard .unset
      [.position p, .text "03/", .position reply, .nothing]
    have stops : Stops .standard .unset [p, q] (.position reply) (.notSiblings reply p) :=
      .stranger rfl rfl (by decide)
    exact (answers _).mpr (.stopped rfl read siblings stops)

end ReplyTree
