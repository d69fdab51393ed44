import ReplyTree.Proofs.Admission
import ReplyTree.Proofs.Traversal

/- Sorting a listing again. A listing is the one stable sort of its nodes by their texts, so to
   sort it once more changes nothing, the order in which the nodes were given shows only among
   equal texts, and a listing with the newest first may be made from one with the oldest first.
   The nodes may be written in any layouts. -/
namespace ReplyTree

variable {bound : Decimal.Bound} {newestFirst : Bool} {choice again : LayoutChoice}
  {items : List Value} {ps listed : List Position}

theorem arrange_again (newestFirst : Bool) (ps : List Position) :
    arrange newestFirst (arrange newestFirst ps) = arrange newestFirst ps :=
  (sorts_iff.mp (arrange_sorts newestFirst ps).again).symm

theorem arrange_texts {qs : List Position} (newestFirst : Bool) (perm : ps.Perm qs) :
    (arrange newestFirst ps).map (Position.sortText newestFirst) =
      (arrange newestFirst qs).map (Position.sortText newestFirst) :=
  (arrange_sorts newestFirst ps).keys (ranking_of_order newestFirst)
    (arrange_sorts newestFirst qs) perm

theorem of_complete_text (k : List Char) (ps : List Position) :
    ofKey (Position.sortText true) k ps =
      ofKey (Position.sortText true) k (ofKey (Position.sortText false) k.dropLast ps) := by
  unfold ofKey
  rw [List.filter_filter]
  apply List.filter_congr
  intro p _
  by_cases complete : p.sortText true = k
  · have body : p.sortText false = k.dropLast := by
      rw [← complete]
      simp [Position.sortText, Position.letters]
    simp [complete, body]
  · simp [complete]

theorem newest_of_oldest (ps : List Position) :
    arrange true (arrange false ps) = arrange true ps := by
  have oldest := arrange_sorts false ps
  have newest := arrange_sorts true ps
  refine (sorts_iff.mp ⟨newest.perm.trans oldest.perm.symm, newest.ordered, ?_⟩).symm
  -- Nodes of one complete text are among those that the first sort left as they were.
  intro k
  rw [newest.stable, of_complete_text, ← oldest.stable, ← of_complete_text]

/-- Under the second choice positions that were read under the first are taken as they are. -/
inductive LayoutChoice.Keeps : LayoutChoice → LayoutChoice → Prop
  | unset (choice : LayoutChoice) : Keeps choice .unset
  | named (l : Layout) : Keeps (.named l) (.named l)

theorem LayoutChoice.Keeps.yields {v : Value} {p : Position} (keeps : choice.Keeps again)
    (found : Yields bound choice v p) : Yields bound again (.position p) p := by
  cases keeps with
  | unset => rfl
  | named l =>
    rw [Yields, Position.ofValue_named bound (Position.width_of_value found)]
    rfl

theorem LayoutChoice.Keeps.arranged (keeps : choice.Keeps again)
    (read : YieldsAll bound choice items ps) (among : ∀ p ∈ listed, p ∈ ps)
    (newestFirst : Bool) :
    (arrangeValues bound newestFirst again (listed.map .position)).result =
      .ok (arrange newestFirst listed) := by
  have taken : ∀ p ∈ ps, Yields bound again (.position p) p :=
    forall_of_forall₂ read fun v p found => keeps.yields found
  have kept := yields_positions fun p member => taken p (among p member)
  exact arrange_of_read (of_values_read kept) newestFirst

theorem arrange_values_error_iff {fault : Fault} :
    (arrangeValues bound newestFirst choice items).result = .error fault ↔
      FirstRefused bound choice items fault := by
  rw [← of_values_error_iff, arrangeValues]
  cases outcome : (Position.ofValues bound choice items).result with
  | ok ps => simp [Outcome.bind_of_ok outcome]
  | error first => simp [Outcome.bind_of_error outcome]

/-- What is sorted is what was read, by the one stable sort, however often and in whatever order
    it is given. -/
theorem listing_is_stable (bound : Decimal.Bound) (newestFirst : Bool) (choice : LayoutChoice)
    (items : List Value) :
    (∀ fault, (arrangeValues bound newestFirst choice items).result = .error fault ↔
      FirstRefused bound choice items fault) ∧
    (∀ ps, YieldsAll bound choice items ps →
      ∃ listed, (arrangeValues bound newestFirst choice items).result = .ok listed ∧
        ∀ other, Sorts newestFirst ps other ↔ other = listed) ∧
    (∀ listed, (arrangeValues bound newestFirst choice items).result = .ok listed →
      (∀ again, choice.Keeps again →
        (arrangeValues bound newestFirst again (listed.map .position)).result = .ok listed) ∧
      ∀ items', items.Perm items' →
        ∃ listed', (arrangeValues bound newestFirst choice items').result = .ok listed' ∧
          listed'.map (Position.sortText newestFirst) =
            listed.map (Position.sortText newestFirst)) ∧
    ∀ oldest, (arrangeValues bound false choice items).result = .ok oldest →
      ∀ again, choice.Keeps again →
        (arrangeValues bound true again (oldest.map .position)).result =
          (arrangeValues bound true choice items).result := by
  refine ⟨fun fault => arrange_values_error_iff, ?_, ?_, ?_⟩
  · intro ps read
    exact ⟨_, arrange_of_read (of_values_read read) newestFirst, fun other => sorts_iff⟩
  · intro listed accepted
    obtain ⟨ps, found, rfl⟩ := arrange_ok accepted
    have read := of_values_ok_iff.mp found
    constructor
    · intro again keeps
      rw [keeps.arranged read (fun p member => mem_arrange.mp member) newestFirst,
        arrange_again]
    · intro items' perm
      obtain ⟨qs, read', perm'⟩ := read.perm perm
      exact ⟨_, arrange_of_read (of_values_read read') newestFirst,
        arrange_texts newestFirst perm'.symm⟩
  · intro oldest accepted again keeps
    obtain ⟨ps, found, rfl⟩ := arrange_ok accepted
    have read := of_values_ok_iff.mp found
    rw [keeps.arranged read (fun p member => mem_arrange.mp member) true, newest_of_oldest,
      arrange_of_read found true]

theorem listing_of_equal_roots :
    let dashed : Layout := { Layout.standard with separator := '-', separator_lt := by decide }
    let p : Position := ⟨dashed, [7], by decide, by decide⟩
    let q : Position := ⟨.standard, [7], by decide, by decide⟩
    p ≠ q ∧ p.text = q.text ∧
      (arrangeValues .standard true .unset [.position p, .text "07/"]).result = .ok [p, q] ∧
      (arrangeValues .standard true .unset [.text "07/", .position p]).result = .ok [q, p] := by
  intro dashed p q
  refine ⟨by decide, by decide, ?_, ?_⟩
  · have read : YieldsAll .standard .unset [.position p, .text "07/"] [p, q] :=
      .cons rfl (.cons rfl .nil)
    obtain ⟨listed, accepted, only⟩ :=
      (listing_is_stable .standard true .unset [.position p, .text "07/"]).2.1 _ read
    have sorts : Sorts true [p, q] [p, q] := ⟨.refl _, by decide, fun _ => rfl⟩
    rw [accepted, (only _).mp sorts]
  · have read : YieldsAll .standard .unset [.text "07/", .position p] [q, p] :=
      .cons rfl (.cons rfl .nil)
    obtain ⟨listed, accepted, only⟩ :=
      (listing_is_stable .standard true .unset [.text "07/", .position p]).2.1 _ read
    have sorts : Sorts true [q, p] [q, p] := ⟨.refl _, by decide, fun _ => rfl⟩
    rw [accepted, (only _).mp sorts]

end ReplyTree
