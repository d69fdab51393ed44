import ReplyTree.Proofs.Building
import ReplyTree.Proofs.Issuing

/- What issuing a position comes to for a parent and an ordinal of any kind. Of several faults
   the ordinal's comes first, then the parent's, and last that the ordinal is too large. What
   passes these three checks can always be built. -/
namespace ReplyTree

variable {bound : Decimal.Bound} {l : Layout} {parent ordinal v : Value} {fault : Fault}
  {p c : Position} {above : List Nat} {n : Nat}

namespace Position

theorem result_of_path (x : Outcome l.Path) :
    (do return ofPath l (← x) : Outcome Position).result =
      (do return ⟨ofPath l (← x), rfl⟩ :
        Outcome {p : Position // p.layout.width = l.width}).result.map Subtype.val := by
  rw [Outcome.bind_pure_eq, Outcome.bind_pure_eq]
  cases x.result with
  | error fault => rfl
  | ok path => rfl

theorem of_value_result (bound : Decimal.Bound) (l : Layout) (v : Value) :
    (ofValue bound v (.named l)).result = (receive bound l v).result.map Subtype.val := by
  cases v with
  | position p =>
    by_cases same : p.layout.width = l.width
    · simp only [ofValue, receive, dif_pos same]
      rfl
    · simp only [ofValue, receive, dif_neg same]
      rfl
  | _ => exact result_of_path _

theorem width_of_value (found : (ofValue bound v (.named l)).result = .ok p) :
    p.layout.width = l.width := by
  rw [of_value_result] at found
  cases received : (receive bound l v).result with
  | error fault =>
    rw [received] at found
    cases found
  | ok q =>
    rw [received] at found
    cases found
    exact q.property

theorem refused_of_value (refused : (ofValue bound v (.named l)).result = .error fault) :
    (∃ why, fault = .malformed v why) ∨ (read bound v (.named l)).result = .error fault := by
  cases v with
  | position p =>
    by_cases same : p.layout.width = l.width
    · rw [ofValue_named bound same] at refused
      cases refused
    · simp only [ofValue, receive, dif_neg same] at refused
      cases refused
      exact Or.inl ⟨_, rfl⟩
  | _ => exact Or.inr refused

theorem malformed_of_value (short : bound.exceeded? l.width = none)
    (refused : (ofValue bound v (.named l)).result = .error fault) :
    ∃ why, fault = .malformed v why := by
  rcases refused_of_value refused with width | unread
  · exact width
  · exact malformed_of_read short unread

theorem family_of_read_in (refused : (readIn bound l v).result = .error fault) :
    fault.family ≠ .ordinal ∧ fault.family ≠ .overflow := by
  unfold readIn at refused
  split at refused
  · split at refused
    · cases refused
    · cases refused
      simp [Fault.family]
    · cases refused
      simp [Fault.family]
  · cases refused
    simp [Fault.family]

theorem family_of_value (refused : (ofValue bound v (.named l)).result = .error fault) :
    fault.family ≠ .ordinal ∧ fault.family ≠ .overflow := by
  rcases refused_of_value refused with ⟨why, rfl⟩ | unread
  · simp [Fault.family]
  · exact family_of_read_in (refused_in unread)

end Position

namespace Layout

/-- The ordinals under which a new position comes: those of the position that the parent gives,
    and none at the top. -/
inductive GivesPath (bound : Decimal.Bound) (l : Layout) : Value → List Nat → Prop
  | top : GivesPath bound l .nothing []
  | below {v : Value} {p : Position} :
      (Position.ofValue bound v (.named l)).result = .ok p → GivesPath bound l v p.ordinals

theorem parent_ordinals_result (given : parent ≠ .nothing) :
    (l.parentOrdinals bound parent).result = (Position.receive bound l parent).result.map
      fun p => ⟨p.val.ordinals, p.val.fits_width p.property⟩ := by
  have received : l.parentOrdinals bound parent = do
      let p ← Position.receive bound l parent
      return ⟨p.val.ordinals, p.val.fits_width p.property⟩ := by
    cases parent with
    | nothing => exact absurd rfl given
    | _ => rfl
  rw [received, Outcome.bind_pure_eq]

theorem parent_ordinals_ok (path : l.GivesPath bound parent above) :
    ∃ given, (l.parentOrdinals bound parent).result = .ok given ∧ given.val = above := by
  cases path with
  | top => exact ⟨_, rfl, rfl⟩
  | @below _ p found =>
    have given : parent ≠ .nothing := by
      rintro rfl
      cases found
    rw [Position.of_value_result] at found
    rw [parent_ordinals_result given]
    cases received : (Position.receive bound l parent).result with
    | error fault =>
      rw [received] at found
      cases found
    | ok q =>
      rw [received] at found
      cases found
      exact ⟨_, rfl, rfl⟩

theorem parent_ordinals_error (given : parent ≠ .nothing)
    (refused : (Position.ofValue bound parent (.named l)).result = .error fault) :
    (l.parentOrdinals bound parent).result = .error fault := by
  rw [Position.of_value_result] at refused
  rw [parent_ordinals_result given]
  cases received : (Position.receive bound l parent).result with
  | error first =>
    rw [received] at refused
    cases refused
    rfl
  | ok q =>
    rw [received] at refused
    cases refused

theorem path_or_refused (bound : Decimal.Bound) (l : Layout) (parent : Value) :
    (∃ above, l.GivesPath bound parent above) ∨
      parent ≠ .nothing ∧
        ∃ fault, (Position.ofValue bound parent (.named l)).result = .error fault := by
  by_cases given : parent = .nothing
  · subst given
    exact Or.inl ⟨[], .top⟩
  · cases found : (Position.ofValue bound parent (.named l)).result with
    | ok p => exact Or.inl ⟨p.ordinals, .below found⟩
    | error fault => exact Or.inr ⟨given, fault, rfl⟩

theorem GivesPath.fits (path : l.GivesPath bound parent above) : ∀ m ∈ above, m < l.capacity := by
  obtain ⟨given, _, rfl⟩ := parent_ordinals_ok path
  exact given.property

theorem GivesPath.fits_concat (path : l.GivesPath bound parent above) (fits : n ≤ l.top) :
    ∀ m ∈ above ++ [n], m < l.capacity := by
  intro m member
  rcases List.mem_append.mp member with front | last
  · exact path.fits m front
  · rw [List.mem_singleton.mp last, lt_capacity_iff]
    exact fits

/-- What is answered to a parent and an ordinal of any kind. What is issued is what can be built
    from the ordinals. -/
inductive Answers (bound : Decimal.Bound) (l : Layout) (parent ordinal : Value) :
    Except Fault Position → Prop
  | badOrdinal : (∀ n : Nat, ordinal ≠ .ofNat n) →
      Answers bound l parent ordinal (.error (.badSibling ordinal))
  | badParent {n : Nat} {fault : Fault} : ordinal = .ofNat n → parent ≠ .nothing →
      (Position.ofValue bound parent (.named l)).result = .error fault →
        Answers bound l parent ordinal (.error fault)
  | tooLarge {n : Nat} {above : List Nat} : ordinal = .ofNat n →
      l.GivesPath bound parent above → l.top < n →
        Answers bound l parent ordinal (.error (.overflow n l.width above.length))
  | issued {n : Nat} {above : List Nat} {p : Position} : ordinal = .ofNat n →
      l.GivesPath bound parent above → n ≤ l.top → p.layout = l → p.ordinals = above ++ [n] →
      Position.build ((above ++ [n]).map .ofNat) (.named l) = .ok p →
        Answers bound l parent ordinal (.ok p)

theorem issue_bad_ordinal (unnatural : ∀ n : Nat, ordinal ≠ .ofNat n) :
    (l.issue bound parent ordinal).result = .error (.badSibling ordinal) := by
  simp only [issue, Value.natural_eq_none.mpr unnatural]
  rfl

theorem issue_bad_parent (given : parent ≠ .nothing)
    (refused : (Position.ofValue bound parent (.named l)).result = .error fault) :
    (l.issue bound parent (.ofNat n)).result = .error fault := by
  simp only [issue, Value.natural_ofNat,
    Outcome.bind_of_error (parent_ordinals_error given refused)]

theorem issue_of_path (path : l.GivesPath bound parent above) (n : Nat) :
    (n ≤ l.top → ∃ p, (l.issue bound parent (.ofNat n)).result = .ok p ∧ p.layout = l ∧
      p.ordinals = above ++ [n]) ∧
    (l.top < n → (l.issue bound parent (.ofNat n)).result =
      .error (.overflow n l.width above.length)) := by
  obtain ⟨given, found, rfl⟩ := parent_ordinals_ok path
  obtain ⟨fitting, overflowing⟩ := issue_of_parent found n
  constructor
  · intro fits
    exact fitting ((l.lt_capacity_iff n).mpr fits)
  · intro large
    apply overflowing
    have inside := l.lt_capacity_iff n
    omega

theorem Answers.result {answer : Except Fault Position}
    (answers : l.Answers bound parent ordinal answer) :
    (l.issue bound parent ordinal).result = answer := by
  cases answers with
  | badOrdinal unnatural => exact issue_bad_ordinal unnatural
  | badParent natural given refused =>
    subst natural
    exact issue_bad_parent given refused
  | tooLarge natural path large =>
    subst natural
    exact (issue_of_path path _).2 large
  | issued natural path fits layout ordinals _ =>
    subst natural
    obtain ⟨q, found, layout', ordinals'⟩ := (issue_of_path path _).1 fits
    rw [found, Position.eq_of_ordinals (layout'.trans layout.symm) (ordinals'.trans ordinals.symm)]

theorem answer_exists (bound : Decimal.Bound) (l : Layout) (parent ordinal : Value) :
    ∃ answer, l.Answers bound parent ordinal answer := by
  by_cases natural : ∃ n : Nat, ordinal = .ofNat n
  · obtain ⟨n, rfl⟩ := natural
    rcases path_or_refused bound l parent with ⟨above, path⟩ | ⟨given, fault, refused⟩
    · by_cases fits : n ≤ l.top
      · have built := l.build_ok (List.concat_ne_nil n above) (path.fits_concat fits)
        exact ⟨_, .issued rfl path fits rfl rfl built⟩
      · exact ⟨_, .tooLarge rfl path (Nat.lt_of_not_le fits)⟩
    · exact ⟨_, .badParent rfl given refused⟩
  · exact ⟨_, .badOrdinal fun n same => natural ⟨n, same⟩⟩

theorem issue_iff_answers (bound : Decimal.Bound) (l : Layout) (parent ordinal : Value)
    (answer : Except Fault Position) :
    (l.issue bound parent ordinal).result = answer ↔ l.Answers bound parent ordinal answer := by
  exact answer_iff (fun _ => Answers.result) (answer_exists bound l parent ordinal) answer

theorem Answers.family (answers : l.Answers bound parent ordinal (.error fault)) :
    (fault.family = .ordinal ↔ ∀ n : Nat, ordinal ≠ .ofNat n) ∧
    (fault.family = .overflow ↔ ∃ n above, ordinal = .ofNat n ∧
      l.GivesPath bound parent above ∧ l.top < n) := by
  refine ⟨⟨?_, ?_⟩, ⟨?_, ?_⟩⟩
  · intro kind
    cases answers with
    | badOrdinal unnatural => exact unnatural
    | badParent _ _ refused => exact absurd kind (Position.family_of_value refused).1
    | tooLarge _ _ _ => cases kind
  · intro unnatural
    cases answers.result.symm.trans (issue_bad_ordinal unnatural)
    rfl
  · intro kind
    cases answers with
    | badOrdinal _ => cases kind
    | badParent _ _ refused => exact absurd kind (Position.family_of_value refused).2
    | tooLarge natural path large => exact ⟨_, _, natural, path, large⟩
  · rintro ⟨n, above, natural, path, large⟩
    cases answers.result.symm.trans (Answers.tooLarge natural path large).result
    rfl

theorem build_overflow (l : Layout) {ns : List Nat} (fits : ∀ m ∈ ns, m < l.capacity)
    (large : l.top < n) :
    l.build ((ns ++ [n]).map .ofNat) = .error (.overflow n l.width ns.length) := by
  have refused := build_too_large (admits_ordinals fits) large []
  rw [List.length_map] at refused
  rw [List.map_append]
  exact refused

end Layout

/-- The three ways from a position to a child: its own reply, issuing below it, and building from
    its ordinals. -/
def Position.waysDown (bound : Decimal.Bound) (p : Position) (n : Nat) :
    List (Except Fault Position) :=
  [(p.reply bound (.ofNat n)).result, (p.layout.issue bound (.position p) (.ofNat n)).result,
    build ((p.ordinals ++ [n]).map .ofNat) (.named p.layout)]

theorem Position.ways_down_agree {answer : Except Fault Position}
    (issued : (p.layout.issue bound (.position p) (.ofNat n)).result = answer)
    (built : p.layout.build ((p.ordinals ++ [n]).map .ofNat) = answer) :
    ∀ way ∈ p.waysDown bound n, way = answer := by
  intro way member
  simp only [waysDown, List.mem_cons, List.not_mem_nil, or_false] at member
  rcases member with rfl | rfl | rfl
  · exact issued
  · exact issued
  · exact built

theorem Position.gives_path (bound : Decimal.Bound) (p : Position) :
    p.layout.GivesPath bound (.position p) p.ordinals := by
  apply Layout.GivesPath.below
  rw [ofValue_named bound rfl]
  rfl

theorem Position.ways_down (bound : Decimal.Bound) (p : Position) (n : Nat) :
    (n ≤ p.layout.top ∧ ∃ c : Position, c.layout = p.layout ∧ c.ordinals = p.ordinals ++ [n] ∧
      ∀ way ∈ p.waysDown bound n, way = .ok c) ∨
    (p.layout.top < n ∧ ∀ way ∈ p.waysDown bound n,
      way = .error (.overflow n p.layout.width p.ordinals.length)) := by
  obtain ⟨fitting, overflowing⟩ := Layout.issue_of_path (p.gives_path bound) n
  by_cases fits : n ≤ p.layout.top
  · obtain ⟨c, issued, layout, ordinals⟩ := fitting fits
    have built : p.layout.build ((p.ordinals ++ [n]).map .ofNat) = .ok c := by
      rw [← layout, ← ordinals]
      exact c.layout.build_ok c.nonempty c.fits
    exact Or.inl ⟨fits, c, layout, ordinals, ways_down_agree issued built⟩
  · have large : p.layout.top < n := Nat.lt_of_not_le fits
    have built := p.layout.build_overflow p.fits large
    exact Or.inr ⟨large, ways_down_agree (overflowing large) built⟩

/-- A bad ordinal is refused whatever the parent is, then a parent as it would be refused by itself,
    then an ordinal above the largest, and anything else is issued. Replying, issuing and building
    agree below every position. -/
theorem issuing_answers_in_order (bound : Decimal.Bound) (l : Layout) (parent ordinal : Value)
    (answer : Except Fault Position) :
    ((l.issue bound parent ordinal).result = answer ↔ l.Answers bound parent ordinal answer) ∧
    (∀ fault, (l.issue bound parent ordinal).result = .error fault →
      (fault.family = .ordinal ↔ ∀ n : Nat, ordinal ≠ .ofNat n) ∧
      (fault.family = .overflow ↔ ∃ n above, ordinal = .ofNat n ∧
        l.GivesPath bound parent above ∧ l.top < n)) ∧
    (∀ fault, (Position.ofValue .unbounded parent (.named l)).result = .error fault →
      fault.family = .malformed ∧ ∃ why, fault = .malformed parent why) ∧
    (bound.exceeded? l.width = none →
      ∀ fault, (Position.ofValue bound parent (.named l)).result = .error fault →
        fault.family = .malformed ∧ ∃ why, fault = .malformed parent why) ∧
    ∀ (p : Position) (n : Nat),
      (n ≤ p.layout.top ∧ ∃ c : Position, c.layout = p.layout ∧ c.ordinals = p.ordinals ++ [n] ∧
        ∀ way ∈ p.waysDown bound n, way = .ok c) ∨
      (p.layout.top < n ∧ ∀ way ∈ p.waysDown bound n,
        way = .error (.overflow n p.layout.width p.ordinals.length)) := by
  refine ⟨Layout.issue_iff_answers bound l parent ordinal answer, ?_, ?_, ?_,
    Position.ways_down bound⟩
  · intro fault refused
    exact ((Layout.issue_iff_answers bound l parent ordinal _).mp refused).family
  · intro fault refused
    obtain ⟨why, rfl⟩ := Position.malformed_of_value rfl refused
    exact ⟨rfl, why, rfl⟩
  · intro short fault refused
    obtain ⟨why, rfl⟩ := Position.malformed_of_value short refused
    exact ⟨rfl, why, rfl⟩

theorem issuing_answers_to_bad_arguments :
    (∃ why, (Layout.standard.issue .standard (.text "01") (.ofNat 100)).result =
      .error (.malformed (.text "01") why)) ∧
    (Layout.standard.issue .standard (.text "01") (.flag true)).result =
      .error (.badSibling (.flag true)) ∧
    (Layout.standard.issue .standard (.text "01/") (.ofNat 100)).result =
      .error (.overflow 100 2 1) := by
  have answers (parent ordinal : Value) (answer : Except Fault Position) :=
    issuing_answers_in_order .standard .standard parent ordinal answer
  let fault : Fault := .malformed (.text "01") (.unreadable (.unterminated '/'))
  have unfinished : (Position.ofValue .standard (.text "01") (.named .standard)).result =
      .error fault := rfl
  have root : (Position.ofValue .standard (.text "01/") (.named .standard)).result =
      .ok ⟨.standard, [1], by decide, by decide⟩ := rfl
  refine ⟨?_, ?_, ?_⟩
  · obtain ⟨refused, _, _, malformed, _⟩ := answers (.text "01") (.ofNat 100) (.error fault)
    obtain ⟨_, why, same⟩ := malformed (by decide) fault unfinished
    rw [same] at refused unfinished
    exact ⟨why, refused.mpr (.badParent rfl (by simp) unfinished)⟩
  · exact (answers _ _ _).1.mpr (.badOrdinal fun n same => by cases same)
  · exact (answers _ _ _).1.mpr (.tooLarge rfl (.below root) (by decide))

end ReplyTree
