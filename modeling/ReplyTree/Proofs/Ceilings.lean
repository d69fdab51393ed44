import Mathlib.Data.List.Induction
import ReplyTree.Proofs.Lines

/- A ceiling that is moved while it is in use. A limit that is refused leaves it where it is, so the
   levels it shows are always those under the last limit that was taken. -/
namespace ReplyTree

variable {bound : Decimal.Bound} {choice : LayoutChoice} {node limit settings : Value}
  {c : Ceiling} {most : Nat}

def Value.isPlace : Value → Bool
  | .position _ | .text _ => true
  | _ => false

theorem depth_of_place (place : node.isPlace = true) :
    depthOf bound node choice = do return (← Position.ofValue bound node choice).depth := by
  cases node with
  | position p => rfl
  | text s => rfl
  | _ => cases place

theorem shown_level_under (bound : Decimal.Bound) (node : Value) (most : Nat)
    (choice : LayoutChoice) :
    shownLevel bound node (.ofNat most) choice =
      ⟨(depthOf bound node choice).result.map (min · most), (depthOf bound node choice).log⟩ :=
  Outcome.bind_pure_eq (depthOf bound node choice) (min · most)

theorem shown_level_of_place (place : node.isPlace = true) (most : Nat) :
    shownLevel bound node (.ofNat most) choice =
      ⟨(Position.ofValue bound node choice).result.map fun p => min p.depth most,
        (Position.ofValue bound node choice).log⟩ := by
  rw [shown_level_under, depth_of_place place, Outcome.bind_pure_eq]
  cases (Position.ofValue bound node choice).result with
  | error fault => rfl
  | ok p => rfl

namespace Listing

/-- A single line shows its node at a level, or a fault takes the place of the line. The records
    are the same as without a listing. -/
inductive ShowsOne : Listing → Outcome Nat → Prop
  | line {line : Line} {log : List Record} : ShowsOne ⟨[line], none, log⟩ ⟨.ok line.shown, log⟩
  | fault {fault : Fault} {log : List Record} :
      ShowsOne ⟨[], some fault, log⟩ ⟨.error fault, log⟩

theorem shows_one (place : node.isPlace = true) (most : Nat) :
    ShowsOne (ofValues bound (.ofNat most) choice [node])
      (ReplyTree.shownLevel bound node (.ofNat most) choice) := by
  rw [shown_level_of_place place, ofValues]
  cases found : (Position.ofValue bound node choice).result with
  | error fault =>
    rw [outline_ended (.refused found)]
    exact .fault
  | ok p =>
    rw [outline_passed found rfl]
    simp only [after, outline, List.append_nil]
    exact .line

end Listing

namespace Ceiling

/-- The limit of a new ceiling: the one given, or without one that of its settings. What counts as
    false stands for the standard settings. -/
inductive StartsAt : Value → Value → Nat → Prop
  | given (n : Nat) (settings : Value) : StartsAt (.ofNat n) settings n
  | standard {settings : Value} : settings.truth = false →
      StartsAt .nothing settings Layout.standard.limit
  | asked {settings : Value} {n : Nat} : settings.truth = true → settings.limit? = some n →
      StartsAt .nothing settings n

theorem layout_of_false (blank : settings.truth = false) :
    (LayoutChoice.ofValue settings).layout? = some .standard := by
  cases settings with
  | nothing => rfl
  | layout l => cases blank
  | _ => simp only [LayoutChoice.ofValue, blank]; rfl

/-- The settings that a ceiling holds: those given, or the standard layout for what counts as
    false. -/
def held (settings : Value) : Value :=
  if settings.truth then settings else .layout .standard

theorem choice_of_settings
    (same : c.layout? = (LayoutChoice.ofValue settings).layout?) :
    c.choice = .ofValue (held settings) := by
  unfold choice
  rw [same]
  cases presence : settings.truth with
  | false =>
    rw [layout_of_false presence, held, if_neg (by simp [presence])]
    rfl
  | true =>
    rw [held, if_pos presence]
    cases settings with
    | nothing => cases presence
    | layout l => rfl
    | _ => simp only [LayoutChoice.ofValue, presence]; rfl

theorem limit_of_layout {l : Layout} (present : settings.truth = true)
    (found : (LayoutChoice.ofValue settings).layout? = some l) :
    settings.limit? = some l.limit := by
  cases settings with
  | nothing => cases present
  | layout l' =>
    cases found
    rfl
  | _ =>
    simp only [LayoutChoice.ofValue, present] at found
    cases found

theorem accept_unlimited (accepted : accept .nothing settings = .ok c) :
    StartsAt .nothing settings c.limit ∧
      c.layout? = (LayoutChoice.ofValue settings).layout? := by
  unfold accept at accepted
  cases presence : settings.truth with
  | false =>
    rw [layout_of_false presence] at accepted ⊢
    cases accepted
    exact ⟨.standard presence, rfl⟩
  | true =>
    cases found : (LayoutChoice.ofValue settings).layout? with
    | some l =>
      rw [found] at accepted
      cases accepted
      exact ⟨.asked presence (limit_of_layout presence found), rfl⟩
    | none =>
      rw [found] at accepted
      cases asked : settings.limit? with
      | none =>
        rw [asked] at accepted
        cases accepted
      | some n =>
        rw [asked] at accepted
        cases accepted
        exact ⟨.asked presence asked, rfl⟩

theorem accept_starts (accepted : accept limit settings = .ok c) :
    StartsAt limit settings c.limit ∧ c.layout? = (LayoutChoice.ofValue settings).layout? := by
  cases limit with
  | nothing => exact accept_unlimited accepted
  | whole n =>
    cases n with
    | ofNat n =>
      cases accepted
      exact ⟨.given n settings, rfl⟩
    | negSucc n => cases accepted
  | _ => cases accepted

theorem move_refused (c : Ceiling) (unnatural : ∀ n : Nat, limit ≠ .ofNat n) :
    c.move limit = .error (.badSetting .limit limit) := by
  simp only [move, Value.natural_eq_none.mpr unnatural]

def afterMove (c : Ceiling) (limit : Value) : Ceiling :=
  match c.move limit with
  | .ok moved => moved
  | .error _ => c

def afterMoves (c : Ceiling) (limits : List Value) : Ceiling := limits.foldl afterMove c

theorem after_move_refused (c : Ceiling) (unnatural : ∀ n : Nat, limit ≠ .ofNat n) :
    c.afterMove limit = c := by
  simp only [afterMove, c.move_refused unnatural]

theorem after_moves_concat (c : Ceiling) (limits : List Value) (limit : Value) :
    c.afterMoves (limits ++ [limit]) = (c.afterMoves limits).afterMove limit := by
  simp only [afterMoves, List.foldl_append, List.foldl_cons, List.foldl_nil]

/-- The last number among the limits that have been asked for, or the limit at the start if there
    is none. -/
inductive Latest (start : Nat) (limits : List Value) : Nat → Prop
  | taken {earlier later : List Value} {n : Nat} : limits = earlier ++ .ofNat n :: later →
      (∀ v ∈ later, ∀ m : Nat, v ≠ .ofNat m) → Latest start limits n
  | kept : (∀ v ∈ limits, ∀ m : Nat, v ≠ .ofNat m) → Latest start limits start

theorem Latest.refused {start : Nat} {limits : List Value} (latest : Latest start limits most)
    (unnatural : ∀ n : Nat, limit ≠ .ofNat n) : Latest start (limits ++ [limit]) most := by
  have joined {others : List Value} (refused : ∀ v ∈ others, ∀ m : Nat, v ≠ .ofNat m) :
      ∀ v ∈ others ++ [limit], ∀ m : Nat, v ≠ .ofNat m := by
    intro v member
    rcases List.mem_append.mp member with before | last
    · exact refused v before
    · rw [List.mem_singleton.mp last]
      exact unnatural
  cases latest with
  | taken split refused =>
    subst split
    exact .taken (List.append_assoc _ _ _) (joined refused)
  | kept refused => exact .kept (joined refused)

theorem after_moves (c : Ceiling) (limits : List Value) :
    Latest c.limit limits (c.afterMoves limits).limit ∧
      (c.afterMoves limits).layout? = c.layout? := by
  induction limits using List.reverseRecOn with
  | nil => exact ⟨.kept (by simp), rfl⟩
  | append_singleton limits limit ih =>
    obtain ⟨latest, layout⟩ := ih
    rw [after_moves_concat]
    by_cases number : ∃ n : Nat, limit = .ofNat n
    · obtain ⟨n, rfl⟩ := number
      exact ⟨.taken rfl (by simp), layout⟩
    · have unnatural : ∀ n : Nat, limit ≠ .ofNat n := fun n same => number ⟨n, same⟩
      rw [after_move_refused _ unnatural]
      exact ⟨latest.refused unnatural, layout⟩

/-- A ceiling shows every node as it is shown under the last limit that was taken and the settings
    with which the ceiling was made. Limits that are refused leave it as it is. -/
theorem ceiling_shows_under_latest_limit (bound : Decimal.Bound) {limit settings : Value}
    {c : Ceiling} (accepted : accept limit settings = .ok c) (limits : List Value) :
    let now := c.afterMoves limits
    let choice := LayoutChoice.ofValue (held settings)
    (∃ start, StartsAt limit settings start ∧ Latest start limits now.limit) ∧
    now.layout? = (LayoutChoice.ofValue settings).layout? ∧
    now.choice = choice ∧
    (∀ v, (∀ n : Nat, v ≠ .ofNat n) →
      now.move v = .error (.badSetting .limit v) ∧
        (Fault.badSetting .limit v).family = .badValue ∧ c.afterMoves (limits ++ [v]) = now) ∧
    (∀ n : Nat, now.move (.ofNat n) = .ok { now with limit := n } ∧
      c.afterMoves (limits ++ [.ofNat n]) = { now with limit := n }) ∧
    ∀ node,
      now.shownLevel bound node = ReplyTree.shownLevel bound node (.ofNat now.limit) choice ∧
      (now.shownLevel bound node).result =
        (depthOf bound node choice).result.map (min · now.limit) ∧
      (node.isPlace = true →
        Listing.ShowsOne (Listing.ofValues bound (.ofNat now.limit) choice [node])
          (now.shownLevel bound node) ∧
        (now.shownLevel bound node).result =
          (Position.ofValue bound node choice).result.map fun p => min p.depth now.limit) := by
  intro now choice
  obtain ⟨starts, layout⟩ := accept_starts accepted
  obtain ⟨latest, kept⟩ := c.after_moves limits
  have chosen : now.choice = choice := choice_of_settings (kept.trans layout)
  refine ⟨⟨c.limit, starts, latest⟩, kept.trans layout, chosen, ?_, ?_, ?_⟩
  · intro v unnatural
    refine ⟨now.move_refused unnatural, rfl, ?_⟩
    rw [after_moves_concat, after_move_refused _ unnatural]
  · intro n
    exact ⟨rfl, c.after_moves_concat limits (.ofNat n)⟩
  · intro node
    have plain : now.shownLevel bound node =
        ReplyTree.shownLevel bound node (.ofNat now.limit) choice := by
      rw [Ceiling.shownLevel, chosen]
    rw [plain]
    refine ⟨rfl, congrArg Outcome.result (shown_level_under bound node now.limit choice), ?_⟩
    intro place
    exact ⟨Listing.shows_one place now.limit,
      congrArg Outcome.result (shown_level_of_place place now.limit)⟩

theorem ceiling_shows_under_latest_of_refused :
    let wide : Layout :=
      ⟨3, 5, '.', '/', by decide, Layout.standard.separator_lt, Layout.standard.terminator_lt⟩
    let c : Ceiling := ⟨5, some wide⟩
    let now := c.afterMoves [.ofNat 2, .flag true]
    accept .nothing (.layout wide) = .ok c ∧ now.choice = .named wide ∧
      c.afterMoves [.ofNat 2, .flag true, .whole (-1)] = now ∧
      (now.shownLevel .standard (.text "001.000.000.000/")).result = .ok 2 ∧
      ∃ why, (now.shownLevel .standard (.text "01.00/")).result =
        .error (.malformed (.text "01.00/") why) := by
  intro wide c now
  have accepted : accept .nothing (.layout wide) = .ok c := rfl
  obtain ⟨_, _, chosen, refused, _, shown⟩ :=
    ceiling_shows_under_latest_limit .standard accepted [.ofNat 2, .flag true]
  have negative : ∀ n : Nat, (Value.whole (-1)) ≠ .ofNat n := by
    intro n same
    cases same
  refine ⟨accepted, chosen, (refused _ negative).2.2, ?_, ?_⟩
  · rw [((shown (.text "001.000.000.000/")).2.2 rfl).2]
    rfl
  · rw [((shown (.text "01.00/")).2.2 rfl).2]
    exact ⟨_, rfl⟩

end Ceiling

end ReplyTree
