import Mathlib.Data.List.Perm.Basic
import ReplyTree.Proofs.Settings

/- Layouts from records. All names are examined before any value, and after that it only matters
   which value is under which name: what is missing is standard, and the order of the fields is
   never seen. -/
namespace ReplyTree.Layout

def Strange (name : String) : Prop := ∀ s : Setting, s.name ≠ name

theorem strange_iff {name : String} : Strange name ↔ isSettingName name = false := by
  constructor
  · intro strange
    simp only [isSettingName, List.any_eq_false, beq_iff_eq]
    exact fun s _ => strange s
  · intro unknown s same
    simp only [isSettingName, List.any_eq_false, beq_iff_eq] at unknown
    have listed : s ∈ Setting.all := by cases s <;> decide
    exact unknown s listed same

theorem nodup_eraseDups (names : List String) : names.eraseDups.Nodup := by
  -- What is left after the first name has been taken out is not the tail, only no longer than it.
  induction size : names.length using Nat.strongRecOn generalizing names with
  | ind k ih =>
    cases names with
    | nil => simp
    | cons name rest =>
      rw [List.eraseDups_cons, List.nodup_cons]
      constructor
      · simp [List.mem_eraseDups]
      · have shorter := List.length_filter_le (fun other => !other == name) rest
        rw [List.length_cons] at size
        exact ih _ (by omega) _ rfl

theorem mem_sorted_names {names : List String} {name : String} :
    name ∈ sortedNames names ↔ name ∈ names := by
  rw [sortedNames, List.mem_mergeSort, List.mem_eraseDups]

theorem sorted_names_ascending (names : List String) :
    (sortedNames names).Pairwise fun a b => a.toList < b.toList := by
  have ordered : (sortedNames names).Pairwise fun a b => decide (a ≤ b) = true := by
    apply List.pairwise_mergeSort
    · intro a b c first second
      exact decide_eq_true (String.le_trans (of_decide_eq_true first) (of_decide_eq_true second))
    · intro a b
      simpa using String.le_total a b
  have distinct : (sortedNames names).Nodup :=
    (List.mergeSort_perm _ _).nodup_iff.mpr (nodup_eraseDups names)
  refine (ordered.and distinct).imp ?_
  rintro a b ⟨before, differ⟩
  refine Classical.byContradiction fun later => differ ?_
  exact String.le_antisymm (of_decide_eq_true before) later

/-- The names of no setting that a record has, in the order of their letters and each once. -/
structure Unknown (fields : List (String × Value)) (names : List String) : Prop where
  ascending : names.Pairwise fun a b => a.toList < b.toList
  members : ∀ name, name ∈ names ↔ name ∈ fields.map Prod.fst ∧ Strange name

variable {fields fields' : List (String × Value)} {names names' : List String} {s : Setting}
  {v : Value}

theorem unknown_sorted (fields : List (String × Value)) :
    Unknown fields
      (sortedNames ((fields.map Prod.fst).filter fun name => !isSettingName name)) := by
  refine ⟨sorted_names_ascending _, ?_⟩
  intro name
  rw [mem_sorted_names, List.mem_filter, strange_iff, Bool.not_eq_true']

theorem Unknown.unique (unknown : Unknown fields names) (unknown' : Unknown fields names') :
    names = names' := by
  have distinct {names : List String} (unknown : Unknown fields names) : names.Nodup := by
    refine unknown.ascending.imp ?_
    rintro a b before rfl
    exact List.lt_irrefl _ before
  have perm : names.Perm names' := by
    rw [List.perm_ext_iff_of_nodup (distinct unknown) (distinct unknown')]
    intro name
    rw [unknown.members, unknown'.members]
  refine perm.eq_of_pairwise ?_ unknown.ascending unknown'.ascending
  intro a b _ _ before after
  exact absurd (List.lt_trans before after) (List.lt_irrefl _)

theorem Unknown.perm (unknown : Unknown fields names) (perm : fields.Perm fields') :
    Unknown fields' names := by
  refine ⟨unknown.ascending, ?_⟩
  intro name
  rw [unknown.members, (perm.map Prod.fst).mem_iff]

theorem strangers_of_names (names : List String) :
    strangers? (names.map .text) = some (names.filter fun name => !isSettingName name) := by
  induction names with
  | nil => rfl
  | cons name rest ih =>
    simp only [List.map_cons, strangers?, ih, Option.map_some, List.filter_cons]
    cases isSettingName name <;> rfl

theorem hashable_texts (names : List String) :
    Value.hashableAll (names.map .text) = true := by
  induction names with
  | nil => rfl
  | cons name rest ih => simp [Value.hashableAll, Value.hashable, ih]

theorem of_source_record (fields : List (String × Value)) :
    ofSource (.record fields) =
      match (fields.map Prod.fst).filter fun name => !isSettingName name with
      | [] => ofFields fields
      | name :: names => .error (.unknownSettings (sortedNames (name :: names))) := by
  have items : (Value.record fields).items? = some ((fields.map Prod.fst).map .text) := by
    simp [Value.items?]
  simp only [ofSource, items, if_pos (hashable_texts _), strangers_of_names]
  cases (fields.map Prod.fst).filter fun name => !isSettingName name with
  | nil => rfl
  | cons name names => rfl

theorem of_source_strange (strange : ∃ name ∈ fields.map Prod.fst, Strange name) :
    ∃ names, Unknown fields names ∧
      ofSource (.record fields) = .error (.unknownSettings names) := by
  obtain ⟨name, member, unknown⟩ := strange
  refine ⟨_, unknown_sorted fields, ?_⟩
  rw [of_source_record]
  split
  · rename_i none
    have known := List.filter_eq_nil_iff.mp none name member
    simp [strange_iff.mp unknown] at known
  · rename_i some
    rw [some]

theorem of_source_known (known : ∀ name ∈ fields.map Prod.fst, ¬ Strange name) :
    ofSource (.record fields) = ofFields fields := by
  have none : ((fields.map Prod.fst).filter fun name => !isSettingName name) = [] := by
    apply List.filter_eq_nil_iff.mpr
    intro name member unknown
    exact known name member (strange_iff.mpr (by simpa using unknown))
  simp only [of_source_record, none]

/-- The value under the name of the setting, or the standard entry if the name is not there. -/
def Chosen (fields : List (String × Value)) (s : Setting) (v : Value) : Prop :=
  (s.name, v) ∈ fields ∨ s.name ∉ fields.map Prod.fst ∧ v = standard.entry s

theorem Chosen.perm (chosen : Chosen fields s v) (perm : fields.Perm fields') :
    Chosen fields' s v := by
  rcases chosen with member | ⟨absent, rfl⟩
  · exact Or.inl (perm.mem_iff.mp member)
  · exact Or.inr ⟨fun present => absent ((perm.map Prod.fst).mem_iff.mpr present), rfl⟩

theorem lookup_of_mem (distinct : (fields.map Prod.fst).Nodup) {name : String}
    (member : (name, v) ∈ fields) : fields.lookup name = some v := by
  obtain ⟨front, back, rfl⟩ := List.append_of_mem member
  rw [List.lookup_eq_some_iff]
  refine ⟨front, back, rfl, ?_⟩
  intro field inside
  rw [List.map_append, List.map_cons, List.nodup_append] at distinct
  have differ := distinct.2.2 field.1 (List.mem_map_of_mem inside) name (by simp)
  exact bne_iff_ne.mpr (Ne.symm differ)

theorem chosen_iff (distinct : (fields.map Prod.fst).Nodup) :
    Chosen fields s v ↔ v = (fields.lookup s.name).getD (standard.entry s) := by
  cases found : fields.lookup s.name with
  | none =>
    have absent : s.name ∉ fields.map Prod.fst := by
      intro present
      obtain ⟨⟨name, w⟩, member, rfl⟩ := List.mem_map.mp present
      cases (lookup_of_mem distinct member).symm.trans found
    constructor
    · rintro (member | ⟨_, same⟩)
      · exact absurd (List.mem_map_of_mem member) absent
      · exact same
    · exact fun same => Or.inr ⟨absent, same⟩
  | some w =>
    obtain ⟨front, back, rfl, _⟩ := List.lookup_eq_some_iff.mp found
    have member : (s.name, w) ∈ front ++ (s.name, w) :: back := by simp
    constructor
    · rintro (member' | ⟨absent, _⟩)
      · exact Option.some.inj ((lookup_of_mem distinct member').symm.trans found)
      · exact absurd (List.mem_map_of_mem member) absent
    · rintro rfl
      exact Or.inl member

theorem of_fields_chosen (distinct : (fields.map Prod.fst).Nodup) :
    ∃ given : Setting → Value, (∀ s v, Chosen fields s v ↔ v = given s) ∧
      ofFields fields =
        accept (given .width) (given .limit) (given .separator) (given .terminator) :=
  ⟨fun s => (fields.lookup s.name).getD (standard.entry s), fun _ _ => chosen_iff distinct, rfl⟩

theorem of_source_perm (distinct : (fields.map Prod.fst).Nodup) (perm : fields.Perm fields') :
    ofSource (.record fields') = ofSource (.record fields) := by
  have names := perm.map Prod.fst
  by_cases strange : ∃ name ∈ fields.map Prod.fst, Strange name
  · obtain ⟨found, unknown, refused⟩ := of_source_strange strange
    obtain ⟨name, member, stranger⟩ := strange
    obtain ⟨found', unknown', refused'⟩ :=
      of_source_strange ⟨name, names.mem_iff.mp member, stranger⟩
    rw [refused, refused', unknown'.unique (unknown.perm perm)]
  · have known : ∀ name ∈ fields.map Prod.fst, ¬ Strange name := fun name member stranger =>
      strange ⟨name, member, stranger⟩
    have known' : ∀ name ∈ fields'.map Prod.fst, ¬ Strange name := fun name member =>
      known name (names.mem_iff.mpr member)
    obtain ⟨given, chosen, judged⟩ := of_fields_chosen distinct
    obtain ⟨given', chosen', judged'⟩ := of_fields_chosen (names.nodup_iff.mp distinct)
    have same : given' = given := by
      funext s
      exact ((chosen' s _).mp (((chosen s _).mpr rfl).perm perm)).symm
    rw [of_source_known known, of_source_known known', judged, judged', same]

/-- Four values make a layout exactly if its texts can be sorted. Of a record the unknown names come
    first, then its values, and the order of its fields never matters. -/
theorem settings_are_judged (given : Setting → Value) {fields : List (String × Value)}
    (distinct : (fields.map Prod.fst).Nodup) :
    (∀ answer, accept (given .width) (given .limit) (given .separator) (given .terminator) =
      answer ↔ Judged given answer) ∧
    ((∃ l, accept (given .width) (given .limit) (given .separator) (given .terminator) = .ok l) ↔
      Sortable (given .width) (given .limit) (given .separator) (given .terminator)) ∧
    (∀ fault, accept (given .width) (given .limit) (given .separator) (given .terminator) =
      .error fault → fault.family = .badValue) ∧
    ((∃ name ∈ fields.map Prod.fst, Strange name) →
      ∃ names, Unknown fields names ∧
        ofSource (.record fields) = .error (.unknownSettings names) ∧
        (Fault.unknownSettings names).family = .badValue ∧
        (Fault.unknownSettings names).message =
          "Unknown thread settings: " ++ String.intercalate ", " names) ∧
    ((∀ name ∈ fields.map Prod.fst, ¬ Strange name) →
      ∃ found : Setting → Value, (∀ s v, Chosen fields s v ↔ v = found s) ∧
        ofSource (.record fields) =
          accept (found .width) (found .limit) (found .separator) (found .terminator)) ∧
    ∀ fields', fields.Perm fields' → ofSource (.record fields') = ofSource (.record fields) := by
  refine ⟨accept_iff_judged given, accept_iff_sortable given, ?_, ?_, ?_,
    fun fields' => of_source_perm distinct⟩
  · intro fault refused
    cases (accept_iff_judged given _).mp refused with
    | unsuited _ _ => rfl
    | unordered _ _ _ _ => rfl
  · intro strange
    obtain ⟨names, unknown, refused⟩ := of_source_strange strange
    exact ⟨names, unknown, refused, rfl, rfl⟩
  · intro known
    rw [of_source_known known]
    exact of_fields_chosen distinct

theorem settings_judged_of_flag :
    let given : Setting → Value := fun s =>
      if s = .limit then .flag true else if s = .separator then .text "::" else standard.entry s
    let fields : List (String × Value) :=
      [("zeta", .nothing), ("max_depth", .flag true), ("alpha", .nothing)]
    (fields.map Prod.fst).Nodup ∧
      accept (given .width) (given .limit) (given .separator) (given .terminator) =
        .error (.badSetting .limit (.flag true)) ∧
      ofSource (.record fields) = .error (.unknownSettings ["alpha", "zeta"]) := by
  intro given fields
  have distinct : (fields.map Prod.fst).Nodup := by decide
  obtain ⟨judged, _, _, refused, _⟩ := settings_are_judged given distinct
  have flagged : ¬ Setting.limit.Suits (given .limit) := by
    rintro ⟨n, same⟩
    cases same
  have earlier : ∀ r : Setting, r.rank < Setting.limit.rank → r.Suits (given r) := by
    intro r before
    cases r with
    | width => exact ⟨2, rfl, by decide⟩
    | _ => exact absurd before (by decide)
  have alpha : Strange "alpha" := strange_iff.mpr rfl
  have zeta : Strange "zeta" := strange_iff.mpr rfl
  have unknown : Unknown fields ["alpha", "zeta"] := by
    refine ⟨by decide, ?_⟩
    intro name
    simp only [fields, List.map_cons, List.map_nil, List.mem_cons, List.not_mem_nil, or_false]
    constructor
    · rintro (rfl | rfl)
      · exact ⟨by decide, alpha⟩
      · exact ⟨by decide, zeta⟩
    · rintro ⟨rfl | rfl | rfl, stranger⟩
      · exact Or.inr rfl
      · exact absurd rfl (stranger .limit)
      · exact Or.inl rfl
  obtain ⟨names, unknown', answer, _⟩ := refused ⟨"zeta", by decide, zeta⟩
  refine ⟨distinct, (judged _).mpr (.unsuited earlier flagged), ?_⟩
  rw [answer, unknown'.unique unknown]

end ReplyTree.Layout
