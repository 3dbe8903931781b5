import RouteManifest.Proofs.Disk.Path
import RouteManifest.Proofs.Naming
import RouteManifest.Scan.Visit

/-!
What stands below the folder of modules, seen from the root, for every root and every folder.
A folder below the root is seen from there, one outside it is seen as it is, and where a root
lies below the folder of modules itself both can happen. In each case the names of two files
can be told apart, as long as they hold no backslashes.
-/

namespace RouteManifest.Path

theorem drop_steps_append_of_le {front : List String} {steps : Nat} (back : List String)
    (le : steps ≤ (front.filterMap stepOf?).length) :
    dropSteps steps (front ++ back) = dropSteps steps front ++ back := by
  induction front generalizing steps with
  | nil =>
      obtain rfl : steps = 0 := Nat.le_zero.mp le
      simp [dropSteps]
  | cons piece rest induction =>
      cases steps with
      | zero => simp [dropSteps]
      | succ steps =>
          cases step : stepOf? piece with
          | none =>
              rw [List.filterMap_cons_none step] at le
              simp [dropSteps, step, induction le]
          | some component =>
              rw [List.filterMap_cons_some step, List.length_cons] at le
              simp [dropSteps, step, induction (Nat.le_of_succ_le_succ le)]

theorem drop_steps_of_ordinary {names : List String}
    (ordinary : ∀ name ∈ names, isOrdinary name = true) (steps : Nat) :
    dropSteps steps names = names.drop steps := by
  induction names generalizing steps with
  | nil => cases steps <;> simp [dropSteps]
  | cons name rest induction =>
      cases steps with
      | zero => simp [dropSteps]
      | succ steps =>
          have busy := (is_ordinary_iff.mp (ordinary name List.mem_cons_self)).1
          obtain ⟨component, step⟩ := step_of_busy busy
          have later := induction (fun other member => ordinary other (List.mem_cons_of_mem _ member))
            steps
          simp [dropSteps, step, later]

theorem drop_steps_append_names {front names : List String}
    (ordinary : ∀ name ∈ names, isOrdinary name = true) {more : Nat} (some : more ≠ 0) :
    dropSteps ((front.filterMap stepOf?).length + more) (front ++ names) = names.drop more := by
  induction front with
  | nil =>
      rw [List.filterMap_nil, List.length_nil, Nat.zero_add, List.nil_append]
      exact drop_steps_of_ordinary ordinary more
  | cons piece rest induction =>
      obtain ⟨steps, count⟩ : ∃ steps, (rest.filterMap stepOf?).length + more = steps + 1 :=
        Nat.exists_eq_succ_of_ne_zero (by omega)
      rw [count] at induction
      cases step : stepOf? piece with
      | none =>
          rw [List.filterMap_cons_none step, count, List.cons_append, dropSteps, step]
          exact induction
      | some component =>
          rw [List.filterMap_cons_some step, List.length_cons, Nat.add_right_comm, count,
            List.cons_append, dropSteps, step]
          exact induction

def isStep : Component → Bool
  | .parent | .normal _ => true
  | .root | .current => false

theorem count_steps (path : String) :
    (components path).countP isStep = ((pieces path).filterMap stepOf?).length := by
  have start : (startOf path).countP isStep = 0 := by
    unfold startOf
    split
    · rfl
    · split <;> rfl
  have steps : ∀ component ∈ (pieces path).filterMap stepOf?, isStep component = true := by
    intro component member
    obtain ⟨piece, -, step⟩ := List.mem_filterMap.mp member
    unfold stepOf? at step
    split at step
    · cases step
    · split at step <;> cases step <;> rfl
  rw [components, List.countP_append, start, Nat.zero_add, List.countP_eq_length.mpr steps]

theorem components_join_names (base : String) {names : List String}
    (ordinary : ∀ name ∈ names, isOrdinary name = true) :
    components (joinNames base names) = components base ++ names.map .normal := by
  rw [components_eq, components_eq, stem_join_names base ordinary, List.filterMap_append,
    steps_of_ordinary ordinary, ← List.append_assoc]
  congr 2
  cases stem base with
  | cons first rest => rfl
  | nil =>
      cases names with
      | nil => rfl
      | cons name rest =>
          obtain ⟨busy, -, -⟩ := is_ordinary_iff.mp (ordinary name List.mem_cons_self)
          simp only [isIdle, Bool.or_eq_false_iff, decide_eq_false_iff_not] at busy
          simp [opening, busy.1, busy.2]

theorem drop_idle_end_append_names (front : List String) {names : List String}
    (nonempty : names ≠ []) (ordinary : ∀ name ∈ names, isOrdinary name = true) :
    dropIdleEnd (front ++ names) = front ++ names := by
  obtain ⟨others, last, rfl⟩ := List.eq_nil_or_concat names |>.resolve_left nonempty
  have busy := (is_ordinary_iff.mp (ordinary last (by simp))).1
  simp [dropIdleEnd, busy]

section Below

variable {root base : String} {names : List String}

theorem join_names_eq (nonempty : names ≠ [])
    (ordinary : ∀ name ∈ names, isOrdinary name = true) :
    joinNames base names = ofPieces (stem base ++ names) := by
  rw [← pieces_join_names base nonempty ordinary, of_pieces_pieces]

theorem strip_base_inside (inside : components root <+: components base) :
    ∃ kept, ∀ names : List String, names ≠ [] → (∀ name ∈ names, isOrdinary name = true) →
      stripBase? root (joinNames base names) = some (ofPieces (kept ++ names)) := by
  have le : ((pieces root).filterMap stepOf?).length ≤ ((stem base).filterMap stepOf?).length := by
    rw [← pieces_steps, ← count_steps, ← count_steps]
    exact inside.sublist.countP_le
  let dropped := dropSteps ((pieces root).filterMap stepOf?).length (stem base)
  refine ⟨if (components root).isEmpty then dropped else dropped.dropWhile isIdle, ?_⟩
  intro names nonempty ordinary
  have starts : components root <+: components (joinNames base names) := by
    rw [components_join_names base ordinary]
    exact inside.trans (List.prefix_append _ _)
  simp only [stripBase?, List.isPrefixOf_iff_prefix.mpr starts, if_true,
    pieces_join_names base nonempty ordinary, drop_steps_append_of_le names le]
  split
  · rw [drop_idle_end_append_names _ nonempty ordinary]
  · rw [List.dropWhile_append, drop_idle_of_ordinary ordinary]
    split
    · next idle =>
        rw [List.isEmpty_iff.mp idle, List.nil_append, drop_idle_end_of_ordinary ordinary]
    · rw [drop_idle_end_append_names _ nonempty ordinary]

theorem strip_base_outside {path : String} (outside : ¬ components root <+: components path) :
    stripBase? root path = none := by
  simp [stripBase?, outside]

theorem strip_base_deep (nonempty : names ≠ [])
    (ordinary : ∀ name ∈ names, isOrdinary name = true)
    (outside : ¬ components root <+: components base)
    (below : components root <+: components (joinNames base names)) :
    components root = components base ++
        (names.take ((components root).length - (components base).length)).map .normal ∧
      stripBase? root (joinNames base names) =
        some (ofPieces (names.drop ((components root).length - (components base).length))) := by
  have starts := List.isPrefixOf_iff_prefix.mpr below
  rw [components_join_names base ordinary] at below
  have above : components base <+: components root :=
    (List.prefix_or_prefix_of_prefix below (List.prefix_append _ _)).resolve_left outside
  obtain ⟨more, shape⟩ := above
  have count : (components root).length - (components base).length = more.length := by
    rw [← shape, List.length_append]
    omega
  have some : more.length ≠ 0 := by
    intro none
    rw [List.length_eq_zero_iff.mp none, List.append_nil] at shape
    exact outside (shape ▸ List.prefix_refl _)
  rw [← shape, List.prefix_append_right_inj] at below
  have firsts : more = (names.take more.length).map .normal := by
    rw [List.map_take]
    exact List.prefix_iff_eq_take.mp below
  have steps : ((pieces root).filterMap stepOf?).length =
      ((stem base).filterMap stepOf?).length + more.length := by
    have all : ∀ component ∈ more, isStep component = true := by
      intro component member
      rw [firsts] at member
      obtain ⟨name, -, rfl⟩ := List.mem_map.mp member
      rfl
    rw [← pieces_steps, ← count_steps, ← count_steps, ← shape, List.countP_append,
      List.countP_eq_length.mpr all]
  have busy : (components root).isEmpty = false := by
    apply List.isEmpty_eq_false_iff.mpr
    intro none
    exact outside (none ▸ List.nil_prefix)
  have ordinary_rest : ∀ name ∈ names.drop more.length, isOrdinary name = true :=
    fun name member => ordinary name (List.drop_subset _ _ member)
  rw [count]
  refine ⟨by rw [← firsts, shape], ?_⟩
  simp only [stripBase?, starts, if_true, pieces_join_names base nonempty ordinary, steps,
    drop_steps_append_names ordinary some, busy, Bool.false_eq_true, if_false,
    drop_idle_of_ordinary ordinary_rest, drop_idle_end_of_ordinary ordinary_rest]

end Below

def isDistinct (piece : String) : Bool := isOrdinary piece && !piece.toList.contains '\\'

theorem is_distinct_iff {piece : String} :
    isDistinct piece = true ↔ isOrdinary piece = true ∧ '\\' ∉ piece.toList := by
  simp [isDistinct]

theorem ordinary_of_distinct {names : List String} (distinct : ∀ name ∈ names, isDistinct name = true) :
    ∀ name ∈ names, isOrdinary name = true :=
  fun name member => (is_distinct_iff.mp (distinct name member)).1

section Apart

variable {first second : List String}

theorem map_slashed_of_pieces {names : List String}
    (distinct : ∀ name ∈ names, isDistinct name = true) :
    (ofPieces names).toList.map slashed = (ofPieces names).toList := by
  apply map_slashed_of_not_mem
  intro inside
  obtain ⟨name, member, within⟩ := (Text.mem_join_iff (by decide) names).mp inside
  exact (is_distinct_iff.mp (distinct name member)).2 within

theorem of_pieces_append (front : List String) {names : List String} (nonempty : names ≠ []) :
    ofPieces (front ++ names) =
      (if front = [] then "" else ofPieces front ++ "/") ++ ofPieces names := by
  split
  · next none => rw [none, List.nil_append, String.empty_append]
  · next some => rw [ofPieces, String.intercalate_append_of_ne_nil some nonempty, ofPieces, ofPieces]

theorem normal_of_pieces_inj (distinctFirst : ∀ name ∈ first, isDistinct name = true)
    (distinctSecond : ∀ name ∈ second, isDistinct name = true)
    (same : normalizePath (ofPieces first) = normalizePath (ofPieces second)) :
    first = second := by
  rw [normalize_path_eq, normalize_path_eq, map_slashed_of_pieces distinctFirst,
    map_slashed_of_pieces distinctSecond, String.ofList_toList, String.ofList_toList] at same
  rw [← stem_of_pieces (ordinary_of_distinct distinctFirst), same,
    stem_of_pieces (ordinary_of_distinct distinctSecond)]

theorem normal_append_inj (front : List String) (someFirst : first ≠ []) (someSecond : second ≠ [])
    (distinctFirst : ∀ name ∈ first, isDistinct name = true)
    (distinctSecond : ∀ name ∈ second, isDistinct name = true)
    (same : normalizePath (ofPieces (front ++ first)) =
      normalizePath (ofPieces (front ++ second))) : first = second := by
  have texts := congrArg String.toList same
  rw [of_pieces_append front someFirst, of_pieces_append front someSecond, normalize_path_eq,
    normalize_path_eq, String.toList_ofList, String.toList_ofList, String.toList_append,
    String.toList_append, List.map_append, List.map_append] at texts
  apply normal_of_pieces_inj distinctFirst distinctSecond
  rw [normalize_path_eq, normalize_path_eq, List.append_cancel_left texts]

theorem normal_of_pieces_relative {names : List String}
    (distinct : ∀ name ∈ names, isDistinct name = true) :
    isAbsolute (normalizePath (ofPieces names)) = false := by
  rw [normalize_path_eq, map_slashed_of_pieces distinct, String.ofList_toList]
  exact not_absolute_of_pieces (ordinary_of_distinct distinct)

theorem normal_of_absolute {path : String} (absolute : isAbsolute path = true) :
    isAbsolute (normalizePath path) = true := by
  simp only [isAbsolute, beq_iff_eq] at absolute ⊢
  rw [normalize_path_eq, String.toList_ofList, List.head?_map, absolute]
  rfl

/-- A path as it is seen from a root, with slashes for backslashes. -/
def seenFrom (root path : String) : String := normalizePath ((stripBase? root path).getD path)

theorem is_absolute_join {base : String} (absolute : isAbsolute base = true) (path : String) :
    isAbsolute (join base path) = true := by
  have first : base.toList.head? = some '/' := by simpa [isAbsolute] using absolute
  unfold join
  split
  · next replaced =>
      rcases (Bool.or_eq_true _ _).mp replaced with absolute | empty
      · exact absolute
      · simp [String.isEmpty_iff.mp empty] at first
  · split <;> simp [isAbsolute, first, List.head?_append]

theorem is_absolute_join_names {base : String} (absolute : isAbsolute base = true)
    (names : List String) : isAbsolute (joinNames base names) = true := by
  induction names generalizing base with
  | nil => exact absolute
  | cons name rest induction => exact induction (is_absolute_join absolute name)

theorem absolute_of_outside {root folder : String}
    (outside : ¬ components root <+: components (join root folder)) :
    isAbsolute (join root folder) = true := by
  cases relative : isAbsolute folder with
  | true => simp [join, relative]
  | false => exact absurd (components_start (stem_join root relative)) outside

theorem seen_deep_ne_outside {root base : String} (nonempty : first ≠ [])
    (distinct : ∀ name ∈ first, isDistinct name = true)
    (outside : ¬ components root <+: components base) (absolute : isAbsolute base = true)
    (deep : components root <+: components (joinNames base first))
    (shallow : ¬ components root <+: components (joinNames base second)) :
    seenFrom root (joinNames base first) ≠ seenFrom root (joinNames base second) := by
  intro same
  have away : isAbsolute (seenFrom root (joinNames base second)) = true := by
    rw [seenFrom, strip_base_outside shallow]
    exact normal_of_absolute (is_absolute_join_names absolute second)
  have near := (strip_base_deep nonempty (ordinary_of_distinct distinct) outside deep).2
  rw [← same, seenFrom, near, Option.getD_some,
    normal_of_pieces_relative fun name member => distinct name (List.drop_subset _ _ member)] at away
  cases away

/-- Names below one folder have different paths seen from a root, wherever the root and the
folder lie. -/
theorem seen_names_inj {root folder : String} (someFirst : first ≠ []) (someSecond : second ≠ [])
    (distinctFirst : ∀ name ∈ first, isDistinct name = true)
    (distinctSecond : ∀ name ∈ second, isDistinct name = true)
    (same : seenFrom root (joinNames (join root folder) first) =
      seenFrom root (joinNames (join root folder) second)) : first = second := by
  have ordinaryFirst := ordinary_of_distinct distinctFirst
  have ordinarySecond := ordinary_of_distinct distinctSecond
  by_cases inside : components root <+: components (join root folder)
  · obtain ⟨kept, seen⟩ := strip_base_inside inside
    rw [seenFrom, seenFrom, seen first someFirst ordinaryFirst,
      seen second someSecond ordinarySecond] at same
    exact normal_append_inj kept someFirst someSecond distinctFirst distinctSecond same
  have absolute := absolute_of_outside inside
  generalize join root folder = base at inside absolute same
  by_cases deepFirst : components root <+: components (joinNames base first)
  · by_cases deepSecond : components root <+: components (joinNames base second)
    · -- Both ways begin with the names that lead from the folder to the root.
      obtain ⟨rootFirst, seenFirst⟩ := strip_base_deep someFirst ordinaryFirst inside deepFirst
      obtain ⟨rootSecond, seenSecond⟩ :=
        strip_base_deep someSecond ordinarySecond inside deepSecond
      have fronts := (List.map_inj_right fun _ _ => Component.normal.inj).mp
        (List.append_cancel_left (rootFirst.symm.trans rootSecond))
      rw [seenFrom, seenFrom, seenFirst, seenSecond] at same
      have rests := normal_of_pieces_inj
        (fun name member => distinctFirst name (List.drop_subset _ _ member))
        (fun name member => distinctSecond name (List.drop_subset _ _ member)) same
      rw [← List.take_append_drop _ first, fronts, rests, List.take_append_drop]
    · exact absurd same
        (seen_deep_ne_outside someFirst distinctFirst inside absolute deepFirst deepSecond)
  · by_cases deepSecond : components root <+: components (joinNames base second)
    · exact absurd same.symm
        (seen_deep_ne_outside someSecond distinctSecond inside absolute deepSecond deepFirst)
    · rw [seenFrom, seenFrom, strip_base_outside deepFirst, strip_base_outside deepSecond,
        Option.getD_none, Option.getD_none, join_names_eq someFirst ordinaryFirst,
        join_names_eq someSecond ordinarySecond] at same
      exact normal_append_inj (stem base) someFirst someSecond distinctFirst distinctSecond same

end Apart

end RouteManifest.Path

namespace RouteManifest.ScanPlan

theorem path_of_inj {plan : ScanPlan} {first second : List FileName}
    (same : plan.pathOf first = plan.pathOf second) : first = second := by
  have stems := congrArg Path.stem same
  rw [pathOf, pathOf, Path.stem_join_names _ (FileName.texts_ordinary first),
    Path.stem_join_names _ (FileName.texts_ordinary second)] at stems
  exact FileName.map_text_inj (List.append_cancel_left stems)

/-- Files whose names hold no backslashes are told apart by their paths below the root. -/
theorem relative_inj {root : String} {settings : Settings} {first second : List FileName}
    (someFirst : first ≠ []) (someSecond : second ≠ [])
    (plainFirst : ∀ name ∈ first, '\\' ∉ name.text.toList)
    (plainSecond : ∀ name ∈ second, '\\' ∉ name.text.toList)
    (same : let plan := ofSettings root settings
      plan.relative (plan.pathOf first) = plan.relative (plan.pathOf second)) :
    first = second := by
  have distinct {names : List FileName} (plain : ∀ name ∈ names, '\\' ∉ name.text.toList) :
      ∀ text ∈ names.map FileName.text, Path.isDistinct text = true := by
    intro text member
    obtain ⟨name, inside, rfl⟩ := List.mem_map.mp member
    exact Path.is_distinct_iff.mpr ⟨name.ordinary, plain name inside⟩
  apply FileName.map_text_inj
  exact Path.seen_names_inj (by simpa using someFirst) (by simpa using someSecond)
    (distinct plainFirst) (distinct plainSecond) same

end RouteManifest.ScanPlan
