import RouteManifest.Disk.Basic
import RouteManifest.Proofs.Text.Split

/-!
Paths through their pieces. The stem of a path is the list of its pieces without the empty
one behind a slash at the end, and joining paths joins their stems. An ordinary piece is a
name of something below: no dots alone and no slash. A base is removed from a path that was
joined to it with ordinary pieces, and these pieces are what is left.
-/

namespace RouteManifest.Path

def isOrdinary (piece : String) : Bool :=
  !isIdle piece && piece ≠ ".." && !piece.toList.contains '/'

/-- The pieces of a path without an empty one at the end. -/
def stem (path : String) : List String :=
  if (pieces path).getLast? = some "" then (pieces path).dropLast else pieces path

theorem is_ordinary_iff {piece : String} :
    isOrdinary piece = true ↔ isIdle piece = false ∧ piece ≠ ".." ∧ '/' ∉ piece.toList := by
  simp [isOrdinary, and_assoc]

theorem not_slash_of_ordinary {piece : String} (ordinary : isOrdinary piece = true) :
    '/' ∉ piece.toList := (is_ordinary_iff.mp ordinary).2.2

theorem pieces_ne_nil (path : String) : pieces path ≠ [] := by
  simp [pieces, List.splitOn_ne_nil]

theorem pieces_append_slash (front back : String) :
    pieces (front ++ "/" ++ back) = pieces front ++ pieces back := by
  have symbols : (front ++ "/" ++ back).toList = front.toList ++ '/' :: back.toList := by simp
  rw [pieces, symbols, List.splitOn_append_cons_self, List.map_append, pieces, pieces]

theorem of_pieces_pieces (path : String) : ofPieces (pieces path) = path := by
  apply String.toList_injective
  rw [ofPieces, String.toList_intercalate, pieces, List.map_map]
  simp [Function.comp_def, List.intercalate_splitOn]

theorem pieces_of_pieces {parts : List String} (nonempty : parts ≠ [])
    (whole : ∀ part ∈ parts, '/' ∉ part.toList) : pieces (ofPieces parts) = parts := by
  have cut : (ofPieces parts).toList.splitOn '/' = parts.map String.toList :=
    Text.split_on_join rfl nonempty whole
  rw [pieces, cut, List.map_map]
  simp [Function.comp_def]

theorem stem_of_pieces_append_blank {path : String} {front : List String}
    (shape : pieces path = front ++ [""]) : stem path = front := by
  simp [stem, shape]

theorem stem_of_solid_end {path : String} (solid : (pieces path).getLast? ≠ some "") :
    stem path = pieces path := by
  simp [stem, solid]

theorem pieces_eq_stem (path : String) :
    pieces path = stem path ++ [""] ∨
      (pieces path = stem path ∧ (pieces path).getLast? ≠ some "") := by
  by_cases blank : (pieces path).getLast? = some ""
  · obtain ⟨front, shape⟩ := List.getLast?_eq_some_iff.mp blank
    exact .inl (by rw [stem_of_pieces_append_blank shape, shape])
  · exact .inr ⟨(stem_of_solid_end blank).symm, blank⟩

theorem stem_of_pieces {parts : List String} (ordinary : ∀ part ∈ parts, isOrdinary part = true) :
    stem (ofPieces parts) = parts := by
  cases parts with
  | nil => decide
  | cons part rest =>
      have cut := pieces_of_pieces (List.cons_ne_nil part rest) fun other member =>
        not_slash_of_ordinary (ordinary other member)
      rw [stem_of_solid_end, cut]
      rw [cut]
      intro last
      have blank := ordinary "" (List.mem_of_getLast? last)
      exact absurd blank (by decide)

theorem pieces_of_ordinary {name : String} (ordinary : isOrdinary name = true) :
    pieces name = [name] := by
  have single := @pieces_of_pieces [name] (by simp) (by simpa using not_slash_of_ordinary ordinary)
  rwa [ofPieces, String.intercalate_singleton] at single

theorem stem_of_ordinary {name : String} (ordinary : isOrdinary name = true) :
    stem name = [name] := by
  have single := @stem_of_pieces [name] (by simpa using ordinary)
  rwa [ofPieces, String.intercalate_singleton] at single

theorem stem_append_slash (front : String) : stem (front ++ "/") = pieces front := by
  have cut := pieces_append_slash front ""
  rw [String.append_empty] at cut
  exact stem_of_pieces_append_blank (cut.trans (by congr 1))

theorem ends_in_slash_of_blank_end {path : String} (nonempty : path ≠ "")
    (blank : pieces path = stem path ++ [""]) : ∃ front, path = front ++ "/" := by
  have whole := of_pieces_pieces path
  rw [blank] at whole
  by_cases none : stem path = []
  · rw [none] at whole
    exact absurd whole.symm nonempty
  · rw [ofPieces, String.intercalate_append_of_ne_nil none (by simp)] at whole
    exact ⟨"/".intercalate (stem path), by simpa using whole.symm⟩

theorem pieces_join (base : String) {path : String} (relative : isAbsolute path = false) :
    pieces (join base path) = stem base ++ pieces path := by
  by_cases none : base = ""
  · subst none
    have joined : join "" path = path := by simp [join]
    rw [joined]
    rfl
  by_cases slash : base.toList.getLast? = some '/'
  · obtain ⟨symbols, shape⟩ := List.getLast?_eq_some_iff.mp slash
    have split : base = String.ofList symbols ++ "/" := by
      apply String.toList_injective
      simpa using shape
    have joined : join base path = String.ofList symbols ++ "/" ++ path := by
      simp [join, relative, none, slash, ← split]
    rw [joined, pieces_append_slash, split, stem_append_slash]
  · have joined : join base path = base ++ "/" ++ path := by
      simp [join, relative, none, slash]
    rcases pieces_eq_stem base with blank | ⟨kept, -⟩
    · obtain ⟨front, rfl⟩ := ends_in_slash_of_blank_end none blank
      exact absurd (by simp) slash
    · rw [joined, pieces_append_slash, kept]

theorem stem_join (base : String) {path : String} (relative : isAbsolute path = false) :
    stem (join base path) = stem base ++ stem path := by
  have joined := pieces_join base relative
  rcases pieces_eq_stem path with blank | ⟨kept, solid⟩
  · rw [blank, ← List.append_assoc] at joined
    exact stem_of_pieces_append_blank joined
  · have last : (pieces (join base path)).getLast? = (pieces path).getLast? := by
      rw [joined, List.getLast?_append]
      cases ends : (pieces path).getLast? with
      | none => exact absurd (List.getLast?_eq_none_iff.mp ends) (pieces_ne_nil path)
      | some last => rfl
    rw [stem_of_solid_end (last ▸ solid), joined, kept]

theorem not_absolute_of_ordinary {name : String} (ordinary : isOrdinary name = true) :
    isAbsolute name = false := by
  apply Bool.eq_false_iff.mpr
  intro absolute
  apply not_slash_of_ordinary ordinary
  simp only [isAbsolute, beq_iff_eq] at absolute
  exact List.mem_of_head? absolute

theorem not_absolute_of_pieces_cons {part : String} (rest : List String)
    (ordinary : isOrdinary part = true) : isAbsolute (ofPieces (part :: rest)) = false := by
  have relative := not_absolute_of_ordinary ordinary
  have busy := (is_ordinary_iff.mp ordinary).1
  have solid : part.toList ≠ [] := fun none => by simp_all [isIdle]
  obtain ⟨symbol, symbols, shape⟩ := List.exists_cons_of_ne_nil solid
  rw [isAbsolute, shape] at relative
  cases rest with
  | nil => simpa [isAbsolute, ofPieces, shape] using relative
  | cons other rest =>
      simpa [isAbsolute, ofPieces, String.intercalate_cons_cons, shape] using relative

theorem not_absolute_of_pieces {parts : List String}
    (ordinary : ∀ part ∈ parts, isOrdinary part = true) : isAbsolute (ofPieces parts) = false := by
  cases parts with
  | nil => decide
  | cons part rest => exact not_absolute_of_pieces_cons rest (ordinary part List.mem_cons_self)

theorem stem_join_names (base : String) {names : List String}
    (ordinary : ∀ name ∈ names, isOrdinary name = true) :
    stem (joinNames base names) = stem base ++ names := by
  induction names generalizing base with
  | nil => rw [joinNames, List.foldl_nil, List.append_nil]
  | cons name rest induction =>
      have first := ordinary name List.mem_cons_self
      have later := induction (join base name)
        (fun other member => ordinary other (List.mem_cons_of_mem _ member))
      rw [joinNames, List.foldl_cons, ← joinNames, later,
        stem_join base (not_absolute_of_ordinary first), stem_of_ordinary first]
      simp

theorem pieces_join_names (base : String) {names : List String} (nonempty : names ≠ [])
    (ordinary : ∀ name ∈ names, isOrdinary name = true) :
    pieces (joinNames base names) = stem base ++ names := by
  obtain ⟨front, last, rfl⟩ := List.eq_nil_or_concat names |>.resolve_left nonempty
  rw [List.concat_eq_append] at ordinary ⊢
  have ordinary_last := ordinary last (by simp)
  have front_stem : stem (joinNames base front) = stem base ++ front :=
    stem_join_names base fun name member => ordinary name (List.mem_append_left _ member)
  have joined : joinNames base (front ++ [last]) = join (joinNames base front) last := by
    simp [joinNames]
  rw [joined, pieces_join _ (not_absolute_of_ordinary ordinary_last), front_stem,
    pieces_of_ordinary ordinary_last, List.append_assoc]

theorem join_size_le (base path : String) :
    (join base path).utf8ByteSize ≤ base.utf8ByteSize + 1 + path.utf8ByteSize := by
  have slash : "/".utf8ByteSize = 1 := rfl
  unfold join
  split
  · omega
  · split <;> simp only [String.utf8ByteSize_append] <;> omega

/-- What a path starts with, read off the first piece of its stem. -/
def opening : List String → List Component
  | [] => []
  | first :: _ => if first = "" then [.root] else if first = "." then [.current] else []

theorem stem_of_pieces_cons {path first : String} {others : List String}
    (cut : pieces path = first :: others) (more : first ≠ "" ∨ others ≠ []) :
    ∃ rest, stem path = first :: rest := by
  rcases pieces_eq_stem path with blank | ⟨kept, -⟩
  · rw [cut] at blank
    cases shape : stem path with
    | nil =>
        rw [shape, List.nil_append] at blank
        obtain ⟨empty, nothing⟩ := List.cons.inj blank
        exact absurd more (by simp [empty, nothing])
    | cons other rest =>
        rw [shape, List.cons_append] at blank
        exact ⟨rest, by rw [(List.cons.inj blank).1]⟩
  · exact ⟨others, by rw [← kept, cut]⟩

theorem start_of_absolute (rest : String) :
    startOf ("/" ++ rest) = opening (stem ("/" ++ rest)) := by
  have cut : pieces ("/" ++ rest) = "" :: pieces rest := by
    have cut := pieces_append_slash "" rest
    rwa [String.empty_append] at cut
  obtain ⟨others, shape⟩ := stem_of_pieces_cons cut (.inr (pieces_ne_nil rest))
  simp [startOf, isAbsolute, shape, opening]

theorem start_of_relative {path first : String} {others : List String}
    (relative : isAbsolute path = false) (cut : pieces path = first :: others)
    (solid : first ≠ "") : startOf path = opening (stem path) := by
  obtain ⟨rest, shape⟩ := stem_of_pieces_cons cut (.inl solid)
  simp [startOf, relative, cut, shape, opening, solid]

theorem start_of_eq (path : String) : startOf path = opening (stem path) := by
  cases symbols : path.toList with
  | nil =>
      obtain rfl : path = "" := String.toList_injective (by simpa using symbols)
      decide
  | cons symbol rest =>
      by_cases slash : symbol = '/'
      · have split : path = "/" ++ String.ofList rest := by
          apply String.toList_injective
          simpa [slash] using symbols
        rw [split]
        exact start_of_absolute _
      · have relative : isAbsolute path = false := by simp [isAbsolute, symbols, slash]
        cases later : rest.splitOn '/' with
        | nil => exact absurd later (List.splitOn_ne_nil _ _)
        | cons more others =>
            have cut : pieces path =
                String.ofList (symbol :: more) :: others.map String.ofList := by
              rw [pieces, symbols, List.splitOn_cons_eq_if_modifyHead, later]
              simp [slash]
            exact start_of_relative relative cut (by simp)

theorem components_eq (path : String) :
    components path = opening (stem path) ++ (stem path).filterMap stepOf? := by
  rw [components, start_of_eq]
  rcases pieces_eq_stem path with blank | ⟨kept, -⟩
  · rw [blank, List.filterMap_append]
    simp [stepOf?, isIdle]
  · rw [kept]

theorem pieces_steps (path : String) :
    (pieces path).filterMap stepOf? = (stem path).filterMap stepOf? := by
  rcases pieces_eq_stem path with blank | ⟨kept, -⟩
  · rw [blank, List.filterMap_append]
    simp [stepOf?, isIdle]
  · rw [kept]

theorem step_of_busy {piece : String} (busy : isIdle piece = false) :
    ∃ component, stepOf? piece = some component := by
  rw [stepOf?, if_neg (by simp [busy])]
  split
  · exact ⟨.parent, rfl⟩
  · exact ⟨.normal piece, rfl⟩

theorem steps_of_ordinary {names : List String}
    (ordinary : ∀ name ∈ names, isOrdinary name = true) :
    names.filterMap stepOf? = names.map .normal := by
  induction names with
  | nil => rfl
  | cons name rest induction =>
      obtain ⟨busy, notParent, -⟩ := is_ordinary_iff.mp (ordinary name List.mem_cons_self)
      have step : stepOf? name = some (.normal name) := by simp [stepOf?, busy, notParent]
      have later := induction fun other member => ordinary other (List.mem_cons_of_mem _ member)
      rw [List.filterMap_cons_some step, later, List.map_cons]

/-- Dropping all steps of the front leaves at most some of its idle pieces. -/
theorem drop_steps_append (front back : List String) :
    ∃ idle, (∀ piece ∈ idle, isIdle piece = true) ∧
      dropSteps (front.filterMap stepOf?).length (front ++ back) = idle ++ back := by
  induction front with
  | nil => exact ⟨[], by simp, by simp [dropSteps]⟩
  | cons piece rest induction =>
      obtain ⟨idle, all, dropped⟩ := induction
      cases still : isIdle piece with
      | true =>
          have none : stepOf? piece = none := by simp [stepOf?, still]
          rw [List.filterMap_cons_none none, List.cons_append]
          -- With no step left to drop, the idle pieces at the end of the front stay.
          cases steps : (rest.filterMap stepOf?).length with
          | zero =>
              rw [steps, dropSteps] at dropped
              refine ⟨piece :: idle, ?_, by rw [dropSteps, dropped, List.cons_append]⟩
              simpa [still] using all
          | succ steps =>
              rw [steps] at dropped
              exact ⟨idle, all, by simp [dropSteps, none, dropped]⟩
      | false =>
          obtain ⟨component, step⟩ := step_of_busy still
          rw [List.filterMap_cons_some step, List.length_cons, List.cons_append]
          exact ⟨idle, all, by simp [dropSteps, step, dropped]⟩

theorem drop_idle_of_ordinary {names : List String}
    (ordinary : ∀ name ∈ names, isOrdinary name = true) : names.dropWhile isIdle = names := by
  cases names with
  | nil => rfl
  | cons name rest =>
      have busy := (is_ordinary_iff.mp (ordinary name List.mem_cons_self)).1
      rw [List.dropWhile_cons, if_neg (by simp [busy])]

theorem drop_idle_end_of_ordinary {names : List String}
    (ordinary : ∀ name ∈ names, isOrdinary name = true) : dropIdleEnd names = names := by
  rw [dropIdleEnd, drop_idle_of_ordinary, List.reverse_reverse]
  intro name member
  exact ordinary name (List.mem_reverse.mp member)

theorem components_eq_nil_iff {path : String} : components path = [] ↔ stem path = [] := by
  rw [components_eq]
  constructor
  · intro none
    obtain ⟨noStart, noSteps⟩ := List.append_eq_nil_iff.mp none
    cases shape : stem path with
    | nil => rfl
    | cons first rest =>
        rw [shape] at noStart noSteps
        have blank : first ≠ "" := fun same => by simp [same, opening] at noStart
        have dot : first ≠ "." := fun same => by simp [same, opening] at noStart
        have busy : isIdle first = false := by simp [isIdle, blank, dot]
        obtain ⟨component, step⟩ := step_of_busy busy
        rw [List.filterMap_cons_some step] at noSteps
        exact absurd noSteps (List.cons_ne_nil _ _)
  · intro none
    rw [none]
    rfl

theorem components_start {base path : String} {names : List String}
    (shape : stem path = stem base ++ names) : components base <+: components path := by
  rw [components_eq, components_eq, shape, List.filterMap_append]
  cases stem base with
  | nil => exact List.nil_prefix
  | cons first rest =>
      have same : opening (first :: rest ++ names) = opening (first :: rest) := rfl
      rw [same, ← List.append_assoc]
      exact List.prefix_append _ _

theorem strip_base_of_pieces {base path : String} {names : List String}
    (ordinary : ∀ name ∈ names, isOrdinary name = true)
    (shape : pieces path = stem base ++ names) (whole : stem path = pieces path) :
    stripBase? base path = some (ofPieces names) := by
  have starts := components_start (whole.trans shape)
  obtain ⟨idle, all, dropped⟩ := drop_steps_append (stem base) names
  simp only [stripBase?, List.isPrefixOf_iff_prefix.mpr starts, if_true, pieces_steps, shape, dropped]
  by_cases none : stem base = []
  · have empty := components_eq_nil_iff.mpr none
    rw [none] at dropped
    simp only [List.filterMap_nil, List.length_nil, List.nil_append, dropSteps] at dropped
    simp only [empty, List.isEmpty_nil, if_true]
    rw [← dropped, drop_idle_end_of_ordinary ordinary]
  · have busy : (components base).isEmpty = false :=
      List.isEmpty_eq_false_iff.mpr (mt components_eq_nil_iff.mp none)
    simp only [busy, Bool.false_eq_true, if_false]
    rw [List.dropWhile_append_of_pos all, drop_idle_of_ordinary ordinary,
      drop_idle_end_of_ordinary ordinary]

theorem stem_join_of_pieces (root : String) {parts : List String}
    (ordinary : ∀ part ∈ parts, isOrdinary part = true) :
    stem (join root (ofPieces parts)) = stem root ++ parts := by
  rw [stem_join root (not_absolute_of_pieces ordinary), stem_of_pieces ordinary]

theorem pieces_below_folder (root : String) {parts names : List String}
    (ordinaryParts : ∀ part ∈ parts, isOrdinary part = true) (nonempty : names ≠ [])
    (ordinaryNames : ∀ name ∈ names, isOrdinary name = true) :
    pieces (joinNames (join root (ofPieces parts)) names) = stem root ++ (parts ++ names) := by
  rw [pieces_join_names _ nonempty ordinaryNames, stem_join_of_pieces root ordinaryParts,
    List.append_assoc]

/-- What is reached by names below a folder below a root, seen from that root. -/
theorem strip_base_join_names (root : String) {parts names : List String}
    (ordinaryParts : ∀ part ∈ parts, isOrdinary part = true) (nonempty : names ≠ [])
    (ordinaryNames : ∀ name ∈ names, isOrdinary name = true) :
    stripBase? root (joinNames (join root (ofPieces parts)) names) =
      some (ofPieces (parts ++ names)) := by
  have cut := pieces_below_folder root ordinaryParts nonempty ordinaryNames
  have whole := stem_join_names (join root (ofPieces parts)) ordinaryNames
  rw [stem_join_of_pieces root ordinaryParts, List.append_assoc] at whole
  apply strip_base_of_pieces ?_ cut (whole.trans cut.symm)
  intro name member
  exact (List.mem_append.mp member).elim (ordinaryParts name) (ordinaryNames name)

end RouteManifest.Path

namespace RouteManifest

theorem FileName.text_inj : Function.Injective FileName.text := by
  rintro ⟨text, valid⟩ ⟨other, alsoValid⟩ rfl
  rfl

theorem FileName.map_text_inj {first second : List FileName}
    (same : first.map FileName.text = second.map FileName.text) : first = second :=
  (List.map_inj_right FileName.text_inj).mp same

theorem FileName.ordinary (name : FileName) : Path.isOrdinary name.text = true := by
  have valid := name.valid
  simp only [isFileName, Bool.and_eq_true, decide_eq_true_eq, Bool.not_eq_true',
    List.contains_eq_mem, decide_eq_false_iff_not] at valid
  simp [Path.is_ordinary_iff, Path.isIdle, valid]

theorem FileName.texts_ordinary (names : List FileName) :
    ∀ text ∈ names.map FileName.text, Path.isOrdinary text = true := by
  intro text member
  obtain ⟨name, -, rfl⟩ := List.mem_map.mp member
  exact name.ordinary

end RouteManifest
