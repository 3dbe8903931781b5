import RouteManifest.Proofs.Scan.Session

/-!
What the route of a scanned file says about the name of the file. The path of a file ends in its
name, seen from any root, so the name is a stem with the verb and the extension behind it, and the
route ends in that stem. The convention asks for a route but for no stem: a name that starts with
the dot in front of its verb gives the route of its folder with a slash behind it. A stem that ends
in a backslash does the same.
-/

namespace RouteManifest

open RouteManifest.Scan

namespace Path

theorem last_piece_blank_iff {path : String} :
    (pieces path).getLast? = some "" ↔ path = "" ∨ path.toList.getLast? = some '/' := by
  constructor
  · intro blank
    by_cases none : path = ""
    · exact .inl none
    · rcases pieces_eq_stem path with shape | ⟨-, solid⟩
      · obtain ⟨front, rfl⟩ := ends_in_slash_of_blank_end none shape
        exact .inr (by simp)
      · exact absurd blank solid
  · rintro (rfl | slash)
    · decide
    · obtain ⟨front, shape⟩ := List.getLast?_eq_some_iff.mp slash
      have split : path = String.ofList front ++ "/" ++ "" := by
        apply String.toList_injective
        simp [shape]
      have blank : pieces "" = [""] := by decide
      rw [split, pieces_append_slash, blank, List.getLast?_concat]

theorem normal_of_pieces_ends (kept : List String) (name : String) :
    ∃ front : List Char, (front = [] ∨ front.getLast? = some '/') ∧
      (normalizePath (ofPieces (kept ++ [name]))).toList = front ++ name.toList.map slashed := by
  have single : ofPieces [name] = name := String.intercalate_singleton
  refine ⟨(if kept = [] then "" else ofPieces kept ++ "/").toList.map slashed, ?_, ?_⟩
  · split
    · exact .inl (by simp)
    · exact .inr (by simp [slashed])
  · rw [of_pieces_append kept (by simp), single, normalize_path_eq, String.toList_ofList,
      String.toList_append, List.map_append]

/-- From wherever a file is seen, its name stands at the end, unless nothing of it is seen. -/
theorem seen_ends (root base : String) {names : List String} {name : String}
    (ordinary : ∀ other ∈ names ++ [name], isOrdinary other = true) :
    seenFrom root (joinNames base (names ++ [name])) = "" ∨
      ∃ front : List Char, (front = [] ∨ front.getLast? = some '/') ∧
        (seenFrom root (joinNames base (names ++ [name]))).toList =
          front ++ name.toList.map slashed := by
  have some : names ++ [name] ≠ [] := by simp
  by_cases inside : components root <+: components base
  · obtain ⟨kept, seen⟩ := strip_base_inside inside
    rw [seenFrom, seen _ some ordinary, Option.getD_some, ← List.append_assoc]
    exact .inr (normal_of_pieces_ends _ name)
  by_cases deep : components root <+: components (joinNames base (names ++ [name]))
  · rw [seenFrom, (strip_base_deep some ordinary inside deep).2, Option.getD_some]
    generalize (components root).length - (components base).length = count
    by_cases within : count ≤ names.length
    · rw [List.drop_append_of_le_length within]
      exact .inr (normal_of_pieces_ends _ name)
    · have beyond : (names ++ [name]).drop count = [] := by
        rw [List.drop_eq_nil_iff, List.length_append, List.length_singleton]
        omega
      rw [beyond]
      exact .inl (by decide)
  · rw [seenFrom, strip_base_outside deep, Option.getD_none, join_names_eq some ordinary,
      ← List.append_assoc]
    exact .inr (normal_of_pieces_ends _ name)

end Path

def endingOf (verb : Verb) (extension : String) : String := "." ++ verb.toText ++ "." ++ extension

theorem ending_eq (verb : Verb) (extension : String) :
    (endingOf verb extension).toList = '.' :: (verb.toText.toList ++ '.' :: extension.toList) := by
  simp [endingOf]

theorem slash_mem_ending_iff {verb : Verb} {extension : String} :
    '/' ∈ (endingOf verb extension).toList ↔ '/' ∈ extension.toList := by
  have plain : '/' ∉ verb.toText.toList := by cases verb <;> decide
  simp [ending_eq, plain]

theorem cut_behind_slash {front name route ending : List Char}
    (closed : front = [] ∨ front.getLast? = some '/') (plain : '/' ∉ ending)
    (same : front ++ name = route ++ ending) :
    ∃ stem, name = stem ++ ending ∧ route = front ++ stem := by
  rcases List.append_eq_append_iff.mp same with ⟨stem, behind, shape⟩ | ⟨between, shape, whole⟩
  · exact ⟨stem, shape, behind⟩
  · rcases List.eq_nil_or_concat between with rfl | ⟨others, last, rfl⟩
    · exact ⟨[], by simpa using whole.symm, by simpa using shape.symm⟩
    · have slash : last = '/' := by
        rcases closed with none | ended
        · simp [shape] at none
        · simpa [shape] using ended
      exact absurd (by simp [whole, slash]) plain

theorem eq_of_map_slashed {text plain : List Char} (same : text.map slashed = plain)
    (noSlash : '/' ∉ plain) : text = plain := by
  rw [← same]
  symm
  apply map_slashed_of_not_mem
  intro backslash
  apply noSlash
  rw [← same]
  exact List.mem_map.mpr ⟨'\\', backslash, rfl⟩

theorem slashed_eq_slash_iff {character : Char} :
    slashed character = '/' ↔ character = '/' ∨ character = '\\' := by
  rw [slashed]
  split
  · next backslash => simp [backslash]
  · next other => simp [other]

/-- A file is named by a stem, its verb and the extension, and its route goes on behind the last
slash. -/
structure NamesFile (extension : String) (name : FileName) (file : ScriptFile) : Prop where
  stem : ∃ stem, stem ≠ "" ∧ name.text = stem ++ endingOf file.verb extension
  last : (Path.pieces file.route).getLast? ≠ some ""
  closed : file.route.toList.getLast? ≠ some '/'

namespace ScanPlan

variable {plan : ScanPlan} {names : List FileName} {name : FileName} {routed : RoutedName}

theorem relative_ends (plan : ScanPlan) (names : List FileName) (name : FileName) :
    plan.relative (plan.pathOf (names ++ [name])) = "" ∨
      ∃ front : List Char, (front = [] ∨ front.getLast? = some '/') ∧
        (plan.relative (plan.pathOf (names ++ [name]))).toList =
          front ++ name.text.toList.map slashed := by
  have texts : (names ++ [name]).map FileName.text = names.map FileName.text ++ [name.text] := by
    rw [List.map_append, List.map_singleton]
  rw [pathOf, texts]
  exact Path.seen_ends plan.root plan.base (texts ▸ FileName.texts_ordinary _)

theorem stem_of_gives (gives : plan.Gives (names ++ [name]) routed)
    (noSlash : '/' ∉ plan.extension.toList) :
    ∃ front stem : List Char, (front = [] ∨ front.getLast? = some '/') ∧
      name.text.toList = stem ++ (endingOf routed.verb plan.extension).toList ∧
      routed.route.toList = front ++ stem.map slashed := by
  have plain : '/' ∉ (endingOf routed.verb plan.extension).toList :=
    mt slash_mem_ending_iff.mp noSlash
  have written := path_of_routed gives.named
  rw [List.append_assoc, List.cons_append, ← ending_eq] at written
  rcases plan.relative_ends names name with none | ⟨front, closed, seen⟩
  · rw [none] at written
    exact absurd written.symm (by simp [route_nonempty gives.named])
  · obtain ⟨stem, shape, route⟩ := cut_behind_slash closed plain (seen.symm.trans written)
    obtain ⟨own, ending, split, rfl, slashes⟩ := List.map_eq_append_iff.mp shape
    refine ⟨front, own, closed, ?_, route⟩
    rw [split, eq_of_map_slashed slashes plain]

/-- The route of a file that is given ends in a slash when its name has no stem, or one that ends
in a backslash. -/
theorem route_open_iff (gives : plan.Gives (names ++ [name]) routed)
    (noSlash : '/' ∉ plan.extension.toList) :
    ∃ stem : List Char, name.text.toList = stem ++ (endingOf routed.verb plan.extension).toList ∧
      (routed.route.toList.getLast? = some '/' ↔ stem = [] ∨ stem.getLast? = some '\\') := by
  obtain ⟨front, stem, closed, named, route⟩ := stem_of_gives gives noSlash
  have noSlashes : '/' ∉ name.text.toList := Path.not_slash_of_ordinary name.ordinary
  refine ⟨stem, named, ?_⟩
  rw [route]
  rcases List.eq_nil_or_concat stem with rfl | ⟨others, last, rfl⟩
  · rw [List.map_nil, List.append_nil] at route ⊢
    exact iff_of_true (closed.resolve_left (route ▸ route_nonempty gives.named)) (.inl rfl)
  · have other : last ≠ '/' := by
      rintro rfl
      exact noSlashes (by simp [named])
    simp [slashed_eq_slash_iff, other]

theorem names_file_iff (gives : plan.Gives (names ++ [name]) routed) :
    NamesFile plan.extension name (plan.fileOf (names ++ [name], routed)) ↔
      '/' ∉ plan.extension.toList ∧ name.text ≠ endingOf routed.verb plan.extension ∧
        ¬ '\\' :: (endingOf routed.verb plan.extension).toList <:+ name.text.toList := by
  constructor
  · intro names
    obtain ⟨stem, some, shape⟩ := names.stem
    have noSlash : '/' ∉ plan.extension.toList := by
      intro slash
      apply Path.not_slash_of_ordinary name.ordinary
      rw [shape, String.toList_append]
      exact List.mem_append_right _ (slash_mem_ending_iff.mpr slash)
    obtain ⟨text, named, opens⟩ := route_open_iff gives noSlash
    obtain ⟨nonempty, noBackslash⟩ := not_or.mp (mt opens.mpr names.closed)
    refine ⟨noSlash, ?_, ?_⟩
    · intro bare
      rw [bare] at named
      exact nonempty (List.self_eq_append_left.mp named)
    · rintro ⟨front, split⟩
      rw [named, ← List.singleton_append, ← List.append_assoc] at split
      rw [← List.append_cancel_right split] at noBackslash
      simp at noBackslash
  · rintro ⟨noSlash, notBare, noBackslash⟩
    obtain ⟨stem, named, opens⟩ := route_open_iff gives noSlash
    have some : stem ≠ [] := by
      rintro rfl
      exact notBare (String.toList_injective named)
    have closed : routed.route.toList.getLast? ≠ Option.some '/' := by
      intro slash
      obtain ⟨front, rfl⟩ := List.getLast?_eq_some_iff.mp ((opens.mp slash).resolve_left some)
      exact noBackslash ⟨front, by simp [named]⟩
    refine ⟨⟨String.ofList stem, ?_, ?_⟩, ?_, closed⟩
    · exact mt String.toList_eq_nil_iff.mpr (by simpa using some)
    · apply String.toList_injective
      rw [named, String.toList_append, String.toList_ofList]
      rfl
    · rw [Ne, Path.last_piece_blank_iff, not_or]
      exact ⟨mt String.toList_eq_nil_iff.mpr (route_nonempty gives.named), closed⟩

end ScanPlan

/-- Every file that a scan gives, whatever happens around it, is named by its route exactly when
its name is more than a verb and an extension, with no backslash in front of them. An extension
with a slash names no file. -/
theorem route_names_file_iff (plan : ScanPlan) (disk : Disk) (events : List Event)
    {file : ScriptFile} (given : file ∈ filesOf (Session.answers plan { disk } events)) :
    ∃ names name, file.path = plan.pathOf (names ++ [name]) ∧
      (NamesFile plan.extension name file ↔
        '/' ∉ plan.extension.toList ∧ name.text ≠ endingOf file.verb plan.extension ∧
          ¬ '\\' :: (endingOf file.verb plan.extension).toList <:+ name.text.toList) := by
  have started : Session.scan { disk } = start := rfl
  obtain ⟨found, files, -, -, gives⟩ := Session.answers_ordered (started ▸ start_ordered) events
  rw [files] at given
  obtain ⟨⟨path, routed⟩, member, rfl⟩ := List.mem_map.mp given
  have follows := gives path routed member
  rcases List.eq_nil_or_concat path with rfl | ⟨names, name, rfl⟩
  · exact absurd follows.deep (by decide)
  · rw [List.concat_eq_append] at follows
    refine ⟨names, name, by rw [List.concat_eq_append]; rfl, ?_⟩
    rw [List.concat_eq_append]
    exact ScanPlan.names_file_iff follows

open Discovery in
/-- The first file of the shop has a stem, and its route ends in it. -/
theorem route_names_cart :
    cartFile ∈ filesOf (Session.answers (ScanPlan.ofSettings "top" {}) { disk := shopDisk } [.next]) ∧
    NamesFile "hl" ⟨"cart.put.hl", by decide⟩ cartFile := by
  have given : cartFile ∈
      filesOf (Session.answers (ScanPlan.ofSettings "top" {}) { disk := shopDisk } [.next]) := by
    rw [shop_session_cart]
    exact List.mem_singleton_self _
  refine ⟨given, ?_⟩
  obtain ⟨names, name, path, names_iff⟩ := route_names_file_iff _ shopDisk [.next] given
  have shown : cartFile.path = (ScanPlan.ofSettings "top" {}).pathOf
      ([⟨"shop", by decide⟩] ++ [⟨"cart.put.hl", by decide⟩]) := by
    decide
  obtain ⟨-, last⟩ := List.append_inj' (ScanPlan.path_of_inj (shown.symm.trans path)) rfl
  obtain rfl := List.singleton_inj.mp last
  exact names_iff.mpr (by decide)

def bareDisk : Disk := loneDisk ⟨"bare", by decide⟩ ⟨".get.hl", by decide⟩ .empty

def bareFile : ScriptFile := ⟨"top/modules/bare/.get.hl", "modules/bare/", .get⟩

theorem bare_file_listed :
    start.rest (ScanPlan.ofSettings "top" {}) bareDisk false = [.ok bareFile] := by
  have given : (ScanPlan.ofSettings "top" {}).fileOf
      ([⟨"bare", by decide⟩, ⟨".get.hl", by decide⟩], ⟨"modules/bare/", .get⟩) = bareFile := by
    decide
  rw [← given]
  exact lone_disk_listed _ _ _ rfl (by decide) (by decide) (by decide)

/-- A scan gives a file without a stem, whose route names its folder only. -/
theorem not_every_route_names_file :
    ¬ ∀ (plan : ScanPlan) (disk : Disk) (events : List Event) (file : ScriptFile),
      file ∈ filesOf (Session.answers plan { disk } events) →
        ∃ names name, file.path = plan.pathOf (names ++ [name]) ∧
          NamesFile plan.extension name file := by
  intro every
  have given : bareFile ∈
      filesOf (Session.answers (ScanPlan.ofSettings "top" {}) { disk := bareDisk } [.next]) := by
    rw [answers_first bare_file_listed]
    exact List.mem_singleton_self _
  obtain ⟨names, name, -, named⟩ := every _ bareDisk [.next] bareFile given
  exact named.closed (by decide)

end RouteManifest
