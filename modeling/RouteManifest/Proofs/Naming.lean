import RouteManifest.Naming
import RouteManifest.Proofs.Text.Split

/-!
The naming convention backwards. A path follows the convention exactly when it is written by it,
so the route and the verb of a path give the path back. An endpoint path gives its route back, so
neither step brings two files together. Turning backslashes into slashes does, unless there are
none.
-/

namespace RouteManifest

open RouteManifest.Text

theorem verb_of_text {text : String} {verb : Verb} (read : Verb.ofText? text = some verb) :
    text = verb.toText := by
  unfold Verb.ofText? at read
  split at read <;> cases read <;> rfl

theorem verb_without_dots (verb : Verb) : '.' ∉ verb.toText.toList := by cases verb <;> decide

/-- A path follows the convention when it is a route, a verb and the extension with dots between
them, and neither the route nor the extension holds another dot. -/
theorem of_path_eq_some_iff {path extension : String} {routed : RoutedName} :
    RoutedName.ofPath? path extension = some routed ↔
      path = routed.route ++ "." ++ routed.verb.toText ++ "." ++ extension ∧
        routed.route ≠ "" ∧ '.' ∉ routed.route.toList ∧ '.' ∉ extension.toList := by
  constructor
  · intro named
    unfold RoutedName.ofPath? at named
    split at named
    · next route verb last parts =>
        split at named
        · cases named
        · next fits =>
            obtain ⟨found, read, rfl⟩ := Option.map_eq_some_iff.mp named
            simp only [Bool.or_eq_true, not_or, decide_eq_true_eq, Decidable.not_not,
              List.isEmpty_iff] at fits
            obtain ⟨rfl, nonempty⟩ := fits
            obtain ⟨whole, free⟩ := (split_on_eq_iff (by simp)).mp parts
            refine ⟨?_, by simpa [String.ext_iff] using nonempty, ?_, ?_⟩
            · apply String.toList_injective
              rw [whole, ← verb_of_text read]
              simp [List.intercalate]
            · simpa using free route (by simp)
            · exact free extension.toList (by simp)
    · cases named
  · rintro ⟨rfl, nonempty, routeFree, extensionFree⟩
    obtain ⟨route, verb⟩ := routed
    have parts : (route ++ "." ++ verb.toText ++ "." ++ extension).toList.splitOn '.' =
        [route.toList, verb.toText.toList, extension.toList] := by
      apply (split_on_eq_iff (by simp)).mpr
      refine ⟨by simp [List.intercalate], ?_⟩
      simp only [List.forall_mem_cons]
      exact ⟨routeFree, verb_without_dots verb, extensionFree, List.forall_mem_nil _⟩
    have solid : route.toList ≠ [] := mt String.toList_eq_nil_iff.mp nonempty
    rw [RoutedName.ofPath?, parts]
    simp [solid, Verb.of_text_to_text]

theorem path_of_routed {path extension : String} {routed : RoutedName}
    (named : RoutedName.ofPath? path extension = some routed) :
    path.toList = routed.route.toList ++ '.' :: routed.verb.toText.toList ++
      '.' :: extension.toList := by
  rw [(of_path_eq_some_iff.mp named).1]
  simp

theorem route_nonempty {path extension : String} {routed : RoutedName}
    (named : RoutedName.ofPath? path extension = some routed) : routed.route.toList ≠ [] :=
  mt String.toList_eq_nil_iff.mp (of_path_eq_some_iff.mp named).2.1

theorem of_path_inj {first second extension : String} {routed : RoutedName}
    (one : RoutedName.ofPath? first extension = some routed)
    (two : RoutedName.ofPath? second extension = some routed) : first = second := by
  apply String.toList_injective
  rw [path_of_routed one, path_of_routed two]

theorem endpoint_path_inj {space first second : String}
    (same : endpointPath space first = endpointPath space second) : first = second := by
  unfold endpointPath at same
  split at same
  · exact same
  · apply String.toList_injective
    have texts := congrArg String.toList same
    rw [String.toList_ofList, String.toList_ofList] at texts
    exact (List.cons.inj (List.append_cancel_left texts)).2

/-- Exactly the paths that are written as a route, a verb and the extension follow the convention,
and the verb and the endpoint path of such a path tell which one it was. -/
theorem named_as_written (path extension : String) :
    (∀ routed, RoutedName.ofPath? path extension = some routed ↔
      path = routed.route ++ "." ++ routed.verb.toText ++ "." ++ extension ∧
        routed.route ≠ "" ∧ '.' ∉ routed.route.toList ∧ '.' ∉ extension.toList) ∧
    ∀ (other space : String) (one two : RoutedName),
      RoutedName.ofPath? path extension = some one →
      RoutedName.ofPath? other extension = some two →
      one.verb = two.verb → endpointPath space one.route = endpointPath space two.route →
      path = other := by
  refine ⟨fun routed => of_path_eq_some_iff, ?_⟩
  rintro other space ⟨route, verb⟩ ⟨otherRoute, otherVerb⟩ one two verbs paths
  obtain rfl : verb = otherVerb := verbs
  obtain rfl : route = otherRoute := endpoint_path_inj paths
  exact of_path_inj one two

/-- Without an extension the dot in front of it stays. -/
theorem named_as_written_without_extension :
    RoutedName.ofPath? "shop/items.put." "" = some ⟨"shop/items", .put⟩ ∧
    RoutedName.ofPath? ("shop" ++ "/items" ++ ".put.") "" = some ⟨"shop/items", .put⟩ ∧
    endpointPath "magic//" "shop/items" = "magic/shop/items" ∧
    "shop/items.put." = "shop" ++ "/items" ++ ".put." := by
  obtain ⟨writes, determines⟩ := named_as_written "shop/items.put." ""
  have named : RoutedName.ofPath? "shop/items.put." "" = some ⟨"shop/items", .put⟩ :=
    (writes ⟨"shop/items", .put⟩).mpr (by decide)
  have joined : RoutedName.ofPath? ("shop" ++ "/items" ++ ".put.") "" =
      some ⟨"shop/items", .put⟩ := by
    decide
  exact ⟨named, joined, by decide, determines _ "magic//" _ _ named joined rfl rfl⟩

def slashed (character : Char) : Char := if character = '\\' then '/' else character

theorem normalize_path_eq (path : String) :
    normalizePath path = String.ofList (path.toList.map slashed) := rfl

theorem slashed_of_ne {character : Char} (plain : character ≠ '\\') :
    slashed character = character := if_neg plain

theorem map_slashed_of_not_mem {text : List Char} (plain : '\\' ∉ text) :
    text.map slashed = text := by
  have same : ∀ character ∈ text, slashed character = id character := by
    intro character member
    exact slashed_of_ne fun backslash => plain (backslash ▸ member)
  rw [List.map_congr_left same, List.map_id]

end RouteManifest
