import Mathlib.Data.List.TakeWhile
import RouteManifest.Command.Run
import RouteManifest.Proofs.Discovery.Manifest
import RouteManifest.Proofs.Naming
import RouteManifest.Proofs.Text.Trim

/-!
Which endpoints are shown for a route. The path of an endpoint leaves out the slashes at the end
of the route space, while the text that is searched for keeps them, and searching drops the
slashes at the front of a path. So an endpoint is found by its route when the route space does
not end with a slash, and by its path when the route space does not start with one.
-/

namespace RouteManifest

open RouteManifest.Text

theorem any_slash_iff {character : Option Char} :
    character.any isSlash = false ↔ character ≠ some '/' := by
  cases character <;> simp [isSlash]

theorem drop_while_slash_eq_self_iff {text : List Char} :
    text.dropWhile isSlash = text ↔ text.head? ≠ some '/' := by
  rw [List.dropWhile_eq_self_iff, ← any_slash_iff]
  cases text <;> simp

/-- A route that neither starts nor ends with a slash, and is not empty. -/
structure IsPlainRoute (route : List Char) : Prop where
  nonempty : route ≠ []
  front : route.head? ≠ some '/'
  back : route.getLast? ≠ some '/'

namespace IsPlainRoute

variable {route : List Char}

theorem drop_while_eq (plain : IsPlainRoute route) : route.dropWhile isSlash = route :=
  drop_while_slash_eq_self_iff.mpr plain.front

theorem drop_end_while_eq (plain : IsPlainRoute route) : dropEndWhile isSlash route = route :=
  drop_end_while_eq_self_iff.mpr (any_slash_iff.mpr plain.back)

theorem not_all_slashes (plain : IsPlainRoute route) : route.all isSlash = false := by
  apply Bool.eq_false_iff.mpr
  intro slashes
  have nothing := drop_end_while_eq_nil_iff.mpr slashes
  exact plain.nonempty (plain.drop_end_while_eq ▸ nothing)

theorem trim_slashes_append (plain : IsPlainRoute route) (front : List Char) :
    (Path.trimSlashes (String.ofList (front ++ route))).toList =
      front.dropWhile isSlash ++ route := by
  have dropped : (front ++ route).dropWhile isSlash = front.dropWhile isSlash ++ route := by
    rw [List.dropWhile_append, plain.drop_while_eq]
    split
    · next none => rw [List.isEmpty_iff.mp none, List.nil_append]
    · rfl
  have trimmed : Path.trimSlashes (String.ofList (front ++ route)) =
      String.ofList (dropEndWhile isSlash ((front ++ route).dropWhile isSlash)) := by
    rw [Path.trimSlashes, String.toList_ofList]
    rfl
  rw [trimmed, String.toList_ofList, dropped,
    drop_end_while_append_of_kept _ plain.not_all_slashes, plain.drop_end_while_eq]

theorem trim_slashes_eq {route : String} (plain : IsPlainRoute route.toList) :
    Path.trimSlashes route = route := by
  have kept := plain.trim_slashes_append []
  rw [List.nil_append, String.ofList_toList] at kept
  exact String.toList_injective kept

end IsPlainRoute

theorem head_of_trimmed {text : List Char} (nonempty : text ≠ []) :
    (dropEndWhile isSlash text ++ ['/']).head? = text.head? := by
  obtain ⟨first, rest, rfl⟩ := List.exists_cons_of_ne_nil nonempty
  obtain ⟨dropped, whole⟩ : dropEndWhile isSlash (first :: rest) <+: first :: rest :=
    drop_end_while_is_start (first :: rest)
  cases kept : dropEndWhile isSlash (first :: rest) with
  | nil =>
      have slashes := drop_end_while_eq_nil_iff.mp kept
      have slash : isSlash first = true := List.all_eq_true.mp slashes first List.mem_cons_self
      rw [beq_iff_eq.mp slash]
      rfl
  | cons character others =>
      rw [kept, List.cons_append] at whole
      simp [(List.cons.inj whole).1]

theorem endpoint_path_of_empty (route : String) : endpointPath "" route = route := rfl

theorem endpoint_path_eq {space : String} (given : space ≠ "") (route : String) :
    endpointPath space route =
      String.ofList ((dropEndWhile isSlash space.toList ++ ['/']) ++ route.toList) := by
  have present : space.isEmpty = false := by simpa using given
  rw [endpointPath, if_neg (by simp [present]), List.append_assoc]
  rfl

theorem eq_nil_of_trimmed {text : List Char}
    (nothing : (dropEndWhile isSlash text ++ ['/']).dropWhile isSlash = []) :
    dropEndWhile isSlash text = [] := by
  have slashes : (dropEndWhile isSlash text).all isSlash = true := by
    apply List.all_eq_true.mpr
    intro character member
    exact List.dropWhile_eq_nil_iff.mp nothing character (List.mem_append_left _ member)
  have kept : dropEndWhile isSlash (dropEndWhile isSlash text) = dropEndWhile isSlash text :=
    drop_end_while_eq_self_iff.mpr (drop_end_while_getLast text)
  rw [← kept]
  exact drop_end_while_eq_nil_iff.mpr slashes

namespace Command

theorem names_iff {space key path : String} :
    names space key path = true ↔
      path.toList = key.toList ∨ path.toList = (space.toList ++ ['/']) ++ key.toList := by
  rw [names, Bool.or_eq_true, beq_iff_eq, beq_iff_eq, ← String.toList_inj, ← String.toList_inj]
  simp [toString]

/-- A route names the path of its endpoint when the route space does not end with a slash. -/
theorem names_route_iff (space route : String) :
    names space route (endpointPath space route) = true ↔
      space.toList.getLast? ≠ some '/' := by
  by_cases given : space = ""
  · subst given
    simp [names, endpoint_path_of_empty]
  · have longer : (endpointPath space route).toList ≠ route.toList := by
      intro same
      have lengths := congrArg List.length same
      rw [endpoint_path_eq given, String.toList_ofList] at lengths
      simp only [List.length_append, List.length_singleton] at lengths
      omega
    rw [names_iff, or_iff_right longer, endpoint_path_eq given, String.toList_ofList,
      List.append_cancel_right_eq, List.append_cancel_right_eq, drop_end_while_eq_self_iff,
      any_slash_iff]

/-- The path of an endpoint names itself when the route space does not start with a slash. -/
theorem names_path_iff (space : String) {route : String} (plain : IsPlainRoute route.toList) :
    names space (Path.trimSlashes (endpointPath space route)) (endpointPath space route) = true ↔
      space.toList.head? ≠ some '/' := by
  by_cases given : space = ""
  · subst given
    rw [endpoint_path_of_empty, plain.trim_slashes_eq]
    simp [names]
  · have key := plain.trim_slashes_append (dropEndWhile isSlash space.toList ++ ['/'])
    rw [← endpoint_path_eq given] at key
    have start := head_of_trimmed (mt String.toList_eq_nil_iff.mp given)
    -- With the route space in front of it, what is searched for is too long to be the path.
    have longer : (endpointPath space route).toList ≠ (space.toList ++ ['/']) ++
        (Path.trimSlashes (endpointPath space route)).toList := by
      intro same
      have lengths := congrArg List.length same
      rw [key, endpoint_path_eq given, String.toList_ofList] at lengths
      have shorter : (dropEndWhile isSlash space.toList).length ≤ space.toList.length :=
        (drop_end_while_is_start space.toList).length_le
      simp only [List.length_append, List.length_singleton] at lengths
      have nothing : dropEndWhile isSlash space.toList = [] :=
        eq_nil_of_trimmed (List.length_eq_zero_iff.mp (by omega))
      rw [nothing, List.length_nil] at lengths
      exact given (String.toList_eq_nil_iff.mp (List.length_eq_zero_iff.mp (by omega)))
    rw [names_iff, or_iff_left longer, key, endpoint_path_eq given, String.toList_ofList,
      List.append_cancel_right_eq, eq_comm, drop_while_slash_eq_self_iff, start]

section Search

variable {disk : Disk} {settings : Settings} {root text word : String} {verb : Verb}
  {manifest found : List Endpoint}

/-- A search gives all endpoints with the verb and a name that fits, if there are any. -/
theorem show_route_ok_iff (discovered : discover disk settings root = .ok manifest)
    (read : verbOf? word = some verb) :
    showRoute disk settings root text word = .ok found ↔
      found ≠ [] ∧ found = manifest.filter fun endpoint => endpoint.verb == verb &&
        names settings.routeSpace (Path.trimSlashes text) endpoint.path := by
  simp only [showRoute, read, discovered]
  split
  · next nothing =>
      rw [List.isEmpty_iff.mp nothing]
      simp
  · next some =>
      rw [List.isEmpty_iff] at some
      constructor
      · intro shown
        obtain rfl := Except.ok.inj shown
        exact ⟨some, rfl⟩
      · rintro ⟨-, rfl⟩
        rfl

/-- A search for a text and a verb succeeds, and an endpoint is among those that it prints. -/
def Prints (disk : Disk) (settings : Settings) (root text word : String) (endpoint : Endpoint) :
    Prop :=
  ∃ found, showRoute disk settings root text word = .ok found ∧ endpoint ∈ found ∧
    ∀ format, run disk settings root (.show text word format) = .ok (render found format)

theorem prints_iff {endpoint : Endpoint}
    (discovered : discover disk settings root = .ok manifest) (member : endpoint ∈ manifest)
    (read : verbOf? word = some endpoint.verb) :
    Prints disk settings root text word endpoint ↔
      names settings.routeSpace (Path.trimSlashes text) endpoint.path = true := by
  constructor
  · rintro ⟨found, shown, inside, -⟩
    obtain ⟨-, rfl⟩ := (show_route_ok_iff discovered read).mp shown
    have fits := (List.mem_filter.mp inside).2
    exact (Bool.and_eq_true_iff.mp fits).2
  · intro fits
    have inside : endpoint ∈ manifest.filter fun other => other.verb == endpoint.verb &&
        names settings.routeSpace (Path.trimSlashes text) other.path :=
      List.mem_filter.mpr ⟨member, by simp [fits]⟩
    have shown := (show_route_ok_iff discovered read).mpr ⟨List.ne_nil_of_mem inside, rfl⟩
    exact ⟨_, shown, inside, fun format => by rw [run, shown]; rfl⟩

end Search

/-- Every file that is scanned has an endpoint, which is found by its route exactly when the
route space does not end with a slash, and by its whole path exactly when the route space does
not start with one. -/
theorem show_finds_scanned_file (disk : Disk) (settings : Settings) (root : String)
    {manifest : List Endpoint} (discovered : discover disk settings root = .ok manifest)
    {file : ScriptFile}
    (scanned : .ok file ∈ Scan.start.rest (ScanPlan.ofSettings root settings) disk false)
    (front : file.route.toList.head? ≠ some '/') (back : file.route.toList.getLast? ≠ some '/')
    {word : String} (read : verbOf? word = some file.verb) :
    ∃ script, disk.loadScript file.path = .ok script ∧
      let endpoint := Discovery.describeFile settings file script
      let space := settings.routeSpace
      (Prints disk settings root file.route word endpoint ↔ space.toList.getLast? ≠ some '/') ∧
      (Prints disk settings root (endpointPath space file.route) word endpoint ↔
        space.toList.head? ≠ some '/') := by
  obtain ⟨script, loads, member⟩ := Discovery.discover_describes discovered scanned
  obtain ⟨steps, routed, gives, same⟩ := Scan.gives_of_listed scanned
  have nonempty : file.route.toList ≠ [] := by
    rw [same]
    exact route_nonempty gives.named
  have plain : IsPlainRoute file.route.toList := ⟨nonempty, front, back⟩
  refine ⟨script, loads, ?_, ?_⟩
  · rw [prints_iff discovered member read, plain.trim_slashes_eq]
    exact names_route_iff settings.routeSpace file.route
  · rw [prints_iff discovered member read]
    exact names_path_iff settings.routeSpace plain

/-- The items of a shop with a route space that has no slash at its ends are found in both ways. -/
theorem show_finds_shop_items :
    discover shopDisk {} "top" = .ok [Discovery.describeFile {} Discovery.cartFile { name := "" },
      Discovery.describeFile {} Discovery.itemsFile { name := "" }] ∧
    ∃ script, shopDisk.loadScript Discovery.itemsFile.path = .ok script ∧
      let endpoint := Discovery.describeFile {} Discovery.itemsFile script
      Prints shopDisk {} "top" "modules/shop/items" "GET" endpoint ∧
      Prints shopDisk {} "top" "magic/modules/shop/items" "GET" endpoint := by
  have discovered := Discovery.discover_shop "magic"
  refine ⟨discovered, ?_⟩
  have scanned : .ok Discovery.itemsFile ∈
      Scan.start.rest (ScanPlan.ofSettings "top" {}) shopDisk false := by
    rw [Discovery.shop_files_listed]
    decide
  have read : verbOf? "GET" = some Discovery.itemsFile.verb := by decide
  obtain ⟨script, loads, byRoute, byPath⟩ := show_finds_scanned_file shopDisk {} "top" discovered
    scanned (by decide) (by decide) read
  exact ⟨script, loads, byRoute.mpr (by decide), byPath.mpr (by decide)⟩

/-- A route space that ends with a slash hides every endpoint from a search for its route. -/
theorem not_every_scanned_file_is_shown :
    ¬ ∀ (disk : Disk) (settings : Settings) (root : String) (manifest : List Endpoint)
      (file : ScriptFile) (script : Script.Node),
      discover disk settings root = .ok manifest →
      .ok file ∈ Scan.start.rest (ScanPlan.ofSettings root settings) disk false →
      file.route.toList.head? ≠ some '/' → file.route.toList.getLast? ≠ some '/' →
      disk.loadScript file.path = .ok script →
      let endpoint := Discovery.describeFile settings file script
      Prints disk settings root file.route file.verb.toText endpoint ∧
        Prints disk settings root (endpointPath settings.routeSpace file.route) file.verb.toText
          endpoint := by
  intro always
  have discovered := Discovery.discover_shop "magic/"
  have scanned : .ok Discovery.itemsFile ∈
      Scan.start.rest (ScanPlan.ofSettings "top" { routeSpace := "magic/" }) shopDisk false := by
    change .ok Discovery.itemsFile ∈ Scan.start.rest (ScanPlan.ofSettings "top" {}) shopDisk false
    rw [Discovery.shop_files_listed]
    decide
  obtain ⟨byRoute, -⟩ := always shopDisk { routeSpace := "magic/" } "top" _ _ _ discovered scanned
    (by decide) (by decide) Discovery.load_items_script
  rw [prints_iff discovered (by simp) (by decide)] at byRoute
  exact absurd byRoute (by decide)

end Command

end RouteManifest
