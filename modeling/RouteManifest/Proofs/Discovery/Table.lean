import RouteManifest.Endpoint.Render
import RouteManifest.Proofs.Discovery.Manifest
import RouteManifest.Proofs.Endpoint.Roles
import RouteManifest.Proofs.Text.Lines
import RouteManifest.Proofs.Text.Split
import RouteManifest.Proofs.Text.Trim

/-!
The lines of a table. A row is written as it is, so a line break in a path or in a role starts a
new line that belongs to no endpoint. Paths take theirs from the namespace and from the names of
scanned files, and roles from the tickets of a script, where a break at the end of a part between
commas is trimmed away.
-/

namespace RouteManifest

open RouteManifest.Script (Node)
open RouteManifest.Text

/-- The lines of a table: one for each endpoint, which starts with its verb. -/
structure IsTable (endpoints : List Endpoint) (text : String) (lines : List (List Char)) :
    Prop where
  written : text.toList = lines.flatMap (· ++ ['\n'])
  unbroken : ∀ line ∈ lines, '\n' ∉ line
  verbs : List.Forall₂ (fun endpoint line => endpoint.verb.toUpperText.toList <+: line)
    endpoints lines

def tableLine (endpoint : Endpoint) : List Char :=
  padRight 7 endpoint.verb.toUpperText.toList ++ ' ' :: padRight 48 endpoint.path.toList ++
    ' ' :: padRight 16 ((endpoint.kind.map EndpointKind.toText).getD "-").toList ++
    ' ' :: (",".intercalate (endpoint.roles.getD [])).toList

theorem table_row_eq (endpoint : Endpoint) : tableRow endpoint = tableLine endpoint ++ ['\n'] := rfl

theorem verb_starts_line (endpoint : Endpoint) :
    endpoint.verb.toUpperText.toList <+: tableLine endpoint := by
  simp only [tableLine, padRight, List.append_assoc]
  exact List.prefix_append _ _

section Rows

variable (endpoints : List Endpoint)

theorem render_table_eq :
    (render endpoints .table).toList = (endpoints.map tableLine).flatMap (· ++ ['\n']) := by
  rw [render, String.toList_ofList, List.flatMap_map]
  exact List.flatMap_congr fun endpoint _ => table_row_eq endpoint

/-- A text of rows is a table exactly when no row holds a line break inside. -/
theorem is_table_iff :
    (∃ lines, IsTable endpoints (render endpoints .table) lines) ↔
      ∀ endpoint ∈ endpoints, '\n' ∉ tableLine endpoint := by
  constructor
  · rintro ⟨lines, table⟩
    have same : (endpoints.map tableLine).flatMap (· ++ ['\n']) = lines.flatMap (· ++ ['\n']) :=
      (render_table_eq endpoints).symm.trans table.written
    have counted := congrArg (List.count '\n') same
    rw [count_terminated, count_terminated, List.length_map, table.verbs.length_eq] at counted
    have none : lines.flatten.count '\n' = 0 := by
      apply List.count_eq_zero.mpr
      intro inside
      obtain ⟨line, member, broken⟩ := List.mem_flatten.mp inside
      exact table.unbroken line member broken
    -- as many newlines as endpoints, so the rows have none to spare
    have spare : (endpoints.map tableLine).flatten.count '\n' = 0 := by omega
    intro endpoint member broken
    apply List.count_eq_zero.mp spare
    exact List.mem_flatten.mpr ⟨_, List.mem_map_of_mem member, broken⟩
  · intro whole
    refine ⟨endpoints.map tableLine, render_table_eq endpoints, ?_, ?_⟩
    · exact List.forall_mem_map.mpr whole
    · rw [List.forall₂_map_right_iff, List.forall₂_same]
      exact fun endpoint _ => verb_starts_line endpoint

end Rows

theorem mem_pad_right_iff {width : Nat} {text : List Char} {character : Char}
    (solid : character ≠ ' ') : character ∈ padRight width text ↔ character ∈ text := by
  simp [padRight, solid]

theorem newline_mem_line_iff {endpoint : Endpoint} :
    '\n' ∈ tableLine endpoint ↔
      '\n' ∈ endpoint.path.toList ∨ ∃ role ∈ endpoint.roles.getD [], '\n' ∈ role.toList := by
  have plain_verb : '\n' ∉ endpoint.verb.toUpperText.toList := by
    cases endpoint.verb <;> decide
  have plain_kind : '\n' ∉ ((endpoint.kind.map EndpointKind.toText).getD "-").toList := by
    rcases endpoint.kind with none | kind
    · decide
    · cases kind <;> decide
  have joined : '\n' ∈ (",".intercalate (endpoint.roles.getD [])).toList ↔
      ∃ role ∈ endpoint.roles.getD [], '\n' ∈ role.toList :=
    mem_join_iff (by decide) _
  have solid : '\n' ≠ ' ' := by decide
  simp only [tableLine, List.mem_append, List.mem_cons, mem_pad_right_iff solid, plain_verb,
    plain_kind, joined, solid, false_or, or_false]

theorem mem_endpoint_path_iff {space route : String} {character : Char} (solid : character ≠ '/') :
    character ∈ (endpointPath space route).toList ↔
      character ∈ space.toList ∨ character ∈ route.toList := by
  have kept : isSlash character = false := beq_eq_false_iff_ne.mpr solid
  rw [endpointPath]
  split
  · next none => simp [String.isEmpty_iff.mp none]
  · simp [mem_drop_end_while_iff kept, solid]

theorem newline_mem_roles_iff (script : Node) (vocabulary : Vocabulary) :
    (∃ role ∈ (declaredRoles script vocabulary).getD [], '\n' ∈ role.toList) ↔
      ∃ text ∈ ticketTexts script vocabulary, ∃ part ∈ text.toList.splitOn ',',
        '\n' ∈ trim part := by
  simp only [declared_roles_get_d, List.mem_flatMap, mem_roles_of_text_iff]
  constructor
  · rintro ⟨role, ⟨text, declared, -, part, listed, same⟩, broken⟩
    exact ⟨text, declared, part, listed, same ▸ broken⟩
  · rintro ⟨text, declared, part, listed, broken⟩
    refine ⟨String.ofList (trim part), ⟨text, declared, ?_, part, listed, ?_⟩, ?_⟩
    · intro none
      rw [← String.toList_eq_nil_iff, String.toList_ofList] at none
      simp [none] at broken
    · rw [String.toList_ofList]
    · rwa [String.toList_ofList]

namespace Discovery

/-- Nothing that reaches the row of a file holds a line break. -/
structure Unbroken (settings : Settings) (file : ScriptFile) (script : Node) : Prop where
  space : '\n' ∉ settings.routeSpace.toList
  route : '\n' ∉ file.route.toList
  tickets : ∀ text ∈ ticketTexts script settings.vocabulary, ∀ part ∈ text.toList.splitOn ',',
    '\n' ∉ trim part

theorem unbroken_iff {settings : Settings} {file : ScriptFile} {script : Node} :
    Unbroken settings file script ↔ '\n' ∉ tableLine (describeFile settings file script) := by
  have path : '\n' ∈ (describeFile settings file script).path.toList ↔
      '\n' ∈ settings.routeSpace.toList ∨ '\n' ∈ file.route.toList :=
    mem_endpoint_path_iff (by decide)
  have roles : (∃ role ∈ (describeFile settings file script).roles.getD [], '\n' ∈ role.toList) ↔
      ∃ text ∈ ticketTexts script settings.vocabulary, ∃ part ∈ text.toList.splitOn ',',
        '\n' ∈ trim part :=
    newline_mem_roles_iff script settings.vocabulary
  rw [newline_mem_line_iff, path, roles]
  push Not
  constructor
  · exact fun whole => ⟨⟨whole.space, whole.route⟩, whole.tickets⟩
  · rintro ⟨⟨space, route⟩, tickets⟩
    exact ⟨space, route, tickets⟩

variable {disk : Disk} {settings : Settings} {root : String} {manifest : List Endpoint}

/-- A manifest is shown with one line for each endpoint, which starts with its verb, exactly when
no line break comes from the namespace, from the route of a scanned file or from the inside of a
role that its script requires. -/
theorem table_has_line_for_each (discovered : discover disk settings root = .ok manifest) :
    (∃ lines, IsTable manifest (render manifest .table) lines) ↔
      ∀ file script, .ok file ∈ Scan.start.rest (ScanPlan.ofSettings root settings) disk false →
        disk.loadScript file.path = .ok script → Unbroken settings file script := by
  rw [is_table_iff]
  constructor
  · intro whole file script scanned loads
    obtain ⟨loaded, same, member⟩ := discover_describes discovered scanned
    obtain rfl := Except.ok.inj (loads.symm.trans same)
    exact unbroken_iff.mpr (whole _ member)
  · intro unbroken endpoint member
    obtain ⟨file, script, scanned, loads, rfl⟩ := described_of_discover discovered member
    exact unbroken_iff.mp (unbroken file script scanned loads)

/-- The two endpoints of the shop are shown in two lines. -/
theorem table_of_shop :
    discover shopDisk {} "top" = .ok [describeFile {} cartFile { name := "" },
      describeFile {} itemsFile { name := "" }] ∧
    ∃ lines, IsTable [describeFile {} cartFile { name := "" },
        describeFile {} itemsFile { name := "" }]
      (render [describeFile {} cartFile { name := "" }, describeFile {} itemsFile { name := "" }]
        .table) lines := by
  have discovered := discover_shop "magic"
  refine ⟨discovered, (table_has_line_for_each discovered).mpr ?_⟩
  intro file script scanned loads
  have listed : Scan.start.rest (ScanPlan.ofSettings "top" {}) shopDisk false =
      [cartFile, itemsFile].map .ok := shop_files_listed
  obtain ⟨given, member, same⟩ := List.mem_map.mp (listed ▸ scanned)
  obtain rfl := Except.ok.inj same
  rcases List.mem_pair.mp member with rfl | rfl
  · obtain rfl := Except.ok.inj (loads.symm.trans load_cart_script)
    exact ⟨by decide, by decide, by simp [ticketTexts]⟩
  · obtain rfl := Except.ok.inj (loads.symm.trans load_items_script)
    exact ⟨by decide, by decide, by simp [ticketTexts]⟩

/-- A ticket whose text spells a line break. -/
def tornSource : String := "auth.ticket.verify:\"a\\nb\"\n"

def tornScript : Node where
  name := ""
  children := [Node.ofText "auth.ticket.verify" "a\nb"]

def tornDisk : Disk :=
  loneDisk ⟨"torn", by decide⟩ ⟨"role.get.hl", by decide⟩ tornSource.toUTF8

def tornFile : ScriptFile := ⟨"top/modules/torn/role.get.hl", "modules/torn/role", .get⟩

theorem torn_file_listed :
    Scan.start.rest (ScanPlan.ofSettings "top" {}) tornDisk false = [.ok tornFile] := by
  have given : (ScanPlan.ofSettings "top" {}).fileOf
      ([⟨"torn", by decide⟩, ⟨"role.get.hl", by decide⟩], ⟨"modules/torn/role", .get⟩) =
        tornFile := by
    decide
  rw [← given]
  exact lone_disk_listed _ _ _ rfl (by decide) (by decide) (by decide)

theorem load_torn_script : tornDisk.loadScript tornFile.path = .ok tornScript := by
  apply load_written_script tornSource
  · exact Disk.find_of_leads [⟨"top", by decide⟩, ⟨"modules", by decide⟩, ⟨"torn", by decide⟩,
      ⟨"role.get.hl", by decide⟩] rfl rfl rfl (by decide)
  · rfl

/-- A role that is written with an escaped line break is shown in two lines. -/
theorem not_every_table_has_line_for_each :
    ¬ ∀ (disk : Disk) (settings : Settings) (root : String) (manifest : List Endpoint),
      discover disk settings root = .ok manifest →
        ∃ lines, IsTable manifest (render manifest .table) lines := by
  intro every
  have table := every tornDisk {} "top" _ (discover_lone torn_file_listed load_torn_script)
  apply (is_table_iff _).mp table _ List.mem_cons_self
  decide

end Discovery

end RouteManifest
