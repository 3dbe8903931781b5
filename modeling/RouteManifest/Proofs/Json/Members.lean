import RouteManifest.Json.Basic

/-!
Members that are sorted by key. To set a key keeps the keys in strict order, so what is built
that way is sorted, holds no key twice, and is not changed when it is built once more.
-/

namespace RouteManifest

variable {Item : Type} {key : String} {item : Item} {members : List (String × Item)}

/-- The keys stand in strict order. -/
def KeysSorted (members : List (String × Item)) : Prop :=
  members.Pairwise fun first second => first.1 < second.1

theorem mem_insert_sorted {member : String × Item} (inside : member ∈ insertSorted key item members) :
    member = (key, item) ∨ member ∈ members := by
  fun_induction insertSorted key item members with
  | case1 => exact .inl (List.mem_singleton.mp inside)
  | case2 head kept rest before => exact List.mem_cons.mp inside
  | case3 kept rest before =>
      exact (List.mem_cons.mp inside).imp id (List.mem_cons_of_mem _)
  | case4 head kept rest before different induction =>
      rcases List.mem_cons.mp inside with rfl | later
      · exact .inr List.mem_cons_self
      · exact (induction later).imp id (List.mem_cons_of_mem _)

theorem insert_sorted_keys (sorted : KeysSorted members) :
    KeysSorted (insertSorted key item members) := by
  fun_induction insertSorted key item members with
  | case1 => exact List.pairwise_singleton _ _
  | case2 head kept rest before =>
      refine List.pairwise_cons.mpr ⟨?_, sorted⟩
      intro member inside
      rcases List.mem_cons.mp inside with rfl | later
      · exact before
      · exact String.lt_trans before ((List.pairwise_cons.mp sorted).1 member later)
  | case3 kept rest before =>
      obtain ⟨first, others⟩ := List.pairwise_cons.mp sorted
      exact List.pairwise_cons.mpr ⟨first, others⟩
  | case4 head kept rest before different induction =>
      obtain ⟨first, others⟩ := List.pairwise_cons.mp sorted
      refine List.pairwise_cons.mpr ⟨?_, induction others⟩
      intro member inside
      rcases mem_insert_sorted inside with rfl | later
      · exact Std.lt_of_le_of_ne (String.not_lt.mp before) (Ne.symm different)
      · exact first member later

theorem insert_sorted_last (behind : ∀ member ∈ members, member.1 < key) :
    insertSorted key item members = members ++ [(key, item)] := by
  induction members with
  | nil => rfl
  | cons member members induction =>
      obtain ⟨first, others⟩ := List.forall_mem_cons.mp behind
      have different : key ≠ member.1 := fun same => String.lt_irrefl _ (same ▸ first)
      rw [insertSorted, if_neg (String.lt_asymm first), if_neg different, induction others]
      rfl

theorem fold_insert_sorted_keys (added : List (String × Item)) (sorted : KeysSorted members) :
    KeysSorted (added.foldl (fun built (key, item) => insertSorted key item built) members) := by
  induction added generalizing members with
  | nil => exact sorted
  | cons member added induction => exact induction (insert_sorted_keys sorted)

theorem sorted_members_keys (members : List (String × Item)) : KeysSorted (sortedMembers members) :=
  fold_insert_sorted_keys members .nil

theorem sorted_members_concat (members : List (String × Item)) (key : String) (item : Item) :
    sortedMembers (members ++ [(key, item)]) = insertSorted key item (sortedMembers members) :=
  List.foldl_append

theorem mem_fold_insert_sorted {added : List (String × Item)} {member : String × Item}
    (inside : member ∈
      added.foldl (fun built (key, item) => insertSorted key item built) members) :
    member ∈ added ∨ member ∈ members := by
  induction added generalizing members with
  | nil => exact .inr inside
  | cons first added induction =>
      rcases induction inside with later | built
      · exact .inl (List.mem_cons_of_mem _ later)
      · rcases mem_insert_sorted built with rfl | old
        · exact .inl List.mem_cons_self
        · exact .inr old

theorem mem_sorted_members {member : String × Item} (inside : member ∈ sortedMembers members) :
    member ∈ members :=
  (mem_fold_insert_sorted inside).resolve_right List.not_mem_nil

theorem fold_insert_sorted_of_keys {added : List (String × Item)}
    (sorted : KeysSorted (members ++ added)) :
    added.foldl (fun built (key, item) => insertSorted key item built) members =
      members ++ added := by
  induction added generalizing members with
  | nil => rw [List.append_nil]; rfl
  | cons member added induction =>
      obtain ⟨key, item⟩ := member
      have behind : ∀ other ∈ members, other.1 < key := fun other inside =>
        (List.pairwise_append.mp sorted).2.2 other inside (key, item) List.mem_cons_self
      rw [List.append_cons] at sorted ⊢
      rw [List.foldl_cons]
      simp only [insert_sorted_last behind]
      exact induction sorted

theorem sorted_members_of_keys (sorted : KeysSorted members) : sortedMembers members = members := by
  have behindNothing : KeysSorted ([] ++ members) := sorted
  exact fold_insert_sorted_of_keys behindNothing

theorem insert_sorted_map {Other : Type} (change : Item → Other) (key : String) (item : Item)
    (members : List (String × Item)) :
    (insertSorted key item members).map (Prod.map id change) =
      insertSorted key (change item) (members.map (Prod.map id change)) := by
  fun_induction insertSorted key item members with
  | case1 => rfl
  | case2 head kept rest before =>
      simp only [List.map_cons, Prod.map, id, insertSorted, if_pos before]
  | case3 kept rest before =>
      simp only [List.map_cons, Prod.map, id, insertSorted, if_neg before, if_true]
  | case4 head kept rest before different induction =>
      simp only [List.map_cons, Prod.map, id, insertSorted, if_neg before, if_neg different,
        induction]

theorem fold_insert_sorted_map {Other : Type} (change : Item → Other)
    (added members : List (String × Item)) :
    (added.foldl (fun built (key, item) => insertSorted key item built) members).map
        (Prod.map id change) =
      (added.map (Prod.map id change)).foldl (fun built (key, item) => insertSorted key item built)
        (members.map (Prod.map id change)) := by
  induction added generalizing members with
  | nil => rfl
  | cons member added induction =>
      rw [List.foldl_cons, induction, insert_sorted_map]
      rfl

theorem sorted_members_map {Other : Type} (change : Item → Other)
    (members : List (String × Item)) :
    (sortedMembers members).map (Prod.map id change) =
      sortedMembers (members.map (Prod.map id change)) :=
  fold_insert_sorted_map change members []

theorem lookup_cons_eq (name key : String) (item : Item) (members : List (String × Item)) :
    List.lookup name ((key, item) :: members) =
      if name = key then some item else members.lookup name := by
  rw [List.lookup_cons]
  by_cases same : name = key
  · simp [same]
  · rw [if_neg same, beq_false_of_ne same]

theorem lookup_insert_sorted (key : String) (item : Item) (members : List (String × Item))
    (name : String) : (insertSorted key item members).lookup name =
      if name = key then some item else members.lookup name := by
  fun_induction insertSorted key item members with
  | case1 => exact lookup_cons_eq name key item []
  | case2 head kept rest before => exact lookup_cons_eq name key item _
  | case3 kept rest before =>
      rw [lookup_cons_eq, lookup_cons_eq]
      split <;> rfl
  | case4 head kept rest before different induction =>
      rw [lookup_cons_eq, lookup_cons_eq, induction]
      by_cases first : name = head
      · have other : name ≠ key := fun same => different (same.symm.trans first)
        rw [if_pos first, if_neg other, if_pos first]
      · rw [if_neg first, if_neg first]

theorem lookup_fold_insert_sorted (added members : List (String × Item)) (name : String) :
    (added.foldl (fun built (key, item) => insertSorted key item built) members).lookup name =
      (added.reverse.lookup name).or (members.lookup name) := by
  induction added generalizing members with
  | nil => rfl
  | cons member added induction =>
      obtain ⟨key, item⟩ := member
      rw [List.foldl_cons, induction, lookup_insert_sorted, List.reverse_cons, List.lookup_append,
        Option.or_assoc, lookup_cons_eq]
      by_cases same : name = key <;> simp [same]

/-- Of the values of a key the last one wins. -/
theorem lookup_sorted_members (members : List (String × Item)) (name : String) :
    (sortedMembers members).lookup name = members.reverse.lookup name := by
  rw [sortedMembers, lookup_fold_insert_sorted]
  exact Option.or_none

theorem lookup_eq_some_iff_of_keys (sorted : KeysSorted members) :
    members.lookup key = some item ↔ (key, item) ∈ members := by
  induction members with
  | nil => simp
  | cons member members induction =>
      obtain ⟨first, kept⟩ := member
      obtain ⟨before, later⟩ := List.pairwise_cons.mp sorted
      rw [lookup_cons_eq, List.mem_cons, Prod.mk.injEq]
      by_cases same : key = first
      · have fresh : (key, item) ∉ members := fun inside =>
          String.lt_irrefl _ (same ▸ before (key, item) inside)
        rw [if_pos same, Option.some.injEq]
        simp only [same, true_and, same ▸ fresh, or_false, eq_comm]
      · rw [if_neg same, induction later]
        simp [same]

theorem eq_of_lookup_eq {others : List (String × Item)} (sorted : KeysSorted members)
    (otherSorted : KeysSorted others) (same : ∀ key, members.lookup key = others.lookup key) :
    members = others := by
  have distinct {list : List (String × Item)} (sorted : KeysSorted list) : list.Nodup := by
    apply List.Pairwise.imp _ sorted
    rintro one other before rfl
    exact String.lt_irrefl _ before
  have perm : members.Perm others := by
    apply (List.perm_ext_iff_of_nodup (distinct sorted) (distinct otherSorted)).mpr
    rintro ⟨key, item⟩
    rw [← lookup_eq_some_iff_of_keys sorted, ← lookup_eq_some_iff_of_keys otherSorted, same]
  exact perm.eq_of_pairwise
    (fun _ _ _ _ before after => absurd before (String.lt_asymm after)) sorted otherSorted

/-- The order in which different keys are set makes no difference. -/
theorem sorted_members_of_same_last {others : List (String × Item)}
    (same : ∀ key, members.reverse.lookup key = others.reverse.lookup key) :
    sortedMembers members = sortedMembers others := by
  apply eq_of_lookup_eq (sorted_members_keys members) (sorted_members_keys others)
  intro key
  rw [lookup_sorted_members, lookup_sorted_members, same]

end RouteManifest
