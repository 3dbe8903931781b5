import RouteManifest.Json.Decode
import RouteManifest.Proofs.Json.Document
import RouteManifest.Proofs.Json.Members

/-!
Values written and read back as values. A value that was read nests no deeper than the reader
allows and holds the members of an object in order, and every such value is read back from its
text when its numbers are whole. Other numbers are rounded when they are read, and what is written
for them is one of many numerals of the rounded number. They are finite, so null is never written
for one of them.
-/

namespace RouteManifest.Json

mutual
/-- A value that a reader can give: nested at most so deep, with sorted members, and with whole
numbers of 64 bits or finite ones. -/
def Fits (depth : Nat) : Json → Prop
  | number (.whole value) => IsStored value
  | number (.real value) => value.isFinite = true
  | array items => depth ≠ 0 ∧ FitItems (depth - 1) items
  | object members => depth ≠ 0 ∧ KeysSorted members ∧ FitMembers (depth - 1) members
  | _ => True
def FitItems (depth : Nat) : List Json → Prop
  | [] => True
  | item :: rest => item.Fits depth ∧ FitItems depth rest
def FitMembers (depth : Nat) : List (String × Json) → Prop
  | [] => True
  | (_, value) :: rest => value.Fits depth ∧ FitMembers depth rest
end

mutual
/-- All numbers of a value are whole. -/
def IsExact : Json → Prop
  | number (.real _) => False
  | array items => ExactItems items
  | object members => ExactMembers members
  | _ => True
def ExactItems : List Json → Prop
  | [] => True
  | item :: rest => item.IsExact ∧ ExactItems rest
def ExactMembers : List (String × Json) → Prop
  | [] => True
  | (_, value) :: rest => value.IsExact ∧ ExactMembers rest
end

theorem fit_members_iff {depth : Nat} {members : List (String × Json)} :
    FitMembers depth members ↔ ∀ member ∈ members, member.2.Fits depth := by
  induction members with
  | nil => simp [FitMembers]
  | cons member members induction => simp [FitMembers, induction]

mutual
theorem Fits.mono {low high : Nat} (le : low ≤ high) {value : Json} (fits : value.Fits low) :
    value.Fits high := by
  cases value with
  | array items =>
      obtain ⟨positive, inner⟩ := fits
      exact ⟨by omega, FitItems.mono (Nat.sub_le_sub_right le 1) inner⟩
  | object members =>
      obtain ⟨positive, sorted, inner⟩ := fits
      exact ⟨by omega, sorted, FitMembers.mono (Nat.sub_le_sub_right le 1) inner⟩
  | number number => cases number <;> exact fits
  | _ => trivial
theorem FitItems.mono {low high : Nat} (le : low ≤ high) {items : List Json}
    (fits : FitItems low items) : FitItems high items := by
  cases items with
  | nil => trivial
  | cons item items => exact ⟨Fits.mono le fits.1, FitItems.mono le fits.2⟩
theorem FitMembers.mono {low high : Nat} (le : low ≤ high) {members : List (String × Json)}
    (fits : FitMembers low members) : FitMembers high members := by
  cases members with
  | nil => trivial
  | cons member members => exact ⟨Fits.mono le fits.1, FitMembers.mono le fits.2⟩
end

namespace Document

mutual
/-- What a reader gives fits its limit. -/
theorem json_fits {depth : Nat} (document : Document) {value : Json}
    (read : document.json? depth = some value) : value.Fits depth := by
  cases document with
  | null =>
      cases read
      trivial
  | bool flag =>
      cases read
      trivial
  | number numeral =>
      obtain ⟨number, taken, rfl⟩ := Option.map_eq_some_iff.mp read
      cases number with
      | whole value => exact numeral_value_stored taken
      | real value => exact numeral_value_finite taken
  | string content =>
      obtain ⟨text, -, rfl⟩ := Option.map_eq_some_iff.mp read
      trivial
  | array items =>
      rw [json?] at read
      split at read
      · cases read
      · next positive =>
          obtain ⟨values, taken, rfl⟩ := Option.map_eq_some_iff.mp read
          exact ⟨positive, items_fit items taken⟩
  | object members =>
      rw [json?] at read
      split at read
      · cases read
      · next positive =>
          obtain ⟨pairs, taken, rfl⟩ := Option.map_eq_some_iff.mp read
          refine ⟨positive, sorted_members_keys pairs, fit_members_iff.mpr ?_⟩
          intro member inside
          exact fit_members_iff.mp (members_fit members taken) member (mem_sorted_members inside)
theorem items_fit {depth : Nat} (items : List Document) {values : List Json}
    (read : items? depth items = some values) : FitItems depth values := by
  cases items with
  | nil =>
      cases read
      trivial
  | cons item items =>
      simp only [items?, Option.bind_eq_bind, Option.bind_eq_some_iff, Option.pure_def,
        Option.some.injEq] at read
      obtain ⟨value, first, others, later, rfl⟩ := read
      exact ⟨json_fits item first, items_fit items later⟩
theorem members_fit {depth : Nat} (members : List (Option String × Document))
    {pairs : List (String × Json)} (read : members? depth members = some pairs) :
    FitMembers depth pairs := by
  cases members with
  | nil =>
      cases read
      trivial
  | cons member members =>
      simp only [members?, Option.bind_eq_bind, Option.bind_eq_some_iff, Option.pure_def,
        Option.some.injEq] at read
      obtain ⟨key, -, value, first, others, later, rfl⟩ := read
      exact ⟨json_fits member.2 first, members_fit members later⟩
end

theorem json_not_null {depth : Nat} {document : Document} {value : Json}
    (read : document.json? depth = some value) (solid : document ≠ .null) : value ≠ .null := by
  rintro rfl
  cases document with
  | null => exact solid rfl
  | bool flag => cases read
  | number numeral =>
      obtain ⟨number, -, other⟩ := Option.map_eq_some_iff.mp read
      cases other
  | string content =>
      obtain ⟨text, -, other⟩ := Option.map_eq_some_iff.mp read
      cases other
  | array items =>
      rw [json?] at read
      split at read
      · cases read
      · obtain ⟨values, -, other⟩ := Option.map_eq_some_iff.mp read
        cases other
  | object members =>
      rw [json?] at read
      split at read
      · cases read
      · obtain ⟨pairs, -, other⟩ := Option.map_eq_some_iff.mp read
        cases other

end Document

theorem Fits.spells {depth : Nat} {number : JsonNumber} (fits : (Json.number number).Fits depth) :
    ∃ numeral, Spells (writeNumber number) numeral := by
  cases number with
  | whole value => exact ⟨_, write_integer_spells value⟩
  | real value => exact write_finite_spells fits

theorem document_not_null {depth : Nat} {value : Json} (fits : value.Fits depth)
    (solid : value ≠ .null) : value.document ≠ .null := by
  cases value with
  | null => exact absurd rfl solid
  | number number =>
      obtain ⟨numeral, spells⟩ := fits.spells
      rw [document, number_document_spelled spells]
      exact Document.noConfusion
  | bool flag => exact Document.noConfusion
  | string text => exact Document.noConfusion
  | array items => exact Document.noConfusion
  | object members => exact Document.noConfusion

theorem number_document_whole (value : Int) :
    numberDocument (.whole value) =
      .number ⟨decide (value < 0), Nat.toDigits 10 value.natAbs, [], none⟩ :=
  number_document_spelled (write_integer_spells value)

mutual
/-- A value with whole numbers is read back from its document. -/
theorem json_document {depth : Nat} (value : Json) (fits : value.Fits depth)
    (numbers : value.IsExact) : value.document.json? depth = some value := by
  cases value with
  | null => rfl
  | bool flag => rfl
  | number number =>
      cases number with
      | whole value =>
          rw [document, number_document_whole, Document.json?, numeral_value_written fits]
          rfl
      | real value => exact numbers.elim
  | string text => rfl
  | array items =>
      obtain ⟨positive, inner⟩ := fits
      rw [document, Document.json?, if_neg positive, items_document items inner numbers]
      rfl
  | object members =>
      obtain ⟨positive, sorted, inner⟩ := fits
      rw [document, Document.json?, if_neg positive, members_document members inner numbers,
        Option.map_some, sorted_members_of_keys sorted]
theorem items_document {depth : Nat} (items : List Json) (fits : FitItems depth items)
    (numbers : ExactItems items) : Document.items? depth (itemDocuments items) = some items := by
  cases items with
  | nil => rfl
  | cons item items =>
      rw [itemDocuments, Document.items?, json_document item fits.1 numbers.1,
        items_document items fits.2 numbers.2]
      rfl
theorem members_document {depth : Nat} (members : List (String × Json))
    (fits : FitMembers depth members) (numbers : ExactMembers members) :
    Document.members? depth (memberDocuments members) = some members := by
  cases members with
  | nil => rfl
  | cons member members =>
      rw [memberDocuments, Document.members?]
      simp only [json_document member.2 fits.1 numbers.1,
        members_document members fits.2 numbers.2]
      rfl
end

end RouteManifest.Json
