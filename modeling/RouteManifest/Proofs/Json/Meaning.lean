import Mathlib.Algebra.Field.Rat
import Mathlib.Tactic.NormNum
import RouteManifest.Proofs.Json.Value

/-!
What a JSON document means, apart from how it is written. The members of an object have no order
and the last one of a key counts, and a number is the exact value of its numeral. A reader keeps
numbers of 64 bits, so a document that is read and written again means the same up to its numbers.
It means the same altogether exactly when every numeral keeps its value on the way.
-/

namespace RouteManifest.Json

open RouteManifest.Number

inductive Meaning (Number : Type)
  | null
  | bool (flag : Bool)
  | number (number : Number)
  | string (text : String)
  | array (items : List (Meaning Number))
  | object (members : List (String × Meaning Number))

namespace Meaning

variable {Source Middle Target : Type}

mutual
def map (change : Source → Target) : Meaning Source → Meaning Target
  | null => .null
  | bool flag => .bool flag
  | number value => .number (change value)
  | string text => .string text
  | array items => .array (mapItems change items)
  | object members => .object (mapMembers change members)
def mapItems (change : Source → Target) : List (Meaning Source) → List (Meaning Target)
  | [] => []
  | item :: rest => item.map change :: mapItems change rest
def mapMembers (change : Source → Target) :
    List (String × Meaning Source) → List (String × Meaning Target)
  | [] => []
  | (key, value) :: rest => (key, value.map change) :: mapMembers change rest
end

mutual
def numbers : Meaning Source → List Source
  | number value => [value]
  | array items => itemNumbers items
  | object members => memberNumbers members
  | _ => []
def itemNumbers : List (Meaning Source) → List Source
  | [] => []
  | item :: rest => item.numbers ++ itemNumbers rest
def memberNumbers : List (String × Meaning Source) → List Source
  | [] => []
  | (_, value) :: rest => value.numbers ++ memberNumbers rest
end

mutual
theorem map_map (first : Source → Middle) (second : Middle → Target) (meaning : Meaning Source) :
    (meaning.map first).map second = meaning.map (second ∘ first) := by
  cases meaning with
  | array items => rw [map, map, map, map_map_items first second items]
  | object members => rw [map, map, map, map_map_members first second members]
  | _ => rfl
theorem map_map_items (first : Source → Middle) (second : Middle → Target)
    (items : List (Meaning Source)) :
    mapItems second (mapItems first items) = mapItems (second ∘ first) items := by
  cases items with
  | nil => rfl
  | cons item items =>
      rw [mapItems, mapItems, mapItems, map_map first second item,
        map_map_items first second items]
theorem map_map_members (first : Source → Middle) (second : Middle → Target)
    (members : List (String × Meaning Source)) :
    mapMembers second (mapMembers first members) = mapMembers (second ∘ first) members := by
  cases members with
  | nil => rfl
  | cons member members =>
      rw [mapMembers, mapMembers, mapMembers, map_map first second member.2,
        map_map_members first second members]
end

section Agreement

variable {first second : Source → Target}

mutual
theorem map_eq_map_iff (meaning : Meaning Source) : meaning.map first = meaning.map second ↔
    ∀ value ∈ meaning.numbers, first value = second value := by
  cases meaning with
  | number value => simp [map, numbers]
  | array items =>
      rw [map, map, array.injEq, numbers]
      exact map_items_eq_iff items
  | object members =>
      rw [map, map, object.injEq, numbers]
      exact map_members_eq_iff members
  | _ => simp [map, numbers]
theorem map_items_eq_iff (items : List (Meaning Source)) :
    mapItems first items = mapItems second items ↔
      ∀ value ∈ itemNumbers items, first value = second value := by
  cases items with
  | nil => simp [mapItems, itemNumbers]
  | cons item items =>
      rw [mapItems, mapItems, List.cons.injEq, itemNumbers, List.forall_mem_append,
        map_eq_map_iff item, map_items_eq_iff items]
theorem map_members_eq_iff (members : List (String × Meaning Source)) :
    mapMembers first members = mapMembers second members ↔
      ∀ value ∈ memberNumbers members, first value = second value := by
  cases members with
  | nil => simp [mapMembers, memberNumbers]
  | cons member members =>
      rw [mapMembers, mapMembers, List.cons.injEq, Prod.mk.injEq, memberNumbers,
        List.forall_mem_append, map_eq_map_iff member.2, map_members_eq_iff members]
      simp only [true_and]
end

end Agreement

theorem map_members_eq (change : Source → Target) (members : List (String × Meaning Source)) :
    mapMembers change members = members.map (Prod.map id (map change)) := by
  induction members with
  | nil => rfl
  | cons member members induction => rw [mapMembers, induction, List.map_cons, Prod.map, id]

end Meaning

namespace Numeral

def power (numeral : Numeral) : Int :=
  match numeral.exponent with
  | none => 0
  | some (negative, digits) => if negative then -digitsValue digits else digitsValue digits

/-- The value of a numeral, not rounded. -/
def exact (numeral : Numeral) : Rat :=
  (if numeral.negative then -1 else 1) * digitsValue (numeral.whole ++ numeral.fraction) *
    10 ^ (numeral.power - numeral.fraction.length)

/-- What is written for the number that a numeral is read as. -/
def echo? (numeral : Numeral) : Option Numeral := numeral.value?.bind numeralOf?

def IsKept (numeral : Numeral) : Prop := numeral.echo?.map exact = some numeral.exact

/-- A numeral without fraction and exponent whose value has a 64-bit form. -/
structure IsStoredWhole (numeral : Numeral) : Prop where
  noFraction : numeral.fraction = []
  noExponent : numeral.exponent = none
  stored : ∃ value : Int, numeral.exact = value ∧ IsStored value

end Numeral

namespace Document

mutual
/-- What a document means, if all its strings have a content. -/
def meaning? : Document → Option (Meaning Numeral)
  | null => some .null
  | bool flag => some (.bool flag)
  | number numeral => some (.number numeral)
  | string content => content.map .string
  | array items => (itemMeanings? items).map .array
  | object members => (memberMeanings? members).map fun pairs => .object (sortedMembers pairs)
def itemMeanings? : List Document → Option (List (Meaning Numeral))
  | [] => some []
  | item :: rest => do
      let value ← item.meaning?
      let values ← itemMeanings? rest
      return value :: values
def memberMeanings? : List (Option String × Document) → Option (List (String × Meaning Numeral))
  | [] => some []
  | (key, item) :: rest => do
      let key ← key
      let value ← item.meaning?
      let values ← memberMeanings? rest
      return (key, value) :: values
end

/-- The two documents are the same JSON value. -/
def SameValue (left right : Document) : Prop :=
  ∃ one other, left.meaning? = some one ∧ right.meaning? = some other ∧
    one.map Numeral.exact = other.map Numeral.exact

/-- The document is the other one up to its numbers, which are those that are written for the
numbers the other ones are read as. -/
def Echoes (written original : Document) : Prop :=
  ∃ told asked, written.meaning? = some told ∧ original.meaning? = some asked ∧
    asked.map Numeral.echo? = told.map some

/-- All numbers of the document have the property. -/
def AllNumbers (property : Numeral → Prop) (document : Document) : Prop :=
  ∃ meaning, document.meaning? = some meaning ∧ ∀ numeral ∈ meaning.numbers, property numeral

/-- An echo is the same value exactly when every number is kept. -/
theorem Echoes.same_value_iff {written original : Document} (echoes : written.Echoes original) :
    written.SameValue original ↔ original.AllNumbers Numeral.IsKept := by
  obtain ⟨told, asked, writes, asks, echo⟩ := echoes
  have values : asked.map (fun numeral => numeral.echo?.map Numeral.exact) =
      (told.map Numeral.exact).map some := by
    have mapped := congrArg (Meaning.map (Option.map Numeral.exact)) echo
    rw [Meaning.map_map, Meaning.map_map] at mapped
    rw [Meaning.map_map]
    exact mapped
  have kept : (∀ numeral ∈ asked.numbers, numeral.IsKept) ↔
      asked.map (fun numeral => numeral.echo?.map Numeral.exact) =
        (asked.map Numeral.exact).map some := by
    rw [Meaning.map_map]
    exact (Meaning.map_eq_map_iff asked).symm
  constructor
  · rintro ⟨one, other, first, second, same⟩
    obtain rfl : told = one := Option.some.inj (writes.symm.trans first)
    obtain rfl : asked = other := Option.some.inj (asks.symm.trans second)
    exact ⟨asked, asks, kept.mpr (by rw [values, same])⟩
  · rintro ⟨meaning, means, all⟩
    obtain rfl : asked = meaning := Option.some.inj (asks.symm.trans means)
    have same := congrArg (Meaning.map fun value => value.getD 0) (values.symm.trans (kept.mp all))
    simp only [Meaning.map_map] at same
    exact ⟨told, asked, writes, asks, same⟩

end Document

mutual
def meaning : Json → Meaning JsonNumber
  | null => .null
  | bool flag => .bool flag
  | number value => .number value
  | string text => .string text
  | array items => .array (itemMeanings items)
  | object members => .object (memberMeanings members)
def itemMeanings : List Json → List (Meaning JsonNumber)
  | [] => []
  | item :: rest => item.meaning :: itemMeanings rest
def memberMeanings : List (String × Json) → List (String × Meaning JsonNumber)
  | [] => []
  | (key, value) :: rest => (key, value.meaning) :: memberMeanings rest
end

theorem member_meanings_eq (members : List (String × Json)) :
    memberMeanings members = members.map (Prod.map id meaning) := by
  induction members with
  | nil => rfl
  | cons member members induction => rw [memberMeanings, induction, List.map_cons, Prod.map, id]

namespace Document

theorem sorted_meanings {asked : List (String × Meaning Numeral)} {pairs : List (String × Json)}
    (same : Meaning.mapMembers Numeral.value? asked =
      Meaning.mapMembers some (memberMeanings pairs)) :
    Meaning.mapMembers Numeral.value? (sortedMembers asked) =
      Meaning.mapMembers some (memberMeanings (sortedMembers pairs)) := by
  have sorted := congrArg sortedMembers same
  rw [Meaning.map_members_eq, Meaning.map_members_eq, member_meanings_eq] at sorted ⊢
  rw [sorted_members_map, sorted_members_map, sorted_members_map, sorted]

mutual
/-- A value that was read means what the document means, with every numeral read. -/
theorem meaning_of_json {depth : Nat} (document : Document) {value : Json}
    (read : document.json? depth = some value) :
    ∃ asked, document.meaning? = some asked ∧
      asked.map Numeral.value? = value.meaning.map some := by
  cases document with
  | null =>
      cases read
      exact ⟨_, rfl, rfl⟩
  | bool flag =>
      cases read
      exact ⟨_, rfl, rfl⟩
  | number numeral =>
      obtain ⟨number, taken, rfl⟩ := Option.map_eq_some_iff.mp read
      refine ⟨_, rfl, ?_⟩
      rw [Meaning.map, taken]
      rfl
  | string content =>
      obtain ⟨text, rfl, rfl⟩ := Option.map_eq_some_iff.mp read
      exact ⟨_, rfl, rfl⟩
  | array items =>
      rw [json?] at read
      split at read
      · cases read
      · obtain ⟨values, taken, rfl⟩ := Option.map_eq_some_iff.mp read
        obtain ⟨asked, means, same⟩ := meanings_of_items items taken
        refine ⟨.array asked, ?_, congrArg Meaning.array same⟩
        rw [meaning?, means]
        rfl
  | object members =>
      rw [json?] at read
      split at read
      · cases read
      · obtain ⟨pairs, taken, rfl⟩ := Option.map_eq_some_iff.mp read
        obtain ⟨asked, means, same⟩ := meanings_of_members members taken
        refine ⟨.object (sortedMembers asked), ?_,
          congrArg Meaning.object (sorted_meanings same)⟩
        rw [meaning?, means]
        rfl
theorem meanings_of_items {depth : Nat} (items : List Document) {values : List Json}
    (read : items? depth items = some values) :
    ∃ asked, itemMeanings? items = some asked ∧
      Meaning.mapItems Numeral.value? asked = Meaning.mapItems some (itemMeanings values) := by
  cases items with
  | nil =>
      cases read
      exact ⟨[], rfl, rfl⟩
  | cons item items =>
      simp only [items?, Option.bind_eq_bind, Option.bind_eq_some_iff, Option.pure_def,
        Option.some.injEq] at read
      obtain ⟨value, first, others, later, rfl⟩ := read
      obtain ⟨head, means, same⟩ := meaning_of_json item first
      obtain ⟨tail, mean, agree⟩ := meanings_of_items items later
      refine ⟨head :: tail, ?_, ?_⟩
      · rw [itemMeanings?, means, mean]
        rfl
      · rw [Meaning.mapItems, same, agree]
        rfl
theorem meanings_of_members {depth : Nat} (members : List (Option String × Document))
    {pairs : List (String × Json)} (read : members? depth members = some pairs) :
    ∃ asked, memberMeanings? members = some asked ∧
      Meaning.mapMembers Numeral.value? asked =
        Meaning.mapMembers some (memberMeanings pairs) := by
  cases members with
  | nil =>
      cases read
      exact ⟨[], rfl, rfl⟩
  | cons member members =>
      obtain ⟨name, item⟩ := member
      simp only [members?, Option.bind_eq_bind, Option.bind_eq_some_iff, Option.pure_def,
        Option.some.injEq] at read
      obtain ⟨key, rfl, value, first, others, later, rfl⟩ := read
      obtain ⟨head, means, same⟩ := meaning_of_json item first
      obtain ⟨tail, mean, agree⟩ := meanings_of_members members later
      refine ⟨(key, head) :: tail, ?_, ?_⟩
      · rw [memberMeanings?, means, mean]
        rfl
      · rw [Meaning.mapMembers, same, agree]
        rfl
end

end Document

theorem Meaning.map_members_keys {Source Target : Type} (change : Source → Target)
    (members : List (String × Meaning Source)) :
    (Meaning.mapMembers change members).map Prod.fst = members.map Prod.fst := by
  rw [Meaning.map_members_eq, List.map_map]
  rfl

theorem keys_sorted_of_keys {One Other : Type} {members : List (String × One)}
    {others : List (String × Other)} (same : members.map Prod.fst = others.map Prod.fst)
    (sorted : KeysSorted members) : KeysSorted others := by
  have names : (members.map Prod.fst).Pairwise (· < ·) := List.pairwise_map.mpr sorted
  rw [same] at names
  exact List.pairwise_map.mp names

mutual
theorem meaning_document {depth : Nat} (value : Json) (fits : value.Fits depth) :
    ∃ told, value.document.meaning? = some told ∧
      value.meaning.map numeralOf? = told.map some := by
  cases value with
  | number number =>
      obtain ⟨numeral, spells⟩ := fits.spells
      refine ⟨.number numeral, ?_, ?_⟩
      · rw [document, number_document_spelled spells]
        rfl
      · rw [meaning, Meaning.map, numeral_of_spelled spells]
        rfl
  | array items =>
      obtain ⟨told, means, same⟩ := meanings_document items fits.2
      refine ⟨.array told, ?_, congrArg Meaning.array same⟩
      rw [document, Document.meaning?, means]
      rfl
  | object members =>
      obtain ⟨-, sorted, inner⟩ := fits
      obtain ⟨told, means, same⟩ := member_meanings_document members inner
      have keys := congrArg (List.map Prod.fst) same
      rw [Meaning.map_members_keys, Meaning.map_members_keys, member_meanings_eq,
        List.map_map] at keys
      refine ⟨.object told, ?_, congrArg Meaning.object same⟩
      rw [document, Document.meaning?, means, Option.map_some,
        sorted_members_of_keys (keys_sorted_of_keys keys sorted)]
  | _ => exact ⟨_, rfl, rfl⟩
theorem meanings_document {depth : Nat} (items : List Json) (fits : FitItems depth items) :
    ∃ told, Document.itemMeanings? (itemDocuments items) = some told ∧
      Meaning.mapItems numeralOf? (itemMeanings items) = Meaning.mapItems some told := by
  cases items with
  | nil => exact ⟨[], rfl, rfl⟩
  | cons item items =>
      obtain ⟨head, means, same⟩ := meaning_document item fits.1
      obtain ⟨tail, mean, agree⟩ := meanings_document items fits.2
      refine ⟨head :: tail, ?_, ?_⟩
      · rw [itemDocuments, Document.itemMeanings?, means, mean]
        rfl
      · rw [itemMeanings, Meaning.mapItems, same, agree]
        rfl
theorem member_meanings_document {depth : Nat} (members : List (String × Json))
    (fits : FitMembers depth members) :
    ∃ told, Document.memberMeanings? (memberDocuments members) = some told ∧
      Meaning.mapMembers numeralOf? (memberMeanings members) = Meaning.mapMembers some told := by
  cases members with
  | nil => exact ⟨[], rfl, rfl⟩
  | cons member members =>
      obtain ⟨key, value⟩ := member
      obtain ⟨head, means, same⟩ := meaning_document value fits.1
      obtain ⟨tail, mean, agree⟩ := member_meanings_document members fits.2
      refine ⟨(key, head) :: tail, ?_, ?_⟩
      · rw [memberDocuments, Document.memberMeanings?, means, mean]
        rfl
      · rw [memberMeanings, Meaning.mapMembers, same, agree]
        rfl
end

/-- What is written for a value that was read echoes the document it was read from. -/
theorem echoes_of_json {depth : Nat} {document : Document} {value : Json}
    (read : document.json? depth = some value) : value.document.Echoes document := by
  obtain ⟨asked, asks, reads⟩ := Document.meaning_of_json document read
  obtain ⟨told, tells, writes⟩ := meaning_document value (Document.json_fits document read)
  have echo := congrArg (Meaning.map fun number => number.bind numeralOf?) reads
  rw [Meaning.map_map, Meaning.map_map] at echo
  exact ⟨told, asked, tells, asks, echo.trans writes⟩

namespace Numeral

theorem exact_plain (negative : Bool) (digits : List Char) :
    exact ⟨negative, digits, [], none⟩ =
      ((if negative then -digitsValue digits else digitsValue digits : Int) : Rat) := by
  cases negative <;> simp [exact, power]

theorem exact_written (value : Int) :
    exact ⟨decide (value < 0), Nat.toDigits 10 value.natAbs, [], none⟩ = value := by
  have digits : digitsValue (Nat.toDigits 10 value.natAbs) = value.natAbs := by
    change Nat.ofDigitChars 10 (Nat.toDigits 10 value.natAbs) 0 = value.natAbs
    simp
  rw [exact_plain, digits, Int.cast_inj]
  split
  · next negative =>
      have below := of_decide_eq_true negative
      omega
  · next nonnegative =>
      have above := mt decide_eq_true nonnegative
      omega

theorem value_plain {negative : Bool} {digits : List Char}
    (fits : digitsValue digits ≤ significandLimit) :
    value? ⟨negative, digits, [], none⟩ = some (wholeNumber negative (digitsValue digits)) := by
  rw [value?, absorb_of_le fits]
  rfl

theorem kept_of_whole {numeral : Numeral} {value : Int}
    (read : numeral.value? = some (.whole value)) (same : numeral.exact = value) :
    numeral.IsKept := by
  have spells : Spells (writeNumber (.whole value)) _ := write_integer_spells value
  rw [IsKept, echo?, read, Option.bind_some, numeral_of_spelled spells, Option.map_some,
    exact_written, same]

/-- The reader keeps whole numbers of 64 bits. -/
theorem IsStoredWhole.kept {numeral : Numeral} (whole : numeral.IsStoredWhole) :
    numeral.IsKept := by
  obtain ⟨negative, digits, fraction, exponent⟩ := numeral
  obtain ⟨noFraction, noExponent, value, same, low, high⟩ := whole
  obtain rfl : fraction = [] := noFraction
  obtain rfl : exponent = none := noExponent
  have worth : (if negative then -digitsValue digits else digitsValue digits : Int) = value := by
    rw [exact_plain, Int.cast_inj] at same
    exact same
  cases negative with
  | false =>
      have positive : (digitsValue digits : Int) = value := worth
      have fits : digitsValue digits ≤ significandLimit := by
        rw [significandLimit]
        omega
      apply kept_of_whole _ same
      rw [value_plain fits, ← positive]
      rfl
  | true =>
      have negated : -(digitsValue digits : Int) = value := worth
      have fits : digitsValue digits ≤ significandLimit := by
        rw [significandLimit]
        omega
      have read : value? ⟨true, digits, [], none⟩ = some (wholeNumber true (digitsValue digits)) :=
        value_plain fits
      by_cases zero : digitsValue digits = 0
      · have echo : numeralOf? (wholeNumber true 0) = some ⟨true, ['0'], ['0'], none⟩ := by
          decide +kernel
        rw [IsKept, echo?, read, zero, Option.bind_some, echo, Option.map_some, same, ← negated,
          zero]
        simp [exact, power, digitsValue, digitValue]
      · apply kept_of_whole _ same
        rw [read, wholeNumber, if_neg (by decide), if_neg _, ← negated]
        simp only [Bool.or_eq_true, decide_eq_true_eq]
        omega

end Numeral

end RouteManifest.Json
